/-
# Reading TOML

A TOML document is a sequence of lines: headers of tables and of lists of tables, and keys with
their values.  Line ends are line feeds only.  Reading fails on a text that is no TOML document.
-/
import CodeSweep.Pattern.Match
import CodeSweep.Text.Hex
import CodeSweep.Toml.Document

namespace CodeSweep.Toml

open Text

/-! ## Layout -/

/-- A space or a tabulator. -/
def isSpace (c : Char) : Bool := c == ' ' || c == '\t'

/-- What follows spaces and tabulators. -/
def skipSpace (cs : List Char) : List Char := cs.dropWhile isSpace

/-- A control character, which neither comments nor texts may hold. -/
def isControl (c : Char) : Bool := (c.toNat < 32 && c != '\t') || c.toNat == 127

/-- What follows a comment, if there is one. -/
def skipComment (cs : List Char) : Option (List Char) :=
  match cs with
  | '#' :: rest =>
    let rest' := rest.dropWhile fun c => !isControl c
    match rest' with
    | [] => some []
    | '\n' :: _ => some rest'
    | _ => none
  | _ => some cs

/-- What follows spaces, line feeds and comments. -/
def skipLayout : (fuel : Nat) → List Char → Option (List Char)
  | 0, cs => some cs
  | fuel + 1, cs =>
    match cs.dropWhile fun c => isSpace c || c == '\n' with
    | '#' :: rest =>
      match skipComment ('#' :: rest) with
      | some rest' => skipLayout fuel rest'
      | none => none
    | rest => some rest

/-! ## Texts -/

/-- The character of a basic escape after its backslash. -/
def readEscape : List Char → Option (Char × List Char)
  | 'b' :: cs => some (Char.ofNat 8, cs)
  | 't' :: cs => some ('\t', cs)
  | 'n' :: cs => some ('\n', cs)
  | 'f' :: cs => some (Char.ofNat 12, cs)
  | 'r' :: cs => some ('\r', cs)
  | '"' :: cs => some ('"', cs)
  | '\\' :: cs => some ('\\', cs)
  | 'u' :: cs =>
    match readHex 4 0 cs with
    | some (n, rest) => if n.isValidChar then some (Char.ofNat n, rest) else none
    | none => none
  | 'U' :: cs =>
    match readHex 8 0 cs with
    | some (n, rest) => if n.isValidChar then some (Char.ofNat n, rest) else none
    | none => none
  | _ => none

/-- What follows a backslash at the end of a line: the white space up to the next character.
Between backslash and line feed there may be spaces. -/
def skipLineEnd (cs : List Char) : Option (List Char) :=
  match skipSpace cs with
  | [] => some []
  | '\n' :: rest => some (rest.dropWhile fun c => isSpace c || c == '\n')
  | _ => none

/-- A text on one line up to its closing double quote. -/
def readBasic : (fuel : Nat) → (seen : List Char) → List Char → Option (String × List Char)
  | 0, _, _ => none
  | fuel + 1, seen, cs =>
    match cs with
    | [] => none
    | '"' :: rest => some (String.ofList seen.reverse, rest)
    | '\\' :: rest =>
      match readEscape rest with
      | some (c, rest') => readBasic fuel (c :: seen) rest'
      | none => none
    | c :: rest => if isControl c then none else readBasic fuel (c :: seen) rest

/-- At most two further quotes that belong to the text before its closing delimiter. -/
def extraQuotes (quote : Char) (cs : List Char) : List Char × List Char :=
  match cs with
  | a :: b :: rest =>
    if a = quote && b = quote then ([a, b], rest)
    else if a = quote then ([a], b :: rest)
    else ([], cs)
  | [a] => if a = quote then ([a], []) else ([], cs)
  | [] => ([], [])

/-- A text on several lines up to its three closing double quotes. -/
def readBasicLines : (fuel : Nat) → (seen : List Char) → List Char → Option (String × List Char)
  | 0, _, _ => none
  | fuel + 1, seen, cs =>
    match cs with
    | [] => none
    | '"' :: '"' :: '"' :: rest =>
      let (extra, rest') := extraQuotes '"' rest
      some (String.ofList (seen.reverse ++ extra), rest')
    | '\\' :: rest =>
      match rest with
      | ' ' :: _ | '\t' :: _ | '\n' :: _ =>
        match skipLineEnd rest with
        | some rest' => readBasicLines fuel seen rest'
        | none => none
      | _ =>
        match readEscape rest with
        | some (c, rest') => readBasicLines fuel (c :: seen) rest'
        | none => none
    | c :: rest =>
      if isControl c && c != '\n' then none else readBasicLines fuel (c :: seen) rest

/-- A literal text on one line up to its closing single quote. -/
def readLiteral (cs : List Char) : Option (String × List Char) :=
  let body := cs.takeWhile fun c => c != '\'' && !isControl c
  match cs.dropWhile fun c => c != '\'' && !isControl c with
  | '\'' :: rest => some (String.ofList body, rest)
  | _ => none

/-- A literal text on several lines up to its three closing single quotes. -/
def readLiteralLines : (seen : List Char) → List Char → Option (String × List Char)
  | _, [] => none
  | seen, c :: rest =>
    if "'''".toList.isPrefixOf (c :: rest) then
      let (extra, rest') := extraQuotes '\'' (rest.drop 2)
      some (String.ofList (seen.reverse ++ extra), rest')
    else if isControl c && c != '\n' then none
    else readLiteralLines (c :: seen) rest

/-- What follows the line feed right after an opening delimiter. -/
def dropFirstLineFeed : List Char → List Char
  | '\n' :: cs => cs
  | cs => cs

/-- A text of any of the four kinds, if one starts here. -/
def readText (cs : List Char) : Option (String × List Char) :=
  match cs with
  | '"' :: '"' :: '"' :: rest => readBasicLines (cs.length + 1) [] (dropFirstLineFeed rest)
  | '"' :: rest => readBasic (cs.length + 1) [] rest
  | '\'' :: '\'' :: '\'' :: rest => readLiteralLines [] (dropFirstLineFeed rest)
  | '\'' :: rest => readLiteral rest
  | _ => none

/-! ## Numbers, dates and times -/

namespace Token

open Pattern

/-- An ASCII digit. -/
def digit : CharSet := .inside (between '0' '9')

/-- Exactly `n` digits. -/
def digits (n : Nat) : Pattern := count n n digit

/-- One of the characters, then more of them, with single underscores between any two. -/
def grouped (s : CharSet) : Pattern := one s ++ repeated (maybeChar '_' ++ one s)

/-- An integer in base sixteen, two or eight. -/
def radixInteger : Pattern :=
  anyOf
    ["0x" ++ grouped (.inside (between '0' '9' ++ between 'A' 'F' ++ between 'a' 'f')),
      "0b" ++ grouped (.inside (between '0' '1')), "0o" ++ grouped (.inside (between '0' '7'))]

/-- A decimal number.  The group `float` holds what makes it more than an integer. -/
def decimal : Pattern :=
  maybe (.inside (chars "+-")) ++
    anyOf ["0", one (.inside (between '1' '9')) ++ repeated (maybeChar '_' ++ one digit)] ++
    group "float" (optional ("." ++ grouped digit) ++
      optional (oneOf "eE" ++ maybe (.inside (chars "+-")) ++ grouped digit))

/-- A time of the day. -/
def time : Pattern :=
  anyOf [oneOf "01" ++ one digit, "2" ++ one (.inside (between '0' '3'))] ++ ":" ++
    one (.inside (between '0' '5')) ++ one digit ++ ":" ++ one (.inside (between '0' '5')) ++
    one digit ++ optional ("." ++ some1 digit)

/-- The distance of a time zone. -/
def offset : Pattern :=
  anyOf
    [oneOf "Zz",
      oneOf "+-" ++ anyOf [oneOf "01" ++ one digit, "2" ++ one (.inside (between '0' '3'))] ++
        ":" ++ one (.inside (between '0' '5')) ++ one digit]

/-- A date, with or without a time. -/
def date : Pattern :=
  group "year" (digits 4) ++ "-" ++
    group "month" (anyOf ["0" ++ one (.inside (between '1' '9')),
      "1" ++ one (.inside (between '0' '2'))]) ++ "-" ++
    group "day" (anyOf ["0" ++ one (.inside (between '1' '9')), oneOf "12" ++ one digit,
      "3" ++ oneOf "01"]) ++
    optional (oneOf "Tt " ++ time ++ optional offset)

/-- A number without digits. -/
def special : Pattern := maybe (.inside (chars "+-")) ++ anyWord ["inf", "nan"]

end Token

/-- The number that digits of the base spell, whatever stands between them. -/
def ofDigits (base : Nat) (cs : List Char) : Nat :=
  (cs.filterMap hexValue?).foldl (fun n d => base * n + d) 0

/-- The value of an integer without a point or an exponent. -/
def integerValue : List Char → Int
  | '0' :: 'x' :: cs => ofDigits 16 cs
  | '0' :: 'b' :: cs => ofDigits 2 cs
  | '0' :: 'o' :: cs => ofDigits 8 cs
  | '-' :: cs => -(ofDigits 10 cs : Int)
  | cs => ofDigits 10 cs

/-- The number of days of a month. -/
def daysIn (year month : Nat) : Nat :=
  if month = 2 then
    if year % 4 = 0 && (year % 100 ≠ 0 || year % 400 = 0) then 29 else 28
  else if month = 4 || month = 6 || month = 9 || month = 11 then 30
  else 31

/-- The stretch of the group as a number. -/
def groupNumber (cs : List Char) (m : Match) (name : String) : Nat :=
  match m.group? name with
  | some (a, b) => ofDigits 10 ((cs.take b).drop a)
  | none => 0

/-- The date exists in the calendar. -/
def isCalendarDate (cs : List Char) (m : Match) : Bool :=
  let year := groupNumber cs m "year"
  1 ≤ year && groupNumber cs m "day" ≤ daysIn year (groupNumber cs m "month")

/-- The stretch of the group is not empty. -/
def hasGroup (m : Match) (name : String) : Bool :=
  match m.group? name with
  | some (a, b) => a < b
  | none => false

/-- A number, a date or a time, if one starts here. -/
def readToken (cs : List Char) : Option (Value × List Char) :=
  let text := cs.toArray
  let literal (m : Match) : String := String.ofList (cs.take m.stop)
  match Token.date.matchAt? text 0 with
  | some m =>
    if isCalendarDate cs m then some (.moment (literal m), cs.drop m.stop) else none
  | none =>
    match Token.time.matchAt? text 0 with
    | some m => some (.moment (literal m), cs.drop m.stop)
    | none =>
      match Token.radixInteger.matchAt? text 0 with
      | some m => some (.int (integerValue (cs.take m.stop)), cs.drop m.stop)
      | none =>
        match Token.decimal.matchAt? text 0 with
        | some m =>
          if hasGroup m "float" then some (.real (literal m), cs.drop m.stop)
          else some (.int (integerValue (cs.take m.stop)), cs.drop m.stop)
        | none =>
          match Token.special.matchAt? text 0 with
          | some m => some (.real (literal m), cs.drop m.stop)
          | none => none

/-! ## Keys -/

/-- A character of a key without quotes. -/
def isBareKey (c : Char) : Bool := isAsciiLetter c || isAsciiDigit c || c == '-' || c == '_'

/-- One part of a key. -/
def readKeyPart (cs : List Char) : Option (String × List Char) :=
  match cs with
  | '\'' :: rest => readLiteral rest
  | '"' :: rest => readBasic (cs.length + 1) [] rest
  | _ =>
    let name := cs.takeWhile isBareKey
    if name.isEmpty then none else some (String.ofList name, cs.dropWhile isBareKey)

/-- The parts of a key, with dots between them. -/
def readKey : (fuel : Nat) → List Char → Option (List String × List Char)
  | 0, _ => none
  | fuel + 1, cs =>
    match readKeyPart cs with
    | none => none
    | some (part, rest) =>
      match skipSpace rest with
      | '.' :: rest' =>
        match readKey fuel (skipSpace rest') with
        | some (parts, rest'') => some (part :: parts, rest'')
        | none => none
      | rest' => some ([part], rest')

/-! ## Values -/

mutual

/-- A value, and what follows. -/
def readValue : (fuel : Nat) → List Char → Option (Value × List Char)
  | 0, _ => none
  | fuel + 1, cs =>
    match cs with
    | '"' :: _ | '\'' :: _ =>
      match readText cs with
      | some (s, rest) => some (.text s, rest)
      | none => none
    | 't' :: 'r' :: 'u' :: 'e' :: rest => some (.bool true, rest)
    | 'f' :: 'a' :: 'l' :: 's' :: 'e' :: rest => some (.bool false, rest)
    | '[' :: rest => readItems fuel [] rest
    | '{' :: rest =>
      match skipSpace rest with
      | '}' :: rest' => some (.table [], rest')
      | rest' => readInline fuel [] rest'
    | _ => readToken cs

/-- The items of a list up to its closing bracket, with a comma after the last one or not. -/
def readItems : (fuel : Nat) → (seen : List Value) → List Char → Option (Value × List Char)
  | 0, _, _ => none
  | fuel + 1, seen, cs =>
    match skipLayout cs.length cs with
    | none => none
    | some (']' :: rest) => some (.list seen.reverse, rest)
    | some start =>
      match readValue fuel start with
      | none => none
      | some (v, rest) =>
        match skipLayout rest.length rest with
        | some (',' :: rest') => readItems fuel (v :: seen) rest'
        | some (']' :: rest') => some (.list (v :: seen).reverse, rest')
        | _ => none

/-- The entries of a table on one line up to its closing brace. -/
def readInline : (fuel : Nat) → (entries : Entries) → List Char → Option (Value × List Char)
  | 0, _, _ => none
  | fuel + 1, entries, cs =>
    match readKey (cs.length + 1) cs with
    | some (key, '=' :: rest) =>
      match readValue fuel (skipSpace rest) with
      | none => none
      | some (v, rest') =>
        match addDotted 0 v key entries with
        | none => none
        | some entries' =>
          match skipSpace rest' with
          | ',' :: rest'' => readInline fuel entries' (skipSpace rest'')
          | '}' :: rest'' => some (.table (entriesToValue entries'), rest'')
          | _ => none
    | _ => none

end

/-! ## Documents -/

/-- A document that has been read up to some line. -/
structure State where
  entries : Entries
  /-- The table that keys are added to. -/
  header : List String
  /-- The number of headers so far. -/
  sec : Nat

/-- The parts of a header's key without the last one, and the last one. -/
def splitLast (key : List String) : Option (List String × String) :=
  match key.getLast? with
  | some name => some (key.dropLast, name)
  | none => none

/-- Reads a header or a key with its value. -/
def readStatement (st : State) (cs : List Char) : Option (State × List Char) :=
  match cs with
  | '[' :: '[' :: rest =>
    match readKey (rest.length + 1) (skipSpace rest) with
    | some (key, ']' :: ']' :: rest') => do
      let (parents, name) ← splitLast key
      let entries ← within (appendTable name) parents st.entries
      some (⟨entries, key, st.sec + 1⟩, rest')
    | _ => none
  | '[' :: rest =>
    match readKey (rest.length + 1) (skipSpace rest) with
    | some (key, ']' :: rest') => do
      let (parents, name) ← splitLast key
      let entries ← within (declareTable name) parents st.entries
      some (⟨entries, key, st.sec + 1⟩, rest')
    | _ => none
  | _ =>
    match readKey (cs.length + 1) cs with
    | some (key, '=' :: rest) => do
      let (v, rest') ← readValue (2 * rest.length + 2) (skipSpace rest)
      let entries ← within (addDotted st.sec v key) st.header st.entries
      some (⟨entries, st.header, st.sec⟩, rest')
    | _ => none

/-- Reads the lines of a document. -/
def readLines : (fuel : Nat) → State → List Char → Option State
  | 0, st, _ => some st
  | fuel + 1, st, cs =>
    match skipSpace cs with
    | [] => some st
    | '\n' :: rest => readLines fuel st rest
    | start => do
      let (st', rest) ← if start.head? == some '#' then some (st, start) else readStatement st start
      match ← skipComment (skipSpace rest) with
      | [] => some st'
      | '\n' :: rest' => readLines fuel st' rest'
      | _ => none

/-- The table that a TOML document holds. -/
def read? (cs : List Char) : Option (List (String × Value)) :=
  (readLines (cs.length + 1) ⟨[], [], 0⟩ cs).map fun st => entriesToValue st.entries

end CodeSweep.Toml
