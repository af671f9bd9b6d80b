/-
# Reading JSON

Any JSON text can be read, whatever its layout.  Tables keep the order of their entries.
-/
import CodeSweep.Text.Hex
import CodeSweep.Text.Word
import CodeSweep.Value

namespace CodeSweep.Json

open Text

/-! ## Layout -/

/-- The white space of JSON. -/
def isSpace (c : Char) : Bool := c == ' ' || c == '\n' || c == '\r' || c == '\t'

/-- What follows the white space at the start. -/
def skipSpace (cs : List Char) : List Char := cs.dropWhile isSpace

/-- What follows the word, if the text starts with it. -/
def expect? (word : List Char) (cs : List Char) : Option (List Char) :=
  if word.isPrefixOf cs then some (cs.drop word.length) else none

/-! ## Texts -/

/-- The character of a 16-bit unit, which may need the escape of a second one after it. -/
def joinUnits (unit : Nat) (cs : List Char) : Option (Char × List Char) :=
  if 0xD800 ≤ unit && unit < 0xDC00 then
    match cs with
    | '\\' :: 'u' :: rest =>
      match readHex 4 0 rest with
      | some (low, rest') =>
        if 0xDC00 ≤ low && low < 0xE000 then
          some (Char.ofNat (0x10000 + (unit - 0xD800) * 0x400 + (low - 0xDC00)), rest')
        else none
      | none => none
    | _ => none
  else if unit.isValidChar then some (Char.ofNat unit, cs)
  else none

/-- The character of an escape after its backslash. -/
def readEscape : List Char → Option (Char × List Char)
  | '"' :: cs => some ('"', cs)
  | '\\' :: cs => some ('\\', cs)
  | '/' :: cs => some ('/', cs)
  | 'b' :: cs => some (Char.ofNat 8, cs)
  | 'f' :: cs => some (Char.ofNat 12, cs)
  | 'n' :: cs => some ('\n', cs)
  | 'r' :: cs => some ('\r', cs)
  | 't' :: cs => some ('\t', cs)
  | 'u' :: cs =>
    match readHex 4 0 cs with
    | some (unit, rest) => joinUnits unit rest
    | none => none
  | _ => none

/-- The characters of a text up to its closing quote, and what follows.  `seen` holds the
characters so far, the last one first. -/
def readChars : (fuel : Nat) → (seen : List Char) → List Char → Option (String × List Char)
  | 0, _, _ => none
  | fuel + 1, seen, cs =>
    match cs with
    | [] => none
    | '"' :: rest => some (String.ofList seen.reverse, rest)
    | '\\' :: rest =>
      match readEscape rest with
      | some (c, rest') => readChars fuel (c :: seen) rest'
      | none => none
    | c :: rest => if c.toNat < 32 then none else readChars fuel (c :: seen) rest

/-- A text after its opening quote. -/
def readText (cs : List Char) : Option (String × List Char) := readChars (cs.length + 1) [] cs

/-! ## Numbers -/

/-- The characters that a number may have. -/
def isNumberChar (c : Char) : Bool :=
  isAsciiDigit c || c == '-' || c == '+' || c == '.' || c == 'e' || c == 'E'

/-- The number that decimal digits spell. -/
def ofDigits (digits : List Char) : Nat := digits.foldl (fun n c => 10 * n + (c.toNat - 48)) 0

/-- The integer that the characters spell, if they are digits with or without a minus sign. -/
def readInt? : List Char → Option Int
  | '-' :: digits =>
    if digits.isEmpty || !digits.all isAsciiDigit then none else some (-(ofDigits digits : Int))
  | digits =>
    if digits.isEmpty || !digits.all isAsciiDigit then none else some (ofDigits digits : Int)

/-- A number and what follows. -/
def readNumber (cs : List Char) : Option (Value × List Char) :=
  let literal := cs.takeWhile isNumberChar
  let rest := cs.dropWhile isNumberChar
  match literal with
  | [] => none
  | c :: _ =>
    if c == '-' || isAsciiDigit c then
      match readInt? literal with
      | some n => some (.int n, rest)
      | none => some (.real (String.ofList literal), rest)
    else none

/-! ## Values -/

mutual

/-- A value at the start of the text, and what follows. -/
def readValue : (fuel : Nat) → List Char → Option (Value × List Char)
  | 0, _ => none
  | fuel + 1, cs =>
    match skipSpace cs with
    | '"' :: rest =>
      match readText rest with
      | some (s, rest') => some (.text s, rest')
      | none => none
    | '[' :: rest =>
      match skipSpace rest with
      | ']' :: rest' => some (.list [], rest')
      | rest' => readItems fuel [] rest'
    | '{' :: rest =>
      match skipSpace rest with
      | '}' :: rest' => some (.table [], rest')
      | rest' => readEntries fuel [] rest'
    | 'n' :: rest => (expect? "ull".toList rest).map fun r => (.null, r)
    | 't' :: rest => (expect? "rue".toList rest).map fun r => (.bool true, r)
    | 'f' :: rest => (expect? "alse".toList rest).map fun r => (.bool false, r)
    | rest => readNumber rest

/-- The items of a list up to its closing bracket.  `seen` holds the items so far, the last one
first. -/
def readItems : (fuel : Nat) → (seen : List Value) → List Char → Option (Value × List Char)
  | 0, _, _ => none
  | fuel + 1, seen, cs =>
    match readValue fuel cs with
    | none => none
    | some (v, rest) =>
      match skipSpace rest with
      | ',' :: rest' => readItems fuel (v :: seen) rest'
      | ']' :: rest' => some (.list (v :: seen).reverse, rest')
      | _ => none

/-- The entries of a table up to its closing brace.  `seen` holds the entries so far, the last one
first. -/
def readEntries : (fuel : Nat) → (seen : List (String × Value)) → List Char →
    Option (Value × List Char)
  | 0, _, _ => none
  | fuel + 1, seen, cs =>
    match skipSpace cs with
    | '"' :: rest =>
      match readText rest with
      | none => none
      | some (k, rest') =>
        match skipSpace rest' with
        | ':' :: rest'' =>
          match readValue fuel rest'' with
          | none => none
          | some (v, rest3) =>
            match skipSpace rest3 with
            | ',' :: rest4 => readEntries fuel ((k, v) :: seen) rest4
            | '}' :: rest4 => some (.table ((k, v) :: seen).reverse, rest4)
            | _ => none
        | _ => none
    | _ => none

end

/-- The value that a text spells in JSON. -/
def read? (s : String) : Option Value :=
  match readValue (2 * s.length + 2) s.toList with
  | some (v, rest) => if (skipSpace rest).isEmpty then some v else none
  | none => none

end CodeSweep.Json
