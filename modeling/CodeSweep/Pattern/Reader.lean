/-
# The written form of patterns

Rules that are not in the catalogue bring their pattern as text, in the usual notation of regular
expressions: characters, classes in brackets, `\d \s \w` and their complements, anchors, groups,
`|`, the quantifiers with their lazy forms, look-ahead, and look-behind by a fixed number of
characters.  Alternatives that are one character each are read as one class.

Reading fails on a text that is not a pattern.  It also fails on parts of the usual notation that
`Pattern` has nothing for: references back to a group, conditions on a group, atomic groups,
possessive quantifiers, and flags for a whole pattern.  Of the groups that set flags, only those for
letter case are read; comments, characters by name and surrogates that stand alone are not.  So a
rule with such a pattern is refused as one without a pattern is.
-/
import CodeSweep.Pattern.Basic
import CodeSweep.Text.Hex

namespace CodeSweep.Pattern

open Text

/-! ## Numerals -/

/-- A decimal numeral, if one stands at the start. -/
def readNumeral? (cs : List Char) : Option Nat × List Char :=
  let digits := cs.takeWhile isAsciiDigit
  (if digits.isEmpty then none else some (digits.foldl (fun n c => 10 * n + (c.toNat - 48)) 0),
    cs.dropWhile isAsciiDigit)

/-! ## Escapes and classes -/

/-- What a backslash and the characters after it stand for. -/
inductive Escape where
  | char (c : Char)
  | kind (t : CharTest)
  | place (e : Edge)
  deriving DecidableEq, Repr

/-- The character with the given code point. -/
def charOf? (n : Nat) : Option Char := if n.isValidChar then some (Char.ofNat n) else none

/-- An octal digit. -/
def isOctalDigit (c : Char) : Bool := '0' ≤ c && c ≤ '7'

/-- A character by its number, in at most three octal digits. -/
def readOctal (cs : List Char) : Option (Escape × List Char) :=
  let digits := (cs.take 3).takeWhile isOctalDigit
  let n := digits.foldl (fun n c => 8 * n + (c.toNat - 48)) 0
  if n ≤ 0xFF then some (.char (Char.ofNat n), cs.drop digits.length) else none

/-- An escape that means the same inside and outside of brackets. -/
def readCommonEscape : List Char → Option (Escape × List Char)
  | [] => none
  | c :: cs =>
    match c with
    | 'd' => some (.kind (.digit true), cs)
    | 'D' => some (.kind (.digit false), cs)
    | 's' => some (.kind (.blank true), cs)
    | 'S' => some (.kind (.blank false), cs)
    | 'w' => some (.kind (.word true), cs)
    | 'W' => some (.kind (.word false), cs)
    | 'a' => some (.char (Char.ofNat 7), cs)
    | 'f' => some (.char (Char.ofNat 12), cs)
    | 'n' => some (.char '\n', cs)
    | 'r' => some (.char '\r', cs)
    | 't' => some (.char '\t', cs)
    | 'v' => some (.char (Char.ofNat 11), cs)
    | 'x' => do
      let (n, rest) ← readHex 2 0 cs
      some (.char (← charOf? n), rest)
    | 'u' => do
      let (n, rest) ← readHex 4 0 cs
      some (.char (← charOf? n), rest)
    | 'U' => do
      let (n, rest) ← readHex 8 0 cs
      some (.char (← charOf? n), rest)
    | c => if isAsciiLetter c || isAsciiDigit c then none else some (.char c, cs)

/-- An escape outside of brackets, where a number with a zero in front or with three octal digits is
that of a character, and every other one is that of a group. -/
def readEscape : List Char → Option (Escape × List Char)
  | 'A' :: cs => some (.place .textStart, cs)
  | 'Z' :: cs => some (.place .textEnd, cs)
  | 'b' :: cs => some (.place .wordEdge, cs)
  | 'B' :: cs => some (.place .noWordEdge, cs)
  | '0' :: cs => readOctal ('0' :: cs)
  | cs =>
    if ((cs.take 3).takeWhile isOctalDigit).length == 3 then readOctal cs else readCommonEscape cs

/-- An escape inside brackets, where `\b` is the backspace and every number is that of a
character. -/
def readClassEscape : List Char → Option (Escape × List Char)
  | 'b' :: cs => some (.char (Char.ofNat 8), cs)
  | c :: cs => if isOctalDigit c then readOctal (c :: cs) else readCommonEscape (c :: cs)
  | [] => none

/-- One member of a class: a character, plain or escaped, or a kind of characters. -/
def readMember : List Char → Option (Escape × List Char)
  | [] => none
  | '\\' :: cs => readClassEscape cs
  | c :: cs => some (.char c, cs)

/-- One member of a class. -/
inductive Member where
  | char (c : Char)
  | range (lo hi : Char)
  | kind (t : CharTest)
  deriving DecidableEq, Repr

/-- The member that a character or a kind of characters is. -/
def Member.of? : Escape → Option Member
  | .char c => some (.char c)
  | .kind t => some (.kind t)
  | .place _ => none

/-- The members of a class up to the closing bracket.  A bracket that comes first is a member. -/
def readMembers : (fuel : Nat) → (first : Bool) → List Char → Option (List Member × List Char)
  | 0, _, _ => none
  | fuel + 1, first, cs =>
    match cs with
    | [] => none
    | c :: more =>
      if c == ']' && !first then some ([], more)
      else do
        let (low, rest) ← readMember cs
        match rest with
        | '-' :: ']' :: rest' => some ([← Member.of? low, .char '-'], rest')
        | '-' :: rest' => do
          let (high, rest'') ← readMember rest'
          match low, high with
          | .char a, .char b =>
            if b < a then none
            else do
              let (members, rest''') ← readMembers fuel false rest''
              some (.range a b :: members, rest''')
          | _, _ => none
        | _ => do
          let (members, rest') ← readMembers fuel false rest
          some ((← Member.of? low) :: members, rest')

/-- The test for a member.  Where letter case is ignored, a character outside the first plane that
is not alone stands for the characters whose small letter it is. -/
def Member.test (ic alone : Bool) : Member → CharTest
  | .char c => if ic && !alone && decide (0xFFFF < c.toNat) then .small c else .range c c
  | .range lo hi => .range lo hi
  | .kind t => t

/-- The set of a class, read with or without regard to letter case. -/
def setOf (ic negated : Bool) (members : List Member) : CharSet :=
  ⟨members.map (Member.test ic (members.length == 1)), negated, ic⟩

/-! ## Quantifiers -/

/-- How often an item may be repeated. -/
structure Quantifier where
  least : Nat
  most : Option Nat
  lazy : Bool
  deriving DecidableEq, Repr

/-- Bounds in braces, after the opening one.  Anything else is no quantifier, and the brace stands
for itself. -/
def readBraces (cs : List Char) : Option ((Nat × Option Nat) × List Char) :=
  match cs with
  | '}' :: _ => none
  | _ =>
    let (low, rest) := readNumeral? cs
    match rest with
    | '}' :: rest' => some ((low.getD 0, low), rest')
    | ',' :: rest' =>
      let (high, rest'') := readNumeral? rest'
      match rest'' with
      | '}' :: rest''' => some ((low.getD 0, high), rest''')
      | _ => none
    | _ => none

/-- The bounds of a quantifier, if one stands at the start. -/
def readBounds : List Char → Option ((Nat × Option Nat) × List Char)
  | '*' :: cs => some ((0, none), cs)
  | '+' :: cs => some ((1, none), cs)
  | '?' :: cs => some ((0, some 1), cs)
  | '{' :: cs => readBraces cs
  | _ => none

/-- A quantifier, if one stands at the start.  Fails if its bounds cross or another one follows. -/
def readQuantifier (cs : List Char) : Option (Option Quantifier × List Char) :=
  match readBounds cs with
  | none => some (none, cs)
  | some ((least, most), rest) =>
    let (lazy, rest') :=
      match rest with
      | '?' :: rest' => (true, rest')
      | _ => (false, rest)
    if most.any (· < least) || (readBounds rest').isSome then none
    else some (some ⟨least, most, lazy⟩, rest')

/-- The item under the quantifier. -/
def Quantifier.apply (q : Quantifier) : Pattern → Pattern
  | one s => run s q.least q.most q.lazy
  | p => iter p q.least q.most q.lazy

/-! ## Items, sequences, alternatives -/

/-- A group name and what follows its closing bracket. -/
def readName (cs : List Char) : Option (String × List Char) :=
  let name := cs.takeWhile (· != '>')
  match name, cs.dropWhile (· != '>') with
  | c :: _, '>' :: rest =>
    if name.all isWord && !isDigit c then some (String.ofList name, rest) else none
  | _, _ => none

/-- The first pattern and then the second, where nothing adds nothing. -/
def andThen : Pattern → Pattern → Pattern
  | p, empty => p
  | p, q => seq p q

/-- An item of a sequence that is being read. -/
inductive Item where
  /-- A place. -/
  | place (e : Edge)
  /-- A character of a class, or outside of it. -/
  | ofClass (negated : Bool) (members : List Member)
  /-- Any character but the line feed. -/
  | inLine
  /-- Something of several parts. -/
  | whole (p : Pattern)
  deriving DecidableEq, Repr

/-- The item is of one part. -/
def Item.isPlain : Item → Bool
  | whole _ => false
  | _ => true

/-- The pattern of an item. -/
def Item.pattern (ic : Bool) : Item → Pattern
  | place e => edge e
  | ofClass negated members => one (setOf ic negated members)
  | inLine => one (if ic then CharSet.inLine.ignoreCase else .inLine)
  | whole p => p

/-- The pattern of items in a row. -/
def inSequence (ic : Bool) : List Item → Pattern
  | [] => empty
  | item :: items => andThen (item.pattern ic) (inSequence ic items)

/-- The plain items that all alternatives start with, and what is left of the alternatives. -/
def factorOut : (branch : List Item) → (branches : List (List Item)) →
    List Item × List (List Item)
  | [], branches => ([], [] :: branches)
  | item :: items, branches =>
    if item.isPlain && branches.all (·.head? == some item) then
      let (start, rest) := factorOut items (branches.map List.tail)
      (item :: start, rest)
    else ([], (item :: items) :: branches)

/-- The members of the classes, if each alternative is just a class. -/
def classMembers? : List (List Item) → Option (List Member)
  | [] => some []
  | [.ofClass false members] :: branches => (classMembers? branches).map (members ++ ·)
  | _ => none

/-- The items that alternatives amount to. -/
def alternativesOf (ic : Bool) : List (List Item) → List Item
  | [] => []
  | [branch] => branch
  | branch :: branches =>
    let (start, rest) := factorOut branch branches
    match classMembers? rest with
    | some members => start ++ [.ofClass false members.eraseDups]
    | none => start ++ [.whole (anyOf (rest.map (inSequence ic)))]

/-- What a quantifier may follow: an item, or items in a group that keeps nothing. -/
inductive Atom where
  | single (item : Item)
  | grouped (items : List Item)
  deriving DecidableEq, Repr

/-- The items of an atom. -/
def Atom.items : Atom → List Item
  | single item => [item]
  | grouped items => items

/-- The atom under a quantifier.  A place that stands alone cannot be repeated. -/
def Atom.under? (ic : Bool) (q : Quantifier) : Atom → Option Item
  | single (.place _) => none
  | single item => some (.whole (q.apply (item.pattern ic)))
  | grouped items => some (.whole (q.apply (inSequence ic items)))

/-- The least and the greatest number of characters that a pattern matches, if there is one. -/
def widths : Pattern → Nat × Option Nat
  | empty => (0, some 0)
  | one _ => (1, some 1)
  | run _ least most _ => (least, most)
  | seq p q => ((widths p).1 + (widths q).1, do return (← (widths p).2) + (← (widths q).2))
  | alt p q => (min (widths p).1 (widths q).1, do return max (← (widths p).2) (← (widths q).2))
  | iter p least most _ =>
    (least * (widths p).1, if (widths p).2 = some 0 then some 0
      else do return (← most) * (← (widths p).2))
  | group _ p => widths p
  | edge _ => (0, some 0)
  | ahead _ _ => (0, some 0)
  | behind _ _ _ => (0, some 0)

/-- A look behind, by as many characters as the pattern always matches. -/
def lookBehind? (wanted : Bool) (p : Pattern) : Option Pattern :=
  if (widths p).2 = some (widths p).1 then some (behind p (widths p).1 wanted) else none

mutual

/-- Alternatives, up to a closing bracket or the end. -/
def readBranches : (fuel : Nat) → (ic : Bool) → List Char →
    Option (List (List Item) × List Char)
  | 0, _, _ => none
  | fuel + 1, ic, cs => do
    let (items, rest) ← readSequence fuel ic cs
    match rest with
    | '|' :: rest' => do
      let (branches, rest'') ← readBranches fuel ic rest'
      some (items :: branches, rest'')
    | _ => some ([items], rest)

/-- Items in a row, up to a bar, a closing bracket or the end. -/
def readSequence : (fuel : Nat) → (ic : Bool) → List Char → Option (List Item × List Char)
  | 0, _, _ => none
  | fuel + 1, ic, cs =>
    match cs with
    | [] => some ([], [])
    | '|' :: _ => some ([], cs)
    | ')' :: _ => some ([], cs)
    | _ => do
      let (atom, rest) ← readAtom fuel ic cs
      match ← readQuantifier rest with
      | (none, _) => do
        let (items, rest') ← readSequence fuel ic rest
        some (atom.items ++ items, rest')
      | (some q, rest') => do
        let item ← atom.under? ic q
        let (items, rest'') ← readSequence fuel ic rest'
        some (item :: items, rest'')

/-- One atom. -/
def readAtom : (fuel : Nat) → (ic : Bool) → List Char → Option (Atom × List Char)
  | 0, _, _ => none
  | fuel + 1, ic, cs =>
    if (readBounds cs).isSome then none
    else
      match cs with
      | [] => none
      | '^' :: rest => some (.single (.place .lineStart), rest)
      | '$' :: rest => some (.single (.place .lineEnd), rest)
      | '.' :: rest => some (.single .inLine, rest)
      | '[' :: '^' :: rest => do
        let (members, rest') ← readMembers (rest.length + 1) true rest
        some (.single (.ofClass true members.eraseDups), rest')
      | '[' :: rest => do
        let (members, rest') ← readMembers (rest.length + 1) true rest
        some (.single (.ofClass false members.eraseDups), rest')
      | '\\' :: rest => do
        match ← readEscape rest with
        | (.char c, rest') => some (.single (.ofClass false [.char c]), rest')
        | (.kind t, rest') => some (.single (.ofClass false [.kind t]), rest')
        | (.place e, rest') => some (.single (.place e), rest')
      | '(' :: '?' :: ':' :: rest => do
        let (items, rest') ← readGroup fuel ic rest
        some (.grouped items, rest')
      | '(' :: '?' :: 'i' :: ':' :: rest => readWhole fuel true rest some
      | '(' :: '?' :: '-' :: 'i' :: ':' :: rest => readWhole fuel false rest some
      | '(' :: '?' :: '=' :: rest => readWhole fuel ic rest fun p => some (ahead p true)
      | '(' :: '?' :: '!' :: rest => readWhole fuel ic rest fun p => some (ahead p false)
      | '(' :: '?' :: '<' :: '=' :: rest => readWhole fuel ic rest (lookBehind? true)
      | '(' :: '?' :: '<' :: '!' :: rest => readWhole fuel ic rest (lookBehind? false)
      | '(' :: '?' :: 'P' :: '<' :: rest => do
        let (name, rest') ← readName rest
        readWhole fuel ic rest' fun p => some (group name p)
      | '(' :: '?' :: _ => none
      | '(' :: rest => readWhole fuel ic rest some
      | c :: rest => some (.single (.ofClass false [.char c]), rest)

/-- The items inside a group and its closing bracket. -/
def readGroup : (fuel : Nat) → (ic : Bool) → List Char → Option (List Item × List Char)
  | 0, _, _ => none
  | fuel + 1, ic, cs => do
    let (branches, rest) ← readBranches fuel ic cs
    match rest with
    | ')' :: rest' => some (alternativesOf ic branches, rest')
    | _ => none

/-- A group and its closing bracket, made into one item. -/
def readWhole : (fuel : Nat) → (ic : Bool) → List Char → (Pattern → Option Pattern) →
    Option (Atom × List Char)
  | 0, _, _, _ => none
  | fuel + 1, ic, cs, wrap => do
    let (items, rest) ← readGroup fuel ic cs
    some (.single (.whole (← wrap (inSequence ic items))), rest)

end

/-! ## Whole patterns -/

/-- The names of the groups of a pattern. -/
def groupNames : Pattern → List String
  | seq p q => groupNames p ++ groupNames q
  | alt p q => groupNames p ++ groupNames q
  | iter p _ _ _ => groupNames p
  | group name p => name :: groupNames p
  | ahead p _ => groupNames p
  | behind p _ _ => groupNames p
  | _ => []

/-- The pattern that a text spells, if it spells one.  No two groups may have the same name. -/
def read? (ic : Bool) (s : String) : Option Pattern :=
  match readBranches (8 * s.length + 8) ic s.toList with
  | some (branches, []) =>
    let p := inSequence ic (alternativesOf ic branches)
    if p.groupNames.Nodup then some p else none
  | _ => none

end CodeSweep.Pattern
