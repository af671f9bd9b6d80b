/-
# Sets of characters

A pattern tests one character at a time against a set: a list of ranges and character kinds, taken
as it is or complemented, and with or without regard to letter case.  Letter case matters to ranges
only: a character is of its own kind, whatever its case variants are.
-/
import CodeSweep.Text.Blank
import CodeSweep.Text.CaseVariant
import CodeSweep.Text.Digit

namespace CodeSweep

open Text

/-! ## Tests -/

/-- One entry of a character set. -/
inductive CharTest where
  /-- The characters from `lo` to `hi`, both included. -/
  | range (lo hi : Char)
  /-- The blanks, or all characters but the blanks. -/
  | blank (yes : Bool)
  /-- The word characters, or all others. -/
  | word (yes : Bool)
  /-- The decimal digits, or all others. -/
  | digit (yes : Bool)
  /-- The characters whose small letter is `c`. -/
  | small (c : Char)
  deriving DecidableEq, Repr

/-- The character passes the test. -/
def CharTest.holds : CharTest → Char → Bool
  | .range lo hi, c => decide (lo ≤ c) && decide (c ≤ hi)
  | .blank yes, c => isBlank c == yes
  | .word yes, c => isWord c == yes
  | .digit yes, c => isDigit c == yes
  | .small s, c => smallLetter c == s

/-- The character passes the test without regard to letter case: one of its case variants is in the
range, or the character itself is of the kind. -/
def CharTest.holdsAnyCase : CharTest → Char → Bool
  | .range lo hi, c => (caseVariants c).any (CharTest.range lo hi).holds
  | t, c => t.holds c

/-- The range that the test is, if it ends before it starts. -/
def CharTest.reversed? : CharTest → Option (Char × Char)
  | .range lo hi => if hi < lo then some (lo, hi) else none
  | _ => none

/-! ## Sets -/

/-- A set of characters. -/
structure CharSet where
  /-- A character belongs to the listed part if it passes one of the tests. -/
  tests : List CharTest
  /-- The set holds the characters outside the listed part. -/
  negated : Bool
  /-- The tests are made without regard to letter case. -/
  anyCase : Bool
  deriving DecidableEq, Repr

namespace CharSet

/-- The character passes one of the tests. -/
def listed (s : CharSet) (c : Char) : Bool :=
  s.tests.any fun t => if s.anyCase then t.holdsAnyCase c else t.holds c

/-- The character belongs to the set. -/
def holds (s : CharSet) (c : Char) : Bool := s.listed c != s.negated

/-- The characters that pass one of the tests. -/
def inside (tests : List CharTest) : CharSet := ⟨tests, false, false⟩

/-- The characters that pass none of the tests. -/
def outside (tests : List CharTest) : CharSet := ⟨tests, true, false⟩

/-- Just the one character. -/
def single (c : Char) : CharSet := inside [.range c c]

/-- Every character but the line feed. -/
def inLine : CharSet := outside [.range '\n' '\n']

/-- The ranges of the set that end before they start. -/
def reversed (s : CharSet) : List (Char × Char) := s.tests.filterMap CharTest.reversed?

/-- The same set without regard to letter case. -/
def ignoreCase (s : CharSet) : CharSet := { s with anyCase := true }

end CharSet

/-! ## Lists of tests -/

/-- The characters of the text, one by one. -/
def chars (s : String) : List CharTest := s.toList.map fun c => .range c c

/-- The characters from `lo` to `hi`. -/
def between (lo hi : Char) : List CharTest := [.range lo hi]

/-- The letters `a` to `z` and `A` to `Z`. -/
def letters : List CharTest := between 'A' 'Z' ++ between 'a' 'z'

/-- All word characters. -/
def wordChars : List CharTest := [.word true]

/-- All blanks. -/
def blankChars : List CharTest := [.blank true]

/-- All decimal digits. -/
def digitChars : List CharTest := [.digit true]

/-! ## Sets used all over -/

/-- A space or a tabulator. -/
def spaceOrTab : CharSet := .inside (chars " \t")

/-- A character that may begin an identifier. -/
def identStart : CharSet := .inside (letters ++ chars "_")

/-- A word character. -/
def wordChar : CharSet := .inside wordChars

end CodeSweep
