/-
# Lines and positions

A text is a list of characters.  Its lines are the pieces between line feeds, each without a
carriage return at its end; a position is a line number and a column number, both from one on.
-/
import CodeSweep.Text.Blank

namespace CodeSweep

/-! ## Lines -/

namespace Text

/-- The line without a carriage return at its end. -/
def dropCarriageReturn : List Char → List Char
  | [] => []
  | ['\r'] => []
  | c :: cs => c :: dropCarriageReturn cs

/-- The lines of a text.  There is one more of them than there are line feeds. -/
def lines (text : List Char) : List (List Char) :=
  (splitAt (· == '\n') text).map dropCarriageReturn

/-- The characters at which a printed text breaks into lines. -/
def isLineBreak (c : Char) : Bool :=
  let n := c.toNat
  (10 ≤ n && n ≤ 13) || (0x1C ≤ n && n ≤ 0x1E) || n == 0x85 || n == 0x2028 || n == 0x2029

/-- The characters before the first line break. -/
def firstPrintedLine (text : List Char) : List Char := text.takeWhile (!isLineBreak ·)

end Text

/-! ## Positions -/

/-- A place in a text by line and column, both counted from one. -/
structure Position where
  line : Nat
  column : Nat
  deriving DecidableEq, Repr

namespace Position

/-- The first place of a text. -/
def first : Position := ⟨1, 1⟩

/-- The place after the character. -/
def next (p : Position) (c : Char) : Position :=
  if c = '\n' then ⟨p.line + 1, 1⟩ else ⟨p.line, p.column + 1⟩

/-- The place `n` characters after `p`, where `text` is what follows `p`.  Past the end of the text
the columns go on. -/
def advance (p : Position) : List Char → Nat → Position
  | _, 0 => p
  | [], n + 1 => ⟨p.line, p.column + (n + 1)⟩
  | c :: cs, n + 1 => (p.next c).advance cs n

/-- The place of the character with the given offset. -/
def ofOffset (text : List Char) (offset : Nat) : Position := first.advance text offset

end Position

/-- Two places of a text, the second one just after the last character meant. -/
structure Extent where
  start : Position
  stop : Position
  deriving DecidableEq, Repr

/-- A stretch of a text by offsets, from `1` up to but not including `2`. -/
abbrev Span := Nat × Nat

namespace Text

/-- The characters of a stretch. -/
def slice (text : List Char) (s : Span) : List Char := (text.take s.2).drop s.1

end Text

end CodeSweep
