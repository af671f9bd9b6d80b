/-
# Code point tables

A property of characters is given by the inclusive ranges of the code points that have it.
-/
namespace CodeSweep.Text

/-- The code point of the character lies in one of the ranges. -/
def inRanges (ranges : List (Nat × Nat)) (c : Char) : Bool :=
  ranges.any fun r => r.1 ≤ c.toNat && c.toNat ≤ r.2

end CodeSweep.Text
