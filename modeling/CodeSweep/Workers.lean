/-
# The number of workers

How many workers a scan may use is given as a text, with a default for texts that say nothing and a
greatest number that is never passed.
-/
import CodeSweep.Text.Lowercase
import CodeSweep.Text.Numeral

namespace CodeSweep.Workers

/-- The greatest number of workers unless another one is given. -/
def greatest : Int := 32

/-- The number of workers where nothing useful is said: the default, but at least one, and no more
than the maximum. -/
def fallback (dflt maximum : Int) : Int := min (max 1 dflt) maximum

/-- The words that ask for the default. -/
def defaultWords : List String := ["", "auto", "default"]

/-- The number of workers that a text asks for.  What is missing, not an integer or not positive
asks for the default. -/
def resolve (raw : Option String) (dflt maximum : Int) : Int :=
  match raw with
  | none => fallback dflt maximum
  | some s =>
    let word := Text.lowerString (Text.trimString s)
    if defaultWords.contains word then fallback dflt maximum
    else
      match Text.readInt? word.toList with
      | none => fallback dflt maximum
      | some n => if n ≤ 0 then fallback dflt maximum else min n maximum

end CodeSweep.Workers
