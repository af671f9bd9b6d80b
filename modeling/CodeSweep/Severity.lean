/-
# Severities

Findings are graded on a scale of four, from low to critical.
-/
import CodeSweep.Text.Blank
import CodeSweep.Text.Lowercase

namespace CodeSweep

/-- How much a finding matters. -/
inductive Severity where
  | low
  | medium
  | high
  | critical
  deriving DecidableEq, Repr

namespace Severity

/-- The scale, from the least important to the most. -/
def all : List Severity := [low, medium, high, critical]

/-- The place on the scale. -/
def rank : Severity → Nat
  | low => 0
  | medium => 1
  | high => 2
  | critical => 3

/-- The name in reports and configurations. -/
def name : Severity → String
  | low => "low"
  | medium => "medium"
  | high => "high"
  | critical => "critical"

/-- The severity of the name. -/
def ofName? (s : String) : Option Severity := all.find? (·.name == s)

/-- The severity a user means, whatever the letter case and the blanks around it. -/
def ofInput? (s : String) : Option Severity := ofName? (Text.lowerString (Text.trimString s))

/-- At or above the threshold. -/
def meets (s threshold : Severity) : Bool := threshold.rank ≤ s.rank

/-- The names of the scale, for messages. -/
def nameList : String := ", ".intercalate (all.map name)

end Severity

end CodeSweep
