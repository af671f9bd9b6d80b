/-
# Rules

A rule names something worth reporting: how to detect it, how much it matters, and which paths it
leaves alone.
-/
import CodeSweep.Language
import CodeSweep.Pattern.Match
import CodeSweep.Severity

namespace CodeSweep

/-! ## Parts of a rule -/

/-- The files a rule is for. -/
inductive Target where
  /-- Files of every language. -/
  | universal
  /-- Files of one language. -/
  | only (language : Language)
  deriving DecidableEq, Repr

/-- The name of the target in reports. -/
def Target.name : Target → String
  | .universal => "universal"
  | .only l => l.name

/-- How a rule finds what it reports. -/
inductive Detector where
  /-- By a pattern.  `anyCase` records that the whole pattern ignores letter case. -/
  | pattern (p : Pattern) (anyCase : Bool)
  /-- By the structural analysis of the rule's name. -/
  | analysis
  /-- Not at all: the rule is only catalogued. -/
  | nothing
  deriving DecidableEq, Repr

/-- Where a pattern is matched. -/
inductive Scope where
  /-- Line by line, the first match of each line. -/
  | line
  /-- In the whole text, every match. -/
  | text
  deriving DecidableEq, Repr

/-- The name of the scope in reports. -/
def Scope.name : Scope → String
  | .line => "line"
  | .text => "text"

/-- A mechanical change that removes what was found. -/
structure Fix where
  kind : String
  replacement : Option String
  deriving DecidableEq, Repr

/-- The fix that removes the whole line. -/
def Fix.removeLine : Fix := ⟨"remove_line", none⟩

/-- The fix that replaces what was found. -/
def Fix.replaceBy (template : String) : Fix := ⟨"replace", some template⟩

/-! ## The type -/

/-- A rule. -/
structure Rule where
  name : String
  target : Target
  detector : Detector
  severity : Severity
  description : String
  /-- Globs of the paths that the rule leaves alone. -/
  exclude : List String := []
  fix : Option Fix := none
  scope : Scope := .line
  /-- Rules whose finding on the same line makes one of this rule superfluous. -/
  suppressedBy : List String := []
  /-- Why the rule is catalogued but never applied. -/
  disabledReason : Option String := none
  knownLimitation : Option String := none
  deriving DecidableEq, Repr

namespace Rule

/-- The rule is applied. -/
def enabled (r : Rule) : Bool := r.disabledReason.isNone

/-- The rule is for files of every language. -/
def isUniversal (r : Rule) : Bool := r.target == .universal

/-- The pattern of the rule. -/
def pattern? (r : Rule) : Option Pattern :=
  match r.detector with
  | .pattern p _ => some p
  | _ => none

/-- The pattern of the rule as a whole respects letter case. -/
def caseSensitive (r : Rule) : Bool :=
  match r.detector with
  | .pattern _ anyCase => !anyCase
  | _ => true

/-- The pattern of the rule matches somewhere in the text, taken as a whole. -/
def test (r : Rule) (text : List Char) : Bool :=
  match r.pattern? with
  | some p => p.foundIn text.toArray
  | none => false

end Rule

end CodeSweep
