/-
# Scanning a text

Scanning a text applies the rules for its language that do not leave its path alone, drops findings
that another finding on the same line makes superfluous and those that directives silence, and
orders the rest by position.
-/
import CodeSweep.Finding
import CodeSweep.Language.Classify
import CodeSweep.Registry
import CodeSweep.Suppression

namespace CodeSweep.Scan

/-! ## The rules for a file -/

/-- The rules for a file of the language: enabled, not switched off by name, and not leaving the
path alone. -/
def activeRules (reg : Registry) (disabled : List String) (language path : String) :
    Except GlobError (List Rule) :=
  (reg.rulesFor language).filterM fun r =>
    if r.enabled && !disabled.contains r.name then
      (Glob.excludes r.exclude path).map (!·)
    else .ok false

/-! ## Findings that suppress others -/

/-- A finding and the rule that it comes from. -/
abbrev Candidate := Rule × Finding

/-- The rule fires on the line of the finding. -/
def firesOnLine (candidates : List Candidate) (line : Nat) (rule : String) : Bool :=
  candidates.any fun c => c.2.line == line && c.2.rule == rule

/-- The candidate is superfluous: a rule that suppresses it fires on its line. -/
def isSuperfluous (candidates : List Candidate) (c : Candidate) : Bool :=
  c.1.suppressedBy.any (firesOnLine candidates c.2.line)

/-- The findings that no other one makes superfluous. -/
def dropSuperfluous (candidates : List Candidate) : List Finding :=
  (candidates.filter (!isSuperfluous candidates ·)).map (·.2)

/-! ## The scan -/

/-- All findings of the rules in a text. -/
def candidates (rules : List Rule) (path language : String) (text : List Char) :
    List Candidate :=
  rules.flatMap fun r => (r.hits text).map fun h => (r, Finding.ofHit path language r h)

/-- The findings of the rules in a text, in order. -/
def findings (rules : List Rule) (path language : String) (text : List Char) : List Finding :=
  let kept := dropSuperfluous (candidates rules path language text)
  let suppressions := Suppressions.ofLines (Text.lines text)
  (kept.filter fun f => !suppressions.silences f.rule (some f.line)).mergeSort Finding.precedes

/-- The findings in a file.  Its language is told from path and text unless one is named. -/
def scanText (reg : Registry) (disabled : List String) (language : Option String) (path : String)
    (text : List Char) : Except GlobError (List Finding) := do
  let path := Path.normalize path
  let language :=
    match language with
    | some l => if l = "" then (Language.classify path (some text)).name else l
    | none => (Language.classify path (some text)).name
  let rules ← activeRules reg disabled language path
  return findings rules path language text

end CodeSweep.Scan
