/-
# Registries

A registry is a list of rules that fit together: no two have the same name, every structural rule
has its analysis, and every rule that is said to make another superfluous is in the list.
-/
import CodeSweep.Catalogue
import CodeSweep.Rule.Hit
import CodeSweep.Rule.Spec

namespace CodeSweep

/-- Rules to scan with. -/
structure Registry where
  rules : List Rule
  deriving DecidableEq, Repr

namespace Registry

/-! ## Building -/

/-- The first complaint about names and analyses, where `seen` are the names so far. -/
def nameFault? : (seen : List String) → List Rule → Option RuleError
  | _, [] => none
  | seen, r :: rs =>
    if seen.contains r.name then some (.duplicateName r.name)
    else if r.detector = .analysis ∧ (analysisNamed? r.name).isNone then some (.noAnalysis r.name)
    else nameFault? (r.name :: seen) rs

/-- The complaint about a rule that names rules not among `names` as its suppressors. -/
def suppressorFault? (names : List String) (r : Rule) : Option RuleError :=
  let unknown := r.suppressedBy.filter fun n => !names.contains n
  if unknown.isEmpty then none else some (.unknownSuppressors r.name unknown)

/-- The registry of the rules, or the first complaint. -/
def build (rules : List Rule) : Except RuleError Registry :=
  match nameFault? [] rules <|> rules.findSome? (suppressorFault? (rules.map (·.name))) with
  | some e => .error e
  | none => .ok ⟨rules⟩

/-- The registry of the catalogue. -/
def builtin : Registry := ⟨catalogue⟩

/-! ## Looking up -/

/-- The rule of the name. -/
def rule? (reg : Registry) (name : String) : Option Rule := reg.rules.find? (·.name == name)

/-- The rules for every language. -/
def universal (reg : Registry) : List Rule := reg.rules.filter (·.isUniversal)

/-- The rules for the language of the name alone. -/
def onlyFor (reg : Registry) (language : String) : List Rule :=
  match Language.ofName? language with
  | some l => reg.rules.filter (·.target == .only l)
  | none => []

/-- The rules that apply to the language of the name: its own, then those for every language. -/
def rulesFor (reg : Registry) (language : String) : List Rule :=
  match Language.ofName? language with
  | some _ => reg.onlyFor language ++ reg.universal
  | none => []

/-- There is a language of the name, and some rule applies to it. -/
def hasLanguage (reg : Registry) (language : String) : Bool := !(reg.rulesFor language).isEmpty

end Registry

end CodeSweep
