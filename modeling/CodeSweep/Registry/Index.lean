/-
# Indices of registries

The rules of a registry are found through indices that are made once: all rules by name, those for
every language, those for each language alone, and those that apply to each language.  An index
keeps the order in which its names were first entered.
-/
import CodeSweep.Registry

namespace CodeSweep

/-! ## Indices -/

/-- What is found by name, in the order in which the names were first entered. -/
abbrev Index (α : Type) := List (String × α)

namespace Index

variable {α : Type}

/-- The names, in order. -/
def names (t : Index α) : List String := t.map (·.1)

/-- What is found, in order. -/
def values (t : Index α) : List α := t.map (·.2)

/-- The index with one more entry; an earlier one of the same name gives way and keeps its place. -/
def enter (name : String) (a : α) : Index α → Index α
  | [] => [(name, a)]
  | (n, b) :: rest => if n = name then (name, a) :: rest else (n, b) :: enter name a rest

/-- The entries of the second index entered into the first. -/
def merge (t u : Index α) : Index α := u.foldl (fun t e => t.enter e.1 e.2) t

/-- The index that is found by the name, or an empty one. -/
def under (t : Index (Index α)) (name : String) : Index α := (t.lookup name).getD []

end Index

namespace Registry

/-! ## Making the indices -/

/-- All rules by name, or the first complaint about names and analyses. -/
def enterRules : (entered : Index Rule) → List Rule → Except RuleError (Index Rule)
  | entered, [] => .ok entered
  | entered, r :: rs =>
    if entered.names.contains r.name then .error (.duplicateName r.name)
    else if r.detector = .analysis ∧ (analysisNamed? r.name).isNone then .error (.noAnalysis r.name)
    else enterRules (entered.enter r.name r) rs

/-- The indices of a registry. -/
structure Indices where
  byName : Index Rule
  /-- The rules for every language. -/
  universal : Index Rule
  /-- The rules for each language alone, by its name.  There is no entry for a language without
  such rules. -/
  only : Index (Index Rule)
  /-- The rules that apply to each language, by its name. -/
  combined : Index (Index Rule)
  deriving DecidableEq, Repr

namespace Indices

/-- The rules for each language alone, with one more entered under its language. -/
def enterOnly (only : Index (Index Rule)) (e : String × Rule) : Index (Index Rule) :=
  only.enter e.2.target.name ((only.under e.2.target.name).enter e.1 e.2)

/-- The indices that are made from all rules by name. -/
def ofByName (byName : Index Rule) : Indices :=
  let universal := byName.filter (·.2.isUniversal)
  let only := (byName.filter (!·.2.isUniversal)).foldl enterOnly []
  { byName, universal, only
    combined := Language.all.map fun l => (l.name, (only.under l.name).merge universal) }

/-- The indices of the rules, or the first complaint. -/
def build (rules : List Rule) : Except RuleError Indices := do
  let byName ← enterRules [] rules
  match byName.values.findSome? (suppressorFault? byName.names) with
  | some e => .error e
  | none => return ofByName byName

/-! ## Looking up -/

/-- The rules for the language of the name alone. -/
def onlyFor (ix : Indices) (language : String) : List Rule := (ix.only.under language).values

/-- The rules that apply to the language of the name. -/
def rulesFor (ix : Indices) (language : String) : List Rule := (ix.combined.under language).values

/-- There is a language of the name, and some rule applies to it. -/
def hasLanguage (ix : Indices) (language : String) : Bool :=
  (Language.ofName? language).isSome && !(ix.combined.under language).isEmpty

end Indices

end Registry

end CodeSweep
