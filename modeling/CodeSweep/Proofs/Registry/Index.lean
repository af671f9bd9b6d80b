/-
# The indices of a registry

Of a list of rules the indices are made, or the list is refused, exactly as a registry is built of
it (`Indices.build_eq`).  They drop, repeat and reorder nothing: through them the same rules are
found as in the registry (`Indices.onlyFor_eq`, `Indices.rulesFor_eq`), each under every language
or under one (`Indices.mem_universal_or_only`).
-/
import CodeSweep.Proofs.Registry
import CodeSweep.Registry.Index

namespace CodeSweep

/-! ## Indices -/

namespace Index

variable {α : Type} {name : String} {a : α}

/-- A new name is entered at the end. -/
theorem enter_of_not_mem {t : Index α} (h : name ∉ t.names) :
    t.enter name a = t ++ [(name, a)] := by
  induction t with
  | nil => rfl
  | cons e t ih =>
      rw [names, List.map_cons, List.mem_cons, not_or] at h
      rw [enter, if_neg (Ne.symm h.1), ih h.2, List.cons_append]

/-- What was entered last is found. -/
theorem lookup_enter_self (t : Index α) : (t.enter name a).lookup name = some a := by
  induction t with
  | nil => simp [enter]
  | cons e t ih =>
      rw [enter]
      split
      · simp
      · next hne => rw [List.lookup_cons, beq_false_of_ne (Ne.symm hne)]; exact ih

/-- What was found under other names still is. -/
theorem lookup_enter_of_ne (t : Index α) {other : String} (h : other ≠ name) :
    (t.enter name a).lookup other = t.lookup other := by
  induction t with
  | nil => simp [enter, h]
  | cons e t ih =>
      rw [enter]
      split
      · next hname =>
          rw [List.lookup_cons, List.lookup_cons, hname, beq_false_of_ne h]
      · rw [List.lookup_cons, List.lookup_cons, ih]

/-- An index with other names is merged at the end. -/
theorem merge_of_disjoint {t u : Index α} (hu : u.names.Nodup)
    (h : ∀ n ∈ u.names, n ∉ t.names) : t.merge u = t ++ u := by
  induction u generalizing t with
  | nil => rw [merge, List.foldl_nil, List.append_nil]
  | cons e u ih =>
      rw [names, List.map_cons, List.nodup_cons] at hu
      rw [names, List.map_cons, List.forall_mem_cons] at h
      have hrest : ∀ n ∈ names u, n ∉ names (t ++ [e]) := by
        intro n hn hmem
        rw [names, List.map_append, List.mem_append] at hmem
        rcases hmem with hmem | hmem
        · exact h.2 n hn hmem
        · obtain rfl := List.mem_singleton.mp hmem
          exact hu.1 hn
      rw [merge, List.foldl_cons, enter_of_not_mem h.1]
      exact (ih hu.2 hrest).trans (List.append_assoc t [e] u)

end Index

namespace Registry

/-! ## All rules by name -/

/-- The rules with their names. -/
def entries (rules : List Rule) : Index Rule := rules.map fun r => (r.name, r)

/-- The names of the entries are those of the rules. -/
@[simp] theorem names_entries (rules : List Rule) :
    (entries rules).names = rules.map (·.name) := by
  rw [entries, Index.names, List.map_map]
  rfl

/-- What is found through the entries are the rules. -/
@[simp] theorem values_entries (rules : List Rule) : (entries rules).values = rules := by
  rw [entries, Index.values, List.map_map]
  exact List.map_id rules

/-- Some of the entries are the entries of some of the rules. -/
theorem filter_entries (rules : List Rule) (p : Rule → Bool) :
    (entries rules).filter (fun e => p e.2) = entries (rules.filter p) := by
  rw [entries, entries, List.filter_map]
  rfl

/-- The rules are entered one after the other unless there is a complaint. -/
theorem enterRules_eq (entered rules : List Rule) (seen : List String)
    (hseen : ∀ n, n ∈ seen ↔ n ∈ entered.map (·.name)) :
    enterRules (entries entered) rules
      = match nameFault? seen rules with
        | some e => .error e
        | none => .ok (entries (entered ++ rules)) := by
  -- the names seen are those of the rules entered, whatever their order
  induction rules generalizing entered seen with
  | nil => rw [enterRules, nameFault?, List.append_nil]
  | cons r rs ih =>
      have hcontains : (entries entered).names.contains r.name = seen.contains r.name := by
        rw [names_entries, Bool.eq_iff_iff, List.contains_iff_mem, List.contains_iff_mem, hseen]
      rw [enterRules, nameFault?, hcontains]
      split
      · rfl
      · next hnew =>
          split
          · rfl
          · have henter : (entries entered).enter r.name r = entries (entered ++ [r]) := by
              rw [Index.enter_of_not_mem, entries, entries, List.map_append]
              · rfl
              · rwa [names_entries, ← hseen, ← List.contains_iff_mem]
            have hseen' : ∀ n, n ∈ r.name :: seen ↔ n ∈ (entered ++ [r]).map (·.name) := by
              intro n
              rw [List.mem_cons, hseen, List.map_append, List.mem_append, or_comm]
              simp
            rw [henter, ih (entered ++ [r]) (r.name :: seen) hseen', List.append_assoc]
            rfl

/-- **Indices are made** of the rules of a registry, and a list that is no registry is refused with
the same complaint. -/
theorem Indices.build_eq (rules : List Rule) :
    Indices.build rules
      = (Registry.build rules).map fun reg => Indices.ofByName (entries reg.rules) := by
  have henter := enterRules_eq [] rules [] (by simp)
  rw [List.nil_append] at henter
  rw [Indices.build, Registry.build, show ([] : Index Rule) = entries [] from rfl, henter]
  cases nameFault? [] rules with
  | some e => rfl
  | none =>
      show (match (entries rules).values.findSome? (suppressorFault? (entries rules).names) with
        | some e => Except.error e
        | none => pure (ofByName (entries rules))) = _
      rw [values_entries, names_entries, Option.orElse_eq_orElse, Option.orElse_eq_or,
        Option.none_or]
      cases rules.findSome? (suppressorFault? (rules.map (·.name))) <;> rfl

/-! ## The rules for one language -/

namespace Indices

variable {rules : List Rule}

/-- **A rule is entered under its language alone**, after those that are there. -/
theorem under_enterOnly {only : Index (Index Rule)} {r : Rule}
    (hnew : ∀ language, r.name ∉ (only.under language).names) (language : String) :
    (enterOnly only (r.name, r)).under language
      = only.under language ++ entries ([r].filter fun r => r.target.name == language) := by
  rw [enterOnly, Index.under]
  by_cases hlanguage : r.target.name = language
  · rw [hlanguage, Index.lookup_enter_self, Option.getD_some,
      Index.enter_of_not_mem (hnew language), List.filter_cons_of_pos (by simp [hlanguage])]
    rfl
  · rw [Index.lookup_enter_of_ne _ (Ne.symm hlanguage),
      List.filter_cons_of_neg (by simp [hlanguage])]
    exact (List.append_nil _).symm

/-- **Rules are entered under their languages**: what is found under a language are the rules for
it, in order. -/
theorem under_foldl_enterOnly (only : Index (Index Rule)) (hnodup : (rules.map (·.name)).Nodup)
    (hnew : ∀ r ∈ rules, ∀ language, r.name ∉ (only.under language).names) (language : String) :
    ((entries rules).foldl enterOnly only).under language
      = only.under language ++ entries (rules.filter fun r => r.target.name == language) := by
  induction rules generalizing only with
  | nil => exact (List.append_nil _).symm
  | cons r rs ih =>
      rw [List.map_cons, List.nodup_cons] at hnodup
      rw [List.forall_mem_cons] at hnew
      have hstep := under_enterOnly hnew.1
      have hnew' : ∀ s ∈ rs, ∀ language,
          s.name ∉ ((enterOnly only (r.name, r)).under language).names := by
        intro s hs language hmem
        rw [hstep, Index.names, List.map_append, List.mem_append] at hmem
        rcases hmem with hmem | hmem
        · exact hnew.2 s hs language hmem
        · rw [← Index.names, names_entries, List.mem_map] at hmem
          obtain ⟨r', hr', hname⟩ := hmem
          obtain rfl := List.mem_singleton.mp (List.mem_filter.mp hr').1
          exact hnodup.1 (hname ▸ List.mem_map_of_mem hs)
      show ((entries rs).foldl enterOnly (enterOnly only (r.name, r))).under language = _
      rw [ih _ hnodup.2 hnew', hstep, List.append_assoc, entries, entries, entries,
        ← List.map_append, ← List.filter_append]
      rfl

/-- A rule is for the language of the name alone if it is not for every language and its target
bears the name. -/
theorem isFor_iff {r : Rule} {language : String} :
    (r.target.name == language && !r.isUniversal) = true ↔
      ∃ l, Language.ofName? language = some l ∧ r.target = .only l := by
  rw [Bool.and_eq_true, beq_iff_eq, Rule.isUniversal]
  cases htarget : r.target with
  | universal => simp
  | only l =>
      constructor
      · rintro ⟨hname, -⟩
        exact ⟨l, hname ▸ Language.ofName?_name l, rfl⟩
      · rintro ⟨l', hl', heq⟩
        obtain rfl := Target.only.inj heq
        exact ⟨Language.name_of_ofName? hl', rfl⟩

/-- The rules that are for one language alone, under its name. -/
theorem under_only (hnodup : (rules.map (·.name)).Nodup) (language : String) :
    (ofByName (entries rules)).only.under language
      = entries (Registry.onlyFor ⟨rules⟩ language) := by
  have honly : (ofByName (entries rules)).only
      = (entries (rules.filter (!·.isUniversal))).foldl enterOnly [] := by
    rw [ofByName, filter_entries rules (!·.isUniversal)]
  have hempty : ∀ name, Index.under ([] : Index (Index Rule)) name = [] := fun _ => rfl
  rw [honly, under_foldl_enterOnly [] (hnodup.sublist (List.filter_sublist.map _)) fun _ _ _ =>
    List.not_mem_nil, hempty, List.nil_append, List.filter_filter, Registry.onlyFor]
  congr 1
  cases h : Language.ofName? language with
  | none =>
      refine List.filter_eq_nil_iff.mpr fun r _ hr => ?_
      obtain ⟨l, hl, -⟩ := isFor_iff.mp hr
      rw [h] at hl
      cases hl
  | some l =>
      refine List.filter_congr fun r _ => ?_
      rw [Bool.eq_iff_iff, isFor_iff, h, beq_iff_eq]
      simp

/-- An index that is made language by language has what was made for the language of the name. -/
theorem under_map_name (f : Language → Index Rule) (language : String) :
    Index.under (Language.all.map fun l => (l.name, f l)) language
      = ((Language.ofName? language).map f).getD [] := by
  rw [Index.under, Language.ofName?]
  induction Language.all with
  | nil => rfl
  | cons l ls ih =>
      rw [List.map_cons, List.lookup_cons, List.find?_cons]
      by_cases hname : l.name = language
      · rw [hname, beq_self_eq_true]
        simp
      · rw [beq_false_of_ne hname, beq_false_of_ne (Ne.symm hname)]
        exact ih

/-- **The rules that apply to a language**, under its name. -/
theorem under_combined (hnodup : (rules.map (·.name)).Nodup) (language : String) :
    (ofByName (entries rules)).combined.under language
      = entries (Registry.rulesFor ⟨rules⟩ language) := by
  have huniversal : (entries rules).filter (·.2.isUniversal)
      = entries (Registry.universal ⟨rules⟩) := filter_entries rules (·.isUniversal)
  rw [Registry.rulesFor]
  cases h : Language.ofName? language with
  | none => rw [ofByName, under_map_name, h]; rfl
  | some l =>
      obtain rfl := Language.name_of_ofName? h
      have hunder : (ofByName (entries rules)).combined.under l.name
          = ((ofByName (entries rules)).only.under l.name).merge
              ((entries rules).filter (·.2.isUniversal)) := by
        rw [ofByName, under_map_name, h]
        rfl
      have hnames : ((Registry.onlyFor ⟨rules⟩ l.name ++ Registry.universal ⟨rules⟩).map
          (·.name)).Nodup := by
        have hall := @nodup_names_rulesFor ⟨rules⟩ hnodup l.name
        rwa [Registry.rulesFor, h] at hall
      rw [List.map_append, List.nodup_append] at hnames
      rw [hunder, under_only hnodup, huniversal, Index.merge_of_disjoint, entries, entries, entries,
        ← List.map_append]
      · rw [names_entries]
        exact hnames.2.1
      · -- no name is used twice, so that merging replaces nothing
        intro n hn hmem
        rw [names_entries] at hn hmem
        exact hnames.2.2 n hmem n hn rfl

end Indices

/-! ## What is found -/

/-- There are no rules under a name that no language bears. -/
theorem eq_nil_of_forall_name_ne (reg : Registry) {language : String}
    (h : ∀ l : Language, l.name ≠ language) :
    reg.onlyFor language = [] ∧ reg.rulesFor language = [] := by
  have hnone : Language.ofName? language = none := by
    cases hl : Language.ofName? language with
    | none => rfl
    | some l => exact absurd (Language.name_of_ofName? hl) (h l)
  rw [onlyFor, rulesFor, hnone]
  exact ⟨rfl, rfl⟩

namespace Indices

variable {rules : List Rule} {ix : Indices}

/-- Indices are those of a registry with different names. -/
theorem of_build (h : Indices.build rules = .ok ix) :
    Registry.build rules = .ok ⟨rules⟩ ∧ (rules.map (·.name)).Nodup ∧
      ix = ofByName (entries rules) := by
  rw [build_eq] at h
  cases hreg : Registry.build rules with
  | error e =>
      rw [hreg] at h
      cases h
  | ok reg =>
      obtain ⟨rfl, hnodup, -⟩ := build_eq_ok_iff.mp hreg
      rw [hreg] at h
      exact ⟨rfl, hnodup, (Except.ok.inj h).symm⟩

/-- **The rules for one language alone** are found through the indices as in the registry. -/
theorem onlyFor_eq (h : Indices.build rules = .ok ix) (language : String) :
    ix.onlyFor language = Registry.onlyFor ⟨rules⟩ language := by
  obtain ⟨-, hnodup, rfl⟩ := of_build h
  rw [onlyFor, under_only hnodup, values_entries]

/-- **The rules that apply to a language** are found through the indices as in the registry. -/
theorem rulesFor_eq (h : Indices.build rules = .ok ix) (language : String) :
    ix.rulesFor language = Registry.rulesFor ⟨rules⟩ language := by
  obtain ⟨-, hnodup, rfl⟩ := of_build h
  rw [rulesFor, under_combined hnodup, values_entries]

/-- The rules for every language are found through the indices as in the registry. -/
theorem universal_eq (h : Indices.build rules = .ok ix) :
    ix.universal.values = Registry.universal ⟨rules⟩ := by
  obtain ⟨-, -, rfl⟩ := of_build h
  show Index.values ((entries rules).filter (·.2.isUniversal)) = _
  rw [filter_entries rules (·.isUniversal), values_entries, Registry.universal]

/-- There are rules for a language if there is such a language and rules are found for it. -/
theorem hasLanguage_iff (language : String) :
    ix.hasLanguage language = true ↔
      (∃ l : Language, l.name = language) ∧ ix.rulesFor language ≠ [] := by
  have hlanguage : (Language.ofName? language).isSome = true ↔
      ∃ l : Language, l.name = language := by
    rw [Option.isSome_iff_exists]
    constructor
    · rintro ⟨l, hl⟩
      exact ⟨l, Language.name_of_ofName? hl⟩
    · rintro ⟨l, rfl⟩
      exact ⟨l, Language.ofName?_name l⟩
  rw [hasLanguage, Bool.and_eq_true, hlanguage, rulesFor, Index.values, ne_eq, List.map_eq_nil_iff,
    Bool.not_eq_true', ← Bool.not_eq_true, List.isEmpty_iff]

/-- **Each rule is found once**: among those for every language, or among those for exactly one. -/
theorem mem_universal_or_only (h : Indices.build rules = .ok ix) {r : Rule} (hr : r ∈ rules) :
    (r ∈ ix.universal.values ∧ ∀ language, r ∉ ix.onlyFor language) ∨
      (r ∉ ix.universal.values ∧
        ∃ l : Language, ∀ language, r ∈ ix.onlyFor language ↔ language = l.name) := by
  have honly : ∀ language, r ∈ ix.onlyFor language ↔
      ∃ l, Language.ofName? language = some l ∧ r.target = .only l := by
    intro language
    rw [onlyFor_eq h, Registry.onlyFor]
    cases Language.ofName? language with
    | none => simp
    | some l => simp [hr]
  rw [universal_eq h, Registry.universal, List.mem_filter, Rule.isUniversal]
  simp only [honly]
  cases htarget : r.target with
  | universal => exact .inl (by simp [hr])
  | only l =>
      refine .inr ⟨by simp, l, fun language => ?_⟩
      constructor
      · rintro ⟨l', hl', heq⟩
        rw [Target.only.inj heq, Language.name_of_ofName? hl']
      · rintro rfl
        exact ⟨l, Language.ofName?_name l, rfl⟩

end Indices

/-- **The indices of a registry.**  Indices are made of a list of rules, as a registry is, exactly
if no name is used twice, every structural rule has its analysis and all suppressors are in the
list.  They hold all rules under their names, in the order of the list; each rule is either for
every language or for one alone and found there only.  For a language its own rules are found and
then those for every language, each part in the order of the list and no rule twice; under another
name nothing is found.  There are rules for a language if it is one and something is found for it.
The registry answers all this in the same way. -/
theorem indices_of_rules (rules : List Rule) :
    ((∃ ix, Indices.build rules = .ok ix) ↔
      (rules.map (·.name)).Nodup ∧
        (∀ r ∈ rules, r.detector = .analysis → (analysisNamed? r.name).isSome) ∧
        ∀ r ∈ rules, ∀ n ∈ r.suppressedBy, ∃ s ∈ rules, s.name = n) ∧
    ∀ ix, Indices.build rules = .ok ix →
      ix.byName = rules.map (fun r => (r.name, r)) ∧
      (∀ r ∈ rules, (r ∈ ix.universal.values ∧ ∀ language, r ∉ ix.onlyFor language) ∨
        (r ∉ ix.universal.values ∧
          ∃ l : Language, ∀ language, r ∈ ix.onlyFor language ↔ language = l.name)) ∧
      (∀ l : Language, ix.rulesFor l.name = rules.filter (·.target = .only l) ++
          rules.filter (·.target = .universal) ∧ (ix.rulesFor l.name).Nodup) ∧
      (∀ language, (∀ l : Language, l.name ≠ language) →
        ix.onlyFor language = [] ∧ ix.rulesFor language = []) ∧
      (∀ language, ix.hasLanguage language = true ↔
        (∃ l : Language, l.name = language) ∧ ix.rulesFor language ≠ []) ∧
      Registry.build rules = .ok ⟨rules⟩ ∧
      ix.universal.values = Registry.universal ⟨rules⟩ ∧
      ∀ language, ix.onlyFor language = Registry.onlyFor ⟨rules⟩ language ∧
        ix.rulesFor language = Registry.rulesFor ⟨rules⟩ language ∧
        ix.hasLanguage language = Registry.hasLanguage ⟨rules⟩ language := by
  constructor
  · have hbuild : (∃ ix, Indices.build rules = .ok ix) ↔ ∃ reg, Registry.build rules = .ok reg := by
      rw [Indices.build_eq]
      cases Registry.build rules <;> simp [Except.map]
    rw [hbuild]
    constructor
    · rintro ⟨reg, hreg⟩
      obtain ⟨-, hnodup, hanalysis, hsuppressors⟩ := build_eq_ok_iff.mp hreg
      exact ⟨hnodup, hanalysis, fun r hr n hn => List.mem_map.mp (hsuppressors r hr n hn)⟩
    · rintro ⟨hnodup, hanalysis, hsuppressors⟩
      exact ⟨⟨rules⟩, build_eq_ok_iff.mpr ⟨rfl, hnodup, hanalysis, fun r hr n hn =>
        List.mem_map.mpr (hsuppressors r hr n hn)⟩⟩
  · intro ix hix
    obtain ⟨hreg, hnodup, hentries⟩ := Indices.of_build hix
    refine ⟨by rw [hentries]; rfl, fun r hr => Indices.mem_universal_or_only hix hr, ?_, ?_,
      Indices.hasLanguage_iff, hreg, Indices.universal_eq hix, ?_⟩
    · intro l
      constructor
      · rw [Indices.rulesFor_eq hix, Registry.rulesFor, Registry.onlyFor, Registry.universal,
          Language.ofName?_name]
        rfl
      · rw [Indices.rulesFor_eq hix]
        exact (@nodup_names_rulesFor ⟨rules⟩ hnodup l.name).of_map
    · intro language hlanguage
      rw [Indices.onlyFor_eq hix, Indices.rulesFor_eq hix]
      exact eq_nil_of_forall_name_ne ⟨rules⟩ hlanguage
    · intro language
      refine ⟨Indices.onlyFor_eq hix language, Indices.rulesFor_eq hix language, ?_⟩
      rw [Bool.eq_iff_iff, Indices.hasLanguage_iff, Indices.rulesFor_eq hix, Registry.hasLanguage,
        Bool.not_eq_true', ← Bool.not_eq_true, List.isEmpty_iff]
      refine and_iff_right_of_imp fun hsome => ?_
      by_contra hlanguage
      exact hsome (eq_nil_of_forall_name_ne ⟨rules⟩ (not_exists.mp hlanguage)).2

/-- A rule for C, one for every language and one for Go. -/
def threeRules : List Rule := [
  { name := "a", target := .only .c, detector := .nothing, severity := .low, description := "" },
  { name := "b", target := .universal, detector := .nothing, severity := .low, description := "" },
  { name := "d", target := .only .go, detector := .nothing, severity := .low, description := ""
    suppressedBy := ["a"] }]

/-- Of three rules, two are found for Go, its own one first, and none under an unknown name. -/
theorem indices_of_rules_three :
    ∃ ix, Indices.build threeRules = .ok ix ∧
      (ix.rulesFor "go").map (·.name) = ["d", "b"] ∧ (ix.rulesFor "go").Nodup ∧
      ix.rulesFor "golang" = [] ∧ ix.hasLanguage "go" = true := by
  obtain ⟨hbuild, hfound⟩ := indices_of_rules threeRules
  obtain ⟨ix, hix⟩ := hbuild.mpr (by decide)
  obtain ⟨-, -, hfor, hunknown, hhas, -⟩ := hfound ix hix
  have hgo : (ix.rulesFor "go").map (·.name) = ["d", "b"] := by
    have hrules := (hfor .go).1
    rw [show Language.go.name = "go" from rfl] at hrules
    rw [hrules]
    decide
  have hgolang : ∀ l : Language, l.name ≠ "golang" := by
    intro l
    cases l <;> decide
  refine ⟨ix, hix, hgo, (hfor .go).2, (hunknown "golang" hgolang).2, ?_⟩
  refine (hhas "go").mpr ⟨⟨.go, rfl⟩, fun hnone => ?_⟩
  rw [hnone] at hgo
  cases hgo

end Registry

end CodeSweep
