/-
# Registries that are accepted

A list of rules becomes a registry exactly if no name is used twice, every structural rule has its
analysis and every suppressor is in the list (`build_eq_ok_iff`).  The rules that apply to a
language have different names as well, whatever the order of the list.
-/
import CodeSweep.Registry
import Mathlib.Data.List.Nodup

namespace CodeSweep

/-- Every language is listed. -/
theorem Language.mem_all (l : Language) : l ∈ all := by
  cases l <;> decide

/-- A language is found by its name. -/
theorem Language.ofName?_name (l : Language) : ofName? l.name = some l := by
  cases l <;> rfl

/-- The language that is found by a name bears it. -/
theorem Language.name_of_ofName? {s : String} {l : Language} (h : ofName? s = some l) :
    l.name = s := by
  have hname := List.find?_some h
  exact eq_of_beq hname

namespace Registry

/-! ## Acceptance -/

/-- There is no complaint about names and analyses if no name repeats one before it and every
structural rule has its analysis. -/
theorem nameFault?_eq_none_iff (seen : List String) (rules : List Rule) :
    nameFault? seen rules = none ↔
      (∀ r ∈ rules, r.name ∉ seen) ∧ (rules.map (·.name)).Nodup ∧
        ∀ r ∈ rules, r.detector = .analysis → (analysisNamed? r.name).isSome := by
  induction rules generalizing seen with
  | nil => simp [nameFault?]
  | cons r rs ih =>
      rw [nameFault?, List.map_cons, List.nodup_cons, List.forall_mem_cons, List.forall_mem_cons]
      by_cases hseen : r.name ∈ seen
      · simp [hseen]
      · rw [if_neg (by simpa using hseen)]
        by_cases hanalysis : r.detector = .analysis ∧ (analysisNamed? r.name).isNone
        · rw [if_pos hanalysis]
          simp [hanalysis.1, Option.isNone_iff_eq_none.mp hanalysis.2]
        · rw [if_neg hanalysis, ih]
          have hhead : r.detector = .analysis → (analysisNamed? r.name).isSome := by
            intro h
            rw [Option.isSome_iff_ne_none]
            intro hnone
            exact hanalysis ⟨h, Option.isNone_iff_eq_none.mpr hnone⟩
          constructor
          · rintro ⟨hnew, hnodup, hrest⟩
            refine ⟨⟨hseen, fun s hs h => hnew s hs (List.mem_cons_of_mem _ h)⟩, ⟨?_, hnodup⟩,
              hhead, hrest⟩
            rw [List.mem_map]
            rintro ⟨s, hs, hname⟩
            exact hnew s hs (hname ▸ List.mem_cons_self)
          · rintro ⟨⟨-, hnew⟩, ⟨hname, hnodup⟩, -, hrest⟩
            refine ⟨fun s hs h => ?_, hnodup, hrest⟩
            rcases List.mem_cons.mp h with h | h
            · exact hname (List.mem_map.mpr ⟨s, hs, h⟩)
            · exact hnew s hs h

/-- There is no complaint about the suppressors of a rule if all of them are known. -/
theorem suppressorFault?_eq_none_iff (names : List String) (r : Rule) :
    suppressorFault? names r = none ↔ ∀ n ∈ r.suppressedBy, n ∈ names := by
  rw [suppressorFault?]
  simp only [List.isEmpty_iff]
  constructor
  · intro h n hn
    split at h
    · next hempty => simpa using List.filter_eq_nil_iff.mp hempty n hn
    · simp at h
  · intro h
    rw [if_pos]
    rw [List.filter_eq_nil_iff]
    intro n hn
    simpa using h n hn

/-- **What a registry accepts**: different names, an analysis for each structural rule, and known
suppressors. -/
theorem build_eq_ok_iff {rules : List Rule} {reg : Registry} :
    build rules = .ok reg ↔
      reg = ⟨rules⟩ ∧ (rules.map (·.name)).Nodup ∧
        (∀ r ∈ rules, r.detector = .analysis → (analysisNamed? r.name).isSome) ∧
        ∀ r ∈ rules, ∀ n ∈ r.suppressedBy, n ∈ rules.map (·.name) := by
  have hfault : (nameFault? [] rules <|> rules.findSome? (suppressorFault? (rules.map (·.name))))
        = none ↔
      (rules.map (·.name)).Nodup ∧
        (∀ r ∈ rules, r.detector = .analysis → (analysisNamed? r.name).isSome) ∧
        ∀ r ∈ rules, ∀ n ∈ r.suppressedBy, n ∈ rules.map (·.name) := by
    rw [Option.orElse_eq_orElse, Option.orElse_eq_or, Option.or_eq_none_iff,
      nameFault?_eq_none_iff, List.findSome?_eq_none_iff]
    simp only [suppressorFault?_eq_none_iff, List.not_mem_nil, not_false_eq_true, implies_true,
      true_and, and_assoc]
  rw [← hfault, build]
  split
  · next e he => simp [he]
  · next he => simp [he, eq_comm]

/-- The names in an accepted registry are different. -/
theorem nodup_names_of_build {rules : List Rule} {reg : Registry} (h : build rules = .ok reg) :
    (reg.rules.map (·.name)).Nodup := by
  obtain ⟨rfl, hnodup, -⟩ := build_eq_ok_iff.mp h
  exact hnodup

/-- An accepted registry holds the list it was built from. -/
theorem rules_of_build {rules : List Rule} {reg : Registry} (h : build rules = .ok reg) :
    reg.rules = rules := by
  obtain ⟨rfl, -⟩ := build_eq_ok_iff.mp h
  rfl

/-- The catalogue is accepted. -/
theorem build_catalogue : build catalogue = .ok builtin := by
  refine build_eq_ok_iff.mpr ⟨rfl, ?_, ?_, ?_⟩ <;> decide

/-! ## The rules for a language -/

/-- The rules for a language are rules of the registry. -/
theorem mem_of_mem_rulesFor {reg : Registry} {language : String} {r : Rule}
    (hr : r ∈ reg.rulesFor language) : r ∈ reg.rules := by
  rw [rulesFor] at hr
  split at hr
  · rcases List.mem_append.mp hr with hr | hr
    · rw [onlyFor] at hr
      split at hr
      · exact (List.mem_filter.mp hr).1
      · simp at hr
    · exact (List.mem_filter.mp hr).1
  · simp at hr

/-- A rule is one of those for a language if it is for this language or for every one. -/
theorem mem_rulesFor_name {reg : Registry} {l : Language} {r : Rule} :
    r ∈ reg.rulesFor l.name ↔
      r ∈ reg.rules ∧ (r.target = .only l ∨ r.target = .universal) := by
  rw [rulesFor, onlyFor, universal, Language.ofName?_name]
  simp only [List.mem_append, List.mem_filter, Rule.isUniversal, beq_iff_eq]
  exact and_or_left.symm

/-- The rules for a language come in another order if the registry is in another order. -/
theorem rulesFor_perm {reg reg' : Registry} (h : reg.rules.Perm reg'.rules) (language : String) :
    (reg.rulesFor language).Perm (reg'.rulesFor language) := by
  rw [rulesFor, rulesFor, onlyFor, onlyFor, universal, universal]
  cases Language.ofName? language with
  | none => exact List.Perm.nil
  | some l => exact (h.filter _).append (h.filter _)

/-- The rules for a language have different names if all rules have. -/
theorem nodup_names_rulesFor {reg : Registry} (h : (reg.rules.map (·.name)).Nodup)
    (language : String) : ((reg.rulesFor language).map (·.name)).Nodup := by
  rw [rulesFor, onlyFor, universal]
  cases Language.ofName? language with
  | none => exact List.nodup_nil
  | some l =>
      simp only
      rw [List.map_append, List.nodup_append]
      refine ⟨h.sublist (List.filter_sublist.map _), h.sublist (List.filter_sublist.map _), ?_⟩
      -- a rule for one language and a rule for every language are different rules
      rintro _ hr _ hs rfl
      obtain ⟨r, hr, hname⟩ := List.mem_map.mp hr
      obtain ⟨s, hs, hname'⟩ := List.mem_map.mp hs
      rw [List.mem_filter] at hr hs
      obtain rfl := List.inj_on_of_nodup_map h hr.1 hs.1 (hname.trans hname'.symm)
      have honly : r.target = .only l := by simpa using hr.2
      have huniversal : r.target = .universal := by simpa [Rule.isUniversal] using hs.2
      rw [honly] at huniversal
      cases huniversal

end Registry

end CodeSweep
