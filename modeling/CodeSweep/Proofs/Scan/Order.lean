/-
# The order of findings

Findings are sorted by line, column and rule name, and those that agree in all three come from one
rule, in the order of its hits.  So a scan does not depend on the order of the rules in the registry
(`findings_perm`).  Under the rules of the catalogue no two findings agree in all three.
-/
import CodeSweep.Proofs.Scan.Text
import CodeSweep.Proofs.StableSort
import Mathlib.Data.Prod.Lex
import Mathlib.Data.String.Basic

namespace CodeSweep

/-! ## The key -/

/-- What findings are sorted by: line, then column, then rule name. -/
def Finding.key (f : Finding) : ℕ ×ₗ ℕ ×ₗ String := toLex (f.line, toLex (f.column, f.rule))

/-- Findings with the same key agree in line, column and rule name. -/
theorem Finding.key_eq_iff {f f' : Finding} :
    f.key = f'.key ↔ f.line = f'.line ∧ f.column = f'.column ∧ f.rule = f'.rule := by
  rw [key, key, toLex_inj, Prod.mk.injEq, toLex_inj, Prod.mk.injEq]

/-- One finding precedes another if its key is not greater. -/
theorem Finding.precedes_eq_keyLe : Finding.precedes = StableSort.keyLe Finding.key := by
  funext a b
  rw [precedes, StableSort.keyLe, Bool.eq_iff_iff, decide_eq_true_eq, key, key,
    Prod.Lex.toLex_le_toLex, Prod.Lex.toLex_le_toLex]
  simp only
  by_cases hline : a.line = b.line
  · rw [if_neg (not_not.mpr hline)]
    by_cases hcolumn : a.column = b.column
    · rw [if_neg (not_not.mpr hcolumn)]
      simp [hline, hcolumn]
    · rw [if_pos hcolumn]
      simp [hline, hcolumn]
  · rw [if_pos hline]
    simp [hline]

namespace Scan

section

variable {path language : String} {text : List Char}

/-- The findings of a scan are what is left of each rule, sorted by key. -/
theorem findings_eq_sortBy (rules : List Rule) (path language : String) (text : List Char) :
    findings rules path language text
      = StableSort.sortBy Finding.key (rules.flatMap
          (kept (firesOnLine (candidates rules path language text)) path language text)) := by
  rw [findings_eq, StableSort.sortBy, Finding.precedes_eq_keyLe]

/-- The findings of a scan are sorted. -/
theorem findings_pairwise (rules : List Rule) (path language : String) (text : List Char) :
    (findings rules path language text).Pairwise fun f f' => f.key ≤ f'.key := by
  rw [findings_eq_sortBy]
  exact StableSort.sortBy_pairwise Finding.key _

/-! ## The order of the rules does not matter -/

/-- A list made rule by rule does not depend on their order if only those of one name contribute to
it, and no two rules share a name. -/
theorem flatMap_eq_of_perm {rules rules' : List Rule} (hperm : rules.Perm rules')
    (hnodup : (rules.map (·.name)).Nodup) {β : Type} (f : Rule → List β) (name : String)
    (hf : ∀ r, r.name ≠ name → f r = []) : rules.flatMap f = rules'.flatMap f := by
  induction hperm with
  | nil => rfl
  | cons r _ ih =>
      rw [List.map_cons, List.nodup_cons] at hnodup
      rw [List.flatMap_cons, List.flatMap_cons, ih hnodup.2]
  | swap r s rs =>
      have hne : s.name ≠ r.name := by
        rw [List.map_cons, List.map_cons, List.nodup_cons] at hnodup
        exact fun h => hnodup.1 (h ▸ List.mem_cons_self)
      simp only [List.flatMap_cons]
      by_cases hr : r.name = name
      · rw [hf s (hr ▸ hne), List.nil_append, List.nil_append]
      · rw [hf r hr, List.nil_append, List.nil_append]
  | trans hrs _ ih ih' =>
      rw [ih hnodup, ih' ((hrs.map _).nodup_iff.mp hnodup)]

/-- What is left of a rule bears its name. -/
theorem rule_of_mem_kept {fires : Nat → String → Bool} {r : Rule} {f : Finding}
    (hf : f ∈ kept fires path language text r) : f.rule = r.name := by
  obtain ⟨h, -, rfl⟩ := mem_kept hf
  rfl

/-- **The order of the rules does not matter** to what a scan finds, nor to the order of that. -/
theorem findings_perm {rules rules' : List Rule} (hperm : rules.Perm rules')
    (hnodup : (rules.map (·.name)).Nodup) :
    findings rules path language text = findings rules' path language text := by
  have hfires : firesOnLine (candidates rules path language text)
      = firesOnLine (candidates rules' path language text) := by
    funext line name
    rw [Bool.eq_iff_iff, firesOnLine_candidates, firesOnLine_candidates]
    simp only [hperm.mem_iff]
  rw [findings_eq_sortBy, findings_eq_sortBy, hfires]
  generalize firesOnLine (candidates rules' path language text) = fires
  apply StableSort.sortBy_congr
  intro k
  rw [List.filter_flatMap, List.filter_flatMap]
  -- only the rule that the key names has findings with the key
  refine flatMap_eq_of_perm hperm hnodup _ (ofLex (ofLex k).2).2 ?_
  intro r hr
  rw [List.filter_eq_nil_iff]
  intro f hf hkey
  rw [← of_decide_eq_true hkey] at hr
  exact hr (rule_of_mem_kept hf).symm

/-! ## No two findings alike -/

/-- If each rule hits different places and no two rules share a name, the keys of the findings
ascend. -/
theorem findings_pairwise_lt {rules : List Rule}
    (hshows : ∀ r ∈ rules, r.showsInEveryMatch = true) (hnodup : (rules.map (·.name)).Nodup) :
    (findings rules path language text).Pairwise fun f f' => f.key < f'.key := by
  rw [findings_eq_sortBy]
  apply StableSort.sortBy_pairwise_lt
  rw [List.pairwise_flatMap]
  constructor
  · intro r hr
    apply List.Pairwise.filter
    rw [List.pairwise_map]
    refine (Rule.hits_pairwise (hshows r hr) text).imp ?_
    intro h h' hne hkey
    obtain ⟨hline, hcolumn, -⟩ := Finding.key_eq_iff.mp hkey
    exact hne (Position.mk.injEq .. ▸ ⟨hline, hcolumn⟩)
  · rw [List.nodup_iff_pairwise_ne, List.pairwise_map] at hnodup
    refine hnodup.imp ?_
    intro r r' hne f hf f' hf' hkey
    apply hne
    rw [← rule_of_mem_kept hf, ← rule_of_mem_kept hf']
    exact (Finding.key_eq_iff.mp hkey).2.2

end

/-- The globs of the catalogue can be read. -/
theorem globsRead_builtin : Registry.builtin.globsRead = true := by decide +kernel

/-- The catalogue's rules for whole texts show a group that is in the way of every match. -/
theorem showsInEveryMatch_catalogue : ∀ r ∈ catalogue, r.showsInEveryMatch = true := by
  decide

/-- **Scans are deterministic.**  Registries that hold the same rules in different orders find the
same, sorted by line, column and rule name; and under the catalogue no two findings agree in all
three. -/
theorem scanText_same_and_sorted :
    (∀ (rules rules' : List Rule) (reg reg' : Registry), rules.Perm rules' →
      Registry.build rules = .ok reg → Registry.build rules' = .ok reg' →
      reg.globsRead = true →
      ∀ (disabled : List String) (language : Option String) (path : String) (text : List Char),
        ∃ fs, scanText reg disabled language path text = .ok fs ∧
          scanText reg' disabled language path text = .ok fs ∧
          fs.Pairwise fun f f' => f.key ≤ f'.key) ∧
    ∀ (disabled : List String) (language : Option String) (path : String) (text : List Char),
      ∃ fs, scanText .builtin disabled language path text = .ok fs ∧
        fs.Pairwise fun f f' => f.key < f'.key := by
  constructor
  · intro rules rules' reg reg' hperm hbuild hbuild' hglobs disabled language path text
    have hperm' : reg.rules.Perm reg'.rules := by
      rwa [Registry.rules_of_build hbuild, Registry.rules_of_build hbuild']
    have hglobs' : reg'.globsRead = true := by
      rw [Registry.globsRead, List.all_eq_true] at hglobs ⊢
      exact fun r hr => hglobs r (hperm'.mem_iff.mpr hr)
    refine ⟨_, scanText_eq_ok hglobs disabled language path text, ?_, findings_pairwise ..⟩
    rw [scanText_eq_ok hglobs']
    congr 1
    exact (findings_perm ((Registry.rulesFor_perm hperm' _).filter _)
      (nodup_names_appliedRules (Registry.nodup_names_of_build hbuild) ..)).symm
  · intro disabled language path text
    refine ⟨_, scanText_eq_ok globsRead_builtin disabled language path text, ?_⟩
    apply findings_pairwise_lt
    · exact fun r hr => showsInEveryMatch_catalogue r (mem_appliedRules hr).1
    · exact nodup_names_appliedRules (Registry.nodup_names_of_build Registry.build_catalogue) ..

/-- A rule of the given name for the letter `x`. -/
def letterRule (name : String) : Rule :=
  { name, target := .universal, detector := .pattern "x" false, severity := .low
    description := "" }

/-- Two rules that hit the same two places, registered in either order. -/
theorem scanText_same_and_sorted_swapped :
    ∃ fs, scanText ⟨[letterRule "b", letterRule "a"]⟩ [] (some "c") "f.c" "x\nx".toList = .ok fs ∧
      scanText ⟨[letterRule "a", letterRule "b"]⟩ [] (some "c") "f.c" "x\nx".toList = .ok fs ∧
      fs.length = 4 ∧ fs.Pairwise fun f f' => f.key ≤ f'.key := by
  have hglobs : Registry.globsRead ⟨[letterRule "b", letterRule "a"]⟩ = true := by decide +kernel
  obtain ⟨fs, hfs, hfs', hsorted⟩ := scanText_same_and_sorted.1
    [letterRule "b", letterRule "a"] [letterRule "a", letterRule "b"]
    ⟨[letterRule "b", letterRule "a"]⟩ ⟨[letterRule "a", letterRule "b"]⟩
    (List.Perm.swap ..) (by decide +kernel) (by decide +kernel) hglobs
    [] (some "c") "f.c" "x\nx".toList
  refine ⟨fs, hfs, hfs', ?_, hsorted⟩
  have hscan := scanText_eq_ok hglobs [] (some "c") "f.c" "x\nx".toList
  obtain rfl := Except.ok.inj (hscan.symm.trans hfs)
  rw [findings_eq, List.length_mergeSort]
  decide +kernel

end Scan

end CodeSweep
