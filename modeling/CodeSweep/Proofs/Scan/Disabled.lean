/-
# Switching rules off

A rule that is switched off neither finds anything nor makes findings of other rules superfluous.
So what a scan finds with more rules switched off is what it found before, less the findings of
those rules, and with the findings that only those rules were suppressing (`filter_findings_eq`).
-/
import CodeSweep.Proofs.Scan.Order

namespace CodeSweep.Scan

/-! ## Which rules apply and fire -/

/-- Switching off more rules leaves the applied rules that are not among them. -/
theorem appliedRules_of_subset {disabled disabled' : List String} (h : disabled ⊆ disabled')
    (reg : Registry) (language : Option String) (path : String) (text : List Char) :
    appliedRules reg disabled' language path text
      = (appliedRules reg disabled language path text).filter
          fun r => !disabled'.contains r.name := by
  unfold appliedRules
  rw [List.filter_filter]
  apply List.filter_congr
  intro r _
  unfold isActive
  by_cases hr' : r.name ∈ disabled'
  · simp [hr']
  · have hr : r.name ∉ disabled := fun hr => hr' (h hr)
    simp [hr, hr']

section

variable {path language : String} {text : List Char} (off : String → Bool)

/-- A rule that is switched off fires nowhere, and any other fires where it did. -/
theorem firesOnLine_filter (rules : List Rule) (line : Nat) (name : String) :
    firesOnLine (candidates (rules.filter fun r => !off r.name) path language text) line name
      = (!off name && firesOnLine (candidates rules path language text) line name) := by
  rw [Bool.eq_iff_iff, Bool.and_eq_true, firesOnLine_candidates, firesOnLine_candidates]
  constructor
  · rintro ⟨r, hr, rfl, hfires⟩
    obtain ⟨hr, hoff⟩ := List.mem_filter.mp hr
    exact ⟨hoff, r, hr, rfl, hfires⟩
  · rintro ⟨hoff, r, hr, rfl, hfires⟩
    exact ⟨r, List.mem_filter.mpr ⟨hr, hoff⟩, rfl, hfires⟩

/-! ## What comes to light -/

/-- One of the rules that are switched off fires on the line and suppresses the rule there. -/
def suppressedByOff (fires : Nat → String → Bool) (r : Rule) (line : Nat) : Bool :=
  r.suppressedBy.any fun name => off name && fires line name

/-- The finding comes to light by switching rules off: one of them suppresses its rule there. -/
def comesToLight (rules : List Rule) (fires : Nat → String → Bool) (f : Finding) : Bool :=
  rules.any fun r => r.name == f.rule && suppressedByOff off fires r f.line

/-- What is left of a rule is what would be left if only the other rules fired, less what the rules
that are switched off suppress. -/
theorem kept_eq_filter (fires : Nat → String → Bool) (r : Rule) :
    kept fires path language text r
      = (kept (fun line name => !off name && fires line name) path language text r).filter
          fun f => !suppressedByOff off fires r f.line := by
  unfold kept suppressedByOff
  rw [List.filter_filter]
  apply List.filter_congr
  intro f _
  -- a suppressor that fires is switched off or is not
  have hsplit : r.suppressedBy.any (fires f.line)
      = ((r.suppressedBy.any fun name => off name && fires f.line name) ||
          r.suppressedBy.any fun name => !off name && fires f.line name) := by
    rw [Bool.eq_iff_iff, Bool.or_eq_true, List.any_eq_true, List.any_eq_true, List.any_eq_true]
    constructor
    · rintro ⟨name, hname, hfires⟩
      cases hoff : off name with
      | true => exact .inl ⟨name, hname, by rw [hoff, hfires, Bool.and_self]⟩
      | false => exact .inr ⟨name, hname, by rw [hoff, hfires, Bool.not_false, Bool.and_self]⟩
    · rintro (⟨name, hname, hfires⟩ | ⟨name, hname, hfires⟩)
      · exact ⟨name, hname, (Bool.and_eq_true_iff.mp hfires).2⟩
      · exact ⟨name, hname, (Bool.and_eq_true_iff.mp hfires).2⟩
  rw [hsplit, Bool.not_or, Bool.and_assoc]

/-- Among rules with different names, a finding of one comes to light if that one is suppressed. -/
theorem comesToLight_eq {rules : List Rule} (hnodup : (rules.map (·.name)).Nodup) {r : Rule}
    (hr : r ∈ rules) (fires : Nat → String → Bool) {f : Finding} (hf : f.rule = r.name) :
    comesToLight off rules fires f = suppressedByOff off fires r f.line := by
  rw [Bool.eq_iff_iff, comesToLight, List.any_eq_true]
  constructor
  · rintro ⟨s, hs, hsuppressed⟩
    rw [Bool.and_eq_true, beq_iff_eq, hf] at hsuppressed
    obtain rfl := List.inj_on_of_nodup_map hnodup hs hr hsuppressed.1
    exact hsuppressed.2
  · intro hsuppressed
    exact ⟨r, hr, by simp [hf, hsuppressed]⟩

/-- **The findings of the rules that stay** are what they find by themselves, less what comes to
light. -/
theorem filter_findings_eq {rules : List Rule} (hnodup : (rules.map (·.name)).Nodup) :
    (findings rules path language text).filter (fun f => !off f.rule)
      = (findings (rules.filter fun r => !off r.name) path language text).filter fun f =>
          !comesToLight off rules (firesOnLine (candidates rules path language text)) f := by
  have hfires : firesOnLine (candidates (rules.filter fun r => !off r.name) path language text)
      = fun line name =>
          !off name && firesOnLine (candidates rules path language text) line name := by
    funext line name
    rw [firesOnLine_filter]
  rw [findings_eq_sortBy, findings_eq_sortBy, hfires]
  generalize firesOnLine (candidates rules path language text) = fires
  rw [StableSort.filter_sortBy_eq, StableSort.filter_sortBy_eq, List.filter_flatMap,
    List.filter_flatMap]
  congr 1
  -- a rule that is switched off has no findings on either side
  apply Pattern.flatMap_eq_flatMap_filter
  · intro r _ hoff
    rw [List.filter_eq_nil_iff]
    intro f hf
    rw [rule_of_mem_kept hf, hoff]
    exact Bool.false_ne_true
  · intro r hr hoff
    rw [kept_eq_filter off fires, List.filter_filter]
    apply List.filter_congr
    intro f hf
    rw [comesToLight_eq off hnodup hr fires (rule_of_mem_kept hf), rule_of_mem_kept hf, hoff,
      Bool.true_and]

/-- A finding that there are more of without the rules that are switched off comes to light. -/
theorem comesToLight_of_count_lt {rules : List Rule} (hnodup : (rules.map (·.name)).Nodup)
    {f : Finding} (hf : (findings rules path language text).count f
      < (findings (rules.filter fun r => !off r.name) path language text).count f) :
    comesToLight off rules (firesOnLine (candidates rules path language text)) f = true := by
  have hstays : (!off f.rule) = true := by
    obtain ⟨r, hr, h, -, rfl⟩ := exists_hit_of_mem_findings
      (List.count_pos_iff.mp (Nat.zero_lt_of_lt hf))
    exact (List.mem_filter.mp hr).2
  by_contra hlight
  have hdark : (!comesToLight off rules (firesOnLine (candidates rules path language text)) f)
      = true := by
    simpa using hlight
  have hcount : (findings rules path language text).count f
      = (findings (rules.filter fun r => !off r.name) path language text).count f := by
    rw [← List.count_filter (p := fun f => !off f.rule) hstays, filter_findings_eq off hnodup]
    exact List.count_filter hdark
  omega

end

/-- **Switching off more rules** never hides a finding of another rule, and any finding that it adds
was suppressed by one of those rules, which fires on the line of the finding. -/
theorem scanText_more_disabled (rules : List Rule) (reg : Registry)
    (hbuild : Registry.build rules = .ok reg) (hglobs : reg.globsRead = true)
    (disabled disabled' : List String) (hmore : disabled ⊆ disabled') (language : Option String)
    (path : String) (text : List Char) :
    ∃ fs fs', scanText reg disabled language path text = .ok fs ∧
      scanText reg disabled' language path text = .ok fs' ∧
      (fs.filter fun f => !disabled'.contains f.rule).Sublist fs' ∧
      ∀ f, fs.count f < fs'.count f →
        ∃ r ∈ reg.rules, r.name = f.rule ∧
          ∃ s ∈ reg.rules, s.name ∈ r.suppressedBy ∧ s.name ∈ disabled' ∧ s.name ∉ disabled ∧
            s ∈ appliedRules reg disabled language path text ∧
            ∃ h ∈ s.hits text, h.extent.start.line = f.line := by
  have hnodup := nodup_names_appliedRules (Registry.nodup_names_of_build hbuild) disabled language
    path text
  refine ⟨_, _, scanText_eq_ok hglobs disabled language path text,
    scanText_eq_ok hglobs disabled' language path text, ?_, ?_⟩
  · rw [appliedRules_of_subset hmore, filter_findings_eq disabled'.contains hnodup]
    exact List.filter_sublist
  · intro f hf
    rw [appliedRules_of_subset hmore] at hf
    have hlight := comesToLight_of_count_lt disabled'.contains hnodup hf
    obtain ⟨r, hr, hsuppressed⟩ := List.any_eq_true.mp hlight
    rw [Bool.and_eq_true, beq_iff_eq] at hsuppressed
    rw [suppressedByOff] at hsuppressed
    obtain ⟨name, hname, hfires⟩ := List.any_eq_true.mp hsuppressed.2
    rw [Bool.and_eq_true, List.contains_iff_mem] at hfires
    obtain ⟨s, hs, rfl, hhit⟩ := firesOnLine_candidates.mp hfires.2
    obtain ⟨hmem, hactive⟩ := mem_appliedRules hs
    refine ⟨r, (mem_appliedRules hr).1, hsuppressed.1, s, hmem, hname, hfires.1, ?_, hs, hhit⟩
    intro hoff
    simp [isActive, hoff] at hactive

/-- A registry of two rules for the letter `x`, the first of which suppresses the second. -/
def coveringRegistry : Registry :=
  ⟨[letterRule "a", { letterRule "b" with suppressedBy := ["a"] }]⟩

/-- The finding of the second rule in a text that starts with `x`. -/
def coveredFinding : Finding :=
  .ofHit "f.c" "c" (letterRule "b") ⟨⟨⟨1, 1⟩, ⟨1, 2⟩⟩, ['x']⟩

/-- With the first rule switched off, the finding of the second comes to light. -/
theorem scanText_more_disabled_covering :
    ∃ fs fs', scanText coveringRegistry [] (some "c") "f.c" "x".toList = .ok fs ∧
      scanText coveringRegistry ["a"] (some "c") "f.c" "x".toList = .ok fs' ∧
      (fs.filter fun f => !(["a"].contains f.rule)).Sublist fs' ∧
      fs.count coveredFinding = 0 ∧ fs'.count coveredFinding = 1 ∧
      ∃ r ∈ coveringRegistry.rules, r.name = "b" ∧
        ∃ s ∈ coveringRegistry.rules, s.name ∈ r.suppressedBy ∧ s.name ∈ ["a"] ∧ s.name ∉ [] ∧
          s ∈ appliedRules coveringRegistry [] (some "c") "f.c" "x".toList ∧
          ∃ h ∈ s.hits "x".toList, h.extent.start.line = 1 := by
  have hglobs : coveringRegistry.globsRead = true := by decide +kernel
  obtain ⟨fs, fs', hfs, hfs', hsublist, hadded⟩ := scanText_more_disabled coveringRegistry.rules
    coveringRegistry (by decide +kernel) hglobs [] ["a"] (List.nil_subset _) (some "c") "f.c"
    "x".toList
  have hbefore : fs.count coveredFinding = 0 := by
    obtain rfl := Except.ok.inj
      ((scanText_eq_ok hglobs [] (some "c") "f.c" "x".toList).symm.trans hfs)
    rw [findings_eq, (List.mergeSort_perm _ _).count_eq]
    decide +kernel
  have hafter : fs'.count coveredFinding = 1 := by
    obtain rfl := Except.ok.inj
      ((scanText_eq_ok hglobs ["a"] (some "c") "f.c" "x".toList).symm.trans hfs')
    rw [findings_eq, (List.mergeSort_perm _ _).count_eq]
    decide +kernel
  exact ⟨fs, fs', hfs, hfs', hsublist, hbefore, hafter,
    hadded coveredFinding (by rw [hbefore, hafter]; exact Nat.one_pos)⟩

end CodeSweep.Scan
