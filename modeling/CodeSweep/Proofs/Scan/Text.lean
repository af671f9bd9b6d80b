/-
# A scan, rule by rule

A scan takes the active rules of a registry, which is a plain filter once all globs can be read
(`activeRules_eq_ok`), and sorts what is left of the hits of each rule (`findings_eq`).  What one
rule keeps depends on the other rules only through the question which of them fire on which line
(`firesOnLine_candidates`).
-/
import CodeSweep.Proofs.Registry
import CodeSweep.Proofs.Result
import CodeSweep.Proofs.Rule.Hit
import CodeSweep.Scan.Text

namespace CodeSweep

/-! ## Globs that can be read -/

/-- All globs of all rules can be read. -/
def Registry.globsRead (reg : Registry) : Bool :=
  reg.rules.all fun r => (Glob.readAll r.exclude).isOk

/-- The globs choose the path, as far as they can be read. -/
def Glob.chooses (globs : List String) (path : String) : Bool :=
  match Glob.excludes globs path with
  | .ok b => b
  | .error _ => false

/-- Globs that can be read choose a path or not. -/
theorem Glob.excludes_eq_ok {globs : List String} (h : (Glob.readAll globs).isOk = true)
    (path : String) : Glob.excludes globs path = .ok (Glob.chooses globs path) := by
  rw [chooses, Glob.excludes]
  cases hread : Glob.readAll globs with
  | ok gs => rfl
  | error e =>
      rw [hread] at h
      exact absurd h (by simp [Except.isOk, Except.toBool])

/-- The rule leaves the path alone, as far as its globs can be read. -/
def Rule.leavesAlone (r : Rule) (path : String) : Bool :=
  match Glob.excludes r.exclude path with
  | .ok b => b
  | .error _ => false

/-- A rule leaves a path alone or not if its globs can be read. -/
theorem Rule.excludes_eq_ok {r : Rule} (hr : (Glob.readAll r.exclude).isOk = true)
    (path : String) : Glob.excludes r.exclude path = .ok (r.leavesAlone path) :=
  Glob.excludes_eq_ok hr path

namespace Scan

/-! ## Active rules -/

/-- The rule is enabled, not switched off by name, and does not leave the path alone. -/
def isActive (disabled : List String) (path : String) (r : Rule) : Bool :=
  r.enabled && !disabled.contains r.name && !r.leavesAlone path

/-- **The active rules** are those among the rules for the language that pass a test. -/
theorem activeRules_eq_ok {reg : Registry} (hreg : reg.globsRead = true) (disabled : List String)
    (language path : String) :
    activeRules reg disabled language path
      = .ok ((reg.rulesFor language).filter (isActive disabled path)) := by
  apply filterM_eq_ok
  intro r hr
  have hread : (Glob.readAll r.exclude).isOk = true :=
    List.all_eq_true.mp hreg r (Registry.mem_of_mem_rulesFor hr)
  rw [isActive]
  split
  · next h => rw [h, Rule.excludes_eq_ok hread, Bool.true_and]; rfl
  · next h => rw [Bool.eq_false_iff.mpr h, Bool.false_and]

/-! ## Candidates -/

section

variable {rules : List Rule} {path language : String} {text : List Char}

/-- A candidate is a hit of one of the rules. -/
theorem mem_candidates {c : Candidate} :
    c ∈ candidates rules path language text ↔
      ∃ r ∈ rules, ∃ h ∈ r.hits text, c = (r, Finding.ofHit path language r h) := by
  simp only [candidates, List.mem_flatMap, List.mem_map, eq_comm]

/-- A rule fires on a line if it hits something that starts there. -/
theorem firesOnLine_candidates {line : Nat} {name : String} :
    firesOnLine (candidates rules path language text) line name = true ↔
      ∃ r ∈ rules, r.name = name ∧ ∃ h ∈ r.hits text, h.extent.start.line = line := by
  simp only [firesOnLine, List.any_eq_true, Bool.and_eq_true, beq_iff_eq]
  constructor
  · rintro ⟨c, hc, hline, hname⟩
    obtain ⟨r, hr, h, hh, rfl⟩ := mem_candidates.mp hc
    exact ⟨r, hr, hname, h, hh, hline⟩
  · rintro ⟨r, hr, hname, h, hh, hline⟩
    exact ⟨_, mem_candidates.mpr ⟨r, hr, h, hh, rfl⟩, hline, hname⟩

end

/-! ## What is left of a rule -/

/-- The findings of a rule that stay: none of its suppressors fires on their line, and no directive
silences them. -/
def kept (fires : Nat → String → Bool) (path language : String) (text : List Char) (r : Rule) :
    List Finding :=
  ((r.hits text).map (Finding.ofHit path language r)).filter fun f =>
    !r.suppressedBy.any (fires f.line) &&
      !(Suppressions.ofLines (Text.lines text)).silences f.rule (some f.line)

/-- **The findings of a scan** are what is left of each rule, sorted. -/
theorem findings_eq (rules : List Rule) (path language : String) (text : List Char) :
    findings rules path language text
      = (rules.flatMap (kept (firesOnLine (candidates rules path language text))
          path language text)).mergeSort Finding.precedes := by
  rw [findings, dropSuperfluous]
  generalize hfires : firesOnLine (candidates rules path language text) = fires
  rw [candidates] at hfires ⊢
  simp only [isSuperfluous, hfires, List.filter_flatMap, List.map_flatMap, List.filter_map,
    List.filter_filter, List.map_map]
  congr 2
  funext r
  rw [kept, List.filter_map]
  congr 1
  apply List.filter_congr
  intro h _
  rw [Bool.and_comm]
  rfl

/-- What stays of a rule is one of its hits. -/
theorem mem_kept {fires : Nat → String → Bool} {path language : String} {text : List Char}
    {r : Rule} {f : Finding} (hf : f ∈ kept fires path language text r) :
    ∃ h ∈ r.hits text, f = Finding.ofHit path language r h := by
  obtain ⟨h, hh, rfl⟩ := List.mem_map.mp (List.mem_filter.mp hf).1
  exact ⟨h, hh, rfl⟩

/-- Every finding is a hit of one of the rules. -/
theorem exists_hit_of_mem_findings {rules : List Rule} {path language : String} {text : List Char}
    {f : Finding} (hf : f ∈ findings rules path language text) :
    ∃ r ∈ rules, ∃ h ∈ r.hits text, f = Finding.ofHit path language r h := by
  rw [findings_eq, List.mem_mergeSort, List.mem_flatMap] at hf
  obtain ⟨r, hr, hf⟩ := hf
  exact ⟨r, hr, mem_kept hf⟩

/-! ## The scan of a file -/

/-- The language that a file is scanned under: the one that is named, unless the name is empty, and
else the one that path and text tell. -/
def languageOf (language : Option String) (path : String) (text : List Char) : String :=
  match language with
  | some l => if l = "" then (Language.classify path (some text)).name else l
  | none => (Language.classify path (some text)).name

/-- A file is scanned under the language that is named, whatever its text is. -/
theorem languageOf_some {language : String} (h : language ≠ "") (path : String)
    (text : List Char) : languageOf (some language) path text = language := by
  rw [languageOf]
  exact if_neg h

/-- A scan finds what its active rules find. -/
theorem scanText_eq (reg : Registry) (disabled : List String) (language : Option String)
    (path : String) (text : List Char) :
    scanText reg disabled language path text
      = (activeRules reg disabled (languageOf language (Path.normalize path) text)
          (Path.normalize path)).map fun rules =>
        findings rules (Path.normalize path) (languageOf language (Path.normalize path) text)
          text := by
  unfold scanText languageOf
  simp only
  cases activeRules reg disabled _ _ <;> rfl

/-- What a scan finds is what some rules find. -/
theorem exists_rules_of_scanText {reg : Registry} {disabled : List String}
    {language : Option String} {path : String} {text : List Char} {fs : List Finding}
    (hfs : scanText reg disabled language path text = .ok fs) :
    ∃ rules, fs = findings rules (Path.normalize path)
      (languageOf language (Path.normalize path) text) text := by
  rw [scanText_eq] at hfs
  cases hrules : activeRules reg disabled _ _ with
  | error e =>
      rw [hrules] at hfs
      cases hfs
  | ok rules =>
      rw [hrules] at hfs
      exact ⟨rules, (Except.ok.inj hfs).symm⟩

/-- The rules that a scan of a file applies. -/
def appliedRules (reg : Registry) (disabled : List String) (language : Option String)
    (path : String) (text : List Char) : List Rule :=
  (reg.rulesFor (languageOf language (Path.normalize path) text)).filter
    (isActive disabled (Path.normalize path))

/-- An applied rule is an active rule of the registry. -/
theorem mem_appliedRules {reg : Registry} {disabled : List String} {language : Option String}
    {path : String} {text : List Char} {r : Rule}
    (hr : r ∈ appliedRules reg disabled language path text) :
    r ∈ reg.rules ∧ isActive disabled (Path.normalize path) r = true := by
  obtain ⟨hmem, hactive⟩ := List.mem_filter.mp hr
  exact ⟨Registry.mem_of_mem_rulesFor hmem, hactive⟩

/-- The applied rules have different names if all rules have. -/
theorem nodup_names_appliedRules {reg : Registry} (hnodup : (reg.rules.map (·.name)).Nodup)
    (disabled : List String) (language : Option String) (path : String) (text : List Char) :
    ((appliedRules reg disabled language path text).map (·.name)).Nodup :=
  (Registry.nodup_names_rulesFor hnodup _).sublist (List.filter_sublist.map _)

/-- A scan with readable globs finds what the applied rules find. -/
theorem scanText_eq_ok {reg : Registry} (hreg : reg.globsRead = true) (disabled : List String)
    (language : Option String) (path : String) (text : List Char) :
    scanText reg disabled language path text
      = .ok (findings (appliedRules reg disabled language path text) (Path.normalize path)
          (languageOf language (Path.normalize path) text) text) := by
  rw [scanText_eq, activeRules_eq_ok hreg]
  rfl

end Scan

end CodeSweep
