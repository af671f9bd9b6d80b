/-
# Test files

A file is called a test file by the globs of its language or because it is in a test directory.  The
rules of the catalogue leave alone what the globs of their language choose, and those for every
language leave alone the test directories too.  The rules for Go and those for Rust do not: in these
languages a test directory alone does not keep findings away (`activeRules_of_isTestFile`).
-/
import CodeSweep.Proofs.Glob.Union
import CodeSweep.Proofs.Path
import CodeSweep.Proofs.Scan.Order
import CodeSweep.Proofs.Scan.Sources

namespace CodeSweep

open Glob

/-! ## Calling files test files -/

/-- The globs of a path do not see whether it is in normal form. -/
theorem Glob.excludes_normalize (globs : List String) (path : String) :
    excludes globs (Path.normalize path) = excludes globs path := by
  rw [excludes, excludes, subject, subject, Path.normalize_normalize]

namespace Language

/-- No glob of test files takes anything back. -/
theorem isPositive_testGlobs (l : Language) :
    ∀ s ∈ l.profile.testGlobs ++ testDirectories, isPositive s = true := by
  cases l <;> decide

/-- The globs of a language for test files choose a path or not. -/
theorem excludes_testGlobs (l : Language) (path : String) :
    excludes l.profile.testGlobs path = .ok (l.profile.testGlobs.any (hits path)) :=
  excludes_eq_any (fun s hs => isPositive_testGlobs l s (List.mem_append_left _ hs)) path

/-- **A file is a test file** if a glob of its language is found in its path, or one of the test
directories. -/
theorem isTestFile_eq (l : Language) (path : String) :
    isTestFile l path
      = .ok (l.profile.testGlobs.any (hits path) || testDirectories.any (hits path)) := by
  rw [isTestFile, excludes_testGlobs, excludes_eq_any fun s hs =>
    isPositive_testGlobs l s (List.mem_append_right _ hs)]
  generalize l.profile.testGlobs.any (hits path) = chosen
  generalize testDirectories.any (hits path) = inDirectory
  cases chosen <;> rfl

/-- The test directories are among the globs of all languages but two. -/
theorem testDirectories_subset {l : Language} (h : l ≠ .go ∧ l ≠ .rust) :
    testDirectories ⊆ l.profile.testGlobs := by
  revert h
  cases l <;> decide

end Language

/-! ## The globs of the catalogue -/

/-- The globs of each language are among those of all languages. -/
theorem Language.testGlobs_subset_all (l : Language) :
    l.profile.testGlobs ⊆ allTestGlobs := by
  intro g hg
  exact mem_dedupe.mpr (List.mem_flatMap.mpr ⟨l, mem_all l, hg⟩)

/-- The globs of the test files that a rule for the target meets. -/
def Target.testGlobs : Target → List String
  | .only l => l.profile.testGlobs
  | .universal => Language.allTestGlobs

namespace Registry

/-- No glob of the catalogue takes anything back. -/
theorem isPositive_exclude_builtin :
    ∀ r ∈ builtin.rules, ∀ s ∈ r.exclude, isPositive s = true := by decide +kernel

/-- The rules that are enabled leave test files alone as far as the globs of their languages go. -/
theorem testGlobs_target_subset :
    ∀ r ∈ builtin.rules, r.enabled = true → r.target.testGlobs ⊆ r.exclude := by decide +kernel

/-- All rules for every language are enabled. -/
theorem enabled_of_mem_universal : ∀ r ∈ builtin.universal, r.enabled = true := by decide

/-- Some rules for Go and for Rust have no globs but those for test files. -/
theorem exists_exclude_subset {l : Language} (h : l = .go ∨ l = .rust) :
    ∃ r ∈ builtin.rulesFor l.name, r.enabled = true ∧ r.exclude ⊆ l.profile.testGlobs := by
  rcases h with rfl | rfl <;> decide

/-- A rule of the catalogue leaves alone what one of its globs is found in. -/
theorem excludes_exclude_builtin {r : Rule} (hr : r ∈ builtin.rules) (path : String) :
    excludes r.exclude path = .ok (r.exclude.any (hits path)) :=
  excludes_eq_any (isPositive_exclude_builtin r hr) path

end Registry

/-! ## What is active on test files -/

namespace Scan

open Registry

variable {l : Language} {path : String} {disabled : List String}

/-- The active rules of the catalogue are those without a glob that is found in the path. -/
theorem mem_activeRules_builtin {rules : List Rule}
    (h : activeRules builtin disabled l.name path = .ok rules) {r : Rule} :
    r ∈ rules ↔ r ∈ builtin.rulesFor l.name ∧ r.enabled = true ∧ r.name ∉ disabled ∧
      r.exclude.any (hits path) = false := by
  rw [activeRules_eq_ok globsRead_builtin] at h
  obtain rfl := Except.ok.inj h
  rw [List.mem_filter]
  refine and_congr_right fun hr => ?_
  rw [isActive, Rule.leavesAlone, excludes_exclude_builtin (mem_of_mem_rulesFor hr)]
  simp [and_assoc]

/-- Which rules of the catalogue are active is told of every path. -/
theorem exists_activeRules_builtin (disabled : List String) (language path : String) :
    ∃ rules, activeRules builtin disabled language path = .ok rules :=
  ⟨_, activeRules_eq_ok globsRead_builtin disabled language path⟩

/-- The rules for a language leave alone what its globs for test files choose. -/
theorem any_hits_exclude {r : Rule} (hr : r ∈ builtin.rulesFor l.name) (henabled : r.enabled = true)
    (hpath : l.profile.testGlobs.any (hits path) = true) : r.exclude.any (hits path) = true := by
  obtain ⟨hmem, htarget⟩ := mem_rulesFor_name.mp hr
  refine any_hits_of_subset (fun g hg => testGlobs_target_subset r hmem henabled ?_) hpath
  rcases htarget with htarget | htarget
  · rw [htarget]
    exact hg
  · rw [htarget]
    exact Language.testGlobs_subset_all l hg

/-- **No rule is active** on files that the globs of their language for test files choose. -/
theorem activeRules_of_testGlobs (hpath : excludes l.profile.testGlobs path = .ok true) :
    activeRules builtin disabled l.name path = .ok [] := by
  rw [Language.excludes_testGlobs, Except.ok.injEq] at hpath
  obtain ⟨rules, hrules⟩ := exists_activeRules_builtin disabled l.name path
  suffices rules = [] by rw [hrules, this]
  refine List.eq_nil_iff_forall_not_mem.mpr fun r hr => ?_
  obtain ⟨hmem, henabled, -, hexclude⟩ := (mem_activeRules_builtin hrules).mp hr
  rw [any_hits_exclude hmem henabled hpath] at hexclude
  cases hexclude

/-- **Rules for every language** leave all test files alone. -/
theorem excludes_of_isTestFile (hpath : Language.isTestFile l path = .ok true) {r : Rule}
    (hr : r ∈ builtin.universal) : excludes r.exclude path = .ok true := by
  obtain ⟨hmem, htarget⟩ := List.mem_filter.mp hr
  have hall : ∀ l' : Language, l'.profile.testGlobs ⊆ r.exclude := by
    intro l' g hg
    refine testGlobs_target_subset r hmem (enabled_of_mem_universal r hr) ?_
    rw [eq_of_beq htarget]
    exact Language.testGlobs_subset_all l' hg
  rw [Language.isTestFile_eq, Except.ok.injEq, Bool.or_eq_true] at hpath
  rw [excludes_exclude_builtin hmem, Except.ok.injEq]
  rcases hpath with hpath | hpath
  · exact any_hits_of_subset (hall l) hpath
  · -- the globs of some other language have the test directories, if not those of this one
    exact any_hits_of_subset
      (List.Subset.trans (Language.testDirectories_subset (by decide)) (hall .js)) hpath

/-- Test files of all languages but two are chosen by the globs of their language. -/
theorem excludes_testGlobs_of_isTestFile (hl : l ≠ .go ∧ l ≠ .rust)
    (hpath : Language.isTestFile l path = .ok true) : excludes l.profile.testGlobs path = .ok true := by
  rw [Language.isTestFile_eq, Except.ok.injEq, Bool.or_eq_true] at hpath
  rw [Language.excludes_testGlobs, Except.ok.injEq]
  exact hpath.elim id (any_hits_of_subset (Language.testDirectories_subset hl))

/-- A test file is left alone by all rules only if the globs of its language choose it. -/
theorem excludes_testGlobs_of_activeRules (hpath : Language.isTestFile l path = .ok true)
    (hactive : activeRules builtin [] l.name path = .ok []) :
    excludes l.profile.testGlobs path = .ok true := by
  by_cases hl : l = .go ∨ l = .rust
  · -- a rule that has no other globs is active wherever these do not choose the path
    obtain ⟨r, hr, henabled, hsubset⟩ := exists_exclude_subset hl
    rw [Language.excludes_testGlobs, Except.ok.injEq]
    by_contra hnone
    have hexclude : r.exclude.any (hits path) = false :=
      Bool.eq_false_iff.mpr fun h => hnone (any_hits_of_subset hsubset h)
    exact List.not_mem_nil ((mem_activeRules_builtin hactive).mpr
      ⟨hr, henabled, List.not_mem_nil, hexclude⟩)
  · exact excludes_testGlobs_of_isTestFile (not_or.mp hl) hpath

/-- A file in a test directory that is not among the globs of the language. -/
def strayTestFile : Language → String
  | .rust => "src/test/util.rs"
  | _ => "tests/helper.go"

/-- A file in a test directory is a test file, but the globs for Go and for Rust do not choose
it. -/
theorem isTestFile_strayTestFile (hl : l = .go ∨ l = .rust) :
    Language.isTestFile l (strayTestFile l) = .ok true ∧
      excludes l.profile.testGlobs (strayTestFile l) = .ok false := by
  rcases hl with rfl | rfl <;> decide

/-- **Test files and active rules.**  It is told of every path whether a file is a test file.  On
one that the globs of its language choose, no rule of the catalogue is active, and so nothing is
found in it.  On any test file no rule for every language is active; none at all is if and only if
the globs of its language choose the file.  That is so for all test files of a language exactly if
the language is neither Go nor Rust, whose globs leave out a test directory. -/
theorem activeRules_of_isTestFile (l : Language) (path : String) :
    (∃ b, Language.isTestFile l path = .ok b) ∧
    (excludes l.profile.testGlobs path = .ok true →
      ∀ disabled, activeRules builtin disabled l.name path = .ok [] ∧
        ∀ text, scanText builtin disabled (some l.name) path text = .ok []) ∧
    (Language.isTestFile l path = .ok true →
      (∀ r ∈ builtin.universal, excludes r.exclude path = .ok true) ∧
      (activeRules builtin [] l.name path = .ok [] ↔
        excludes l.profile.testGlobs path = .ok true)) ∧
    ((∀ path', Language.isTestFile l path' = .ok true →
      activeRules builtin [] l.name path' = .ok []) ↔ l ≠ .go ∧ l ≠ .rust) := by
  refine ⟨⟨_, Language.isTestFile_eq l path⟩, ?_, ?_, ?_⟩
  · intro hpath disabled
    refine ⟨activeRules_of_testGlobs hpath, fun text => ?_⟩
    rw [scanText_eq, languageOf_some l.name_ne_empty,
      activeRules_of_testGlobs (by rwa [excludes_normalize])]
    show Except.ok (findings [] _ _ _) = _
    rw [findings_eq, List.flatMap_nil, List.mergeSort_nil]
  · intro hpath
    exact ⟨fun r hr => excludes_of_isTestFile hpath hr,
      excludes_testGlobs_of_activeRules hpath, activeRules_of_testGlobs⟩
  · constructor
    · intro h
      by_contra hl
      rw [← not_or, not_not] at hl
      obtain ⟨htest, hchosen⟩ := isTestFile_strayTestFile hl
      rw [excludes_testGlobs_of_activeRules htest (h _ htest)] at hchosen
      cases hchosen
    · intro hl path' hpath
      exact activeRules_of_testGlobs (excludes_testGlobs_of_isTestFile hl hpath)

/-- No rule is active on a test of Go, nor on a file in a test directory of C. -/
theorem activeRules_of_isTestFile_go_c :
    (excludes Language.go.profile.testGlobs "pkg/store_test.go" = .ok true ∧
      activeRules builtin ["hardcoded_secrets"] "go" "pkg/store_test.go" = .ok []) ∧
    Language.isTestFile .c "lib/test/list.c" = .ok true ∧
      activeRules builtin [] "c" "lib/test/list.c" = .ok [] := by
  have hgo : excludes Language.go.profile.testGlobs "pkg/store_test.go" = .ok true := by
    decide +kernel
  have hc : Language.isTestFile .c "lib/test/list.c" = .ok true := by decide +kernel
  obtain ⟨-, hactive, -⟩ := activeRules_of_isTestFile .go "pkg/store_test.go"
  obtain ⟨-, -, -, hall⟩ := activeRules_of_isTestFile .c "lib/test/list.c"
  exact ⟨⟨hgo, (hactive hgo ["hardcoded_secrets"]).1⟩, hc, hall.mpr (by decide) _ hc⟩

/-- **Test files that rules are active on**: a file of Go and one of Rust, each in a test
directory. -/
theorem activeRules_strayTestFile :
    (Language.isTestFile .go "tests/helper.go" = .ok true ∧
      (activeRules builtin [] "go" "tests/helper.go").map List.length = .ok 15) ∧
    Language.isTestFile .rust "src/test/util.rs" = .ok true ∧
      (activeRules builtin [] "rust" "src/test/util.rs").map List.length = .ok 10 := by
  decide +kernel

end Scan

end CodeSweep
