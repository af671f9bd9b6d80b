/-
# Lists of globs as sets

A glob takes something back only if it begins with the sign for that (`head?_of_negated`).  So a
list of globs without signs chooses what its members choose, each by itself (`excludes_union`):
only the set of its members counts.
-/
import CodeSweep.Language.Profile
import CodeSweep.Proofs.Glob.Positive
import Mathlib.Data.List.DropRight

namespace CodeSweep

/-- The texts without repetitions are the same texts. -/
theorem Language.mem_dedupe {g : String} {globs : List String} : g ∈ dedupe globs ↔ g ∈ globs := by
  have hfold : ∀ seen : List String,
      g ∈ globs.foldl (fun seen g => if seen.contains g then seen else seen ++ [g]) seen ↔
        g ∈ seen ∨ g ∈ globs := by
    induction globs with
    | nil => simp
    | cons h globs ih =>
        intro seen
        rw [List.foldl_cons, ih, List.mem_cons, ← or_assoc]
        refine or_congr_left ?_
        split
        · next hseen =>
            rw [List.contains_iff_mem] at hseen
            exact ⟨.inl, fun hg => hg.elim id fun hg => hg ▸ hseen⟩
        · rw [List.mem_append, List.mem_singleton]
  rw [dedupe, hfold []]
  simp

namespace Glob

/-! ## Signs -/

/-- A glob is trimmed at its end only. -/
theorem trimGlob_isPrefix (cs : List Char) : trimGlob cs <+: cs := by
  rw [trimGlob]
  split
  · exact List.prefix_rfl
  · exact List.rdropWhile_prefix Text.isBlank cs

/-- **A glob that takes something back** begins with the sign for that. -/
theorem head?_of_negated {s : String} {g : Glob} (h : read s = .ok (some g))
    (hg : g.negated = true) : s.toList.head? = some '!' := by
  have htrim := trimGlob_isPrefix s.toList
  rw [read] at h
  generalize trimGlob s.toList = cs at h htrim
  simp only at h
  split at h
  · cases h
  · split at h
    · cases h
    · split at h
      · obtain ⟨_, hpattern, heq⟩ := map_eq_ok_iff.mp h
        obtain rfl := Option.some.inj heq
        rw [negated_of_ofPattern hpattern] at hg
        split at hg
        -- the sign that is found after trimming was there before
        · obtain ⟨rest, hrest⟩ := htrim
          rw [← hrest]
          rfl
        · cases hg
      · cases h
      · cases h

/-- A single glob is read if the list of it is. -/
theorem isOk_readAll_singleton (s : String) : (readAll [s]).isOk = (read s).isOk := by
  rw [readAll, List.mapM_cons, List.mapM_nil]
  cases read s <;> rfl

/-- A glob without a sign that can be read takes nothing back. -/
theorem isPositive_of_head?_ne {s : String} (hsign : s.toList.head? ≠ some '!')
    (hread : (readAll [s]).isOk = true) : isPositive s = true := by
  rw [isOk_readAll_singleton] at hread
  rw [isPositive]
  cases h : read s with
  | error e =>
      rw [h] at hread
      cases hread
  | ok g =>
      cases g with
      | none => rfl
      | some g =>
          show (!g.negated) = true
          rw [Bool.not_eq_true']
          exact Bool.eq_false_iff.mpr fun hg => hsign (head?_of_negated h hg)

/-! ## Sets of globs -/

section

variable {globs : List String} (h : ∀ s ∈ globs, isPositive s = true)

include h

/-- Each positive glob chooses a path by itself if it is found in it. -/
theorem excludes_singleton {s : String} (hs : s ∈ globs) (path : String) :
    excludes [s] path = .ok (hits path s) := by
  rw [excludes_eq_any fun t ht => List.mem_singleton.mp ht ▸ h s hs, List.any_cons, List.any_nil,
    Bool.or_false]

/-- Positive globs with the same members choose the same paths. -/
theorem excludes_congr {globs' : List String} (hmem : ∀ s, s ∈ globs' ↔ s ∈ globs)
    (path : String) : excludes globs' path = excludes globs path := by
  rw [excludes_eq_any h, excludes_eq_any fun s hs => h s ((hmem s).mp hs), Except.ok.injEq,
    Bool.eq_iff_iff]
  exact ⟨any_hits_of_subset fun s hs => (hmem s).mp hs,
    any_hits_of_subset fun s hs => (hmem s).mpr hs⟩

end

/-- **Globs without signs choose a path** if one of them does by itself.  So neither their order nor
their repetitions matter, repetitions may be left out, and with more such globs no path that was
chosen is left. -/
theorem excludes_union {globs : List String} (hsign : ∀ s ∈ globs, s.toList.head? ≠ some '!')
    (hread : ∀ s ∈ globs, (readAll [s]).isOk = true) (path : String) :
    (∃ alone : String → Bool, (∀ s ∈ globs, excludes [s] path = .ok (alone s)) ∧
      excludes globs path = .ok (globs.any alone)) ∧
    (∀ globs', (∀ s, s ∈ globs' ↔ s ∈ globs) → excludes globs' path = excludes globs path) ∧
    excludes (Language.dedupe globs) path = excludes globs path ∧
    ∀ globs', globs ⊆ globs' → (∀ s ∈ globs', s.toList.head? ≠ some '!') →
      (∀ s ∈ globs', (readAll [s]).isOk = true) →
      excludes globs path = .ok true → excludes globs' path = .ok true := by
  have hpositive : ∀ s ∈ globs, isPositive s = true := fun s hs =>
    isPositive_of_head?_ne (hsign s hs) (hread s hs)
  refine ⟨⟨hits path, fun s hs => excludes_singleton hpositive hs path,
    excludes_eq_any hpositive path⟩, fun globs' hmem => excludes_congr hpositive hmem path,
    excludes_congr hpositive (fun s => Language.mem_dedupe) path, ?_⟩
  intro globs' hsubset hsign' hread' hchosen
  rw [excludes_eq_any hpositive, Except.ok.injEq] at hchosen
  rw [excludes_eq_any fun s hs => isPositive_of_head?_ne (hsign' s hs) (hread' s hs),
    any_hits_of_subset hsubset hchosen]

/-- The glob of a folder, one of a kind of file, and a comment choose a file in the folder as the
first of them does, and still do if they are turned around and repeated. -/
theorem excludes_union_folder :
    (∀ s ∈ ["build/", "*.py", "# tests"],
      s.toList.head? ≠ some '!' ∧ (readAll [s]).isOk = true) ∧
    excludes ["build/", "*.py", "# tests"] "build/a.c" = .ok true ∧
    excludes ["# tests", "*.py", "build/", "*.py"] "build/a.c" = .ok true := by
  have hglobs : ∀ s ∈ ["build/", "*.py", "# tests"],
      s.toList.head? ≠ some '!' ∧ (readAll [s]).isOk = true := by decide
  obtain ⟨⟨alone, halone, hany⟩, hsame, -⟩ := excludes_union (fun s hs => (hglobs s hs).1)
    (fun s hs => (hglobs s hs).2) "build/a.c"
  have hfolder : alone "build/" = true := by
    have hbuild := halone "build/" List.mem_cons_self
    rw [show excludes ["build/"] "build/a.c" = .ok true by decide] at hbuild
    exact (Except.ok.inj hbuild).symm
  have hchosen : excludes ["build/", "*.py", "# tests"] "build/a.c" = .ok true := by
    rw [hany, List.any_cons, hfolder, Bool.true_or]
  exact ⟨hglobs, hchosen, (hsame _ (by simp; tauto)).trans hchosen⟩

end Glob

end CodeSweep
