/-
# Globs that take nothing back

A list of globs that can be read and are not negated chooses a path if one of them does
(`excludes_eq_any`).  So it is but a set: neither the order of the globs nor their repetitions
matter, and with more globs it chooses more paths.
-/
import CodeSweep.Proofs.Glob.Reading

namespace CodeSweep.Glob

/-- The text can be read, and spells no glob that takes back what others chose. -/
def isPositive (s : String) : Bool :=
  match read s with
  | .ok (some g) => !g.negated
  | .ok none => true
  | .error _ => false

/-- The glob that the text spells, if it spells one. -/
def spelled? (s : String) : Option Glob :=
  match read s with
  | .ok g => g
  | .error _ => none

/-- The text spells a glob that is found in the path. -/
def hits (path s : String) : Bool :=
  (spelled? s).any fun g => decide (0 < g.strength (subject path))

/-- A text that is positive is read. -/
theorem read_of_isPositive {s : String} (h : isPositive s = true) : read s = .ok (spelled? s) := by
  rw [spelled?]
  rw [isPositive] at h
  split at h
  · next hread => rw [hread]
  · next hread => rw [hread]
  · cases h

/-- Among globs that are not negated, the first one counts that is stronger than what was kept. -/
theorem choose_eq_any {gs : List Glob} (h : ∀ g ∈ gs, g.negated = false) (path : Array Char)
    (kept : Nat) (chosen : Bool) :
    choose path gs kept chosen = (chosen || gs.any fun g => decide (kept < g.strength path)) := by
  -- once a glob is found, what is kept can only be replaced by a choice
  induction gs generalizing kept chosen with
  | nil => rw [choose, List.any_nil, Bool.or_false]
  | cons g gs ih =>
      rw [List.forall_mem_cons] at h
      rw [choose, List.any_cons, h.1]
      split
      · next hstronger =>
          split
          · simp [hstronger]
          · rw [ih h.2]
            simp [hstronger]
      · next hweaker =>
          rw [ih h.2, decide_eq_false hweaker, Bool.false_or]

/-- **Positive globs choose a path** if one of them is found in it. -/
theorem excludes_eq_any {globs : List String} (h : ∀ s ∈ globs, isPositive s = true)
    (path : String) : excludes globs path = .ok (globs.any (hits path)) := by
  have hpositive : ∀ g ∈ ((globs.map spelled?).filterMap id).reverse, g.negated = false := by
    intro g hg
    rw [List.mem_reverse, List.filterMap_map, List.mem_filterMap] at hg
    obtain ⟨s, hs, hspelled⟩ := hg
    have hread := (read_of_isPositive (h s hs)).trans (congrArg Except.ok hspelled)
    have hsign := h s hs
    rw [isPositive, hread] at hsign
    simpa using hsign
  rw [excludes_eq, mapM_eq_ok globs read spelled? fun s hs => read_of_isPositive (h s hs)]
  show Except.ok (choose _ _ 0 false) = _
  rw [choose_eq_any hpositive, Bool.false_or, List.any_reverse, List.filterMap_map,
    List.any_filterMap]
  rfl

/-- With more positive globs, more paths are chosen. -/
theorem any_hits_of_subset {globs globs' : List String} (h : globs ⊆ globs') {path : String}
    (hglobs : globs.any (hits path) = true) : globs'.any (hits path) = true := by
  rw [List.any_eq_true] at hglobs ⊢
  obtain ⟨s, hs, hhit⟩ := hglobs
  exact ⟨s, h hs, hhit⟩

end CodeSweep.Glob
