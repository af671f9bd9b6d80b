/-
# Stretches of a text

A stretch is cut out of a text by two places.  Stretches that follow each other make one stretch
(`slice_append_slice`), and what stands in a stretch stands in the text between its ends
(`mem_slice`).
-/
import CodeSweep.Text.Line
import Mathlib.Data.List.Basic

namespace CodeSweep

namespace Text

variable {cs : List Char} {i j k : Nat}

/-- From a place to itself there is nothing. -/
theorem slice_self (cs : List Char) (i : Nat) : slice cs (i, i) = [] := by
  simp [slice]

/-- Two stretches one after the other. -/
theorem slice_append_slice (hij : i ≤ j) (hjk : j ≤ k) :
    slice cs (i, j) ++ slice cs (j, k) = slice cs (i, k) := by
  have hfirst : slice cs (i, j) = (slice cs (i, k)).take (j - i) := by
    rw [slice, slice, ← List.drop_take, List.take_take, Nat.min_eq_left hjk]
  have hsecond : slice cs (j, k) = (slice cs (i, k)).drop (j - i) := by
    rw [slice, slice, List.drop_drop, Nat.add_sub_cancel' hij]
  rw [hfirst, hsecond, List.take_append_drop]

/-- A stretch and what comes after it. -/
theorem slice_append_drop (hij : i ≤ j) : slice cs (i, j) ++ cs.drop j = cs.drop i := by
  have hrest : cs.drop j = (cs.drop i).drop (j - i) := by
    rw [List.drop_drop, Nat.add_sub_cancel' hij]
  rw [slice, List.drop_take, hrest, List.take_append_drop]

/-- The stretch of one character. -/
theorem slice_succ {c : Char} (hc : cs[i]? = some c) : slice cs (i, i + 1) = [c] := by
  obtain ⟨hlt, rfl⟩ := List.getElem?_eq_some_iff.mp hc
  simp only [slice]
  rw [List.take_succ_eq_append_getElem hlt, List.drop_left' (by simp; omega)]

/-- The characters of a stretch. -/
theorem mem_slice {c : Char} :
    c ∈ slice cs (i, j) ↔ ∃ k, i ≤ k ∧ k < j ∧ cs[k]? = some c := by
  rw [slice, List.mem_iff_getElem?]
  constructor
  · rintro ⟨n, hn⟩
    rw [List.getElem?_drop, List.getElem?_take] at hn
    split at hn
    · exact ⟨i + n, Nat.le_add_right i n, by assumption, hn⟩
    · cases hn
  · rintro ⟨k, hik, hkj, hc⟩
    refine ⟨k - i, ?_⟩
    rw [List.getElem?_drop, Nat.add_sub_cancel' hik, List.getElem?_take_of_lt hkj, hc]

/-- Stretches with the same characters. -/
theorem slice_congr {ds : List Char} (h : ∀ k, i ≤ k → k < j → cs[k]? = ds[k]?) :
    slice cs (i, j) = slice ds (i, j) := by
  apply List.ext_getElem?
  intro n
  rw [slice, slice, List.getElem?_drop, List.getElem?_drop]
  by_cases hn : i + n < j
  · rw [List.getElem?_take_of_lt hn, List.getElem?_take_of_lt hn]
    exact h _ (Nat.le_add_right i n) hn
  · rw [List.getElem?_take_eq_none (Nat.le_of_not_lt hn),
      List.getElem?_take_eq_none (Nat.le_of_not_lt hn)]

/-- What stands before a stretch and after it does not matter to it. -/
theorem isInfix_slice {a b : Nat} (ha : a ≤ i) (hij : i ≤ j) (hb : j ≤ b) :
    slice cs (i, j) <:+: slice cs (a, b) := by
  rw [← slice_append_slice (Nat.le_trans ha hij) hb, ← slice_append_slice ha hij]
  exact ⟨_, _, rfl⟩

/-- A stretch of the text up to a place in it. -/
theorem length_slice (hj : j ≤ cs.length) : (slice cs (i, j)).length = j - i := by
  rw [slice, List.length_drop, List.length_take, Nat.min_eq_left hj]

end Text

end CodeSweep
