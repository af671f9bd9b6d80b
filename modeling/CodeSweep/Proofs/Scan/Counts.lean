/-
# Counts by severity

The findings can be counted in one pass: each severity has an entry, and each finding adds one to
the entry of its own.  No finding is without an entry (`tally?_eq`), and the counts of all
severities make up the number of findings (`sum_count`).
-/
import CodeSweep.Scan.Sources
import Mathlib.Algebra.GroupWithZero.Nat
import Mathlib.Data.List.Nodup

namespace CodeSweep

/-- Every severity is on the scale. -/
theorem Severity.mem_all (v : Severity) : v ∈ all := by
  cases v <;> decide

/-- No severity is on the scale twice. -/
theorem Severity.nodup_all : all.Nodup := by decide

namespace Summary

/-! ## Counting in one pass -/

/-- The counts with one more of the severity, if it has an entry. -/
def countOne? (v : Severity) : List (Severity × Nat) → Option (List (Severity × Nat))
  | [] => none
  | (w, n) :: counts =>
    if w = v then some ((w, n + 1) :: counts) else (countOne? v counts).map ((w, n) :: ·)

/-- The counts of the findings, which are taken one after the other from zero on.  There are none if
a finding has a severity without an entry. -/
def tally? (findings : List Finding) : Option (List (Severity × Nat)) :=
  findings.foldlM (fun counts f => countOne? f.severity counts) (Severity.all.map fun v => (v, 0))

/-- **One more finding** adds one to the count of its severity and leaves the others alone. -/
theorem countOne?_eq {v : Severity} {scale : List Severity} (hscale : scale.Nodup) (hv : v ∈ scale)
    (n : Severity → Nat) :
    countOne? v (scale.map fun w => (w, n w))
      = some (scale.map fun w => (w, if w = v then n w + 1 else n w)) := by
  induction scale with
  | nil => cases hv
  | cons w scale ih =>
      rw [List.nodup_cons] at hscale
      rw [List.map_cons, List.map_cons, countOne?]
      by_cases hwv : w = v
      · -- the others are different, so their counts stay
        subst hwv
        have hrest : scale.map (fun u => (u, if u = w then n u + 1 else n u))
            = scale.map fun u => (u, n u) := by
          apply List.map_congr_left
          intro u hu
          have hne : u ≠ w := fun h => hscale.1 (h ▸ hu)
          rw [if_neg hne]
        rw [if_pos rfl, if_pos rfl, hrest]
      · have hv' : v ∈ scale := (List.mem_cons.mp hv).resolve_left (Ne.symm hwv)
        rw [if_neg hwv, if_neg hwv, ih hscale.2 hv', Option.map_some]

/-- Counting goes on from the counts so far. -/
theorem foldlM_countOne?_eq (findings : List Finding) (n : Severity → Nat) :
    findings.foldlM (fun counts f => countOne? f.severity counts)
        (Severity.all.map fun v => (v, n v))
      = some (Severity.all.map fun v => (v, n v + findings.countP (·.severity == v))) := by
  induction findings generalizing n with
  | nil => simp
  | cons f findings ih =>
      rw [List.foldlM_cons, countOne?_eq Severity.nodup_all (Severity.mem_all _)]
      show List.foldlM _ _ findings = _
      rw [ih]
      congr 1
      apply List.map_congr_left
      intro v _
      rw [List.countP_cons]
      by_cases hv : v = f.severity
      · simp only [hv, if_pos, beq_self_eq_true]
        congr 1
        omega
      · simp [hv, Ne.symm hv]

/-- **Counting never fails**, and it counts the findings of each severity. -/
theorem tally?_eq (s : Summary) :
    tally? s.findings = some (Severity.all.map fun v => (v, s.count v)) := by
  rw [tally?, foldlM_countOne?_eq]
  congr 1
  apply List.map_congr_left
  intro v _
  rw [Nat.zero_add, List.countP_eq_length_filter, count]

/-- **Every finding is counted once.** -/
theorem sum_count (s : Summary) : (Severity.all.map s.count).sum = s.findings.length := by
  simp only [Severity.all, count, ← List.countP_eq_length_filter, List.map_cons, List.map_nil,
    List.sum_cons, List.sum_nil]
  induction s.findings with
  | nil => rfl
  | cons f findings ih =>
      rw [List.length_cons, ← ih]
      simp only [List.countP_cons]
      cases f.severity <;> simp <;> omega

end Summary

end CodeSweep
