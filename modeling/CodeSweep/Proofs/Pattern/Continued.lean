/-
# Texts that go on

A pattern may ask what the next character is, as the end of a line and the edge of a word do.  A
match that ends before the end of a common beginning is then one in the other text as well
(`mem_ends_of_alike`).  Reported matches do not overlap, so a match need not be reported, but where
one begins a reported one is going on (`exists_mem_matchesIn`).
-/
import CodeSweep.Proofs.Pattern.Alike

namespace CodeSweep

namespace Pattern

/-! ## One character ahead -/

/-- Nothing is asked of what follows a match but what the next character is. -/
def looksAtNext : Pattern → Bool
  | seq p q => p.looksAtNext && q.looksAtNext
  | alt p q => p.looksAtNext && q.looksAtNext
  | iter p least most lazy =>
    (p.looksAtNext && decide (least = 0 ∧ most = some 1)) || (iter p least most lazy).looksBack
  | group _ p => p.looksAtNext
  | edge .lineEnd => true
  | edge .wordEdge => true
  | ahead (one _) _ => true
  | p => p.looksBack

/-- Looking at the next character is testing it. -/
theorem ends_ahead_one (text : Array Char) (s : CharSet) (wanted : Bool) (i : Nat) (g : Groups) :
    ends text (ahead (one s) wanted) i g
      = testedEnd wanted i g (if holdsAt s.holds text i then some g else none) := by
  rw [ends, ends]
  split <;> rfl

/-- Matches up to the end of a common beginning, without a look at the next character. -/
theorem mem_ends_of_looksBack {n : Nat} {text text' : Array Char} (h : Alike n text text')
    {p : Pattern} (hp : p.looksBack = true) {i : Nat} {g : Groups} :
    ∀ e ∈ ends text p i g, e.1 ≤ n → e ∈ ends text' p i g := by
  intro e he hle
  have hmem : e ∈ endsBy n (ends text p i g) := List.mem_filter.mpr ⟨he, decide_eq_true hle⟩
  rw [endsBy_eq h hp g (Nat.le_trans (le_of_mem_ends he) hle)] at hmem
  exact (List.mem_filter.mp hmem).1

/-- **Matches before the end of a common beginning** are matches of either text. -/
theorem mem_ends_of_alike {n : Nat} {text text' : Array Char} (h : Alike n text text') {p : Pattern}
    (hp : p.looksAtNext = true) {i : Nat} {g : Groups} :
    ∀ e ∈ ends text p i g, e.1 < n → e ∈ ends text' p i g := by
  induction p generalizing i g with
  | seq p q ihp ihq =>
      intro e he hlt
      rw [looksAtNext, Bool.and_eq_true] at hp
      obtain ⟨mid, hmid, he⟩ := List.mem_flatMap.mp he
      have hmid' := ihp hp.1 mid hmid (Nat.lt_of_le_of_lt (le_of_mem_ends he) hlt)
      exact List.mem_flatMap.mpr ⟨mid, hmid', ihq hp.2 e he hlt⟩
  | alt p q ihp ihq =>
      intro e he hlt
      rw [looksAtNext, Bool.and_eq_true] at hp
      refine List.mem_append.mpr ((List.mem_append.mp he).imp ?_ ?_)
      · exact fun he => ihp hp.1 e he hlt
      · exact fun he => ihq hp.2 e he hlt
  | iter p least most lazy ih =>
      intro e he hlt
      rw [looksAtNext, Bool.or_eq_true, Bool.and_eq_true, decide_eq_true_eq] at hp
      rcases hp with ⟨hp, rfl, rfl⟩ | hp
      · exact mem_ends_optional_iff.mpr
          ((mem_ends_optional_iff.mp he).imp_right fun he => ih hp e he hlt)
      · exact mem_ends_of_looksBack h hp e he (Nat.le_of_lt hlt)
  | group name p ih =>
      intro e he hlt
      obtain ⟨f, hf, rfl⟩ := List.mem_map.mp he
      exact List.mem_map.mpr ⟨f, ih hp f hf hlt, rfl⟩
  | edge d =>
      intro e he hlt
      have hi : i < n := by rwa [(mem_ends_edge.mp he).2] at hlt
      cases d with
      | lineEnd =>
          have hsame : Edge.lineEnd.holds text i = Edge.lineEnd.holds text' i := by
            have hsize := h.le_size
            have hsize' := h.le_size'
            rw [Edge.holds, Edge.holds, h.holdsAt_eq _ hi, beq_false_of_ne (by omega),
              beq_false_of_ne (by omega)]
          rwa [ends, ← hsame]
      | wordEdge =>
          have hsame : Edge.wordEdge.holds text i = Edge.wordEdge.holds text' i := by
            rw [Edge.holds, Edge.holds, h.holdsAt_eq _ hi, h.holdsBefore_eq _ (Nat.le_of_lt hi)]
          rwa [ends, ← hsame]
      | _ => exact mem_ends_of_looksBack h hp e he (Nat.le_of_lt hlt)
  | ahead p wanted ih =>
      intro e he hlt
      have hi : i < n := by rwa [(of_mem_ends_ahead he).1] at hlt
      cases p with
      | one s =>
          rw [ends_ahead_one, h.holdsAt_eq _ hi] at he
          rwa [ends_ahead_one]
      | _ => exact mem_ends_of_looksBack h hp e he (Nat.le_of_lt hlt)
  | _ => exact fun e he hlt => mem_ends_of_looksBack h hp e he (Nat.le_of_lt hlt)

/-! ## Reported matches -/

/-- Where no match but an empty one is found, all matches are empty. -/
theorem nonemptyMatchAt?_eq_none {p : Pattern} {text : Array Char} {i : Nat}
    (h : p.nonemptyMatchAt? text i = none) : ∀ e ∈ ends text p i [], e.1 = i := by
  rw [nonemptyMatchAt?, runAt_eq_findSome?, List.findSome?_eq_none_iff] at h
  intro e he
  simpa using h e he

/-- What is found as not empty goes on. -/
theorem lt_of_nonemptyMatchAt? {p : Pattern} {text : Array Char} {i : Nat} {m : Match}
    (h : p.nonemptyMatchAt? text i = some m) : i < m.stop := by
  obtain ⟨e, he, hm⟩ := exists_end_of_runAt h
  have hle := le_of_mem_ends he
  split at hm
  · cases hm
  · obtain rfl := Option.some.inj hm
    simp only
    omega

/-- **A match is covered**: a reported match begins where it begins or earlier, and goes on there. -/
theorem exists_mem_matchesIn {p : Pattern} {text : Array Char} {m : Match} (hm : IsMatch p text m)
    (hlt : m.start < m.stop) :
    ∃ m' ∈ p.matchesIn text, m'.start ≤ m.start ∧ m.start < m'.stop := by
  have hfrom : ∀ n i free, i ≤ m.start → m.start < i + n → free ≤ m.start →
      i + n ≤ text.size + 1 →
      ∃ m' ∈ p.matchesFrom text n i free, m'.start ≤ m.start ∧ m.start < m'.stop := by
    intro n
    induction n with
    | zero => exact fun i free hi hn => by omega
    | succ n ih =>
        intro i free hi hn hfree hsize
        -- a match that starts at the place does so here, and else later
        have hlater : ∀ free, free ≤ m.start → i < m.start →
            ∃ m' ∈ p.matchesFrom text n (i + 1) free, m'.start ≤ m.start ∧ m.start < m'.stop :=
          fun free hfree hi => ih (i + 1) free hi (by omega) hfree (by omega)
        rw [matchesFrom]
        split
        · next hlt => exact hlater free hfree (by omega)
        · split
          · next hnone =>
              have hne : i ≠ m.start := by
                rintro rfl
                rw [matchAt?_eq_none_iff] at hnone
                exact absurd hm.mem_ends (by simp [hnone])
              exact hlater i hi (by omega)
          · next first hfirst =>
              obtain ⟨hmatch, hstart⟩ := matchAt?_isMatch (by omega) hfirst
              have hle := hmatch.bounds.1
              split
              · next hempty =>
                  split
                  · next hnone =>
                      have hne : i ≠ m.start := by
                        rintro rfl
                        exact Nat.ne_of_gt hlt (nonemptyMatchAt?_eq_none hnone _ hm.mem_ends)
                      obtain ⟨m', hm', h⟩ := hlater i hi (by omega)
                      exact ⟨m', List.mem_cons_of_mem _ hm', h⟩
                  · next second hsecond =>
                      have hstart' := (nonemptyMatchAt?_isMatch (by omega) hsecond).2
                      have hnext := lt_of_nonemptyMatchAt? hsecond
                      by_cases hin : m.start < second.stop
                      · exact ⟨second, by simp, by omega, hin⟩
                      · obtain ⟨m', hm', h⟩ := hlater second.stop (by omega) (by omega)
                        exact ⟨m', List.mem_cons_of_mem _ (List.mem_cons_of_mem _ hm'), h⟩
              · next hempty =>
                  by_cases hin : m.start < first.stop
                  · exact ⟨first, by simp, by omega, hin⟩
                  · obtain ⟨m', hm', h⟩ := hlater first.stop (by omega) (by omega)
                    exact ⟨m', List.mem_cons_of_mem _ hm', h⟩
  exact hfrom _ 0 0 (Nat.zero_le _) (by have := hm.start_le; omega) (Nat.zero_le _) (by omega)

end Pattern

end CodeSweep
