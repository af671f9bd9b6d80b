/-
# Stable sorting by a key

Sorting by a key brings the keys into order and leaves members with the same key in the order in
which they were.  These two facts determine the sorted list (`eq_of_pairwise_of_filter_eq`), so two
lists that agree on the members of each key are sorted to the same list, and sorting may be done
before or after leaving members out.
-/
import Mathlib.Data.List.Basic
import Mathlib.Order.Lattice

namespace CodeSweep.StableSort

variable {α κ : Type} [LinearOrder κ] (key : α → κ)

/-- The first member may come before the second. -/
def keyLe (a b : α) : Bool := decide (key a ≤ key b)

/-- The list sorted by the key. -/
def sortBy (l : List α) : List α := l.mergeSort (keyLe key)

/-- The order of keys is transitive. -/
theorem keyLe_trans (a b c : α) (hab : keyLe key a b = true) (hbc : keyLe key b c = true) :
    keyLe key a c = true := by
  rw [keyLe, decide_eq_true_eq] at hab hbc ⊢
  exact le_trans hab hbc

/-- The order of keys is total. -/
theorem keyLe_total (a b : α) : (keyLe key a b || keyLe key b a) = true := by
  rw [keyLe, keyLe, Bool.or_eq_true, decide_eq_true_eq, decide_eq_true_eq]
  exact le_total (key a) (key b)

/-- Sorting changes the order only. -/
theorem sortBy_perm (l : List α) : (sortBy key l).Perm l := List.mergeSort_perm ..

/-- The keys of a sorted list do not descend. -/
theorem sortBy_pairwise (l : List α) : (sortBy key l).Pairwise fun a b => key a ≤ key b :=
  (List.pairwise_mergeSort (keyLe_trans key) (keyLe_total key) l).imp of_decide_eq_true

/-- **Stability.**  The members with one key are those of the list, in their order. -/
theorem filter_sortBy (l : List α) (k : κ) :
    (sortBy key l).filter (fun a => decide (key a = k)) = l.filter fun a => decide (key a = k) := by
  -- the members with one key are in order already, so they stay a sublist
  have hsame : (l.filter fun a => decide (key a = k)).Pairwise
      fun a b => keyLe key a b = true := by
    refine List.pairwise_of_forall_mem_list ?_
    intro a ha b hb
    have hka : key a = k := by simpa using (List.mem_filter.mp ha).2
    have hkb : key b = k := by simpa using (List.mem_filter.mp hb).2
    rw [keyLe, hka, hkb, decide_eq_true_eq]
  have hsub : (l.filter fun a => decide (key a = k)).Sublist (sortBy key l) :=
    List.sublist_mergeSort (keyLe_trans key) (keyLe_total key) hsame List.filter_sublist
  have hfilter := hsub.filter fun a => decide (key a = k)
  rw [List.filter_filter] at hfilter
  simp only [Bool.and_self] at hfilter
  exact (hfilter.eq_of_length ((sortBy_perm key l).filter _).length_eq.symm).symm

/-- A list in the order of the keys is determined by its members of each key. -/
theorem eq_of_pairwise_of_filter_eq {l l' : List α} (hl : l.Pairwise fun a b => key a ≤ key b)
    (hl' : l'.Pairwise fun a b => key a ≤ key b)
    (h : ∀ k, l.filter (fun a => decide (key a = k)) = l'.filter fun a => decide (key a = k)) :
    l = l' := by
  have hmem : ∀ a, a ∈ l ↔ a ∈ l' := by
    intro a
    have ha : a ∈ l.filter (fun b => decide (key b = key a))
        ↔ a ∈ l'.filter fun b => decide (key b = key a) := by rw [h]
    simpa using ha
  induction l generalizing l' with
  | nil =>
      cases l' with
      | nil => rfl
      | cons b l' => exact absurd ((hmem b).mpr List.mem_cons_self) List.not_mem_nil
  | cons a l ih =>
      cases l' with
      | nil => exact absurd ((hmem a).mp List.mem_cons_self) List.not_mem_nil
      | cons b l' =>
          rw [List.pairwise_cons] at hl hl'
          -- each of the first members is in the other list, so neither key is the greater one
          have hba : key b ≤ key a := by
            rcases List.mem_cons.mp ((hmem a).mp List.mem_cons_self) with rfl | ha
            · exact le_rfl
            · exact hl'.1 a ha
          have hab : key a ≤ key b := by
            rcases List.mem_cons.mp ((hmem b).mpr List.mem_cons_self) with rfl | hb
            · exact le_rfl
            · exact hl.1 b hb
          have hkey : key a = key b := le_antisymm hab hba
          obtain rfl : a = b := by
            have hfirst := h (key a)
            rw [List.filter_cons_of_pos (by simp), List.filter_cons_of_pos (by simp [hkey])]
              at hfirst
            exact (List.cons.inj hfirst).1
          have htail : ∀ k, l.filter (fun a => decide (key a = k))
              = l'.filter fun a => decide (key a = k) := by
            intro k
            have hk := h k
            by_cases hak : key a = k
            · rw [List.filter_cons_of_pos (by simp [hak]), List.filter_cons_of_pos (by simp [hak])]
                at hk
              exact (List.cons.inj hk).2
            · rwa [List.filter_cons_of_neg (by simp [hak]),
                List.filter_cons_of_neg (by simp [hak])] at hk
          have hmem' : ∀ c, c ∈ l ↔ c ∈ l' := by
            intro c
            have hc : c ∈ l.filter (fun b => decide (key b = key c))
                ↔ c ∈ l'.filter fun b => decide (key b = key c) := by rw [htail]
            simpa using hc
          rw [ih hl.2 hl'.2 htail hmem']

/-- Lists that agree on the members of each key are sorted to the same list. -/
theorem sortBy_congr {l l' : List α}
    (h : ∀ k, l.filter (fun a => decide (key a = k)) = l'.filter fun a => decide (key a = k)) :
    sortBy key l = sortBy key l' := by
  refine eq_of_pairwise_of_filter_eq key (sortBy_pairwise key l) (sortBy_pairwise key l') ?_
  intro k
  rw [filter_sortBy, filter_sortBy, h]

/-- Members may be left out before or after sorting. -/
theorem filter_sortBy_eq (l : List α) (p : α → Bool) :
    (sortBy key l).filter p = sortBy key (l.filter p) := by
  refine eq_of_pairwise_of_filter_eq key ((sortBy_pairwise key l).filter p)
    (sortBy_pairwise key _) ?_
  intro k
  rw [filter_sortBy, List.filter_comm, filter_sortBy, List.filter_comm]

/-- Where all members pass a test or all fail it, those that pass and then those that fail are the
whole list. -/
theorem filter_append_filter_not {l : List α} {p : α → Bool}
    (h : (∀ a ∈ l, p a = true) ∨ ∀ a ∈ l, p a = false) :
    l.filter p ++ l.filter (fun a => !p a) = l := by
  rcases h with hpass | hfail
  · have hnone : l.filter (fun a => !p a) = [] := by
      rw [List.filter_eq_nil_iff]
      intro a ha
      simp [hpass a ha]
    rw [List.filter_eq_self.mpr hpass, hnone, List.append_nil]
  · have hnone : l.filter p = [] := by
      rw [List.filter_eq_nil_iff]
      intro a ha
      simp [hfail a ha]
    have hself : l.filter (fun a => !p a) = l := by
      rw [List.filter_eq_self]
      intro a ha
      simp [hfail a ha]
    rw [hnone, hself, List.nil_append]

/-- **Sorting in two parts.**  If the members that pass a test have smaller keys than the others,
the two parts may be sorted by themselves. -/
theorem sortBy_eq_append {l : List α} (p : α → Bool)
    (h : ∀ a ∈ l, ∀ b ∈ l, p a = true → p b = false → key a < key b) :
    sortBy key l = sortBy key (l.filter p) ++ sortBy key (l.filter fun a => !p a) := by
  refine eq_of_pairwise_of_filter_eq key (sortBy_pairwise key l) ?_ ?_
  · rw [List.pairwise_append]
    refine ⟨sortBy_pairwise key _, sortBy_pairwise key _, ?_⟩
    intro a ha b hb
    obtain ⟨ha, hpa⟩ := List.mem_filter.mp ((sortBy_perm key _).mem_iff.mp ha)
    obtain ⟨hb, hpb⟩ := List.mem_filter.mp ((sortBy_perm key _).mem_iff.mp hb)
    exact le_of_lt (h a ha b hb hpa (by simpa using hpb))
  · intro k
    rw [List.filter_append, filter_sortBy, filter_sortBy, filter_sortBy, List.filter_comm _ p,
      List.filter_comm _ fun a => !p a]
    refine (filter_append_filter_not ?_).symm
    -- a member that passes and one that fails have different keys
    by_cases hpass : ∃ a ∈ l, key a = k ∧ p a = true
    · left
      obtain ⟨a, ha, hak, hpa⟩ := hpass
      intro b hb
      obtain ⟨hb, hbk⟩ := List.mem_filter.mp hb
      by_contra hpb
      have hlt := h a ha b hb hpa (by simpa using hpb)
      rw [hak, of_decide_eq_true hbk] at hlt
      exact lt_irrefl k hlt
    · right
      intro b hb
      obtain ⟨hb, hbk⟩ := List.mem_filter.mp hb
      by_contra hpb
      exact hpass ⟨b, hb, of_decide_eq_true hbk, by simpa using hpb⟩

/-- If no two members have the same key, the keys of the sorted list ascend. -/
theorem sortBy_pairwise_lt {l : List α} (hl : l.Pairwise fun a b => key a ≠ key b) :
    (sortBy key l).Pairwise fun a b => key a < key b := by
  have hne : (sortBy key l).Pairwise fun a b => key a ≠ key b :=
    (sortBy_perm key l).pairwise_iff Ne.symm |>.mpr hl
  exact ((sortBy_pairwise key l).and hne).imp fun h => lt_of_le_of_ne h.1 h.2

end CodeSweep.StableSort
