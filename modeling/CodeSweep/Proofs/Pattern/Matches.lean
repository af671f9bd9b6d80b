/-
# Matches in a text

What searching returns is a match of the pattern in the text (`search?_isMatch`,
`isMatch_of_mem_matchesIn`), so the stretch it shows lies in the text.  All matches of a text follow
each other without overlap (`matchesIn_pairwise`), and so do the stretches they keep in a group that
is in the way of every match (`matchesIn_pairwise_group`).
-/
import CodeSweep.Proofs.Pattern.Span

namespace CodeSweep

namespace Pattern

variable {p : Pattern} {text : Array Char}

/-- The match starts in the text, or at its end, and is one of those of the pattern. -/
structure IsMatch (p : Pattern) (text : Array Char) (m : Match) : Prop where
  start_le : m.start ≤ text.size
  mem_ends : (m.stop, m.groups) ∈ ends text p m.start []

/-! ## Bounds -/

namespace IsMatch

variable {m : Match}

/-- A match and what it keeps lie in the text. -/
theorem bounds (h : IsMatch p text m) :
    m.start ≤ m.stop ∧ m.stop ≤ text.size ∧ Groups.InText text m.groups :=
  mem_ends_bounds h.start_le (by simp [Groups.InText]) _ h.mem_ends

/-- What a match keeps under a name runs forward and lies in the text. -/
theorem group_bounds (h : IsMatch p text m) {name : String} {s : Nat × Nat}
    (hs : m.group? name = some s) : s.1 ≤ s.2 ∧ s.2 ≤ text.size := by
  obtain ⟨before, after, hgroups, -⟩ := List.lookup_eq_some_iff.mp hs
  exact h.bounds.2.2 (name, s) (by rw [hgroups]; simp)

/-- The stretch that a match shows runs forward and lies in the text. -/
theorem shown_bounds (h : IsMatch p text m) :
    m.shown.1 ≤ m.shown.2 ∧ m.shown.2 ≤ text.size := by
  rw [Match.shown]
  cases hhit : m.group? "hit" with
  | none => exact ⟨h.bounds.1, h.bounds.2.1⟩
  | some s => exact h.group_bounds hhit

/-- A group in the way of every match holds a stretch of the match that is not empty. -/
theorem exists_group (h : IsMatch p text m) {name : String} (hp : captures name p = true) :
    ∃ a b, m.group? name = some (a, b) ∧ m.start ≤ a ∧ a < b ∧ b ≤ m.stop :=
  captures_lookup hp _ h.mem_ends

/-- What a group in the way of every match holds is a stretch of the match that is not empty. -/
theorem group_within (h : IsMatch p text m) {name : String} (hp : captures name p = true)
    {s : Nat × Nat} (hs : m.group? name = some s) :
    m.start ≤ s.1 ∧ s.1 < s.2 ∧ s.2 ≤ m.stop := by
  obtain ⟨a, b, hlookup, hbounds⟩ := h.exists_group hp
  obtain rfl : (a, b) = s := Option.some.inj (hlookup.symm.trans hs)
  exact hbounds

end IsMatch

/-! ## Searching -/

/-- What is matched at a place is a match there. -/
theorem matchAt?_isMatch {i : Nat} {m : Match} (hi : i ≤ text.size)
    (h : p.matchAt? text i = some m) : IsMatch p text m ∧ m.start = i := by
  obtain ⟨e, he, hm⟩ := exists_end_of_runAt h
  obtain rfl : ⟨i, e.1, e.2⟩ = m := Option.some.inj hm
  exact ⟨⟨hi, he⟩, rfl⟩

/-- What is matched at a place and is not empty is a match there. -/
theorem nonemptyMatchAt?_isMatch {i : Nat} {m : Match} (hi : i ≤ text.size)
    (h : p.nonemptyMatchAt? text i = some m) : IsMatch p text m ∧ m.start = i := by
  obtain ⟨e, he, hm⟩ := exists_end_of_runAt h
  split at hm
  · simp at hm
  · obtain rfl : ⟨i, e.1, e.2⟩ = m := Option.some.inj hm
    exact ⟨⟨hi, he⟩, rfl⟩

/-- A search over `n` places finds a match at one of them. -/
theorem searchFrom?_isMatch {n i : Nat} {m : Match} (hn : i + n ≤ text.size + 1)
    (h : p.searchFrom? text n i = some m) : IsMatch p text m ∧ i ≤ m.start := by
  induction n generalizing i with
  | zero => simp [searchFrom?] at h
  | succ n ih =>
      rw [searchFrom?, Option.orElse_eq_orElse, Option.orElse_eq_or, Option.or_eq_some_iff] at h
      rcases h with h | ⟨-, h⟩
      · obtain ⟨hm, hstart⟩ := matchAt?_isMatch (by omega) h
        exact ⟨hm, Nat.le_of_eq hstart.symm⟩
      · obtain ⟨hm, hstart⟩ := ih (by omega) h
        exact ⟨hm, Nat.le_of_succ_le hstart⟩

/-- **What a search finds is a match** at the place where it began or later. -/
theorem search?_isMatch {i : Nat} {m : Match} (h : p.search? text i = some m) :
    IsMatch p text m ∧ i ≤ m.start := by
  rw [search?] at h
  by_cases hi : i ≤ text.size
  · exact searchFrom?_isMatch (by omega) h
  · rw [show text.size + 1 - i = 0 by omega] at h
    simp [searchFrom?] at h

/-- What is matched at a place ends at the preferred end. -/
theorem matchAt?_eq (p : Pattern) (text : Array Char) (i : Nat) :
    p.matchAt? text i = (ends text p i []).head?.map fun e => ⟨i, e.1, e.2⟩ := by
  rw [matchAt?, runAt_eq_findSome?, findSome?_some_comp]

/-- A match is found at a place if the pattern has an end there. -/
theorem matchAt?_eq_none_iff {i : Nat} : p.matchAt? text i = none ↔ ends text p i [] = [] := by
  rw [matchAt?_eq, Option.map_eq_none_iff, List.head?_eq_none_iff]

/-- A search over `n` places finds nothing if the pattern has no end at any of them. -/
theorem searchFrom?_eq_none_iff {n i : Nat} :
    p.searchFrom? text n i = none ↔ ∀ k < n, ends text p (i + k) [] = [] := by
  induction n generalizing i with
  | zero => simp [searchFrom?]
  | succ n ih =>
      rw [searchFrom?, Option.orElse_eq_orElse, Option.orElse_eq_or, Option.or_eq_none_iff,
        matchAt?_eq_none_iff, ih]
      constructor
      · rintro ⟨hhere, hlater⟩ k hk
        cases k with
        | zero => exact hhere
        | succ k =>
            rw [Nat.add_comm k, ← Nat.add_assoc]
            exact hlater k (Nat.lt_of_succ_lt_succ hk)
      · intro h
        refine ⟨h 0 (Nat.succ_pos n), fun k hk => ?_⟩
        rw [Nat.add_assoc, Nat.add_comm 1]
        exact h (k + 1) (Nat.succ_lt_succ hk)

/-- **A pattern is found** in a text if it has an end at one of its places. -/
theorem foundIn_iff : p.foundIn text = true ↔ ∃ i ≤ text.size, ends text p i [] ≠ [] := by
  rw [foundIn, search?, Option.isSome_iff_ne_none, ne_eq, searchFrom?_eq_none_iff, Nat.sub_zero]
  simp only [Classical.not_forall, Nat.zero_add, Nat.lt_succ_iff, exists_prop, ne_eq]

/-! ## All matches -/

/-- The matches among `n` places start at one of them, and not before `free`. -/
theorem mem_matchesFrom {n i free : Nat} (hn : i + n ≤ text.size + 1) :
    ∀ m ∈ p.matchesFrom text n i free, IsMatch p text m ∧ i ≤ m.start ∧ free ≤ m.start := by
  induction n generalizing i free with
  | zero => simp [matchesFrom]
  | succ n ih =>
      have hi : i ≤ text.size := by omega
      have hlater : ∀ free', ∀ m ∈ p.matchesFrom text n (i + 1) free',
          IsMatch p text m ∧ i + 1 ≤ m.start ∧ free' ≤ m.start :=
        fun free' => ih (by omega)
      intro m hm
      rw [matchesFrom] at hm
      split at hm
      -- the place is inside the last match
      · obtain ⟨h, hle, hfree⟩ := hlater free m hm
        exact ⟨h, by omega, hfree⟩
      · have hskip : ∀ free', m ∈ p.matchesFrom text n (i + 1) free' →
            IsMatch p text m ∧ i ≤ m.start ∧ free ≤ m.start := by
          intro free' hm'
          obtain ⟨h, hle, -⟩ := hlater free' m hm'
          exact ⟨h, by omega, by omega⟩
        have hhere : ∀ m' : Match, IsMatch p text m' ∧ m'.start = i →
            IsMatch p text m' ∧ i ≤ m'.start ∧ free ≤ m'.start := by
          rintro m' ⟨h, hstart⟩
          exact ⟨h, by omega, by omega⟩
        split at hm
        · exact hskip _ hm
        · next first hfirst =>
            have hfirst' := hhere first (matchAt?_isMatch hi hfirst)
            split at hm
            -- after an empty match, one that is not empty may start at the same place
            · split at hm
              · rcases List.mem_cons.mp hm with rfl | hm
                · exact hfirst'
                · exact hskip _ hm
              · next second hsecond =>
                  rcases List.mem_cons.mp hm with rfl | hm
                  · exact hfirst'
                  · rcases List.mem_cons.mp hm with rfl | hm
                    · exact hhere m (nonemptyMatchAt?_isMatch hi hsecond)
                    · exact hskip _ hm
            · rcases List.mem_cons.mp hm with rfl | hm
              · exact hfirst'
              · exact hskip _ hm

/-- The matches among `n` places follow each other. -/
theorem matchesFrom_pairwise {n i free : Nat} (hn : i + n ≤ text.size + 1) :
    (p.matchesFrom text n i free).Pairwise fun m m' => m.stop ≤ m'.start := by
  induction n generalizing i free with
  | zero => simp [matchesFrom]
  | succ n ih =>
      have hi : i ≤ text.size := by omega
      have hrest : ∀ free', (p.matchesFrom text n (i + 1) free').Pairwise
          fun m m' => m.stop ≤ m'.start := fun free' => ih (by omega)
      have hlater : ∀ free', ∀ m' ∈ p.matchesFrom text n (i + 1) free',
          i + 1 ≤ m'.start ∧ free' ≤ m'.start :=
        fun free' m' hm' => (mem_matchesFrom (by omega) m' hm').2
      rw [matchesFrom]
      split
      · exact hrest free
      · split
        · exact hrest i
        · split
          -- an empty match, and perhaps one that is not empty at the same place
          · next first _ hempty =>
              split
              · refine List.pairwise_cons.mpr ⟨fun m' hm' => ?_, hrest i⟩
                have := (hlater i m' hm').1
                omega
              · next second hsecond =>
                  have hstart := (nonemptyMatchAt?_isMatch hi hsecond).2
                  refine List.pairwise_cons.mpr ⟨?_, List.pairwise_cons.mpr ⟨?_, hrest _⟩⟩
                  · intro m' hm'
                    rcases List.mem_cons.mp hm' with rfl | hm'
                    · omega
                    · have := (hlater _ m' hm').1
                      omega
                  · intro m' hm'
                    exact (hlater _ m' hm').2
          · refine List.pairwise_cons.mpr ⟨fun m' hm' => ?_, hrest _⟩
            exact (hlater _ m' hm').2

/-- Each of all matches is a match. -/
theorem isMatch_of_mem_matchesIn {m : Match} (hm : m ∈ p.matchesIn text) : IsMatch p text m :=
  (mem_matchesFrom (by omega) m hm).1

/-- **All matches of a text follow each other.** -/
theorem matchesIn_pairwise (p : Pattern) (text : Array Char) :
    (p.matchesIn text).Pairwise fun m m' => m.stop ≤ m'.start :=
  matchesFrom_pairwise (by omega)

/-- What all matches keep in a group that is in the way of every match starts at one place after the
other. -/
theorem matchesIn_pairwise_group {name : String} (hp : captures name p = true) :
    (p.matchesIn text).Pairwise fun m m' =>
      ∀ s s', m.group? name = some s → m'.group? name = some s' → s.2 ≤ s'.1 ∧ s.1 < s'.1 := by
  refine (matchesIn_pairwise p text).imp_of_mem ?_
  intro m m' hm hm' hle s s' hs hs'
  have hin := (isMatch_of_mem_matchesIn hm).group_within hp hs
  have hin' := (isMatch_of_mem_matchesIn hm').group_within hp hs'
  omega

end Pattern

end CodeSweep
