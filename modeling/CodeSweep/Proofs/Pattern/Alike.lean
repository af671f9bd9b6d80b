/-
# Patterns in texts that begin alike

Whether a stretch matches a pattern without tests of what follows is told by the characters up to
the end of the stretch.  So in two texts that begin alike such a pattern has the same ends within
the common beginning, in the same order (`endsBy_eq`), and the same matches up to a place before
which no end lies beyond it (`mem_matchesIn_of_ends_eq`).

That no end lies beyond it is seen from characters that a match cannot hold (`avoids`), or cannot
hold in this order (`noneAfter`).
-/
import CodeSweep.Proofs.Pattern.Local

namespace CodeSweep

/-! ## Texts that begin alike -/

/-- The texts have at least `n` characters, the first `n` of which are the same. -/
structure Alike (n : Nat) (text text' : Array Char) : Prop where
  le_size : n ≤ text.size
  le_size' : n ≤ text'.size
  getElem?_eq : ∀ i < n, text[i]? = text'[i]?

/-- Texts with a common beginning. -/
theorem alike_append (xs ys zs : List Char) :
    Alike xs.length (xs ++ ys).toArray (xs ++ zs).toArray where
  le_size := by simp
  le_size' := by simp
  getElem?_eq i hi := by simp [List.getElem?_append_left hi]

namespace Alike

variable {n : Nat} {text text' : Array Char} (h : Alike n text text')

include h

/-- A test gives the same at places of the common beginning. -/
theorem holdsAt_eq (test : Char → Bool) {i : Nat} (hi : i < n) :
    holdsAt test text i = holdsAt test text' i := by
  rw [holdsAt, holdsAt, h.getElem?_eq i hi]

/-- A test gives the same before places of the common beginning, and before its end. -/
theorem holdsBefore_eq (test : Char → Bool) {i : Nat} (hi : i ≤ n) :
    holdsBefore test text i = holdsBefore test text' i := by
  have hbefore : charBefore text i = charBefore text' i := by
    rw [charBefore, charBefore]
    split
    · rfl
    · exact h.getElem?_eq (i - 1) (by omega)
  rw [holdsBefore, holdsBefore, hbefore]

end Alike

namespace Pattern

/-! ## Patterns that do not look ahead -/

/-- Whether a stretch matches the pattern is told by the characters up to its end: nothing is asked
of what follows, and repetitions are bounded. -/
def looksBack : Pattern → Bool
  | empty => true
  | one _ => true
  | run _ _ _ _ => true
  | seq p q => p.looksBack && q.looksBack
  | alt p q => p.looksBack && q.looksBack
  | iter p _ most _ => p.looksBack && most.isSome
  | group _ p => p.looksBack
  | edge .lineStart => true
  | edge .textStart => true
  | edge _ => false
  | ahead _ _ => false
  | behind (one _) 1 _ => true
  | behind _ _ _ => false

/-- A pattern that looks back does so for one character only. -/
theorem of_looksBack_behind {p : Pattern} {width : Nat} {wanted : Bool}
    (hp : (behind p width wanted).looksBack = true) : ∃ s, p = one s ∧ width = 1 := by
  unfold looksBack at hp
  split at hp <;> simp_all

/-- The edge is seen from what stands before it. -/
theorem edge_holds_eq {e : Edge} {n : Nat} {text text' : Array Char}
    (h : Alike n text text') (he : (edge e).looksBack = true) {i : Nat} (hi : i ≤ n) :
    e.holds text i = e.holds text' i := by
  cases e with
  | lineStart => rw [Edge.holds, Edge.holds, h.holdsBefore_eq _ hi]
  | textStart => rfl
  | _ => simp [looksBack] at he

/-! ## Ends within the common beginning -/

/-- The ends that are at most `n`. -/
def endsBy (n : Nat) (es : List End) : List End := es.filter fun e => decide (e.1 ≤ n)

/-- Ends that are all at most `n` are kept. -/
theorem endsBy_of_forall_le {n : Nat} {es : List End} (h : ∀ e ∈ es, e.1 ≤ n) :
    endsBy n es = es :=
  List.filter_eq_self.mpr fun e he => decide_eq_true (h e he)

/-- No ends are kept where all are beyond `n`. -/
theorem endsBy_of_forall_lt {n : Nat} {es : List End} (h : ∀ e ∈ es, n < e.1) :
    endsBy n es = [] :=
  List.filter_eq_nil_iff.mpr fun e he => by simpa using h e he

section

variable {n : Nat} {step step' : Nat → Groups → List End}
  (hstep : ∀ i g, ∀ e ∈ step i g, i ≤ e.1) (hstep' : ∀ i g, ∀ e ∈ step' i g, i ≤ e.1)

include hstep in
/-- To go on from an end beyond `n` does not lead back. -/
theorem endsBy_flatMap (es : List End) :
    endsBy n (es.flatMap fun e => step e.1 e.2)
      = (endsBy n es).flatMap fun e => endsBy n (step e.1 e.2) := by
  rw [endsBy, List.filter_flatMap]
  refine flatMap_eq_flatMap_filter (fun e _ he => ?_) fun e _ _ => rfl
  refine endsBy_of_forall_lt fun e' he' => ?_
  exact Nat.lt_of_lt_of_le (by simpa using he) (hstep e.1 e.2 e' he')

include hstep hstep' in
/-- Two ways to go on that agree up to `n` agree after ends that agree up to `n`. -/
theorem endsBy_flatMap_congr {es es' : List End} (hes : endsBy n es = endsBy n es')
    (hsame : ∀ i g, i ≤ n → endsBy n (step i g) = endsBy n (step' i g)) :
    endsBy n (es.flatMap fun e => step e.1 e.2)
      = endsBy n (es'.flatMap fun e => step' e.1 e.2) := by
  rw [endsBy_flatMap hstep, endsBy_flatMap hstep', ← hes]
  apply List.flatMap_congr
  intro e he
  exact hsame e.1 e.2 (of_decide_eq_true (List.mem_filter.mp he).2)

include hstep in
/-- A row of matches runs forward if each match does. -/
theorem le_of_mem_exactlyEnds (count i : Nat) (g : Groups) :
    ∀ e ∈ exactlyEnds step count i g, i ≤ e.1 :=
  exactlyEnds_induct (P := fun e => i ≤ e.1)
    (fun e he e' he' => Nat.le_trans he (hstep e.1 e.2 e' he')) count (i, g) (Nat.le_refl i)

include hstep in
/-- A bounded row of matches runs forward if each match does. -/
theorem le_of_mem_atMostEnds (lazy : Bool) (count : Nat) (last : Option Nat) (i : Nat)
    (g : Groups) : ∀ e ∈ atMostEnds step lazy count last i g, i ≤ e.1 :=
  atMostEnds_induct (P := fun e => i ≤ e.1)
    (fun e he e' he' => Nat.le_trans he (hstep e.1 e.2 e' he')) lazy count last (i, g)
    (Nat.le_refl i)

variable (hsame : ∀ i g, i ≤ n → endsBy n (step i g) = endsBy n (step' i g))

include hstep hstep' hsame

/-- Rows of matches agree up to `n` if the matches do. -/
theorem endsBy_exactlyEnds (count : Nat) {i : Nat} (g : Groups) (hi : i ≤ n) :
    endsBy n (exactlyEnds step count i g) = endsBy n (exactlyEnds step' count i g) := by
  induction count generalizing i g with
  | zero => rfl
  | succ count ih =>
      rw [exactlyEnds, exactlyEnds]
      exact endsBy_flatMap_congr (le_of_mem_exactlyEnds hstep count)
        (le_of_mem_exactlyEnds hstep' count) (hsame i g hi) fun i g hi => ih g hi

/-- Bounded rows of matches agree up to `n` if the matches do. -/
theorem endsBy_atMostEnds (lazy : Bool) (count : Nat) (last : Option Nat) {i : Nat} (g : Groups)
    (hi : i ≤ n) :
    endsBy n (atMostEnds step lazy count last i g)
      = endsBy n (atMostEnds step' lazy count last i g) := by
  induction count generalizing last i g with
  | zero => rfl
  | succ count ih =>
      have hmore : endsBy n ((step i g).flatMap fun e =>
            atMostEnds step lazy count (some i) e.1 e.2)
          = endsBy n ((step' i g).flatMap fun e =>
            atMostEnds step' lazy count (some i) e.1 e.2) :=
        endsBy_flatMap_congr (le_of_mem_atMostEnds hstep lazy count (some i))
          (le_of_mem_atMostEnds hstep' lazy count (some i)) (hsame i g hi)
          fun i' g' hi' => ih (some i) g' hi'
      rw [atMostEnds, atMostEnds]
      split
      · rfl
      · split
        · rw [← List.singleton_append, ← List.singleton_append (l := (step' i g).flatMap _),
            endsBy, endsBy, List.filter_append, List.filter_append]
          exact congrArg _ hmore
        · rw [endsBy, endsBy, List.filter_append, List.filter_append]
          exact congrArg (· ++ _) hmore

end

/-! ## Runs -/

/-- Runs of characters of the common beginning are equally long, up to its end. -/
theorem min_runLength_eq {n : Nat} {text text' : Array Char} (h : Alike n text text') (s : CharSet)
    {limit limit' i : Nat} (hlimit : limit = limit' ∨ n ≤ i + limit ∧ n ≤ i + limit') :
    min (i + runLength s text limit i) n = min (i + runLength s text' limit' i) n := by
  induction limit generalizing i limit' with
  | zero =>
      rcases hlimit with rfl | ⟨hle, -⟩
      · rfl
      · rw [Nat.min_eq_right (by omega), Nat.min_eq_right (by omega)]
  | succ limit ih =>
      by_cases hi : n ≤ i
      · rw [Nat.min_eq_right (by omega), Nat.min_eq_right (by omega)]
      · obtain ⟨limit', rfl⟩ : ∃ k, limit' = k + 1 := ⟨limit' - 1, by omega⟩
        rw [runLength, runLength, h.holdsAt_eq s.holds (by omega)]
        split
        · have hmore := @ih limit' (i + 1) (by omega)
          rw [Nat.add_right_comm, Nat.add_right_comm i 1] at hmore
          exact hmore
        · rfl

/-- Those of the numbers from `a` on that are at most `n`. -/
theorem filter_range'_le (a k n : Nat) :
    (List.range' a k).filter (fun j => decide (j ≤ n)) = List.range' a (min k (n + 1 - a)) := by
  induction k generalizing a with
  | zero => simp
  | succ k ih =>
      rw [List.range'_succ]
      by_cases ha : a ≤ n
      · rw [List.filter_cons_of_pos (by simpa using ha), ih,
          show min (k + 1) (n + 1 - a) = min k (n + 1 - (a + 1)) + 1 by omega, List.range'_succ]
      · rw [List.filter_cons_of_neg (by simpa using ha), ih,
          show min (k + 1) (n + 1 - a) = 0 by omega,
          show min k (n + 1 - (a + 1)) = 0 by omega]
        rfl

/-- A run ends at the same places of the common beginning. -/
theorem endsBy_runEnds {n : Nat} {text text' : Array Char} (h : Alike n text text') (s : CharSet)
    (least : Nat) (most : Option Nat) (lazy : Bool) (i : Nat) (g : Groups) :
    endsBy n ((runEnds s least most lazy text i).map fun j => (j, g))
      = endsBy n ((runEnds s least most lazy text' i).map fun j => (j, g)) := by
  have hle := h.le_size
  have hle' := h.le_size'
  have hlength : min (i + runLength s text (most.getD (text.size - i)) i) n
      = min (i + runLength s text' (most.getD (text'.size - i)) i) n := by
    refine min_runLength_eq h s ?_
    cases most with
    | some k => exact .inl rfl
    | none => exact .inr ⟨by simp only [Option.getD_none]; omega,
        by simp only [Option.getD_none]; omega⟩
  have hcount : ∀ longest longest' : Nat, min (i + longest) n = min (i + longest') n →
      (List.range' (i + least) (longest + 1 - least)).filter (fun j => decide (j ≤ n))
        = (List.range' (i + least) (longest' + 1 - least)).filter (fun j => decide (j ≤ n)) := by
    intro longest longest' hmin
    rw [filter_range'_le, filter_range'_le]
    congr 1
    omega
  rw [endsBy, endsBy, List.filter_map, List.filter_map, runEnds, runEnds]
  congr 1
  split
  · exact hcount _ _ hlength
  · rw [List.filter_reverse, List.filter_reverse]
    exact congrArg List.reverse (hcount _ _ hlength)

/-! ## Ends and matches -/

/-- **Ends within the common beginning.**  A pattern that looks back has the same ends there, in the
same order. -/
theorem endsBy_eq {n : Nat} {text text' : Array Char} (h : Alike n text text') {p : Pattern}
    (hp : p.looksBack = true) {i : Nat} (g : Groups) (hi : i ≤ n) :
    endsBy n (ends text p i g) = endsBy n (ends text' p i g) := by
  induction p generalizing i g with
  | empty => rfl
  | one s =>
      rw [ends, ends]
      rcases Nat.lt_or_eq_of_le hi with hlt | rfl
      · rw [h.holdsAt_eq s.holds hlt]
      · -- the character after the common beginning is not compared, but an end beyond it is dropped
        rw [endsBy_of_forall_lt, endsBy_of_forall_lt]
        · intro e he
          split at he <;> simp_all
        · intro e he
          split at he <;> simp_all
  | run s least most lazy => exact endsBy_runEnds h s least most lazy i g
  | seq p q ihp ihq =>
      rw [looksBack, Bool.and_eq_true] at hp
      exact endsBy_flatMap_congr (fun i g e he => le_of_mem_ends he)
        (fun i g e he => le_of_mem_ends he) (ihp hp.1 g hi) fun i g hi => ihq hp.2 g hi
  | alt p q ihp ihq =>
      rw [looksBack, Bool.and_eq_true] at hp
      rw [ends, ends, endsBy, endsBy, List.filter_append, List.filter_append]
      exact congrArg₂ _ (ihp hp.1 g hi) (ihq hp.2 g hi)
  | iter p least most lazy ih =>
      rw [looksBack, Bool.and_eq_true] at hp
      obtain ⟨k, rfl⟩ := Option.isSome_iff_exists.mp hp.2
      have hstep : ∀ (text : Array Char) i g, ∀ e ∈ ends text p i g, i ≤ e.1 :=
        fun text i g e he => le_of_mem_ends he
      have hsame : ∀ i g, i ≤ n → endsBy n (ends text p i g) = endsBy n (ends text' p i g) :=
        fun i g hi => ih hp.1 g hi
      rw [ends, ends]
      exact endsBy_flatMap_congr (le_of_mem_atMostEnds (hstep text) lazy _ none)
        (le_of_mem_atMostEnds (hstep text') lazy _ none)
        (endsBy_exactlyEnds (hstep text) (hstep text') hsame least g hi)
        fun i g hi => endsBy_atMostEnds (hstep text) (hstep text') hsame lazy _ none g hi
  | group name p ih =>
      rw [looksBack] at hp
      rw [ends, ends, endsBy, endsBy, List.filter_map, List.filter_map]
      exact congrArg _ (ih hp g hi)
  | edge e =>
      rw [ends, ends, edge_holds_eq h hp hi]
  | ahead p wanted ih => simp [looksBack] at hp
  | behind p width wanted ih =>
      obtain ⟨s, rfl, rfl⟩ := of_looksBack_behind hp
      rw [ends_behind_one, ends_behind_one, h.holdsBefore_eq s.holds hi]

/-- Where no end lies beyond the common beginning, the ends are the same. -/
theorem ends_eq_of_forall_le {n : Nat} {text text' : Array Char} (h : Alike n text text')
    {p : Pattern} (hp : p.looksBack = true) {i : Nat} {g : Groups} (hi : i ≤ n)
    (hends : ∀ e ∈ ends text p i g, e.1 ≤ n) (hends' : ∀ e ∈ ends text' p i g, e.1 ≤ n) :
    ends text p i g = ends text' p i g := by
  rw [← endsBy_of_forall_le hends, endsBy_eq h hp g hi, endsBy_of_forall_le hends']

/-- A match among places up to `last` is one of the other text as well if the ends at these places
are the same. -/
theorem mem_matchesFrom_of_ends_eq {p : Pattern} {text text' : Array Char} {last : Nat}
    (hsame : ∀ i ≤ last, ends text p i [] = ends text' p i []) {n n' i free : Nat}
    (hn : i + n ≤ text.size + 1) (hn' : last < i + n') {m : Match} (hlast : m.start ≤ last)
    (hm : m ∈ p.matchesFrom text n i free) : m ∈ p.matchesFrom text' n' i free := by
  induction n generalizing n' i free with
  | zero => simp [matchesFrom] at hm
  | succ n ih =>
      have hi : i ≤ last := Nat.le_trans (mem_matchesFrom hn m hm).2.1 hlast
      obtain ⟨n', rfl⟩ : ∃ k, n' = k + 1 := ⟨n' - 1, by omega⟩
      have hlater : ∀ free', m ∈ p.matchesFrom text n (i + 1) free' →
          m ∈ p.matchesFrom text' n' (i + 1) free' :=
        fun free' h => ih (by omega) (by omega) h
      have hfirst : p.matchAt? text i = p.matchAt? text' i := by
        rw [matchAt?, matchAt?, runAt_eq_findSome?, runAt_eq_findSome?, hsame i hi]
      have hsecond : p.nonemptyMatchAt? text i = p.nonemptyMatchAt? text' i := by
        rw [nonemptyMatchAt?, nonemptyMatchAt?, runAt_eq_findSome?, runAt_eq_findSome?,
          hsame i hi]
      rw [matchesFrom] at hm ⊢
      rw [← hfirst, ← hsecond]
      by_cases hfree : i < free
      · rw [if_pos hfree] at hm ⊢
        exact hlater free hm
      · rw [if_neg hfree] at hm ⊢
        cases hmatch : p.matchAt? text i with
        | none =>
            rw [hmatch] at hm
            exact hlater i hm
        | some first =>
            rw [hmatch] at hm
            simp only at hm ⊢
            by_cases hempty : first.stop = i
            · rw [if_pos hempty] at hm ⊢
              cases hmore : p.nonemptyMatchAt? text i with
              | none =>
                  rw [hmore] at hm
                  exact List.mem_cons.mpr ((List.mem_cons.mp hm).imp_right (hlater i))
              | some second =>
                  rw [hmore] at hm
                  refine List.mem_cons.mpr ((List.mem_cons.mp hm).imp_right fun hm => ?_)
                  exact List.mem_cons.mpr ((List.mem_cons.mp hm).imp_right (hlater second.stop))
            · rw [if_neg hempty] at hm ⊢
              exact List.mem_cons.mpr ((List.mem_cons.mp hm).imp_right (hlater first.stop))

/-- **Matches within the common beginning.**  A match is one of the other text as well if up to its
start the ends are the same. -/
theorem mem_matchesIn_of_ends_eq {p : Pattern} {text text' : Array Char} {m : Match}
    (hm : m ∈ p.matchesIn text) (hstart : m.start ≤ text'.size)
    (hsame : ∀ i ≤ m.start, ends text p i [] = ends text' p i []) : m ∈ p.matchesIn text' :=
  mem_matchesFrom_of_ends_eq hsame (by omega) (by omega) (Nat.le_refl _) hm

/-! ## Characters that a match can hold -/

/-- All sets in the pattern, other than those it only looks at, are fit. -/
def onlySets (fit : CharSet → Bool) : Pattern → Bool
  | one s => fit s
  | run s _ _ _ => fit s
  | seq p q => onlySets fit p && onlySets fit q
  | alt p q => onlySets fit p && onlySets fit q
  | iter p _ _ _ => onlySets fit p
  | group _ p => onlySets fit p
  | _ => true

/-- The pattern matches no stretch with the character in it. -/
def avoids (c : Char) : Pattern → Bool
  | one s => !s.holds c
  | run s _ _ _ => !s.holds c
  | seq p q => avoids c p && avoids c q
  | alt p q => avoids c p && avoids c q
  | iter p _ _ _ => avoids c p
  | group _ p => avoids c p
  | _ => true

/-- To avoid a character is to avoid it in all sets. -/
theorem avoids_eq_onlySets (c : Char) (p : Pattern) :
    avoids c p = onlySets (fun s => !s.holds c) p := by
  induction p with
  | seq p q ihp ihq => rw [avoids, onlySets, ihp, ihq]
  | alt p q ihp ihq => rw [avoids, onlySets, ihp, ihq]
  | iter p least most lazy ih => rw [avoids, onlySets, ih]
  | group name p ih => rw [avoids, onlySets, ih]
  | _ => rfl

/-- The pattern matches no stretch with the first character in it and, further on, the second. -/
def noneAfter (a b : Char) : Pattern → Bool
  | run s _ _ _ => !s.holds a || !s.holds b
  | seq p q => noneAfter a b p && noneAfter a b q && (avoids a p || avoids b q)
  | alt p q => noneAfter a b p && noneAfter a b q
  | iter p least most _ =>
    avoids a p || avoids b p || (noneAfter a b p && decide (least = 0 ∧ most = some 1))
  | group _ p => noneAfter a b p
  | _ => true

/-- The characters that a run passes are in the set. -/
theorem holds_of_mem_runEnds {s : CharSet} {least : Nat} {most : Option Nat} {lazy : Bool}
    {text : Array Char} {i j k : Nat} (hj : j ∈ runEnds s least most lazy text i) (hik : i ≤ k)
    (hkj : k < j) : holdsAt s.holds text k = true := by
  have hrun : ∀ limit i, i ≤ k → k < i + runLength s text limit i →
      holdsAt s.holds text k = true := by
    intro limit
    induction limit with
    | zero =>
        intro i hik hlt
        rw [runLength] at hlt
        omega
    | succ limit ih =>
        intro i hik hlt
        rw [runLength] at hlt
        split at hlt
        · next hc =>
            rcases Nat.lt_or_eq_of_le hik with hless | rfl
            · exact ih (i + 1) hless (by omega)
            · exact hc
        · omega
  have hmem : j ∈ List.range' (i + least)
      (runLength s text (most.getD (text.size - i)) i + 1 - least) := by
    rw [runEnds] at hj
    split at hj
    · exact hj
    · exact List.mem_reverse.mp hj
  rw [List.mem_range'_1] at hmem
  exact hrun (most.getD (text.size - i)) i hik (by omega)

/-- **What a match holds** is in one of the sets of its pattern. -/
theorem exists_of_onlySets {fit : CharSet → Bool} {P : Char → Prop}
    (hfit : ∀ s, fit s = true → ∀ c, s.holds c = true → P c) {text : Array Char} {p : Pattern}
    (hp : onlySets fit p = true) {i : Nat} {g : Groups} :
    ∀ e ∈ ends text p i g, ∀ k, i ≤ k → k < e.1 → ∃ c, text[k]? = some c ∧ P c := by
  -- a place where a character of a fit set stands
  have hplace : ∀ s k, fit s = true → holdsAt s.holds text k = true →
      ∃ c, text[k]? = some c ∧ P c := by
    intro s k hs hk
    rw [holdsAt] at hk
    split at hk
    · next c hc => exact ⟨c, hc, hfit s hs c hk⟩
    · cases hk
  induction p generalizing i g with
  | empty =>
      intro e he k hik hk
      rw [ends, List.mem_singleton] at he
      rw [he] at hk
      omega
  | one s =>
      intro e he k hik hk
      obtain ⟨hi, rfl⟩ := mem_ends_one.mp he
      obtain rfl : k = i := by
        simp only at hk
        omega
      exact hplace s k hp hi
  | run s least most lazy =>
      intro e he k hik hk
      rw [ends, List.mem_map] at he
      obtain ⟨j, hj, rfl⟩ := he
      exact hplace s k hp (holds_of_mem_runEnds hj hik hk)
  | seq p q ihp ihq =>
      intro e he k hik hk
      rw [onlySets, Bool.and_eq_true] at hp
      rw [ends, List.mem_flatMap] at he
      obtain ⟨mid, hmid, he⟩ := he
      by_cases hkm : k < mid.1
      · exact ihp hp.1 mid hmid k hik hkm
      · exact ihq hp.2 e he k (by omega) hk
  | alt p q ihp ihq =>
      intro e he
      rw [onlySets, Bool.and_eq_true] at hp
      rw [ends, List.mem_append] at he
      rcases he with he | he
      · exact ihp hp.1 e he
      · exact ihq hp.2 e he
  | iter p least most lazy ih =>
      rw [onlySets] at hp
      -- a place of the row is a place of one of its matches
      have hstep : ∀ e : End, (∀ k, i ≤ k → k < e.1 → ∃ c, text[k]? = some c ∧ P c) →
          ∀ e' ∈ ends text p e.1 e.2, ∀ k, i ≤ k → k < e'.1 → ∃ c, text[k]? = some c ∧ P c := by
        intro e he e' he' k hik hk
        by_cases hke : k < e.1
        · exact he k hik hke
        · exact ih hp e' he' k (by omega) hk
      intro e he
      rw [ends, List.mem_flatMap] at he
      obtain ⟨mid, hmid, he⟩ := he
      have hmid' := exactlyEnds_induct hstep least (i, g)
        (fun k hik hk => by simp only at hk; omega) mid hmid
      exact atMostEnds_induct hstep lazy _ none mid hmid' e he
  | group name p ih =>
      intro e he
      rw [onlySets] at hp
      rw [ends, List.mem_map] at he
      obtain ⟨e, he, rfl⟩ := he
      exact ih hp e he
  | edge d =>
      intro e he k hik hk
      obtain ⟨-, rfl⟩ := mem_ends_edge.mp he
      simp only at hk
      omega
  | ahead p wanted ih =>
      intro e he k hik hk
      rw [(of_mem_ends_ahead he).1] at hk
      omega
  | behind p width wanted ih =>
      intro e he k hik hk
      rw [(of_mem_ends_behind he).1] at hk
      omega

/-- **No match holds a character that its pattern avoids.** -/
theorem ne_of_avoids {text : Array Char} {c : Char} {p : Pattern} (hp : avoids c p = true)
    {i : Nat} {g : Groups} :
    ∀ e ∈ ends text p i g, ∀ k, i ≤ k → k < e.1 → text[k]? ≠ some c := by
  intro e he k hik hk hc
  rw [avoids_eq_onlySets] at hp
  obtain ⟨d, hd, hne⟩ := exists_of_onlySets (P := (· ≠ c))
    (fun s hs d hd heq => by simp [← heq, hd] at hs) hp e he k hik hk
  exact hne (Option.some.inj (hd.symm.trans hc))

/-- Something once or not at all. -/
theorem mem_ends_optional_iff {text : Array Char} {p : Pattern} {lazy : Bool} {i : Nat}
    {g : Groups} {e : End} :
    e ∈ ends text (iter p 0 (some 1) lazy) i g ↔ e = (i, g) ∨ e ∈ ends text p i g := by
  cases lazy <;> simp [ends, exactlyEnds, atMostEnds, further, or_comm]

/-- **No match holds two characters in an order that its pattern excludes.** -/
theorem ne_of_noneAfter {text : Array Char} {a b : Char} {p : Pattern}
    (hp : noneAfter a b p = true) {i : Nat} {g : Groups} :
    ∀ e ∈ ends text p i g, ∀ k l, i ≤ k → k < l → l < e.1 → text[k]? = some a →
      text[l]? ≠ some b := by
  induction p generalizing i g with
  | empty =>
      intro e he k l hik hkl hl
      rw [ends, List.mem_singleton] at he
      rw [he] at hl
      omega
  | one s =>
      intro e he k l hik hkl hl
      obtain ⟨-, rfl⟩ := mem_ends_one.mp he
      simp only at hl
      omega
  | run s least most lazy =>
      intro e he k l hik hkl hl ha hb
      rw [noneAfter, Bool.or_eq_true] at hp
      rcases hp with hp | hp
      · exact ne_of_avoids (p := run s least most lazy) hp e he k hik (by omega) ha
      · exact ne_of_avoids (p := run s least most lazy) hp e he l (by omega) hl hb
  | seq p q ihp ihq =>
      intro e he k l hik hkl hl ha hb
      simp only [noneAfter, Bool.and_eq_true, Bool.or_eq_true] at hp
      obtain ⟨⟨hfirst, hsecond⟩, hacross⟩ := hp
      rw [ends, List.mem_flatMap] at he
      obtain ⟨mid, hmid, he⟩ := he
      -- both characters are in one part, or the parts have one each
      by_cases hlm : l < mid.1
      · exact ihp hfirst mid hmid k l hik hkl hlm ha hb
      · by_cases hkm : mid.1 ≤ k
        · exact ihq hsecond e he k l hkm hkl hl ha hb
        · rcases hacross with hp | hq
          · exact ne_of_avoids hp mid hmid k hik (by omega) ha
          · exact ne_of_avoids hq e he l (by omega) hl hb
  | alt p q ihp ihq =>
      intro e he
      rw [noneAfter, Bool.and_eq_true] at hp
      rw [ends, List.mem_append] at he
      rcases he with he | he
      · exact ihp hp.1 e he
      · exact ihq hp.2 e he
  | iter p least most lazy ih =>
      intro e he k l hik hkl hl ha hb
      simp only [noneAfter, Bool.or_eq_true, Bool.and_eq_true, decide_eq_true_eq] at hp
      rcases hp with (hp | hp) | ⟨hp, rfl, rfl⟩
      · exact ne_of_avoids (p := iter p least most lazy) hp e he k hik (by omega) ha
      · exact ne_of_avoids (p := iter p least most lazy) hp e he l (by omega) hl hb
      · rcases mem_ends_optional_iff.mp he with rfl | he
        · simp only at hl
          omega
        · exact ih hp e he k l hik hkl hl ha hb
  | group name p ih =>
      intro e he
      rw [noneAfter] at hp
      rw [ends, List.mem_map] at he
      obtain ⟨e, he, rfl⟩ := he
      exact ih hp e he
  | edge d =>
      intro e he k l hik hkl hl
      obtain ⟨-, rfl⟩ := mem_ends_edge.mp he
      simp only at hl
      omega
  | ahead p wanted ih =>
      intro e he k l hik hkl hl
      rw [(of_mem_ends_ahead he).1] at hl
      omega
  | behind p width wanted ih =>
      intro e he k l hik hkl hl
      rw [(of_mem_ends_behind he).1] at hl
      omega

end Pattern

end CodeSweep
