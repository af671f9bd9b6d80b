/-
# Balanced delimiters

A stretch of a text is balanced if as many delimiters open in it as close, and no beginning of it
closes more than it opens.  The delimiter that closes another one is the first closing delimiter
with a balanced stretch before it (`close?_eq_some_iff`).  Balanced stretches do not straddle: one
that begins in a block does not go on beyond its end (`Balanced.not_straddling`).
-/
import CodeSweep.Block
import CodeSweep.Proofs.Text.Slice

namespace CodeSweep.Block

/-- As many delimiters open in the text as close, and no beginning of it closes more than it
opens. -/
structure Balanced (opener closer : Char) (cs : List Char) : Prop where
  count_eq : cs.count closer = cs.count opener
  count_le_of_prefix : ∀ xs, xs <+: cs → xs.count closer ≤ xs.count opener

/-- The depth after the text, from the given depth on, if no more delimiters close than are
open. -/
def depthAfter? (opener closer : Char) : (depth : Nat) → List Char → Option Nat
  | depth, [] => some depth
  | depth, c :: cs =>
    if c = opener then depthAfter? opener closer (depth + 1) cs
    else if c = closer then
      match depth with
      | 0 => none
      | depth + 1 => depthAfter? opener closer depth cs
    else depthAfter? opener closer depth cs

section

variable {opener closer : Char}

/-! ## Depths -/

theorem depthAfter?_open (depth : Nat) (cs : List Char) :
    depthAfter? opener closer depth (opener :: cs)
      = depthAfter? opener closer (depth + 1) cs := by
  cases depth <;> simp [depthAfter?]

theorem depthAfter?_close_zero (hne : opener ≠ closer) (cs : List Char) :
    depthAfter? opener closer 0 (closer :: cs) = none := by
  simp [depthAfter?, hne.symm]

theorem depthAfter?_close_succ (hne : opener ≠ closer) (depth : Nat) (cs : List Char) :
    depthAfter? opener closer (depth + 1) (closer :: cs)
      = depthAfter? opener closer depth cs := by
  simp [depthAfter?, hne.symm]

theorem depthAfter?_other {c : Char} (hopen : c ≠ opener) (hclose : c ≠ closer) (depth : Nat)
    (cs : List Char) :
    depthAfter? opener closer depth (c :: cs) = depthAfter? opener closer depth cs := by
  cases depth <;> simp [depthAfter?, hopen, hclose]

/-- The depth after two texts is the depth after the second from the depth after the first. -/
theorem depthAfter?_append (hne : opener ≠ closer) (depth : Nat) (xs ys : List Char) :
    depthAfter? opener closer depth (xs ++ ys)
      = (depthAfter? opener closer depth xs).bind fun d => depthAfter? opener closer d ys := by
  induction xs generalizing depth with
  | nil => rfl
  | cons x xs ih =>
      rw [List.cons_append]
      by_cases hopen : x = opener
      · rw [hopen, depthAfter?_open, depthAfter?_open, ih]
      · by_cases hclose : x = closer
        · subst hclose
          cases depth with
          | zero => rw [depthAfter?_close_zero hne, depthAfter?_close_zero hne, Option.bind_none]
          | succ depth => rw [depthAfter?_close_succ hne, depthAfter?_close_succ hne, ih]
        · rw [depthAfter?_other hopen hclose, depthAfter?_other hopen hclose, ih]

/-- What is true of the beginnings of a text with one more character. -/
theorem forall_prefix_cons {P : List Char → Prop} {c : Char} {cs : List Char} :
    (∀ xs, xs <+: c :: cs → P xs) ↔ P [] ∧ ∀ xs, xs <+: cs → P (c :: xs) := by
  constructor
  · intro h
    exact ⟨h [] List.nil_prefix, fun xs hxs => h (c :: xs) (List.cons_prefix_cons.mpr ⟨rfl, hxs⟩)⟩
  · rintro ⟨hnil, hcons⟩ xs hxs
    rcases List.prefix_cons_iff.mp hxs with rfl | ⟨ys, rfl, hys⟩
    · exact hnil
    · exact hcons ys hys

/-- **Depths count delimiters.**  The depth after a text is the number of delimiters that are left
open, provided that no beginning of the text closes more than are open. -/
theorem depthAfter?_eq_some_iff (hne : opener ≠ closer) {depth depth' : Nat} {cs : List Char} :
    depthAfter? opener closer depth cs = some depth' ↔
      depth + cs.count opener = depth' + cs.count closer ∧
        ∀ xs, xs <+: cs → xs.count closer ≤ depth + xs.count opener := by
  induction cs generalizing depth with
  | nil => simp [depthAfter?, List.prefix_nil]
  | cons c cs ih =>
      rw [forall_prefix_cons]
      by_cases hopen : c = opener
      · subst hopen
        rw [depthAfter?_open, ih]
        simp only [List.count_cons_self, List.count_cons_of_ne hne, List.count_nil]
        grind
      · by_cases hclose : c = closer
        · subst hclose
          simp only [List.count_cons_self, List.count_cons_of_ne hne.symm, List.count_nil]
          cases depth with
          | zero =>
              rw [depthAfter?_close_zero hne]
              simp only [reduceCtorEq, false_iff, not_and]
              rintro - - h
              simpa using h [] List.nil_prefix
          | succ depth =>
              rw [depthAfter?_close_succ hne, ih]
              grind
        · rw [depthAfter?_other hopen hclose, ih]
          simp only [List.count_cons_of_ne hopen, List.count_cons_of_ne hclose, List.count_nil]
          grind

/-- A text is balanced if it leads from the outside to the outside. -/
theorem balanced_iff (hne : opener ≠ closer) {cs : List Char} :
    Balanced opener closer cs ↔ depthAfter? opener closer 0 cs = some 0 := by
  rw [depthAfter?_eq_some_iff hne]
  simp only [Nat.zero_add]
  exact ⟨fun h => ⟨h.count_eq.symm, h.count_le_of_prefix⟩, fun h => ⟨h.1.symm, h.2⟩⟩

/-! ## Balanced stretches -/

/-- A balanced stretch leads back to the depth where it begins. -/
theorem Balanced.depthAfter?_eq (hne : opener ≠ closer) {cs : List Char}
    (h : Balanced opener closer cs) (depth : Nat) :
    depthAfter? opener closer depth cs = some depth :=
  (depthAfter?_eq_some_iff hne).mpr ⟨congrArg (depth + ·) h.count_eq.symm,
    fun xs hxs => Nat.le_add_left_of_le (h.count_le_of_prefix xs hxs)⟩

/-- After one delimiter that is left open, a balanced stretch and a closing delimiter make the whole
balanced. -/
theorem Balanced.closed (hne : opener ≠ closer) {xs ys : List Char}
    (hxs : depthAfter? opener closer 0 xs = some 1) (hys : Balanced opener closer ys) :
    Balanced opener closer (xs ++ (ys ++ [closer])) := by
  rw [balanced_iff hne, depthAfter?_append hne, hxs, Option.bind_some, depthAfter?_append hne,
    hys.depthAfter?_eq hne, Option.bind_some, depthAfter?_close_succ hne]
  rfl

/-- **Balanced stretches do not straddle.**  One that begins in a balanced stretch does not go on
beyond a delimiter that closes right after that. -/
theorem Balanced.not_straddling (hne : opener ≠ closer) {xs ys zs : List Char}
    (h : Balanced opener closer (xs ++ ys)) :
    ¬ Balanced opener closer (ys ++ closer :: zs) := by
  intro h'
  have hcount := h.count_eq
  have hxs := h.count_le_of_prefix xs (List.prefix_append xs ys)
  have hys := h'.count_le_of_prefix (ys ++ [closer]) (by simp)
  rw [List.count_append, List.count_append] at hcount
  rw [List.count_append, List.count_append, List.count_singleton_self,
    List.count_singleton, if_neg (by simpa using hne.symm)] at hys
  omega

/-! ## The delimiter that closes another one -/

/-- Inside of delimiters the search finds the closing delimiter after which none is open. -/
theorem closeFrom_eq_some_iff (hne : opener ≠ closer) {depth i j : Nat} {cs : List Char} :
    closeFrom opener closer (depth + 1) i cs = some j ↔
      ∃ xs ys, cs = xs ++ closer :: ys ∧ j = i + xs.length ∧
        depthAfter? opener closer depth xs = some 0 := by
  induction cs generalizing depth i with
  | nil => simp [closeFrom]
  | cons c cs ih =>
      -- a closing delimiter further on
      have hcons : ∀ depth', (∀ xs, depthAfter? opener closer depth (c :: xs)
            = depthAfter? opener closer depth' xs) →
          ((∃ xs ys, cs = xs ++ closer :: ys ∧ j = i + 1 + xs.length ∧
              depthAfter? opener closer depth' xs = some 0) ↔
            ∃ xs ys, c :: cs = (c :: xs) ++ closer :: ys ∧ j = i + (c :: xs).length ∧
              depthAfter? opener closer depth (c :: xs) = some 0) := by
        intro depth' hdepth
        simp only [hdepth, List.cons_append, List.cons.injEq, true_and, List.length_cons,
          Nat.add_assoc, Nat.add_comm 1]
      -- a list with a first character is the closing delimiter or goes on after that character
      have hsplit : (∃ xs ys, c :: cs = xs ++ closer :: ys ∧ j = i + xs.length ∧
            depthAfter? opener closer depth xs = some 0) ↔
          (c = closer ∧ j = i ∧ depth = 0) ∨
            ∃ xs ys, c :: cs = (c :: xs) ++ closer :: ys ∧ j = i + (c :: xs).length ∧
              depthAfter? opener closer depth (c :: xs) = some 0 := by
        constructor
        · rintro ⟨xs, ys, hcs, hj, hdepth⟩
          cases xs with
          | nil =>
              refine .inl ⟨(List.cons.inj hcs).1, hj, ?_⟩
              simpa [depthAfter?] using hdepth
          | cons x xs =>
              obtain rfl : c = x := (List.cons.inj hcs).1
              exact .inr ⟨xs, ys, hcs, hj, hdepth⟩
        · rintro (⟨rfl, rfl, rfl⟩ | ⟨xs, ys, h⟩)
          · exact ⟨[], cs, rfl, rfl, rfl⟩
          · exact ⟨c :: xs, ys, h⟩
      rw [hsplit, closeFrom]
      by_cases hopen : c = opener
      · subst hopen
        rw [if_pos rfl, ← hcons (depth + 1) fun xs => depthAfter?_open depth xs, ← ih]
        simp [hne]
      · by_cases hclose : c = closer
        · subst hclose
          rw [if_neg hopen, if_pos rfl, Int.add_sub_cancel]
          cases depth with
          | zero =>
              simp [depthAfter?_close_zero hne, eq_comm]
          | succ depth =>
              rw [if_neg (by omega), ← hcons depth fun xs => depthAfter?_close_succ hne depth xs,
                ← ih]
              simp
        · rw [if_neg hopen, if_neg hclose,
            ← hcons depth fun xs => depthAfter?_other hopen hclose depth xs, ← ih]
          simp [hclose]

/-- **What closes a delimiter** is the closing delimiter with a balanced stretch between them. -/
theorem close?_eq_some_iff (hne : opener ≠ closer) {text : List Char} {start j : Nat}
    (hstart : text[start]? = some opener) :
    close? text start opener closer = some j ↔
      start < j ∧ text[j]? = some closer ∧
        Balanced opener closer (Text.slice text (start + 1, j)) := by
  obtain ⟨hlt, hget⟩ := List.getElem?_eq_some_iff.mp hstart
  have hdrop : text.drop start = opener :: text.drop (start + 1) := by
    rw [List.drop_eq_getElem_cons hlt, hget]
  have hone : close? text start opener closer
      = closeFrom opener closer ((0 : Nat) + 1) (start + 1) (text.drop (start + 1)) := by
    rw [close?, hdrop, closeFrom, if_pos rfl]
    rfl
  rw [hone, closeFrom_eq_some_iff hne]
  simp only [← balanced_iff hne]
  constructor
  · rintro ⟨xs, ys, hrest, rfl, hxs⟩
    have hslice : Text.slice text (start + 1, start + 1 + xs.length) = xs := by
      rw [Text.slice, ← List.take_drop, hrest, List.take_left]
    refine ⟨by omega, ?_, hslice.symm ▸ hxs⟩
    rw [← List.getElem?_drop, hrest, List.getElem?_append_right (Nat.le_refl _), Nat.sub_self,
      List.getElem?_cons_zero]
  · rintro ⟨hj, hclose, hbalanced⟩
    obtain ⟨hlt', hget'⟩ := List.getElem?_eq_some_iff.mp hclose
    refine ⟨_, text.drop (j + 1), ?_, ?_, hbalanced⟩
    · have hend : text.drop j = closer :: text.drop (j + 1) := by
        rw [List.drop_eq_getElem_cons hlt', hget']
      rw [← hend, Text.slice_append_drop hj]
    · rw [Text.length_slice (Nat.le_of_lt hlt')]
      omega

end

end CodeSweep.Block
