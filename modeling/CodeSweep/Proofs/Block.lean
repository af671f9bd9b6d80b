/-
# Where blocks end

What closes a block stands at the place that is found, and the search for it reads no further.  So
in two texts that begin alike a block that closes within the common beginning closes at the same
place (`close?_append`, `enclosingEnd_append`).
-/
import CodeSweep.Proofs.Analysis.Spans

namespace CodeSweep.Block

/-! ## The delimiter that closes another one -/

section

variable {opener closer : Char}

/-- At the place that is found stands a closing delimiter. -/
theorem getElem?_of_closeFrom {depth : Int} {i j : Nat} {cs : List Char}
    (h : closeFrom opener closer depth i cs = some j) : cs[j - i]? = some closer := by
  induction cs generalizing depth i with
  | nil => simp [closeFrom] at h
  | cons c cs ih =>
      have hlater : ∀ depth', closeFrom opener closer depth' (i + 1) cs = some j →
          (c :: cs)[j - i]? = some closer := by
        intro depth' h'
        have hle := (closeFrom_bounds h').1
        rw [show j - i = j - (i + 1) + 1 by omega, List.getElem?_cons_succ]
        exact ih h'
      rw [closeFrom] at h
      split at h
      · exact hlater _ h
      · split at h
        · next hc =>
            split at h
            · obtain rfl : i = j := Option.some.inj h
              rw [Nat.sub_self, List.getElem?_cons_zero, hc]
            · exact hlater _ h
        · exact hlater _ h

/-- The search for the closing delimiter does not read on from there. -/
theorem closeFrom_append {depth : Int} {i j : Nat} {xs ys : List Char}
    (h : closeFrom opener closer depth i (xs ++ ys) = some j) (hj : j < i + xs.length)
    (zs : List Char) : closeFrom opener closer depth i (xs ++ zs) = some j := by
  induction xs generalizing depth i with
  | nil =>
      have hle := (closeFrom_bounds h).1
      rw [List.length_nil] at hj
      omega
  | cons x xs ih =>
      rw [List.length_cons] at hj
      rw [List.cons_append, closeFrom] at h ⊢
      have hlater : ∀ depth', closeFrom opener closer depth' (i + 1) (xs ++ ys) = some j →
          closeFrom opener closer depth' (i + 1) (xs ++ zs) = some j :=
        fun depth' h' => ih h' (by omega)
      by_cases hopen : x = opener
      · rw [if_pos hopen] at h ⊢
        exact hlater _ h
      · rw [if_neg hopen] at h ⊢
        by_cases hclose : x = closer
        · rw [if_pos hclose] at h ⊢
          by_cases hlast : depth - 1 = 0
          · rwa [if_pos hlast] at h ⊢
          · rw [if_neg hlast] at h ⊢
            exact hlater _ h
        · rw [if_neg hclose] at h ⊢
          exact hlater _ h

/-- What closes a delimiter is a closing delimiter. -/
theorem getElem?_of_close? {text : List Char} {start j : Nat}
    (h : close? text start opener closer = some j) : text[j]? = some closer := by
  have hle := (close?_bounds h).1
  have hat := getElem?_of_closeFrom h
  rwa [List.getElem?_drop, Nat.add_sub_cancel' hle] at hat

/-- **What closes a delimiter** within the common beginning of two texts closes it in both. -/
theorem close?_append {xs ys : List Char} {start j : Nat}
    (h : close? (xs ++ ys) start opener closer = some j) (hj : j < xs.length) (zs : List Char) :
    close? (xs ++ zs) start opener closer = some j := by
  have hle := (close?_bounds h).1
  rw [close?, List.drop_append_of_le_length (by omega)] at h ⊢
  exact closeFrom_append h (by rw [List.length_drop]; omega) zs

end

/-! ## The brace that ends the block around a place -/

section

variable (i : Nat) (cs : List Char)

@[simp] theorem endFrom_open (depth : Nat) :
    endFrom depth i ('{' :: cs) = endFrom (depth + 1) (i + 1) cs := by
  cases depth <;> simp [endFrom]

@[simp] theorem endFrom_close_zero : endFrom 0 i ('}' :: cs) = i := by
  simp [endFrom]

@[simp] theorem endFrom_close_succ (depth : Nat) :
    endFrom (depth + 1) i ('}' :: cs) = endFrom depth (i + 1) cs := by
  simp [endFrom]

theorem endFrom_other (depth : Nat) {c : Char} (hopen : c ≠ '{') (hclose : c ≠ '}') :
    endFrom depth i (c :: cs) = endFrom depth (i + 1) cs := by
  cases depth <;> rw [endFrom, if_neg hopen, if_neg hclose]

end

/-- The search goes forward. -/
theorem le_endFrom (depth i : Nat) (cs : List Char) : i ≤ endFrom depth i cs := by
  induction depth, i, cs using endFrom.induct with
  | case1 depth i => exact Nat.le_refl i
  | case2 depth i cs ih =>
      rw [endFrom_open]
      exact Nat.le_of_succ_le ih
  | case3 i cs _ => exact Nat.le_of_eq (endFrom_close_zero i cs).symm
  | case4 i cs depth _ ih =>
      rw [endFrom_close_succ]
      exact Nat.le_of_succ_le ih
  | case5 depth i c cs hopen hclose ih =>
      rw [endFrom_other i cs depth hopen hclose]
      exact Nat.le_of_succ_le ih

/-- Unless the search comes to the end of the text, a closing brace stands at the place. -/
theorem getElem?_endFrom {depth i : Nat} {cs : List Char}
    (h : endFrom depth i cs < i + cs.length) : cs[endFrom depth i cs - i]? = some '}' := by
  -- a place further on in what follows a character
  have hcons : ∀ (depth i : Nat) (c : Char) (cs : List Char),
      (endFrom depth (i + 1) cs < i + 1 + cs.length →
        cs[endFrom depth (i + 1) cs - (i + 1)]? = some '}') →
      endFrom depth (i + 1) cs < i + (c :: cs).length →
      (c :: cs)[endFrom depth (i + 1) cs - i]? = some '}' := by
    intro depth i c cs ih h
    have hle := le_endFrom depth (i + 1) cs
    rw [List.length_cons] at h
    rw [show endFrom depth (i + 1) cs - i = endFrom depth (i + 1) cs - (i + 1) + 1 by omega,
      List.getElem?_cons_succ]
    exact ih (by omega)
  induction depth, i, cs using endFrom.induct with
  | case1 depth i =>
      rw [endFrom, List.length_nil] at h
      omega
  | case2 depth i cs ih =>
      rw [endFrom_open] at h ⊢
      exact hcons _ i _ cs ih h
  | case3 i cs _ =>
      rw [endFrom_close_zero, Nat.sub_self, List.getElem?_cons_zero]
  | case4 i cs depth _ ih =>
      rw [endFrom_close_succ] at h ⊢
      exact hcons _ i _ cs ih h
  | case5 depth i c cs hopen hclose ih =>
      rw [endFrom_other i cs depth hopen hclose] at h ⊢
      exact hcons _ i _ cs ih h

/-- The search does not read on from the place that it finds. -/
theorem endFrom_append {depth i : Nat} {xs ys : List Char}
    (h : endFrom depth i (xs ++ ys) < i + xs.length) (zs : List Char) :
    endFrom depth i (xs ++ zs) = endFrom depth i (xs ++ ys) := by
  induction xs generalizing depth i with
  | nil =>
      have hle := le_endFrom depth i ([] ++ ys)
      rw [List.length_nil] at h
      omega
  | cons x xs ih =>
      have hlater : ∀ depth', endFrom depth' (i + 1) (xs ++ ys) < i + (x :: xs).length →
          endFrom depth' (i + 1) (xs ++ zs) = endFrom depth' (i + 1) (xs ++ ys) := by
        intro depth' h'
        rw [List.length_cons] at h'
        exact ih (by omega)
      rw [List.cons_append] at h
      rw [List.cons_append, List.cons_append]
      by_cases hopen : x = '{'
      · subst hopen
        rw [endFrom_open] at h ⊢
        rw [endFrom_open]
        exact hlater _ h
      · by_cases hclose : x = '}'
        · subst hclose
          cases depth with
          | zero => rw [endFrom_close_zero, endFrom_close_zero]
          | succ depth =>
              rw [endFrom_close_succ] at h ⊢
              rw [endFrom_close_succ]
              exact hlater _ h
        · rw [endFrom_other _ _ _ hopen hclose] at h ⊢
          rw [endFrom_other _ _ _ hopen hclose]
          exact hlater _ h

/-- The end of the block around a place is not before it, unless the place is outside of the
text. -/
theorem le_enclosingEnd {text : List Char} {start : Nat} (h : start ≤ text.length) :
    start ≤ enclosingEnd text start := by
  rw [enclosingEnd, if_pos h]
  exact le_endFrom 0 start _

/-- The block around a place is ended by a closing brace, or else by the end of the text. -/
theorem getElem?_enclosingEnd {text : List Char} {start : Nat}
    (h : enclosingEnd text start < text.length) :
    text[enclosingEnd text start]? = some '}' := by
  by_cases hstart : start ≤ text.length
  · have hle := le_enclosingEnd hstart
    rw [enclosingEnd, if_pos hstart] at h hle ⊢
    have hlength : endFrom 0 start (text.drop start) < start + (text.drop start).length := by
      rw [List.length_drop]
      omega
    have hat := getElem?_endFrom hlength
    rwa [List.getElem?_drop, Nat.add_sub_cancel' hle] at hat
  · rw [enclosingEnd, if_neg hstart] at h
    omega

/-- **The block around a place** ends at the same place in two texts if that is in their common
beginning. -/
theorem enclosingEnd_append {xs ys : List Char} {start : Nat}
    (h : enclosingEnd (xs ++ ys) start < xs.length) (zs : List Char) :
    enclosingEnd (xs ++ zs) start = enclosingEnd (xs ++ ys) start := by
  have hstart : start ≤ (xs ++ ys).length := by
    rw [enclosingEnd] at h
    split at h
    · assumption
    · rw [List.length_append] at h
      omega
  have hle := le_enclosingEnd hstart
  have hstart' : start ≤ (xs ++ zs).length := by
    rw [List.length_append]
    omega
  have hdrop : ∀ ws : List Char, (xs ++ ws).drop start = xs.drop start ++ ws :=
    fun ws => List.drop_append_of_le_length (by omega)
  rw [enclosingEnd, if_pos hstart, hdrop] at h
  rw [enclosingEnd, enclosingEnd, if_pos hstart, if_pos hstart', hdrop, hdrop]
  exact endFrom_append (by rw [List.length_drop]; omega) zs

end CodeSweep.Block
