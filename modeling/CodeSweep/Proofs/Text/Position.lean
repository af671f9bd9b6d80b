/-
# Positions and offsets

A place in a text has two names: its offset, and its position by line and column.  The line starts
of a text lead from a position to an offset, `Position.ofOffset` leads back.

* `offset?_ofOffset` : the position of an offset names that offset, also past the end;
* `ofOffset_injective` : different offsets have different positions;
* `exists_around_line` : a line of a text stands in it where its number says.
-/
import CodeSweep.Text.Line

namespace CodeSweep

/-! ## Line starts -/

namespace Text

/-- The offsets just after the line feeds of a text whose first character has the given offset. -/
def lineStartsAfter : (offset : Nat) → List Char → List Nat
  | _, [] => []
  | offset, c :: cs =>
    if c = '\n' then (offset + 1) :: lineStartsAfter (offset + 1) cs
    else lineStartsAfter (offset + 1) cs

/-- The offsets at which the lines of a text start. -/
def lineStarts (text : List Char) : List Nat := 0 :: lineStartsAfter 0 text

end Text

namespace Position

/-- The offset that the position names: the start of its line and the columns before it. -/
def offset? (p : Position) (text : List Char) : Option Nat :=
  (Text.lineStarts text)[p.line - 1]?.map (· + p.column - 1)

/-! ## Walking through a text -/

/-- The place after no character is where the walk begins. -/
@[simp] theorem advance_zero (p : Position) (cs : List Char) : p.advance cs 0 = p := by
  cases cs <;> rfl

/-- Past the end of the text the columns go on. -/
@[simp] theorem advance_nil (p : Position) (n : Nat) :
    p.advance [] n = ⟨p.line, p.column + n⟩ := by
  cases n <;> rfl

/-- One step of a walk. -/
@[simp] theorem advance_cons_succ (p : Position) (c : Char) (cs : List Char) (n : Nat) :
    p.advance (c :: cs) (n + 1) = (p.next c).advance cs n := rfl

/-- A walk through a text with a first part goes through that part first. -/
theorem advance_append_add (p : Position) (xs ys : List Char) (n : Nat) :
    p.advance (xs ++ ys) (xs.length + n) = (p.advance xs xs.length).advance ys n := by
  induction xs generalizing p with
  | nil => simp
  | cons x xs ih =>
      rw [List.cons_append, List.length_cons, Nat.add_right_comm, advance_cons_succ, ih]
      rfl

/-- What follows does not matter to a walk that ends before it. -/
theorem advance_append_of_le (p : Position) (xs ys : List Char) (n : Nat) (hn : n ≤ xs.length) :
    p.advance (xs ++ ys) n = p.advance xs n := by
  induction xs generalizing p n with
  | nil =>
      obtain rfl : n = 0 := Nat.le_zero.mp hn
      simp
  | cons x xs ih =>
      cases n with
      | zero => simp
      | succ n =>
          rw [List.cons_append, advance_cons_succ, advance_cons_succ]
          exact ih _ n (Nat.le_of_succ_le_succ hn)

/-- A walk without line feeds stays in its line. -/
theorem advance_of_not_mem (p : Position) (cs : List Char) (n : Nat) (hcs : '\n' ∉ cs) :
    p.advance cs n = ⟨p.line, p.column + n⟩ := by
  induction cs generalizing p n with
  | nil => simp
  | cons c cs ih =>
      cases n with
      | zero => simp
      | succ n =>
          have hc : ¬ c = '\n' := fun h => hcs (h ▸ List.mem_cons_self)
          rw [advance_cons_succ, ih _ _ fun h => hcs (List.mem_cons_of_mem c h), next, if_neg hc,
            Nat.add_right_comm, Nat.add_assoc]

/-! ## From positions back to offsets -/

/-- The line that a walk ends in starts at a line start, and the column is the distance from
there.  The walk begins at offset `b` of the whole text, in a line that starts at `start`. -/
theorem exists_start_advance (p : Position) (start b : Nat) (cs : List Char) (n : Nat)
    (hb : start + p.column = b + 1) :
    p.line ≤ (p.advance cs n).line ∧
      ∃ s, (start :: Text.lineStartsAfter b cs)[(p.advance cs n).line - p.line]? = some s ∧
        s + (p.advance cs n).column = b + n + 1 := by
  induction cs generalizing p start b n with
  | nil =>
      refine ⟨by simp, start, by simp, ?_⟩
      simp only [advance_nil]
      omega
  | cons c cs ih =>
      cases n with
      | zero => exact ⟨by simp, start, by simp, by simpa using hb⟩
      | succ n =>
          rw [advance_cons_succ, Text.lineStartsAfter, next]
          by_cases hc : c = '\n'
          · -- the next line has the next start in the list, so its number there drops by one
            rw [if_pos hc, if_pos hc]
            obtain ⟨hle, s, hs, hsum⟩ :=
              ih ⟨p.line + 1, 1⟩ (b + 1) (b + 1) n rfl
            refine ⟨Nat.le_of_succ_le hle, s, ?_, by omega⟩
            generalize (Position.advance ⟨p.line + 1, 1⟩ cs n).line = l at hle hs ⊢
            obtain ⟨m, rfl⟩ := Nat.exists_eq_add_of_le hle
            rw [Nat.add_sub_cancel_left] at hs
            rw [show p.line + 1 + m - p.line = m + 1 by omega, List.getElem?_cons_succ]
            exact hs
          · rw [if_neg hc, if_neg hc]
            obtain ⟨hle, s, hs, hsum⟩ :=
              ih ⟨p.line, p.column + 1⟩ start (b + 1) n (by simp only; omega)
            exact ⟨hle, s, hs, by omega⟩

/-- **Round trip.**  The position of an offset names that offset. -/
theorem offset?_ofOffset (text : List Char) (offset : Nat) :
    (ofOffset text offset).offset? text = some offset := by
  obtain ⟨-, s, hs, hsum⟩ :=
    exists_start_advance first 0 0 text offset rfl
  have hline : (first.advance text offset).line - first.line
      = (ofOffset text offset).line - 1 := rfl
  rw [offset?, Text.lineStarts, ← hline, hs, Option.map_some, ofOffset]
  congr 1
  omega

/-- Different offsets have different positions. -/
theorem ofOffset_injective (text : List Char) : Function.Injective (ofOffset text) := by
  intro a b h
  have ha := offset?_ofOffset text a
  rw [h, offset?_ofOffset text b] at ha
  exact (Option.some.inj ha).symm

end Position

/-! ## Lines -/

namespace Text

/-- A line without the carriage return at its end is the beginning of the line. -/
theorem dropCarriageReturn_isPrefix (cs : List Char) : dropCarriageReturn cs <+: cs := by
  induction cs using dropCarriageReturn.induct with
  | case1 => exact List.prefix_rfl
  | case2 => exact List.nil_prefix
  | case3 c cs hne ih =>
      rw [dropCarriageReturn]
      · exact (List.prefix_cons_inj c).mpr ih
      · exact hne

/-- There is always a first piece. -/
theorem splitAt_ne_nil (sep : Char → Bool) (cs : List Char) : splitAt sep cs ≠ [] := by
  cases cs with
  | nil => simp [splitAt]
  | cons c cs =>
      rw [splitAt]
      split
      · simp
      · split <;> simp

/-- A character that separates nothing joins the first piece. -/
theorem splitAt_cons_of_not (sep : Char → Bool) {c : Char} (cs : List Char) (hc : sep c = false) :
    ∃ piece pieces, splitAt sep cs = piece :: pieces ∧
      splitAt sep (c :: cs) = (c :: piece) :: pieces := by
  obtain ⟨piece, pieces, h⟩ := List.exists_cons_of_ne_nil (splitAt_ne_nil sep cs)
  exact ⟨piece, pieces, h, by rw [splitAt, if_neg (by simp [hc]), h]⟩

/-- The piece with number `k` of a text cut at line feeds: what stands before it leads `k` lines
down, to the first column unless it is the first piece. -/
theorem exists_around_piece (p : Position) (text : List Char) {k : Nat} {raw : List Char}
    (h : (splitAt (· == '\n') text)[k]? = some raw) :
    ∃ before after, text = before ++ (raw ++ after) ∧ '\n' ∉ raw ∧
      p.advance before before.length = (if k = 0 then p else ⟨p.line + k, 1⟩) ∧
      (k = 0 → before = []) := by
  induction text generalizing p k raw with
  | nil =>
      rw [splitAt] at h
      obtain ⟨rfl, rfl⟩ : k = 0 ∧ raw = [] := by
        cases k <;> simp_all
      exact ⟨[], [], by simp⟩
  | cons c cs ih =>
      by_cases hc : c = '\n'
      · -- the first piece ends here, and the others are the pieces of the rest
        subst hc
        rw [splitAt, if_pos (by simp)] at h
        cases k with
        | zero =>
            obtain rfl : [] = raw := by simpa using h
            exact ⟨[], '\n' :: cs, by simp⟩
        | succ k =>
            obtain ⟨before, after, htext, hraw, hadv, -⟩ := ih (p.next '\n') h
            refine ⟨'\n' :: before, after, by rw [htext]; rfl, hraw, ?_, by simp⟩
            rw [List.length_cons, Position.advance_cons_succ, hadv, if_neg (Nat.succ_ne_zero k)]
            split
            · subst k; rfl
            · simp only [Position.next, if_true, Position.mk.injEq, and_true]
              omega
      · -- the first piece gets longer by one character, and the others stay
        obtain ⟨piece, pieces, hcs, hccs⟩ := splitAt_cons_of_not (· == '\n') cs
          (by simpa using hc)
        rw [hccs] at h
        cases k with
        | zero =>
            obtain rfl : c :: piece = raw := by simpa using h
            have hfirst : (splitAt (· == '\n') cs)[0]? = some piece := by
              rw [hcs]
              rfl
            obtain ⟨before, after, htext, hpiece, -, hbefore⟩ := ih p hfirst
            obtain rfl := hbefore rfl
            refine ⟨[], after, by rw [htext]; rfl, ?_, by simp⟩
            simp [hpiece, Ne.symm hc]
        | succ k =>
            have hlater : (splitAt (· == '\n') cs)[k + 1]? = some raw := by
              rw [hcs]
              exact h
            obtain ⟨before, after, htext, hraw, hadv, -⟩ := ih (p.next c) hlater
            refine ⟨c :: before, after, by rw [htext]; rfl, hraw, ?_, by simp⟩
            rw [List.length_cons, Position.advance_cons_succ, hadv]
            simp [Position.next, hc]

/-- **A line stands where its number says.**  The characters of line number `k + 1` are found in the
text after some `before`, and the places in the line have that number and the columns from one
on. -/
theorem exists_around_line {text line : List Char} {k : Nat} (h : (lines text)[k]? = some line) :
    ∃ before after, text = before ++ (line ++ after) ∧
      ∀ n ≤ line.length, Position.ofOffset text (before.length + n) = ⟨k + 1, n + 1⟩ := by
  rw [lines, List.getElem?_map, Option.map_eq_some_iff] at h
  obtain ⟨raw, hraw, rfl⟩ := h
  obtain ⟨before, after, htext, hfeed, hadv, -⟩ := exists_around_piece .first text hraw
  obtain ⟨dropped, hdropped⟩ := dropCarriageReturn_isPrefix raw
  refine ⟨before, dropped ++ after, ?_, ?_⟩
  · rw [htext, ← List.append_assoc (dropCarriageReturn raw), hdropped]
  · intro n hn
    have hle : n ≤ raw.length := Nat.le_trans hn (dropCarriageReturn_isPrefix raw).length_le
    rw [Position.ofOffset, htext, Position.advance_append_add, hadv,
      Position.advance_append_of_le _ _ _ _ hle, Position.advance_of_not_mem _ _ _ hfeed]
    split
    · subst k
      rw [Position.first, Nat.add_comm]
    · simp only [Position.first, Position.mk.injEq]
      omega

end Text

end CodeSweep
