/-
# Pieces put together again

Splitting a text and joining the pieces undo each other (`joinWith_splitAt`, `splitAt_joinWith`).
So what begins and ends at separators, or at the ends of the text, is made of whole pieces: one of
them (`mem_splitAt_iff`), or the first of them (`isPrefix_splitAt_iff`).
-/
import CodeSweep.Proofs.Text.Lines
import Mathlib.Data.String.Basic

namespace CodeSweep.Text

/-! ## Joining -/

section

variable {sep : List Char}

/-- The first piece, a separator and the others. -/
theorem joinWith_cons (piece : List Char) {pieces : List (List Char)} (h : pieces ≠ []) :
    joinWith sep (piece :: pieces) = piece ++ sep ++ joinWith sep pieces := by
  rw [joinWith]
  exact h

/-- Some pieces, a separator and some more. -/
theorem joinWith_append {as bs : List (List Char)} (has : as ≠ []) (hbs : bs ≠ []) :
    joinWith sep (as ++ bs) = joinWith sep as ++ sep ++ joinWith sep bs := by
  induction as with
  | nil => exact absurd rfl has
  | cons a as ih =>
      cases as with
      | nil => exact joinWith_cons a hbs
      | cons a' as =>
          rw [List.cons_append, joinWith_cons a (by simp), ih (by simp),
            joinWith_cons a (List.cons_ne_nil a' as)]
          simp only [List.append_assoc]

/-- What is joined begins as its first piece, if there is anything in it. -/
theorem head?_joinWith {piece : List Char} (h : piece ≠ []) (pieces : List (List Char)) :
    (joinWith sep (piece :: pieces)).head? = piece.head? := by
  cases pieces with
  | nil => rfl
  | cons next pieces =>
      rw [joinWith_cons piece (List.cons_ne_nil next pieces), List.append_assoc,
        List.head?_append_of_ne_nil _ h]

/-- What is joined ends as its last piece, if there is anything in it. -/
theorem getLast?_joinWith {piece : List Char} (h : piece ≠ []) (pieces : List (List Char)) :
    (joinWith sep (pieces ++ [piece])).getLast? = piece.getLast? := by
  cases pieces with
  | nil => rfl
  | cons first pieces =>
      rw [joinWith_append (List.cons_ne_nil first pieces) (List.cons_ne_nil piece [])]
      exact List.getLast?_append_of_ne_nil _ h

/-- What is joined holds characters of the pieces and of the separator. -/
theorem mem_joinWith {c : Char} {pieces : List (List Char)} (h : c ∈ joinWith sep pieces) :
    c ∈ sep ∨ ∃ piece ∈ pieces, c ∈ piece := by
  induction pieces with
  | nil => cases h
  | cons piece pieces ih =>
      cases pieces with
      | nil => exact .inr ⟨piece, List.mem_cons_self, h⟩
      | cons next pieces =>
          rw [joinWith_cons piece (List.cons_ne_nil next pieces), List.mem_append,
            List.mem_append] at h
          rcases h with (h | h) | h
          · exact .inr ⟨piece, List.mem_cons_self, h⟩
          · exact .inl h
          · exact (ih h).imp_right fun ⟨w, hw, hc⟩ => ⟨w, List.mem_cons_of_mem piece hw, hc⟩

/-- Texts joined by the library are joined character by character. -/
theorem toList_intercalate (sep : String) (ws : List String) :
    (sep.intercalate ws).toList = joinWith sep.toList (ws.map String.toList) := by
  rw [String.toList_intercalate]
  induction ws with
  | nil => rfl
  | cons w ws ih =>
      cases ws with
      | nil => simp [List.intercalate, joinWith]
      | cons next ws =>
          rw [List.map_cons, List.map_cons, List.intercalate_cons_cons, ← List.map_cons, ih,
            joinWith_cons w.toList (by simp), List.append_assoc]

end

section

variable {c : Char}

/-- **The pieces of a text joined** are the text. -/
theorem joinWith_splitAt (cs : List Char) : joinWith [c] (splitAt (· == c) cs) = cs := by
  induction cs with
  | nil => rfl
  | cons d cs ih =>
      cases hd : d == c with
      | true =>
          rw [@splitAt_cons_of_sep (· == c) d cs hd, joinWith_cons _ (splitAt_ne_nil _ cs), ih,
            eq_of_beq hd]
          rfl
      | false =>
          obtain ⟨piece, pieces, hpieces, hcons⟩ := splitAt_cons_of_not (· == c) cs hd
          rw [hpieces] at ih
          rw [hcons]
          cases pieces with
          | nil => exact congrArg (d :: ·) ih
          | cons next pieces =>
              rw [joinWith_cons _ (List.cons_ne_nil next pieces)] at ih ⊢
              exact congrArg (d :: ·) ih

/-- The pieces before a separator and those after it. -/
theorem splitAt_append_cons (as bs : List Char) :
    splitAt (· == c) (as ++ c :: bs) = splitAt (· == c) as ++ splitAt (· == c) bs :=
  @splitAt_append (· == c) c (beq_self_eq_true c) as bs

/-- A text without the separator is one piece. -/
theorem splitAt_of_not_mem {cs : List Char} (h : c ∉ cs) : splitAt (· == c) cs = [cs] :=
  splitAt_of_forall_not fun _ hd => beq_false_of_ne fun heq => h (heq ▸ hd)

/-- **The pieces of joined pieces** are the pieces, unless one of them holds the separator. -/
theorem splitAt_joinWith {ws : List (List Char)} (hne : ws ≠ []) (h : ∀ w ∈ ws, c ∉ w) :
    splitAt (· == c) (joinWith [c] ws) = ws := by
  induction ws with
  | nil => exact absurd rfl hne
  | cons w ws ih =>
      rw [List.forall_mem_cons] at h
      cases ws with
      | nil => exact splitAt_of_not_mem h.1
      | cons next ws =>
          rw [joinWith_cons w (List.cons_ne_nil next ws), List.append_assoc, List.singleton_append,
            splitAt_append_cons, splitAt_of_not_mem h.1, ih (by simp) h.2]
          rfl

/-! ## Whole pieces -/

/-- The text is empty or ends with the separator. -/
def IsStart (c : Char) (before : List Char) : Prop := before = [] ∨ ∃ cs, before = cs ++ [c]

/-- The text is empty or begins with the separator. -/
def IsEnd (c : Char) (after : List Char) : Prop := after = [] ∨ ∃ cs, after = c :: cs

/-- After some of its pieces, a text goes on with the others. -/
theorem exists_isStart {cs : List Char} {as bs : List (List Char)} (hbs : bs ≠ [])
    (h : splitAt (· == c) cs = as ++ bs) :
    ∃ before, IsStart c before ∧ cs = before ++ joinWith [c] bs := by
  rw [← joinWith_splitAt (c := c) cs, h]
  by_cases has : as = []
  · exact ⟨[], .inl rfl, by rw [has, List.nil_append, List.nil_append]⟩
  · exact ⟨_, .inr ⟨_, rfl⟩, joinWith_append has hbs⟩

/-- The pieces of what begins at a separator are among those of the text. -/
theorem exists_splitAt_eq {before : List Char} (h : IsStart c before) (cs : List Char) :
    ∃ as, splitAt (· == c) (before ++ cs) = as ++ splitAt (· == c) cs := by
  rcases h with rfl | ⟨bs, rfl⟩
  · exact ⟨[], rfl⟩
  · refine ⟨splitAt (· == c) bs, ?_⟩
    rw [List.append_assoc, List.singleton_append, splitAt_append_cons]

section

variable {ws : List (List Char)} {cs : List Char} (hne : ws ≠ []) (hws : ∀ w ∈ ws, c ∉ w)

include hne hws

/-- **What ends before a separator** is made of the first pieces, but not of all. -/
theorem isPrefix_ne_splitAt_iff :
    (ws <+: splitAt (· == c) cs ∧ ws ≠ splitAt (· == c) cs) ↔
      ∃ after, cs = joinWith [c] ws ++ c :: after := by
  constructor
  · rintro ⟨⟨rest, hrest⟩, hproper⟩
    have hsome : rest ≠ [] := by
      rintro rfl
      exact hproper (by rw [← hrest, List.append_nil])
    refine ⟨joinWith [c] rest, ?_⟩
    rw [← joinWith_splitAt (c := c) cs, ← hrest, joinWith_append hne hsome, List.append_assoc,
      List.singleton_append]
  · rintro ⟨after, rfl⟩
    rw [splitAt_append_cons, splitAt_joinWith hne hws]
    exact ⟨List.prefix_append _ _, fun h => splitAt_ne_nil _ after (by simpa using h)⟩

/-- **What ends before a separator or with the text** is made of the first pieces. -/
theorem isPrefix_splitAt_iff :
    ws <+: splitAt (· == c) cs ↔ ∃ after, IsEnd c after ∧ cs = joinWith [c] ws ++ after := by
  constructor
  · intro h
    by_cases hall : ws = splitAt (· == c) cs
    · exact ⟨[], .inl rfl, by rw [hall, joinWith_splitAt, List.append_nil]⟩
    · obtain ⟨after, hafter⟩ := (isPrefix_ne_splitAt_iff hne hws).mp ⟨h, hall⟩
      exact ⟨_, .inr ⟨after, rfl⟩, hafter⟩
  · rintro ⟨after, rfl | ⟨after, rfl⟩, rfl⟩
    · rw [List.append_nil]
      exact (splitAt_joinWith hne hws).symm ▸ List.prefix_rfl
    · exact ((isPrefix_ne_splitAt_iff hne hws).mpr ⟨after, rfl⟩).1

end

section

variable {w cs : List Char} (hw : c ∉ w)

include hw

/-- The text that begins after a separator and ends before one is a piece, but not the last. -/
theorem mem_dropLast_splitAt_iff :
    w ∈ (splitAt (· == c) cs).dropLast ↔
      ∃ before after, IsStart c before ∧ cs = before ++ (w ++ c :: after) := by
  constructor
  · intro h
    obtain ⟨as, bs, hsplit⟩ := List.append_of_mem h
    have hlast := List.dropLast_concat_getLast (splitAt_ne_nil (· == c) cs)
    rw [hsplit, List.append_assoc, List.cons_append] at hlast
    obtain ⟨before, hbefore, hcs⟩ := exists_isStart (List.cons_ne_nil w _) hlast.symm
    rw [joinWith_cons w (by simp), List.append_assoc, List.singleton_append] at hcs
    exact ⟨before, _, hbefore, hcs⟩
  · rintro ⟨before, after, hbefore, rfl⟩
    obtain ⟨as, has⟩ := exists_splitAt_eq hbefore (w ++ c :: after)
    rw [has, splitAt_append_cons, splitAt_of_not_mem hw, List.singleton_append,
      List.dropLast_append_cons,
      List.dropLast_cons_of_ne_nil (splitAt_ne_nil _ after)]
    simp

/-- **A text that begins and ends at separators**, or at the ends of the whole text, and holds none
is a piece. -/
theorem mem_splitAt_iff :
    w ∈ splitAt (· == c) cs ↔
      ∃ before after, IsStart c before ∧ IsEnd c after ∧ cs = before ++ (w ++ after) := by
  constructor
  · intro h
    obtain ⟨as, bs, hsplit⟩ := List.append_of_mem h
    obtain ⟨before, hbefore, hcs⟩ := exists_isStart (List.cons_ne_nil w bs) hsplit
    cases bs with
    | nil => exact ⟨before, [], hbefore, .inl rfl, by rw [List.append_nil]; exact hcs⟩
    | cons next bs =>
        rw [joinWith_cons w (List.cons_ne_nil next bs), List.append_assoc] at hcs
        exact ⟨before, _, hbefore, .inr ⟨_, rfl⟩, hcs⟩
  · rintro ⟨before, after, hbefore, hafter, rfl⟩
    obtain ⟨as, has⟩ := exists_splitAt_eq hbefore (w ++ after)
    have hfirst : [w] <+: splitAt (· == c) (w ++ after) :=
      (isPrefix_splitAt_iff (List.cons_ne_nil w []) (by simpa using hw)).mpr ⟨after, hafter, rfl⟩
    rw [has]
    exact List.mem_append_right as (hfirst.subset List.mem_cons_self)

end

end

end CodeSweep.Text
