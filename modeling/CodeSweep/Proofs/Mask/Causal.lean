/-
# Masks do not look far ahead

Whether a comment starts at a place depends on as many characters as the longest delimiter that
starts comments has.  The end of a block comment may be told only later, but all before it is blank
in any case.  So two texts that begin alike have masks that begin alike, up to the last few
characters of the common beginning: no edit further down changes how earlier text is masked
(`take_mask_eq`).

Two runs of the scanner over such texts are in the same state or, once one of them has seen a
closing delimiter that the other one does not see, in states that write blanks up to the end of what
the texts have in common (`State.Blanks`).
-/
import CodeSweep.Proofs.Mask.Turns

namespace CodeSweep

namespace CommentStyle

/-- How many characters tell what becomes of the first of them: as many as the longest delimiter
that starts comments has, and at least one. -/
def lookahead (style : CommentStyle) : Nat :=
  style.starters.foldr (fun d n => if n ≤ d.length then d.length else n) 1

/-- The closing delimiter of block comments. -/
def closer (style : CommentStyle) : List Char := (style.block.map (·.2)).getD []

/-- No delimiter that starts comments is longer. -/
theorem length_le_lookahead {style : CommentStyle} {d : List Char} (hd : d ∈ style.starters) :
    d.length ≤ style.lookahead := by
  unfold lookahead
  generalize style.starters = starters at hd
  induction starters with
  | nil => simp at hd
  | cons x xs ih =>
      rw [List.foldr_cons]
      rcases List.mem_cons.mp hd with rfl | hd
      · split <;> omega
      · have := ih hd
        split <;> omega

end CommentStyle

namespace Mask

variable {style : CommentStyle}

/-! ## Blanks whatever follows -/

/-- The scanner writes blanks for at least `n` more characters, whatever they are: it is in a block
comment whose closing delimiter is longer, or has more of that delimiter to come. -/
def State.Blanks (style : CommentStyle) (n : Nat) : State → Prop
  | .block => n < style.closer.length
  | .closing k => n < k
  | _ => False

/-- Such a state writes a blank and has one less to write. -/
theorem step_of_blanks {st : State} {n : Nat} (hst : st.Blanks style (n + 1)) (c : Char)
    (rest : List Char) :
    (step style c rest st).1 = blank c ∧ (step style c rest st).2.Blanks style n := by
  cases st with
  | block =>
      have hlength : n + 1 < style.closer.length := hst
      show (stepBlock style.closer c rest _).1 = _ ∧ (stepBlock style.closer c rest _).2.Blanks _ _
      cases hcloser : style.closer with
      | nil => simp [hcloser] at hlength
      | cons d more =>
          have hmore : n < more.length := by simpa [hcloser] using hlength
          unfold stepBlock
          simp only
          split
          · have hne : ¬ more.isEmpty = true := by
              intro h
              simp [List.isEmpty_iff.mp h] at hmore
            rw [if_neg hne]
            exact ⟨rfl, hmore⟩
          · exact ⟨rfl, Nat.lt_of_succ_lt hlength⟩
  | closing k =>
      have hk : n + 1 < k := hst
      rw [step, if_neg (by omega)]
      exact ⟨rfl, show n < k - 1 by omega⟩
  | code => exact hst.elim
  | line => exact hst.elim
  | opening k => exact hst.elim
  | literal quote => exact hst.elim
  | escaped quote => exact hst.elim

/-- What such a state makes of the next characters does not depend on what follows them. -/
theorem take_maskFrom_of_blanks {st : State} {xs : List Char} (hst : st.Blanks style xs.length)
    (ys : List Char) :
    (maskFrom style st (xs ++ ys)).take xs.length = xs.map blank := by
  induction xs generalizing st with
  | nil => rfl
  | cons x xs ih =>
      obtain ⟨hblank, hnext⟩ := step_of_blanks hst x (xs ++ ys)
      rw [List.cons_append, maskFrom, List.length_cons, List.take_succ_cons, hblank, ih hnext,
        List.map_cons]

/-! ## Two runs -/

/-- Two steps agree: they write the same and lead to the same state, or to two states that both
write blanks for the next `n` characters. -/
def Agree (style : CommentStyle) (n : Nat) (s s' : Char × State) : Prop :=
  s.1 = s'.1 ∧ (s.2 = s'.2 ∨ s.2.Blanks style n ∧ s'.2.Blanks style n)

section

/-- A word that is no longer than what two texts have in common starts both or neither. -/
theorem isPrefixOf_append_eq (xs ys zs : List Char) {d : List Char} (hd : d.length ≤ xs.length) :
    d.isPrefixOf (xs ++ ys) = d.isPrefixOf (xs ++ zs) := by
  have hleft : ∀ ws : List Char, d.isPrefixOf (xs ++ ws) = d.isPrefixOf xs := by
    intro ws
    rw [Bool.eq_iff_iff, List.isPrefixOf_iff_prefix, List.isPrefixOf_iff_prefix]
    constructor
    · intro h
      exact List.prefix_of_prefix_length_le h (List.prefix_append xs ws) hd
    · intro h
      exact h.trans (List.prefix_append xs ws)
  rw [hleft, hleft]

variable {c : Char} {xs : List Char} (ys zs : List Char)

/-- Steps in a block comment agree if those after an empty closing delimiter do. -/
theorem stepBlock_agree {after after' : Char × State}
    (hafter : Agree style xs.length after after') :
    Agree style xs.length (stepBlock style.closer c (xs ++ ys) after)
      (stepBlock style.closer c (xs ++ zs) after') := by
  unfold stepBlock
  cases hcloser : style.closer with
  | nil => exact hafter
  | cons d more =>
      simp only
      by_cases hlength : (d :: more).length ≤ (c :: xs).length
      · -- both runs see the whole closing delimiter, if there is one
        have hsame := isPrefixOf_append_eq (c :: xs) ys zs hlength
        rw [List.cons_append, List.cons_append] at hsame
        rw [hsame]
        exact ⟨rfl, .inl rfl⟩
      · -- one run may see a closing delimiter, but it ends after the common part
        have hmore : xs.length < more.length := by simpa using hlength
        have hne : ¬ more.isEmpty = true := by
          intro h
          simp [List.isEmpty_iff.mp h] at hmore
        have hblock : State.block.Blanks style xs.length := by
          show xs.length < style.closer.length
          rw [hcloser, List.length_cons]
          omega
        have hclosing : (State.closing more.length).Blanks style xs.length := hmore
        rw [if_neg hne]
        split <;> split <;> exact ⟨rfl, .inr ⟨by assumption, by assumption⟩⟩

/-- Steps in code agree if no delimiter that starts comments is longer than the common part. -/
theorem stepPlain_agree (hlook : ∀ d ∈ style.starters, d.length ≤ (c :: xs).length) :
    stepPlain style c (xs ++ ys) = stepPlain style c (xs ++ zs) := by
  have hline : style.line.any (·.isPrefixOf (c :: (xs ++ ys)))
      = style.line.any (·.isPrefixOf (c :: (xs ++ zs))) := by
    cases hstyle : style.line with
    | none => rfl
    | some d =>
        have hlength := hlook d (by simp [CommentStyle.starters, hstyle])
        exact isPrefixOf_append_eq (c :: xs) ys zs hlength
  unfold stepPlain
  rw [hline]

theorem stepCode_agree (hlook : ∀ d ∈ style.starters, d.length ≤ (c :: xs).length) :
    Agree style xs.length (stepCode style c (xs ++ ys)) (stepCode style c (xs ++ zs)) := by
  have hplain : Agree style xs.length (stepPlain style c (xs ++ ys))
      (stepPlain style c (xs ++ zs)) := by
    rw [stepPlain_agree ys zs hlook]
    exact ⟨rfl, .inl rfl⟩
  unfold stepCode
  cases hstyle : style.block with
  | none => exact hplain
  | some b =>
      obtain ⟨opener, closer⟩ := b
      have hcloser : style.closer = closer := by simp [CommentStyle.closer, hstyle]
      have hsame := isPrefixOf_append_eq (c :: xs) ys zs
        (hlook opener (by simp [CommentStyle.starters, hstyle]))
      rw [List.cons_append, List.cons_append] at hsame
      simp only
      rw [hsame]
      split
      · cases opener with
        | nil =>
            rw [← hcloser]
            exact stepBlock_agree ys zs hplain
        | cons o more => exact ⟨rfl, .inl rfl⟩
      · exact hplain

/-- **One step of two runs** from the same state. -/
theorem step_agree (hlook : ∀ d ∈ style.starters, d.length ≤ (c :: xs).length) (st : State) :
    Agree style xs.length (step style c (xs ++ ys) st) (step style c (xs ++ zs) st) := by
  have hcode := stepCode_agree ys zs hlook
  cases st with
  | code => exact hcode
  | line =>
      rw [step, step]
      split
      · exact hcode
      · exact ⟨rfl, .inl rfl⟩
  | opening n => exact ⟨rfl, .inl rfl⟩
  | block => exact stepBlock_agree ys zs hcode
  | closing n => exact ⟨rfl, .inl rfl⟩
  | literal quote =>
      rw [step, step]
      split
      · exact ⟨rfl, .inl rfl⟩
      · split
        · exact hcode
        · exact ⟨rfl, .inl rfl⟩
  | escaped quote => exact ⟨rfl, .inl rfl⟩

end

/-- **Two runs** from the same state over texts that begin alike. -/
theorem take_maskFrom_append_eq (style : CommentStyle) (st : State) (xs ys zs : List Char) :
    (maskFrom style st (xs ++ ys)).take (xs.length - (style.lookahead - 1))
      = (maskFrom style st (xs ++ zs)).take (xs.length - (style.lookahead - 1)) := by
  induction xs generalizing st with
  | nil => simp
  | cons x xs ih =>
      by_cases hlook : style.lookahead ≤ xs.length + 1
      · have hstep : Agree style xs.length (step style x (xs ++ ys) st)
            (step style x (xs ++ zs) st) :=
          step_agree ys zs
            (fun d hd => Nat.le_trans (CommentStyle.length_le_lookahead hd) hlook) st
        obtain ⟨hwrite, hstates⟩ := hstep
        have hcount : (x :: xs).length - (style.lookahead - 1)
            = xs.length - (style.lookahead - 1) + 1 := by
          rw [List.length_cons]
          omega
        rw [hcount, List.cons_append, List.cons_append, maskFrom, maskFrom, List.take_succ_cons,
          List.take_succ_cons, hwrite]
        congr 1
        rcases hstates with hsame | ⟨hblanks, hblanks'⟩
        · rw [hsame]
          exact ih _
        · have hle : xs.length - (style.lookahead - 1) ≤ xs.length := Nat.sub_le _ _
          rw [← Nat.min_eq_left hle, ← List.take_take, ← List.take_take,
            take_maskFrom_of_blanks hblanks, take_maskFrom_of_blanks hblanks']
      · -- the common part is too short to tell anything
        have hzero : (x :: xs).length - (style.lookahead - 1) = 0 := by
          rw [List.length_cons]
          omega
        rw [hzero, List.take_zero, List.take_zero]

end Mask

/-- **Causality.**  If two texts have the same first `m` characters, their masks have the same first
characters, up to as many fewer as the scanner looks ahead. -/
theorem take_mask_eq (style : CommentStyle) (text text' : List Char) (m : Nat)
    (h : text.take m = text'.take m) :
    (mask style text).take (m - (style.lookahead - 1))
      = (mask style text').take (m - (style.lookahead - 1)) := by
  by_cases hm : m ≤ text.length
  · have hcommon := Mask.take_maskFrom_append_eq style .code (text.take m)
      (text.drop m) (text'.drop m)
    rw [List.length_take, Nat.min_eq_left hm, List.take_append_drop, h,
      List.take_append_drop] at hcommon
    exact hcommon
  · -- a text that ends before place `m` is the whole of what the texts have in common
    have hlength := congrArg List.length h
    rw [List.length_take, List.length_take] at hlength
    have hsame : text = text' := by
      rwa [List.take_of_length_le (by omega), List.take_of_length_le (by omega)] at h
    rw [hsame]

example : CommentStyle.hashOrBegin.lookahead = 6 := by decide

/-- The common part of these two texts ends with the star of a closing delimiter in one of them, and
just before it in the other, where a literal follows.  The masks differ, but not there. -/
theorem take_mask_eq_closing :
    "a /* \" */ b".toList.take 8 = "a /* \" **/\"b".toList.take 8 ∧
    (mask .slashes "a /* \" */ b".toList).take 7
      = (mask .slashes "a /* \" **/\"b".toList).take 7 ∧
    mask .slashes "a /* \" */ b".toList ≠ mask .slashes "a /* \" **/\"b".toList := by
  have hcommon : "a /* \" */ b".toList.take 8 = "a /* \" **/\"b".toList.take 8 := by decide
  exact ⟨hcommon, take_mask_eq .slashes _ _ 8 hcommon, by decide⟩

end CodeSweep
