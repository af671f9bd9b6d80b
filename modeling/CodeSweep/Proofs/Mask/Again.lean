/-
# Masking a mask

A mask is a text too, and masking it changes nothing more (`mask_mask`).  The second scanner does
not see the comments of the first one, which are blanks in code to it, nor its escapes, which are
blanks in a literal (`State.reread`).  It would see a literal end at a line feed that the first
scanner took along after a backslash, so no line of the text may be continued by one.
-/
import CodeSweep.Analysis.Allocation
import CodeSweep.Proofs.Mask.Code
import CodeSweep.Proofs.Suppression

namespace CodeSweep

namespace Mask

/-! ## Two scanners -/

/-- The state of a scanner that reads what a scanner in this state writes. -/
def State.reread : State → State
  | .literal quote => .literal quote
  | .escaped quote => .literal quote
  | _ => .code

/-- Just after a backslash in a literal there is no line feed. -/
def State.Unbroken (text : List Char) : State → Prop
  | .escaped _ => text.head? ≠ some '\n'
  | _ => True

/-- A step that shows nothing but a blank and does not lead to a literal, or that shows a character
in code. -/
def IsPlainStep (c : Char) (s : Char × State) : Prop :=
  s.1 = blank c ∧ s.2.reread = .code ∨ s = (c, if IsQuote c then .literal c else .code)

section

variable {style : CommentStyle} {c : Char} {rest : List Char}

/-- A blank is no quote. -/
theorem not_isQuote_blank (c : Char) : ¬ IsQuote (blank c) := by
  rw [blank]
  split <;> decide

/-- Where no comment starts, code is shown as it is. -/
theorem stepPlain_of_not_starts
    (hstart : ¬ (style.line.any (·.isPrefixOf (c :: rest)) && c != '\n') = true) :
    stepPlain style c rest = (c, if IsQuote c then .literal c else .code) := by
  unfold stepPlain
  rw [if_neg hstart]
  by_cases hquote : IsQuote c
  · rw [if_pos hquote, if_pos (by simpa [IsQuote] using hquote)]
  · rw [if_neg hquote, if_neg (by simpa [IsQuote] using hquote)]

/-- The step in code where no block comment starts. -/
theorem stepPlain_isPlainStep : IsPlainStep c (stepPlain style c rest) := by
  by_cases hstart : (style.line.any (·.isPrefixOf (c :: rest)) && c != '\n') = true
  · unfold stepPlain
    rw [if_pos hstart]
    exact .inl ⟨rfl, rfl⟩
  · exact .inr (stepPlain_of_not_starts hstart)

/-- The step in a block comment. -/
theorem stepBlock_isPlainStep {closer : List Char} {after : Char × State}
    (hafter : IsPlainStep c after) : IsPlainStep c (stepBlock closer c rest after) := by
  unfold stepBlock
  split
  · exact hafter
  · refine .inl ?_
    split
    · refine ⟨rfl, ?_⟩
      simp only
      split <;> rfl
    · exact ⟨rfl, rfl⟩

/-- The step in code. -/
theorem stepCode_isPlainStep (style : CommentStyle) (c : Char) (rest : List Char) :
    IsPlainStep c (stepCode style c rest) := by
  unfold stepCode
  split
  · exact stepPlain_isPlainStep
  · split
    · split
      · exact stepBlock_isPlainStep stepPlain_isPlainStep
      · refine .inl ⟨rfl, ?_⟩
        simp only
        split <;> rfl
    · exact stepPlain_isPlainStep

/-- The step outside of literals. -/
theorem step_isPlainStep (style : CommentStyle) (c : Char) (rest : List Char) {st : State}
    (hst : st.reread = .code) :
    IsPlainStep c (step style c rest st) := by
  cases st with
  | code => exact stepCode_isPlainStep style c rest
  | line =>
      rw [step]
      split
      · exact stepCode_isPlainStep style c rest
      · exact .inl ⟨rfl, rfl⟩
  | opening n =>
      refine .inl ⟨rfl, ?_⟩
      rw [step]
      simp only
      split <;> rfl
  | block => exact stepBlock_isPlainStep (stepCode_isPlainStep style c rest)
  | closing n =>
      refine .inl ⟨rfl, ?_⟩
      rw [step]
      simp only
      split <;> rfl
  | literal quote => cases hst
  | escaped quote => cases hst

/-- The same where block comments could start. -/
theorem stepCode_of_not_starts (hstart : ∀ d ∈ style.starters, ¬ d <+: c :: rest) :
    stepCode style c rest = (c, if IsQuote c then .literal c else .code) := by
  have hplain : stepPlain style c rest = (c, if IsQuote c then .literal c else .code) := by
    apply stepPlain_of_not_starts
    rw [Bool.and_eq_true, Option.any_eq_true]
    rintro ⟨⟨d, hd, hprefix⟩, -⟩
    exact hstart d (List.mem_append_left _ (Option.mem_toList.mpr hd))
      (List.isPrefixOf_iff_prefix.mp hprefix)
  unfold stepCode
  split
  · exact hplain
  · next opener closer hblock =>
      have hopens : ¬ opener.isPrefixOf (c :: rest) = true := by
        rw [List.isPrefixOf_iff_prefix]
        exact hstart opener (by simp [CommentStyle.starters, hblock])
      rw [if_neg hopens, hplain]

/-- A line feed in code is shown, and no literal begins there. -/
theorem stepCode_feed (style : CommentStyle) (rest : List Char) :
    (stepCode style '\n' rest).1 = '\n' ∧ (stepCode style '\n' rest).2.reread = .code := by
  rcases stepCode_isPlainStep style '\n' rest with ⟨hblank, hnext⟩ | hshown
  · exact ⟨hblank, hnext⟩
  · rw [hshown]
    exact ⟨rfl, rfl⟩

/-- A space in a literal stays. -/
theorem step_space {quote : Char} (hquote : IsQuote quote) :
    step style ' ' rest (.literal quote) = (' ', .literal quote) := by
  have hne : ' ' ≠ quote := by
    rintro rfl
    exact absurd hquote (by decide)
  rw [step, if_neg hne, if_neg (by decide), if_neg (by decide)]
  rfl

/-- **One step of both scanners.**  The second one reads what the first one writes, where no comment
starts, and writes the same. -/
theorem step_reread {st : State} (hst : st.IsQuoted) (hunbroken : st.Unbroken (c :: rest))
    {rest' : List Char}
    (hstart : ∀ d ∈ style.starters, ¬ d <+: (step style c rest st).1 :: rest') :
    step style (step style c rest st).1 rest' st.reread
      = ((step style c rest st).1, (step style c rest st).2.reread) := by
  have hcode : st.reread = .code → step style (step style c rest st).1 rest' st.reread
      = ((step style c rest st).1, (step style c rest st).2.reread) := by
    intro hreread
    rw [hreread, step, stepCode_of_not_starts hstart]
    rcases step_isPlainStep style c rest hreread with ⟨hblank, hnext⟩ | hshown
    · rw [hblank, if_neg (not_isQuote_blank c), hnext]
    · rw [hshown]
      simp only
      split <;> rfl
  cases st with
  | code => exact hcode rfl
  | line => exact hcode rfl
  | opening n => exact hcode rfl
  | block => exact hcode rfl
  | closing n => exact hcode rfl
  | literal quote =>
      have hquote : IsQuote quote := hst
      have hne : '\n' ≠ quote := by
        rintro rfl
        exact absurd hquote (by decide)
      by_cases hclose : c = quote
      · rw [hclose]
        simp [step, State.reread]
      · by_cases hfeed : c = '\n'
        · -- the literal ends with its line for both
          subst hfeed
          obtain ⟨hshown, hnext⟩ := stepCode_feed style rest
          have hstep : step style '\n' rest (.literal quote) = stepCode style '\n' rest := by
            rw [step, if_neg hne, if_pos rfl]
          rw [hstep, hshown] at hstart
          rw [hstep, hshown, hnext, State.reread, step, if_neg hne, if_pos rfl,
            stepCode_of_not_starts hstart]
          rfl
        · have hblank : blank c = ' ' := if_neg hfeed
          rw [step, if_neg hclose, if_neg hfeed, hblank]
          split <;> exact step_space hst
  | escaped quote =>
      -- the second scanner does not know that a backslash has been there
      have hfeed : c ≠ '\n' := by simpa [State.Unbroken] using hunbroken
      have hblank : blank c = ' ' := if_neg hfeed
      rw [step, hblank]
      exact step_space hst

/-- A state that is no literal to a second scanner has seen no backslash. -/
theorem State.unbroken_of_reread {st : State} (hst : st.reread = .code) (text : List Char) :
    st.Unbroken text := by
  cases st with
  | escaped quote => cases hst
  | _ => trivial

/-- Only a backslash leads to an escape. -/
theorem step_unbroken (st : State) (hbreak : c = '\\' → rest.head? ≠ some '\n') :
    (step style c rest st).2.Unbroken rest := by
  have hplain : ∀ s, IsPlainStep c s → s.2.Unbroken rest := by
    rintro s (⟨-, hnext⟩ | rfl)
    · exact State.unbroken_of_reread hnext rest
    · simp only
      split <;> trivial
  cases st with
  | literal quote =>
      rw [step]
      split
      · trivial
      · split
        · exact hplain _ (stepCode_isPlainStep _ _ _)
        · split
          · next hslash => exact hbreak hslash
          · trivial
  | escaped quote => trivial
  | _ => exact hplain _ (step_isPlainStep _ _ _ rfl)

/-- **Both scanners.**  What the second one makes of the mask is the mask. -/
theorem maskFrom_reread (hstyle : style.IsPlain) {st : State} {text : List Char}
    (hst : st.IsQuoted) (hunbroken : st.Unbroken text) (htext : ¬ ['\\', '\n'] <:+: text) :
    maskFrom style st.reread (maskFrom style st text) = maskFrom style st text := by
  induction text generalizing st with
  | nil => rfl
  | cons c rest ih =>
      rw [List.infix_cons_iff, not_or] at htext
      have hbreak : c = '\\' → rest.head? ≠ some '\n' := by
        rintro rfl hfeed
        obtain ⟨rest, rfl⟩ := List.head?_eq_some_iff.mp hfeed
        exact htext.1 (by simp)
      have hstart : ∀ d ∈ style.starters, ¬ d <+: maskFrom style st (c :: rest) :=
        fun d hd => not_isPrefix_maskFrom hstyle hst hd (c :: rest)
      rw [maskFrom] at hstart ⊢
      rw [maskFrom, step_reread hst hunbroken hstart,
        ih (step_isStep hstyle.isProper hst c rest).1 (step_unbroken st hbreak) htext.2]

end

end Mask

/-- **Masking twice** is masking once, where no backslash stands at the end of a line. -/
theorem mask_mask {style : CommentStyle} (hstyle : style.IsPlain) {text : List Char}
    (htext : ¬ ['\\', '\n'] <:+: text) : mask style (mask style text) = mask style text :=
  Mask.maskFrom_reread hstyle Mask.State.isQuoted_code trivial htext

/-- **The analysis of allocations** looks at the mask only.  Masking is idempotent where no
backslash stands at the end of a line, so there the contents of comments and literals do not matter
to the analysis: it reports the same for the text without them. -/
theorem Allocation.unchecked_mask {text : List Char} (htext : ¬ ['\\', '\n'] <:+: text) :
    mask .slashes (mask .slashes text) = mask .slashes text ∧
      unchecked (mask .slashes text) = unchecked text ∧
      ∀ text', mask .slashes text' = mask .slashes text → unchecked text' = unchecked text := by
  have hmask : mask .slashes (mask .slashes text) = mask .slashes text :=
    mask_mask (by decide) htext
  have hunchecked : ∀ text', mask .slashes text' = mask .slashes text →
      unchecked text' = unchecked text := by
    intro text' h
    rw [unchecked, unchecked, h]
  exact ⟨hmask, hunchecked _ hmask, hunchecked⟩

-- an escaped line feed stays in the mask, and the backslash before it does not
example : mask .slashes (mask .slashes "\"a\\\n\"b\"".toList)
    ≠ mask .slashes "\"a\\\n\"b\"".toList := by
  decide

/-- An allocation with delimiters in a literal and a test in a comment. -/
def commentedAllocation : List Char := "p = strdup(\"\\\" /*\"); /* if (p) */\n*p = 1;".toList

/-- What the mask leaves of it. -/
def maskedAllocation : List Char := "p = strdup(\"     \");             \n*p = 1;".toList

/-- The analysis reports the same for both. -/
theorem Allocation.unchecked_mask_commented :
    ¬ ['\\', '\n'] <:+: commentedAllocation ∧
    mask .slashes commentedAllocation = maskedAllocation ∧
    mask .slashes maskedAllocation = maskedAllocation ∧
    unchecked maskedAllocation = unchecked commentedAllocation := by
  have htext : ¬ ['\\', '\n'] <:+: commentedAllocation := by
    rw [← Text.occursIn_iff]
    decide
  have hmask : mask .slashes commentedAllocation = maskedAllocation := by decide
  obtain ⟨hagain, hsame, -⟩ := unchecked_mask htext
  rw [hmask] at hagain hsame
  exact ⟨htext, hmask, hagain, hsame⟩

end CodeSweep
