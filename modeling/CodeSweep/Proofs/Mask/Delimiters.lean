/-
# No comment is left in a mask

A mask has the length of its text, and each of its characters is that of the text or a space in
place of it; line feeds stay.  So a word without spaces that stands in the mask stands at the same
place of the text.  Where a delimiter starts a comment the mask is blank, whatever the state of the
scanner is there (`step_isStep`), so none of the delimiters that start comments stands anywhere in
the mask (`not_isInfix_maskFrom`).
-/
import CodeSweep.Proofs.Analysis.Spans
import CodeSweep.Proofs.Mask.Turns
import CodeSweep.Proofs.Text.Position

namespace CodeSweep

/-- A quote that encloses literals. -/
def Mask.IsQuote (c : Char) : Prop := c = '"' ∨ c = '\''

instance (c : Char) : Decidable (Mask.IsQuote c) :=
  inferInstanceAs (Decidable (c = '"' ∨ c = '\''))

/-- No delimiter is empty or holds a space, a line feed or a quote. -/
def CommentStyle.IsPlain (style : CommentStyle) : Prop :=
  ∀ d ∈ style.delimiters, d ≠ [] ∧ ∀ c ∈ d, c ≠ ' ' ∧ c ≠ '\n' ∧ ¬ Mask.IsQuote c

-- a general search for instances would go through all characters instead of those of a delimiter
instance (style : CommentStyle) : Decidable style.IsPlain :=
  @List.decidableBAll _ _ (fun d => @instDecidableAnd _ _ _ (List.decidableBAll _ d)) _

/-- Plain delimiters say something. -/
theorem CommentStyle.IsPlain.isProper {style : CommentStyle} (h : style.IsPlain) :
    style.IsProper where
  ne_nil := fun d hd => (h d hd).1
  ne_line_feed := by
    intro d hd hhead
    obtain ⟨-, hchars⟩ := h d (by simp [delimiters, starters, Option.mem_def.mp hd])
    exact (hchars '\n' (List.mem_of_mem_head? hhead)).2.1 rfl

namespace Mask

/-! ## One step -/

/-- A literal is enclosed by quotes. -/
def State.IsQuoted : State → Prop
  | .literal quote => IsQuote quote
  | .escaped quote => IsQuote quote
  | _ => True

/-- Code is no literal. -/
theorem State.isQuoted_code : State.code.IsQuoted := trivial

/-- What one step makes of `c` before `rest`: a blank, or `c` itself if that is a quote or a line
feed or no comment starts there. -/
def IsStep (style : CommentStyle) (c : Char) (rest : List Char) (s : Char × State) : Prop :=
  s.2.IsQuoted ∧
    (s.1 = blank c ∨
      s.1 = c ∧ (IsQuote c ∨ c = '\n' ∨ ∀ d ∈ style.starters, ¬ d <+: c :: rest))

section

variable {style : CommentStyle} {c : Char} {rest : List Char}

/-- The step in code where no block comment starts. -/
theorem stepPlain_isStep (hblock : ∀ b ∈ style.block, ¬ b.1 <+: c :: rest) :
    IsStep style c rest (stepPlain style c rest) := by
  unfold stepPlain
  by_cases hcomment : (style.line.any (·.isPrefixOf (c :: rest)) && c != '\n') = true
  · rw [if_pos hcomment]
    exact ⟨trivial, .inl rfl⟩
  · rw [if_neg hcomment]
    by_cases hquote : IsQuote c
    · rw [if_pos (by simpa [IsQuote] using hquote)]
      exact ⟨hquote, .inr ⟨rfl, .inl hquote⟩⟩
    · rw [if_neg (by simpa [IsQuote] using hquote)]
      refine ⟨trivial, .inr ⟨rfl, .inr ?_⟩⟩
      by_cases hfeed : c = '\n'
      · exact .inl hfeed
      · right
        intro d hd hprefix
        rcases List.mem_append.mp hd with hd | hd
        · apply hcomment
          rw [Option.mem_toList] at hd
          simp [Option.mem_def.mp hd, hprefix, hfeed]
        · obtain ⟨b, hb, rfl⟩ := List.mem_map.mp hd
          exact hblock b (Option.mem_toList.mp hb) hprefix

/-- The step in code. -/
theorem stepCode_isStep (hstyle : style.IsProper) :
    IsStep style c rest (stepCode style c rest) := by
  unfold stepCode
  cases hblock : style.block with
  | none =>
      apply stepPlain_isStep
      simp [hblock]
  | some b =>
      obtain ⟨opener, closer⟩ := b
      simp only
      by_cases hopens : opener.isPrefixOf (c :: rest) = true
      · have hopener : opener ≠ [] :=
          hstyle.ne_nil _ (by simp [CommentStyle.delimiters, CommentStyle.starters, hblock])
        obtain ⟨o, more, rfl⟩ := List.exists_cons_of_ne_nil hopener
        rw [if_pos hopens]
        refine ⟨?_, .inl rfl⟩
        simp only
        split <;> trivial
      · rw [if_neg hopens]
        apply stepPlain_isStep
        intro b hb hprefix
        obtain rfl : (opener, closer) = b := Option.some.inj (hblock.symm.trans hb)
        exact hopens (List.isPrefixOf_iff_prefix.mpr hprefix)

/-- **The step in any state.** -/
theorem step_isStep (hstyle : style.IsProper) {st : State} (hst : st.IsQuoted) (c : Char)
    (rest : List Char) :
    IsStep style c rest (step style c rest st) := by
  cases st with
  | code => exact stepCode_isStep hstyle
  | line =>
      rw [step]
      split
      · exact stepCode_isStep hstyle
      · exact ⟨trivial, .inl rfl⟩
  | opening n =>
      refine ⟨?_, .inl rfl⟩
      rw [step]
      split <;> trivial
  | block =>
      rw [step]
      unfold stepBlock
      split
      · exact stepCode_isStep hstyle
      · split
        · refine ⟨?_, .inl rfl⟩
          simp only
          split <;> trivial
        · exact ⟨trivial, .inl rfl⟩
  | closing n =>
      refine ⟨?_, .inl rfl⟩
      rw [step]
      split <;> trivial
  | literal quote =>
      rw [step]
      by_cases hquote : c = quote
      · rw [if_pos hquote]
        exact ⟨trivial, .inr ⟨rfl, .inl (hquote ▸ hst)⟩⟩
      · rw [if_neg hquote]
        split
        · exact stepCode_isStep hstyle
        · split <;> exact ⟨hst, .inl rfl⟩
  | escaped quote => exact ⟨hst, .inl rfl⟩

end

/-! ## The whole text -/

section

variable {style : CommentStyle}

/-- A character of the text stays, or it is no line feed and becomes a space. -/
theorem getElem?_maskFrom (hstyle : style.IsProper) {st : State} (hst : st.IsQuoted)
    {text : List Char} {k : Nat} {c : Char} (hc : text[k]? = some c) :
    (maskFrom style st text)[k]? = some c ∨
      (maskFrom style st text)[k]? = some ' ' ∧ c ≠ '\n' := by
  induction text generalizing st k with
  | nil => simp at hc
  | cons x rest ih =>
      have hstep := step_isStep hstyle hst x rest
      rw [maskFrom]
      cases k with
      | zero =>
          obtain rfl : x = c := by simpa using hc
          rw [List.getElem?_cons_zero]
          rcases hstep.2 with hblank | ⟨hsame, -⟩
          · rw [hblank, blank]
            by_cases hfeed : x = '\n'
            · simp [hfeed]
            · simp [hfeed]
          · exact .inl (congrArg some hsame)
      | succ k =>
          rw [List.getElem?_cons_succ]
          exact ih hstep.1 (by simpa using hc)

/-- Line feeds stand in the mask where they stand in the text, so every offset has the same
position. -/
theorem advance_maskFrom (hstyle : style.IsProper) {st : State} (hst : st.IsQuoted)
    (p : Position) (text : List Char) (n : Nat) :
    p.advance (maskFrom style st text) n = p.advance text n := by
  induction text generalizing st p n with
  | nil => rfl
  | cons x rest ih =>
      have hstep := step_isStep hstyle hst x rest
      rw [maskFrom]
      cases n with
      | zero => simp
      | succ n =>
          have hnext : p.next (step style x rest st).1 = p.next x := by
            rcases hstep.2 with hblank | ⟨hsame, -⟩
            · rw [hblank, blank]
              by_cases hfeed : x = '\n'
              · simp [hfeed]
              · simp [hfeed, Position.next]
            · rw [hsame]
          rw [Position.advance_cons_succ, Position.advance_cons_succ, hnext]
          exact ih hstep.1 _ n

/-- A word without spaces that begins the mask begins the text. -/
theorem isPrefix_of_isPrefix_maskFrom (hstyle : style.IsProper) {st : State} (hst : st.IsQuoted)
    {word text : List Char} (hspace : ' ' ∉ word) (h : word <+: maskFrom style st text) :
    word <+: text := by
  induction text generalizing st word with
  | nil => simpa [maskFrom] using h
  | cons x rest ih =>
      have hstep := step_isStep hstyle hst x rest
      cases word with
      | nil => exact List.nil_prefix
      | cons w ws =>
          rw [maskFrom, List.cons_prefix_cons] at h
          rw [List.mem_cons, not_or] at hspace
          have hx : w = x := by
            rw [h.1]
            rcases hstep.2 with hblank | ⟨hsame, -⟩
            · rw [hblank, blank]
              by_cases hfeed : x = '\n'
              · rw [if_pos hfeed, hfeed]
              · rw [hblank, blank, if_neg hfeed] at h
                exact absurd h.1.symm hspace.1
            · exact hsame
          exact List.cons_prefix_cons.mpr ⟨hx, ih hstep.1 hspace.2 h.2⟩

/-- **No comment starts a mask.**  A mask does not begin with a delimiter that starts comments. -/
theorem not_isPrefix_maskFrom (hstyle : style.IsPlain) {st : State} (hst : st.IsQuoted)
    {d : List Char} (hd : d ∈ style.starters) (text : List Char) :
    ¬ d <+: maskFrom style st text := by
  intro h
  obtain ⟨hne, hchars⟩ := hstyle d (List.mem_append_left _ hd)
  have htext := isPrefix_of_isPrefix_maskFrom hstyle.isProper hst
    (fun hspace => (hchars _ hspace).1 rfl) h
  obtain ⟨w, ws, rfl⟩ := List.exists_cons_of_ne_nil hne
  cases text with
  | nil => simp at htext
  | cons x rest =>
      have hstep := step_isStep hstyle.isProper hst x rest
      obtain rfl : w = x := (List.cons_prefix_cons.mp htext).1
      obtain ⟨hspace, hfeed, hquote⟩ := hchars w List.mem_cons_self
      rw [maskFrom, List.cons_prefix_cons] at h
      rcases hstep.2 with hblank | ⟨-, h' | h' | h'⟩
      · -- the delimiter would begin with the space that the scanner writes
        rw [hblank, blank, if_neg hfeed] at h
        exact hspace h.1
      · exact hquote h'
      · exact hfeed h'
      · exact h' _ hd htext

/-- **No comment is left in a mask**, wherever the scanner begins. -/
theorem not_isInfix_maskFrom (hstyle : style.IsPlain) {st : State} (hst : st.IsQuoted)
    {d : List Char} (hd : d ∈ style.starters) (text : List Char) :
    ¬ d <:+: maskFrom style st text := by
  induction text generalizing st with
  | nil =>
      rw [maskFrom, List.infix_nil]
      exact (hstyle d (List.mem_append_left _ hd)).1
  | cons x rest ih =>
      have hfirst := not_isPrefix_maskFrom hstyle hst hd (x :: rest)
      rw [maskFrom] at hfirst ⊢
      rw [List.infix_cons_iff, not_or]
      exact ⟨hfirst, ih (step_isStep hstyle.isProper hst x rest).1⟩

end

end Mask

/-- **What a mask is.**  If no delimiter is empty or holds a space, a line feed or a quote, the
reader of pieces comes to an end on every text and writes the mask; the mask is as long as the text
and has the characters of the text, but for spaces in place of some that are no line feeds, so that
every offset has the same position in both; and no delimiter that starts comments stands in it. -/
theorem mask_blanks_comments (style : CommentStyle) (hstyle : style.IsPlain) (text : List Char) :
    (∀ out, Mask.Scans style text out ↔ out = mask style text) ∧
    (mask style text).length = text.length ∧
    (∀ (k : Nat) (c : Char), text[k]? = some c →
      (mask style text)[k]? = some c ∨ (mask style text)[k]? = some ' ' ∧ c ≠ '\n') ∧
    (∀ n, Position.ofOffset (mask style text) n = Position.ofOffset text n) ∧
    ∀ d ∈ style.starters, ¬ d <:+: mask style text := by
  refine ⟨Mask.scans_iff hstyle.isProper text, length_mask style text, ?_, ?_, ?_⟩
  · intro k c hc
    exact Mask.getElem?_maskFrom hstyle.isProper Mask.State.isQuoted_code hc
  · intro n
    exact Mask.advance_maskFrom hstyle.isProper Mask.State.isQuoted_code _ text n
  · intro d hd
    exact Mask.not_isInfix_maskFrom hstyle Mask.State.isQuoted_code hd text

/-- A text with delimiters and an escaped quote in a literal, and with quotes in comments. -/
def mixedText : List Char := "s = \"/* \\\" //\"; // it's\n/* \" */ t".toList

/-- In its mask only the code, the quotes of the literal and the line feed are left. -/
theorem mask_blanks_comments_mixed :
    CommentStyle.slashes.IsPlain ∧
    Mask.Scans .slashes mixedText "s = \"        \";        \n        t".toList ∧
    (mask .slashes mixedText).length = 33 ∧
    (∀ n, Position.ofOffset (mask .slashes mixedText) n = Position.ofOffset mixedText n) ∧
    ∀ d ∈ ["//".toList, "/*".toList], ¬ d <:+: mask .slashes mixedText := by
  have hplain : CommentStyle.slashes.IsPlain := by decide
  obtain ⟨hscans, hlength, -, hposition, hstarters⟩ :=
    mask_blanks_comments .slashes hplain mixedText
  exact ⟨hplain, (hscans _).mpr (by decide), hlength, hposition, hstarters⟩

end CodeSweep
