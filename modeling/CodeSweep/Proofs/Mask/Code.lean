/-
# What stands in code

Whether a place stands in code, in a comment or in a literal is told by the state in which the
scanner comes to it (`stateAt`).  A character that the mask shows, other than a space, a line feed
or a quote, stands in code, and code goes on after it (`inCode_of_getElem?_mask`).

Where code goes on, a character becomes blank only as the first one of a delimiter that starts a
comment (`isPrefix_of_inCode`), and before code only as the last one of a delimiter that ends one
(`getLast?_of_inCode`).  Neither is a word character after slashes and stars, so an identifier that
stands whole in the mask stands whole in the text (`IsIdentifier.of_mask`).
-/
import CodeSweep.Proofs.Mask.Causal
import CodeSweep.Proofs.Mask.Delimiters
import CodeSweep.Proofs.Text.Slice

namespace CodeSweep

namespace Mask

/-! ## The state at a place -/

/-- The state in which the scanner comes to place `k` of what follows. -/
def stateAt (style : CommentStyle) : State → List Char → (k : Nat) → State
  | st, _, 0 => st
  | st, [], _ + 1 => st
  | st, c :: rest, k + 1 => stateAt style (step style c rest st).2 rest k

variable {style : CommentStyle}

/-- The scanner goes on from a place with the character there. -/
theorem stateAt_succ {st : State} {text : List Char} {k : Nat} {c : Char}
    (hc : text[k]? = some c) :
    stateAt style st text (k + 1)
      = (step style c (text.drop (k + 1)) (stateAt style st text k)).2 := by
  induction text generalizing st k with
  | nil => simp at hc
  | cons x rest ih =>
      cases k with
      | zero =>
          obtain rfl : x = c := by simpa using hc
          simp [stateAt]
      | succ k =>
          rw [stateAt, stateAt, List.drop_succ_cons]
          exact ih (by simpa using hc)

/-- What becomes of a character is told by the state at its place. -/
theorem getElem?_maskFrom_eq {st : State} {text : List Char} {k : Nat} {c : Char}
    (hc : text[k]? = some c) :
    (maskFrom style st text)[k]?
      = some (step style c (text.drop (k + 1)) (stateAt style st text k)).1 := by
  induction text generalizing st k with
  | nil => simp at hc
  | cons x rest ih =>
      rw [maskFrom]
      cases k with
      | zero =>
          obtain rfl : x = c := by simpa using hc
          simp [stateAt]
      | succ k =>
          rw [List.getElem?_cons_succ, stateAt, List.drop_succ_cons]
          exact ih (by simpa using hc)

/-! ## What the state knows -/

/-- What is known in a state: quotes enclose literals, block comments can be closed, and inside the
delimiter that closes one the rest of it follows. -/
def State.Fits (style : CommentStyle) (text : List Char) : State → Prop
  | .opening _ => style.closer ≠ []
  | .block => style.closer ≠ []
  | .closing n => 0 < n ∧ ∃ before after, style.closer = before ++ after ∧ after.length = n ∧
      after <+: text
  | .literal quote => IsQuote quote
  | .escaped quote => IsQuote quote
  | _ => True

section

variable {c : Char} {rest : List Char}

/-- A character in code becomes blank where a comment starts, opens a literal, or stays in code. -/
theorem stepPlain_cases :
    ((∃ d ∈ style.starters, d <+: c :: rest) ∧ stepPlain style c rest = (blank c, .line)) ∨
      (IsQuote c ∧ stepPlain style c rest = (c, .literal c)) ∨
        stepPlain style c rest = (c, .code) := by
  unfold stepPlain
  split
  · next hline =>
      rw [Bool.and_eq_true, Option.any_eq_true] at hline
      obtain ⟨⟨d, hd, hprefix⟩, -⟩ := hline
      refine .inl ⟨⟨d, ?_, List.isPrefixOf_iff_prefix.mp hprefix⟩, rfl⟩
      exact List.mem_append_left _ (Option.mem_toList.mpr hd)
  · split
    · next hquote => exact .inr (.inl ⟨by simpa [IsQuote] using hquote, rfl⟩)
    · exact .inr (.inr rfl)

/-- The same where block comments may start. -/
theorem stepCode_cases (hstyle : style.IsProper) (c : Char) (rest : List Char) :
    ((∃ d ∈ style.starters, d <+: c :: rest) ∧ (stepCode style c rest).1 = blank c ∧
        (stepCode style c rest).2 ≠ .code ∧ (stepCode style c rest).2.Fits style rest) ∨
      (IsQuote c ∧ stepCode style c rest = (c, .literal c)) ∨
        stepCode style c rest = (c, .code) := by
  have hplain : ((∃ d ∈ style.starters, d <+: c :: rest) ∧
        (stepPlain style c rest).1 = blank c ∧ (stepPlain style c rest).2 ≠ .code ∧
          (stepPlain style c rest).2.Fits style rest) ∨
      (IsQuote c ∧ stepPlain style c rest = (c, .literal c)) ∨
        stepPlain style c rest = (c, .code) := by
    refine stepPlain_cases.imp_left ?_
    rintro ⟨hstart, hstep⟩
    rw [hstep]
    exact ⟨hstart, rfl, State.noConfusion, trivial⟩
  unfold stepCode
  cases hblock : style.block with
  | none => exact hplain
  | some b =>
      obtain ⟨opener, closer⟩ := b
      have hmem : opener ∈ style.starters := by simp [CommentStyle.starters, hblock]
      have hopener : opener ≠ [] := hstyle.ne_nil _ (List.mem_append_left _ hmem)
      have hcloser : style.closer ≠ [] := by
        have hne : closer ≠ [] := hstyle.ne_nil _ (by simp [CommentStyle.delimiters, hblock])
        simpa [CommentStyle.closer, hblock] using hne
      obtain ⟨o, more, rfl⟩ := List.exists_cons_of_ne_nil hopener
      simp only
      split
      · next hprefix =>
          refine .inl ⟨⟨_, hmem, List.isPrefixOf_iff_prefix.mp hprefix⟩, rfl, ?_, ?_⟩
          · simp only
            split <;> exact State.noConfusion
          · simp only
            split <;> exact hcloser
      · exact hplain

/-- The step in code. -/
theorem stepCode_fits (hstyle : style.IsProper) : (stepCode style c rest).2.Fits style rest := by
  rcases stepCode_cases hstyle c rest with ⟨-, -, -, h⟩ | ⟨hquote, h⟩ | h
  · exact h
  · rw [h]
    exact hquote
  · rw [h]
    trivial

/-- **A step keeps** what is known. -/
theorem step_fits (hstyle : style.IsProper) {st : State} (hst : st.Fits style (c :: rest)) :
    (step style c rest st).2.Fits style rest := by
  have hcode : (stepCode style c rest).2.Fits style rest := stepCode_fits hstyle
  cases st with
  | code => exact hcode
  | line =>
      rw [step]
      split
      · exact hcode
      · trivial
  | opening n =>
      rw [step]
      simp only
      split <;> exact hst
  | block =>
      obtain ⟨d, more, hcloser⟩ := List.exists_cons_of_ne_nil hst
      show (stepBlock style.closer c rest _).2.Fits style rest
      rw [hcloser, stepBlock]
      split
      · next hprefix =>
          simp only
          split
          · trivial
          · next hmore =>
              -- the first character of the delimiter has been read
              refine ⟨List.length_pos_iff.mpr (by simpa using hmore), [d], more, ?_, rfl, ?_⟩
              · rw [hcloser, List.singleton_append]
              · exact (List.cons_prefix_cons.mp (List.isPrefixOf_iff_prefix.mp hprefix)).2
      · exact hst
  | closing n =>
      obtain ⟨hpos, before, after, hcloser, hlength, hprefix⟩ := hst
      rw [step]
      simp only
      split
      · trivial
      · obtain ⟨d, more, rfl⟩ := List.exists_cons_of_length_pos (hlength ▸ hpos)
        rw [List.length_cons] at hlength
        refine ⟨by omega, before ++ [d], more, ?_, by omega, ?_⟩
        · rw [hcloser, List.append_assoc, List.singleton_append]
        · exact (List.cons_prefix_cons.mp hprefix).2
  | literal quote =>
      rw [step]
      split
      · trivial
      · split
        · exact hcode
        · split <;> exact hst
  | escaped quote => exact hst

end

/-- **In every place** the scanner knows that much. -/
theorem stateAt_fits (hstyle : style.IsProper) {st : State} {text : List Char}
    (hst : st.Fits style text) (k : Nat) :
    (stateAt style st text k).Fits style (text.drop k) := by
  induction text generalizing st k with
  | nil => cases k <;> simpa [stateAt] using hst
  | cons x rest ih =>
      cases k with
      | zero => exact hst
      | succ k => exact ih (step_fits hstyle hst) k

/-! ## Steps from code and to code -/

section

variable {c : Char} {rest : List Char} {st : State}

/-- A line feed stays, whatever comes after it. -/
theorem stepCode_line_feed (hstyle : style.IsProper) : (stepCode style '\n' rest).1 = '\n' := by
  rcases stepCode_cases hstyle '\n' rest with ⟨-, h, -⟩ | ⟨-, h⟩ | h
  · exact h
  · rw [h]
  · rw [h]

/-- What the mask shows of a character, if it is neither space nor line feed nor quote, is a step
from code to code. -/
theorem step_eq_code (hstyle : style.IsProper) (hst : st.Fits style (c :: rest))
    (hspace : (step style c rest st).1 ≠ ' ') (hfeed : (step style c rest st).1 ≠ '\n')
    (hquote : ¬ IsQuote (step style c rest st).1) :
    st = .code ∧ step style c rest st = (c, .code) := by
  have hblank : (step style c rest st).1 ≠ blank c := by
    rw [blank]
    split <;> assumption
  cases st with
  | code =>
      refine ⟨rfl, ?_⟩
      rcases stepCode_cases hstyle c rest with ⟨-, h, -⟩ | ⟨h, hstep⟩ | hstep
      · exact absurd h hblank
      · rw [step, hstep] at hquote
        exact absurd h hquote
      · exact hstep
  | line =>
      by_cases hc : c = '\n'
      · subst hc
        exact absurd (stepCode_line_feed hstyle) hfeed
      · exact absurd (by rw [step, if_neg hc]) hblank
  | opening n => exact absurd rfl hblank
  | block =>
      obtain ⟨d, more, hcloser⟩ := List.exists_cons_of_ne_nil hst
      refine absurd ?_ hblank
      show (stepBlock style.closer c rest _).1 = blank c
      rw [hcloser, stepBlock]
      split <;> rfl
  | closing n => exact absurd rfl hblank
  | literal quote =>
      by_cases heq : c = quote
      · rw [step, if_pos heq] at hquote
        exact absurd (heq ▸ hst) hquote
      · by_cases hc : c = '\n'
        · subst hc
          rw [step, if_neg heq, if_pos rfl] at hfeed
          exact absurd (stepCode_line_feed hstyle) hfeed
        · refine absurd ?_ hblank
          rw [step, if_neg heq, if_neg hc]
          split <;> rfl
  | escaped quote => exact absurd rfl hblank

/-- A character that the mask does not show leads to code only if it is the last one of the
delimiter that closes a block comment. -/
theorem getLast?_of_step_code (hstyle : style.IsProper) (hst : st.Fits style (c :: rest))
    (hhidden : (step style c rest st).1 ≠ c) (hcode : (step style c rest st).2 = .code) :
    style.closer.getLast? = some c := by
  -- a step in code either shows the character or leads elsewhere
  have hstepCode : (stepCode style c rest).1 ≠ c → (stepCode style c rest).2 ≠ .code := by
    intro hne
    rcases stepCode_cases hstyle c rest with ⟨-, -, h, -⟩ | ⟨-, h⟩ | h
    · exact h
    · rw [h] at hne
      exact absurd rfl hne
    · rw [h] at hne
      exact absurd rfl hne
  cases st with
  | code => exact absurd hcode (hstepCode hhidden)
  | line =>
      rw [step] at hhidden hcode
      split at hcode
      · next hc =>
          rw [if_pos hc] at hhidden
          exact absurd hcode (hstepCode hhidden)
      · cases hcode
  | opening n =>
      rw [step] at hcode
      simp only at hcode
      split at hcode <;> cases hcode
  | block =>
      obtain ⟨d, more, hcloser⟩ := List.exists_cons_of_ne_nil hst
      change (stepBlock style.closer c rest _).2 = .code at hcode
      rw [hcloser, stepBlock] at hcode
      split at hcode
      · next hprefix =>
          simp only at hcode
          split at hcode
          · next hmore =>
              rw [hcloser, List.isEmpty_iff.mp hmore, List.getLast?_singleton,
                (List.cons_prefix_cons.mp (List.isPrefixOf_iff_prefix.mp hprefix)).1]
          · cases hcode
      · cases hcode
  | closing n =>
      obtain ⟨hpos, before, after, hcloser, hlength, hprefix⟩ := hst
      rw [step] at hcode
      simp only at hcode
      split at hcode
      · -- only the last character of the delimiter is to come
        obtain ⟨d, rfl⟩ := List.length_eq_one_iff.mp (show after.length = 1 by omega)
        rw [hcloser, List.getLast?_append, List.getLast?_singleton, Option.some_or,
          (List.cons_prefix_cons.mp hprefix).1]
      · cases hcode
  | literal quote =>
      rw [step] at hhidden hcode
      split at hcode
      · next heq =>
          rw [if_pos heq] at hhidden
          exact absurd rfl hhidden
      · next heq =>
          rw [if_neg heq] at hhidden
          split at hcode
          · next hc =>
              rw [if_pos hc] at hhidden
              exact absurd hcode (hstepCode hhidden)
          · split at hcode <;> cases hcode
  | escaped quote => cases hcode

end

/-! ## Places in code -/

section

variable {text : List Char} {k : Nat} {c : Char}

/-- The scanner comes to the place outside of comments and literals. -/
def InCode (style : CommentStyle) (text : List Char) (k : Nat) : Prop :=
  stateAt style .code text k = .code

instance (style : CommentStyle) (text : List Char) (k : Nat) : Decidable (InCode style text k) :=
  inferInstanceAs (Decidable (stateAt style .code text k = .code))

/-- **What stands in the mask is code.**  A character other than a space, a line feed or a quote is
one of the text, stands in code, and code goes on after it. -/
theorem inCode_of_getElem?_mask (hstyle : style.IsProper) (hc : (mask style text)[k]? = some c)
    (hspace : c ≠ ' ') (hfeed : c ≠ '\n') (hquote : ¬ IsQuote c) :
    text[k]? = some c ∧ InCode style text k ∧ InCode style text (k + 1) := by
  have hlt : k < text.length := by
    simpa using (List.getElem?_eq_some_iff.mp hc).1
  have hx : text[k]? = some text[k] := List.getElem?_eq_getElem hlt
  have hmask : (mask style text)[k]?
      = some (step style text[k] (text.drop (k + 1)) (stateAt style .code text k)).1 :=
    getElem?_maskFrom_eq hx
  obtain rfl := Option.some.inj (hmask.symm.trans hc)
  have hfits := stateAt_fits hstyle (show State.code.Fits style text from trivial) k
  rw [List.drop_eq_getElem_cons hlt] at hfits
  obtain ⟨hcode, hstep⟩ := step_eq_code hstyle hfits hspace hfeed hquote
  refine ⟨by rw [hx, hstep], hcode, ?_⟩
  rw [InCode, stateAt_succ hx, hstep]

/-- In code, a character that the mask does not show begins a delimiter that starts a comment. -/
theorem isPrefix_of_inCode (hstyle : style.IsProper) (hcode : InCode style text k)
    (hc : text[k]? = some c) (hhidden : (mask style text)[k]? ≠ some c) :
    ∃ d ∈ style.starters, d.head? = some c := by
  rw [mask, getElem?_maskFrom_eq hc, hcode, step, ne_eq, Option.some.injEq] at hhidden
  rcases stepCode_cases hstyle c (text.drop (k + 1)) with
    ⟨⟨d, hd, hprefix⟩, -⟩ | ⟨-, hstep⟩ | hstep
  · have hne : d ≠ [] := hstyle.ne_nil _ (List.mem_append_left _ hd)
    obtain ⟨x, xs, rfl⟩ := List.exists_cons_of_ne_nil hne
    exact ⟨_, hd, congrArg some (List.cons_prefix_cons.mp hprefix).1⟩
  · exact absurd (congrArg Prod.fst hstep) hhidden
  · exact absurd (congrArg Prod.fst hstep) hhidden

/-- Before code, a character that the mask does not show ends a delimiter that closes a comment. -/
theorem getLast?_of_inCode (hstyle : style.IsProper) (hcode : InCode style text (k + 1))
    (hc : text[k]? = some c) (hhidden : (mask style text)[k]? ≠ some c) :
    style.closer.getLast? = some c := by
  obtain ⟨hlt, rfl⟩ := List.getElem?_eq_some_iff.mp hc
  have hfits := stateAt_fits hstyle (show State.code.Fits style text from trivial) k
  rw [List.drop_eq_getElem_cons hlt] at hfits
  rw [mask, getElem?_maskFrom_eq hc, ne_eq, Option.some.injEq] at hhidden
  rw [InCode, stateAt_succ hc] at hcode
  exact getLast?_of_step_code hstyle hfits hhidden hcode

end

end Mask

/-! ## Identifiers -/

/-- The stretch holds a letter or an underscore and then word characters, and neither before nor
after it a word character stands. -/
structure Text.IsIdentifier (cs : List Char) (s : Span) : Prop where
  lt : s.1 < s.2
  start : ∃ c, cs[s.1]? = some c ∧ identStart.holds c = true
  isWord : ∀ k, s.1 ≤ k → k < s.2 → ∃ c, cs[k]? = some c ∧ Text.isWord c = true
  before : ∀ c, 0 < s.1 → cs[s.1 - 1]? = some c → Text.isWord c = false
  after : ∀ c, cs[s.2]? = some c → Text.isWord c = false

namespace Mask

open Text

/-- The delimiters say something. -/
theorem isProper_slashes : CommentStyle.slashes.IsProper :=
  CommentStyle.IsPlain.isProper (by decide)

/-- A word character is neither a space nor a line feed nor a quote. -/
theorem of_isWord {c : Char} (hc : isWord c = true) : c ≠ ' ' ∧ c ≠ '\n' ∧ ¬ IsQuote c := by
  refine ⟨?_, ?_, ?_⟩
  · rintro rfl
    exact absurd hc (by decide)
  · rintro rfl
    exact absurd hc (by decide)
  · rintro (rfl | rfl)
    · exact absurd hc (by decide)
    · exact absurd hc (by decide)

section

variable {text : List Char} {k : Nat} {c : Char}

/-- A word character in the mask is code. -/
theorem inCode_of_isWord (hc : (mask .slashes text)[k]? = some c) (hword : isWord c = true) :
    text[k]? = some c ∧ InCode .slashes text k ∧ InCode .slashes text (k + 1) :=
  have ⟨hspace, hfeed, hquote⟩ := of_isWord hword
  inCode_of_getElem?_mask isProper_slashes hc hspace hfeed hquote

/-- In code, what the mask does not show is the slash that starts a comment. -/
theorem eq_slash_of_inCode (hcode : InCode .slashes text k) (hc : text[k]? = some c)
    (hhidden : (mask .slashes text)[k]? ≠ some c) : c = '/' := by
  obtain ⟨d, hd, hhead⟩ := isPrefix_of_inCode isProper_slashes hcode hc hhidden
  have hstarters : ∀ d ∈ CommentStyle.slashes.starters, d.head? = some '/' := by decide
  exact Option.some.inj (hhead.symm.trans (hstarters d hd))

/-- Before code, what the mask does not show is the slash that ends a comment. -/
theorem eq_slash_of_inCode_succ (hcode : InCode .slashes text (k + 1)) (hc : text[k]? = some c)
    (hhidden : (mask .slashes text)[k]? ≠ some c) : c = '/' := by
  have hlast : CommentStyle.slashes.closer.getLast? = some '/' := by decide
  exact Option.some.inj
    ((getLast?_of_inCode isProper_slashes hcode hc hhidden).symm.trans hlast)

end

end Mask

namespace Text.IsIdentifier

variable {text : List Char} {s : Span} (h : IsIdentifier (mask .slashes text) s)

include h

/-- An identifier in the mask stands in code. -/
theorem inCode : Mask.InCode .slashes text s.1 := by
  obtain ⟨c, hc, hword⟩ := h.isWord s.1 (Nat.le_refl _) h.lt
  exact (Mask.inCode_of_isWord hc hword).2.1

/-- **An identifier in the mask** is one of the text. -/
theorem of_mask : IsIdentifier text s where
  lt := h.lt
  start := by
    obtain ⟨c, hc, hstart⟩ := h.start
    obtain ⟨d, hd, hword⟩ := h.isWord s.1 (Nat.le_refl _) h.lt
    obtain rfl : c = d := Option.some.inj (hc.symm.trans hd)
    exact ⟨c, (Mask.inCode_of_isWord hc hword).1, hstart⟩
  isWord := by
    intro k hle hlt
    obtain ⟨c, hc, hword⟩ := h.isWord k hle hlt
    exact ⟨c, (Mask.inCode_of_isWord hc hword).1, hword⟩
  before := by
    intro c hpos hc
    by_cases hshown : (mask .slashes text)[s.1 - 1]? = some c
    · exact h.before c hpos hshown
    · have hcode := h.inCode
      rw [← Nat.sub_add_cancel hpos] at hcode
      rw [Mask.eq_slash_of_inCode_succ hcode hc hshown]
      decide
  after := by
    intro c hc
    by_cases hshown : (mask .slashes text)[s.2]? = some c
    · exact h.after c hshown
    · -- code goes on after the last character of the identifier
      have hpos := Nat.lt_of_le_of_lt (Nat.zero_le _) h.lt
      obtain ⟨d, hd, hword⟩ := h.isWord (s.2 - 1) (Nat.le_sub_one_of_lt h.lt)
        (Nat.sub_one_lt_of_lt h.lt)
      have hcode := (Mask.inCode_of_isWord hd hword).2.2
      rw [Nat.sub_add_cancel hpos] at hcode
      rw [Mask.eq_slash_of_inCode hcode hc hshown]
      decide

/-- The text and the mask hold the same identifier. -/
theorem slice_eq : slice text s = slice (mask .slashes text) s := by
  refine slice_congr fun k hle hlt => ?_
  obtain ⟨c, hc, hword⟩ := h.isWord k hle hlt
  rw [(Mask.inCode_of_isWord hc hword).1, hc]

end Text.IsIdentifier

end CodeSweep
