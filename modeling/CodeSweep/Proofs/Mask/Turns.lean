/-
# Masking by whole pieces

The mask reads a text one character at a time.  A reader may as well take whole pieces: a comment
with its delimiters, a literal with its quotes, or one other character.  Such a reader goes on from
the end of one piece to the start of the next, so it comes to the end of the text only if every
piece takes something away.

* `length_turn_lt` : if no delimiter is empty, every piece does;
* `scans_iff` : then the reader of pieces comes to an end on every text, and what it writes is the
  mask.
-/
import CodeSweep.Mask
import Mathlib.Data.List.Basic

namespace CodeSweep

namespace CommentStyle

/-- The delimiters that start a comment. -/
def starters (style : CommentStyle) : List (List Char) :=
  style.line.toList ++ style.block.toList.map (·.1)

/-- All delimiters. -/
def delimiters (style : CommentStyle) : List (List Char) :=
  style.starters ++ style.block.toList.map (·.2)

/-- The delimiters say something: none is empty, and no line comment starts with the line feed
before which it ends. -/
structure IsProper (style : CommentStyle) : Prop where
  ne_nil : ∀ d ∈ style.delimiters, d ≠ []
  ne_line_feed : ∀ d ∈ style.line, d.head? ≠ some '\n'

/-- A line comment does not start at a line feed. -/
theorem IsProper.ne_of_line {style : CommentStyle} (hstyle : style.IsProper) {c : Char}
    {rest : List Char} (h : style.line.any (·.isPrefixOf (c :: rest)) = true) : c ≠ '\n' := by
  obtain ⟨d, hd, hprefix⟩ := (Option.any_eq_true _ _).mp h
  have hne : d ≠ [] := hstyle.ne_nil d (by simp [delimiters, starters, hd])
  obtain ⟨x, xs, rfl⟩ := List.exists_cons_of_ne_nil hne
  have hx : x = c := by
    simpa using (List.cons_prefix_cons.mp (List.isPrefixOf_iff_prefix.mp hprefix)).1
  rintro rfl
  exact hstyle.ne_line_feed _ hd (by simp [hx])

end CommentStyle

namespace Mask

/-! ## Pieces of a text -/

/-- The length of what a block comment takes up after its opening delimiter: all up to the first
closing one and that one, or everything. -/
def blockLength (closer : List Char) : List Char → Nat
  | [] => 0
  | c :: rest =>
    if closer.isPrefixOf (c :: rest) then closer.length else blockLength closer rest + 1

/-- The number of characters in a literal after the quote that opens it.  A backslash takes the next
character along, whatever it is. -/
def literalLength (quote : Char) : List Char → Nat
  | [] => 0
  | [c] => if c = quote ∨ c = '\n' then 0 else 1
  | c :: d :: rest =>
    if c = quote ∨ c = '\n' then 0
    else if c = '\\' then literalLength quote rest + 2
    else literalLength quote (d :: rest) + 1

/-- What a literal becomes that the quote has opened, and what is left of the text. -/
def turnLiteral (quote : Char) (text : List Char) : List Char × List Char :=
  let n := literalLength quote text
  if (text.drop n).head? = some quote then
    ((text.take n).map blank ++ [quote], text.drop (n + 1))
  else ((text.take n).map blank, text.drop n)

/-- What the first piece of a text becomes, and what is left of the text. -/
def turn (style : CommentStyle) : List Char → List Char × List Char
  | [] => ([], [])
  | c :: rest =>
    match style.block.filter (·.1.isPrefixOf (c :: rest)) with
    | some (opener, closer) =>
      let n := opener.length + blockLength closer ((c :: rest).drop opener.length)
      (((c :: rest).take n).map blank, (c :: rest).drop n)
    | none =>
      if style.line.any (·.isPrefixOf (c :: rest)) then
        (((c :: rest).takeWhile (· != '\n')).map blank, (c :: rest).dropWhile (· != '\n'))
      else if c = '"' ∨ c = '\'' then (c :: (turnLiteral c rest).1, (turnLiteral c rest).2)
      else ([c], rest)

/-- The reader of pieces comes to the end of the text and has then written the other list. -/
inductive Scans (style : CommentStyle) : List Char → List Char → Prop
  /-- At the end nothing is left to write. -/
  | done : Scans style [] []
  /-- One piece is written, and then what is made of the rest. -/
  | piece {text out : List Char} (htext : text ≠ []) (hrest : Scans style (turn style text).2 out) :
      Scans style text ((turn style text).1 ++ out)

/-! ## The mask of a piece -/

section

variable {style : CommentStyle}

/-- Inside a delimiter every character becomes blank, until its last one has been read. -/
theorem maskFrom_countdown (inside : Nat → State) (after : State)
    (hstep : ∀ n c rest, step style c rest (inside n)
      = (blank c, if n ≤ 1 then after else inside (n - 1)))
    {n : Nat} (hn : 0 < n) (text : List Char) :
    maskFrom style (inside n) text
      = (text.take n).map blank ++ maskFrom style after (text.drop n) := by
  induction text generalizing n with
  | nil => simp [maskFrom]
  | cons c rest ih =>
      obtain ⟨m, rfl⟩ : ∃ m, n = m + 1 := ⟨n - 1, by omega⟩
      rw [maskFrom, hstep]
      by_cases hm : m = 0
      · subst hm
        simp
      · rw [if_neg (by omega), Nat.add_sub_cancel, ih (by omega)]
        simp

/-- A line comment becomes blank up to the end of its line. -/
theorem maskFrom_line (text : List Char) :
    maskFrom style .line text = (text.takeWhile (· != '\n')).map blank
      ++ maskFrom style .code (text.dropWhile (· != '\n')) := by
  induction text with
  | nil => simp [maskFrom]
  | cons c rest ih =>
      by_cases hc : c = '\n'
      · simp [hc, maskFrom, step]
      · simp [hc, maskFrom, step, ih]

/-- A block comment becomes blank up to the end of its closing delimiter. -/
theorem maskFrom_block {opener closer : List Char} (hblock : style.block = some (opener, closer))
    (hcloser : closer ≠ []) (text : List Char) :
    maskFrom style .block text = (text.take (blockLength closer text)).map blank
      ++ maskFrom style .code (text.drop (blockLength closer text)) := by
  induction text with
  | nil => simp [maskFrom]
  | cons c rest ih =>
      obtain ⟨d, more, rfl⟩ := List.exists_cons_of_ne_nil hcloser
      have hstep : step style c rest .block =
          if (d :: more).isPrefixOf (c :: rest) then
            (blank c, if more.isEmpty then .code else .closing more.length)
          else (blank c, .block) := by
        simp only [step, hblock, Option.map_some, Option.getD_some, stepBlock]
      rw [maskFrom, hstep, blockLength]
      by_cases hclosed : (d :: more).isPrefixOf (c :: rest) = true
      · rw [if_pos hclosed, if_pos hclosed]
        by_cases hmore : more = []
        · simp [hmore]
        · rw [if_neg (by simpa using hmore),
            maskFrom_countdown .closing .code (fun _ _ _ => rfl)
              (List.length_pos_iff.mpr hmore)]
          simp
      · rw [if_neg hclosed, if_neg hclosed, ih]
        simp

/-- Where the characters of a literal end, the text ends, or a quote or a line feed follows. -/
theorem drop_literalLength (quote : Char) (text : List Char) :
    text.drop (literalLength quote text) = [] ∨
      ∃ c rest, text.drop (literalLength quote text) = c :: rest ∧ (c = quote ∨ c = '\n') := by
  fun_induction literalLength quote text with
  | case1 => exact .inl rfl
  | case2 c hc => exact .inr ⟨c, [], rfl, hc⟩
  | case3 c hc => exact .inl rfl
  | case4 c d rest hc => exact .inr ⟨c, d :: rest, rfl, hc⟩
  | case5 d rest _ ih => simpa using ih
  | case6 c d rest _ _ ih => simpa using ih

/-- The characters of a literal become blank. -/
theorem maskFrom_literal (quote : Char) (text : List Char) :
    maskFrom style (.literal quote) text
      = (text.take (literalLength quote text)).map blank
        ++ maskFrom style (.literal quote) (text.drop (literalLength quote text)) := by
  fun_induction literalLength quote text with
  | case1 => simp [maskFrom]
  | case2 c hc => simp
  | case3 c hc =>
      rw [not_or] at hc
      rw [maskFrom, step, if_neg hc.1, if_neg hc.2]
      by_cases hslash : c = '\\'
      · rw [if_pos hslash]
        simp [maskFrom]
      · rw [if_neg hslash]
        simp [maskFrom]
  | case4 c d rest hc => simp
  | case5 d rest hc ih =>
      rw [not_or] at hc
      simp [maskFrom, step, hc, ih]
  | case6 c d rest hc hslash ih =>
      rw [not_or] at hc
      rw [maskFrom, step, if_neg hc.1, if_neg hc.2, if_neg hslash]
      simp [ih]

/-- A literal becomes what its piece becomes. -/
theorem maskFrom_eq_turnLiteral (quote : Char) (text : List Char) :
    maskFrom style (.literal quote) text
      = (turnLiteral quote text).1 ++ maskFrom style .code (turnLiteral quote text).2 := by
  rw [maskFrom_literal, turnLiteral]
  rcases drop_literalLength quote text with hnil | ⟨c, rest, hcons, hc⟩
  · rw [hnil, if_neg (by simp)]
    simp [maskFrom]
  · have hrest : text.drop (literalLength quote text + 1) = rest := by
      rw [← List.tail_drop, hcons, List.tail_cons]
    rw [hcons, hrest]
    by_cases heq : c = quote
    · simp [heq, maskFrom, step]
    · obtain rfl : c = '\n' := hc.resolve_left heq
      rw [List.head?_cons, if_neg (by simpa using heq)]
      simp [maskFrom, step, heq]

/-- A character that starts no block comment is read as it is read without block comments. -/
theorem stepCode_of_filter_eq_none {c : Char} {rest : List Char}
    (h : style.block.filter (·.1.isPrefixOf (c :: rest)) = none) :
    stepCode style c rest = stepPlain style c rest := by
  rw [stepCode]
  cases hblock : style.block with
  | none => rfl
  | some b =>
      rw [hblock, Option.filter_some, ite_eq_right_iff] at h
      have hopener : ¬ b.1.isPrefixOf (c :: rest) = true := fun h' => by simpa using h h'
      simp only
      rw [if_neg hopener]

/-- Where a block comment starts, its opening delimiter becomes blank. -/
theorem maskFrom_opener {opener closer : List Char} (hblock : style.block = some (opener, closer))
    (hopener : opener ≠ []) {text : List Char} (hopens : opener.isPrefixOf text = true) :
    maskFrom style .code text = (text.take opener.length).map blank
      ++ maskFrom style .block (text.drop opener.length) := by
  obtain ⟨o, more, rfl⟩ := List.exists_cons_of_ne_nil hopener
  cases text with
  | nil => simp at hopens
  | cons c rest =>
      have hstep : step style c rest .code
          = (blank c, if more.isEmpty then .block else .opening more.length) := by
        simp only [step, stepCode, hblock, hopens, if_true]
      rw [maskFrom, hstep]
      by_cases hmore : more = []
      · simp [hmore]
      · rw [if_neg (by simpa using hmore),
          maskFrom_countdown .opening .block (fun _ _ _ => rfl)
            (List.length_pos_iff.mpr hmore)]
        simp

/-- **The mask of the first piece** of a text in code is what the piece becomes, and then comes the
mask of what is left. -/
theorem maskFrom_eq_turn (hstyle : style.IsProper) (text : List Char) :
    maskFrom style .code text
      = (turn style text).1 ++ maskFrom style .code (turn style text).2 := by
  cases text with
  | nil => simp [turn, maskFrom]
  | cons c rest =>
      rw [turn]
      cases hfilter : style.block.filter (·.1.isPrefixOf (c :: rest)) with
      | some b =>
          obtain ⟨opener, closer⟩ := b
          obtain ⟨hblock, hopens⟩ := Option.filter_eq_some_iff.mp hfilter
          have hopener : opener ≠ [] :=
            hstyle.ne_nil _ (by simp [CommentStyle.delimiters, CommentStyle.starters, hblock])
          have hcloser : closer ≠ [] :=
            hstyle.ne_nil _ (by simp [CommentStyle.delimiters, hblock])
          simp only
          rw [maskFrom_opener hblock hopener hopens, maskFrom_block hblock hcloser, List.take_add,
            List.map_append, List.append_assoc, List.drop_drop]
      | none =>
          have hstep : step style c rest .code = stepPlain style c rest :=
            stepCode_of_filter_eq_none hfilter
          simp only
          rw [maskFrom, hstep, stepPlain]
          by_cases hcomment : style.line.any (·.isPrefixOf (c :: rest)) = true
          · have hc : c ≠ '\n' := hstyle.ne_of_line hcomment
            rw [if_pos hcomment, if_pos (by simp [hcomment, hc]), maskFrom_line]
            simp [hc]
          · rw [if_neg hcomment, if_neg (by simp [hcomment])]
            by_cases hquote : c = '"' ∨ c = '\''
            · rw [if_pos hquote, if_pos (by simpa using hquote), maskFrom_eq_turnLiteral]
              rfl
            · rw [if_neg hquote, if_neg (by simpa using hquote)]
              rfl

/-! ## The whole text -/

/-- **Progress.**  Every piece takes at least one character. -/
theorem length_turn_lt (hstyle : style.IsProper) {text : List Char} (htext : text ≠ []) :
    (turn style text).2.length < text.length := by
  obtain ⟨c, rest, rfl⟩ := List.exists_cons_of_ne_nil htext
  rw [turn]
  cases hfilter : style.block.filter (·.1.isPrefixOf (c :: rest)) with
  | some b =>
      have hopener : b.1 ≠ [] := hstyle.ne_nil _ (by
        simp [CommentStyle.delimiters, CommentStyle.starters,
          (Option.filter_eq_some_iff.mp hfilter).1])
      have hpos := List.length_pos_iff.mpr hopener
      simp only [List.length_drop, List.length_cons]
      omega
  | none =>
      simp only
      split
      · next hcomment =>
          have hc : c ≠ '\n' := hstyle.ne_of_line hcomment
          have hle := (List.dropWhile_sublist (l := rest) (· != '\n')).length_le
          have hdrop : (c :: rest).dropWhile (· != '\n') = rest.dropWhile (· != '\n') := by
            simp [hc]
          simp only [hdrop, List.length_cons]
          omega
      · split
        · have hle : (turnLiteral c rest).2.length ≤ rest.length := by
            unfold turnLiteral
            simp only
            split <;> simp
          simp only [List.length_cons]
          omega
        · simp

/-- **The reader of pieces comes to an end** on every text, and what it writes is the mask. -/
theorem scans_iff (hstyle : style.IsProper) (text out : List Char) :
    Scans style text out ↔ out = mask style text := by
  constructor
  · intro h
    induction h with
    | done => rfl
    | piece htext _ ih => rw [ih, mask, mask, ← maskFrom_eq_turn hstyle]
  · rintro rfl
    induction hn : text.length using Nat.strongRecOn generalizing text with
    | _ n ih =>
        by_cases htext : text = []
        · subst htext
          exact .done
        · have hlt := length_turn_lt hstyle htext
          rw [mask, maskFrom_eq_turn hstyle]
          exact .piece htext (ih _ (hn ▸ hlt) _ rfl)

end

end Mask

end CodeSweep
