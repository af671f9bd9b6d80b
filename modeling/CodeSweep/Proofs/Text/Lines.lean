/-
# Lines of texts put together

The lines of two texts with a line feed between them are the lines of the one and then those of the
other (`lines_append`), and carriage returns before the line feeds do not show in them
(`lines_withReturns`).
-/
import CodeSweep.Proofs.Text.Position

namespace CodeSweep.Text

/-! ## Pieces -/

section

variable {sep : Char → Bool}

/-- A character that separates begins a new piece. -/
theorem splitAt_cons_of_sep {c : Char} (cs : List Char) (hc : sep c = true) :
    splitAt sep (c :: cs) = [] :: splitAt sep cs := by
  rw [splitAt, if_pos hc]

/-- A separator between two texts separates their pieces. -/
theorem splitAt_append {c : Char} (hc : sep c = true) (as bs : List Char) :
    splitAt sep (as ++ c :: bs) = splitAt sep as ++ splitAt sep bs := by
  induction as with
  | nil => exact splitAt_cons_of_sep bs hc
  | cons a as ih =>
      rw [List.cons_append]
      cases ha : sep a with
      | true =>
          rw [splitAt_cons_of_sep _ ha, splitAt_cons_of_sep _ ha, ih, List.cons_append]
      | false =>
          obtain ⟨piece, pieces, hpieces, hcons⟩ := splitAt_cons_of_not sep as ha
          obtain ⟨piece', pieces', hpieces', hcons'⟩ :=
            splitAt_cons_of_not sep (as ++ c :: bs) ha
          rw [ih, hpieces, List.cons_append] at hpieces'
          obtain ⟨rfl, rfl⟩ := List.cons.inj hpieces'
          rw [hcons, hcons', List.cons_append]

/-- A text without separators is one piece. -/
theorem splitAt_of_forall_not {cs : List Char} (h : ∀ c ∈ cs, sep c = false) :
    splitAt sep cs = [cs] := by
  induction cs with
  | nil => rfl
  | cons c cs ih =>
      rw [List.forall_mem_cons] at h
      rw [splitAt, if_neg (by simp [h.1]), ih h.2]

/-- The pieces between separators hold none. -/
theorem eq_false_of_mem_splitAt {cs piece : List Char}
    (hpiece : piece ∈ splitAt sep cs) {c : Char} (hc : c ∈ piece) : sep c = false := by
  induction cs generalizing piece with
  | nil =>
      obtain rfl : piece = [] := by simpa [splitAt] using hpiece
      cases hc
  | cons d cs ih =>
      cases hd : sep d with
      | true =>
          rw [splitAt_cons_of_sep cs hd] at hpiece
          rcases List.mem_cons.mp hpiece with rfl | hpiece
          · cases hc
          · exact ih hpiece hc
      | false =>
          obtain ⟨first, rest, hfirst, hcons⟩ := splitAt_cons_of_not sep cs hd
          rw [hcons] at hpiece
          rw [hfirst] at ih
          rcases List.mem_cons.mp hpiece with rfl | hpiece
          · rcases List.mem_cons.mp hc with rfl | hc
            · exact hd
            · exact ih List.mem_cons_self hc
          · exact ih (List.mem_cons_of_mem first hpiece) hc

/-- The pieces of a text whose characters are exchanged for others, where those separate that come
for separators. -/
theorem splitAt_map {sep' : Char → Bool} {f : Char → Char} (hsep : ∀ c, sep (f c) = sep' c)
    (cs : List Char) : splitAt sep (cs.map f) = (splitAt sep' cs).map (·.map f) := by
  induction cs with
  | nil => rfl
  | cons c cs ih =>
      rw [List.map_cons]
      cases hc : sep' c with
      | true =>
          rw [splitAt_cons_of_sep _ (by rw [hsep, hc]), splitAt_cons_of_sep _ hc, ih]
          rfl
      | false =>
          obtain ⟨piece, pieces, hpieces, hcons⟩ := splitAt_cons_of_not sep' cs hc
          obtain ⟨piece', pieces', hpieces', hcons'⟩ :=
            splitAt_cons_of_not sep (cs.map f) (c := f c) (by rw [hsep, hc])
          rw [ih, hpieces, List.map_cons] at hpieces'
          obtain ⟨rfl, rfl⟩ := List.cons.inj hpieces'
          rw [hcons, hcons']
          rfl

/-- There is one more piece than there are separators. -/
theorem length_splitAt (cs : List Char) : (splitAt sep cs).length = cs.countP sep + 1 := by
  induction cs with
  | nil => rfl
  | cons c cs ih =>
      cases hc : sep c with
      | true => rw [splitAt_cons_of_sep cs hc, List.length_cons, ih, List.countP_cons_of_pos hc]
      | false =>
          obtain ⟨piece, pieces, hpieces, hcons⟩ := splitAt_cons_of_not sep cs hc
          rw [hcons, List.length_cons, ← List.length_cons (a := piece), ← hpieces, ih,
            List.countP_cons_of_neg (by simp [hc])]

end

/-! ## Lines -/

/-- The lines of two texts with a line feed between them. -/
theorem lines_append (as bs : List Char) : lines (as ++ '\n' :: bs) = lines as ++ lines bs := by
  rw [lines, splitAt_append rfl, List.map_append]
  rfl

/-- There is one more line than there are line feeds. -/
theorem length_lines (text : List Char) : (lines text).length = text.count '\n' + 1 := by
  rw [lines, List.length_map, length_splitAt]
  rfl

/-- A text without line feeds is one line. -/
theorem lines_of_not_mem {text : List Char} (h : '\n' ∉ text) :
    lines text = [dropCarriageReturn text] := by
  rw [lines, splitAt_of_forall_not, List.map_singleton]
  intro c hc
  have hne : c ≠ '\n' := fun heq => h (heq ▸ hc)
  simpa using hne

/-- A line stands in the text. -/
theorem isInfix_of_mem_lines {text line : List Char} (h : line ∈ lines text) : line <:+: text := by
  obtain ⟨k, hk⟩ := List.mem_iff_getElem?.mp h
  obtain ⟨before, after, htext, -⟩ := exists_around_line hk
  exact ⟨before, after, by rw [htext, List.append_assoc]⟩

/-- A line holds no line feed. -/
theorem not_mem_of_getElem?_lines {text line : List Char} {k : Nat}
    (h : (lines text)[k]? = some line) : '\n' ∉ line := by
  rw [lines, List.getElem?_map, Option.map_eq_some_iff] at h
  obtain ⟨raw, hraw, rfl⟩ := h
  obtain ⟨-, -, -, hfeed, -⟩ := exists_around_piece .first text hraw
  exact fun hmem => hfeed ((dropCarriageReturn_isPrefix raw).subset hmem)

/-! ## Carriage returns -/

/-- The text with a carriage return before every line feed. -/
def withReturns (text : List Char) : List Char :=
  text.flatMap fun c => if c = '\n' then ['\r', '\n'] else [c]

/-- A line without carriage returns stays as it is. -/
theorem dropCarriageReturn_of_not_mem {line : List Char} (h : '\r' ∉ line) :
    dropCarriageReturn line = line := by
  induction line using dropCarriageReturn.induct with
  | case1 => rfl
  | case2 => simp at h
  | case3 c cs hne ih =>
      rw [dropCarriageReturn]
      · rw [ih fun hcs => h (List.mem_cons_of_mem c hcs)]
      · exact hne

/-- A carriage return after such a line is dropped. -/
theorem dropCarriageReturn_append {line : List Char} (h : '\r' ∉ line) :
    dropCarriageReturn (line ++ ['\r']) = line := by
  induction line with
  | nil => rfl
  | cons c cs ih =>
      rw [List.mem_cons, not_or] at h
      rw [List.cons_append, dropCarriageReturn]
      · rw [ih h.2]
      · simp

/-- A text without line feeds has no place for them. -/
theorem withReturns_of_not_mem {text : List Char} (h : '\n' ∉ text) : withReturns text = text := by
  induction text with
  | nil => rfl
  | cons c cs ih =>
      rw [List.mem_cons, not_or] at h
      have hcs : withReturns cs = cs := ih h.2
      unfold withReturns at hcs ⊢
      rw [List.flatMap_cons, if_neg (Ne.symm h.1), hcs]
      rfl

/-- The carriage return at the end of a first line. -/
theorem withReturns_append {line : List Char} (h : '\n' ∉ line) (rest : List Char) :
    withReturns (line ++ '\n' :: rest) = (line ++ ['\r']) ++ '\n' :: withReturns rest := by
  have hline := withReturns_of_not_mem h
  unfold withReturns at hline ⊢
  rw [List.flatMap_append, hline, List.flatMap_cons, if_pos rfl, List.append_assoc]
  rfl

/-- **Carriage returns before line feeds** do not show in the lines. -/
theorem lines_withReturns {text : List Char} (h : '\r' ∉ text) :
    lines (withReturns text) = lines text := by
  induction hn : text.length using Nat.strongRecOn generalizing text with
  | _ n ih =>
      by_cases hfeed : '\n' ∈ text
      · obtain ⟨line, rest, rfl, hline⟩ := List.eq_append_cons_of_mem hfeed
        rw [List.mem_append, List.mem_cons, not_or, not_or] at h
        have hreturn : '\n' ∉ line ++ ['\r'] := by simp [hline]
        have hlt : rest.length < n := by
          rw [← hn, List.length_append, List.length_cons]
          omega
        rw [withReturns_append hline, lines_append, lines_append, lines_of_not_mem hreturn,
          dropCarriageReturn_append h.1, lines_of_not_mem hline,
          dropCarriageReturn_of_not_mem h.1, ih _ hlt h.2.2 rfl]
      · rw [withReturns_of_not_mem hfeed]

end CodeSweep.Text
