/-
# Line coordinates

The position of an offset is found by walking through the text, the lines of the text by cutting it
at line feeds.  Both give every character the same coordinates: its line is the piece with the
number of line feeds before it, and its column is its place in that piece (`getElem?_lines`).
Positions come in the order of offsets, past the end as well (`strictMono_ofOffset`).
-/
import CodeSweep.Proofs.Text.Lines
import Mathlib.Data.Prod.Lex
import Mathlib.Order.Monotone.Basic

namespace CodeSweep

/-! ## The order of positions -/

namespace Position

/-- A walk in two parts. -/
theorem advance_add (p : Position) (cs : List Char) (a b : Nat) :
    p.advance cs (a + b) = (p.advance cs a).advance (cs.drop a) b := by
  induction cs generalizing p a with
  | nil => simp [Nat.add_assoc]
  | cons c cs ih =>
      cases a with
      | zero => simp
      | succ a =>
          rw [Nat.add_right_comm, advance_cons_succ, advance_cons_succ, List.drop_succ_cons]
          exact ih _ a

/-- Line and column as a pair that is ordered by the line first. -/
def key (p : Position) : ℕ ×ₗ ℕ := toLex (p.line, p.column)

/-- One step of a walk leads further. -/
theorem key_lt_advance_one (p : Position) (cs : List Char) : p.key < (p.advance cs 1).key := by
  rw [key, key, Prod.Lex.toLex_lt_toLex]
  cases cs with
  | nil => exact .inr ⟨rfl, Nat.lt_succ_self _⟩
  | cons c cs =>
      rw [advance_cons_succ, advance_zero, next]
      split
      · exact .inl (Nat.lt_succ_self _)
      · exact .inr ⟨rfl, Nat.lt_succ_self _⟩

/-- **Positions come in the order of offsets**, also past the end of the text. -/
theorem strictMono_ofOffset (text : List Char) :
    StrictMono fun offset => (ofOffset text offset).key := by
  apply strictMono_nat_of_lt_succ
  intro offset
  have hstep : ofOffset text (offset + 1)
      = (ofOffset text offset).advance (text.drop offset) 1 :=
    advance_add first text offset 1
  rw [hstep]
  exact key_lt_advance_one _ _

/-! ## The line of an offset -/

/-- A walk goes down one line for each line feed. -/
theorem line_advance (p : Position) (cs : List Char) (n : Nat) :
    (p.advance cs n).line = p.line + (cs.take n).count '\n' := by
  induction cs generalizing p n with
  | nil => simp
  | cons c cs ih =>
      cases n with
      | zero => simp
      | succ n =>
          rw [advance_cons_succ, ih, next, List.take_succ_cons]
          by_cases hc : c = '\n'
          · rw [if_pos hc, hc, List.count_cons_self]
            simp only
            omega
          · rw [if_neg hc, List.count_cons_of_ne hc]

/-- **The line of an offset** is one more than the number of line feeds before it. -/
theorem line_ofOffset (text : List Char) (offset : Nat) :
    (ofOffset text offset).line = 1 + (text.take offset).count '\n' :=
  line_advance first text offset

/-- A walk that begins further down goes on further down. -/
theorem advance_down (l column k : Nat) (cs : List Char) (n : Nat) :
    (Position.mk (l + k) column).advance cs n
      = ⟨((Position.mk l column).advance cs n).line + k,
          ((Position.mk l column).advance cs n).column⟩ := by
  induction cs generalizing l column n with
  | nil => simp
  | cons c cs ih =>
      cases n with
      | zero => simp
      | succ n =>
          rw [advance_cons_succ, advance_cons_succ, next, next]
          split
          · rw [Nat.add_right_comm]
            exact ih (l + 1) 1 n
          · exact ih l (column + 1) n

/-- In the rest of a text after its first line the positions are those of the rest, one line further
down. -/
theorem ofOffset_append_feed {line : List Char} (hline : '\n' ∉ line) (rest : List Char)
    (n : Nat) :
    ofOffset (line ++ '\n' :: rest) (line.length + (n + 1))
      = ⟨(ofOffset rest n).line + 1, (ofOffset rest n).column⟩ := by
  rw [ofOffset, advance_append_add, advance_of_not_mem _ _ _ hline, advance_cons_succ, next,
    if_pos rfl]
  exact advance_down 1 1 1 rest n

/-- In the first line of a text the columns count the characters. -/
theorem ofOffset_of_not_mem {line : List Char} (hline : '\n' ∉ line) (rest : List Char) {n : Nat}
    (hn : n ≤ line.length) : ofOffset (line ++ rest) n = ⟨1, n + 1⟩ := by
  rw [ofOffset, advance_append_of_le _ _ _ _ hn, advance_of_not_mem _ _ _ hline, first,
    Nat.add_comm]

end Position

/-! ## Line starts -/

namespace Text

/-- A line starts after the line feed before it. -/
theorem lt_of_mem_lineStartsAfter {b s : Nat} {cs : List Char} (hs : s ∈ lineStartsAfter b cs) :
    b < s := by
  induction cs generalizing b with
  | nil => simp [lineStartsAfter] at hs
  | cons c cs ih =>
      have hlater : s ∈ lineStartsAfter (b + 1) cs → b < s := fun h => Nat.lt_of_succ_lt (ih h)
      rw [lineStartsAfter] at hs
      split at hs
      · rcases List.mem_cons.mp hs with rfl | hs
        · exact Nat.lt_succ_self b
        · exact hlater hs
      · exact hlater hs

/-- Up to an offset a line starts after each line feed before it. -/
theorem countP_lineStartsAfter (b n : Nat) (cs : List Char) :
    (lineStartsAfter b cs).countP (fun s => decide (s ≤ b + n)) = (cs.take n).count '\n' := by
  induction cs generalizing b n with
  | nil => simp [lineStartsAfter]
  | cons c cs ih =>
      cases n with
      | zero =>
          rw [List.take_zero, List.count_nil, List.countP_eq_zero]
          intro s hs
          have hlt := lt_of_mem_lineStartsAfter hs
          simpa using hlt
      | succ n =>
          have hrest := ih (b + 1) n
          rw [Nat.add_right_comm, Nat.add_assoc] at hrest
          rw [lineStartsAfter, List.take_succ_cons]
          by_cases hc : c = '\n'
          · rw [if_pos hc, hc, List.count_cons_self, List.countP_cons_of_pos (by simp), hrest]
          · rw [if_neg hc, List.count_cons_of_ne hc, hrest]

/-- **The line of an offset** is the number of line starts up to it. -/
theorem line_ofOffset_eq_countP (text : List Char) (offset : Nat) :
    (Position.ofOffset text offset).line
      = (lineStarts text).countP fun s => decide (s ≤ offset) := by
  have hafter := countP_lineStartsAfter 0 offset text
  rw [Nat.zero_add] at hafter
  rw [Position.line_ofOffset, lineStarts, List.countP_cons_of_pos (by simp), hafter, Nat.add_comm]

/-- There are as many line starts as lines. -/
theorem length_lineStarts (text : List Char) :
    (lineStarts text).length = (lines text).length := by
  have hafter : ∀ (b : Nat) (cs : List Char), (lineStartsAfter b cs).length = cs.count '\n' := by
    intro b cs
    induction cs generalizing b with
    | nil => rfl
    | cons c cs ih =>
        rw [lineStartsAfter]
        by_cases hc : c = '\n'
        · rw [if_pos hc, hc, List.count_cons_self, List.length_cons, ih]
        · rw [if_neg hc, List.count_cons_of_ne hc, ih]
  rw [lineStarts, List.length_cons, hafter, length_lines]

/-! ## Lines -/

/-- A text is one line, or a line, a line feed and a text. -/
theorem inductLines {P : List Char → Prop} (last : ∀ line, '\n' ∉ line → P line)
    (more : ∀ line rest, '\n' ∉ line → P rest → P (line ++ '\n' :: rest)) (text : List Char) :
    P text := by
  induction hn : text.length using Nat.strongRecOn generalizing text with
  | _ n ih =>
      by_cases hfeed : '\n' ∈ text
      · obtain ⟨line, rest, rfl, hline⟩ := List.eq_append_cons_of_mem hfeed
        have hlt : rest.length < n := by
          rw [← hn, List.length_append, List.length_cons]
          omega
        exact more line rest hline (ih _ hlt rest rfl)
      · exact last text hfeed

/-- What is dropped from a line is a carriage return at its end. -/
theorem getElem?_dropCarriageReturn {cs : List Char} {n : Nat} {c : Char} (hc : cs[n]? = some c)
    (hreturn : ¬ (c = '\r' ∧ cs[n + 1]? = none)) : (dropCarriageReturn cs)[n]? = some c := by
  induction cs using dropCarriageReturn.induct generalizing n with
  | case1 => simp at hc
  | case2 =>
      cases n with
      | zero => exact absurd ⟨by simpa using hc.symm, rfl⟩ hreturn
      | succ n => simp at hc
  | case3 x xs hne ih =>
      rw [dropCarriageReturn]
      · cases n with
        | zero => exact hc
        | succ n => exact ih hc hreturn
      · exact hne

/-- **A character stands in its line at its column**, unless it is a line feed or a carriage return
right before a line feed or at the end of the text. -/
theorem getElem?_lines {text : List Char} {offset : Nat} {c : Char} (hc : text[offset]? = some c)
    (hfeed : c ≠ '\n')
    (hreturn : ¬ (c = '\r' ∧ (text[offset + 1]? = none ∨ text[offset + 1]? = some '\n'))) :
    ∃ piece, (lines text)[(Position.ofOffset text offset).line - 1]? = some piece ∧
      piece[(Position.ofOffset text offset).column - 1]? = some c := by
  induction text using inductLines generalizing offset with
  | last piece hpiece =>
      have hlt := (List.getElem?_eq_some_iff.mp hc).1
      have hposition := Position.ofOffset_of_not_mem hpiece [] (Nat.le_of_lt hlt)
      rw [List.append_nil] at hposition
      rw [hposition, lines_of_not_mem hpiece]
      refine ⟨_, rfl, getElem?_dropCarriageReturn hc ?_⟩
      rintro ⟨heq, hend⟩
      exact hreturn ⟨heq, .inl hend⟩
  | more piece rest hpiece ih =>
      have hlines : lines (piece ++ '\n' :: rest) = dropCarriageReturn piece :: lines rest := by
        rw [lines_append, lines_of_not_mem hpiece, List.singleton_append]
      rw [hlines]
      by_cases hlt : offset < piece.length
      · -- the line feed after the piece takes the part of the end of the text
        rw [List.getElem?_append_left hlt] at hc
        have hreturn' : ¬ (c = '\r' ∧ piece[offset + 1]? = none) := by
          rintro ⟨heq, hend⟩
          have hlast : offset + 1 = piece.length :=
            Nat.le_antisymm hlt (List.getElem?_eq_none_iff.mp hend)
          refine hreturn ⟨heq, .inr ?_⟩
          rw [hlast, List.getElem?_append_right (Nat.le_refl _), Nat.sub_self,
            List.getElem?_cons_zero]
        rw [Position.ofOffset_of_not_mem hpiece _ (Nat.le_of_lt hlt)]
        exact ⟨_, rfl, getElem?_dropCarriageReturn hc hreturn'⟩
      · obtain ⟨n, rfl⟩ := Nat.exists_eq_add_of_le (Nat.le_of_not_lt hlt)
        have hat : ∀ k, (piece ++ '\n' :: rest)[piece.length + k]? = ('\n' :: rest)[k]? := by
          intro k
          rw [List.getElem?_append_right (Nat.le_add_right _ _), Nat.add_sub_cancel_left]
        rw [hat] at hc
        cases n with
        | zero => exact absurd (by simpa using hc.symm) hfeed
        | succ n =>
            rw [Nat.add_assoc, hat, List.getElem?_cons_succ] at hreturn
            obtain ⟨found, hfound, hcolumn⟩ := ih (by simpa using hc) hreturn
            rw [Position.ofOffset_append_feed hpiece]
            have hpos : 0 < (Position.ofOffset rest n).line := by
              rw [Position.line_ofOffset]
              omega
            refine ⟨found, ?_, hcolumn⟩
            simp only [Nat.add_sub_cancel]
            rwa [← Nat.sub_add_cancel hpos, List.getElem?_cons_succ]

end Text

/-- **Coordinates of a text.**  Lines and columns come in the order of offsets, also past the end;
the line of an offset is one more than the number of line feeds before it, which is the number of
line starts up to it, and with the column it names the offset.  There are as many line starts as
lines, and each character that is neither a line feed nor a carriage return right before a line feed
or at the end of the text stands in its line at its column. -/
theorem Position.coordinates_agree (text : List Char) :
    (StrictMono fun offset =>
      toLex ((ofOffset text offset).line, (ofOffset text offset).column)) ∧
    (∀ offset, (ofOffset text offset).line = 1 + (text.take offset).count '\n' ∧
      (ofOffset text offset).line
        = (Text.lineStarts text).countP (fun s => decide (s ≤ offset)) ∧
      (ofOffset text offset).offset? text = some offset) ∧
    (Text.lineStarts text).length = (Text.lines text).length ∧
    ∀ offset c, text[offset]? = some c → c ≠ '\n' →
      ¬ (c = '\r' ∧ (text[offset + 1]? = none ∨ text[offset + 1]? = some '\n')) →
      ∃ piece, (Text.lines text)[(ofOffset text offset).line - 1]? = some piece ∧
        piece[(ofOffset text offset).column - 1]? = some c := by
  refine ⟨strictMono_ofOffset text, ?_, Text.length_lineStarts text, ?_⟩
  · intro offset
    exact ⟨line_ofOffset text offset, Text.line_ofOffset_eq_countP text offset,
      offset?_ofOffset text offset⟩
  · intro offset c hc hfeed hreturn
    exact Text.getElem?_lines hc hfeed hreturn

/-- A text with two carriage returns at the end of its first line. -/
def twoReturns : List Char := "x\r\r\n\ny".toList

/-- The first of them belongs to the line, and the second one does not. -/
theorem Position.coordinates_agree_twoReturns :
    twoReturns[1]? = some '\r' ∧ ¬ (twoReturns[2]? = none ∨ twoReturns[2]? = some '\n') ∧
    (ofOffset twoReturns 2).line = 1 ∧ (Text.lines twoReturns)[0]? = some ['x', '\r'] ∧
    ∃ piece, (Text.lines twoReturns)[(ofOffset twoReturns 1).line - 1]? = some piece ∧
      piece[(ofOffset twoReturns 1).column - 1]? = some '\r' := by
  have hreturn : ¬ (twoReturns[2]? = none ∨ twoReturns[2]? = some '\n') := by decide
  obtain ⟨-, -, -, hshown⟩ := coordinates_agree twoReturns
  exact ⟨by decide, hreturn, by decide, by decide,
    hshown 1 '\r' (by decide) (by decide) fun h => hreturn h.2⟩

end CodeSweep
