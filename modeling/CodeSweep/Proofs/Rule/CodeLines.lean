/-
# Rules for lines of code

Many patterns for lines begin alike: with a test that the line is no comment and with a short
stretch of any characters before what they look for.  The catalogue writes them as one pattern with
a line anchor, a look ahead and a lazy run.  What such a pattern comes to is a bounded search: it
matches a line that does not begin with a comment if the rest of it matches at one of the first
places of the line, and the match shows the first of these places (`hits_of_code`).
-/
import CodeSweep.Proofs.Pattern.Parts
import CodeSweep.Proofs.Rule.Test
import Mathlib.Order.Bounds.Basic

namespace CodeSweep

open Pattern

/-! ## Comments at the start of a line -/

namespace Catalogue

/-- The line without the spaces and tabulators at its start. -/
def unindented (line : List Char) : List Char := line.dropWhile spaceOrTab.holds

/-- How comments are marked. -/
inductive CommentMark where
  /-- By two slashes, a slash and a star, or a star at the start of a line. -/
  | slash
  /-- By a number sign. -/
  | numberSign
  deriving DecidableEq, Repr

namespace CommentMark

/-- A place in the first part of a line that is not a comment. -/
def code : CommentMark → Pattern
  | slash => slashCode
  | numberSign => hashCode

/-- The start of a comment. -/
def comment : CommentMark → Pattern
  | slash => slashComment
  | numberSign => "#"

/-- A comment starts with the text.  A star starts one unless a word character, an opening bracket
or another star follows. -/
def Starts : CommentMark → List Char → Prop
  | slash, cs => "//".toList <+: cs ∨ "/*".toList <+: cs ∨ cs.head? = some '*' ∧
      ∀ c ∈ cs.tail.head?, Text.isWord c = false ∧ c ≠ '(' ∧ c ≠ '*'
  | numberSign, cs => "#".toList <+: cs

/-- The line, after leading spaces and tabulators, starts with a comment. -/
def IsComment (mark : CommentMark) (line : List Char) : Prop := mark.Starts (unindented line)

instance (mark : CommentMark) (cs : List Char) : Decidable (mark.Starts cs) :=
  match mark with
  | slash =>
    have : Decidable (∀ c ∈ cs.tail.head?, Text.isWord c = false ∧ c ≠ '(' ∧ c ≠ '*') :=
      Option.decidableForallMem _
    inferInstanceAs (Decidable ("//".toList <+: cs ∨ "/*".toList <+: cs ∨ cs.head? = some '*' ∧
      ∀ c ∈ cs.tail.head?, Text.isWord c = false ∧ c ≠ '(' ∧ c ≠ '*'))
  | numberSign => inferInstanceAs (Decidable ("#".toList <+: cs))

instance (mark : CommentMark) (line : List Char) : Decidable (mark.IsComment line) :=
  inferInstanceAs (Decidable (mark.Starts (unindented line)))

/-- Lines of code are told apart from comments by what the comment begins with. -/
theorem code_eq (mark : CommentMark) :
    mark.code = lineStart ++ notAhead (gap ++ mark.comment) ++ within .inLine := by
  cases mark <;> rfl

/-- A comment does not start with a space or a tabulator. -/
theorem not_starts_cons (mark : CommentMark) {c : Char} (hc : spaceOrTab.holds c = true)
    (cs : List Char) : ¬ mark.Starts (c :: cs) := by
  have hblank : c = ' ' ∨ c = '\t' := by simpa using CharSet.holds_chars.mp hc
  rcases hblank with rfl | rfl <;> cases mark <;> simp [Starts]

end CommentMark

end Catalogue

open Catalogue

/-! ## What the start of a pattern matches -/

namespace Pattern

section

variable {line : List Char} {i : Nat} {g : Groups}

/-- A text is matched where it stands. -/
theorem exists_mem_ends_lit {s : String} :
    (∃ e, e ∈ ends line.toArray (lit s) i g) ↔ s.toList <+: line.drop i :=
  ⟨fun ⟨_, he⟩ => (mem_ends_ofChars.mp he).1, fun h => ⟨_, mem_ends_ofChars.mpr ⟨h, rfl⟩⟩⟩

/-- Where nothing is ahead the place is left as it is. -/
theorem ends_notAhead {p : Pattern} (h : ¬ ∃ f, f ∈ ends line.toArray p i g) :
    ends line.toArray (notAhead p) i g = [(i, g)] := by
  rw [notAhead, ends, List.eq_nil_iff_forall_not_mem.mpr (not_exists.mp h)]
  rfl

/-- Looking ahead in vain for a pattern. -/
theorem mem_ends_notAhead {p : Pattern} {e : End} :
    e ∈ ends line.toArray (notAhead p) i g ↔
      (¬ ∃ f, f ∈ ends line.toArray p i g) ∧ e = (i, g) := by
  constructor
  · rw [notAhead, ends]
    cases ends line.toArray p i g with
    | nil => simp [testedEnd]
    | cons f fs => simp [testedEnd]
  · rintro ⟨h, rfl⟩
    rw [ends_notAhead h]
    exact List.mem_singleton_self _

/-- What may follow a star that starts a comment. -/
theorem holds_afterStar {c : Char} :
    (CharSet.inside (wordChars ++ chars "(*")).holds c = false ↔
      Text.isWord c = false ∧ c ≠ '(' ∧ c ≠ '*' := by
  have hword : (CharSet.inside wordChars).holds c = Text.isWord c := CharSet.holds_wordChar c
  have hchars : (CharSet.inside (chars "(*")).holds c = true ↔ c = '(' ∨ c = '*' := by
    simp [CharSet.holds_chars]
  rw [CharSet.holds_inside_append, hword, Bool.or_eq_false_iff,
    ← Bool.not_eq_true (CharSet.holds _ _), hchars, not_or]

/-- A comment is matched where one starts. -/
theorem exists_mem_ends_comment (mark : CommentMark) :
    (∃ e, e ∈ ends line.toArray mark.comment i g) ↔ mark.Starts (line.drop i) := by
  cases mark with
  | numberSign => exact exists_mem_ends_lit
  | slash =>
      -- a star, and what follows it
      have hstar : (∃ e, e ∈ ends line.toArray
            ("*" ++ notAhead (one (.inside (wordChars ++ chars "(*")))) i g) ↔
          (line.drop i).head? = some '*' ∧ ∀ c ∈ (line.drop i).tail.head?,
            Text.isWord c = false ∧ c ≠ '(' ∧ c ≠ '*' := by
        rw [List.head?_drop, List.tail_drop, List.head?_drop]
        constructor
        · rintro ⟨e, he⟩
          obtain ⟨mid, hmid, he⟩ := List.mem_flatMap.mp he
          obtain ⟨hstar, rfl⟩ := (mem_ends_single (c := '*')).mp hmid
          obtain ⟨hnone, rfl⟩ := mem_ends_notAhead.mp he
          refine ⟨List.getElem?_toArray ▸ hstar, fun c hc => ?_⟩
          rw [← holds_afterStar, ← Bool.not_eq_true]
          intro hholds
          have hat := holdsAt_eq_true_iff.mpr ⟨c, List.getElem?_toArray.trans hc, hholds⟩
          exact hnone ⟨_, mem_ends_one.mpr ⟨hat, rfl⟩⟩
        · rintro ⟨hstar, hafter⟩
          refine ⟨(i + 1, g), List.mem_flatMap.mpr ⟨(i + 1, g), ?_, ?_⟩⟩
          · exact (mem_ends_single (c := '*')).mpr ⟨List.getElem?_toArray.trans hstar, rfl⟩
          · refine mem_ends_notAhead.mpr ⟨?_, rfl⟩
            rintro ⟨f, hf⟩
            obtain ⟨c, hc, hholds⟩ := holdsAt_eq_true_iff.mp (mem_ends_one.mp hf).1
            rw [List.getElem?_toArray] at hc
            rw [holds_afterStar.mpr (hafter c hc)] at hholds
            cases hholds
      have halt : (∃ e, e ∈ ends line.toArray CommentMark.slash.comment i g) ↔
          (∃ e, e ∈ ends line.toArray "//" i g) ∨ (∃ e, e ∈ ends line.toArray "/*" i g) ∨
            ∃ e, e ∈ ends line.toArray
              ("*" ++ notAhead (one (.inside (wordChars ++ chars "(*")))) i g := by
        rw [← exists_or, ← exists_or]
        exact exists_congr fun e => by
          rw [← List.mem_append, ← List.mem_append]
          rfl
      rw [halt, hstar, exists_mem_ends_lit, exists_mem_ends_lit]
      rfl

/-- What does not start with a character of a kind stands after some of that kind if it stands after
all of them. -/
theorem exists_drop_iff {P : List Char → Prop} {test : Char → Bool}
    (hP : ∀ c cs, test c = true → ¬ P (c :: cs)) (cs : List Char) :
    (∃ n, (∀ k < n, ∃ c, cs[k]? = some c ∧ test c = true) ∧ P (cs.drop n)) ↔
      P (cs.dropWhile test) := by
  induction cs with
  | nil =>
      constructor
      · rintro ⟨n, -, h⟩
        simpa using h
      · intro h
        exact ⟨0, nofun, h⟩
  | cons c cs ih =>
      by_cases hc : test c = true
      · rw [List.dropWhile_cons_of_pos hc, ← ih]
        constructor
        · rintro ⟨n, hall, h⟩
          cases n with
          | zero => exact absurd h (hP c cs hc)
          | succ n => exact ⟨n, fun k hk => by simpa using hall (k + 1) (Nat.succ_lt_succ hk), h⟩
        · rintro ⟨n, hall, h⟩
          refine ⟨n + 1, fun k hk => ?_, h⟩
          cases k with
          | zero => exact ⟨c, rfl, hc⟩
          | succ k => simpa using hall k (Nat.lt_of_succ_lt_succ hk)
      · rw [List.dropWhile_cons_of_neg hc]
        constructor
        · rintro ⟨n, hall, h⟩
          cases n with
          | zero => exact h
          | succ n =>
              obtain ⟨d, hd, htest⟩ := hall 0 (Nat.succ_pos n)
              obtain rfl : c = d := by simpa using hd
              exact absurd htest hc
        · intro h
          exact ⟨0, nofun, h⟩

/-- Where the line starts, a comment is matched after spaces and tabulators if the line is one. -/
theorem exists_mem_ends_gap_comment (mark : CommentMark) :
    (∃ e, e ∈ ends line.toArray (gap ++ mark.comment) 0 g) ↔ mark.IsComment line := by
  rw [CommentMark.IsComment, unindented,
    ← exists_drop_iff fun c cs hc => mark.not_starts_cons hc cs]
  constructor
  · rintro ⟨e, he⟩
    obtain ⟨mid, hmid, he⟩ := List.mem_flatMap.mp he
    obtain ⟨n, rfl, -, -, hall⟩ := mem_ends_run.mp hmid
    simp only [Nat.zero_add, holdsAt_eq_true_iff, List.getElem?_toArray] at hall he
    exact ⟨n, hall, (exists_mem_ends_comment mark).mp ⟨e, he⟩⟩
  · rintro ⟨n, hall, hstarts⟩
    obtain ⟨e, he⟩ := (exists_mem_ends_comment (g := g) mark).mpr hstarts
    refine ⟨e, List.mem_flatMap.mpr ⟨(0 + n, g), ?_, by rwa [Nat.zero_add]⟩⟩
    refine mem_ends_run.mpr ⟨n, rfl, Nat.zero_le n, by simp, fun k hk => ?_⟩
    obtain ⟨c, hc, htest⟩ := hall k hk
    exact holdsAt_eq_true_iff.mpr ⟨c, by rwa [Nat.zero_add, List.getElem?_toArray], htest⟩

/-- In a line a lazy run of any characters ends at each of the first places, one after the other. -/
theorem ends_within (hline : '\n' ∉ line) :
    ends line.toArray (within .inLine) 0 g
      = (List.range (min maxSpan line.length + 1)).map fun k => (k, g) := by
  have hlength : runLength .inLine line.toArray maxSpan 0 = min maxSpan line.length := by
    refine eq_of_forall_le_iff fun n => ?_
    rw [le_runLength_iff, Nat.le_min]
    simp only [Nat.zero_add, holdsAt_eq_true_iff, List.getElem?_toArray]
    refine and_congr_right fun _ => ⟨fun hall => ?_, fun hle k hk => ?_⟩
    · -- the last character of the run is one of the line
      cases n with
      | zero => exact Nat.zero_le _
      | succ n =>
          obtain ⟨c, hc, -⟩ := hall n (Nat.lt_succ_self n)
          exact (List.getElem?_eq_some_iff.mp hc).1
    · have hlt : k < line.length := Nat.lt_of_lt_of_le hk hle
      obtain ⟨c, hc⟩ : ∃ c, (line)[k]? = some c := ⟨_, List.getElem?_eq_getElem hlt⟩
      have hne : c ≠ '\n' := fun h => hline (h ▸ List.mem_of_getElem? hc)
      exact ⟨c, hc, CharSet.holds_inLine.mpr hne⟩
  rw [within, fewest, ends, runEnds]
  simp only [Option.getD_some, if_true, hlength]
  rw [Nat.add_zero, Nat.sub_zero, ← List.range_eq_range']

/-- A line starts at its first place only. -/
theorem ends_lineStart (hline : '\n' ∉ line) :
    ends line.toArray lineStart i g = if i = 0 then [(i, g)] else [] := by
  rw [lineStart, ends]
  by_cases hi : i = 0
  · simp [hi, Edge.holds]
  · have hbefore : holdsBefore (· == '\n') line.toArray i = false := by
      rw [holdsBefore, charBefore, if_neg hi, List.getElem?_toArray]
      cases hc : (line)[i - 1]? with
      | none => rfl
      | some c =>
          have hne : c ≠ '\n' := fun h => hline (h ▸ List.mem_of_getElem? hc)
          simpa using hne
    simp [hi, Edge.holds, hbefore]

/-- **The start of a pattern for code** leads to each of the first places of a line that is not a
comment, and nowhere else. -/
theorem ends_code (mark : CommentMark) (hline : '\n' ∉ line) :
    (¬ mark.IsComment line → ends line.toArray mark.code 0 g
      = (List.range (min maxSpan line.length + 1)).map fun k => (k, g)) ∧
    (mark.IsComment line → ends line.toArray mark.code 0 g = []) ∧
    ∀ i ≠ 0, ends line.toArray mark.code i g = [] := by
  have hseq : ∀ i, ends line.toArray mark.code i g
      = ((ends line.toArray lineStart i g).flatMap fun e =>
          ends line.toArray (notAhead (gap ++ mark.comment)) e.1 e.2).flatMap fun e =>
            ends line.toArray (within .inLine) e.1 e.2 := by
    rw [CommentMark.code_eq]
    exact fun _ => rfl
  simp only [hseq, ends_lineStart hline]
  refine ⟨fun hcode => ?_, fun hcomment => ?_, fun i hi => ?_⟩
  · rw [if_pos trivial, List.flatMap_singleton,
      ends_notAhead (mt (exists_mem_ends_gap_comment mark).mp hcode), List.flatMap_singleton,
      ends_within hline]
  · have hnone : ends line.toArray (notAhead (gap ++ mark.comment)) 0 g = [] :=
      List.eq_nil_iff_forall_not_mem.mpr fun e he =>
        (mem_ends_notAhead.mp he).1 ((exists_mem_ends_gap_comment mark).mpr hcomment)
    rw [if_pos trivial, List.flatMap_singleton, hnone, List.flatMap_nil]
  · rw [if_neg hi, List.flatMap_nil, List.flatMap_nil]

end

/-! ## The bounded search -/

/-- The places among the first of the line at which the pattern matches. -/
def firstPlaces (rest : Pattern) (line : List Char) : Set Nat :=
  {k | k ≤ maxSpan ∧ k ≤ line.length ∧ (rest.matchAt? line.toArray k).isSome = true}

/-- A pattern that matches at the first place only is searched for there. -/
theorem search?_eq_matchAt? {p : Pattern} {text : Array Char}
    (hp : ∀ i ≠ 0, ends text p i [] = []) : p.search? text 0 = p.matchAt? text 0 := by
  have hlater : p.searchFrom? text text.size (0 + 1) = none :=
    searchFrom?_eq_none_iff.mpr fun k _ => hp _ (by omega)
  rw [search?, Nat.sub_zero, searchFrom?, hlater]
  simp

/-- The first member of lists one after the other is that of the first list that is not empty. -/
theorem exists_isLeast_of_head? {α : Type} {f : Nat → List α} {n : Nat} {a : α}
    (h : ((List.range n).flatMap f).head? = some a) :
    ∃ k, IsLeast {k | k < n ∧ f k ≠ []} k ∧ (f k).head? = some a := by
  rw [List.head?_flatMap, List.findSome?_eq_some_iff] at h
  obtain ⟨before, k, after, hrange, hhead, hnone⟩ := h
  have hsorted := List.pairwise_lt_range (n := n)
  rw [hrange, List.pairwise_append, List.pairwise_cons] at hsorted
  have hk : k ∈ List.range n := by simp [hrange]
  refine ⟨k, ⟨⟨List.mem_range.mp hk, ?_⟩, ?_⟩, hhead⟩
  · intro hnil
    rw [hnil] at hhead
    cases hhead
  · rintro j ⟨hj, hne⟩
    have hmem : j ∈ before ++ k :: after := hrange ▸ List.mem_range.mpr hj
    rcases List.mem_append.mp hmem with hj | hj
    · exact absurd (List.head?_eq_none_iff.mp (hnone j hj)) hne
    · rcases List.mem_cons.mp hj with rfl | hj
      · exact Nat.le_refl _
      · exact Nat.le_of_lt (hsorted.2.1.1 j hj)

section

variable {mark : CommentMark} {p rest : Pattern} {line : List Char}
  (hp : p.parts = (mark.code ++ rest).parts) (hline : '\n' ∉ line)

include hp hline

/-- Such a pattern matches at the first place of a line only. -/
theorem search?_eq_of_code :
    p.search? line.toArray 0 = ((ends line.toArray mark.code 0 []).flatMap fun e =>
      ends line.toArray rest e.1 e.2).head?.map fun e => ⟨0, e.1, e.2⟩ := by
  have hends : ∀ i, ends line.toArray p i [] = (ends line.toArray mark.code i []).flatMap fun e =>
      ends line.toArray rest e.1 e.2 := fun i => ends_eq_of_parts_eq hp
  have hfirst : ∀ i ≠ 0, ends line.toArray p i [] = [] := by
    intro i hi
    rw [hends, (ends_code mark hline).2.2 i hi, List.flatMap_nil]
  rw [search?_eq_matchAt? hfirst, matchAt?_eq, hends]

/-- In a comment nothing is found. -/
theorem search?_of_isComment (hcomment : mark.IsComment line) :
    p.search? line.toArray 0 = none := by
  rw [search?_eq_of_code hp hline, (ends_code mark hline).2.1 hcomment]
  rfl

/-- **The bounded search.**  In a line of code a match is found if the rest of the pattern matches
at one of the first places, and then it goes on with a match of the rest at the first of them. -/
theorem search?_of_not_isComment (hcode : ¬ mark.IsComment line) :
    ((p.search? line.toArray 0).isSome = true ↔ (firstPlaces rest line).Nonempty) ∧
    ∀ m, p.search? line.toArray 0 = some m → ∃ k, IsLeast (firstPlaces rest line) k ∧
      (m.stop, m.groups) ∈ ends line.toArray rest k [] := by
  have hplaces : firstPlaces rest line
      = {k | k < min maxSpan line.length + 1 ∧ ends line.toArray rest k [] ≠ []} := by
    ext k
    have hmatch : (rest.matchAt? line.toArray k).isSome = true ↔
        ends line.toArray rest k [] ≠ [] := by
      rw [Option.isSome_iff_ne_none, ne_eq, ne_eq, matchAt?_eq_none_iff]
    rw [firstPlaces, Set.mem_ofPred_eq, Set.mem_ofPred_eq, hmatch, ← and_assoc, Nat.lt_succ_iff,
      Nat.le_min]
  rw [search?_eq_of_code hp hline, (ends_code mark hline).1 hcode, List.flatMap_map, hplaces]
  constructor
  · rw [Option.isSome_map, List.isSome_head?, ne_eq, List.flatMap_eq_nil_iff]
    simp only [List.mem_range, not_forall, exists_prop]
    rfl
  · intro m hm
    obtain ⟨e, he, rfl⟩ := Option.map_eq_some_iff.mp hm
    obtain ⟨k, hk, hhead⟩ := exists_isLeast_of_head? he
    exact ⟨k, hk, List.mem_of_head? hhead⟩

end

end Pattern

/-! ## Hits -/

/-- **Hits in a line.**  A pattern for code has a hit in a line that is not too long if the line is
no comment and the rest of the pattern matches at one of the first places; the hit begins at the
first of them. -/
theorem Hit.inLine?_of_code {mark : CommentMark} {p rest : Pattern} {line : List Char}
    (hp : p.parts = (mark.code ++ rest).parts) (hhit : beginsInTurn "hit" rest.parts = true)
    (hline : '\n' ∉ line) (hlength : line.length ≤ maxLineLength) (number : Nat) :
    ((inLine? p number line).isSome = true ↔
      ¬ mark.IsComment line ∧ (rest.firstPlaces line).Nonempty) ∧
    ∀ h, inLine? p number line = some h →
      ∃ k, IsLeast (rest.firstPlaces line) k ∧ h.extent.start = ⟨number, k + 1⟩ := by
  rw [inLine?, if_neg (Nat.not_lt_of_le hlength), Option.isSome_map]
  by_cases hcomment : mark.IsComment line
  · rw [search?_of_isComment hp hline hcomment]
    simp [hcomment]
  · obtain ⟨hfound, hfirst⟩ := search?_of_not_isComment hp hline hcomment
    refine ⟨hfound.trans (by simp [hcomment]), fun h hh => ?_⟩
    obtain ⟨m, hm, rfl⟩ := Option.map_eq_some_iff.mp hh
    obtain ⟨k, hk, hends⟩ := hfirst m hm
    -- the group that is shown begins where the rest of the pattern does
    rw [ends_eq_endsInTurn] at hends
    obtain ⟨b, hb⟩ := beginsInTurn_lookup hhit _ hends
    have hshown : m.shown = (k, b) := by rw [Match.shown, Match.group?, hb, Option.getD_some]
    exact ⟨k, hk, by rw [hshown]⟩

/-- The catalogue's patterns for lines of code belong to enabled rules that read lines, and what
comes after the start of such a pattern begins with the group that is shown. -/
theorem catalogue_code (mark : CommentMark) : ∀ r ∈ Registry.builtin.rules, ∀ p ∈ r.pattern?,
    mark.code.parts <+: p.parts → r.enabled = true ∧ r.scope = .line ∧
      beginsInTurn "hit" (p.parts.drop mark.code.parts.length) = true := by
  cases mark <;> decide +kernel

/-- **Rules for lines of code.**  Where the pattern of a rule of the catalogue is one of the two
tests for code and then the rest, the rule has a hit in a line of a text, which is not too long, if
the line does not start with a comment and the rest of the pattern matches at one of the first
places of the line; the column of the hit is that of the first of these places. -/
theorem Rule.hits_of_code {r : Rule} (hr : r ∈ Registry.builtin.rules) {p rest : Pattern}
    (hp : r.pattern? = some p) {mark : CommentMark} (hrest : p.parts = (mark.code ++ rest).parts)
    {text line : List Char} {n : Nat} (hline : (Text.lines text)[n]? = some line)
    (hlength : line.length ≤ Hit.maxLineLength) :
    ∃ hs, r.hits? text = some hs ∧
      ((∃ h ∈ hs, h.extent.start.line = n + 1) ↔
        ¬ mark.IsComment line ∧
          ∃ k, k ≤ maxSpan ∧ k ≤ line.length ∧ (rest.matchAt? line.toArray k).isSome = true) ∧
      ∀ h ∈ hs, h.extent.start.line = n + 1 → ∃ k, h.extent.start.column = k + 1 ∧
        IsLeast {k | k ≤ maxSpan ∧ k ≤ line.length ∧
          (rest.matchAt? line.toArray k).isSome = true} k := by
  have hparts : p.parts = mark.code.parts ++ rest.parts := hrest
  obtain ⟨henabled, hscope, hhit⟩ := catalogue_code mark r hr p hp (hparts ▸ List.prefix_append _ _)
  rw [hparts, List.drop_left] at hhit
  obtain ⟨hfound, hfirst⟩ := Hit.inLine?_of_code hrest hhit (Text.not_mem_of_getElem?_lines hline)
    hlength (1 + n)
  -- the hits of the line are those that are numbered with it
  have hmem : ∀ h, h ∈ Hit.inLines p 1 (Text.lines text) ∧ h.extent.start.line = n + 1 ↔
      Hit.inLine? p (1 + n) line = some h := by
    intro h
    rw [Hit.mem_inLines]
    constructor
    · rintro ⟨⟨k, other, hother, hh⟩, hnumber⟩
      rw [Hit.line_of_inLine? hh] at hnumber
      obtain rfl : k = n := by omega
      obtain rfl := Option.some.inj (hother.symm.trans hline)
      exact hh
    · intro hh
      exact ⟨⟨n, line, hline, hh⟩, by rw [Hit.line_of_inLine? hh, Nat.add_comm]⟩
  refine ⟨_, hits?_eq_inLines henabled hscope hp text, ?_, ?_⟩
  · simp only [hmem, ← Option.isSome_iff_exists]
    exact hfound
  · intro h hh hnumber
    obtain ⟨k, hk, hstart⟩ := hfirst h ((hmem h).mp ⟨hh, hnumber⟩)
    exact ⟨k, by rw [hstart], hk⟩

/-- A line of code with two calls that print. -/
def printLine : List Char := "\tx := y; fmt.Print(x); fmt.Print(y)".toList

/-- A line with such a call that looks like a comment. -/
def commentLine : List Char := " *\tfmt.Print(z)".toList

/-- What the rule for calls that print looks for. -/
def printCall : Pattern :=
  hit (wordEdge ++ "fmt.Print" ++ optional (anyWord ["ln", "f"]) ++ callOpen)

/-- In the first line the rule has a hit at the first call, and in the second line none. -/
theorem Rule.hits_of_code_print :
    ∃ r hs, Registry.builtin.rule? "go_fmt_debugging" = some r ∧
      r.hits? (printLine ++ '\n' :: commentLine) = some hs ∧
      (∃ h ∈ hs, h.extent.start = ⟨1, 10⟩) ∧ ¬ ∃ h ∈ hs, h.extent.start.line = 2 := by
  obtain ⟨r, hr⟩ := Option.isSome_iff_exists.mp
    (show (Registry.builtin.rule? "go_fmt_debugging").isSome = true by decide +kernel)
  have hpattern : ∀ r ∈ Registry.builtin.rule? "go_fmt_debugging",
      r.pattern? = some (slashCode ++ printCall) := by decide +kernel
  have hmem : r ∈ Registry.builtin.rules := List.mem_of_find?_eq_some hr
  have hhere : (printCall.matchAt? printLine.toArray 9).isSome = true := by decide +kernel
  have hbefore : ∀ k < 9, (printCall.matchAt? printLine.toArray k).isSome = false := by
    decide +kernel
  obtain ⟨hs, hhs, hfirst, hcolumn⟩ := @hits_of_code r hmem (slashCode ++ printCall) printCall
    (hpattern r hr) .slash rfl (printLine ++ '\n' :: commentLine) printLine 0 (by decide)
    (by decide)
  obtain ⟨hs', hhs', hsecond, -⟩ := @hits_of_code r hmem (slashCode ++ printCall) printCall
    (hpattern r hr) .slash rfl (printLine ++ '\n' :: commentLine) commentLine 1 (by decide)
    (by decide)
  obtain rfl : hs = hs' := Option.some.inj (hhs.symm.trans hhs')
  refine ⟨r, hs, hr, hhs, ?_, fun hh => (hsecond.mp hh).1 (by decide)⟩
  obtain ⟨h, hh, hline⟩ := hfirst.mpr ⟨by decide, 9, by decide, by decide, hhere⟩
  obtain ⟨k, hk, ⟨-, -, hmatch⟩, hleast⟩ := hcolumn h hh hline
  obtain rfl : k = 9 := by
    refine Nat.le_antisymm (hleast ⟨by decide, by decide, hhere⟩) (Nat.le_of_not_lt fun hlt => ?_)
    rw [hbefore k hlt] at hmatch
    cases hmatch
  refine ⟨h, hh, ?_⟩
  rw [show h.extent.start = ⟨h.extent.start.line, h.extent.start.column⟩ from rfl, hline, hk]

end CodeSweep
