/-
# Patterns that stay in a line

A pattern that asks for no line feed, looks back by one character at most and has no edges but those
of lines and words cannot tell the ends of a line from the ends of a text.  So in a part of a text
between line feeds it matches what it matches in that part alone (`ends_add`), and it is found in
two texts with a line feed between them if it is found in one of them (`foundIn_append`).
-/
import CodeSweep.Proofs.Pattern.Matches
import CodeSweep.Proofs.Text.Lines
import Mathlib.Data.List.Basic

namespace CodeSweep

/-! ## Staying in a line -/

/-- The edge is the same at the ends of a line as at the ends of a text. -/
def Edge.staysInLine : Edge → Bool
  | .lineStart => true
  | .lineEnd => true
  | .wordEdge => true
  | _ => false

/-- The pattern asks for no line feed, looks back by one character at most, and has no edges but
those of lines and words. -/
def Pattern.staysInLine : Pattern → Bool
  | empty => true
  | one s => !s.holds '\n'
  | run s _ _ _ => !s.holds '\n'
  | seq p q => p.staysInLine && q.staysInLine
  | alt p q => p.staysInLine && q.staysInLine
  | iter p _ _ _ => p.staysInLine
  | group _ p => p.staysInLine
  | edge e => e.staysInLine
  | ahead p _ => p.staysInLine
  | behind (one s) 1 _ => !s.holds '\n'
  | behind _ _ _ => false

/-! ## Parts of a text between line feeds -/

/-- The part stands in the text from `b` on, between line feeds or the ends of the text. -/
structure IsPart (text : Array Char) (b : Nat) (part : Array Char) : Prop where
  size_le : b + part.size ≤ text.size
  getElem?_add : ∀ i < part.size, text[b + i]? = part[i]?
  start : b = 0 ∨ charBefore text b = some '\n'
  stop : b + part.size = text.size ∨ text[b + part.size]? = some '\n'

/-- The first of two texts with a line feed between them. -/
theorem isPart_left (as bs : List Char) : IsPart (as ++ '\n' :: bs).toArray 0 as.toArray where
  size_le := by simp
  getElem?_add i hi := by
    simp only [List.size_toArray] at hi
    simp [List.getElem?_append_left hi]
  start := .inl rfl
  stop := .inr (by simp)

/-- The second of two texts with a line feed between them. -/
theorem isPart_right (as bs : List Char) :
    IsPart (as ++ '\n' :: bs).toArray (as.length + 1) bs.toArray where
  size_le := by
    simp only [List.size_toArray, List.length_append, List.length_cons]
    omega
  getElem?_add i _ := by
    rw [List.getElem?_toArray, List.getElem?_toArray,
      List.getElem?_append_right (by omega),
      show as.length + 1 + i - as.length = i + 1 by omega, List.getElem?_cons_succ]
  start := .inr (by simp [charBefore])
  stop := .inl (by
    simp only [List.size_toArray, List.length_append, List.length_cons]
    omega)

namespace IsPart

variable {text part : Array Char} {b : Nat} (h : IsPart text b part)

include h

/-- A test that no line feed passes gives the same at places of the part. -/
theorem holdsAt_add {test : Char → Bool} (htest : test '\n' = false) {i : Nat}
    (hi : i ≤ part.size) : holdsAt test text (b + i) = holdsAt test part i := by
  rcases Nat.lt_or_eq_of_le hi with hlt | rfl
  · rw [holdsAt, holdsAt, h.getElem?_add i hlt]
  · -- after the part there is a line feed or nothing
    have hpart : holdsAt test part part.size = false := by simp [holdsAt]
    rw [hpart, holdsAt]
    rcases h.stop with hstop | hstop
    · simp [hstop]
    · simp [hstop, htest]

/-- The character before a place of the part, but not the first one, is in the part. -/
theorem charBefore_add {i : Nat} (hi : i ≤ part.size) (hpos : i ≠ 0) :
    charBefore text (b + i) = charBefore part i := by
  rw [charBefore, charBefore, if_neg (by omega), if_neg hpos, Nat.add_sub_assoc (by omega),
    h.getElem?_add _ (by omega)]

/-- A test that no line feed passes gives the same before places of the part. -/
theorem holdsBefore_add {test : Char → Bool} (htest : test '\n' = false) {i : Nat}
    (hi : i ≤ part.size) : holdsBefore test text (b + i) = holdsBefore test part i := by
  by_cases hpos : i = 0
  · subst hpos
    have hpart : holdsBefore test part 0 = false := by simp [holdsBefore, charBefore]
    rw [hpart, holdsBefore, Nat.add_zero]
    rcases h.start with rfl | hstart
    · simp [charBefore]
    · simp [hstart, htest]
  · rw [holdsBefore, holdsBefore, h.charBefore_add hi hpos]

/-- Edges of lines and words are the same in the part. -/
theorem edge_holds_add {e : Edge} (he : e.staysInLine = true) {i : Nat} (hi : i ≤ part.size) :
    e.holds text (b + i) = e.holds part i := by
  cases e with
  | lineStart =>
      by_cases hpos : i = 0
      · subst hpos
        rcases h.start with rfl | hstart
        · simp [Edge.holds]
        · simp [Edge.holds, holdsBefore, hstart]
      · have hne : b + i ≠ 0 := by omega
        simp only [Edge.holds, holdsBefore, h.charBefore_add hi hpos, beq_false_of_ne hpos,
          beq_false_of_ne hne]
  | lineEnd =>
      rcases Nat.lt_or_eq_of_le hi with hlt | rfl
      · have hsize := h.size_le
        have hne : b + i ≠ text.size := by omega
        simp only [Edge.holds, holdsAt, h.getElem?_add i hlt, beq_false_of_ne hne,
          beq_false_of_ne (Nat.ne_of_lt hlt)]
      · rcases h.stop with hstop | hstop
        · simp [Edge.holds, hstop]
        · simp [Edge.holds, holdsAt, hstop]
  | wordEdge =>
      simp only [Edge.holds]
      rw [h.holdsBefore_add (by decide) hi, h.holdsAt_add (by decide) hi]
  | _ => simp [Edge.staysInLine] at he

end IsPart

namespace Pattern

/-! ## Runs -/

/-- A run in a part is as long as it is in the text. -/
theorem runLength_add {s : CharSet} (hs : s.holds '\n' = false) {text part : Array Char} {b : Nat}
    (h : IsPart text b part) (limit : Nat) {i : Nat} (hi : i ≤ part.size) :
    runLength s text limit (b + i) = runLength s part limit i := by
  induction limit generalizing i with
  | zero => rfl
  | succ limit ih =>
      rw [runLength, runLength, h.holdsAt_add hs hi]
      split
      · next hc => rw [Nat.add_assoc, ih (lt_size_of_holdsAt hc)]
      · rfl

/-- No limit beyond the end of the text matters to a run. -/
theorem runLength_eq_of_le (s : CharSet) (text : Array Char) {limit limit' i : Nat}
    (h : text.size ≤ i + limit) (h' : text.size ≤ i + limit') :
    runLength s text limit i = runLength s text limit' i := by
  induction limit generalizing i limit' with
  | zero =>
      cases limit' with
      | zero => rfl
      | succ limit' =>
          rw [runLength, runLength, if_neg]
          intro hc
          have := lt_size_of_holdsAt hc
          omega
  | succ limit ih =>
      cases limit' with
      | zero =>
          rw [runLength, runLength, if_neg]
          intro hc
          have := lt_size_of_holdsAt hc
          omega
      | succ limit' =>
          rw [runLength, runLength]
          split
          · rw [@ih limit' (i + 1) (by omega) (by omega)]
          · rfl

/-- A run in a part may end where it may end in the text. -/
theorem runEnds_add {s : CharSet} (hs : s.holds '\n' = false) {text part : Array Char} {b : Nat}
    (h : IsPart text b part) (least : Nat) (most : Option Nat) (lazy : Bool) {i : Nat}
    (hi : i ≤ part.size) :
    runEnds s least most lazy text (b + i)
      = (runEnds s least most lazy part i).map (b + ·) := by
  have hlength : runLength s text (most.getD (text.size - (b + i))) (b + i)
      = runLength s part (most.getD (part.size - i)) i := by
    rw [runLength_add hs h _ hi]
    cases most with
    | some n => rfl
    | none =>
        have hsize := h.size_le
        exact runLength_eq_of_le s part (by simp only [Option.getD_none]; omega)
          (by simp only [Option.getD_none]; omega)
  rw [runEnds, runEnds, hlength]
  split
  · rw [List.map_add_range', Nat.add_assoc]
  · rw [List.map_reverse, List.map_add_range', Nat.add_assoc]

/-! ## Rows of matches -/

/-- The stretches `n` characters further on. -/
def Groups.shift (n : Nat) (g : Groups) : Groups := g.map fun s => (s.1, n + s.2.1, n + s.2.2)

/-- The end `n` characters further on. -/
def End.shift (n : Nat) (e : End) : End := (n + e.1, Groups.shift n e.2)

/-- More matches than there are characters left cannot follow each other. -/
theorem atMostEnds_eq_of_le {step : Nat → Groups → List End} {size : Nat} {P : Groups → Prop}
    (hstep : ∀ i g, i ≤ size → P g → ∀ e ∈ step i g, i ≤ e.1 ∧ e.1 ≤ size ∧ P e.2) (lazy : Bool)
    {n n' : Nat} {last : Option Nat} {i : Nat} {g : Groups} (hi : i ≤ size) (hg : P g)
    (hn : last = some i ∨ size < i + n) (hn' : last = some i ∨ size < i + n') :
    atMostEnds step lazy n last i g = atMostEnds step lazy n' last i g := by
  induction n generalizing n' last i g with
  | zero =>
      obtain rfl : last = some i := by
        rcases hn with hn | hn
        · exact hn
        · omega
      cases n' <;> simp [atMostEnds]
  | succ n ih =>
      by_cases hlast : last = some i
      · cases n' <;> simp [atMostEnds, hlast]
      · cases n' with
        | zero =>
            have hlt := hn'.resolve_left hlast
            omega
        | succ n' =>
            have hlt := hn.resolve_left hlast
            have hlt' := hn'.resolve_left hlast
            -- a match that is not empty leaves fewer characters, and an empty one is the last
            have hmore : ((step i g).flatMap fun e => atMostEnds step lazy n (some i) e.1 e.2)
                = (step i g).flatMap fun e => atMostEnds step lazy n' (some i) e.1 e.2 := by
              apply List.flatMap_congr
              intro e he
              obtain ⟨hle, hsize, hge⟩ := hstep i g hi hg e he
              rcases Nat.lt_or_eq_of_le hle with hless | heq
              · exact ih hsize hge (.inr (by omega)) (.inr (by omega))
              · exact ih hsize hge (.inl (by rw [heq])) (.inl (by rw [heq]))
            rw [atMostEnds, atMostEnds, hmore]

/-- A longer text does not allow for more matches in a row. -/
theorem atMostEnds_further {step : Nat → Groups → List End} {size size' : Nat}
    {P : Groups → Prop}
    (hstep : ∀ i g, i ≤ size → P g → ∀ e ∈ step i g, i ≤ e.1 ∧ e.1 ≤ size ∧ P e.2) (lazy : Bool)
    (least : Nat) (most : Option Nat) (last : Option Nat) (hsize : size ≤ size') {i : Nat}
    {g : Groups} (hi : i ≤ size) (hg : P g) :
    atMostEnds step lazy (further least most size') last i g
      = atMostEnds step lazy (further least most size) last i g := by
  cases most with
  | some n => rfl
  | none =>
      refine atMostEnds_eq_of_le hstep lazy hi hg (.inr ?_) (.inr ?_)
      · show size < i + (size' + 1)
        omega
      · show size < i + (size + 1)
        omega

section

variable {step partStep : Nat → Groups → List End} {b size : Nat} {P : Groups → Prop}
  (hstep : ∀ i g, i ≤ size → P g → ∀ e ∈ partStep i g, i ≤ e.1 ∧ e.1 ≤ size ∧ P e.2)
  (hshift : ∀ i g, i ≤ size → P g →
    step (b + i) (g.shift b) = (partStep i g).map (End.shift b))

include hstep hshift

/-- A row of matches is the same further on if each match is. -/
theorem exactlyEnds_add (n : Nat) {i : Nat} {g : Groups} (hi : i ≤ size) (hg : P g) :
    exactlyEnds step n (b + i) (g.shift b) = (exactlyEnds partStep n i g).map (End.shift b) := by
  induction n generalizing i g with
  | zero => rfl
  | succ n ih =>
      rw [exactlyEnds, exactlyEnds, hshift i g hi hg, List.flatMap_map, List.map_flatMap]
      apply List.flatMap_congr
      intro e he
      obtain ⟨-, hsize, hge⟩ := hstep i g hi hg e he
      exact ih hsize hge

/-- A bounded row of matches is the same further on if each match is. -/
theorem atMostEnds_add (lazy : Bool) (n : Nat) (last : Option Nat) {i : Nat} {g : Groups}
    (hi : i ≤ size) (hg : P g) :
    atMostEnds step lazy n (last.map (b + ·)) (b + i) (g.shift b)
      = (atMostEnds partStep lazy n last i g).map (End.shift b) := by
  induction n generalizing last i g with
  | zero => rfl
  | succ n ih =>
      have hlast : last.map (b + ·) = some (b + i) ↔ last = some i := by
        cases last <;> simp
      have hmore : ((step (b + i) (g.shift b)).flatMap fun e =>
            atMostEnds step lazy n (some (b + i)) e.1 e.2)
          = ((partStep i g).flatMap fun e => atMostEnds partStep lazy n (some i) e.1 e.2).map
              (End.shift b) := by
        rw [hshift i g hi hg, List.flatMap_map, List.map_flatMap]
        apply List.flatMap_congr
        intro e he
        obtain ⟨-, hsize, hge⟩ := hstep i g hi hg e he
        exact ih (some i) hsize hge
      rw [atMostEnds, atMostEnds, hmore]
      simp only [hlast]
      split
      · rfl
      · split
        · rfl
        · rw [List.map_append]
          rfl

end

/-! ## Matches -/

/-- A test of the place is the same further on if what it looks at is. -/
theorem testedEnd_add (wanted : Bool) (b i : Nat) (g : Groups) (found : List End) :
    testedEnd wanted (b + i) (g.shift b) (((found.map (End.shift b)).head?).map (·.2))
      = (testedEnd wanted i g (found.head?.map (·.2))).map (End.shift b) := by
  cases found <;> cases wanted <;> rfl

/-- A pattern that stays in a line looks back for one character only. -/
theorem of_staysInLine_behind {p : Pattern} {width : Nat} {wanted : Bool}
    (hp : (behind p width wanted).staysInLine = true) :
    ∃ s, p = one s ∧ width = 1 ∧ s.holds '\n' = false := by
  unfold staysInLine at hp
  split at hp <;> simp_all

/-- Looking back for one character asks for the character before the place. -/
theorem ends_behind_one (text : Array Char) (s : CharSet) (wanted : Bool) (i : Nat) (g : Groups) :
    ends text (behind (one s) 1 wanted) i g
      = testedEnd wanted i g (if holdsBefore s.holds text i then some g else none) := by
  rw [ends, ends]
  congr 1
  cases i with
  | zero => rfl
  | succ i =>
      have hbefore : holdsBefore s.holds text (i + 1) = holdsAt s.holds text i := rfl
      rw [if_pos (Nat.le_add_left 1 i), Nat.add_sub_cancel, hbefore]
      split <;> rfl

/-- **Matches in a part of a text.**  In a part between line feeds, a pattern that stays in a line
matches what it matches in that part alone. -/
theorem ends_add {p : Pattern} (hp : p.staysInLine = true) {text part : Array Char} {b : Nat}
    (h : IsPart text b part) {i : Nat} {g : Groups} (hi : i ≤ part.size) (hg : g.InText part) :
    ends text p (b + i) (g.shift b) = (ends part p i g).map (End.shift b) := by
  induction p generalizing i g with
  | empty => rfl
  | one s =>
      rw [staysInLine, Bool.not_eq_true'] at hp
      rw [ends, ends, h.holdsAt_add hp hi]
      split <;> rfl
  | run s least most lazy =>
      rw [staysInLine, Bool.not_eq_true'] at hp
      rw [ends, ends, runEnds_add hp h least most lazy hi, List.map_map, List.map_map]
      rfl
  | seq p q ihp ihq =>
      rw [staysInLine, Bool.and_eq_true] at hp
      rw [ends, ends, ihp hp.1 hi hg, List.flatMap_map, List.map_flatMap]
      apply List.flatMap_congr
      intro e he
      obtain ⟨-, hsize, hge⟩ := mem_ends_bounds hi hg e he
      exact ihq hp.2 hsize hge
  | alt p q ihp ihq =>
      rw [staysInLine, Bool.and_eq_true] at hp
      rw [ends, ends, ihp hp.1 hi hg, ihq hp.2 hi hg, List.map_append]
  | iter p least most lazy ih =>
      rw [staysInLine] at hp
      have hstep : ∀ i g, i ≤ part.size → Groups.InText part g → ∀ e ∈ ends part p i g,
          i ≤ e.1 ∧ e.1 ≤ part.size ∧ Groups.InText part e.2 :=
        fun i g hi hg => mem_ends_bounds hi hg
      have hshift : ∀ i g, i ≤ part.size → Groups.InText part g →
          ends text p (b + i) (g.shift b) = (ends part p i g).map (End.shift b) :=
        fun i g hi hg => ih hp hi hg
      rw [ends, ends, exactlyEnds_add hstep hshift least hi hg, List.flatMap_map, List.map_flatMap]
      apply List.flatMap_congr
      intro e he
      obtain ⟨-, hsize, hge⟩ := exactlyEnds_induct
        (P := fun e => i ≤ e.1 ∧ e.1 ≤ part.size ∧ Groups.InText part e.2)
        (fun e he e' he' => by
          obtain ⟨hle, h⟩ := hstep e.1 e.2 he.2.1 he.2.2 e' he'
          exact ⟨Nat.le_trans he.1 hle, h⟩) least (i, g) ⟨Nat.le_refl i, hi, hg⟩ e he
      have hle : part.size ≤ text.size := Nat.le_trans (Nat.le_add_left _ _) h.size_le
      rw [← atMostEnds_further hstep lazy least most none hle hsize hge]
      exact atMostEnds_add hstep hshift lazy _ none hsize hge
  | group name p ih =>
      rw [staysInLine] at hp
      rw [ends, ends, ih hp hi hg, List.map_map, List.map_map]
      rfl
  | edge e =>
      rw [staysInLine] at hp
      rw [ends, ends, h.edge_holds_add hp hi]
      split <;> rfl
  | ahead p wanted ih =>
      rw [staysInLine] at hp
      rw [ends, ends, ih hp hi hg, testedEnd_add]
  | behind p width wanted ih =>
      obtain ⟨s, rfl, rfl, hs⟩ := of_staysInLine_behind hp
      rw [ends_behind_one, ends_behind_one, h.holdsBefore_add hs hi]
      split <;> cases wanted <;> rfl

/-! ## Finding -/

/-- In a part of a text the pattern has an end where it has one in that part alone. -/
theorem ends_eq_nil_iff {p : Pattern} (hp : p.staysInLine = true) {text part : Array Char}
    {b : Nat} (h : IsPart text b part) {i : Nat} (hi : i ≤ part.size) :
    ends text p (b + i) [] = [] ↔ ends part p i [] = [] := by
  have hends : ends text p (b + i) [] = (ends part p i []).map (End.shift b) :=
    ends_add hp h (g := []) hi (by simp [Groups.InText])
  rw [hends, List.map_eq_nil_iff]

/-- **Finding line by line.**  A pattern that stays in a line is found in two texts with a line feed
between them if it is found in one of them. -/
theorem foundIn_append {p : Pattern} (hp : p.staysInLine = true) (as bs : List Char) :
    p.foundIn (as ++ '\n' :: bs).toArray = (p.foundIn as.toArray || p.foundIn bs.toArray) := by
  have hleft := isPart_left as bs
  have hright := isPart_right as bs
  rw [Bool.eq_iff_iff, Bool.or_eq_true, foundIn_iff, foundIn_iff, foundIn_iff]
  constructor
  · rintro ⟨i, hi, hends⟩
    simp only [List.size_toArray, List.length_append, List.length_cons] at hi
    -- the place is one of the first text or of the second
    by_cases hle : i ≤ as.toArray.size
    · refine .inl ⟨i, hle, ?_⟩
      rwa [← Nat.zero_add i, ne_eq, ends_eq_nil_iff hp hleft hle] at hends
    · simp only [List.size_toArray] at hle
      obtain ⟨k, rfl⟩ := Nat.exists_eq_add_of_le (Nat.succ_le_of_lt (Nat.lt_of_not_le hle))
      have hk : k ≤ bs.toArray.size := by
        simp only [List.size_toArray]
        omega
      exact .inr ⟨k, hk, fun hnil => hends ((ends_eq_nil_iff hp hright hk).mpr hnil)⟩
  · rintro (⟨i, hi, hends⟩ | ⟨i, hi, hends⟩)
    · refine ⟨0 + i, Nat.le_trans (Nat.add_le_add_left hi 0) hleft.size_le, ?_⟩
      rwa [ne_eq, ends_eq_nil_iff hp hleft hi]
    · refine ⟨as.length + 1 + i, Nat.le_trans (Nat.add_le_add_left hi _) hright.size_le, ?_⟩
      rwa [ne_eq, ends_eq_nil_iff hp hright hi]

/-- Such a pattern is found in a text without carriage returns if it is found in one of its lines. -/
theorem foundIn_iff_exists_line {p : Pattern} (hp : p.staysInLine = true) {text : List Char}
    (htext : '\r' ∉ text) :
    p.foundIn text.toArray = true ↔ ∃ line ∈ Text.lines text, p.foundIn line.toArray = true := by
  induction hn : text.length using Nat.strongRecOn generalizing text with
  | _ n ih =>
      by_cases hfeed : '\n' ∈ text
      · obtain ⟨line, rest, rfl, hline⟩ := List.eq_append_cons_of_mem hfeed
        rw [List.mem_append, List.mem_cons, not_or, not_or] at htext
        have hlt : rest.length < n := by
          rw [← hn, List.length_append, List.length_cons]
          omega
        rw [foundIn_append hp, Bool.or_eq_true, ih _ hlt htext.2.2 rfl, Text.lines_append,
          Text.lines_of_not_mem hline, Text.dropCarriageReturn_of_not_mem htext.1,
          List.singleton_append, List.exists_mem_cons_iff]
      · rw [Text.lines_of_not_mem hfeed, Text.dropCarriageReturn_of_not_mem htext]
        simp

end Pattern

end CodeSweep
