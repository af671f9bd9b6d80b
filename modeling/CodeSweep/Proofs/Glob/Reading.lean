/-
# Globs that cannot be read

A component of a glob is a sequence of pieces: plain characters, escaped characters and bracket
expressions.  It cannot be read if after whole pieces a last backslash is left that escapes nothing;
an unclosed bracket is no such fault, and what comes after it is not looked at.  A glob cannot be
read if that is so of one of its components, or if nothing is left of it after its `!`, or if all of
its components are sequences of pieces and there is a range in them that ends before it starts
(`read_eq_error_iff`).  Of a list of globs the first that cannot be read is the complaint, whatever
the path is (`excludes_eq_error_iff`).
-/
import CodeSweep.Glob
import CodeSweep.Proofs.Result
import CodeSweep.Proofs.Text.Lines
import Mathlib.Data.List.TakeWhile

namespace CodeSweep.Glob

open Pattern

/-! ## Ranges of readings -/

/-- A reading with the ranges that end before they start instead of what was read. -/
def Reading.reversed : Reading Pattern → Reading (List (Char × Char))
  | ok p => ok p.reversed
  | void => void
  | bad => bad

/-- The ranges in front of those of a reading. -/
def Reading.including (rs : List (Char × Char)) (r : Reading (List (Char × Char))) :
    Reading (List (Char × Char)) := r.bind fun ss => .ok (rs ++ ss)

section

variable {p : Pattern}

theorem Reading.reversed_prepend (p : Pattern) (r : Reading Pattern) :
    (r.prepend p).reversed = r.reversed.including p.reversed := by
  cases r <;> rfl

@[simp] theorem Reading.including_nil (r : Reading (List (Char × Char))) : r.including [] = r := by
  cases r <;> rfl

theorem Reading.including_including (rs ss : List (Char × Char))
    (r : Reading (List (Char × Char))) :
    (r.including ss).including rs = r.including (rs ++ ss) := by
  cases r <;> simp [including, bind]

/-- A pattern without such ranges changes nothing in front of a reading. -/
theorem Reading.reversed_prepend_of_nil (hp : p.reversed = []) (r : Reading Pattern) :
    (r.prepend p).reversed = r.reversed := by
  rw [reversed_prepend, hp, including_nil]

/-- Nor does it behind one. -/
theorem Reading.reversed_bind_append (hp : p.reversed = []) (r : Reading Pattern) :
    (r.bind fun q => .ok (q ++ p)).reversed = r.reversed := by
  cases r <;> simp [reversed, bind, hp]

/-- The first of two faults counts, and the ranges of both readings. -/
theorem Reading.reversed_bind_prepend (r s : Reading Pattern) :
    (r.bind fun p => s.prepend p).reversed = r.reversed.bind s.reversed.including := by
  cases r with
  | ok p => exact reversed_prepend p s
  | void => rfl
  | bad => rfl

end

/-! ## Components -/

/-- The ranges among the contents of a bracket expression that end before they start. -/
def reversedIn : List Char → List (Char × Char)
  | [] => []
  | lo :: '-' :: hi :: cs => if hi < lo then (lo, hi) :: reversedIn cs else reversedIn cs
  | _ :: cs => reversedIn cs

/-- A character, an escaped character, or a bracket expression: its contents may begin with a sign
and with a closing bracket.  It comes with its ranges that end before they start. -/
inductive IsPiece : List Char → List (Char × Char) → Prop
  | plain (c : Char) : c ≠ '\\' → c ≠ '[' → IsPiece [c] []
  | escaped (c : Char) : IsPiece ['\\', c] []
  | bracket (sign : List Char) (first : Char) (inner : List Char) :
    sign = ['!'] ∨ sign = ['^'] ∨ sign = [] ∧ first ≠ '!' ∧ first ≠ '^' → ']' ∉ inner →
    IsPiece ('[' :: sign ++ first :: inner ++ [']']) (reversedIn (first :: inner))

/-- A sequence of pieces, with all their ranges that end before they start. -/
inductive IsWhole : List Char → List (Char × Char) → Prop
  | nil : IsWhole [] []
  | piece {w rest : List Char} {rs ss : List (Char × Char)} :
    IsPiece w rs → IsWhole rest ss → IsWhole (w ++ rest) (rs ++ ss)

/-- A sequence of pieces, then a backslash that escapes nothing. -/
def IsCutOff (seg : List Char) : Prop := ∃ w rs, IsWhole w rs ∧ seg = w ++ ['\\']

/-- A piece has at least one character. -/
theorem IsPiece.length_pos {w : List Char} {rs : List (Char × Char)} (hw : IsPiece w rs) :
    0 < w.length := by
  cases hw <;> simp

/-- A single character is no such range. -/
@[simp] theorem reversed_single (c : Char) : (one (.single c)).reversed = [] := by
  simp [Pattern.reversed, CharSet.reversed, CharSet.single, CharSet.inside, CharTest.reversed?]

/-- The ranges of a bracket expression are those among its contents. -/
theorem reversed_members (cs : List Char) (negated : Bool) :
    (one ⟨members cs, negated, false⟩).reversed = reversedIn cs := by
  show (members cs).filterMap CharTest.reversed? = reversedIn cs
  induction cs using members.induct with
  | case1 => rfl
  | case2 lo hi cs ih =>
      rw [members, reversedIn, ← ih, List.filterMap_cons, CharTest.reversed?]
      by_cases hreversed : hi < lo
      · rw [if_pos hreversed, if_pos hreversed]
      · rw [if_neg hreversed, if_neg hreversed]
  | case3 c cs hrange ih =>
      rw [members, reversedIn, ← ih, List.filterMap_cons, CharTest.reversed?,
        if_neg (Char.lt_irrefl c)]
      · exact hrange
      · exact hrange

/-- Contents of a bracket expression end at the first closing bracket, but not at their first
character. -/
theorem bracket?_append {first : Char} {inner : List Char} (hinner : ']' ∉ inner)
    (rest : List Char) :
    bracket? (first :: (inner ++ ']' :: rest)) = some (first :: inner, rest) := by
  have hall : ∀ c ∈ inner, (c != ']') = true := by
    intro c hc
    rw [bne_iff_ne]
    rintro rfl
    exact hinner hc
  rw [bracket?, List.dropWhile_append_of_pos hall, List.takeWhile_append_of_pos hall]
  simp

/-- What is read as the contents of a bracket expression stands before a closing bracket. -/
theorem eq_of_bracket? {body : List Char} {inside : List Char × List Char}
    (h : bracket? body = some inside) :
    ∃ first more, ']' ∉ more ∧ body = first :: (more ++ ']' :: inside.2) := by
  cases body with
  | nil => simp [bracket?] at h
  | cons c cs =>
      rw [bracket?] at h
      split at h
      · simp at h
      · next d tail hdrop =>
          obtain rfl := Option.some.inj h
          refine ⟨c, cs.takeWhile (· != ']'), fun hmem => ?_, ?_⟩
          · simpa using List.mem_takeWhile_imp hmem
          · have hhead := List.head_dropWhile_not (· != ']') (l := cs) (by rw [hdrop]; simp)
            obtain rfl : d = ']' := by simpa [hdrop] using hhead
            rw [← hdrop, List.takeWhile_append_dropWhile]

/-- A piece is read, and then what follows it. -/
theorem reversed_readSegmentFrom_piece {w : List Char} {rs : List (Char × Char)}
    (hw : IsPiece w rs) (rest : List Char) (fuel : Nat) :
    (readSegmentFrom (fuel + 1) (w ++ rest)).reversed
      = (readSegmentFrom fuel rest).reversed.including rs := by
  cases hw with
  | plain c hescape hbracket =>
      rw [List.singleton_append, Reading.including_nil]
      by_cases hstar : c = '*'
      · rw [hstar, readSegmentFrom, Reading.reversed_prepend_of_nil rfl]
      · by_cases hany : c = '?'
        · rw [hany, readSegmentFrom, Reading.reversed_prepend_of_nil rfl]
        · rw [readSegmentFrom, Reading.reversed_prepend_of_nil (reversed_single c)] <;> assumption
  | escaped c =>
      rw [List.cons_append, List.singleton_append, readSegmentFrom, Reading.including_nil,
        Reading.reversed_prepend_of_nil (reversed_single c)]
  | bracket sign first inner hsign hinner =>
      have hinside : bracket? (first :: (inner ++ ']' :: rest)) = some (first :: inner, rest) :=
        bracket?_append hinner rest
      have happend : ('[' :: sign ++ first :: inner ++ [']']) ++ rest
          = '[' :: (sign ++ first :: (inner ++ ']' :: rest)) := by simp
      rw [happend]
      rcases hsign with rfl | rfl | ⟨rfl, hnot, hhat⟩
      · rw [List.singleton_append, readSegmentFrom, hinside, Reading.reversed_prepend,
          reversed_members]
      · rw [List.singleton_append, readSegmentFrom, hinside, Reading.reversed_prepend,
          reversed_members]
      · rw [List.nil_append, readSegmentFrom, hinside, Reading.reversed_prepend, reversed_members]
        · exact fun body heq => hnot (List.cons.inj heq).1
        · exact fun body heq => hhat (List.cons.inj heq).1

/-- What is left of a component begins with a piece, is a backslash, or begins with a bracket that
is not closed. -/
theorem exists_piece (c : Char) (cs : List Char) :
    (∃ w rs rest, IsPiece w rs ∧ c :: cs = w ++ rest) ∨ c :: cs = ['\\'] ∨
      ∀ fuel, readSegmentFrom (fuel + 1) (c :: cs) = .void := by
  -- a bracket after which `body` follows its sign
  have hbracket : ∀ sign body : List Char, (∀ first more, body = first :: more →
        sign = ['!'] ∨ sign = ['^'] ∨ sign = [] ∧ first ≠ '!' ∧ first ≠ '^') →
      bracket? body = none ∨ ∃ w rs rest, IsPiece w rs ∧ '[' :: (sign ++ body) = w ++ rest := by
    intro sign body hsign
    cases hbody : bracket? body with
    | none => exact .inl rfl
    | some inside =>
        obtain ⟨first, more, hmore, rfl⟩ := eq_of_bracket? hbody
        exact .inr ⟨_, _, inside.2, .bracket sign first more (hsign first _ rfl) hmore, by simp⟩
  by_cases hescape : c = '\\'
  · subst hescape
    cases cs with
    | nil => exact .inr (.inl rfl)
    | cons d rest => exact .inl ⟨['\\', d], [], rest, .escaped d, rfl⟩
  · by_cases hopen : c = '['
    · subst hopen
      by_cases hnot : ∃ body, cs = '!' :: body
      · obtain ⟨body, rfl⟩ := hnot
        rcases hbracket ['!'] body fun _ _ _ => .inl rfl with hnone | hpiece
        · exact .inr (.inr fun fuel => by rw [readSegmentFrom, hnone])
        · exact .inl hpiece
      · by_cases hhat : ∃ body, cs = '^' :: body
        · obtain ⟨body, rfl⟩ := hhat
          rcases hbracket ['^'] body fun _ _ _ => .inr (.inl rfl) with hnone | hpiece
          · exact .inr (.inr fun fuel => by rw [readSegmentFrom, hnone])
          · exact .inl hpiece
        · have hunsigned : ∀ first more, cs = first :: more → first ≠ '!' ∧ first ≠ '^' :=
            fun first more heq => ⟨fun h => hnot ⟨more, h ▸ heq⟩, fun h => hhat ⟨more, h ▸ heq⟩⟩
          rcases hbracket [] cs fun first more heq => .inr (.inr ⟨rfl, hunsigned first more heq⟩)
            with hnone | hpiece
          · refine .inr (.inr fun fuel => ?_)
            rw [readSegmentFrom, hnone]
            · exact fun body heq => hnot ⟨body, heq⟩
            · exact fun body heq => hhat ⟨body, heq⟩
          · exact .inl hpiece
    · exact .inl ⟨[c], [], cs, .plain c hescape hopen, rfl⟩

/-- A sequence of pieces is read, and then what follows it. -/
theorem exists_fuel_of_isWhole {w : List Char} {rs : List (Char × Char)} (hw : IsWhole w rs)
    (rest : List Char) {fuel : Nat} (hfuel : (w ++ rest).length ≤ fuel) :
    ∃ fuel', rest.length ≤ fuel' ∧ (readSegmentFrom fuel (w ++ rest)).reversed
      = (readSegmentFrom fuel' rest).reversed.including rs := by
  induction hw generalizing fuel with
  | nil => exact ⟨fuel, hfuel, (Reading.including_nil _).symm⟩
  | piece hpiece _ ih =>
      -- a piece is not empty, so that the fuel that is left is enough for what follows
      have hpos := hpiece.length_pos
      rw [List.append_assoc, List.length_append] at hfuel
      obtain ⟨fuel, rfl⟩ : ∃ k, fuel = k + 1 := ⟨fuel - 1, by omega⟩
      obtain ⟨fuel', hrest, hread⟩ := ih (show _ ≤ fuel by omega)
      refine ⟨fuel', hrest, ?_⟩
      rw [List.append_assoc, reversed_readSegmentFrom_piece hpiece, hread,
        Reading.including_including]

/-- **How a component is read**: to its end, up to a last backslash, or up to a bracket that is not
closed. -/
theorem readSegmentFrom_cases {fuel : Nat} {cs : List Char} (hfuel : cs.length ≤ fuel) :
    (∃ rs, IsWhole cs rs ∧ (readSegmentFrom fuel cs).reversed = .ok rs) ∨
      (IsCutOff cs ∧ (readSegmentFrom fuel cs).reversed = .bad) ∨
      (readSegmentFrom fuel cs).reversed = .void := by
  induction fuel generalizing cs with
  | zero =>
      rw [List.length_eq_zero_iff.mp (Nat.le_zero.mp hfuel)]
      exact .inl ⟨[], .nil, rfl⟩
  | succ fuel ih =>
      cases cs with
      | nil => exact .inl ⟨[], .nil, rfl⟩
      | cons c cs =>
          rcases exists_piece c cs with ⟨w, rs, rest, hw, hsplit⟩ | hlone | hvoid
          · have hpos := hw.length_pos
            rw [hsplit, List.length_append] at hfuel
            rw [hsplit, reversed_readSegmentFrom_piece hw]
            have hrest : rest.length ≤ fuel := by omega
            rcases ih hrest with ⟨ss, hwhole, hread⟩ | ⟨⟨v, ss, hv, rfl⟩, hread⟩ | hread
            · exact .inl ⟨rs ++ ss, .piece hw hwhole, by rw [hread]; rfl⟩
            · exact .inr (.inl ⟨⟨w ++ v, rs ++ ss, .piece hw hv, (List.append_assoc w v _).symm⟩,
                by rw [hread]; rfl⟩)
            · exact .inr (.inr (by rw [hread]; rfl))
          · rw [hlone]
            exact .inr (.inl ⟨⟨[], [], .nil, rfl⟩, rfl⟩)
          · rw [hvoid]
            exact .inr (.inr rfl)

section

variable {seg : List Char} {rs : List (Char × Char)}

/-- A sequence of pieces is read to its end. -/
theorem IsWhole.reversed_readSegment (h : IsWhole seg rs) :
    (readSegment seg).reversed = .ok rs := by
  have hlength : (seg ++ []).length ≤ seg.length := by rw [List.append_nil]
  obtain ⟨fuel, -, hread⟩ := exists_fuel_of_isWhole h [] hlength
  rw [List.append_nil] at hread
  have hnil : (readSegmentFrom fuel []).reversed = .ok [] := by cases fuel <;> rfl
  rw [readSegment, hread, hnil]
  exact congrArg Reading.ok (List.append_nil rs)

/-- **A component can be read to its end** if it is a sequence of pieces. -/
theorem reversed_readSegment_eq_ok_iff : (readSegment seg).reversed = .ok rs ↔ IsWhole seg rs := by
  constructor
  · intro h
    rcases readSegmentFrom_cases (Nat.le_refl seg.length) with ⟨ss, hwhole, hread⟩ | ⟨-, hread⟩ |
      hread
    · rw [readSegment, hread] at h
      exact Reading.ok.inj h ▸ hwhole
    · rw [readSegment, hread] at h
      cases h
    · rw [readSegment, hread] at h
      cases h
  · exact IsWhole.reversed_readSegment

/-- **A component ends in the middle of an escape** if after whole pieces there is a last
backslash. -/
theorem reversed_readSegment_eq_bad_iff : (readSegment seg).reversed = .bad ↔ IsCutOff seg := by
  constructor
  · intro h
    rcases readSegmentFrom_cases (Nat.le_refl seg.length) with ⟨ss, -, hread⟩ | ⟨hcut, -⟩ | hread
    · rw [readSegment, hread] at h
      cases h
    · exact hcut
    · rw [readSegment, hread] at h
      cases h
  · rintro ⟨w, rs, hw, rfl⟩
    obtain ⟨fuel, hfuel, hread⟩ := exists_fuel_of_isWhole hw ['\\'] (Nat.le_refl _)
    obtain ⟨fuel, rfl⟩ : ∃ k, fuel = k + 1 :=
      ⟨fuel - 1, by rw [List.length_singleton] at hfuel; omega⟩
    rw [readSegment, hread]
    rfl

/-- Two sequences of pieces make one. -/
theorem IsWhole.append {w : List Char} {ss : List (Char × Char)} (hw : IsWhole w ss)
    (h : IsWhole seg rs) : IsWhole (w ++ seg) (ss ++ rs) := by
  induction hw with
  | nil => exact h
  | piece hpiece _ ih =>
      rw [List.append_assoc, List.append_assoc]
      exact .piece hpiece ih

/-- A deep component is a sequence of pieces without ranges. -/
theorem isWhole_of_isDeep (h : isDeep seg = true) : IsWhole seg [] := by
  rw [eq_of_beq h]
  have hstar : IsPiece ['*'] [] := .plain '*' (by decide) (by decide)
  exact .piece hstar (.piece hstar .nil)

end

/-! ## All components -/

/-- One of the components is cut off, and those before it can be read to their ends. -/
def EndsInEscape : List (List Char) → Prop
  | [] => False
  | seg :: segs => IsCutOff seg ∨ ((∃ rs, IsWhole seg rs) ∧ EndsInEscape segs)

/-- All of the components can be read to their ends, and these are their ranges that end before they
start. -/
inductive AreWhole : List (List Char) → List (Char × Char) → Prop
  | nil : AreWhole [] []
  | cons {seg : List Char} {segs : List (List Char)} {rs ss : List (Char × Char)} :
    IsWhole seg rs → AreWhole segs ss → AreWhole (seg :: segs) (rs ++ ss)

/-- The ranges of components that are read one after the other. -/
def reversedAll : List (List Char) → Reading (List (Char × Char))
  | [] => .ok []
  | seg :: segs => (readSegment seg).reversed.bind (reversedAll segs).including

section

variable {segs : List (List Char)} {rs : List (Char × Char)}

/-- Components are read to their ends if each of them is. -/
theorem reversedAll_eq_ok_iff : reversedAll segs = .ok rs ↔ AreWhole segs rs := by
  constructor
  · intro h
    induction segs generalizing rs with
    | nil =>
        obtain rfl := Reading.ok.inj h
        exact .nil
    | cons seg segs ih =>
        rw [reversedAll] at h
        cases hseg : (readSegment seg).reversed with
        | ok ss =>
            rw [hseg] at h
            cases hsegs : reversedAll segs with
            | ok ts =>
                rw [hsegs] at h
                obtain rfl := Reading.ok.inj h
                exact .cons (reversed_readSegment_eq_ok_iff.mp hseg) (ih hsegs)
            | void => rw [hsegs] at h; cases h
            | bad => rw [hsegs] at h; cases h
        | void => rw [hseg] at h; cases h
        | bad => rw [hseg] at h; cases h
  · intro h
    induction h with
    | nil => rfl
    | cons hseg _ ih =>
        rw [reversedAll, hseg.reversed_readSegment, ih]
        rfl

/-- Components are read up to one that is cut off. -/
theorem reversedAll_eq_bad_iff : reversedAll segs = .bad ↔ EndsInEscape segs := by
  induction segs with
  | nil => simp [reversedAll, EndsInEscape]
  | cons seg segs ih =>
      -- what follows counts only if this component is read to its end
      rw [reversedAll, EndsInEscape, ← ih, ← reversed_readSegment_eq_bad_iff]
      simp only [← reversed_readSegment_eq_ok_iff]
      cases (readSegment seg).reversed with
      | ok ss => cases reversedAll segs <;> simp [Reading.bind, Reading.including]
      | void => simp [Reading.bind]
      | bad => simp [Reading.bind]

/-- A component without ranges that can be read changes nothing in front of others. -/
theorem reversedAll_cons {seg : List Char} (h : IsWhole seg []) (segs : List (List Char)) :
    reversedAll (seg :: segs) = reversedAll segs := by
  rw [reversedAll, h.reversed_readSegment]
  exact Reading.including_nil _

/-- Components without ranges that can be read have no ranges together. -/
theorem reversedAll_of_forall (h : ∀ seg ∈ segs, IsWhole seg []) : reversedAll segs = .ok [] := by
  induction segs with
  | nil => rfl
  | cons seg segs ih =>
      rw [List.forall_mem_cons] at h
      rw [reversedAll_cons h.1]
      exact ih h.2

end

/-- A named component is read as it is, but for a slash before it. -/
theorem reversed_named (slash : Bool) (seg : List Char) :
    (readTail.named slash seg).reversed = (readSegment seg).reversed := by
  have hbody : (if seg == "*".toList then Reading.ok (some1 inSegment)
      else readSegment seg).reversed = (readSegment seg).reversed := by
    split
    · next hstar => rw [eq_of_beq hstar]; rfl
    · rfl
  rw [readTail.named]
  split
  · rw [Reading.reversed_prepend_of_nil rfl, hbody]
  · exact hbody

/-- The components after the first are read one after the other. -/
theorem reversed_readTail (directory slash : Bool) (segs : List (List Char)) :
    (readTail directory slash segs).reversed = reversedAll segs := by
  induction slash, segs using readTail.induct with
  | case1 slash => rfl
  | case2 slash seg hdeep =>
      rw [readTail, if_pos hdeep, reversedAll_cons (isWhole_of_isDeep hdeep)]
      cases directory <;> rfl
  | case3 slash seg hdeep =>
      rw [readTail, if_neg hdeep, Reading.reversed_bind_append rfl, reversed_named, reversedAll]
      cases (readSegment seg).reversed <;> simp [Reading.bind, Reading.including, reversedAll]
  | case4 slash seg segs hsegs hdeep ih =>
      rw [readTail, if_pos hdeep, Reading.reversed_prepend_of_nil rfl, ih,
        reversedAll_cons (isWhole_of_isDeep hdeep)]
      exact hsegs
  | case5 slash seg segs hsegs hdeep ih =>
      rw [readTail, if_neg hdeep, Reading.reversed_bind_prepend, reversed_named, ih, reversedAll]
      exact hsegs

/-- **The components of a glob** are read one after the other. -/
theorem reversed_readSegments (directory : Bool) (segs : List (List Char)) :
    (readSegments directory segs).reversed = reversedAll segs := by
  have hstar : IsWhole ['*'] [] := .piece (.plain '*' (by decide) (by decide)) .nil
  have hdeep : IsWhole ['*', '*'] [] := isWhole_of_isDeep rfl
  simp only [readSegments]
  -- a glob of deep components and stars alone is read without a look at them
  split
  · next heq =>
      rw [eq_of_beq heq, reversedAll_of_forall (by simp [hdeep])]
      cases directory <;> rfl
  · split
    · next heq => rw [eq_of_beq heq, reversedAll_of_forall (by simp [hdeep, hstar])]; rfl
    · split
      · next heq =>
          rw [eq_of_beq heq, reversedAll_of_forall (by simp [hdeep, hstar])]
          cases directory <;> rfl
      · cases segs with
        | nil => rfl
        | cons seg segs =>
            simp only
            split
            · next h =>
                rw [Reading.reversed_prepend_of_nil rfl, reversed_readTail,
                  reversedAll_cons (isWhole_of_isDeep h)]
            · rw [Reading.reversed_prepend_of_nil rfl, reversed_readTail]

/-- Deep components that are left out change nothing. -/
theorem reversedAll_mergeDeep (segs : List (List Char)) :
    reversedAll (mergeDeep segs) = reversedAll segs := by
  induction segs with
  | nil => rfl
  | cons seg segs ih =>
      rw [mergeDeep, reversedAll, ← ih]
      split
      · next next more heq =>
          split
          · next hdeep =>
              rw [Bool.and_eq_true] at hdeep
              rw [heq, (isWhole_of_isDeep hdeep.1).reversed_readSegment]
              exact (Reading.including_nil _).symm
          · rw [heq, reversedAll]
      · next heq => rw [heq]; rfl

/-- An empty component that is made deep changes nothing. -/
theorem reversedAll_deepenLast (segs : List (List Char)) :
    reversedAll (deepenLast segs) = reversedAll segs := by
  induction segs using deepenLast.induct with
  | case1 => rfl
  | case2 seg =>
      rw [deepenLast]
      cases seg with
      | nil =>
          exact (reversedAll_cons (isWhole_of_isDeep rfl) []).trans (reversedAll_cons .nil []).symm
      | cons c cs => rfl
  | case3 seg segs hsegs ih =>
      rw [deepenLast, reversedAll, reversedAll, ih]
      exact hsegs

/-- An empty component that is left out, or a deep one that is added, changes nothing. -/
theorem reversedAll_anchor (segs : List (List Char)) :
    reversedAll (anchor segs) = reversedAll segs := by
  have hdeep : IsWhole "**".toList [] := isWhole_of_isDeep rfl
  unfold anchor
  split
  · exact (reversedAll_cons .nil _).symm
  · split
    · rfl
    · exact reversedAll_cons hdeep _
  · split
    · rfl
    · exact reversedAll_cons hdeep _
  · rfl

/-- No component is left if all there was is an empty one. -/
theorem anchor_eq_nil_iff (segs : List (List Char)) (hsegs : segs ≠ []) :
    anchor segs = [] ↔ segs = [[]] := by
  unfold anchor
  split
  · simp
  · split <;> simp_all
  · split <;> simp_all
  · simp_all

/-! ## Whole globs -/

/-- The glob without the sign that it takes back what earlier ones chose. -/
def unnegated : List Char → List Char
  | '!' :: cs => cs
  | cs => cs

/-- The components of a glob, without its sign and the blanks at its end. -/
def components (s : String) : List (List Char) :=
  Text.splitAt (· == '/') (unnegated (trimGlob s.toList))

/-- **What is wrong with a text** that cannot be read as a glob.  It is a mere `!`; or it is no
comment, and one of its components is cut off, or all of them can be read to their ends and have
ranges that end before they start.  The first of these is the complaint. -/
inductive Fault (s : String) : GlobError → Prop
  | sign : trimGlob s.toList = ['!'] → Fault s (.invalid s)
  | escape : (trimGlob s.toList).head? ≠ some '#' → EndsInEscape (components s) →
    Fault s (.invalid s)
  | range {lo hi : Char} {rs : List (Char × Char)} : (trimGlob s.toList).head? ≠ some '#' →
    AreWhole (components s) ((lo, hi) :: rs) → Fault s (.reversedRange lo hi)

/-- Something is wrong with the text. -/
def Malformed (s : String) : Prop := ∃ e, Fault s e

/-- There is but an empty component if there is no text. -/
theorem splitAt_eq_nil_iff (cs : List Char) : Text.splitAt (· == '/') cs = [[]] ↔ cs = [] := by
  cases cs with
  | nil => exact iff_of_true rfl rfl
  | cons c cs =>
      refine iff_of_false (fun h => ?_) (List.cons_ne_nil c cs)
      cases hc : c == '/' with
      | true =>
          rw [@Text.splitAt_cons_of_sep (· == '/') c cs hc] at h
          exact Text.splitAt_ne_nil _ cs (List.cons.inj h).2
      | false =>
          obtain ⟨piece, pieces, -, hcons⟩ := Text.splitAt_cons_of_not (· == '/') cs hc
          rw [hcons] at h
          exact List.cons_ne_nil c piece (List.cons.inj h).1

/-- Nothing but an empty component is left of a glob if the glob is its sign. -/
theorem unnegated_eq_nil_iff {cs : List Char} (hcs : cs ≠ []) : unnegated cs = [] ↔ cs = ['!'] := by
  unfold unnegated
  split
  · simp
  · next hsign => exact iff_of_false hcs fun h => hsign [] h

/-- A glob has the sign that it is given. -/
theorem negated_of_ofPattern {negated : Bool} {p : Pattern} {g : Glob}
    (h : ofPattern negated p = .ok g) : g.negated = negated := by
  rw [ofPattern] at h
  split at h
  · rw [← Except.ok.inj h]
  · cases h

/-- A glob has the first fault of its pattern. -/
theorem ofPattern_eq_error_iff {negated : Bool} {p : Pattern} {e : GlobError} :
    ofPattern negated p = .error e ↔
      ∃ lo hi rs, p.reversed = (lo, hi) :: rs ∧ e = .reversedRange lo hi := by
  rw [ofPattern]
  split
  · next hp => simp [hp]
  · next lo hi rs hp =>
      rw [hp, Except.error.injEq]
      constructor
      · rintro rfl
        exact ⟨lo, hi, rs, rfl, rfl⟩
      · rintro ⟨_, _, _, hcons, rfl⟩
        obtain ⟨rfl, rfl⟩ := Prod.mk.inj (List.cons.inj hcons).1
        rfl

/-- What comes after the sign is read component by component. -/
theorem readBody_eq_error_iff (negated : Bool) (body : List Char) {s : String} {e : GlobError} :
    (match anchor (Text.splitAt (· == '/') body) with
      | [] => .error (.invalid s)
      | segs =>
        match readSegments ((Text.splitAt (· == '/') body).getLast?.any (·.isEmpty))
          (mergeDeep (deepenLast segs)) with
        | .ok p => (ofPattern negated p).map some
        | .void => .ok none
        | .bad => .error (.invalid s) : Except GlobError (Option Glob)) = .error e ↔
      (e = .invalid s ∧ (body = [] ∨ EndsInEscape (Text.splitAt (· == '/') body))) ∨
        ∃ lo hi rs, AreWhole (Text.splitAt (· == '/') body) ((lo, hi) :: rs) ∧
          e = .reversedRange lo hi := by
  have hempty := (anchor_eq_nil_iff _ (Text.splitAt_ne_nil _ body)).trans (splitAt_eq_nil_iff body)
  simp only [← reversedAll_eq_ok_iff, ← reversedAll_eq_bad_iff]
  rw [← hempty, ← reversedAll_anchor, ← reversedAll_deepenLast, ← reversedAll_mergeDeep,
    ← reversed_readSegments ((Text.splitAt (· == '/') body).getLast?.any (·.isEmpty))]
  split
  · next hnil =>
      rw [hnil]
      constructor
      · intro h
        exact .inl ⟨(Except.error.inj h).symm, .inl rfl⟩
      · rintro (⟨rfl, -⟩ | ⟨_, _, _, hok, -⟩)
        · rfl
        · cases Reading.ok.inj hok
  · next hsegs =>
      rw [or_iff_right hsegs]
      split
      · next p hread =>
          rw [map_eq_error_iff, ofPattern_eq_error_iff, hread]
          simp [Reading.reversed]
      · next hread => simp [hread, Reading.reversed]
      · next hread =>
          rw [hread]
          simp [Reading.reversed, eq_comm]

/-- **A text cannot be read as a glob** if something is wrong with it. -/
theorem read_eq_error_iff {s : String} {e : GlobError} : read s = .error e ↔ Fault s e := by
  have hfault : Fault s e ↔ (e = .invalid s ∧ (trimGlob s.toList = ['!'] ∨
      (trimGlob s.toList).head? ≠ some '#' ∧ EndsInEscape (components s))) ∨
        ∃ lo hi rs, ((trimGlob s.toList).head? ≠ some '#' ∧
          AreWhole (components s) ((lo, hi) :: rs)) ∧ e = .reversedRange lo hi := by
    constructor
    · rintro (hsign | ⟨hhead, hcut⟩ | ⟨hhead, hrange⟩)
      · exact .inl ⟨rfl, .inl hsign⟩
      · exact .inl ⟨rfl, .inr ⟨hhead, hcut⟩⟩
      · exact .inr ⟨_, _, _, ⟨hhead, hrange⟩, rfl⟩
    · rintro (⟨rfl, hsign | ⟨hhead, hcut⟩⟩ | ⟨lo, hi, rs, ⟨hhead, hrange⟩, rfl⟩)
      · exact .sign hsign
      · exact .escape hhead hcut
      · exact .range hhead hrange
  rw [hfault]
  unfold read components
  generalize trimGlob s.toList = cs
  simp only
  by_cases hblank : cs.isEmpty || cs.head? == some '#' || cs == ['/']
  · rw [if_pos hblank]
    refine iff_of_false (fun h => nomatch h) ?_
    simp only [Bool.or_eq_true, List.isEmpty_iff, beq_iff_eq] at hblank
    -- the components of a text that spells no glob are empty, so that nothing is wrong with them
    have hnil : reversedAll [[]] = .ok [] := rfl
    have hnil' : reversedAll [[], []] = .ok [] := rfl
    simp only [← reversedAll_eq_ok_iff, ← reversedAll_eq_bad_iff]
    rcases hblank with (rfl | hcomment) | rfl
    · simp [unnegated, Text.splitAt, hnil]
    · have hsign : cs ≠ ['!'] := by
        rintro rfl
        cases hcomment
      simp [hcomment, hsign]
    · simp [unnegated, Text.splitAt, hnil']
  · rw [if_neg hblank]
    simp only [Bool.or_eq_true, List.isEmpty_iff, beq_iff_eq, not_or] at hblank
    have hhead : ∀ P : Prop, cs.head? ≠ some '#' ∧ P ↔ P := fun P => and_iff_right hblank.1.2
    simp only [hhead, ← unnegated_eq_nil_iff hblank.1.1]
    -- with or without the sign, what follows it is read in the same way
    refine (readBody_eq_error_iff _ _).trans ?_
    split
    · rfl
    · next hsign => rw [unnegated]; exact hsign

example : read "[a-z]/[a--b]" = .error (.reversedRange 'a' '-') := by decide

/-- A text can be read unless it is malformed. -/
theorem exists_read_eq_ok_iff {s : String} : (∃ g, read s = .ok g) ↔ ¬ Malformed s := by
  cases h : read s with
  | ok g =>
      refine iff_of_true ⟨g, rfl⟩ ?_
      rintro ⟨e, he⟩
      cases h.symm.trans (read_eq_error_iff.mpr he)
  | error e =>
      have hs : Malformed s := ⟨e, read_eq_error_iff.mp h⟩
      exact iff_of_false (fun ⟨g, hg⟩ => nomatch hg) (not_not.mpr hs)

/-! ## Lists of globs -/

/-- Whether globs choose a path is told unless they cannot be read. -/
theorem excludes_eq (globs : List String) (path : String) :
    excludes globs path
      = (globs.mapM read).map fun gs =>
          choose (subject path) (gs.filterMap id).reverse 0 false := by
  rw [excludes, readAll]
  cases globs.mapM read <;> rfl

/-- **The first malformed glob of a list is the complaint**, whatever the path is. -/
theorem excludes_eq_error_iff {globs : List String} {path : String} {e : GlobError} :
    excludes globs path = .error e ↔
      ∃ before g after, globs = before ++ g :: after ∧ (∀ h ∈ before, ¬ Malformed h) ∧
        Fault g e := by
  rw [excludes_eq, map_eq_error_iff, mapM_eq_error_iff]
  simp only [exists_read_eq_ok_iff, read_eq_error_iff]

/-- **Globs choose a path or not**, unless one of them is malformed. -/
theorem exists_excludes_eq_ok_iff {globs : List String} {path : String} :
    (∃ b, excludes globs path = .ok b) ↔ ∀ g ∈ globs, ¬ Malformed g := by
  rw [excludes_eq, exists_map_eq_ok_iff, exists_mapM_eq_ok_iff]
  simp only [exists_read_eq_ok_iff]

end CodeSweep.Glob
