/-
# The keyword of directives

A line is read for directives only if the keyword occurs in it after lower-casing.  The patterns of
directives ignore case in a wider sense: they take the long s for an `s`, which is a small letter
already.  So the check passes over a line with a directive exactly if every keyword in it is spelled
with a long s (`ofLines_eq_ofLinesUnchecked_iff`); in all other texts it makes no difference.
-/
import CodeSweep.Proofs.Pattern.Holds
import CodeSweep.Proofs.Pattern.LetterCase
import CodeSweep.Proofs.Suppression
import CodeSweep.Proofs.Text.Words

namespace CodeSweep

open Pattern

/-! ## Spelling the keyword -/

namespace Text

/-- The long s, a small letter that a search ignoring case takes for an `s`. -/
def longS : Char := '\u017f'

/-- The characters of the keyword are basic ones, and no `i`. -/
theorem of_mem_keyword {x : Char} (hx : x ∈ Directive.keyword) :
    x ≠ 'i' ∧ 0 < x.toNat ∧ x.toNat < 128 :=
  forall_mem_of_all (P := fun x => x ≠ 'i' ∧ 0 < x.toNat ∧ x.toNat < 128) (by decide) x hx

/-- A basic character is one of its own shapes. -/
theorem mem_otherShapes_self {x : Char} (hx : x.toNat < 128) : x ∈ otherShapes x := by
  unfold otherShapes
  split
  · next h =>
      rw [Bool.or_eq_true, beq_iff_eq, beq_iff_eq] at h
      exact List.mem_cons.mpr (.inl (h.resolve_right (by omega)))
  · split
    · next h =>
        rw [Bool.or_eq_true, beq_iff_eq, beq_iff_eq] at h
        exact List.mem_cons.mpr (.inl (h.resolve_right (by omega)))
    · exact List.mem_singleton_self x

/-- A small letter is one of the case variants of its capitals. -/
theorem mem_caseVariants_of_smallLetter {x c : Char} (hx : x.toNat < 128)
    (hc : smallLetter c = x) : x ∈ caseVariants c := by
  rw [caseVariants, hc, List.mem_flatMap]
  exact ⟨x, mem_otherShapes_self hx, List.mem_cons_self⟩

/-- A character made from a code point has this code point, unless it has none. -/
theorem toNat_ofNat_or (n : Nat) : (Char.ofNat n).toNat = n ∨ (Char.ofNat n).toNat = 0 := by
  by_cases h : n.isValidChar
  · have hvalid : Char.ofNat n = Char.ofNatAux n h := dif_pos h
    exact .inl (hvalid ▸ rfl)
  · have hnone : Char.ofNat n = '\x00' := dif_neg h
    exact .inr (hnone ▸ rfl)

/-- The characters of the keyword are no capitals. -/
theorem not_mem_capitals {x : Char} (hx : x ∈ Directive.keyword) (s : Char) : x ∉ capitals s := by
  by_cases hs : s.toNat < 128
  · have hbasic : ∀ x ∈ Directive.keyword, ∀ n < 128, x ∉ capitals (Char.ofNat n) :=
      forall_mem_of_all (by decide)
    exact forall_of_toNat_lt (P := fun s => x ∉ capitals s) (hbasic x hx) hs
  · intro hmem
    rw [capitals, if_neg hs, List.mem_map] at hmem
    obtain ⟨r, hr, hxr⟩ := hmem
    obtain ⟨hr, hholds⟩ := List.mem_filter.mp hr
    have hfirst : ∀ r ∈ capitalRuns, 128 ≤ r.first := by decide +kernel
    rw [CapitalRun.holds, Bool.and_eq_true, Bool.and_eq_true, decide_eq_true_eq] at hholds
    -- a capital that is not basic has a code point from 128 on, if it has one at all
    obtain ⟨-, hpos, hlt⟩ := of_mem_keyword hx
    rw [← hxr] at hpos hlt
    have hle := hfirst r hr
    rcases toNat_ofNat_or ((s.toNat : Int) - r.shift).toNat with h | h <;> omega

/-- Of the letters from code point 128 on, only the dotless i and the long s have other shapes before
that. -/
theorem of_mem_otherShapes_of_le {x u : Char} (hle : 128 ≤ u.toNat) (hx : x ∈ otherShapes u) :
    x = 'i' ∨ x = 's' ∧ u = longS ∨ 128 ≤ x.toNat ∨ x.toNat = 0 := by
  have hfamilies : ∀ family ∈ shapeFamilies, ∀ n ∈ family, 128 ≤ n := by decide
  unfold otherShapes at hx
  split at hx
  · rcases List.mem_cons.mp hx with rfl | hx
    · exact .inl rfl
    · obtain rfl := List.mem_singleton.mp hx
      exact .inr (.inr (.inl (by decide)))
  · split at hx
    · next hs =>
        rcases List.mem_cons.mp hx with rfl | hx
        · have hne : u ≠ 's' := fun h => absurd (h ▸ hle) (by decide)
          have hcode : u.toNat = 0x17F := by simpa [hne] using hs
          exact .inr (.inl ⟨rfl, by rw [← Char.ofNat_toNat u, hcode]; rfl⟩)
        · obtain rfl := List.mem_singleton.mp hx
          exact .inr (.inr (.inl (by decide)))
    · rw [if_neg (by omega), List.mem_map] at hx
      obtain ⟨n, hn, rfl⟩ := hx
      have hn : 128 ≤ n := by
        cases hfamily : shapeFamilies.find? (·.contains u.toNat) with
        | none =>
            rw [hfamily, Option.getD_none, List.mem_singleton] at hn
            omega
        | some family =>
            rw [hfamily, Option.getD_some] at hn
            exact hfamilies family (List.mem_of_find?_eq_some hfamily) n hn
      exact .inr (.inr ((toNat_ofNat_or n).imp_left fun h => Nat.le_trans hn (Nat.le_of_eq h.symm)))

/-- A letter of the keyword is a shape of no other letter, but for the long s. -/
theorem of_mem_otherShapes {x u : Char} (hx : x ∈ Directive.keyword) (hu : x ∈ otherShapes u) :
    u = x ∨ x = 's' ∧ u = longS := by
  by_cases hlt : u.toNat < 128
  · have hbasic : ∀ x ∈ Directive.keyword, ∀ n < 128, x ∈ otherShapes (Char.ofNat n) →
        Char.ofNat n = x := forall_mem_of_all (by decide)
    exact .inl (forall_of_toNat_lt (P := fun u => x ∈ otherShapes u → u = x) (hbasic x hx) hlt hu)
  · obtain ⟨hi, hpos, hx128⟩ := of_mem_keyword hx
    rcases of_mem_otherShapes_of_le (Nat.le_of_not_lt hlt) hu with h | h | h | h
    · exact absurd h hi
    · exact .inr h
    · omega
    · omega

/-- What is the small letter of no capital is the small letter of itself only. -/
theorem eq_of_smallLetter {small c : Char} (hpos : 0 < small.toNat) (hbasic : small.isAlpha = false)
    (hruns : ∀ r ∈ capitalRuns, r.holds ((small.toNat : Int) - r.shift).toNat = false)
    (hc : smallLetter c = small) : c = small := by
  by_cases hlt : c.toNat < 128
  · rw [smallLetter_eq_toLower hlt] at hc
    exact (toLower_eq_iff hbasic c).mp hc
  · rw [smallLetter, if_neg hlt] at hc
    split at hc
    · exact absurd (hc ▸ hbasic) (by decide)
    · split at hc
      · next r hr =>
          exfalso
          have hcode : ((c.toNat : Int) + r.shift).toNat = small.toNat := by
            have hsmall := congrArg Char.toNat hc
            rcases toNat_ofNat_or ((c.toNat : Int) + r.shift).toNat with h | h <;> omega
          have hholds := List.find?_some hr
          have hplace : ((small.toNat : Int) - r.shift).toNat = c.toNat := by omega
          rw [← hplace, hruns r (List.mem_of_find?_eq_some hr)] at hholds
          cases hholds
      · exact hc

/-- Lower-casing makes nothing a long s. -/
theorem eq_longS_of_smallLetter {c : Char} (hc : smallLetter c = longS) : c = longS :=
  eq_of_smallLetter (by decide) (by decide) (by decide +kernel) hc

end Text

namespace Directive

open Text

/-- A character spells a letter that is one of its case variants. -/
theorem spells_iff_mem {x c : Char} : Spells x c ↔ x ∈ caseVariants c := by
  simp only [Spells, CharSet.holds, CharSet.listed, CharSet.ignoreCase, CharSet.single,
    CharSet.inside, Bool.bne_false, List.any_cons, List.any_nil, Bool.or_false, if_true,
    CharTest.holdsAnyCase, CharTest.holds, List.any_eq_true, Bool.and_eq_true, decide_eq_true_eq]
  constructor
  · rintro ⟨d, hd, hle, hge⟩
    exact Char.le_antisymm hle hge ▸ hd
  · intro hmem
    exact ⟨x, hmem, Char.le_refl _, Char.le_refl _⟩

/-- A basic small letter spells itself. -/
theorem spells_self {x : Char} (hx : x.toNat < 128) (hsmall : smallLetter x = x) : Spells x x :=
  spells_iff_mem.mpr (mem_caseVariants_of_smallLetter hx hsmall)

/-- A character spells a letter of the keyword if lower-casing makes it this letter, or if it is the
long s and the letter is an `s`. -/
theorem spells_iff {x c : Char} (hx : x ∈ keyword) :
    Spells x c ↔ smallLetter c = x ∨ x = 's' ∧ c = longS := by
  rw [spells_iff_mem]
  constructor
  · intro hmem
    rw [caseVariants, List.mem_flatMap] at hmem
    obtain ⟨s, hs, hmem⟩ := hmem
    obtain rfl : x = s := (List.mem_cons.mp hmem).resolve_right (not_mem_capitals hx s)
    exact (of_mem_otherShapes hx hs).imp_right (And.imp_right eq_longS_of_smallLetter)
  · rintro (hsmall | ⟨rfl, rfl⟩)
    · exact mem_caseVariants_of_smallLetter (of_mem_keyword hx).2.2 hsmall
    · decide

/-- The characters spell the keyword. -/
def IsKeyword (cs : List Char) : Prop := List.Forall₂ Spells keyword cs

instance (cs : List Char) : Decidable (IsKeyword cs) :=
  inferInstanceAs (Decidable (List.Forall₂ Spells keyword cs))

/-- What spells the keyword is lower-cased to it unless it begins with a long s. -/
theorem map_smallLetter_eq_iff {cs : List Char} :
    cs.map smallLetter = keyword ↔ IsKeyword cs ∧ cs.head? ≠ some longS := by
  have hspells : ∀ {x c : Char}, x ∈ keyword → x ≠ 's' → (Spells x c ↔ smallLetter c = x) :=
    fun hx hne => (spells_iff hx).trans (or_iff_left fun h => hne h.1)
  have hfirst : ∀ c, smallLetter c = 's' ↔ Spells 's' c ∧ c ≠ longS := by
    intro c
    rw [spells_iff (by decide)]
    constructor
    · rintro hc
      exact ⟨.inl hc, fun h => absurd (h ▸ hc) (by decide)⟩
    · rintro ⟨hc | hc, hne⟩
      · exact hc
      · exact absurd hc.2 hne
  rw [IsKeyword, show keyword = ['s', 'l', 'o', 'p', ':'] from rfl]
  rcases cs with _ | ⟨c₁, _ | ⟨c₂, _ | ⟨c₃, _ | ⟨c₄, _ | ⟨c₅, _ | ⟨c₆, cs⟩⟩⟩⟩⟩⟩
  case cons.cons.cons.cons.cons.nil =>
    simp only [List.map_cons, List.map_nil, List.cons.injEq, List.forall₂_cons, hfirst,
      hspells (x := 'l') (by decide) (by decide), hspells (x := 'o') (by decide) (by decide),
      hspells (x := 'p') (by decide) (by decide), hspells (x := ':') (by decide) (by decide),
      List.head?_cons, ne_eq, Option.some.injEq, List.Forall₂.nil, and_true]
    exact and_right_comm
  all_goals simp

/-- The keyword occurs in a lower-cased line if a stretch of the line that does not begin with a long
s spells it. -/
theorem occursIn_keyword_iff {line : List Char} :
    occursIn keyword (lower line) = true ↔
      ∃ cs, cs <:+: line ∧ IsKeyword cs ∧ cs.head? ≠ some longS := by
  rw [occursIn_lower_iff (forall_mem_of_all (by decide)) (by decide)]
  simp only [← map_smallLetter_eq_iff]
  constructor
  · rintro ⟨before, after, h⟩
    obtain ⟨front, suffix', hline, hfront, -⟩ := List.map_eq_append_iff.mp h.symm
    obtain ⟨before', cs, rfl, -, hcs⟩ := List.map_eq_append_iff.mp hfront
    exact ⟨cs, ⟨before', suffix', hline.symm⟩, hcs⟩
  · rintro ⟨cs, hinfix, hcs⟩
    exact hcs ▸ hinfix.map smallLetter

end Directive

/-! ## Directives without the check -/

namespace Directive

open Text

/-- The kinds of directives. -/
inductive Kind where
  /-- For the whole file. -/
  | file
  /-- For its own line. -/
  | line
  /-- For the next line. -/
  | nextLine
  deriving DecidableEq, Repr

namespace Kind

/-- All kinds, in the order in which a line is searched for them. -/
def all : List Kind := [.file, .line, .nextLine]

/-- The pattern of directives of the kind. -/
def pattern : Kind → Pattern
  | .file => forFile
  | .line => forLine
  | .nextLine => forNextLine

/-- Where a directive of the kind in the line of the number reaches. -/
def reach (number : Nat) : Kind → Reach
  | .file => .file
  | .line => .line number
  | .nextLine => .line (number + 1)

/-- Every kind is one of all. -/
theorem mem_all (kind : Kind) : kind ∈ all := by cases kind <;> decide

end Kind

/-- The directives in a line, whether or not the keyword is in it. -/
def inLineUnchecked (number : Nat) (line : List Char) : List Directive :=
  Kind.all.flatMap fun kind => (find? kind.pattern (kind.reach number) line).toList

/-- The directives in lines that are numbered from `number` on, without the check. -/
def inLinesUnchecked : (number : Nat) → List (List Char) → List Directive
  | _, [] => []
  | number, line :: lines => inLineUnchecked number line ++ inLinesUnchecked (number + 1) lines

/-- A line with the keyword is searched for all kinds. -/
theorem inLine_eq (number : Nat) (line : List Char) :
    inLine number line
      = if occursIn keyword (lower line) then inLineUnchecked number line else [] := by
  simp [inLine, inLineUnchecked, Kind.all, Kind.pattern, Kind.reach]

/-- Every match of a kind keeps a list of names. -/
theorem captures_names (kind : Kind) : captures "names" kind.pattern = true := by
  cases kind <;> decide

/-- A line has a directive of a kind if the pattern of the kind is found in it. -/
theorem find?_isSome (kind : Kind) (reach : Reach) (line : List Char) :
    (find? kind.pattern reach line).isSome = kind.pattern.foundIn line.toArray := by
  rw [find?, foundIn]
  cases hm : kind.pattern.search? line.toArray 0 with
  | none => rfl
  | some m =>
      obtain ⟨a, b, hnames, -⟩ := (search?_isMatch hm).1.exists_group (captures_names kind)
      simp [hnames]

/-- A line has no directives if no kind is found in it. -/
theorem inLineUnchecked_eq_nil_iff {number : Nat} {line : List Char} :
    inLineUnchecked number line = [] ↔
      ∀ kind : Kind, kind.pattern.foundIn line.toArray = false := by
  rw [inLineUnchecked, List.flatMap_eq_nil_iff]
  constructor
  · intro h kind
    rw [← find?_isSome kind (kind.reach number), Option.isSome_eq_false_iff,
      Option.isNone_iff_eq_none]
    exact Option.toList_eq_nil_iff.mp (h kind kind.mem_all)
  · intro h kind _
    rw [Option.toList_eq_nil_iff, ← Option.isNone_iff_eq_none, ← Option.isSome_eq_false_iff,
      find?_isSome, h kind]

/-- **A directive has a keyword**: where a match of a kind begins, characters spell it. -/
theorem exists_keyword {kind : Kind} {line : List Char} {i : Nat} {e : End} (hi : i ≤ line.length)
    (he : e ∈ ends line.toArray kind.pattern i []) :
    ∃ as cs bs, line = as ++ cs ++ bs ∧ as.length = i ∧ IsKeyword cs := by
  have hparts : kind.pattern.parts
      = (ofChars keyword).ignoreCase.parts ++ kind.pattern.parts.drop keyword.length := by
    cases kind <;> rfl
  rw [ends_eq_endsInTurn, hparts, endsInTurn_append, ← ends_eq_endsInTurn] at he
  obtain ⟨mid, hmid, -⟩ := List.mem_flatMap.mp he
  refine ⟨line.take i, slice line (i, mid.1), line.drop mid.1, ?_, ?_, forall₂_spells hmid⟩
  · rw [List.append_assoc, slice_append_drop (le_of_mem_ends hmid), List.take_append_drop]
  · rw [List.length_take, Nat.min_eq_left hi]

/-- The check makes no difference to a line if the line has no directive, or a keyword that
lower-casing finds. -/
theorem inLine_eq_inLineUnchecked_iff (number : Nat) {line : List Char} :
    inLine number line = inLineUnchecked number line ↔
      ∀ kind : Kind, kind.pattern.foundIn line.toArray = true →
        ∃ cs, cs <:+: line ∧ IsKeyword cs ∧ cs.head? ≠ some longS := by
  rw [inLine_eq, ← occursIn_keyword_iff]
  split
  · next h => simp [h]
  · next h =>
      rw [eq_comm, inLineUnchecked_eq_nil_iff]
      simp [h]

/-- The check only passes directives over. -/
theorem inLines_sublist (number : Nat) (ls : List (List Char)) :
    (inLines number ls).Sublist (inLinesUnchecked number ls) := by
  induction ls generalizing number with
  | nil => exact .slnil
  | cons line ls ih =>
      rw [inLines, inLinesUnchecked, inLine_eq]
      split
      · exact (List.Sublist.refl _).append (ih _)
      · exact (List.nil_sublist _).append (ih _)

/-- The check makes no difference to lines if it makes none to each. -/
theorem inLines_eq_inLinesUnchecked_iff (number : Nat) {ls : List (List Char)} :
    inLines number ls = inLinesUnchecked number ls ↔
      ∀ line ∈ ls, ∀ kind : Kind, kind.pattern.foundIn line.toArray = true →
        ∃ cs, cs <:+: line ∧ IsKeyword cs ∧ cs.head? ≠ some longS := by
  induction ls generalizing number with
  | nil => simp [inLines, inLinesUnchecked]
  | cons line ls ih =>
      rw [List.forall_mem_cons, ← ih (number + 1),
        ← inLine_eq_inLineUnchecked_iff number, inLines, inLinesUnchecked]
      constructor
      · intro h
        -- a directive that is passed over is missing from the whole
        have hline : (inLine number line).Sublist (inLineUnchecked number line) := by
          rw [inLine_eq]
          split
          · exact .refl _
          · exact List.nil_sublist _
        have hls := inLines_sublist (number + 1) ls
        have hlength := congrArg List.length h
        rw [List.length_append, List.length_append] at hlength
        have hle := hline.length_le
        have hle' := hls.length_le
        exact ⟨hline.eq_of_length (by omega), hls.eq_of_length (by omega)⟩
      · rintro ⟨hline, hls⟩
        rw [hline, hls]

end Directive

namespace Suppressions

open Directive Text

/-- The suppressions that the lines of a file declare, without the check for the keyword. -/
def ofLinesUnchecked (lines : List (List Char)) : Suppressions := ⟨inLinesUnchecked 1 lines⟩

/-- **The check for the keyword** makes no difference to lines without a long s: where a kind of
directive is found in such a line, the keyword is in the lower-cased line.  To any lines it makes
none exactly if each line in which a kind is found has the keyword in a spelling that does not begin
with a long s. -/
theorem ofLines_eq_ofLinesUnchecked_iff (ls : List (List Char)) :
    (∀ line : List Char, longS ∉ line → ∀ kind : Kind, kind.pattern.foundIn line.toArray = true →
      occursIn keyword (lower line) = true) ∧
    ((∀ line ∈ ls, longS ∉ line) → ofLines ls = ofLinesUnchecked ls) ∧
    (ofLines ls = ofLinesUnchecked ls ↔
      ∀ line ∈ ls, ∀ kind : Kind, kind.pattern.foundIn line.toArray = true →
        ∃ cs, cs <:+: line ∧ IsKeyword cs ∧ cs.head? ≠ some longS) := by
  have hplain : ∀ line : List Char, longS ∉ line → ∀ kind : Kind,
      kind.pattern.foundIn line.toArray = true →
        ∃ cs, cs <:+: line ∧ IsKeyword cs ∧ cs.head? ≠ some longS := by
    intro line hline kind hfound
    obtain ⟨i, hi, hne⟩ := foundIn_iff.mp hfound
    obtain ⟨e, he⟩ := List.exists_mem_of_ne_nil _ hne
    obtain ⟨as, cs, bs, rfl, -, hcs⟩ := exists_keyword hi he
    refine ⟨cs, ⟨as, bs, rfl⟩, hcs, fun h => hline ?_⟩
    exact List.mem_append_left bs (List.mem_append_right as (List.mem_of_head? h))
  have hiff : ofLines ls = ofLinesUnchecked ls ↔
      ∀ line ∈ ls, ∀ kind : Kind, kind.pattern.foundIn line.toArray = true →
        ∃ cs, cs <:+: line ∧ IsKeyword cs ∧ cs.head? ≠ some longS := by
    rw [ofLines, ofLinesUnchecked, Suppressions.mk.injEq]
    exact inLines_eq_inLinesUnchecked_iff 1
  refine ⟨fun line hline kind hfound => ?_, fun hls => ?_, hiff⟩
  · exact occursIn_keyword_iff.mpr (hplain line hline kind hfound)
  · exact hiff.mpr fun line hline => hplain line (hls line hline)

/-- A directive in capitals. -/
def capitalDirective : List Char := "# SLOP: DISABLE=X".toList

/-- The check lets a directive in capitals pass. -/
theorem ofLines_eq_ofLinesUnchecked_capitals :
    longS ∉ capitalDirective ∧ Kind.line.pattern.foundIn capitalDirective.toArray = true ∧
      occursIn keyword (lower capitalDirective) = true ∧
      ofLines [capitalDirective] = ofLinesUnchecked [capitalDirective] ∧
      ofLines [capitalDirective] = ⟨[⟨.line 1, ["x"]⟩]⟩ := by
  have hplain : longS ∉ capitalDirective := by decide
  have hfound : Kind.line.pattern.foundIn capitalDirective.toArray = true := by decide +kernel
  obtain ⟨hpass, hsame, -⟩ := ofLines_eq_ofLinesUnchecked_iff [capitalDirective]
  refine ⟨hplain, hfound, hpass _ hplain .line hfound, hsame ?_, by decide +kernel⟩
  exact List.forall_mem_singleton.mpr hplain

/-- A directive with a long s in the keyword. -/
def longDirective : List Char := longS :: "lop: disable=x".toList

/-- In a line with a long s the check passes over a directive that is found there. -/
theorem ofLines_longDirective :
    Kind.line.pattern.foundIn longDirective.toArray = true ∧
      occursIn keyword (lower longDirective) = false ∧
      ofLines [longDirective] = ⟨[]⟩ ∧
      ofLinesUnchecked [longDirective] = ⟨[⟨.line 1, ["x"]⟩]⟩ := by
  decide +kernel

end Suppressions

end CodeSweep
