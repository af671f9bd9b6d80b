/-
# Words in a match

Every match of a pattern may hold a match of one of some other patterns (`holdsOneOf`), such as a
word in any letter case.  If the match is also known to be made of a few characters, there are only
so many ways to spell the word in it (`mem_spellings`).
-/
import CodeSweep.Proofs.Pattern.Alike
import CodeSweep.Proofs.Pattern.Parts
import CodeSweep.Proofs.Text.Slice
import Mathlib.Data.List.Forall2

namespace CodeSweep

namespace Pattern

/-! ## Patterns in a pattern -/

/-- Every match of the pattern holds a match of one of the others. -/
def holdsOneOf (qs : List Pattern) : Pattern → Bool
  | seq p q => qs.contains (seq p q) || p.holdsOneOf qs || q.holdsOneOf qs
  | alt p q => qs.contains (alt p q) || (p.holdsOneOf qs && q.holdsOneOf qs)
  | p => qs.contains p

/-- **A match holds** a match of one of the patterns that its pattern is known to hold. -/
theorem exists_of_holdsOneOf {qs : List Pattern} {p : Pattern} (hp : p.holdsOneOf qs = true)
    {text : Array Char} {i : Nat} {g : Groups} :
    ∀ e ∈ ends text p i g, ∃ q ∈ qs, ∃ j g', ∃ f ∈ ends text q j g', i ≤ j ∧ f.1 ≤ e.1 := by
  -- the pattern itself may be one of them
  have hself : ∀ (p : Pattern) {i : Nat} {g : Groups}, qs.contains p = true →
      ∀ e ∈ ends text p i g, ∃ q ∈ qs, ∃ j g', ∃ f ∈ ends text q j g', i ≤ j ∧ f.1 ≤ e.1 :=
    fun p i g h e he => ⟨p, List.contains_iff_mem.mp h, i, g, e, he, Nat.le_refl _, Nat.le_refl _⟩
  induction p generalizing i g with
  | seq p q ihp ihq =>
      intro e he
      rw [holdsOneOf, Bool.or_eq_true, Bool.or_eq_true] at hp
      rcases hp with (hp | hp) | hp
      · exact hself _ hp e he
      · obtain ⟨mid, hmid, he⟩ := List.mem_flatMap.mp he
        obtain ⟨r, hr, j, g', f, hf, hij, hle⟩ := ihp hp mid hmid
        exact ⟨r, hr, j, g', f, hf, hij, Nat.le_trans hle (le_of_mem_ends he)⟩
      · obtain ⟨mid, hmid, he⟩ := List.mem_flatMap.mp he
        obtain ⟨r, hr, j, g', f, hf, hij, hle⟩ := ihq hp e he
        exact ⟨r, hr, j, g', f, hf, Nat.le_trans (le_of_mem_ends hmid) hij, hle⟩
  | alt p q ihp ihq =>
      intro e he
      rw [holdsOneOf, Bool.or_eq_true, Bool.and_eq_true] at hp
      rcases hp with hp | ⟨hp, hq⟩
      · exact hself _ hp e he
      · rcases List.mem_append.mp he with he | he
        · exact ihp hp e he
        · exact ihq hq e he
  | _ => exact hself _ hp

/-! ## Words in any letter case -/

/-- The character stands for the letter in any letter case. -/
def Spells (x c : Char) : Prop := (CharSet.single x).ignoreCase.holds c = true

instance (x c : Char) : Decidable (Spells x c) :=
  inferInstanceAs (Decidable ((CharSet.single x).ignoreCase.holds c = true))

/-- A word without regard to letter case matches what spells it. -/
theorem forall₂_spells {text : List Char} {word : List Char} {i : Nat} {g : Groups} {e : End}
    (he : e ∈ ends text.toArray (ofChars word).ignoreCase i g) :
    List.Forall₂ Spells word (Text.slice text (i, e.1)) := by
  -- one character of the word
  have hone : ∀ {x : Char} {i : Nat} {g : Groups} {e : End},
      e ∈ ends text.toArray (one (CharSet.single x).ignoreCase) i g →
        e.1 = i + 1 ∧ ∃ c, Spells x c ∧ Text.slice text (i, i + 1) = [c] := by
    intro x i g e he
    obtain ⟨hholds, rfl⟩ := mem_ends_one.mp he
    obtain ⟨c, hc, hspells⟩ := holdsAt_eq_true_iff.mp hholds
    exact ⟨rfl, c, hspells, Text.slice_succ (List.getElem?_toArray ▸ hc)⟩
  induction word using ofChars.induct generalizing i g with
  | case1 =>
      obtain rfl := List.mem_singleton.mp he
      rw [Text.slice_self]
      exact .nil
  | case2 x =>
      obtain ⟨hstop, c, hspells, hslice⟩ := hone he
      rw [hstop, hslice]
      exact .cons hspells .nil
  | case3 x xs hxs ih =>
      rw [ofChars] at he
      · obtain ⟨mid, hmid, he⟩ := List.mem_flatMap.mp he
        obtain ⟨hstop, c, hspells, hslice⟩ := hone hmid
        rw [hstop] at he
        rw [← Text.slice_append_slice (Nat.le_add_right i 1) (le_of_mem_ends he), hslice]
        exact .cons hspells (ih he)
      · exact hxs

/-- Each character of what spells a word stands for a letter of it. -/
theorem exists_spells_of_mem {word cs : List Char} (h : List.Forall₂ Spells word cs) :
    ∀ c ∈ cs, ∃ x ∈ word, Spells x c := by
  induction h with
  | nil => simp
  | @cons x c xs cs hspells _ ih =>
      rw [List.forall_mem_cons]
      refine ⟨⟨x, List.mem_cons_self, hspells⟩, fun d hd => ?_⟩
      obtain ⟨y, hy, hspells⟩ := ih d hd
      exact ⟨y, List.mem_cons_of_mem x hy, hspells⟩

/-- The ways to spell a word with characters of the alphabet. -/
def spellings (alphabet : List Char) : List Char → List (List Char)
  | [] => [[]]
  | x :: xs =>
    (alphabet.filter fun c => decide (Spells x c)).flatMap fun c =>
      (spellings alphabet xs).map (c :: ·)

/-- What spells a word is one of the ways to spell it. -/
theorem mem_spellings {alphabet word cs : List Char} (h : List.Forall₂ Spells word cs)
    (hcs : ∀ c ∈ cs, c ∈ alphabet) : cs ∈ spellings alphabet word := by
  induction h with
  | nil => exact List.mem_singleton_self _
  | cons hspells _ ih =>
      rw [List.forall_mem_cons] at hcs
      refine List.mem_flatMap.mpr ⟨_, List.mem_filter.mpr ⟨hcs.1, decide_eq_true hspells⟩, ?_⟩
      exact List.mem_map.mpr ⟨_, ih hcs.2, rfl⟩

end Pattern

/-! ## Sets over an alphabet -/

namespace CharSet

/-- The set is given by some characters of the alphabet. -/
def isWithin (alphabet : List Char) (s : CharSet) : Bool :=
  !s.negated && !s.anyCase && s.tests.all fun
    | .range lo hi => lo == hi && alphabet.contains lo
    | _ => false

/-- Its characters are in the alphabet. -/
theorem mem_of_isWithin {alphabet : List Char} {s : CharSet} (hs : s.isWithin alphabet = true)
    {c : Char} (hc : s.holds c = true) : c ∈ alphabet := by
  rw [isWithin, Bool.and_eq_true, Bool.and_eq_true, Bool.not_eq_true', Bool.not_eq_true',
    List.all_eq_true] at hs
  obtain ⟨⟨hnegated, hcase⟩, htests⟩ := hs
  rw [holds, hnegated, Bool.bne_false, listed, List.any_eq_true] at hc
  obtain ⟨t, ht, hholds⟩ := hc
  rw [if_neg (by simp [hcase])] at hholds
  have htest := htests t ht
  cases t with
  | range lo hi =>
      simp only [CharTest.holds, Bool.and_eq_true, decide_eq_true_eq, beq_iff_eq,
        List.contains_iff_mem] at hholds htest
      obtain ⟨rfl, hmem⟩ := htest
      exact Char.le_antisymm hholds.1 hholds.2 ▸ hmem
  | _ => cases htest

end CharSet

end CodeSweep
