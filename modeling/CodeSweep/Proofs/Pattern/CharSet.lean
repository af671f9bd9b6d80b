/-
# Members of character sets

Which characters belong to the sets that the patterns of the analyses are made of: the set of one
character, the set of the characters of a text, the word characters, and the characters that may
begin an identifier.
-/
import CodeSweep.Pattern.CharSet
import Mathlib.Data.List.Basic

namespace CodeSweep

open Text

namespace CharSet

/-- One character. -/
theorem holds_single {c d : Char} : (single c).holds d = true ↔ d = c := by
  simp only [single, inside, holds, listed, CharTest.holds, List.any_cons, List.any_nil,
    Bool.or_false, Bool.bne_false, Bool.false_eq_true, if_false, Bool.and_eq_true,
    decide_eq_true_eq]
  exact ⟨fun h => Char.le_antisymm h.2 h.1, fun h => h ▸ ⟨Char.le_refl _, Char.le_refl _⟩⟩

/-- The characters of a text. -/
theorem holds_chars {t : String} {c : Char} : (inside (chars t)).holds c = true ↔ c ∈ t.toList := by
  simp only [inside, holds, listed, chars, List.any_map, Bool.bne_false, List.any_eq_true,
    Bool.false_eq_true, if_false, Function.comp_apply, CharTest.holds, Bool.and_eq_true,
    decide_eq_true_eq]
  constructor
  · rintro ⟨d, hd, hle, hge⟩
    exact Char.le_antisymm hle hge ▸ hd
  · intro hc
    exact ⟨c, hc, Char.le_refl _, Char.le_refl _⟩

/-- None of the characters of a text without word characters is one. -/
theorem isWord_of_holds_chars {t : String} {c : Char}
    (ht : (t.toList.all fun d => !isWord d) = true) (hc : (inside (chars t)).holds c = true) :
    isWord c = false :=
  (Bool.not_eq_true' _).mp (List.all_eq_true.mp ht c (holds_chars.mp hc))

/-- All characters but the line feed. -/
theorem holds_inLine {c : Char} : inLine.holds c = true ↔ c ≠ '\n' := by
  have hlisted : inLine.holds c = !(single '\n').holds c := by
    simp [inLine, outside, single, inside, holds, listed]
  rw [hlisted, Bool.not_eq_true', ← Bool.not_eq_true, holds_single]

/-- Word characters. -/
theorem holds_wordChar (c : Char) : wordChar.holds c = isWord c := by
  simp [wordChar, wordChars, inside, holds, listed, CharTest.holds]

/-- The characters of two lists of tests. -/
theorem holds_inside_append (ts us : List CharTest) (c : Char) :
    (inside (ts ++ us)).holds c = ((inside ts).holds c || (inside us).holds c) := by
  simp [inside, holds, listed]

/-- Letters and the underscore. -/
theorem of_holds_identStart {c : Char} (hc : identStart.holds c = true) :
    isAsciiLetter c = true ∨ c = '_' := by
  simp only [identStart, inside, holds, listed, letters, between, chars, CharTest.holds,
    Bool.bne_false, Bool.false_eq_true, if_false, List.any_append, List.any_cons, List.any_nil,
    List.any_map, Bool.or_false, Bool.or_eq_true, Bool.and_eq_true, decide_eq_true_eq,
    Function.comp_apply, List.any_eq_true] at hc
  simp only [isAsciiLetter, Bool.or_eq_true, Bool.and_eq_true, decide_eq_true_eq]
  rcases hc with (h | h) | ⟨d, hd, hle, hge⟩
  · exact .inl (.inr h)
  · exact .inl (.inl h)
  · obtain rfl : d = '_' := by simpa using hd
    exact .inr (Char.le_antisymm hge hle)

end CharSet

/-- A letter is a word character. -/
theorem Text.isWord_of_isAsciiLetter {c : Char} (hc : isAsciiLetter c = true) :
    isWord c = true := by
  have hlt : c.toNat < 128 := by
    have hle : c ≤ 'z' := by
      simp only [isAsciiLetter, Bool.or_eq_true, Bool.and_eq_true, decide_eq_true_eq] at hc
      rcases hc with ⟨-, hle⟩ | ⟨-, hle⟩
      · exact hle
      · exact Char.le_trans hle (by decide)
    exact Nat.lt_of_le_of_lt hle (by decide)
  rw [isWord, isAlphanumeric, if_pos hlt, hc, Bool.true_or, Bool.or_true]

/-- What may begin an identifier is a word character. -/
theorem Text.isWord_of_holds_identStart {c : Char} (hc : identStart.holds c = true) :
    isWord c = true := by
  rcases CharSet.of_holds_identStart hc with hletter | rfl
  · exact isWord_of_isAsciiLetter hletter
  · decide

end CodeSweep
