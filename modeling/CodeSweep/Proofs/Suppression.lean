/-
# Texts without directives

Directives start with a keyword, in letters of any case.  A text in which the keyword does not occur
has no line in which it does, so it silences nothing (`ofLines_lines_eq`).  Lower-casing looks at
the neighbours of a character in a single case, that of the capital sigma, and makes two characters
of one only for the capital I with a dot.  Neither has to do with the keyword, which occurs in a
lower-cased text exactly if it is spelled by small letters of the text
(`occursIn_lower_iff`).
-/
import CodeSweep.Proofs.Text.Lines
import CodeSweep.Suppression

namespace CodeSweep

/-! ## Words in a lower-cased text -/

namespace Text

/-- A word occurs in a text if it is a stretch of it. -/
theorem occursIn_iff {word cs : List Char} : occursIn word cs = true ↔ word <:+: cs := by
  induction cs with
  | nil => simp [occursIn]
  | cons c cs ih =>
      rw [occursIn, Bool.or_eq_true, List.isPrefixOf_iff_prefix, ih, List.infix_cons_iff]

/-- What lower-casing makes of the capital I with a dot and of the capital sigma. -/
def specialSmall : List Char := ['i', Char.ofNat 0x307, Char.ofNat 0x3C2, Char.ofNat 0x3C3]

/-- A character is lower-cased to its small letter, or both are special. -/
theorem lowerFrom_cons (seen : List Char) (c : Char) (cs : List Char) :
    lowerFrom seen (c :: cs) = smallLetter c :: lowerFrom (c :: seen) cs ∨
      smallLetter c ∈ specialSmall ∧ ∃ special, (∀ s ∈ special, s ∈ specialSmall) ∧
        special ≠ [] ∧ lowerFrom seen (c :: cs) = special ++ lowerFrom (c :: seen) cs := by
  rw [lowerFrom]
  by_cases hdotted : c.toNat = 0x130
  · obtain rfl : c = Char.ofNat 0x130 := by rw [← hdotted, Char.ofNat_toNat]
    exact .inr ⟨by decide, ['i', Char.ofNat 0x307], by simp [specialSmall], by simp, rfl⟩
  · rw [if_neg (by simpa using hdotted)]
    by_cases hsigma : c.toNat = 0x3A3
    · obtain rfl : c = Char.ofNat 0x3A3 := by rw [← hsigma, Char.ofNat_toNat]
      refine .inr ⟨by decide, _, ?_, ?_, rfl⟩
      · rw [if_pos (by decide)]
        split <;> simp [specialSmall]
      · rw [if_pos (by decide)]
        simp
    · rw [if_neg (by simpa using hsigma)]
      exact .inl rfl

section

variable {word : List Char} (hword : ∀ w ∈ word, w ∉ specialSmall)

include hword

/-- A word begins with a special letter only if it holds one. -/
theorem not_isPrefix_of_special (hne : word ≠ []) {s : Char} (hs : s ∈ specialSmall)
    (cs : List Char) : ¬ word <+: s :: cs := by
  obtain ⟨w, ws, rfl⟩ := List.exists_cons_of_ne_nil hne
  intro h
  obtain rfl : w = s := (List.cons_prefix_cons.mp h).1
  exact hword w List.mem_cons_self hs

/-- A word without special letters begins a lower-cased text if small letters of the text spell
it. -/
theorem isPrefix_lowerFrom_iff (seen cs : List Char) :
    word <+: lowerFrom seen cs ↔ word <+: cs.map smallLetter := by
  induction cs generalizing word seen with
  | nil => rfl
  | cons c cs ih =>
      by_cases hne : word = []
      · simp [hne]
      · rw [List.map_cons]
        rcases lowerFrom_cons seen c cs with heq | ⟨hsmall, special, hspecial, hnil, heq⟩
        · obtain ⟨w, ws, rfl⟩ := List.exists_cons_of_ne_nil hne
          rw [List.forall_mem_cons] at hword
          rw [heq, List.cons_prefix_cons, List.cons_prefix_cons, ih hword.2]
        · obtain ⟨s, ss, rfl⟩ := List.exists_cons_of_ne_nil hnil
          have hs := hspecial s List.mem_cons_self
          rw [heq, List.cons_append]
          exact iff_of_false (not_isPrefix_of_special hword hne hs _)
            (not_isPrefix_of_special hword hne hsmall _)

/-- Special letters before a text make no difference to such a word. -/
theorem isInfix_append_of_special (hne : word ≠ []) {special : List Char}
    (hspecial : ∀ s ∈ special, s ∈ specialSmall) (cs : List Char) :
    word <:+: special ++ cs ↔ word <:+: cs := by
  induction special with
  | nil => rfl
  | cons s special ih =>
      rw [List.forall_mem_cons] at hspecial
      rw [List.cons_append, List.infix_cons_iff, ih hspecial.2]
      exact or_iff_right (not_isPrefix_of_special hword hne hspecial.1 _)

/-- Such a word occurs in a lower-cased text if small letters of the text spell it somewhere. -/
theorem isInfix_lowerFrom_iff (hne : word ≠ []) (seen cs : List Char) :
    word <:+: lowerFrom seen cs ↔ word <:+: cs.map smallLetter := by
  induction cs generalizing seen with
  | nil => rfl
  | cons c cs ih =>
      rw [List.map_cons]
      rcases lowerFrom_cons seen c cs with heq | ⟨hsmall, special, hspecial, -, heq⟩
      · have hprefix := isPrefix_lowerFrom_iff hword seen (c :: cs)
        rw [heq, List.map_cons] at hprefix
        rw [heq, List.infix_cons_iff, List.infix_cons_iff, hprefix, ih]
      · rw [heq, isInfix_append_of_special hword hne hspecial, ih, List.infix_cons_iff]
        exact (or_iff_right (not_isPrefix_of_special hword hne hsmall _)).symm

/-- **Words in a lower-cased text.** -/
theorem occursIn_lower_iff (hne : word ≠ []) (cs : List Char) :
    occursIn word (lower cs) = true ↔ word <:+: cs.map smallLetter := by
  rw [occursIn_iff, lower, isInfix_lowerFrom_iff hword hne]

end

end Text

/-! ## Directives -/

open Text

/-- A line of a text without the keyword is without the keyword. -/
theorem Directive.occursIn_keyword_line {text line : List Char}
    (htext : occursIn keyword (lower text) = false) (hline : line ∈ lines text) :
    occursIn keyword (lower line) = false := by
  have hword : ∀ w ∈ keyword, w ∉ specialSmall := by simp [keyword, specialSmall]
  have hne : keyword ≠ [] := by decide
  rw [Bool.eq_false_iff, ne_eq, occursIn_lower_iff hword hne] at htext ⊢
  intro h
  exact htext (h.trans ((isInfix_of_mem_lines hline).map smallLetter))

/-- Lines without the keyword hold no directives. -/
theorem Directive.inLines_eq_nil {ls : List (List Char)}
    (h : ∀ line ∈ ls, occursIn keyword (lower line) = false) (number : Nat) :
    inLines number ls = [] := by
  induction ls generalizing number with
  | nil => rfl
  | cons l ls ih =>
      rw [List.forall_mem_cons] at h
      rw [inLines, inLine, if_neg (by simp [h.1]), List.nil_append, ih h.2]

namespace Suppressions

/-- **A text without the keyword** declares nothing. -/
theorem ofLines_lines_eq {text : List Char}
    (h : occursIn Directive.keyword (lower text) = false) : ofLines (lines text) = ⟨[]⟩ := by
  rw [ofLines, Directive.inLines_eq_nil fun line hline => Directive.occursIn_keyword_line h hline]

/-- Nor do two such texts with a line feed between them. -/
theorem ofLines_lines_append_eq {as bs : List Char}
    (has : occursIn Directive.keyword (lower as) = false)
    (hbs : occursIn Directive.keyword (lower bs) = false) :
    ofLines (lines (as ++ '\n' :: bs)) = ⟨[]⟩ := by
  rw [ofLines, lines_append, Directive.inLines_eq_nil]
  intro line hline
  rcases List.mem_append.mp hline with hline | hline
  · exact Directive.occursIn_keyword_line has hline
  · exact Directive.occursIn_keyword_line hbs hline

/-- No directives silence no rule. -/
theorem silences_nil (rule : String) (line : Option Nat) :
    Suppressions.silences ⟨[]⟩ rule line = false := by
  cases line <;> rfl

end Suppressions

end CodeSweep
