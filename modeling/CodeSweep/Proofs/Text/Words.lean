/-
# Pieces and words

A stretch without separators stands in one of the pieces between them (`exists_isInfix_piece`).  So
a stretch without blanks stands in one of the words of a text, and it is still there when the words
are put together again with something else between them (`isInfix_joinWith_words`).
-/
import CodeSweep.Proofs.Text.Lines
import CodeSweep.Text.Lowercase

namespace CodeSweep.Text

/-! ## Pieces -/

section

variable {sep : Char → Bool} {ws : List Char}

/-- Characters that separate nothing join the first piece. -/
theorem splitAt_append_of_forall_not (hws : ∀ c ∈ ws, sep c = false) (cs : List Char) :
    ∃ piece pieces, splitAt sep cs = piece :: pieces ∧
      splitAt sep (ws ++ cs) = (ws ++ piece) :: pieces := by
  induction ws with
  | nil =>
      obtain ⟨piece, pieces, h⟩ := List.exists_cons_of_ne_nil (splitAt_ne_nil sep cs)
      exact ⟨piece, pieces, h, h⟩
  | cons w ws ih =>
      rw [List.forall_mem_cons] at hws
      obtain ⟨piece, pieces, h, happend⟩ := ih hws.2
      obtain ⟨first, rest, hfirst, hcons⟩ := splitAt_cons_of_not sep (ws ++ cs) hws.1
      rw [happend] at hfirst
      obtain ⟨rfl, rfl⟩ := List.cons.inj hfirst
      exact ⟨piece, pieces, h, hcons⟩

/-- **A stretch without separators** stands in one of the pieces. -/
theorem exists_isInfix_piece {cs : List Char} (hws : ∀ c ∈ ws, sep c = false)
    (h : ws <:+: cs) : ∃ piece ∈ splitAt sep cs, ws <:+: piece := by
  obtain ⟨as, bs, rfl⟩ := h
  induction as with
  | nil =>
      obtain ⟨piece, pieces, -, happend⟩ := splitAt_append_of_forall_not hws bs
      rw [List.nil_append, happend]
      exact ⟨_, List.mem_cons_self, (List.prefix_append ws piece).isInfix⟩
  | cons a as ih =>
      obtain ⟨piece, hpiece, hin⟩ := ih
      rw [List.cons_append, List.cons_append]
      cases ha : sep a with
      | true =>
          rw [splitAt_cons_of_sep _ ha]
          exact ⟨piece, List.mem_cons_of_mem _ hpiece, hin⟩
      | false =>
          -- the character joins the first piece, which may be the one
          obtain ⟨first, rest, hfirst, hcons⟩ := splitAt_cons_of_not sep (as ++ ws ++ bs) ha
          rw [hfirst] at hpiece
          rw [hcons]
          rcases List.mem_cons.mp hpiece with rfl | hpiece
          · exact ⟨_, List.mem_cons_self, hin.trans (List.suffix_cons a piece).isInfix⟩
          · exact ⟨piece, List.mem_cons_of_mem _ hpiece, hin⟩

end

/-! ## Words -/

/-- A piece stands in the pieces put together. -/
theorem isInfix_joinWith (sep : List Char) {piece : List Char} {pieces : List (List Char)}
    (h : piece ∈ pieces) : piece <:+: joinWith sep pieces := by
  induction pieces using joinWith.induct with
  | case1 => cases h
  | case2 first =>
      rw [joinWith]
      exact List.mem_singleton.mp h ▸ List.infix_rfl
  | case3 first rest hrest ih =>
      rw [joinWith]
      · rcases List.mem_cons.mp h with rfl | h
        · rw [List.append_assoc]
          exact (List.prefix_append _ _).isInfix
        · exact (ih h).trans (List.suffix_append _ _).isInfix
      · exact hrest

/-- **A stretch without blanks** stands in the words put together. -/
theorem isInfix_joinWith_words {ws cs : List Char} (hne : ws ≠ [])
    (hws : ∀ c ∈ ws, isBlank c = false) (h : ws <:+: cs) (sep : List Char) :
    ws <:+: joinWith sep (words cs) := by
  obtain ⟨piece, hpiece, hin⟩ := exists_isInfix_piece hws h
  have hword : piece ∈ words cs := by
    refine List.mem_filter.mpr ⟨hpiece, ?_⟩
    have hne' : piece ≠ [] := by
      rintro rfl
      exact hne (List.infix_nil.mp hin)
    simpa using hne'
  exact hin.trans (isInfix_joinWith sep hword)

/-! ## Single characters -/

/-- What is true of all characters of a list can be checked one by one. -/
theorem forall_mem_of_all {P : Char → Prop} [DecidablePred P] {cs : List Char}
    (h : (cs.all fun c => P c) = true) : ∀ c ∈ cs, P c :=
  fun c hc => of_decide_eq_true (List.all_eq_true.mp h c hc)

/-- What is true of all characters with small code points can be checked one by one. -/
theorem forall_of_toNat_lt {P : Char → Prop} {bound : Nat} (h : ∀ n < bound, P (Char.ofNat n))
    {c : Char} (hc : c.toNat < bound) : P c := by
  have hP := h c.toNat hc
  rwa [Char.ofNat_toNat] at hP

/-- Basic letters are lower-cased one by one. -/
theorem lower_eq_map {cs : List Char} (h : ∀ c ∈ cs, c.toNat < 128) :
    lower cs = cs.map smallLetter := by
  have hfrom : ∀ seen, lowerFrom seen cs = cs.map smallLetter := by
    induction cs with
    | nil => exact fun seen => rfl
    | cons c cs ih =>
        intro seen
        rw [List.forall_mem_cons] at h
        have hdotted : ¬ (c.toNat == 0x130) = true := by
          rw [beq_iff_eq]
          omega
        have hsigma : ¬ (c.toNat == 0x3A3) = true := by
          rw [beq_iff_eq]
          omega
        rw [lowerFrom, if_neg hdotted, if_neg hsigma, ih h.2, List.map_cons]
        rfl
  exact hfrom []

/-- The code points of the blanks. -/
def blankCodes : List Nat :=
  [9, 10, 11, 12, 13, 0x1C, 0x1D, 0x1E, 0x1F, 0x20, 0x85, 0xA0, 0x1680, 0x2000, 0x2001, 0x2002,
   0x2003, 0x2004, 0x2005, 0x2006, 0x2007, 0x2008, 0x2009, 0x200A, 0x2028, 0x2029, 0x202F, 0x205F,
   0x3000]

/-- What is true of all blanks can be checked one by one. -/
theorem forall_of_isBlank {P : Char → Prop} (h : ∀ n ∈ blankCodes, P (Char.ofNat n)) {c : Char}
    (hc : isBlank c = true) : P c := by
  have hmem : c.toNat ∈ blankCodes := by
    simp only [isBlank, Bool.or_eq_true, Bool.and_eq_true, decide_eq_true_eq, beq_iff_eq] at hc
    simp only [blankCodes, List.mem_cons, List.not_mem_nil, or_false]
    omega
  have hP := h _ hmem
  rwa [Char.ofNat_toNat] at hP

end CodeSweep.Text
