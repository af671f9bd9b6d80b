/-
# Lists of names

The names in a directive are made of ASCII letters, digits and underscores, with commas and blanks in
any mix between them (`Lists`).  They are read as they are written, in lower case
(`namesIn_of_lists`).
-/
import CodeSweep.Proofs.Pattern.LetterCase
import CodeSweep.Proofs.Text.Words
import CodeSweep.Suppression

namespace CodeSweep

open Text

namespace Directive

/-! ## Names -/

/-- An ASCII letter, a digit or an underscore. -/
def isNameChar (c : Char) : Bool := c == '_' || isAsciiLetter c || isAsciiDigit c

/-- A comma or a blank. -/
def isSeparator (c : Char) : Bool := c == ',' || isBlank c

/-- A name: at least one character, and all of them such as names are made of. -/
structure IsName (name : List Char) : Prop where
  ne_nil : name ≠ []
  isNameChar : ∀ c ∈ name, isNameChar c = true

/-- The characters are the names, one after the other, with commas and blanks in any mix between
them. -/
inductive Lists : (names : List (List Char)) → (list : List Char) → Prop
  | last {name : List Char} : IsName name → Lists [name] name
  | cons {name sep list : List Char} {names : List (List Char)} : IsName name → sep ≠ [] →
      (∀ c ∈ sep, isSeparator c = true) → Lists names list →
      Lists (name :: names) (name ++ sep ++ list)

/-! ## Reading the list of names -/

/-- Characters of names are basic. -/
theorem toNat_lt_of_isNameChar {c : Char} (hc : isNameChar c = true) : c.toNat < 128 := by
  have hle : c ≤ 'z' := by
    simp only [isNameChar, isAsciiLetter, isAsciiDigit, Bool.or_eq_true, Bool.and_eq_true,
      beq_iff_eq, decide_eq_true_eq] at hc
    rcases hc with (rfl | ⟨-, hle⟩ | ⟨-, hle⟩) | ⟨-, hle⟩
    · decide
    · exact hle
    · exact Char.le_trans hle (by decide)
    · exact Char.le_trans hle (by decide)
  exact Nat.lt_of_le_of_lt hle (by decide)

/-- Small letters and capitals belong to names alike. -/
theorem isNameChar_toLower (c : Char) : isNameChar c.toLower = isNameChar c :=
  apply_toLower (by decide) c

/-- What a list is made of are basic characters and blanks. -/
theorem toNat_lt_or_isBlank {c : Char} (hc : isNameChar c = true ∨ isSeparator c = true) :
    c.toNat < 128 ∨ isBlank c = true := by
  rw [isSeparator, Bool.or_eq_true, beq_iff_eq] at hc
  rcases hc with hc | rfl | hc
  · exact .inl (toNat_lt_of_isNameChar hc)
  · exact .inl (by decide)
  · exact .inr hc

/-- Characters of names separate nothing. -/
theorem isSeparator_of_isNameChar {c : Char} (hc : isNameChar c = true) : isSeparator c = false :=
  forall_of_toNat_lt (P := fun c => isNameChar c = true → isSeparator c = false)
    (by decide) (toNat_lt_of_isNameChar hc) hc

/-- A list holds characters of names, and separators. -/
theorem Lists.of_mem {names : List (List Char)} {list : List Char} (h : Lists names list) :
    ∀ c ∈ list, isNameChar c = true ∨ isSeparator c = true := by
  induction h with
  | last hname => exact fun c hc => .inl (hname.isNameChar c hc)
  | cons hname _ hsep _ ih =>
      intro c hc
      rw [List.mem_append, List.mem_append] at hc
      rcases hc with (hc | hc) | hc
      · exact .inl (hname.isNameChar c hc)
      · exact .inr (hsep c hc)
      · exact ih c hc

/-- A list begins with a character of a name. -/
theorem Lists.exists_cons {names : List (List Char)} {list : List Char} (h : Lists names list) :
    ∃ c cs, list = c :: cs ∧ isNameChar c = true := by
  have hfirst : ∀ {name : List Char}, IsName name → ∀ rest, ∃ c cs, name ++ rest = c :: cs ∧
      isNameChar c = true := by
    intro name hname rest
    obtain ⟨c, cs, rfl⟩ := List.exists_cons_of_ne_nil hname.ne_nil
    exact ⟨c, cs ++ rest, rfl, hname.isNameChar c List.mem_cons_self⟩
  cases h with
  | last hname => simpa using hfirst hname []
  | cons hname _ _ _ => simpa using hfirst hname _

/-- A list is not empty. -/
theorem Lists.length_pos {names : List (List Char)} {list : List Char} (h : Lists names list) :
    0 < list.length := by
  obtain ⟨c, cs, hc, -⟩ := h.exists_cons
  rw [hc, List.length_cons]
  exact Nat.succ_pos _

/-- A list does not begin with a blank. -/
theorem Lists.isBlank_head {names : List (List Char)} {list : List Char} (h : Lists names list)
    (rest : List Char) : ∀ c ∈ (list ++ rest).head?, isBlank c = false := by
  obtain ⟨c, cs, hc, hname⟩ := h.exists_cons
  rw [hc]
  rintro d hd
  obtain rfl : c = d := Option.some.inj hd
  have hsep := isSeparator_of_isNameChar hname
  rw [isSeparator, Bool.or_eq_false_iff] at hsep
  exact hsep.2

/-- The letters of a name are lower-cased one by one. -/
theorem lower_of_isNameChar {name : List Char} (h : ∀ c ∈ name, isNameChar c = true) :
    lower name = name.map Char.toLower := by
  rw [lower_eq_map fun c hc => toNat_lt_of_isNameChar (h c hc)]
  exact List.map_congr_left fun c hc => smallLetter_eq_toLower (toNat_lt_of_isNameChar (h c hc))

/-- Pieces that are not empty do not change with separators in front. -/
theorem filter_splitAt_append {sep : Char → Bool} {seps : List Char}
    (hseps : ∀ c ∈ seps, sep c = true) (cs : List Char) :
    (splitAt sep (seps ++ cs)).filter (!·.isEmpty) = (splitAt sep cs).filter (!·.isEmpty) := by
  induction seps with
  | nil => rfl
  | cons c seps ih =>
      rw [List.forall_mem_cons] at hseps
      rw [List.cons_append, splitAt_cons_of_sep _ hseps.1, List.filter_cons_of_neg (by simp),
        ih hseps.2]

/-- **The names in a list** are read as they are written, in lower case. -/
theorem namesIn_of_lists {names : List (List Char)} {list : List Char} (h : Lists names list) :
    namesIn list = names.map fun name => String.ofList (name.map Char.toLower) := by
  -- a name is one piece, which is not empty
  have hpiece : ∀ {name : List Char}, IsName name →
      (splitAt isSeparator name).filter (!·.isEmpty) = [name] := by
    intro name hname
    rw [splitAt_of_forall_not fun c hc => isSeparator_of_isNameChar (hname.isNameChar c hc),
      List.filter_cons_of_pos (by simpa using hname.ne_nil), List.filter_nil]
  have hpieces : (splitAt isSeparator list).filter (!·.isEmpty) = names := by
    induction h with
    | last hname => exact hpiece hname
    | @cons name sep list names hname hne hsep _ ih =>
        obtain ⟨s, seps, rfl⟩ := List.exists_cons_of_ne_nil hne
        rw [List.forall_mem_cons] at hsep
        rw [List.append_assoc, List.cons_append, splitAt_append hsep.1, List.filter_append,
          hpiece hname, filter_splitAt_append hsep.2, ih, List.singleton_append]
  have hnames : ∀ name ∈ names, ∀ c ∈ name, isNameChar c = true := by
    clear hpieces
    induction h with
    | last hname => exact List.forall_mem_singleton.mpr hname.isNameChar
    | cons hname _ _ _ ih => exact List.forall_mem_cons.mpr ⟨hname.isNameChar, ih⟩
  rw [namesIn, show (fun c => c == ',' || isBlank c) = isSeparator from rfl, hpieces]
  exact List.map_congr_left fun name hname => by rw [lower_of_isNameChar (hnames name hname)]

end Directive

end CodeSweep
