/-
# The reader reads JSON

Every text that spells a value is read, as that value and none else (`read?_of_spells`); so what is
written for a value is read back (`read?_render`).  The reader goes on after the value, and so do
the lemmas: they tell what is read in front of any rest.
-/
import CodeSweep.Proofs.Json.Printer
import Mathlib.Data.List.DropRight

namespace CodeSweep.Json

open Text

/-! ## White space -/

/-- White space in front is skipped. -/
theorem skipSpace_append {w : List Char} (hw : IsLayout w) (cs : List Char) :
    skipSpace (w ++ cs) = skipSpace cs := List.dropWhile_append_of_pos hw

/-- What is not white space is where the skipping ends. -/
theorem skipSpace_cons {c : Char} (hc : isSpace c = false) (cs : List Char) :
    skipSpace (c :: cs) = c :: cs := List.dropWhile_cons_of_neg (by simp [hc])

/-- Skipping twice is skipping once. -/
theorem skipSpace_skipSpace (cs : List Char) : skipSpace (skipSpace cs) = skipSpace cs :=
  List.dropWhile_idempotent isSpace cs

/-! ## Texts -/

/-- Four digits are read as the number that they spell. -/
theorem readHex_append {n : Nat} {ds : List Char} (h : SpellsUnit n ds) (rest : List Char) :
    readHex 4 0 (ds ++ rest) = some (n, rest) := by
  obtain ⟨w, x, y, z, a, b, c, d, rfl, hw, hx, hy, hz, rfl⟩ := h
  simp [readHex, hw, hx, hy, hz]
  omega

/-- The number of a character is no surrogate, so it stands for the character by itself. -/
theorem joinUnits_char (c : Char) (rest : List Char) : joinUnits c.toNat rest = some (c, rest) := by
  have hvalid : c.toNat.isValidChar := c.valid
  have hunit : ¬(0xD800 ≤ c.toNat ∧ c.toNat < 0xDC00) := by
    simp only [Nat.isValidChar] at hvalid
    omega
  simp [joinUnits, hunit, hvalid, Char.ofNat_toNat]

/-- The first surrogate asks for the second one, which gives the other ten bits. -/
theorem joinUnits_pair {c : Char} {high low : Nat} {es : List Char} (hhigh : high < 0x400)
    (hlow : low < 0x400) (hc : c.toNat = 0x10000 + 0x400 * high + low)
    (hes : SpellsUnit (0xDC00 + low) es) (rest : List Char) :
    joinUnits (0xD800 + high) ('\\' :: 'u' :: es ++ rest) = some (c, rest) := by
  have hunit : 0xD800 + high < 0xDC00 := by omega
  have hnext : 0xDC00 + low < 0xE000 := by omega
  have hchar : 0x10000 + high * 0x400 + low = c.toNat := by omega
  simp [joinUnits, readHex_append hes, hunit, hnext, hchar, Char.ofNat_toNat]

/-- **One character** is read, however it is written. -/
theorem readChars_char {c : Char} {cs : List Char} (h : SpellsChar c cs) (fuel : Nat)
    (seen rest : List Char) :
    readChars (fuel + 1) seen (cs ++ rest) = readChars fuel (c :: seen) rest := by
  have hescape {body : List Char} (hbody : readEscape (body ++ rest) = some (c, rest)) :
      readChars (fuel + 1) seen ('\\' :: body ++ rest) = readChars fuel (c :: seen) rest := by
    rw [List.cons_append, readChars, hbody]
  cases h with
  | plain hc hquote hslash =>
      rw [List.singleton_append, readChars, if_neg (Nat.not_lt.mpr hc)]
      · exact fun h => hquote h
      · exact fun h => hslash h
  | @short letter hletter =>
      apply hescape
      simp only [shortEscapes, List.mem_cons, Prod.mk.injEq, List.not_mem_nil, or_false] at hletter
      rcases hletter with h | h | h | h | h | h | h | h <;> obtain ⟨rfl, rfl⟩ := h <;> rfl
  | unit hds =>
      apply hescape
      simp only [List.cons_append, readEscape, readHex_append hds, joinUnits_char]
  | pair hhigh hlow hc hds hes =>
      apply hescape
      show readEscape ('u' :: (_ ++ '\\' :: 'u' :: _ ++ rest)) = _
      rw [List.append_assoc]
      simp only [readEscape, readHex_append hds]
      exact joinUnits_pair hhigh hlow hc hes rest

/-- A character takes up something wherever it is written. -/
theorem SpellsChar.length_pos {c : Char} {cs : List Char} (h : SpellsChar c cs) :
    0 < cs.length := by
  cases h <;> simp

/-- So there are at least as many characters as they spell, which bounds the fuel. -/
theorem SpellsChars.length_le {s cs : List Char} (h : SpellsChars s cs) :
    s.length ≤ cs.length := by
  induction h with
  | nil => exact Nat.le_refl 0
  | cons hc _ ih =>
      have := hc.length_pos
      simp
      omega

/-- **Characters** are read one after the other, with fuel for each and for the quote. -/
theorem readChars_append {s cs : List Char} (h : SpellsChars s cs) {fuel : Nat}
    (hfuel : s.length < fuel) (seen rest : List Char) :
    readChars fuel seen (cs ++ '"' :: rest) = some (String.ofList (seen.reverse ++ s), rest) := by
  induction h generalizing fuel seen with
  | nil =>
      obtain ⟨fuel, rfl⟩ := Nat.exists_eq_add_of_lt hfuel
      simp [readChars]
  | cons hc _ ih =>
      obtain ⟨fuel, rfl⟩ := Nat.exists_eq_add_of_lt hfuel
      rw [List.append_assoc, readChars_char hc, ih (by simp; omega)]
      simp

/-- **A text** is read up to its closing quote. -/
theorem readText_append {s : String} {body : List Char} (h : SpellsChars s.toList body)
    (rest : List Char) : readText (body ++ '"' :: rest) = some (s, rest) := by
  have hfuel : s.toList.length < (body ++ '"' :: rest).length + 1 := by
    have := h.length_le
    simp
    omega
  rw [readText, readChars_append h hfuel]
  simp

/-! ## Numbers -/

/-- Does not go on with a character of a number. -/
def EndsNumber (rest : List Char) : Prop := ∀ c ∈ rest.head?, isNumberChar c = false

/-- Digits are characters of numbers. -/
theorem isNumberChar_of_isAsciiDigit {c : Char} (h : isAsciiDigit c = true) :
    isNumberChar c = true := by
  simp [isNumberChar, h]

/-- An integer is written with the characters of numbers. -/
theorem SpellsInt.isNumberChar {n : Int} {cs : List Char} (h : SpellsInt n cs) :
    ∀ c ∈ cs, isNumberChar c = true := by
  rcases h with ⟨m, -, hm⟩ | ⟨m, ds, -, rfl, hm⟩
  · exact fun c hc => isNumberChar_of_isAsciiDigit (hm.digits c hc)
  · rw [List.forall_mem_cons]
    exact ⟨rfl, fun c hc => isNumberChar_of_isAsciiDigit (hm.digits c hc)⟩

/-- An integer starts with a minus sign or a digit. -/
theorem SpellsInt.exists_cons {n : Int} {cs : List Char} (h : SpellsInt n cs) :
    ∃ c ds, cs = c :: ds ∧ (c = '-' ∨ isAsciiDigit c = true) := by
  rcases h with ⟨m, -, hm⟩ | ⟨m, ds, -, rfl, -⟩
  · obtain ⟨c, ds, rfl⟩ := List.exists_cons_of_ne_nil hm.ne_nil
    exact ⟨c, ds, rfl, .inr (hm.digits c List.mem_cons_self)⟩
  · exact ⟨'-', ds, rfl, .inl rfl⟩

/-- The characters of an integer are read as that integer. -/
theorem readInt?_eq {n : Int} {cs : List Char} (h : SpellsInt n cs) : readInt? cs = some n := by
  rcases h with ⟨m, rfl, hm⟩ | ⟨m, ds, rfl, rfl, hm⟩
  · obtain ⟨c, ds, rfl⟩ := List.exists_cons_of_ne_nil hm.ne_nil
    have hsign : c ≠ '-' := by
      rintro rfl
      exact absurd (hm.digits '-' List.mem_cons_self) (by decide)
    have hall : (c :: ds).all isAsciiDigit = true := List.all_eq_true.mpr hm.digits
    rw [readInt?]
    · simp [hm.value, hall]
    · exact fun _ h => hsign (List.cons.inj h).1
  · have hall : ds.all isAsciiDigit = true := List.all_eq_true.mpr hm.digits
    simp [readInt?, hm.ne_nil, hm.value, hall]

/-- **An integer** is read up to the first character that no number has. -/
theorem readNumber_append {n : Int} {cs rest : List Char} (h : SpellsInt n cs)
    (hrest : EndsNumber rest) : readNumber (cs ++ rest) = some (.int n, rest) := by
  have hliteral : (cs ++ rest).takeWhile isNumberChar = cs := by
    rw [List.takeWhile_append_of_pos h.isNumberChar]
    cases rest with
    | nil => simp
    | cons c rest => simp [hrest c rfl]
  have hafter : (cs ++ rest).dropWhile isNumberChar = rest := by
    rw [List.dropWhile_append_of_pos h.isNumberChar]
    cases rest with
    | nil => rfl
    | cons c rest => simp [hrest c rfl]
  obtain ⟨c, ds, rfl, hc⟩ := h.exists_cons
  simp only [readNumber, hliteral, hafter, readInt?_eq h]
  rw [if_pos (by simpa using hc)]

/-! ## White space around values -/

/-- Goes on with neither white space nor a character of a number, if it goes on at all. -/
def AtMark (rest : List Char) : Prop :=
  ∀ c ∈ rest.head?, isNumberChar c = false ∧ isSpace c = false

/-- At the end there is nothing to go on with. -/
theorem atMark_nil : AtMark [] := fun _ h => nomatch h

/-- A character that is neither of them is a mark. -/
theorem atMark_cons {c : Char} {rest : List Char} (hnumber : isNumberChar c = false)
    (hspace : isSpace c = false) : AtMark (c :: rest) := by
  intro d hd
  obtain rfl := Option.some.inj hd
  exact ⟨hnumber, hspace⟩

/-- There is nothing to be skipped in front of a mark. -/
theorem AtMark.skipSpace_eq {rest : List Char} (h : AtMark rest) : skipSpace rest = rest := by
  cases rest with
  | nil => rfl
  | cons c rest => exact skipSpace_cons (h c rfl).2 rest

/-- White space ends a number, and so does a mark. -/
theorem AtMark.endsNumber_append {rest : List Char} (h : AtMark rest) {w : List Char}
    (hw : IsLayout w) : EndsNumber (w ++ rest) := by
  cases w with
  | nil => exact fun c hc => (h c hc).1
  | cons d w =>
      intro c hc
      obtain rfl := Option.some.inj hc
      have hspace := hw d List.mem_cons_self
      simp only [isSpace, Bool.or_eq_true, beq_iff_eq] at hspace
      rcases hspace with ((rfl | rfl) | rfl) | rfl <;> rfl

/-- A value is read past the white space in front of it. -/
theorem readValue_skipSpace (fuel : Nat) (cs : List Char) :
    readValue fuel (skipSpace cs) = readValue fuel cs := by
  cases fuel with
  | zero => rfl
  | succ fuel => simp only [readValue, skipSpace_skipSpace]

/-- So are the items of a list. -/
theorem readItems_skipSpace (fuel : Nat) (seen : List Value) (cs : List Char) :
    readItems fuel seen (skipSpace cs) = readItems fuel seen cs := by
  cases fuel with
  | zero => rfl
  | succ fuel => simp only [readItems, readValue_skipSpace]

/-- And so are the entries of a table. -/
theorem readEntries_skipSpace (fuel : Nat) (seen : List (String × Value)) (cs : List Char) :
    readEntries fuel seen (skipSpace cs) = readEntries fuel seen cs := by
  cases fuel with
  | zero => rfl
  | succ fuel => simp only [readEntries, skipSpace_skipSpace]

/-! ## Lists and tables -/

/-- Is read from every text that spells it.  The fuel pays twice for each character, since a level
of lists takes two steps. -/
def IsRead (v : Value) : Prop :=
  ∀ cs rest fuel, Spells v cs → EndsNumber rest → 2 * cs.length ≤ fuel →
    readValue fuel (cs ++ rest) = some (v, rest)

/-- A value is read with the white space in front of it, and that behind it can be skipped. -/
theorem IsRead.padded {v : Value} (hv : IsRead v) {cs rest : List Char}
    (h : Padded (Spells v) cs) (hrest : AtMark rest) (fuel : Nat) (hfuel : 2 * cs.length ≤ fuel) :
    ∃ more, readValue fuel (cs ++ rest) = some (v, more) ∧ skipSpace more = rest := by
  obtain ⟨w, inner, w', rfl, hw, hinner, hw'⟩ := h
  simp only [List.length_append] at hfuel
  refine ⟨w' ++ rest, ?_, ?_⟩
  · rw [← readValue_skipSpace, List.append_assoc, List.append_assoc, skipSpace_append hw,
      readValue_skipSpace]
    exact hv inner (w' ++ rest) fuel hinner (hrest.endsNumber_append hw') (by omega)
  · rw [skipSpace_append hw', hrest.skipSpace_eq]

/-- **The items of a list** are read up to its closing bracket. -/
theorem readItems_append {vs : List Value} (hvs : ∀ v ∈ vs, IsRead v) (hne : vs ≠ [])
    {body : List Char} (h : SpellsItems vs body) (fuel : Nat) (hfuel : 2 * body.length + 1 ≤ fuel)
    (seen : List Value) (rest : List Char) :
    readItems fuel seen (body ++ ']' :: rest) = some (.list (seen.reverse ++ vs), rest) := by
  induction vs generalizing body fuel seen with
  | nil => exact absurd rfl hne
  | cons v vs ih =>
      obtain ⟨fuel, rfl⟩ : ∃ n, fuel = n + 1 := ⟨fuel - 1, by omega⟩
      rw [List.forall_mem_cons] at hvs
      cases vs with
      | nil =>
          have hmark : AtMark (']' :: rest) := atMark_cons rfl rfl
          obtain ⟨more, hread, hmore⟩ := hvs.1.padded h hmark fuel (by omega)
          simp [readItems, hread, hmore]
      | cons u vs =>
          obtain ⟨first, tail, rfl, hfirst, htail⟩ := h
          simp only [List.length_append, List.length_cons] at hfuel
          have hmark : AtMark (',' :: (tail ++ ']' :: rest)) := atMark_cons rfl rfl
          obtain ⟨more, hread, hmore⟩ := hvs.1.padded hfirst hmark fuel (by omega)
          have hothers := ih hvs.2 (List.cons_ne_nil u vs) htail fuel (by omega) (v :: seen)
          simp [readItems, hread, hmore, hothers]

/-- One entry of a table is read up to the mark behind it, which tells how to go on. -/
theorem readEntries_entry {k : String} {v : Value} (hv : IsRead v) {cs : List Char}
    (h : SpellsEntry k (Spells v) cs) {mark : Char} {rest : List Char}
    (hmark : AtMark (mark :: rest)) (fuel : Nat) (hfuel : 2 * cs.length ≤ fuel)
    (seen : List (String × Value)) :
    readEntries (fuel + 1) seen (cs ++ mark :: rest) =
      if mark = ',' then readEntries fuel ((k, v) :: seen) rest
      else if mark = '}' then some (.table ((k, v) :: seen).reverse, rest)
      else none := by
  obtain ⟨first, second, rfl, ⟨w, inner, w', rfl, hw, ⟨body, rfl, hbody⟩, hw'⟩, hsecond⟩ := h
  simp only [List.length_append, List.length_cons] at hfuel
  obtain ⟨more, hread, hmore⟩ := hv.padded hsecond hmark fuel (by omega)
  have hquote (cs : List Char) : skipSpace ('"' :: cs) = '"' :: cs := skipSpace_cons rfl cs
  have hcolon (cs : List Char) : skipSpace (w' ++ ':' :: cs) = ':' :: cs := by
    rw [skipSpace_append hw', skipSpace_cons rfl]
  have hstart : w ++ ('"' :: body ++ ['"']) ++ w' ++ ':' :: second ++ mark :: rest
      = w ++ '"' :: (body ++ '"' :: (w' ++ ':' :: (second ++ mark :: rest))) := by
    simp
  rw [hstart]
  simp only [readEntries, skipSpace_append hw, hquote, readText_append hbody, hcolon, hread, hmore]
  split <;> simp_all

/-- **The entries of a table** are read up to its closing brace. -/
theorem readEntries_append {es : List (String × Value)} (hes : ∀ e ∈ es, IsRead e.2) (hne : es ≠ [])
    {body : List Char} (h : SpellsEntries es body) (fuel : Nat)
    (hfuel : 2 * body.length + 1 ≤ fuel) (seen : List (String × Value)) (rest : List Char) :
    readEntries fuel seen (body ++ '}' :: rest) = some (.table (seen.reverse ++ es), rest) := by
  induction es generalizing body fuel seen with
  | nil => exact absurd rfl hne
  | cons e es ih =>
      obtain ⟨fuel, rfl⟩ : ∃ n, fuel = n + 1 := ⟨fuel - 1, by omega⟩
      rw [List.forall_mem_cons] at hes
      cases es with
      | nil =>
          have hmark : AtMark ('}' :: rest) := atMark_cons rfl rfl
          rw [readEntries_entry hes.1 h hmark fuel (by omega)]
          simp
      | cons e' es =>
          obtain ⟨first, tail, rfl, hfirst, htail⟩ := h
          simp only [List.length_append, List.length_cons] at hfuel
          have hmark : AtMark (',' :: (tail ++ '}' :: rest)) := atMark_cons rfl rfl
          rw [List.append_assoc, List.cons_append,
            readEntries_entry hes.1 hfirst hmark fuel (by omega)]
          have hothers := ih hes.2 (List.cons_ne_nil e' es) htail fuel (by omega) (e :: seen)
          simpa using hothers

/-! ## Values -/

/-- Items are read as a list: none starts with a closing bracket, so it is not taken for empty. -/
theorem readValue_of_readItems {fuel : Nat} {cs : List Char} {r : Value × List Char}
    (h : readItems fuel [] cs = some r) : readValue (fuel + 1) ('[' :: cs) = some r := by
  have hbracket (rest : List Char) : readItems fuel [] (']' :: rest) = none := by
    cases fuel with
    | zero => rfl
    | succ fuel => cases fuel <;> rfl
  rw [← readItems_skipSpace] at h
  simp only [readValue, skipSpace_cons (c := '[') rfl]
  split
  · rename_i hclose
    rw [hclose, hbracket] at h
    cases h
  · exact h

/-- Entries are read as a table: none starts with a closing brace, so it is not taken for empty. -/
theorem readValue_of_readEntries {fuel : Nat} {cs : List Char} {r : Value × List Char}
    (h : readEntries fuel [] cs = some r) : readValue (fuel + 1) ('{' :: cs) = some r := by
  have hbrace (rest : List Char) : readEntries fuel [] ('}' :: rest) = none := by
    cases fuel <;> rfl
  rw [← readEntries_skipSpace] at h
  simp only [readValue, skipSpace_cons (c := '{') rfl]
  split
  · rename_i hclose
    rw [hclose, hbrace] at h
    cases h
  · exact h

/-- What starts with a minus sign or a digit is a number. -/
theorem readValue_number {c : Char} (hc : c = '-' ∨ isAsciiDigit c = true) (fuel : Nat)
    (cs : List Char) : readValue (fuel + 1) (c :: cs) = readNumber (c :: cs) := by
  have hmark {d : Char} (hd : d ≠ '-') (hdigit : isAsciiDigit d = false) : c ≠ d := by
    rintro rfl
    simp [hd, hdigit] at hc
  have hspace : isSpace c = false := by
    simp only [isSpace, Bool.or_eq_false_iff, beq_eq_false_iff_ne]
    exact ⟨⟨⟨hmark (by decide) rfl, hmark (by decide) rfl⟩, hmark (by decide) rfl⟩,
      hmark (by decide) rfl⟩
  rw [readValue, skipSpace_cons hspace]
  split
  case h_7 => rfl
  all_goals
    rename_i heq
    exact absurd (List.cons.inj heq).1 (hmark (by decide) rfl)

/-- No value is spelled by nothing. -/
theorem Spells.ne_nil {v : Value} {cs : List Char} (h : Spells v cs) : cs ≠ [] := by
  rintro rfl
  cases v with
  | null => exact List.cons_ne_nil _ _ (Eq.symm h)
  | bool b => cases b <;> exact List.cons_ne_nil _ _ (Eq.symm h)
  | int n =>
      obtain ⟨c, ds, hcs, -⟩ := SpellsInt.exists_cons h
      cases hcs
  | real => exact h
  | moment => exact h
  | text s =>
      obtain ⟨body, hcs, -⟩ := h
      cases hcs
  | list vs =>
      obtain ⟨body, hcs, -⟩ := h
      cases hcs
  | table es =>
      obtain ⟨body, hcs, -⟩ := h
      cases hcs

/-- There is fuel for the first step, since a value is spelled by one character at least. -/
theorem isRead_of_succ {v : Value}
    (h : ∀ cs rest fuel, Spells v cs → EndsNumber rest → 2 * cs.length ≤ fuel + 1 →
      readValue (fuel + 1) (cs ++ rest) = some (v, rest)) : IsRead v := by
  intro cs rest fuel hcs hrest hfuel
  cases fuel with
  | zero => exact absurd (List.eq_nil_of_length_eq_zero (by omega)) hcs.ne_nil
  | succ fuel => exact h cs rest fuel hcs hrest hfuel

/-- Texts are read from their quote to the closing one. -/
theorem isRead_text (s : String) : IsRead (.text s) := by
  apply isRead_of_succ
  rintro _ rest fuel ⟨body, rfl, hbody⟩ - -
  have hstart : '"' :: body ++ ['"'] ++ rest = '"' :: (body ++ '"' :: rest) := by simp
  rw [hstart, readValue, skipSpace_cons rfl]
  simp only [readText_append hbody]

/-- Integers are told by their first character, and read up to the end of the number. -/
theorem isRead_int (n : Int) : IsRead (.int n) := by
  apply isRead_of_succ
  intro cs rest fuel h hrest _
  obtain ⟨c, ds, rfl, hc⟩ := SpellsInt.exists_cons h
  rw [List.cons_append, readValue_number hc, ← List.cons_append]
  exact readNumber_append h hrest

/-- Lists are read if their items are. -/
theorem isRead_list {vs : List Value} (hvs : ∀ v ∈ vs, IsRead v) : IsRead (.list vs) := by
  apply isRead_of_succ
  rintro _ rest fuel ⟨body, rfl, hbody⟩ - hfuel
  simp only [List.length_append, List.length_cons, List.length_nil] at hfuel
  have hstart : '[' :: body ++ [']'] ++ rest = '[' :: (body ++ ']' :: rest) := by simp
  rw [hstart]
  cases vs with
  | nil =>
      have hclose : skipSpace (body ++ ']' :: rest) = ']' :: rest := by
        rw [skipSpace_append hbody, skipSpace_cons rfl]
      simp only [readValue, skipSpace_cons (c := '[') rfl, hclose]
  | cons v vs =>
      exact readValue_of_readItems
        (readItems_append hvs (List.cons_ne_nil v vs) hbody fuel (by omega) [] rest)

/-- Tables are read if the values of their entries are. -/
theorem isRead_table {es : List (String × Value)} (hes : ∀ e ∈ es, IsRead e.2) :
    IsRead (.table es) := by
  apply isRead_of_succ
  rintro _ rest fuel ⟨body, rfl, hbody⟩ - hfuel
  simp only [List.length_append, List.length_cons, List.length_nil] at hfuel
  have hstart : '{' :: body ++ ['}'] ++ rest = '{' :: (body ++ '}' :: rest) := by simp
  rw [hstart]
  cases es with
  | nil =>
      have hclose : skipSpace (body ++ '}' :: rest) = '}' :: rest := by
        rw [skipSpace_append hbody, skipSpace_cons rfl]
      simp only [readValue, skipSpace_cons (c := '{') rfl, hclose]
  | cons e es =>
      exact readValue_of_readEntries
        (readEntries_append hes (List.cons_ne_nil e es) hbody fuel (by omega) [] rest)

/-- **Every value is read** from all texts that spell it, with any rest behind. -/
theorem isRead (v : Value) : IsRead v := by
  induction v using Value.inductMembers with
  | null =>
      apply isRead_of_succ
      rintro _ rest fuel rfl - -
      rfl
  | bool b =>
      apply isRead_of_succ
      intro cs rest fuel h _ _
      cases b with
      | false =>
          obtain rfl := h
          rfl
      | true =>
          obtain rfl := h
          rfl
  | int n => exact isRead_int n
  | real => exact fun _ _ _ h => h.elim
  | moment => exact fun _ _ _ h => h.elim
  | text s => exact isRead_text s
  | list vs ih => exact isRead_list ih
  | table es ih => exact isRead_table ih

/-! ## Whole texts -/

/-- **A text that spells a value is read as that value**, whatever white space is around it. -/
theorem read?_of_spells {v : Value} {s : String} (h : Padded (Spells v) s.toList) :
    read? s = some v := by
  have hfuel : 2 * s.toList.length ≤ 2 * s.length + 2 := by
    rw [String.length_toList]
    omega
  obtain ⟨more, hread, hmore⟩ := (isRead v).padded h atMark_nil _ hfuel
  rw [List.append_nil] at hread
  simp [read?, hread, hmore]

/-- **No text spells two values.** -/
theorem Spells.unique {v u : Value} {cs : List Char} (hv : Spells v cs) (hu : Spells u cs) :
    v = u := by
  have hreadv := isRead v cs [] _ hv (fun _ h => nomatch h) (Nat.le_refl _)
  have hreadu := isRead u cs [] _ hu (fun _ h => nomatch h) (Nat.le_refl _)
  rw [hreadv] at hreadu
  exact congrArg Prod.fst (Option.some.inj hreadu)

/-- **What is written for a value is read back.** -/
theorem read?_render {v : Value} (hv : v.IsPlain) : read? (render v) = some v := by
  apply read?_of_spells
  rw [render, String.toList_ofList]
  exact ⟨[], _, [], (List.append_nil _).symm, isLayout_nil, print_spells hv 0, isLayout_nil⟩

end CodeSweep.Json
