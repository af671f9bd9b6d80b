/-
# The printer writes JSON

What is written for a value spells it (`print_spells`), with ASCII characters only (`print_ascii`),
at any depth.  Values with numbers that are no integers, dates or times are left out.
-/
import CodeSweep.Json.Printer
import CodeSweep.Proofs.Json.Grammar
import Mathlib.Tactic.SplitIfs

namespace CodeSweep

/-- Holds no number but integers, and no date or time. -/
inductive Value.IsPlain : Value → Prop
  | null : IsPlain .null
  | bool (b : Bool) : IsPlain (.bool b)
  | int (n : Int) : IsPlain (.int n)
  | text (s : String) : IsPlain (.text s)
  | list {vs : List Value} : (∀ v ∈ vs, IsPlain v) → IsPlain (.list vs)
  | table {es : List (String × Value)} : (∀ e ∈ es, IsPlain e.2) → IsPlain (.table es)

namespace Json

open Text

/-! ## ASCII characters -/

/-- Has ASCII characters only. -/
def IsAscii (cs : List Char) : Prop := ∀ c ∈ cs, c.toNat < 128

@[simp] theorem isAscii_nil : IsAscii [] := fun _ h => nomatch h

@[simp] theorem isAscii_cons {c : Char} {cs : List Char} :
    IsAscii (c :: cs) ↔ c.toNat < 128 ∧ IsAscii cs := List.forall_mem_cons

@[simp] theorem isAscii_append {cs ds : List Char} :
    IsAscii (cs ++ ds) ↔ IsAscii cs ∧ IsAscii ds := List.forall_mem_append

/-! ## Texts -/

/-- A hexadecimal digit is read as what it stands for. -/
theorem hexValue?_hexDigit {d : Nat} (hd : d < 16) : hexValue? (hexDigit d) = some d := by
  revert d
  decide

/-- Hexadecimal digits are in ASCII. -/
theorem hexDigit_ascii {d : Nat} (hd : d < 16) : (hexDigit d).toNat < 128 := by
  revert d
  decide

/-- Four digits, one for each place. -/
theorem hexDigits_four (n : Nat) :
    hexDigits 4 n = [hexDigit (n / 16 / 16 / 16 % 16), hexDigit (n / 16 / 16 % 16),
      hexDigit (n / 16 % 16), hexDigit (n % 16)] := rfl

/-- Four digits are enough for 16 bits. -/
theorem hexDigits_spells {n : Nat} (hn : n < 0x10000) : SpellsUnit n (hexDigits 4 n) :=
  ⟨_, _, _, _, _, _, _, _, hexDigits_four n, hexValue?_hexDigit (Nat.mod_lt _ (by omega)),
    hexValue?_hexDigit (Nat.mod_lt _ (by omega)), hexValue?_hexDigit (Nat.mod_lt _ (by omega)),
    hexValue?_hexDigit (Nat.mod_lt _ (by omega)), by omega⟩

/-- An escape for 16 bits is in ASCII. -/
theorem escapeUnit_ascii (n : Nat) : IsAscii (escapeUnit n) := by
  rw [escapeUnit, hexDigits_four]
  have hdigit (m : Nat) : (hexDigit (m % 16)).toNat < 128 :=
    hexDigit_ascii (Nat.mod_lt m (by omega))
  simp [hdigit]

/-- **What is written for a character spells it.** -/
theorem escapeChar_spells (c : Char) : SpellsChar c (escapeChar c) := by
  have hvalid : c.toNat.isValidChar := c.valid
  simp only [escapeChar]
  split_ifs with hmark hn hr ht hb hf hplain hunit
  · rcases (by simpa using hmark : c = '"' ∨ c = '\\') with rfl | rfl
    · exact .short (by decide)
    · exact .short (by decide)
  · obtain rfl := eq_of_beq hn
    exact .short (by decide)
  · obtain rfl := eq_of_beq hr
    exact .short (by decide)
  · obtain rfl := eq_of_beq ht
    exact .short (by decide)
  · obtain rfl : c = '\x08' := Char.toNat_inj.mp (eq_of_beq hb)
    exact .short (by decide)
  · obtain rfl : c = '\x0c' := Char.toNat_inj.mp (eq_of_beq hf)
    exact .short (by decide)
  · simp at hmark hplain
    exact .plain hplain.1 hmark.1 hmark.2
  · exact .unit (hexDigits_spells hunit)
  · have hhigh : (c.toNat - 0x10000) / 0x400 < 0x400 := by
      simp only [Nat.isValidChar] at hvalid
      omega
    have hlow : (c.toNat - 0x10000) % 0x400 < 0x400 := Nat.mod_lt _ (by omega)
    exact .pair hhigh hlow (by omega) (hexDigits_spells (by omega)) (hexDigits_spells (by omega))

/-- What is written for a character is in ASCII. -/
theorem escapeChar_ascii (c : Char) : IsAscii (escapeChar c) := by
  simp only [escapeChar]
  split_ifs with hmark hn hr ht hb hf hplain hunit
  · rcases (by simpa using hmark : c = '"' ∨ c = '\\') with rfl | rfl
    · simp
    · simp
  all_goals simp [escapeUnit_ascii]
  · simp at hplain
    omega

/-- **What is written for a text spells it.** -/
theorem quoted_spells (s : String) : SpellsText s (quoted s) := by
  have hchars (cs : List Char) : SpellsChars cs (cs.flatMap escapeChar) := by
    induction cs with
    | nil => exact .nil
    | cons c cs ih => exact .cons (escapeChar_spells c) ih
  exact ⟨_, rfl, hchars s.toList⟩

/-- What is written for a text is in ASCII. -/
theorem quoted_ascii (s : String) : IsAscii (quoted s) := by
  have hchars : IsAscii (s.toList.flatMap escapeChar) := by
    intro d hd
    obtain ⟨c, -, hc⟩ := List.mem_flatMap.mp hd
    exact escapeChar_ascii c d hc
  simp [quoted, hchars]

example : quoted "\"\x7f\n😀" = "\"\\\"\\u007f\\n\\ud83d\\ude00\"".toList := by decide

/-! ## Integers -/

/-- Only zero is written with a zero in front. -/
theorem eq_zero_of_head_toDigits {n : Nat} (h : (Nat.toDigits 10 n).head? = some '0') : n = 0 := by
  induction n using Nat.strongRecOn with
  | ind n ih =>
      rcases Nat.lt_or_ge n 10 with hn | hn
      · have hdigit : ∀ d < 10, Nat.digitChar d = '0' → d = 0 := by decide
        rw [Nat.toDigits_of_lt_base hn] at h
        exact hdigit n hn (Option.some.inj h)
      · -- the first digit is that of a smaller number, which is not zero
        rw [Nat.toDigits_of_base_le (by omega) hn, List.head?_append,
          List.head?_eq_some_head Nat.toDigits_ne_nil, Option.some_or,
          ← List.head?_eq_some_head] at h
        have := ih (n / 10) (by omega) h
        omega

/-- The decimal digits of a number spell it. -/
theorem toDigits_spells (n : Nat) : SpellsNat n (Nat.toDigits 10 n) where
  ne_nil := Nat.toDigits_ne_nil
  digits _ hc := Nat.isDigit_of_mem_toDigits (by omega) (by omega) hc
  eq_of_zero h := by
    rw [eq_zero_of_head_toDigits h]
    rfl
  value := Nat.ofDigitChars_toDigits (by omega) (by omega)

/-- **What is written for an integer spells it.** -/
theorem decimal_spells (n : Int) : SpellsInt n (decimal n) := by
  unfold decimal
  split
  · exact .inr ⟨n.natAbs, _, by omega, rfl, toDigits_spells _⟩
  · exact .inl ⟨n.natAbs, by omega, toDigits_spells _⟩

/-- What is written for an integer is in ASCII. -/
theorem decimal_ascii (n : Int) : IsAscii (decimal n) := by
  have hdigits : IsAscii (Nat.toDigits 10 n.natAbs) := by
    intro c hc
    have hlast : c ≤ '9' := by
      have hdigit := (toDigits_spells n.natAbs).digits c hc
      simp only [isAsciiDigit, Bool.and_eq_true, decide_eq_true_eq] at hdigit
      exact hdigit.2
    exact Nat.lt_of_le_of_lt (Char.le_def.mp hlast) (by decide)
  unfold decimal
  split
  · simp [hdigits]
  · exact hdigits

/-! ## Lists and tables -/

/-- A new line with its indentation is white space. -/
theorem newLine_isLayout (depth : Nat) : IsLayout (newLine depth) := by
  intro c hc
  rcases List.mem_cons.mp hc with rfl | hc
  · rfl
  · obtain rfl := List.eq_of_mem_replicate hc
    rfl

/-- A new line with its indentation is in ASCII. -/
theorem newLine_ascii (depth : Nat) : IsAscii (newLine depth) := by
  intro c hc
  rcases List.mem_cons.mp hc with rfl | hc
  · decide
  · obtain rfl := List.eq_of_mem_replicate hc
    decide

/-- The items of a list spell them if each one does, whatever white space is around them. -/
theorem items_spell {depth : Nat} {v : Value} {vs : List Value} {w w' : List Char}
    (h : ∀ u ∈ v :: vs, Spells u (print depth u)) (hw : IsLayout w) (hw' : IsLayout w') :
    SpellsItems (v :: vs) (w ++ print depth v ++ printItems depth vs ++ w') := by
  induction vs generalizing v w with
  | nil =>
      refine ⟨w, print depth v, w', ?_, hw, h v List.mem_cons_self, hw'⟩
      simp [printItems]
  | cons u vs ih =>
      rw [List.forall_mem_cons] at h
      refine ⟨w ++ print depth v, newLine depth ++ print depth u ++ printItems depth vs ++ w', ?_,
        ⟨w, _, [], ?_, hw, h.1, isLayout_nil⟩, ih h.2 (newLine_isLayout depth)⟩
      · simp [printItems]
      · simp

/-- The entry that is written for a key and a value, with white space in front and behind. -/
theorem entry_spells {depth : Nat} {k : String} {v : Value} {w w' : List Char}
    (h : Spells v (print depth v)) (hw : IsLayout w) (hw' : IsLayout w') :
    SpellsEntry k (Spells v) (w ++ quoted k ++ ": ".toList ++ print depth v ++ w') := by
  refine ⟨w ++ quoted k, ' ' :: print depth v ++ w', ?_,
    ⟨w, quoted k, [], ?_, hw, quoted_spells k, isLayout_nil⟩,
    ⟨[' '], print depth v, w', rfl, ?_, h, hw'⟩⟩
  · simp
  · simp
  · rintro c hc
    obtain rfl := List.mem_singleton.mp hc
    rfl

/-- The entries of a table spell them if each value does, whatever white space is around them. -/
theorem entries_spell {depth : Nat} {k : String} {v : Value} {es : List (String × Value)}
    {w w' : List Char} (h : ∀ e ∈ (k, v) :: es, Spells e.2 (print depth e.2)) (hw : IsLayout w)
    (hw' : IsLayout w') :
    SpellsEntries ((k, v) :: es)
      (w ++ quoted k ++ ": ".toList ++ print depth v ++ printEntries depth es ++ w') := by
  induction es generalizing k v w with
  | nil =>
      have hentry := entry_spells (h _ List.mem_cons_self) hw hw' (k := k)
      simpa [printEntries, SpellsEntries] using hentry
  | cons e es ih =>
      rw [List.forall_mem_cons] at h
      have hentry := entry_spells h.1 hw isLayout_nil (k := k)
      refine ⟨_, newLine depth ++ quoted e.1 ++ ": ".toList ++ print depth e.2 ++
        printEntries depth es ++ w', ?_, hentry, ih h.2 (newLine_isLayout depth)⟩
      simp [printEntries]

/-! ## Values -/

/-- **What is written for a value spells it**, at any depth. -/
theorem print_spells {v : Value} (hv : v.IsPlain) (depth : Nat) : Spells v (print depth v) := by
  induction hv generalizing depth with
  | null => rfl
  | bool b => cases b <;> rfl
  | int n => exact decimal_spells n
  | text s => exact quoted_spells s
  | @list vs _ ih =>
      cases vs with
      | nil => exact ⟨[], rfl, isLayout_nil⟩
      | cons v vs =>
          exact ⟨_, by simp [print], items_spell (fun u hu => ih u hu (depth + 1))
            (newLine_isLayout (depth + 1)) (newLine_isLayout depth)⟩
  | @table es _ ih =>
      cases es with
      | nil => exact ⟨[], rfl, isLayout_nil⟩
      | cons e es =>
          exact ⟨_, by simp [print], entries_spell (fun e he => ih e he (depth + 1))
            (newLine_isLayout (depth + 1)) (newLine_isLayout depth)⟩

/-- The items of a list are written in ASCII if each one is. -/
theorem items_ascii {depth : Nat} {vs : List Value} (h : ∀ v ∈ vs, IsAscii (print depth v)) :
    IsAscii (printItems depth vs) := by
  induction vs with
  | nil => exact isAscii_nil
  | cons v vs ih =>
      rw [List.forall_mem_cons] at h
      simp [printItems, newLine_ascii, h.1, ih h.2]

/-- The entries of a table are written in ASCII if each value is. -/
theorem entries_ascii {depth : Nat} {es : List (String × Value)}
    (h : ∀ e ∈ es, IsAscii (print depth e.2)) : IsAscii (printEntries depth es) := by
  induction es with
  | nil => exact isAscii_nil
  | cons e es ih =>
      rw [List.forall_mem_cons] at h
      simp [printEntries, newLine_ascii, quoted_ascii, h.1, ih h.2]

/-- **No character outside ASCII is written.** -/
theorem print_ascii {v : Value} (hv : v.IsPlain) (depth : Nat) : IsAscii (print depth v) := by
  induction hv generalizing depth with
  | null => simp [print]
  | bool b => cases b <;> simp [print]
  | int n => exact decimal_ascii n
  | text s => exact quoted_ascii s
  | @list vs _ ih =>
      cases vs with
      | nil => simp [print]
      | cons v vs =>
          rw [List.forall_mem_cons] at ih
          have hvs := items_ascii fun u hu => ih.2 u hu (depth + 1)
          simp [print, newLine_ascii, ih.1, hvs]
  | @table es _ ih =>
      cases es with
      | nil => simp [print]
      | cons e es =>
          rw [List.forall_mem_cons] at ih
          have hes := entries_ascii fun e he => ih.2 e he (depth + 1)
          simp [print, newLine_ascii, quoted_ascii, ih.1, hes]

end Json

end CodeSweep
