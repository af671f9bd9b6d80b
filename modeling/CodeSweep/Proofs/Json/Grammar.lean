/-
# Texts in JSON

What the texts are that spell a value in JSON, whatever their layout (`Spells`): white space may
stand around every value and every mark, a character may be written by itself or by an escape, and
an integer has no zero in front.  Numbers that are no integers, dates and times are left out.
-/
import CodeSweep.Json.Reader

namespace CodeSweep

/-! ## Members of values -/

/-- **Induction over the members** of lists and tables. -/
theorem Value.inductMembers {P : Value → Prop} (null : P .null) (bool : ∀ b, P (.bool b))
    (int : ∀ n, P (.int n)) (real : ∀ literal, P (.real literal))
    (moment : ∀ literal, P (.moment literal)) (text : ∀ s, P (.text s))
    (list : ∀ vs, (∀ v ∈ vs, P v) → P (.list vs))
    (table : ∀ es, (∀ e ∈ es, P e.2) → P (.table es)) (v : Value) : P v :=
  @Value.rec P (fun vs => ∀ v ∈ vs, P v) (fun es => ∀ e ∈ es, P e.2) (fun e => P e.2)
    null bool int real moment text list table
    (fun _ h => nomatch h) (fun _ _ hv hvs => List.forall_mem_cons.mpr ⟨hv, hvs⟩)
    (fun _ h => nomatch h) (fun _ _ he hes => List.forall_mem_cons.mpr ⟨he, hes⟩)
    (fun _ _ hv => hv) v

namespace Json

open Text

/-! ## Texts -/

/-- Four hexadecimal digits that spell the number. -/
def SpellsUnit (n : Nat) (cs : List Char) : Prop :=
  ∃ w x y z a b c d, cs = [w, x, y, z] ∧ hexValue? w = some a ∧ hexValue? x = some b ∧
    hexValue? y = some c ∧ hexValue? z = some d ∧ n = 4096 * a + 256 * b + 16 * c + d

/-- The letters that stand for a character after a backslash. -/
def shortEscapes : List (Char × Char) :=
  [('"', '"'), ('\\', '\\'), ('/', '/'), ('b', '\x08'), ('f', '\x0c'), ('n', '\n'), ('r', '\r'),
   ('t', '\t')]

/-- The ways to write a character of a text. -/
inductive SpellsChar (c : Char) : List Char → Prop
  | plain : 32 ≤ c.toNat → c ≠ '"' → c ≠ '\\' → SpellsChar c [c]
  | short {letter : Char} : (letter, c) ∈ shortEscapes → SpellsChar c ['\\', letter]
  | unit {ds : List Char} : SpellsUnit c.toNat ds → SpellsChar c ('\\' :: 'u' :: ds)
  /-- Two surrogates, for a character outside the first plane. -/
  | pair {high low : Nat} {ds es : List Char} : high < 0x400 → low < 0x400 →
      c.toNat = 0x10000 + 0x400 * high + low → SpellsUnit (0xD800 + high) ds →
      SpellsUnit (0xDC00 + low) es → SpellsChar c ('\\' :: 'u' :: ds ++ '\\' :: 'u' :: es)

/-- The ways to write the characters of a text. -/
inductive SpellsChars : (s cs : List Char) → Prop
  | nil : SpellsChars [] []
  | cons {c : Char} {s first more : List Char} : SpellsChar c first → SpellsChars s more →
      SpellsChars (c :: s) (first ++ more)

/-- A text in quotes. -/
def SpellsText (s : String) (cs : List Char) : Prop :=
  ∃ body, cs = '"' :: body ++ ['"'] ∧ SpellsChars s.toList body

/-! ## Integers -/

/-- Decimal digits without a zero in front. -/
structure SpellsNat (n : Nat) (cs : List Char) : Prop where
  ne_nil : cs ≠ []
  digits : ∀ c ∈ cs, isAsciiDigit c = true
  eq_of_zero : cs.head? = some '0' → cs = ['0']
  value : ofDigits cs = n

/-- Decimal digits, with a minus sign or without. -/
def SpellsInt (n : Int) (cs : List Char) : Prop :=
  (∃ m : Nat, n = m ∧ SpellsNat m cs) ∨ ∃ (m : Nat) (ds : List Char), n = -m ∧ cs = '-' :: ds ∧
    SpellsNat m ds

/-! ## Values -/

/-- White space. -/
def IsLayout (w : List Char) : Prop := ∀ c ∈ w, isSpace c = true

/-- There may be no white space at all. -/
theorem isLayout_nil : IsLayout [] := fun _ h => nomatch h

/-- Characters of a kind with white space around them. -/
def Padded (kind : List Char → Prop) (cs : List Char) : Prop :=
  ∃ w inner w', cs = w ++ inner ++ w' ∧ IsLayout w ∧ kind inner ∧ IsLayout w'

/-- A key, a colon and characters of a kind. -/
def SpellsEntry (key : String) (kind : List Char → Prop) (cs : List Char) : Prop :=
  ∃ first more, cs = first ++ ':' :: more ∧ Padded (SpellsText key) first ∧ Padded kind more

mutual

/-- The ways to write a value. -/
def Spells : Value → List Char → Prop
  | .null, cs => cs = "null".toList
  | .bool true, cs => cs = "true".toList
  | .bool false, cs => cs = "false".toList
  | .int n, cs => SpellsInt n cs
  | .real _, _ => False
  | .moment _, _ => False
  | .text s, cs => SpellsText s cs
  | .list vs, cs => ∃ body, cs = '[' :: body ++ [']'] ∧ SpellsItems vs body
  | .table es, cs => ∃ body, cs = '{' :: body ++ ['}'] ∧ SpellsEntries es body

/-- The items of a list with commas between them, or white space if there are none. -/
def SpellsItems : List Value → List Char → Prop
  | [], cs => IsLayout cs
  | [v], cs => Padded (Spells v) cs
  | v :: u :: vs, cs =>
    ∃ first more, cs = first ++ ',' :: more ∧ Padded (Spells v) first ∧ SpellsItems (u :: vs) more

/-- The entries of a table with commas between them, or white space if there are none. -/
def SpellsEntries : List (String × Value) → List Char → Prop
  | [], cs => IsLayout cs
  | [(k, v)], cs => SpellsEntry k (Spells v) cs
  | (k, v) :: e :: es, cs =>
    ∃ first more, cs = first ++ ',' :: more ∧ SpellsEntry k (Spells v) first ∧
      SpellsEntries (e :: es) more

end

end Json

end CodeSweep
