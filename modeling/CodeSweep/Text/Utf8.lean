/-
# UTF-8

Files hold octets.  Decoding goes octet by octet: between characters, or inside one that still
owes some octets, of which the next one may be restricted.  An octet that does not fit ends the
broken character and starts a new one, so every longest broken piece counts once.
-/
namespace CodeSweep.Text.Utf8

/-! ## One octet at a time -/

/-- Where a decoder stands between two octets. -/
inductive State where
  /-- Between characters. -/
  | start
  /-- Inside a character whose bits so far are `bits` and which owes `owed` octets after the next
  one; the next one lies between `least` and `greatest`. -/
  | inside (owed bits least greatest : Nat)
  deriving DecidableEq, Repr

/-- What one octet completes: characters, or nothing in the place of a broken piece. -/
abbrev Pieces := List (Option Char)

/-- The step on an octet between characters. -/
def first (b : Nat) : Pieces × State :=
  if b < 0x80 then ([some (Char.ofNat b)], .start)
  else if 0xC2 ≤ b ∧ b ≤ 0xDF then ([], .inside 0 (b - 0xC0) 0x80 0xBF)
  else if b = 0xE0 then ([], .inside 1 0 0xA0 0xBF)
  else if b = 0xED then ([], .inside 1 0xD 0x80 0x9F)
  else if 0xE1 ≤ b ∧ b ≤ 0xEF then ([], .inside 1 (b - 0xE0) 0x80 0xBF)
  else if b = 0xF0 then ([], .inside 2 0 0x90 0xBF)
  else if 0xF1 ≤ b ∧ b ≤ 0xF3 then ([], .inside 2 (b - 0xF0) 0x80 0xBF)
  else if b = 0xF4 then ([], .inside 2 4 0x80 0x8F)
  else ([none], .start)

/-- The step on an octet. -/
def next (s : State) (b : Nat) : Pieces × State :=
  match s with
  | .start => first b
  | .inside owed bits least greatest =>
    if least ≤ b ∧ b ≤ greatest then
      let bits := 64 * bits + (b - 0x80)
      match owed with
      | 0 => ([some (Char.ofNat bits)], .start)
      | owed + 1 => ([], .inside owed bits 0x80 0xBF)
    else (none :: (first b).1, (first b).2)

/-- The pieces from a state on. -/
def piecesFrom : State → List UInt8 → Pieces
  | .start, [] => []
  | .inside .., [] => [none]
  | s, b :: bs => (next s b.toNat).1 ++ piecesFrom (next s b.toNat).2 bs

/-! ## Decoding -/

/-- The text of the octets, if no piece of them is broken. -/
def decode? (octets : List UInt8) : Option (List Char) := (piecesFrom .start octets).mapM id

/-- What stands for a broken piece. -/
def replacement : Char := Char.ofNat 0xFFFD

/-- The text of the octets, with a replacement for every broken piece. -/
def decode (octets : List UInt8) : List Char :=
  (piecesFrom .start octets).map fun c => c.getD replacement

end CodeSweep.Text.Utf8

/-! ## Line ends -/

namespace CodeSweep.Text

/-- The text with a line feed for every line end, be it a carriage return, a line feed or both. -/
def unifyLineEnds : List Char → List Char
  | [] => []
  | '\r' :: '\n' :: cs => '\n' :: unifyLineEnds cs
  | c :: cs => (if c = '\r' then '\n' else c) :: unifyLineEnds cs

end CodeSweep.Text
