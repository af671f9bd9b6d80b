/-
# Writing JSON

JSON is written on several lines with two spaces for each level, in ASCII characters only: all
others are escaped, those outside the first plane as two surrogates.
-/
import CodeSweep.Text.Hex
import CodeSweep.Value

namespace CodeSweep.Json

open Text

/-! ## Texts -/

/-- The escape of one 16-bit unit. -/
def escapeUnit (n : Nat) : List Char := '\\' :: 'u' :: hexDigits 4 n

/-- One character of a text. -/
def escapeChar (c : Char) : List Char :=
  let n := c.toNat
  if c == '"' || c == '\\' then ['\\', c]
  else if c == '\n' then ['\\', 'n']
  else if c == '\r' then ['\\', 'r']
  else if c == '\t' then ['\\', 't']
  else if n == 8 then ['\\', 'b']
  else if n == 12 then ['\\', 'f']
  else if 32 ≤ n && n < 127 then [c]
  else if n < 0x10000 then escapeUnit n
  else escapeUnit (0xD800 + (n - 0x10000) / 0x400) ++ escapeUnit (0xDC00 + (n - 0x10000) % 0x400)

/-- A text in quotes. -/
def quoted (s : String) : List Char := '"' :: s.toList.flatMap escapeChar ++ ['"']

/-! ## Values -/

/-- The start of a line at the given depth. -/
def newLine (depth : Nat) : List Char := '\n' :: List.replicate (2 * depth) ' '

/-- An integer in decimal. -/
def decimal (n : Int) : List Char :=
  if n < 0 then '-' :: Nat.toDigits 10 n.natAbs else Nat.toDigits 10 n.natAbs

mutual

/-- A value whose lines are at the given depth. -/
def print (depth : Nat) : Value → List Char
  | .null => "null".toList
  | .bool b => if b then "true".toList else "false".toList
  | .int n => decimal n
  | .real literal => literal.toList
  | .moment literal => quoted literal
  | .text s => quoted s
  | .list [] => "[]".toList
  | .list (v :: vs) =>
    '[' :: newLine (depth + 1) ++ print (depth + 1) v ++ printItems (depth + 1) vs ++
      newLine depth ++ [']']
  | .table [] => ['{', '}']
  | .table ((k, v) :: es) =>
    '{' :: newLine (depth + 1) ++ quoted k ++ ": ".toList ++ print (depth + 1) v ++
      printEntries (depth + 1) es ++ newLine depth ++ ['}']

/-- The items of a list after the first. -/
def printItems (depth : Nat) : List Value → List Char
  | [] => []
  | v :: vs => ',' :: newLine depth ++ print depth v ++ printItems depth vs

/-- The entries of a table after the first. -/
def printEntries (depth : Nat) : List (String × Value) → List Char
  | [] => []
  | (k, v) :: es =>
    ',' :: newLine depth ++ quoted k ++ ": ".toList ++ print depth v ++ printEntries depth es

end

/-- The JSON text of a value. -/
def render (v : Value) : String := String.ofList (print 0 v)

end CodeSweep.Json
