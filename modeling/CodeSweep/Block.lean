/-
# Blocks

Where the delimiter that closes a block stands.  Two questions are asked: which closing delimiter
belongs to a given opening one, and which one ends the block around a given place.
-/
namespace CodeSweep.Block

/-- The place of the delimiter that brings the depth back to zero, where the text goes on with the
list at place `i` and at the given depth. -/
def closeFrom (opener closer : Char) : (depth : Int) → (i : Nat) → List Char → Option Nat
  | _, _, [] => none
  | depth, i, c :: cs =>
    if c = opener then closeFrom opener closer (depth + 1) (i + 1) cs
    else if c = closer then
      if depth - 1 = 0 then some i else closeFrom opener closer (depth - 1) (i + 1) cs
    else closeFrom opener closer depth (i + 1) cs

/-- The place of the delimiter that closes the one at `start`. -/
def close? (text : List Char) (start : Nat) (opener closer : Char) : Option Nat :=
  closeFrom opener closer 0 start (text.drop start)

/-- The place of the first closing brace that no opening one comes before, where the text goes on
with the list at place `i` inside `depth` braces; the end of the text if there is none. -/
def endFrom : (depth i : Nat) → List Char → Nat
  | _, i, [] => i
  | depth, i, c :: cs =>
    if c = '{' then endFrom (depth + 1) (i + 1) cs
    else if c = '}' then
      match depth with
      | 0 => i
      | depth + 1 => endFrom depth (i + 1) cs
    else endFrom depth (i + 1) cs

/-- The place of the brace that ends the block around `start`, or the end of the text. -/
def enclosingEnd (text : List Char) (start : Nat) : Nat :=
  if start ≤ text.length then endFrom 0 start (text.drop start) else text.length

end CodeSweep.Block
