/-
# Integers as users write them

An integer is a sign, if any, and decimal digits of any script; between two digits there may be one
underscore.  Numerals that are too long are refused.  Where whole numbers are asked for, a numeral
with a point or an exponent is one too if nothing but zeros is left behind the point.
-/
import CodeSweep.Text.Blank
import CodeSweep.Text.Digit

namespace CodeSweep.Text

/-- The longest numeral that is read. -/
def longestNumeral : Nat := 4300

/-- The values of the digits, most significant first, where underscores stand only between digits.
`afterDigit` says whether a digit comes just before. -/
def numeralDigits? : (afterDigit : Bool) → List Char → Option (List Nat)
  | afterDigit, [] => if afterDigit then some [] else none
  | afterDigit, c :: cs =>
    if c = '_' then if afterDigit then numeralDigits? false cs else none
    else do
      let d ← digitValue? c
      return d :: (← numeralDigits? true cs)

/-- The number that the digits spell. -/
def numeralValue (digits : List Nat) : Nat := digits.foldl (fun n d => 10 * n + d) 0

/-- The number that the digits of a text spell. -/
def readNat? (cs : List Char) : Option Nat := do
  let digits ← numeralDigits? false cs
  if digits.length ≤ longestNumeral then some (numeralValue digits) else none

/-- The integer that a text spells, whatever blanks are around it. -/
def readInt? (cs : List Char) : Option Int :=
  match trim cs with
  | '-' :: digits => (readNat? digits).map fun n => -n
  | '+' :: digits => (readNat? digits).map fun n => n
  | digits => (readNat? digits).map fun n => n

/-! ## Points and exponents -/

/-- Digits that may be missing. -/
def optionalDigits? (cs : List Char) : Option (List Nat) :=
  if cs.isEmpty then some [] else numeralDigits? false cs

/-- The exponent of ten after its mark, or zero where there is no mark. -/
def readExponent? : List Char → Option Int
  | [] => some 0
  | _ :: cs => if cs.any isBlank then none else readInt? cs

/-- The most digits that a number with a point or an exponent may have before the point. -/
def longestWhole : Int := 309

/-- The whole number with the digits and the exponent of ten, if it is one. -/
def wholeOf? (digits : List Nat) (exponent : Int) : Option Nat :=
  let significant := digits.dropWhile (· == 0)
  if longestWhole < significant.length + exponent then none
  else if 0 ≤ exponent then some (numeralValue (significant ++ List.replicate exponent.toNat 0))
  else
    let kept := significant.length - exponent.natAbs
    if (significant.drop kept).any (· != 0) then none
    else some (numeralValue (significant.take kept))

/-- The whole number that a numeral without a sign spells, with a point or an exponent. -/
def readScaled? (cs : List Char) : Option Nat := do
  let isMark (c : Char) : Bool := c == 'e' || c == 'E'
  let mantissa := cs.takeWhile (!isMark ·)
  let before ← optionalDigits? (mantissa.takeWhile (· != '.'))
  let after ← optionalDigits? ((mantissa.dropWhile (· != '.')).drop 1)
  if before.isEmpty && after.isEmpty then none
  else wholeOf? (before ++ after) ((← readExponent? (cs.dropWhile (!isMark ·))) - after.length)

/-- The whole number that a text spells, whatever blanks are around it. -/
def readWhole? (cs : List Char) : Option Int :=
  readInt? cs <|>
    match trim cs with
    | '-' :: rest => (readScaled? rest).map fun n => -n
    | '+' :: rest => (readScaled? rest).map fun n => n
    | rest => (readScaled? rest).map fun n => n

end CodeSweep.Text
