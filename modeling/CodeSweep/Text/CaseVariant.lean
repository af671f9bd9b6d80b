/-
# Case variants

Two characters are case variants when they have the same small letter, or when their small letters
are two shapes of one letter: the dotless and the dotted i, the long and the round s, the medial and
the final sigma, and so on.  A search that ignores case lets a character stand for all its variants.
-/
import CodeSweep.Text.Lowercase

namespace CodeSweep.Text

/-! ## Families of small letters -/

/-- Small letters from code point 128 on that are shapes of one letter. -/
def shapeFamilies : List (List Nat) :=
  [[0xB5, 0x3BC], [0x345, 0x3B9, 0x1FBE], [0x390, 0x1FD3], [0x3B0, 0x1FE3], [0x3B2, 0x3D0], [0x3B5, 0x3F5],
   [0x3B8, 0x3D1], [0x3BA, 0x3F0], [0x3C0, 0x3D6], [0x3C1, 0x3F1], [0x3C2, 0x3C3], [0x3C6, 0x3D5],
   [0x432, 0x1C80], [0x434, 0x1C81], [0x43E, 0x1C82], [0x441, 0x1C83], [0x442, 0x1C84, 0x1C85], [0x44A, 0x1C86],
   [0x463, 0x1C87], [0x1C88, 0xA64B], [0x1E61, 0x1E9B], [0xFB05, 0xFB06]]

/-- The other shapes of a small letter. -/
def otherShapes (c : Char) : List Char :=
  if c == 'i' || c.toNat == 0x131 then ['i', Char.ofNat 0x131]
  else if c == 's' || c.toNat == 0x17F then ['s', Char.ofNat 0x17F]
  else if c.toNat < 128 then [c]
  else ((shapeFamilies.find? (·.contains c.toNat)).getD [c.toNat]).map Char.ofNat

/-- The capitals of a small letter. -/
def capitals (c : Char) : List Char :=
  if c.toNat < 128 then
    if 'a' ≤ c && c ≤ 'z' then
      Char.ofNat (c.toNat - 32) ::
        (if c == 'i' then [Char.ofNat 0x130] else if c == 'k' then [Char.ofNat 0x212A] else [])
    else []
  else
    (capitalRuns.filter fun r => r.holds ((c.toNat : Int) - r.shift).toNat).map
      fun r => Char.ofNat ((c.toNat : Int) - r.shift).toNat

/-- All characters that a search ignoring case takes for the character. -/
def caseVariants (c : Char) : List Char :=
  (otherShapes (smallLetter c)).flatMap fun s => s :: capitals s

end CodeSweep.Text
