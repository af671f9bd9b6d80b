/-
# Matching

Matching reads a text from left to right and, where a pattern leaves a choice, tries the
preferred way first and goes back to the next one when the rest of the pattern fails.  The matcher
takes what is to follow as a continuation, so going back is a second call of it.

Main definitions: `Pattern.search?` finds the leftmost match from a place on, `Pattern.matchesIn`
all matches that do not overlap.
-/
import CodeSweep.Pattern.Basic

namespace CodeSweep

/-! ## Places in a text -/

/-- The character before the place. -/
def charBefore (text : Array Char) (i : Nat) : Option Char :=
  if i = 0 then none else text[i - 1]?

/-- The character at the place passes the test. -/
def holdsAt (test : Char → Bool) (text : Array Char) (i : Nat) : Bool :=
  match text[i]? with
  | some c => test c
  | none => false

/-- The character before the place passes the test. -/
def holdsBefore (test : Char → Bool) (text : Array Char) (i : Nat) : Bool :=
  match charBefore text i with
  | some c => test c
  | none => false

/-- The place is of the given kind. -/
def Edge.holds (text : Array Char) (i : Nat) : Edge → Bool
  | .lineStart => i == 0 || holdsBefore (· == '\n') text i
  | .lineEnd => i == text.size || holdsAt (· == '\n') text i
  | .textStart => i == 0
  | .textEnd => i == text.size
  | .lastLineEnd => i == text.size || (i + 1 == text.size && holdsAt (· == '\n') text i)
  | .wordEdge => holdsBefore Text.isWord text i != holdsAt Text.isWord text i
  | .noWordEdge =>
    !text.isEmpty && holdsBefore Text.isWord text i == holdsAt Text.isWord text i

/-! ## The matcher -/

namespace Pattern

/-- The stretches matched by named groups, the latest first. -/
abbrev Groups := List (String × Nat × Nat)

/-- The length of the longest run of characters of the set from `i` on, if it is at most `limit`,
and else `limit`. -/
def runLength (s : CharSet) (text : Array Char) : (limit i : Nat) → Nat
  | 0, _ => 0
  | limit + 1, i => if holdsAt s.holds text i then runLength s text limit (i + 1) + 1 else 0

/-- The places where a run that starts at `i` may end, the preferred one first. -/
def runEnds (s : CharSet) (least : Nat) (most : Option Nat) (lazy : Bool) (text : Array Char)
    (i : Nat) : List Nat :=
  let longest := runLength s text (most.getD (text.size - i)) i
  let ends := List.range' (i + least) (longest + 1 - least)
  if lazy then ends else ends.reverse

/-- What is tried at a place with the groups so far: `some` is success. -/
abbrev Then (α : Type) := Nat → Groups → Option α

/-- Exactly `n` matches of the step in a row. -/
def exactly {α : Type} (step : Nat → Groups → Then α → Option α) :
    Nat → Nat → Groups → Then α → Option α
  | 0, i, g, k => k i g
  | n + 1, i, g, k => step i g fun j g' => exactly step n j g' k

/-- At most `n` matches of the step in a row.  No match is tried right after an empty one, which is
where `last` says that the previous match began. -/
def atMost {α : Type} (step : Nat → Groups → Then α → Option α) (lazy : Bool) :
    Nat → Option Nat → Nat → Groups → Then α → Option α
  | 0, _, i, g, k => k i g
  | n + 1, last, i, g, k =>
    if last = some i then k i g
    else if lazy then k i g <|> step i g fun j g' => atMost step lazy n (some i) j g' k
    else (step i g fun j g' => atMost step lazy n (some i) j g' k) <|> k i g

/-- How many matches in a row may follow the least number of them.  In a text of the given size no
more than one for each character, and an empty one, can follow. -/
def further (least : Nat) (most : Option Nat) (size : Nat) : Nat :=
  match most with
  | some n => n - least
  | none => size + 1

/-- Matches the pattern at `i` and goes on with `k` at the place where the match ends. -/
def runAt {α : Type} (text : Array Char) : Pattern → Nat → Groups → Then α → Option α
  | empty, i, g, k => k i g
  | one s, i, g, k => if holdsAt s.holds text i then k (i + 1) g else none
  | run s least most lazy, i, g, k => (runEnds s least most lazy text i).findSome? fun j => k j g
  | seq p q, i, g, k => runAt text p i g fun j g' => runAt text q j g' k
  | alt p q, i, g, k => runAt text p i g k <|> runAt text q i g k
  | iter p least most lazy, i, g, k =>
    exactly (runAt text p) least i g fun j g' =>
      atMost (runAt text p) lazy (further least most text.size) none j g' k
  | group name p, i, g, k => runAt text p i g fun j g' => k j ((name, i, j) :: g')
  | edge e, i, g, k => if e.holds text i then k i g else none
  | ahead p wanted, i, g, k =>
    match runAt text p i g fun _ g' => some g' with
    | some g' => if wanted then k i g' else none
    | none => if wanted then none else k i g
  | behind p width wanted, i, g, k =>
    match if width ≤ i then runAt text p (i - width) g fun _ g' => some g' else none with
    | some g' => if wanted then k i g' else none
    | none => if wanted then none else k i g

end Pattern

/-! ## Matches -/

/-- A match of a pattern in a text: the characters from `start` up to but not including `stop`. -/
structure Match where
  start : Nat
  stop : Nat
  groups : Pattern.Groups
  deriving DecidableEq, Repr

namespace Match

/-- The stretch that the group of the name matched. -/
def group? (m : Match) (name : String) : Option (Nat × Nat) := m.groups.lookup name

/-- The stretch that is shown: that of the group `hit` if it took part, and else the whole match. -/
def shown (m : Match) : Nat × Nat := (m.group? "hit").getD (m.start, m.stop)

end Match

namespace Pattern

/-- The preferred match that starts at `i`. -/
def matchAt? (p : Pattern) (text : Array Char) (i : Nat) : Option Match :=
  p.runAt text i [] fun j g => some ⟨i, j, g⟩

/-- The preferred match that starts at `i` and is not empty. -/
def nonemptyMatchAt? (p : Pattern) (text : Array Char) (i : Nat) : Option Match :=
  p.runAt text i [] fun j g => if j = i then none else some ⟨i, j, g⟩

/-- The preferred match that starts at `i` and ends with the text. -/
def fullMatchAt? (p : Pattern) (text : Array Char) (i : Nat) : Option Match :=
  p.runAt text i [] fun j g => if j = text.size then some ⟨i, j, g⟩ else none

/-- The leftmost match among the `n` places from `i` on. -/
def searchFrom? (p : Pattern) (text : Array Char) : (n i : Nat) → Option Match
  | 0, _ => none
  | n + 1, i => p.matchAt? text i <|> searchFrom? p text n (i + 1)

/-- The leftmost match that starts at `i` or later. -/
def search? (p : Pattern) (text : Array Char) (i : Nat) : Option Match :=
  p.searchFrom? text (text.size + 1 - i) i

/-- The pattern matches somewhere in the text. -/
def foundIn (p : Pattern) (text : Array Char) : Bool := (p.search? text 0).isSome

/-- The matches that start at one of the `n` places from `i` on, but not before `free`, from left
to right without overlap.  After an empty match the same place is tried for one that is not. -/
def matchesFrom (p : Pattern) (text : Array Char) : (n i free : Nat) → List Match
  | 0, _, _ => []
  | n + 1, i, free =>
    if i < free then matchesFrom p text n (i + 1) free
    else
      match p.matchAt? text i with
      | none => matchesFrom p text n (i + 1) i
      | some m =>
        if m.stop = i then
          match p.nonemptyMatchAt? text i with
          | none => m :: matchesFrom p text n (i + 1) i
          | some m' => m :: m' :: matchesFrom p text n (i + 1) m'.stop
        else m :: matchesFrom p text n (i + 1) m.stop

/-- All matches from left to right without overlap. -/
def matchesIn (p : Pattern) (text : Array Char) : List Match :=
  p.matchesFrom text (text.size + 1) 0 0

end Pattern

end CodeSweep
