/-
# Patterns

A pattern describes stretches of a text: single characters, runs of characters of a set,
sequences, alternatives in order of preference, repetitions, named groups, and tests that consume
nothing.  This module holds the type and the words in which the rule catalogue is written.
-/
import CodeSweep.Pattern.CharSet

namespace CodeSweep

/-! ## The type -/

/-- A test of the place between two characters. -/
inductive Edge where
  /-- At the start of the text or after a line feed. -/
  | lineStart
  /-- At the end of the text or before a line feed. -/
  | lineEnd
  /-- At the start of the text. -/
  | textStart
  /-- At the end of the text. -/
  | textEnd
  /-- At the end of the text or before a line feed that ends it. -/
  | lastLineEnd
  /-- Between a word character and something else. -/
  | wordEdge
  /-- Not at a word edge, in a text that is not empty. -/
  | noWordEdge
  deriving DecidableEq, Repr

/-- A pattern over the characters of a text. -/
inductive Pattern where
  /-- Nothing, which matches everywhere. -/
  | empty
  /-- One character of the set. -/
  | one (s : CharSet)
  /-- A run of at least `least` and at most `most` characters of the set, long runs first unless
  `lazy`. -/
  | run (s : CharSet) (least : Nat) (most : Option Nat) (lazy : Bool)
  /-- The first pattern, then the second. -/
  | seq (p q : Pattern)
  /-- The first pattern, or failing that the second. -/
  | alt (p q : Pattern)
  /-- At least `least` and at most `most` matches of the pattern in a row, many first unless
  `lazy`. -/
  | iter (p : Pattern) (least : Nat) (most : Option Nat) (lazy : Bool)
  /-- The pattern, with the stretch it matched kept under the name. -/
  | group (name : String) (p : Pattern)
  /-- A place of the given kind. -/
  | edge (e : Edge)
  /-- A place where the pattern matches (or, unless `wanted`, does not match) what follows. -/
  | ahead (p : Pattern) (wanted : Bool)
  /-- A place where the pattern matches from `width` characters before on (or, unless `wanted`, does
  not match there, or there are fewer characters). -/
  | behind (p : Pattern) (width : Nat) (wanted : Bool)
  deriving DecidableEq, Repr

namespace Pattern

/-! ## Words for patterns -/

instance : Append Pattern := ⟨seq⟩

/-- The characters of a text in sequence. -/
def ofChars : List Char → Pattern
  | [] => empty
  | [c] => one (.single c)
  | c :: cs => seq (one (.single c)) (ofChars cs)

/-- The text itself. -/
def lit (s : String) : Pattern := ofChars s.toList

instance : Coe String Pattern := ⟨lit⟩

/-- One of the patterns, the earlier the better.  Of no patterns, none matches. -/
def anyOf : List Pattern → Pattern
  | [] => one (.inside [])
  | [p] => p
  | p :: ps => alt p (anyOf ps)

/-- One of the texts, the earlier the better. -/
def anyWord (ws : List String) : Pattern := anyOf (ws.map lit)

/-- One of the characters of the text. -/
def oneOf (s : String) : Pattern := one (.inside (chars s))

/-- Any number of characters of the set. -/
def many (s : CharSet) : Pattern := run s 0 none false

/-- At least one character of the set. -/
def some1 (s : CharSet) : Pattern := run s 1 none false

/-- At least `n` characters of the set. -/
def atLeast (n : Nat) (s : CharSet) : Pattern := run s n none false

/-- From `m` to `n` characters of the set, as many as possible. -/
def count (m n : Nat) (s : CharSet) : Pattern := run s m (some n) false

/-- At most `n` characters of the set, as many as possible. -/
def upTo (n : Nat) (s : CharSet) : Pattern := run s 0 (some n) false

/-- From `m` to `n` characters of the set, as few as possible. -/
def fewest (m n : Nat) (s : CharSet) : Pattern := run s m (some n) true

/-- A character of the set, if there is one. -/
def maybe (s : CharSet) : Pattern := run s 0 (some 1) false

/-- The character, if it is there. -/
def maybeChar (c : Char) : Pattern := maybe (.single c)

/-- The pattern once, if it matches. -/
def optional (p : Pattern) : Pattern := iter p 0 (some 1) false

/-- The pattern any number of times. -/
def repeated (p : Pattern) : Pattern := iter p 0 none false

/-- The pattern at most `n` times. -/
def repeatedUpTo (n : Nat) (p : Pattern) : Pattern := iter p 0 (some n) false

/-- The part of a match that a finding shows. -/
def hit (p : Pattern) : Pattern := group "hit" p

/-- A place where the pattern does not match what follows. -/
def notAhead (p : Pattern) : Pattern := ahead p false

/-- A place that no character of the set precedes. -/
def notAfter (s : CharSet) : Pattern := behind (one s) 1 false

/-- The start of a line. -/
def lineStart : Pattern := edge .lineStart

/-- The end of a line. -/
def lineEnd : Pattern := edge .lineEnd

/-- The edge of a word. -/
def wordEdge : Pattern := edge .wordEdge

/-- The start of the text. -/
def textStart : Pattern := edge .textStart

/-- Spaces and tabulators, if any. -/
def gap : Pattern := many spaceOrTab

/-- At least one space or tabulator. -/
def gap1 : Pattern := some1 spaceOrTab

/-- The pattern as a whole word. -/
def wholeWord (p : Pattern) : Pattern := wordEdge ++ p ++ wordEdge

/-- The same pattern without regard to letter case. -/
def ignoreCase : Pattern → Pattern
  | empty => empty
  | one s => one s.ignoreCase
  | run s least most lazy => run s.ignoreCase least most lazy
  | seq p q => seq p.ignoreCase q.ignoreCase
  | alt p q => alt p.ignoreCase q.ignoreCase
  | iter p least most lazy => iter p.ignoreCase least most lazy
  | group name p => group name p.ignoreCase
  | edge e => edge e
  | ahead p wanted => ahead p.ignoreCase wanted
  | behind p width wanted => behind p.ignoreCase width wanted

/-- The ranges in the pattern that end before they start, in order. -/
def reversed : Pattern → List (Char × Char)
  | empty => []
  | one s => s.reversed
  | run s _ _ _ => s.reversed
  | seq p q => p.reversed ++ q.reversed
  | alt p q => p.reversed ++ q.reversed
  | iter p _ _ _ => p.reversed
  | group _ p => p.reversed
  | edge _ => []
  | ahead p _ => p.reversed
  | behind p _ _ => p.reversed

@[simp] theorem reversed_append (p q : Pattern) :
    (p ++ q).reversed = p.reversed ++ q.reversed := rfl

end Pattern

end CodeSweep
