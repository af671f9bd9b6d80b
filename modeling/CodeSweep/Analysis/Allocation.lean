/-
# Unchecked allocations

The result of a memory allocation may be null.  The analysis looks at what happens to the variable
after the allocation, up to the end of the enclosing block: if the first thing that matters is a
use of the memory and not a test, a reassignment, a release or a return, the allocation is reported.
-/
import CodeSweep.Block
import CodeSweep.Mask
import CodeSweep.Pattern.Match
import CodeSweep.Text.Line

namespace CodeSweep.Allocation

open Pattern

/-! ## Patterns -/

/-- The characters after which a name is part of something longer. -/
def joined : CharSet := .inside (wordChars ++ chars ".>")

/-- The assignment of an allocated block to a variable, up to the opening bracket of the call. -/
def assignment : Pattern :=
  notAfter joined ++ group "variable" (one identStart ++ many wordChar) ++ gap ++ "=" ++ gap ++
    optional ("(" ++ count 1 80 (.outside (chars "()\n")) ++ ")" ++ gap) ++
    anyWord ["malloc", "calloc", "realloc", "strdup", "strndup"] ++ gap ++ "("

/-- The condition of a branch or a loop, up to the place where it may mention the variable. -/
def condition : Pattern :=
  wordEdge ++ anyWord ["if", "while"] ++ gap ++ "(" ++ gap ++ maybeChar '!' ++ gap ++
    many (.single '(') ++ gap

/-- A condition that the end of the text cuts off. -/
def openCondition : Pattern := condition ++ edge .lastLineEnd

/-- The variable, standing alone. -/
def mention (name : List Char) : Pattern := notAfter joined ++ ofChars name ++ wordEdge

/-- A null value. -/
def null : Pattern := anyWord ["NULL", "nullptr", "0"]

/-- Equal or not equal. -/
def comparison : Pattern := oneOf "!=" ++ "="

/-- A dereference, after the variable. -/
def dereference : Pattern := gap ++ anyWord ["->", "["]

/-- Calls that write to or read from the memory that their first argument points to. -/
def memoryCall : Pattern :=
  anyOf ["mem" ++ anyWord ["set", "cpy", "move"],
    "str" ++ anyOf [maybeChar 'n' ++ "cpy", maybeChar 'n' ++ "cat", "len"],
    maybeChar 's' ++ maybeChar 'n' ++ "printf", "fgets", "fread"]

/-- What makes it safe, or pointless, to go on with the variable. -/
def checks (name : List Char) : Pattern :=
  anyOf
    [condition ++ mention name,
      mention name ++ gap ++ comparison ++ gap ++ null ++ wordEdge,
      wordEdge ++ null ++ gap ++ comparison ++ gap ++ mention name,
      wordEdge ++ "assert" ++ gap ++ "(" ++ gap ++ maybeChar '!' ++ gap ++ mention name,
      mention name ++ gap ++ "=" ++ notAhead "=",
      wordEdge ++ "free" ++ gap ++ "(" ++ gap ++ mention name,
      wordEdge ++ "return" ++ wordEdge ++
        notAhead (many (.outside (chars ";\n")) ++ mention name ++ dereference)]

/-- What goes wrong if the variable is null. -/
def uses (name : List Char) : Pattern :=
  anyOf
    [anyOf [lineStart, oneOf "=(,;\x7b!"] ++ gap ++ "*" ++ gap ++ mention name,
      mention name ++ dereference,
      wordEdge ++ memoryCall ++ gap ++ "(" ++ gap ++ mention name]

/-- The first thing that matters: a check, or else a use. -/
def event (name : List Char) : Pattern :=
  alt (group "check" (checks name)) (group "use" (uses name))

/-! ## The analysis -/

/-- The place after the last line feed before `i`. -/
def lineStartBefore (text : List Char) (i : Nat) : Nat :=
  i - ((text.take i).reverse.takeWhile (· != '\n')).length

/-- The stretch to report for an assignment in the masked text, if there is one. -/
def report? (masked : List Char) (m : Match) : Option Span := do
  let name ← m.group? "variable"
  let before := (masked.take m.start).toArray
  if (openCondition.search? before (lineStartBefore masked m.start)).isSome then none
  else
    let callEnd ← Block.close? masked (m.stop - 1) '(' ')'
    let region := (masked.take (Block.enclosingEnd masked (callEnd + 1))).toArray
    let found ← (event (Text.slice masked name)).search? region (callEnd + 1)
    if (found.group? "use").isSome then some (name.1, callEnd + 1) else none

/-- The allocations whose result is used before it is checked. -/
def unchecked (text : List Char) : List Span :=
  let masked := mask .slashes text
  (assignment.matchesIn masked.toArray).filterMap (report? masked)

end CodeSweep.Allocation
