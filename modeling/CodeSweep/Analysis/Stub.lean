/-
# Stub functions

A function is a stub if its body holds nothing but a few placeholder statements and a marker such
as TODO says so.
-/
import CodeSweep.Block
import CodeSweep.Mask
import CodeSweep.Pattern.Match
import CodeSweep.Text.Line

namespace CodeSweep.Stub

open Pattern

/-! ## Patterns -/

/-- The head of a function definition, up to and including the opening brace. -/
def functionHead : Pattern :=
  lineStart ++ gap ++ one identStart ++
    fewest 0 200 (.inside (wordChars ++ chars " \t*&:")) ++ oneOf " \t*&" ++
    group "name" (one identStart ++ many wordChar) ++ gap ++
    "(" ++ upTo 400 (.outside (chars ";\x7b\x7d()")) ++ ")" ++ gap ++
    optional ("const" ++ gap) ++ maybeChar '\n' ++ gap ++ "\x7b"

/-- Words that look like the name of a function and are none. -/
def keywords : List String :=
  ["if", "else", "for", "while", "switch", "return", "sizeof", "do", "case"]

/-- A statement that does nothing of use. -/
def placeholder : Pattern :=
  anyOf
    ["return" ++ optional (gap1 ++
        optional ("(" ++ some1 (.inside (wordChars ++ chars " \t*")) ++ ")" ++ gap) ++
        anyWord ["0", "-1", "NULL", "nullptr", "false"]),
      "(void)" ++ gap ++ some1 wordChar,
      anyWord ["abort", "exit"] ++ gap ++ "(" ++ gap ++ many wordChar ++ gap ++ ")",
      "assert" ++ gap ++ "(" ++ gap ++ anyWord ["0", "false"] ++ wordEdge ++
        many (.outside (chars ";"))]

/-- An admission that the work is still to be done. -/
def marker : Pattern :=
  ignoreCase (wordEdge ++
    anyOf ["TODO", "FIXME", "XXX", "stub" ++ optional "bed", "unimplemented",
      "not" ++ gap1 ++ optional ("yet" ++ gap1) ++ "implemented"] ++
    wordEdge)

/-! ## The analysis -/

/-- The most statements a stub may have. -/
def maxStatements : Nat := 3

/-- The statements of a body, each with single spaces between its words. -/
def statements (body : List Char) : List (List Char) :=
  ((Text.splitAt (· == ';') body).map fun s => Text.joinWith [' '] (Text.words s)).filter
    (!·.isEmpty)

/-- The body holds only placeholders, and not many. -/
def isPlaceholderBody (body : List Char) : Bool :=
  !body.contains '{' && decide ((statements body).length ≤ maxStatements) &&
    (statements body).all fun s => (placeholder.fullMatchAt? s.toArray 0).isSome

/-- The name to report for a function head in the masked text, if the function is a stub. -/
def report? (text masked : List Char) (m : Match) : Option Span := do
  let name ← m.group? "name"
  if keywords.contains (String.ofList (Text.slice masked name)) then none
  else
    let start := m.stop - 1
    let stop ← Block.close? masked start '{' '}'
    if isPlaceholderBody (Text.slice masked (start + 1, stop)) &&
        (marker.search? (text.take stop).toArray (start + 1)).isSome then some name
    else none

/-- The names of the functions that are stubs. -/
def functions (text : List Char) : List Span :=
  let masked := mask .slashes text
  (functionHead.matchesIn masked.toArray).filterMap (report? text masked)

end CodeSweep.Stub
