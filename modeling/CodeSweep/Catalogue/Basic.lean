/-
# Words of the catalogue

Patterns and path globs that several parts of the catalogue use.
-/
import CodeSweep.Language.Profile
import CodeSweep.Rule.Basic

namespace CodeSweep

/-- Detection by a pattern that respects letter case. -/
def Detector.exact (p : Pattern) : Detector := .pattern p false

/-- Detection by a pattern without regard to letter case. -/
def Detector.caseless (p : Pattern) : Detector := .pattern p.ignoreCase true

namespace Catalogue

open Pattern

/-! ## Stretches -/

/-- The longest stretch between a word and the marker that goes with it. -/
def maxSpan : Nat := 200

/-- A short stretch of characters of the set, as few as possible. -/
def within (s : CharSet) : Pattern := fewest 0 maxSpan s

/-! ## Lines of code -/

/-- The start of a comment between or after slashes.  A star counts unless a word, a bracket or
another star follows, as in a dereference. -/
def slashComment : Pattern :=
  anyOf ["//", "/*", "*" ++ notAhead (one (.inside (wordChars ++ chars "(*")))]

/-- A place in the first part of a line that is not a comment in the style of slashes. -/
def slashCode : Pattern := lineStart ++ notAhead (gap ++ slashComment) ++ within .inLine

/-- A place in the first part of a line that is not a comment in the style of number signs. -/
def hashCode : Pattern := lineStart ++ notAhead (gap ++ "#") ++ within .inLine

/-! ## Common phrases -/

/-- A single or a double quote. -/
def quote : Pattern := oneOf "\"'"

/-- A place where a name that starts is not part of a longer or a qualified one. -/
def unqualified : Pattern := notAfter (.inside (wordChars ++ chars "."))

/-- A place where a name that starts is not part of a longer one or of a member access. -/
def notMember : Pattern := notAfter (.inside (wordChars ++ chars ".>"))

/-- A capital letter of the ASCII set. -/
def capital : Pattern := one (.inside (between 'A' 'Z'))

/-- A character inside a string between double quotes. -/
def inString : CharSet := .outside (chars "\"\n")

/-- A character inside a string between quotes of either kind. -/
def inQuotes : CharSet := .outside (chars "\"'\n")

/-- The opening bracket of a call. -/
def callOpen : Pattern := gap ++ "("

/-- Braces with nothing between them. -/
def emptyBraces : Pattern := gap ++ "\x7b" ++ gap ++ "\x7d"

/-- The words for a missing implementation. -/
def notImplemented : Pattern := "not" ++ gap1 ++ optional ("yet" ++ gap1) ++ "implemented"

/-- Words that mark unfinished work. -/
def unfinished : Pattern :=
  wordEdge ++
    anyOf ["TODO", "FIXME", notImplemented, "unimplemented", "implement" ++ gap1 ++ "me"] ++
    wordEdge

/-- A cast to a pointer type. -/
def pointerCast : Pattern :=
  "(" ++ gap ++ optional ("const" ++ gap1) ++ optional (anyWord ["unsigned", "signed"] ++ gap1) ++
    one identStart ++ many wordChar ++ gap ++ some1 (.single '*') ++ gap ++ ")"

/-- A call that prints to the console. -/
def consoleCall : Pattern :=
  hit (wordEdge ++ "console." ++ anyWord ["log", "debug", "trace", "dir", "table"]) ++ callOpen

/-- An exception handler with an empty body. -/
def emptyCatch : Pattern :=
  hit (wordEdge ++ "catch" ++ wordEdge) ++ gap ++
    optional ("(" ++ upTo 100 (.outside (chars ")\n")) ++ ")") ++ emptyBraces

/-! ## Paths -/

/-- The globs of foreign code. -/
def vendor : List String := ["**/vendor/**", "**/deps/**", "**/third_party/**"]

/-- The globs of examples. -/
def examples : List String := ["**/examples/**"]

/-- The globs of benchmarks. -/
def benches : List String := ["**/benches/**"]

end Catalogue

end CodeSweep
