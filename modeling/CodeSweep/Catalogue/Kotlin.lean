/-
# Rules for Kotlin

Printing, unfinished work, swallowed exceptions and silenced warnings.
-/
import CodeSweep.Catalogue.Basic

namespace CodeSweep.Catalogue

open Pattern

namespace Kotlin

/-! ## Paths left alone -/

/-- The globs of test files. -/
def tests : List String := Language.testGlobsOf [.kotlin]

/-- The globs of entry points. -/
def entryPoints : List String := Language.kotlin.profile.entryPoints

/-! ## The rules -/

/-- The rules for Kotlin. -/
def rules : List Rule := [
  { name := "kotlin_println_debugging"
    target := .only .kotlin
    detector := .exact (slashCode ++ hit (unqualified ++ "println" ++ callOpen))
    severity := .medium
    description := "println() debug output instead of a logger."
    exclude := Language.dedupe (tests ++ examples ++ entryPoints)
    fix := some .removeLine },
  { name := "kotlin_todo_call"
    target := .only .kotlin
    detector := .exact (hit (unqualified ++ "TODO" ++ callOpen))
    severity := .high
    description := "TODO() throws NotImplementedError at runtime."
    exclude := tests },
  { name := "kotlin_fixme_comment"
    target := .only .kotlin
    detector := .caseless (lineStart ++ gap ++ hit ("//" ++ gap ++ "FIXME") ++ wordEdge)
    severity := .low
    description := "FIXME comment marks known-broken code."
    exclude := tests },
  { name := "kotlin_empty_catch"
    target := .only .kotlin
    detector :=
      .exact (hit (wordEdge ++ "catch" ++ callOpen ++ gap ++ some1 wordChar ++ gap ++ ":" ++
          gap ++ some1 (.inside (wordChars ++ chars ".")) ++ gap ++ ")") ++ emptyBraces)
    severity := .high
    description := "Empty catch block swallows the exception."
    exclude := tests },
  { name := "kotlin_swallowed_error"
    target := .only .kotlin
    detector :=
      .exact (hit (wordEdge ++ "runCatching") ++ gap ++ "\x7b" ++
        upTo maxSpan (.outside (chars "\x7b\x7d\n")) ++ "\x7d" ++ gap ++ ".getOrNull" ++
        callOpen ++ gap ++ ")")
    severity := .medium
    description := "runCatching \x7b \x7d.getOrNull() turns every failure into null."
    exclude := tests },
  { name := "kotlin_suppress_annotation"
    target := .only .kotlin
    detector :=
      .exact (lineStart ++ gap ++ hit ("@" ++ optional "file:" ++ "Suppress") ++ callOpen ++
        gap ++ "\"")
    severity := .low
    description := "@Suppress hides compiler or lint diagnostics."
    exclude := tests }]

end Kotlin

end CodeSweep.Catalogue
