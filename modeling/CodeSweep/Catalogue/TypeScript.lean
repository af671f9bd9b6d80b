/-
# Rules for TypeScript

Debugging leftovers, silenced compilers and swallowed exceptions.
-/
import CodeSweep.Catalogue.Basic

namespace CodeSweep.Catalogue

open Pattern

namespace TypeScript

/-! ## Paths left alone -/

/-- The globs of test files. -/
def tests : List String := Language.testGlobsOf [.typescript]

/-- The globs of entry points. -/
def entryPoints : List String := Language.typescript.profile.entryPoints

/-! ## The rules -/

/-- The rules for TypeScript. -/
def rules : List Rule := [
  { name := "ts_console_debugging"
    target := .only .typescript
    detector := .exact (slashCode ++ consoleCall)
    severity := .medium
    description := "console.log debugging left in source."
    exclude := Language.dedupe (tests ++ entryPoints)
    fix := some .removeLine },
  { name := "ts_any_type"
    target := .only .typescript
    detector :=
      .exact (slashCode ++
        hit (anyOf [wordEdge ++ "as" ++ gap1 ++ "any" ++ wordEdge,
          ":" ++ gap ++ "any" ++ wordEdge]) ++ notAhead (one (.inside (wordChars ++ chars "$"))))
    severity := .low
    description := "`any` disables type checking for the value."
    exclude := Language.dedupe (tests ++ ["*.d.ts"]) },
  { name := "ts_ts_ignore"
    target := .only .typescript
    detector := .exact (hit ("//" ++ gap ++ "@ts-" ++ anyWord ["ignore", "nocheck"]) ++ wordEdge)
    severity := .medium
    description := "@ts-ignore/@ts-nocheck silences the compiler."
    exclude := tests },
  { name := "ts_empty_catch"
    target := .only .typescript
    detector := .exact emptyCatch
    severity := .high
    description := "Empty catch block swallows the exception."
    exclude := tests }]

end TypeScript

end CodeSweep.Catalogue
