/-
# Rules for JavaScript

Debugging leftovers, placeholders and swallowed exceptions.
-/
import CodeSweep.Catalogue.Basic

namespace CodeSweep.Catalogue

open Pattern

namespace JavaScript

/-! ## Paths left alone -/

/-- The globs of test files. -/
def tests : List String := Language.testGlobsOf [.js]

/-- The globs of entry points. -/
def entryPoints : List String := Language.js.profile.entryPoints

/-! ## The rules -/

/-- The rules for JavaScript. -/
def rules : List Rule := [
  { name := "console_debugging"
    target := .only .js
    detector := .exact (slashCode ++ consoleCall)
    severity := .medium
    description := "console.log debugging left in source."
    exclude := Language.dedupe (tests ++ entryPoints)
    fix := some .removeLine },
  { name := "js_debugger_statement"
    target := .only .js
    detector :=
      .exact (lineStart ++ gap ++ hit "debugger" ++ gap ++ maybeChar ';' ++ gap ++ lineEnd)
    severity := .high
    description := "`debugger` statement pauses execution under devtools."
    exclude := tests
    fix := some .removeLine },
  { name := "placeholder_throw_js"
    target := .only .js
    detector :=
      .caseless (hit (wordEdge ++ "throw" ++ gap1 ++ "new" ++ gap1 ++ "Error") ++ callOpen ++
        gap ++ oneOf "\"'`" ++ within (.outside (chars "\"'`\n")) ++ wordEdge ++
        anyOf ["TODO", "FIXME", notImplemented, "unimplemented"] ++ wordEdge)
    severity := .high
    description := "Error thrown as a stand-in for an implementation."
    exclude := tests },
  { name := "empty_catch_js"
    target := .only .js
    detector := .exact emptyCatch
    severity := .high
    description := "Empty catch block swallows the exception."
    exclude := tests },
  { name := "js_process_exit"
    target := .only .js
    detector := .exact (slashCode ++ hit (wordEdge ++ "process.exit") ++ callOpen)
    severity := .medium
    description := "process.exit() outside a CLI entry point skips pending I/O."
    exclude := Language.dedupe (tests ++ entryPoints) }]

end JavaScript

end CodeSweep.Catalogue
