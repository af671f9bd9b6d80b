/-
# Rules for Go

Debugging output, ignored errors and panics.
-/
import CodeSweep.Catalogue.Basic

namespace CodeSweep.Catalogue

open Pattern

namespace Go

/-! ## Paths left alone -/

/-- The globs of test files. -/
def tests : List String := Language.testGlobsOf [.go]

/-- The globs of entry points. -/
def entryPoints : List String := Language.go.profile.entryPoints

/-- The globs of test files and entry points. -/
def testsAndMain : List String := Language.dedupe (tests ++ entryPoints)

/-! ## The rules -/

/-- The rules for Go. -/
def rules : List Rule := [
  { name := "placeholder_panic_go"
    target := .only .go
    detector :=
      .caseless (hit (unqualified ++ "panic" ++ callOpen ++ gap) ++ "\"" ++ within inString ++
        unfinished)
    severity := .high
    description := "panic() used as a placeholder for unimplemented code."
    exclude := tests },
  { name := "go_fmt_debugging"
    target := .only .go
    detector :=
      .exact (slashCode ++
        hit (wordEdge ++ "fmt.Print" ++ optional (anyWord ["ln", "f"]) ++ callOpen))
    severity := .medium
    description := "fmt.Print* debug output outside a command entry point."
    exclude := testsAndMain
    fix := some .removeLine },
  { name := "go_log_debugging"
    target := .only .go
    detector :=
      .exact (slashCode ++
        hit (unqualified ++ "log." ++ anyWord ["Print", "Fatal", "Panic"] ++
          optional (anyWord ["ln", "f"]) ++ callOpen))
    severity := .low
    description := "Standard library log package used instead of the structured logger."
    exclude := testsAndMain },
  { name := "go_spew_debugging"
    target := .only .go
    detector :=
      .exact (slashCode ++
        hit (wordEdge ++
          anyOf ["spew." ++
              anyWord ["Dump", "Fdump", "Sdump", "Printf", "Println", "Print", "Sprintf"],
            "pp." ++ anyWord ["Println", "Printf", "Print"]] ++ callOpen))
    severity := .medium
    description := "spew/pp pretty-printer left in from a debugging session."
    exclude := tests },
  { name := "go_empty_error_check"
    target := .only .go
    detector :=
      .exact (hit (wordEdge ++ "if" ++ gap1 ++ "err" ++ gap ++ "!=" ++ gap ++ "nil" ++
        emptyBraces))
    severity := .high
    description := "Error is checked but the branch does nothing."
    exclude := tests },
  { name := "go_discarded_error"
    target := .only .go
    detector :=
      .exact (lineStart ++ gap ++ hit ("_" ++ gap ++ "=") ++ gap ++ one identStart ++
        many (.inside (wordChars ++ chars ".")) ++
        optional ("[" ++ upTo 100 (.outside (chars "]\n")) ++ "]") ++ callOpen)
    severity := .medium
    description := "Return value (usually an error) assigned to the blank identifier."
    exclude := tests },
  { name := "go_bare_os_exit"
    target := .only .go
    detector := .exact (slashCode ++ hit (wordEdge ++ "os.Exit" ++ callOpen))
    severity := .medium
    description := "os.Exit outside main skips deferred cleanup."
    exclude := testsAndMain },
  { name := "go_empty_interface_param"
    target := .only .go
    detector :=
      .exact (hit (wordEdge ++ "func" ++ wordEdge) ++ within (.outside (chars "\n\x7b")) ++ "(" ++
        within (.outside (chars ")\n")) ++ wordEdge ++ "interface" ++ emptyBraces)
    severity := .low
    description :=
      "Function parameter typed as interface\x7b\x7d; prefer a concrete type or generics."
    exclude := tests },
  { name := "go_todo_empty_func"
    target := .only .go
    detector :=
      .caseless (lineStart ++ gap ++ hit ("func" ++ wordEdge) ++
        upTo 300 (.outside (chars "\x7b\n")) ++ "\x7b" ++ gap ++ "//" ++ gap ++
        anyWord ["TODO", "FIXME", "HACK", "XXX"] ++ wordEdge)
    severity := .high
    description := "Function body starts with a TODO comment and nothing else."
    exclude := tests },
  { name := "go_unchecked_type_assertion"
    target := .only .go
    detector :=
      .exact (lineStart ++ gap ++ one identStart ++ many wordChar ++ gap ++ maybeChar ':' ++
        "=" ++ notAhead "=" ++ gap ++ fewest 1 maxSpan .inLine ++
        hit (".(" ++ gap ++ maybeChar '*' ++
          optional (one (.inside (between 'a' 'z' ++ chars "_")) ++ many wordChar ++ ".") ++
          capital ++ many wordChar ++ gap ++ ")"))
    severity := .medium
    description :=
      "Single-value type assertion panics when the dynamic type differs; use the comma-ok form."
    exclude := tests
    knownLimitation :=
      some "Assertions to builtin lower-case types (e.g. `.(string)`) are not flagged." },
  { name := "go_panic_recoverable"
    target := .only .go
    detector :=
      .exact (slashCode ++ hit (wordEdge ++ "panic" ++ callOpen ++ gap) ++
        anyOf ["fmt.Sprintf" ++ callOpen, "errors.New" ++ callOpen,
          "\"" ++ notAhead (within inString ++ ignoreCase unfinished) ++ within inString ++
            wordEdge ++
            ignoreCase (anyWord ["invalid", "unknown", "cannot", "can't", "missing", "unexpected",
              "unsupported"]) ++ wordEdge])
    severity := .medium
    description := "panic() for a recoverable condition; return an error instead."
    exclude := tests
    suppressedBy := ["placeholder_panic_go"] },
  { name := "go_error_string_capitalized"
    target := .only .go
    detector :=
      .exact (hit (wordEdge ++ anyWord ["errors.New", "fmt.Errorf"] ++ callOpen) ++ gap ++ "\"" ++
        capital ++ one (.inside (between 'a' 'z')))
    severity := .low
    description := "Error strings should not be capitalized."
    exclude := tests },
  { name := "go_defer_close_no_error"
    target := .only .go
    detector :=
      .exact (lineStart ++ gap ++
        hit ("defer" ++ gap1 ++ some1 (.inside (wordChars ++ chars ".")) ++ ".Close" ++
          callOpen ++ gap ++ ")"))
    severity := .low
    description := "Deferred Close() discards its error."
    exclude := tests },
  { name := "go_weak_random"
    target := .only .go
    detector :=
      .exact (slashCode ++
        hit (wordEdge ++ "rand.New" ++ callOpen ++ gap ++ "rand.NewSource" ++ callOpen))
    severity := .medium
    description := "math/rand source; use crypto/rand for anything security related."
    exclude := tests },
  { name := "go_unused_append"
    target := .only .go
    detector := .exact (lineStart ++ gap ++ hit ("append" ++ callOpen))
    severity := .critical
    description := "append() result is discarded, so the slice is never updated."
    exclude := tests }]

end Go

end CodeSweep.Catalogue
