/-
# Rules for Rust

Debugging macros, placeholders and calls that panic.
-/
import CodeSweep.Catalogue.Basic

namespace CodeSweep.Catalogue

open Pattern

namespace Rust

/-! ## Paths left alone -/

/-- The globs of test files. -/
def tests : List String := Language.testGlobsOf [.rust]

/-- The globs of tests, examples and benchmarks. -/
def nonProduction : List String := Language.dedupe (tests ++ examples ++ benches)

/-- The globs of tests and benchmarks. -/
def testsAndBenches : List String := Language.dedupe (tests ++ benches)

/-! ## The rules -/

/-- The rules for Rust. -/
def rules : List Rule := [
  { name := "rust_debugging"
    target := .only .rust
    detector :=
      .exact (slashCode ++
        hit (wordEdge ++ anyOf [maybeChar 'e' ++ "println", "dbg"] ++ "!" ++ callOpen))
    severity := .medium
    description := "println!/eprintln!/dbg! debug output; use the log or tracing crates."
    exclude := tests
    fix := some .removeLine },
  { name := "placeholder_todo_rust"
    target := .only .rust
    detector :=
      .exact (slashCode ++ hit (wordEdge ++ anyWord ["todo", "unimplemented"] ++ "!" ++ callOpen))
    severity := .high
    description := "todo!()/unimplemented!() placeholder panics at runtime."
    exclude := tests },
  { name := "placeholder_panic_todo_rust"
    target := .only .rust
    detector :=
      .caseless (hit (wordEdge ++ "panic!" ++ callOpen ++ gap) ++ "\"" ++ within inString ++
        wordEdge ++ anyOf ["TODO", "FIXME", notImplemented, "implement"] ++ wordEdge)
    severity := .high
    description := "panic!() used as a placeholder for unimplemented code."
    exclude := tests },
  { name := "rust_bare_unwrap"
    target := .only .rust
    detector := .exact (hit (".unwrap" ++ callOpen ++ gap ++ ")"))
    severity := .medium
    description := "unwrap() panics on None/Err; propagate with `?` or handle the case."
    exclude := nonProduction },
  { name := "rust_log_debug"
    target := .only .rust
    detector :=
      .exact (hit (unqualified ++ optional "log::" ++ anyWord ["debug", "trace"] ++ "!" ++
        callOpen))
    severity := .low
    description := "debug!/trace! logging left on a hot path."
    exclude := tests },
  { name := "rust_empty_match_arm"
    target := .only .rust
    detector :=
      .exact (hit (wordEdge ++ "Err" ++ callOpen ++ gap ++ some1 wordChar ++ gap ++ ")") ++ gap ++
        "=>" ++ gap ++ anyOf ["\x7b" ++ gap ++ "\x7d", "(" ++ gap ++ ")"])
    severity := .high
    description := "Err arm of a match discards the error."
    exclude := tests },
  { name := "rust_unnecessary_clone"
    target := .only .rust
    detector := .exact (hit (".clone" ++ callOpen ++ gap ++ ")"))
    severity := .low
    description := "clone() call; borrow instead when ownership is not needed."
    exclude := testsAndBenches },
  { name := "rust_unsafe_block"
    target := .only .rust
    detector := .exact (hit (wordEdge ++ "unsafe" ++ gap ++ "\x7b"))
    severity := .medium
    description := "unsafe block; document the invariants that make it sound."
    exclude := testsAndBenches
    knownLimitation := some "Also matches `unsafe \x7b` inside comments and strings." },
  { name := "rust_hardcoded_path"
    target := .only .rust
    detector :=
      .exact (hit (optional (wordEdge ++ "r" ++ many (.single '#')) ++ "\"/" ++
        anyWord ["home", "Users", "tmp", "etc", "usr", "var", "opt", "root", "srv", "mnt"] ++
        "/" ++ some1 (.outside (chars "\"" ++ blankChars))))
    severity := .medium
    description := "Hardcoded absolute filesystem path."
    exclude := nonProduction },
  { name := "rust_expect_production"
    target := .only .rust
    detector := .exact (hit (".expect" ++ callOpen) ++ gap ++ quote)
    severity := .low
    description := "expect() with a literal message still panics in production code."
    exclude := Language.dedupe (nonProduction ++ ["build.rs"]) }]

end Rust

end CodeSweep.Catalogue
