/-
# Rules for C

Debugging output, unsafe library calls and hard-wired addresses and paths.
-/
import CodeSweep.Catalogue.Basic

namespace CodeSweep.Catalogue

open Pattern

namespace C

/-! ## Paths left alone -/

/-- The globs of test files. -/
def tests : List String := Language.testGlobsOf [.c, .cpp]

/-- The globs of test files and foreign code. -/
def testsAndVendor : List String := Language.dedupe (tests ++ vendor)

/-! ## The rules -/

/-- The rules for C. -/
def rules : List Rule := [
  { name := "c_printf_debugging"
    target := .only .c
    detector :=
      .caseless (hit (unqualified ++
          anyOf ["printf" ++ callOpen,
            "fprintf" ++ callOpen ++ gap ++ "std" ++ anyWord ["err", "out"] ++ gap ++ ","]) ++
        gap ++ quote ++
        anyOf [within inQuotes ++ wordEdge ++ anyWord ["DEBUG", "TRACE"] ++ wordEdge,
          upTo 10 (.inside (chars " \t>*-")) ++ anyWord ["HERE", "XXX"] ++ wordEdge])
    severity := .medium
    description := "printf debugging output tagged DEBUG/TRACE/HERE."
    exclude := tests
    fix := some .removeLine },
  { name := "c_ifdef_debug_block"
    target := .only .c
    detector :=
      .exact (lineStart ++ gap ++
        hit ("#" ++ gap ++
          anyOf ["ifdef" ++ gap1 ++ maybeChar '_' ++ "DEBUG" ++ wordEdge,
            "if" ++ gap1 ++ optional ("defined" ++ gap ++ maybeChar '(' ++ gap) ++
              maybeChar '_' ++ "DEBUG" ++ wordEdge, "if" ++ gap1 ++ "0" ++ wordEdge]))
    severity := .low
    description := "Conditionally compiled debug or dead code block."
    exclude := tests },
  { name := "c_placeholder_todo"
    target := .only .c
    detector :=
      .caseless (hit (wordEdge ++ "assert" ++ callOpen) ++ gap ++ anyWord ["false", "0"] ++ gap ++
        "&&" ++ gap ++ "\"" ++ within inString ++ unfinished)
    severity := .high
    description := "assert(0 && \"not implemented\") placeholder."
    exclude := tests },
  { name := "c_pragma_warning_disable"
    target := .only .c
    detector :=
      .exact (lineStart ++ gap ++
        hit ("#" ++ gap ++ "pragma" ++ gap1 ++
          anyOf ["warning" ++ callOpen ++ gap ++ "disable",
            anyWord ["GCC", "clang"] ++ gap1 ++ "diagnostic" ++ gap1 ++ "ignored"]))
    severity := .medium
    description := "Compiler warnings disabled with a pragma."
    exclude := testsAndVendor },
  { name := "c_goto_usage"
    target := .only .c
    detector := .nothing
    severity := .low
    description := "goto usage."
    disabledReason := some "goto-based cleanup chains are idiomatic C error handling." },
  { name := "c_hardcoded_credential_path"
    target := .only .c
    detector :=
      .exact (hit (quote ++
        anyOf ["/etc/" ++ anyWord ["shadow", "gshadow", "passwd", "sudoers", "ssl/private"] ++
            wordEdge,
          within inQuotes ++ "/.ssh/" ++
            anyOf ["id_" ++ anyWord ["rsa", "dsa", "ecdsa", "ed25519"], "authorized_keys"] ++
            wordEdge]))
    severity := .critical
    description := "Path to a credential store or private key."
    exclude := tests },
  { name := "c_magic_number_cast"
    target := .only .c
    detector :=
      .exact (hit pointerCast ++ gap ++ "0" ++ oneOf "xX" ++
        atLeast 4 (.inside (between '0' '9' ++ between 'A' 'F' ++ between 'a' 'f')) ++ wordEdge)
    severity := .medium
    description := "Magic address cast to a pointer."
    exclude := tests },
  { name := "c_sprintf_usage"
    target := .only .c
    detector := .exact (hit (notMember ++ "sprintf" ++ callOpen))
    severity := .high
    description := "sprintf() has no bounds check; use snprintf()."
    exclude := testsAndVendor },
  { name := "c_strcpy_usage"
    target := .only .c
    detector := .exact (hit (notMember ++ anyWord ["strcpy", "strcat"] ++ callOpen))
    severity := .high
    description := "strcpy()/strcat() have no bounds check."
    exclude := testsAndVendor },
  { name := "c_unsafe_atoi"
    target := .only .c
    detector := .exact (hit (notMember ++ "ato" ++ anyWord ["i", "l", "ll", "f"] ++ callOpen))
    severity := .medium
    description := "atoi()-family conversions cannot report errors; use strtol()."
    exclude := testsAndVendor },
  { name := "c_hardcoded_ip"
    target := .only .c
    detector :=
      .exact (hit (quote ++ anyWord ["127.0.0.1", "0.0.0.0", "localhost"] ++
        optional (":" ++ count 1 5 (.inside digitChars)) ++ quote))
    severity := .low
    description := "Hardcoded loopback or wildcard address."
    exclude := Language.dedupe (tests ++ examples) },
  { name := "c_hardcoded_debug_path"
    target := .only .c
    detector :=
      .exact (hit (quote ++ "/tmp/" ++ one (.outside (chars "\"'" ++ blankChars ++ chars "/")) ++
        many (.outside (chars "\"'" ++ blankChars)) ++ quote))
    severity := .low
    description := "Hardcoded /tmp file, usually a debug dump."
    exclude := tests },
  { name := "c_return_avoid_warning"
    target := .only .c
    detector :=
      .caseless (hit (anyOf [wordEdge ++ "return" ++ wordEdge ++
            upTo 100 (.outside (chars ";\n")), "=" ++ upTo 100 (.outside (chars ";=\n"))]) ++
        ";" ++ gap ++ anyWord ["/*", "//"] ++ within .inLine ++ wordEdge ++
        anyOf ["avoid", "suppress", "silence", "shut" ++ gap1 ++ "up", "quiet"] ++ wordEdge ++
        fewest 0 100 .inLine ++ wordEdge ++ "warning" ++ maybeChar 's' ++ wordEdge)
    severity := .low
    description := "Statement exists only to silence a compiler warning."
    exclude := tests },
  { name := "c_debug_fprintf_conditional"
    target := .only .c
    detector :=
      .caseless (hit (wordEdge ++ "if" ++ callOpen ++ gap ++ maybeChar '!' ++ gap ++
          many wordChar ++ anyWord ["debug", "verbose", "trace"] ++ many wordChar ++ gap ++
          ")") ++ gap ++ maybeChar '{' ++ gap ++ maybeChar 'f' ++ "printf" ++ callOpen)
    severity := .low
    description := "Runtime debug flag guarding printf output."
    exclude := tests },
  { name := "c_unchecked_malloc"
    target := .only .c
    detector := .analysis
    severity := .medium
    description := "Allocation result is used before it is checked for NULL."
    exclude := tests },
  { name := "c_todo_stub_function"
    target := .only .c
    detector := .analysis
    severity := .high
    description := "Function body is only a placeholder statement and a TODO."
    exclude := tests }]

end C

end CodeSweep.Catalogue
