/-
# Rules for shell scripts

Tracing, placeholders, ignored failures and unsafe commands.
-/
import CodeSweep.Catalogue.Basic

namespace CodeSweep.Catalogue

open Pattern

namespace Shell

/-! ## Paths left alone -/

/-- The globs of test files. -/
def tests : List String := Language.testGlobsOf [.shell]

/-! ## Words -/

/-- Commands that take file names. -/
def fileCommand : Pattern :=
  anyWord ["rm", "cp", "mv", "chmod", "chown", "cd", "mkdir", "rmdir", "ln", "touch", "cat",
    "tar"]

/-! ## The rules -/

/-- The rules for shell scripts. -/
def rules : List Rule := [
  { name := "shell_debugging"
    target := .only .shell
    detector :=
      .exact (lineStart ++ gap ++
        hit ("set" ++ gap1 ++
          anyOf ["-" ++ many (.inside letters) ++ oneOf "xv" ++ many (.inside letters),
            "-o" ++ gap1 ++ anyWord ["xtrace", "verbose"]]) ++ wordEdge)
    severity := .medium
    description := "Shell tracing (set -x / set -v) left enabled."
    exclude := tests
    fix := some .removeLine },
  { name := "shell_echo_debug"
    target := .only .shell
    detector :=
      .exact (lineStart ++ gap ++ hit "echo" ++ gap1 ++
        optional ("-" ++ some1 (.inside (chars "neE")) ++ gap1) ++
        maybe (.inside (chars "\"'")) ++
        anyOf [ignoreCase (anyWord ["DEBUG", "TRACE"]), "HERE", "XXX"] ++ wordEdge)
    severity := .low
    description := "echo debug marker left in a script."
    exclude := tests
    fix := some .removeLine },
  { name := "shell_placeholder_todo"
    target := .only .shell
    detector :=
      .caseless (lineStart ++ gap ++ hit (anyWord ["echo", "printf", ":"]) ++ gap1 ++ quote ++
        within inQuotes ++ wordEdge ++ anyOf ["TODO", "FIXME", notImplemented] ++ wordEdge)
    severity := .high
    description := "Script prints a placeholder instead of doing the work."
    exclude := tests },
  { name := "shell_error_silencing"
    target := .only .shell
    detector := .exact (hashCode ++ hit ("||" ++ gap ++ "true") ++ wordEdge)
    severity := .low
    description := "`|| true` hides every failure of the command."
    exclude := tests },
  { name := "shell_empty_trap"
    target := .only .shell
    detector :=
      .exact (hit (wordEdge ++ "trap" ++ gap1 ++ anyWord ["''", "\"\""]) ++ gap1 ++ one wordChar)
    severity := .medium
    description := "Empty trap ignores the signal entirely."
    exclude := tests },
  { name := "shell_hardcoded_path"
    target := .only .shell
    detector :=
      .exact (hashCode ++
        hit (quote ++ anyWord ["/home", "/Users"] ++ "/" ++
          some1 (.outside (chars "/\"'" ++ blankChars))))
    severity := .medium
    description := "Hardcoded path into a user's home directory."
    exclude := tests },
  { name := "shell_chmod_777"
    target := .only .shell
    detector :=
      .exact (hit (wordEdge ++ "chmod" ++ gap1 ++
          repeated ("-" ++ some1 (.inside letters) ++ gap1) ++
          anyOf [maybeChar '0' ++ "777", "a+rwx"]) ++ wordEdge)
    severity := .high
    description := "World-writable permissions."
    exclude := tests },
  { name := "shell_curl_pipe_bash"
    target := .only .shell
    detector :=
      .exact (hit (wordEdge ++ anyWord ["curl", "wget"] ++ wordEdge) ++
        upTo 300 (.outside (chars "|\n")) ++ "|" ++ gap ++ optional ("sudo" ++ gap1) ++
        optional (anyWord ["ba", "z", "da", "k"]) ++ "sh" ++ wordEdge)
    severity := .critical
    description := "Remote script piped straight into a shell."
    exclude := tests },
  { name := "shell_unquoted_variable"
    target := .only .shell
    detector :=
      .exact (lineStart ++ gap ++ fileCommand ++ wordEdge ++
        repeated (gap1 ++ "-" ++ some1 (.inside (letters ++ chars "-"))) ++ gap1 ++
        repeatedUpTo 10 (some1 (.outside (chars "\"'" ++ blankChars ++ chars "$")) ++ gap1) ++
        hit ("$" ++ maybeChar '{' ++ one identStart ++ many wordChar))
    severity := .medium
    description := "Unquoted variable passed to a file command is subject to word splitting."
    exclude := tests },
  { name := "shell_eval_usage"
    target := .only .shell
    detector :=
      .exact (hashCode ++ hit (notAfter (.inside (wordChars ++ chars ".-")) ++ "eval") ++ gap1 ++
        one (.inside [.blank false]))
    severity := .high
    description := "eval runs arbitrary strings as shell code."
    exclude := tests }]

end Shell

end CodeSweep.Catalogue
