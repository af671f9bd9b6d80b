/-
# Rules for Python

Debugger hooks, placeholder bodies, silenced exceptions and risky calls.
-/
import CodeSweep.Catalogue.Basic

namespace CodeSweep.Catalogue

open Pattern

namespace Python

/-! ## Paths left alone -/

/-- The globs of test files. -/
def tests : List String := Language.testGlobsOf [.python]

/-- The globs of entry points. -/
def entryPoints : List String := Language.python.profile.entryPoints

/-! ## Words -/

/-- The head of a function definition, with at most one level of brackets among its parameters. -/
def definitionHead : Pattern :=
  lineStart ++ gap ++ hit (optional ("async" ++ gap1) ++ "def" ++ gap1 ++ some1 wordChar) ++
    callOpen ++
    repeatedUpTo 300 (anyOf [one (.outside (chars "()")),
      "(" ++ upTo 100 (.outside (chars "()\n")) ++ ")"]) ++ ")" ++ gap ++
    optional ("->" ++ gap ++ count 1 100 (.outside (chars ":\n"))) ++ ":"

/-- What may come between a head and a body of one statement. -/
def bodyStart : Pattern :=
  gap ++ optional ("#" ++ many .inLine ++ ahead "\n" true) ++ optional ("\n" ++ gap1)

/-- What may come after a body of one statement. -/
def bodyEnd : Pattern := gap ++ optional ("#" ++ many .inLine) ++ lineEnd

/-! ## The rules -/

/-- The rules for Python. -/
def rules : List Rule := [
  { name := "python_debugging"
    target := .only .python
    detector :=
      .exact (hashCode ++
        hit (anyOf [unqualified ++ "breakpoint" ++ callOpen ++ gap ++ ")",
          wordEdge ++ anyOf [maybeChar 'i' ++ "pdb", "pudb"] ++ ".set_trace" ++ callOpen,
          unqualified ++ "import" ++ gap1 ++ anyOf [maybeChar 'i' ++ "pdb", "pudb"] ++ wordEdge,
          unqualified ++ "from" ++ gap1 ++ anyOf [maybeChar 'i' ++ "pdb", "pudb"] ++ gap1 ++
            "import" ++ wordEdge]))
    severity := .high
    description := "Debugger hook (pdb/ipdb/breakpoint) left in source."
    exclude := tests
    fix := some .removeLine },
  { name := "placeholder_not_implemented_py"
    target := .only .python
    detector :=
      .exact (lineStart ++ gap ++ hit ("raise" ++ gap1 ++ "NotImplementedError") ++ wordEdge)
    severity := .high
    description := "Function raises NotImplementedError instead of doing its job."
    exclude := tests },
  { name := "placeholder_pass_only_py"
    target := .only .python
    detector := .exact (definitionHead ++ bodyStart ++ "pass" ++ bodyEnd)
    severity := .high
    description := "Function body is only `pass`."
    exclude := tests
    scope := .text },
  { name := "placeholder_ellipsis_py"
    target := .only .python
    detector := .exact (definitionHead ++ bodyStart ++ "..." ++ bodyEnd)
    severity := .medium
    description := "Function body is only `...` outside a stub file."
    exclude := Language.dedupe (tests ++ ["*.pyi"])
    scope := .text },
  { name := "empty_except_py"
    target := .only .python
    detector :=
      .exact (lineStart ++ gap ++
        hit ("except" ++ wordEdge ++ upTo maxSpan (.outside (chars ":\n"))) ++ ":" ++ bodyStart ++
        "pass" ++ bodyEnd)
    severity := .high
    description := "Exception handler silently discards the error with `pass`."
    exclude := tests
    scope := .text },
  { name := "mutable_globals_py"
    target := .only .python
    detector :=
      .exact (lineStart ++
        hit (capital ++ many (.inside (between 'A' 'Z' ++ between '0' '9' ++ chars "_"))) ++
        gap ++ optional (":" ++ count 1 100 (.outside (chars "=\n"))) ++ "=" ++ gap ++
        anyOf ["[" ++ gap ++ "]", "list" ++ callOpen ++ gap ++ ")"] ++ bodyEnd)
    severity := .medium
    description := "Module-level constant-style name bound to an empty mutable list."
    exclude := Language.dedupe (tests ++
      ["constants.py", "settings.py", "config.py", "defaults.py"]) },
  { name := "python_bare_except"
    target := .only .python
    detector := .exact (lineStart ++ group "indent" gap ++ hit "except" ++ gap ++ ":")
    severity := .medium
    description := "Bare `except:` also catches SystemExit and KeyboardInterrupt."
    exclude := tests
    fix := some (.replaceBy "\\g<indent>except Exception:")
    suppressedBy := ["empty_except_py"] },
  { name := "python_eval_exec"
    target := .only .python
    detector := .exact (hashCode ++ hit (unqualified ++ anyWord ["eval", "exec"] ++ callOpen))
    severity := .high
    description := "Dynamic code execution with eval()/exec()."
    exclude := tests },
  { name := "python_os_system"
    target := .only .python
    detector :=
      .exact (hashCode ++ hit (wordEdge ++ "os." ++ anyWord ["system", "popen"] ++ callOpen))
    severity := .high
    description :=
      "Shell command run through os.system(); prefer subprocess with an argument list."
    exclude := tests },
  { name := "python_chmod_777"
    target := .only .python
    detector :=
      .exact (hit (wordEdge ++ "os.chmod" ++ callOpen) ++ within .inLine ++ "," ++ gap ++ "0" ++
        maybeChar 'o' ++ "777" ++ wordEdge)
    severity := .high
    description := "World-writable permissions (0o777)."
    exclude := tests },
  { name := "python_hardcoded_path"
    target := .only .python
    detector :=
      .exact (hashCode ++
        hit (quote ++ anyWord ["/home", "/Users"] ++ "/" ++
          some1 (.inside (letters ++ between '0' '9' ++ chars "_.-"))))
    severity := .medium
    description := "Hardcoded path into a user's home directory."
    exclude := tests },
  { name := "python_logging_debug"
    target := .only .python
    detector :=
      .exact (hit (wordEdge ++ "logging.basicConfig" ++ callOpen) ++ within .inLine ++ wordEdge ++
        "level" ++ gap ++ "=" ++ gap ++
        anyOf ["logging.DEBUG" ++ wordEdge, quote ++ "DEBUG" ++ quote, "10" ++ wordEdge])
    severity := .low
    description := "Root logger configured at DEBUG level."
    exclude := Language.dedupe (tests ++ entryPoints) },
  { name := "python_os_environ_debug"
    target := .only .python
    detector :=
      .exact (hit (wordEdge ++ "print" ++ callOpen ++ gap ++ anyWord ["os.environ", "sys.argv"] ++
        gap ++ oneOf "),"))
    severity := .high
    description := "Printing the whole environment or argv can leak secrets."
    exclude := tests },
  { name := "python_shell_injection"
    target := .only .python
    detector :=
      .exact (hit (wordEdge ++ "subprocess." ++
          anyWord ["call", "run", "Popen", "check_call", "check_output"] ++ callOpen) ++
        fewest 0 300 .inLine ++ wordEdge ++ "shell" ++ gap ++ "=" ++ gap ++ "True" ++ wordEdge)
    severity := .high
    description := "subprocess call with shell=True is open to shell injection."
    exclude := tests
    knownLimitation := some "Only detects `shell=True` on the same line as the call." }]

end Python

end CodeSweep.Catalogue
