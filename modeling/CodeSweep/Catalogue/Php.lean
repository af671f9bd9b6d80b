/-
# Rules for PHP

Debugging output, abrupt exits and hidden errors.
-/
import CodeSweep.Catalogue.Basic

namespace CodeSweep.Catalogue

open Pattern

namespace Php

/-! ## Paths left alone -/

/-- The globs of test files. -/
def tests : List String := Language.testGlobsOf [.php]

/-- The globs of entry points. -/
def entryPoints : List String := Language.php.profile.entryPoints

/-! ## The rules -/

/-- The rules for PHP. -/
def rules : List Rule := [
  { name := "php_debug_output"
    target := .only .php
    detector :=
      .exact (slashCode ++
        hit (notAfter (.inside (wordChars ++ chars ">$:")) ++
          anyWord ["var_dump", "print_r", "var_export", "dd", "dump"]) ++ callOpen)
    severity := .medium
    description := "var_dump/print_r debug output."
    exclude := tests
    fix := some .removeLine },
  { name := "php_die_exit"
    target := .only .php
    detector :=
      .exact (slashCode ++
        hit (notAfter (.inside (wordChars ++ chars ">$:")) ++ anyWord ["die", "exit"]) ++ gap ++
        optional ("(" ++ gap) ++
        anyOf ["'" ++ many (.outside (chars "'\n")) ++ "'", "\"" ++ many inString ++ "\"",
          "0" ++ wordEdge])
    severity := .low
    description := "die()/exit() with a message instead of an exception."
    exclude := Language.dedupe (tests ++ entryPoints) },
  { name := "php_eval"
    target := .only .php
    detector :=
      .exact (slashCode ++ hit (notAfter (.inside (wordChars ++ chars ">$:")) ++ "eval") ++
        callOpen)
    severity := .high
    description := "eval() runs arbitrary strings as PHP code."
    exclude := tests },
  { name := "php_error_suppression"
    target := .only .php
    detector :=
      .exact (anyOf [lineStart, oneOf "=(,;!", wordEdge ++ "return" ++ wordEdge] ++ gap ++
        hit "@" ++ gap ++ maybeChar '$' ++ one identStart ++ many wordChar ++ callOpen)
    severity := .medium
    description := "@ operator hides warnings and errors from the call."
    exclude := tests }]

end Php

end CodeSweep.Catalogue
