/-
# Rules for every language

Credentials, placeholders and hidden diagnostics, wherever they stand.
-/
import CodeSweep.Catalogue.Basic

namespace CodeSweep.Catalogue

open Pattern

namespace Universal

/-! ## Paths left alone -/

/-- The globs of test files in any language. -/
def tests : List String := Language.allTestGlobs

/-! ## Words -/

/-- The names under which credentials are kept. -/
def secretName : Pattern :=
  anyOf ["api" ++ maybe (.inside (chars "_-")) ++ "key",
    "secret" ++ optional (maybe (.inside (chars "_-")) ++ "key"),
    "client" ++ maybe (.inside (chars "_-")) ++ "secret", "password", "passwd",
    "auth" ++ maybe (.inside (chars "_-")) ++ "token",
    "access" ++ maybe (.inside (chars "_-")) ++ "token",
    "private" ++ maybe (.inside (chars "_-")) ++ "key"]

/-! ## The rules -/

/-- The rules for files of every language. -/
def rules : List Rule := [
  { name := "hardcoded_secrets"
    target := .universal
    detector :=
      .caseless (hit (wordEdge ++ secretName ++ wordEdge) ++ maybe (.inside (chars "\"'")) ++
        gap ++ anyOf [":=", "=>", oneOf ":="] ++ gap ++ quote ++
        atLeast 8 (.outside (chars "\"'" ++ blankChars)) ++ quote)
    severity := .critical
    description := "Credential literal assigned in source."
    exclude := Language.dedupe (tests ++ examples ++ ["*.example", "*.sample"]) },
  { name := "placeholder_text"
    target := .universal
    detector :=
      .caseless (hit (anyOf [wordEdge ++ "lorem" ++ gap1 ++ "ipsum" ++ wordEdge,
        wordEdge ++ "your" ++ oneOf "_-" ++
          anyOf ["api" ++ maybe (.inside (chars "_-")) ++ "key", "token", "password", "secret"] ++
          oneOf "_-" ++ "here" ++ wordEdge,
        wordEdge ++ "replace" ++ maybe (.inside (chars "_-")) ++ "me" ++ wordEdge,
        wordEdge ++ "changeme" ++ wordEdge]))
    severity := .low
    description := "Placeholder text left where a real value belongs."
    exclude := Language.dedupe (tests ++ examples ++ ["*.example", "*.sample"]) },
  { name := "temporary_hack_comment"
    target := .universal
    detector :=
      .exact (anyWord ["#", "//", "/*"] ++ gap ++
        hit (ignoreCase (anyWord ["HACK", "XXX", "KLUDGE"])) ++ wordEdge)
    severity := .low
    description := "Comment admits a temporary hack."
    exclude := tests },
  { name := "lint_suppression"
    target := .universal
    detector :=
      .exact (hit (anyOf [wordEdge ++ "eslint-disable" ++
          optional (anyWord ["-next-line", "-line"]) ++ wordEdge,
        "#" ++ gap ++ "noqa" ++ wordEdge, "#" ++ gap ++ "type:" ++ gap ++ "ignore" ++ wordEdge,
        "//" ++ gap ++ "nolint" ++ wordEdge, "#" ++ maybeChar '!' ++ "[allow("]))
    severity := .low
    description := "Inline lint suppression hides a diagnostic."
    exclude := tests }]

end Universal

end CodeSweep.Catalogue
