/-
# Rules for Ruby

Debugging leftovers and placeholder errors.
-/
import CodeSweep.Catalogue.Basic

namespace CodeSweep.Catalogue

open Pattern

namespace Ruby

/-! ## Paths left alone -/

/-- The globs of test files. -/
def tests : List String := Language.testGlobsOf [.ruby]

/-- The globs of entry points. -/
def entryPoints : List String := Language.ruby.profile.entryPoints

/-! ## The rules -/

/-- The rules for Ruby. -/
def rules : List Rule := [
  { name := "ruby_debugger"
    target := .only .ruby
    detector :=
      .exact (hashCode ++
        hit (wordEdge ++ anyOf ["binding." ++ anyWord ["pry", "irb"], "byebug", "debugger"]) ++
        wordEdge)
    severity := .high
    description := "Interactive debugger breakpoint left in source."
    exclude := tests
    fix := some .removeLine },
  { name := "ruby_puts_debugging"
    target := .only .ruby
    detector :=
      .exact (lineStart ++ gap ++ hit (anyWord ["puts", "pp", "p"]) ++
        some1 (.inside (chars " \t(")) ++ notAhead (gap ++ quote) ++ one (.inside [.blank false]))
    severity := .medium
    description := "puts/p/pp of a value, usually a debugging leftover."
    exclude := Language.dedupe (tests ++ entryPoints) },
  { name := "ruby_raise_not_implemented"
    target := .only .ruby
    detector :=
      .exact (anyOf [hit (wordEdge ++ "raise" ++ some1 (.inside (chars " \t(")) ++
            "NotImplementedError") ++ wordEdge,
        wordEdge ++ "raise" ++ some1 (.inside (chars " \t(")) ++
          optional ("RuntimeError" ++ gap ++ "," ++ gap) ++ quote ++ within inQuotes ++
          ignoreCase (wordEdge ++ anyOf ["TODO", "not" ++ gap1 ++ "implemented"] ++ wordEdge)])
    severity := .high
    description := "Method raises a placeholder error instead of doing its job."
    exclude := tests },
  { name := "ruby_rescue_nil"
    target := .only .ruby
    detector := .exact (hit (wordEdge ++ "rescue" ++ gap1 ++ "nil") ++ wordEdge)
    severity := .high
    description := "`rescue nil` turns every exception into nil."
    exclude := tests }]

end Ruby

end CodeSweep.Catalogue
