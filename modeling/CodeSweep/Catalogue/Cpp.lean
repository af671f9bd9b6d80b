/-
# Rules for C++

Debugging output, manual memory management and casts.
-/
import CodeSweep.Catalogue.Basic

namespace CodeSweep.Catalogue

open Pattern

namespace Cpp

/-! ## Paths left alone -/

/-- The globs of test files. -/
def tests : List String := Language.testGlobsOf [.c, .cpp]

/-- The globs of entry points. -/
def entryPoints : List String := Language.cpp.profile.entryPoints

/-! ## The rules -/

/-- The rules for C++. -/
def rules : List Rule := [
  { name := "cpp_cout_debugging"
    target := .only .cpp
    detector :=
      .exact (slashCode ++
        hit (wordEdge ++ "std::" ++ anyWord ["cout", "cerr", "clog"] ++ gap ++ "<<"))
    severity := .low
    description := "std::cout/std::cerr debug output instead of a logger."
    exclude := Language.dedupe (tests ++ examples ++ entryPoints)
    fix := some .removeLine },
  { name := "cpp_throw_not_implemented"
    target := .only .cpp
    detector :=
      .caseless (hit (wordEdge ++ "throw" ++ gap1 ++ optional "std::" ++
          anyWord ["runtime_error", "logic_error", "domain_error", "invalid_argument"]) ++
        callOpen ++ gap ++ "\"" ++ within inString ++
        anyOf [unfinished, wordEdge ++ "implement" ++ wordEdge])
    severity := .high
    description := "Exception thrown as a stand-in for an implementation."
    exclude := tests },
  { name := "cpp_empty_catch"
    target := .only .cpp
    detector :=
      .exact (hit (wordEdge ++ "catch" ++ callOpen ++ upTo maxSpan (.outside (chars ")\n")) ++
          ")") ++ emptyBraces)
    severity := .high
    description := "Empty catch block swallows the exception."
    exclude := tests },
  { name := "cpp_raw_new_delete"
    target := .only .cpp
    detector :=
      .exact (anyOf [anyOf [oneOf "=(,", wordEdge ++ "return" ++ wordEdge] ++ gap ++ hit "new" ++
          gap1 ++ one identStart ++ many (.inside (wordChars ++ chars ":")) ++
          optional ("<" ++ upTo 100 (.outside (chars ">\n")) ++ ">") ++ gap ++ oneOf "([\x7b;",
        lineStart ++ gap ++ "delete" ++ optional (gap ++ "[" ++ gap ++ "]") ++ gap1 ++
          one (.inside (letters ++ chars "_*("))])
    severity := .medium
    description := "Manual new/delete; prefer std::make_unique or containers."
    exclude := Language.dedupe (tests ++ vendor) },
  { name := "cpp_c_style_cast"
    target := .only .cpp
    detector := .exact (hit pointerCast ++ gap ++ one (.inside (letters ++ chars "_(&")))
    severity := .low
    description := "C-style pointer cast; use static_cast/reinterpret_cast."
    exclude := tests },
  { name := "cpp_fprintf_stderr"
    target := .only .cpp
    detector := .exact (hit (wordEdge ++ "fprintf" ++ callOpen ++ gap ++ "stderr" ++ gap ++ ","))
    severity := .low
    description := "fprintf(stderr, ...) debug output in C++ code."
    exclude := Language.dedupe (tests ++ examples ++ entryPoints) }]

end Cpp

end CodeSweep.Catalogue
