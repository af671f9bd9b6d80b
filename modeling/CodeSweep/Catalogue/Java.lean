/-
# Rules for Java

Printing, unfinished work, swallowed exceptions and silenced warnings.
-/
import CodeSweep.Catalogue.Basic

namespace CodeSweep.Catalogue

open Pattern

namespace Java

/-! ## Paths left alone -/

/-- The globs of test files. -/
def tests : List String := Language.testGlobsOf [.java]

/-! ## Words -/

/-- Words that mark unfinished work. -/
def incomplete : Pattern := anyOf ["TODO", "FIXME", "HACK", "XXX", notImplemented] ++ wordEdge

/-- The head of an exception handler. -/
def catchHead : Pattern :=
  hit (wordEdge ++ "catch" ++ callOpen ++ upTo maxSpan (.outside (chars ")\n")) ++ ")")

/-! ## The rules -/

/-- The rules for Java. -/
def rules : List Rule := [
  { name := "placeholder_unsupported_java"
    target := .only .java
    detector :=
      .exact (hit (wordEdge ++ "throw" ++ gap1 ++ "new" ++ gap1 ++
          "UnsupportedOperationException") ++ callOpen)
    severity := .high
    description := "UnsupportedOperationException thrown as a stand-in for an implementation."
    exclude := tests },
  { name := "java_sysout_debugging"
    target := .only .java
    detector :=
      .exact (slashCode ++
        hit (wordEdge ++ "System." ++ anyWord ["out", "err"] ++ ".print" ++
          optional (anyWord ["ln", "f"]) ++ callOpen))
    severity := .medium
    description := "System.out/System.err printing instead of a logger."
    exclude := Language.dedupe (tests ++ examples)
    fix := some .removeLine },
  { name := "java_stacktrace_debugging"
    target := .only .java
    detector := .exact (hit (".printStackTrace" ++ callOpen ++ gap ++ ")"))
    severity := .medium
    description := "printStackTrace() writes to stderr and bypasses logging."
    exclude := tests
    fix := some .removeLine },
  { name := "java_throw_todo"
    target := .only .java
    detector :=
      .caseless (hit (wordEdge ++ "throw" ++ gap1 ++ "new" ++ gap1 ++
          anyWord ["Runtime", "IllegalState", "IllegalArgument"] ++ "Exception") ++ callOpen ++
        gap ++ "\"" ++ within inString ++ wordEdge ++ incomplete)
    severity := .high
    description := "Exception message admits the code path is unfinished."
    exclude := tests },
  { name := "java_return_null_todo"
    target := .only .java
    detector :=
      .caseless (hit (wordEdge ++ "return" ++ gap1 ++ "null" ++ gap ++ ";") ++ gap ++ "//" ++
        within .inLine ++ wordEdge ++ anyOf [incomplete, "placeholder", "stub"])
    severity := .medium
    description := "`return null` marked as a placeholder."
    exclude := tests },
  { name := "java_empty_catch"
    target := .only .java
    detector := .exact (catchHead ++ emptyBraces)
    severity := .high
    description := "Empty catch block swallows the exception."
    exclude := tests },
  { name := "java_catch_ignore"
    target := .only .java
    detector :=
      .caseless (catchHead ++ gap ++ "\x7b" ++ gap ++ "//" ++ gap ++
        anyOf ["ignore" ++ maybeChar 'd', "suppress" ++ optional "ed",
          "no" ++ maybeChar '-' ++ "op", "intentional" ++ optional "ly",
          "nothing" ++ gap1 ++ "to" ++ gap1 ++ "do"] ++ wordEdge)
    severity := .medium
    description := "catch block opens with a comment saying the exception is ignored."
    exclude := tests },
  { name := "java_suppress_warnings"
    target := .only .java
    detector :=
      .exact (lineStart ++ gap ++ hit "@SuppressWarnings" ++ callOpen ++ gap ++
        optional ("value" ++ gap ++ "=" ++ gap) ++ maybeChar '{' ++ gap ++ "\"" ++
        notAhead "serial\"")
    severity := .low
    description := "@SuppressWarnings hides compiler diagnostics."
    exclude := tests },
  { name := "java_raw_type"
    target := .only .java
    detector :=
      .exact (lineStart ++ gap ++
        repeated (anyWord ["private", "protected", "public", "static", "final"] ++ gap1) ++
        hit (anyWord ["List", "ArrayList", "LinkedList", "Map", "HashMap", "TreeMap", "Set",
          "HashSet", "TreeSet", "Collection", "Iterator", "Iterable", "Queue", "Deque"]) ++
        gap1 ++ one (.inside (between 'a' 'z' ++ chars "_")) ++ many wordChar ++ gap ++
        oneOf "=;")
    severity := .low
    description := "Raw collection type without generic parameters."
    exclude := tests },
  { name := "java_wildcard_catch"
    target := .only .java
    detector :=
      .exact (hit (wordEdge ++ "catch" ++ callOpen ++ gap ++ optional ("final" ++ gap1) ++
        optional "java.lang." ++ anyWord ["Exception", "Throwable", "Error"] ++ gap1 ++
        some1 wordChar ++ gap ++ ")"))
    severity := .medium
    description := "Catching Exception/Throwable/Error hides unrelated failures."
    exclude := tests
    suppressedBy := ["java_empty_catch", "java_catch_ignore"] }]

end Java

end CodeSweep.Catalogue
