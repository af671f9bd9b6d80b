/-
# Suppressions

A source file may silence rules by directives in its text, usually in comments: for the whole file,
for the line of the directive, or for the line after it.  `all` stands for every rule.
-/
import CodeSweep.Pattern.Match
import CodeSweep.Text.Line

namespace CodeSweep

/-! ## Directives -/

/-- What a directive silences rules for. -/
inductive Reach where
  /-- The whole file. -/
  | file
  /-- The line of the number. -/
  | line (number : Nat)
  deriving DecidableEq, Repr

/-- A directive: the names of the silenced rules, in lower case, and where they are silenced. -/
structure Directive where
  reach : Reach
  names : List String
  deriving DecidableEq, Repr

namespace Directive

open Pattern

/-- Blanks, if any. -/
def space : Pattern := many (.inside blankChars)

/-- A hyphen or an underscore. -/
def dash : Pattern := oneOf "-_"

/-- The list of names in a directive. -/
def nameList : Pattern :=
  group "names" (some1 (.inside (between 'a' 'z' ++ between '0' '9' ++ chars "_," ++ blankChars)))

/-- A directive of the given kind. -/
def ofKind (kind : Pattern) : Pattern :=
  ignoreCase ("slop:" ++ space ++ "disable" ++ kind ++ space ++ "=" ++ space ++ nameList)

/-- A directive for the whole file. -/
def forFile : Pattern := ofKind (dash ++ "file")

/-- A directive for its own line. -/
def forLine : Pattern := ofKind empty

/-- A directive for the next line. -/
def forNextLine : Pattern := ofKind (dash ++ "next" ++ dash ++ "line")

/-- The names in a list, in lower case. -/
def namesIn (list : List Char) : List String :=
  ((Text.splitAt (fun c => c == ',' || Text.isBlank c) list).filter (!·.isEmpty)).map
    fun name => String.ofList (Text.lower name)

/-- The directive of the kind in a line, if there is one. -/
def find? (kind : Pattern) (reach : Reach) (line : List Char) : Option Directive := do
  let m ← kind.search? line.toArray 0
  let names ← m.group? "names"
  return ⟨reach, namesIn (Text.slice line names)⟩

/-- The word that every directive starts with. -/
def keyword : List Char := "slop:".toList

/-- The directives in the line of the number, at most one of each kind.  Lines without the keyword
are passed over. -/
def inLine (number : Nat) (line : List Char) : List Directive :=
  if Text.occursIn keyword (Text.lower line) then
    (find? forFile .file line).toList ++ (find? forLine (.line number) line).toList ++
      (find? forNextLine (.line (number + 1)) line).toList
  else []

/-- The directives in lines that are numbered from `number` on. -/
def inLines : (number : Nat) → List (List Char) → List Directive
  | _, [] => []
  | number, line :: lines => inLine number line ++ inLines (number + 1) lines

end Directive

/-! ## Suppressions of a file -/

/-- The directives of a file. -/
structure Suppressions where
  directives : List Directive
  deriving DecidableEq, Repr

namespace Suppressions

/-- The suppressions that the lines of a file declare. -/
def ofLines (lines : List (List Char)) : Suppressions := ⟨Directive.inLines 1 lines⟩

/-- The names silenced in the given reach. -/
def namesFor (s : Suppressions) (reach : Reach) : List String :=
  (s.directives.filter (·.reach == reach)).flatMap (·.names)

/-- The lines that directives are about, which may have no names. -/
def lineNumbers (s : Suppressions) : List Nat :=
  s.directives.filterMap fun d =>
    match d.reach with
    | .line n => some n
    | .file => none

/-- Nothing is declared: no name for the file, and no directive for a line. -/
def isEmpty (s : Suppressions) : Bool := (s.namesFor .file).isEmpty && s.lineNumbers.isEmpty

/-- The list of names silences the rule, by its name or by `all`. -/
def covers (names : List String) (rule : String) : Bool :=
  names.contains "all" || names.contains (Text.lowerString rule)

/-- The rule is silenced on the line, or, without a line, in the whole file. -/
def silences (s : Suppressions) (rule : String) (line : Option Nat) : Bool :=
  covers (s.namesFor .file) rule ||
    match line with
    | some n => covers (s.namesFor (.line n)) rule
    | none => false

end Suppressions

end CodeSweep
