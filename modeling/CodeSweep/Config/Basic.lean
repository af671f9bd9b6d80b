/-
# Configurations

What a project says about its scans: the languages to look at, the least severity that is reported,
the number of workers, rules that are switched off or graded anew, and paths to ignore.  A
configuration can be written as a table of a document.
-/
import CodeSweep.Language
import CodeSweep.Severity
import CodeSweep.Value

namespace CodeSweep

/-! ## The type -/

/-- The settings of a scan. -/
structure Config where
  languages : List Language := Language.all
  minSeverity : Severity := .low
  workers : Option Nat := none
  /-- Names of the rules that are switched off. -/
  disable : List String := []
  /-- Severities that replace those of rules, by name. -/
  overrides : List (String × Severity) := []
  /-- Globs of the paths that are not looked at. -/
  ignore : List String := []
  deriving DecidableEq, Repr

namespace Config

/-- The greatest number of workers that a configuration asks for. -/
def mostWorkers : Nat := 32

/-- The severity of a finding under the rule of the name, which `severity` is by default. -/
def severityOf (cfg : Config) (rule : String) (severity : Severity) : Severity :=
  (cfg.overrides.lookup rule).getD severity

/-- The overrides with one more; an earlier one of the same name gives way and keeps its place. -/
def override (name : String) (severity : Severity) :
    List (String × Severity) → List (String × Severity)
  | [] => [(name, severity)]
  | (n, s) :: rest =>
    if n = name then (name, severity) :: rest else (n, s) :: override name severity rest

/-! ## Names of rules -/

/-- A character of a rule name after the first. -/
def isNameChar (c : Char) : Bool :=
  ('a' ≤ c && c ≤ 'z') || ('0' ≤ c && c ≤ '9') || c == '_'

/-- A small letter, then small letters, digits and underscores. -/
def isRuleName (s : String) : Bool :=
  match s.toList with
  | [] => false
  | c :: cs => ('a' ≤ c && c ≤ 'z') && cs.all isNameChar

/-! ## Writing -/

/-- A list of texts as a value. -/
def textList (ss : List String) : Value := .list (ss.map .text)

/-- The entries of the table that says what the configuration says. -/
def toEntries (cfg : Config) : List (String × Value) :=
  [("languages", textList (cfg.languages.map (·.name))),
   ("min-severity", .text cfg.minSeverity.name),
   ("workers", match cfg.workers with
     | some n => .int n
     | none => .null),
   ("rules", .table [
     ("disable", textList cfg.disable),
     ("severity_overrides", .table (cfg.overrides.map fun o => (o.1, .text o.2.name)))]),
   ("ignore", .table [("paths", textList cfg.ignore)])]

end Config

/-! ## Complaints -/

/-- Why a configuration is refused. -/
inductive ConfigError where
  /-- The document is no TOML. -/
  | badSyntax
  | notTable (field : String)
  | notTextList (field : String)
  | notText (field : String)
  | notSeverity (field : String)
  | notWorkerCount (field : String)
  | unknownLanguages (field : String) (names : List String)
  | badRuleName (field name : String)
  deriving DecidableEq, Repr

/-- The wording of a complaint. -/
def ConfigError.message : ConfigError → String
  | badSyntax => "Invalid TOML"
  | notTable f => "`" ++ f ++ "` must be a table."
  | notTextList f => "`" ++ f ++ "` must be a list of strings."
  | notText f => "`" ++ f ++ "` must be a string."
  | notSeverity f => "`" ++ f ++ "` must be one of: " ++ Severity.nameList ++ "."
  | notWorkerCount f => "`" ++ f ++ "` must be a positive integer."
  | unknownLanguages f names =>
    "`" ++ f ++ "` names unknown languages: " ++ ", ".intercalate names ++ "."
  | badRuleName f name =>
    "`" ++ f ++ "` has an invalid rule name " ++ Text.quoted name ++
      "; expected snake_case like go_discarded_error."

end CodeSweep
