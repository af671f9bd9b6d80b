/-
# Reading configurations

A configuration is one table of a TOML document.  Its fields are read one after the other, and the
first complaint is reported; what is missing has a default.
-/
import CodeSweep.Config.Basic
import CodeSweep.Text.Utf8
import CodeSweep.Toml.Reader

namespace CodeSweep.Config

/-- The place of the table in the document, which complaints begin with. -/
def place : String := "tool.slopscan"

/-- The full name of a field. -/
def fieldName (field : String) : String := place ++ "." ++ field

/-- A value that is there and says something. -/
def given? : Option Value → Option Value
  | some .null => none
  | v => v

/-! ## Single fields -/

/-- The texts of a list that has nothing else. -/
def texts? : List Value → Option (List String)
  | [] => some []
  | .text s :: vs => (texts? vs).map (s :: ·)
  | _ => none

/-- A list of texts, trimmed and without those that are blank. -/
def readTexts (field : String) (v : Option Value) : Except ConfigError (List String) :=
  match given? v with
  | none => .ok []
  | some (.list vs) =>
    match texts? vs with
    | some ss => .ok ((ss.map Text.trimString).filter (· != ""))
    | none => .error (.notTextList field)
  | some _ => .error (.notTextList field)

/-- A severity. -/
def readSeverity (field : String) : Value → Except ConfigError Severity
  | .text s =>
    match Severity.ofInput? s with
    | some severity => .ok severity
    | none => .error (.notSeverity field)
  | _ => .error (.notText field)

/-- The name of a rule, whatever its letter case and the blanks around it. -/
def readRuleName (field s : String) : Except ConfigError String :=
  let name := Text.lowerString (Text.trimString s)
  if isRuleName name then .ok name else .error (.badRuleName field s)

/-! ## The parts of the table -/

/-- The languages of the names, or all of them if nothing is said. -/
def readLanguages (v : Option Value) : Except ConfigError (List Language) :=
  match given? v with
  | none => .ok Language.all
  | some v => do
    let names := (← readTexts (fieldName "languages") (some v)).map Text.lowerString
    let unknown := names.filter fun n => (Language.ofName? n).isNone
    if unknown.isEmpty then return names.filterMap Language.ofName?
    else .error (.unknownLanguages (fieldName "languages") unknown)

/-- The least severity that is reported.  The field has two spellings, of which the first wins. -/
def readMinSeverity (entries : List (String × Value)) : Except ConfigError Severity :=
  match entries.lookup "min-severity" <|> entries.lookup "min_severity" with
  | none => .ok .low
  | some v => readSeverity (fieldName "min-severity") v

/-- The number of workers, cut to the greatest one. -/
def readWorkers (v : Option Value) : Except ConfigError (Option Nat) :=
  match given? v with
  | none => .ok none
  | some (.int n) =>
    if 0 < n then .ok (some (min n.toNat mostWorkers))
    else .error (.notWorkerCount (fieldName "workers"))
  | some _ => .error (.notWorkerCount (fieldName "workers"))

/-- The overrides of a table, where a later one of the same name replaces an earlier one. -/
def readOverrideEntries (found : List (String × Severity)) :
    List (String × Value) → Except ConfigError (List (String × Severity))
  | [] => .ok found
  | (raw, v) :: es => do
    let field := fieldName ("rules.severity_overrides." ++ raw)
    let name ← readRuleName field raw
    let severity ← readSeverity field v
    readOverrideEntries (override name severity found) es

/-- The severities that replace those of rules.  The field has two spellings, of which the first
wins. -/
def readOverrides (entries : List (String × Value)) :
    Except ConfigError (List (String × Severity)) :=
  match given? (entries.lookup "severity_overrides" <|> entries.lookup "severity-overrides") with
  | none => .ok []
  | some (.table es) => readOverrideEntries [] es
  | some _ => .error (.notTable (fieldName "rules.severity_overrides"))

/-- The entries of a table within the table; nothing said counts as an empty one. -/
def readTable (field : String) (v : Option Value) : Except ConfigError (List (String × Value)) :=
  match given? v with
  | none => .ok []
  | some (.table es) => .ok es
  | some _ => .error (.notTable (fieldName field))

/-- The rules that are switched off. -/
def readDisabled (entries : List (String × Value)) : Except ConfigError (List String) := do
  let field := fieldName "rules.disable"
  (← readTexts field (entries.lookup "disable")).mapM (readRuleName field)

/-! ## The table and the document -/

/-- The configuration of a table, or the first complaint. -/
def ofEntries (entries : List (String × Value)) : Except ConfigError Config := do
  let languages ← readLanguages (entries.lookup "languages")
  let minSeverity ← readMinSeverity entries
  let workers ← readWorkers (entries.lookup "workers")
  let rules ← readTable "rules" (entries.lookup "rules")
  let disable ← readDisabled rules
  let overrides ← readOverrides rules
  let ignored ← readTable "ignore" (entries.lookup "ignore")
  let ignore ← readTexts (fieldName "ignore.paths") (ignored.lookup "paths")
  return { languages, minSeverity, workers, disable, overrides, ignore }

/-- The configuration in a document.  A document without the table has the default one. -/
def ofDocument (entries : List (String × Value)) : Except ConfigError Config :=
  match entries.lookup "tool" with
  | some (.table tools) =>
    match tools.lookup "slopscan" with
    | none => .ok {}
    | some (.table table) => ofEntries table
    | some _ => .error (.notTable place)
  | _ => .ok {}

/-- The configuration in the text of a document. -/
def ofText (text : List Char) : Except ConfigError Config :=
  match Toml.read? text with
  | some entries => ofDocument entries
  | none => .error .badSyntax

end CodeSweep.Config
