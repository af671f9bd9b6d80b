/-
# The command line

The commands scan paths, list the rules and classify files.  A run has an exit code and an output;
what is not understood ends it with code 2 and without output.
-/
import CodeSweep.CommandLine.Options
import CodeSweep.Log
import CodeSweep.Project
import CodeSweep.Report.RuleTable
import CodeSweep.Text.Numeral

namespace CodeSweep.CommandLine

/-! ## Results -/

/-- A failure that no command foresees. -/
inductive Failure where
  /-- The scan cannot be done. -/
  | project (e : ProjectError)
  /-- A language was asked for by a blank name. -/
  | blankLanguage
  deriving DecidableEq, Repr

/-- The wording of a failure. -/
def Failure.message : Failure → String
  | project e => e.message
  | blankLanguage => "The name of a language is blank."

/-- Why a command ends early. -/
inductive Stop where
  /-- It is used in a wrong way. -/
  | misuse (message : String)
  /-- It fails. -/
  | failure (f : Failure)
  deriving DecidableEq, Repr

/-- What a run leaves behind. -/
structure Outcome where
  exitCode : Nat := 0
  output : String := ""
  /-- What is said beside the output. -/
  remarks : List String := []
  failure : Option Failure := none
  deriving DecidableEq, Repr

/-- The result of a command. -/
abbrev Result := Except Stop

/-- The complaint that a command is used in a wrong way. -/
def misuse {α : Type} (message : String) : Result α := .error (.misuse message)

/-! ## Values of options -/

/-- What the output looks like. -/
inductive Format where
  | terminal
  | json
  deriving DecidableEq, Repr

/-- The format of the name, whatever its letter case and the blanks around it. -/
def readFormat (s : String) : Result Format :=
  match Text.lowerString (Text.trimString s) with
  | "terminal" => .ok .terminal
  | "json" => .ok .json
  | _ => misuse "Unsupported format. Use: terminal, json."

/-- The severity that the option asks for. -/
def readSeverity (option s : String) : Result Severity :=
  match Severity.ofInput? s with
  | some severity => .ok severity
  | none => misuse (option ++ " must be one of: " ++ Severity.nameList ++ ".")

/-- The languages of the names that are not blank. -/
def readLanguages (names : List String) : Result (List Language) :=
  let names := (names.map fun n => Text.lowerString (Text.trimString n)).filter (· != "")
  let unknown := names.filter fun n => (Language.ofName? n).isNone
  if unknown.isEmpty then .ok (names.filterMap Language.ofName?)
  else misuse ("Unknown language(s): " ++ ", ".intercalate unknown ++ ".")

/-- The number of workers, at least one. -/
def readWorkers (s : String) : Result Int :=
  match Text.readWhole? s.toList with
  | some n => if 1 ≤ n then .ok n else misuse "--workers must be at least 1."
  | none => misuse "--workers must be an integer."

/-- The value of an option, read if the option was given. -/
def readOptional {α : Type} (read : String → Result α) : Option String → Result (Option α)
  | some s => (read s).map some
  | none => .ok none

/-! ## Scanning -/

/-- The option that asks for help. -/
def helpSwitch : Switch := { name := "--help" }

/-- The options of the scan. -/
def scanSwitches : List Switch :=
  [{ name := "--format", takesValue := true }, { name := "--min-severity", takesValue := true },
   { name := "--language", short := some 'l', takesValue := true },
   { name := "--fail-on", takesValue := true }, { name := "--workers", takesValue := true },
   helpSwitch]

/-- The route to something that there is. -/
def existing (w : Workspace) (path : String) : Result Route :=
  let route := w.resolve path
  if w.top.has route then .ok route else misuse ("Path " ++ Text.quoted path ++ " does not exist.")

/-- The configuration of the first path's project, changed as the options say. -/
def scanConfig (w : Workspace) (a : Arguments) (first : Route) : Result Config := do
  let config ← match Project.target w.top first with
    | .ok t => .ok t.config
    | .error (.config e) => misuse ("Invalid configuration: " ++ e.message)
    | .error e => .error (.failure (.project e))
  let minSeverity ← readOptional (readSeverity "--min-severity") (a.value? "--min-severity")
  let languages ←
    if a.has "--language" then (readLanguages (a.valuesOf "--language")).map some else .ok none
  return { config with
    minSeverity := minSeverity.getD config.minSeverity
    languages := languages.getD config.languages }

/-- The report of a scan.  A quiet run without findings has nothing to say to people. -/
def scanReport (width : Nat) (quiet : Bool) (format : Format) (s : Summary) : String :=
  match format with
  | .json => Report.json s ++ "\n"
  | .terminal => if quiet && s.findings.isEmpty then "" else Report.terminal width s

/-- Scans the paths, or the folder the command is run in. -/
def scan (w : Workspace) (width : Nat) (v : Log.Verbosity) (a : Arguments) : Result Outcome := do
  let paths ← a.plain.mapM (existing w)
  let _ ← readOptional readWorkers (a.value? "--workers")
  let format ← readFormat ((a.value? "--format").getD "terminal")
  let config ← scanConfig w a (paths.headD w.here)
  let failOn ← readOptional (readSeverity "--fail-on") (a.value? "--fail-on")
  let paths := if paths.isEmpty then [w.here] else paths
  let summary ← (Project.scan .builtin w.top (some config) paths).mapError fun e =>
    .failure (.project e)
  let remark : Log.Record :=
    { level := .debug, origin := toolName
      text := "Scanned " ++ toString summary.filesScanned ++ " files, " ++
        toString summary.findings.length ++ " findings" }
  let failed := summary.findings.any fun f => failOn.any f.severity.meets
  return {
    exitCode := if failed then 1 else 0
    output := scanReport width v.quiet format summary
    remarks := (remark.line? v).toList }

/-! ## Listing rules -/

/-- The options of the list of rules. -/
def rulesSwitches : List Switch :=
  [{ name := "--language", short := some 'l', takesValue := true },
   { name := "--format", takesValue := true }, helpSwitch]

/-- Comes before or together with the other one in the list: by language, then by name. -/
def listedBefore (a b : Rule) : Bool :=
  if a.target.name ≠ b.target.name then decide (a.target.name < b.target.name)
  else decide (a.name ≤ b.name)

/-- The rules that apply to the language, or all of them. -/
def selectRules (language : Option String) : Result (List Rule) :=
  match language with
  | none => .ok Registry.builtin.rules
  | some name => do
    match ← readLanguages [name] with
    | l :: _ => .ok (Registry.builtin.rulesFor l.name)
    | [] => .error (.failure .blankLanguage)

/-- Lists the rules. -/
def listRules (a : Arguments) : Result Outcome := do
  if !a.plain.isEmpty then misuse "Got unexpected extra arguments."
  let format ← readFormat ((a.value? "--format").getD "terminal")
  let rules := (← selectRules (a.value? "--language")).mergeSort listedBefore
  match format with
  | .json => return { output := Report.rulesJson rules ++ "\n" }
  | .terminal => return { output := Report.ruleTable rules }

/-! ## Classifying files -/

/-- The octets of a file that there is. -/
def existingFile (w : Workspace) (path : String) : Result (String × List UInt8) :=
  match (w.follow? path).bind w.top.get? with
  | some (.file octets) => .ok (Path.clean path, octets)
  | some (.folder _) => misuse ("File " ++ Text.quoted path ++ " is a directory.")
  | none => misuse ("File " ++ Text.quoted path ++ " does not exist.")

/-- The line of a file: its path, its language and whether it is a test. -/
def classifyLine (path : String) (octets : List UInt8) : Result String := do
  let language := Language.classify path (some (Project.textOf octets))
  let isTest ← (language.isTestFile path).mapError fun e => .failure (.project (.glob e))
  return path ++ "\t" ++ language.name ++ "\t" ++ (if isTest then "test" else "source")

/-- Classifies the files. -/
def classify (w : Workspace) (a : Arguments) : Result Outcome := do
  if a.plain.isEmpty then misuse "Missing argument 'PATHS...'."
  let files ← a.plain.mapM (existingFile w)
  let lines ← files.mapM fun f => classifyLine f.1 f.2
  return { output := Report.unlines lines }

/-! ## The program -/

/-- The options before the command. -/
def programSwitches : List Switch :=
  [{ name := "--version" }, { name := "--verbose", short := some 'v' },
   { name := "--quiet", short := some 'q' }, helpSwitch]

/-- What the program says about its use. -/
def help : String :=
  Report.unlines [
    "Usage: " ++ toolName ++ " [--version] [-v | -q] COMMAND [ARGS]...",
    "",
    "  scan [--format F] [--min-severity S] [-l LANGUAGE]... [--fail-on S] [--workers N]" ++
      " [PATHS]...",
    "  rules [-l LANGUAGE] [--format F]",
    "  classify PATHS..."]

/-- The options of the command of the name. -/
def switchesOf? : String → Option (List Switch)
  | "scan" => some scanSwitches
  | "rules" => some rulesSwitches
  | "classify" => some [helpSwitch]
  | _ => none

/-- Runs the command of the name, which may be asked for help instead. -/
def command (w : Workspace) (width : Nat) (v : Log.Verbosity) (name : String)
    (args : List String) : Result Outcome :=
  match switchesOf? name with
  | none => misuse ("No such command " ++ Text.quoted name ++ ".")
  | some switches =>
    match readArguments switches true args with
    | none => misuse "No such option, or an option without its value."
    | some a =>
      if a.has "--help" then .ok { output := help }
      else
        match name with
        | "scan" => scan w width v a
        | "rules" => listRules a
        | _ => classify w a

/-- Runs the program on its arguments; asking for the version or for help wins over all else. -/
def start (w : Workspace) (width : Nat) (args : List String) : Result Outcome := do
  match readArguments programSwitches false args with
  | none => misuse "No such option."
  | some a =>
    match a.options.find? fun o => o.1 == "--version" || o.1 == "--help" with
    | some ("--version", _) => return { output := toolVersion ++ "\n" }
    | some _ => return { output := help }
    | none =>
      match a.plain with
      | [] => misuse "Missing command."
      | name :: rest =>
        let v : Log.Verbosity := { verbose := a.has "--verbose", quiet := a.has "--quiet" }
        if v.verbose && v.quiet then misuse "Choose at most one: --verbose or --quiet."
        command w width v name rest

/-- What a run on the arguments leaves behind, for a terminal of the given width. -/
def run (w : Workspace) (width : Nat) (args : List String) : Outcome :=
  match start w width args with
  | .ok outcome => outcome
  | .error (.misuse message) => { exitCode := 2, remarks := [message] }
  | .error (.failure f) => { exitCode := 1, failure := some f }

/-- The paths that a run on the arguments looks at. -/
def pathsNamed (args : List String) : List String :=
  match readArguments programSwitches false args with
  | some ⟨_, name :: rest⟩ =>
    match (switchesOf? name).bind (readArguments · true rest) with
    | some a => if a.plain.isEmpty then ["."] else a.plain
    | none => []
  | _ => []

end CodeSweep.CommandLine
