/-
# Reports in JSON

The summary of a scan, and the rules of a registry, as JSON.
-/
import CodeSweep.Json.Printer
import CodeSweep.Scan.Sources

namespace CodeSweep

/-- The name of the program in reports. -/
def toolName : String := "slopscan"

/-- The version of the program in reports. -/
def toolVersion : String := "0.4.0"

namespace Report

/-! ## Parts -/

/-- A value that may be missing. -/
def orNull {α : Type} (f : α → Value) : Option α → Value
  | some a => f a
  | none => .null

/-- A number. -/
def number (n : Nat) : Value := .int n

/-- A fix. -/
def fixValue (f : Fix) : Value :=
  .table [("kind", .text f.kind), ("replacement", orNull .text f.replacement)]

/-- An extent. -/
def extentValue (e : Extent) : Value :=
  .table [("start_line", number e.start.line), ("start_col", number e.start.column),
    ("end_line", number e.stop.line), ("end_col", number e.stop.column)]

/-- A finding. -/
def findingValue (f : Finding) : Value :=
  .table [("rule", .text f.rule), ("path", .text f.path), ("language", .text f.language),
    ("severity", .text f.severity.name), ("description", .text f.description),
    ("location", extentValue f.extent), ("matched_text", .text f.text),
    ("auto_fix", .bool f.fix.isSome), ("fix", orNull fixValue f.fix)]

/-- The number of findings of each severity, from the least important on. -/
def countsValue (s : Summary) : Value :=
  .table (Severity.all.map fun v => (v.name, number (s.count v)))

/-! ## Summaries -/

/-- A summary. -/
def summaryValue (s : Summary) : Value :=
  .table [("schema_version", number 1),
    ("tool", .table [("name", .text toolName), ("version", .text toolVersion)]),
    ("files_scanned", number s.filesScanned), ("files_cancelled", number s.filesCancelled),
    ("counts", countsValue s), ("findings", .list (s.findings.map findingValue))]

/-- The report of a scan in JSON. -/
def json (s : Summary) : String := Json.render (summaryValue s)

/-! ## Rules -/

/-- A rule. -/
def ruleValue (r : Rule) : Value :=
  .table [("name", .text r.name), ("language", .text r.target.name),
    ("severity", .text r.severity.name), ("description", .text r.description),
    ("auto_fix", .bool r.fix.isSome), ("multi_pass", .bool (r.detector == .analysis)),
    ("enabled", .bool r.enabled), ("disabled_reason", orNull .text r.disabledReason),
    ("known_limitation", orNull .text r.knownLimitation),
    ("exclude", .list (r.exclude.map .text))]

/-- The list of rules in JSON. -/
def rulesJson (rules : List Rule) : String := Json.render (.list (rules.map ruleValue))

end Report

end CodeSweep
