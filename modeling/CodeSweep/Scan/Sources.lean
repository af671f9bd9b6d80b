/-
# Scanning sources

A source is a file that has been read.  Sources are scanned independently of each other under one
configuration; a scan that is called off leaves out the sources it has not started.  The summary
tells how many sources were scanned and lists their findings in the order of the sources.
-/
import CodeSweep.Config.Basic
import CodeSweep.Scan.Text

namespace CodeSweep

/-! ## Summaries -/

/-- The result of a scan. -/
structure Summary where
  filesScanned : Nat
  filesCancelled : Nat
  findings : List Finding
  deriving DecidableEq, Repr

namespace Summary

/-- The number of findings of the severity. -/
def count (s : Summary) (severity : Severity) : Nat :=
  (s.findings.filter (·.severity == severity)).length

/-- The summary of what became of each source: its findings, or nothing if it was left out. -/
def ofOutcomes (outcomes : List (Option (List Finding))) : Summary :=
  { filesScanned := (outcomes.filter (·.isSome)).length
    filesCancelled := (outcomes.filter (·.isNone)).length
    findings := outcomes.flatMap (·.getD []) }

end Summary

/-! ## The scan -/

/-- A file that has been read. -/
structure Source where
  path : String
  text : List Char
  deriving DecidableEq, Repr

namespace Scan

/-- The finding with the severity that the configuration gives it. -/
def regrade (cfg : Config) (f : Finding) : Finding :=
  { f with severity := cfg.severityOf f.rule f.severity }

/-- The findings in a source that the configuration asks for. -/
def scanSource (reg : Registry) (cfg : Config) (source : Source) :
    Except GlobError (List Finding) := do
  let language := Language.classify source.path (some source.text)
  if cfg.languages.contains language then
    let found ← scanText reg cfg.disable (some language.name) source.path source.text
    return (found.map (regrade cfg)).filter (·.severity.meets cfg.minSeverity)
  else return []

/-- What becomes of a source, which is left out if the scan has been called off. -/
def outcome (reg : Registry) (cfg : Config) (calledOff : Bool) (source : Source) :
    Except GlobError (Option (List Finding)) :=
  if calledOff then .ok none else (scanSource reg cfg source).map some

/-- The summary of a scan.  `calledOff n` says whether the scan has been called off when source
number `n` is about to be started. -/
def scanSources (reg : Registry) (cfg : Config) (calledOff : Nat → Bool) (sources : List Source) :
    Except GlobError Summary := do
  let outcomes ← sources.zipIdx.mapM fun s => outcome reg cfg (calledOff s.2) s.1
  return .ofOutcomes outcomes

end Scan

end CodeSweep
