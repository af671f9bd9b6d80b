/-
# Log lines

Logs go beside the report.  How talkative the program is decides which records are shown and what
they look like.
-/
namespace CodeSweep.Log

/-- How much a record matters. -/
inductive Level where
  | debug
  | info
  | warning
  | error
  | critical
  deriving DecidableEq, Repr

namespace Level

/-- The levels, from the least important to the most. -/
def all : List Level := [debug, info, warning, error, critical]

/-- The number of the level. -/
def number : Level → Nat
  | debug => 10
  | info => 20
  | warning => 30
  | error => 40
  | critical => 50

/-- The name of the level in a line. -/
def name : Level → String
  | debug => "DEBUG"
  | info => "INFO"
  | warning => "WARNING"
  | error => "ERROR"
  | critical => "CRITICAL"

end Level

/-- How talkative the program is. -/
structure Verbosity where
  verbose : Bool := false
  quiet : Bool := false
  deriving DecidableEq, Repr

/-- The least level that is shown; being verbose wins over being quiet. -/
def Verbosity.threshold (v : Verbosity) : Level :=
  if v.verbose then .debug else if v.quiet then .warning else .info

/-- What a part of the program reports about its work. -/
structure Record where
  level : Level
  /-- The part of the program. -/
  origin : String
  text : String
  deriving DecidableEq, Repr

/-- The line that shows the record, with level and origin where the program is verbose. -/
def Record.render (v : Verbosity) (r : Record) : String :=
  if v.verbose then "slopscan [" ++ r.level.name ++ "] " ++ r.origin ++ ": " ++ r.text
  else "slopscan: " ++ r.text

/-- The line for the record, if its level is high enough. -/
def Record.line? (v : Verbosity) (r : Record) : Option String :=
  if v.threshold.number ≤ r.level.number then some (r.render v) else none

end CodeSweep.Log
