/-
# Scanning with several workers

Several workers may share the sources of a scan.  A worker takes a source, looks whether the scan
has been called off, and if it has not, scans the source to its end.  Which source is taken next,
which of the workers comes first and when the scan is called off is told by a schedule of events.
A single worker takes the sources in their order.
-/
import CodeSweep.Scan.Sources

namespace CodeSweep.Scan

/-! ## The pool -/

/-- How far a source has come. -/
inductive Stage where
  /-- No worker has taken it. -/
  | waiting
  /-- A worker has taken it and has not yet looked whether the scan has been called off. -/
  | taken
  /-- A worker scans it. -/
  | underway
  /-- It is settled what has become of it. -/
  | settled (result : Except GlobError (Option (List Finding)))

namespace Stage

/-- No worker has taken the source. -/
def isWaiting : Stage → Bool
  | waiting => true
  | _ => false

/-- A worker is at the source. -/
def isBusy : Stage → Bool
  | taken => true
  | underway => true
  | _ => false

/-- What has become of the source, if that is settled. -/
def result? : Stage → Option (Except GlobError (Option (List Finding)))
  | settled result => some result
  | _ => none

end Stage

/-- A scan on its way. -/
structure Pool where
  /-- How many sources may be worked on at the same time. -/
  lanes : Nat
  /-- The scan has been called off. -/
  calledOff : Bool
  /-- The sources in their order, and how far each has come. -/
  tasks : List (Source × Stage)

/-- What may happen next. -/
inductive Event where
  /-- The scan is called off, which cannot be undone. -/
  | callOff
  /-- A worker takes the source of the number. -/
  | take (i : Nat)
  /-- The worker looks whether the scan has been called off. -/
  | look (i : Nat)
  /-- The worker is done with the source. -/
  | finish (i : Nat)
  deriving DecidableEq, Repr

namespace Pool

/-- How many sources may be worked on at the same time: one, unless there are several workers and
several sources. -/
def lanesFor (workers : Int) (sources : Nat) : Nat :=
  if workers ≤ 1 ∨ sources ≤ 1 then 1 else min workers.toNat sources

/-- The scan before anything happens. -/
def start (workers : Int) (sources : List Source) : Pool :=
  { lanes := lanesFor workers sources.length, calledOff := false
    tasks := sources.map fun source => (source, .waiting) }

/-- A worker is free for the source of the number, and if there is only one worker, it is the turn
of that source. -/
def isFree (p : Pool) (i : Nat) : Bool :=
  p.tasks.countP (·.2.isBusy) < p.lanes &&
    (p.lanes != 1 || (p.tasks.take i).all (!·.2.isWaiting))

/-- The scan with the source of the number at the stage. -/
def put (p : Pool) (i : Nat) (source : Source) (stage : Stage) : Pool :=
  { p with tasks := p.tasks.set i (source, stage) }

/-- The scan after an event, if that can happen. -/
def step? (reg : Registry) (cfg : Config) (p : Pool) : Event → Option Pool
  | .callOff => some { p with calledOff := true }
  | .take i =>
    match p.tasks[i]? with
    | some (source, .waiting) => if p.isFree i then some (p.put i source .taken) else none
    | _ => none
  | .look i =>
    match p.tasks[i]? with
    | some (source, .taken) =>
      some (p.put i source
        (if p.calledOff then .settled (outcome reg cfg true source) else .underway))
    | _ => none
  | .finish i =>
    match p.tasks[i]? with
    | some (source, .underway) => some (p.put i source (.settled (outcome reg cfg false source)))
    | _ => none

/-- The scan after the events of a schedule, if they can happen one after the other. -/
def run? (reg : Registry) (cfg : Config) : Pool → List Event → Option Pool
  | p, [] => some p
  | p, e :: es => (p.step? reg cfg e).bind fun q => run? reg cfg q es

/-- What has become of all sources, once that is settled. -/
def results? (p : Pool) : Option (List (Except GlobError (Option (List Finding)))) :=
  p.tasks.mapM (·.2.result?)

/-- The summary of the scan, once all is settled. -/
def summary? (p : Pool) : Option (Except GlobError Summary) :=
  p.results?.map fun results => (results.mapM id).map Summary.ofOutcomes

end Pool

end CodeSweep.Scan
