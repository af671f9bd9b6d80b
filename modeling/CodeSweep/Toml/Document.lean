/-
# TOML documents under construction

A TOML document is a tree of tables that grows statement by statement.  What may still be added to
a table depends on how it came about: one that a header declared is not declared again, one that
dotted keys made is closed when its section ends, and what is written as one value stays as it is.
-/
import CodeSweep.Value

namespace CodeSweep.Toml

/-! ## The tree -/

/-- How a table came about. -/
inductive Origin where
  /-- As the parent of a table that was declared. -/
  | implied
  /-- By dotted keys in the section of the number. -/
  | dotted (sec : Nat)
  /-- By a header. -/
  | declared
  deriving DecidableEq, Repr

/-- A node of the tree. -/
inductive Node where
  /-- Something written as one value. -/
  | value (v : Value)
  /-- A table. -/
  | table (origin : Origin) (entries : List (String × Node))
  /-- A list of tables made by headers: the earlier ones, and the last one, which is open. -/
  | tables (earlier : List (List (String × Node))) (last : List (String × Node))

/-- The entries of a table under construction. -/
abbrev Entries := List (String × Node)

/-! ## Values -/

mutual

/-- The finished node. -/
def Node.toValue : Node → Value
  | .value v => v
  | .table _ entries => .table (entriesToValue entries)
  | .tables earlier last => .list (tablesToValue earlier ++ [.table (entriesToValue last)])

/-- The finished entries. -/
def entriesToValue : List (String × Node) → List (String × Value)
  | [] => []
  | (k, n) :: es => (k, n.toValue) :: entriesToValue es

/-- The finished tables of a list. -/
def tablesToValue : List (List (String × Node)) → List Value
  | [] => []
  | es :: ts => .table (entriesToValue es) :: tablesToValue ts

end

/-! ## Growing the tree -/

/-- Changes the entry of the key, or adds one at the end. -/
def alter (key : String) (f : Option Node → Option Node) : Entries → Option Entries
  | [] => (f none).map fun n => [(key, n)]
  | (k, n) :: es =>
    if k = key then (f (some n)).map fun n' => (k, n') :: es
    else (alter key f es).map ((k, n) :: ·)

/-- Changes the table that the path leads to.  Missing tables on the way are implied; of a list of
tables the last one is meant. -/
def within (f : Entries → Option Entries) : List String → Entries → Option Entries
  | [], es => f es
  | k :: ks, es =>
    alter k
      (fun
        | none => (within f ks []).map (.table .implied)
        | some (.table origin inner) => (within f ks inner).map (.table origin)
        | some (.tables earlier last) => (within f ks last).map (.tables earlier)
        | some (.value _) => none)
      es

/-- Declares the table of the name. -/
def declareTable (name : String) : Entries → Option Entries :=
  alter name fun
    | none => some (.table .declared [])
    | some (.table .implied es) => some (.table .declared es)
    | _ => none

/-- Adds a table to the list of the name. -/
def appendTable (name : String) : Entries → Option Entries :=
  alter name fun
    | none => some (.tables [] [])
    | some (.tables earlier last) => some (.tables (earlier ++ [last]) [])
    | _ => none

/-- Adds an entry that is not there yet. -/
def addEntry (name : String) (v : Value) : Entries → Option Entries :=
  alter name fun
    | none => some (.value v)
    | some _ => none

/-- Adds the entry that a dotted key leads to, in the section of the number.  The tables on the way
must not have been declared, nor been made in an earlier section. -/
def addDotted (sec : Nat) (v : Value) : List String → Entries → Option Entries
  | [], _ => none
  | [name], es => addEntry name v es
  | k :: ks, es =>
    alter k
      (fun
        | none => (addDotted sec v ks []).map (.table (.dotted sec))
        | some (.table .implied inner) => (addDotted sec v ks inner).map (.table (.dotted sec))
        | some (.table (.dotted s) inner) =>
          if s = sec then (addDotted sec v ks inner).map (.table (.dotted sec)) else none
        | _ => none)
      es

end CodeSweep.Toml
