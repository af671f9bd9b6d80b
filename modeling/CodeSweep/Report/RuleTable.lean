/-
# The table of rules

The rules of a registry for people, as a table with borders whose columns are as wide as they need
to be.
-/
import CodeSweep.Report.Terminal

namespace CodeSweep.Report

/-! ## Cells -/

/-- A column: its heading, whether its cells are centred, and the text of a rule in it. -/
structure Column where
  heading : String
  centered : Bool := false
  cell : Rule → String

/-- The description, with the reason if the rule is disabled. -/
def describe (r : Rule) : String :=
  match r.disabledReason with
  | some reason => "(disabled: " ++ reason ++ ") " ++ r.description
  | none => r.description

/-- The columns. -/
def columns : List Column :=
  [{ heading := "Name", cell := (·.name) },
   { heading := "Language", cell := (·.target.name) },
   { heading := "Severity", cell := (·.severity.name) },
   { heading := "Fix", centered := true, cell := fun r => if r.fix.isSome then "yes" else "-" },
   { heading := "Description", cell := describe }]

/-- The width of the widest text in the column. -/
def Column.width (rules : List Rule) (c : Column) : Nat :=
  (rules.map fun r => (c.cell r).length).foldl max c.heading.length

/-- A text of the column with a blank on each side. -/
def Column.pad (rules : List Rule) (c : Column) (s : String) : String :=
  " " ++ (if c.centered then center (c.width rules) ' ' s else padRight (c.width rules) s) ++ " "

/-! ## Lines -/

/-- A line that runs through the table, with the given ends and crossings. -/
def border (rules : List Rule) (left line cross right : Char) : String :=
  left.toString ++
    cross.toString.intercalate (columns.map fun c => repeatChar (c.width rules + 2) line) ++
    right.toString

/-- A row between the given bars. -/
def row (rules : List Rule) (bar : String) (text : Column → String) : String :=
  bar ++ bar.intercalate (columns.map fun c => c.pad rules (text c)) ++ bar

/-- The width of the table. -/
def tableWidth (rules : List Rule) : Nat :=
  columns.foldl (fun n c => n + c.width rules + 3) 1

/-- The table of the rules. -/
def ruleTable (rules : List Rule) : String :=
  unlines ([center (tableWidth rules) ' ' (toolName ++ " rules"),
      border rules '┏' '━' '┳' '┓',
      row rules "┃" (·.heading),
      border rules '┡' '━' '╇' '┩'] ++
    rules.map (fun r => row rules "│" fun c => c.cell r) ++
    [border rules '└' '─' '┴' '┘'])

end CodeSweep.Report
