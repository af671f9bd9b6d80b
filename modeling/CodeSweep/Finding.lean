/-
# Findings

What a scan reports: which rule fired, in which file, where, and what stood there.
-/
import CodeSweep.Rule.Hit

namespace CodeSweep

/-- A hit of a rule in a file. -/
structure Finding where
  rule : String
  path : String
  language : String
  severity : Severity
  description : String
  extent : Extent
  text : String
  fix : Option Fix
  deriving DecidableEq, Repr

namespace Finding

/-- The line where the finding starts. -/
def line (f : Finding) : Nat := f.extent.start.line

/-- The column where the finding starts. -/
def column (f : Finding) : Nat := f.extent.start.column

/-- The hit of a rule in a file, as a finding. -/
def ofHit (path language : String) (r : Rule) (h : Hit) : Finding :=
  { rule := r.name, path, language, severity := r.severity, description := r.description
    extent := h.extent, text := String.ofList h.text, fix := r.fix }

/-- Comes before or together with the other one, by line, then column, then rule name. -/
def precedes (a b : Finding) : Bool :=
  if a.line ≠ b.line then decide (a.line < b.line)
  else if a.column ≠ b.column then decide (a.column < b.column)
  else decide (a.rule ≤ b.rule)

end Finding

end CodeSweep
