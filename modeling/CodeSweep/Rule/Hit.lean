/-
# Hits

Where a rule fires in a text.  A line rule is matched against each line by itself, so its first
match of a line is one hit; a text rule is matched against the whole text; a structural rule runs
its analysis.
-/
import CodeSweep.Analysis.Allocation
import CodeSweep.Analysis.Stub
import CodeSweep.Rule.Basic
import CodeSweep.Text.Line

namespace CodeSweep

/-- A place where a rule fires, and the characters there. -/
structure Hit where
  extent : Extent
  text : List Char
  deriving DecidableEq, Repr

/-! ## Analyses -/

/-- A structural analysis of a text. -/
abbrev Analysis := List Char → List Span

/-- The analyses, by the names of the rules that use them. -/
def analyses : List (String × Analysis) :=
  [("c_unchecked_malloc", Allocation.unchecked), ("c_todo_stub_function", Stub.functions)]

/-- The analysis of the name. -/
def analysisNamed? (name : String) : Option Analysis := analyses.lookup name

/-! ## Hits of a rule -/

namespace Hit

/-- Longer lines are taken for generated text and left alone by line rules. -/
def maxLineLength : Nat := 5000

/-- The stretch of a text as a hit. -/
def ofSpan (text : List Char) (s : Span) : Hit :=
  ⟨⟨.ofOffset text s.1, .ofOffset text s.2⟩, Text.slice text s⟩

/-- The hit of a pattern in the line with the given number. -/
def inLine? (p : Pattern) (number : Nat) (line : List Char) : Option Hit :=
  if maxLineLength < line.length then none
  else
    (p.search? line.toArray 0).map fun m =>
      ⟨⟨⟨number, m.shown.1 + 1⟩, ⟨number, m.shown.2 + 1⟩⟩, Text.slice line m.shown⟩

/-- The hits of a pattern in lines that are numbered from `number` on. -/
def inLines (p : Pattern) : (number : Nat) → List (List Char) → List Hit
  | _, [] => []
  | number, line :: lines => (inLine? p number line).toList ++ inLines p (number + 1) lines

/-- The hits of a pattern in a whole text. -/
def inText (p : Pattern) (text : List Char) : List Hit :=
  (p.matchesIn text.toArray).map fun m => ofSpan text m.shown

end Hit

namespace Rule

/-- The hits of an enabled rule, unless it lacks its analysis. -/
def enabledHits? (r : Rule) (text : List Char) : Option (List Hit) :=
  match r.detector with
  | .analysis => (analysisNamed? r.name).map fun a => (a text).map (Hit.ofSpan text)
  | .nothing => some []
  | .pattern p _ =>
    match r.scope with
    | .text => some (Hit.inText p text)
    | .line => some (Hit.inLines p 1 (Text.lines text))

/-- The hits of the rule in the text.  A disabled rule has none; there is no answer if the rule asks
for an analysis that does not exist. -/
def hits? (r : Rule) (text : List Char) : Option (List Hit) :=
  if r.enabled then r.enabledHits? text else some []

/-- The hits of the rule in the text. -/
def hits (r : Rule) (text : List Char) : List Hit := (r.hits? text).getD []

end Rule

end CodeSweep
