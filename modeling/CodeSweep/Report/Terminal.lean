/-
# Reports for the terminal

The report of a scan for people: a banner, the findings file by file, and a line of totals.  What is
printed are stretches of text in styles (`printed`); how they are laid out in lines is up to the
console (`onConsole`).
-/
import CodeSweep.Report.Json

namespace CodeSweep.Report

/-! ## Lines -/

/-- A character so many times. -/
def repeatChar (n : Nat) (c : Char) : String := String.ofList (List.replicate n c)

/-- The text with blanks after it up to the width. -/
def padRight (width : Nat) (s : String) : String := s ++ repeatChar (width - s.length) ' '

/-- The text with blanks before it up to the width. -/
def padLeft (width : Nat) (s : String) : String := repeatChar (width - s.length) ' ' ++ s

/-- The text in the middle of the width, nearer to the left if it cannot be helped. -/
def center (width : Nat) (fill : Char) (s : String) : String :=
  let spare := width - s.length
  repeatChar (spare / 2) fill ++ s ++ repeatChar (spare - spare / 2) fill

/-- The lines of a text, each with a line feed after it. -/
def unlines (lines : List String) : String := String.join (lines.map (· ++ "\n"))

/-! ## What is printed -/

/-- How a stretch of text is set off from others. -/
inductive Style where
  | plain
  | bold
  | dim
  | cyan
  | green
  | yellow
  | boldRed
  | boldMagenta
  deriving DecidableEq, Repr

/-- A stretch of text in one style. -/
structure Span where
  text : String
  style : Style
  deriving DecidableEq, Repr

/-- What a console is handed at once. -/
inductive Printed where
  /-- A box around a title, with something at its foot and a border in a style. -/
  | panel (title : List Span) (foot : String) (border : Style)
  /-- Stretches of text in a row. -/
  | text (spans : List Span)
  /-- Nothing but the end of a line. -/
  | blank
  deriving DecidableEq, Repr

/-- Name and version, and the number of files. -/
def banner (s : Summary) : Printed :=
  .panel [⟨toolName ++ " ", .bold⟩, ⟨"v" ++ toolVersion, .dim⟩]
    ("Scanned " ++ toString s.filesScanned ++ " files") .cyan

/-! ## Findings -/

/-- The sign of a severity. -/
def icon : Severity → String
  | .critical => "✖"
  | .high => "✖"
  | .medium => "⚠"
  | .low => "ℹ"

/-- The style of that sign. -/
def iconStyle : Severity → Style
  | .critical => .boldMagenta
  | .high => .boldRed
  | .medium => .yellow
  | .low => .dim

/-- The first line of what was found, or all of it if it is blank. -/
def snippet (f : Finding) : String :=
  if Text.trimString f.text = "" then f.text
  else String.ofList (Text.firstPrintedLine f.text.toList)

/-- What tells of a finding: its severity, rule and place, the description, and whether there is a
fix. -/
def title (f : Finding) : Printed :=
  .text ([⟨"  " ++ icon f.severity ++ " ", iconStyle f.severity⟩, ⟨f.rule, .bold⟩,
      ⟨"  (" ++ toString f.line ++ ":" ++ toString f.column ++ ")", .dim⟩,
      ⟨"  " ++ f.description, .plain⟩] ++
    if f.fix.isSome then [⟨"  [fixable]", .green⟩] else [])

/-- What is printed of a finding: what tells of it, and a line of what was found unless that is
empty. -/
def printedOf (f : Finding) : List Printed :=
  if f.text = "" then [title f]
  else [title f,
    .text [⟨"     " ++ padLeft 4 (toString f.line) ++ " │ " ++ snippet f, .dim⟩]]

/-- Comes before or together with the other one in a report: the more severe first, then by line,
then by rule name. -/
def listedBefore (a b : Finding) : Bool :=
  if a.severity ≠ b.severity then decide (b.severity.rank < a.severity.rank)
  else if a.line ≠ b.line then decide (a.line < b.line)
  else decide (a.rule ≤ b.rule)

/-- The paths with findings, in order. -/
def paths (findings : List Finding) : List String :=
  ((findings.map (·.path)).mergeSort fun a b => decide (a ≤ b)).eraseDups

/-- The findings in the file, in the order of the report. -/
def findingsIn (findings : List Finding) (path : String) : List Finding :=
  (findings.filter (·.path == path)).mergeSort listedBefore

/-- The findings file by file. -/
def byFile (findings : List Finding) : List (String × List Finding) :=
  (paths findings).map fun p => (p, findingsIn findings p)

/-- What is printed of a file. -/
def printedIn (file : String × List Finding) : List Printed :=
  .text [⟨file.1, .bold⟩] :: file.2.flatMap printedOf ++ [.blank]

/-! ## The report -/

/-- The totals, between two rules. -/
def totals (s : Summary) : List Printed :=
  let counts := Severity.all.reverse.map fun v => toString (s.count v) ++ " " ++ v.name
  let rule := .text [⟨repeatChar 60 '─', .dim⟩]
  [rule, .text [⟨toString s.findings.length ++ " findings: " ++ ", ".intercalate counts, .bold⟩]] ++
    (if s.filesCancelled = 0 then []
     else [.text [⟨toString s.filesCancelled ++ " files skipped after cancellation", .yellow⟩]]) ++
    [rule]

/-- What is printed of a scan. -/
def printed (s : Summary) : List Printed :=
  banner s :: (byFile s.findings).flatMap printedIn ++ totals s

/-- The report of a scan on a console, which makes lines of what it is handed. -/
def onConsole (console : Printed → List String) (s : Summary) : String :=
  unlines ((printed s).flatMap console)

/-- The text of stretches in a row. -/
def textOf (spans : List Span) : String := String.join (spans.map (·.text))

/-- A console without colours that is as wide as it is told and never narrower than what it is
handed, so that it breaks no lines.  Boxes are as wide as the console. -/
def wideConsole (width : Nat) : Printed → List String
  | .panel title foot _ =>
    ["╭" ++ repeatChar (width - 2) '─' ++ "╮",
     "│ " ++ padRight (width - 4) (textOf title) ++ " │",
     "╰─" ++ center (width - 4) '─' (" " ++ foot ++ " ") ++ "─╯"]
  | .text spans => [textOf spans]
  | .blank => [""]

/-- The report of a scan for a terminal of the given width. -/
def terminal (width : Nat) (s : Summary) : String := onConsole (wideConsole width) s

end CodeSweep.Report
