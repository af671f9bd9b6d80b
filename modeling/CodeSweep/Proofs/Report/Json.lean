/-
# Reading reports in JSON

The report of a scan in JSON is a JSON text in ASCII, and nothing of the summary is lost in it: the
summary can be read off the value that the text spells (`summaryOf?_summaryValue`), so two summaries
never have the same report.
-/
import CodeSweep.Proofs.Json.Reader
import CodeSweep.Report.Json

namespace CodeSweep.Report

/-! ## Reading values -/

section

variable {α : Type} (read? : Value → Option α) {write : α → Value}

/-- A text. -/
def text? : Value → Option String
  | .text s => some s
  | _ => none

/-- A number that is not negative. -/
def number? : Value → Option Nat
  | .int (.ofNat n) => some n
  | _ => none

/-- A boolean. -/
def bool? : Value → Option Bool
  | .bool b => some b
  | _ => none

/-- Something that may be missing. -/
def nullable? : Value → Option (Option α)
  | .null => some none
  | v => (read? v).map some

/-- A list of things of one kind. -/
def list? : Value → Option (List α)
  | .list vs => vs.mapM read?
  | _ => none

/-- What the key of a table says. -/
def at? (key : String) (v : Value) : Option α := (v.get? key).bind read?

variable {read?}

/-- What is missing is told from what is there. -/
theorem nullable?_orNull (hread : ∀ a, read? (write a) = some a) (hnull : ∀ a, write a ≠ .null)
    (a? : Option α) : nullable? read? (orNull write a?) = some a? := by
  cases a? with
  | none => rfl
  | some a => rw [orNull, nullable?, hread a, Option.map_some]; exact hnull a

/-- A list is read off item by item. -/
theorem list?_map (hread : ∀ a, read? (write a) = some a) (l : List α) :
    list? read? (.list (l.map write)) = some l := by
  rw [list?]
  induction l with
  | nil => rfl
  | cons a l ih => simp [hread a, ih]

end

/-! ## Reading summaries -/

/-- A severity by its name. -/
def severity? (v : Value) : Option Severity := (text? v).bind Severity.ofName?

/-- A fix. -/
def fix? (v : Value) : Option Fix := do
  return { kind := ← at? text? "kind" v, replacement := ← at? (nullable? text?) "replacement" v }

/-- An extent. -/
def extent? (v : Value) : Option Extent := do
  return { start := ⟨← at? number? "start_line" v, ← at? number? "start_col" v⟩
           stop := ⟨← at? number? "end_line" v, ← at? number? "end_col" v⟩ }

/-- A finding.  That there is a fix is said twice, and has to be said alike. -/
def finding? (v : Value) : Option Finding := do
  let fix ← at? (nullable? fix?) "fix" v
  if (← at? bool? "auto_fix" v) = fix.isSome then
    return { rule := ← at? text? "rule" v, path := ← at? text? "path" v
             language := ← at? text? "language" v, severity := ← at? severity? "severity" v
             description := ← at? text? "description" v, extent := ← at? extent? "location" v
             text := ← at? text? "matched_text" v, fix }
  else none

/-- A summary. -/
def summary? (v : Value) : Option Summary := do
  return { filesScanned := ← at? number? "files_scanned" v
           filesCancelled := ← at? number? "files_cancelled" v
           findings := ← at? (list? finding?) "findings" v }

/-- The number of findings of the severity that a summary tells. -/
def count? (severity : Severity) (v : Value) : Option Nat :=
  at? (at? number? severity.name) "counts" v

/-- A severity is known by its name. -/
theorem severity?_text (v : Severity) : severity? (.text v.name) = some v := by
  cases v <;> decide

/-- A text is itself. -/
theorem text?_text (s : String) : text? (.text s) = some s := rfl

/-- Nothing of a fix is lost in its value. -/
theorem fix?_fixValue (f : Fix) : fix? (fixValue f) = some f := by
  have hreplacement := nullable?_orNull text?_text (fun _ h => nomatch h) f.replacement
  simp [fix?, fixValue, at?, Value.get?, List.lookup_cons, text?_text, hreplacement]

/-- Nothing of an extent is lost in its value. -/
theorem extent?_extentValue (e : Extent) : extent? (extentValue e) = some e := rfl

/-- **Nothing of a finding is lost** in its value. -/
theorem finding?_findingValue (f : Finding) : finding? (findingValue f) = some f := by
  have hfix := nullable?_orNull fix?_fixValue (fun _ h => nomatch h) f.fix
  simp [finding?, findingValue, at?, Value.get?, List.lookup_cons, text?_text, bool?,
    severity?_text, extent?_extentValue, hfix]

/-- **Nothing of a summary is lost** in its value. -/
theorem summary?_summaryValue (s : Summary) : summary? (summaryValue s) = some s := by
  have hfindings := list?_map finding?_findingValue s.findings
  simp [summary?, summaryValue, at?, Value.get?, List.lookup_cons, number?, number, hfindings]

/-- The counts in the value are those of the findings. -/
theorem count?_summaryValue (s : Summary) (severity : Severity) :
    count? severity (summaryValue s) = some (s.findings.countP (·.severity == severity)) := by
  have hcount : at? number? severity.name (countsValue s) = some (s.count severity) := by
    cases severity <;> rfl
  rw [List.countP_eq_length_filter]
  exact hcount

/-! ## Plain values -/

/-- What may be missing is plain if it is plain where it is there. -/
theorem orNull_isPlain {α : Type} {write : α → Value} (h : ∀ a, (write a).IsPlain) (a? : Option α) :
    (orNull write a?).IsPlain := by
  cases a? with
  | none => exact .null
  | some a => exact h a

/-- Fixes are written as texts. -/
theorem fixValue_isPlain (f : Fix) : (fixValue f).IsPlain := by
  have hreplacement := orNull_isPlain Value.IsPlain.text f.replacement
  apply Value.IsPlain.table
  simp [Value.IsPlain.text, hreplacement]

/-- Extents are written as integers. -/
theorem extentValue_isPlain (e : Extent) : (extentValue e).IsPlain := by
  apply Value.IsPlain.table
  simp [number, Value.IsPlain.int]

/-- Findings have no numbers but those of their extents. -/
theorem findingValue_isPlain (f : Finding) : (findingValue f).IsPlain := by
  have hfix := orNull_isPlain fixValue_isPlain f.fix
  apply Value.IsPlain.table
  simp [Value.IsPlain.text, Value.IsPlain.bool, extentValue_isPlain, hfix]

/-- Summaries have no numbers but integers, and no dates or times. -/
theorem summaryValue_isPlain (s : Summary) : (summaryValue s).IsPlain := by
  have htool :
      (Value.table [("name", .text toolName), ("version", .text toolVersion)]).IsPlain := by
    apply Value.IsPlain.table
    simp [Value.IsPlain.text]
  have hcounts : (countsValue s).IsPlain := by
    apply Value.IsPlain.table
    simp [number, Value.IsPlain.int]
  have hfindings : (Value.list (s.findings.map findingValue)).IsPlain := by
    apply Value.IsPlain.list
    simp [findingValue_isPlain]
  apply Value.IsPlain.table
  simp [number, Value.IsPlain.int, htool, hcounts, hfindings]

/-! ## The report -/

/-- The report is what is printed for the value of the summary. -/
theorem toList_json (s : Summary) : (json s).toList = Json.print 0 (summaryValue s) :=
  String.toList_ofList

/-- **A report in JSON can be read back.**  It is an ASCII text that spells one value in JSON.  The
summary can be read off that value, with the number of findings of each severity.  So different
summaries have different reports. -/
theorem json_reads_back (s : Summary) :
    Json.IsAscii (json s).toList ∧
    (∃ v, (∀ u, Json.Spells u (json s).toList ↔ u = v) ∧ Json.read? (json s) = some v ∧
      summary? v = some s ∧
      ∀ severity, count? severity v = some (s.findings.countP (·.severity == severity))) ∧
    ∀ s', json s' = json s ↔ s' = s := by
  have hspells : Json.Spells (summaryValue s) (json s).toList := by
    rw [toList_json]
    exact Json.print_spells (summaryValue_isPlain s) 0
  have hread (s : Summary) : Json.read? (json s) = some (summaryValue s) :=
    Json.read?_render (summaryValue_isPlain s)
  refine ⟨?_, ⟨summaryValue s, fun u => ⟨?_, ?_⟩, hread s, summary?_summaryValue s,
    count?_summaryValue s⟩, fun s' => ⟨?_, ?_⟩⟩
  · rw [toList_json]
    exact Json.print_ascii (summaryValue_isPlain s) 0
  · exact fun hu => hu.unique hspells
  · rintro rfl
    exact hspells
  · -- both summaries are read off the value of the same text
    intro h
    have hvalues : summaryValue s' = summaryValue s := by
      have h' := hread s'
      rw [h, hread s] at h'
      exact (Option.some.inj h').symm
    have hs' := summary?_summaryValue s'
    rw [hvalues, summary?_summaryValue s] at hs'
    exact (Option.some.inj hs').symm
  · rintro rfl
    rfl

end CodeSweep.Report
