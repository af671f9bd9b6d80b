/-
# Configurations in normal form

A configuration that was read is in normal form (`isNormal_of_ofEntries`): its names are in snake
case, its globs are trimmed, and so on.  A configuration in normal form is read back from the table
that it writes (`ofEntries_toEntries`).  So reading again changes nothing.
-/
import CodeSweep.Proofs.Config.Reader
import CodeSweep.Proofs.Scan.Counts

namespace CodeSweep.Config

/-- What is said about each field of a configuration. -/
structure IsNormal (c : Config) : Prop where
  languages : ∀ l ∈ c.languages, l ∈ Language.all
  minSeverity : c.minSeverity ∈ Severity.all
  workers : ∀ n ∈ c.workers, 1 ≤ n ∧ n ≤ 32
  disable : ∀ name ∈ c.disable, IsSnakeCase name
  overrides : ∀ o ∈ c.overrides, IsSnakeCase o.1 ∧ o.2 ∈ Severity.all
  /-- No name has two overrides. -/
  nodup : (c.overrides.map (·.1)).Nodup
  ignore : ∀ g ∈ c.ignore, g ≠ "" ∧ Text.trimString g = g

/-- **A configuration that was read is in normal form.** -/
theorem isNormal_of_ofEntries {entries : List (String × Value)} {c : Config}
    (h : ofEntries entries = .ok c) : c.IsNormal := by
  simp only [ofEntries, bind_eq_ok_iff] at h
  obtain ⟨languages, -, minSeverity, -, workers, hworkers, rules, -, disable, hdisable, overrides,
    hoverrides, ignored, -, ignore, hignore, hc⟩ := h
  obtain rfl := Except.ok.inj hc
  have hnames := isSnakeCase_of_readDisabled hdisable
  obtain ⟨hnodup, hoverridden⟩ := nodup_of_readOverrides hoverrides
  exact
    { languages := fun l _ => Language.mem_all l
      minSeverity := Severity.mem_all minSeverity
      workers := bounds_of_readWorkers hworkers
      disable := hnames
      overrides := fun o ho => ⟨hoverridden _ (List.mem_map_of_mem ho), Severity.mem_all o.2⟩
      nodup := hnodup
      ignore := trimmed_of_readTexts hignore }

/-- **A configuration in normal form** is read back from the table that it writes. -/
theorem ofEntries_toEntries {c : Config} (h : c.IsNormal) : ofEntries c.toEntries = .ok c := by
  have hlanguages : readLanguages (c.toEntries.lookup "languages") = .ok c.languages :=
    readLanguages_textList c.languages
  have hminSeverity : readMinSeverity c.toEntries = .ok c.minSeverity :=
    readSeverity_name (fieldName "min-severity") c.minSeverity
  have hworkers : readWorkers (c.toEntries.lookup "workers") = .ok c.workers := by
    show readWorkers (some _) = _
    cases hn : c.workers with
    | none => rfl
    | some n => exact readWorkers_int (h.workers n hn)
  have hrules : readTable "rules" (c.toEntries.lookup "rules")
      = .ok [("disable", textList c.disable),
        ("severity_overrides", .table (c.overrides.map fun o => (o.1, .text o.2.name)))] := rfl
  have hoverrides : readOverrides [("disable", textList c.disable),
      ("severity_overrides", .table (c.overrides.map fun o => (o.1, .text o.2.name)))]
        = .ok c.overrides :=
    readOverrideEntries_map [] (List.forall_mem_map.mpr fun o ho => (h.overrides o ho).1)
      h.nodup
  have hignored : readTable "ignore" (c.toEntries.lookup "ignore")
      = .ok [("paths", textList c.ignore)] := rfl
  simp only [ofEntries, bind_eq_ok_iff]
  exact ⟨_, hlanguages, _, hminSeverity, _, hworkers, _, hrules, _,
    readDisabled_textList h.disable rfl, _, hoverrides, _, hignored, _,
    readTexts_textList h.ignore _, rfl⟩

/-- **Reading again changes nothing**: a configuration that was read is in normal form, and it is
read back from the table that it writes. -/
theorem ofEntries_again {entries : List (String × Value)} {c : Config}
    (h : ofEntries entries = .ok c) : c.IsNormal ∧ ofEntries c.toEntries = .ok c :=
  ⟨isNormal_of_ofEntries h, ofEntries_toEntries (isNormal_of_ofEntries h)⟩

/-- A table with blanks and capitals, too many workers and two spellings of one name. -/
def untidyEntries : List (String × Value) :=
  [("languages", .list [.text " Go\t", .text "", .text "C"]), ("min_severity", .text "HIGH "),
    ("workers", .int 100),
    ("rules", .table [("disable", .list [.text " Todo_1\n"]),
      ("severity-overrides", .table [("X", .text "low"), ("y", .text "High"),
        (" x", .text "critical")])]),
    ("ignore", .table [("paths", .list [.text " a b ", .text "\n"])])]

/-- The configuration of the untidy table, and that of the table that it writes. -/
theorem ofEntries_again_untidy :
    ∃ c : Config, ofEntries untidyEntries = .ok c ∧
      c = { languages := [.go, .c], minSeverity := .high, workers := some 32, disable := ["todo_1"]
            overrides := [("x", .critical), ("y", .high)], ignore := ["a b"] } ∧
      c.IsNormal ∧ ofEntries c.toEntries = .ok c := by
  have h : ofEntries untidyEntries = .ok
      { languages := [.go, .c], minSeverity := .high, workers := some 32, disable := ["todo_1"]
        overrides := [("x", .critical), ("y", .high)], ignore := ["a b"] } := by decide +kernel
  exact ⟨_, h, rfl, ofEntries_again h⟩

end CodeSweep.Config
