/-
# What a configuration does to a scan

A configuration that reports everything, in every language and as the rules grade it, leaves
nothing to be found that another one would show (`findingsIn_eq`): the other configuration takes the
findings in its languages, grades them anew and drops those below its threshold.  So a higher
threshold only removes findings, and grading anew has no say in which of them are there.
-/
import CodeSweep.Proofs.Project.Extension
import CodeSweep.Proofs.Scan.Counts
import CodeSweep.Proofs.Scan.Order
import CodeSweep.Proofs.Scan.Sources

namespace CodeSweep

/-- The configuration without what leaves findings out or grades them anew, but with the same rules
switched off. -/
def Config.unrestricted (cfg : Config) : Config :=
  { cfg with languages := Language.all, minSeverity := .low, overrides := [] }

/-- The configuration asks for findings in the language of the finding. -/
def Config.coversLanguage (cfg : Config) (f : Finding) : Bool :=
  cfg.languages.any (·.name == f.language)

/-- The finding as if it had not been graded. -/
def Finding.ungraded (f : Finding) : Finding := { f with severity := .low }

/-- What meets a threshold meets every lower one. -/
theorem Severity.meets_of_rank_le {v t t' : Severity} (h : t.rank ≤ t'.rank)
    (hv : v.meets t' = true) : v.meets t = true :=
  decide_eq_true (h.trans (of_decide_eq_true hv))

/-- A file that is named for a language is taken for one in that language. -/
theorem Language.classify_of_extension {name : String} (h : Path.isName name = true) {l : Language}
    (hext : ∃ ext ∈ l.profile.extensions, ext.toList <:+ Text.lower name.toList ∧
      ext.toList ≠ Text.lower name.toList) (contents : Option (List Char)) :
    classify name contents = l := by
  rw [classify, (ofExtension?_eq_some_iff h).mpr hext]

namespace Scan

section

variable {reg : Registry} (cfg : Config)

/-! ## Grades and thresholds -/

/-- Without overrides, findings keep the severity that their rules give them. -/
theorem regrade_unrestricted (f : Finding) : regrade cfg.unrestricted f = f := rfl

/-- Grading anew changes the severity only. -/
theorem ungraded_regrade (f : Finding) : (regrade cfg f).ungraded = f.ungraded := rfl

/-- Every finding meets the lowest threshold. -/
theorem filter_meets_low (fs : List Finding) : fs.filter (·.severity.meets .low) = fs :=
  List.filter_eq_self.mpr fun f _ => decide_eq_true (Nat.zero_le f.severity.rank)

/-- Two thresholds, one after the other, are the higher of them. -/
theorem filter_meets_filter_meets {t t' : Severity} (h : t.rank ≤ t'.rank) (fs : List Finding) :
    (fs.filter (·.severity.meets t)).filter (·.severity.meets t')
      = fs.filter (·.severity.meets t') := by
  rw [List.filter_filter]
  apply List.filter_congr
  intro f _
  rw [Bool.and_eq_left_iff_imp]
  exact Severity.meets_of_rank_le h

/-! ## One source -/

/-- The findings of a scan are in the language that the text is scanned under. -/
theorem language_of_mem_findings {rules : List Rule} {path language : String} {text : List Char}
    {f : Finding} (hf : f ∈ findings rules path language text) : f.language = language := by
  obtain ⟨r, -, h, -, rfl⟩ := exists_hit_of_mem_findings hf
  rfl

/-- A finding is in one of the languages if its source is. -/
theorem coversLanguage_eq {l : Language} {f : Finding} (hf : f.language = l.name) :
    cfg.coversLanguage f = cfg.languages.contains l := by
  rw [Config.coversLanguage, hf, Bool.eq_iff_iff, List.any_eq_true, List.contains_iff_mem]
  constructor
  · rintro ⟨l', hl', hname⟩
    have hsame : some l' = some l := by
      rw [← Language.ofName?_name l', eq_of_beq hname, Language.ofName?_name]
    rwa [← Option.some.inj hsame]
  · exact fun hl => ⟨l, hl, beq_self_eq_true _⟩

/-- The findings in a source if everything is reported. -/
theorem findingsIn_unrestricted (source : Source) :
    findingsIn reg cfg.unrestricted source
      = findings (appliedRules reg cfg.disable
            (some (Language.classify source.path (some source.text)).name) source.path source.text)
          (Path.normalize source.path) (Language.classify source.path (some source.text)).name
          source.text := by
  have hall : cfg.unrestricted.languages.contains
      (Language.classify source.path (some source.text)) = true :=
    List.contains_iff_mem.mpr (Language.mem_all _)
  rw [findingsIn]
  simp only [hall, if_true]
  refine (filter_meets_low _).trans ?_
  rw [List.map_congr_left fun f _ => regrade_unrestricted cfg f, List.map_id']
  rfl

/-- **What a configuration shows of a source**: the findings in its languages, graded anew and cut
at its threshold. -/
theorem findingsIn_eq (source : Source) :
    findingsIn reg cfg source
      = (((findingsIn reg cfg.unrestricted source).filter cfg.coversLanguage).map
          (regrade cfg)).filter (·.severity.meets cfg.minSeverity) := by
  rw [findingsIn_unrestricted, findingsIn]
  generalize hlanguage : Language.classify source.path (some source.text) = l
  generalize hfound : findings _ _ l.name source.text = found
  -- all findings of the source are in its language, so all are covered or none is
  have hcovers : ∀ f ∈ found, cfg.coversLanguage f = cfg.languages.contains l := by
    intro f hf
    rw [← hfound] at hf
    exact coversLanguage_eq cfg (language_of_mem_findings hf)
  rw [List.filter_congr hcovers]
  cases cfg.languages.contains l with
  | true => rw [List.filter_eq_self.mpr fun _ _ => rfl, if_pos rfl]
  | false => rw [List.filter_eq_nil_iff.mpr fun _ _ => Bool.false_ne_true]; rfl

/-! ## All sources -/

/-- What a configuration shows of all sources. -/
theorem flatMap_findingsIn_eq (sources : List Source) :
    sources.flatMap (findingsIn reg cfg)
      = (((sources.flatMap (findingsIn reg cfg.unrestricted)).filter cfg.coversLanguage).map
          (regrade cfg)).filter (·.severity.meets cfg.minSeverity) := by
  rw [List.filter_flatMap, List.map_flatMap, List.filter_flatMap]
  congr 1
  funext source
  exact findingsIn_eq cfg source

/-- **What a configuration does to a scan.**  The scan that reports everything has the same number
of files, and of its findings those in the languages of the configuration are shown, graded anew,
if they then meet the threshold.  Each severity is counted, and the counts make up all findings.  A
higher threshold only removes findings, and under the lowest one the same findings are there,
however they are graded. -/
theorem scanSources_of_config (hreg : reg.globsRead = true) (sources : List Source) :
    ∃ base s : Summary,
      scanSources reg cfg.unrestricted (fun _ => false) sources = .ok base ∧
      scanSources reg cfg (fun _ => false) sources = .ok s ∧
      s.findings = ((base.findings.filter cfg.coversLanguage).map (regrade cfg)).filter
        (·.severity.meets cfg.minSeverity) ∧
      s.filesScanned = base.filesScanned ∧ s.filesCancelled = base.filesCancelled ∧
      Summary.tally? s.findings = some (Severity.all.map fun v => (v, s.count v)) ∧
      (Severity.all.map s.count).sum = s.findings.length ∧
      (∀ threshold : Severity, cfg.minSeverity.rank ≤ threshold.rank →
        ∃ s', scanSources reg { cfg with minSeverity := threshold } (fun _ => false) sources
            = .ok s' ∧
          s'.findings = s.findings.filter (·.severity.meets threshold)) ∧
      ∀ overrides, ∃ s',
        scanSources reg { cfg with minSeverity := .low, overrides } (fun _ => false) sources
            = .ok s' ∧
          s'.findings.map (·.ungraded)
            = (base.findings.filter cfg.coversLanguage).map (·.ungraded) := by
  refine ⟨_, _, scanSources_false _ hreg sources, scanSources_false cfg hreg sources,
    flatMap_findingsIn_eq cfg sources, rfl, rfl, Summary.tally?_eq _, Summary.sum_count _,
    fun threshold hrank => ⟨_, scanSources_false _ hreg sources, ?_⟩,
    fun overrides => ⟨_, scanSources_false _ hreg sources, ?_⟩⟩
  · show sources.flatMap _ = (sources.flatMap _).filter _
    rw [flatMap_findingsIn_eq cfg, filter_meets_filter_meets hrank]
    exact flatMap_findingsIn_eq { cfg with minSeverity := threshold } sources
  · show (sources.flatMap _).map _ = ((sources.flatMap _).filter _).map _
    rw [flatMap_findingsIn_eq { cfg with minSeverity := .low, overrides }]
    refine (congrArg _ (filter_meets_low _)).trans ?_
    rw [List.map_map]
    exact List.map_congr_left fun f _ => ungraded_regrade _ f

end

/-! ## An example -/

/-- The letter `x` in a file of its own, found by its rule. -/
def letterFinding (path language : String) (severity : Severity) : Finding :=
  { rule := "x", path, language, severity, description := "", extent := ⟨⟨1, 1⟩, ⟨1, 2⟩⟩
    text := "x", fix := none }

/-- The letter `x` is found by its rule in every file. -/
theorem findings_letter (path language : String) :
    findings [letterRule "x"] path language ['x'] = [letterFinding path language .low] := by
  have hhits : (letterRule "x").hits ['x'] = [⟨⟨⟨1, 1⟩, ⟨1, 2⟩⟩, ['x']⟩] := by decide +kernel
  have hlines : Suppressions.ofLines (Text.lines ['x']) = ⟨[]⟩ := by decide +kernel
  rw [findings_eq, List.flatMap_singleton, kept, hhits, hlines]
  exact List.mergeSort_singleton _

/-- What a configuration shows of the letter `x` in a file, if of the rules only that for `x`
applies. -/
theorem findingsIn_letter {reg : Registry} {cfg : Config} {path : String} {l : Language}
    (hl : Language.classify path (some ['x']) = l) (hcfg : cfg.languages.contains l = true)
    (hrules : appliedRules reg cfg.disable (some l.name) path ['x'] = [letterRule "x"]) :
    findingsIn reg cfg ⟨path, ['x']⟩
      = [regrade cfg (letterFinding (Path.normalize path) l.name .low)].filter
          (·.severity.meets cfg.minSeverity) := by
  simp only [findingsIn, hl, hcfg, if_true, hrules, findings_letter, List.map_singleton]

/-- Of the findings in a C file and a Python file, a configuration shows the one in the C file,
which it grades from low to critical so that it meets the threshold. -/
theorem scanSources_of_config_letters :
    ∃ base s : Summary,
      scanSources ⟨[letterRule "x"]⟩ {} (fun _ => false) [⟨"a.c", ['x']⟩, ⟨"b.py", ['x']⟩]
        = .ok base ∧
      scanSources ⟨[letterRule "x"]⟩
          { languages := [.c], overrides := [("x", .critical)], minSeverity := .high }
          (fun _ => false) [⟨"a.c", ['x']⟩, ⟨"b.py", ['x']⟩] = .ok s ∧
      base.findings = [letterFinding "a.c" "c" .low, letterFinding "b.py" "python" .low] ∧
      s.findings = [letterFinding "a.c" "c" .critical] ∧ s.filesScanned = base.filesScanned := by
  have hreg : Registry.globsRead ⟨[letterRule "x"]⟩ = true := by decide +kernel
  have hc : Language.classify "a.c" (some ['x']) = .c :=
    Language.classify_of_extension (by decide) (by decide) _
  have hpy : Language.classify "b.py" (some ['x']) = .python :=
    Language.classify_of_extension (by decide) (by decide) _
  have hpaths : Path.normalize "a.c" = "a.c" ∧ Path.normalize "b.py" = "b.py" := by decide
  have hrules : appliedRules ⟨[letterRule "x"]⟩ [] (some "c") "a.c" ['x'] = [letterRule "x"] ∧
      appliedRules ⟨[letterRule "x"]⟩ [] (some "python") "b.py" ['x'] = [letterRule "x"] := by
    decide +kernel
  obtain ⟨base, s, hbase, hs, hfindings, hscanned, -⟩ := @scanSources_of_config ⟨[letterRule "x"]⟩
    { languages := [.c], overrides := [("x", .critical)], minSeverity := .high }
    hreg [⟨"a.c", ['x']⟩, ⟨"b.py", ['x']⟩]
  have hfound : base.findings
      = [letterFinding "a.c" "c" .low, letterFinding "b.py" "python" .low] := by
    rw [← Except.ok.inj ((scanSources_false _ hreg _).symm.trans hbase)]
    simp [findingsIn_unrestricted, hc, hpy, Language.name, hrules, hpaths, findings_letter]
  refine ⟨base, s, hbase, hs, hfound, ?_, hscanned⟩
  rw [hfindings, hfound]
  rfl

end Scan

end CodeSweep
