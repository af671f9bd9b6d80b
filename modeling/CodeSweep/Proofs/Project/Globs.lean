/-
# Malformed globs

The globs of rules and those of configurations are looked at when they are accepted, but only to see
that they are not empty (`isBuilt_withExclude_iff`, `exists_ofEntries_ignore_iff`).  They are read
when a file is at hand, and then a malformed one is a failure.  So rules and configurations that
were accepted can fail later, and do so exactly where they come to a malformed glob
(`accepted_globs_fail_iff`).
-/
import CodeSweep.Proofs.Config.Reader
import CodeSweep.Proofs.Glob.Reading
import CodeSweep.Proofs.Project.Gather
import CodeSweep.Proofs.Rule.Spec

namespace CodeSweep

/-! ## Rules that are accepted -/

/-- Globs are read from a specification if they are all there and none is empty. -/
theorem RuleSpec.readExclude_eq_ok_iff {spec : RuleSpec} {name : String} {globs : List String} :
    spec.readExclude name = .ok globs ↔ spec.exclude = some (globs.map some) ∧ "" ∉ globs := by
  have hmembers : ∀ gs : List (Option String), (gs.all fun g => g.any (· != "")) = true →
      gs = (gs.filterMap id).map some ∧ "" ∉ gs.filterMap id := by
    intro gs hgs
    induction gs with
    | nil => simp
    | cons g gs ih =>
        rw [List.all_cons, Bool.and_eq_true] at hgs
        obtain ⟨hsome, hempty⟩ := ih hgs.2
        cases g with
        | none => exact absurd hgs.1 (by simp)
        | some s =>
            show some s :: gs = some s :: (gs.filterMap id).map some ∧ "" ∉ s :: gs.filterMap id
            rw [← hsome, List.mem_cons, not_or]
            exact ⟨rfl, fun h => by simp [← h] at hgs, hempty⟩
  unfold readExclude
  cases spec.exclude with
  | none => simp
  | some gs =>
      simp only
      split
      · next hgs =>
          obtain ⟨hsome, hempty⟩ := hmembers gs hgs
          rw [Except.ok.injEq, Option.some.injEq]
          constructor
          · rintro rfl
            exact ⟨hsome, hempty⟩
          · rintro ⟨rfl, -⟩
            simp
      · next hgs =>
          refine iff_of_false (fun h => nomatch h) ?_
          rintro ⟨hglobs, hempty⟩
          obtain rfl := Option.some.inj hglobs
          refine hgs (List.all_eq_true.mpr (List.forall_mem_map.mpr fun s hs => ?_))
          exact bne_iff_ne.mpr fun h => hempty (h ▸ hs)

namespace Rule

/-- The rule with other globs. -/
def withExclude (r : Rule) (globs : List String) : Rule := { r with exclude := globs }

/-- **Any globs will do**, except for empty ones. -/
theorem isBuilt_withExclude_iff {r : Rule} (hr : r.IsBuilt) (globs : List String) :
    (r.withExclude globs).IsBuilt ↔ "" ∉ globs := by
  constructor
  · rintro ⟨spec, hspec⟩
    obtain ⟨p, -, -, -, -, hexclude, -⟩ := RuleSpec.build_eq_ok_iff.mp hspec
    exact (RuleSpec.readExclude_eq_ok_iff.mp hexclude).2
  · intro hglobs
    obtain ⟨spec, hspec⟩ := hr
    obtain ⟨p, hp, hn, htarget, hseverity, -, hrest⟩ := RuleSpec.build_eq_ok_iff.mp hspec
    refine ⟨{ spec with exclude := some (globs.map some) }, RuleSpec.build_eq_ok_iff.mpr
      ⟨p, hp, hn, htarget, hseverity, ?_, hrest⟩⟩
    exact RuleSpec.readExclude_eq_ok_iff.mpr ⟨rfl, hglobs⟩

end Rule

/-- A registry is accepted whatever the globs of its rules are. -/
theorem Registry.build_map_withExclude {rules : List Rule} {reg : Registry}
    (h : build rules = .ok reg) (globs : Rule → List String) :
    build (rules.map fun r => r.withExclude (globs r))
      = .ok ⟨rules.map fun r => r.withExclude (globs r)⟩ := by
  obtain ⟨-, hnodup, hanalysis, hsuppressors⟩ := build_eq_ok_iff.mp h
  have hnames : (rules.map fun r => r.withExclude (globs r)).map (·.name) = rules.map (·.name) := by
    rw [List.map_map]
    rfl
  refine build_eq_ok_iff.mpr ⟨rfl, ?_, ?_, ?_⟩
  · rwa [hnames]
  · rw [List.forall_mem_map]
    exact hanalysis
  · rw [hnames, List.forall_mem_map]
    exact hsuppressors

/-! ## Configurations that are accepted -/

namespace Config

/-- **Any globs can be ignored** that are trimmed and not empty. -/
theorem exists_ofEntries_ignore_iff {globs : List String} :
    (∃ entries c, ofEntries entries = .ok c ∧ c.ignore = globs) ↔
      ∀ g ∈ globs, g ≠ "" ∧ Text.trimString g = g := by
  constructor
  · rintro ⟨entries, c, hc, rfl⟩
    simp only [ofEntries, bind_eq_ok_iff] at hc
    obtain ⟨_, -, _, -, _, -, _, -, _, -, _, -, _, -, ignore, hignore, hc⟩ := hc
    obtain rfl := Except.ok.inj hc
    exact trimmed_of_readTexts hignore
  · intro hglobs
    refine ⟨[("ignore", .table [("paths", textList globs)])], { ignore := globs }, ?_, rfl⟩
    show (readTexts (fieldName "ignore.paths") (some (textList globs))).bind _ = _
    rw [readTexts_textList hglobs]
    rfl

end Config

/-! ## Scans that fail -/

/-- No glob is malformed of the rules that are considered for the language: of those that are
enabled and not switched off by name. -/
def Registry.WellFormedFor (reg : Registry) (disabled : List String) (language : String) : Prop :=
  ∀ r ∈ reg.rulesFor language, r.enabled = true → r.name ∉ disabled →
    ∀ g ∈ r.exclude, ¬ Glob.Malformed g

namespace Scan

variable {reg : Registry}

/-- **The active rules are found** unless a rule that is considered has a malformed glob. -/
theorem exists_activeRules_eq_ok_iff {disabled : List String} {language path : String} :
    (∃ rules, activeRules reg disabled language path = .ok rules) ↔
      reg.WellFormedFor disabled language := by
  rw [activeRules, exists_filterM_eq_ok_iff]
  -- the globs of a rule are read only if the rule is considered
  refine forall₂_congr fun r _ => ?_
  by_cases hconsidered : r.enabled = true ∧ r.name ∉ disabled
  · rw [if_pos (by simpa using hconsidered), exists_map_eq_ok_iff, Glob.exists_excludes_eq_ok_iff]
    exact ⟨fun h _ _ => h, fun h => h hconsidered.1 hconsidered.2⟩
  · rw [if_neg (by simpa using hconsidered)]
    exact iff_of_true ⟨false, rfl⟩ fun henabled hname => absurd ⟨henabled, hname⟩ hconsidered

/-- **A file is scanned** unless a rule that is considered has a malformed glob. -/
theorem exists_scanText_eq_ok_iff {disabled : List String} {language : Option String}
    {path : String} {text : List Char} :
    (∃ fs, scanText reg disabled language path text = .ok fs) ↔
      reg.WellFormedFor disabled (languageOf language (Path.normalize path) text) := by
  rw [scanText_eq, exists_map_eq_ok_iff, exists_activeRules_eq_ok_iff]

/-- A source is scanned unless it is in a language that is asked for and a rule that is considered
has a malformed glob. -/
theorem exists_scanSource_eq_ok_iff {cfg : Config} {source : Source} :
    (∃ fs, scanSource reg cfg source = .ok fs) ↔
      (Language.classify source.path (some source.text) ∈ cfg.languages →
        reg.WellFormedFor cfg.disable (Language.classify source.path (some source.text)).name) := by
  rw [scanSource]
  by_cases hasked : Language.classify source.path (some source.text) ∈ cfg.languages
  · rw [if_pos (by simpa using hasked)]
    have hlanguage := languageOf_some
      (Language.name_ne_empty (Language.classify source.path (some source.text)))
    have hmap : ∀ x : Except GlobError (List Finding),
        (do let found ← x
            return (found.map (regrade cfg)).filter (·.severity.meets cfg.minSeverity))
          = x.map fun found =>
              (found.map (regrade cfg)).filter (·.severity.meets cfg.minSeverity) :=
      fun x => by cases x <;> rfl
    rw [hmap, exists_map_eq_ok_iff, exists_scanText_eq_ok_iff, hlanguage]
    exact ⟨fun h _ => h, fun h => h hasked⟩
  · rw [if_neg (by simpa using hasked)]
    exact iff_of_true ⟨[], rfl⟩ fun h => absurd h hasked

/-- **Sources are scanned** unless one that is not left out cannot be. -/
theorem exists_scanSources_eq_ok_iff {cfg : Config} {calledOff : Nat → Bool}
    {sources : List Source} :
    (∃ s, scanSources reg cfg calledOff sources = .ok s) ↔
      ∀ n source, sources[n]? = some source → calledOff n = false →
        Language.classify source.path (some source.text) ∈ cfg.languages →
        reg.WellFormedFor cfg.disable (Language.classify source.path (some source.text)).name := by
  have hsummary : scanSources reg cfg calledOff sources
      = (sources.zipIdx.mapM fun s => outcome reg cfg (calledOff s.2) s.1).map .ofOutcomes := by
    rw [scanSources]
    cases sources.zipIdx.mapM fun s => outcome reg cfg (calledOff s.2) s.1 <;> rfl
  rw [hsummary, exists_map_eq_ok_iff, exists_mapM_eq_ok_iff]
  have houtcome : ∀ (source : Source) (n : Nat),
      (∃ o, outcome reg cfg (calledOff n) source = .ok o) ↔ (calledOff n = false →
        Language.classify source.path (some source.text) ∈ cfg.languages →
        reg.WellFormedFor cfg.disable (Language.classify source.path (some source.text)).name) := by
    intro source n
    rw [outcome]
    cases calledOff n with
    | true => exact iff_of_true ⟨none, rfl⟩ fun h => absurd h.symm Bool.false_ne_true
    | false =>
        rw [if_neg Bool.false_ne_true, exists_map_eq_ok_iff, exists_scanSource_eq_ok_iff]
        exact ⟨fun h _ => h, fun h => h rfl⟩
  constructor
  · intro h n source hsource
    exact (houtcome source n).mp (h (source, n) (List.mem_zipIdx_iff_getElem?.mpr hsource))
  · rintro h ⟨source, n⟩ hsource
    exact (houtcome source n).mpr (h n source (List.mem_zipIdx_iff_getElem?.mp hsource))

end Scan

namespace Project

/-- The files that may be ignored: the one that is named, or those below the folder. -/
def foundFiles (top : Tree) (t : ScanTarget) : List Route :=
  match top.get? t.path with
  | none => []
  | some (.file _) => [t.path]
  | some folder => candidates (extensionsOf t.config) t.path folder

/-- **Files are discovered** unless there are some and a glob is malformed. -/
theorem exists_discover_eq_ok_iff {top : Tree} {t : ScanTarget} :
    (∃ files, discover top t = .ok files) ↔
      (foundFiles top t ≠ [] → ∀ g ∈ t.config.ignore, ¬ Glob.Malformed g) := by
  have hdiscover : discover top t = (foundFiles top t).filterM fun r =>
      (Glob.excludes t.config.ignore (pathIn t.root r)).map (!·) := by
    rw [discover, foundFiles]
    cases top.get? t.path with
    | none => rfl
    | some node => cases node <;> rfl
  rw [hdiscover, exists_filterM_eq_ok_iff]
  simp only [exists_map_eq_ok_iff, Glob.exists_excludes_eq_ok_iff]
  constructor
  · intro h hfiles
    obtain ⟨r, hr⟩ := List.exists_mem_of_ne_nil _ hfiles
    exact h r hr
  · intro h r hr
    exact h (List.ne_nil_of_mem hr)

end Project

/-- **Accepted globs that fail.**  Rules and registries are accepted whatever their globs are, as
long as none is empty, and configurations as long as each is trimmed as well.  With such globs it is
told of every path whether they choose it, if none of them is malformed; else the fault of the first
that is malformed is the complaint.  So active rules are found, files and sources scanned and files
discovered exactly where none of the globs that count is malformed. -/
theorem accepted_globs_fail_iff (reg : Registry) (cfg : Config) (globs : List String)
    (path : String) :
    (∀ r : Rule, r.IsBuilt → ((r.withExclude globs).IsBuilt ↔ "" ∉ globs)) ∧
    (∀ rules, Registry.build rules = .ok reg → ∀ others : Rule → List String,
      Registry.build (rules.map fun r => r.withExclude (others r))
        = .ok ⟨rules.map fun r => r.withExclude (others r)⟩) ∧
    ((∃ entries c, Config.ofEntries entries = .ok c ∧ c.ignore = globs) ↔
      ∀ g ∈ globs, g ≠ "" ∧ Text.trimString g = g) ∧
    ((∃ b, Glob.excludes globs path = .ok b) ↔ ∀ g ∈ globs, ¬ Glob.Malformed g) ∧
    (∀ e, Glob.excludes globs path = .error e ↔
      ∃ before g after, globs = before ++ g :: after ∧ (∀ h ∈ before, ¬ Glob.Malformed h) ∧
        Glob.Fault g e) ∧
    (∀ language, (∃ rules, Scan.activeRules reg cfg.disable language path = .ok rules) ↔
      reg.WellFormedFor cfg.disable language) ∧
    (∀ language text, (∃ fs, Scan.scanText reg cfg.disable language path text = .ok fs) ↔
      reg.WellFormedFor cfg.disable (Scan.languageOf language (Path.normalize path) text)) ∧
    (∀ calledOff sources, (∃ s, Scan.scanSources reg cfg calledOff sources = .ok s) ↔
      ∀ n source, sources[n]? = some source → calledOff n = false →
        Language.classify source.path (some source.text) ∈ cfg.languages →
        reg.WellFormedFor cfg.disable (Language.classify source.path (some source.text)).name) ∧
    ∀ top root route, (∃ files, Project.discover top ⟨root, route, cfg⟩ = .ok files) ↔
      (Project.foundFiles top ⟨root, route, cfg⟩ ≠ [] → ∀ g ∈ cfg.ignore, ¬ Glob.Malformed g) :=
  ⟨fun _ hr => Rule.isBuilt_withExclude_iff hr globs,
    fun _ hreg => Registry.build_map_withExclude hreg,
    Config.exists_ofEntries_ignore_iff,
    Glob.exists_excludes_eq_ok_iff,
    fun _ => Glob.excludes_eq_error_iff,
    fun _ => Scan.exists_activeRules_eq_ok_iff,
    fun _ _ => Scan.exists_scanText_eq_ok_iff,
    fun _ _ => Scan.exists_scanSources_eq_ok_iff,
    fun _ _ _ => Project.exists_discover_eq_ok_iff⟩

/-- What a rule for the letter `x` is built from, with the globs. -/
def globSpec (globs : List String) : RuleSpec :=
  { name := .text "x", language := .text "universal", pattern := some "x", severity := .text "low"
    exclude := some (globs.map some) }

/-- A rule for the letter `x` is accepted with a glob for folders as well as with one whose range
ends before it starts and a mere sign, and only with these it fails, on whichever path. -/
theorem accepted_globs_fail_iff_folders :
    ∃ r reg, (globSpec ["build/"]).build = .ok r ∧ Registry.build [r] = .ok reg ∧
      (∃ b, Glob.excludes r.exclude "build/a.c" = .ok b) ∧
      (r.withExclude ["[a-z]", "[z-a]", "!"]).IsBuilt ∧
      Registry.build [r.withExclude ["[a-z]", "[z-a]", "!"]]
        = .ok ⟨[r.withExclude ["[a-z]", "[z-a]", "!"]]⟩ ∧
      ∀ path, Glob.excludes ["[a-z]", "[z-a]", "!"] path = .error (.reversedRange 'z' 'a') ∧
        ¬ ∃ rules, Scan.activeRules ⟨[r.withExclude ["[a-z]", "[z-a]", "!"]]⟩ [] "c" path
          = .ok rules := by
  refine ⟨_, _, rfl, rfl, ⟨true, by decide +kernel⟩, ?_, ?_, ?_⟩
  · obtain ⟨hbuilt, -⟩ := accepted_globs_fail_iff ⟨[]⟩ {} ["[a-z]", "[z-a]", "!"] ""
    exact (hbuilt _ ⟨globSpec ["build/"], rfl⟩).mpr (by decide)
  · obtain ⟨-, hbuild, -⟩ := accepted_globs_fail_iff ⟨[_]⟩ {} [] ""
    exact hbuild [_] rfl fun _ => ["[a-z]", "[z-a]", "!"]
  · intro path
    have hrange : Glob.Fault "[z-a]" (.reversedRange 'z' 'a') :=
      Glob.read_eq_error_iff.mp (by decide +kernel)
    have hletters : ¬ Glob.Malformed "[a-z]" :=
      Glob.exists_read_eq_ok_iff.mp ⟨some ⟨false, _⟩, by rfl⟩
    obtain ⟨-, -, -, -, hfault, hactive, -⟩ :=
      accepted_globs_fail_iff ⟨[_]⟩ {} ["[a-z]", "[z-a]", "!"] path
    constructor
    · exact (hfault _).mpr ⟨["[a-z]"], "[z-a]", ["!"], rfl, by simpa using hletters, hrange⟩
    · intro h
      exact (hactive "c").mp h _ List.mem_cons_self rfl (by simp) "[z-a]"
        (by simp [Rule.withExclude]) ⟨_, hrange⟩

/-- **Globs fail that were accepted**: a rule with a mere sign, at every file, one with a range that
ends before it starts, and a configuration with a blank that was escaped, at the file that it is
asked about. -/
theorem accepted_globs_fail_sign :
    (∃ r reg, (globSpec ["!"]).build = .ok r ∧ Registry.build [r] = .ok reg ∧
      Glob.excludes r.exclude "a.py" = .error (.invalid "!") ∧
      Scan.activeRules reg [] "python" "a.py" = .error (.invalid "!") ∧
      Scan.scanText reg [] (some "python") "a.py" [] = .error (.invalid "!") ∧
      ¬ ∃ s, Scan.scanSources reg {} (fun _ => false) [⟨"a.py", []⟩] = .ok s) ∧
    (∃ r reg, (globSpec ["[z-a]"]).build = .ok r ∧ Registry.build [r] = .ok reg ∧
      Glob.excludes r.exclude "a.py" = .error (.reversedRange 'z' 'a') ∧
      Scan.activeRules reg [] "python" "a.py" = .error (.reversedRange 'z' 'a')) ∧
    ∃ c, Config.ofEntries [("ignore", .table [("paths", .list [.text "a\\ "])])] = .ok c ∧
      Glob.excludes ["a\\ "] "x.py" = .ok false ∧
      Glob.excludes c.ignore "x.py" = .error (.invalid "a\\") ∧
      Project.discover (.folder [("x.py", .file [])]) ⟨[], ["x.py"], c⟩
        = .error (.invalid "a\\") := by
  refine ⟨⟨_, _, rfl, rfl, by decide +kernel, by decide +kernel, by decide +kernel, ?_⟩,
    ⟨_, _, rfl, rfl, by decide +kernel, by decide +kernel⟩, ⟨_, rfl, ?_, ?_, ?_⟩⟩
  · rw [Scan.exists_scanSources_eq_ok_iff]
    intro h
    have hread := h 0 _ rfl rfl (Language.mem_all _)
    have hsign : Glob.Malformed "!" := ⟨_, .sign rfl⟩
    generalize Language.classify _ _ = l at hread
    cases l
    all_goals exact hread _ List.mem_cons_self rfl (by simp) "!" List.mem_cons_self hsign
  all_goals decide +kernel

end CodeSweep
