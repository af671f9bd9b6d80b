/-
# Whose configuration counts

A scan of paths takes the configuration of the first one's project (`scan_eq_scan_some`), but it
loads those of the others as well, so it fails if one of them is broken (`exists_gather_error`).  As
long as they load, what they say does not matter (`scan_rewrite`).
-/
import CodeSweep.Proofs.Project.Gather
import CodeSweep.Proofs.Scan.Settings
import CodeSweep.Proofs.Tree

namespace CodeSweep.Project

/-! ## Configurations that do not load -/

/-- What is wrong if a configuration does not load: it is refused exactly if there is a file with
text in its place. -/
theorem exists_config_iff_of_load_error {top : Tree} {root : Route} {e : ProjectError}
    (h : load top root = .error e) :
    (∃ refusal, e = .config refusal) ↔
      ∃ octets, top.get? (root ++ [configName]) = some (.file octets) ∧
        (Text.Utf8.decode? octets).isSome = true := by
  rw [load] at h
  split at h
  · cases h
  · next hget =>
      obtain rfl := Except.error.inj h
      simp [hget]
  · next octets hget =>
      split at h
      · next hdecode =>
          obtain rfl := Except.error.inj h
          simp [hget, hdecode]
      · next text hdecode =>
          have htext : ∃ refusal, e = .config refusal := by
            cases hread : Config.ofText (Text.unifyLineEnds text) with
            | ok config =>
                rw [hread] at h
                cases h
            | error refusal =>
                rw [hread] at h
                exact ⟨refusal, (Except.error.inj h).symm⟩
          simp [htext, hget, hdecode]

/-- **A configuration that does not load** is the end of the scan if it is the first. -/
theorem scan_of_load_error {reg : Registry} {top : Tree} {path : Route} {e : ProjectError}
    (h : load top (rootOf top path) = .error e) (config : Option Config) (paths : List Route) :
    scan reg top config (path :: paths) = .error e := by
  rw [scan, gather_cons, h]
  rfl

/-- The scan also fails if another one does not load. -/
theorem exists_gather_error {top : Tree} {paths : List Route} {path : Route} {e : ProjectError}
    (hpath : path ∈ paths) (h : load top (rootOf top path) = .error e) (config : Option Config) :
    ∃ e', gather top config paths = .error e' := by
  induction paths generalizing config with
  | nil => cases hpath
  | cons first paths ih =>
      rw [gather_cons]
      rcases List.mem_cons.mp hpath with rfl | hpath
      · exact ⟨e, by rw [h]; rfl⟩
      · cases load top (rootOf top first) with
        | error e' => exact ⟨e', rfl⟩
        | ok own =>
            rw [Except.bind]
            cases (discover top ⟨rootOf top first, first, config.getD own⟩).mapError
                ProjectError.glob with
            | error e' => exact ⟨e', rfl⟩
            | ok files =>
                obtain ⟨e', he'⟩ := ih hpath (some (config.getD own))
                exact ⟨e', by rw [Except.bind, he']; rfl⟩

/-! ## The configuration of the first project -/

/-- **The configuration of the first project counts**: giving it comes to the same. -/
theorem scan_eq_scan_some {reg : Registry} {top : Tree} {path : Route} {config : Config}
    (h : load top (rootOf top path) = .ok config) (paths : List Route) :
    scan reg top none (path :: paths) = scan reg top (some config) (path :: paths) := by
  rw [scan, scan, gather_cons, gather_cons, h]
  rfl

/-! ## Other contents -/

/-- Only the configuration files of other projects than that with the root have other contents. -/
def RewritesOthers (root : Route) (f : Route → List UInt8 → List UInt8) : Prop :=
  ∀ route octets, f route octets ≠ octets →
    route.getLast? = some configName ∧ route ≠ root ++ [configName]

/-- What is no configuration file stays as it is. -/
theorem RewritesOthers.eq_of_getLast?_ne {root : Route} {f : Route → List UInt8 → List UInt8}
    (hf : RewritesOthers root f) {route : Route} (hroute : route.getLast? ≠ some configName)
    (octets : List UInt8) : f route octets = octets := by
  by_contra hne
  exact hroute (hf route octets hne).1

/-- The configuration of the project with the root stays as it is. -/
theorem RewritesOthers.eq_of_root {root : Route} {f : Route → List UInt8 → List UInt8}
    (hf : RewritesOthers root f) (octets : List UInt8) :
    f (root ++ [configName]) octets = octets := by
  by_contra hne
  exact (hf _ octets hne).2 rfl

section

variable {top : Tree} {f : Route → List UInt8 → List UInt8}

/-- Projects are where they are whatever is in the files. -/
theorem rootOf_rewrite (path : Route) : rootOf (top.rewrite f) path = rootOf top path := by
  have hfolder : folderOf (top.rewrite f) path = folderOf top path := by
    rw [folderOf, folderOf, Tree.get?_rewrite, Option.any_map]
    simp only [Tree.isFolder_rewrite]
  rw [rootOf, rootOf, hfolder]
  simp only [Tree.has_rewrite]

/-- A file that is left as it is. -/
theorem rewrite_file {route : Route} (hroute : ∀ octets, f route octets = octets)
    (octets : List UInt8) :
    Tree.rewrite (fun rest => f (route ++ rest)) (.file octets) = .file octets := by
  rw [Tree.rewrite, List.append_nil, hroute]

/-- A configuration that is left as it is is loaded as before. -/
theorem load_rewrite {root : Route} (hroot : ∀ octets, f (root ++ [configName]) octets = octets) :
    load (top.rewrite f) root = load top root := by
  rw [load, load, Tree.get?_rewrite]
  cases top.get? (root ++ [configName]) with
  | none => rfl
  | some t =>
      cases t with
      | folder es => rfl
      | file octets => rw [Option.map_some, rewrite_file hroot]

/-- A file that is left as it is is read as before. -/
theorem source?_rewrite {route : Route} (hroute : ∀ octets, f route octets = octets)
    (root : Route) : source? (top.rewrite f) root route = source? top root route := by
  rw [source?, source?, Tree.get?_rewrite]
  cases top.get? route with
  | none => rfl
  | some t =>
      cases t with
      | folder es => rfl
      | file octets => rw [Option.map_some, rewrite_file hroute]

/-- The same files are found whatever is in them. -/
theorem discover_rewrite (t : ScanTarget) : discover (top.rewrite f) t = discover top t := by
  simp only [discover, Tree.get?_rewrite]
  cases top.get? t.path with
  | none => rfl
  | some sub =>
      cases sub with
      | file octets => rfl
      | folder es =>
          simp only [Option.map_some, Tree.rewrite, candidates]
          have hfiles := Tree.files_rewrite skippedFolders.contains (.folder es)
            fun rest => f (t.path ++ rest)
          rw [Tree.rewrite] at hfiles
          rw [hfiles]

/-- Configuration files are not looked for. -/
theorem hasAllowedExtension_configName (config : Config) :
    hasAllowedExtension (extensionsOf config) configName = false := by
  have hnone : ∀ e ∈ Language.all.flatMap (·.profile.extensions),
      e.toList.isSuffixOf (Text.lower configName.toList) = false := by decide
  have hany : (extensionsOf config).any (·.toList.isSuffixOf (Text.lower configName.toList))
      = false := by
    rw [List.any_eq_false]
    intro e he
    rw [extensionsOf, Language.allowedExtensions, List.mem_flatMap] at he
    obtain ⟨l, hl, he⟩ := he
    rw [hnone e (List.mem_flatMap.mpr ⟨l, (List.mem_filter.mp hl).1, he⟩)]
    exact Bool.false_ne_true
  rw [hasAllowedExtension, hany, Bool.false_and]

/-- What is found is the path itself or no configuration file. -/
theorem getLast?_of_mem_discover {t : ScanTarget} {files : List Route}
    (h : discover top t = .ok files) {r : Route} (hr : r ∈ files) :
    r = t.path ∨ r.getLast? ≠ some configName := by
  rw [discover] at h
  split at h
  · obtain rfl := Except.ok.inj h
    cases hr
  · exact .inl (List.mem_singleton.mp (mem_of_mem_filterM h hr))
  · next folder _ _ =>
      -- only files with an allowed extension are looked for in a folder
      right
      have hmem := mem_of_mem_filterM h hr
      rw [candidates, (List.mergeSort_perm _ _).mem_iff, List.mem_map] at hmem
      obtain ⟨rest, hrest, rfl⟩ := hmem
      obtain ⟨name, hname, hallowed⟩ := (Option.any_eq_true _ _).mp (List.mem_filter.mp hrest).2
      rw [List.getLast?_append, hname]
      rintro heq
      obtain rfl := Option.some.inj heq
      exact absurd hallowed (Bool.eq_false_iff.mp (hasAllowedExtension_configName t.config))

/-- The files that are found are read as before if no configuration file is named. -/
theorem filterMap_source?_rewrite {root : Route} (hf : RewritesOthers root f) {t : ScanTarget}
    {files : List Route} (hfiles : discover top t = .ok files)
    (hpath : t.path.getLast? ≠ some configName) (own : Route) :
    files.filterMap (source? (top.rewrite f) own) = files.filterMap (source? top own) := by
  apply List.filterMap_congr
  intro r hr
  apply source?_rewrite
  rcases getLast?_of_mem_discover hfiles hr with rfl | hother
  · exact hf.eq_of_getLast?_ne hpath
  · exact hf.eq_of_getLast?_ne hother

/-- **Other contents of configuration files** do not show in what is gathered under a given
configuration, as long as all of them load. -/
theorem gather_rewrite {root : Route} (hf : RewritesOthers root f) {paths : List Route}
    (hpaths : ∀ path ∈ paths, path.getLast? ≠ some configName)
    (hloads : ∀ path ∈ paths, (load top (rootOf top path)).isOk = true ∧
      (load (top.rewrite f) (rootOf top path)).isOk = true) (config : Config) :
    gather (top.rewrite f) (some config) paths = gather top (some config) paths := by
  induction paths with
  | nil => rfl
  | cons path paths ih =>
      rw [List.forall_mem_cons] at hpaths hloads
      have hrest := ih hpaths.2 hloads.2
      rw [gather_cons, gather_cons, rootOf_rewrite]
      -- what the two own configurations say is never looked at
      obtain ⟨own, hown⟩ := exists_of_isOk hloads.1.1
      obtain ⟨own', hown'⟩ := exists_of_isOk hloads.1.2
      rw [hown, hown', Except.bind, Except.bind, Option.getD_some, Option.getD_some,
        discover_rewrite, hrest]
      cases hfiles : discover top ⟨rootOf top path, path, config⟩ with
      | error e => rfl
      | ok files =>
          have hsources := filterMap_source?_rewrite hf hfiles hpaths.1 (rootOf top path)
          simp only [Except.mapError, Except.bind, hsources]

/-- **Other contents of configuration files** that are not the first project's do not show in the
outcome of a scan, as long as all of them load. -/
theorem scan_rewrite {reg : Registry} {path : Route} {paths : List Route} {config : Config}
    (hload : load top (rootOf top path) = .ok config) (hf : RewritesOthers (rootOf top path) f)
    (hpaths : ∀ p ∈ path :: paths, p.getLast? ≠ some configName)
    (hloads : ∀ p ∈ paths, (load top (rootOf top p)).isOk = true ∧
      (load (top.rewrite f) (rootOf top p)).isOk = true) :
    scan reg (top.rewrite f) none (path :: paths) = scan reg top none (path :: paths) := by
  have hload' : load (top.rewrite f) (rootOf (top.rewrite f) path) = .ok config := by
    rw [rootOf_rewrite, load_rewrite hf.eq_of_root, hload]
  have hall : ∀ p ∈ path :: paths, (load top (rootOf top p)).isOk = true ∧
      (load (top.rewrite f) (rootOf top p)).isOk = true := by
    rw [List.forall_mem_cons]
    refine ⟨?_, hloads⟩
    rw [rootOf_rewrite] at hload'
    rw [hload, hload']
    exact ⟨rfl, rfl⟩
  rw [scan_eq_scan_some hload', scan_eq_scan_some hload, scan, scan,
    gather_rewrite hf hpaths hall config]

end

/-! ## Projects side by side -/

/-- **The first path's configuration counts**: a scan fails as that one does, and otherwise its
outcome is that of the configuration.  The others count only in that a scan fails if one of them
does not load; as long as they load, what they say does not matter. -/
theorem outcome_of_first_config (reg : Registry) (top : Tree) (path : Route)
    (paths : List Route) :
    (∀ e, load top (rootOf top path) = .error e →
      scan reg top none (path :: paths) = .error e ∧
      ((∃ refusal, e = .config refusal) ↔
        ∃ octets, top.get? (rootOf top path ++ [configName]) = some (.file octets) ∧
          (Text.Utf8.decode? octets).isSome = true)) ∧
    ∀ config, load top (rootOf top path) = .ok config →
      scan reg top none (path :: paths) = scan reg top (some config) (path :: paths) ∧
      (∀ p ∈ paths, ∀ e, load top (rootOf top p) = .error e →
        ∃ e', scan reg top none (path :: paths) = .error e') ∧
      ∀ f, RewritesOthers (rootOf top path) f →
        (∀ p ∈ path :: paths, p.getLast? ≠ some configName) →
        (∀ p ∈ paths, (load top (rootOf top p)).isOk = true ∧
          (load (top.rewrite f) (rootOf top p)).isOk = true) →
        scan reg (top.rewrite f) none (path :: paths) = scan reg top none (path :: paths) := by
  refine ⟨fun e he => ⟨scan_of_load_error he none paths, exists_config_iff_of_load_error he⟩,
    fun config hload => ⟨scan_eq_scan_some hload paths, ?_, ?_⟩⟩
  · intro p hp e he
    obtain ⟨e', he'⟩ := exists_gather_error (List.mem_cons_of_mem path hp) he none
    exact ⟨e', scan_of_gather_error he'⟩
  · intro f hf hpaths hloads
    exact scan_rewrite hload hf hpaths hloads

/-- Two projects side by side, each with a file that holds the letter `x`, and the contents of their
configuration files. -/
def twoProjects (first second : List UInt8) : Tree :=
  .folder [("a", .folder [(configName, .file first), ("x.c", .file [120])]),
    ("b", .folder [(configName, .file second), ("y.c", .file [120])])]

/-- Other contents for the configuration file of the second project. -/
def secondConfig (octets : List UInt8) (route : Route) (old : List UInt8) : List UInt8 :=
  if route = ["b", configName] then octets else old

/-- Only the second project is changed. -/
theorem rewritesOthers_secondConfig (octets : List UInt8) :
    RewritesOthers ["a"] (secondConfig octets) := by
  intro route old hne
  rw [secondConfig] at hne
  split at hne
  · next h =>
      rw [h]
      exact ⟨rfl, by decide⟩
  · exact absurd rfl hne

/-- A configuration file that switches off the rule for the letter `x`. -/
def withoutLetter : List UInt8 :=
  "tool.slopscan.rules.disable = [\"x\"]".toList.map fun c => UInt8.ofNat c.toNat

/-- The second project switches off the rule.  So a scan of it has no findings, but a scan of both
projects has those in the files of both, as it has if the second project does not say so. -/
theorem outcome_of_first_config_disable :
    scan ⟨[Scan.letterRule "x"]⟩ (twoProjects [] withoutLetter) none [["b"]] = .ok ⟨1, 0, []⟩ ∧
    scan ⟨[Scan.letterRule "x"]⟩ (twoProjects [] withoutLetter) none [["a"], ["b"]]
      = scan ⟨[Scan.letterRule "x"]⟩ (twoProjects [] []) none [["a"], ["b"]] ∧
    scan ⟨[Scan.letterRule "x"]⟩ (twoProjects [] []) none [["a"], ["b"]]
      = .ok ⟨2, 0, [Scan.letterFinding "x.c" "c" .low, Scan.letterFinding "y.c" "c" .low]⟩ := by
  have hreg : Registry.globsRead ⟨[Scan.letterRule "x"]⟩ = true := by decide +kernel
  have hx : Language.classify "x.c" (some ['x']) = .c :=
    Language.classify_of_extension (by decide) (by decide) _
  have hy : Language.classify "y.c" (some ['x']) = .c :=
    Language.classify_of_extension (by decide) (by decide) _
  have hrules : Scan.appliedRules ⟨[Scan.letterRule "x"]⟩ ["x"] (some "c") "y.c" ['x'] = [] := by
    decide +kernel
  have halone : gather (twoProjects [] withoutLetter) none [["b"]]
      = .ok (some { disable := ["x"] }, [⟨"y.c", ['x']⟩]) := by decide +kernel
  have hboth : gather (twoProjects [] []) none [["a"], ["b"]]
      = .ok (some {}, [⟨"x.c", ['x']⟩, ⟨"y.c", ['x']⟩]) := by decide +kernel
  refine ⟨?_, ?_, ?_⟩
  · rw [scan_of_gather_ok hreg halone, List.flatMap_singleton, Option.getD_some, Scan.findingsIn]
    simp only [hy, Language.name, hrules, Scan.findings_eq, List.flatMap_nil, List.mergeSort_nil]
    decide +kernel
  · exact ((outcome_of_first_config ⟨[Scan.letterRule "x"]⟩ (twoProjects [] []) ["a"] [["b"]]).2 {}
      (by decide +kernel)).2.2 (secondConfig withoutLetter)
      (rewritesOthers_secondConfig withoutLetter) (by decide +kernel) (by decide +kernel)
  · rw [scan_of_gather_ok hreg hboth, Option.getD_some, List.flatMap_cons, List.flatMap_singleton,
      Scan.findingsIn_letter hx (by decide) (by decide +kernel),
      Scan.findingsIn_letter hy (by decide) (by decide +kernel)]
    decide +kernel

/-- **Other projects do count**: an equals sign as the second project's configuration makes a scan
fail that succeeds otherwise.  And a configuration that is not UTF-8 makes it fail in another way
than by refusing a configuration. -/
theorem outcome_of_second_config :
    ¬ (∀ top path paths config f, load top (rootOf top path) = .ok config →
        RewritesOthers (rootOf top path) f →
        (∀ p ∈ path :: paths, top.has p = true ∧ p.getLast? ≠ some configName) →
        scan Registry.builtin (top.rewrite f) none (path :: paths)
          = scan Registry.builtin top none (path :: paths)) ∧
    ¬ (∀ top path paths e, load top (rootOf top path) = .error e →
        (∀ p ∈ path :: paths, top.has p = true ∧ p.getLast? ≠ some configName) →
        ∃ refusal, scan Registry.builtin top none (path :: paths) = .error (.config refusal)) := by
  constructor
  · intro h
    have hsame := h (twoProjects [] []) ["a"] [["b"]] {} (secondConfig [61]) (by decide +kernel)
      (rewritesOthers_secondConfig [61]) (by decide +kernel)
    have hbroken : load (twoProjects [] [61]) (rootOf (twoProjects [] [61]) ["b"])
        = .error (.config .badSyntax) := by decide +kernel
    obtain ⟨e, herror⟩ := @exists_gather_error (twoProjects [] [61]) [["a"], ["b"]] ["b"] _
      (by simp) hbroken none
    have hfails : scan Registry.builtin ((twoProjects [] []).rewrite (secondConfig [61])) none
        [["a"], ["b"]] = .error e := scan_of_gather_error herror
    obtain ⟨⟨config, sources⟩, hgather⟩ := exists_of_isOk
      (by decide +kernel : (gather (twoProjects [] []) none [["a"], ["b"]]).isOk = true)
    rw [hfails, scan_of_gather_ok Scan.globsRead_builtin hgather] at hsame
    cases hsame
  · intro h
    obtain ⟨refusal, hrefusal⟩ := h (twoProjects [255] []) ["a"] [] .notUtf8 (by decide +kernel)
      (by decide +kernel)
    rw [scan_of_load_error (by decide +kernel : load (twoProjects [255] [])
      (rootOf (twoProjects [255] []) ["a"]) = .error .notUtf8)] at hrefusal
    cases hrefusal

end CodeSweep.Project
