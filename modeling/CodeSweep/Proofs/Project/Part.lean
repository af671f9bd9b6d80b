/-
# Scans of a part of a project

A folder that is no project of its own belongs to the project above it (`rootOf_append`).  Its files
are those of the project whose routes go through it (`candidates_append`), and that shows in the
paths of their findings, so a scan of the folder finds what a scan of the project finds below it.
-/
import CodeSweep.Proofs.Language.Classify
import CodeSweep.Proofs.Project.Gather
import CodeSweep.Proofs.Scan.Settings
import CodeSweep.Proofs.Tree
import Mathlib.Data.List.Induction

namespace CodeSweep.Project

/-! ## The root of the project -/

/-- Above a folder is the folder that it is in. -/
theorem upward_append_singleton (folder : Route) (name : String) :
    upward (folder ++ [name]) = (folder ++ [name]) :: upward folder := by
  have htake : ∀ n ∈ (List.range (folder.length + 1)).reverse,
      (folder ++ [name]).take n = folder.take n := by
    intro n hn
    rw [List.mem_reverse, List.mem_range] at hn
    exact List.take_append_of_le_length (by omega)
  rw [upward, upward, List.length_append, List.length_singleton, List.range_succ,
    List.reverse_append, List.reverse_singleton, List.singleton_append, List.map_cons,
    List.map_congr_left htake, List.take_of_length_le (by simp)]

/-- Folders without a configuration file do not matter on the way up to one that has it. -/
theorem find?_upward_append (hasConfig : Route → Bool) {root : Route}
    (hroot : hasConfig root = true) (rest : Route)
    (hrest : ∀ n, 0 < n → n ≤ rest.length → hasConfig (root ++ rest.take n) = false) :
    (upward (root ++ rest)).find? hasConfig = some root := by
  -- on the way down from the root, whose last folder is the first one on the way up
  induction rest using List.reverseRecOn with
  | nil =>
      rw [List.append_nil, upward, List.range_succ, List.reverse_append, List.reverse_singleton,
        List.singleton_append, List.map_cons, List.take_length, List.find?_cons_of_pos hroot]
  | append_singleton rest name ih =>
      have hlast : hasConfig (root ++ rest ++ [name]) = false := by
        have h := hrest (rest ++ [name]).length (by simp) (Nat.le_refl _)
        rwa [List.take_length, ← List.append_assoc] at h
      have hbefore : ∀ n, 0 < n → n ≤ rest.length → hasConfig (root ++ rest.take n) = false := by
        intro n hn hle
        have h := hrest n hn (by simp; omega)
        rwa [List.take_append_of_le_length hle] at h
      rw [← List.append_assoc, upward_append_singleton,
        List.find?_cons_of_neg (Bool.eq_false_iff.mp hlast), ih hbefore]

/-- **A folder that is no project of its own** belongs to the project above it. -/
theorem rootOf_append {top : Tree} {root rest : Route}
    (hfolder : (top.get? (root ++ rest)).any (·.isFolder) = true)
    (hroot : top.has (root ++ [configName]) = true)
    (hrest : ∀ n, 0 < n → n ≤ rest.length →
      top.has (root ++ rest.take n ++ [configName]) = false) :
    rootOf top (root ++ rest) = root := by
  rw [rootOf, folderOf, if_pos hfolder,
    find?_upward_append (fun f => top.has (f ++ [configName])) hroot rest hrest,
    Option.getD_some]

/-! ## Files -/

/-- A folder leads to another one if what is below it does. -/
theorem isPrefixOf_append_append (folder as bs : Route) :
    (folder ++ as).isPrefixOf (folder ++ bs) = as.isPrefixOf bs := by
  induction folder with
  | nil => rfl
  | cons name folder ih =>
      rw [List.cons_append, List.cons_append, List.isPrefixOf_cons_cons, beq_self_eq_true,
        Bool.true_and, ih]

/-- The routes in a tree to its files with one of the extensions. -/
def filesWith (extensions : List String) (t : Tree) : List Route :=
  (t.files skippedFolders.contains).filter fun r =>
    r.getLast?.any (hasAllowedExtension extensions)

/-- The files below a folder are sorted by their routes. -/
theorem candidates_eq_sortBy (extensions : List String) (folder : Route) (t : Tree) :
    candidates extensions folder t
      = StableSort.sortBy id ((filesWith extensions t).map (folder ++ ·)) := by
  rw [candidates, Route.precedes_eq_keyLe]
  rfl

/-- Files that come in the order of their routes are not sorted anew. -/
theorem candidates_eq_map {extensions : List String} {folder : Route} {t : Tree}
    (h : ((filesWith extensions t).map (folder ++ ·)).Pairwise (Route.precedes · ·)) :
    candidates extensions folder t = (filesWith extensions t).map (folder ++ ·) :=
  List.mergeSort_of_pairwise h

/-- The files with one of the extensions below a folder. -/
theorem filter_filesWith (extensions : List String) {t sub : Tree} {rest : Route}
    (ht : t.wellNamed = true) (hsub : t.get? rest = some sub) (hfolder : sub.isFolder = true)
    (hskip : ∀ name ∈ rest, skippedFolders.contains name = false) :
    (filesWith extensions t).filter (rest.isPrefixOf ·)
      = (filesWith extensions sub).map (rest ++ ·) := by
  rw [filesWith, List.filter_comm, Tree.filter_files_eq ht hsub hfolder hskip, List.filter_map,
    filesWith]
  congr 1
  apply List.filter_congr
  intro r hr
  obtain ⟨front, last, rfl⟩ :=
    (List.eq_nil_or_concat r).resolve_left (Tree.ne_nil_of_mem_files hfolder hr)
  rw [Function.comp_apply, List.concat_eq_append, ← List.append_assoc, List.getLast?_concat,
    List.getLast?_concat]

/-- **The files below a folder in a project** are those of the project whose routes go through
it. -/
theorem candidates_append (extensions : List String) {t sub : Tree} {rest : Route}
    (ht : t.wellNamed = true) (hsub : t.get? rest = some sub) (hfolder : sub.isFolder = true)
    (hskip : ∀ name ∈ rest, skippedFolders.contains name = false) (root : Route) :
    candidates extensions (root ++ rest) sub
      = (candidates extensions root t).filter ((root ++ rest).isPrefixOf ·) := by
  have hthrough : ((root ++ rest).isPrefixOf ·) ∘ (root ++ ·) = (rest.isPrefixOf ·) :=
    funext fun r => isPrefixOf_append_append root rest r
  rw [candidates_eq_sortBy, candidates_eq_sortBy, StableSort.filter_sortBy_eq, List.filter_map,
    hthrough, filter_filesWith extensions ht hsub hfolder hskip, List.map_map]
  congr 2
  funext r
  exact List.append_assoc root rest r

/-- **The files of a folder that are not ignored** are those of the project that lie below it. -/
theorem filesIn_append (config : Config) {t sub : Tree} {rest : Route} (ht : t.wellNamed = true)
    (hsub : t.get? rest = some sub) (hfolder : sub.isFolder = true)
    (hskip : ∀ name ∈ rest, skippedFolders.contains name = false) (root : Route) :
    filesIn config root (root ++ rest) sub
      = (filesIn config root root t).filter ((root ++ rest).isPrefixOf ·) := by
  rw [filesIn, filesIn, candidates_append (extensionsOf config) ht hsub hfolder hskip,
    List.filter_comm]

/-- The files of a project are reached from its root by proper names. -/
theorem exists_names_of_mem_filesIn {config : Config} {t : Tree} (ht : t.wellNamed = true)
    {root r : Route} (hr : r ∈ filesIn config root root t) :
    ∃ names, r = root ++ names ∧ ∀ name ∈ names, Path.isName name = true := by
  have hmem := (List.mem_filter.mp hr).1
  rw [candidates_eq_sortBy, (StableSort.sortBy_perm _ _).mem_iff, List.mem_map] at hmem
  obtain ⟨names, hnames, rfl⟩ := hmem
  exact ⟨names, rfl, Tree.isName_of_mem_files ht names (List.mem_filter.mp hnames).1⟩

/-! ## Findings -/

/-- The path leads through the folder, or to it. -/
def liesUnder (folder : Route) (path : String) : Bool :=
  folder.isPrefixOf (Path.components path)

/-- A file that is reached by proper names has findings below a folder if it lies below it. -/
theorem liesUnder_of_mem_findingsIn {reg : Registry} {config : Config} {top : Tree}
    {root names rest : Route} (hnames : ∀ name ∈ names, Path.isName name = true) {source : Source}
    (hsource : source? top root (root ++ names) = some source) {f : Finding}
    (hf : f ∈ Scan.findingsIn reg config source) :
    liesUnder rest f.path = (root ++ rest).isPrefixOf (root ++ names) := by
  have hpath : source.path = Path.join names := by
    rw [source?] at hsource
    split at hsource
    · obtain rfl := Option.some.inj hsource
      exact pathIn_append root names
    · cases hsource
  rw [liesUnder, Scan.path_of_mem_findingsIn config hf, hpath, Path.normalize_join hnames,
    Path.components_join hnames, isPrefixOf_append_append]

/-- The findings of the files below a folder are the findings below the folder. -/
theorem flatMap_filter_eq {reg : Registry} {config : Config} {top : Tree} {root rest : Route}
    {files : List Route}
    (hfiles : ∀ r ∈ files, ∃ names, r = root ++ names ∧ ∀ name ∈ names, Path.isName name = true) :
    ((files.filter ((root ++ rest).isPrefixOf ·)).filterMap (source? top root)).flatMap
        (Scan.findingsIn reg config)
      = ((files.filterMap (source? top root)).flatMap (Scan.findingsIn reg config)).filter
          (liesUnder rest ·.path) := by
  induction files with
  | nil => rfl
  | cons r files ih =>
      rw [List.forall_mem_cons] at hfiles
      obtain ⟨⟨names, rfl, hnames⟩, hfiles⟩ := hfiles
      -- the findings of a file are all below the folder, or none of them is
      have hhead : ∀ source, source? top root (root ++ names) = some source →
          (Scan.findingsIn reg config source).filter (liesUnder rest ·.path)
            = if (root ++ rest).isPrefixOf (root ++ names) then Scan.findingsIn reg config source
              else [] := by
        intro source hsource
        have hall := fun f => @liesUnder_of_mem_findingsIn reg config top root names rest hnames
          source hsource f
        split
        · next h => exact List.filter_eq_self.mpr fun f hf => (hall f hf).trans h
        · next h =>
            exact List.filter_eq_nil_iff.mpr fun f hf => by rw [hall f hf]; exact h
      cases hsource : source? top root (root ++ names) with
      | none =>
          rw [List.filterMap_cons_none hsource, ← ih hfiles, List.filter_cons]
          split
          · rw [List.filterMap_cons_none hsource]
          · rfl
      | some source =>
          rw [List.filterMap_cons_some hsource, List.flatMap_cons, List.filter_append,
            hhead source hsource, ← ih hfiles, List.filter_cons]
          split
          · rw [List.filterMap_cons_some hsource, List.flatMap_cons]
          · rw [List.nil_append]

/-- **A scan of a part of a project** finds, in the same order, what a scan of the whole project
finds below that part. -/
theorem scan_part {reg : Registry} (hreg : reg.globsRead = true) {top : Tree}
    (htop : top.wellNamed = true) {root rest : Route} {config : Config}
    (hroot : top.has (root ++ [configName]) = true) (hload : load top root = .ok config)
    (hglobs : (Glob.readAll config.ignore).isOk = true)
    (hfolder : (top.get? (root ++ rest)).any (·.isFolder) = true)
    (hplain : ∀ n, 0 < n → n ≤ rest.length →
      top.has (root ++ rest.take n ++ [configName]) = false)
    (hskip : ∀ name ∈ rest, name ∉ skippedFolders) :
    ∃ whole part, scan reg top none [root] = .ok whole ∧
      scan reg top none [root ++ rest] = .ok part ∧
      part.findings = whole.findings.filter fun f => liesUnder rest f.path := by
  obtain ⟨t, ht, htfolder⟩ := Tree.exists_folder_of_has hroot
  obtain ⟨sub, hsub, hsubfolder⟩ := (Option.any_eq_true _ _).mp hfolder
  have hinside : t.get? rest = some sub := by
    rwa [Tree.get?_append, ht, Option.bind_some] at hsub
  have hwhole : rootOf top root = root := by
    have h := @rootOf_append top root [] (by simp [ht, htfolder]) hroot (by simp; omega)
    rwa [List.append_nil] at h
  have hpart : rootOf top (root ++ rest) = root := rootOf_append hfolder hroot hplain
  have htnamed := Tree.wellNamed_of_get? htop ht
  refine ⟨_, _, scan_folder_eq_ok hreg (hwhole.symm ▸ hload) ht htfolder hglobs,
    scan_folder_eq_ok hreg (hpart.symm ▸ hload) hsub hsubfolder hglobs, ?_⟩
  rw [hwhole, hpart]
  show (sourcesIn _ _ _ _ _).flatMap _ = ((sourcesIn _ _ _ _ _).flatMap _).filter _
  rw [sourcesIn, sourcesIn,
    filesIn_append config htnamed hinside hsubfolder (by simpa using hskip) root]
  exact flatMap_filter_eq fun r hr => exists_names_of_mem_filesIn htnamed hr

/-- What the configuration of the small project says. -/
def smallConfig : Config :=
  { minSeverity := .medium, disable := ["y"], overrides := [("x", .high)], ignore := ["d.c"] }

/-- The configuration of the small project as a file. -/
def smallConfigFile : List UInt8 :=
  ("[tool.slopscan]\nmin-severity = \"medium\"\nrules.disable = [\"y\"]\n" ++
    "rules.severity_overrides.x = \"high\"\nignore.paths = [\"d.c\"]").toList.map
      fun c => UInt8.ofNat c.toNat

/-- The folder in the small project, with two files that hold the letter `x`. -/
def smallFolder : Tree := .folder [("b.c", .file [120]), ("d.c", .file [120])]

/-- The inside of the small project, with one more such file. -/
def smallProject : Tree :=
  .folder [(configName, .file smallConfigFile), ("a.c", .file [120]), ("lib", smallFolder)]

/-- The small project in its place. -/
def smallTree : Tree := .folder [("project", smallProject)]

/-- Two rules for the letter `x`. -/
def smallRegistry : Registry := ⟨[Scan.letterRule "x", Scan.letterRule "y"]⟩

/-- Both rules hit all three files of the small project.  Its configuration switches off one rule,
ignores one file of the folder and grades the findings in the two others, so that they meet its
threshold; a scan of the folder has the one of them that lies below it. -/
theorem scan_part_small :
    ∃ whole part, scan smallRegistry smallTree none [["project"]] = .ok whole ∧
      scan smallRegistry smallTree none [["project", "lib"]] = .ok part ∧
      whole.findings
        = [Scan.letterFinding "a.c" "c" .high, Scan.letterFinding "lib/b.c" "c" .high] ∧
      part.findings = [Scan.letterFinding "lib/b.c" "c" .high] := by
  have hload : load smallTree ["project"] = .ok smallConfig := by decide +kernel
  have hroot : rootOf smallTree ["project"] = ["project"] := by decide +kernel
  have hglobs : (Glob.readAll smallConfig.ignore).isOk = true := by decide +kernel
  have hreg : smallRegistry.globsRead = true := by decide +kernel
  -- what the scan of the project reads and finds
  have hfiles : filesIn smallConfig ["project"] ["project"] smallProject
      = [["project", "a.c"], ["project", "lib", "b.c"]] := by
    rw [filesIn, candidates_eq_map (by decide +kernel)]
    decide +kernel
  have hsources : sourcesIn smallTree smallConfig ["project"] ["project"] smallProject
      = [⟨"a.c", ['x']⟩, ⟨"lib/b.c", ['x']⟩] := by
    rw [sourcesIn, hfiles]
    decide +kernel
  have ha : Language.classify "a.c" (some ['x']) = .c :=
    Language.classify_of_extension (by decide) (by decide) _
  have hb : Language.ofExtension? "lib/b.c" = some .c :=
    (@Language.ofExtension?_append "lib" "b.c" (by decide)).trans
      ((Language.ofExtension?_eq_some_iff (by decide)).mpr (by decide))
  have hfound : [(⟨"a.c", ['x']⟩ : Source), ⟨"lib/b.c", ['x']⟩].flatMap
      (Scan.findingsIn smallRegistry smallConfig)
      = [Scan.letterFinding "a.c" "c" .high, Scan.letterFinding "lib/b.c" "c" .high] := by
    rw [List.flatMap_cons, List.flatMap_singleton,
      Scan.findingsIn_letter ha (by decide) (by decide +kernel),
      Scan.findingsIn_letter (Language.classify_of_some hb _) (by decide) (by decide +kernel)]
    decide +kernel
  obtain ⟨whole, part, hwhole, hpart, hfindings⟩ := @scan_part smallRegistry hreg smallTree
    (by decide +kernel) ["project"] ["lib"] smallConfig (by decide +kernel) hload hglobs
    (by decide +kernel)
    (by
      intro n hpos hle
      obtain rfl : n = 1 := Nat.le_antisymm hle hpos
      decide +kernel)
    (by decide +kernel)
  have hscan := @scan_folder_eq_ok smallRegistry hreg smallTree smallProject ["project"]
    smallConfig (hroot.symm ▸ hload) rfl rfl hglobs
  have hall : whole.findings
      = [Scan.letterFinding "a.c" "c" .high, Scan.letterFinding "lib/b.c" "c" .high] := by
    rw [Except.ok.inj (hwhole.symm.trans hscan), hroot, hsources]
    exact hfound
  refine ⟨whole, part, hwhole, hpart, hall, ?_⟩
  rw [hfindings, hall]
  decide +kernel

end CodeSweep.Project
