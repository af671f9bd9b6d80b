/-
# The files that are found

Below a folder, the files are found that are reached through no skipped folder, have an extension of
an enabled language and are not ignored (`IsSought`): these and no others, each of them once, in the
order of their routes (`discover_folder`).
-/
import CodeSweep.Proofs.Project.Extension
import CodeSweep.Proofs.Project.Part
import CodeSweep.Proofs.Tree.Files

namespace CodeSweep.Project

open Text

/-- The scan is to read what is under a name in a folder that names lead to from where it starts. -/
structure IsSought (top : Tree) (t : ScanTarget) (inside : Route) (name : String) : Prop where
  /-- There is a file. -/
  isFile : ∃ octets, top.get? (t.path ++ (inside ++ [name])) = some (.file octets)
  /-- No folder on the way is skipped. -/
  notSkipped : ∀ folder ∈ inside, folder ∉ skippedFolders
  /-- The name in lower case ends with an extension of an enabled language. -/
  hasExtension : ∃ l ∈ t.config.languages, ∃ ext ∈ l.profile.extensions,
    ext.toList <:+ lower name.toList
  /-- It is none of these extensions itself. -/
  notExtension : ∀ l ∈ t.config.languages, lowerString name ∉ l.profile.extensions
  /-- The file is not ignored in the project. -/
  notIgnored :
    Glob.excludes t.config.ignore (pathIn t.root (t.path ++ (inside ++ [name]))) = .ok false

/-- The routes to the files of a folder ascend. -/
theorem filesIn_pairwise {folder : Tree} (hnames : folder.distinct = true) (config : Config)
    (root path : Route) : (filesIn config root path folder).Pairwise (· < ·) := by
  have hnodup : ((filesWith (extensionsOf config) folder).map (path ++ ·)).Nodup :=
    ((Tree.nodup_files hnames).filter _).map (List.append_right_injective path)
  rw [filesIn, candidates_eq_sortBy]
  exact (StableSort.sortBy_pairwise_lt id hnodup).filter _

section

variable {top folder : Tree} {t : ScanTarget} (hget : top.get? t.path = some folder)
  (hfolder : folder.isFolder = true) (hnames : folder.distinct = true)

include hfolder hnames

/-- The files with one of the extensions, by their names and the folders that they are in. -/
theorem mem_filesWith_iff (extensions : List String) {r : Route} :
    r ∈ filesWith extensions folder ↔ ∃ inside name, r = inside ++ [name] ∧
      (∃ octets, folder.get? r = some (.file octets)) ∧ (∀ d ∈ inside, d ∉ skippedFolders) ∧
        hasAllowedExtension extensions name = true := by
  have hskip : ∀ names : Route, (∀ d ∈ names, skippedFolders.contains d = false) ↔
      ∀ d ∈ names, d ∉ skippedFolders := by
    simp
  rw [filesWith, List.mem_filter]
  constructor
  · rintro ⟨hr, hext⟩
    obtain ⟨inside, name, rfl⟩ :=
      (List.eq_nil_or_concat' r).resolve_left (Tree.ne_nil_of_mem_files hfolder hr)
    rw [Tree.mem_files_iff hnames, List.dropLast_concat, hskip] at hr
    rw [List.getLast?_concat] at hext
    exact ⟨inside, name, rfl, hr.1, hr.2, hext⟩
  · rintro ⟨inside, name, rfl, hfile, hinside, hext⟩
    rw [Tree.mem_files_iff hnames, List.dropLast_concat, hskip, List.getLast?_concat]
    exact ⟨⟨hfile, hinside⟩, hext⟩

include hget

/-- A file is one of the folder that is not ignored if it is sought. -/
theorem mem_filesIn_iff (hglobs : (Glob.readAll t.config.ignore).isOk = true) {r : Route} :
    r ∈ filesIn t.config t.root t.path folder ↔
      ∃ inside name, r = t.path ++ (inside ++ [name]) ∧ IsSought top t inside name := by
  have hbelow : ∀ rest, top.get? (t.path ++ rest) = folder.get? rest := by
    intro rest
    rw [Tree.get?_append, hget, Option.bind_some]
  have hkept : ∀ path, Glob.excludes t.config.ignore path = .ok false ↔
      Glob.chooses t.config.ignore path = false := by
    intro path
    rw [Glob.excludes_eq_ok hglobs, Except.ok.injEq]
  rw [filesIn, List.mem_filter, candidates_eq_sortBy, (StableSort.sortBy_perm _ _).mem_iff,
    List.mem_map, Bool.not_eq_true', ← hkept]
  constructor
  · rintro ⟨⟨rest, hrest, rfl⟩, hignored⟩
    obtain ⟨inside, name, rfl, hfile, hinside, hext⟩ :=
      (mem_filesWith_iff hfolder hnames _).mp hrest
    obtain ⟨hends, hnone⟩ := hasAllowedExtension_eq_true_iff.mp hext
    exact ⟨inside, name, rfl, ⟨by rwa [hbelow], hinside, hends, hnone, hignored⟩⟩
  · rintro ⟨inside, name, rfl, hfile, hinside, hends, hnone, hignored⟩
    rw [hbelow] at hfile
    exact ⟨⟨_, (mem_filesWith_iff hfolder hnames _).mpr ⟨inside, name, rfl, hfile, hinside,
      hasAllowedExtension_eq_true_iff.mpr ⟨hends, hnone⟩⟩, rfl⟩, hignored⟩

/-- **Below a folder** those files are found that are sought, each of them once and in the order of
their routes. -/
theorem discover_folder (hglobs : (Glob.readAll t.config.ignore).isOk = true) :
    ∃ files, discover top t = .ok files ∧
      (∀ r, r ∈ files ↔
        ∃ inside name, r = t.path ++ (inside ++ [name]) ∧ IsSought top t inside name) ∧
      files.Nodup ∧ files.Pairwise (· < ·) := by
  have hpairwise := filesIn_pairwise hnames t.config t.root t.path
  exact ⟨_, discover_folder_eq_ok hget hfolder hglobs,
    fun r => mem_filesIn_iff hget hfolder hnames hglobs, hpairwise.imp ne_of_lt, hpairwise⟩

end

/-- A folder with sources, some of them built, some of them tests and one without a name. -/
def sourceFolder : Tree :=
  .folder [("setup.py", .file []), ("build", .folder [("a.py", .file [])]),
    ("lib", .folder [("b.PY", .file []), (".py", .file []), ("notes.txt", .file [])]),
    ("tests", .folder [("c.py", .file [])])]

/-- The scan of such a folder in a project that ignores its tests. -/
def sourceTarget : ScanTarget := ⟨[], ["src"], { languages := [.python], ignore := ["src/tests/"] }⟩

/-- There a file is found that is sought, and its name need not be in lower case. -/
theorem discover_folder_sources :
    (Tree.folder [("src", sourceFolder)]).get? sourceTarget.path = some sourceFolder ∧
      sourceFolder.isFolder = true ∧ sourceFolder.distinct = true ∧
      (Glob.readAll sourceTarget.config.ignore).isOk = true ∧
      ∃ files, discover (Tree.folder [("src", sourceFolder)]) sourceTarget = .ok files ∧
        ["src", "lib", "b.PY"] ∈ files ∧ files.Nodup ∧ files.Pairwise (· < ·) := by
  have hget : (Tree.folder [("src", sourceFolder)]).get? sourceTarget.path = some sourceFolder :=
    rfl
  have hnames : sourceFolder.distinct = true := by decide
  have hglobs : (Glob.readAll sourceTarget.config.ignore).isOk = true := by decide
  obtain ⟨files, hfiles, hmem, horder⟩ := discover_folder hget rfl hnames hglobs
  have hsought : IsSought (Tree.folder [("src", sourceFolder)]) sourceTarget ["lib"] "b.PY" :=
    ⟨⟨[], rfl⟩, by decide, by decide, by decide, by decide⟩
  exact ⟨hget, rfl, hnames, hglobs, files, hfiles, (hmem _).mpr ⟨["lib"], "b.PY", rfl, hsought⟩,
    horder⟩

end CodeSweep.Project
