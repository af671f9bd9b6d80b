/-
# What is gathered for a scan

Gathering goes from path to path: it loads the configuration of each one's project, of which only
the first counts (`gather_cons`).  For a folder whose configuration loads and whose globs can be
read, the sources are the files of the folder that are not ignored (`scan_folder_eq_ok`).
-/
import CodeSweep.Proofs.Scan.Sources
import CodeSweep.Project

namespace CodeSweep.Project

/-! ## Path by path -/

/-- **Each path** has its project looked up and its configuration loaded, whether or not that is the
one that counts. -/
theorem gather_cons (top : Tree) (config : Option Config) (path : Route) (paths : List Route) :
    gather top config (path :: paths)
      = (load top (rootOf top path)).bind fun own =>
          ((discover top ⟨rootOf top path, path, config.getD own⟩).mapError .glob).bind fun files =>
            (gather top (some (config.getD own)) paths).map fun rest =>
              (rest.1, files.filterMap (source? top (rootOf top path)) ++ rest.2) := by
  rw [gather, target]
  cases load top (rootOf top path) with
  | error e => rfl
  | ok own => rfl

/-! ## What was gathered -/

/-- A scan fails if nothing can be gathered for it. -/
theorem scan_of_gather_error {reg : Registry} {top : Tree} {config : Option Config}
    {paths : List Route} {e : ProjectError} (h : gather top config paths = .error e) :
    scan reg top config paths = .error e := by
  rw [scan, h]
  rfl

/-- A scan finds what is in the sources that are gathered for it. -/
theorem scan_of_gather_ok {reg : Registry} (hreg : reg.globsRead = true) {top : Tree}
    {config final : Option Config} {paths : List Route} {sources : List Source}
    (h : gather top config paths = .ok (final, sources)) :
    scan reg top config paths
      = .ok ⟨sources.length, 0, sources.flatMap (Scan.findingsIn reg (final.getD {}))⟩ := by
  rw [scan, h]
  show (Scan.scanSources reg (final.getD {}) _ _).mapError _ = _
  rw [Scan.scanSources_false _ hreg]
  rfl

/-! ## A folder -/

/-- The path of a file below the root is that from the root on. -/
theorem pathIn_append (root rest : Route) : pathIn root (root ++ rest) = Path.join rest := by
  have hbelow : root.isPrefixOf (root ++ rest) = true :=
    List.isPrefixOf_iff_prefix.mpr (List.prefix_append root rest)
  rw [pathIn, Route.below?, if_pos hbelow, List.drop_left, Option.getD_some]

/-- The extensions of the files that the configuration asks for. -/
def extensionsOf (config : Config) : List String :=
  Language.allowedExtensions (config.languages.map (·.name))

/-- The files of a folder that are not ignored. -/
def filesIn (config : Config) (root path : Route) (folder : Tree) : List Route :=
  (candidates (extensionsOf config) path folder).filter fun r =>
    !Glob.chooses config.ignore (pathIn root r)

/-- Where all globs can be read, the files of a folder that are not ignored are found. -/
theorem discover_folder_eq_ok {top folder : Tree} {root path : Route} {config : Config}
    (hget : top.get? path = some folder) (hfolder : folder.isFolder = true)
    (hglobs : (Glob.readAll config.ignore).isOk = true) :
    discover top ⟨root, path, config⟩ = .ok (filesIn config root path folder) := by
  cases folder with
  | file octets => cases hfolder
  | folder es =>
      simp only [discover, hget]
      apply filterM_eq_ok
      intro r _
      rw [Glob.excludes_eq_ok hglobs]
      rfl

/-- The sources in a folder: its files that are not ignored. -/
def sourcesIn (top : Tree) (config : Config) (root path : Route) (folder : Tree) : List Source :=
  (filesIn config root path folder).filterMap (source? top root)

/-- What is gathered in a folder. -/
theorem gather_folder_eq_ok {top folder : Tree} {path : Route} {config : Config}
    (hload : load top (rootOf top path) = .ok config) (hget : top.get? path = some folder)
    (hfolder : folder.isFolder = true) (hglobs : (Glob.readAll config.ignore).isOk = true) :
    gather top none [path]
      = .ok (some config, sourcesIn top config (rootOf top path) path folder) := by
  rw [gather_cons, hload, Except.bind, Option.getD_none,
    discover_folder_eq_ok hget hfolder hglobs]
  show Except.ok (_, _ ++ []) = _
  rw [List.append_nil]
  rfl

/-- **A scan of a folder** finds what is in its files that are not ignored. -/
theorem scan_folder_eq_ok {reg : Registry} (hreg : reg.globsRead = true) {top folder : Tree}
    {path : Route} {config : Config} (hload : load top (rootOf top path) = .ok config)
    (hget : top.get? path = some folder) (hfolder : folder.isFolder = true)
    (hglobs : (Glob.readAll config.ignore).isOk = true) :
    scan reg top none [path]
      = .ok ⟨(sourcesIn top config (rootOf top path) path folder).length, 0,
          (sourcesIn top config (rootOf top path) path folder).flatMap
            (Scan.findingsIn reg config)⟩ :=
  scan_of_gather_ok hreg (gather_folder_eq_ok hload hget hfolder hglobs)

end CodeSweep.Project
