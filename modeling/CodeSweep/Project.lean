/-
# Projects

The project of a path is the nearest folder above it with a configuration file.  Scanning paths
means finding the files of enabled languages below them, reading these and scanning what was read.
-/
import CodeSweep.Config.Reader
import CodeSweep.Scan.Sources
import CodeSweep.Tree

namespace CodeSweep

/-- Why a scan of paths cannot be done. -/
inductive ProjectError where
  /-- The configuration is refused. -/
  | config (e : ConfigError)
  /-- The configuration file is not UTF-8. -/
  | notUtf8
  /-- There is a folder in the place of the configuration file. -/
  | configFolder
  /-- A glob is refused. -/
  | glob (e : GlobError)
  deriving DecidableEq, Repr

/-- The name of the configuration file. -/
def Project.configName : String := "pyproject.toml"

/-- The wording of a complaint. -/
def ProjectError.message : ProjectError → String
  | config e => e.message
  | notUtf8 => Project.configName ++ " is not UTF-8."
  | configFolder => Project.configName ++ " is a directory."
  | glob e => e.message

namespace Project

/-! ## The configuration -/

/-- The configuration of the project with the root. -/
def load (top : Tree) (root : Route) : Except ProjectError Config :=
  match top.get? (root ++ [configName]) with
  | none => .ok {}
  | some (.folder _) => .error .configFolder
  | some (.file octets) =>
    match Text.Utf8.decode? octets with
    | none => .error .notUtf8
    | some text => (Config.ofText (Text.unifyLineEnds text)).mapError .config

/-- The folder and all folders above it, the nearest first. -/
def upward (folder : Route) : List Route :=
  (List.range (folder.length + 1)).reverse.map fun n => folder.take n

/-- The folder that a path is in, which is the path itself if that is a folder. -/
def folderOf (top : Tree) (path : Route) : Route :=
  if (top.get? path).any (·.isFolder) then path else path.dropLast

/-- The root of the project of a path: the nearest folder with a configuration file, or the folder
of the path. -/
def rootOf (top : Tree) (path : Route) : Route :=
  let folder := folderOf top path
  ((upward folder).find? fun f => top.has (f ++ [configName])).getD folder

/-- What is to be scanned. -/
structure ScanTarget where
  root : Route
  path : Route
  config : Config
  deriving DecidableEq, Repr

/-- The path with its project and its configuration. -/
def target (top : Tree) (path : Route) : Except ProjectError ScanTarget := do
  let root := rootOf top path
  return { root, path, config := ← load top root }

/-! ## Finding files -/

/-- Folders with these names are not looked into. -/
def skippedFolders : List String :=
  [".git", ".hg", ".svn", ".idea", ".vscode", ".venv", "venv", "node_modules", "dist", "build",
   "target", "__pycache__"]

/-- The file name belongs to one of the extensions: it ends with one and is none. -/
def hasAllowedExtension (extensions : List String) (name : String) : Bool :=
  let name := Text.lower name.toList
  extensions.any (fun e => e.toList.isSuffixOf name) && !extensions.any (fun e => e.toList == name)

/-- The path of a file in the project, or its whole path if it does not lie below the root. -/
def pathIn (root route : Route) : String :=
  (Route.below? root route).getD ("/" ++ "/".intercalate route)

/-- The files below a folder with one of the extensions, in order. -/
def candidates (extensions : List String) (folder : Route) (t : Tree) : List Route :=
  let found := (t.files skippedFolders.contains).filter fun r =>
    r.getLast?.any (hasAllowedExtension extensions)
  (found.map (folder ++ ·)).mergeSort Route.precedes

/-- The files to be read.  A file that is named is one of them whatever its extension, but nothing
that is ignored is. -/
def discover (top : Tree) (t : ScanTarget) : Except GlobError (List Route) :=
  let wanted (r : Route) : Except GlobError Bool :=
    (Glob.excludes t.config.ignore (pathIn t.root r)).map (!·)
  match top.get? t.path with
  | none => .ok []
  | some (.file _) => [t.path].filterM wanted
  | some folder =>
    let extensions := Language.allowedExtensions (t.config.languages.map (·.name))
    (candidates extensions t.path folder).filterM wanted

/-! ## Reading and scanning -/

/-- The text of a file: broken characters are replaced and line ends made equal. -/
def textOf (octets : List UInt8) : List Char := Text.unifyLineEnds (Text.Utf8.decode octets)

/-- The file at the end of the route as a source. -/
def source? (top : Tree) (root route : Route) : Option Source :=
  match top.get? route with
  | some (.file octets) => some { path := pathIn root route, text := textOf octets }
  | _ => none

/-- The sources below the paths, and the configuration of their scan: the given one, or that of the
first path. -/
def gather (top : Tree) : Option Config → List Route →
    Except ProjectError (Option Config × List Source)
  | config, [] => .ok (config, [])
  | config, path :: paths => do
    let t ← target top path
    let config := config.getD t.config
    let files ← (discover top { t with config }).mapError .glob
    let (final, more) ← gather top (some config) paths
    return (final, files.filterMap (source? top t.root) ++ more)

/-- The summary of a scan of the paths. -/
def scan (reg : Registry) (top : Tree) (config : Option Config) (paths : List Route) :
    Except ProjectError Summary := do
  let (config, sources) ← gather top config paths
  (Scan.scanSources reg (config.getD {}) (fun _ => false) sources).mapError .glob

end Project

end CodeSweep
