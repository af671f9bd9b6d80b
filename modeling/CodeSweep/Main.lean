/-
# The program

Reads what the arguments name into a file tree, runs the command line on it and prints what that
leaves behind.
-/
import CodeSweep.CommandLine.Run

namespace CodeSweep.Program

/-- The path of a route from the top of the file system. -/
def pathOf (route : Route) : String := "/" ++ "/".intercalate route

/-- The route is that of a folder on disk. -/
def isFolderOnDisk (route : Route) : IO Bool := do
  (← IO.currentDir) / pathOf route |>.isDir

/-- The tree at the end of the route on disk. -/
partial def readTree (route : Route) : IO (Option Tree) := do
  let place := (← IO.currentDir) / pathOf route
  if ← place.isDir then
    let mut entries := []
    for entry in ← place.readDir do
      unless Project.skippedFolders.contains entry.fileName do
        if let some t ← readTree (route ++ [entry.fileName]) then
          entries := (entry.fileName, t) :: entries
    return some (.folder entries)
  else if ← place.pathExists then
    return some (.file (← IO.FS.readBinFile place).toList)
  else
    return none

/-- The workspace with the folders on the way of a path. -/
def addFolders (w : Workspace) (path : String) : IO Workspace := do
  let base := if Path.isAbsolute path then [] else w.here
  let names := Path.components path
  let mut w := w
  for n in List.range (names.length + 1) do
    let route := Path.resolveFrom base (names.take n)
    if !w.top.has route && (← isFolderOnDisk route) then
      w := { w with top := w.top.put route (.folder []) }
  return w

/-- The workspace with what is at the end of the route, and with the configuration files above. -/
def addRoute (w : Workspace) (route : Route) : IO Workspace := do
  let mut top := w.top
  if let some t ← readTree route then
    top := top.put route t
  for folder in Project.upward route do
    let config := folder ++ [Project.configName]
    unless top.has config do
      if let some t ← readTree config then
        top := top.put config t
  return { w with top }

/-- The workspace with all that the paths name. -/
def loadWorkspace (paths : List String) : IO Workspace := do
  let here := Path.components (← IO.currentDir).toString
  let mut w : Workspace := ⟨(Tree.folder []).put here (.folder []), here⟩
  for path in paths do
    w ← addFolders w path
  for route in (paths.map w.resolve).mergeSort fun a b => decide (a.length ≤ b.length) do
    w ← addRoute w route
  return w

/-- The width of the terminal. -/
def terminalWidth : IO Nat := do
  return ((← IO.getEnv "COLUMNS").bind (·.toNat?)).getD 80

end CodeSweep.Program

open CodeSweep in
/-- Runs the program. -/
def main (args : List String) : IO UInt32 := do
  let w ← Program.loadWorkspace (CommandLine.pathsNamed args)
  let outcome := CommandLine.run w (← Program.terminalWidth) args
  IO.print outcome.output
  for remark in outcome.remarks do
    IO.eprintln remark
  for failure in outcome.failure do
    IO.eprintln failure.message
  return outcome.exitCode.toUInt32
