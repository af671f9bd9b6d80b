/-
# File trees

A file tree is a file or a folder of named trees.  A route is the list of names on the way from the
top to something in the tree.
-/
import CodeSweep.Path

namespace CodeSweep

/-! ## The type -/

/-- The names on the way down a tree. -/
abbrev Route := List String

/-- A file or a folder. -/
inductive Tree where
  | file (octets : List UInt8)
  | folder (entries : List (String × Tree))
  deriving Repr

namespace Tree

/-- The tree is a folder. -/
def isFolder : Tree → Bool
  | folder _ => true
  | file _ => false

/-- What a folder holds; a file holds nothing. -/
def entries : Tree → List (String × Tree)
  | folder es => es
  | file _ => []

/-! ## Following a route -/

/-- What is at the end of the route. -/
def get? : Tree → Route → Option Tree
  | t, [] => some t
  | t, name :: rest => (t.entries.lookup name).bind fun inner => get? inner rest

/-- There is something at the end of the route. -/
def has (t : Tree) (route : Route) : Bool := (t.get? route).isSome

/-- Changes the entry of the name, or adds one at the end. -/
def alter (name : String) (f : Option Tree → Tree) : List (String × Tree) → List (String × Tree)
  | [] => [(name, f none)]
  | (n, t) :: es => if n = name then (n, f (some t)) :: es else (n, t) :: alter name f es

/-- The tree with another one at the end of the route.  Folders on the way are made as needed. -/
def put : Tree → Route → (new : Tree) → Tree
  | _, [], new => new
  | t, name :: rest, new =>
    folder (alter name (fun old => put (old.getD (folder [])) rest new) t.entries)

/-! ## All files -/

mutual

/-- The routes to the files of a tree, without those through a folder whose name is skipped. -/
def files (skip : String → Bool) : Tree → List Route
  | file _ => [[]]
  | folder es => filesOf skip es

/-- The routes to the files of a folder with the entries. -/
def filesOf (skip : String → Bool) : List (String × Tree) → List Route
  | [] => []
  | (name, t) :: es =>
    (if t.isFolder && skip name then [] else (files skip t).map (name :: ·)) ++ filesOf skip es

end

end Tree

/-! ## Paths in a tree -/

/-- A tree and the folder in it that paths start from. -/
structure Workspace where
  top : Tree
  here : Route
  deriving Repr

namespace Workspace

/-- The route that a path stands for, whether or not there is anything. -/
def resolve (w : Workspace) (path : String) : Route :=
  Path.resolveFrom (if Path.isAbsolute path then [] else w.here) (Path.components path)

/-- The route that the pieces lead to from a place, each step going out from a folder. -/
def follow (top : Tree) : (place : Route) → (pieces : List String) → Option Route
  | place, [] => some place
  | place, piece :: rest =>
    if (top.get? place).any (·.isFolder) then
      if piece = "" || piece = "." then follow top place rest
      else if piece = ".." then follow top place.dropLast rest
      else if top.has (place ++ [piece]) then follow top (place ++ [piece]) rest
      else none
    else none

/-- The route that a path leads to when it is followed step by step. -/
def follow? (w : Workspace) (path : String) : Option Route :=
  if path = "" then none
  else
    follow w.top (if Path.isAbsolute path then [] else w.here)
      ((Text.splitAt (· == '/') path.toList).map String.ofList)

end Workspace

/-! ## Routes -/

/-- Comes before the other route or is the same: name by name, a route before those that go on. -/
def Route.precedes : Route → Route → Bool
  | [], _ => true
  | _ :: _, [] => false
  | a :: as, b :: bs => if a = b then Route.precedes as bs else decide (a < b)

/-- The path from one route down to another, if it leads there. -/
def Route.below? (root route : Route) : Option String :=
  if root.isPrefixOf route then some (Path.join (route.drop root.length)) else none

/-- The path relative to the root if it lies below, and the path as given otherwise. -/
def Workspace.relativePath (w : Workspace) (path : String) (root : Route) : String :=
  (Route.below? root (w.resolve path)).getD (Path.clean path)

end CodeSweep
