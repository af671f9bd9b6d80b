/-
# Paths

Paths are texts with slashes between their components; a backslash counts as a slash where paths
are compared with globs.  Components that are empty or a single dot say nothing.
-/
import CodeSweep.Text.Blank

namespace CodeSweep.Path

open Text

/-! ## Normal form for globs -/

/-- The path without the `./` at its start, however often it is repeated. -/
def dropHere : List Char → List Char
  | '.' :: '/' :: cs => dropHere cs
  | cs => cs

/-- The path with slashes for backslashes and without `./` at its start. -/
def normalize (path : String) : String :=
  String.ofList (dropHere (path.toList.map fun c => if c = '\\' then '/' else c))

/-! ## Components -/

/-- The components of a path that say something. -/
def components (path : String) : List String :=
  ((splitAt (· == '/') path.toList).map String.ofList).filter fun s => s != "" && s != "."

/-- The last component, or nothing for the path of a root. -/
def baseName (path : String) : String := (components path).getLast?.getD ""

/-- The path starts at the root of all files. -/
def isAbsolute (path : String) : Bool := path.toList.head? == some '/'

/-- The components joined by slashes, or a dot for none. -/
def join (components : List String) : String :=
  if components.isEmpty then "." else "/".intercalate components

/-- What an absolute path starts with: a slash, or two if there are exactly two. -/
def rootOf (path : String) : String :=
  if (path.toList.takeWhile (· == '/')).length = 2 then "//" else "/"

/-- The path with one slash between components, no empty ones and no single dots. -/
def clean (path : String) : String :=
  if isAbsolute path then rootOf path ++ "/".intercalate (components path)
  else join (components path)

/-- The components after taking each `..` with the component before it, from `base` on.  There is
nothing above the top, so `..` stays there. -/
def resolveFrom : (base : List String) → List String → List String
  | base, [] => base
  | base, c :: cs => resolveFrom (if c = ".." then base.dropLast else base ++ [c]) cs

end CodeSweep.Path
