/-
# Globs

Globs choose paths the way ignore files do.  `*` and `?` stay inside one component, `**` crosses
components; a glob without a slash applies at every depth, one with a slash is anchored at the top;
a trailing slash means what lies below a directory; a leading `!` takes back what an earlier glob
chose.  A glob is read into a pattern that is searched for in the path.

Main definition: `Glob.excludes`, whether a list of globs chooses a path.
-/
import CodeSweep.Path
import CodeSweep.Pattern.Match
import CodeSweep.Text.Quoted

namespace CodeSweep

/-- A text that cannot be read as a glob. -/
inductive GlobError where
  /-- Nothing is left of the glob, or it ends in the middle of an escape. -/
  | invalid (glob : String)
  /-- A range in a bracket expression ends before it starts. -/
  | reversedRange (lo hi : Char)
  deriving DecidableEq, Repr

/-- The message for a text that is no glob.  Where a range stands is left out. -/
def GlobError.message : GlobError → String
  | .invalid glob => "Invalid git pattern: " ++ Text.quoted glob
  | .reversedRange lo hi => "bad character range " ++ rangeEnd lo ++ "-" ++ rangeEnd hi
where
  /-- One end of a range, as it is written among other characters. -/
  rangeEnd (c : Char) : String := if c = '\\' then "\\\\" else String.singleton c

/-- A glob ready for use. -/
structure Glob where
  /-- The glob takes back what earlier ones chose. -/
  negated : Bool
  /-- What is searched for in a path.  The group `below` takes part when the glob chose a directory
  above the path, not the path itself. -/
  pattern : Pattern
  deriving DecidableEq, Repr

namespace Glob

open Pattern

/-! ## Segments -/

/-- Any character but a slash. -/
def inSegment : CharSet := .outside (chars "/")

/-- The members of a bracket expression: characters and ranges.  Nothing is escaped. -/
def members : List Char → List CharTest
  | [] => []
  | a :: '-' :: b :: cs => .range a b :: members cs
  | a :: cs => .range a a :: members cs

/-- The contents of a bracket expression and what follows it.  A closing bracket that comes first is
one of the contents. -/
def bracket? : List Char → Option (List Char × List Char)
  | [] => none
  | c :: cs =>
    match cs.dropWhile (· != ']') with
    | [] => none
    | _ :: rest => some (c :: cs.takeWhile (· != ']'), rest)

/-- What a piece of a glob may turn out to be. -/
inductive Reading (α : Type) where
  /-- The piece means this. -/
  | ok (a : α)
  /-- A bracket is not closed, so that the whole glob chooses nothing. -/
  | void
  /-- The piece ends in the middle of an escape. -/
  | bad
  deriving DecidableEq, Repr

/-- The reading of the first piece followed by that of the second. -/
def Reading.bind {α β : Type} : Reading α → (α → Reading β) → Reading β
  | ok a, f => f a
  | void, _ => void
  | bad, _ => bad

/-- The first pattern in front of a reading. -/
def Reading.prepend (p : Pattern) : Reading Pattern → Reading Pattern
  | ok q => ok (p ++ q)
  | void => void
  | bad => bad

/-- The pattern for one component of a glob. -/
def readSegmentFrom : (fuel : Nat) → List Char → Reading Pattern
  | 0, _ => .ok empty
  | _ + 1, [] => .ok empty
  | fuel + 1, c :: cs =>
    match c with
    | '\\' =>
      match cs with
      | [] => .bad
      | d :: rest => (readSegmentFrom fuel rest).prepend (one (.single d))
    | '*' => (readSegmentFrom fuel cs).prepend (many inSegment)
    | '?' => (readSegmentFrom fuel cs).prepend (one inSegment)
    | '[' =>
      let (negated, body) :=
        match cs with
        | '!' :: body => (true, body)
        | '^' :: body => (true, body)
        | _ => (false, cs)
      match bracket? body with
      | none => .void
      | some (inner, rest) =>
        (readSegmentFrom fuel rest).prepend (one ⟨members inner, negated, false⟩)
    | c => (readSegmentFrom fuel cs).prepend (one (.single c))

/-- The pattern for one component of a glob. -/
def readSegment (cs : List Char) : Reading Pattern := readSegmentFrom cs.length cs

/-! ## Whole globs -/

/-- The components of a glob that stand for any number of components. -/
def isDeep (seg : List Char) : Bool := seg == "**".toList

/-- A slash after a directory that was chosen. -/
def belowSlash : Pattern := group "below" "/"

/-- How a glob ends whose last component is deep. -/
def deepEnd (directory : Bool) : Pattern := if directory then belowSlash else "/"

/-- How a glob ends whose last component names something: that thing, or what lies below it. -/
def namedEnd : Pattern := anyOf [belowSlash, edge .lastLineEnd]

/-- Any path that leads to a component. -/
def anyDepth : Pattern := textStart ++ optional (some1 .inLine ++ "/")

/-- The pattern for the components after the first.  A slash comes before a named component if
`slash`. -/
def readTail (directory : Bool) : (slash : Bool) → List (List Char) → Reading Pattern
  | _, [] => .ok empty
  | slash, [seg] =>
    if isDeep seg then .ok (deepEnd directory)
    else (named slash seg).bind fun p => .ok (p ++ namedEnd)
  | slash, seg :: segs =>
    if isDeep seg then
      (readTail directory true segs).prepend (optional ("/" ++ some1 .inLine))
    else (named slash seg).bind fun p => (readTail directory true segs).prepend p
where
  /-- A named component, with the slash before it if one is due. -/
  named (slash : Bool) (seg : List Char) : Reading Pattern :=
    let body := if seg == "*".toList then .ok (some1 inSegment) else readSegment seg
    if slash then body.prepend "/" else body

/-- The pattern for the components of a glob. -/
def readSegments (directory : Bool) (segs : List (List Char)) : Reading Pattern :=
  let star := "*".toList
  let deep := "**".toList
  if segs == [deep] then .ok (if directory then belowSlash else one .inLine)
  else if segs == [deep, star] then .ok (one .inLine)
  else if segs == [deep, star, deep] then .ok (deepEnd directory)
  else
    match segs with
    | seg :: rest =>
      if isDeep seg then (readTail directory false rest).prepend anyDepth
      else (readTail directory false segs).prepend textStart
    | [] => .ok empty

/-- Neighbouring deep components made one. -/
def mergeDeep : List (List Char) → List (List Char)
  | [] => []
  | seg :: segs =>
    match mergeDeep segs with
    | next :: more => if isDeep seg && isDeep next then next :: more else seg :: next :: more
    | [] => [seg]

/-- The components of a glob, anchored as its slashes say.  There may be none left. -/
def anchor (segs : List (List Char)) : List (List Char) :=
  match segs with
  | [] :: rest => rest
  | [seg] => if isDeep seg then segs else ["**".toList, seg]
  | [seg, []] => if isDeep seg then segs else ["**".toList, seg, []]
  | _ => segs

/-- The last component made deep if it is empty. -/
def deepenLast : List (List Char) → List (List Char)
  | [] => []
  | [seg] => [if seg.isEmpty then "**".toList else seg]
  | seg :: segs => seg :: deepenLast segs

/-- Without the blanks at the end, unless the last one is escaped. -/
def trimGlob (cs : List Char) : List Char :=
  if "\\ ".toList.isSuffixOf cs then cs else Text.trimEnd cs

/-- The glob with the pattern, unless a range in it ends before it starts. -/
def ofPattern (negated : Bool) (p : Pattern) : Except GlobError Glob :=
  match p.reversed with
  | [] => .ok ⟨negated, p⟩
  | (lo, hi) :: _ => .error (.reversedRange lo hi)

/-- The glob that a text spells.  Comments, blank texts and texts with an unclosed bracket spell
none. -/
def read (s : String) : Except GlobError (Option Glob) :=
  let cs := trimGlob s.toList
  if cs.isEmpty || cs.head? == some '#' || cs == ['/'] then .ok none
  else
    let (negated, body) :=
      match cs with
      | '!' :: body => (true, body)
      | _ => (false, cs)
    let parts := Text.splitAt (· == '/') body
    let directory := parts.getLast?.any (·.isEmpty)
    match anchor parts with
    | [] => .error (.invalid s)
    | segs =>
      match readSegments directory (mergeDeep (deepenLast segs)) with
      | .ok p => (ofPattern negated p).map some
      | .void => .ok none
      | .bad => .error (.invalid s)

/-- The globs that the texts spell, in order. -/
def readAll (globs : List String) : Except GlobError (List Glob) := do
  return (← globs.mapM read).filterMap id

/-! ## Choosing paths -/

/-- How strongly the glob chooses the path: not at all, through a directory above it, or itself. -/
def strength (g : Glob) (path : Array Char) : Nat :=
  match g.pattern.search? path 0 with
  | none => 0
  | some m => if (m.group? "below").isSome then 1 else 2

/-- Goes through globs from the last to the first and keeps the first of the greatest strength.
`kept` is the strength so far, `chosen` whether the one kept is not negated. -/
def choose (path : Array Char) : List Glob → (kept : Nat) → (chosen : Bool) → Bool
  | [], _, chosen => chosen
  | g :: gs, kept, chosen =>
    let s := g.strength path
    if kept < s then
      if s = 2 then !g.negated else choose path gs s (!g.negated)
    else choose path gs kept chosen

/-- The path as globs see it: without a slash, or else a `./`, at its start. -/
def subject (path : String) : Array Char :=
  match (Path.normalize path).toList with
  | '/' :: cs => cs.toArray
  | '.' :: '/' :: cs => cs.toArray
  | cs => cs.toArray

/-- The globs choose the path. -/
def excludes (globs : List String) (path : String) : Except GlobError Bool := do
  return choose (subject path) (← readAll globs).reverse 0 false

end Glob

end CodeSweep
