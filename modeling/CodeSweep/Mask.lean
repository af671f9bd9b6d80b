/-
# Masking comments and literals

The structural analyses look at a masked copy of a text: comments and the contents of string and
character literals become spaces, while line feeds, quotes and all other characters stay.  The mask
has the length of the text, so a place in one is the same place in the other.

The scanner reads one character at a time.  Its state says whether it stands in code, in a comment
or in a literal; only the start of a comment and the end of a block comment need to look ahead, by
the length of the delimiter.
-/
namespace CodeSweep

/-! ## Comment styles -/

/-- The delimiters of comments. -/
structure CommentStyle where
  /-- What starts a comment that ends with its line. -/
  line : Option (List Char)
  /-- What opens and closes a comment of several lines. -/
  block : Option (List Char × List Char)
  deriving DecidableEq, Repr

namespace CommentStyle

/-- Comments after two slashes, and between a slash with a star and a star with a slash. -/
def slashes : CommentStyle := ⟨some "//".toList, some ("/*".toList, "*/".toList)⟩

/-- Comments after a number sign. -/
def hash : CommentStyle := ⟨some "#".toList, none⟩

/-- Comments after a number sign, and between `=begin` and `=end`. -/
def hashOrBegin : CommentStyle := ⟨some "#".toList, some ("=begin".toList, "=end".toList)⟩

end CommentStyle

/-! ## The scanner -/

namespace Mask

/-- Where the scanner stands. -/
inductive State where
  /-- Outside of comments and literals. -/
  | code
  /-- In a comment that ends with the line. -/
  | line
  /-- Inside the opening delimiter of a block comment, with `n` more of its characters to come. -/
  | opening (n : Nat)
  /-- In a block comment. -/
  | block
  /-- Inside the closing delimiter of a block comment, with `n` more of its characters to come. -/
  | closing (n : Nat)
  /-- In a literal that the quote encloses. -/
  | literal (quote : Char)
  /-- In such a literal, just after a backslash. -/
  | escaped (quote : Char)
  deriving DecidableEq, Repr

/-- What a masked character becomes. -/
def blank (c : Char) : Char := if c = '\n' then '\n' else ' '

/-- In a block comment before `c`, where `rest` follows.  An empty closing delimiter closes the
comment before `c`, which is then read by `after`. -/
def stepBlock (closer : List Char) (c : Char) (rest : List Char) (after : Char × State) :
    Char × State :=
  match closer with
  | [] => after
  | _ :: more =>
    if closer.isPrefixOf (c :: rest) then
      (blank c, if more.isEmpty then .code else .closing more.length)
    else (blank c, .block)

/-- In code before `c`, where no block comment starts. -/
def stepPlain (style : CommentStyle) (c : Char) (rest : List Char) : Char × State :=
  if style.line.any (·.isPrefixOf (c :: rest)) && c != '\n' then (blank c, .line)
  else if c == '"' || c == '\'' then (c, .literal c)
  else (c, .code)

/-- In code before `c`, where `rest` follows. -/
def stepCode (style : CommentStyle) (c : Char) (rest : List Char) : Char × State :=
  match style.block with
  | none => stepPlain style c rest
  | some (opener, closer) =>
    if opener.isPrefixOf (c :: rest) then
      match opener with
      | [] => stepBlock closer c rest (stepPlain style c rest)
      | _ :: more => (blank c, if more.isEmpty then .block else .opening more.length)
    else stepPlain style c rest

/-- What becomes of `c`, and the state after it. -/
def step (style : CommentStyle) (c : Char) (rest : List Char) : State → Char × State
  | .code => stepCode style c rest
  | .line => if c = '\n' then stepCode style c rest else (blank c, .line)
  | .opening n => (blank c, if n ≤ 1 then .block else .opening (n - 1))
  | .block =>
    stepBlock ((style.block.map (·.2)).getD []) c rest (stepCode style c rest)
  | .closing n => (blank c, if n ≤ 1 then .code else .closing (n - 1))
  | .literal quote =>
    if c = quote then (c, .code)
    else if c = '\n' then stepCode style c rest
    else if c = '\\' then (blank c, .escaped quote)
    else (blank c, .literal quote)
  | .escaped quote => (blank c, .literal quote)

/-- The mask of what follows, from the given state on. -/
def maskFrom (style : CommentStyle) : State → List Char → List Char
  | _, [] => []
  | st, c :: rest => (step style c rest st).1 :: maskFrom style (step style c rest st).2 rest

end Mask

/-- The text with comments and the contents of literals blanked out. -/
def mask (style : CommentStyle) (text : List Char) : List Char := Mask.maskFrom style .code text

end CodeSweep
