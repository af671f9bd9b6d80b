/-
# Telling the language of a file

The longest known extension of the file name decides; failing that, the interpreter named on the
first line; failing that, the default language.
-/
import CodeSweep.Glob
import CodeSweep.Language.Profile
import CodeSweep.Text.Line
import CodeSweep.Text.Lowercase

namespace CodeSweep.Language

open Pattern

/-! ## Extensions -/

/-- All extensions with their languages, the longest first and equally long ones in the order of the
languages. -/
def extensions : List (String × Language) :=
  (all.flatMap fun l => l.profile.extensions.map fun e => (e, l)).mergeSort
    fun a b => decide (b.1.length ≤ a.1.length)

/-- The name ends with the extension and has something before it. -/
def hasExtension (name ext : List Char) : Bool :=
  ext.isSuffixOf name && decide (ext.length < name.length)

/-- The language that the extension of the file name stands for. -/
def ofExtension? (path : String) : Option Language :=
  let name := Text.lower (Path.baseName (Path.normalize path)).toList
  (extensions.find? fun e => hasExtension name e.1.toList).map (·.2)

/-- The extensions of the languages with one of the names, in the order of the languages. -/
def allowedExtensions (names : List String) : List String :=
  let enabled := names.map fun n => Text.lowerString (Text.trimString n)
  (all.filter fun l => enabled.contains l.name).flatMap (·.profile.extensions)

/-! ## The first line -/

/-- An interpreter line: a path or `env` with its options, then the interpreter. -/
def interpreterLine : Pattern :=
  textStart ++ "#!" ++ blanks ++ optional (many (.inside [.blank false]) ++ "/") ++
    optional ("env" ++ blanks1 ++
      repeated ("-" ++ some1 (.inside [.blank false]) ++ blanks1)) ++
    group "interpreter" (one (.inside letters) ++ many (.inside (wordChars ++ chars ".+-")))

/-- The interpreters of one language, with or without a version. -/
def pythonInterpreter : Pattern :=
  textStart ++ "python" ++
    optional (oneOf "23" ++ optional ("." ++ some1 (.inside digitChars))) ++ edge .textEnd

/-- The language of the interpreter that the first line of the contents names. -/
def ofFirstLine? (contents : List Char) : Option Language :=
  let line := (Text.trim (contents.takeWhile (· != '\n'))).toArray
  match interpreterLine.matchAt? line 0 with
  | none => none
  | some m =>
    match m.group? "interpreter" with
    | none => none
    | some span =>
      if pythonInterpreter.foundIn (Text.lower (Text.slice line.toList span)).toArray then
        some python
      else none

/-! ## The decision -/

/-- The language of a file, by its path and, if given, its contents. -/
def classify (path : String) (contents : Option (List Char)) : Language :=
  match ofExtension? path with
  | some l => l
  | none => (contents.bind ofFirstLine?).getD default

/-- The path follows a convention for test files: that of the language, or a test directory. -/
def isTestFile (l : Language) (path : String) : Except GlobError Bool := do
  if ← Glob.excludes l.profile.testGlobs path then return true
  Glob.excludes testDirectories path

/-- How comments are written, asked by extension or by name. -/
def commentStyle (key : String) : Except LanguageError CommentStyle :=
  let k := Text.lowerString (Text.trimString key)
  if k.toList.head? == some '.' then
    match extensions.find? (·.1 == k) with
    | some e => .ok e.2.profile.comments
    | none => .error (.noExtension key)
  else (named k).map (·.profile.comments)

end CodeSweep.Language
