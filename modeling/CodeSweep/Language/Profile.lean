/-
# Language profiles

What is known of each language: the extensions of its files, how comments are written, the globs of
test files and of entry points, and the patterns of lines that export something.
-/
import CodeSweep.Language
import CodeSweep.Mask
import CodeSweep.Pattern.Basic

namespace CodeSweep

/-! ## The type -/

/-- What is known of a language. -/
structure Profile where
  extensions : List String
  comments : CommentStyle
  testGlobs : List String
  entryPoints : List String
  exports : List Pattern
  deriving DecidableEq, Repr

namespace Language

open Pattern

/-! ## Words for export patterns -/

/-- Blanks, if any. -/
def blanks : Pattern := many (.inside blankChars)

/-- At least one blank. -/
def blanks1 : Pattern := some1 (.inside blankChars)

/-- One of the words, then blanks, if it is there. -/
def modifier (w : String) : Pattern := optional (lit w ++ blanks1)

/-- A pattern at the start of the line, after blanks. -/
def indented (p : Pattern) : Pattern := textStart ++ blanks ++ p

/-- A capital letter of the ASCII set. -/
def capital : Pattern := one (.inside (between 'A' 'Z'))

/-- A word character, any number of times. -/
def wordRest : Pattern := many wordChar

/-! ## Globs of test directories -/

/-- Directories that hold tests in every language. -/
def testDirectories : List String := ["**/test/**", "**/tests/**"]

/-! ## The profiles -/

/-- The profile of a language. -/
def profile : Language → Profile
  | js =>
    { extensions := [".js", ".jsx", ".mjs", ".cjs"]
      comments := .slashes
      testGlobs :=
        ["*.test.js", "*.spec.js", "*.test.jsx", "*.spec.jsx", "*.test.mjs", "**/__tests__/**"]
          ++ testDirectories
      entryPoints := ["bin/**", "cli.js", "cli.mjs"]
      exports :=
        [indented ("export" ++ blanks1 ++ modifier "default" ++ modifier "async" ++
            anyWord ["function", "class", "const", "let", "var"] ++ wordEdge),
          indented ("module.exports" ++ blanks ++ "="),
          indented ("exports." ++ some1 wordChar ++ blanks ++ "=")] }
  | typescript =>
    { extensions := [".ts", ".tsx", ".mts", ".cts", ".d.ts"]
      comments := .slashes
      testGlobs :=
        ["*.test.ts", "*.spec.ts", "*.test.tsx", "*.spec.tsx", "**/__tests__/**"]
          ++ testDirectories
      entryPoints := ["bin/**", "cli.ts"]
      exports :=
        [indented ("export" ++ blanks1 ++ modifier "default" ++ modifier "declare" ++
            modifier "async" ++
            anyWord ["function", "class", "const", "let", "var", "interface", "type", "enum",
              "namespace"] ++ wordEdge),
          indented ("export" ++ blanks ++ "\x7b")] }
  | python =>
    { extensions := [".py", ".pyi", ".pyw"]
      comments := .hash
      testGlobs := ["test_*.py", "*_test.py", "conftest.py"] ++ testDirectories
      entryPoints := ["__main__.py", "manage.py"]
      exports :=
        [textStart ++ "__all__" ++ blanks ++ optional (":" ++ some1 (.outside (chars "="))) ++
          "="] }
  | go =>
    { extensions := [".go"]
      comments := .slashes
      testGlobs := ["*_test.go", "**/testdata/**"]
      entryPoints := ["main.go", "cmd/**"]
      exports :=
        [textStart ++ "func" ++ blanks1 ++
            optional ("(" ++ many (.outside (chars ")")) ++ ")" ++ blanks) ++
            capital ++ wordRest ++ blanks ++ oneOf "([",
          textStart ++ anyWord ["type", "var", "const"] ++ blanks1 ++ capital ++ wordRest ++
            wordEdge] }
  | rust =>
    { extensions := [".rs"]
      comments := .slashes
      testGlobs := ["*_test.rs", "*_tests.rs", "tests.rs", "**/tests/**"]
      entryPoints := ["src/main.rs", "src/bin/**", "build.rs"]
      exports :=
        [indented ("pub" ++ optional ("(" ++ many (.outside (chars ")")) ++ ")") ++ blanks1 ++
          modifier "async" ++
          anyWord ["fn", "struct", "enum", "trait", "mod", "const", "static", "type", "use"] ++
          wordEdge)] }
  | java =>
    { extensions := [".java"]
      comments := .slashes
      testGlobs := ["*Test.java", "*Tests.java", "*IT.java"] ++ testDirectories
      entryPoints := ["Main.java", "Application.java"]
      exports :=
        [indented ("public" ++ blanks1 ++
          repeated (anyWord ["abstract", "final", "static", "sealed"] ++ blanks1) ++
          anyWord ["class", "interface", "enum", "record", "@interface"] ++ wordEdge)] }
  | kotlin =>
    { extensions := [".kt", ".kts", ".gradle.kts"]
      comments := .slashes
      testGlobs := ["*Test.kt", "*Tests.kt"] ++ testDirectories
      entryPoints := ["main.kt", "Main.kt", "Application.kt"]
      exports :=
        [textStart ++ notAhead (blanks ++ anyWord ["private", "internal"] ++ wordEdge) ++ blanks ++
          modifier "public" ++
          repeated (anyWord ["data", "sealed", "abstract", "open", "enum", "inline", "value"] ++
            blanks1) ++
          anyOf ["fun", "class", "object", "interface", "typealias", "val",
            "const" ++ blanks1 ++ "val"] ++ wordEdge] }
  | c =>
    { extensions := [".c", ".h"]
      comments := .slashes
      testGlobs := ["*_test.c", "test_*.c", "*_test.h"] ++ testDirectories
      entryPoints := ["main.c", "src/main.c"]
      exports :=
        [indented ("extern" ++ blanks1),
          indented ("#" ++ blanks ++ "define" ++ blanks1 ++
            one (.inside (between 'A' 'Z' ++ chars "_")) ++
            many (.inside (between 'A' 'Z' ++ between '0' '9' ++ chars "_")) ++ wordEdge)] }
  | cpp =>
    { extensions := [".cpp", ".cc", ".cxx", ".c++", ".hpp", ".hh", ".hxx", ".h++", ".ipp"]
      comments := .slashes
      testGlobs :=
        ["*_test.cpp", "*_test.cc", "*_test.cxx", "*_unittest.cc", "test_*.cpp"]
          ++ testDirectories
      entryPoints := ["main.cpp", "main.cc", "main.cxx", "src/main.cpp"]
      exports :=
        [indented ("extern" ++ blanks1),
          "__declspec" ++ blanks ++ "(" ++ blanks ++ "dllexport" ++ blanks ++ ")",
          "__attribute__" ++ blanks ++ "((" ++ blanks ++ "visibility" ++ blanks ++ "(" ++ blanks ++
            "\"default\"" ++ blanks ++ ")" ++ blanks ++ "))"] }
  | shell =>
    { extensions := [".sh", ".bash", ".zsh", ".ksh"]
      comments := .hash
      testGlobs := ["*_test.sh", "*.test.sh", "*.bats"] ++ testDirectories
      entryPoints := []
      exports := [indented ("export" ++ blanks1 ++ one identStart ++ wordRest)] }
  | ruby =>
    { extensions := [".rb", ".rake", ".gemspec", ".ru"]
      comments := .hashOrBegin
      testGlobs := ["*_spec.rb", "*_test.rb", "test_*.rb", "**/spec/**"] ++ testDirectories
      entryPoints := ["bin/**", "exe/**", "Rakefile"]
      exports := [indented ("module_function" ++ wordEdge), indented ("public" ++ wordEdge)] }
  | php =>
    { extensions := [".php", ".phtml"]
      comments := .slashes
      testGlobs := ["*Test.php"] ++ testDirectories
      entryPoints := ["index.php", "artisan", "bin/**"]
      exports :=
        [indented (optional (anyOf ["final" ++ blanks1, "abstract" ++ blanks1]) ++
            anyWord ["class", "interface", "trait", "enum"] ++ blanks1 ++ some1 wordChar),
          indented ("public" ++ blanks1 ++ modifier "static" ++ "function" ++ wordEdge)] }

/-! ## Globs of several languages -/

/-- The texts without repetitions, each where it came first. -/
def dedupe (globs : List String) : List String :=
  globs.foldl (fun seen g => if seen.contains g then seen else seen ++ [g]) []

/-- The globs of the test files of the languages. -/
def testGlobsOf (languages : List Language) : List String :=
  dedupe (languages.flatMap (·.profile.testGlobs))

/-- The globs of test files in any language. -/
def allTestGlobs : List String := testGlobsOf all

end Language

end CodeSweep
