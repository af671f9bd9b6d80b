/-
# Languages

The programming languages that files are told apart by.
-/
import CodeSweep.Text.Quoted

namespace CodeSweep

/-- A language that rules are written for. -/
inductive Language where
  | js
  | typescript
  | python
  | go
  | rust
  | java
  | kotlin
  | c
  | cpp
  | shell
  | ruby
  | php
  deriving DecidableEq, Repr

namespace Language

/-- The languages in the order in which they are listed everywhere. -/
def all : List Language :=
  [js, typescript, python, go, rust, java, kotlin, c, cpp, shell, ruby, php]

/-- The name in reports and configurations. -/
def name : Language → String
  | js => "js"
  | typescript => "typescript"
  | python => "python"
  | go => "go"
  | rust => "rust"
  | java => "java"
  | kotlin => "kotlin"
  | c => "c"
  | cpp => "cpp"
  | shell => "shell"
  | ruby => "ruby"
  | php => "php"

/-- The language of the name. -/
def ofName? (s : String) : Option Language := all.find? (·.name == s)

/-- What files nobody can tell apart are taken for. -/
def default : Language := js

end Language

/-- A question about a language that is not known. -/
inductive LanguageError where
  /-- No language has the name. -/
  | noProfile (name : String)
  /-- No language has the file name extension. -/
  | noExtension (extension : String)
  deriving DecidableEq, Repr

/-- The message for a language that is not known. -/
def LanguageError.message : LanguageError → String
  | .noProfile name => "No language profile registered for " ++ Text.quoted name
  | .noExtension ext => "No comment syntax registered for extension " ++ Text.quoted ext

/-- The language of the name, or the complaint that there is none. -/
def Language.named (s : String) : Except LanguageError Language :=
  match Language.ofName? s with
  | some l => .ok l
  | none => .error (.noProfile s)

end CodeSweep
