/-
# The rule catalogue

All rules that come with the library, those for every language first.
-/
import CodeSweep.Catalogue.C
import CodeSweep.Catalogue.Cpp
import CodeSweep.Catalogue.Go
import CodeSweep.Catalogue.Java
import CodeSweep.Catalogue.JavaScript
import CodeSweep.Catalogue.Kotlin
import CodeSweep.Catalogue.Php
import CodeSweep.Catalogue.Python
import CodeSweep.Catalogue.Ruby
import CodeSweep.Catalogue.Rust
import CodeSweep.Catalogue.Shell
import CodeSweep.Catalogue.TypeScript
import CodeSweep.Catalogue.Universal

namespace CodeSweep

/-- The rules that come with the library. -/
def catalogue : List Rule :=
  Catalogue.Universal.rules ++ Catalogue.JavaScript.rules ++ Catalogue.TypeScript.rules ++
    Catalogue.Python.rules ++ Catalogue.Go.rules ++ Catalogue.Rust.rules ++
    Catalogue.Java.rules ++ Catalogue.Kotlin.rules ++ Catalogue.C.rules ++ Catalogue.Cpp.rules ++
    Catalogue.Shell.rules ++ Catalogue.Ruby.rules ++ Catalogue.Php.rules

end CodeSweep
