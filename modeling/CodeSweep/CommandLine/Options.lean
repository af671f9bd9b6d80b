/-
# Options

Arguments of a command line are options and plain arguments.  A long option has its value after an
equals sign or in the next argument; short ones may be joined behind one dash, and the value of the
last of them may follow at once.  After a double dash everything is a plain argument.
-/
namespace CodeSweep.CommandLine

/-! ## Declarations -/

/-- An option that a command knows. -/
structure Switch where
  /-- The long spelling, which the option is known by. -/
  name : String
  /-- The letter of the short spelling. -/
  short : Option Char := none
  takesValue : Bool := false
  deriving DecidableEq, Repr

/-- What the arguments say: the options in the order in which they were given, each with its value
or an empty text, and the plain arguments. -/
structure Arguments where
  options : List (String × String)
  plain : List String
  deriving DecidableEq, Repr

namespace Arguments

/-- The option was given. -/
def has (a : Arguments) (name : String) : Bool := a.options.any (·.1 == name)

/-- The values of all occurrences of the option. -/
def valuesOf (a : Arguments) (name : String) : List String :=
  (a.options.filter (·.1 == name)).map (·.2)

/-- The value of the option, the last one if it was given repeatedly. -/
def value? (a : Arguments) (name : String) : Option String := (a.valuesOf name).getLast?

/-- The arguments with options before them. -/
def withOptions (options : List (String × String)) (a : Arguments) : Arguments :=
  { a with options := options ++ a.options }

/-- The arguments with a plain one before them. -/
def withPlain (arg : String) (a : Arguments) : Arguments := { a with plain := arg :: a.plain }

end Arguments

/-! ## Reading -/

/-- What one argument that looks like an option says. -/
inductive Reading where
  /-- It is complete. -/
  | complete (options : List (String × String))
  /-- The next argument is the value of the last option. -/
  | wanting (options : List (String × String)) (name : String)
  deriving DecidableEq, Repr

/-- The letters behind a single dash. -/
def readLetters (switches : List Switch) : List Char → Option Reading
  | [] => some (.complete [])
  | c :: cs =>
    match switches.find? (·.short == some c) with
    | none => none
    | some s =>
      if s.takesValue then
        if cs.isEmpty then some (.wanting [] s.name)
        else some (.complete [(s.name, String.ofList cs)])
      else
        match readLetters switches cs with
        | none => none
        | some (.complete options) => some (.complete ((s.name, "") :: options))
        | some (.wanting options name) => some (.wanting ((s.name, "") :: options) name)

/-- A long option, with its value if an equals sign follows. -/
def readLong (switches : List Switch) (arg : List Char) : Option Reading :=
  let spelled := String.ofList (arg.takeWhile (· != '='))
  match switches.find? (·.name == spelled), arg.dropWhile (· != '=') with
  | some s, [] =>
    if s.takesValue then some (.wanting [] s.name) else some (.complete [(s.name, "")])
  | some s, _ :: value =>
    if s.takesValue then some (.complete [(s.name, String.ofList value)]) else none
  | none, _ => none

/-- An argument that looks like an option. -/
def readOption (switches : List Switch) (arg : String) : Option Reading :=
  match arg.toList with
  | '-' :: '-' :: cs => readLong switches ('-' :: '-' :: cs)
  | _ :: cs => readLetters switches cs
  | [] => none

/-- The argument starts with a dash and has more than that. -/
def looksLikeOption (arg : String) : Bool :=
  match arg.toList with
  | '-' :: _ :: _ => true
  | _ => false

/-- What the arguments say, unless there is an unknown option or a value too few or too many.
Where options do not mix with plain arguments, everything from the first plain one on is plain. -/
def readArguments (switches : List Switch) (mixed : Bool) : List String → Option Arguments
  | [] => some ⟨[], []⟩
  | arg :: rest =>
    if arg = "--" then some ⟨[], rest⟩
    else if looksLikeOption arg then
      match readOption switches arg with
      | none => none
      | some (.complete options) => (readArguments switches mixed rest).map (·.withOptions options)
      | some (.wanting options name) =>
        match rest with
        | [] => none
        | value :: rest =>
          (readArguments switches mixed rest).map (·.withOptions (options ++ [(name, value)]))
    else if mixed then (readArguments switches mixed rest).map (·.withPlain arg)
    else some ⟨[], arg :: rest⟩

end CodeSweep.CommandLine
