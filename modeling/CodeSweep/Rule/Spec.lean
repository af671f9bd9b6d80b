/-
# Rules from specifications

A rule that is not in the catalogue arrives as a specification whose fields may hold anything.
Building the rule reads the pattern first and then checks the fields one after the other; the first
complaint is reported.  Patterns that cannot be read are refused whether or not they are
patterns in the usual notation, of which some parts are left out.
-/
import CodeSweep.Pattern.Reader
import CodeSweep.Rule.Basic
import CodeSweep.Text.Quoted

namespace CodeSweep

/-! ## Specifications -/

/-- A field that should hold a text. -/
inductive SpecValue where
  /-- It does. -/
  | text (s : String)
  /-- It holds something else, which messages show like this. -/
  | other (shown : String)
  deriving DecidableEq, Repr

namespace SpecValue

/-- The value as it is put into a message. -/
def plain : SpecValue → String
  | text s => s
  | other shown => shown

/-- The value as a message shows it, a text in quotes. -/
def quoted : SpecValue → String
  | text s => Text.quoted s
  | other shown => shown

end SpecValue

/-- What a rule is to be built from. -/
structure RuleSpec where
  name : SpecValue
  language : SpecValue
  /-- The written pattern. -/
  pattern : Option String
  severity : SpecValue
  description : String := ""
  /-- The globs, where `none` stands for a list member that is no text, and for a field that is no
  list. -/
  exclude : Option (List (Option String)) := some []
  ignoreCase : Bool := false
  /-- The rule is detected by an analysis. -/
  analysis : Bool := false
  fix : Option Fix := none
  scope : SpecValue := .text "line"
  suppressedBy : List String := []
  disabledReason : Option String := none
  knownLimitation : Option String := none
  deriving DecidableEq, Repr

/-! ## Complaints -/

/-- Why a rule, or a list of rules, is refused. -/
inductive RuleError where
  | invalidPattern (name : String)
  | emptyName
  | paddedName (name : String)
  | unknownLanguage (name : String) (language : SpecValue)
  | unknownSeverity (name : String) (severity : SpecValue)
  | badExclude (name : String)
  | badScope (name : String)
  | analysisWithPattern (name : String)
  | neverMatches (name : String)
  | emptyReplacement (name : String)
  | suppressesItself (name : String)
  | duplicateName (name : String)
  | noAnalysis (name : String)
  | unknownSuppressors (name : String) (unknown : List String)
  deriving DecidableEq, Repr

/-- The wording of a complaint. -/
def RuleError.message : RuleError → String
  | invalidPattern n => n ++ ": invalid pattern"
  | emptyName => "Rule name must be a non-empty string."
  | paddedName n => "Rule name must not carry surrounding whitespace: " ++ Text.quoted n
  | unknownLanguage n l => n ++ ": unknown language " ++ l.quoted
  | unknownSeverity n s =>
    n ++ ": severity must be one of " ++ Severity.nameList ++ ", got " ++ s.quoted
  | badExclude n => n ++ ": exclude must be a tuple of non-empty glob strings."
  | badScope n => n ++ ": scope must be 'line' or 'text'."
  | analysisWithPattern n => n ++ ": multi-pass rules must not carry a pattern."
  | neverMatches n =>
    n ++ ": rule has no pattern and is not multi-pass, so it can never match."
  | emptyReplacement n => n ++ ": replace fixes need a replacement template."
  | suppressesItself n => n ++ ": a rule cannot suppress itself."
  | duplicateName n => "Duplicate rule name: " ++ n
  | noAnalysis n => n ++ ": multi-pass rule has no registered analyzer."
  | unknownSuppressors n unknown =>
    n ++ ": suppressed_by names unknown rules: " ++ ", ".intercalate unknown

/-! ## Building -/

namespace RuleSpec

/-- The pattern of the rule, read. -/
def readPattern (spec : RuleSpec) : Except RuleError (Option Pattern) :=
  match spec.pattern with
  | none => .ok none
  | some s =>
    match Pattern.read? spec.ignoreCase s with
    | some p => .ok (some p)
    | none => .error (.invalidPattern spec.name.plain)

/-- The name, which must say something and have no blanks around it. -/
def readName (spec : RuleSpec) : Except RuleError String :=
  match spec.name with
  | .other _ => .error .emptyName
  | .text s =>
    if Text.trimString s = "" then .error .emptyName
    else if Text.trimString s = s then .ok s
    else .error (.paddedName s)

/-- The target. -/
def readTarget (spec : RuleSpec) (name : String) : Except RuleError Target :=
  match spec.language with
  | .text "universal" => .ok .universal
  | .text s =>
    match Language.ofName? s with
    | some l => .ok (.only l)
    | none => .error (.unknownLanguage name spec.language)
  | .other _ => .error (.unknownLanguage name spec.language)

/-- The severity. -/
def readSeverity (spec : RuleSpec) (name : String) : Except RuleError Severity :=
  match spec.severity with
  | .text s =>
    match Severity.ofName? s with
    | some v => .ok v
    | none => .error (.unknownSeverity name spec.severity)
  | .other _ => .error (.unknownSeverity name spec.severity)

/-- The globs, none of which may be empty. -/
def readExclude (spec : RuleSpec) (name : String) : Except RuleError (List String) :=
  match spec.exclude with
  | none => .error (.badExclude name)
  | some globs =>
    if globs.all fun g => g.any (· != "") then .ok (globs.filterMap id)
    else .error (.badExclude name)

/-- The scope. -/
def readScope (spec : RuleSpec) (name : String) : Except RuleError Scope :=
  match spec.scope with
  | .text "line" => .ok .line
  | .text "text" => .ok .text
  | _ => .error (.badScope name)

/-- The detector: a pattern or an analysis, or nothing if the rule is disabled anyway. -/
def readDetector (spec : RuleSpec) (name : String) (p : Option Pattern) :
    Except RuleError Detector :=
  match p, spec.analysis with
  | some _, true => .error (.analysisWithPattern name)
  | some p, false => .ok (.pattern p spec.ignoreCase)
  | none, true => .ok .analysis
  | none, false =>
    if spec.disabledReason.isSome then .ok .nothing else .error (.neverMatches name)

/-- The fix, which must not replace by nothing. -/
def readFix (spec : RuleSpec) (name : String) : Except RuleError (Option Fix) :=
  match spec.fix with
  | none => .ok none
  | some f =>
    if f.kind = "replace" && f.replacement.all (· == "") then .error (.emptyReplacement name)
    else .ok (some f)

/-- The rules that make the rule superfluous, which it cannot do itself. -/
def readSuppressors (spec : RuleSpec) (name : String) : Except RuleError (List String) :=
  if spec.suppressedBy.contains name then .error (.suppressesItself name)
  else .ok spec.suppressedBy

/-- The rule, or the first complaint. -/
def build (spec : RuleSpec) : Except RuleError Rule := do
  let p ← spec.readPattern
  let name ← spec.readName
  let target ← spec.readTarget name
  let severity ← spec.readSeverity name
  let exclude ← spec.readExclude name
  let scope ← spec.readScope name
  let detector ← spec.readDetector name p
  let fix ← spec.readFix name
  let suppressedBy ← spec.readSuppressors name
  return {
    name, target, detector, severity, description := spec.description, exclude, fix, scope
    suppressedBy, disabledReason := spec.disabledReason, knownLimitation := spec.knownLimitation }

end RuleSpec

end CodeSweep
