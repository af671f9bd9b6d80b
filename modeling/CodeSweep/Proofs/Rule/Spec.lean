/-
# Rules that specifications give

A specification gives a rule exactly if each of its fields can be read, and the fields of the rule
are what was read (`build_eq_ok_iff`).  The suppressors are checked for one thing only: that the
rule is not among them (`isBuilt_withSuppressors_iff`).
-/
import CodeSweep.Proofs.Result
import CodeSweep.Rule.Spec

namespace CodeSweep

namespace RuleSpec

/-- **What a specification gives**: the rule of the fields that are read, in whichever order. -/
theorem build_eq_ok_iff {spec : RuleSpec} {r : Rule} :
    spec.build = .ok r ↔
      ∃ p, spec.readPattern = .ok p ∧ spec.readName = .ok r.name ∧
        spec.readTarget r.name = .ok r.target ∧ spec.readSeverity r.name = .ok r.severity ∧
        spec.readExclude r.name = .ok r.exclude ∧ spec.readScope r.name = .ok r.scope ∧
        spec.readDetector r.name p = .ok r.detector ∧ spec.readFix r.name = .ok r.fix ∧
        spec.readSuppressors r.name = .ok r.suppressedBy ∧ spec.description = r.description ∧
        spec.disabledReason = r.disabledReason ∧ spec.knownLimitation = r.knownLimitation := by
  unfold build
  simp only [bind_eq_ok_iff]
  constructor
  · rintro ⟨p, hp, name, hname, target, htarget, severity, hseverity, exclude, hexclude, scope,
      hscope, detector, hdetector, fix, hfix, suppressedBy, hsuppressedBy, hr⟩
    obtain rfl := Except.ok.inj hr
    exact ⟨p, hp, hname, htarget, hseverity, hexclude, hscope, hdetector, hfix, hsuppressedBy, rfl,
      rfl, rfl⟩
  · rintro ⟨p, hp, hname, htarget, hseverity, hexclude, hscope, hdetector, hfix, hsuppressedBy,
      hdescription, hdisabled, hlimitation⟩
    refine ⟨p, hp, _, hname, _, htarget, _, hseverity, _, hexclude, _, hscope, _, hdetector, _,
      hfix, _, hsuppressedBy, ?_⟩
    rw [hdescription, hdisabled, hlimitation]
    rfl

/-- Suppressors are read if the rule is not among them. -/
theorem readSuppressors_eq_ok_iff {spec : RuleSpec} {name : String} {names : List String} :
    spec.readSuppressors name = .ok names ↔ spec.suppressedBy = names ∧ name ∉ names := by
  unfold readSuppressors
  by_cases h : name ∈ spec.suppressedBy
  · rw [if_pos (by simpa using h)]
    constructor
    · intro herror
      cases herror
    · rintro ⟨rfl, hname⟩
      exact absurd h hname
  · rw [if_neg (by simpa using h), Except.ok.injEq]
    constructor
    · rintro rfl
      exact ⟨rfl, h⟩
    · exact And.left

end RuleSpec

namespace Rule

/-- The rule comes from a specification. -/
def IsBuilt (r : Rule) : Prop := ∃ spec : RuleSpec, spec.build = .ok r

/-- The rule with other suppressors. -/
def withSuppressors (r : Rule) (names : List String) : Rule := { r with suppressedBy := names }

/-- **Any suppressors will do**, except for the rule itself. -/
theorem isBuilt_withSuppressors_iff {r : Rule} (hr : r.IsBuilt) (names : List String) :
    (r.withSuppressors names).IsBuilt ↔ r.name ∉ names := by
  constructor
  · rintro ⟨spec, hspec⟩
    obtain ⟨p, -, -, -, -, -, -, -, -, hsuppressors, -⟩ := RuleSpec.build_eq_ok_iff.mp hspec
    exact (RuleSpec.readSuppressors_eq_ok_iff.mp hsuppressors).2
  · intro hname
    obtain ⟨spec, hspec⟩ := hr
    obtain ⟨p, hp, hn, htarget, hseverity, hexclude, hscope, hdetector, hfix, -, hrest⟩ :=
      RuleSpec.build_eq_ok_iff.mp hspec
    refine ⟨{ spec with suppressedBy := names }, RuleSpec.build_eq_ok_iff.mpr ⟨p, hp, hn, htarget,
      hseverity, hexclude, hscope, hdetector, hfix, ?_, hrest⟩⟩
    exact RuleSpec.readSuppressors_eq_ok_iff.mpr ⟨rfl, hname⟩

end Rule

end CodeSweep
