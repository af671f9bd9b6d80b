/-
# Rules that make each other superfluous

A rule yields to the rules that it names as its suppressors.  If no rule yields to itself, not even
through others, then on each line where something is found something is kept: a finding of a rule
that yields to none of the rules that fire there.  And if some rule does, then the rules that go
round in circles can silence each other on a line (`acyclic_iff_keepsLines`).
-/
import CodeSweep.Proofs.Rule.Spec
import CodeSweep.Proofs.Scan.Order
import Mathlib.Data.List.Chain
import Mathlib.Data.List.Forall2
import Mathlib.Order.WellFoundedSet

namespace CodeSweep

/-! ## Yielding -/

namespace Registry

/-- The first rule names the second one as a suppressor. -/
def YieldsTo (reg : Registry) (r s : Rule) : Prop :=
  r ∈ reg.rules ∧ s ∈ reg.rules ∧ s.name ∈ r.suppressedBy

/-- No rule yields to itself, not even through others. -/
def Acyclic (reg : Registry) : Prop := ∀ r, ¬ Relation.TransGen reg.YieldsTo r r

/-- If suppressors yield to none, no rule yields to itself. -/
theorem acyclic_of_suppressors {reg : Registry} (h : ∀ r ∈ reg.rules, ∀ s ∈ reg.rules,
    s.name ∈ r.suppressedBy → s.suppressedBy = []) : reg.Acyclic := by
  intro r hr
  obtain ⟨s, ⟨-, -, hs⟩, -⟩ := Relation.TransGen.head'_iff.mp hr
  obtain ⟨t, -, ht, hrmem, hname⟩ := Relation.TransGen.tail'_iff.mp hr
  rw [h t ht r hrmem hname] at hs
  exact List.not_mem_nil hs

/-- No rule of the catalogue yields to itself. -/
theorem acyclic_builtin : builtin.Acyclic := by
  apply acyclic_of_suppressors
  show ∀ r ∈ catalogue, ∀ s ∈ catalogue, s.name ∈ r.suppressedBy → s.suppressedBy = []
  decide +kernel

/-- Something that every rule has if all rules that it yields to have it, every rule has. -/
theorem Acyclic.induct {reg : Registry} (h : reg.Acyclic) {P : Rule → Prop}
    (hP : ∀ r ∈ reg.rules, (∀ s, reg.YieldsTo r s → P s) → P r) {r : Rule} (hr : r ∈ reg.rules) :
    P r := by
  have : IsTrans Rule fun s t => Relation.TransGen reg.YieldsTo t s :=
    ⟨fun _ _ _ hst htu => htu.trans hst⟩
  have : Std.Irrefl fun s t => Relation.TransGen reg.YieldsTo t s := ⟨h⟩
  have : IsStrictOrder Rule fun s t => Relation.TransGen reg.YieldsTo t s := ⟨⟩
  have hwf : { s | s ∈ reg.rules }.WellFoundedOn fun s t => Relation.TransGen reg.YieldsTo t s :=
    (List.finite_toSet reg.rules).wellFoundedOn
  refine hwf.induction hr ?_
  intro s hs ih
  exact hP s hs fun t ht => ih t ht.2.1 (.single ht)

end Registry

namespace Scan

/-! ## What is kept on a line -/

/-- The candidate is a finding of a rule of the registry. -/
def FromRegistry (reg : Registry) (c : Candidate) : Prop :=
  c.1 ∈ reg.rules ∧ c.2.rule = c.1.name

/-- Whatever the rules of the registry find, on each line with findings some are kept. -/
def KeepsLines (reg : Registry) : Prop :=
  ∀ cands : List Candidate, (∀ c ∈ cands, FromRegistry reg c) →
    ∀ line, (∃ f ∈ dropSuperfluous cands, f.line = line) ↔ ∃ c ∈ cands, c.2.line = line

/-- A finding is kept if it comes from a candidate that is not superfluous. -/
theorem mem_dropSuperfluous {cands : List Candidate} {f : Finding} :
    f ∈ dropSuperfluous cands ↔ ∃ c ∈ cands, isSuperfluous cands c = false ∧ c.2 = f := by
  simp only [dropSuperfluous, List.mem_map, List.mem_filter, Bool.not_eq_true', and_assoc]

/-- A candidate is superfluous if one on the same line comes from a suppressor. -/
theorem isSuperfluous_iff {cands : List Candidate} {c : Candidate} :
    isSuperfluous cands c = true ↔
      ∃ d ∈ cands, d.2.line = c.2.line ∧ d.2.rule ∈ c.1.suppressedBy := by
  simp only [isSuperfluous, firesOnLine, List.any_eq_true, Bool.and_eq_true, beq_iff_eq]
  constructor
  · rintro ⟨_, hname, d, hd, hline, rfl⟩
    exact ⟨d, hd, hline, hname⟩
  · rintro ⟨d, hd, hline, hname⟩
    exact ⟨_, hname, d, hd, hline, rfl⟩

/-- What is kept on a line was there. -/
theorem exists_candidate_of_kept {cands : List Candidate} {line : Nat}
    (h : ∃ f ∈ dropSuperfluous cands, f.line = line) : ∃ c ∈ cands, c.2.line = line := by
  obtain ⟨f, hf, hline⟩ := h
  obtain ⟨c, hc, -, rfl⟩ := mem_dropSuperfluous.mp hf
  exact ⟨c, hc, hline⟩

/-- Where no rule yields to itself, something is kept on each line with candidates. -/
theorem exists_kept_of_acyclic {reg : Registry} (hreg : reg.Acyclic) {cands : List Candidate}
    (hcands : ∀ c ∈ cands, FromRegistry reg c) {line : Nat}
    (h : ∃ c ∈ cands, c.2.line = line) : ∃ f ∈ dropSuperfluous cands, f.line = line := by
  obtain ⟨c, hc, hline⟩ := h
  -- a rule that fires on the line has a finding kept, or yields to another rule that fires there
  have hrule : ∀ r ∈ reg.rules, ∀ c ∈ cands, c.1 = r → c.2.line = line →
      ∃ f ∈ dropSuperfluous cands, f.line = line := by
    intro r hr
    refine hreg.induct (P := fun r => ∀ c ∈ cands, c.1 = r → c.2.line = line →
      ∃ f ∈ dropSuperfluous cands, f.line = line) ?_ hr
    intro r hr ih c hc hcr hline
    cases hsuperfluous : isSuperfluous cands c with
    | false => exact ⟨c.2, mem_dropSuperfluous.mpr ⟨c, hc, hsuperfluous, rfl⟩, hline⟩
    | true =>
        obtain ⟨d, hd, hdline, hname⟩ := isSuperfluous_iff.mp hsuperfluous
        obtain ⟨hdmem, hdrule⟩ := hcands d hd
        have hyields : reg.YieldsTo r d.1 := by
          refine ⟨hr, hdmem, ?_⟩
          rwa [← hcr, ← hdrule]
        exact ih d.1 hyields d hd rfl (hdline.trans hline)
  exact hrule c.1 (hcands c hc).1 c hc rfl hline

/-- Where no rule yields to itself, lines are kept. -/
theorem keepsLines_of_acyclic {reg : Registry} (hreg : reg.Acyclic) : KeepsLines reg :=
  fun _ hcands _ => ⟨exists_candidate_of_kept, exists_kept_of_acyclic hreg hcands⟩

/-- A candidate for the first line of a text. -/
def onFirstLine (r : Rule) : Candidate := (r, .ofHit "" "" r ⟨⟨⟨1, 1⟩, ⟨1, 1⟩⟩, []⟩)

/-- Where lines are kept, no rule yields to itself: all rules that do would silence a line. -/
theorem acyclic_of_keepsLines {reg : Registry} (h : KeepsLines reg) : reg.Acyclic := by
  classical
  intro r hr
  have hmem : ∀ s t, Relation.TransGen reg.YieldsTo s t → s ∈ reg.rules := by
    intro s t hst
    obtain ⟨u, hu, -⟩ := Relation.TransGen.head'_iff.mp hst
    exact hu.1
  -- all rules that yield to themselves fire on one line
  let cands := (reg.rules.filter fun s => Relation.TransGen reg.YieldsTo s s).map onFirstLine
  have hcands : ∀ c ∈ cands, FromRegistry reg c := by
    intro c hc
    obtain ⟨s, hs, rfl⟩ := List.mem_map.mp hc
    exact ⟨(List.mem_filter.mp hs).1, rfl⟩
  have hcandidate : ∀ s, Relation.TransGen reg.YieldsTo s s → onFirstLine s ∈ cands := by
    intro s hs
    exact List.mem_map_of_mem (List.mem_filter.mpr ⟨hmem s s hs, by simpa using hs⟩)
  obtain ⟨f, hf, -⟩ := (h cands hcands 1).mpr ⟨onFirstLine r, hcandidate r hr, rfl⟩
  obtain ⟨c, hc, hsuperfluous, -⟩ := mem_dropSuperfluous.mp hf
  obtain ⟨s, hs, rfl⟩ := List.mem_map.mp hc
  have hcycle : Relation.TransGen reg.YieldsTo s s := by
    simpa using (List.mem_filter.mp hs).2
  -- the next rule of the circle is among those that fire
  obtain ⟨t, hst, hts⟩ := Relation.TransGen.head'_iff.mp hcycle
  have htrue : isSuperfluous cands (onFirstLine s) = true := by
    rw [isSuperfluous_iff]
    exact ⟨onFirstLine t, hcandidate t (Relation.TransGen.tail' hts hst), rfl, hst.2.2⟩
  rw [hsuperfluous] at htrue
  cases htrue

/-! ## Circles -/

/-- Neighbours in the circle of the two: each rule with the next one, the last with the first. -/
def neighbours (r : Rule) (rs : List Rule) : List (Rule × Rule) := (r :: rs).zip (rs ++ [r])

/-- A circle is a chain if its neighbours are related. -/
theorem isChain_circle_iff {R : Rule → Rule → Prop} {r : Rule} {rs : List Rule} :
    List.IsChain R (r :: rs ++ [r]) ↔ ∀ p ∈ neighbours r rs, R p.1 p.2 := by
  rw [List.isChain_cons_append_singleton_iff_forall₂, List.forall₂_iff_zip]
  constructor
  · rintro ⟨-, h⟩ ⟨s, t⟩ hp
    exact h hp
  · intro h
    exact ⟨by simp, fun hp => h _ hp⟩

/-- Neighbours are members of the circle. -/
theorem mem_of_mem_neighbours {r s t : Rule} {rs : List Rule} (h : (s, t) ∈ neighbours r rs) :
    s ∈ r :: rs ∧ t ∈ r :: rs := by
  obtain ⟨hs, ht⟩ := List.of_mem_zip h
  rw [List.mem_append, List.mem_singleton] at ht
  exact ⟨hs, List.mem_cons.mpr ht.symm⟩

/-- Each member of a circle has a neighbour. -/
theorem exists_neighbour {r s : Rule} {rs : List Rule} (h : s ∈ r :: rs) :
    ∃ t, (s, t) ∈ neighbours r rs := by
  have hfst : (neighbours r rs).map Prod.fst = r :: rs := List.map_fst_zip (by simp)
  rw [← hfst] at h
  obtain ⟨⟨_, t⟩, ht, rfl⟩ := List.mem_map.mp h
  exact ⟨t, ht⟩

/-- The rule with the rules that come after it in the circle as its suppressors. -/
def inCircle (r : Rule) (rs : List Rule) (s : Rule) : Rule :=
  s.withSuppressors (((neighbours r rs).filter fun p => p.1 = s).map (·.2.name))

/-- The suppressors of a rule in a circle are the names that come after it. -/
theorem mem_suppressedBy_inCircle {r s : Rule} {rs : List Rule} {name : String} :
    name ∈ (inCircle r rs s).suppressedBy ↔ ∃ t, (s, t) ∈ neighbours r rs ∧ t.name = name := by
  simp only [inCircle, Rule.withSuppressors, List.mem_map, List.mem_filter, decide_eq_true_eq]
  constructor
  · rintro ⟨⟨s', t⟩, ⟨ht, rfl⟩, rfl⟩
    exact ⟨t, ht, rfl⟩
  · rintro ⟨t, ht, rfl⟩
    exact ⟨(s, t), ⟨ht, rfl⟩, rfl⟩

section

variable {rules : List Rule} {reg : Registry} {r : Rule} {rs : List Rule}

/-- **Circles are accepted**: in any registry, rules can be made to yield in a circle unless a rule
would yield to itself. -/
theorem exists_circle (hbuild : Registry.build rules = .ok reg) (hrules : ∀ s ∈ rules, s.IsBuilt)
    (hmem : ∀ s ∈ r :: rs, s ∈ rules) (hne : List.IsChain (· ≠ ·) (r :: rs ++ [r])) :
    (∀ s ∈ rules.map (inCircle r rs), s.IsBuilt) ∧
      ∃ reg', Registry.build (rules.map (inCircle r rs)) = .ok reg' ∧
        List.IsChain reg'.YieldsTo ((r :: rs ++ [r]).map (inCircle r rs)) := by
  obtain ⟨rfl, hnodup, hanalysis, -⟩ := Registry.build_eq_ok_iff.mp hbuild
  have hnames : (rules.map (inCircle r rs)).map (·.name) = rules.map (·.name) := by
    rw [List.map_map]
    rfl
  constructor
  · intro s' hs'
    obtain ⟨s, hs, rfl⟩ := List.mem_map.mp hs'
    refine (Rule.isBuilt_withSuppressors_iff (hrules s hs) _).mpr ?_
    intro hname
    obtain ⟨t, ht, htname⟩ := mem_suppressedBy_inCircle.mp hname
    obtain ⟨-, htmem⟩ := mem_of_mem_neighbours ht
    have hst : s = t := List.inj_on_of_nodup_map hnodup hs (hmem t htmem) htname.symm
    exact isChain_circle_iff.mp hne (s, t) ht hst
  · refine ⟨⟨rules.map (inCircle r rs)⟩, Registry.build_eq_ok_iff.mpr ⟨rfl, ?_, ?_, ?_⟩, ?_⟩
    · rwa [hnames]
    · intro s' hs'
      obtain ⟨s, hs, rfl⟩ := List.mem_map.mp hs'
      exact hanalysis s hs
    · intro s' hs' name hname
      obtain ⟨s, hs, rfl⟩ := List.mem_map.mp hs'
      obtain ⟨t, ht, rfl⟩ := mem_suppressedBy_inCircle.mp hname
      rw [hnames]
      exact List.mem_map_of_mem (hmem t (mem_of_mem_neighbours ht).2)
    · rw [List.isChain_map, isChain_circle_iff]
      rintro ⟨s, t⟩ hst
      obtain ⟨hs, ht⟩ := mem_of_mem_neighbours hst
      exact ⟨List.mem_map_of_mem (hmem s hs), List.mem_map_of_mem (hmem t ht),
        mem_suppressedBy_inCircle.mpr ⟨t, hst, rfl⟩⟩

/-- **Circles are silent**: on a line where all its rules fire, none keeps a finding. -/
theorem not_mem_circle_of_kept (hbuild : Registry.build rules = .ok reg)
    (hcircle : List.IsChain reg.YieldsTo (r :: rs ++ [r])) {cands : List Candidate}
    (hcands : ∀ c ∈ cands, FromRegistry reg c) {line : Nat}
    (hfires : ∀ s ∈ r :: rs, firesOnLine cands line s.name = true) {f : Finding}
    (hf : f ∈ dropSuperfluous cands) (hline : f.line = line) :
    f.rule ∉ (r :: rs).map (·.name) := by
  intro hrule
  obtain ⟨c, hc, hsuperfluous, rfl⟩ := mem_dropSuperfluous.mp hf
  obtain ⟨s, hs, hname⟩ := List.mem_map.mp hrule
  obtain ⟨t, hst⟩ := exists_neighbour hs
  obtain ⟨hsmem, -, hyields⟩ := isChain_circle_iff.mp hcircle (s, t) hst
  obtain ⟨hcmem, hcrule⟩ := hcands c hc
  obtain rfl := List.inj_on_of_nodup_map (Registry.nodup_names_of_build hbuild) hsmem hcmem
    (hname.trans hcrule)
  have htrue : isSuperfluous cands c = true := by
    rw [isSuperfluous, List.any_eq_true]
    exact ⟨t.name, hyields, hline ▸ hfires t (mem_of_mem_neighbours hst).2⟩
  rw [hsuperfluous] at htrue
  cases htrue

end

/-- **Superfluous findings and circles.**  No rule of a registry yields to itself, not even through
others, if and only if on each line with findings some are kept.  So it is with the catalogue.  A
rule is refused only if it yields to itself directly; longer circles are accepted, and keep nothing
on a line where all their rules fire. -/
theorem acyclic_iff_keepsLines :
    (∀ reg : Registry, reg.Acyclic ↔ KeepsLines reg) ∧
    (Registry.builtin.Acyclic ∧ KeepsLines .builtin) ∧
    (∀ r : Rule, r.IsBuilt → ∀ names, (r.withSuppressors names).IsBuilt ↔ r.name ∉ names) ∧
    ∀ (rules : List Rule) (reg : Registry), Registry.build rules = .ok reg →
      (∀ r rs, (∀ s ∈ rules, s.IsBuilt) → (∀ s ∈ r :: rs, s ∈ rules) →
        List.IsChain (· ≠ ·) (r :: rs ++ [r]) →
        (∀ s ∈ rules.map (inCircle r rs), s.IsBuilt) ∧
          ∃ reg', Registry.build (rules.map (inCircle r rs)) = .ok reg' ∧
            List.IsChain reg'.YieldsTo ((r :: rs ++ [r]).map (inCircle r rs))) ∧
      ∀ r rs, List.IsChain reg.YieldsTo (r :: rs ++ [r]) →
        ∀ cands : List Candidate, (∀ c ∈ cands, FromRegistry reg c) →
          ∀ line, (∀ s ∈ r :: rs, firesOnLine cands line s.name = true) →
            ∀ f ∈ dropSuperfluous cands, f.line = line → f.rule ∉ (r :: rs).map (·.name) := by
  refine ⟨fun reg => ⟨keepsLines_of_acyclic, acyclic_of_keepsLines⟩,
    ⟨Registry.acyclic_builtin, keepsLines_of_acyclic Registry.acyclic_builtin⟩,
    fun r hr => Rule.isBuilt_withSuppressors_iff hr, ?_⟩
  intro rules reg hbuild
  constructor
  · intro r rs hrules hmem hne
    exact exists_circle hbuild hrules hmem hne
  · intro r rs hcircle cands hcands line hfires f hf hline
    exact not_mem_circle_of_kept hbuild hcircle hcands hfires hf hline

/-- Three rules for the letter `x`. -/
def letterRules : List Rule := [letterRule "a", letterRule "b", letterRule "c"]

/-- What the rules for the letter `x` are built from. -/
def letterSpec (name : String) : RuleSpec :=
  { name := .text name, language := .text "universal", pattern := some "x"
    severity := .text "low" }

/-- In a circle, three rules find nothing in a text that all of them hit; but if all rules of the
catalogue fire on one line, something is kept. -/
theorem acyclic_iff_keepsLines_letters :
    (∃ f ∈ dropSuperfluous (catalogue.map onFirstLine), f.line = 1) ∧
    ((letterRule "a").withSuppressors ["b"]).IsBuilt ∧
    ∃ reg, Registry.build
        (letterRules.map (inCircle (letterRule "a") [letterRule "b", letterRule "c"])) = .ok reg ∧
      ∀ f ∈ dropSuperfluous (candidates reg.rules "f.c" "c" "x".toList),
        f.line = 1 → f.rule ∉ letterRules.map (·.name) := by
  obtain ⟨-, hbuiltin, hbuilt, hcircles⟩ := acyclic_iff_keepsLines
  have hletters : ∀ s ∈ letterRules, s.IsBuilt := by
    intro s hs
    refine ⟨letterSpec s.name, ?_⟩
    revert s
    decide +kernel
  refine ⟨?_, ?_, ?_⟩
  · refine (hbuiltin.2 (catalogue.map onFirstLine) ?_ 1).mpr ?_
    · intro c hc
      obtain ⟨r, hr, rfl⟩ := List.mem_map.mp hc
      exact ⟨hr, rfl⟩
    · decide +kernel
  · exact (hbuilt (letterRule "a") (hletters _ List.mem_cons_self) ["b"]).mpr (by decide)
  · obtain ⟨-, reg, hbuild, hchain⟩ := (hcircles letterRules ⟨letterRules⟩ (by decide +kernel)).1
      (letterRule "a") [letterRule "b", letterRule "c"] hletters (by decide +kernel)
      (by decide +kernel)
    obtain rfl : reg = ⟨_⟩ := (Registry.build_eq_ok_iff.mp hbuild).1
    refine ⟨_, hbuild, ?_⟩
    refine (hcircles _ _ hbuild).2 (inCircle _ _ (letterRule "a"))
      ([letterRule "b", letterRule "c"].map (inCircle _ _)) hchain _ ?_ 1 (by decide +kernel)
    intro c hc
    obtain ⟨r, hr, h, -, rfl⟩ := mem_candidates.mp hc
    exact ⟨hr, rfl⟩

end Scan

end CodeSweep
