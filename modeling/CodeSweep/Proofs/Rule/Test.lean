/-
# Testing a rule

A rule may be tested against a text as a whole, and it may be run line by line as scans do.  Where
its pattern stays in a line, and no line of the text is too long to be looked at, both agree
(`test_iff_hits_ne_nil`).  All patterns of the catalogue that are matched line by line stay in a
line.
-/
import CodeSweep.Proofs.Pattern.Local
import CodeSweep.Proofs.Rule.Lines
import CodeSweep.Registry

namespace CodeSweep

/-! ## Hits in lines that are looked at -/

namespace Hit

/-- There is a hit in a line that is not too long if the pattern is found in it. -/
theorem inLine?_isSome {line : List Char} (hline : line.length ≤ maxLineLength) (p : Pattern)
    (number : Nat) : (inLine? p number line).isSome = p.foundIn line.toArray := by
  rw [inLine?, if_neg (Nat.not_lt_of_le hline), Option.isSome_map, Pattern.foundIn]

/-- There are hits in such lines if the pattern is found in one of them. -/
theorem inLines_ne_nil_iff {ls : List (List Char)} (hls : ∀ line ∈ ls, line.length ≤ maxLineLength)
    (p : Pattern) (number : Nat) :
    inLines p number ls ≠ [] ↔ ∃ line ∈ ls, p.foundIn line.toArray = true := by
  induction ls generalizing number with
  | nil => simp [inLines]
  | cons line ls ih =>
      rw [List.forall_mem_cons] at hls
      rw [inLines, ne_eq, List.append_eq_nil_iff, Classical.not_and_iff_not_or_not, ← ne_eq,
        ← ne_eq, ih hls.2, List.exists_mem_cons_iff, ← inLine?_isSome hls.1 p number]
      cases inLine? p number line <;> simp

end Hit

namespace Rule

/-! ## Both ways to run a rule -/

/-- An enabled rule with a pattern for lines hits what the pattern matches in the lines. -/
theorem hits?_eq_inLines {r : Rule} (henabled : r.enabled = true) (hscope : r.scope = .line)
    {p : Pattern} (hp : r.pattern? = some p) (text : List Char) :
    r.hits? text = some (Hit.inLines p 1 (Text.lines text)) := by
  rw [pattern?] at hp
  split at hp
  · next q anyCase hdetector =>
      obtain rfl := Option.some.inj hp
      rw [hits?, if_pos henabled, enabledHits?, hdetector, hscope]
  · cases hp

/-- **Testing and hitting.**  Where the pattern stays in a line, a test of the whole text tells
whether there is a hit in the lines. -/
theorem test_iff_hits_ne_nil {r : Rule} {p : Pattern} (hp : r.pattern? = some p)
    (hlocal : p.staysInLine = true) {text : List Char} (htext : '\r' ∉ text)
    (hlines : ∀ line ∈ Text.lines text, line.length ≤ Hit.maxLineLength) :
    r.test text = true ↔ Hit.inLines p 1 (Text.lines text) ≠ [] := by
  rw [test, hp, Hit.inLines_ne_nil_iff hlines]
  exact Pattern.foundIn_iff_exists_line hlocal htext

/-! ## The catalogue -/

/-- The catalogue's patterns for lines stay in a line. -/
theorem staysInLine_catalogue :
    ∀ r ∈ catalogue, r.enabled = true → r.scope = .line →
      ∀ p ∈ r.pattern?, p.staysInLine = true := by
  decide +kernel

/-- **Rules of the catalogue can be tested** against whole texts: an enabled rule with a pattern for
lines is found in a text, without carriage returns and without lines that are too long, exactly if
running it over the lines has a hit. -/
theorem test_iff_exists_hit {r : Rule} (hr : r ∈ Registry.builtin.rules)
    (henabled : r.enabled = true) (hscope : r.scope = .line) (hpattern : r.pattern?.isSome = true)
    {text : List Char} (htext : '\r' ∉ text)
    (hlines : ∀ line ∈ Text.lines text, line.length ≤ Hit.maxLineLength) :
    ∃ hs, r.hits? text = some hs ∧ (r.test text = true ↔ hs ≠ []) := by
  obtain ⟨p, hp⟩ := Option.isSome_iff_exists.mp hpattern
  have hlocal := staysInLine_catalogue r hr henabled hscope p hp
  exact ⟨_, hits?_eq_inLines henabled hscope hp text,
    test_iff_hits_ne_nil hp hlocal htext hlines⟩

/-- A call of `eval` whose argument is on the next line, one in a comment, and then one that is
reported. -/
def evalText : List Char := "eval \nx\n # eval y\nz; eval $c\n".toList

/-- The rule for `eval` has its only hit in the last line, and without that line none at all. -/
theorem test_iff_exists_hit_eval :
    ∃ r, Registry.builtin.rule? "shell_eval_usage" = some r ∧
      (∃ hs, r.hits? evalText = some hs ∧ hs.map (·.extent.start) = [⟨4, 4⟩] ∧
        r.test evalText = true) ∧
      ∃ hs, r.hits? (evalText.take 17) = some hs ∧ hs = [] ∧ r.test (evalText.take 17) = false := by
  obtain ⟨r, hr⟩ := Option.isSome_iff_exists.mp
    (show (Registry.builtin.rule? "shell_eval_usage").isSome = true by decide +kernel)
  have hfacts : ∀ r ∈ Registry.builtin.rule? "shell_eval_usage",
      r.enabled = true ∧ r.scope = .line ∧ r.pattern?.isSome = true ∧
      (r.hits? evalText).map (·.map (·.extent.start)) = some [⟨4, 4⟩] ∧
      r.hits? (evalText.take 17) = some [] := by decide +kernel
  obtain ⟨henabled, hscope, hpattern, hstarts, hnone⟩ := hfacts r hr
  have hmem : r ∈ Registry.builtin.rules := List.mem_of_find?_eq_some hr
  refine ⟨r, hr, ?_, ?_⟩
  · obtain ⟨hs, hhs, hiff⟩ := @test_iff_exists_hit r hmem henabled hscope hpattern
      evalText (by decide) (by decide)
    rw [hhs] at hstarts
    have hstarts' := Option.some.inj hstarts
    refine ⟨hs, hhs, hstarts', hiff.mpr ?_⟩
    rintro rfl
    cases hstarts'
  · obtain ⟨hs, hhs, hiff⟩ := @test_iff_exists_hit r hmem henabled hscope hpattern
      (evalText.take 17) (by decide) (by decide)
    obtain rfl := Option.some.inj (hhs.symm.trans hnone)
    exact ⟨[], hhs, rfl, by simpa using hiff⟩

end Rule

end CodeSweep
