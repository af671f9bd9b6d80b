/-
# Line ends

Lines may end with a line feed or with a carriage return and a line feed.  Rules that read lines do
not see the difference, and neither do the directives or the language of a file
(`findings_withReturns`).  Rules that read the text as a whole do see it, and one that reads lines
may be suppressed by such a rule.  So it is for six rules of the catalogue
(`not_keepsToLines_builtin_iff`), each of which comes with a text that it finds something in under
one kind of line ends only.
-/
import CodeSweep.Proofs.Rule.Lines
import CodeSweep.Proofs.Scan.Disabled

namespace CodeSweep

open Text (withReturns)

/-! ## The language of a file -/

/-- A blank at the end is trimmed. -/
theorem Text.trim_append_blank {c : Char} (hc : isBlank c = true) (cs : List Char) :
    trim (cs ++ [c]) = trim cs := by
  have hdrop : [c].dropWhile isBlank = [] := List.dropWhile_cons_of_pos hc
  rw [trim, trim, List.dropWhile_append]
  split
  · next hempty => rw [List.isEmpty_iff.mp hempty, hdrop]
  · rw [List.reverse_append, List.reverse_singleton, List.singleton_append,
      List.dropWhile_cons_of_pos hc]

/-- The interpreter that the first line names does not depend on how that line ends. -/
theorem Language.ofFirstLine?_withReturns (text : List Char) :
    ofFirstLine? (withReturns text) = ofFirstLine? text := by
  have htrim : Text.trim ((withReturns text).takeWhile (· != '\n'))
      = Text.trim (text.takeWhile (· != '\n')) := by
    by_cases hfeed : '\n' ∈ text
    · obtain ⟨line, rest, rfl, hline⟩ := List.eq_append_cons_of_mem hfeed
      have htake : ∀ (l tail : List Char), '\n' ∉ l →
          (l ++ '\n' :: tail).takeWhile (· != '\n') = l := by
        intro l tail hl
        rw [List.takeWhile_append_of_pos, List.takeWhile_cons_of_neg (by simp), List.append_nil]
        intro c hc
        have hne : c ≠ '\n' := fun heq => hl (heq ▸ hc)
        simpa using hne
      rw [Text.withReturns_append hline, htake _ _ (by simp [hline]), htake _ _ hline,
        Text.trim_append_blank (by decide)]
    · rw [Text.withReturns_of_not_mem hfeed]
  rw [ofFirstLine?, ofFirstLine?, htrim]

namespace Scan

/-- The language of a file does not depend on the ends of its lines. -/
theorem languageOf_withReturns (language : Option String) (path : String) (text : List Char) :
    languageOf language path (withReturns text) = languageOf language path text := by
  have hclassify : Language.classify path (some (withReturns text))
      = Language.classify path (some text) := by
    unfold Language.classify
    rw [Option.bind_some, Option.bind_some, Language.ofFirstLine?_withReturns]
  unfold languageOf
  rw [hclassify]

/-- Nor do the rules that are applied to it. -/
theorem appliedRules_withReturns (reg : Registry) (disabled : List String)
    (language : Option String) (path : String) (text : List Char) :
    appliedRules reg disabled language path (withReturns text)
      = appliedRules reg disabled language path text := by
  rw [appliedRules, appliedRules, languageOf_withReturns]

end Scan

/-! ## Rules that keep to lines -/

/-- The rules of the name keep to lines: they read lines, and so do all rules that suppress them. -/
def Registry.KeepsToLines (reg : Registry) (name : String) : Prop :=
  ∀ r ∈ reg.rules, r.name = name →
    r.readsLines = true ∧ ∀ s ∈ reg.rules, s.name ∈ r.suppressedBy → s.readsLines = true

instance (reg : Registry) (name : String) : Decidable (reg.KeepsToLines name) :=
  inferInstanceAs (Decidable (∀ r ∈ reg.rules, r.name = name →
    r.readsLines = true ∧ ∀ s ∈ reg.rules, s.name ∈ r.suppressedBy → s.readsLines = true))

/-- The rule of a finding and the place where it starts. -/
def Finding.place (f : Finding) : String × Nat × Nat := (f.rule, f.line, f.column)

namespace Scan

section

variable {rules : List Rule} {path language : String} {text : List Char} (htext : '\r' ∉ text)

include htext

/-- Where all rules of a name read lines, they fire under either kind of line ends. -/
theorem firesOnLine_withReturns {name : String}
    (hname : ∀ s ∈ rules, s.name = name → s.readsLines = true) (line : Nat) :
    firesOnLine (candidates rules path language (withReturns text)) line name
      = firesOnLine (candidates rules path language text) line name := by
  rw [Bool.eq_iff_iff, firesOnLine_candidates, firesOnLine_candidates]
  constructor
  · rintro ⟨s, hs, hsname, h, hh, hline⟩
    rw [Rule.hits_withReturns (hname s hs hsname) htext] at hh
    exact ⟨s, hs, hsname, h, hh, hline⟩
  · rintro ⟨s, hs, hsname, h, hh, hline⟩
    refine ⟨s, hs, hsname, h, ?_, hline⟩
    rwa [Rule.hits_withReturns (hname s hs hsname) htext]

/-- What is left of a rule that reads lines and is suppressed by such rules only. -/
theorem kept_withReturns {r : Rule} (hr : r.readsLines = true)
    (hsuppressors : ∀ s ∈ rules, s.name ∈ r.suppressedBy → s.readsLines = true) :
    kept (firesOnLine (candidates rules path language (withReturns text))) path language
        (withReturns text) r
      = kept (firesOnLine (candidates rules path language text)) path language text r := by
  unfold kept
  rw [Rule.hits_withReturns hr htext, Text.lines_withReturns htext]
  apply List.filter_congr
  intro f _
  congr 2
  rw [Bool.eq_iff_iff, List.any_eq_true, List.any_eq_true]
  refine exists_congr fun name => and_congr_right fun hname => ?_
  rw [firesOnLine_withReturns htext fun s hs hsname => hsuppressors s hs (hsname ▸ hname)]

/-- **Line ends and findings.**  The findings of rules that keep to lines are the same under either
kind of line ends. -/
theorem findings_withReturns {reg : Registry} (hrules : ∀ r ∈ rules, r ∈ reg.rules) :
    (findings rules path language (withReturns text)).filter
        (fun f => decide (reg.KeepsToLines f.rule))
      = (findings rules path language text).filter
        fun f => decide (reg.KeepsToLines f.rule) := by
  rw [findings_eq_sortBy, findings_eq_sortBy, StableSort.filter_sortBy_eq,
    StableSort.filter_sortBy_eq, List.filter_flatMap, List.filter_flatMap]
  congr 1
  apply List.flatMap_congr
  intro r hr
  by_cases hkeeps : reg.KeepsToLines r.name
  · obtain ⟨hreads, hsuppressors⟩ := hkeeps r (hrules r hr) rfl
    rw [kept_withReturns htext hreads fun s hs => hsuppressors s (hrules s hs)]
  · -- findings of the rule are dropped on both sides
    have hdropped : ∀ fires text',
        (kept fires path language text' r).filter (fun f => decide (reg.KeepsToLines f.rule))
          = [] := by
      intro fires text'
      rw [List.filter_eq_nil_iff]
      intro f hf
      rw [rule_of_mem_kept hf]
      simpa using hkeeps
    rw [hdropped, hdropped]

/-- So it is with scans. -/
theorem scanText_withReturns {reg : Registry} (hglobs : reg.globsRead = true)
    (disabled : List String) (language : Option String) (path : String) :
    ∃ fs fs', scanText reg disabled language path text = .ok fs ∧
      scanText reg disabled language path (withReturns text) = .ok fs' ∧
      fs'.filter (fun f => decide (reg.KeepsToLines f.rule))
        = fs.filter fun f => decide (reg.KeepsToLines f.rule) := by
  refine ⟨_, _, scanText_eq_ok hglobs .., scanText_eq_ok hglobs .., ?_⟩
  rw [appliedRules_withReturns, languageOf_withReturns]
  exact findings_withReturns htext fun r hr => (mem_appliedRules hr).1

end

/-! ## Rules that do not -/

/-- The rules of the catalogue that read the text as a whole, and one that is suppressed by one of
them. -/
def lineEndRules : List String :=
  ["placeholder_pass_only_py", "placeholder_ellipsis_py", "empty_except_py", "python_bare_except",
    "c_unchecked_malloc", "c_todo_stub_function"]

/-- They are the rules of the catalogue that do not keep to lines. -/
theorem not_keepsToLines_builtin_iff (name : String) :
    ¬ Registry.builtin.KeepsToLines name ↔ name ∈ lineEndRules := by
  have hothers : ∀ r ∈ catalogue, r.name ∉ lineEndRules →
      r.readsLines = true ∧ ∀ s ∈ catalogue, s.name ∈ r.suppressedBy → s.readsLines = true := by
    decide +kernel
  constructor
  · intro h
    by_contra hname
    exact h fun r hr hrname => hothers r hr (hrname ▸ hname)
  · revert name
    decide

/-- How many findings of the rules of a name a scan with the catalogue has.  The other rules are
run only if one of these may be suppressed. -/
def countFound (name language path : String) (text : List Char) : Nat :=
  let path' := Path.normalize path
  let rules := appliedRules .builtin [] (some language) path text
  let named := (Registry.builtin.rulesFor language).filter fun r => r.name == name
  ((named.filter (isActive [] path')).flatMap
    (kept (firesOnLine (candidates rules path' language text)) path' language text)).length

/-- The findings of the rules of one name are what is left of these rules. -/
theorem countP_findings (rules : List Rule) (path language : String) (text : List Char)
    (name : String) :
    (findings rules path language text).countP (fun f => f.rule == name)
      = ((rules.filter fun r => r.name == name).flatMap
          (kept (firesOnLine (candidates rules path language text)) path language text)).length := by
  rw [findings_eq, (List.mergeSort_perm _ _).countP_eq, List.countP_eq_length_filter,
    List.filter_flatMap]
  congr 1
  apply Pattern.flatMap_eq_flatMap_filter
  · intro r _ hr
    rw [List.filter_eq_nil_iff]
    intro f hf
    rw [rule_of_mem_kept hf, hr]
    exact Bool.false_ne_true
  · intro r _ hr
    rw [List.filter_eq_self]
    intro f hf
    rwa [rule_of_mem_kept hf]

/-- A scan with the catalogue has as many findings of the rules of a name. -/
theorem countP_of_scanText {name language path : String} (hlanguage : language ≠ "")
    {text : List Char} {fs : List Finding}
    (hfs : scanText .builtin [] (some language) path text = .ok fs) :
    fs.countP (fun f => f.rule == name) = countFound name language path text := by
  rw [scanText_eq_ok globsRead_builtin] at hfs
  obtain rfl := Except.ok.inj hfs
  have hnamed : (appliedRules .builtin [] (some language) path text).filter (·.name == name)
      = ((Registry.builtin.rulesFor language).filter (·.name == name)).filter
          (isActive [] (Path.normalize path)) := by
    rw [appliedRules, languageOf_some hlanguage, List.filter_comm]
  rw [countP_findings, hnamed, languageOf_some hlanguage]
  rfl

/-- To rules that do not keep to lines, the ends of the lines matter in some text. -/
theorem exists_text_of_not_keepsToLines {name : String}
    (h : ¬ Registry.builtin.KeepsToLines name) :
    ∃ language path text, language ≠ "" ∧ '\r' ∉ text ∧
      countFound name language path (withReturns text) ≠ countFound name language path text := by
  rw [not_keepsToLines_builtin_iff] at h
  simp only [lineEndRules, List.mem_cons, List.not_mem_nil, or_false] at h
  rcases h with rfl | rfl | rfl | rfl | rfl | rfl
  · exact ⟨"python", "a.py", "def f():\n pass".toList, by decide, by decide, by decide⟩
  · exact ⟨"python", "a.py", "def f():\n ...".toList, by decide, by decide, by decide⟩
  · exact ⟨"python", "a.py", "except:\n pass".toList, by decide, by decide, by decide⟩
  · exact ⟨"python", "a.py", "except:\n pass".toList, by decide, by decide, by decide +kernel⟩
  · -- the line feed is escaped, and the allocation is part of the literal
    exact ⟨"c", "a.c", "\"\\\np=malloc(4);*p=1;\"".toList, by decide, by decide,
      by decide⟩
  · exact ⟨"c", "a.c", "int f()\n\x7b/*TODO*/\x7d".toList, by decide, by decide,
      by decide⟩

/-! ## Exactly the rules that keep to lines -/

/-- A weaker test before a stronger one makes no difference. -/
theorem filter_filter_of_imp {α : Type} {l : List α} {p q : α → Bool}
    (h : ∀ a ∈ l, p a = true → q a = true) : (l.filter q).filter p = l.filter p := by
  rw [List.filter_filter]
  apply List.filter_congr
  intro a ha
  cases hp : p a with
  | true => rw [h a ha hp, Bool.and_self]
  | false => rw [Bool.false_and]

/-- Findings in the same places by the same rules are as many of each rule. -/
theorem countP_eq_of_map_place_eq {fs fs' : List Finding}
    (h : fs'.map Finding.place = fs.map Finding.place) (name : String) :
    fs'.countP (fun f => f.rule == name) = fs.countP fun f => f.rule == name := by
  have hcount := congrArg (List.countP fun place => place.1 == name) h
  rwa [List.countP_map, List.countP_map] at hcount

/-- **Line ends in scans with the catalogue.**  Rules of the catalogue find the same in the same
places under either kind of line ends, in every text, exactly if each of them keeps to lines. -/
theorem map_place_eq_iff (names : List String) :
    (∀ (language : Option String) (path : String) (text : List Char), '\r' ∉ text →
      ∃ fs fs', scanText .builtin [] language path text = .ok fs ∧
        scanText .builtin [] language path (withReturns text) = .ok fs' ∧
        (fs'.filter fun f => names.contains f.rule).map Finding.place
          = (fs.filter fun f => names.contains f.rule).map Finding.place) ↔
      ∀ name ∈ names, Registry.builtin.KeepsToLines name := by
  constructor
  · intro h name hname
    by_contra hkeeps
    obtain ⟨language, path, text, hlanguage, htext, hne⟩ :=
      exists_text_of_not_keepsToLines hkeeps
    obtain ⟨fs, fs', hfs, hfs', hplaces⟩ := h (some language) path text htext
    have hcount := countP_eq_of_map_place_eq hplaces name
    have hnamed : ∀ fs : List Finding,
        (fs.filter fun f => names.contains f.rule).countP (fun f => f.rule == name)
          = fs.countP fun f => f.rule == name := by
      intro fs
      rw [List.countP_eq_length_filter, List.countP_eq_length_filter, filter_filter_of_imp]
      intro f _ hf
      rw [beq_iff_eq.mp hf]
      exact List.contains_iff_mem.mpr hname
    rw [hnamed, hnamed, countP_of_scanText hlanguage hfs, countP_of_scanText hlanguage hfs']
      at hcount
    exact hne hcount
  · intro hnames language path text htext
    obtain ⟨fs, fs', hfs, hfs', hkept⟩ :=
      scanText_withReturns htext globsRead_builtin [] language path
    refine ⟨fs, fs', hfs, hfs', ?_⟩
    have hnamed : ∀ fs : List Finding,
        (fs.filter fun f => decide (Registry.builtin.KeepsToLines f.rule)).filter
            (fun f => names.contains f.rule)
          = fs.filter fun f => names.contains f.rule := by
      intro fs
      apply filter_filter_of_imp
      intro f _ hf
      exact decide_eq_true (hnames f.rule (List.contains_iff_mem.mp hf))
    rw [← hnamed fs', ← hnamed fs, hkept]

/-- A function whose body is a single statement on the next line is found under one kind of line
ends and not under the other. -/
theorem map_place_ne_pass :
    ∃ fs fs', scanText .builtin [] (some "python") "app.py" "def todo():\n    pass\n".toList
        = .ok fs ∧
      scanText .builtin [] (some "python") "app.py" "def todo():\r\n    pass\r\n".toList
        = .ok fs' ∧
      fs.countP (fun f => f.rule == "placeholder_pass_only_py") = 1 ∧
      fs'.countP (fun f => f.rule == "placeholder_pass_only_py") = 0 ∧
      fs'.map Finding.place ≠ fs.map Finding.place := by
  have hlf := scanText_eq_ok globsRead_builtin [] (some "python") "app.py"
    "def todo():\n    pass\n".toList
  have hcrlf := scanText_eq_ok globsRead_builtin [] (some "python") "app.py"
    "def todo():\r\n    pass\r\n".toList
  have hfound : countFound "placeholder_pass_only_py" "python" "app.py"
      "def todo():\n    pass\n".toList = 1 := by decide +kernel
  have hlost : countFound "placeholder_pass_only_py" "python" "app.py"
      "def todo():\r\n    pass\r\n".toList = 0 := by decide +kernel
  rw [← countP_of_scanText (by decide) hlf] at hfound
  rw [← countP_of_scanText (by decide) hcrlf] at hlost
  refine ⟨_, _, hlf, hcrlf, hfound, hlost, ?_⟩
  intro h
  have hcount := countP_eq_of_map_place_eq h "placeholder_pass_only_py"
  rw [hfound, hlost] at hcount
  cases hcount

end Scan

end CodeSweep
