/-
# Scanning line by line

Where all rules read lines and no directive stands in a text, a scan has no memory from one line to
the next: what it finds in two texts with a line feed between them is what it finds in the first,
and then what it finds in the second, so many lines further down (`findings_append`).  Rules come to
such a scan one after the other, each with its hits in both texts, so this says that neither the
question which rules fire on a line nor the sorting mixes the two.
-/
import CodeSweep.Proofs.Rule.Lines
import CodeSweep.Proofs.Scan.Order
import CodeSweep.Proofs.Suppression

namespace CodeSweep

/-! ## Findings further down -/

namespace Finding

/-- The finding `n` lines further down. -/
def down (n : Nat) (f : Finding) : Finding := { f with extent := f.extent.down n }

/-- It starts `n` lines further down. -/
@[simp] theorem line_down (n : Nat) (f : Finding) : (f.down n).line = f.line + n := rfl

/-- It starts in the same column. -/
@[simp] theorem column_down (n : Nat) (f : Finding) : (f.down n).column = f.column := rfl

/-- It is of the same rule. -/
@[simp] theorem rule_down (n : Nat) (f : Finding) : (f.down n).rule = f.rule := rfl

/-- Findings keep their order further down. -/
theorem precedes_down (n : Nat) (f f' : Finding) :
    (f.down n).precedes (f'.down n) = f.precedes f' := by
  rw [precedes_eq_keyLe, StableSort.keyLe, StableSort.keyLe, decide_eq_decide]
  simp only [key, Prod.Lex.toLex_le_toLex, line_down, column_down, rule_down,
    Nat.add_right_cancel_iff, Nat.add_lt_add_iff_right]

end Finding

namespace Scan

section

variable {path language : String} {rules : List Rule}

/-! ## Which rules fire -/

/-- In the lines of the first text the same rules fire as without the second. -/
theorem firesOnLine_append_left (hrules : ∀ r ∈ rules, r.readsLines = true) (as bs : List Char)
    {line : Nat} (hline : line ≤ as.count '\n' + 1) (name : String) :
    firesOnLine (candidates rules path language (as ++ '\n' :: bs)) line name
      = firesOnLine (candidates rules path language as) line name := by
  rw [Bool.eq_iff_iff, firesOnLine_candidates, firesOnLine_candidates]
  constructor
  · rintro ⟨r, hr, hname, h, hh, hstart⟩
    rw [Rule.hits_append (hrules r hr), List.mem_append] at hh
    rcases hh with hh | hh
    · exact ⟨r, hr, hname, h, hh, hstart⟩
    · -- a hit in the second text is too far down
      obtain ⟨h', hh', rfl⟩ := List.mem_map.mp hh
      have hpos := (Rule.line_of_mem_hits (hrules r hr) hh').1
      rw [Hit.line_down] at hstart
      omega
  · rintro ⟨r, hr, hname, h, hh, hstart⟩
    refine ⟨r, hr, hname, h, ?_, hstart⟩
    rw [Rule.hits_append (hrules r hr)]
    exact List.mem_append_left _ hh

/-- In the lines of the second text the same rules fire as without the first. -/
theorem firesOnLine_append_right (hrules : ∀ r ∈ rules, r.readsLines = true) (as bs : List Char)
    {line : Nat} (hline : 1 ≤ line) (name : String) :
    firesOnLine (candidates rules path language (as ++ '\n' :: bs))
        (line + (as.count '\n' + 1)) name
      = firesOnLine (candidates rules path language bs) line name := by
  rw [Bool.eq_iff_iff, firesOnLine_candidates, firesOnLine_candidates]
  constructor
  · rintro ⟨r, hr, hname, h, hh, hstart⟩
    rw [Rule.hits_append (hrules r hr), List.mem_append] at hh
    rcases hh with hh | hh
    · -- a hit in the first text is not far enough down
      have hle := (Rule.line_of_mem_hits (hrules r hr) hh).2
      omega
    · obtain ⟨h', hh', rfl⟩ := List.mem_map.mp hh
      rw [Hit.line_down] at hstart
      exact ⟨r, hr, hname, h', hh', by omega⟩
  · rintro ⟨r, hr, hname, h, hh, hstart⟩
    refine ⟨r, hr, hname, h.down (as.count '\n' + 1), ?_, by rw [Hit.line_down, hstart]⟩
    rw [Rule.hits_append (hrules r hr)]
    exact List.mem_append_right _ (List.mem_map_of_mem hh)

/-! ## What is left of a rule -/

/-- Where no directive is declared, only other rules keep findings of a rule from staying. -/
theorem kept_of_no_directives {fires : Nat → String → Bool} {text : List Char} (r : Rule)
    (h : Suppressions.ofLines (Text.lines text) = ⟨[]⟩) :
    kept fires path language text r
      = ((r.hits text).map (Finding.ofHit path language r)).filter fun f =>
          !r.suppressedBy.any (fires f.line) := by
  unfold kept
  rw [h]
  simp only [Suppressions.silences_nil, Bool.not_false, Bool.and_true]

/-- What is left of a rule is in the lines of the text. -/
theorem line_of_mem_kept {fires : Nat → String → Bool} {text : List Char} {r : Rule}
    (hr : r.readsLines = true) {f : Finding} (hf : f ∈ kept fires path language text r) :
    1 ≤ f.line ∧ f.line ≤ text.count '\n' + 1 := by
  obtain ⟨h, hh, rfl⟩ := mem_kept hf
  exact Rule.line_of_mem_hits hr hh

variable {as bs : List Char} (hrules : ∀ r ∈ rules, r.readsLines = true)
  (has : Text.occursIn Directive.keyword (Text.lower as) = false)
  (hbs : Text.occursIn Directive.keyword (Text.lower bs) = false)

include hrules has hbs

/-- What is left of a rule in two texts is what is left of it in each of them. -/
theorem kept_append {r : Rule} (hr : r ∈ rules) :
    kept (firesOnLine (candidates rules path language (as ++ '\n' :: bs))) path language
        (as ++ '\n' :: bs) r
      = kept (firesOnLine (candidates rules path language as)) path language as r
        ++ (kept (firesOnLine (candidates rules path language bs)) path language bs r).map
            (Finding.down (as.count '\n' + 1)) := by
  rw [kept_of_no_directives r (Suppressions.ofLines_lines_append_eq has hbs),
    kept_of_no_directives r (Suppressions.ofLines_lines_eq has),
    kept_of_no_directives r (Suppressions.ofLines_lines_eq hbs),
    Rule.hits_append (hrules r hr), List.map_append, List.filter_append]
  congr 1
  · apply List.filter_congr
    intro f hf
    obtain ⟨h, hh, rfl⟩ := List.mem_map.mp hf
    have hline := (Rule.line_of_mem_hits (hrules r hr) hh).2
    congr 2
    funext name
    exact firesOnLine_append_left hrules as bs hline name
  · rw [List.map_map, List.filter_map, List.filter_map, List.map_map]
    congr 1
    apply List.filter_congr
    intro h hh
    have hline := (Rule.line_of_mem_hits (hrules r hr) hh).1
    simp only [Function.comp_apply]
    congr 2
    funext name
    exact firesOnLine_append_right hrules as bs hline name

/-- In the lines of the first text it is what is left of it there. -/
theorem filter_kept_append {r : Rule} (hr : r ∈ rules) :
    (kept (firesOnLine (candidates rules path language (as ++ '\n' :: bs))) path language
        (as ++ '\n' :: bs) r).filter (fun f => decide (f.line ≤ as.count '\n' + 1))
      = kept (firesOnLine (candidates rules path language as)) path language as r := by
  rw [kept_append hrules has hbs hr, List.filter_append, List.filter_eq_self.mpr,
    List.filter_eq_nil_iff.mpr, List.append_nil]
  · intro f hf
    obtain ⟨f', hf', rfl⟩ := List.mem_map.mp hf
    have hpos := (line_of_mem_kept (hrules r hr) hf').1
    rw [decide_eq_true_eq, Finding.line_down]
    omega
  · intro f hf
    exact decide_eq_true (line_of_mem_kept (hrules r hr) hf).2

/-- In the lines after them it is what is left of it in the second text. -/
theorem filter_not_kept_append {r : Rule} (hr : r ∈ rules) :
    (kept (firesOnLine (candidates rules path language (as ++ '\n' :: bs))) path language
        (as ++ '\n' :: bs) r).filter (fun f => !decide (f.line ≤ as.count '\n' + 1))
      = (kept (firesOnLine (candidates rules path language bs)) path language bs r).map
          (Finding.down (as.count '\n' + 1)) := by
  rw [kept_append hrules has hbs hr, List.filter_append, List.filter_eq_nil_iff.mpr,
    List.filter_eq_self.mpr, List.nil_append]
  · intro f hf
    obtain ⟨f', hf', rfl⟩ := List.mem_map.mp hf
    have hpos := (line_of_mem_kept (hrules r hr) hf').1
    rw [Bool.not_eq_true', decide_eq_false_iff_not, Finding.line_down]
    omega
  · intro f hf
    have hle := (line_of_mem_kept (hrules r hr) hf).2
    simp [hle]

/-! ## Both texts -/

/-- **Findings line by line.**  In two texts with a line feed between them such rules find what they
find in each of them. -/
theorem findings_append :
    findings rules path language (as ++ '\n' :: bs)
      = findings rules path language as
        ++ (findings rules path language bs).map (Finding.down (as.count '\n' + 1)) := by
  have hkeys : ∀ f f' : Finding, decide (f.line ≤ as.count '\n' + 1) = true →
      decide (f'.line ≤ as.count '\n' + 1) = false → f.key < f'.key := by
    intro f f' hf hf'
    rw [decide_eq_true_eq] at hf
    rw [decide_eq_false_iff_not, Nat.not_le] at hf'
    rw [Finding.key, Finding.key, Prod.Lex.toLex_lt_toLex]
    exact .inl (Nat.lt_of_le_of_lt hf hf')
  rw [findings_eq_sortBy rules path language (as ++ '\n' :: bs),
    StableSort.sortBy_eq_append Finding.key (fun f => decide (f.line ≤ as.count '\n' + 1))
      fun f _ f' _ => hkeys f f',
    List.filter_flatMap, List.filter_flatMap,
    List.flatMap_congr fun r hr => filter_kept_append hrules has hbs hr,
    List.flatMap_congr fun r hr => filter_not_kept_append hrules has hbs hr,
    ← findings_eq_sortBy, ← List.map_flatMap, StableSort.sortBy, ← Finding.precedes_eq_keyLe,
    findings_eq _ _ _ bs]
  -- sorting does not see that all findings of the second text are further down
  congr 1
  refine (List.map_mergeSort ?_).symm
  intro f _ f' _
  exact (Finding.precedes_down _ f f').symm

end

/-! ## The scan of both texts -/

/-- The rules that are applied under a language that is named do not depend on the text. -/
theorem appliedRules_some (reg : Registry) (disabled : List String) {language : String}
    (h : language ≠ "") (path : String) (text text' : List Char) :
    appliedRules reg disabled (some language) path text
      = appliedRules reg disabled (some language) path text' := by
  rw [appliedRules, appliedRules, languageOf_some h, languageOf_some h]

/-- **Scans go line by line.**  Where all rules of a registry read lines and the language is named,
a scan of two texts without directives, with a line feed between them, finds what a scan of the
first finds and then what a scan of the second finds, as many lines further down as the first
has. -/
theorem scanText_append (reg : Registry) (hglobs : reg.globsRead = true)
    (hlines : ∀ r ∈ reg.rules, r.readsLines = true) (disabled : List String) (language : String)
    (hlanguage : language ≠ "") (path : String) (as bs : List Char)
    (has : Text.occursIn Directive.keyword (Text.lower as) = false)
    (hbs : Text.occursIn Directive.keyword (Text.lower bs) = false) :
    ∃ fs fs', scanText reg disabled (some language) path as = .ok fs ∧
      scanText reg disabled (some language) path bs = .ok fs' ∧
      scanText reg disabled (some language) path (as ++ '\n' :: bs)
        = .ok (fs ++ fs'.map (Finding.down (as.count '\n' + 1))) := by
  have hrules : ∀ r ∈ appliedRules reg disabled (some language) path (as ++ '\n' :: bs),
      r.readsLines = true := fun r hr => hlines r (mem_appliedRules hr).1
  refine ⟨_, _, scanText_eq_ok hglobs .., scanText_eq_ok hglobs .., ?_⟩
  rw [scanText_eq_ok hglobs, findings_append hrules has hbs]
  simp only [languageOf_some hlanguage, appliedRules_some reg disabled hlanguage path
    (as ++ '\n' :: bs) as, appliedRules_some reg disabled hlanguage path bs as]

/-- A registry of a rule for the letter `x` and a rule for the letter `y` that suppresses it. -/
def lettersRegistry : Registry :=
  ⟨[{ letterRule "x" with suppressedBy := ["y"] },
    { letterRule "y" with detector := .pattern "y" false }]⟩

/-- The letter at the end of the first text does not suppress the one at the start of the second. -/
theorem scanText_append_letters :
    ∃ fs fs', scanText lettersRegistry [] (some "c") "f.c" "xy\r\ny".toList = .ok fs ∧
      scanText lettersRegistry [] (some "c") "f.c" "x\n\nyx".toList = .ok fs' ∧
      scanText lettersRegistry [] (some "c") "f.c" "xy\r\ny\nx\n\nyx".toList
        = .ok (fs ++ fs'.map (Finding.down 2)) ∧
      fs.length = 2 ∧ fs'.length = 2 ∧ fs'.countP (fun f => f.rule == "x") = 1 := by
  have hglobs : lettersRegistry.globsRead = true := by decide +kernel
  obtain ⟨fs, fs', hfs, hfs', hboth⟩ := scanText_append lettersRegistry hglobs
    (by decide +kernel) [] "c" (by decide) "f.c" "xy\r\ny".toList "x\n\nyx".toList
    (by decide +kernel) (by decide +kernel)
  obtain rfl := Except.ok.inj ((scanText_eq_ok hglobs ..).symm.trans hfs)
  obtain rfl := Except.ok.inj ((scanText_eq_ok hglobs ..).symm.trans hfs')
  refine ⟨_, _, hfs, hfs', hboth, ?_, ?_, ?_⟩
  · rw [findings_eq, List.length_mergeSort]
    decide +kernel
  · rw [findings_eq, List.length_mergeSort]
    decide +kernel
  · rw [findings_eq, (List.mergeSort_perm _ _).countP_eq]
    decide +kernel

end Scan

end CodeSweep
