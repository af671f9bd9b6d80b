/-
# Where directives reach

A directive for a line reaches the line it stands in, one for the next line the line below, and one
for the file every line; a rule is silenced on a line if some directive that reaches the line names
it (`silences_some_iff`).  So what the lines of two files, put one after the other, silence is what
the lines of either silence, those of the second so many lines further down, and what the second
silences in the whole file is silenced in the first as well (`silences_ofLines_append`).
-/
import CodeSweep.Suppression

namespace CodeSweep

/-! ## Directives in a line -/

namespace Directive

/-- The directive of the kind in the line silences the rule, by its name or by `all`. -/
def Names (kind : Pattern) (line : List Char) (rule : String) : Prop :=
  Text.occursIn keyword (Text.lower line) = true ∧
    ∃ d, find? kind .file line = some d ∧ Suppressions.covers d.names rule = true

/-- A line has a directive of a kind with the same names whatever its reach is. -/
theorem find?_eq_some_iff {kind : Pattern} {reach : Reach} {line : List Char} {d : Directive} :
    find? kind reach line = some d ↔
      d.reach = reach ∧ find? kind .file line = some { d with reach := .file } := by
  unfold find?
  simp only [Option.bind_eq_bind, Option.pure_def, Option.bind_eq_some_iff, Option.some.injEq]
  constructor
  · rintro ⟨m, hm, names, hnames, rfl⟩
    exact ⟨rfl, m, hm, names, hnames, rfl⟩
  · rintro ⟨rfl, m, hm, names, hnames, hd⟩
    refine ⟨m, hm, names, hnames, ?_⟩
    rw [(Directive.mk.inj hd).2]

/-- A directive of the kind with the given reach silences the rule. -/
theorem exists_find?_iff {kind : Pattern} {reach target : Reach} {line : List Char}
    {rule : String} :
    (Text.occursIn keyword (Text.lower line) = true ∧
      ∃ d, find? kind reach line = some d ∧ d.reach = target ∧
        Suppressions.covers d.names rule = true) ↔
      reach = target ∧ Names kind line rule := by
  constructor
  · rintro ⟨hkeyword, d, hd, rfl, hcovers⟩
    obtain ⟨hreach, hd⟩ := find?_eq_some_iff.mp hd
    exact ⟨hreach.symm, hkeyword, _, hd, hcovers⟩
  · rintro ⟨rfl, hkeyword, d, hd, hcovers⟩
    obtain ⟨hreach, -⟩ := find?_eq_some_iff.mp hd
    refine ⟨hkeyword, { d with reach := reach }, find?_eq_some_iff.mpr ⟨rfl, ?_⟩, rfl, hcovers⟩
    rw [hd, ← hreach]

/-- The directives in a line are those of the three kinds. -/
theorem mem_inLine {number : Nat} {line : List Char} {d : Directive} :
    d ∈ inLine number line ↔ Text.occursIn keyword (Text.lower line) = true ∧
      (find? forFile .file line = some d ∨ find? forLine (.line number) line = some d ∨
        find? forNextLine (.line (number + 1)) line = some d) := by
  rw [inLine]
  split
  · next h => simp [h]
  · next h => simp [h]

/-- The directives in numbered lines are those in each line. -/
theorem mem_inLines {number : Nat} {ls : List (List Char)} {d : Directive} :
    d ∈ inLines number ls ↔ ∃ n line, ls[n]? = some line ∧ d ∈ inLine (number + n) line := by
  induction ls generalizing number with
  | nil => simp [inLines]
  | cons l ls ih =>
      rw [inLines, List.mem_append, ih]
      constructor
      · rintro (hl | ⟨n, line, hn, hline⟩)
        · exact ⟨0, l, rfl, hl⟩
        · refine ⟨n + 1, line, hn, ?_⟩
          rwa [← Nat.add_assoc, Nat.add_right_comm]
      · rintro ⟨n, line, hn, hline⟩
        cases n with
        | zero =>
            obtain rfl : l = line := Option.some.inj hn
            exact .inl hline
        | succ n =>
            refine .inr ⟨n, line, hn, ?_⟩
            rwa [← Nat.add_assoc, Nat.add_right_comm] at hline

/-- A directive for the target in a line that silences the rule: one for the file, one for the line
itself, or one for the line below. -/
theorem exists_mem_inLine_iff {number : Nat} {line : List Char} {rule : String} {target : Reach} :
    (∃ d ∈ inLine number line, d.reach = target ∧ Suppressions.covers d.names rule = true) ↔
      .file = target ∧ Names forFile line rule ∨
      .line number = target ∧ Names forLine line rule ∨
      .line (number + 1) = target ∧ Names forNextLine line rule := by
  rw [← exists_find?_iff, ← exists_find?_iff, ← exists_find?_iff]
  constructor
  · rintro ⟨d, hd, hreach, hcovers⟩
    obtain ⟨hkeyword, hfile | hline | hnext⟩ := mem_inLine.mp hd
    · exact .inl ⟨hkeyword, d, hfile, hreach, hcovers⟩
    · exact .inr (.inl ⟨hkeyword, d, hline, hreach, hcovers⟩)
    · exact .inr (.inr ⟨hkeyword, d, hnext, hreach, hcovers⟩)
  · rintro (⟨hkeyword, d, hd, h⟩ | ⟨hkeyword, d, hd, h⟩ | ⟨hkeyword, d, hd, h⟩)
    · exact ⟨d, mem_inLine.mpr ⟨hkeyword, .inl hd⟩, h⟩
    · exact ⟨d, mem_inLine.mpr ⟨hkeyword, .inr (.inl hd)⟩, h⟩
    · exact ⟨d, mem_inLine.mpr ⟨hkeyword, .inr (.inr hd)⟩, h⟩

end Directive

/-! ## Directives of a file -/

namespace Suppressions

open Directive

/-- A list of names silences a rule if one of its members is the name of the rule or `all`. -/
theorem covers_eq_true_iff {names : List String} {rule : String} :
    covers names rule = true ↔ ∃ name ∈ names, name = "all" ∨ name = Text.lowerString rule := by
  rw [covers, Bool.or_eq_true, List.contains_iff_mem, List.contains_iff_mem]
  constructor
  · rintro (hall | hrule)
    · exact ⟨_, hall, .inl rfl⟩
    · exact ⟨_, hrule, .inr rfl⟩
  · rintro ⟨name, hname, rfl | rfl⟩
    · exact .inl hname
    · exact .inr hname

/-- **Directives accumulate**: the names for a target silence a rule if those of one directive for
the target do. -/
theorem covers_namesFor_iff {s : Suppressions} {target : Reach} {rule : String} :
    covers (s.namesFor target) rule = true ↔
      ∃ d ∈ s.directives, d.reach = target ∧ covers d.names rule = true := by
  simp only [covers_eq_true_iff, namesFor, List.mem_flatMap, List.mem_filter, beq_iff_eq]
  constructor
  · rintro ⟨name, ⟨d, ⟨hd, hreach⟩, hname⟩, h⟩
    exact ⟨d, hd, hreach, name, hname, h⟩
  · rintro ⟨d, hd, hreach, name, hname, h⟩
    exact ⟨name, ⟨d, ⟨hd, hreach⟩, hname⟩, h⟩

/-- The names for a target that lines declare. -/
theorem covers_namesFor_ofLines_iff {ls : List (List Char)} {target : Reach} {rule : String} :
    covers ((ofLines ls).namesFor target) rule = true ↔
      ∃ n line, ls[n]? = some line ∧
        (.file = target ∧ Names forFile line rule ∨
          .line (1 + n) = target ∧ Names forLine line rule ∨
          .line (1 + n + 1) = target ∧ Names forNextLine line rule) := by
  rw [covers_namesFor_iff, ofLines]
  simp only [mem_inLines, ← exists_mem_inLine_iff]
  constructor
  · rintro ⟨d, ⟨n, line, hn, hd⟩, h⟩
    exact ⟨n, line, hn, d, hd, h⟩
  · rintro ⟨n, line, hn, d, hd, h⟩
    exact ⟨d, ⟨n, line, hn, hd⟩, h⟩

/-- In the whole file a rule is silenced by the directives for the file. -/
theorem silences_none_iff {ls : List (List Char)} {rule : String} :
    silences (ofLines ls) rule none = true ↔
      ∃ (n : Nat) (line : List Char), ls[n]? = some line ∧ Names forFile line rule := by
  rw [silences, Bool.or_false, covers_namesFor_ofLines_iff]
  simp

/-- **Where directives reach.**  On a line a rule is silenced by the directives for the file, by one
for the line that stands in it, and by one for the next line that stands in the line above. -/
theorem silences_some_iff {ls : List (List Char)} {rule : String} {k : Nat} :
    silences (ofLines ls) rule (some k) = true ↔
      ∃ n line, ls[n]? = some line ∧
        (Names forFile line rule ∨ n + 1 = k ∧ Names forLine line rule ∨
          n + 2 = k ∧ Names forNextLine line rule) := by
  rw [silences, Bool.or_eq_true, covers_namesFor_ofLines_iff, covers_namesFor_ofLines_iff]
  simp only [true_and, reduceCtorEq, false_and, or_false, false_or, Reach.line.injEq,
    Nat.add_comm 1]
  constructor
  · rintro (⟨n, line, hn, hfile⟩ | ⟨n, line, hn, h⟩)
    · exact ⟨n, line, hn, .inl hfile⟩
    · exact ⟨n, line, hn, .inr h⟩
  · rintro ⟨n, line, hn, hfile | h⟩
    · exact .inl ⟨n, line, hn, hfile⟩
    · exact .inr ⟨n, line, hn, h⟩

/-- **Files one after the other.**  On a line of two lists of lines a rule is silenced if the first
list silences it there, or the second one does: on the line counted from the start of the second
list, or, for a line of the first list, in the whole file.  What silences a rule on a line are the
directives for the file, those for the line that stand in it and those for the next line that stand
above it. -/
theorem silences_ofLines_append (as bs : List (List Char)) (rule : String) (k : Nat) :
    silences (ofLines (as ++ bs)) rule (some k)
      = (silences (ofLines as) rule (some k) ||
        if as.length < k then silences (ofLines bs) rule (some (k - as.length))
        else silences (ofLines bs) rule none) ∧
    ∀ ls : List (List Char), silences (ofLines ls) rule (some k) = true ↔
      ∃ n line, ls[n]? = some line ∧
        (Names forFile line rule ∨ n + 1 = k ∧ Names forLine line rule ∨
          n + 2 = k ∧ Names forNextLine line rule) := by
  refine ⟨?_, fun ls => silences_some_iff⟩
  rw [Bool.eq_iff_iff, Bool.or_eq_true, silences_some_iff, silences_some_iff]
  constructor
  · rintro ⟨n, line, hn, h⟩
    by_cases hlt : n < as.length
    · rw [List.getElem?_append_left hlt] at hn
      exact .inl ⟨n, line, hn, h⟩
    · obtain ⟨j, rfl⟩ := Nat.exists_eq_add_of_le (Nat.le_of_not_lt hlt)
      rw [List.getElem?_append_right (Nat.le_add_right _ _), Nat.add_sub_cancel_left] at hn
      -- the directives for lines of the second list reach beyond the first one
      right
      split
      · refine silences_some_iff.mpr ⟨j, line, hn, h.imp_right (.imp ?_ ?_)⟩
        · exact And.imp_left fun hk => by omega
        · exact And.imp_left fun hk => by omega
      · refine silences_none_iff.mpr ⟨j, line, hn, h.resolve_right ?_⟩
        rintro (⟨hk, -⟩ | ⟨hk, -⟩) <;> omega
  · rintro (⟨n, line, hn, h⟩ | h)
    · refine ⟨n, line, ?_, h⟩
      rw [List.getElem?_append_left (List.getElem?_eq_some_iff.mp hn).1, hn]
    · have hright : ∀ {j : Nat} {line : List Char}, bs[j]? = some line →
          (as ++ bs)[as.length + j]? = some line := fun hn => by
        rw [List.getElem?_append_right (Nat.le_add_right _ _), Nat.add_sub_cancel_left, hn]
      split at h
      · obtain ⟨j, line, hj, h⟩ := silences_some_iff.mp h
        refine ⟨as.length + j, line, hright hj, h.imp_right (.imp ?_ ?_)⟩
        · exact And.imp_left fun hk => by omega
        · exact And.imp_left fun hk => by omega
      · obtain ⟨j, line, hj, h⟩ := silences_none_iff.mp h
        exact ⟨as.length + j, line, hright hj, .inl h⟩

/-- The last line of one list silences a rule in the first line of the other. -/
example : silences (ofLines (["# slop: disable-next-line=x".toList] ++ ["y".toList])) "x" (some 2)
    = true := by decide

end Suppressions

end CodeSweep
