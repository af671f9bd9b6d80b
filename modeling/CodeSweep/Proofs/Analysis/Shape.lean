/-
# The shape of what is reported

Both analyses look at the mask of a text and report stretches of the text itself.  What they report
is code (`reports_stand_in_code`): an unchecked allocation goes from the name of its variable to the
bracket that closes the call, and a stub is the whole name of its function.

Calls may stand in the arguments of other calls.  The brackets between the ends of a report are
balanced, in the assignment because its pattern says so and in the arguments because the search for
the closing bracket counts them; so of two reports the later one ends in the earlier one or begins
after it.
-/
import CodeSweep.Proofs.Block
import CodeSweep.Proofs.Mask.Code
import CodeSweep.Proofs.Pattern.Depth

namespace CodeSweep

open Pattern

/-! ## Unchecked allocations -/

namespace Allocation

/-- The variable stands at the start of an assignment. -/
theorem begins_variable : begins "variable" assignment = true := by decide

/-- One bracket is left open in an assignment, the last one. -/
theorem depthAfter?_assignment : depthAfter? '(' ')' assignment 0 = some 1 := by decide

/-- What the report `s` on the match `m` of an assignment consists of: the assignment up to the
bracket that opens the call, the arguments, and the bracket that closes it. -/
structure IsReport (masked : List Char) (m : Match) (s : Span) : Prop where
  start_eq : s.1 = m.start
  start_le : m.start ≤ m.stop
  stop_lt : m.stop < s.2
  identStart : ∃ c, masked[s.1]? = some c ∧ identStart.holds c = true
  close : masked[s.2 - 1]? = some ')'
  depth : Block.depthAfter? '(' ')' 0 (Text.slice masked (m.start, m.stop)) = some 1
  arguments : Block.Balanced '(' ')' (Text.slice masked (m.stop, s.2 - 1))

namespace IsReport

variable {masked : List Char} {m m' : Match} {s s' : Span}

/-- The brackets of a report are balanced. -/
theorem balanced (h : IsReport masked m s) :
    Block.Balanced '(' ')' (Text.slice masked s) := by
  have hclosed := h.arguments.closed (by decide) h.depth
  have hlt := h.stop_lt
  rw [← Text.slice_succ h.close, show s.2 - 1 + 1 = s.2 by omega,
    Text.slice_append_slice (by omega) (by omega),
    Text.slice_append_slice h.start_le (by omega), ← h.start_eq] at hclosed
  exact hclosed

/-- **Reports do not overlap in part.**  One that begins after the assignment of another begins
after all of that or ends in it. -/
theorem le_or_le (h : IsReport masked m s) (h' : IsReport masked m' s')
    (hm : m.stop ≤ m'.start) : s.2 ≤ s'.1 ∨ s'.2 ≤ s.2 := by
  refine Classical.or_iff_not_imp_left.mpr fun hbefore => Nat.le_of_not_lt fun hbeyond => ?_
  have hlt := h.stop_lt
  have hstart := h'.start_eq
  -- the later report has some of the arguments, then the bracket that closes them, and then more
  have harguments := h.arguments
  rw [← Text.slice_append_slice (show m.stop ≤ s'.1 by omega) (by omega)] at harguments
  have hlater := h'.balanced
  rw [← Text.slice_append_slice (show s'.1 ≤ s.2 - 1 by omega) (by omega),
    ← Text.slice_append_slice (show s.2 - 1 ≤ s.2 - 1 + 1 by omega) (by omega),
    Text.slice_succ h.close, List.singleton_append] at hlater
  exact harguments.not_straddling (by decide) hlater

end IsReport

/-- An assignment begins with an identifier. -/
theorem exists_identStart {text : Array Char} {m : Match} (hm : IsMatch assignment text m) :
    ∃ c, text[m.start]? = some c ∧ identStart.holds c = true := by
  have hparts : assignment.parts
      = (notAfter joined ++ group "variable" (one identStart ++ many wordChar)).parts
        ++ assignment.parts.drop 2 := rfl
  have he := hm.mem_ends
  rw [ends_eq_endsInTurn, hparts, endsInTurn_append, ← ends_eq_endsInTurn] at he
  obtain ⟨mid, hmid, -⟩ := List.mem_flatMap.mp he
  obtain ⟨place, hplace, hmid⟩ := List.mem_flatMap.mp hmid
  obtain ⟨f, hf, -⟩ := List.mem_map.mp hmid
  obtain ⟨next, hnext, -⟩ := List.mem_flatMap.mp hf
  have hholds := (mem_ends_one.mp hnext).1
  rw [eq_of_standsStill rfl place hplace] at hholds
  exact holdsAt_eq_true_iff.mp hholds

/-- **What is reported** on a match of an assignment. -/
theorem isReport_of_report? {masked : List Char} {m : Match} {s : Span}
    (hm : IsMatch assignment masked.toArray m) (h : report? masked m = some s) :
    IsReport masked m s := by
  obtain ⟨name, callEnd, -, hname, -, hcall, -, -, rfl⟩ := report?_eq_some_iff.mp h
  obtain ⟨b, hb⟩ := begins_lookup begins_variable _ hm.mem_ends
  obtain rfl : (m.start, b) = name := Option.some.inj (hb.symm.trans hname)
  -- the last bracket of the assignment is the one that the search closes
  obtain ⟨hlt, hopen⟩ : m.start < m.stop ∧ masked.toArray[m.stop - 1]? = some '(' :=
    of_mem_ends_seq_single hm.mem_ends
  rw [List.getElem?_toArray] at hopen
  obtain ⟨hstop, hclose, harguments⟩ := (Block.close?_eq_some_iff (by decide) hopen).mp hcall
  rw [Nat.sub_add_cancel (Nat.lt_of_le_of_lt (Nat.zero_le _) hlt)] at harguments
  exact
    { start_eq := rfl
      start_le := Nat.le_of_lt hlt
      stop_lt := by simp only; omega
      identStart := by simpa using exists_identStart hm
      close := hclose
      depth := depthAfter?_slice (by decide) depthAfter?_assignment _ hm.mem_ends
      arguments := harguments }

/-- The reports one after the other. -/
theorem unchecked_pairwise_nested (text : List Char) :
    (unchecked text).Pairwise fun s s' => s.1 < s'.1 ∧ (s.2 ≤ s'.1 ∨ s'.2 ≤ s.2) := by
  rw [unchecked, List.pairwise_filterMap]
  refine (matchesIn_pairwise _ _).imp_of_mem fun {m m'} hm hm' hle s hs s' hs' => ?_
  have h := isReport_of_report? (isMatch_of_mem_matchesIn hm) hs
  have h' := isReport_of_report? (isMatch_of_mem_matchesIn hm') hs'
  have hbefore : s.1 < s'.1 := by
    have hlt := (of_mem_ends_seq_single (isMatch_of_mem_matchesIn hm).mem_ends).1
    rw [h.start_eq, h'.start_eq]
    simp only at hlt
    omega
  exact ⟨hbefore, h.le_or_le h' hle⟩

end Allocation

/-! ## Stub functions -/

namespace Stub

/-- The name of a function with the character before it and the bracket after it. -/
def named : Pattern :=
  oneOf " \t*&" ++ group "name" (one identStart ++ many wordChar) ++ gap ++ "("

/-- A function head holds a name, and no other group of that name. -/
theorem parts_functionHead : ∃ ps qs, functionHead.parts = ps ++ (named.parts ++ qs) ∧
    ∀ q ∈ qs, "name" ∉ groupNames q :=
  ⟨functionHead.parts.take 4, functionHead.parts.drop 8, rfl, by decide⟩

/-- What the name of a function holds is an identifier: before it stands a space, a tabulator, a
star or an ampersand, and after it a space, a tabulator or the bracket. -/
theorem lookup_of_mem_ends_named {masked : List Char} {i : Nat} {g : Groups} {e : End}
    (he : e ∈ ends masked.toArray named i g) :
    ∃ s, e.2.lookup "name" = some s ∧ Text.IsIdentifier masked s := by
  obtain ⟨third, hthird, hopen⟩ := List.mem_flatMap.mp he
  obtain ⟨second, hsecond, hgap⟩ := List.mem_flatMap.mp hthird
  obtain ⟨first, hfirst, hname⟩ := List.mem_flatMap.mp hsecond
  obtain ⟨hbefore, rfl⟩ := mem_ends_one.mp hfirst
  obtain ⟨stop, hstop, rfl⟩ := List.mem_map.mp hname
  obtain ⟨start, hstart, hmany⟩ := List.mem_flatMap.mp hstop
  obtain ⟨hidentStart, rfl⟩ := mem_ends_one.mp hstart
  obtain ⟨n, rfl, -, -, hwords⟩ := mem_ends_run.mp hmany
  obtain ⟨blanks, rfl, -, -, hblanks⟩ := mem_ends_run.mp hgap
  obtain ⟨hbracket, rfl⟩ := mem_ends_single.mp hopen
  simp only [holdsAt_eq_true_iff, List.getElem?_toArray] at hbefore hidentStart hwords hblanks
  rw [List.getElem?_toArray] at hbracket
  refine ⟨(i + 1, i + 1 + 1 + n), by simp, ?_⟩
  exact
    { lt := by simp only; omega
      start := hidentStart
      isWord := by
        intro k hle hlt
        simp only at hle hlt
        rcases Nat.eq_or_lt_of_le hle with rfl | hlater
        · obtain ⟨c, hc, hholds⟩ := hidentStart
          exact ⟨c, hc, Text.isWord_of_holds_identStart hholds⟩
        · obtain ⟨c, hc, hholds⟩ := hwords (k - (i + 1 + 1)) (by omega)
          rw [Nat.add_sub_cancel' hlater] at hc
          exact ⟨c, hc, CharSet.holds_wordChar c ▸ hholds⟩
      before := by
        intro c _ hc
        obtain ⟨d, hd, hholds⟩ := hbefore
        simp only [Nat.add_sub_cancel] at hc
        obtain rfl : c = d := Option.some.inj (hc.symm.trans hd)
        exact CharSet.isWord_of_holds_chars (by decide) hholds
      after := by
        intro c hc
        simp only at hc
        rcases Nat.eq_zero_or_pos blanks with rfl | hpos
        · -- the bracket comes right after the name
          obtain rfl : c = '(' := Option.some.inj (hc.symm.trans hbracket)
          decide
        · obtain ⟨d, hd, hholds⟩ := hblanks 0 hpos
          obtain rfl : c = d := Option.some.inj (hc.symm.trans hd)
          exact CharSet.isWord_of_holds_chars (by decide) hholds }

/-- The name in a function head is an identifier. -/
theorem isIdentifier_name {masked : List Char} {m : Match} {s : Span}
    (hm : IsMatch functionHead masked.toArray m) (hs : m.group? "name" = some s) :
    Text.IsIdentifier masked s := by
  obtain ⟨ps, qs, hparts, hqs⟩ := parts_functionHead
  have he := hm.mem_ends
  rw [ends_eq_endsInTurn, hparts, endsInTurn_append] at he
  obtain ⟨first, -, he⟩ := List.mem_flatMap.mp he
  rw [endsInTurn_append, ← ends_eq_endsInTurn] at he
  obtain ⟨last, hlast, he⟩ := List.mem_flatMap.mp he
  obtain ⟨name, hname, hidentifier⟩ := lookup_of_mem_ends_named hlast
  have hkept : m.group? "name" = some name := (lookup_of_mem_endsInTurn hqs _ he).trans hname
  exact Option.some.inj (hkept.symm.trans hs) ▸ hidentifier

/-- **What is reported** is an identifier in the mask, and no keyword. -/
theorem isIdentifier_of_mem_functions {text : List Char} {s : Span} (hs : s ∈ functions text) :
    Text.IsIdentifier (mask .slashes text) s ∧
      String.ofList (Text.slice (mask .slashes text) s) ∉ keywords := by
  obtain ⟨m, hm, h⟩ := List.mem_filterMap.mp hs
  obtain ⟨hname, hkeyword, -⟩ := report?_eq_some_iff.mp h
  exact ⟨isIdentifier_name (isMatch_of_mem_matchesIn hm) hname, by simpa using hkeyword⟩

/-- The reports follow each other. -/
theorem functions_pairwise_disjoint (text : List Char) :
    (functions text).Pairwise fun s s' => s.1 < s'.1 ∧ s.2 ≤ s'.1 := by
  rw [functions, List.pairwise_filterMap]
  refine (matchesIn_pairwise_group captures_name).imp ?_
  intro m m' hbefore s hs s' hs'
  exact (hbefore s s' (report?_eq_some hs) (report?_eq_some hs')).symm

end Stub

/-! ## Both analyses -/

/-- **Reports stand in code.**  The allocations that are reported in a text begin at one place after
the other, and each ends before the next begins or goes on to its end or beyond.  In the text and in
its mask a report begins with the same letter or underscore and ends with a closing bracket, and in
the mask its brackets are balanced.  The stubs that are reported follow each other; each is an
identifier of the text and of the mask that stands whole in both and is no keyword.  So no report
begins in a comment or a literal. -/
theorem reports_stand_in_code (text : List Char) :
    ((Allocation.unchecked text).Pairwise fun s s' =>
      s.1 < s'.1 ∧ (s.2 ≤ s'.1 ∨ s'.2 ≤ s.2)) ∧
    (∀ s ∈ Allocation.unchecked text, s.1 < s.2 ∧ s.2 ≤ text.length ∧
      (∃ c, text[s.1]? = some c ∧ (mask .slashes text)[s.1]? = some c ∧
        identStart.holds c = true) ∧
      text[s.2 - 1]? = some ')' ∧ (mask .slashes text)[s.2 - 1]? = some ')' ∧
      Block.Balanced '(' ')' (Text.slice (mask .slashes text) s)) ∧
    ((Stub.functions text).Pairwise fun s s' => s.1 < s'.1 ∧ s.2 ≤ s'.1) ∧
    (∀ s ∈ Stub.functions text,
      Text.slice text s = Text.slice (mask .slashes text) s ∧
      Text.IsIdentifier text s ∧ Text.IsIdentifier (mask .slashes text) s ∧
      String.ofList (Text.slice text s) ∉ Stub.keywords) ∧
    ∀ s ∈ Allocation.unchecked text ++ Stub.functions text,
      Mask.InCode .slashes text s.1 := by
  -- the variable of an allocation
  have hvariable : ∀ s ∈ Allocation.unchecked text, ∃ m,
      Allocation.IsReport (mask .slashes text) m s := by
    intro s hs
    obtain ⟨m, hm, h⟩ := List.mem_filterMap.mp hs
    exact ⟨m, Allocation.isReport_of_report? (isMatch_of_mem_matchesIn hm) h⟩
  refine ⟨Allocation.unchecked_pairwise_nested text, ?_, Stub.functions_pairwise_disjoint text,
    ?_, ?_⟩
  · intro s hs
    obtain ⟨m, h⟩ := hvariable s hs
    obtain ⟨hlt, hle⟩ := Allocation.unchecked_bounds hs
    obtain ⟨c, hc, hholds⟩ := h.identStart
    have hstart := (Mask.inCode_of_isWord hc (Text.isWord_of_holds_identStart hholds)).1
    have hstop := (Mask.inCode_of_getElem?_mask Mask.isProper_slashes h.close (by decide)
      (by decide) (by decide)).1
    exact ⟨hlt, hle, ⟨c, hstart, hc, hholds⟩, hstop, h.close, h.balanced⟩
  · intro s hs
    obtain ⟨hidentifier, hkeyword⟩ := Stub.isIdentifier_of_mem_functions hs
    have hsame := hidentifier.slice_eq
    exact ⟨hsame, hidentifier.of_mask, hidentifier, hsame ▸ hkeyword⟩
  · intro s hs
    rcases List.mem_append.mp hs with hs | hs
    · obtain ⟨m, h⟩ := hvariable s hs
      obtain ⟨c, hc, hholds⟩ := h.identStart
      exact (Mask.inCode_of_isWord hc (Text.isWord_of_holds_identStart hholds)).2.1
    · exact (Stub.isIdentifier_of_mem_functions hs).1.inCode

/-- One call stands in the arguments of another, with brackets in a comment and in a literal. -/
example : Allocation.unchecked "/* ( */ p = realloc(q = malloc(4), ')'); *q = *p;".toList
    = [(8, 39), (20, 33)] := by decide

end CodeSweep
