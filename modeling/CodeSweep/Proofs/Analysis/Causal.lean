/-
# Reports do not depend on what comes later

An allocation is reported for what happens up to the end of the enclosing block, a stub for its
body.  Nothing after that matters: in two texts that begin alike, whatever is reported of a block
that closes within the common beginning of the masks is reported in both (`reports_of_take_eq`).

Each stage looks no further.  The masks begin alike but for the last character.  A match that would
run beyond the block would hold the brace that closes it, which a function head does not and an
assignment does not after the bracket that closes the call.
-/
import CodeSweep.Proofs.Block
import CodeSweep.Proofs.Mask.Causal
import CodeSweep.Proofs.Pattern.Alike

namespace CodeSweep

open Pattern

/-! ## Common beginnings -/

/-- Texts that begin alike have masks that begin alike, up to the last character of the common
beginning. -/
theorem exists_mask_append (xs ys zs : List Char) :
    ∃ c ys' zs', c.length = xs.length - 1 ∧ mask .slashes (xs ++ ys) = c ++ ys' ∧
      mask .slashes (xs ++ zs) = c ++ zs' := by
  have hcommon : (mask .slashes (xs ++ ys)).take (xs.length - 1)
      = (mask .slashes (xs ++ zs)).take (xs.length - 1) :=
    Mask.take_maskFrom_append_eq .slashes .code xs ys zs
  refine ⟨(mask .slashes (xs ++ ys)).take (xs.length - 1),
    (mask .slashes (xs ++ ys)).drop (xs.length - 1),
    (mask .slashes (xs ++ zs)).drop (xs.length - 1), ?_, (List.take_append_drop _ _).symm, ?_⟩
  · rw [List.length_take, length_mask, List.length_append]
    omega
  · rw [hcommon, List.take_append_drop]

/-- A stretch of the common beginning does not depend on what follows. -/
theorem Text.slice_append_of_le {c : List Char} {s : Span} (hs : s.2 ≤ c.length)
    (ys : List Char) : slice (c ++ ys) s = slice c s := by
  rw [slice, slice, List.take_append_of_le_length hs]

/-- Characters of the common beginning do not depend on what follows. -/
theorem getElem?_toArray_append {c ys : List Char} {i : Nat} {x : Char} (hi : i < c.length)
    (hx : (c ++ ys)[i]? = some x) (zs : List Char) : (c ++ zs).toArray[i]? = some x := by
  rw [List.getElem?_append_left hi] at hx
  rw [List.getElem?_toArray, List.getElem?_append_left hi, hx]

/-! ## Unchecked allocations -/

namespace Allocation

variable {c ys : List Char} {m : Match} {s : Span}

/-- A match of an assignment tells what it is from the characters up to its end. -/
theorem looksBack_assignment : looksBack assignment = true := by decide

/-- No brace closes in an assignment after a bracket has. -/
theorem noneAfter_assignment : noneAfter ')' '}' assignment = true := by decide

/-- The place after the last line feed before a place of the common beginning. -/
theorem lineStartBefore_append {i : Nat} (hi : i ≤ c.length) :
    lineStartBefore (c ++ ys) i = lineStartBefore c i := by
  rw [lineStartBefore, lineStartBefore, List.take_append_of_le_length hi]

/-- A call is closed after the name of its variable and before the end of its block. -/
theorem bounds_of_close? (hm : m ∈ assignment.matchesIn (c ++ ys).toArray) {name : Span}
    {callEnd : Nat} (hname : m.group? "variable" = some name)
    (hcall : Block.close? (c ++ ys) (m.stop - 1) '(' ')' = some callEnd) :
    m.start ≤ callEnd ∧ name.2 ≤ callEnd + 1 ∧
      callEnd < Block.enclosingEnd (c ++ ys) (callEnd + 1) := by
  have hin := (isMatch_of_mem_matchesIn hm).group_within captures_variable hname
  have hclose := Block.close?_bounds hcall
  have hle : callEnd + 1 ≤ Block.enclosingEnd (c ++ ys) (callEnd + 1) :=
    Block.le_enclosingEnd hclose.2
  omega

/-- No match that starts before a call is closed runs beyond the brace that ends the block. -/
theorem le_of_mem_ends_assignment {callEnd stop i : Nat} {ws : List Char} (hi : i ≤ callEnd)
    (hlt : callEnd < stop) (hstop : stop < c.length)
    (hcall : (c ++ ws).toArray[callEnd]? = some ')') (hbrace : (c ++ ws).toArray[stop]? = some '}')
    {e : End} (he : e ∈ ends (c ++ ws).toArray assignment i []) : e.1 ≤ c.length := by
  refine Nat.le_of_not_lt fun hbeyond => ?_
  exact ne_of_noneAfter noneAfter_assignment e he callEnd stop hi hlt (by omega) hcall hbrace

/-- **Assignments are found** whatever comes after the end of their block. -/
theorem mem_matchesIn_append (hm : m ∈ assignment.matchesIn (c ++ ys).toArray)
    (h : report? (c ++ ys) m = some s) (hend : Block.enclosingEnd (c ++ ys) s.2 < c.length)
    (zs : List Char) : m ∈ assignment.matchesIn (c ++ zs).toArray := by
  obtain ⟨name, callEnd, -, hname, -, hcall, -, -, rfl⟩ := report?_eq_some_iff.mp h
  obtain ⟨hstart, -, hlt⟩ := bounds_of_close? hm hname hcall
  simp only at hend
  have hclose := Block.getElem?_of_close? hcall
  have hbrace : (c ++ ys)[Block.enclosingEnd (c ++ ys) (callEnd + 1)]? = some '}' :=
    Block.getElem?_enclosingEnd (Nat.lt_of_lt_of_le hend (by simp))
  have hends : ∀ ws i, i ≤ m.start → ∀ e ∈ ends (c ++ ws).toArray assignment i [],
      e.1 ≤ c.length := fun ws i hi e he =>
    le_of_mem_ends_assignment (Nat.le_trans hi hstart) hlt hend
      (getElem?_toArray_append (by omega) hclose ws) (getElem?_toArray_append hend hbrace ws) he
  refine mem_matchesIn_of_ends_eq hm (by simp; omega) fun i hi => ?_
  exact ends_eq_of_forall_le (alike_append c ys zs) looksBack_assignment (by omega)
    (hends ys i hi) (hends zs i hi)

/-- **The verdict on an assignment** is the same whatever comes after the end of its block. -/
theorem report?_append (hm : m ∈ assignment.matchesIn (c ++ ys).toArray)
    (h : report? (c ++ ys) m = some s) (hend : Block.enclosingEnd (c ++ ys) s.2 < c.length)
    (zs : List Char) : report? (c ++ zs) m = some s := by
  obtain ⟨name, callEnd, found, hname, hcondition, hcall, hfound, huse, rfl⟩ :=
    report?_eq_some_iff.mp h
  obtain ⟨hstart, hstop, hlt⟩ := bounds_of_close? hm hname hcall
  simp only at hend
  refine report?_eq_some_iff.mpr ⟨name, callEnd, found, hname, ?_,
    Block.close?_append hcall (by omega) zs, ?_, huse, rfl⟩
  · rw [List.take_append_of_le_length (by omega), lineStartBefore_append (by omega)]
      at hcondition ⊢
    exact hcondition
  · rw [Block.enclosingEnd_append hend zs, Text.slice_append_of_le (by omega),
      List.take_append_of_le_length (by omega)]
    rwa [Text.slice_append_of_le (by omega), List.take_append_of_le_length (by omega)] at hfound

end Allocation

/-! ## Stub functions -/

namespace Stub

variable {text c ys : List Char} {m : Match} {s : Span}

/-- The body of a function whose name is reported as `s` closes at `stop`. -/
def ClosesAt (text : List Char) (s : Span) (stop : Nat) : Prop :=
  ∃ m ∈ functionHead.matchesIn (mask .slashes text).toArray,
    report? text (mask .slashes text) m = some s ∧
      Block.close? (mask .slashes text) (m.stop - 1) '{' '}' = some stop

/-- The body of every function that is reported closes somewhere. -/
theorem exists_closesAt (hs : s ∈ functions text) : ∃ stop, ClosesAt text s stop := by
  obtain ⟨m, hm, h⟩ := List.mem_filterMap.mp hs
  obtain ⟨-, -, stop, hclose, -⟩ := report?_eq_some_iff.mp h
  exact ⟨stop, m, hm, h, hclose⟩

/-- A match of a function head tells what it is from the characters up to its end. -/
theorem looksBack_functionHead : looksBack functionHead = true := by decide

/-- No brace closes in a function head. -/
theorem avoids_functionHead : avoids '}' functionHead = true := by decide

/-- A function head ends where its body opens, or before. -/
theorem bounds_of_close? (hm : m ∈ functionHead.matchesIn (c ++ ys).toArray)
    (hname : m.group? "name" = some s) {stop : Nat}
    (hclose : Block.close? (c ++ ys) (m.stop - 1) '{' '}' = some stop) :
    m.start ≤ stop ∧ s.2 ≤ stop + 1 := by
  have hin := (isMatch_of_mem_matchesIn hm).group_within captures_name hname
  have hle := (Block.close?_bounds hclose).1
  omega

/-- **Function heads are found** whatever comes after the body. -/
theorem mem_matchesIn_append (hm : m ∈ functionHead.matchesIn (c ++ ys).toArray)
    (hname : m.group? "name" = some s) {stop : Nat}
    (hclose : Block.close? (c ++ ys) (m.stop - 1) '{' '}' = some stop) (hstop : stop < c.length)
    (zs : List Char) : m ∈ functionHead.matchesIn (c ++ zs).toArray := by
  obtain ⟨hstart, -⟩ := bounds_of_close? hm hname hclose
  have hbrace := Block.getElem?_of_close? hclose
  -- a match beyond the brace that closes the body would hold it
  have hends : ∀ ws i, i ≤ m.start → ∀ e ∈ ends (c ++ ws).toArray functionHead i [],
      e.1 ≤ c.length := fun ws i hi e he => Nat.le_of_not_lt fun hbeyond =>
    ne_of_avoids avoids_functionHead e he stop (by omega) (by omega)
      (getElem?_toArray_append hstop hbrace ws)
  refine mem_matchesIn_of_ends_eq hm (by simp; omega) fun i hi => ?_
  exact ends_eq_of_forall_le (alike_append c ys zs) looksBack_functionHead (by omega)
    (hends ys i hi) (hends zs i hi)

/-- **The verdict on a function** is the same whatever comes after the body. -/
theorem report?_append {xs ts us : List Char}
    (hm : m ∈ functionHead.matchesIn (c ++ ys).toArray)
    (h : report? (xs ++ ts) (c ++ ys) m = some s) {stop : Nat}
    (hclose : Block.close? (c ++ ys) (m.stop - 1) '{' '}' = some stop) (hstop : stop < c.length)
    (hxs : stop ≤ xs.length) (zs : List Char) :
    report? (xs ++ us) (c ++ zs) m = some s := by
  obtain ⟨hname, hkeyword, stop', hclose', hbody, hmarker⟩ := report?_eq_some_iff.mp h
  obtain rfl : stop' = stop := Option.some.inj (hclose'.symm.trans hclose)
  obtain ⟨-, hs⟩ := bounds_of_close? hm hname hclose
  refine report?_eq_some_iff.mpr ⟨hname, ?_, stop', Block.close?_append hclose hstop zs, ?_, ?_⟩
  · rw [Text.slice_append_of_le (by omega)] at hkeyword ⊢
    exact hkeyword
  · rw [Text.slice_append_of_le (by simp only; omega)] at hbody ⊢
    exact hbody
  · rw [List.take_append_of_le_length hxs] at hmarker ⊢
    exact hmarker

end Stub

/-! ## Both analyses -/

/-- Two texts with the same first `m` characters are the same, or both have so many. -/
theorem eq_or_exists_append {text text' : List Char} {m : Nat} (h : text.take m = text'.take m) :
    text = text' ∨ ∃ xs ys zs, xs.length = m ∧ text = xs ++ ys ∧ text' = xs ++ zs := by
  by_cases hm : m ≤ text.length
  · refine .inr ⟨text.take m, text.drop m, text'.drop m, ?_, (List.take_append_drop _ _).symm, ?_⟩
    · rw [List.length_take, Nat.min_eq_left hm]
    · rw [h, List.take_append_drop]
  · -- a text that ends before place `m` is the whole of what the texts have in common
    have hlength := congrArg List.length h
    rw [List.length_take, List.length_take] at hlength
    rw [List.take_of_length_le (by omega), List.take_of_length_le (by omega)] at h
    exact .inl h

/-- **Reports do not depend on what comes later.**  Of two texts with the same first `m` characters,
what is reported in the one is reported in the other if the block around an allocation, or the body
of a stub, closes in the mask before the last of these characters. -/
theorem reports_of_take_eq (text text' : List Char) (m : Nat) (h : text.take m = text'.take m) :
    (∀ s ∈ Allocation.unchecked text, Block.enclosingEnd (mask .slashes text) s.2 + 2 ≤ m →
      s ∈ Allocation.unchecked text') ∧
    ∀ s ∈ Stub.functions text, (∃ stop, Stub.ClosesAt text s stop) ∧
      ∀ stop, Stub.ClosesAt text s stop → stop + 2 ≤ m → s ∈ Stub.functions text' := by
  rcases eq_or_exists_append h with rfl | ⟨xs, ys, zs, hlength, rfl, rfl⟩
  · exact ⟨fun s hs _ => hs, fun s hs => ⟨Stub.exists_closesAt hs, fun _ _ _ => hs⟩⟩
  · obtain ⟨c, ys', zs', hc, hmask, hmask'⟩ := exists_mask_append xs ys zs
    rw [hlength] at hc
    constructor
    · intro s hs hend
      rw [hmask] at hend
      rw [Allocation.unchecked, hmask] at hs
      rw [Allocation.unchecked, hmask']
      obtain ⟨hd, hhd, hreport⟩ := List.mem_filterMap.mp hs
      have hend' : Block.enclosingEnd (c ++ ys') s.2 < c.length := by omega
      exact List.mem_filterMap.mpr ⟨hd, Allocation.mem_matchesIn_append hhd hreport hend' zs',
        Allocation.report?_append hhd hreport hend' zs'⟩
    · intro s hs
      refine ⟨Stub.exists_closesAt hs, ?_⟩
      rintro stop ⟨hd, hhd, hreport, hclose⟩ hstop
      rw [hmask] at hhd hreport hclose
      rw [Stub.functions, hmask']
      have hname := Stub.report?_eq_some hreport
      exact List.mem_filterMap.mpr
        ⟨hd, Stub.mem_matchesIn_append hhd hname hclose (by omega) zs',
          Stub.report?_append hhd hreport hclose (by omega) (by omega) zs'⟩

/-- An allocation that is used without a check, then a stub, then the rest of a text. -/
def allocationAndStub (rest : String) : List Char :=
  ("void f() \x7b int *p = malloc(4); *p = 1; \x7d\n" ++
    "int g() \x7b /* TODO */ return 0; \x7d" ++ rest).toList

/-- Both are reported, also where the rest is a comment that does not end.  The body of the stub
closes just before the last character that the texts have in common. -/
theorem reports_of_take_eq_comment :
    (allocationAndStub "\n\x7d").take 74 = (allocationAndStub "\n/*").take 74 ∧
    Allocation.unchecked (allocationAndStub "\n\x7d") = [(16, 29)] ∧
    Block.enclosingEnd (mask .slashes (allocationAndStub "\n\x7d")) 29 = 39 ∧
    (16, 29) ∈ Allocation.unchecked (allocationAndStub "\n/*") ∧
    Stub.functions (allocationAndStub "\n\x7d") = [(45, 46)] ∧
    Stub.ClosesAt (allocationAndStub "\n\x7d") (45, 46) 72 ∧
    (45, 46) ∈ Stub.functions (allocationAndStub "\n/*") := by
  have hcommon : (allocationAndStub "\n\x7d").take 74 = (allocationAndStub "\n/*").take 74 := by
    decide +kernel
  have hunchecked : Allocation.unchecked (allocationAndStub "\n\x7d") = [(16, 29)] := by
    decide +kernel
  have hend : Block.enclosingEnd (mask .slashes (allocationAndStub "\n\x7d")) 29 = 39 := by
    decide +kernel
  have hstubs : Stub.functions (allocationAndStub "\n\x7d") = [(45, 46)] := by decide +kernel
  have hcloses : Stub.ClosesAt (allocationAndStub "\n\x7d") (45, 46) 72 := by
    unfold Stub.ClosesAt
    decide +kernel
  obtain ⟨hallocations, hfunctions⟩ := reports_of_take_eq _ _ 74 hcommon
  refine ⟨hcommon, hunchecked, hend, ?_, hstubs, hcloses, ?_⟩
  · exact hallocations (16, 29) (by rw [hunchecked]; exact List.mem_singleton_self _)
      (by simp only [hend]; decide)
  · exact (hfunctions (45, 46) (by rw [hstubs]; exact List.mem_singleton_self _)).2 72 hcloses
      (by decide)

end CodeSweep
