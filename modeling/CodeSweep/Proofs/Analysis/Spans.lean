/-
# What the analyses report

Both analyses look for a pattern in the mask of a text and report, for some of its matches, a
stretch that begins with a group of the match.  The mask is as long as the text, so the stretches
lie in the text (`unchecked_bounds`, `functions_bounds`); matches follow each other, so the
stretches begin at different places, from left to right (`unchecked_pairwise`,
`functions_pairwise`).
-/
import CodeSweep.Analysis.Allocation
import CodeSweep.Analysis.Stub
import CodeSweep.Proofs.Pattern.Matches

namespace CodeSweep

/-! ## Masks and blocks -/

/-- A mask has one character for each one of the text. -/
theorem Mask.length_maskFrom (style : CommentStyle) (st : Mask.State) (text : List Char) :
    (maskFrom style st text).length = text.length := by
  induction text generalizing st with
  | nil => rfl
  | cons c cs ih => rw [maskFrom, List.length_cons, List.length_cons, ih]

/-- A mask is as long as its text. -/
@[simp] theorem length_mask (style : CommentStyle) (text : List Char) :
    (mask style text).length = text.length :=
  Mask.length_maskFrom style .code text

namespace Block

/-- The closing delimiter is one of the characters that were looked at. -/
theorem closeFrom_bounds {opener closer : Char} {depth : Int} {i j : Nat} {cs : List Char}
    (h : closeFrom opener closer depth i cs = some j) : i ≤ j ∧ j < i + cs.length := by
  induction cs generalizing depth i with
  | nil => simp [closeFrom] at h
  | cons c cs ih =>
      have hlater : ∀ depth', closeFrom opener closer depth' (i + 1) cs = some j →
          i ≤ j ∧ j < i + (cs.length + 1) := by
        intro depth' h'
        have := ih h'
        omega
      rw [List.length_cons]
      rw [closeFrom] at h
      split at h
      · exact hlater _ h
      · split at h
        · split at h
          · obtain rfl : i = j := Option.some.inj h
            omega
          · exact hlater _ h
        · exact hlater _ h

/-- The closing delimiter stands in the text, not before the opening one. -/
theorem close?_bounds {text : List Char} {start j : Nat} {opener closer : Char}
    (h : close? text start opener closer = some j) : start ≤ j ∧ j < text.length := by
  have hbounds := closeFrom_bounds h
  rw [List.length_drop] at hbounds
  omega

end Block

/-! ## Reports on matches -/

namespace Pattern

/-- Stretches that begin with a group in the way of every match begin from left to right. -/
theorem filterMap_pairwise_start {p : Pattern} {text : Array Char} {name : String}
    (hp : captures name p = true) (report : Match → Option Span)
    (hreport : ∀ m ∈ p.matchesIn text, ∀ s, report m = some s →
      ∃ n, m.group? name = some n ∧ s.1 = n.1) :
    ((p.matchesIn text).filterMap report).Pairwise fun s s' => s.1 < s'.1 := by
  refine List.pairwise_filterMap.mpr ?_
  refine (matchesIn_pairwise_group hp).imp_of_mem ?_
  intro m m' hm hm' hbefore s hs s' hs'
  obtain ⟨n, hn, hstart⟩ := hreport m hm s hs
  obtain ⟨n', hn', hstart'⟩ := hreport m' hm' s' hs'
  rw [hstart, hstart']
  exact (hbefore n n' hn hn').2

end Pattern

open Pattern

/-! ## Unchecked allocations -/

namespace Allocation

/-- Every assignment of an allocation names its variable. -/
theorem captures_variable : captures "variable" assignment = true := by decide

/-- **What is reported**: an assignment outside of conditions whose call is closed, if in the rest of
the block the first thing that matters is a use. -/
theorem report?_eq_some_iff {masked : List Char} {m : Match} {s : Span} :
    report? masked m = some s ↔
      ∃ name callEnd found, m.group? "variable" = some name ∧
        openCondition.search? (masked.take m.start).toArray (lineStartBefore masked m.start)
          = none ∧
        Block.close? masked (m.stop - 1) '(' ')' = some callEnd ∧
        (event (Text.slice masked name)).search?
          (masked.take (Block.enclosingEnd masked (callEnd + 1))).toArray (callEnd + 1)
            = some found ∧
        (found.group? "use").isSome = true ∧ (name.1, callEnd + 1) = s := by
  unfold report?
  simp only [Option.bind_eq_bind, Option.bind_eq_some_iff, Option.ite_none_left_eq_some,
    Option.ite_none_right_eq_some, Option.not_isSome_iff_eq_none, Option.some.injEq]
  constructor
  · rintro ⟨name, hname, hcondition, callEnd, hcall, found, hfound, huse, hs⟩
    exact ⟨name, callEnd, found, hname, hcondition, hcall, hfound, huse, hs⟩
  · rintro ⟨name, callEnd, found, hname, hcondition, hcall, hfound, huse, hs⟩
    exact ⟨name, hname, hcondition, callEnd, hcall, found, hfound, huse, hs⟩

/-- A report goes from the variable to behind the call. -/
theorem report?_bounds {masked : List Char} {m : Match} {s : Span}
    (hm : IsMatch assignment masked.toArray m) (h : report? masked m = some s) :
    ∃ name, m.group? "variable" = some name ∧ s.1 = name.1 ∧ s.1 < s.2 ∧
      s.2 ≤ masked.length := by
  obtain ⟨name, callEnd, -, hname, -, hcall, -, -, rfl⟩ := report?_eq_some_iff.mp h
  -- the call is closed after it was opened, and that is after the variable
  have hin := hm.group_within captures_variable hname
  have hclose := Block.close?_bounds hcall
  exact ⟨name, hname, rfl, by simp only; omega, hclose.2⟩

/-- Reports run forward and lie in the text. -/
theorem unchecked_bounds {text : List Char} {s : Span} (hs : s ∈ unchecked text) :
    s.1 < s.2 ∧ s.2 ≤ text.length := by
  obtain ⟨m, hm, h⟩ := List.mem_filterMap.mp hs
  obtain ⟨-, -, -, hlt, hle⟩ := report?_bounds (isMatch_of_mem_matchesIn hm) h
  exact ⟨hlt, length_mask .slashes text ▸ hle⟩

/-- Reports begin at one place after the other. -/
theorem unchecked_pairwise (text : List Char) :
    (unchecked text).Pairwise fun s s' => s.1 < s'.1 := by
  refine filterMap_pairwise_start captures_variable _ fun m hm s h => ?_
  obtain ⟨name, hname, hstart, -⟩ := report?_bounds (isMatch_of_mem_matchesIn hm) h
  exact ⟨name, hname, hstart⟩

end Allocation

/-! ## Stub functions -/

namespace Stub

/-- Every head of a function has a name. -/
theorem captures_name : captures "name" functionHead = true := by decide

/-- **What is reported**: the name in the head of a function, unless it is a keyword, whose body is
closed and holds nothing but placeholders and a marker. -/
theorem report?_eq_some_iff {text masked : List Char} {m : Match} {s : Span} :
    report? text masked m = some s ↔
      m.group? "name" = some s ∧
        keywords.contains (String.ofList (Text.slice masked s)) = false ∧
        ∃ stop, Block.close? masked (m.stop - 1) '{' '}' = some stop ∧
          isPlaceholderBody (Text.slice masked (m.stop - 1 + 1, stop)) = true ∧
          (marker.search? (text.take stop).toArray (m.stop - 1 + 1)).isSome = true := by
  unfold report?
  simp only [Option.bind_eq_bind, Option.bind_eq_some_iff, Option.ite_none_left_eq_some,
    Option.ite_none_right_eq_some, Option.some.injEq, Bool.and_eq_true, Bool.not_eq_true]
  constructor
  · rintro ⟨name, hname, hkeyword, stop, hclose, ⟨hbody, hmarker⟩, rfl⟩
    exact ⟨hname, hkeyword, stop, hclose, hbody, hmarker⟩
  · rintro ⟨hname, hkeyword, stop, hclose, hbody, hmarker⟩
    exact ⟨s, hname, hkeyword, stop, hclose, ⟨hbody, hmarker⟩, rfl⟩

/-- A report is the name in the head of the function. -/
theorem report?_eq_some {text masked : List Char} {m : Match} {s : Span}
    (h : report? text masked m = some s) : m.group? "name" = some s :=
  (report?_eq_some_iff.mp h).1

/-- Reports run forward and lie in the text. -/
theorem functions_bounds {text : List Char} {s : Span} (hs : s ∈ functions text) :
    s.1 < s.2 ∧ s.2 ≤ text.length := by
  obtain ⟨m, hm, h⟩ := List.mem_filterMap.mp hs
  have hmatch := isMatch_of_mem_matchesIn hm
  have hin := hmatch.group_within captures_name (report?_eq_some h)
  have hle := (hmatch.group_bounds (report?_eq_some h)).2
  rw [List.size_toArray, length_mask] at hle
  exact ⟨hin.2.1, hle⟩

/-- Reports begin at one place after the other. -/
theorem functions_pairwise (text : List Char) :
    (functions text).Pairwise fun s s' => s.1 < s'.1 :=
  filterMap_pairwise_start captures_name _ fun _ _ s h => ⟨s, report?_eq_some h, rfl⟩

end Stub

end CodeSweep
