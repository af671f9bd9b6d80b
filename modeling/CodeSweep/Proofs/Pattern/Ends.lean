/-
# The ends of a match

The matcher takes what is to follow as a continuation.  Here a pattern is given the list of all
places where a match may end, each with its groups, in the order in which they are tried; the
matcher then answers with the first of them that what follows accepts (`runAt_eq_findSome?`).
What is true of every end is true of every match, whatever follows.
-/
import CodeSweep.Pattern.Match

namespace CodeSweep

namespace Pattern

/-! ## Lists of ends -/

/-- A place where a match may end, and the groups then. -/
abbrev End := Nat × Groups

/-- The ends of exactly `n` matches of the step in a row. -/
def exactlyEnds (step : Nat → Groups → List End) : Nat → Nat → Groups → List End
  | 0, i, g => [(i, g)]
  | n + 1, i, g => (step i g).flatMap fun e => exactlyEnds step n e.1 e.2

/-- The ends of at most `n` matches of the step in a row, none of them right after an empty one. -/
def atMostEnds (step : Nat → Groups → List End) (lazy : Bool) :
    Nat → Option Nat → Nat → Groups → List End
  | 0, _, i, g => [(i, g)]
  | n + 1, last, i, g =>
    if last = some i then [(i, g)]
    else if lazy then
      (i, g) :: (step i g).flatMap fun e => atMostEnds step lazy n (some i) e.1 e.2
    else ((step i g).flatMap fun e => atMostEnds step lazy n (some i) e.1 e.2) ++ [(i, g)]

/-- What a test of the place makes of the groups `found` behind it: the place with these groups, or
no end. -/
def testedEnd (wanted : Bool) (i : Nat) (g : Groups) (found : Option Groups) : List End :=
  match found with
  | some g' => if wanted then [(i, g')] else []
  | none => if wanted then [] else [(i, g)]

/-- The ends of the matches of the pattern that start at a place, the preferred one first. -/
def ends (text : Array Char) : Pattern → Nat → Groups → List End
  | empty, i, g => [(i, g)]
  | one s, i, g => if holdsAt s.holds text i then [(i + 1, g)] else []
  | run s least most lazy, i, g => (runEnds s least most lazy text i).map fun j => (j, g)
  | seq p q, i, g => (ends text p i g).flatMap fun e => ends text q e.1 e.2
  | alt p q, i, g => ends text p i g ++ ends text q i g
  | iter p least most lazy, i, g =>
    (exactlyEnds (ends text p) least i g).flatMap fun e =>
      atMostEnds (ends text p) lazy (further least most text.size) none e.1 e.2
  | group name p, i, g => (ends text p i g).map fun e => (e.1, (name, i, e.1) :: e.2)
  | edge e, i, g => if e.holds text i then [(i, g)] else []
  | ahead p wanted, i, g => testedEnd wanted i g ((ends text p i g).head?.map (·.2))
  | behind p width wanted, i, g =>
    testedEnd wanted i g
      (if width ≤ i then (ends text p (i - width) g).head?.map (·.2) else none)

/-! ## The matcher picks the first accepted end -/

/-- Going through a list is going through the part of it that passes a test, if the other members
contribute nothing. -/
theorem flatMap_eq_flatMap_filter {α β : Type} {l : List α} {f g : α → List β} {p : α → Bool}
    (hout : ∀ a ∈ l, p a = false → f a = []) (hin : ∀ a ∈ l, p a = true → f a = g a) :
    l.flatMap f = (l.filter p).flatMap g := by
  induction l with
  | nil => rfl
  | cons a l ih =>
      rw [List.forall_mem_cons] at hout hin
      rw [List.flatMap_cons, ih hout.2 hin.2]
      cases hp : p a with
      | true => rw [List.filter_cons_of_pos hp, List.flatMap_cons, hin.1 hp]
      | false => rw [List.filter_cons_of_neg (by simp [hp]), hout.1 hp, List.nil_append]

/-- Searching through lists one after the other. -/
theorem findSome?_flatMap {α β γ : Type} (l : List α) (f : α → List β) (k : β → Option γ) :
    (l.flatMap f).findSome? k = l.findSome? fun a => (f a).findSome? k := by
  induction l with
  | nil => rfl
  | cons a l ih =>
      rw [List.flatMap_cons, List.findSome?_append, ih, List.findSome?_cons]
      cases (f a).findSome? k <;> rfl

/-- A search that accepts everything finds the first member. -/
theorem findSome?_some_comp {α β : Type} (l : List α) (f : α → β) :
    (l.findSome? fun a => some (f a)) = l.head?.map f := by
  cases l <;> simp

section

variable {α : Type} {runStep : Nat → Groups → Then α → Option α}
  {stepEnds : Nat → Groups → List End}

/-- A row of matches picks the first accepted end if each match does. -/
theorem exactly_eq_findSome?
    (hstep : ∀ i g k, runStep i g k = (stepEnds i g).findSome? fun e => k e.1 e.2)
    (n i : Nat) (g : Groups) (k : Then α) :
    exactly runStep n i g k = (exactlyEnds stepEnds n i g).findSome? fun e => k e.1 e.2 := by
  induction n generalizing i g with
  | zero => simp [exactly, exactlyEnds]
  | succ n ih =>
      rw [exactly, exactlyEnds, hstep, findSome?_flatMap]
      simp only [ih]

/-- A bounded row of matches picks the first accepted end if each match does. -/
theorem atMost_eq_findSome?
    (hstep : ∀ i g k, runStep i g k = (stepEnds i g).findSome? fun e => k e.1 e.2)
    (lazy : Bool) (n : Nat) (last : Option Nat) (i : Nat) (g : Groups) (k : Then α) :
    atMost runStep lazy n last i g k
      = (atMostEnds stepEnds lazy n last i g).findSome? fun e => k e.1 e.2 := by
  induction n generalizing last i g with
  | zero => simp [atMost, atMostEnds]
  | succ n ih =>
      rw [atMost, atMostEnds, hstep]
      simp only [ih, Option.orElse_eq_orElse, Option.orElse_eq_or]
      split
      · simp
      · split
        · rw [List.findSome?_cons, findSome?_flatMap]
          cases k i g <;> rfl
        · rw [List.findSome?_append, findSome?_flatMap]
          simp

end

/-- A test of the place goes on with the only end it leaves, if any. -/
theorem match_eq_findSome?_testedEnd {α : Type} (wanted : Bool) (i : Nat) (g : Groups)
    (found : Option Groups) (k : Then α) :
    (match found with
      | some g' => if wanted then k i g' else none
      | none => if wanted then none else k i g)
      = (testedEnd wanted i g found).findSome? fun e => k e.1 e.2 := by
  cases found <;> cases wanted <;> simp [testedEnd]

/-- **The matcher answers with the first end that what follows accepts.** -/
theorem runAt_eq_findSome? {α : Type} (text : Array Char) (p : Pattern) (i : Nat) (g : Groups)
    (k : Then α) :
    runAt text p i g k = (ends text p i g).findSome? fun e => k e.1 e.2 := by
  induction p generalizing α i g k with
  | empty => simp [runAt, ends]
  | one s => rw [runAt, ends]; split <;> simp
  | run s least most lazy => rw [runAt, ends, List.findSome?_map]; rfl
  | seq p q ihp ihq =>
      rw [runAt, ends, ihp, findSome?_flatMap]
      simp only [ihq]
  | alt p q ihp ihq =>
      rw [runAt, ends, ihp, ihq, List.findSome?_append, Option.orElse_eq_orElse,
        Option.orElse_eq_or]
  | iter p least most lazy ih =>
      rw [runAt, ends, exactly_eq_findSome? fun i g k => ih i g k, findSome?_flatMap]
      simp only [atMost_eq_findSome? fun i g k => ih i g k]
  | group name p ih => rw [runAt, ends, ih, List.findSome?_map]; rfl
  | edge e => rw [runAt, ends]; split <;> simp
  | ahead p wanted ih =>
      rw [runAt, ends, ih, findSome?_some_comp]
      exact match_eq_findSome?_testedEnd ..
  | behind p width wanted ih =>
      rw [runAt, ends, ih, findSome?_some_comp]
      exact match_eq_findSome?_testedEnd ..

/-- What follows is satisfied at one of the ends. -/
theorem exists_end_of_runAt {α : Type} {text : Array Char} {p : Pattern} {i : Nat} {g : Groups}
    {k : Then α} {a : α} (h : runAt text p i g k = some a) :
    ∃ e ∈ ends text p i g, k e.1 e.2 = some a := by
  rw [runAt_eq_findSome?] at h
  exact List.exists_of_findSome?_eq_some h

/-! ## Membership -/

/-- A test of the place does not move, and brings in no groups but those found. -/
theorem mem_testedEnd {wanted : Bool} {i : Nat} {g : Groups} {found : Option Groups} {e : End}
    (h : e ∈ testedEnd wanted i g found) : e.1 = i ∧ (e.2 = g ∨ found = some e.2) := by
  cases found <;> cases wanted <;> simp_all [testedEnd]

section

variable {text : Array Char} {i : Nat} {g : Groups} {e : End}

/-- One character is matched if it is in the set. -/
theorem mem_ends_one {s : CharSet} :
    e ∈ ends text (one s) i g ↔ holdsAt s.holds text i = true ∧ e = (i + 1, g) := by
  rw [ends]
  split
  · next h => simp [h]
  · next h => simp [h]

/-- An edge is matched where it holds. -/
theorem mem_ends_edge {d : Edge} :
    e ∈ ends text (edge d) i g ↔ d.holds text i = true ∧ e = (i, g) := by
  rw [ends]
  split
  · next h => simp [h]
  · next h => simp [h]

/-- Looking ahead does not move, and brings in no groups but those of a match ahead. -/
theorem of_mem_ends_ahead {p : Pattern} {wanted : Bool} (he : e ∈ ends text (ahead p wanted) i g) :
    e.1 = i ∧ (e.2 = g ∨ ∃ f ∈ ends text p i g, f.2 = e.2) := by
  rw [ends] at he
  obtain ⟨hplace, hgroups⟩ := mem_testedEnd he
  refine ⟨hplace, hgroups.imp_right ?_⟩
  intro hfound
  obtain ⟨f, hf, hfe⟩ := Option.map_eq_some_iff.mp hfound
  exact ⟨f, List.mem_of_head? hf, hfe⟩

/-- Looking behind does not move, and brings in no groups but those of a match behind. -/
theorem of_mem_ends_behind {p : Pattern} {width : Nat} {wanted : Bool}
    (he : e ∈ ends text (behind p width wanted) i g) :
    e.1 = i ∧ (e.2 = g ∨ ∃ f ∈ ends text p (i - width) g, f.2 = e.2) := by
  rw [ends] at he
  obtain ⟨hplace, hgroups⟩ := mem_testedEnd he
  refine ⟨hplace, hgroups.imp_right ?_⟩
  intro hfound
  split at hfound
  · obtain ⟨f, hf, hfe⟩ := Option.map_eq_some_iff.mp hfound
    exact ⟨f, List.mem_of_head? hf, hfe⟩
  · cases hfound

end

/-- What each match of a row keeps, the row keeps. -/
theorem exactlyEnds_induct {step : Nat → Groups → List End} {P : End → Prop}
    (hstep : ∀ e, P e → ∀ e' ∈ step e.1 e.2, P e') (n : Nat) :
    ∀ e, P e → ∀ e' ∈ exactlyEnds step n e.1 e.2, P e' := by
  induction n with
  | zero =>
      intro e he e' he'
      rw [exactlyEnds, List.mem_singleton] at he'
      exact he' ▸ he
  | succ n ih =>
      intro e he e' he'
      rw [exactlyEnds, List.mem_flatMap] at he'
      obtain ⟨mid, hmid, he'⟩ := he'
      exact ih mid (hstep e he mid hmid) e' he'

/-- What each match of a bounded row keeps, the row keeps. -/
theorem atMostEnds_induct {step : Nat → Groups → List End} {P : End → Prop}
    (hstep : ∀ e, P e → ∀ e' ∈ step e.1 e.2, P e') (lazy : Bool) (n : Nat) :
    ∀ last e, P e → ∀ e' ∈ atMostEnds step lazy n last e.1 e.2, P e' := by
  induction n with
  | zero =>
      intro last e he e' he'
      rw [atMostEnds, List.mem_singleton] at he'
      exact he' ▸ he
  | succ n ih =>
      intro last e he e' he'
      -- the ends after one more match, which are tried before or after stopping here
      have hmore : ∀ e' ∈ (step e.1 e.2).flatMap
          fun m => atMostEnds step lazy n (some e.1) m.1 m.2, P e' := by
        intro e' he'
        obtain ⟨mid, hmid, he'⟩ := List.mem_flatMap.mp he'
        exact ih (some e.1) mid (hstep e he mid hmid) e' he'
      rw [atMostEnds] at he'
      split at he'
      · exact List.mem_singleton.mp he' ▸ he
      · split at he'
        · rcases List.mem_cons.mp he' with rfl | he'
          · exact he
          · exact hmore e' he'
        · rcases List.mem_append.mp he' with he' | he'
          · exact hmore e' he'
          · exact List.mem_singleton.mp he' ▸ he

end Pattern

end CodeSweep
