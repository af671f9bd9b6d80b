/-
# Reading a known text

Where the text ahead is known, the parts of a pattern are gone through one by one.  Single characters
leave one way to go on or none (`endsInTurn_ones`, `endsInTurn_ones_of_not`).  A run first goes on
after all the characters of its set that follow each other (`endsInTurn_run`), and only there if what
comes next does not begin with such a character (`endsInTurn_many`).
-/
import CodeSweep.Proofs.Pattern.Parts

namespace CodeSweep

namespace Pattern

variable {text : List Char} {i : Nat} {g : Groups} {ps : List Pattern}

/-! ## Single characters -/

/-- A character of the text ahead passes a test if it does so at its place. -/
theorem holdsAt_of_drop {test : Char → Bool} {cs rest : List Char}
    (h : text.drop i = cs ++ rest) {k : Nat} {c : Char} (hc : cs[k]? = some c) :
    holdsAt test text.toArray (i + k) = test c := by
  have hlt : k < cs.length := (List.getElem?_eq_some_iff.mp hc).1
  rw [holdsAt, List.getElem?_toArray, ← List.getElem?_drop, h, List.getElem?_append_left hlt, hc]

/-- What comes after the text ahead. -/
theorem drop_of_drop {cs rest : List Char} (h : text.drop i = cs ++ rest) :
    text.drop (i + cs.length) = rest := by
  rw [← List.drop_drop, h, List.drop_left]

/-- A character that is expected is gone past. -/
theorem endsInTurn_one {s : CharSet} {c : Char} {rest : List Char}
    (h : text.drop i = c :: rest) (hc : s.holds c = true) :
    endsInTurn text.toArray (one s :: ps) i g = endsInTurn text.toArray ps (i + 1) g := by
  have hone : text.drop i = [c] ++ rest := h
  have hhere : holdsAt s.holds text.toArray i = true :=
    (holdsAt_of_drop hone (k := 0) rfl).trans hc
  rw [endsInTurn, ends, if_pos hhere, List.flatMap_singleton]

/-- Where the character is not the expected one there is no way to go on. -/
theorem endsInTurn_one_of_not {text : Array Char} {s : CharSet}
    (h : holdsAt s.holds text i = false) : endsInTurn text (one s :: ps) i g = [] := by
  rw [endsInTurn, ends, if_neg (by simp [h])]
  rfl

/-- Characters that are expected are gone past. -/
theorem endsInTurn_ones {sets : List CharSet} {cs rest : List Char} (h : text.drop i = cs ++ rest)
    (hcs : List.Forall₂ (fun s c => s.holds c = true) sets cs) :
    endsInTurn text.toArray (sets.map one ++ ps) i g
      = endsInTurn text.toArray ps (i + cs.length) g := by
  induction hcs generalizing i with
  | nil => rfl
  | @cons s c sets cs hc _ ih =>
      have hone : text.drop i = [c] ++ (cs ++ rest) := h
      have hnext : text.drop (i + 1) = cs ++ rest := drop_of_drop hone
      rw [List.map_cons, List.cons_append, endsInTurn_one h hc, ih hnext, List.length_cons,
        Nat.add_assoc, Nat.add_comm 1]

/-- Where one of the characters is not the expected one there is no way to go on. -/
theorem endsInTurn_ones_of_not {sets : List CharSet} {k : Nat} {s : CharSet}
    (hs : sets[k]? = some s) (h : holdsAt s.holds text.toArray (i + k) = false) :
    endsInTurn text.toArray (sets.map one ++ ps) i g = [] := by
  induction sets generalizing i k with
  | nil => cases hs
  | cons s' sets ih =>
      rw [List.map_cons, List.cons_append]
      cases k with
      | zero =>
          obtain rfl : s' = s := Option.some.inj hs
          exact endsInTurn_one_of_not h
      | succ k =>
          rw [Nat.add_comm k, ← Nat.add_assoc] at h
          rw [endsInTurn, ends]
          split
          · rw [List.flatMap_singleton]
            exact ih hs h
          · rfl

/-- A group at the end keeps what its pattern matches. -/
theorem endsInTurn_group {text : Array Char} {name : String} {p : Pattern} :
    endsInTurn text [group name p] i g
      = (endsInTurn text [p] i g).map fun e => (e.1, (name, i, e.1) :: e.2) := by
  simp [endsInTurn, ends]

/-! ## Runs -/

section

variable {s : CharSet} {cs rest : List Char} (h : text.drop i = cs ++ rest)
  (hcs : ∀ c ∈ cs, s.holds c = true) (hrest : ∀ c ∈ rest.head?, s.holds c = false)

include h hcs hrest

/-- A run goes on for as long as there are characters of its set. -/
theorem runLength_of_drop {limit : Nat} (hlimit : cs.length ≤ limit) :
    runLength s text.toArray limit i = cs.length := by
  refine Nat.le_antisymm ?_ (le_runLength_iff.mpr ⟨hlimit, fun k hk => ?_⟩)
  · refine Nat.le_of_not_lt fun hlt => ?_
    have hnext := (le_runLength_iff.mp hlt).2 cs.length (Nat.lt_succ_self _)
    obtain ⟨c, hc, hholds⟩ := holdsAt_eq_true_iff.mp hnext
    rw [List.getElem?_toArray, ← List.getElem?_drop, h,
      List.getElem?_append_right (Nat.le_refl _), Nat.sub_self, ← List.head?_eq_getElem?] at hc
    exact absurd hholds (by simp [hrest c hc])
  · rw [holdsAt_of_drop h (List.getElem?_eq_getElem hk)]
    exact hcs _ (List.getElem_mem hk)

/-- **A run** first goes on after all the characters of its set. -/
theorem endsInTurn_run {least : Nat} (hleast : least ≤ cs.length) :
    endsInTurn text.toArray (run s least none false :: ps) i g
      = endsInTurn text.toArray ps (i + cs.length) g ++
        (List.range' (i + least) (cs.length - least)).reverse.flatMap
          fun j => endsInTurn text.toArray ps j g := by
  have hlimit : cs.length ≤ text.toArray.size - i := by
    have := congrArg List.length h
    rw [List.length_drop, List.length_append] at this
    rw [List.size_toArray]
    omega
  have hplaces : runEnds s least none false text.toArray i
      = (i + cs.length) :: (List.range' (i + least) (cs.length - least)).reverse := by
    rw [runEnds, Option.getD_none, runLength_of_drop h hcs hrest hlimit, if_neg (by simp),
      show cs.length + 1 - least = (cs.length - least) + 1 by omega, List.range'_concat,
      List.reverse_append, show i + least + 1 * (cs.length - least) = i + cs.length by omega]
    rfl
  rw [endsInTurn, ends, hplaces, List.flatMap_map, List.flatMap_cons]

/-- A run goes on only after all the characters of its set if what comes next does not begin with
one of them. -/
theorem endsInTurn_many
    (hps : ∀ j, holdsAt s.holds text.toArray j = true → endsInTurn text.toArray ps j g = []) :
    endsInTurn text.toArray (many s :: ps) i g
      = endsInTurn text.toArray ps (i + cs.length) g := by
  have hshort : ∀ j ∈ (List.range' (i + 0) (cs.length - 0)).reverse,
      endsInTurn text.toArray ps j g = [] := by
    intro j hj
    have hj := List.mem_range'_1.mp (List.mem_reverse.mp hj)
    obtain ⟨k, rfl⟩ := Nat.exists_eq_add_of_le (show i ≤ j by omega)
    have hk : k < cs.length := by omega
    refine hps _ ?_
    rw [holdsAt_of_drop h (List.getElem?_eq_getElem hk)]
    exact hcs _ (List.getElem_mem hk)
  rw [many, endsInTurn_run h hcs hrest (Nat.zero_le _), List.flatMap_eq_nil_iff.mpr hshort,
    List.append_nil]

end

/-! ## Searching -/

/-- **A search finds the first place** at which the pattern matches. -/
theorem search?_of_first {p : Pattern} {text : Array Char} {i : Nat} {m : Match}
    (hi : i ≤ text.size) (hbefore : ∀ j < i, ends text p j [] = [])
    (hm : p.matchAt? text i = some m) : p.search? text 0 = some m := by
  have hfrom : ∀ n j, j ≤ i → i < j + n → p.searchFrom? text n j = some m := by
    intro n
    induction n with
    | zero => exact fun j hj hlt => by omega
    | succ n ih =>
        intro j hj hlt
        rw [searchFrom?]
        rcases Nat.lt_or_eq_of_le hj with hless | rfl
        · rw [matchAt?_eq_none_iff.mpr (hbefore j hless), ih (j + 1) hless (by omega)]
          rfl
        · rw [hm]
          rfl
  exact hfrom _ 0 (Nat.zero_le i) (by omega)

end Pattern

end CodeSweep
