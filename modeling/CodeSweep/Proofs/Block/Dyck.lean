/-
# Blocks and Dyck words

Read as steps up and down, the delimiters of a balanced stretch form a Dyck word, and conversely
(`isDyck_iff_balanced`).  So what closes a delimiter is told without any counting: it is the closing
delimiter that a Dyck word leads to, and there is at most one (`ClosesAt.unique`).

The search for the brace that ends the block around a place counts otherwise: it begins inside of
the block, and compares the depth with zero before it goes down.  Begun right after an opening brace
it comes to the same place as the search for what closes that brace, and to the end of the text if
there is none (`closeFrom_eq_endFrom`).
-/
import CodeSweep.Proofs.Block
import CodeSweep.Proofs.Block.Balanced
import Mathlib.Combinatorics.Enumerative.DyckWord

namespace CodeSweep.Block

/-! ## Dyck words -/

/-- An opening delimiter as a step up, and a closing one as a step down. -/
def step? (opener closer c : Char) : Option DyckStep :=
  if c = opener then some .U else if c = closer then some .D else none

/-- The delimiters of a text as steps. -/
def steps (opener closer : Char) (cs : List Char) : List DyckStep :=
  cs.filterMap (step? opener closer)

/-- The delimiters of the text form a Dyck word. -/
def IsDyck (opener closer : Char) (cs : List Char) : Prop :=
  ∃ w : DyckWord, w.toList = steps opener closer cs

section

variable {opener closer : Char} {text : List Char} {start stop : Nat}

/-- Only the opening delimiter is a step up. -/
theorem step?_eq_some_U {c : Char} : step? opener closer c = some .U ↔ c = opener := by
  rw [step?]
  by_cases hopen : c = opener
  · simp [hopen]
  · rw [if_neg hopen]
    split <;> simp [hopen]

/-- Only the closing delimiter is a step down. -/
theorem step?_eq_some_D (hne : opener ≠ closer) {c : Char} :
    step? opener closer c = some .D ↔ c = closer := by
  rw [step?]
  by_cases hopen : c = opener
  · simp [hopen, hne]
  · rw [if_neg hopen]
    split <;> simp_all

/-- There are as many steps up as opening delimiters. -/
theorem count_U_steps (opener closer : Char) (cs : List Char) :
    (steps opener closer cs).count .U = cs.count opener := by
  rw [steps, List.count_filterMap, List.count_eq_countP]
  exact List.countP_congr fun c _ => by rw [beq_iff_eq, beq_iff_eq, step?_eq_some_U]

/-- There are as many steps down as closing delimiters. -/
theorem count_D_steps (hne : opener ≠ closer) (cs : List Char) :
    (steps opener closer cs).count .D = cs.count closer := by
  rw [steps, List.count_filterMap, List.count_eq_countP]
  exact List.countP_congr fun c _ => by rw [beq_iff_eq, beq_iff_eq, step?_eq_some_D hne]

/-- **Balanced stretches** are those whose delimiters form a Dyck word. -/
theorem isDyck_iff_balanced (hne : opener ≠ closer) {cs : List Char} :
    IsDyck opener closer cs ↔ Balanced opener closer cs := by
  constructor
  · rintro ⟨w, hw⟩
    refine ⟨?_, fun xs hxs => ?_⟩
    · rw [← count_D_steps hne, ← count_U_steps opener closer, ← hw, w.count_U_eq_count_D]
    · -- the steps of a beginning are a beginning of the steps
      have hsteps : steps opener closer xs = w.toList.take (steps opener closer xs).length :=
        hw ▸ List.prefix_iff_eq_take.mp (hxs.filterMap _)
      rw [← count_D_steps hne, ← count_U_steps opener closer, hsteps]
      exact w.count_D_le_count_U _
  · intro h
    have hprefix : ∀ i, ((steps opener closer cs).take i).count .D
        ≤ ((steps opener closer cs).take i).count .U := by
      intro i
      obtain ⟨xs, hxs, hsteps⟩ := List.prefix_filterMap_iff.mp (List.take_prefix i _)
      rw [steps, hsteps, ← steps, count_D_steps hne, count_U_steps]
      exact h.count_le_of_prefix xs hxs
    have hcount : (steps opener closer cs).count .U = (steps opener closer cs).count .D := by
      rw [count_D_steps hne, count_U_steps, h.count_eq]
    exact ⟨⟨_, hcount, hprefix⟩, rfl⟩

/-! ## What closes a delimiter -/

/-- At `stop` stands a closing delimiter, and the delimiters between `start` and it form a Dyck
word. -/
structure IsClosedAt (opener closer : Char) (text : List Char) (start stop : Nat) : Prop where
  lt : start < stop
  closes : text[stop]? = some closer
  isDyck : IsDyck opener closer (Text.slice text (start + 1, stop))

/-- **The search finds** what closes the delimiter. -/
theorem close?_eq_some_iff_isClosedAt (hne : opener ≠ closer)
    (hstart : text[start]? = some opener) :
    close? text start opener closer = some stop ↔ IsClosedAt opener closer text start stop := by
  rw [close?_eq_some_iff hne hstart, ← isDyck_iff_balanced hne]
  constructor
  · rintro ⟨hlt, hcloses, hdyck⟩
    exact ⟨hlt, hcloses, hdyck⟩
  · intro h
    exact ⟨h.lt, h.closes, h.isDyck⟩

/-- A delimiter is closed at one place only. -/
theorem IsClosedAt.unique (hne : opener ≠ closer) (hstart : text[start]? = some opener)
    {stop' : Nat} (h : IsClosedAt opener closer text start stop)
    (h' : IsClosedAt opener closer text start stop') : stop = stop' := by
  rw [← close?_eq_some_iff_isClosedAt hne hstart] at h h'
  exact Option.some.inj (h.symm.trans h')

/-- After the delimiter itself the search goes on inside of one delimiter. -/
theorem close?_eq_closeFrom (hstart : text[start]? = some opener) :
    close? text start opener closer
      = closeFrom opener closer ((0 : Nat) + 1) (start + 1) (text.drop (start + 1)) := by
  obtain ⟨hlt, hget⟩ := List.getElem?_eq_some_iff.mp hstart
  rw [close?, List.drop_eq_getElem_cons hlt, hget, closeFrom, if_pos rfl]
  rfl

/-! ## Two ways to count -/

/-- **The two searches** come to the same place, the first with one more delimiter to close. -/
theorem closeFrom_eq_endFrom (depth i : Nat) (cs : List Char) :
    closeFrom '{' '}' (depth + 1) i cs
      = if endFrom depth i cs < i + cs.length then some (endFrom depth i cs) else none := by
  have hlength : ∀ (i : Nat) (c : Char) (cs : List Char),
      i + (c :: cs).length = i + 1 + cs.length := by
    intro i c cs
    rw [List.length_cons]
    omega
  induction depth, i, cs using endFrom.induct with
  | case1 depth i => simp [closeFrom, endFrom]
  | case2 depth i cs ih =>
      rw [closeFrom, if_pos rfl, endFrom_open, hlength, ← ih, Nat.cast_succ]
  | case3 i cs hne =>
      rw [closeFrom, if_neg hne, if_pos rfl, if_pos (by simp), endFrom_close_zero,
        if_pos (by rw [List.length_cons]; omega)]
  | case4 i cs depth hne ih =>
      rw [closeFrom, if_neg hne, if_pos rfl, if_neg (by omega), endFrom_close_succ, hlength, ← ih,
        Nat.cast_succ, Int.add_sub_cancel]
  | case5 depth i c cs hopen hclose ih =>
      rw [closeFrom, if_neg hopen, if_neg hclose, endFrom_other i cs depth hopen hclose, hlength,
        ih]

/-- The search for the end of a block ends with the text. -/
theorem endFrom_le (depth i : Nat) (cs : List Char) : endFrom depth i cs ≤ i + cs.length := by
  induction depth, i, cs using endFrom.induct with
  | case1 depth i => exact Nat.le_refl _
  | case2 depth i cs ih =>
      rw [endFrom_open, List.length_cons]
      omega
  | case3 i cs _ =>
      rw [endFrom_close_zero]
      exact Nat.le_add_right i _
  | case4 i cs depth _ ih =>
      rw [endFrom_close_succ, List.length_cons]
      omega
  | case5 depth i c cs hopen hclose ih =>
      rw [endFrom_other i cs depth hopen hclose, List.length_cons]
      omega

/-- **The block right after an opening brace** ends where the brace is closed, or else with the
text. -/
theorem close?_eq_enclosingEnd (hstart : text[start]? = some '{') :
    close? text start '{' '}'
      = if enclosingEnd text (start + 1) < text.length
        then some (enclosingEnd text (start + 1)) else none := by
  have hlt : start < text.length := (List.getElem?_eq_some_iff.mp hstart).1
  have hlength : start + 1 + (text.drop (start + 1)).length = text.length := by
    rw [List.length_drop]
    omega
  rw [close?_eq_closeFrom hstart, closeFrom_eq_endFrom, hlength, enclosingEnd,
    if_pos (Nat.succ_le_of_lt hlt)]

/-- A block does not end after the text. -/
theorem enclosingEnd_le (text : List Char) (start : Nat) :
    enclosingEnd text start ≤ text.length := by
  rw [enclosingEnd]
  split
  · next hle =>
      have hend := endFrom_le 0 start (text.drop start)
      rw [List.length_drop] at hend
      omega
  · exact Nat.le_refl _

/-- **What closes a delimiter** is the closing delimiter that a Dyck word of delimiters leads to.
The search finds it if there is one, and there is at most one.  For an opening brace it is the place
where the block right after it ends, unless that is the end of the text. -/
theorem close?_finds_isClosedAt (hne : opener ≠ closer) (hstart : text[start]? = some opener) :
    (∀ stop, close? text start opener closer = some stop ↔
      IsClosedAt opener closer text start stop) ∧
    (close? text start opener closer = none ↔
      ¬ ∃ stop, IsClosedAt opener closer text start stop) ∧
    (∀ stop stop', IsClosedAt opener closer text start stop →
      IsClosedAt opener closer text start stop' → stop = stop') ∧
    (opener = '{' → closer = '}' →
      (∀ stop, close? text start opener closer = some stop ↔
        enclosingEnd text (start + 1) = stop ∧ stop < text.length) ∧
      (close? text start opener closer = none ↔
        enclosingEnd text (start + 1) = text.length)) := by
  have hfinds : ∀ stop, close? text start opener closer = some stop ↔
      IsClosedAt opener closer text start stop :=
    fun stop => close?_eq_some_iff_isClosedAt hne hstart
  refine ⟨hfinds, ?_, fun stop stop' => IsClosedAt.unique hne hstart, ?_⟩
  · simp only [← hfinds, not_exists, Option.eq_none_iff_forall_ne_some, ne_eq]
  · rintro rfl rfl
    have hle := enclosingEnd_le text (start + 1)
    rw [close?_eq_enclosingEnd hstart]
    constructor
    · intro stop
      split
      · next hlt =>
          rw [Option.some.injEq]
          exact ⟨fun h => ⟨h, h ▸ hlt⟩, fun h => h.1⟩
      · next hlt =>
          simp only [reduceCtorEq, false_iff]
          rintro ⟨rfl, h⟩
          exact hlt h
    · split
      · next hlt =>
          simp only [reduceCtorEq, false_iff]
          exact Nat.ne_of_lt hlt
      · next hlt => exact iff_of_true rfl (Nat.le_antisymm hle (Nat.le_of_not_lt hlt))

end

/-- In the block of the first brace stand other ones, and a bracket that nothing closes. -/
def nestedBlocks : List Char := "f( \x7bif \x7b\x7d;\x7d \x7d".toList

/-- The first brace is closed before the last one, and the bracket is not closed. -/
theorem close?_finds_isClosedAt_nested :
    '{' ≠ '}' ∧ nestedBlocks[3]? = some '{' ∧ IsClosedAt '{' '}' nestedBlocks 3 10 ∧
    enclosingEnd nestedBlocks 4 = 10 ∧
    '(' ≠ ')' ∧ nestedBlocks[1]? = some '(' ∧
    ¬ ∃ stop, IsClosedAt '(' ')' nestedBlocks 1 stop := by
  have hbraces : '{' ≠ '}' := by decide
  have hbrace : nestedBlocks[3]? = some '{' := by decide
  have hbrackets : '(' ≠ ')' := by decide
  have hbracket : nestedBlocks[1]? = some '(' := by decide
  obtain ⟨hfinds, -, -, hblock⟩ := close?_finds_isClosedAt hbraces hbrace
  obtain ⟨-, hnone, -, -⟩ := close?_finds_isClosedAt hbrackets hbracket
  have hclose : close? nestedBlocks 3 '{' '}' = some 10 := by decide
  exact ⟨hbraces, hbrace, (hfinds 10).mp hclose, (((hblock rfl rfl).1 10).mp hclose).1,
    hbrackets, hbracket, hnone.mp (by decide)⟩

end CodeSweep.Block
