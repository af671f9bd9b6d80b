/-
# Results and complaints

Computations that give a result or the first complaint.  Going through a list gives a result exactly
if there is one for each member, and the complaint is that of the first member without one.
-/
import Mathlib.Data.List.Basic

namespace CodeSweep

variable {α β ε : Type}

/-! ## One computation -/

/-- A computation with a result gives it. -/
theorem exists_of_isOk {x : Except ε α} (h : x.isOk = true) : ∃ a, x = .ok a := by
  cases x with
  | ok a => exact ⟨a, rfl⟩
  | error e => cases h

/-- A computation that goes on with a result succeeds if both parts do. -/
theorem bind_eq_ok_iff {x : Except ε α} {f : α → Except ε β} {b : β} :
    (x >>= f) = .ok b ↔ ∃ a, x = .ok a ∧ f a = .ok b := by
  cases x with
  | error e =>
      constructor
      · intro h
        cases h
      · rintro ⟨a, h, -⟩
        cases h
  | ok a =>
      constructor
      · intro h
        exact ⟨a, rfl, h⟩
      · rintro ⟨a', ha, h⟩
        obtain rfl := Except.ok.inj ha
        exact h

/-- A result is a function of another one if that is a result. -/
theorem map_eq_ok_iff {x : Except ε α} {f : α → β} {b : β} :
    x.map f = .ok b ↔ ∃ a, x = .ok a ∧ f a = b := by
  cases x with
  | error e => exact iff_of_false (fun h => nomatch h) (fun ⟨a, h, _⟩ => nomatch h)
  | ok a => simp [Except.map]

/-- A function makes no other failures. -/
theorem map_eq_error_iff {x : Except ε α} {f : α → β} {e : ε} :
    x.map f = .error e ↔ x = .error e := by
  cases x with
  | error e => simp [Except.map]
  | ok a => simp [Except.map]

/-- A result that is worked on is there if the result is. -/
theorem exists_map_eq_ok_iff {x : Except ε α} {f : α → β} :
    (∃ b, x.map f = .ok b) ↔ ∃ a, x = .ok a := by
  cases x with
  | error e => exact iff_of_false (fun ⟨b, h⟩ => nomatch h) (fun ⟨a, h⟩ => nomatch h)
  | ok a => exact iff_of_true ⟨f a, rfl⟩ ⟨a, rfl⟩

/-! ## Lists -/

section

variable {f : α → Except ε β}

/-- A map whose function always answers is a plain map. -/
theorem mapM_eq_ok (l : List α) (f : α → Except ε β) (q : α → β)
    (h : ∀ a ∈ l, f a = .ok (q a)) : l.mapM f = .ok (l.map q) := by
  induction l with
  | nil => rfl
  | cons a l ih =>
      rw [List.mapM_cons, h a List.mem_cons_self, ih fun b hb => h b (List.mem_cons_of_mem a hb)]
      rfl

/-- Going through a list succeeds if the function does at every member. -/
theorem exists_mapM_eq_ok_iff {l : List α} :
    (∃ bs, l.mapM f = .ok bs) ↔ ∀ a ∈ l, ∃ b, f a = .ok b := by
  induction l with
  | nil => exact iff_of_true ⟨[], rfl⟩ (by simp)
  | cons a l ih =>
      rw [List.mapM_cons, List.forall_mem_cons, ← ih]
      cases f a with
      | error e => exact iff_of_false (fun ⟨bs, h⟩ => nomatch h) (fun ⟨⟨b, h⟩, _⟩ => nomatch h)
      | ok b =>
          cases l.mapM f with
          | error e => exact iff_of_false (fun ⟨bs, h⟩ => nomatch h) (fun ⟨_, bs, h⟩ => nomatch h)
          | ok bs => exact iff_of_true ⟨b :: bs, rfl⟩ ⟨⟨b, rfl⟩, bs, rfl⟩

/-- Each result of going through a list is that of a member. -/
theorem exists_of_mem_mapM {l : List α} {bs : List β} (h : l.mapM f = .ok bs) {b : β}
    (hb : b ∈ bs) : ∃ a ∈ l, f a = .ok b := by
  induction l generalizing bs with
  | nil =>
      obtain rfl := Except.ok.inj h
      cases hb
  | cons a l ih =>
      rw [List.mapM_cons, bind_eq_ok_iff] at h
      obtain ⟨first, hfirst, h⟩ := h
      rw [bind_eq_ok_iff] at h
      obtain ⟨rest, hrest, h⟩ := h
      obtain rfl := Except.ok.inj h
      rcases List.mem_cons.mp hb with rfl | hb
      · exact ⟨a, List.mem_cons_self, hfirst⟩
      · obtain ⟨c, hc, hcb⟩ := ih hrest hb
        exact ⟨c, List.mem_cons_of_mem a hc, hcb⟩

/-- Going through a list fails with the first member that the function fails at. -/
theorem mapM_eq_error_iff {l : List α} {e : ε} :
    l.mapM f = .error e ↔
      ∃ before a after, l = before ++ a :: after ∧ (∀ b ∈ before, ∃ c, f b = .ok c) ∧
        f a = .error e := by
  induction l with
  | nil => exact iff_of_false (fun h => nomatch h) (by simp)
  | cons a l ih =>
      have hcons : (a :: l).mapM f = .error e ↔
          f a = .error e ∨ ((∃ b, f a = .ok b) ∧ l.mapM f = .error e) := by
        rw [List.mapM_cons]
        cases f a with
        | error e' => simp [bind, Except.bind]
        | ok b => cases l.mapM f <;> simp [bind, Except.bind, pure, Except.pure]
      rw [hcons, ih]
      constructor
      · rintro (ha | ⟨ha, before, b, after, rfl, hbefore, hb⟩)
        · exact ⟨[], a, l, rfl, by simp, ha⟩
        · exact ⟨a :: before, b, after, rfl, List.forall_mem_cons.mpr ⟨ha, hbefore⟩, hb⟩
      · rintro ⟨before, b, after, hl, hbefore, hb⟩
        cases before with
        | nil => exact .inl ((List.cons.inj hl).1 ▸ hb)
        | cons c before =>
            obtain ⟨rfl, rfl⟩ := List.cons.inj hl
            rw [List.forall_mem_cons] at hbefore
            exact .inr ⟨hbefore.1, before, b, after, rfl, hbefore.2, hb⟩

end

/-! ## Filters -/

section

variable {f : α → Except ε Bool}

/-- What was kept before stays at the end. -/
theorem filterAuxM_eq (l acc : List α) :
    List.filterAuxM f l acc = (List.filterAuxM f l []).map (· ++ acc) := by
  induction l generalizing acc with
  | nil => rfl
  | cons a l ih =>
      rw [List.filterAuxM, List.filterAuxM]
      cases f a with
      | error e => rfl
      | ok keep =>
          show List.filterAuxM f l (cond keep (a :: acc) acc)
            = (List.filterAuxM f l (cond keep [a] [])).map (· ++ acc)
          rw [ih, ih (cond keep [a] [])]
          cases List.filterAuxM f l [] with
          | error e => rfl
          | ok kept => cases keep <;> simp [Except.map]

/-- A filter tests the first member and goes on with the others. -/
theorem filterM_cons (a : α) (l : List α) :
    (a :: l).filterM f
      = (f a).bind fun keep => (l.filterM f).map fun kept => if keep then a :: kept else kept := by
  rw [List.filterM, List.filterM, List.filterAuxM]
  cases f a with
  | error e => rfl
  | ok keep =>
      show (List.filterAuxM f l (cond keep [a] [])).bind _ = _
      rw [filterAuxM_eq]
      show _ = Except.map _ ((List.filterAuxM f l []).bind _)
      cases List.filterAuxM f l [] with
      | error e => rfl
      | ok kept =>
          show Except.ok (kept ++ cond keep [a] []).reverse = _
          cases keep <;> simp [Except.bind, Except.map, pure, Except.pure]

/-- A filter whose test always answers is a plain filter. -/
theorem filterM_eq_ok (l : List α) (f : α → Except ε Bool) (q : α → Bool)
    (h : ∀ a ∈ l, f a = .ok (q a)) : l.filterM f = .ok (l.filter q) := by
  induction l with
  | nil => rfl
  | cons a l ih =>
      rw [filterM_cons, h a List.mem_cons_self, ih fun b hb => h b (List.mem_cons_of_mem a hb),
        List.filter_cons]
      rfl

/-- A filter succeeds if its test does at every member. -/
theorem exists_filterM_eq_ok_iff {l : List α} :
    (∃ kept, l.filterM f = .ok kept) ↔ ∀ a ∈ l, ∃ b, f a = .ok b := by
  induction l with
  | nil => exact iff_of_true ⟨[], rfl⟩ (by simp)
  | cons a l ih =>
      rw [filterM_cons, List.forall_mem_cons]
      cases f a with
      | error e => exact iff_of_false (fun ⟨kept, h⟩ => nomatch h) (fun ⟨⟨b, h⟩, _⟩ => nomatch h)
      | ok b =>
          rw [and_iff_right ⟨b, rfl⟩, ← ih]
          exact exists_map_eq_ok_iff

/-- A filter keeps nothing but members of the list. -/
theorem mem_of_mem_filterM {l l' : List α} (h : l.filterM f = .ok l') {a : α} (ha : a ∈ l') :
    a ∈ l := by
  induction l generalizing l' with
  | nil =>
      obtain rfl := Except.ok.inj h
      exact ha
  | cons b l ih =>
      rw [filterM_cons] at h
      cases hb : f b with
      | error e =>
          rw [hb] at h
          cases h
      | ok keep =>
          cases hkept : l.filterM f with
          | error e =>
              rw [hb, hkept] at h
              cases h
          | ok kept =>
              rw [hb, hkept] at h
              obtain rfl := Except.ok.inj h
              cases keep with
              | true =>
                  rcases List.mem_cons.mp ha with rfl | ha
                  · exact List.mem_cons_self
                  · exact List.mem_cons_of_mem b (ih hkept ha)
              | false => exact List.mem_cons_of_mem b (ih hkept ha)

end

end CodeSweep
