/-
# Delimiters in a match

How many delimiters are open after a match is often told by the pattern alone: every part of it
holds one delimiter, or none, or leads back to the depth where it began.  The depth that is read off
the pattern (`Pattern.depthAfter?`) is the depth after each of its matches
(`depthAfter?_slice`).
-/
import CodeSweep.Proofs.Block.Balanced
import CodeSweep.Proofs.Pattern.Alike
import CodeSweep.Proofs.Pattern.Parts

namespace CodeSweep

/-- A text without delimiters keeps the depth. -/
theorem Block.depthAfter?_of_not_mem {opener closer : Char} {cs : List Char}
    (hopen : opener ∉ cs) (hclose : closer ∉ cs) (depth : Nat) :
    depthAfter? opener closer depth cs = some depth := by
  induction cs with
  | nil => rfl
  | cons c cs ih =>
      rw [List.mem_cons, not_or] at hopen hclose
      rw [depthAfter?_other (Ne.symm hopen.1) (Ne.symm hclose.1), ih hopen.2 hclose.2]

namespace Pattern

/-! ## The depth that a pattern leads to -/

/-- The depth after every match of the pattern that begins at the given depth, if the pattern tells
it. -/
def depthAfter? (opener closer : Char) : Pattern → (depth : Nat) → Option Nat
  | one s, depth =>
    if s = .single opener then Block.depthAfter? opener closer depth [opener]
    else if s = .single closer then Block.depthAfter? opener closer depth [closer]
    else if s.holds opener || s.holds closer then none else some depth
  | run s _ _ _, depth => if s.holds opener || s.holds closer then none else some depth
  | seq p q, depth => (p.depthAfter? opener closer depth).bind (q.depthAfter? opener closer)
  | alt p q, depth =>
    if p.depthAfter? opener closer depth = q.depthAfter? opener closer depth then
      p.depthAfter? opener closer depth
    else none
  | iter p _ _ _, depth =>
    if p.depthAfter? opener closer depth = some depth then some depth else none
  | group _ p, depth => p.depthAfter? opener closer depth
  | _, depth => some depth

variable {opener closer : Char} {cs : List Char}

/-- A match of one given character. -/
theorem slice_of_mem_ends_single {c : Char} {i : Nat} {g : Groups} {e : End}
    (he : e ∈ ends cs.toArray (one (.single c)) i g) : Text.slice cs (i, e.1) = [c] := by
  obtain ⟨hc, rfl⟩ := mem_ends_single.mp he
  exact Text.slice_succ (List.getElem?_toArray ▸ hc)

/-- A match of a pattern that avoids both delimiters keeps the depth. -/
theorem depthAfter?_slice_of_avoids {p : Pattern} (hopen : avoids opener p = true)
    (hclose : avoids closer p = true) {i : Nat} {g : Groups} (depth : Nat) :
    ∀ e ∈ ends cs.toArray p i g,
      Block.depthAfter? opener closer depth (Text.slice cs (i, e.1)) = some depth := by
  intro e he
  refine Block.depthAfter?_of_not_mem ?_ ?_ depth
  · intro hmem
    obtain ⟨k, hik, hk, hc⟩ := Text.mem_slice.mp hmem
    exact ne_of_avoids hopen e he k hik hk (List.getElem?_toArray ▸ hc)
  · intro hmem
    obtain ⟨k, hik, hk, hc⟩ := Text.mem_slice.mp hmem
    exact ne_of_avoids hclose e he k hik hk (List.getElem?_toArray ▸ hc)

/-- **The depth after a match** is the one that its pattern leads to. -/
theorem depthAfter?_slice (hne : opener ≠ closer) {p : Pattern} {i depth depth' : Nat}
    {g : Groups} (hp : p.depthAfter? opener closer depth = some depth') :
    ∀ e ∈ ends cs.toArray p i g,
      Block.depthAfter? opener closer depth (Text.slice cs (i, e.1)) = some depth' := by
  induction p generalizing i g depth depth' with
  | one s =>
      intro e he
      rw [depthAfter?] at hp
      by_cases hopen : s = .single opener
      · rw [if_pos hopen] at hp
        rw [slice_of_mem_ends_single (hopen ▸ he), hp]
      · rw [if_neg hopen] at hp
        by_cases hclose : s = .single closer
        · rw [if_pos hclose] at hp
          rw [slice_of_mem_ends_single (hclose ▸ he), hp]
        · rw [if_neg hclose, Option.ite_none_left_eq_some, Bool.or_eq_true, not_or] at hp
          obtain ⟨hs, hsame⟩ := hp
          obtain rfl := Option.some.inj hsame
          exact depthAfter?_slice_of_avoids (by simpa [avoids] using hs.1)
            (by simpa [avoids] using hs.2) depth e he
  | run s least most lazy =>
      rw [depthAfter?, Option.ite_none_left_eq_some, Bool.or_eq_true, not_or] at hp
      obtain ⟨hs, hsame⟩ := hp
      obtain rfl := Option.some.inj hsame
      exact depthAfter?_slice_of_avoids (by simpa [avoids] using hs.1)
        (by simpa [avoids] using hs.2) depth
  | seq p q ihp ihq =>
      intro e he
      obtain ⟨mid, hmid, he⟩ := List.mem_flatMap.mp he
      obtain ⟨between, hfirst, hsecond⟩ := Option.bind_eq_some_iff.mp hp
      rw [← Text.slice_append_slice (le_of_mem_ends hmid) (le_of_mem_ends he),
        Block.depthAfter?_append hne, ihp hfirst mid hmid, Option.bind_some, ihq hsecond e he]
  | alt p q ihp ihq =>
      intro e he
      rw [depthAfter?, Option.ite_none_right_eq_some] at hp
      rcases List.mem_append.mp he with he | he
      · exact ihp hp.2 e he
      · exact ihq (hp.1 ▸ hp.2) e he
  | iter p least most lazy ih =>
      rw [depthAfter?, Option.ite_none_right_eq_some] at hp
      obtain ⟨hloop, hsame⟩ := hp
      obtain rfl : depth = depth' := Option.some.inj hsame
      -- every match of the row leads back to the depth where the row began
      have hstep : ∀ e : End, (i ≤ e.1 ∧
            Block.depthAfter? opener closer depth (Text.slice cs (i, e.1)) = some depth) →
          ∀ e' ∈ ends cs.toArray p e.1 e.2, i ≤ e'.1 ∧
            Block.depthAfter? opener closer depth (Text.slice cs (i, e'.1)) = some depth := by
        rintro e ⟨hle, hdepth⟩ e' he'
        have hle' := le_of_mem_ends he'
        refine ⟨Nat.le_trans hle hle', ?_⟩
        rw [← Text.slice_append_slice hle hle', Block.depthAfter?_append hne, hdepth,
          Option.bind_some, ih hloop e' he']
      intro e he
      obtain ⟨mid, hmid, he⟩ := List.mem_flatMap.mp he
      have hstart : Block.depthAfter? opener closer depth (Text.slice cs (i, i)) = some depth := by
        rw [Text.slice_self]
        rfl
      have hmid' := exactlyEnds_induct hstep least (i, g) ⟨Nat.le_refl i, hstart⟩ mid hmid
      exact (atMostEnds_induct hstep lazy _ none mid hmid' e he).2
  | group name p ih =>
      intro e he
      obtain ⟨f, hf, rfl⟩ := List.mem_map.mp he
      exact ih hp f hf
  | _ =>
      obtain rfl := Option.some.inj hp
      exact depthAfter?_slice_of_avoids rfl rfl depth

end Pattern

end CodeSweep
