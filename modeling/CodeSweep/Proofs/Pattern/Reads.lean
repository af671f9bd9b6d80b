/-
# What a match says of the text

A match of a pattern says something about its stretch, and perhaps about what comes after it: that is
what the pattern reads (`Reads`).  Each end of a match is one of a stretch that the pattern reads
(`reads_of_mem_ends`).  What the pattern asks of the text before the stretch is left out, and so is
what it asks not to come after it.
-/
import CodeSweep.Proofs.Pattern.Alike
import CodeSweep.Proofs.Pattern.Parts
import CodeSweep.Proofs.Text.Slice

namespace CodeSweep

namespace Pattern

open Text

/-! ## What patterns read -/

/-- A number of stretches one after the other, each of them read with the others after it. -/
def ReadsRow (reads : List Char → List Char → Prop) : Nat → (cs rest : List Char) → Prop
  | 0, cs, _ => cs = []
  | n + 1, cs, rest =>
    ∃ as bs, cs = as ++ bs ∧ reads as (bs ++ rest) ∧ ReadsRow reads n bs rest

/-- The pattern reads the stretch `cs`, with `rest` after it. -/
def Reads : Pattern → (cs rest : List Char) → Prop
  | empty, cs, _ => cs = []
  | one s, cs, _ => ∃ c, cs = [c] ∧ s.holds c = true
  | run s least most _, cs, _ =>
    least ≤ cs.length ∧ (∀ m ∈ most, cs.length ≤ m) ∧ ∀ c ∈ cs, s.holds c = true
  | seq p q, cs, rest => ∃ as bs, cs = as ++ bs ∧ p.Reads as (bs ++ rest) ∧ q.Reads bs rest
  | alt p q, cs, rest => p.Reads cs rest ∨ q.Reads cs rest
  | iter p least most _, cs, rest =>
    ∃ n, least ≤ n ∧ (∀ m ∈ most, n ≤ max least m) ∧ ReadsRow p.Reads n cs rest
  | group _ p, cs, rest => p.Reads cs rest
  | edge .lineEnd, cs, rest => cs = [] ∧ ∀ c ∈ rest.head?, c = '\n'
  | edge .textEnd, cs, rest => cs = [] ∧ rest = []
  | edge _, cs, _ => cs = []
  | ahead p true, cs, rest => cs = [] ∧ ∃ as bs, rest = as ++ bs ∧ p.Reads as bs
  | ahead _ false, cs, _ => cs = []
  | behind _ _ _, cs, _ => cs = []

/-- Two rows one after the other. -/
theorem ReadsRow.append {reads : List Char → List Char → Prop} {m n : Nat} {as bs rest : List Char}
    (has : ReadsRow reads m as (bs ++ rest)) (hbs : ReadsRow reads n bs rest) :
    ReadsRow reads (m + n) (as ++ bs) rest := by
  induction m generalizing as with
  | zero =>
      obtain rfl : as = [] := has
      rwa [Nat.zero_add, List.nil_append]
  | succ m ih =>
      obtain ⟨first, others, rfl, hfirst, hothers⟩ := has
      rw [Nat.add_right_comm]
      refine ⟨first, others ++ bs, List.append_assoc .., ?_, ih hothers⟩
      rwa [List.append_assoc]

/-- Something once or not at all. -/
theorem reads_optional {p : Pattern} {cs rest : List Char} (h : (optional p).Reads cs rest) :
    cs = [] ∨ p.Reads cs rest := by
  obtain ⟨n, -, hn, hrow⟩ := h
  have hle : n ≤ 1 := hn 1 rfl
  match n, hle, hrow with
  | 0, _, hrow => exact .inl hrow
  | 1, _, ⟨as, bs, hcs, has, hbs⟩ =>
      obtain rfl : bs = [] := hbs
      rw [hcs, List.append_nil]
      exact .inr (by simpa using has)

/-- What is read by something that may be missing. -/
theorem reads_optional_iff {p : Pattern} {cs rest : List Char} :
    (optional p).Reads cs rest ↔ cs = [] ∨ p.Reads cs rest := by
  refine ⟨reads_optional, ?_⟩
  rintro (rfl | h)
  · exact ⟨0, Nat.le_refl 0, fun _ _ => Nat.zero_le _, rfl⟩
  · exact ⟨1, Nat.zero_le 1, fun m hm => by simpa using Option.mem_some.mp hm ▸ Nat.le_refl 1,
      cs, [], (List.append_nil cs).symm, h, rfl⟩

/-- A text is read as it is. -/
theorem reads_ofChars {text cs rest : List Char} (h : (ofChars text).Reads cs rest) :
    cs = text := by
  -- one character
  have hone : ∀ {c : Char} {cs rest : List Char}, (one (.single c)).Reads cs rest → cs = [c] := by
    rintro c cs rest ⟨d, rfl, hd⟩
    rw [CharSet.holds_single.mp hd]
  induction text using ofChars.induct generalizing cs rest with
  | case1 => exact h
  | case2 c => exact hone h
  | case3 c text htext ih =>
      rw [ofChars] at h
      · obtain ⟨as, bs, rfl, has, hbs⟩ := h
        rw [hone has, ih hbs, List.singleton_append]
      · exact htext

/-! ## Ends of matches -/

section

variable {text : List Char} {i j k : Nat}

/-- A stretch that is read, with the stretch after it. -/
theorem reads_slice {reads : List Char → List Char → Prop} (hjk : j ≤ k)
    (h : reads (slice text (i, j)) (text.drop j)) :
    reads (slice text (i, j)) (slice text (j, k) ++ text.drop k) := by
  rwa [slice_append_drop hjk]

section

variable {p : Pattern}
  (hp : ∀ i g, ∀ e ∈ ends text.toArray p i g, p.Reads (slice text (i, e.1)) (text.drop e.1))

include hp

/-- A row of matches is read in a row. -/
theorem readsRow_of_mem_exactlyEnds (n i : Nat) (g : Groups) :
    ∀ e ∈ exactlyEnds (ends text.toArray p) n i g,
      ReadsRow p.Reads n (slice text (i, e.1)) (text.drop e.1) := by
  induction n generalizing i g with
  | zero =>
      intro e he
      obtain rfl := List.mem_singleton.mp he
      exact slice_self text i
  | succ n ih =>
      intro e he
      obtain ⟨mid, hmid, he⟩ := List.mem_flatMap.mp he
      have hle := le_of_mem_ends hmid
      have hle' := le_of_mem_exactlyEnds (fun _ _ _ => le_of_mem_ends) n mid.1 mid.2 e he
      exact ⟨_, _, (slice_append_slice hle hle').symm, reads_slice hle' (hp i g mid hmid),
        ih mid.1 mid.2 e he⟩

/-- So is a bounded row. -/
theorem readsRow_of_mem_atMostEnds (lazy : Bool) (n : Nat) (last : Option Nat) (i : Nat)
    (g : Groups) : ∀ e ∈ atMostEnds (ends text.toArray p) lazy n last i g,
      ∃ m ≤ n, ReadsRow p.Reads m (slice text (i, e.1)) (text.drop e.1) := by
  -- no match at all
  have hnone : ∀ n i, ∃ m ≤ n, ReadsRow p.Reads m (slice text (i, i)) (text.drop i) :=
    fun n i => ⟨0, Nat.zero_le n, slice_self text i⟩
  induction n generalizing last i g with
  | zero =>
      intro e he
      obtain rfl := List.mem_singleton.mp he
      exact hnone 0 i
  | succ n ih =>
      intro e he
      have hmore : e ∈ (ends text.toArray p i g).flatMap
          (fun m => atMostEnds (ends text.toArray p) lazy n (some i) m.1 m.2) →
          ∃ m ≤ n + 1, ReadsRow p.Reads m (slice text (i, e.1)) (text.drop e.1) := by
        intro he
        obtain ⟨mid, hmid, he⟩ := List.mem_flatMap.mp he
        obtain ⟨m, hm, hrow⟩ := ih (some i) mid.1 mid.2 e he
        have hle := le_of_mem_ends hmid
        have hle' := le_of_mem_atMostEnds (fun _ _ _ => le_of_mem_ends) lazy n (some i) mid.1 mid.2
          e he
        exact ⟨m + 1, Nat.succ_le_succ hm, _, _, (slice_append_slice hle hle').symm,
          reads_slice hle' (hp i g mid hmid), hrow⟩
      rw [atMostEnds] at he
      split at he
      · rw [List.mem_singleton.mp he]
        exact hnone _ i
      · split at he
        · rcases List.mem_cons.mp he with rfl | he
          · exact hnone _ i
          · exact hmore he
        · rcases List.mem_append.mp he with he | he
          · exact hmore he
          · rw [List.mem_singleton.mp he]
            exact hnone _ i

end

/-- **What a match says.**  The stretch of a match is read, with what comes after it. -/
theorem reads_of_mem_ends {p : Pattern} {g : Groups} :
    ∀ e ∈ ends text.toArray p i g, p.Reads (slice text (i, e.1)) (text.drop e.1) := by
  induction p generalizing i g with
  | empty =>
      intro e he
      rw [List.mem_singleton.mp he]
      exact slice_self text i
  | one s =>
      intro e he
      obtain ⟨hholds, rfl⟩ := mem_ends_one.mp he
      obtain ⟨c, hc, hholds⟩ := holdsAt_eq_true_iff.mp hholds
      exact ⟨c, slice_succ (List.getElem?_toArray ▸ hc), hholds⟩
  | run s least most lazy =>
      intro e he
      obtain ⟨n, rfl, hleast, hmost, hall⟩ := mem_ends_run.mp he
      have hlength : (slice text (i, i + n)).length = n := by
        cases n with
        | zero => rw [Nat.add_zero, slice_self, List.length_nil]
        | succ n =>
            have hlt := lt_size_of_holdsAt (hall n (Nat.lt_succ_self n))
            rw [List.size_toArray] at hlt
            rw [length_slice (by omega), Nat.add_sub_cancel_left]
      refine ⟨hlength.symm ▸ hleast, fun m hm => hlength.symm ▸ hmost m hm, fun c hc => ?_⟩
      obtain ⟨k, hik, hk, hc⟩ := mem_slice.mp hc
      obtain ⟨k, rfl⟩ := Nat.exists_eq_add_of_le hik
      obtain ⟨d, hd, hholds⟩ := holdsAt_eq_true_iff.mp (hall k (by omega))
      rw [List.getElem?_toArray, hc] at hd
      exact Option.some.inj hd ▸ hholds
  | seq p q ihp ihq =>
      intro e he
      obtain ⟨mid, hmid, he⟩ := List.mem_flatMap.mp he
      have hle' := le_of_mem_ends he
      exact ⟨_, _, (slice_append_slice (le_of_mem_ends hmid) hle').symm,
        reads_slice hle' (ihp mid hmid), ihq e he⟩
  | alt p q ihp ihq =>
      intro e he
      exact (List.mem_append.mp he).imp (ihp e) (ihq e)
  | iter p least most lazy ih =>
      intro e he
      obtain ⟨mid, hmid, he⟩ := List.mem_flatMap.mp he
      have hstep : ∀ i g, ∀ e ∈ ends text.toArray p i g,
          p.Reads (slice text (i, e.1)) (text.drop e.1) := fun i g => ih
      obtain ⟨m, hm, hrow⟩ := readsRow_of_mem_atMostEnds hstep lazy _ none mid.1 mid.2 e he
      have hleast := readsRow_of_mem_exactlyEnds hstep least i g mid hmid
      have hle := le_of_mem_exactlyEnds (fun _ _ _ => le_of_mem_ends) least i g mid hmid
      have hle' := le_of_mem_atMostEnds (fun _ _ _ => le_of_mem_ends) lazy _ none mid.1 mid.2 e he
      refine ⟨least + m, Nat.le_add_right least m, fun most' hmost => ?_, ?_⟩
      · rw [Option.mem_def.mp hmost, further] at hm
        omega
      · rw [← slice_append_slice hle hle']
        exact (reads_slice hle' hleast).append hrow
  | group name p ih =>
      intro e he
      obtain ⟨f, hf, rfl⟩ := List.mem_map.mp he
      exact ih f hf
  | edge d =>
      intro e he
      obtain ⟨hholds, rfl⟩ := mem_ends_edge.mp he
      cases d with
      | lineEnd =>
          refine ⟨slice_self text i, fun c hc => ?_⟩
          rw [List.head?_drop] at hc
          rw [Edge.holds, Bool.or_eq_true, beq_iff_eq, List.size_toArray] at hholds
          rcases hholds with rfl | hfeed
          · simp at hc
          · obtain ⟨d, hd, hfeed⟩ := holdsAt_eq_true_iff.mp hfeed
            rw [List.getElem?_toArray, hc] at hd
            rw [Option.some.inj hd]
            exact beq_iff_eq.mp hfeed
      | textEnd =>
          rw [Edge.holds, beq_iff_eq, List.size_toArray] at hholds
          exact ⟨slice_self text i, by rw [hholds, List.drop_length]⟩
      | _ => exact slice_self text i
  | ahead p wanted ih =>
      intro e he
      rw [(of_mem_ends_ahead he).1]
      cases wanted with
      | false => exact slice_self text i
      | true =>
          refine ⟨slice_self text i, ?_⟩
          cases hends : ends text.toArray p i g with
          | nil =>
              rw [ends, hends] at he
              cases he
          | cons f fs =>
              have hf : f ∈ ends text.toArray p i g := by rw [hends]; exact List.mem_cons_self
              exact ⟨_, _, (slice_append_drop (le_of_mem_ends hf)).symm, ih f hf⟩
  | behind p width wanted ih =>
      intro e he
      rw [(of_mem_ends_behind he).1]
      exact slice_self text i

end

end Pattern

end CodeSweep
