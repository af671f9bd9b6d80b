/-
# The stretches of a match

A match, and each stretch that it keeps in a group, runs forward and lies in the text
(`mem_ends_bounds`), and is as long as its pattern demands (`mem_ends_width`).  A group in the way
of every match takes part in it with at least one character, between the ends of the match
(`captures_lookup`).
-/
import CodeSweep.Proofs.Pattern.Ends
import CodeSweep.Pattern.Reader

namespace CodeSweep

namespace Pattern

/-! ## Ends lie ahead and in the text -/

/-- Every stretch runs forward and ends in the text. -/
def Groups.InText (text : Array Char) (g : Groups) : Prop :=
  ∀ s ∈ g, s.2.1 ≤ s.2.2 ∧ s.2.2 ≤ text.size

/-- A character that passes a test is one of the text. -/
theorem lt_size_of_holdsAt {test : Char → Bool} {text : Array Char} {i : Nat}
    (h : holdsAt test text i = true) : i < text.size := by
  rw [holdsAt] at h
  split at h
  · next hc => exact (Array.getElem?_eq_some_iff.mp hc).1
  · simp at h

/-- A run does not leave the text. -/
theorem add_runLength_le (s : CharSet) (text : Array Char) (limit i : Nat) (hi : i ≤ text.size) :
    i + runLength s text limit i ≤ text.size := by
  induction limit generalizing i with
  | zero => simpa [runLength] using hi
  | succ limit ih =>
      rw [runLength]
      split
      · next hc =>
          have hstep := ih (i + 1) (lt_size_of_holdsAt hc)
          omega
      · simpa using hi

/-- A run has its least length and stays in the text. -/
theorem mem_runEnds_bounds {s : CharSet} {least : Nat} {most : Option Nat} {lazy : Bool}
    {text : Array Char} {i j : Nat} (hi : i ≤ text.size)
    (h : j ∈ runEnds s least most lazy text i) : i + least ≤ j ∧ j ≤ text.size := by
  have hlength := add_runLength_le s text (most.getD (text.size - i)) i hi
  have hmem : j ∈ List.range' (i + least)
      (runLength s text (most.getD (text.size - i)) i + 1 - least) := by
    rw [runEnds] at h
    split at h
    · exact h
    · exact List.mem_reverse.mp h
  rw [List.mem_range'_1] at hmem
  omega

/-- **Matches run forward and stay in the text**, and so does what they keep. -/
theorem mem_ends_bounds {text : Array Char} {p : Pattern} {i : Nat} {g : Groups}
    (hi : i ≤ text.size) (hg : g.InText text) :
    ∀ e ∈ ends text p i g, i ≤ e.1 ∧ e.1 ≤ text.size ∧ Groups.InText text e.2 := by
  induction p generalizing i g with
  | empty =>
      intro e he
      rw [ends, List.mem_singleton] at he
      exact he ▸ ⟨Nat.le_refl i, hi, hg⟩
  | one s =>
      intro e he
      obtain ⟨hc, rfl⟩ := mem_ends_one.mp he
      exact ⟨Nat.le_succ i, lt_size_of_holdsAt hc, hg⟩
  | run s least most lazy =>
      intro e he
      rw [ends, List.mem_map] at he
      obtain ⟨j, hj, rfl⟩ := he
      obtain ⟨hle, hsize⟩ := mem_runEnds_bounds hi hj
      exact ⟨by simp only; omega, hsize, hg⟩
  | seq p q ihp ihq =>
      intro e he
      rw [ends, List.mem_flatMap] at he
      obtain ⟨mid, hmid, he⟩ := he
      obtain ⟨hle, hsize, hg'⟩ := ihp hi hg mid hmid
      obtain ⟨hle', h⟩ := ihq hsize hg' e he
      exact ⟨Nat.le_trans hle hle', h⟩
  | alt p q ihp ihq =>
      intro e he
      rw [ends, List.mem_append] at he
      rcases he with he | he
      · exact ihp hi hg e he
      · exact ihq hi hg e he
  | iter p least most lazy ih =>
      intro e he
      rw [ends, List.mem_flatMap] at he
      obtain ⟨mid, hmid, he⟩ := he
      -- every further match of the row begins where the one before ended
      have hstep : ∀ e : End, (i ≤ e.1 ∧ e.1 ≤ text.size ∧ Groups.InText text e.2) →
          ∀ e' ∈ ends text p e.1 e.2, i ≤ e'.1 ∧ e'.1 ≤ text.size ∧ Groups.InText text e'.2 := by
        rintro e ⟨hle, hsize, hge⟩ e' he'
        obtain ⟨hle', h⟩ := ih hsize hge e' he'
        exact ⟨Nat.le_trans hle hle', h⟩
      have hmid' := exactlyEnds_induct hstep least (i, g) ⟨Nat.le_refl i, hi, hg⟩ mid hmid
      exact atMostEnds_induct hstep lazy _ none mid hmid' e he
  | group name p ih =>
      intro e he
      rw [ends, List.mem_map] at he
      obtain ⟨e, he, rfl⟩ := he
      obtain ⟨hle, hsize, hg'⟩ := ih hi hg e he
      refine ⟨hle, hsize, ?_⟩
      intro s hs
      rcases List.mem_cons.mp hs with rfl | hs
      · exact ⟨hle, hsize⟩
      · exact hg' s hs
  | edge d =>
      intro e he
      obtain ⟨-, rfl⟩ := mem_ends_edge.mp he
      exact ⟨Nat.le_refl i, hi, hg⟩
  | ahead p wanted ih =>
      intro e he
      obtain ⟨hplace, hgroups⟩ := of_mem_ends_ahead he
      refine ⟨hplace ▸ Nat.le_refl i, hplace ▸ hi, ?_⟩
      rcases hgroups with h | ⟨f, hf, hfe⟩
      · exact h ▸ hg
      · exact hfe ▸ (ih hi hg f hf).2.2
  | behind p width wanted ih =>
      intro e he
      obtain ⟨hplace, hgroups⟩ := of_mem_ends_behind he
      refine ⟨hplace ▸ Nat.le_refl i, hplace ▸ hi, ?_⟩
      rcases hgroups with h | ⟨f, hf, hfe⟩
      · exact h ▸ hg
      · exact hfe ▸ (ih (Nat.le_trans (Nat.sub_le i width) hi) hg f hf).2.2

/-! ## The least width -/

/-- A row of matches is as long as its matches together. -/
theorem mem_exactlyEnds_width {step : Nat → Groups → List End} {w : Nat}
    (hstep : ∀ i g, ∀ e ∈ step i g, i + w ≤ e.1) (n i : Nat) (g : Groups) :
    ∀ e ∈ exactlyEnds step n i g, i + n * w ≤ e.1 := by
  induction n generalizing i g with
  | zero => simp [exactlyEnds]
  | succ n ih =>
      intro e he
      rw [exactlyEnds, List.mem_flatMap] at he
      obtain ⟨mid, hmid, he⟩ := he
      have hfirst := hstep i g mid hmid
      have hothers := ih mid.1 mid.2 e he
      rw [Nat.succ_mul]
      omega

/-- A match is at least as long as the least width of its pattern says. -/
theorem mem_ends_width {text : Array Char} {p : Pattern} {i : Nat} {g : Groups} :
    ∀ e ∈ ends text p i g, i + (widths p).1 ≤ e.1 := by
  induction p generalizing i g with
  | empty => simp [ends, widths]
  | one s =>
      intro e he
      obtain ⟨-, rfl⟩ := mem_ends_one.mp he
      exact Nat.le_refl _
  | run s least most lazy =>
      intro e he
      rw [ends, List.mem_map] at he
      obtain ⟨j, hj, rfl⟩ := he
      rw [runEnds] at hj
      have hmem : i + least ≤ j := by
        split at hj
        · exact (List.mem_range'_1.mp hj).1
        · exact (List.mem_range'_1.mp (List.mem_reverse.mp hj)).1
      exact hmem
  | seq p q ihp ihq =>
      intro e he
      rw [ends, List.mem_flatMap] at he
      obtain ⟨mid, hmid, he⟩ := he
      have hp := ihp mid hmid
      have hq := ihq e he
      rw [widths]
      omega
  | alt p q ihp ihq =>
      intro e he
      rw [ends, List.mem_append] at he
      rw [widths]
      rcases he with he | he
      · have hp := ihp e he
        omega
      · have hq := ihq e he
        omega
  | iter p least most lazy ih =>
      intro e he
      rw [ends, List.mem_flatMap] at he
      obtain ⟨mid, hmid, he⟩ := he
      have hleast := mem_exactlyEnds_width (fun i g => ih) least i g mid hmid
      have hmore : mid.1 ≤ e.1 :=
        atMostEnds_induct (P := fun e => mid.1 ≤ e.1)
          (fun e hle e' he' => by have := ih e' he'; omega) lazy _ none mid (Nat.le_refl _) e he
      rw [widths]
      exact Nat.le_trans hleast hmore
  | group name p ih =>
      intro e he
      rw [ends, List.mem_map] at he
      obtain ⟨e, he, rfl⟩ := he
      exact ih e he
  | edge d =>
      intro e he
      obtain ⟨-, rfl⟩ := mem_ends_edge.mp he
      exact Nat.le_refl _
  | ahead p wanted ih =>
      intro e he
      exact Nat.le_of_eq (of_mem_ends_ahead he).1.symm
  | behind p width wanted ih =>
      intro e he
      exact Nat.le_of_eq (of_mem_ends_behind he).1.symm

/-- A match does not end before it starts. -/
theorem le_of_mem_ends {text : Array Char} {p : Pattern} {i : Nat} {g : Groups} {e : End}
    (he : e ∈ ends text p i g) : i ≤ e.1 :=
  Nat.le_trans (Nat.le_add_right i _) (mem_ends_width e he)

/-! ## Groups in the way of every match -/

/-- A pattern keeps nothing under a name that none of its groups has. -/
theorem lookup_of_not_mem_groupNames {text : Array Char} {name : String} {p : Pattern} {i : Nat}
    {g : Groups} (hp : name ∉ groupNames p) :
    ∀ e ∈ ends text p i g, e.2.lookup name = g.lookup name := by
  induction p generalizing i g with
  | empty => simp [ends]
  | one s =>
      intro e he
      obtain ⟨-, rfl⟩ := mem_ends_one.mp he
      rfl
  | run s least most lazy =>
      intro e he
      rw [ends, List.mem_map] at he
      obtain ⟨j, -, rfl⟩ := he
      rfl
  | seq p q ihp ihq =>
      intro e he
      rw [groupNames, List.mem_append, not_or] at hp
      rw [ends, List.mem_flatMap] at he
      obtain ⟨mid, hmid, he⟩ := he
      rw [ihq hp.2 e he, ihp hp.1 mid hmid]
  | alt p q ihp ihq =>
      intro e he
      rw [groupNames, List.mem_append, not_or] at hp
      rw [ends, List.mem_append] at he
      rcases he with he | he
      · exact ihp hp.1 e he
      · exact ihq hp.2 e he
  | iter p least most lazy ih =>
      intro e he
      rw [groupNames] at hp
      rw [ends, List.mem_flatMap] at he
      obtain ⟨mid, hmid, he⟩ := he
      have hstep : ∀ e : End, e.2.lookup name = g.lookup name →
          ∀ e' ∈ ends text p e.1 e.2, e'.2.lookup name = g.lookup name :=
        fun e hsame e' he' => (ih hp e' he').trans hsame
      have hmid' := exactlyEnds_induct hstep least (i, g) rfl mid hmid
      exact atMostEnds_induct hstep lazy _ none mid hmid' e he
  | group n p ih =>
      intro e he
      rw [groupNames, List.mem_cons, not_or] at hp
      rw [ends, List.mem_map] at he
      obtain ⟨e, he, rfl⟩ := he
      rw [List.lookup_cons, beq_false_of_ne hp.1]
      exact ih hp.2 e he
  | edge d =>
      intro e he
      obtain ⟨-, rfl⟩ := mem_ends_edge.mp he
      rfl
  | ahead p wanted ih =>
      intro e he
      rw [groupNames] at hp
      rcases (of_mem_ends_ahead he).2 with h | ⟨f, hf, hfe⟩
      · rw [h]
      · rw [← hfe]
        exact ih hp f hf
  | behind p width wanted ih =>
      intro e he
      rw [groupNames] at hp
      rcases (of_mem_ends_behind he).2 with h | ⟨f, hf, hfe⟩
      · rw [h]
      · rw [← hfe]
        exact ih hp f hf

/-- A group of the name is in the way of every match, holds at least one character, and is the last
of its name to be kept. -/
def captures (name : String) : Pattern → Bool
  | seq p q => captures name q || (captures name p && !(groupNames q).contains name)
  | alt p q => captures name p && captures name q
  | group n p => if n = name then decide (0 < (widths p).1) else captures name p
  | _ => false

/-- **A group in the way takes part** in every match, with a stretch of the match that is not
empty. -/
theorem captures_lookup {text : Array Char} {name : String} {p : Pattern} {i : Nat} {g : Groups}
    (hp : captures name p = true) :
    ∀ e ∈ ends text p i g, ∃ a b, e.2.lookup name = some (a, b) ∧ i ≤ a ∧ a < b ∧ b ≤ e.1 := by
  induction p generalizing i g with
  | seq p q ihp ihq =>
      intro e he
      rw [ends, List.mem_flatMap] at he
      obtain ⟨mid, hmid, he⟩ := he
      have hle := le_of_mem_ends hmid
      have hle' := le_of_mem_ends he
      rw [captures, Bool.or_eq_true, Bool.and_eq_true] at hp
      -- the group is in the second part, or in the first and not overwritten by the second
      rcases hp with hq | ⟨hp, hq⟩
      · obtain ⟨a, b, hlookup, hbounds⟩ := ihq hq e he
        exact ⟨a, b, hlookup, by omega⟩
      · obtain ⟨a, b, hlookup, hbounds⟩ := ihp hp mid hmid
        refine ⟨a, b, ?_, by omega⟩
        rw [lookup_of_not_mem_groupNames (by simpa using hq) e he, hlookup]
  | alt p q ihp ihq =>
      intro e he
      rw [captures, Bool.and_eq_true] at hp
      rw [ends, List.mem_append] at he
      rcases he with he | he
      · exact ihp hp.1 e he
      · exact ihq hp.2 e he
  | group n p ih =>
      intro e he
      rw [ends, List.mem_map] at he
      obtain ⟨e, he, rfl⟩ := he
      rw [captures] at hp
      split at hp
      · next hn =>
          have hwidth := mem_ends_width e he
          have hpos : 0 < (widths p).1 := of_decide_eq_true hp
          refine ⟨i, e.1, ?_, Nat.le_refl i, by omega, Nat.le_refl e.1⟩
          rw [hn, List.lookup_cons_self]
      · next hn =>
          rw [List.lookup_cons, beq_false_of_ne (Ne.symm hn)]
          exact ih hp e he
  | _ => simp [captures] at hp

end Pattern

end CodeSweep
