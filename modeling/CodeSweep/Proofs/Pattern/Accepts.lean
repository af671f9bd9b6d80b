/-
# Where patterns match

If a pattern tests no places, and repeats nothing but single characters, then every stretch that it
reads is one of a match (`exists_mem_ends_of_reads`).  Whether such a pattern matches, and what
comes after it matches too, is a matter of the text that is ahead (`Accepts`).  At the start of a
text, that is the whole text (`foundIn_iff_of_accepts`).
-/
import CodeSweep.Proofs.Pattern.InTurn
import CodeSweep.Proofs.Pattern.Reads

namespace CodeSweep

namespace Pattern

/-! ## Every stretch that is read -/

/-- The pattern tests no places, and repeats nothing but single characters. -/
def readsFreely : Pattern → Bool
  | empty => true
  | one _ => true
  | run _ _ _ _ => true
  | seq p q => p.readsFreely && q.readsFreely
  | alt p q => p.readsFreely && q.readsFreely
  | iter p least most _ => least == 0 && most == some 1 && p.readsFreely
  | group _ p => p.readsFreely
  | edge _ => false
  | ahead _ _ => false
  | behind _ _ _ => false

/-- **A stretch that is read** is one of a match, if the pattern tests no places. -/
theorem exists_mem_ends_of_reads {p : Pattern} (hp : p.readsFreely = true)
    {text cs rest : List Char} {i : Nat} {g : Groups} (h : text.drop i = cs ++ rest)
    (hreads : p.Reads cs rest) :
    ∃ e ∈ ends text.toArray p i g, e.1 = i + cs.length := by
  induction p generalizing cs rest i g with
  | empty =>
      obtain rfl : cs = [] := hreads
      exact ⟨(i, g), List.mem_singleton_self _, rfl⟩
  | one s =>
      obtain ⟨c, rfl, hc⟩ := hreads
      have hhere : holdsAt s.holds text.toArray i = true :=
        (holdsAt_of_drop h (k := 0) rfl).trans hc
      exact ⟨(i + 1, g), mem_ends_one.mpr ⟨hhere, rfl⟩, rfl⟩
  | run s least most lazy =>
      obtain ⟨hleast, hmost, hall⟩ := hreads
      refine ⟨_, mem_ends_run.mpr ⟨cs.length, rfl, hleast, hmost, fun k hk => ?_⟩, rfl⟩
      rw [holdsAt_of_drop h (List.getElem?_eq_getElem hk)]
      exact hall _ (List.getElem_mem hk)
  | seq p q ihp ihq =>
      rw [readsFreely, Bool.and_eq_true] at hp
      obtain ⟨as, bs, rfl, has, hbs⟩ := hreads
      rw [List.append_assoc] at h
      obtain ⟨mid, hmid, hplace⟩ := ihp hp.1 h has (g := g)
      obtain ⟨e, he, hend⟩ := ihq hp.2 (drop_of_drop h) hbs (g := mid.2)
      rw [← hplace] at he
      refine ⟨e, List.mem_flatMap.mpr ⟨mid, hmid, he⟩, ?_⟩
      rw [hend, List.length_append, Nat.add_assoc]
  | alt p q ihp ihq =>
      rw [readsFreely, Bool.and_eq_true] at hp
      rcases hreads with hreads | hreads
      · obtain ⟨e, he, hend⟩ := ihp hp.1 h hreads (g := g)
        exact ⟨e, List.mem_append_left _ he, hend⟩
      · obtain ⟨e, he, hend⟩ := ihq hp.2 h hreads (g := g)
        exact ⟨e, List.mem_append_right _ he, hend⟩
  | iter p least most lazy ih =>
      rw [readsFreely, Bool.and_eq_true, Bool.and_eq_true, beq_iff_eq, beq_iff_eq] at hp
      obtain ⟨⟨rfl, rfl⟩, hp⟩ := hp
      rcases reads_optional hreads with rfl | hreads
      · exact ⟨(i, g), mem_ends_optional_iff.mpr (.inl rfl), rfl⟩
      · obtain ⟨e, he, hend⟩ := ih hp h hreads (g := g)
        exact ⟨e, mem_ends_optional_iff.mpr (.inr he), hend⟩
  | group name p ih =>
      obtain ⟨e, he, hend⟩ := ih hp h hreads (g := g)
      exact ⟨_, List.mem_map_of_mem he, hend⟩
  | edge d => cases hp
  | ahead p wanted => cases hp
  | behind p width wanted => cases hp

/-! ## The text ahead -/

/-- The pattern matches at a place if `R` holds of the text ahead. -/
def Accepts (p : Pattern) (R : List Char → Prop) : Prop :=
  ∀ (text : List Char) (i : Nat) (g : Groups), i ≤ text.toArray.size → g.InText text.toArray →
    (ends text.toArray p i g ≠ [] ↔ R (text.drop i))

section

variable {p q : Pattern} {R S : List Char → Prop}

/-- One of two patterns matches. -/
theorem Accepts.alt (hp : p.Accepts R) (hq : q.Accepts S) :
    (alt p q).Accepts fun ahead => R ahead ∨ S ahead := by
  intro text i g hi hg
  rw [ends, ne_eq, List.append_eq_nil_iff, not_and_or]
  exact or_congr (hp text i g hi hg) (hq text i g hi hg)

/-- A match stays one if it is given a name. -/
theorem Accepts.group (hp : p.Accepts R) (name : String) : (group name p).Accepts R := by
  intro text i g hi hg
  rw [ends, ne_eq, List.map_eq_nil_iff]
  exact hp text i g hi hg

/-- The end of the text, or a line feed that ends it. -/
theorem accepts_lastLineEnd :
    (edge .lastLineEnd).Accepts fun ahead => ahead = [] ∨ ahead = ['\n'] := by
  intro text i g hi hg
  have hends : ends text.toArray (edge .lastLineEnd) i g ≠ [] ↔
      Edge.lastLineEnd.holds text.toArray i = true := by
    rw [ends]
    split
    · next h => simp [h]
    · next h => simp [h]
  rw [List.size_toArray] at hi
  rw [hends, Edge.holds, Bool.or_eq_true, Bool.and_eq_true, beq_iff_eq, beq_iff_eq,
    List.size_toArray]
  refine or_congr ⟨fun h => by rw [h, List.drop_length], fun h => ?_⟩ ⟨?_, fun h => ?_⟩
  · have hlength := congrArg List.length h
    rw [List.length_drop, List.length_nil] at hlength
    omega
  · rintro ⟨hlast, hfeed⟩
    obtain ⟨c, hc, hfeed⟩ := holdsAt_eq_true_iff.mp hfeed
    rw [List.getElem?_toArray] at hc
    obtain ⟨hlt, hc⟩ := List.getElem?_eq_some_iff.mp hc
    rw [List.drop_eq_getElem_cons hlt, hc, eq_of_beq hfeed, hlast, List.drop_length]
  · have hlength := congrArg List.length h
    rw [List.length_drop, List.length_singleton] at hlength
    have hone : text.drop i = ['\n'] ++ [] := h
    exact ⟨by omega, holdsAt_of_drop hone (k := 0) rfl⟩

section

variable (hp : p.readsFreely = true)

include hp

/-- **A pattern without tests of places** matches where it reads some text. -/
theorem accepts_of_readsFreely :
    p.Accepts fun ahead => ∃ cs rest, ahead = cs ++ rest ∧ p.Reads cs rest := by
  intro text i g _ _
  constructor
  · intro hends
    obtain ⟨e, he⟩ := List.exists_mem_of_ne_nil _ hends
    exact ⟨_, _, (Text.slice_append_drop (le_of_mem_ends he)).symm, reads_of_mem_ends e he⟩
  · rintro ⟨cs, rest, hahead, hreads⟩
    obtain ⟨e, he, -⟩ := exists_mem_ends_of_reads hp hahead hreads (g := g)
    exact List.ne_nil_of_mem he

/-- **What comes after it** has to match the rest. -/
theorem Accepts.seq (hq : q.Accepts R) :
    (seq p q).Accepts fun ahead => ∃ cs rest, ahead = cs ++ rest ∧ p.Reads cs rest ∧ R rest := by
  intro text i g hi hg
  constructor
  · intro hends
    obtain ⟨e, he⟩ := List.exists_mem_of_ne_nil _ hends
    obtain ⟨mid, hmid, he⟩ := List.mem_flatMap.mp he
    obtain ⟨hle, hsize, hgroups⟩ := mem_ends_bounds hi hg mid hmid
    exact ⟨_, _, (Text.slice_append_drop hle).symm, reads_of_mem_ends mid hmid,
      (hq text mid.1 mid.2 hsize hgroups).mp (List.ne_nil_of_mem he)⟩
  · rintro ⟨cs, rest, hahead, hreads, hrest⟩
    obtain ⟨mid, hmid, hplace⟩ := exists_mem_ends_of_reads hp hahead hreads (g := g)
    obtain ⟨-, hsize, hgroups⟩ := mem_ends_bounds hi hg mid hmid
    rw [← drop_of_drop hahead, ← hplace] at hrest
    obtain ⟨e, he⟩ := List.exists_mem_of_ne_nil _ ((hq text mid.1 mid.2 hsize hgroups).mpr hrest)
    exact List.ne_nil_of_mem (List.mem_flatMap.mpr ⟨mid, hmid, he⟩)

end

/-- **A pattern that begins with the start of the text** matches if the whole text is as the other
parts ask. -/
theorem foundIn_iff_of_accepts (hp : p.Accepts R) {r : Pattern}
    (hr : r.parts = (textStart ++ p).parts) (text : List Char) :
    r.foundIn text.toArray = true ↔ R text := by
  have hstart : ends text.toArray r 0 [] = ends text.toArray p 0 [] := by
    rw [ends_eq_of_parts_eq hr]
    exact List.flatMap_singleton _ _
  have hlater : ∀ i ≠ 0, ends text.toArray r i [] = [] := by
    intro i hi
    rw [ends_eq_of_parts_eq hr]
    show (ends text.toArray (edge .textStart) i []).flatMap _ = []
    rw [ends, if_neg (by simpa [Edge.holds] using hi), List.flatMap_nil]
  have hnone : Groups.InText text.toArray [] := by simp [Groups.InText]
  have hwhole : R text ↔ ends text.toArray r 0 [] ≠ [] := by
    rw [hstart, hp text 0 [] (Nat.zero_le _) hnone, List.drop_zero]
  rw [foundIn_iff, hwhole]
  refine ⟨?_, fun h => ⟨0, Nat.zero_le _, h⟩⟩
  rintro ⟨i, -, hi⟩
  by_cases hzero : i = 0
  · rwa [hzero] at hi
  · exact absurd (hlater i hzero) hi

end

end Pattern

end CodeSweep
