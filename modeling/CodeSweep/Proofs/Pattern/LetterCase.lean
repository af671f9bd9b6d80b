/-
# Letter case in patterns

A pattern that ignores letter case everywhere cannot tell a text from the same text with other
capitals: it has the same ends in both, in the same order (`ends_map_toLower`), and so the same
matches (`matchesIn_map_toLower`).
-/
import CodeSweep.Proofs.Pattern.Ends
import CodeSweep.Proofs.Text.Words

namespace CodeSweep

/-! ## Characters -/

namespace Text

/-- What does not tell a capital from its small letter does not tell them apart in any character. -/
theorem apply_toLower {α : Type} {f : Char → α}
    (h : ∀ n < 26, f (Char.ofNat (65 + n)).toLower = f (Char.ofNat (65 + n))) (c : Char) :
    f c.toLower = f c := by
  by_cases hc : 65 ≤ c.toNat ∧ c.toNat ≤ 90
  · obtain ⟨n, hn⟩ := Nat.exists_eq_add_of_le hc.1
    have hcapital : c = Char.ofNat (65 + n) := by rw [← hn, Char.ofNat_toNat]
    rw [hcapital]
    exact h n (by omega)
  · have hsame : c.toLower = c := dif_neg fun hcapital => hc hcapital
    rw [hsame]

/-- A capital letter and its small letter have the same case variants. -/
theorem caseVariants_toLower (c : Char) : caseVariants c.toLower = caseVariants c :=
  apply_toLower (by decide) c

/-- They are word characters alike. -/
theorem isWord_toLower (c : Char) : isWord c.toLower = isWord c :=
  apply_toLower (by decide) c

/-- What is no letter is the small letter of itself only. -/
theorem toLower_eq_iff {x : Char} (hx : x.isAlpha = false) (c : Char) : c.toLower = x ↔ c = x := by
  have hletters : ∀ n < 26, (Char.ofNat (65 + n)).toLower.isAlpha = true ∧
      (Char.ofNat (65 + n)).isAlpha = true := by
    decide
  have hne : ∀ {d : Char}, d.isAlpha = true → (d == x) = false := by
    intro d hd
    rw [beq_eq_false_iff_ne]
    rintro rfl
    rw [hx] at hd
    cases hd
  have hsame : (c.toLower == x) = (c == x) := by
    refine apply_toLower (f := (· == x)) (fun n hn => ?_) c
    rw [hne (hletters n hn).1, hne (hletters n hn).2]
  rw [← beq_iff_eq, hsame, beq_iff_eq]

/-- No capital letter is a line feed, and no small letter is one. -/
theorem toLower_beq_feed (c : Char) : (c.toLower == '\n') = (c == '\n') := by
  rw [Bool.eq_iff_iff, beq_iff_eq, beq_iff_eq, toLower_eq_iff (by decide)]

/-- The small letter of a basic character. -/
theorem smallLetter_eq_toLower {c : Char} (hc : c.toNat < 128) : smallLetter c = c.toLower :=
  forall_of_toNat_lt (P := fun c => smallLetter c = c.toLower) (by decide) hc

/-- A blank has no other case. -/
theorem caseVariants_of_isBlank {c : Char} (hc : isBlank c = true) : caseVariants c = [c] := by
  have hsmall : smallLetter c = c :=
    forall_of_isBlank (P := fun c => smallLetter c = c) (by decide) hc
  have hshapes : otherShapes c = [c] :=
    forall_of_isBlank (P := fun c => otherShapes c = [c]) (by decide) hc
  have hcapitals : capitals c = [] :=
    forall_of_isBlank (P := fun c => capitals c = []) (by decide) hc
  rw [caseVariants, hsmall, hshapes, List.flatMap_singleton, hcapitals]

end Text

/-- A test without regard to letter case does not tell capitals from small letters. -/
theorem CharTest.holdsAnyCase_toLower (t : CharTest) (c : Char) :
    t.holdsAnyCase c.toLower = t.holdsAnyCase c := by
  cases t with
  | range lo hi => rw [holdsAnyCase, holdsAnyCase, Text.caseVariants_toLower]
  | blank yes =>
      exact congrArg (· == yes) (Text.apply_toLower (f := Text.isBlank) (by decide) c)
  | word yes => exact congrArg (· == yes) (Text.isWord_toLower c)
  | digit yes =>
      exact congrArg (· == yes) (Text.apply_toLower (f := Text.isDigit) (by decide) c)
  | small s =>
      exact congrArg (· == s) (Text.apply_toLower (f := Text.smallLetter) (by decide) c)

/-- Nor does a set. -/
theorem CharSet.holds_toLower {s : CharSet} (hs : s.anyCase = true) (c : Char) :
    s.holds c.toLower = s.holds c := by
  simp only [holds, listed, hs, if_true, CharTest.holdsAnyCase_toLower]

/-! ## Ends of a match -/

section

variable {test : Char → Bool} (htest : ∀ c : Char, test c.toLower = test c) (text : Array Char)

include htest

/-- Such a test gives the same at every place of a text without its capitals. -/
theorem holdsAt_map_toLower (i : Nat) :
    holdsAt test (text.map Char.toLower) i = holdsAt test text i := by
  rw [holdsAt, holdsAt, Array.getElem?_map]
  cases text[i]? with
  | none => rfl
  | some c => exact htest c

/-- And it gives the same before every place. -/
theorem holdsBefore_map_toLower (i : Nat) :
    holdsBefore test (text.map Char.toLower) i = holdsBefore test text i := by
  have hbefore : charBefore (text.map Char.toLower) i = (charBefore text i).map Char.toLower := by
    rw [charBefore, charBefore, Array.getElem?_map]
    split <;> rfl
  rw [holdsBefore, holdsBefore, hbefore]
  cases charBefore text i with
  | none => rfl
  | some c => exact htest c

end

/-- Edges are the same in a text without its capitals. -/
theorem Edge.holds_map_toLower (e : Edge) (text : Array Char) (i : Nat) :
    e.holds (text.map Char.toLower) i = e.holds text i := by
  have hfeed : holdsAt (· == '\n') (text.map Char.toLower) i = holdsAt (· == '\n') text i :=
    holdsAt_map_toLower Text.toLower_beq_feed text i
  have hfeed' : holdsBefore (· == '\n') (text.map Char.toLower) i
      = holdsBefore (· == '\n') text i :=
    holdsBefore_map_toLower Text.toLower_beq_feed text i
  have hempty : (text.map Char.toLower).isEmpty = text.isEmpty := by simp [Array.isEmpty]
  cases e <;>
    simp only [holds, Array.size_map, hempty, hfeed, hfeed',
      holdsAt_map_toLower Text.isWord_toLower, holdsBefore_map_toLower Text.isWord_toLower]

namespace Pattern

/-- All sets of the pattern, those it only looks at included, are without regard to case. -/
def ignoresCase : Pattern → Bool
  | one s => s.anyCase
  | run s _ _ _ => s.anyCase
  | seq p q => p.ignoresCase && q.ignoresCase
  | alt p q => p.ignoresCase && q.ignoresCase
  | iter p _ _ _ => p.ignoresCase
  | group _ p => p.ignoresCase
  | ahead p _ => p.ignoresCase
  | behind p _ _ => p.ignoresCase
  | _ => true

/-- A run of characters of such a set is as long in a text without its capitals. -/
theorem runLength_map_toLower {s : CharSet} (hs : s.anyCase = true) (text : Array Char)
    (limit i : Nat) :
    runLength s (text.map Char.toLower) limit i = runLength s text limit i := by
  induction limit generalizing i with
  | zero => rfl
  | succ limit ih =>
      rw [runLength, runLength, holdsAt_map_toLower (CharSet.holds_toLower hs), ih]

/-- **Capitals do not matter** to a pattern that ignores case: it has the same ends in a text
without its capitals, with the same groups and in the same order. -/
theorem ends_map_toLower {p : Pattern} (hp : p.ignoresCase = true) (text : Array Char) :
    ends (text.map Char.toLower) p = ends text p := by
  induction p with
  | empty => rfl
  | one s =>
      funext i g
      rw [ends, ends, holdsAt_map_toLower (CharSet.holds_toLower hp)]
  | run s least most lazy =>
      funext i g
      rw [ends, ends, runEnds, runEnds, Array.size_map, runLength_map_toLower hp]
  | seq p q ihp ihq =>
      rw [ignoresCase, Bool.and_eq_true] at hp
      funext i g
      rw [ends, ends, ihp hp.1, ihq hp.2]
  | alt p q ihp ihq =>
      rw [ignoresCase, Bool.and_eq_true] at hp
      funext i g
      rw [ends, ends, ihp hp.1, ihq hp.2]
  | iter p least most lazy ih =>
      funext i g
      rw [ends, ends, ih hp, Array.size_map]
  | group name p ih =>
      funext i g
      rw [ends, ends, ih hp]
  | edge e =>
      funext i g
      rw [ends, ends, Edge.holds_map_toLower]
  | ahead p wanted ih =>
      funext i g
      rw [ends, ends, ih hp]
  | behind p width wanted ih =>
      funext i g
      rw [ends, ends, ih hp]

/-! ## Matches -/

section

variable {p : Pattern} (hp : p.ignoresCase = true) (text : Array Char)

include hp

/-- What is tried at a place comes to the same, whatever follows. -/
theorem runAt_map_toLower {α : Type} (i : Nat) (k : Then α) :
    p.runAt (text.map Char.toLower) i [] k = p.runAt text i [] k := by
  rw [runAt_eq_findSome?, runAt_eq_findSome?, ends_map_toLower hp]

/-- A search finds the same match. -/
theorem search?_map_toLower (i : Nat) :
    p.search? (text.map Char.toLower) i = p.search? text i := by
  have hfrom : ∀ n i, p.searchFrom? (text.map Char.toLower) n i = p.searchFrom? text n i := by
    intro n
    induction n with
    | zero => exact fun i => rfl
    | succ n ih =>
        intro i
        rw [searchFrom?, searchFrom?, ih, matchAt?, matchAt?, runAt_map_toLower hp]
  rw [search?, search?, Array.size_map, hfrom]

/-- All matches are the same. -/
theorem matchesIn_map_toLower : p.matchesIn (text.map Char.toLower) = p.matchesIn text := by
  have hfrom : ∀ n i free,
      p.matchesFrom (text.map Char.toLower) n i free = p.matchesFrom text n i free := by
    intro n
    induction n with
    | zero => exact fun i free => rfl
    | succ n ih =>
        intro i free
        simp only [matchesFrom, ih, matchAt?, nonemptyMatchAt?, runAt_map_toLower hp]
  rw [matchesIn, matchesIn, Array.size_map, hfrom]

end

end Pattern

end CodeSweep
