/-
# Letter case in rules

A rule with a pattern that ignores letter case has hits in the same places of two texts that differ
in the case of ASCII letters only, and it tests them alike (`hits_of_map_toLower_eq`).  All rules of
the catalogue that are said to ignore case have such a pattern.
-/
import CodeSweep.Proofs.Pattern.LetterCase
import CodeSweep.Proofs.Rule.Lines
import CodeSweep.Registry

namespace CodeSweep

/-! ## Lines and positions -/

namespace Text

/-- A text without its capitals has the same pieces, without their capitals. -/
theorem splitAt_map_toLower {sep : Char → Bool} (hsep : ∀ c : Char, sep c.toLower = sep c)
    (cs : List Char) :
    splitAt sep (cs.map Char.toLower) = (splitAt sep cs).map (·.map Char.toLower) :=
  splitAt_map hsep cs

/-- Dropping a carriage return and dropping capitals do not interfere. -/
theorem dropCarriageReturn_map_toLower (line : List Char) :
    dropCarriageReturn (line.map Char.toLower) = (dropCarriageReturn line).map Char.toLower := by
  induction line using dropCarriageReturn.induct with
  | case1 => rfl
  | case2 => rfl
  | case3 c cs hne ih =>
      rw [List.map_cons, dropCarriageReturn, dropCarriageReturn, ih, List.map_cons]
      · exact hne
      · intro hreturn hnil
        exact hne ((toLower_eq_iff (by decide) c).mp hreturn) (List.map_eq_nil_iff.mp hnil)

/-- A text without its capitals has the same lines, without their capitals. -/
theorem lines_map_toLower (text : List Char) :
    lines (text.map Char.toLower) = (lines text).map (·.map Char.toLower) := by
  rw [lines, lines, splitAt_map_toLower toLower_beq_feed, List.map_map, List.map_map]
  exact List.map_congr_left fun line _ => dropCarriageReturn_map_toLower line

end Text

/-- The places of a text are where they are without its capitals. -/
theorem Position.ofOffset_map_toLower (text : List Char) (offset : Nat) :
    ofOffset (text.map Char.toLower) offset = ofOffset text offset := by
  have hadvance : ∀ (p : Position) (n : Nat),
      p.advance (text.map Char.toLower) n = p.advance text n := by
    induction text with
    | nil => exact fun p n => rfl
    | cons c cs ih =>
        intro p n
        cases n with
        | zero => rfl
        | succ n =>
            have hnext : p.next c.toLower = p.next c := by
              simp only [next, ← beq_iff_eq (b := '\n'), Text.toLower_beq_feed]
            rw [List.map_cons, advance, advance, hnext, ih]
  exact hadvance first offset

/-! ## Hits -/

namespace Hit

variable {p : Pattern} (hp : p.ignoresCase = true)

include hp

/-- A line without its capitals is hit in the same place. -/
theorem inLine?_map_toLower (number : Nat) (line : List Char) :
    (inLine? p number (line.map Char.toLower)).map (·.extent)
      = (inLine? p number line).map (·.extent) := by
  rw [inLine?, inLine?, List.length_map, ← List.map_toArray, Pattern.search?_map_toLower hp]
  split
  · rfl
  · rw [Option.map_map, Option.map_map]
    rfl

/-- Lines without their capitals are hit in the same places. -/
theorem inLines_map_toLower (number : Nat) (ls : List (List Char)) :
    (inLines p number (ls.map (·.map Char.toLower))).map (·.extent)
      = (inLines p number ls).map (·.extent) := by
  induction ls generalizing number with
  | nil => rfl
  | cons line ls ih =>
      rw [List.map_cons, inLines, inLines, List.map_append, List.map_append, ih,
        ← Option.toList_map, ← Option.toList_map, inLine?_map_toLower hp]

/-- A whole text without its capitals is hit in the same places. -/
theorem inText_map_toLower (text : List Char) :
    (inText p (text.map Char.toLower)).map (·.extent) = (inText p text).map (·.extent) := by
  rw [inText, inText, ← List.map_toArray, Pattern.matchesIn_map_toLower hp, List.map_map,
    List.map_map]
  refine List.map_congr_left fun m _ => ?_
  simp only [Function.comp_apply, ofSpan, Position.ofOffset_map_toLower]

end Hit

namespace Rule

/-- A rule with a pattern that ignores case hits a text without its capitals in the same places, and
tests it alike. -/
theorem hits_map_toLower {r : Rule} {p : Pattern} {anyCase : Bool}
    (hr : r.detector = .pattern p anyCase) (hp : p.ignoresCase = true) (text : List Char) :
    (r.hits (text.map Char.toLower)).map (·.extent) = (r.hits text).map (·.extent) ∧
      r.test (text.map Char.toLower) = r.test text := by
  constructor
  · simp only [hits, hits?, enabledHits?, hr]
    split
    · split
      · exact Hit.inText_map_toLower hp text
      · rw [Text.lines_map_toLower]
        exact Hit.inLines_map_toLower hp 1 _
    · rfl
  · simp only [test, pattern?, hr, Pattern.foundIn]
    rw [← List.map_toArray, Pattern.search?_map_toLower hp]

/-- The catalogue's rules that are said to ignore case have patterns that ignore it everywhere. -/
theorem ignoresCase_catalogue :
    ∀ r ∈ catalogue, r.caseSensitive = false → ∀ p ∈ r.pattern?, p.ignoresCase = true := by
  decide

/-- **Letter case in rules of the catalogue.**  A rule that ignores case has its hits in the same
places of two texts that differ in the case of ASCII letters only, and it tests them alike. -/
theorem hits_of_map_toLower_eq {r : Rule} (hr : r ∈ Registry.builtin.rules)
    (hcase : r.caseSensitive = false) {text text' : List Char}
    (htexts : text.map Char.toLower = text'.map Char.toLower) :
    ∃ hs hs', r.hits? text = some hs ∧ r.hits? text' = some hs' ∧
      hs.map (·.extent) = hs'.map (·.extent) ∧ r.test text = r.test text' := by
  obtain ⟨p, hdetector⟩ : ∃ p, r.detector = .pattern p true := by
    rw [caseSensitive] at hcase
    split at hcase
    · next p anyCase hdetector =>
        obtain rfl : anyCase = true := by simpa using hcase
        exact ⟨p, hdetector⟩
    · cases hcase
  have hp : p.ignoresCase = true :=
    ignoresCase_catalogue r hr hcase p (by rw [pattern?, hdetector]; rfl)
  have hanswers : ∀ text, ∃ hs, r.hits? text = some hs :=
    fun text => exists_hits? r text (by simp [hdetector])
  obtain ⟨hs, hhs⟩ := hanswers text
  obtain ⟨hs', hhs'⟩ := hanswers text'
  obtain ⟨hextents, htest⟩ := hits_map_toLower hdetector hp text
  obtain ⟨hextents', htest'⟩ := hits_map_toLower hdetector hp text'
  refine ⟨hs, hs', hhs, hhs', ?_, ?_⟩
  · rw [htexts, hextents', hits, hits, hhs, hhs'] at hextents
    exact hextents.symm
  · rw [← htest, htexts, htest']

/-- A placeholder in mixed case, after a line that is none. -/
def mixedCase : List Char := "x = 1\n# ReplaceMe".toList

/-- The same in capitals. -/
def inCapitals : List Char := "X = 1\n# REPLACEME".toList

/-- The rule for placeholders has one hit in either text, in the same place. -/
theorem hits_of_map_toLower_eq_placeholder :
    ∃ r, Registry.builtin.rule? "placeholder_text" = some r ∧ r.caseSensitive = false ∧
      mixedCase.map Char.toLower = inCapitals.map Char.toLower ∧
      ∃ hs hs', r.hits? mixedCase = some hs ∧ r.hits? inCapitals = some hs' ∧
        hs.map (·.extent) = [⟨⟨2, 3⟩, ⟨2, 12⟩⟩] ∧ hs'.map (·.extent) = [⟨⟨2, 3⟩, ⟨2, 12⟩⟩] ∧
        r.test inCapitals = true := by
  obtain ⟨r, hr⟩ := Option.isSome_iff_exists.mp
    (show (Registry.builtin.rule? "placeholder_text").isSome = true by decide +kernel)
  have hfacts : ∀ r ∈ Registry.builtin.rule? "placeholder_text",
      r.caseSensitive = false ∧ r.test mixedCase = true ∧
      (r.hits? mixedCase).map (·.map (·.extent)) = some [⟨⟨2, 3⟩, ⟨2, 12⟩⟩] := by decide +kernel
  obtain ⟨hcase, htest, hextents⟩ := hfacts r hr
  have hmem : r ∈ Registry.builtin.rules := List.mem_of_find?_eq_some hr
  have htexts : mixedCase.map Char.toLower = inCapitals.map Char.toLower := by decide
  obtain ⟨hs, hs', hhs, hhs', hsame, htest'⟩ := hits_of_map_toLower_eq hmem hcase htexts
  rw [hhs] at hextents
  have hextents := Option.some.inj hextents
  exact ⟨r, hr, hcase, htexts, hs, hs', hhs, hhs', hextents, hsame ▸ hextents, htest' ▸ htest⟩

end Rule

end CodeSweep
