/-
# Hits locate their text

A hit tells a stretch of the text by lines and columns, and the characters there.  Line rules count
in lines without carriage returns, text rules by offsets in the whole text, analyses by offsets in
its mask; for all of them the two places lead to offsets of the text, between which these characters
stand (`enabledHits?_locates`).

Where a rule is said to start comes from its matches as well: a line rule has one hit in a line, and
a text rule whose shown group is in the way of every match has them one after the other
(`hits_pairwise`).
-/
import CodeSweep.Proofs.Analysis.Spans
import CodeSweep.Proofs.Text.Position
import CodeSweep.Rule.Hit

namespace CodeSweep

/-! ## Located stretches -/

/-- The extent locates the characters in the text: its two places name offsets of the text, in
order, between which the characters stand, and these offsets have the two places as positions. -/
def Extent.Locates (e : Extent) (text chars : List Char) : Prop :=
  ∃ a b, e.start.offset? text = some a ∧ e.stop.offset? text = some b ∧
    a ≤ b ∧ b ≤ text.length ∧ chars = Text.slice text (a, b) ∧
    Position.ofOffset text a = e.start ∧ Position.ofOffset text b = e.stop

/-- A stretch of a text is located by the positions of its offsets. -/
theorem Extent.locates_of_offsets {e : Extent} {text : List Char} {a b : Nat} (hab : a ≤ b)
    (hb : b ≤ text.length) (hstart : Position.ofOffset text a = e.start)
    (hstop : Position.ofOffset text b = e.stop) :
    e.Locates text (Text.slice text (a, b)) :=
  ⟨a, b, hstart ▸ Position.offset?_ofOffset text a, hstop ▸ Position.offset?_ofOffset text b,
    hab, hb, rfl, hstart, hstop⟩

/-- A stretch of a part of a text is a stretch of the text. -/
theorem Text.slice_append_append (before line after : List Char) (a b : Nat)
    (hb : b ≤ line.length) :
    slice (before ++ (line ++ after)) (before.length + a, before.length + b)
      = slice line (a, b) := by
  unfold slice
  simp only
  rw [List.take_length_add_append, List.take_append_of_le_length hb, List.drop_length_add_append]

namespace Hit

/-! ## Hits in lines -/

/-- The hits in numbered lines are those in each line. -/
theorem mem_inLines {p : Pattern} {number : Nat} {ls : List (List Char)} {h : Hit} :
    h ∈ inLines p number ls ↔
      ∃ k line, ls[k]? = some line ∧ inLine? p (number + k) line = some h := by
  induction ls generalizing number with
  | nil => simp [inLines]
  | cons l ls ih =>
      rw [inLines, List.mem_append, Option.mem_toList, ih]
      constructor
      · rintro (hl | ⟨k, line, hk, hline⟩)
        · exact ⟨0, l, rfl, hl⟩
        · refine ⟨k + 1, line, hk, ?_⟩
          rw [← hline, Nat.add_right_comm, Nat.add_assoc]
      · rintro ⟨k, line, hk, hline⟩
        cases k with
        | zero =>
            obtain rfl : l = line := Option.some.inj hk
            exact Or.inl hline
        | succ k =>
            refine Or.inr ⟨k, line, hk, ?_⟩
            rw [← hline, Nat.add_right_comm, Nat.add_assoc]

/-- A hit in a line comes from a match in it. -/
theorem exists_match_of_inLine? {p : Pattern} {number : Nat} {line : List Char} {h : Hit}
    (hh : inLine? p number line = some h) :
    ∃ m, Pattern.IsMatch p line.toArray m ∧
      h = ⟨⟨⟨number, m.shown.1 + 1⟩, ⟨number, m.shown.2 + 1⟩⟩, Text.slice line m.shown⟩ := by
  rw [inLine?] at hh
  split at hh
  · simp at hh
  · obtain ⟨m, hm, rfl⟩ := Option.map_eq_some_iff.mp hh
    exact ⟨m, (Pattern.search?_isMatch hm).1, rfl⟩

/-- A hit in a line starts in that line. -/
theorem line_of_inLine? {p : Pattern} {number : Nat} {line : List Char} {h : Hit}
    (hh : inLine? p number line = some h) : h.extent.start.line = number := by
  obtain ⟨m, -, rfl⟩ := exists_match_of_inLine? hh
  rfl

/-- The hits in the lines of a text locate their characters. -/
theorem inLines_locates {p : Pattern} {text : List Char} {h : Hit}
    (hh : h ∈ inLines p 1 (Text.lines text)) : h.extent.Locates text h.text := by
  obtain ⟨k, line, hk, hline⟩ := mem_inLines.mp hh
  obtain ⟨m, hm, rfl⟩ := exists_match_of_inLine? hline
  obtain ⟨before, after, htext, hplace⟩ := Text.exists_around_line hk
  obtain ⟨hle, hsize⟩ := hm.shown_bounds
  rw [List.size_toArray] at hsize
  -- the places in the line, shifted by what stands before it
  have hslice : Text.slice line m.shown
      = Text.slice text (before.length + m.shown.1, before.length + m.shown.2) := by
    rw [htext, Text.slice_append_append before line after _ _ hsize]
  rw [hslice]
  refine Extent.locates_of_offsets (Nat.add_le_add_left hle _) ?_ ?_ ?_
  · rw [htext, List.length_append, List.length_append]
    omega
  · rw [hplace _ (Nat.le_trans hle hsize), Nat.add_comm 1]
  · rw [hplace _ hsize, Nat.add_comm 1]

/-- Hits in numbered lines start in different lines, from the first on. -/
theorem inLines_pairwise (p : Pattern) (number : Nat) (ls : List (List Char)) :
    (inLines p number ls).Pairwise fun h h' => h.extent.start.line < h'.extent.start.line := by
  induction ls generalizing number with
  | nil => simp [inLines]
  | cons l ls ih =>
      rw [inLines, List.pairwise_append]
      refine ⟨?_, ih (number + 1), ?_⟩
      · cases inLine? p number l <;> simp
      · intro h hh h' hh'
        obtain ⟨k, line, -, hline⟩ := mem_inLines.mp hh'
        rw [line_of_inLine? (Option.mem_toList.mp hh), line_of_inLine? hline]
        omega

/-! ## Hits in the whole text -/

/-- A stretch of a text as a hit locates its characters. -/
theorem ofSpan_locates {text : List Char} {s : Span} (hs : s.1 ≤ s.2 ∧ s.2 ≤ text.length) :
    (ofSpan text s).extent.Locates text (ofSpan text s).text :=
  Extent.locates_of_offsets hs.1 hs.2 rfl rfl

/-- The hits of a pattern in a whole text locate their characters. -/
theorem inText_locates {p : Pattern} {text : List Char} {h : Hit} (hh : h ∈ inText p text) :
    h.extent.Locates text h.text := by
  obtain ⟨m, hm, rfl⟩ := List.mem_map.mp hh
  have hbounds := (Pattern.isMatch_of_mem_matchesIn hm).shown_bounds
  exact ofSpan_locates hbounds

/-- Stretches of a text that start at different offsets are hits that start at different places. -/
theorem ofSpan_pairwise (text : List Char) {spans : List Span}
    (h : spans.Pairwise fun s s' => s.1 < s'.1) :
    (spans.map (ofSpan text)).Pairwise fun h h' => h.extent.start ≠ h'.extent.start := by
  refine List.pairwise_map.mpr (h.imp ?_)
  intro s s' hlt heq
  have := Position.ofOffset_injective text heq
  omega

/-- If the shown group is in the way of every match, hits in a whole text start at different
places. -/
theorem inText_pairwise {p : Pattern} (hp : Pattern.captures "hit" p = true) (text : List Char) :
    (inText p text).Pairwise fun h h' => h.extent.start ≠ h'.extent.start := by
  have hshown : ((p.matchesIn text.toArray).map Match.shown).Pairwise
      fun s s' => s.1 < s'.1 := by
    refine List.pairwise_map.mpr ((Pattern.matchesIn_pairwise_group hp).imp_of_mem ?_)
    intro m m' hm hm' hbefore
    obtain ⟨a, b, hgroup, -⟩ := (Pattern.isMatch_of_mem_matchesIn hm).exists_group hp
    obtain ⟨a', b', hgroup', -⟩ := (Pattern.isMatch_of_mem_matchesIn hm').exists_group hp
    rw [Match.shown, Match.shown, hgroup, hgroup']
    exact (hbefore _ _ hgroup hgroup').2
  have hhits := ofSpan_pairwise text hshown
  rwa [List.map_map] at hhits

/-! ## Analyses -/

/-- There are two analyses. -/
theorem eq_of_analysisNamed? {name : String} {a : Analysis} (ha : analysisNamed? name = some a) :
    a = Allocation.unchecked ∨ a = Stub.functions := by
  obtain ⟨before, after, hlist, -⟩ := List.lookup_eq_some_iff.mp ha
  have hmem : (name, a) ∈ analyses := by
    rw [hlist]
    simp
  simp only [analyses, List.mem_cons, List.not_mem_nil, or_false, Prod.mk.injEq] at hmem
  rcases hmem with ⟨-, h⟩ | ⟨-, h⟩
  · exact Or.inl h
  · exact Or.inr h

/-- What an analysis reports runs forward and lies in the text. -/
theorem analysis_bounds {name : String} {a : Analysis} (ha : analysisNamed? name = some a)
    {text : List Char} {s : Span} (hs : s ∈ a text) : s.1 < s.2 ∧ s.2 ≤ text.length := by
  rcases eq_of_analysisNamed? ha with rfl | rfl
  · exact Allocation.unchecked_bounds hs
  · exact Stub.functions_bounds hs

/-- What an analysis reports starts at one place after the other. -/
theorem analysis_pairwise {name : String} {a : Analysis} (ha : analysisNamed? name = some a)
    (text : List Char) : (a text).Pairwise fun s s' => s.1 < s'.1 := by
  rcases eq_of_analysisNamed? ha with rfl | rfl
  · exact Allocation.unchecked_pairwise text
  · exact Stub.functions_pairwise text

end Hit

/-! ## Hits of a rule -/

namespace Rule

/-- What a rule can hit: what its analysis reports, nothing, or the matches of its pattern in the
whole text or in the lines. -/
theorem enabledHits?_eq_some {r : Rule} {text : List Char} {hs : List Hit}
    (hhs : r.enabledHits? text = some hs) :
    (∃ a, analysisNamed? r.name = some a ∧ hs = (a text).map (Hit.ofSpan text)) ∨
    hs = [] ∨
    ∃ p anyCase, r.detector = .pattern p anyCase ∧
      (r.scope = .text ∧ hs = Hit.inText p text ∨
        r.scope = .line ∧ hs = Hit.inLines p 1 (Text.lines text)) := by
  rw [enabledHits?] at hhs
  split at hhs
  · obtain ⟨a, ha, rfl⟩ := Option.map_eq_some_iff.mp hhs
    exact .inl ⟨a, ha, rfl⟩
  · exact .inr (.inl (Option.some.inj hhs).symm)
  · next p anyCase hdetector =>
      refine .inr (.inr ⟨p, anyCase, hdetector, ?_⟩)
      split at hhs
      · next hscope => exact .inl ⟨hscope, (Option.some.inj hhs).symm⟩
      · next hscope => exact .inr ⟨hscope, (Option.some.inj hhs).symm⟩

/-- Whatever its detector, a rule locates what it hits. -/
theorem enabledHits?_locates {r : Rule} {text : List Char} {hs : List Hit}
    (hhs : r.enabledHits? text = some hs) : ∀ h ∈ hs, h.extent.Locates text h.text := by
  intro h hh
  rcases enabledHits?_eq_some hhs with ⟨a, ha, rfl⟩ | rfl | ⟨p, -, -, ⟨-, rfl⟩ | ⟨-, rfl⟩⟩
  · obtain ⟨s, hs, rfl⟩ := List.mem_map.mp hh
    obtain ⟨hlt, hle⟩ := Hit.analysis_bounds ha hs
    exact Hit.ofSpan_locates ⟨Nat.le_of_lt hlt, hle⟩
  · simp at hh
  · exact Hit.inText_locates hh
  · exact Hit.inLines_locates hh

/-- A rule, disabled or not, locates what it hits. -/
theorem hits?_locates {r : Rule} {text : List Char} {hs : List Hit}
    (hhs : r.hits? text = some hs) : ∀ h ∈ hs, h.extent.Locates text h.text := by
  rw [hits?] at hhs
  split at hhs
  · exact enabledHits?_locates hhs
  · obtain rfl := Option.some.inj hhs
    simp

/-- There is an answer unless the rule lacks its analysis. -/
theorem exists_hits? (r : Rule) (text : List Char)
    (hr : r.detector = .analysis → (analysisNamed? r.name).isSome) :
    ∃ hs, r.hits? text = some hs := by
  rw [← Option.isSome_iff_exists, hits?]
  split
  · rw [enabledHits?]
    split
    · next h => simpa using hr h
    · rfl
    · split <;> rfl
  · rfl

/-- If the rule matches a pattern in whole texts, the group it shows is in the way of every
match. -/
def showsInEveryMatch (r : Rule) : Bool :=
  match r.detector, r.scope with
  | .pattern p _, .text => Pattern.captures "hit" p
  | _, _ => true

/-- The hits of such a rule start at different places. -/
theorem enabledHits?_pairwise {r : Rule} (hr : r.showsInEveryMatch = true) {text : List Char}
    {hs : List Hit} (hhs : r.enabledHits? text = some hs) :
    hs.Pairwise fun h h' => h.extent.start ≠ h'.extent.start := by
  rcases enabledHits?_eq_some hhs with
    ⟨a, ha, rfl⟩ | rfl | ⟨p, anyCase, hdetector, ⟨hscope, rfl⟩ | ⟨-, rfl⟩⟩
  · exact Hit.ofSpan_pairwise text (Hit.analysis_pairwise ha text)
  · exact List.Pairwise.nil
  · rw [showsInEveryMatch, hdetector, hscope] at hr
    exact Hit.inText_pairwise hr text
  · refine (Hit.inLines_pairwise p 1 (Text.lines text)).imp ?_
    intro h h' hlt heq
    rw [heq] at hlt
    exact Nat.lt_irrefl _ hlt

/-- All hits of such a rule, whether it is enabled or not, start at different places. -/
theorem hits_pairwise {r : Rule} (hr : r.showsInEveryMatch = true) (text : List Char) :
    (r.hits text).Pairwise fun h h' => h.extent.start ≠ h'.extent.start := by
  rw [hits, hits?]
  split
  · cases hhs : r.enabledHits? text with
    | none => simp
    | some hs => exact enabledHits?_pairwise hr hhs
  · simp

/-- A hit of a rule is one of its answer. -/
theorem exists_hits?_of_mem {r : Rule} {text : List Char} {h : Hit} (hh : h ∈ r.hits text) :
    ∃ hs, r.hits? text = some hs ∧ h ∈ hs := by
  rw [hits] at hh
  cases hhs : r.hits? text with
  | none => simp [hhs] at hh
  | some hs => exact ⟨hs, rfl, by simpa [hhs] using hh⟩

end Rule

end CodeSweep
