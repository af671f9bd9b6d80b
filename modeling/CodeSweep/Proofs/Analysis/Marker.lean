/-
# Where the marker of a stub stands

A stub is reported for a marker in its body, and the marker is meant to stand in a comment or in a
string, where the mask does not show all of it.  But the body is searched as it stands in the text,
and some placeholders have a place for a name: a cast, a discarded variable, the argument of a call,
a failing assertion.  There a marker may stand as code (`markers_shown_discarding`).

Nowhere else: if the mask shows a marker, one of the statements holds a word of it and is not one of
those without a place for a name (`marker_of_mem_functions`).  The words of a marker cannot be
spelled with the characters of such a statement in their order.
-/
import CodeSweep.Proofs.Analysis.Shape
import CodeSweep.Proofs.Pattern.Holds
import CodeSweep.Proofs.Text.Words

namespace CodeSweep.Stub

open Pattern

/-! ## Bodies and markers -/

/-- The stretch is the body of a function whose name is reported as `s`. -/
def IsBody (text : List Char) (s body : Span) : Prop :=
  ∃ m ∈ functionHead.matchesIn (mask .slashes text).toArray,
    report? text (mask .slashes text) m = some s ∧ m.stop = body.1 ∧
      Block.close? (mask .slashes text) (m.stop - 1) '{' '}' = some body.2

/-- The match of a marker begins in the body and ends there. -/
def IsMarker (text : List Char) (body : Span) (m : Match) : Prop :=
  IsMatch marker (text.take body.2).toArray m ∧ body.1 ≤ m.start

/-- Words one of which is in every marker. -/
def markerWords : List (List Char) :=
  ["TODO", "FIXME", "XXX", "stub", "unimplemented", "implemented"].map String.toList

/-- The statement holds a word of a marker, in any letter case. -/
def HoldsMarkerWord (stmt : List Char) : Prop :=
  ∃ word ∈ markerWords, ∃ cs, List.Forall₂ Spells word cs ∧ cs <:+: stmt

/-- The statement is a placeholder. -/
def IsPlaceholder (stmt : List Char) : Prop :=
  (placeholder.fullMatchAt? stmt.toArray 0).isSome = true

/-- A placeholder without a place for a name: a bare return, or a call without arguments. -/
def bareStatement : Pattern :=
  anyOf ["return" ++ optional (gap1 ++ anyWord ["0", "-1", "NULL", "nullptr", "false"]),
    anyWord ["abort", "exit"] ++ gap ++ "(" ++ gap ++ ")"]

/-- The statement is such a placeholder. -/
def IsBare (stmt : List Char) : Prop :=
  (bareStatement.fullMatchAt? stmt.toArray 0).isSome = true

/-! ## Bare statements hold no marker -/

/-- The characters of bare statements. -/
def bareAlphabet : List Char := " \t()-01NULLabefilnoprstux".toList

/-- Bare statements are made of these. -/
theorem onlySets_bareStatement : onlySets (CharSet.isWithin bareAlphabet) bareStatement = true := by
  decide

/-- With these characters only words can be spelled that begin with two of the letter `x`, or with
an `s` and a `t`. -/
theorem isPrefix_of_mem_spellings : ∀ cs ∈ markerWords.flatMap (spellings bareAlphabet),
    ['x', 'x'] <+: cs ∨ ['s', 't'] <+: cs := by
  decide

/-- In bare statements no two of the letter `x` stand, and no `t` after an `s`. -/
theorem noneAfter_bareStatement :
    noneAfter 'x' 'x' bareStatement = true ∧ noneAfter 's' 't' bareStatement = true := by
  decide

/-- **No word of a marker** stands in a bare statement. -/
theorem not_isBare {stmt : List Char} (h : HoldsMarkerWord stmt) : ¬ IsBare stmt := by
  intro hbare
  obtain ⟨m, hm⟩ := Option.isSome_iff_exists.mp hbare
  obtain ⟨e, he, hfull⟩ := exists_end_of_runAt hm
  rw [Option.ite_none_right_eq_some, List.size_toArray] at hfull
  obtain ⟨hstop, -⟩ := hfull
  obtain ⟨word, hword, cs, hspells, before, after, rfl⟩ := h
  have hchars : ∀ c ∈ before ++ cs ++ after, c ∈ bareAlphabet := by
    intro c hc
    obtain ⟨k, hk, hget⟩ := List.mem_iff_getElem.mp hc
    obtain ⟨d, hd, hmem⟩ := exists_of_onlySets (P := (· ∈ bareAlphabet))
      (fun s hs c hc => CharSet.mem_of_isWithin hs hc) onlySets_bareStatement e he k
      (Nat.zero_le k) (by omega)
    rw [List.getElem?_toArray, List.getElem?_eq_getElem hk, hget] at hd
    exact Option.some.inj hd ▸ hmem
  -- two characters next to each other in the statement
  have hnext : ∀ a b : Char, [a, b] <+: cs → noneAfter a b bareStatement = true → False := by
    rintro a b ⟨more, rfl⟩ hnone
    refine ne_of_noneAfter hnone e he before.length (before.length + 1) (Nat.zero_le _)
      (Nat.lt_succ_self _) ?_ ?_ ?_
    · rw [hstop]
      simp only [List.length_append, List.length_cons]
      omega
    · simp
    · simp
  have hmem : cs ∈ markerWords.flatMap (spellings bareAlphabet) := by
    refine List.mem_flatMap.mpr ⟨word, hword, mem_spellings hspells fun c hc => hchars c ?_⟩
    simp [hc]
  rcases isPrefix_of_mem_spellings cs hmem with hxx | hst
  · exact hnext 'x' 'x' hxx noneAfter_bareStatement.1
  · exact hnext 's' 't' hst noneAfter_bareStatement.2

/-! ## Markers that the mask shows -/

/-- Every match of the marker holds one of its words. -/
theorem holdsOneOf_marker :
    marker.holdsOneOf (markerWords.map fun word => (ofChars word).ignoreCase) = true := by
  decide

/-- What spells a word of the marker holds no semicolon. -/
theorem not_spells_semicolon : ∀ word ∈ markerWords, ∀ x ∈ word, ¬ Spells x ';' := by
  have hall : ∀ word ∈ markerWords, (word.all fun x => ¬ Spells x ';') = true := by
    decide
  exact fun word hword => Text.forall_mem_of_all (hall word hword)

/-- What spells a word of the marker holds no blank. -/
theorem not_spells_blank : ∀ word ∈ markerWords, ∀ x ∈ word, ∀ n ∈ Text.blankCodes,
    ¬ Spells x (Char.ofNat n) := by
  have hall : ∀ word ∈ markerWords, (word.all fun x =>
      ∀ n ∈ Text.blankCodes, ¬ Spells x (Char.ofNat n)) = true := by decide
  exact fun word hword => Text.forall_mem_of_all (hall word hword)

/-- The words say something. -/
theorem ne_nil_of_mem_markerWords : ∀ word ∈ markerWords, word ≠ [] := by decide

section

variable {text : List Char} {body : Span} {m : Match}

/-- A marker holds what spells one of its words. -/
theorem exists_spelling (hm : IsMarker text body m) :
    ∃ word ∈ markerWords, ∃ i j, List.Forall₂ Spells word (Text.slice text (i, j)) ∧
      m.start ≤ i ∧ i ≤ j ∧ j ≤ m.stop ∧ m.stop ≤ body.2 := by
  obtain ⟨q, hq, i, g, f, hf, hstart, hstop⟩ :=
    exists_of_holdsOneOf holdsOneOf_marker _ hm.1.mem_ends
  obtain ⟨word, hword, rfl⟩ := List.mem_map.mp hq
  have hle := hm.1.bounds.2.1
  rw [List.size_toArray, List.length_take] at hle
  simp only at hstop
  have hspells := forall₂_spells hf
  have hsame : Text.slice (text.take body.2) (i, f.1) = Text.slice text (i, f.1) :=
    Text.slice_congr fun k _ hk => List.getElem?_take_of_lt (by omega)
  rw [hsame] at hspells
  exact ⟨word, hword, i, f.1, hspells, hstart, le_of_mem_ends hf, hstop, by omega⟩

/-- **A marker that the mask shows** leaves a word in one of the statements. -/
theorem exists_holdsMarkerWord (hm : IsMarker text body m)
    (hshown : ∀ k, m.start ≤ k → k < m.stop → (mask .slashes text)[k]? = text[k]?) :
    ∃ stmt ∈ statements (Text.slice (mask .slashes text) body), HoldsMarkerWord stmt := by
  obtain ⟨word, hword, i, j, hspells, hstart, hij, hstop, hbody⟩ := exists_spelling hm
  have hsame : Text.slice text (i, j) = Text.slice (mask .slashes text) (i, j) :=
    Text.slice_congr fun k hik hkj => (hshown k (by omega) (by omega)).symm
  have hin : Text.slice text (i, j) <:+: Text.slice (mask .slashes text) body := by
    rw [hsame]
    exact Text.isInfix_slice (Nat.le_trans hm.2 hstart) hij (Nat.le_trans hstop hbody)
  have hletter := exists_spells_of_mem hspells
  have hsemicolon : ∀ c ∈ Text.slice text (i, j), (c == ';') = false := by
    intro c hc
    obtain ⟨x, hx, hxc⟩ := hletter c hc
    rw [beq_eq_false_iff_ne]
    rintro rfl
    exact not_spells_semicolon word hword x hx hxc
  have hblank : ∀ c ∈ Text.slice text (i, j), Text.isBlank c = false := by
    intro c hc
    obtain ⟨x, hx, hxc⟩ := hletter c hc
    rw [← Bool.not_eq_true]
    intro hblank
    exact Text.forall_of_isBlank (P := fun c => ¬ Spells x c)
      (not_spells_blank word hword x hx) hblank hxc
  have hne : Text.slice text (i, j) ≠ [] := by
    intro hnil
    rw [hnil, List.forall₂_nil_right_iff] at hspells
    exact ne_nil_of_mem_markerWords word hword hspells
  -- what spells the word stands in one piece, and in the words of that piece put together
  obtain ⟨piece, hpiece, hinPiece⟩ := Text.exists_isInfix_piece hsemicolon hin
  have hinWords := Text.isInfix_joinWith_words hne hblank hinPiece [' ']
  refine ⟨_, List.mem_filter.mpr ⟨List.mem_map.mpr ⟨piece, hpiece, rfl⟩, ?_⟩,
    word, hword, _, hspells, hinWords⟩
  have hstmt : Text.joinWith [' '] (Text.words piece) ≠ [] := fun hnil =>
    hne (List.infix_nil.mp (hnil ▸ hinWords))
  simpa using hstmt

end

/-! ## Reports -/

/-- The body of every function that is reported holds a marker. -/
theorem exists_isMarker {text : List Char} {s body : Span} (h : IsBody text s body) :
    ∃ m, IsMarker text body m := by
  obtain ⟨head, hhead, hreport, hstart, hclose⟩ := h
  obtain ⟨-, -, stop, hstop, -, hmarker⟩ := report?_eq_some_iff.mp hreport
  obtain rfl : stop = body.2 := Option.some.inj (hstop.symm.trans hclose)
  obtain ⟨m, hm⟩ := Option.isSome_iff_exists.mp hmarker
  have hpos : head.start < head.stop :=
    (of_mem_ends_seq_single (isMatch_of_mem_matchesIn hhead).mem_ends).1
  obtain ⟨hmatch, hle⟩ := search?_isMatch hm
  exact ⟨m, hmatch, by omega⟩

/-- Every function that is reported has a body. -/
theorem exists_isBody {text : List Char} {s : Span} (hs : s ∈ functions text) :
    ∃ body, IsBody text s body := by
  obtain ⟨m, hm, h⟩ := List.mem_filterMap.mp hs
  obtain ⟨-, -, stop, hclose, -⟩ := report?_eq_some_iff.mp h
  exact ⟨(m.stop, stop), m, hm, h, rfl, hclose⟩

/-- The statements of the body are placeholders. -/
theorem isPlaceholder_of_isBody {text : List Char} {s body : Span} (h : IsBody text s body) :
    ∀ stmt ∈ statements (Text.slice (mask .slashes text) body), IsPlaceholder stmt := by
  obtain ⟨head, hhead, hreport, hstart, hclose⟩ := h
  obtain ⟨-, -, stop, hstop, hbody, -⟩ := report?_eq_some_iff.mp hreport
  have hpos : head.start < head.stop :=
    (of_mem_ends_seq_single (isMatch_of_mem_matchesIn hhead).mem_ends).1
  have hsame : (head.stop - 1 + 1, stop) = body :=
    Prod.ext (by simp only; omega) (Option.some.inj (hstop.symm.trans hclose))
  rw [hsame, isPlaceholderBody, Bool.and_eq_true] at hbody
  exact List.all_eq_true.mp hbody.2

/-- **Where markers stand.**  A function that is reported has a body with a marker, and the mask
does not show all of any marker there, unless the marker leaves a word in one of the placeholders
with a place for a name: a cast, a discarded variable, a call with an argument or an assertion. -/
theorem marker_of_mem_functions {text : List Char} {s : Span} (hs : s ∈ functions text) :
    (∃ body, IsBody text s body) ∧ ∀ body, IsBody text s body →
      (∃ m, IsMarker text body m) ∧ ∀ m, IsMarker text body m →
        (∃ k, m.start ≤ k ∧ k < m.stop ∧ (mask .slashes text)[k]? ≠ text[k]?) ∨
        ∃ stmt ∈ statements (Text.slice (mask .slashes text) body),
          IsPlaceholder stmt ∧ ¬ IsBare stmt ∧ HoldsMarkerWord stmt := by
  refine ⟨exists_isBody hs, fun body hbody => ⟨exists_isMarker hbody, fun m hm => ?_⟩⟩
  refine Classical.or_iff_not_imp_left.mpr fun hshown => ?_
  have hsame : ∀ k, m.start ≤ k → k < m.stop → (mask .slashes text)[k]? = text[k]? := by
    intro k hle hlt
    exact Classical.byContradiction fun hne => hshown ⟨k, hle, hlt, hne⟩
  obtain ⟨stmt, hstmt, hword⟩ := exists_holdsMarkerWord hm hsame
  exact ⟨stmt, hstmt, isPlaceholder_of_isBody hbody stmt hstmt, not_isBare hword, hword⟩

/-- A stub with a marker in a comment and a bare statement. -/
def commentedStub : List Char := "int f(void) \x7b return 0; /* TODO */ \x7d".toList

/-- As the statement is bare, the mask does not show all of the marker. -/
theorem marker_of_mem_functions_commented :
    (4, 5) ∈ functions commentedStub ∧ IsBody commentedStub (4, 5) (13, 35) ∧
      ∃ m, IsMarker commentedStub (13, 35) m ∧
        ∃ k, m.start ≤ k ∧ k < m.stop ∧
          (mask .slashes commentedStub)[k]? ≠ commentedStub[k]? := by
  have hmem : (4, 5) ∈ functions commentedStub := by decide +kernel
  have hbody : IsBody commentedStub (4, 5) (13, 35) := by
    unfold IsBody
    decide +kernel
  have hbare : ∀ stmt ∈ statements (Text.slice (mask .slashes commentedStub) (13, 35)),
      IsBare stmt := by
    unfold IsBare
    decide +kernel
  obtain ⟨⟨m, hm⟩, hmarkers⟩ := (marker_of_mem_functions hmem).2 (13, 35) hbody
  refine ⟨hmem, hbody, m, hm, ?_⟩
  rcases hmarkers m hm with hhidden | ⟨stmt, hstmt, -, hnot, -⟩
  · exact hhidden
  · exact absurd (hbare stmt hstmt) hnot

/-- A stub without comments and strings that discards a variable called like a marker. -/
def discardingStub : List Char := "int f(void) \x7b (void)stub; return 0; \x7d".toList

/-- The function is reported although the mask shows all of the text. -/
theorem markers_shown_discarding :
    ∃ s ∈ functions discardingStub, ¬ ∃ body, IsBody discardingStub s body ∧
      ∃ m, IsMarker discardingStub body m ∧
        ∃ k, m.start ≤ k ∧ k < m.stop ∧
          (mask .slashes discardingStub)[k]? ≠ discardingStub[k]? := by
  have hmask : mask .slashes discardingStub = discardingStub := by decide +kernel
  refine ⟨(4, 5), by decide +kernel, ?_⟩
  rintro ⟨body, -, m, -, k, -, -, hhidden⟩
  exact hhidden (by rw [hmask])

end CodeSweep.Stub
