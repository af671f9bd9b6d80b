/-
# Written directives

A directive may be written in any case of ASCII letters, with hyphens or underscores, and with blanks
around its parts (`Written`).  Where it stands in a line, the pattern of its kind reads its list of
names (`Written.exists_head?_ends`), and the patterns of the other kinds read nothing
(`Written.ends_eq_nil_of_ne`): after the word that all kinds begin with, they miss a hyphen, or find
one, or another letter behind it.
-/
import CodeSweep.Proofs.Pattern.InTurn
import CodeSweep.Proofs.Pattern.LetterCase
import CodeSweep.Proofs.Suppression.Keyword
import CodeSweep.Proofs.Suppression.Names

namespace CodeSweep

open Pattern Text

namespace Directive

/-! ## How directives are written -/

/-- The ways to write, in lower case, what tells a kind from the others. -/
def Kind.marks : Kind → List (List Char)
  | .file => ["-file".toList, "_file".toList]
  | .line => [[]]
  | .nextLine => ["-next-line".toList, "-next_line".toList, "_next-line".toList,
      "_next_line".toList]

/-- A directive as it may be written: the keyword, the word of all directives, the mark of the kind
and the list of names, with blanks where they are allowed. -/
structure Written where
  kind : Kind
  word : List Char
  blanks : List Char
  command : List Char
  mark : List Char
  blanks' : List Char
  blanks'' : List Char
  list : List Char
  names : List (List Char)
  word_eq : word.map Char.toLower = keyword
  command_eq : command.map Char.toLower = "disable".toList
  mark_mem : mark.map Char.toLower ∈ kind.marks
  isBlank_blanks : ∀ c ∈ blanks, isBlank c = true
  isBlank_blanks' : ∀ c ∈ blanks', isBlank c = true
  isBlank_blanks'' : ∀ c ∈ blanks'', isBlank c = true
  lists : Lists names list

/-- What follows the word of all directives. -/
def Written.tail (w : Written) : List Char := w.mark ++ (w.blanks' ++ '=' :: (w.blanks'' ++ w.list))

/-- The text of a directive. -/
def Written.text (w : Written) : List Char := w.word ++ (w.blanks ++ (w.command ++ w.tail))

/-- A text that begins with a directive, part by part. -/
theorem Written.text_append (w : Written) (rest : List Char) :
    w.text ++ rest = w.word ++ (w.blanks ++ (w.command ++ (w.tail ++ rest))) := by
  simp only [Written.text, List.append_assoc]

/-! ## The parts of the patterns -/

/-- The characters of a word in any letter case. -/
def anyCase (word : List Char) : List CharSet := word.map fun x => (CharSet.single x).ignoreCase

/-- A hyphen or an underscore, as a pattern without regard to letter case has it. -/
def dashSet : CharSet := (CharSet.inside (chars "-_")).ignoreCase

/-- A blank. -/
def blankSet : CharSet := (CharSet.inside blankChars).ignoreCase

/-- What lists of names are made of. -/
def nameSet : CharSet :=
  (CharSet.inside (between 'a' 'z' ++ between '0' '9' ++ chars "_," ++ blankChars)).ignoreCase

/-- The characters that tell a kind from the others. -/
def Kind.sets : Kind → List CharSet
  | .file => dashSet :: anyCase "file".toList
  | .line => []
  | .nextLine => dashSet :: anyCase "next".toList ++ dashSet :: anyCase "line".toList

/-- The end of all patterns: the list of names after an equals sign. -/
def listParts : List Pattern :=
  [many blankSet, one (CharSet.single '=').ignoreCase, many blankSet,
    group "names" (run nameSet 1 none false)]

/-- The pattern of the characters that tell a kind from the others. -/
def Kind.markParts : Kind → List Pattern
  | .line => [empty]
  | kind => kind.sets.map one

/-- The patterns of the kinds differ in one stretch. -/
theorem parts_pattern (kind : Kind) :
    kind.pattern.parts = (anyCase keyword).map one ++ many blankSet ::
      ((anyCase "disable".toList).map one ++ (kind.markParts ++ listParts)) := by
  cases kind <;> rfl

/-- Blanks are those of the pattern. -/
theorem holds_blankSet (c : Char) : blankSet.holds c = isBlank c := by
  simp [blankSet, blankChars, CharSet.ignoreCase, CharSet.inside, CharSet.holds, CharSet.listed,
    CharTest.holdsAnyCase, CharTest.holds]

/-- A capital letter is no blank, and no small letter is one. -/
theorem isBlank_toLower (c : Char) : isBlank c.toLower = isBlank c :=
  apply_toLower (by decide) c

/-- Sets without regard to letter case may be compared with a text in lower case. -/
theorem forall₂_of_map_toLower {sets : List CharSet} {cs : List Char}
    (hsets : ∀ s ∈ sets, s.anyCase = true)
    (h : List.Forall₂ (fun s c => s.holds c = true) sets (cs.map Char.toLower)) :
    List.Forall₂ (fun s c => s.holds c = true) sets cs := by
  rw [List.forall₂_map_right_iff] at h
  induction h with
  | nil => exact .nil
  | cons hc _ ih =>
      rw [List.forall_mem_cons] at hsets
      exact .cons (CharSet.holds_toLower hsets.1 _ ▸ hc) (ih hsets.2)

/-- A word is spelled by its letters in any case. -/
theorem forall₂_anyCase {word cs : List Char} (hcs : cs.map Char.toLower = word)
    (hword : ∀ x ∈ word, x.toNat < 128 ∧ smallLetter x = x) :
    List.Forall₂ (fun s c => s.holds c = true) (anyCase word) cs := by
  refine forall₂_of_map_toLower (by simp [anyCase, CharSet.ignoreCase]) ?_
  rw [hcs, anyCase, List.forall₂_map_left_iff, List.forall₂_same]
  exact fun x hx => spells_self (hword x hx).1 (hword x hx).2

/-- A basic character is one of lists to the pattern if it belongs to a name or separates names. -/
theorem holds_nameSet_of_lt {c : Char} (hlt : c.toNat < 128) :
    nameSet.holds c = (isNameChar c || isSeparator c) :=
  forall_of_toNat_lt (P := fun c => nameSet.holds c = (isNameChar c || isSeparator c))
    (by decide) hlt

/-- A list is made of what the pattern takes for a list. -/
theorem holds_nameSet {c : Char} (hc : isNameChar c = true ∨ isSeparator c = true) :
    nameSet.holds c = true := by
  rcases toNat_lt_or_isBlank hc with hlt | hblank
  · rw [holds_nameSet_of_lt hlt, Bool.or_eq_true]
    exact hc
  · simp [nameSet, blankChars, CharSet.ignoreCase, CharSet.inside, CharSet.holds, CharSet.listed,
      CharTest.holdsAnyCase, CharTest.holds, hblank]

/-- A basic character that is no part of a list is none to the pattern. -/
theorem holds_nameSet_eq_false {c : Char} (hlt : c.toNat < 128) (hname : isNameChar c = false)
    (hsep : isSeparator c = false) : nameSet.holds c = false := by
  rw [holds_nameSet_of_lt hlt, hname, hsep]
  rfl

/-- A blank spells nothing else. -/
theorem holds_single_of_isBlank {x c : Char} (hx : isBlank x = false) (hc : isBlank c = true) :
    (CharSet.single x).ignoreCase.holds c = false := by
  rw [Bool.eq_false_iff]
  intro hspells
  rw [← Spells, spells_iff_mem, caseVariants_of_isBlank hc, List.mem_singleton] at hspells
  rw [hspells, hc] at hx
  cases hx

/-- A hyphen or an underscore. -/
theorem holds_dashSet (c : Char) : dashSet.holds c
    = ((CharSet.single '-').ignoreCase.holds c || (CharSet.single '_').ignoreCase.holds c) := by
  simp [dashSet, chars, CharSet.ignoreCase, CharSet.inside, CharSet.single, CharSet.holds,
    CharSet.listed]

/-! ## Reading a directive -/

section

variable {line rest : List Char} {i : Nat} {g : Groups} (w : Written)

/-- After blanks comes what does not begin with a blank. -/
theorem endsInTurn_blanks {s : CharSet} {ps : List Pattern} {blanks : List Char}
    (hs : ∀ c, isBlank c = true → s.holds c = false) (h : line.drop i = blanks ++ rest)
    (hblanks : ∀ c ∈ blanks, isBlank c = true) (hrest : ∀ c ∈ rest.head?, isBlank c = false) :
    endsInTurn line.toArray (many blankSet :: one s :: ps) i g
      = endsInTurn line.toArray (one s :: ps) (i + blanks.length) g := by
  refine endsInTurn_many h (fun c hc => ?_) (fun c hc => ?_) fun j hj => ?_
  · rw [holds_blankSet, hblanks c hc]
  · rw [holds_blankSet, hrest c hc]
  · obtain ⟨c, hc, hblank⟩ := holdsAt_eq_true_iff.mp hj
    refine endsInTurn_one_of_not ?_
    rw [holdsAt, hc]
    exact hs c (holds_blankSet c ▸ hblank)

/-- The keyword and the word of all directives are read alike by all kinds. -/
theorem Written.exists_ends_eq (h : line.drop i = w.word ++ (w.blanks ++ (w.command ++ rest))) :
    ∃ j, line.drop j = rest ∧ ∀ kind : Kind,
      ends line.toArray kind.pattern i g
        = endsInTurn line.toArray (kind.sets.map one ++ listParts) j g := by
  have hblanks := drop_of_drop h
  have hcommand := drop_of_drop hblanks
  refine ⟨_, drop_of_drop hcommand, fun kind => ?_⟩
  have hfirst : ∀ c ∈ (w.command ++ rest).head?, isBlank c = false := by
    obtain ⟨d, ds, hd, hlower, -⟩ := List.map_eq_cons_iff.mp w.command_eq
    rw [hd]
    intro c hc
    obtain rfl : d = c := Option.some.inj hc
    rw [← isBlank_toLower, hlower]
    decide
  have hmark : ∀ j, endsInTurn line.toArray (kind.markParts ++ listParts) j g
      = endsInTurn line.toArray (kind.sets.map one ++ listParts) j g := by
    intro j
    cases kind with
    | line => exact List.flatMap_singleton ..
    | _ => rfl
  rw [ends_eq_endsInTurn, parts_pattern,
    endsInTurn_ones h (forall₂_anyCase w.word_eq (forall_mem_of_all (by decide))),
    show (anyCase "disable".toList).map one ++ (kind.markParts ++ listParts)
      = one (CharSet.single 'd').ignoreCase ::
        ((anyCase "isable".toList).map one ++ (kind.markParts ++ listParts)) from rfl,
    endsInTurn_blanks (fun c => holds_single_of_isBlank (by decide)) hblanks w.isBlank_blanks
      hfirst, ← hmark]
  exact endsInTurn_ones hcommand
    (forall₂_anyCase w.command_eq (forall_mem_of_all (by decide)))

/-- A directive has the mark that its kind asks for. -/
theorem Written.forall₂_sets :
    List.Forall₂ (fun s c => s.holds c = true) w.kind.sets w.mark := by
  have hmarks : ∀ kind : Kind, ∀ mark ∈ kind.marks,
      List.Forall₂ (fun s c => s.holds c = true) kind.sets mark := by
    rintro (_ | _ | _) <;> decide
  refine forall₂_of_map_toLower ?_ (hmarks w.kind _ w.mark_mem)
  cases w.kind <;> decide

/-- The kind of a directive reads its list of names. -/
theorem Written.exists_head?_ends (h : line.drop i = w.text ++ rest)
    (hrest : ∀ c ∈ rest.head?, nameSet.holds c = false) :
    ∃ j, line.drop j = w.list ++ rest ∧
      (ends line.toArray w.kind.pattern i []).head?
        = some (j + w.list.length, [("names", j, j + w.list.length)]) := by
  obtain ⟨j, hj, heq⟩ := w.exists_ends_eq (g := []) (h.trans (w.text_append rest))
  rw [Written.tail, List.append_assoc, List.append_assoc, List.cons_append, List.append_assoc] at hj
  have hblanks := drop_of_drop hj
  have hvalue := drop_of_drop hblanks
  have hequals : line.drop (j + w.mark.length + w.blanks'.length)
      = ['='] ++ (w.blanks'' ++ (w.list ++ rest)) := hvalue
  have hblanks'' : line.drop (j + w.mark.length + w.blanks'.length + 1)
      = w.blanks'' ++ (w.list ++ rest) := drop_of_drop hequals
  have hlist := drop_of_drop hblanks''
  have hfirst : ∀ c ∈ (w.list ++ rest).head?, blankSet.holds c = false := fun c hc =>
    (holds_blankSet c).trans (w.lists.isBlank_head rest c hc)
  refine ⟨_, hlist, ?_⟩
  rw [heq, endsInTurn_ones hj w.forall₂_sets, listParts,
    endsInTurn_blanks (fun c => holds_single_of_isBlank (by decide)) hblanks w.isBlank_blanks'
      (by simp; decide),
    endsInTurn_one hvalue (spells_self (by decide) (by decide)), many,
    endsInTurn_run hblanks'' (fun c hc => by rw [holds_blankSet, w.isBlank_blanks'' c hc]) hfirst
      (Nat.zero_le _), endsInTurn_group,
    endsInTurn_run hlist (fun c hc => holds_nameSet (w.lists.of_mem c hc)) hrest
      w.lists.length_pos]
  rfl

/-- The characters of the mark, compared in lower case. -/
theorem Written.holdsAt_mark (h : line.drop i = w.mark ++ rest) {s : CharSet}
    (hs : s.anyCase = true) {k : Nat} {x : Char} (hx : (w.mark.map Char.toLower)[k]? = some x) :
    holdsAt s.holds line.toArray (i + k) = s.holds x := by
  rw [List.getElem?_map] at hx
  obtain ⟨c, hc, rfl⟩ := Option.map_eq_some_iff.mp hx
  rw [holdsAt_of_drop h hc, CharSet.holds_toLower hs]

/-- A directive for its own line has no hyphen after the word of all directives. -/
theorem Written.holdsAt_dashSet (hw : w.kind = .line) (h : line.drop i = w.tail ++ rest) :
    holdsAt dashSet.holds line.toArray (i + 0) = false := by
  have hmark : w.mark = [] := by
    have hmem := w.mark_mem
    rw [hw] at hmem
    exact List.map_eq_nil_iff.mp (List.mem_singleton.mp hmem)
  obtain ⟨c, cs, hc, hfirst⟩ : ∃ c cs, w.tail = c :: cs ∧ (isBlank c = true ∨ c = '=') := by
    rw [Written.tail, hmark, List.nil_append]
    cases hblanks : w.blanks' with
    | nil => exact ⟨_, _, rfl, .inr rfl⟩
    | cons c cs => exact ⟨c, _, rfl, .inl (w.isBlank_blanks' c (by simp [hblanks]))⟩
  rw [holdsAt_of_drop h (c := c) (by rw [hc]; rfl), holds_dashSet]
  rcases hfirst with hblank | rfl
  · rw [holds_single_of_isBlank (by decide) hblank, holds_single_of_isBlank (by decide) hblank]
    rfl
  · decide

/-- A directive of another kind has one there, so the list of names cannot follow. -/
theorem Written.endsInTurn_listParts (hw : w.kind ≠ .line) (h : line.drop i = w.mark ++ rest) :
    endsInTurn line.toArray listParts i g = [] := by
  have hmarks : ∀ kind : Kind, kind ≠ .line → ∀ mark ∈ kind.marks,
      ∃ x xs, mark = x :: xs ∧ x ∈ ['-', '_'] := by
    rintro (_ | _ | _) hkind <;> simp [Kind.marks] at hkind ⊢
  have hdashes : ∀ x ∈ ['-', '_'], isBlank x = false ∧
      (CharSet.single '=').ignoreCase.holds x = false := forall_mem_of_all (by decide)
  obtain ⟨x, xs, hmark, hx⟩ := hmarks w.kind hw _ w.mark_mem
  obtain ⟨hblank, hequals⟩ := hdashes x hx
  have hfirst : ∀ c ∈ (line.drop i).head?, isBlank c = false := by
    obtain ⟨c, cs, hc, rfl, -⟩ := List.map_eq_cons_iff.mp hmark
    rw [h, hc]
    rintro d hd
    obtain rfl : c = d := Option.some.inj hd
    rwa [← isBlank_toLower]
  rw [listParts, endsInTurn_blanks (fun c => holds_single_of_isBlank (by decide))
    (List.nil_append _).symm (by simp) hfirst]
  refine endsInTurn_one_of_not ?_
  rw [List.length_nil, w.holdsAt_mark h (k := 0) rfl (by rw [hmark]; rfl), hequals]

/-- **No other kind** reads the directive. -/
theorem Written.ends_eq_nil_of_ne {kind : Kind} (hkind : kind ≠ w.kind)
    (h : line.drop i = w.text ++ rest) : ends line.toArray kind.pattern i g = [] := by
  obtain ⟨j, hj, heq⟩ := w.exists_ends_eq (g := g) (h.trans (w.text_append rest))
  have hmark : line.drop j = w.mark ++ ((w.blanks' ++ '=' :: (w.blanks'' ++ w.list)) ++ rest) := by
    rw [hj, Written.tail, List.append_assoc]
  rw [heq]
  by_cases hw : w.kind = .line
  · cases kind with
    | file => exact endsInTurn_ones_of_not (k := 0) rfl (w.holdsAt_dashSet hw hj)
    | line => exact absurd hw.symm hkind
    | nextLine => exact endsInTurn_ones_of_not (k := 0) rfl (w.holdsAt_dashSet hw hj)
  · by_cases hline : kind = .line
    · rw [hline]
      exact w.endsInTurn_listParts hw hmark
    · -- the letter after the hyphen tells the two kinds apart
      have hapart : ∀ kind other : Kind, kind ≠ other → kind ≠ .line → other ≠ .line →
          ∀ mark ∈ other.marks, ∃ s x, kind.sets[1]? = some s ∧ s.anyCase = true ∧
            mark[1]? = some x ∧ s.holds x = false := by
        rintro (_ | _ | _) (_ | _ | _) <;> simp [Kind.marks, Kind.sets, anyCase] <;> decide
      obtain ⟨s, x, hs, hcase, hx, hnot⟩ := hapart kind w.kind hkind hline hw _ w.mark_mem
      refine endsInTurn_ones_of_not hs ?_
      rw [w.holdsAt_mark hmark hcase hx, hnot]

end

end Directive

end CodeSweep
