/-
# Directives read back

A written directive is read as it is written from a line with no other keyword: the names of its
list, in lower case, are those silenced where its kind reaches (`ofLines_written`).  The keyword of
the directive is the only one of the line (`place_of_keyword`), so nothing is silenced elsewhere,
unless the text after the directive makes a keyword of the end of the list.
-/
import CodeSweep.Proofs.Suppression.Reach
import CodeSweep.Proofs.Suppression.Written
import Mathlib.Data.List.Infix

namespace CodeSweep

open Pattern Text

namespace Directive

/-! ## The only keyword -/

/-- A stretch of the text spells the keyword. -/
def HasKeyword (text : List Char) : Prop := ∃ cs, cs <:+: text ∧ IsKeyword cs

instance (text : List Char) : Decidable (HasKeyword text) :=
  decidable_of_iff (∃ ts ∈ text.tails, ∃ cs ∈ ts.inits, IsKeyword cs) <| by
    simp only [HasKeyword, List.infix_iff_prefix_suffix, List.mem_tails, List.mem_inits]
    constructor
    · rintro ⟨ts, hts, cs, hcs, h⟩
      exact ⟨cs, ⟨ts, hcs, hts⟩, h⟩
    · rintro ⟨cs, ⟨ts, hcs, hts⟩, h⟩
      exact ⟨ts, hts, cs, hcs, h⟩

/-- What spells a letter of the keyword and is basic is the letter in lower case. -/
theorem toLower_eq_of_spells {x c : Char} (hx : x ∈ "slop".toList) (hc : c.toNat < 128)
    (h : Spells x c) : c.toLower = x := by
  have hkeyword : x ∈ keyword := List.mem_append_left [':'] hx
  rcases (spells_iff hkeyword).mp h with hsmall | ⟨-, rfl⟩
  · rw [← smallLetter_eq_toLower hc, hsmall]
  · exact absurd hc (by decide)

/-- The letters of the keyword are spelled by no basic character that is not of names, and by no
blank. -/
theorem not_spells {x c : Char} (hx : x ∈ "slop".toList)
    (hc : c.toNat < 128 ∧ isNameChar c = false ∨ isBlank c = true) : ¬ Spells x c := by
  rcases hc with ⟨hlt, hname⟩ | hblank
  · intro hspells
    have hletters : ∀ x ∈ "slop".toList, isNameChar x = true := forall_mem_of_all (by decide)
    have hnone : isNameChar c.toLower = false := hname ▸ isNameChar_toLower c
    rw [toLower_eq_of_spells hx hlt hspells, hletters x hx] at hnone
    cases hnone
  · have hletters : ∀ x ∈ "slop".toList, isBlank x = false := forall_mem_of_all (by decide)
    exact Bool.eq_false_iff.mp (holds_single_of_isBlank (hletters x hx) hblank)

/-- What spells a word of the keyword with characters of a list is the word in lower case. -/
theorem map_toLower_eq {word cs : List Char} (h : List.Forall₂ Spells word cs)
    (hword : ∀ x ∈ word, x ∈ "slop".toList)
    (hcs : ∀ c ∈ cs, isNameChar c = true ∨ isSeparator c = true) : cs.map Char.toLower = word := by
  induction h with
  | nil => rfl
  | @cons x c xs cs hspells _ ih =>
      rw [List.forall_mem_cons] at hword hcs
      have hlower : c.toLower = x := by
        rcases toNat_lt_or_isBlank hcs.1 with hlt | hblank
        · exact toLower_eq_of_spells hword.1 hlt hspells
        · exact absurd hspells (not_spells hword.1 (.inr hblank))
      rw [List.map_cons, hlower, ih hword.2 hcs.2]

/-- What spells the keyword ends with its colon. -/
theorem IsKeyword.exists_eq_append {cs : List Char} (h : IsKeyword cs) :
    ∃ ws, cs = ws ++ [':'] ∧ List.Forall₂ Spells "slop".toList ws := by
  have hcolon : ∀ {c : Char}, Spells ':' c → c = ':' := fun hc =>
    ((spells_iff (by decide)).mp hc).elim
      (eq_of_smallLetter (by decide) (by decide) (by decide +kernel))
      fun h => absurd h.1 (by decide)
  rw [IsKeyword, show keyword = "slop".toList ++ [':'] from rfl] at h
  have hcolon' := List.forall₂_drop_append cs "slop".toList [':'] h.flip
  obtain ⟨c, rest, hc, hrest, hdrop⟩ := List.forall₂_cons_right_iff.mp hcolon'
  rw [List.forall₂_nil_right_iff.mp hrest, hcolon hc] at hdrop
  refine ⟨cs.take 4, ?_, (List.forall₂_take_append cs "slop".toList [':'] h.flip).flip⟩
  rw [← hdrop]
  exact (List.take_append_drop 4 cs).symm

/-- A character in two texts one after the other stands in the first one or in the second one. -/
theorem exists_of_cons_eq_append {xs ys us vs : List Char} {c : Char}
    (h : xs ++ c :: ys = us ++ vs) :
    (∃ ts, us = xs ++ c :: ts) ∨ ∃ ts, xs = us ++ ts ∧ vs = ts ++ c :: ys := by
  rcases List.append_eq_append_iff.mp h with ⟨ts, hus, hvs⟩ | ⟨ts, hxs, hvs⟩
  · cases ts with
    | nil => exact .inr ⟨[], by rw [hus, List.append_nil, List.append_nil], hvs.symm⟩
    | cons t ts =>
        obtain ⟨rfl, -⟩ := List.cons.inj hvs
        exact .inl ⟨ts, hus⟩
  · exact .inr ⟨ts, hxs, hvs⟩

/-- What does not hold the last character before a text ends in the text. -/
theorem isSuffix_of_not_mem {ws xs ys : List Char} (h : ws <:+ xs ++ ys)
    (hlast : ∀ x ∈ xs.getLast?, x ∉ ws) : ws <:+ ys := by
  obtain ⟨front, hfront⟩ := h
  rcases List.append_eq_append_iff.mp hfront with ⟨ts, hxs, hws⟩ | ⟨ts, -, hys⟩
  · rcases List.eq_nil_or_concat ts with rfl | ⟨ts, t, rfl⟩
    · exact ⟨[], hws⟩
    · refine absurd ?_ (hlast t (by rw [hxs]; simp))
      rw [hws]
      simp
  · exact ⟨ts, hys.symm⟩

/-- The text of a directive has one colon, after the letters of the keyword. -/
theorem Written.exists_text_eq (w : Written) :
    ∃ letters rest, w.text = letters ++ ':' :: rest ∧ letters.length = 4 ∧ ':' ∉ letters ∧
      ':' ∉ rest := by
  have hlower : ∀ {cs : List Char}, ':' ∈ cs → ':' ∈ cs.map Char.toLower :=
    fun hmem => List.mem_map.mpr ⟨':', hmem, by decide⟩
  have hblanks : ∀ {cs : List Char}, (∀ c ∈ cs, isBlank c = true) → ':' ∉ cs :=
    fun h hmem => absurd (h ':' hmem) (by decide)
  obtain ⟨letters, colon, hword, hletters, hend⟩ :=
    List.map_eq_append_iff.mp (w.word_eq.trans (show keyword = "slop".toList ++ [':'] from rfl))
  obtain ⟨c, hc, hlast⟩ := List.map_eq_singleton_iff.mp hend
  refine ⟨letters, w.blanks ++ (w.command ++ w.tail), ?_, ?_, fun hmem => ?_, ?_⟩
  · rw [Written.text, hword, hc, (toLower_eq_iff (by decide) c).mp hlast, List.append_assoc]
    rfl
  · rw [← List.length_map, hletters]
    rfl
  · exact absurd (hletters ▸ hlower hmem) (by decide)
  · have hcommand : ':' ∉ w.command :=
      fun hmem => absurd (w.command_eq ▸ hlower hmem) (by decide)
    have hmark : ':' ∉ w.mark := by
      have hmarks : ∀ kind : Kind, ∀ mark ∈ kind.marks, ':' ∉ mark := by
        rintro (_ | _ | _) <;> decide
      exact fun hmem => hmarks w.kind _ w.mark_mem (hlower hmem)
    have hlist : ':' ∉ w.list :=
      fun hmem => (w.lists.of_mem ':' hmem).elim (by decide) (by decide)
    simp only [Written.tail, List.mem_append, List.mem_cons, not_or]
    exact ⟨hblanks w.isBlank_blanks, hcommand, hmark, hblanks w.isBlank_blanks', by decide,
      hblanks w.isBlank_blanks'', hlist⟩

/-- Letters of the keyword at the end of a directive stand in its list. -/
theorem Written.isSuffix_list (w : Written) {before ws : List Char}
    (hws : List.Forall₂ Spells "slop".toList ws) (h : ws <:+ before ++ w.text) :
    "slop".toList <:+ w.list.map Char.toLower := by
  have hnot : ∀ c, c = '=' ∨ isBlank c = true → c ∉ ws := by
    intro c hc hmem
    obtain ⟨x, hx, hspells⟩ := exists_spells_of_mem hws c hmem
    exact not_spells hx (hc.imp_left fun h => h ▸ ⟨by decide, by decide⟩) hspells
  have hlist : ws <:+ w.list := by
    have hline : before ++ w.text = (before ++ (w.word ++ (w.blanks ++ (w.command ++
        (w.mark ++ w.blanks')))) ++ '=' :: w.blanks'') ++ w.list := by
      simp [Written.text, Written.tail]
    refine isSuffix_of_not_mem (hline ▸ h) fun c hc => hnot c ?_
    rw [List.getLast?_append_of_ne_nil _ (List.cons_ne_nil _ _)] at hc
    exact (List.mem_cons.mp (List.mem_of_getLast? hc)).imp_right (w.isBlank_blanks'' c)
  rw [← map_toLower_eq hws (fun _ => id) fun c hc => w.lists.of_mem c (hlist.subset hc)]
  exact hlist.map Char.toLower

/-- **The only keyword** of a line is that of the directive, unless the end of the list and a colon
after it spell one. -/
theorem Written.place_of_keyword (w : Written) {before after as cs bs : List Char}
    (hbefore : ¬ HasKeyword before) (hafter : ¬ HasKeyword after)
    (hstop : ∀ c ∈ after.head?, c.toNat < 128 ∧ isNameChar c = false)
    (h : before ++ w.text ++ after = as ++ cs ++ bs) (hcs : IsKeyword cs) :
    as.length = before.length ∨ before.length < as.length ∧ after.head? = some ':' ∧
      "slop".toList <:+ w.list.map Char.toLower := by
  obtain ⟨ws, rfl, hws⟩ := hcs.exists_eq_append
  obtain ⟨letters, rest, htext, hletters, hcolon, hcolon'⟩ := w.exists_text_eq
  have hlength : ws.length = 4 := hws.length_eq.symm
  have hline : (as ++ ws) ++ ':' :: bs = before ++ (w.text ++ after) := by
    simpa using h.symm
  rcases exists_of_cons_eq_append hline with ⟨ts, hts⟩ | ⟨ts, has, hrest⟩
  · -- the colon stands before the directive, and so does the whole keyword
    exact absurd ⟨_, ⟨as, ts, by simp [hts]⟩, hcs⟩ hbefore
  · rcases exists_of_cons_eq_append hrest.symm with ⟨us, hus⟩ | ⟨us, rfl, rfl⟩
    · -- the colon is that of the directive
      rw [htext] at hus
      obtain ⟨rfl, -⟩ := (List.append_cons_inj_of_notMem hcolon hcolon').mp hus
      have hlengths := congrArg List.length has
      rw [List.length_append, List.length_append] at hlengths
      exact .inl (by omega)
    · -- the colon stands after the directive
      rw [← List.append_assoc] at has
      rcases List.append_eq_append_iff.mp has with ⟨vs, hvs, rfl⟩ | ⟨vs, -, rfl⟩
      · cases us with
        | nil =>
            rw [List.append_nil] at hws hlength
            refine .inr ⟨?_, rfl, ?_⟩
            · have hlengths := congrArg List.length hvs
              rw [List.length_append, List.length_append, htext, List.length_append,
                List.length_cons] at hlengths
              omega
            · exact w.isSuffix_list hws ⟨as, hvs.symm⟩
        | cons u us =>
            obtain ⟨x, hx, hspells⟩ := exists_spells_of_mem hws u (by simp)
            exact absurd hspells (not_spells hx (.inl (hstop u rfl)))
      · exact absurd ⟨_, ⟨vs, bs, by simp⟩, hcs⟩ hafter

/-! ## Reading a line -/

/-- The names of a directive as they are kept. -/
def Written.lowerNames (w : Written) : List String :=
  w.names.map fun name => String.ofList (name.map Char.toLower)

/-- The list of names and a colon after it spell the keyword. -/
def Written.Joins (w : Written) (after : List Char) : Prop :=
  after.head? = some ':' ∧ "slop".toList <:+ w.list.map Char.toLower

instance (w : Written) (after : List Char) : Decidable (w.Joins after) :=
  inferInstanceAs (Decidable (after.head? = some ':' ∧ "slop".toList <:+ w.list.map Char.toLower))

section

variable (w : Written) {before after : List Char}
  (hbefore : ¬ HasKeyword before) (hafter : ¬ HasKeyword after)
  (hstop : ∀ c ∈ after.head?, c.toNat < 128 ∧ isNameChar c = false ∧ isSeparator c = false)

include hbefore hafter hstop

/-- A kind is matched in the line where the directive begins, or after it if the list joins a
keyword. -/
theorem Written.of_mem_ends {kind : Kind} {i : Nat} (hi : i ≤ (before ++ w.text ++ after).length)
    {e : End} (he : e ∈ ends (before ++ w.text ++ after).toArray kind.pattern i []) :
    i = before.length ∨ before.length < i ∧ w.Joins after := by
  obtain ⟨as, cs, bs, hline, rfl, hcs⟩ := exists_keyword hi he
  exact w.place_of_keyword hbefore hafter (fun c hc => ⟨(hstop c hc).1, (hstop c hc).2.1⟩) hline hcs

/-- The directive is found, with its names. -/
theorem Written.find?_kind (reach : Reach) :
    find? w.kind.pattern reach (before ++ w.text ++ after) = some ⟨reach, w.lowerNames⟩ := by
  have hdrop : (before ++ w.text ++ after).drop before.length = w.text ++ after := by
    rw [List.append_assoc, List.drop_left]
  have hrest : ∀ c ∈ after.head?, nameSet.holds c = false := fun c hc =>
    holds_nameSet_eq_false (hstop c hc).1 (hstop c hc).2.1 (hstop c hc).2.2
  obtain ⟨j, hj, hends⟩ := w.exists_head?_ends hdrop hrest
  have hmatch : w.kind.pattern.matchAt? (before ++ w.text ++ after).toArray before.length
      = some ⟨before.length, j + w.list.length, [("names", j, j + w.list.length)]⟩ := by
    rw [matchAt?_eq, hends]
    rfl
  have hearlier : ∀ i < before.length,
      ends (before ++ w.text ++ after).toArray w.kind.pattern i [] = [] := by
    intro i hi
    refine List.eq_nil_iff_forall_not_mem.mpr fun e he => ?_
    have hle : i ≤ (before ++ w.text ++ after).length := by
      rw [List.length_append, List.length_append]
      omega
    rcases w.of_mem_ends hbefore hafter hstop hle he with h | ⟨h, -⟩ <;> omega
  have hsearch := search?_of_first (by simp) hearlier hmatch
  have hslice : slice (before ++ w.text ++ after) (j, j + w.list.length) = w.list := by
    rw [slice, List.drop_take, hj, Nat.add_sub_cancel_left, List.take_left]
  simp only [find?, hsearch, Match.group?, Option.bind_eq_bind, Option.bind_some,
    List.lookup_cons_self, hslice, namesIn_of_lists w.lists, Written.lowerNames]
  rfl

/-- No other kind is found if the list joins no keyword. -/
theorem Written.find?_other (hjoins : ¬ w.Joins after) {kind : Kind} (hkind : kind ≠ w.kind)
    (reach : Reach) : find? kind.pattern reach (before ++ w.text ++ after) = none := by
  have hdrop : (before ++ w.text ++ after).drop before.length = w.text ++ after := by
    rw [List.append_assoc, List.drop_left]
  rw [← Option.isNone_iff_eq_none, ← Option.isSome_eq_false_iff, find?_isSome, Bool.eq_false_iff,
    ne_eq, foundIn_iff]
  rintro ⟨i, hi, hne⟩
  obtain ⟨e, he⟩ := List.exists_mem_of_ne_nil _ hne
  rcases w.of_mem_ends hbefore hafter hstop hi he with rfl | ⟨-, h⟩
  · exact hne (w.ends_eq_nil_of_ne hkind hdrop)
  · exact hjoins h

end

/-- The keyword of a directive passes the check. -/
theorem Written.occursIn_keyword (w : Written) (before after : List Char) :
    occursIn keyword (lower (before ++ w.text ++ after)) = true := by
  rw [occursIn_keyword_iff]
  refine ⟨w.word, ⟨before, w.blanks ++ (w.command ++ w.tail) ++ after, ?_⟩, ?_, fun hlong => ?_⟩
  · simp [Written.text]
  · have hword := forall₂_anyCase w.word_eq (forall_mem_of_all (by decide))
    rwa [anyCase, List.forall₂_map_left_iff] at hword
  · have hfirst := congrArg List.head? w.word_eq
    rw [List.head?_map, hlong] at hfirst
    exact absurd hfirst (by decide)

end Directive

namespace Suppressions

open Directive

/-- The names of a line for the reach of a kind are those of the directive of this kind. -/
theorem namesFor_inLineUnchecked (line : List Char) (number : Nat) (kind : Kind) :
    namesFor ⟨inLineUnchecked number line⟩ (kind.reach number)
      = ((find? kind.pattern (kind.reach number) line).map (·.names)).getD [] := by
  have hreach : ∀ other : Kind, ∀ d ∈ find? other.pattern (other.reach number) line,
      d.reach = other.reach number := fun other d hd => (find?_eq_some_iff.mp hd).1
  have hother : ∀ other : Kind, other ≠ kind →
      (find? other.pattern (other.reach number) line).toList.filter
        (·.reach == kind.reach number) = [] := by
    intro other hne
    refine List.filter_eq_nil_iff.mpr fun d hd => ?_
    rw [hreach other d (Option.mem_toList.mp hd), beq_iff_eq]
    cases other <;> cases kind <;> simp [Kind.reach] at hne ⊢
  have hself : (find? kind.pattern (kind.reach number) line).toList.filter
      (·.reach == kind.reach number) = (find? kind.pattern (kind.reach number) line).toList := by
    refine List.filter_eq_self.mpr fun d hd => ?_
    rw [hreach kind d (Option.mem_toList.mp hd), beq_self_eq_true]
  have hall : (inLineUnchecked number line).filter (·.reach == kind.reach number)
      = (find? kind.pattern (kind.reach number) line).toList := by
    rw [inLineUnchecked, List.filter_flatMap, Kind.all]
    cases kind <;> simp [hself, hother]
  rw [namesFor, hall]
  cases find? kind.pattern (kind.reach number) line <;> simp

/-- **A directive is read as it is written**, in a line with no other keyword, up to a basic
character that cannot belong to the list of names: where its kind reaches, the names of the list are
silenced, in lower case.  Nothing is silenced elsewhere, unless the list ends in the letters of the
keyword and a colon follows. -/
theorem ofLines_written (w : Written) {before after : List Char}
    (hbefore : ¬ HasKeyword before) (hafter : ¬ HasKeyword after)
    (hstop : ∀ c ∈ after.head?, c.toNat < 128 ∧ isNameChar c = false ∧ isSeparator c = false) :
    (ofLines [before ++ w.text ++ after]).namesFor (w.kind.reach 1) = w.lowerNames ∧
      (¬ w.Joins after →
        ofLines [before ++ w.text ++ after] = ⟨[⟨w.kind.reach 1, w.lowerNames⟩]⟩) := by
  have hline : ofLines [before ++ w.text ++ after]
      = ⟨inLineUnchecked 1 (before ++ w.text ++ after)⟩ := by
    rw [ofLines, inLines, inLines, inLine_eq, if_pos (w.occursIn_keyword before after),
      List.append_nil]
  have hkind := w.find?_kind hbefore hafter hstop (w.kind.reach 1)
  rw [hline]
  constructor
  · rw [namesFor_inLineUnchecked, hkind]
    rfl
  · intro hjoins
    have hother : ∀ kind : Kind, kind ≠ w.kind →
        find? kind.pattern (kind.reach 1) (before ++ w.text ++ after) = none :=
      fun kind hne => w.find?_other hbefore hafter hstop hjoins hne _
    rw [inLineUnchecked, Kind.all]
    cases hw : w.kind <;> rw [hw] at hkind hother <;> simp [hkind, hother, -List.append_assoc]

/-- A directive for the next line. -/
def nextDirective : Written where
  kind := .nextLine
  word := "SLOP:".toList
  blanks := []
  command := "Disable".toList
  mark := "_Next-LINE".toList
  blanks' := " ".toList
  blanks'' := "\t".toList
  list := "Todo_1, slop".toList
  names := ["Todo_1".toList, "slop".toList]
  word_eq := by decide
  command_eq := by decide
  mark_mem := by decide
  isBlank_blanks := forall_mem_of_all (by decide)
  isBlank_blanks' := forall_mem_of_all (by decide)
  isBlank_blanks'' := forall_mem_of_all (by decide)
  lists := by
    have htodo : IsName "Todo_1".toList := ⟨by decide, forall_mem_of_all (by decide)⟩
    have hslop : IsName "slop".toList := ⟨by decide, forall_mem_of_all (by decide)⟩
    have hcomma : ∀ c ∈ ", ".toList, isSeparator c = true := forall_mem_of_all (by decide)
    exact .cons htodo (by decide) hcomma (.last hslop)

/-- In a comment it silences its two names in the next line. -/
theorem ofLines_written_next :
    ofLines ["x = 1  /* ".toList ++ nextDirective.text ++ "*/".toList]
      = ⟨[⟨.line 2, ["todo_1", "slop"]⟩]⟩ := by
  have hstop : ∀ c ∈ "*/".toList.head?, c.toNat < 128 ∧ isNameChar c = false ∧
      isSeparator c = false := by
    intro c hc
    obtain rfl : '*' = c := Option.some.inj hc
    decide
  exact (ofLines_written nextDirective (by decide +kernel) (by decide +kernel) hstop).2 (by decide)

/-- A colon and what looks like the rest of a directive for the file. -/
def fileTail : List Char := ": disable-file=y".toList

/-- **A keyword that arises** between the list of names and the text after it begins a directive of
another kind, although there is no keyword in the text itself. -/
theorem ofLines_joined :
    ¬ HasKeyword fileTail ∧
      (∀ c ∈ fileTail.head?, c.toNat < 128 ∧ isNameChar c = false ∧ isSeparator c = false) ∧
      ofLines [nextDirective.text ++ fileTail]
        = ⟨[⟨.file, ["y"]⟩, ⟨nextDirective.kind.reach 1, nextDirective.lowerNames⟩]⟩ := by
  refine ⟨by decide +kernel, fun c hc => ?_, by decide +kernel⟩
  obtain rfl : ':' = c := Option.some.inj hc
  decide

end Suppressions

end CodeSweep
