/-
# What the components of a glob match

Plain characters stand for themselves and a star for any characters of one component
(`readsAs_literal`, `readsAs_wildcard`).  Plain components one after the other stand for the same
components of the path, and the glob ends where a component of the path ends (`follows_names`).
-/
import CodeSweep.Proofs.Glob.Reading
import CodeSweep.Proofs.Pattern.Accepts
import CodeSweep.Proofs.Text.Joined

namespace CodeSweep.Glob

open Pattern Text

/-! ## One component -/

/-- What is read is a pattern for the stretches of which `L` holds. -/
def ReadsAs (r : Reading Pattern) (L : List Char → Prop) : Prop :=
  ∃ p, r = .ok p ∧ p.readsFreely = true ∧ ∀ cs rest, p.Reads cs rest ↔ L cs

/-- A character that means nothing but itself in a component. -/
def isPlain (c : Char) : Bool := !(['*', '?', '[', '\\', '/'].contains c)

section

variable {r : Reading Pattern} {L M : List Char → Prop}

/-- The same stretches may be told in another way. -/
theorem ReadsAs.congr (h : ReadsAs r L) (hLM : ∀ cs, L cs ↔ M cs) : ReadsAs r M := by
  obtain ⟨p, hp, hfree, hreads⟩ := h
  exact ⟨p, hp, hfree, fun cs rest => (hreads cs rest).trans (hLM cs)⟩

/-- A character in front. -/
theorem ReadsAs.prepend_one (h : ReadsAs r L) (c : Char) :
    ReadsAs (r.prepend (one (.single c))) fun cs => ∃ ds, cs = c :: ds ∧ L ds := by
  obtain ⟨p, rfl, hfree, hreads⟩ := h
  refine ⟨one (.single c) ++ p, rfl, hfree, fun cs rest => ⟨?_, ?_⟩⟩
  · rintro ⟨as, ds, rfl, ⟨d, rfl, hd⟩, hds⟩
    rw [CharSet.holds_single.mp hd]
    exact ⟨ds, rfl, (hreads ds rest).mp hds⟩
  · rintro ⟨ds, rfl, hds⟩
    exact ⟨[c], ds, rfl, ⟨c, rfl, CharSet.holds_single.mpr rfl⟩, (hreads ds rest).mpr hds⟩

/-- Any character but a slash is one inside a component. -/
theorem holds_inSegment {c : Char} : inSegment.holds c = true ↔ c ≠ '/' := by
  have hslash : (CharSet.inside (chars "/")).holds c = true ↔ c = '/' := by
    rw [CharSet.holds_chars, show ("/" : String).toList = ['/'] from rfl, List.mem_singleton]
  rw [← not_iff_not, ne_eq, not_not, ← hslash]
  simp [inSegment, CharSet.holds, CharSet.outside, CharSet.inside, CharSet.listed]

/-- Any characters of one component in front. -/
theorem ReadsAs.prepend_many (h : ReadsAs r L) :
    ReadsAs (r.prepend (many inSegment)) fun cs =>
      ∃ middle ds, cs = middle ++ ds ∧ '/' ∉ middle ∧ L ds := by
  obtain ⟨p, rfl, hfree, hreads⟩ := h
  refine ⟨many inSegment ++ p, rfl, hfree, fun cs rest => ⟨?_, ?_⟩⟩
  · rintro ⟨middle, ds, rfl, ⟨-, -, hmiddle⟩, hds⟩
    exact ⟨middle, ds, rfl, fun hc => holds_inSegment.mp (hmiddle '/' hc) rfl,
      (hreads ds rest).mp hds⟩
  · rintro ⟨middle, ds, rfl, hmiddle, hds⟩
    have hall : ∀ c ∈ middle, inSegment.holds c = true := fun c hc =>
      holds_inSegment.mpr fun heq => hmiddle (heq ▸ hc)
    exact ⟨middle, ds, rfl, ⟨Nat.zero_le _, nofun, hall⟩,
      (hreads ds rest).mpr hds⟩

end

section

variable {L : List Char → Prop} {fuel : Nat} {cs : List Char}

/-- A plain character stands for itself. -/
theorem readSegmentFrom_plain {c : Char} (hc : isPlain c = true) :
    readSegmentFrom (fuel + 1) (c :: cs)
      = (readSegmentFrom fuel cs).prepend (one (.single c)) := by
  rw [isPlain, Bool.not_eq_true', List.contains_eq_mem, decide_eq_false_iff_not] at hc
  simp only [List.mem_cons, List.not_mem_nil, or_false, not_or] at hc
  obtain ⟨hstar, hany, hopen, hescape, -⟩ := hc
  rw [readSegmentFrom] <;> assumption

/-- Plain characters in front. -/
theorem ReadsAs.append_plain {front : List Char} (hfront : ∀ c ∈ front, isPlain c = true)
    (h : ReadsAs (readSegmentFrom fuel cs) L) :
    ReadsAs (readSegmentFrom (front.length + fuel) (front ++ cs)) fun ds =>
      ∃ es, ds = front ++ es ∧ L es := by
  induction front with
  | nil =>
      rw [List.length_nil, Nat.zero_add]
      exact h.congr fun ds => by simp
  | cons c front ih =>
      rw [List.forall_mem_cons] at hfront
      rw [List.length_cons, Nat.add_right_comm, List.cons_append, readSegmentFrom_plain hfront.1]
      refine ((ih hfront.2).prepend_one c).congr fun ds => ⟨?_, ?_⟩
      · rintro ⟨_, rfl, es, rfl, hes⟩
        exact ⟨es, rfl, hes⟩
      · rintro ⟨es, rfl, hes⟩
        exact ⟨_, rfl, es, rfl, hes⟩

/-- There is nothing to read in an empty component. -/
theorem readsAs_nil : ReadsAs (readSegmentFrom fuel []) (· = []) := by
  refine ⟨.empty, ?_, rfl, fun _ _ => Iff.rfl⟩
  cases fuel <;> rfl

/-- **A literal component** stands for itself. -/
theorem readsAs_literal (hcs : ∀ c ∈ cs, isPlain c = true) :
    ReadsAs (readSegment cs) (· = cs) := by
  have h := (@readsAs_nil 0).append_plain hcs
  rw [List.append_nil] at h
  exact h.congr fun ds => by simp

/-- **A literal with a star in it** stands for what begins and ends like it. -/
theorem readsAs_wildcard {front back : List Char} (hfront : ∀ c ∈ front, isPlain c = true)
    (hback : ∀ c ∈ back, isPlain c = true) :
    ReadsAs (readSegment (front ++ '*' :: back)) fun ds =>
      ∃ middle, ds = front ++ (middle ++ back) ∧ '/' ∉ middle := by
  have hstar : ReadsAs (readSegmentFrom (back.length + 1) ('*' :: back)) fun ds =>
      ∃ middle es, ds = middle ++ es ∧ '/' ∉ middle ∧ es = back := by
    rw [readSegmentFrom]
    exact ReadsAs.prepend_many (readsAs_literal hback)
  rw [readSegment, List.length_append, List.length_cons]
  refine (hstar.append_plain hfront).congr fun ds => ⟨?_, ?_⟩
  · rintro ⟨_, rfl, middle, _, rfl, hmiddle, rfl⟩
    exact ⟨middle, rfl, hmiddle⟩
  · rintro ⟨middle, rfl, hmiddle⟩
    exact ⟨_, rfl, middle, _, rfl, hmiddle, rfl⟩

end

/-- The slash before a component, if one is due. -/
def lead (slash : Bool) : List Char := if slash then ['/'] else []

/-- A component after a slash, if one is due. -/
theorem ReadsAs.named {seg : List Char} {L : List Char → Prop} (hstar : seg ≠ ['*'])
    (h : ReadsAs (readSegment seg) L) (slash : Bool) :
    ReadsAs (readTail.named slash seg) fun cs => ∃ ds, cs = lead slash ++ ds ∧ L ds := by
  have hseg : (seg == "*".toList) = false := beq_false_of_ne hstar
  cases slash with
  | false =>
      rw [readTail.named, hseg]
      exact h.congr fun cs => by simp [lead]
  | true =>
      rw [readTail.named, hseg]
      exact h.prepend_one '/'

/-! ## The end of a glob -/

/-- What is read is a pattern for the texts ahead of which `R` holds. -/
def Follows (r : Reading Pattern) (R : List Char → Prop) : Prop :=
  ∃ p, r = .ok p ∧ p.Accepts R

/-- The same texts may be told in another way. -/
theorem Follows.congr {r : Reading Pattern} {R S : List Char → Prop} (h : Follows r R)
    (hRS : ∀ text, R text ↔ S text) : Follows r S := by
  obtain ⟨p, hp, hR⟩ := h
  exact ⟨p, hp, fun text i g hi hg => (hR text i g hi hg).trans (hRS _)⟩

/-- The component for what lies below a folder, if that is what the glob is for. -/
def closing (deep : Bool) : List (List Char) := if deep then ["**".toList] else []

/-- A component of the path ends here, or, for what lies below a folder, the name of a folder
does. -/
def Closes : (deep : Bool) → List Char → Prop
  | true, cs => ∃ rest, cs = '/' :: rest
  | false, cs => (∃ rest, cs = '/' :: rest) ∨ cs = [] ∨ cs = ['\n']

/-- A slash is matched where there is one. -/
theorem accepts_slash : (lit "/").Accepts (Closes true) := by
  intro text i g hi hg
  rw [accepts_of_readsFreely (p := lit "/") rfl text i g hi hg]
  constructor
  · rintro ⟨cs, rest, hahead, hcs⟩
    obtain rfl : cs = ['/'] := reads_ofChars hcs
    exact ⟨rest, hahead⟩
  · rintro ⟨rest, hahead⟩
    exact ⟨['/'], rest, hahead, '/', rfl, CharSet.holds_single.mpr rfl⟩

/-- A glob for something named ends with its name, or goes on with what lies below it. -/
theorem accepts_namedEnd : namedEnd.Accepts (Closes false) :=
  (accepts_slash.group "below").alt accepts_lastLineEnd

section

variable {seg : List Char} {L R : List Char → Prop} (hstar : seg ≠ ['*'])
  (hseg : ReadsAs (readSegment seg) L)

include hstar hseg

/-- A component, and then the rest of the glob. -/
theorem follows_named {q : Pattern} (hq : q.Accepts R) (slash : Bool) :
    Follows ((readTail.named slash seg).bind fun p => .ok (p ++ q)) fun text =>
      ∃ cs rest, text = lead slash ++ (cs ++ rest) ∧ L cs ∧ R rest := by
  obtain ⟨p, hp, hfree, hreads⟩ := hseg.named hstar slash
  refine ⟨p ++ q, by rw [hp]; rfl, fun text i g hi hg =>
    (hq.seq hfree text i g hi hg).trans ⟨?_, ?_⟩⟩
  · rintro ⟨cs, rest, hahead, hcs, hrest⟩
    obtain ⟨ds, rfl, hds⟩ := (hreads cs rest).mp hcs
    exact ⟨ds, rest, by rw [hahead, List.append_assoc], hds, hrest⟩
  · rintro ⟨cs, rest, hahead, hcs, hrest⟩
    exact ⟨_, rest, by rw [hahead, List.append_assoc], (hreads _ rest).mpr ⟨cs, rfl, hcs⟩, hrest⟩

variable (hdeep : isDeep seg = false)

include hdeep

/-- A component with others after it. -/
theorem Follows.cons {segs : List (List Char)} (hsegs : segs ≠ [])
    (h : Follows (readTail false true segs) R) (slash : Bool) :
    Follows (readTail false slash (seg :: segs)) fun text =>
      ∃ cs rest, text = lead slash ++ (cs ++ rest) ∧ L cs ∧ R rest := by
  obtain ⟨q, hq, hR⟩ := h
  rw [readTail, hdeep, hq]
  · exact follows_named hstar hseg hR slash
  · exact hsegs

/-- The last component of a glob that is not deep. -/
theorem follows_last (deep slash : Bool) :
    Follows (readTail false slash (seg :: closing deep)) fun text =>
      ∃ cs rest, text = lead slash ++ (cs ++ rest) ∧ L cs ∧ Closes deep rest := by
  cases deep with
  | true =>
      have hslash : Follows (readTail false true ["**".toList]) (Closes true) :=
        ⟨_, rfl, accepts_slash⟩
      exact hslash.cons hstar hseg hdeep (List.cons_ne_nil _ _) slash
  | false =>
      rw [closing, if_neg (by simp), readTail, hdeep]
      exact follows_named hstar hseg accepts_namedEnd slash

end

/-- Plain characters are not those of a component that stands for others. -/
theorem ne_star_of_plain {w : List Char} (hw : ∀ c ∈ w, isPlain c = true) :
    w ≠ ['*'] ∧ isDeep w = false := by
  refine ⟨?_, beq_false_of_ne ?_⟩
  · rintro rfl
    exact absurd (hw '*' List.mem_cons_self) (by decide)
  · rintro rfl
    exact absurd (hw '*' List.mem_cons_self) (by decide)

/-- Without backslashes and brackets every character is a piece. -/
theorem isWhole_of_forall {w : List Char} (hw : ∀ c ∈ w, c ≠ '\\' ∧ c ≠ '[') : IsWhole w [] := by
  induction w with
  | nil => exact .nil
  | cons c w ih =>
      rw [List.forall_mem_cons] at hw
      exact .piece (.plain c hw.1.1 hw.1.2) (ih hw.2)

/-- Plain characters are pieces. -/
theorem isWhole_of_plain {w : List Char} (hw : ∀ c ∈ w, isPlain c = true) : IsWhole w [] := by
  apply isWhole_of_forall
  intro c hc
  constructor
  all_goals
    rintro rfl
    exact absurd (hw _ hc) (by decide)

/-- So is a star between them. -/
theorem isWhole_wildcard {front back : List Char} (hfront : ∀ c ∈ front, isPlain c = true)
    (hback : ∀ c ∈ back, isPlain c = true) : IsWhole (front ++ '*' :: back) [] := by
  have hback' : IsWhole ('*' :: back) [] :=
    .piece (.plain '*' (by decide) (by decide)) (isWhole_of_plain hback)
  exact (isWhole_of_plain hfront).append hback'

/-- The component for what lies below a folder can be read. -/
theorem isWhole_closing (deep : Bool) : ∀ w ∈ closing deep, IsWhole w [] := by
  cases deep with
  | true =>
      rw [closing, if_pos rfl, List.forall_mem_singleton]
      exact isWhole_of_isDeep rfl
  | false => exact List.forall_mem_nil _

/-- **Literal components** stand for themselves, one after the other. -/
theorem follows_names {names : List (List Char)} (hne : names ≠ [])
    (hnames : ∀ w ∈ names, ∀ c ∈ w, isPlain c = true) (deep slash : Bool) :
    Follows (readTail false slash (names ++ closing deep)) fun text =>
      ∃ rest, text = lead slash ++ (joinWith ['/'] names ++ rest) ∧ Closes deep rest := by
  induction names generalizing slash with
  | nil => exact absurd rfl hne
  | cons w names ih =>
      rw [List.forall_mem_cons] at hnames
      obtain ⟨hstar, hdeep⟩ := ne_star_of_plain hnames.1
      have hw := readsAs_literal hnames.1
      cases names with
      | nil =>
          refine (follows_last hstar hw hdeep deep slash).congr fun text => ⟨?_, ?_⟩
          · rintro ⟨cs, rest, htext, rfl, hrest⟩
            exact ⟨rest, htext, hrest⟩
          · rintro ⟨rest, htext, hrest⟩
            exact ⟨w, rest, htext, rfl, hrest⟩
      | cons next names =>
          have hothers := ih (List.cons_ne_nil next names) hnames.2 true
          refine (hothers.cons hstar hw hdeep (by simp) slash).congr fun text => ?_
          rw [joinWith_cons w (List.cons_ne_nil next names)]
          constructor
          · rintro ⟨cs, others, rfl, rfl, rest, rfl, hrest⟩
            exact ⟨rest, by simp [lead], hrest⟩
          · rintro ⟨rest, rfl, hrest⟩
            exact ⟨w, _, by simp [lead], rfl, rest, rfl, hrest⟩

end CodeSweep.Glob
