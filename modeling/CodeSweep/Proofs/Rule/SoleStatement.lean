/-
# Bodies of one statement

Three rules for Python look for a body that is a single statement.  What they match is the head of a
block and the statement, in the line of the head or indented in the line below, and in the line of
the statement nothing else but a comment.  The lines that follow are not looked at: what is matched
stays a match whatever comes after the line of the statement, so the body may well go on
(`matches_whatever_follows`).
-/
import CodeSweep.Proofs.Pattern.Continued
import CodeSweep.Proofs.Pattern.Reads
import CodeSweep.Registry

namespace CodeSweep

open Pattern Text Catalogue Catalogue.Python

/-! ## Bodies -/

/-- Spaces and tabulators. -/
def IsGap (cs : List Char) : Prop := ∀ c ∈ cs, c = ' ' ∨ c = '\t'

/-- Nothing, or a comment up to the end of its line. -/
def IsRemark (cs : List Char) : Prop := cs = [] ∨ ∃ text, cs = '#' :: text ∧ '\n' ∉ text

/-- What may stand between the head of a block and its only statement. -/
inductive IsLead : List Char → Prop
  /-- The statement stands in the line of the head. -/
  | inLine {gap : List Char} : IsGap gap → IsLead gap
  /-- The statement stands in the line below, indented. -/
  | below {gap remark indent : List Char} : IsGap gap → IsRemark remark → IsGap indent →
      indent ≠ [] → IsLead (gap ++ remark ++ '\n' :: indent)

/-- What may stand after the statement in its line. -/
def IsTrail (cs : List Char) : Prop :=
  ∃ gap remark, cs = gap ++ remark ∧ IsGap gap ∧ IsRemark remark

/-! ## What the patterns read -/

namespace Pattern

/-- Spaces and tabulators. -/
theorem isGap_of_reads {least : Nat} {most : Option Nat} {lazy : Bool} {cs rest : List Char}
    (h : (run spaceOrTab least most lazy).Reads cs rest) : IsGap cs := by
  intro c hc
  simpa using CharSet.holds_chars.mp (h.2.2 c hc)

/-- A comment. -/
theorem isRemark_of_reads {cs rest : List Char} (h : ("#" ++ many .inLine).Reads cs rest) :
    IsRemark cs := by
  obtain ⟨sign, text, rfl, hsign, -, -, htext⟩ := h
  rw [reads_ofChars hsign]
  exact .inr ⟨text, rfl, fun hfeed => CharSet.holds_inLine.mp (htext _ hfeed) rfl⟩

end Pattern

/-- Before a statement that does not begin with a line feed. -/
theorem isLead_of_reads {cs rest : List Char} (h : bodyStart.Reads cs rest)
    (hrest : rest.head? ≠ some '\n') : IsLead cs := by
  obtain ⟨_, turn, rfl, ⟨blanks, remark, rfl, hblanks, hremark⟩, hturn⟩ := h
  have hgap : IsGap blanks := isGap_of_reads hblanks
  have hturn : turn = [] ∨ ∃ indent, turn = '\n' :: indent ∧ IsGap indent ∧ indent ≠ [] := by
    refine (reads_optional hturn).imp_right ?_
    rintro ⟨feed, indent, rfl, hfeed, hindent⟩
    rw [reads_ofChars hfeed]
    exact ⟨indent, rfl, isGap_of_reads hindent, List.ne_nil_of_length_pos hindent.1⟩
  have hremark : IsRemark remark ∧ (remark ≠ [] → turn ≠ []) := by
    rcases reads_optional hremark with
      rfl | ⟨text, none, rfl, htext, rfl, feed, after, hafter, hfeed⟩
    · exact ⟨.inl rfl, fun h => absurd rfl h⟩
    · rw [List.append_nil]
      refine ⟨isRemark_of_reads htext, fun _ => ?_⟩
      rintro rfl
      rw [reads_ofChars hfeed] at hafter
      exact hrest (by simpa using congrArg List.head? hafter)
  rcases hturn with rfl | ⟨indent, rfl, hindent, hne⟩
  · have hnone : remark = [] := Classical.not_not.mp fun h => hremark.2 h rfl
    rw [hnone, List.append_nil, List.append_nil]
    exact .inLine hgap
  · exact .below hgap hremark.1 hindent hne

/-- After the statement. -/
theorem isTrail_of_reads {cs rest : List Char} (h : bodyEnd.Reads cs rest) :
    IsTrail cs ∧ ∀ c ∈ rest.head?, c = '\n' := by
  obtain ⟨_, none, rfl, ⟨blanks, remark, rfl, hblanks, hremark⟩, rfl, hend⟩ := h
  rw [List.append_nil]
  refine ⟨⟨blanks, remark, rfl, isGap_of_reads hblanks, ?_⟩, hend⟩
  rcases reads_optional hremark with rfl | hremark
  · exact .inl rfl
  · exact isRemark_of_reads hremark

/-! ## The rules -/

/-- A rule for bodies of one statement. -/
structure SoleRule where
  name : String
  /-- The head of the block, up to its colon. -/
  head : Pattern
  statement : String

/-- The head of a handler of exceptions. -/
def handlerHead : Pattern :=
  lineStart ++ gap ++ hit ("except" ++ wordEdge ++ upTo maxSpan (.outside (chars ":\n"))) ++ ":"

/-- The rules for bodies of one statement. -/
def soleRules : List SoleRule := [
  ⟨"placeholder_pass_only_py", definitionHead, "pass"⟩,
  ⟨"placeholder_ellipsis_py", definitionHead, "..."⟩,
  ⟨"empty_except_py", handlerHead, "pass"⟩]

namespace SoleRule

/-- The statement and what may follow it in its line. -/
def line (s : SoleRule) : Pattern := s.statement ++ gap ++ optional ("#" ++ many .inLine)

/-- The pattern of the rule. -/
def pattern (s : SoleRule) : Pattern := s.head ++ bodyStart ++ s.statement ++ bodyEnd

/-- The rules of the catalogue have these patterns. -/
theorem pattern_catalogue : ∀ r ∈ Registry.builtin.rules, ∀ s ∈ soleRules, r.name = s.name →
    r.pattern? = some s.pattern := by
  decide +kernel

/-- Each of them is a rule of the catalogue. -/
theorem exists_rule {s : SoleRule} (hs : s ∈ soleRules) :
    ∃ r ∈ Registry.builtin.rules, Registry.builtin.rule? s.name = some r ∧ r.name = s.name ∧
      r.pattern? = some s.pattern := by
  have hfound : ∀ s ∈ soleRules, (Registry.builtin.rule? s.name).isSome = true := by decide
  obtain ⟨r, hr⟩ := Option.isSome_iff_exists.mp (hfound s hs)
  have hmem : r ∈ Registry.builtin.rules := List.mem_of_find?_eq_some hr
  have hname : r.name = s.name :=
    beq_iff_eq.mp (List.find?_some (p := fun r : Rule => r.name == s.name) hr)
  exact ⟨r, hmem, hr, hname, pattern_catalogue r hmem s hs hname⟩

/-- Nothing is asked of what comes after the head and what leads to the statement, but the next
character, and nothing at all of what comes after the line of the statement. -/
theorem looks_soleRules : ∀ s ∈ soleRules, (s.head ++ bodyStart).looksAtNext = true ∧
    s.line.looksBack = true ∧ 0 < (widths s.line).1 := by
  decide

/-- A head ends with a colon, and a statement does not begin with a line feed. -/
theorem exists_head_eq : ∀ s ∈ soleRules, (∃ p, s.head = seq p (one (.single ':'))) ∧
    s.statement.toList.head?.any (· ≠ '\n') = true := by
  intro s hs
  simp only [soleRules, List.mem_cons, List.not_mem_nil, or_false] at hs
  rcases hs with rfl | rfl | rfl
  · exact ⟨⟨_, rfl⟩, by decide⟩
  · exact ⟨⟨_, rfl⟩, by decide⟩
  · exact ⟨⟨_, rfl⟩, by decide⟩

variable {s : SoleRule} (hs : s ∈ soleRules) {text : List Char} {m : Match}
  (hm : IsMatch s.pattern text.toArray m)

include hs hm

/-- A match is not empty. -/
theorem start_lt_stop : m.start < m.stop := by
  have hwidths : ∀ s ∈ soleRules, 0 < (widths s.pattern).1 := by decide
  have hpos := hwidths s hs
  have hle := mem_ends_width _ hm.mem_ends
  simp only at hle
  omega

/-- **The stretch of a match** is a head and a body of one statement, up to the end of a line. -/
theorem exists_body : (∃ head lead trail, slice text (m.start, m.stop)
      = head ++ ':' :: (lead ++ s.statement.toList ++ trail) ∧ IsLead lead ∧ IsTrail trail) ∧
    ∀ c ∈ text[m.stop]?, c = '\n' := by
  have hparts : s.pattern.parts = (s.head ++ (bodyStart ++ s.statement ++ bodyEnd)).parts := by
    simp only [SoleRule.pattern, parts_append, List.append_assoc]
  have hends := hm.mem_ends
  rw [ends_eq_of_parts_eq hparts] at hends
  obtain ⟨mid, hmid, hbody⟩ := List.mem_flatMap.mp hends
  -- the head ends with its colon
  obtain ⟨⟨p, hp⟩, hfirst⟩ := exists_head_eq s hs
  rw [hp] at hmid
  obtain ⟨hlt, hcolon⟩ := of_mem_ends_seq_single hmid
  have hhead : slice text (m.start, mid.1) = slice text (m.start, mid.1 - 1) ++ [':'] := by
    have hlast := slice_succ (List.getElem?_toArray ▸ hcolon)
    rw [Nat.sub_add_cancel (by omega)] at hlast
    rw [← hlast, slice_append_slice (by omega) (by omega)]
  obtain ⟨_, trail, hslice, ⟨lead, word, rfl, hlead, hword⟩, htrail⟩ := reads_of_mem_ends _ hbody
  obtain rfl : word = s.statement.toList := reads_ofChars hword
  obtain ⟨htrail, hend⟩ := isTrail_of_reads htrail
  refine ⟨⟨slice text (m.start, mid.1 - 1), lead, trail, ?_, isLead_of_reads hlead ?_, htrail⟩, ?_⟩
  · rw [← slice_append_slice (Nat.le_of_lt hlt) (le_of_mem_ends hbody), hhead, hslice,
      List.append_assoc]
    rfl
  · intro hfeed
    cases hstatement : s.statement.toList with
    | nil => simp [hstatement] at hfirst
    | cons c cs =>
        rw [hstatement] at hfeed hfirst
        obtain rfl : c = '\n' := Option.some.inj hfeed
        simp at hfirst
  · rwa [List.head?_drop] at hend

/-- **Whatever comes after the line of the statement**, a match stays a match. -/
theorem isMatch_continued (rest : List Char) :
    IsMatch s.pattern (text.take m.stop ++ '\n' :: rest).toArray m := by
  have hstop : m.stop ≤ text.length := by simpa using hm.bounds.2.1
  have hlength : (text.take m.stop).length = m.stop := by
    rw [List.length_take, Nat.min_eq_left hstop]
  have halike : Alike m.stop text.toArray (text.take m.stop ++ '\n' :: rest).toArray := by
    have h := alike_append (text.take m.stop) (text.drop m.stop) ('\n' :: rest)
    rwa [hlength, List.take_append_drop] at h
  have hparts : s.pattern.parts = (s.head ++ bodyStart ++ s.line ++ lineEnd).parts := by
    simp only [SoleRule.pattern, SoleRule.line, bodyEnd, parts_append, List.append_assoc]
  obtain ⟨hlead, hline, hpos⟩ := looks_soleRules s hs
  refine ⟨?_, ?_⟩
  · rw [List.size_toArray, List.length_append, hlength]
    exact Nat.le_trans hm.bounds.1 (Nat.le_add_right _ _)
  · have hends := hm.mem_ends
    rw [ends_eq_of_parts_eq hparts] at hends ⊢
    obtain ⟨last, hlast, hedge⟩ := List.mem_flatMap.mp hends
    obtain ⟨mid, hmid, hlast⟩ := List.mem_flatMap.mp hlast
    have hstopped : (m.stop, m.groups) = last := (mem_ends_edge.mp hedge).2
    have hlt := mem_ends_width last hlast
    have hplace : last.1 = m.stop := by rw [← hstopped]
    refine List.mem_flatMap.mpr ⟨last, List.mem_flatMap.mpr ⟨mid, ?_, ?_⟩, ?_⟩
    · exact mem_ends_of_alike halike hlead mid hmid (by omega)
    · exact mem_ends_of_looksBack halike hline last hlast (Nat.le_of_eq hplace)
    · refine mem_ends_edge.mpr ⟨?_, hstopped⟩
      rw [hplace, Edge.holds, Bool.or_eq_true]
      refine .inr (holdsAt_eq_true_iff.mpr ⟨'\n', ?_, by decide⟩)
      rw [List.getElem?_toArray, List.getElem?_append_right (by omega), hlength, Nat.sub_self]
      rfl

end SoleRule

namespace Rule

/-- **Bodies of one statement.**  A match of one of the rules is the head of a block and a statement
with nothing but a comment after it in its line.  What the body goes on with is not looked at: with
any text after the line of the statement, the match is one as well, and unless another match that is
reported goes on there it is reported. -/
theorem matches_whatever_follows {r : Rule} (hr : r ∈ Registry.builtin.rules) {s : SoleRule}
    (hs : s ∈ soleRules) (hname : r.name = s.name) {p : Pattern} (hp : r.pattern? = some p)
    {text : List Char} {m : Match} (hm : m ∈ p.matchesIn text.toArray) :
    (∃ head lead trail, slice text (m.start, m.stop)
        = head ++ ':' :: (lead ++ s.statement.toList ++ trail) ∧ IsLead lead ∧ IsTrail trail) ∧
      (∀ c ∈ text[m.stop]?, c = '\n') ∧
      ∀ rest, IsMatch p (text.take m.stop ++ '\n' :: rest).toArray m ∧
        ∃ m' ∈ p.matchesIn (text.take m.stop ++ '\n' :: rest).toArray,
          m'.start ≤ m.start ∧ m.start < m'.stop := by
  obtain rfl : s.pattern = p :=
    Option.some.inj ((SoleRule.pattern_catalogue r hr s hs hname).symm.trans hp)
  have hmatch := isMatch_of_mem_matchesIn hm
  obtain ⟨hbody, hend⟩ := SoleRule.exists_body hs hmatch
  refine ⟨hbody, hend, fun rest => ?_⟩
  have hcontinued := SoleRule.isMatch_continued hs hmatch rest
  exact ⟨hcontinued, exists_mem_matchesIn hcontinued (SoleRule.start_lt_stop hs hmatch)⟩

/-- A handler that does nothing. -/
def handler : List Char := "try:\n    go()\nexcept E as e:  # no\n\tpass # yes\n".toList

/-- The handler is still matched if it goes on. -/
theorem matches_whatever_follows_handler :
    ∃ r p m, Registry.builtin.rule? "empty_except_py" = some r ∧ r.pattern? = some p ∧
      p.matchesIn handler.toArray = [m] ∧ (m.start, m.stop) = (14, 46) ∧
      IsMatch p (handler.take 46 ++ '\n' :: "\tmore()".toList).toArray m := by
  have hs : (⟨"empty_except_py", handlerHead, "pass"⟩ : SoleRule) ∈ soleRules := by
    simp [soleRules]
  obtain ⟨r, hmem, hr, hname, hp⟩ := SoleRule.exists_rule hs
  have hplaces : ((SoleRule.mk "empty_except_py" handlerHead "pass").pattern.matchesIn
      handler.toArray).map (fun m => (m.start, m.stop)) = [(14, 46)] := by decide +kernel
  obtain ⟨m, hm, hplace⟩ := List.map_eq_singleton_iff.mp hplaces
  obtain ⟨-, -, hfollows⟩ := matches_whatever_follows hmem hs hname hp
    (hm ▸ List.mem_singleton_self m)
  have hstop : m.stop = 46 := congrArg Prod.snd hplace
  exact ⟨r, _, m, hr, hp, hm, hplace, hstop ▸ (hfollows "\tmore()".toList).1⟩

/-- A function with a second statement. -/
def goingOn : List Char := "def f():\n    pass\n    return 1\n".toList

/-- **More than one statement.**  The rule for functions that only pass matches a function that goes
on in the next line, with the indentation of the statement. -/
theorem matches_goingOn :
    ∃ r p, Registry.builtin.rule? "placeholder_pass_only_py" = some r ∧ r.pattern? = some p ∧
      (p.matchesIn goingOn.toArray).map (fun m => (m.start, m.stop)) = [(0, 17)] ∧
      slice goingOn (0, 17) = "def f():".toList ++ '\n' :: "    pass".toList ∧
      goingOn.drop 17 = '\n' :: "    return 1\n".toList := by
  have hs : (⟨"placeholder_pass_only_py", definitionHead, "pass"⟩ : SoleRule) ∈ soleRules := by
    simp [soleRules]
  obtain ⟨r, -, hr, -, hp⟩ := SoleRule.exists_rule hs
  exact ⟨r, _, hr, hp, by decide +kernel, by decide, by decide⟩

end Rule

end CodeSweep
