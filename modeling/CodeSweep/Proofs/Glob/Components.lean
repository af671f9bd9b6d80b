/-
# Globs made of components

A glob that can be written component by component is read component by component
(`read_eq_of_isTidy`).  On a relative path, one component is found wherever the path has one like it
(`excludes_anyDepth`), and literal components that are anchored are found where the path begins with
them (`excludes_textStart`).
-/
import CodeSweep.Proofs.Glob.Positive
import CodeSweep.Proofs.Glob.Segments
import CodeSweep.Proofs.Path
import Mathlib.Data.List.DropRight

namespace CodeSweep.Glob

open Pattern Text

/-! ## Reading -/

/-- What is not deep stays where it is. -/
theorem mergeDeep_cons {seg : List Char} (h : isDeep seg = false) (segs : List (List Char)) :
    mergeDeep (seg :: segs) = seg :: mergeDeep segs := by
  rw [mergeDeep]
  split
  · next next more heq => rw [h, Bool.false_and, if_neg (by simp), heq]
  · next heq => rw [heq]

/-- Literal components stay where they are. -/
theorem mergeDeep_eq_self {parts : List (List Char)}
    (hparts : ∀ w ∈ parts, ∀ c ∈ w, isPlain c = true) (deep : Bool) :
    mergeDeep (parts ++ closing deep) = parts ++ closing deep := by
  induction parts with
  | nil => cases deep <;> rfl
  | cons w parts ih =>
      rw [List.forall_mem_cons] at hparts
      rw [List.cons_append, mergeDeep_cons (ne_star_of_plain hparts.1).2, ih hparts.2]

/-- Components without empty ones at their two ends are anchored already, unless there is just one
of them. -/
theorem anchor_eq_self {segs : List (List Char)} (hlength : 2 ≤ segs.length)
    (hfirst : segs.head? ≠ some []) (hlast : segs.getLast? ≠ some []) : anchor segs = segs := by
  unfold anchor
  split
  · exact absurd rfl hfirst
  · simp at hlength
  · exact absurd rfl hlast
  · rfl

/-- The last component stays as it is unless it is empty. -/
theorem deepenLast_eq_self {segs : List (List Char)} (h : segs.getLast? ≠ some []) :
    deepenLast segs = segs := by
  induction segs using deepenLast.induct with
  | case1 => rfl
  | case2 seg =>
      rw [deepenLast, if_neg]
      rw [List.isEmpty_iff]
      rintro rfl
      exact h rfl
  | case3 seg segs hsegs ih =>
      rw [deepenLast, ih]
      · rwa [List.getLast?_cons_of_ne_nil hsegs] at h
      · exact hsegs

/-- The components can be written one after the other: none holds a slash, each can be read to its
end and has no range that ends before it starts, the first begins with no sign, and the last does
not end in a blank. -/
structure IsTidy (segs : List (List Char)) : Prop where
  slash_notMem : ∀ w ∈ segs, '/' ∉ w
  whole : ∀ w ∈ segs, IsWhole w []
  first : ∃ c w ws, segs = (c :: w) :: ws ∧ c ≠ '!' ∧ c ≠ '#'
  last : ∃ ws w c, segs = ws ++ [w ++ [c]] ∧ isBlank c = false

/-- The blanks at the end are all that is trimmed. -/
theorem trimGlob_eq_self {cs : List Char} (h : cs.getLast?.any isBlank = false) :
    trimGlob cs = cs := by
  have hblanks : trimEnd cs = cs := by
    show cs.rdropWhile isBlank = cs
    rw [List.rdropWhile_eq_self_iff]
    intro hne
    rw [List.getLast?_eq_some_getLast hne, Option.any_some] at h
    rw [h]
    exact Bool.false_ne_true
  rw [trimGlob, hblanks, ite_self]

/-- **A tidy glob** is read component by component, and takes nothing back. -/
theorem read_eq_of_isTidy {s : String} {parts : List (List Char)} (h : IsTidy parts)
    (hs : s.toList = joinWith ['/'] parts) {p : Pattern}
    (hp : readSegments false (mergeDeep (deepenLast (anchor parts))) = .ok p) :
    read s = .ok (some ⟨false, p⟩) := by
  have hglob : ofPattern false p = .ok ⟨false, p⟩ := by
    have hreversed := reversed_readSegments false (mergeDeep (deepenLast (anchor parts)))
    rw [hp, reversedAll_mergeDeep, reversedAll_deepenLast, reversedAll_anchor,
      reversedAll_of_forall h.whole] at hreversed
    rw [ofPattern, Reading.ok.inj hreversed]
  obtain ⟨hslash, -, ⟨c, w, ws, rfl, hsign, hcomment⟩, ws', w', d, hlast, hblank⟩ := h
  have hsplit : splitAt (· == '/') s.toList = (c :: w) :: ws := by
    rw [hs]
    exact splitAt_joinWith (List.cons_ne_nil _ _) hslash
  have hhead : s.toList.head? = some c := by
    rw [hs, head?_joinWith (List.cons_ne_nil c w)]
    rfl
  have hend : s.toList.getLast? = some d := by
    rw [hs, hlast, getLast?_joinWith (by simp), List.getLast?_concat]
  have hlastPart : (((c :: w) :: ws).getLast?.any (·.isEmpty)) = false := by
    rw [hlast, List.getLast?_concat, Option.any_some]
    simp
  have htrim : trimGlob s.toList = s.toList := trimGlob_eq_self (by rw [hend]; exact hblank)
  have hnames : (s.toList.isEmpty || s.toList.head? == some '#' || s.toList == ['/']) = false := by
    obtain ⟨cs, hcs⟩ := List.head?_eq_some_iff.mp hhead
    have hc : c ≠ '/' := fun heq => hslash _ List.mem_cons_self (heq ▸ List.mem_cons_self)
    simp [hcs, hcomment, hc]
  have hbody : ∀ body, s.toList ≠ '!' :: body := fun body heq =>
    hsign (Option.some.inj (hhead.symm.trans (by rw [heq]; rfl)))
  have hanchor : anchor ((c :: w) :: ws) ≠ [] := by
    rw [ne_eq, anchor_eq_nil_iff _ (List.cons_ne_nil _ _)]
    exact fun heq => List.cons_ne_nil c w (List.cons.inj heq).1
  rw [read]
  simp only [htrim, hnames, hsplit, hlastPart, hp, hglob, Except.map, Bool.false_eq_true, if_false]

/-- A glob that takes nothing back chooses by itself the paths it is found in. -/
theorem excludes_eq_foundIn {s : String} {p : Pattern} (h : read s = .ok (some ⟨false, p⟩))
    (path : String) : excludes [s] path = .ok (p.foundIn (subject path)) := by
  have hpositive : isPositive s = true := by rw [isPositive, h]; rfl
  rw [excludes_eq_any fun t ht => List.mem_singleton.mp ht ▸ hpositive, List.any_cons,
    List.any_nil, Bool.or_false, hits, spelled?, h, Option.any_some, strength, foundIn]
  cases p.search? (subject path) 0 with
  | none => rfl
  | some m => simp only; split <;> rfl

/-- A single component that says something applies at every depth. -/
theorem anchor_singleton {seg : List Char} (hne : seg ≠ []) (hdeep : isDeep seg = false) :
    deepenLast (anchor [seg]) = "**".toList :: seg :: closing false := by
  have hanchor : anchor [seg] = ["**".toList, seg] := by
    rw [anchor, hdeep]
    · rfl
    · exact hne
  rw [hanchor, deepenLast_eq_self]
  · rfl
  · simpa using hne

/-! ## Finding -/

section

variable {names : List String} (hnames : Path.isRelative names = true)

include hnames

/-- A relative path is seen as it is written. -/
theorem subject_join : subject (Path.join names) = (Path.join names).toList.toArray := by
  obtain ⟨hnormal, hslash, hhere⟩ := Path.normalize_join_of_isRelative hnames
  rw [subject, hnormal]
  split
  · next heq => exact absurd (by rw [heq]; rfl) hslash
  · next heq => exact absurd heq (hhere _)
  · rfl

/-- The folders that a path may begin with are those before one of its components. -/
theorem reads_folders_iff {cs rest : List Char} (h : (Path.join names).toList = cs ++ rest) :
    (optional (some1 .inLine ++ lit "/")).Reads cs rest ↔ IsStart '/' cs := by
  rw [reads_optional_iff]
  refine or_congr_right ⟨?_, ?_⟩
  · rintro ⟨as, bs, rfl, -, hbs⟩
    exact ⟨as, congrArg (as ++ ·) (reads_ofChars hbs)⟩
  · rintro ⟨as, rfl⟩
    refine ⟨as, ['/'], rfl, ⟨?_, nofun, fun c hc => ?_⟩, '/', rfl, CharSet.holds_single.mpr rfl⟩
    · rw [Nat.one_le_iff_ne_zero, ne_eq, List.length_eq_zero_iff]
      rintro rfl
      exact (Path.normalize_join_of_isRelative hnames).2.1 (by rw [h]; rfl)
    · rw [CharSet.holds_inLine]
      rintro rfl
      exact Path.feed_notMem_of_isRelative hnames (by rw [h]; simp [hc])

/-- A component of a path ends before a slash or with the path. -/
theorem closes_false_iff {cs rest : List Char} (h : (Path.join names).toList = cs ++ rest) :
    Closes false rest ↔ IsEnd '/' rest := by
  have hfeed : rest ≠ ['\n'] := by
    rintro rfl
    exact Path.feed_notMem_of_isRelative hnames (by rw [h]; simp)
  rw [Closes, IsEnd, or_iff_left hfeed, or_comm]

/-- A component that the pattern of a glob meets after folders is one of the path, and not the last
if the glob goes on below it. -/
theorem mem_components_iff {w : List Char} (hw : '/' ∉ w) (deep : Bool) :
    (∃ cs rest, (Path.join names).toList = cs ++ (w ++ rest) ∧
        (optional (some1 .inLine ++ lit "/")).Reads cs (w ++ rest) ∧ Closes deep rest) ↔
      w ∈ (if deep then names.dropLast else names).map String.toList := by
  have hsplit := Path.splitAt_join_of_isRelative hnames
  cases deep with
  | true =>
      rw [if_pos rfl, List.map_dropLast, ← hsplit, mem_dropLast_splitAt_iff hw]
      constructor
      · rintro ⟨cs, _, htext, hcs, rest, rfl⟩
        exact ⟨cs, rest, (reads_folders_iff hnames htext).mp hcs, htext⟩
      · rintro ⟨cs, rest, hcs, htext⟩
        exact ⟨cs, _, htext, (reads_folders_iff hnames htext).mpr hcs, rest, rfl⟩
  | false =>
      rw [if_neg (by simp), ← hsplit, mem_splitAt_iff hw]
      constructor
      · rintro ⟨cs, rest, htext, hcs, hrest⟩
        rw [closes_false_iff hnames ((List.append_assoc cs w rest).symm ▸ htext)] at hrest
        exact ⟨cs, rest, (reads_folders_iff hnames htext).mp hcs, hrest, htext⟩
      · rintro ⟨cs, rest, hcs, hrest, htext⟩
        rw [← closes_false_iff hnames ((List.append_assoc cs w rest).symm ▸ htext)] at hrest
        exact ⟨cs, rest, htext, (reads_folders_iff hnames htext).mpr hcs, hrest⟩

/-- **A component at any depth** is found if the path has one like it, and not as the last one if
the glob goes on below it. -/
theorem exists_readSegments_anyDepth {seg : List Char} {L : List Char → Prop} (hstar : seg ≠ ['*'])
    (hdeep : isDeep seg = false) (hseg : ReadsAs (readSegment seg) L) (hL : ∀ cs, L cs → '/' ∉ cs)
    (deep : Bool) :
    ∃ p, readSegments false ("**".toList :: seg :: closing deep) = .ok p ∧
      (p.foundIn (Path.join names).toList.toArray = true ↔
        ∃ n ∈ if deep then names.dropLast else names, L n.toList) := by
  obtain ⟨q, hq, hR⟩ := follows_last hstar hseg hdeep deep false
  have hread : readSegments false ("**".toList :: seg :: closing deep) = .ok (anyDepth ++ q) := by
    rw [readSegments, if_neg (by simp), if_neg (by simp [hstar]), if_neg (by simp [hstar])]
    show (if isDeep "**".toList = true then _ else _) = _
    rw [if_pos (show isDeep "**".toList = true from rfl), hq]
    rfl
  have hfound := foundIn_iff_of_accepts (hR.seq (p := optional (some1 .inLine ++ lit "/")) rfl)
    (r := anyDepth ++ q) rfl (Path.join names).toList
  refine ⟨_, hread, hfound.trans ?_⟩
  have hmem := fun w hw => mem_components_iff hnames (w := w) hw deep
  constructor
  · rintro ⟨cs, _, htext, hcs, w, rest, rfl, hw, hrest⟩
    obtain ⟨n, hn, rfl⟩ := List.mem_map.mp ((hmem w (hL w hw)).mp ⟨cs, rest, htext, hcs, hrest⟩)
    exact ⟨n, hn, hw⟩
  · rintro ⟨n, hn, hw⟩
    obtain ⟨cs, rest, htext, hcs, hrest⟩ := (hmem _ (hL _ hw)).mpr (List.mem_map_of_mem hn)
    exact ⟨cs, _, htext, hcs, n.toList, rest, rfl, hw, hrest⟩

/-- **Components from the top** are found if the path begins with them, and with more than them if
the glob goes on below them. -/
theorem exists_readSegments_textStart {parts : List (List Char)} (hne : parts ≠ [])
    (hparts : ∀ w ∈ parts, ∀ c ∈ w, isPlain c = true) (deep : Bool) :
    ∃ p, readSegments false (parts ++ closing deep) = .ok p ∧
      (p.foundIn (Path.join names).toList.toArray = true ↔
        parts <+: names.map String.toList ∧ (deep = true → parts ≠ names.map String.toList)) := by
  obtain ⟨q, hq, hR⟩ := follows_names hne hparts deep false
  have hread : readSegments false (parts ++ closing deep) = .ok (textStart ++ q) := by
    obtain ⟨w, ws, rfl⟩ := List.exists_cons_of_ne_nil hne
    have hdeep := (ne_star_of_plain (hparts w List.mem_cons_self)).2
    have hw : w ≠ ['*', '*'] := fun heq => by simp [heq, isDeep] at hdeep
    rw [readSegments.eq_def, if_neg (by simp [hw]), if_neg (by simp [hw]), if_neg (by simp [hw])]
    show (if isDeep w = true then _ else _) = _
    rw [if_neg (by simp [hdeep]), hq]
    rfl
  have hfound := foundIn_iff_of_accepts hR (r := textStart ++ q) rfl (Path.join names).toList
  refine ⟨_, hread, hfound.trans ?_⟩
  have hsplit := Path.splitAt_join_of_isRelative hnames
  have hslash : ∀ w ∈ parts, '/' ∉ w := fun w hw hc => absurd (hparts w hw _ hc) (by decide)
  rw [← hsplit]
  cases deep with
  | true =>
      rw [imp_iff_right rfl, isPrefix_ne_splitAt_iff hne hslash]
      constructor
      · rintro ⟨_, htext, rest, rfl⟩
        exact ⟨rest, htext⟩
      · rintro ⟨rest, htext⟩
        exact ⟨_, htext, rest, rfl⟩
  | false =>
      rw [and_iff_left fun hdeep => absurd hdeep Bool.false_ne_true,
        isPrefix_splitAt_iff hne hslash]
      refine exists_congr fun rest => and_comm.trans (and_congr_left fun htext => ?_)
      exact closes_false_iff hnames (show _ = joinWith ['/'] parts ++ rest from htext)

/-! ## Choosing -/

section

variable {s : String} {parts : List (List Char)} {P : Prop} [Decidable P]

/-- A glob chooses a path by itself if it is found in it. -/
theorem excludes_eq_decide {p : Pattern} (h : read s = .ok (some ⟨false, p⟩))
    (hP : p.foundIn (Path.join names).toList.toArray = true ↔ P) :
    excludes [s] (Path.join names) = .ok (decide P) := by
  rw [excludes_eq_foundIn h, subject_join hnames, Except.ok.injEq, Bool.eq_iff_iff, hP,
    decide_eq_true_iff]

/-- A glob for components at any depth. -/
theorem excludes_anyDepth (htidy : IsTidy parts) (hs : s.toList = joinWith ['/'] parts)
    {seg : List Char} {deep : Bool}
    (hparts : deepenLast (anchor parts) = "**".toList :: seg :: closing deep)
    {L : List Char → Prop} (hstar : seg ≠ ['*']) (hdeep : isDeep seg = false)
    (hseg : ReadsAs (readSegment seg) L) (hL : ∀ cs, L cs → '/' ∉ cs)
    (hP : (∃ n ∈ if deep then names.dropLast else names, L n.toList) ↔ P) :
    excludes [s] (Path.join names) = .ok (decide P) := by
  obtain ⟨p, hp, hfound⟩ := exists_readSegments_anyDepth hnames hstar hdeep hseg hL deep
  refine excludes_eq_decide hnames (read_eq_of_isTidy htidy hs ?_) (hfound.trans hP)
  have hmerge : mergeDeep (seg :: closing deep) = seg :: closing deep := by
    rw [mergeDeep_cons hdeep]
    cases deep <;> rfl
  rw [hparts, mergeDeep, hmerge]
  simp only [hdeep, Bool.and_false, Bool.false_eq_true, if_false]
  exact hp

/-- A glob for components from the top. -/
theorem excludes_textStart {deep : Bool} (htidy : IsTidy (parts ++ closing deep))
    (hs : s.toList = joinWith ['/'] (parts ++ closing deep))
    (hlength : 2 ≤ (parts ++ closing deep).length) (hne : parts ≠ [])
    (hparts : ∀ w ∈ parts, ∀ c ∈ w, isPlain c = true)
    (hP : (parts <+: names.map String.toList ∧
      (deep = true → parts ≠ names.map String.toList)) ↔ P) :
    excludes [s] (Path.join names) = .ok (decide P) := by
  obtain ⟨p, hp, hfound⟩ := exists_readSegments_textStart hnames hne hparts deep
  refine excludes_eq_decide hnames (read_eq_of_isTidy htidy hs ?_) (hfound.trans hP)
  obtain ⟨c, w, ws, hfirst, -⟩ := htidy.first
  obtain ⟨ws', w', d, hlast, -⟩ := htidy.last
  have hhead : (parts ++ closing deep).head? ≠ some [] := by
    rw [hfirst]
    simp
  have hend : (parts ++ closing deep).getLast? ≠ some [] := by
    rw [hlast, List.getLast?_concat]
    simp
  rw [anchor_eq_self hlength hhead hend, deepenLast_eq_self hend, mergeDeep_eq_self hparts]
  exact hp

end

end

end CodeSweep.Glob
