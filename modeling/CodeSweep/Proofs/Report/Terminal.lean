/-
# Findings file by file

The report for the terminal lists the findings by file.  Each finding is listed once
(`byFile_perm`), the files come in order and each of them once (`paths_pairwise`), and the findings
of a file are sorted, with those that agree in all that they are sorted by in the order of the
summary (`filter_findingsIn`).  What is printed can be read again: the headings, and below each what
there is to see of its findings (`readBack_flatMap_printedIn`), with the first line of what was
found (`snippet_isFirstLine`).
-/
import CodeSweep.Proofs.StableSort
import CodeSweep.Report.Terminal
import Mathlib.Data.List.Perm.Basic
import Mathlib.Data.Prod.Lex
import Mathlib.Data.String.Basic

namespace CodeSweep

/-! ## Lists in groups -/

section

variable {α κ : Type} [BEq κ] [LawfulBEq κ]

/-- **Nothing is lost in groups**: the members of each key, one key after the other, are all
members. -/
theorem flatMap_filter_perm (key : α → κ) {keys : List κ} (hkeys : keys.Nodup) {l : List α}
    (hl : ∀ a ∈ l, key a ∈ keys) : (keys.flatMap fun k => l.filter (key · == k)).Perm l := by
  induction keys generalizing l with
  | nil =>
      have hnil : l = [] := List.eq_nil_iff_forall_not_mem.mpr fun a ha => by simpa using hl a ha
      rw [hnil]
      exact .nil
  | cons k keys ih =>
      rw [List.nodup_cons] at hkeys
      -- the other groups are made of the members with another key
      have hrest : keys.flatMap (fun k' => l.filter (key · == k'))
          = keys.flatMap fun k' => (l.filter fun a => !(key a == k)).filter (key · == k') := by
        apply List.flatMap_congr
        intro k' hk'
        rw [List.filter_filter]
        apply List.filter_congr
        intro a _
        rw [eq_comm, Bool.and_eq_left_iff_imp]
        intro ha
        have hne : key a ≠ k := by
          rintro rfl
          exact hkeys.1 (eq_of_beq ha ▸ hk')
        simpa using hne
      have hcovered : ∀ a ∈ l.filter fun a => !(key a == k), key a ∈ keys := by
        intro a ha
        obtain ⟨hmem, hne⟩ := List.mem_filter.mp ha
        exact (List.mem_cons.mp (hl a hmem)).resolve_left (by simpa using hne)
      rw [List.flatMap_cons, hrest]
      exact ((ih hkeys.2 hcovered).append_left _).trans (List.filter_append_perm _ l)

/-- Without repetitions, members that are in order are different as well. -/
theorem pairwise_eraseDups {R : κ → κ → Prop} {l : List κ} (h : l.Pairwise R) :
    l.eraseDups.Pairwise fun a b => R a b ∧ a ≠ b := by
  -- on the length, since repetitions of the first member are left out before going on
  induction hlength : l.length using Nat.strongRecOn generalizing l with
  | ind n ih =>
      cases l with
      | nil => exact .nil
      | cons a l =>
          rw [List.pairwise_cons] at h
          rw [List.eraseDups_cons, List.pairwise_cons]
          constructor
          · intro b hb
            obtain ⟨hmem, hne⟩ := List.mem_filter.mp (List.mem_eraseDups.mp hb)
            have hne' : b ≠ a := by simpa using hne
            exact ⟨h.1 b hmem, hne'.symm⟩
          · refine ih _ ?_ (h.2.filter _) rfl
            rw [← hlength, List.length_cons]
            exact Nat.lt_succ_of_le (List.length_filter_le _ l)

end

/-! ## Printed lines -/

namespace Text

/-- The lines of a text as it is printed.  A carriage return and a line feed are one break, and a
break at the end begins no line. -/
def printedLines : List Char → List (List Char)
  | [] => []
  | '\r' :: '\n' :: cs => [] :: printedLines cs
  | c :: cs =>
    if isLineBreak c then [] :: printedLines cs
    else
      match printedLines cs with
      | [] => [[c]]
      | line :: lines => (c :: line) :: lines

/-- **There is a first line** unless the text is empty. -/
theorem head?_printedLines {text : List Char} (h : text ≠ []) :
    (printedLines text).head? = some (firstPrintedLine text) := by
  induction text using printedLines.induct with
  | case1 => exact absurd rfl h
  | case2 cs => rfl
  | case3 c cs hcs hbreak ih =>
      rw [printedLines, if_pos hbreak, firstPrintedLine,
        List.takeWhile_cons_of_neg (by simpa using hbreak)]
      · rfl
      · exact hcs
  | case4 c cs hcs hbreak hlines ih =>
      have hcs' : cs = [] := by
        by_contra hne
        rw [hlines] at ih
        cases ih hne
      subst hcs'
      rw [printedLines, if_neg hbreak, firstPrintedLine,
        List.takeWhile_cons_of_pos (by simpa using hbreak)]
      · rfl
      · exact hcs
  | case5 c cs hcs hbreak line lines hlines ih =>
      have hcs' : cs ≠ [] := by
        rintro rfl
        cases hlines
      have hline := ih hcs'
      rw [hlines, List.head?_cons, Option.some.injEq, firstPrintedLine] at hline
      rw [printedLines, if_neg hbreak, hlines, firstPrintedLine,
        List.takeWhile_cons_of_pos (by simpa using hbreak), ← hline]
      · rfl
      · exact hcs

end Text

namespace Report

/-! ## The order of findings in a file -/

/-- What the findings of a file are sorted by: severity, from the highest to the lowest, then line,
then rule name. -/
def listKey (f : Finding) : ℕᵒᵈ ×ₗ ℕ ×ₗ String :=
  toLex (OrderDual.toDual f.severity.rank, toLex (f.line, f.rule))

/-- Findings with the same key agree in severity, line and rule name. -/
theorem listKey_eq_iff {f : Finding} {severity : Severity} {line : Nat} {rule : String} :
    listKey f = toLex (OrderDual.toDual severity.rank, toLex (line, rule)) ↔
      f.severity = severity ∧ f.line = line ∧ f.rule = rule := by
  have hrank : f.severity.rank = severity.rank ↔ f.severity = severity := by
    cases f.severity <;> cases severity <;> decide
  rw [listKey, toLex_inj, Prod.mk.injEq, toLex_inj, Prod.mk.injEq, OrderDual.toDual_inj, hrank]

/-- The first finding is more severe, or as severe and in an earlier line, or as severe and in the
same line and its rule does not come after the other one. -/
def ListedInOrder (a b : Finding) : Prop :=
  b.severity.rank < a.severity.rank ∨
    a.severity = b.severity ∧ (a.line < b.line ∨ a.line = b.line ∧ a.rule ≤ b.rule)

/-- A smaller key comes before a greater one. -/
theorem listKey_le_iff {a b : Finding} : listKey a ≤ listKey b ↔ ListedInOrder a b := by
  have hrank : a.severity.rank = b.severity.rank ↔ a.severity = b.severity := by
    cases a.severity <;> cases b.severity <;> decide
  rw [listKey, listKey, Prod.Lex.toLex_le_toLex, Prod.Lex.toLex_le_toLex, ListedInOrder]
  simp only [OrderDual.toDual_lt_toDual, OrderDual.toDual_inj, hrank]

/-- Findings are listed by their keys. -/
theorem listedBefore_eq_keyLe : listedBefore = StableSort.keyLe listKey := by
  funext a b
  rw [StableSort.keyLe, Bool.eq_iff_iff, decide_eq_true_eq, listKey_le_iff, ListedInOrder,
    listedBefore]
  by_cases hseverity : a.severity = b.severity
  · by_cases hline : a.line = b.line
    · simp [hseverity, hline]
    · simp [hseverity, hline]
  · simp [hseverity]

section

variable (fs : List Finding)

/-- The findings of a file are those with its path, sorted. -/
theorem findingsIn_eq_sortBy (path : String) :
    findingsIn fs path = StableSort.sortBy listKey (fs.filter (·.path == path)) := by
  rw [findingsIn, StableSort.sortBy, listedBefore_eq_keyLe]

/-- **Findings that agree** in all that they are sorted by keep their order. -/
theorem filter_findingsIn (path : String) (severity : Severity) (line : Nat) (rule : String) :
    (findingsIn fs path).filter (fun f => f.severity = severity ∧ f.line = line ∧ f.rule = rule)
      = fs.filter fun f =>
        f.path = path ∧ f.severity = severity ∧ f.line = line ∧ f.rule = rule := by
  have hstable := StableSort.filter_sortBy listKey (fs.filter (·.path == path))
    (toLex (OrderDual.toDual severity.rank, toLex (line, rule)))
  simp only [listKey_eq_iff] at hstable
  rw [findingsIn_eq_sortBy, hstable, List.filter_filter]
  apply List.filter_congr
  intro f _
  rw [Bool.eq_iff_iff, Bool.and_eq_true, decide_eq_true_eq, decide_eq_true_eq, beq_iff_eq, and_comm]

/-! ## The files -/

/-- The files come in order, and none comes twice. -/
theorem paths_pairwise : (paths fs).Pairwise fun p q => p < q := by
  have hsorted : ((fs.map (·.path)).mergeSort fun p q => decide (p ≤ q)).Pairwise
      fun p q => p ≤ q := StableSort.sortBy_pairwise (id : String → String) _
  exact (pairwise_eraseDups hsorted).imp fun h => lt_of_le_of_ne h.1 h.2

/-- The files are those with findings. -/
theorem mem_paths {path : String} : path ∈ paths fs ↔ ∃ f ∈ fs, f.path = path := by
  rw [paths, List.mem_eraseDups, List.mem_mergeSort, List.mem_map]

/-- **Each finding is listed once.** -/
theorem byFile_perm : ((byFile fs).flatMap (·.2)).Perm fs := by
  have hnodup : (paths fs).Nodup := (paths_pairwise fs).imp fun h => ne_of_lt h
  have hpaths : ∀ f ∈ fs, f.path ∈ paths fs := fun f hf => (mem_paths fs).mpr ⟨f, hf, rfl⟩
  rw [byFile, List.flatMap_map]
  have hgroups : ((paths fs).flatMap (findingsIn fs)).Perm
      ((paths fs).flatMap fun p => fs.filter (·.path == p)) :=
    List.Perm.flatMap_left _ fun p _ => List.mergeSort_perm ..
  exact hgroups.trans (flatMap_filter_perm Finding.path hnodup hpaths)

end

/-! ## Reading what is printed -/

/-- What a reader sees of a finding. -/
structure Shown where
  severity : Option Severity
  rule : String
  place : String
  description : String
  fixable : Bool
  line : Option String
  deriving DecidableEq, Repr

/-- The severity that a sign in a style stands for. -/
def severityOf? (sign : Span) : Option Severity :=
  match sign.text, sign.style with
  | "  ✖ ", .boldMagenta => some .critical
  | "  ✖ ", .boldRed => some .high
  | "  ⚠ ", .yellow => some .medium
  | "  ℹ ", .dim => some .low
  | _, _ => none

/-- What is seen of the stretches that tell of a finding, and of the line after them. -/
def seenIn (sign rule place description : Span) (fix : List Span) (line : Option Span) : Shown :=
  ⟨severityOf? sign, rule.text, place.text, description.text, !fix.isEmpty, line.map (·.text)⟩

/-- What is read of a list of findings. -/
structure Listing where
  /-- The findings before the first heading. -/
  loose : List Shown
  /-- The headings and the findings below each. -/
  files : List (String × List Shown)
  /-- What is printed after the list. -/
  rest : List Printed
  deriving DecidableEq, Repr

/-- The listing with a heading in front. -/
def Listing.withHeading (heading : String) (l : Listing) : Listing :=
  ⟨[], (heading, l.loose) :: l.files, l.rest⟩

/-- The listing with findings in front. -/
def Listing.withFindings (seen : List Shown) (l : Listing) : Listing :=
  { l with loose := seen ++ l.loose }

/-- The list of findings that is printed.  Bold text alone is a heading; four stretches or more tell
of a finding, and text alone after them is a line of what was found; any other text ends the
list. -/
def readBack : List Printed → Listing
  | [] => ⟨[], [], []⟩
  | .panel _ _ _ :: ps => readBack ps
  | .blank :: ps => readBack ps
  | .text [heading] :: ps =>
    if heading.style = .bold then (readBack ps).withHeading heading.text
    else ⟨[], [], .text [heading] :: ps⟩
  | .text (sign :: rule :: place :: description :: fix) :: .text [line] :: ps =>
    (readBack ps).withFindings [seenIn sign rule place description fix (some line)]
  | .text (sign :: rule :: place :: description :: fix) :: ps =>
    (readBack ps).withFindings [seenIn sign rule place description fix none]
  | .text spans :: ps => ⟨[], [], .text spans :: ps⟩

/-- The line is the first one of what was found, or all of it if that is blank. -/
def IsFirstLine (f : Finding) (line : String) : Prop :=
  Text.trimString f.text = "" ∧ line = f.text ∨
    Text.trimString f.text ≠ "" ∧
      (Text.printedLines f.text.toList).head? = some line.toList

/-- **What is seen** is what there is to see of the finding.  A line of what was found is seen
unless that is empty. -/
structure Shows (seen : Shown) (f : Finding) : Prop where
  severity : seen.severity = some f.severity
  rule : seen.rule = f.rule
  place : seen.place = "  (" ++ toString f.line ++ ":" ++ toString f.column ++ ")"
  description : seen.description = "  " ++ f.description
  fixable : seen.fixable = f.fix.isSome
  noLine : f.text = "" → seen.line = none
  line : f.text ≠ "" → ∃ line, IsFirstLine f line ∧
    seen.line = some ("     " ++ padLeft 4 (toString f.line) ++ " │ " ++ line)

/-- **A line can always be shown** of what was found: if that is not blank, it has a first line. -/
theorem snippet_isFirstLine (f : Finding) : IsFirstLine f (snippet f) := by
  rw [snippet, IsFirstLine]
  split
  · next hblank => exact .inl ⟨hblank, rfl⟩
  · next hblank =>
      have hne : f.text.toList ≠ [] := by
        intro hnil
        rw [Text.trimString, hnil] at hblank
        exact hblank rfl
      rw [Text.head?_printedLines hne, String.toList_ofList]
      exact .inr ⟨hblank, rfl⟩

/-- The sign of a severity stands for it. -/
theorem severityOf?_icon (v : Severity) :
    severityOf? ⟨"  " ++ icon v ++ " ", iconStyle v⟩ = some v := by
  cases v <;> decide

/-- The stretches after the fourth tell whether there is a fix. -/
theorem isEmpty_fix (f : Finding) :
    (!(if f.fix.isSome then [Span.mk "  [fixable]" .green] else []).isEmpty) = f.fix.isSome := by
  cases f.fix <;> rfl

/-- What is seen of a finding as it is printed shows it. -/
theorem shows_seenIn (f : Finding) (line : Option Span) (hnoLine : f.text = "" → line = none)
    (hline : f.text ≠ "" → line
      = some ⟨"     " ++ padLeft 4 (toString f.line) ++ " │ " ++ snippet f, .dim⟩) :
    Shows (seenIn ⟨"  " ++ icon f.severity ++ " ", iconStyle f.severity⟩ ⟨f.rule, .bold⟩
      ⟨"  (" ++ toString f.line ++ ":" ++ toString f.column ++ ")", .dim⟩
      ⟨"  " ++ f.description, .plain⟩
      (if f.fix.isSome then [⟨"  [fixable]", .green⟩] else []) line) f where
  severity := severityOf?_icon f.severity
  rule := rfl
  place := rfl
  description := rfl
  fixable := isEmpty_fix f
  noLine h := by rw [hnoLine h]; rfl
  line h := ⟨snippet f, snippet_isFirstLine f, by rw [hline h]; rfl⟩

/-- A finding is read as it is printed, and then what follows it, if that is no text alone. -/
theorem readBack_printedOf (f : Finding) {ps : List Printed}
    (hps : ∀ span ps', ps ≠ .text [span] :: ps') :
    ∃ seen, Shows seen f ∧ readBack (printedOf f ++ ps) = (readBack ps).withFindings [seen] := by
  rw [printedOf]
  split
  · next hempty =>
      refine ⟨_, shows_seenIn f none (fun _ => rfl) (fun h => absurd hempty h), ?_⟩
      show readBack (.text (_ :: _ :: _ :: _ :: _) :: ps) = _
      rw [readBack]
      · rfl
      · exact hps
  · next hempty =>
      exact ⟨_, shows_seenIn f (some _) (fun h => absurd h hempty) (fun _ => rfl), rfl⟩

/-- The findings of a file are read one after the other, and then what follows them. -/
theorem readBack_flatMap_printedOf (fs : List Finding) {ps : List Printed}
    (hps : ∀ span ps', ps ≠ .text [span] :: ps') :
    ∃ seen, List.Forall₂ Shows seen fs ∧
      readBack (fs.flatMap printedOf ++ ps) = (readBack ps).withFindings seen := by
  induction fs with
  | nil => exact ⟨[], .nil, rfl⟩
  | cons f fs ih =>
      obtain ⟨seen, hseen, hread⟩ := ih
      -- a finding begins with more than one stretch of text
      have hnext : ∀ span ps', fs.flatMap printedOf ++ ps ≠ .text [span] :: ps' := by
        cases fs with
        | nil => exact hps
        | cons g fs =>
            intro span ps'
            rw [List.flatMap_cons, printedOf]
            split <;> exact fun h => by cases h
      obtain ⟨first, hfirst, hread'⟩ := readBack_printedOf f hnext
      refine ⟨first :: seen, .cons hfirst hseen, ?_⟩
      rw [List.flatMap_cons, List.append_assoc, hread', hread]
      rfl

/-- The file is read with its heading and its findings. -/
def FileShown (seen : String × List Shown) (file : String × List Finding) : Prop :=
  seen.1 = file.1 ∧ List.Forall₂ Shows seen.2 file.2

/-- **Files are read** as they are printed, up to where the list ends. -/
theorem readBack_flatMap_printedIn (files : List (String × List Finding)) {ps rest : List Printed}
    (hps : readBack ps = ⟨[], [], rest⟩) :
    ∃ seen, List.Forall₂ FileShown seen files ∧
      readBack (files.flatMap printedIn ++ ps) = ⟨[], seen, rest⟩ := by
  induction files with
  | nil => exact ⟨[], .nil, hps⟩
  | cons file files ih =>
      obtain ⟨seen, hseen, hread⟩ := ih
      have hblank : ∀ span ps', Printed.blank :: (files.flatMap printedIn ++ ps)
          ≠ .text [span] :: ps' := fun span ps' h => by cases h
      obtain ⟨found, hfound, hread'⟩ := readBack_flatMap_printedOf file.2 hblank
      rw [readBack, hread] at hread'
      refine ⟨(file.1, found) :: seen, .cons ⟨rfl, hfound⟩ hseen, ?_⟩
      rw [List.flatMap_cons, printedIn, List.append_assoc, List.append_assoc, List.cons_append,
        readBack, List.singleton_append, hread', if_pos rfl, Listing.withFindings,
        Listing.withHeading, List.append_nil]

/-- The list ends where the totals begin. -/
theorem readBack_totals (s : Summary) : readBack (totals s) = ⟨[], [], totals s⟩ := rfl

/-- The totals are stretches of text alone, as no finding is. -/
theorem exists_span_of_mem_totals {s : Summary} {p : Printed} (hp : p ∈ totals s) :
    ∃ span, p = .text [span] := by
  rw [totals] at hp
  split at hp
  · simp only [List.append_nil, List.cons_append, List.nil_append, List.mem_cons,
      List.not_mem_nil, or_false] at hp
    rcases hp with rfl | rfl | rfl <;> exact ⟨_, rfl⟩
  · simp only [List.cons_append, List.nil_append, List.mem_cons, List.not_mem_nil,
      or_false] at hp
    rcases hp with rfl | rfl | rfl | rfl <;> exact ⟨_, rfl⟩

/-- The row of stretches of text that is printed, without their styles. -/
def rowOf? : Printed → Option String
  | .text spans => some (String.join (spans.map (·.text)))
  | _ => none

/-- **On a wide console** every row is a line of its own, in the order in which they are printed. -/
theorem rows_sublist (width : Nat) (ps : List Printed) :
    (ps.filterMap rowOf?).Sublist (ps.flatMap (wideConsole width)) := by
  induction ps with
  | nil => exact .slnil
  | cons p ps ih =>
      cases p with
      | panel title foot border => exact ih.trans (List.sublist_append_right _ _)
      | text spans => exact ih.cons_cons _
      | blank => exact ih.cons _

/-- **The report lists the findings** of a summary file by file, on every console, and on a wide one
in lines of their own.  What is printed can be read: there are headings with findings below each,
all that there is to see of a finding is seen once, and these are the findings of the summary, the
files in order, the findings of a file by severity, line and rule name, and those that agree in
these in the order of the summary.  Nothing that is printed after the list tells of a finding. -/
theorem terminal_lists_findings (s : Summary) :
    ∃ (ps rest : List Printed) (seen : List (String × List Shown))
      (files : List (String × List Finding)),
      (∀ console, onConsole console s = unlines (ps.flatMap console)) ∧
      (∀ width, ∃ lines, terminal width s = String.join (lines.map (· ++ "\n")) ∧
        (ps.filterMap rowOf?).Sublist lines) ∧
      readBack ps = ⟨[], seen, rest⟩ ∧
      (∀ p ∈ rest, ∃ span, p = .text [span]) ∧
      List.Forall₂ FileShown seen files ∧
      (files.flatMap (·.2)).Perm s.findings ∧
      (files.map (·.1)).Pairwise (fun p q => p < q) ∧
      ∀ file ∈ files, file.2 ≠ [] ∧ (∀ f ∈ file.2, f.path = file.1) ∧
        file.2.Pairwise ListedInOrder ∧
        ∀ severity line rule,
          file.2.filter (fun f => f.severity = severity ∧ f.line = line ∧ f.rule = rule)
            = s.findings.filter fun f =>
              f.path = file.1 ∧ f.severity = severity ∧ f.line = line ∧ f.rule = rule := by
  obtain ⟨seen, hseen, hread⟩ :=
    readBack_flatMap_printedIn (byFile s.findings) (readBack_totals s)
  refine ⟨printed s, totals s, seen, byFile s.findings, fun console => rfl,
    fun width => ⟨_, rfl, rows_sublist width (printed s)⟩, hread,
    fun p hp => exists_span_of_mem_totals hp, hseen, byFile_perm s.findings, ?_,
    fun file hfile => ?_⟩
  · rw [byFile, List.map_map]
    exact (List.map_id (paths s.findings)).symm ▸ paths_pairwise s.findings
  · obtain ⟨path, hpath, rfl⟩ := List.mem_map.mp hfile
    have hmem : ∀ f, f ∈ findingsIn s.findings path ↔ f ∈ s.findings ∧ f.path = path := by
      intro f
      rw [findingsIn, List.mem_mergeSort, List.mem_filter, beq_iff_eq]
    refine ⟨?_, fun f hf => ((hmem f).mp hf).2, ?_, filter_findingsIn s.findings path⟩
    · obtain ⟨f, hf, hfpath⟩ := (mem_paths s.findings).mp hpath
      exact List.ne_nil_of_mem ((hmem f).mpr ⟨hf, hfpath⟩)
    · rw [findingsIn_eq_sortBy]
      exact (StableSort.sortBy_pairwise listKey _).imp listKey_le_iff.mp

/-- A finding with a line break at its start. -/
def listedFinding (path rule : String) (severity : Severity) (line column : Nat) : Finding :=
  { rule, path, language := "c", severity, description := "",
    extent := ⟨⟨line, column⟩, ⟨line + 1, 2⟩⟩, text := "\nx", fix := none }

/-- Four findings in two files, of which two agree in severity, line and rule name. -/
def listedSummary : Summary :=
  ⟨2, 0, [listedFinding "b.c" "y" .high 2 7, listedFinding "a.c" "x" .low 1 1,
    listedFinding "b.c" "x" .critical 3 1, listedFinding "b.c" "y" .high 2 1]⟩

/-- The file with three findings is printed with all of them in order, and the two that agree keep
their order. -/
theorem terminal_lists_findings_two_files :
    ∃ (ps rest : List Printed) (seen : List (String × List Shown))
      (files : List (String × List Finding)),
      (∀ console, onConsole console listedSummary = unlines (ps.flatMap console)) ∧
      (∃ lines, terminal 80 listedSummary = String.join (lines.map (· ++ "\n")) ∧
        (ps.filterMap rowOf?).Sublist lines) ∧
      readBack ps = ⟨[], seen, rest⟩ ∧ List.Forall₂ FileShown seen files ∧
      ∃ file ∈ files, file.1 = "b.c" ∧ file.2.Pairwise ListedInOrder ∧
        file.2.filter (fun f => f.severity = .high ∧ f.line = 2 ∧ f.rule = "y")
          = [listedFinding "b.c" "y" .high 2 7, listedFinding "b.c" "y" .high 2 1] := by
  obtain ⟨ps, rest, seen, files, hconsole, hlines, hread, -, hseen, hperm, -, hfiles⟩ :=
    terminal_lists_findings listedSummary
  have hmem : listedFinding "b.c" "x" .critical 3 1 ∈ files.flatMap (·.2) :=
    hperm.mem_iff.mpr (by simp [listedSummary])
  obtain ⟨file, hfile, hf⟩ := List.mem_flatMap.mp hmem
  obtain ⟨-, hpath, hsorted, hstable⟩ := hfiles file hfile
  have hname : file.1 = "b.c" := (hpath _ hf).symm
  refine ⟨ps, rest, seen, files, hconsole, hlines 80, hread, hseen, file, hfile, hname, hsorted,
    ?_⟩
  rw [hstable .high 2 "y", hname]
  decide +kernel

end Report

end CodeSweep
