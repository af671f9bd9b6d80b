/-
# Shapes of globs

The globs in tables have few shapes (`exists_shape_of_mem_tables`): a name with a star in it, a
name, what lies below a folder of a name, a path from the top, and what lies below that.  What a
glob of such a shape chooses is told by the components of the path (`excludes_spelling`).
-/
import CodeSweep.Catalogue
import CodeSweep.Proofs.Glob.Components

namespace CodeSweep.Glob

open Pattern Text

/-! ## Shapes -/

/-- The shapes of the globs in tables. -/
inductive Shape where
  /-- A component that begins and ends with something. -/
  | wildcard (front back : String)
  /-- A component of the name. -/
  | named (name : String)
  /-- What lies below a folder of the name. -/
  | below (folder : String)
  /-- The path from the top, and what lies below it. -/
  | anchored (names : List String)
  /-- What lies below the path from the top. -/
  | anchoredBelow (names : List String)
  deriving DecidableEq, Repr

namespace Shape

/-- The components of the glob. -/
def parts : Shape → List String
  | wildcard front back => [front ++ "*" ++ back]
  | named name => [name]
  | below folder => ["**", folder, "**"]
  | anchored names => names
  | anchoredBelow names => names ++ ["**"]

/-- The glob as it is written. -/
def spelling (s : Shape) : String := "/".intercalate s.parts

/-- What a glob of the shape is for, told by the components of a path. -/
def Chooses : Shape → List String → Prop
  | wildcard front back, path => ∃ name ∈ path, front.toList <+: name.toList ∧
      back.toList <:+ name.toList ∧ front.length + back.length ≤ name.length
  | named name, path => name ∈ path
  | below folder, path => folder ∈ path.dropLast
  | anchored names, path => names <+: path
  | anchoredBelow names, path => names <+: path ∧ names ≠ path

instance (s : Shape) (path : List String) : Decidable (s.Chooses path) :=
  match s with
  | wildcard _ _ => inferInstanceAs (Decidable (∃ _ ∈ _, _))
  | named _ => inferInstanceAs (Decidable (_ ∈ _))
  | below _ => inferInstanceAs (Decidable (_ ∈ _))
  | anchored _ => inferInstanceAs (Decidable (_ <+: _))
  | anchoredBelow _ => inferInstanceAs (Decidable (_ ∧ _))

/-- The text stands for itself wherever it is put: it begins with no sign and does not end in a
blank. -/
def isLiteral (text : String) : Bool :=
  text.toList.all isPlain && text.toList.head? != some '!' && text.toList.head? != some '#' &&
    !text.toList.getLast?.any isBlank

/-- What is written around the stars are literals, and there is enough of them. -/
def isProper : Shape → Bool
  | wildcard front back => isLiteral front && isLiteral back && (front != "" || back != "")
  | named name => isLiteral name
  | below folder => isLiteral folder
  | anchored names => decide (2 ≤ names.length) && names.all fun n => n != "" && isLiteral n
  | anchoredBelow names => !names.isEmpty && names.all fun n => n != "" && isLiteral n

end Shape

/-! ## Literals -/

section

variable {text : String} (h : Shape.isLiteral text = true)

include h

/-- The characters of a literal are plain. -/
theorem isPlain_of_isLiteral : ∀ c ∈ text.toList, isPlain c = true := by
  rw [Shape.isLiteral, Bool.and_eq_true, Bool.and_eq_true, Bool.and_eq_true] at h
  exact List.all_eq_true.mp h.1.1.1

/-- There is no slash in a literal. -/
theorem slash_notMem_of_isLiteral : '/' ∉ text.toList := fun hc =>
  absurd (isPlain_of_isLiteral h '/' hc) (by decide)

/-- A literal begins with no sign. -/
theorem head_of_isLiteral {c : Char} {cs : List Char} (htext : text.toList = c :: cs) :
    c ≠ '!' ∧ c ≠ '#' := by
  rw [Shape.isLiteral, Bool.and_eq_true, Bool.and_eq_true, Bool.and_eq_true, htext] at h
  exact ⟨by simpa using h.1.1.2, by simpa using h.1.2⟩

/-- A literal does not end in a blank. -/
theorem last_of_isLiteral {c : Char} {cs : List Char} (htext : text.toList = cs ++ [c]) :
    isBlank c = false := by
  rw [Shape.isLiteral, Bool.and_eq_true, htext, List.getLast?_concat] at h
  simpa using h.2

end

/-- Something with a beginning and an end that do not overlap has something between them. -/
theorem exists_middle_iff {w front back : List Char} (hw : '/' ∉ w) :
    (∃ middle, w = front ++ (middle ++ back) ∧ '/' ∉ middle) ↔
      front <+: w ∧ back <:+ w ∧ front.length + back.length ≤ w.length := by
  constructor
  · rintro ⟨middle, rfl, -⟩
    refine ⟨List.prefix_append _ _, ⟨front ++ middle, List.append_assoc ..⟩, ?_⟩
    simp only [List.length_append]
    omega
  · rintro ⟨⟨rest, rfl⟩, hback, hlength⟩
    rw [List.length_append, Nat.add_le_add_iff_left] at hlength
    obtain ⟨middle, rfl⟩ :=
      List.suffix_of_suffix_length_le hback (List.suffix_append front rest) hlength
    exact ⟨middle, rfl, fun hc => hw (by simp [hc])⟩

/-! ## Tidy shapes -/

/-- A name with a star in it is tidy. -/
theorem isTidy_wildcard {front back : String} (hfront : Shape.isLiteral front = true)
    (hback : Shape.isLiteral back = true) : IsTidy [front.toList ++ '*' :: back.toList] where
  slash_notMem := by
    rw [List.forall_mem_singleton, List.mem_append, List.mem_cons, not_or, not_or]
    exact ⟨slash_notMem_of_isLiteral hfront, by decide, slash_notMem_of_isLiteral hback⟩
  whole := by
    rw [List.forall_mem_singleton]
    exact isWhole_wildcard (isPlain_of_isLiteral hfront) (isPlain_of_isLiteral hback)
  first := by
    cases hcs : front.toList with
    | nil => exact ⟨'*', back.toList, [], rfl, by decide, by decide⟩
    | cons c cs => exact ⟨c, _, [], rfl, head_of_isLiteral hfront hcs⟩
  last := by
    rcases List.eq_nil_or_concat' back.toList with hcs | ⟨cs, c, hcs⟩
    · exact ⟨[], front.toList, '*', by rw [hcs]; rfl, by decide⟩
    · exact ⟨[], front.toList ++ '*' :: cs, c, by simp [hcs], last_of_isLiteral hback hcs⟩

/-- So are literals, one after the other, and what lies below them. -/
theorem isTidy_names {names : List String} (hne : names ≠ [])
    (hnames : ∀ n ∈ names, n ≠ "" ∧ Shape.isLiteral n = true) (deep : Bool) :
    IsTidy (names.map String.toList ++ closing deep) where
  slash_notMem := by
    rw [List.forall_mem_append, List.forall_mem_map]
    refine ⟨fun n hn => slash_notMem_of_isLiteral (hnames n hn).2, ?_⟩
    cases deep <;> decide
  whole := by
    rw [List.forall_mem_append, List.forall_mem_map]
    exact ⟨fun n hn => isWhole_of_plain (isPlain_of_isLiteral (hnames n hn).2),
      isWhole_closing deep⟩
  first := by
    obtain ⟨n, ns, rfl⟩ := List.exists_cons_of_ne_nil hne
    obtain ⟨hn, hliteral⟩ := hnames n List.mem_cons_self
    obtain ⟨c, cs, hcs⟩ := List.exists_cons_of_ne_nil (mt String.toList_eq_nil_iff.mp hn)
    exact ⟨c, cs, _, by rw [List.map_cons, hcs]; rfl, head_of_isLiteral hliteral hcs⟩
  last := by
    cases deep with
    | true => exact ⟨names.map String.toList, ['*'], '*', rfl, by decide⟩
    | false =>
        obtain ⟨ns, n, rfl⟩ := (List.eq_nil_or_concat' names).resolve_left hne
        obtain ⟨hn, hliteral⟩ := hnames n (by simp)
        obtain ⟨cs, c, hcs⟩ :=
          (List.eq_nil_or_concat' n.toList).resolve_left (mt String.toList_eq_nil_iff.mp hn)
        exact ⟨ns.map String.toList, cs, c, by simp [closing, hcs],
          last_of_isLiteral hliteral hcs⟩

/-! ## What shapes choose -/

/-- A star with something around it is not one of the components that stand for others. -/
theorem ne_star_of_wildcard {front back : List Char} (hfront : ∀ c ∈ front, isPlain c = true)
    (hback : ∀ c ∈ back, isPlain c = true) (hne : front ≠ [] ∨ back ≠ []) :
    front ++ '*' :: back ≠ ['*'] ∧ isDeep (front ++ '*' :: back) = false := by
  have hstar : isPlain '*' = false := rfl
  cases front with
  | nil =>
      have hback' : back ≠ [] := hne.resolve_left (not_not.mpr rfl)
      refine ⟨fun heq => hback' (List.cons.inj heq).2, beq_false_of_ne fun heq => ?_⟩
      have hlone : back = ['*'] := (List.cons.inj heq).2
      exact absurd (hback '*' (by simp [hlone])) (by simp [hstar])
  | cons c front =>
      have hc : c ≠ '*' := by
        rintro rfl
        exact absurd (hfront '*' List.mem_cons_self) (by simp [hstar])
      exact ⟨fun heq => hc (List.cons.inj heq).1,
        beq_false_of_ne fun heq => hc (List.cons.inj heq).1⟩

section

variable {names : List String} (hnames : Path.isRelative names = true)

include hnames

/-- A name with a star in it is for the components that begin and end as it does. -/
theorem excludes_wildcard {front back : String} (hfront : Shape.isLiteral front = true)
    (hback : Shape.isLiteral back = true) (hne : front ≠ "" ∨ back ≠ "") :
    excludes [(Shape.wildcard front back).spelling] (Path.join names)
      = .ok (decide ((Shape.wildcard front back).Chooses names)) := by
  have hplain := isPlain_of_isLiteral hfront
  have hplain' := isPlain_of_isLiteral hback
  have hsome : front.toList ≠ [] ∨ back.toList ≠ [] :=
    hne.imp (mt String.toList_eq_nil_iff.mp) (mt String.toList_eq_nil_iff.mp)
  obtain ⟨hstar, hdeep⟩ := ne_star_of_wildcard hplain hplain' hsome
  refine excludes_anyDepth hnames (isTidy_wildcard hfront hback) ?_
    (anchor_singleton (by simp) hdeep) hstar hdeep (readsAs_wildcard hplain hplain') ?_ ?_
  · rw [Shape.spelling, toList_intercalate]
    simp [Shape.parts, joinWith]
  · rintro _ ⟨middle, rfl, hmiddle⟩
    simp [slash_notMem_of_isLiteral hfront, slash_notMem_of_isLiteral hback, hmiddle]
  · refine exists_congr fun n => and_congr_right fun hn => ?_
    rw [exists_middle_iff (Path.of_isRelative hnames n hn).2.1, String.length_toList,
      String.length_toList, String.length_toList]

/-- A name is for the components that are equal to it. -/
theorem excludes_named {name : String} (h : Shape.isLiteral name = true) :
    excludes [(Shape.named name).spelling] (Path.join names)
      = .ok (decide ((Shape.named name).Chooses names)) := by
  by_cases hname : name = ""
  · -- an empty glob chooses nothing, and no component is empty
    have hout : "" ∉ names := fun hn => (Path.of_isRelative hnames "" hn).1 rfl
    have hempty : excludes [""] (Path.join names) = .ok false := by
      rw [excludes_eq_any (by decide)]
      rfl
    rw [hname]
    exact hempty.trans (congrArg _ (decide_eq_false hout).symm)
  · have hplain := isPlain_of_isLiteral h
    obtain ⟨hstar, hdeep⟩ := ne_star_of_plain hplain
    have htidy := isTidy_names (List.cons_ne_nil name []) (by simpa using ⟨hname, h⟩) false
    refine excludes_anyDepth hnames htidy ?_
      (anchor_singleton (mt String.toList_eq_nil_iff.mp hname) hdeep) hstar hdeep
      (readsAs_literal hplain) ?_ ?_
    · rw [Shape.spelling, toList_intercalate]
      rfl
    · rintro _ rfl
      exact slash_notMem_of_isLiteral h
    · simp [Shape.Chooses, String.toList_inj]

/-- A name between deep components is for what lies below a folder of the name. -/
theorem excludes_below {folder : String} (h : Shape.isLiteral folder = true) :
    excludes [(Shape.below folder).spelling] (Path.join names)
      = .ok (decide ((Shape.below folder).Chooses names)) := by
  have hplain := isPlain_of_isLiteral h
  obtain ⟨hstar, hdeep⟩ := ne_star_of_plain hplain
  have htidy : IsTidy ["**".toList, folder.toList, "**".toList] :=
    ⟨by simpa using slash_notMem_of_isLiteral h,
      by simpa using ⟨isWhole_of_isDeep rfl, isWhole_of_plain hplain, isWhole_of_isDeep rfl⟩,
      ⟨'*', ['*'], _, rfl, by decide, by decide⟩,
      ⟨["**".toList, folder.toList], ['*'], '*', rfl, by decide⟩⟩
  have hanchor : deepenLast (anchor ["**".toList, folder.toList, "**".toList])
      = "**".toList :: folder.toList :: closing true := by
    rw [anchor_eq_self (by simp) (by simp) (by simp), deepenLast_eq_self (by simp)]
    rfl
  refine excludes_anyDepth hnames htidy ?_ hanchor hstar hdeep (readsAs_literal hplain) ?_ ?_
  · rw [Shape.spelling, toList_intercalate]
    rfl
  · rintro _ rfl
    exact slash_notMem_of_isLiteral h
  · simp [Shape.Chooses, String.toList_inj]

section

variable {top : List String} (htop : ∀ n ∈ top, n ≠ "" ∧ Shape.isLiteral n = true)

include htop

/-- A path from the top is for what it leads to, and what lies below that. -/
theorem excludes_anchored (hlength : 2 ≤ top.length) :
    excludes [(Shape.anchored top).spelling] (Path.join names)
      = .ok (decide ((Shape.anchored top).Chooses names)) := by
  have hne : top ≠ [] := List.ne_nil_of_length_pos (by omega)
  refine excludes_textStart hnames (isTidy_names hne htop false) ?_ (by simpa [closing]) (by simpa)
    ?_ ?_
  · rw [Shape.spelling, toList_intercalate, closing, if_neg (by simp), List.append_nil]
    rfl
  · rw [List.forall_mem_map]
    exact fun n hn => isPlain_of_isLiteral (htop n hn).2
  · rw [and_iff_left fun hdeep => absurd hdeep Bool.false_ne_true,
      List.prefix_map_iff_of_injective fun _ _ => String.toList_inj.mp]
    rfl

/-- A path from the top with a deep component is only for what lies below it. -/
theorem excludes_anchoredBelow (hne : top ≠ []) :
    excludes [(Shape.anchoredBelow top).spelling] (Path.join names)
      = .ok (decide ((Shape.anchoredBelow top).Chooses names)) := by
  refine excludes_textStart hnames (isTidy_names hne htop true) ?_ ?_ (by simpa) ?_ ?_
  · rw [Shape.spelling, toList_intercalate, Shape.parts, List.map_append]
    rfl
  · have hpos := List.length_pos_of_ne_nil hne
    simp [closing]
    omega
  · rw [List.forall_mem_map]
    exact fun n hn => isPlain_of_isLiteral (htop n hn).2
  · rw [imp_iff_right rfl, List.prefix_map_iff_of_injective fun _ _ => String.toList_inj.mp, ne_eq,
      List.map_inj_right fun _ _ => String.toList_inj.mp]
    rfl

end

/-- **A glob of a shape** chooses the paths that it is for, told by their components. -/
theorem excludes_spelling {s : Shape} (hs : s.isProper = true) :
    excludes [s.spelling] (Path.join names) = .ok (decide (s.Chooses names)) := by
  cases s with
  | wildcard front back =>
      simp only [Shape.isProper, Bool.and_eq_true, Bool.or_eq_true, bne_iff_ne] at hs
      exact excludes_wildcard hnames hs.1.1 hs.1.2 hs.2
  | named name => exact excludes_named hnames hs
  | below folder => exact excludes_below hnames hs
  | anchored top =>
      simp only [Shape.isProper, Bool.and_eq_true, decide_eq_true_eq, List.all_eq_true,
        bne_iff_ne] at hs
      exact excludes_anchored hnames hs.2 hs.1
  | anchoredBelow top =>
      simp only [Shape.isProper, Bool.and_eq_true, Bool.not_eq_true', List.isEmpty_eq_false_iff,
        List.all_eq_true, bne_iff_ne] at hs
      exact excludes_anchoredBelow hnames hs.2 hs.1

end

/-- A path with a folder of tests in it, and globs of each shape that do or do not choose it. -/
theorem excludes_spelling_conftest :
    (∀ s ∈ [Shape.wildcard "test_" ".py", .named "conftest.py", .below "tests",
        .anchored ["src", "main.py"], .anchoredBelow ["src", "tests"]], s.isProper = true) ∧
      Path.isRelative ["src", "tests", "conftest.py"] = true ∧
      [Shape.wildcard "test_" ".py", .named "conftest.py", .below "tests",
          .anchored ["src", "main.py"], .anchoredBelow ["src", "tests"]].map
          (fun s => excludes [s.spelling] (Path.join ["src", "tests", "conftest.py"]))
        = [.ok false, .ok true, .ok true, .ok false, .ok true] := by
  have hshapes : ∀ s ∈ [Shape.wildcard "test_" ".py", .named "conftest.py", .below "tests",
      .anchored ["src", "main.py"], .anchoredBelow ["src", "tests"]], s.isProper = true := by
    decide
  have hnames : Path.isRelative ["src", "tests", "conftest.py"] = true := by decide
  refine ⟨hshapes, hnames, ?_⟩
  rw [List.map_congr_left fun s hs => excludes_spelling hnames (hshapes s hs)]
  decide

/-! ## Tables -/

/-- The shape of a glob by the way it is written. -/
def Shape.ofSpelling (glob : String) : Shape :=
  match (splitAt (· == '/') glob.toList).map String.ofList with
  | [name] =>
    match splitAt (· == '*') name.toList with
    | [front, back] => .wildcard (String.ofList front) (String.ofList back)
    | _ => .named name
  | ["**", folder, "**"] => .below folder
  | parts => if parts.getLast? = some "**" then .anchoredBelow parts.dropLast else .anchored parts

/-- **The globs of tables** have shapes: those of the languages, for test files and entry points,
and those of the rules that come with the library. -/
theorem exists_shape_of_mem_tables {glob : String}
    (h : glob ∈ Language.all.flatMap (fun l => l.profile.testGlobs ++ l.profile.entryPoints) ++
      catalogue.flatMap (·.exclude)) : ∃ s : Shape, s.isProper = true ∧ s.spelling = glob := by
  have hall : ∀ g ∈ Language.all.flatMap (fun l => l.profile.testGlobs ++ l.profile.entryPoints) ++
      catalogue.flatMap (·.exclude),
      (Shape.ofSpelling g).isProper = true ∧ (Shape.ofSpelling g).spelling = g := by
    decide +kernel
  exact ⟨_, hall glob h⟩

end CodeSweep.Glob
