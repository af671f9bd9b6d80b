/-
# Paths made of names

The components of a path that is joined from names are the names (`components_join`), and the normal
form for globs leaves such a path as it is (`normalize_join`), as it does any path that has it
(`normalize_normalize`).
-/
import CodeSweep.Path
import CodeSweep.Proofs.Text.Joined

namespace CodeSweep.Path

open Text

/-! ## Names -/

/-- The text can be the name of a file: it says something and holds no slash of either kind. -/
def isName (name : String) : Bool :=
  name != "" && name != "." && name.toList.all fun c => c != '/' && c != '\\'

/-- A name says something. -/
theorem saysSomething_of_isName {name : String} (h : isName name = true) :
    (name != "" && name != ".") = true := by
  rw [isName, Bool.and_eq_true] at h
  exact h.1

/-- There is no slash in a name. -/
theorem ne_slash_of_isName {name : String} (h : isName name = true) {c : Char}
    (hc : c ∈ name.toList) : c ≠ '/' ∧ c ≠ '\\' := by
  rw [isName, Bool.and_eq_true] at h
  simpa using List.all_eq_true.mp h.2 c hc

/-! ## Joining -/

/-- Joined names are the first one and the others, each after a slash. -/
theorem toList_join_cons (name : String) (names : List String) :
    (join (name :: names)).toList
      = name.toList ++ names.flatMap fun n => '/' :: n.toList := by
  rw [join, if_neg (by simp), String.toList_intercalate]
  induction names generalizing name with
  | nil => simp [List.intercalate]
  | cons n names ih =>
      rw [List.map_cons, List.map_cons, List.intercalate_cons_cons, ← List.map_cons, ih n]
      simp

section

variable {names : List String} (hne : names ≠ [])

include hne

/-- A path is put together from its names. -/
theorem toList_join : (join names).toList = joinWith ['/'] (names.map String.toList) := by
  rw [join, if_neg (by simpa using hne)]
  exact toList_intercalate "/" names

/-- A path falls apart into the names again. -/
theorem splitAt_join (h : ∀ n ∈ names, '/' ∉ n.toList) :
    splitAt (· == '/') (join names).toList = names.map String.toList := by
  rw [toList_join hne]
  exact splitAt_joinWith (by simpa using hne) (List.forall_mem_map.mpr h)

end

/-- **The components of joined names** are the names. -/
theorem components_join {names : List String} (h : ∀ n ∈ names, isName n = true) :
    components (join names) = names := by
  by_cases hne : names = []
  · rw [hne]
    decide
  · have hslash : ∀ n ∈ names, '/' ∉ n.toList := fun n hn hc =>
      (ne_slash_of_isName (h n hn) hc).1 rfl
    have hback : String.ofList ∘ String.toList = id := funext fun s => String.ofList_toList
    rw [components, splitAt_join hne hslash, List.map_map, hback, List.map_id, List.filter_eq_self]
    exact fun n hn => saysSomething_of_isName (h n hn)

/-- A name does not stand for the folder it is in, whatever comes after a slash. -/
theorem append_ne_here {name : String} (h : isName name = true) (names : List String)
    (rest : List Char) :
    (name.toList ++ names.flatMap fun n => '/' :: n.toList) ≠ '.' :: '/' :: rest := by
  -- otherwise the name would be a single dot
  intro heq
  have hsays := saysSomething_of_isName h
  cases hname : name.toList with
  | nil =>
      rw [String.toList_eq_nil_iff] at hname
      simp [hname] at hsays
  | cons c cs =>
      rw [hname, List.cons_append] at heq
      obtain ⟨rfl, htail⟩ := List.cons.inj heq
      cases cs with
      | nil =>
          rw [← String.ofList_toList (s := name), hname] at hsays
          exact absurd hsays (by decide)
      | cons c cs =>
          obtain ⟨rfl, -⟩ := List.cons.inj htail
          exact (ne_slash_of_isName h (hname ▸ by simp)).1 rfl

/-- So nothing is dropped from it. -/
theorem dropHere_append {name : String} (h : isName name = true) (names : List String) :
    dropHere (name.toList ++ names.flatMap fun n => '/' :: n.toList)
      = name.toList ++ names.flatMap fun n => '/' :: n.toList := by
  rw [dropHere]
  exact append_ne_here h names

/-- Slashes are put for backslashes only. -/
theorem map_slash_eq_self {cs : List Char} (h : ∀ c ∈ cs, c ≠ '\\') :
    cs.map (fun c => if c = '\\' then '/' else c) = cs := by
  conv_rhs => rw [← List.map_id cs]
  exact List.map_congr_left fun c hc => if_neg (h c hc)

/-- What begins with a name and holds no backslash is in normal form. -/
theorem normalize_join_cons {name : String} (h : isName name = true) {names : List String}
    (hnames : ∀ n ∈ names, '\\' ∉ n.toList) :
    normalize (join (name :: names)) = join (name :: names) := by
  have hslashes : ∀ c ∈ (join (name :: names)).toList, c ≠ '\\' := by
    intro c hc
    rw [toList_join_cons, List.mem_append, List.mem_flatMap] at hc
    rcases hc with hc | ⟨m, hm, hc⟩
    · exact (ne_slash_of_isName h hc).2
    · rcases List.mem_cons.mp hc with rfl | hc
      · decide
      · exact fun heq => hnames m hm (heq ▸ hc)
  rw [normalize, map_slash_eq_self hslashes, toList_join_cons, dropHere_append h,
    ← toList_join_cons, String.ofList_toList]

/-- **Joined names are in normal form.** -/
theorem normalize_join {names : List String} (h : ∀ n ∈ names, isName n = true) :
    normalize (join names) = join names := by
  cases names with
  | nil => decide
  | cons n names =>
      rw [List.forall_mem_cons] at h
      exact normalize_join_cons h.1 fun m hm hc => (ne_slash_of_isName (h.2 m hm) hc).2 rfl

/-! ## Relative paths -/

/-- The names lead somewhere from a folder: there is one, the first does not stand for the folder
itself, and each says something, stands on one line and holds no slash of either kind. -/
def isRelative (names : List String) : Bool :=
  !names.isEmpty && names.head? != some "." &&
    names.all fun n => n != "" && n.toList.all fun c => !(['/', '\\', '\n'].contains c)

section

variable {names : List String} (h : isRelative names = true)

include h

/-- There is a name. -/
theorem ne_nil_of_isRelative : names ≠ [] := by
  rintro rfl
  cases h

/-- What the names do not hold. -/
theorem of_isRelative : ∀ n ∈ names, n.toList ≠ [] ∧ '/' ∉ n.toList ∧ '\\' ∉ n.toList ∧
    '\n' ∉ n.toList := by
  intro n hn
  rw [isRelative, Bool.and_eq_true] at h
  have hname := List.all_eq_true.mp h.2 n hn
  rw [Bool.and_eq_true, List.all_eq_true] at hname
  have hnot : ∀ c ∈ ['/', '\\', '\n'], c ∉ n.toList := by
    intro c hc hmem
    have hout := hname.2 c hmem
    rw [Bool.not_eq_true', List.contains_eq_mem, decide_eq_false_iff_not] at hout
    exact hout hc
  refine ⟨fun hnil => ?_, hnot _ (by simp), hnot _ (by simp), hnot _ (by simp)⟩
  rw [String.toList_eq_nil_iff.mp hnil] at hname
  exact absurd hname.1 (by decide)

/-- The components of a relative path. -/
theorem splitAt_join_of_isRelative :
    splitAt (· == '/') (join names).toList = names.map String.toList :=
  splitAt_join (ne_nil_of_isRelative h) fun n hn => (of_isRelative h n hn).2.1

/-- A relative path is all on one line. -/
theorem feed_notMem_of_isRelative : '\n' ∉ (join names).toList := by
  intro hc
  rw [toList_join (ne_nil_of_isRelative h)] at hc
  rcases mem_joinWith hc with hc | ⟨w, hw, hc⟩
  · exact absurd hc (by decide)
  · obtain ⟨n, hn, rfl⟩ := List.mem_map.mp hw
    exact (of_isRelative h n hn).2.2.2 hc

/-- **A relative path** is in normal form and begins with no slash. -/
theorem normalize_join_of_isRelative :
    normalize (join names) = join names ∧ (join names).toList.head? ≠ some '/' ∧
      ∀ rest, (join names).toList ≠ '.' :: '/' :: rest := by
  cases names with
  | nil => cases h
  | cons n names =>
      have hall := of_isRelative h
      rw [List.forall_mem_cons] at hall
      have hname : isName n = true := by
        rw [isRelative, Bool.and_eq_true, Bool.and_eq_true] at h
        rw [isName, Bool.and_eq_true, Bool.and_eq_true, bne_iff_ne, List.all_eq_true]
        refine ⟨⟨fun hn => hall.1.1 (by rw [hn]; rfl), by simpa using h.1.2⟩, fun c hc => ?_⟩
        rw [Bool.and_eq_true, bne_iff_ne, bne_iff_ne]
        exact ⟨fun heq => hall.1.2.1 (heq ▸ hc), fun heq => hall.1.2.2.1 (heq ▸ hc)⟩
      refine ⟨normalize_join_cons hname fun m hm => (hall.2 m hm).2.2.1, ?_, ?_⟩
      · rw [toList_join (List.cons_ne_nil n names), List.map_cons, head?_joinWith hall.1.1]
        exact fun hhead => hall.1.2.1 (List.mem_of_head? hhead)
      · rw [toList_join_cons]
        exact append_ne_here hname names

end

/-! ## Normal form -/

/-- Nothing more is dropped from what is left of a path. -/
theorem dropHere_dropHere (cs : List Char) : dropHere (dropHere cs) = dropHere cs := by
  induction cs using dropHere.induct with
  | case1 cs ih => rw [dropHere, ih]
  | case2 cs hcs =>
      have hsame : dropHere cs = cs := by
        rw [dropHere]
        exact hcs
      rw [hsame, hsame]

/-- What is left of a path was there before. -/
theorem mem_of_mem_dropHere {c : Char} {cs : List Char} (hc : c ∈ dropHere cs) : c ∈ cs := by
  induction cs using dropHere.induct with
  | case1 cs ih =>
      rw [dropHere] at hc
      exact List.mem_cons_of_mem _ (List.mem_cons_of_mem _ (ih hc))
  | case2 cs hcs =>
      rw [dropHere] at hc
      · exact hc
      · exact hcs

/-- **A path in normal form** stays as it is. -/
theorem normalize_normalize (path : String) : normalize (normalize path) = normalize path := by
  have hslashes : ∀ c ∈ (normalize path).toList, c ≠ '\\' := by
    intro c hc
    rw [normalize, String.toList_ofList] at hc
    obtain ⟨d, -, rfl⟩ := List.mem_map.mp (mem_of_mem_dropHere hc)
    split
    · decide
    · next hd => exact hd
  rw [normalize, map_slash_eq_self hslashes, normalize, String.toList_ofList, dropHere_dropHere]

end CodeSweep.Path
