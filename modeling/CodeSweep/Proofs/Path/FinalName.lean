/-
# The final name of a path

The final name of a path is the last piece between its slashes, of either kind, that says something:
neither nothing nor a single dot.  It is what the normal form of the path ends in
(`toList_baseName_normalize`).  What comes before the last slash does not matter to it
(`finalName_append`), nor does an exchange of characters that leaves slashes and dots in place
(`finalName_map`).
-/
import CodeSweep.Proofs.Path

namespace CodeSweep.Path

open Text

/-! ## Final names -/

/-- A slash of either kind. -/
def isSlash (c : Char) : Bool := c == '/' || c == '\\'

/-- A slash for either kind of slash. -/
def slash (c : Char) : Char := if c = '\\' then '/' else c

/-- The piece of a path is neither empty nor a single dot. -/
def saysSomething (piece : List Char) : Bool := piece != [] && piece != ['.']

/-- The last piece of a path that says something, or nothing. -/
def finalName (path : List Char) : List Char :=
  ((splitAt isSlash path).filter saysSomething).getLast?.getD []

/-- There is no slash in a final name. -/
theorem isSlash_of_mem_finalName {path : List Char} {c : Char} (hc : c ∈ finalName path) :
    isSlash c = false := by
  rw [finalName] at hc
  cases hlast : ((splitAt isSlash path).filter saysSomething).getLast? with
  | none =>
      rw [hlast] at hc
      cases hc
  | some piece =>
      rw [hlast] at hc
      exact eq_false_of_mem_splitAt (List.mem_of_mem_filter (List.mem_of_getLast? hlast)) hc

/-! ## Base names -/

/-- A base name is the last piece between slashes that says something. -/
theorem toList_baseName (path : String) :
    (baseName path).toList
      = ((splitAt (· == '/') path.toList).filter saysSomething).getLast?.getD [] := by
  have hword : (fun s : String => s != "" && s != ".") ∘ String.ofList = saysSomething := by
    funext piece
    have hne : ∀ word : List Char,
        (String.ofList piece != String.ofList word) = (piece != word) := by
      intro word
      rw [Bool.eq_iff_iff, bne_iff_ne, bne_iff_ne, ne_eq, ne_eq, String.ofList_inj]
    exact congrArg₂ (· && ·) (hne []) (hne ['.'])
  rw [baseName, components, List.filter_map, hword, List.getLast?_map]
  cases ((splitAt (· == '/') path.toList).filter saysSomething).getLast? with
  | none => rfl
  | some piece => exact String.toList_ofList

/-- The folder that a path begins in says nothing. -/
theorem filter_splitAt_dropHere (cs : List Char) :
    (splitAt (· == '/') (dropHere cs)).filter saysSomething
      = (splitAt (· == '/') cs).filter saysSomething := by
  induction cs using dropHere.induct with
  | case1 cs ih =>
      have hsplit : splitAt (· == '/') ('.' :: '/' :: cs) = ['.'] :: splitAt (· == '/') cs :=
        splitAt_append_cons ['.'] cs
      rw [dropHere, ih, hsplit, List.filter_cons_of_neg (by decide)]
  | case2 cs hcs =>
      rw [dropHere]
      exact hcs

/-- A slash of either kind becomes a slash. -/
theorem slash_beq_slash (c : Char) : (slash c == '/') = isSlash c := by
  by_cases hc : c = '\\'
  · subst hc
    rfl
  · simp [slash, isSlash, hc]

/-- **Final names.**  The base name of the normal form of a path is its final name. -/
theorem toList_baseName_normalize (path : String) :
    (baseName (normalize path)).toList = finalName path.toList := by
  have hsplit : splitAt (· == '/') (path.toList.map slash) = splitAt isSlash path.toList := by
    rw [splitAt_map slash_beq_slash]
    conv_rhs => rw [← List.map_id (splitAt isSlash path.toList)]
    apply List.map_congr_left
    intro piece hpiece
    apply map_slash_eq_self
    rintro c hc rfl
    exact absurd (eq_false_of_mem_splitAt hpiece hc) (by decide)
  rw [toList_baseName, normalize, String.toList_ofList, filter_splitAt_dropHere]
  exact congrArg (fun pieces => (pieces.filter saysSomething).getLast?.getD []) hsplit

/-! ## Paths with the same final name -/

/-- **What comes before the last slash** does not matter to the final name. -/
theorem finalName_append {name : List Char} (hname : saysSomething name = true)
    (hslash : ∀ c ∈ name, isSlash c = false) (folder : List Char) :
    finalName (folder ++ '/' :: name) = name := by
  rw [finalName, splitAt_append rfl, splitAt_of_forall_not hslash, List.filter_append,
    List.filter_cons_of_pos hname, List.filter_nil, List.getLast?_concat, Option.getD_some]

/-- A name is its own final name. -/
theorem finalName_eq_self {name : List Char} (hname : saysSomething name = true)
    (hslash : ∀ c ∈ name, isSlash c = false) : finalName name = name := by
  rw [finalName, splitAt_of_forall_not hslash, List.filter_cons_of_pos hname, List.filter_nil,
    List.getLast?_singleton, Option.getD_some]

/-- A name says something and holds no slashes. -/
theorem of_isName {name : String} (h : isName name = true) :
    saysSomething name.toList = true ∧ ∀ c ∈ name.toList, isSlash c = false := by
  constructor
  · have hword := saysSomething_of_isName h
    rw [Bool.and_eq_true, bne_iff_ne, bne_iff_ne] at hword
    rw [saysSomething, Bool.and_eq_true, bne_iff_ne, bne_iff_ne]
    exact ⟨fun hnil => hword.1 (String.toList_inj.mp hnil),
      fun hdot => hword.2 (String.toList_inj.mp hdot)⟩
  · intro c hc
    obtain ⟨hforward, hback⟩ := ne_slash_of_isName h hc
    simp [isSlash, hforward, hback]

/-- **An exchange of characters** that leaves slashes and dots in their places is one in the final
name. -/
theorem finalName_map {f : Char → Char} (hslash : ∀ c, isSlash (f c) = isSlash c)
    (hdot : ∀ c, f c = '.' ↔ c = '.') (path : List Char) :
    finalName (path.map f) = (finalName path).map f := by
  have hword : saysSomething ∘ List.map f = saysSomething := by
    funext piece
    have hhere : (piece.map f != ['.']) = (piece != ['.']) := by
      rw [Bool.eq_iff_iff, bne_iff_ne, bne_iff_ne, ne_eq, ne_eq]
      refine not_congr ?_
      cases piece with
      | nil => simp
      | cons c cs => simp [hdot]
    have hnil : (piece.map f != []) = (piece != []) := by
      cases piece <;> rfl
    exact congrArg₂ (· && ·) hnil hhere
  rw [finalName, finalName, splitAt_map hslash, List.filter_map, hword, List.getLast?_map]
  cases ((splitAt isSlash path).filter saysSomething).getLast? <;> rfl

/-- Paths that differ in the kinds of their slashes have the same final name. -/
theorem finalName_map_slash (path : List Char) : finalName (path.map slash) = finalName path := by
  have hslash : ∀ c, isSlash (slash c) = isSlash c := by
    intro c
    rw [← slash_beq_slash c]
    by_cases hc : c = '\\'
    · subst hc
      rfl
    · simp [slash, isSlash, hc]
  have hdot : ∀ c, slash c = '.' ↔ c = '.' := by
    intro c
    by_cases hc : c = '\\'
    · subst hc
      decide
    · simp [slash, hc]
  rw [finalName_map hslash hdot]
  apply map_slash_eq_self
  rintro c hc rfl
  exact absurd (isSlash_of_mem_finalName hc) (by decide)

end CodeSweep.Path
