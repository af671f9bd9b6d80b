/-
# Languages of files

A path stands for the language of the longest extension that its final name, in lower case, ends
with and is longer than (`ofExtensionIn?_eq_some_iff`).  This does not depend on the order in which
the languages are listed, nor on the folder, the kind of the slashes or the case of ASCII letters.
If there is no such extension, the first line of the contents decides between two languages
(`classify_of_none`).
-/
import CodeSweep.Proofs.Path.FinalName
import CodeSweep.Proofs.Pattern.LetterCase
import CodeSweep.Proofs.Project.Extension
import Mathlib.Data.List.TakeWhile

namespace CodeSweep

/-! ## Letter case -/

namespace Text

/-- Capitals and small letters are passed over alike. -/
theorem inRanges_caseIgnorable_toLower (c : Char) :
    inRanges caseIgnorableRanges c.toLower = inRanges caseIgnorableRanges c :=
  apply_toLower (f := inRanges caseIgnorableRanges) (by decide +kernel) c

/-- They both have a case. -/
theorem isCased_toLower (c : Char) : isCased c.toLower = isCased c :=
  apply_toLower (by decide) c

/-- A text begins with a cased letter whether or not this is a capital. -/
theorem startsCased_map_toLower (cs : List Char) :
    startsCased (cs.map Char.toLower) = startsCased cs := by
  have hpassed : inRanges caseIgnorableRanges ∘ Char.toLower = inRanges caseIgnorableRanges :=
    funext inRanges_caseIgnorable_toLower
  rw [startsCased, startsCased, List.dropWhile_map, hpassed]
  cases cs.dropWhile (inRanges caseIgnorableRanges) with
  | nil => rfl
  | cons c cs => exact isCased_toLower c

/-- **Lower-casing** does not depend on the case of ASCII letters. -/
theorem lower_map_toLower (cs : List Char) : lower (cs.map Char.toLower) = lower cs := by
  have hfrom : ∀ seen, lowerFrom (seen.map Char.toLower) (cs.map Char.toLower)
      = lowerFrom seen cs := by
    induction cs with
    | nil => exact fun seen => rfl
    | cons c cs ih =>
        intro seen
        have hdotted : (c.toLower.toNat == 0x130) = (c.toNat == 0x130) :=
          apply_toLower (f := (·.toNat == 0x130)) (by decide) c
        have hsigma : (c.toLower.toNat == 0x3A3) = (c.toNat == 0x3A3) :=
          apply_toLower (f := (·.toNat == 0x3A3)) (by decide) c
        have hsmall : smallLetter c.toLower = smallLetter c := apply_toLower (by decide) c
        rw [List.map_cons, lowerFrom, lowerFrom, hdotted, hsigma, hsmall,
          startsCased_map_toLower, startsCased_map_toLower, ← ih (c :: seen), List.map_cons]
  exact hfrom []

end Text

namespace Language

open Text

/-! ## The longest extension -/

/-- The language that the extension of the file name stands for if the languages are listed in this
order. -/
def ofExtensionIn? (languages : List Language) (path : String) : Option Language :=
  let name := lower (Path.baseName (Path.normalize path)).toList
  ((extensionsIn languages).find? fun e => hasExtension name e.1.toList).map (·.2)

/-- The order in which the languages are listed everywhere. -/
theorem ofExtensionIn?_all (path : String) : ofExtensionIn? all path = ofExtension? path := rfl

/-- The name ends with the extension and is longer. -/
def EndsLonger (name : List Char) (ext : String) : Prop :=
  ext.toList <:+ name ∧ ext.toList ≠ name

/-- The extension is one of the language, the name ends with it and is longer, and there is no
longer one of any language. -/
structure IsLongestExtension (name : List Char) (ext : String) (l : Language) : Prop where
  mem : ext ∈ l.profile.extensions
  ends : EndsLonger name ext
  longest : ∀ (k : Language), ∀ ext' ∈ k.profile.extensions, EndsLonger name ext' →
    ext'.length ≤ ext.length

section

variable {languages : List Language} {path : String}

/-- The extension is looked for in the final name. -/
theorem ofExtensionIn?_eq (languages : List Language) (path : String) :
    ofExtensionIn? languages path
      = ((extensionsIn languages).find? fun e =>
          hasExtension (lower (Path.finalName path.toList)) e.1.toList).map (·.2) := by
  rw [← Path.toList_baseName_normalize]
  rfl

/-- Longer extensions come first. -/
theorem extensionsIn_pairwise (languages : List Language) :
    (extensionsIn languages).Pairwise fun a b => b.1.length ≤ a.1.length := by
  have hsorted : (extensionsIn languages).Pairwise fun a b =>
      decide (b.1.length ≤ a.1.length) = true := by
    apply List.pairwise_mergeSort
    · intro a b c hab hbc
      exact decide_eq_true (Nat.le_trans (of_decide_eq_true hbc) (of_decide_eq_true hab))
    · intro a b
      rw [Bool.or_eq_true, decide_eq_true_iff, decide_eq_true_iff]
      exact Nat.le_total _ _
  exact hsorted.imp of_decide_eq_true

/-- The first extension that fits is no shorter than the others that do. -/
theorem length_le_of_find? {fits : String × Language → Bool} {e e' : String × Language}
    (he : (extensionsIn languages).find? fits = some e) (he' : e' ∈ extensionsIn languages)
    (hfits : fits e' = true) : e'.1.length ≤ e.1.length := by
  obtain ⟨-, before, after, hlist, hbefore⟩ := List.find?_eq_some_iff_append.mp he
  have hsorted := extensionsIn_pairwise languages
  rw [hlist] at he' hsorted
  rcases List.mem_append.mp he' with he' | he'
  · have hnot := hbefore e' he'
    rw [hfits] at hnot
    cases hnot
  · rcases List.mem_cons.mp he' with rfl | he'
    · exact Nat.le_refl _
    · exact List.rel_of_pairwise_cons (List.pairwise_append.mp hsorted).2.1 he'

variable (hall : ∀ l, l ∈ languages)

include hall

/-- **A path stands for a language** if the longest extension that fits is one of the language. -/
theorem ofExtensionIn?_eq_some_iff {l : Language} :
    ofExtensionIn? languages path = some l ↔
      ∃ ext, IsLongestExtension (lower (Path.finalName path.toList)) ext l := by
  rw [ofExtensionIn?_eq, Option.map_eq_some_iff]
  constructor
  · rintro ⟨⟨ext, k⟩, hfind, rfl⟩
    have hfits := (List.find?_eq_some_iff_append.mp hfind).1
    refine ⟨ext, (mem_extensionsIn.mp (List.mem_of_find?_eq_some hfind)).2,
      hasExtension_iff.mp hfits, ?_⟩
    intro k' ext' hext' hends
    exact length_le_of_find? hfind (mem_extensionsIn.mpr ⟨hall k', hext'⟩)
      (hasExtension_iff.mpr hends)
  · rintro ⟨ext, hext, hends, hlongest⟩
    have hfits : hasExtension (lower (Path.finalName path.toList)) ext.toList = true :=
      hasExtension_iff.mpr hends
    have hsome : ((extensionsIn languages).find? fun e =>
        hasExtension (lower (Path.finalName path.toList)) e.1.toList).isSome :=
      List.find?_isSome.mpr ⟨(ext, l), mem_extensionsIn.mpr ⟨hall l, hext⟩, hfits⟩
    obtain ⟨⟨ext', k⟩, hfound⟩ := Option.isSome_iff_exists.mp hsome
    refine ⟨(ext', k), hfound, ?_⟩
    -- what is found is no longer, so the extension ends with it, and the two are of one language
    have hext' := (mem_extensionsIn.mp (List.mem_of_find?_eq_some hfound)).2
    have hends' := hasExtension_iff.mp (List.find?_eq_some_iff_append.mp hfound).1
    have hover : ext'.toList <:+ ext.toList :=
      List.suffix_of_suffix_length_le hends'.1 hends.1 (hlongest k ext' hext' hends')
    exact (overlap_of_suffix (mem_extensions.mpr hext') (mem_extensions.mpr hext) hover).1

/-- A path stands for no language if no extension fits. -/
theorem ofExtensionIn?_eq_none_iff :
    ofExtensionIn? languages path = none ↔
      ∀ (l : Language), ∀ ext ∈ l.profile.extensions,
        ¬ EndsLonger (lower (Path.finalName path.toList)) ext := by
  rw [ofExtensionIn?_eq, Option.map_eq_none_iff, List.find?_eq_none]
  constructor
  · intro h l ext hext hends
    exact h (ext, l) (mem_extensionsIn.mpr ⟨hall l, hext⟩) (hasExtension_iff.mpr hends)
  · rintro h ⟨ext, l⟩ he hfits
    exact h l ext (mem_extensionsIn.mp he).2 (hasExtension_iff.mp hfits)

/-- **The order of the languages** does not matter. -/
theorem ofExtensionIn?_eq_ofExtension? : ofExtensionIn? languages path = ofExtension? path := by
  ext l
  rw [← ofExtensionIn?_all, ofExtensionIn?_eq_some_iff hall, ofExtensionIn?_eq_some_iff mem_all]

end

/-! ## Paths alike -/

section

variable {path path' : String}

/-- Only the final name matters, in lower case. -/
theorem ofExtension?_congr
    (h : lower (Path.finalName path'.toList) = lower (Path.finalName path.toList)) :
    ofExtension? path' = ofExtension? path := by
  rw [← ofExtensionIn?_all, ← ofExtensionIn?_all, ofExtensionIn?_eq, ofExtensionIn?_eq, h]

/-- **The folder** does not matter. -/
theorem ofExtension?_append (folder : String) {name : String} (hname : Path.isName name = true) :
    ofExtension? (folder ++ "/" ++ name) = ofExtension? name := by
  obtain ⟨hword, hslash⟩ := Path.of_isName hname
  have hpath : (folder ++ "/" ++ name).toList = folder.toList ++ '/' :: name.toList := by simp
  apply ofExtension?_congr
  rw [hpath, Path.finalName_append hword hslash, Path.finalName_eq_self hword hslash]

/-- **The kinds of slashes** do not matter. -/
theorem ofExtension?_of_map_slash (h : path'.toList.map Path.slash = path.toList.map Path.slash) :
    ofExtension? path' = ofExtension? path := by
  apply ofExtension?_congr
  rw [← Path.finalName_map_slash, h, Path.finalName_map_slash]

/-- **Letter case** does not matter. -/
theorem ofExtension?_of_map_toLower
    (h : path'.toList.map Char.toLower = path.toList.map Char.toLower) :
    ofExtension? path' = ofExtension? path := by
  have hslash : ∀ c : Char, Path.isSlash c.toLower = Path.isSlash c :=
    apply_toLower (by decide)
  have hname : ∀ cs, lower (Path.finalName (cs.map Char.toLower)) = lower (Path.finalName cs) := by
    intro cs
    rw [Path.finalName_map hslash (toLower_eq_iff (by decide)), lower_map_toLower]
  apply ofExtension?_congr
  rw [← hname, h, hname]

end

/-! ## Contents -/

section

variable {path : String} {contents contents' : Option (List Char)}

/-- The first line of the contents, if there are any. -/
def firstLine (contents : Option (List Char)) : List Char :=
  (contents.getD []).takeWhile (· != '\n')

/-- An extension leaves nothing to the contents. -/
theorem classify_of_some {l : Language} (h : ofExtension? path = some l)
    (contents : Option (List Char)) : classify path contents = l := by
  rw [classify, h]

/-- Interpreters of one language are told from the first line. -/
theorem eq_python_of_ofFirstLine? {cs : List Char} {l : Language} (h : ofFirstLine? cs = some l) :
    l = python := by
  rw [ofFirstLine?] at h
  split at h
  · cases h
  · split at h
    · cases h
    · split at h
      · exact (Option.some.inj h).symm
      · cases h

/-- Without an extension, the interpreter or the default decides. -/
theorem classify_of_none (h : ofExtension? path = none) (contents : Option (List Char)) :
    classify path contents = python ∨ classify path contents = default := by
  rw [classify, h]
  simp only
  cases hfirst : contents.bind ofFirstLine? with
  | none => exact .inr rfl
  | some l =>
      obtain ⟨cs, -, hcs⟩ := Option.bind_eq_some_iff.mp hfirst
      exact .inl (eq_python_of_ofFirstLine? hcs)

/-- No contents are like empty ones, and all but the first line is left out. -/
theorem bind_ofFirstLine? (contents : Option (List Char)) :
    contents.bind ofFirstLine? = ofFirstLine? (firstLine contents) := by
  cases contents with
  | none => rfl
  | some cs =>
      rw [Option.bind_some, firstLine, Option.getD_some, ofFirstLine?, ofFirstLine?,
        List.takeWhile_idem]

/-- **Only the first line** of the contents matters. -/
theorem classify_congr (h : firstLine contents' = firstLine contents) :
    classify path contents' = classify path contents := by
  rw [classify, classify, bind_ofFirstLine?, bind_ofFirstLine?, h]

end

/-! ## The decision -/

/-- **The language of a path.**  However the languages are listed, it is that of the longest
extension which the final name, in lower case, ends with and is longer than, if there is one; it
does not depend on the folder, on the kinds of the slashes or on the case of ASCII letters.  The
contents matter only if there is none, only by their first line, and only between two languages. -/
theorem classify_longest_extension (path : String) :
    (∀ languages : List Language, languages.Perm all →
      (∀ l, ofExtensionIn? languages path = some l ↔
        ∃ ext, IsLongestExtension (lower (Path.finalName path.toList)) ext l) ∧
      (ofExtensionIn? languages path = none ↔
        ∀ l : Language, ∀ ext ∈ l.profile.extensions,
          ¬ EndsLonger (lower (Path.finalName path.toList)) ext) ∧
      ofExtensionIn? languages path = ofExtension? path) ∧
    (∀ name, Path.isName name = true →
      ofExtension? (path ++ "/" ++ name) = ofExtension? name ∧
        Path.finalName name.toList = name.toList) ∧
    (∀ path' : String, path'.toList.map Path.slash = path.toList.map Path.slash →
      ofExtension? path' = ofExtension? path) ∧
    (∀ path' : String, path'.toList.map Char.toLower = path.toList.map Char.toLower →
      ofExtension? path' = ofExtension? path) ∧
    (∀ l contents, ofExtension? path = some l → classify path contents = l) ∧
    (∀ contents, ofExtension? path = none →
      classify path contents = python ∨ classify path contents = default) ∧
    ∀ contents contents', firstLine contents' = firstLine contents →
      classify path contents' = classify path contents := by
  refine ⟨?_, ?_, fun path' => ofExtension?_of_map_slash,
    fun path' => ofExtension?_of_map_toLower, ?_, ?_, fun contents contents' => classify_congr⟩
  · intro languages hperm
    have hall : ∀ l, l ∈ languages := fun l => hperm.mem_iff.mpr (mem_all l)
    exact ⟨fun l => ofExtensionIn?_eq_some_iff hall, ofExtensionIn?_eq_none_iff hall,
      ofExtensionIn?_eq_ofExtension? hall⟩
  · intro name hname
    obtain ⟨hword, hslash⟩ := Path.of_isName hname
    exact ⟨ofExtension?_append path hname, Path.finalName_eq_self hword hslash⟩
  · intro l contents h
    exact classify_of_some h contents
  · intro contents h
    exact classify_of_none h contents

/-- A script for the interpreter of one language. -/
def script (rest : String) : Option (List Char) := some ("#!/usr/bin/env python3\n" ++ rest).toList

/-- A file in a folder is told by its extension, whatever it contains, and a file whose whole name
is an extension by the first line of its contents. -/
theorem classify_longest_extension_script :
    all.reverse.Perm all ∧ Path.isName "Index.d.ts" = true ∧
    ofExtensionIn? all.reverse ("src" ++ "/" ++ "Index.d.ts") = some typescript ∧
    ofExtension? "src\\Index.d.ts" = some typescript ∧
    ofExtension? "SRC/INDEX.D.TS" = some typescript ∧
    classify ("src" ++ "/" ++ "Index.d.ts") (script "x") = typescript ∧
    ofExtension? ".py" = none ∧
    (classify ".py" (script "x") = python ∨ classify ".py" (script "x") = default) ∧
    classify ".py" (script "x") = classify ".py" (script "y") := by
  have hperm : all.reverse.Perm all := List.reverse_perm all
  have hname : Path.isName "Index.d.ts" = true := by decide
  have hfile : ofExtension? "Index.d.ts" = some typescript :=
    (ofExtension?_eq_some_iff hname).mpr (by decide)
  obtain ⟨-, hfolder, -⟩ := classify_longest_extension "src"
  have hpath := (hfolder "Index.d.ts" hname).1.trans hfile
  obtain ⟨horder, -, hslashes, hcase, hextension, -⟩ :=
    classify_longest_extension ("src" ++ "/" ++ "Index.d.ts")
  obtain ⟨horder', -, -, -, -, hcontents, hfirst⟩ := classify_longest_extension ".py"
  have hnone : ofExtension? ".py" = none := by
    apply (horder' all (List.Perm.refl all)).2.1.mpr
    intro l
    unfold EndsLonger
    cases l <;> decide
  exact ⟨hperm, hname, (horder _ hperm).2.2.trans hpath, (hslashes _ (by decide)).trans hpath,
    (hcase _ (by decide)).trans hpath, hextension _ _ hpath, hnone, hcontents _ hnone,
    hfirst _ _ (by decide)⟩

end Language

end CodeSweep
