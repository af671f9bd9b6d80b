/-
# File names and extensions

A file name stands for a language if it ends with one of its extensions and has something before it
(`ofExtension?_eq_some_iff`): where several extensions fit, they are of one language.  The files of
a folder are chosen by another test, which asks that the name be no extension at all.  The two tests
differ on two names, the extensions that end with other ones (`hasAllowedExtension_iff`).
-/
import CodeSweep.Project
import CodeSweep.Proofs.Path
import CodeSweep.Proofs.Registry

namespace CodeSweep

namespace Language

open Text

/-! ## Extensions -/

/-- The extensions of the languages, listed in the order in which the languages are. -/
def extensionsIn (languages : List Language) : List (String × Language) :=
  (languages.flatMap fun l => l.profile.extensions.map fun e => (e, l)).mergeSort
    fun a b => decide (b.1.length ≤ a.1.length)

/-- The extensions with their languages are those of the profiles of the listed languages. -/
theorem mem_extensionsIn {languages : List Language} {ext : String} {l : Language} :
    (ext, l) ∈ extensionsIn languages ↔ l ∈ languages ∧ ext ∈ l.profile.extensions := by
  rw [extensionsIn, List.mem_mergeSort, List.mem_flatMap]
  constructor
  · rintro ⟨k, hk, h⟩
    obtain ⟨e, he, heq⟩ := List.mem_map.mp h
    obtain ⟨rfl, rfl⟩ := Prod.mk.inj heq
    exact ⟨hk, he⟩
  · rintro ⟨hl, hext⟩
    exact ⟨l, hl, List.mem_map_of_mem hext⟩

/-- All languages are listed. -/
theorem mem_extensions {ext : String} {l : Language} :
    (ext, l) ∈ extensions ↔ ext ∈ l.profile.extensions :=
  mem_extensionsIn.trans (and_iff_right (mem_all l))

/-- **Extensions of which one ends with the other** are of one language, and but two extensions end
with another one. -/
theorem overlap_of_suffix {a b : String × Language} (ha : a ∈ extensions) (hb : b ∈ extensions)
    (h : a.1.toList <:+ b.1.toList) : a.2 = b.2 ∧ (a = b ∨ b.1 ∈ [".d.ts", ".gradle.kts"]) := by
  have hall : ∀ a ∈ all.flatMap fun l => l.profile.extensions.map fun e => (e, l),
      ∀ b ∈ all.flatMap fun l => l.profile.extensions.map fun e => (e, l),
        a.1.toList <:+ b.1.toList → a.2 = b.2 ∧ (a = b ∨ b.1 ∈ [".d.ts", ".gradle.kts"]) := by
    decide
  exact hall a (List.mem_mergeSort.mp ha) b (List.mem_mergeSort.mp hb) h

/-- The names of languages are in lower case and without blanks. -/
theorem lowerString_trimString_name (l : Language) :
    lowerString (trimString l.name) = l.name := by
  cases l <;> decide

/-- No two languages have one name. -/
theorem name_injective {k l : Language} (h : k.name = l.name) : k = l := by
  revert h
  cases k <;> cases l <;> decide

/-- **The extensions that are allowed** are those of the enabled languages. -/
theorem mem_allowedExtensions {languages : List Language} {ext : String} :
    ext ∈ allowedExtensions (languages.map (·.name)) ↔
      ∃ l ∈ languages, ext ∈ l.profile.extensions := by
  have henabled : (languages.map (·.name)).map (fun n => lowerString (trimString n))
      = languages.map (·.name) := by
    rw [List.map_map]
    exact List.map_congr_left fun l _ => lowerString_trimString_name l
  simp only [allowedExtensions, henabled, List.mem_flatMap, List.mem_filter, List.contains_iff_mem,
    List.mem_map]
  constructor
  · rintro ⟨l, ⟨-, k, hk, hname⟩, hext⟩
    exact ⟨k, hk, name_injective hname ▸ hext⟩
  · rintro ⟨l, hl, hext⟩
    exact ⟨l, ⟨mem_all l, l, hl, rfl⟩, hext⟩

/-! ## Classification -/

/-- The name ends with the extension and is longer. -/
theorem hasExtension_iff {name ext : List Char} :
    hasExtension name ext = true ↔ ext <:+ name ∧ ext ≠ name := by
  rw [hasExtension, Bool.and_eq_true, List.isSuffixOf_iff_suffix, decide_eq_true_iff]
  refine and_congr_right fun h => ⟨?_, fun hne => ?_⟩
  · rintro hlt rfl
    exact Nat.lt_irrefl _ hlt
  · exact Nat.lt_of_le_of_ne h.length_le fun heq => hne (h.eq_of_length heq)

/-- The extension of a file name is looked for in the name itself. -/
theorem ofExtension?_of_isName {name : String} (h : Path.isName name = true) :
    ofExtension? name
      = (extensions.find? fun e => hasExtension (lower name.toList) e.1.toList).map (·.2) := by
  have hone : ∀ n ∈ [name], Path.isName n = true := fun n hn => List.mem_singleton.mp hn ▸ h
  have hjoin : Path.join [name] = name := by simp [Path.join]
  have hcomponents := Path.components_join hone
  have hnormal := Path.normalize_join hone
  rw [hjoin] at hcomponents hnormal
  rw [ofExtension?, hnormal, Path.baseName, hcomponents]
  rfl

/-- **A file name stands for a language** if it ends with one of its extensions and has something
before it. -/
theorem ofExtension?_eq_some_iff {name : String} (h : Path.isName name = true) {l : Language} :
    ofExtension? name = some l ↔
      ∃ ext ∈ l.profile.extensions, ext.toList <:+ lower name.toList ∧
        ext.toList ≠ lower name.toList := by
  rw [ofExtension?_of_isName h, Option.map_eq_some_iff]
  constructor
  · rintro ⟨⟨ext, k⟩, hfind, rfl⟩
    exact ⟨ext, mem_extensions.mp (List.mem_of_find?_eq_some hfind),
      hasExtension_iff.mp (List.find?_eq_some_iff_append.mp hfind).1⟩
  · rintro ⟨ext, hext, hends⟩
    have hmem := mem_extensions.mpr hext
    have hsome : (extensions.find? fun e => hasExtension (lower name.toList) e.1.toList).isSome :=
      List.find?_isSome.mpr ⟨(ext, l), hmem, hasExtension_iff.mpr hends⟩
    obtain ⟨found, hfound⟩ := Option.isSome_iff_exists.mp hsome
    refine ⟨found, hfound, ?_⟩
    -- another extension may have been found, but one of the two ends with the other
    have hends' := (hasExtension_iff.mp (List.find?_eq_some_iff_append.mp hfound).1).1
    rcases List.suffix_or_suffix_of_suffix hends.1 hends' with hover | hover
    · exact (overlap_of_suffix hmem (List.mem_of_find?_eq_some hfound) hover).1.symm
    · exact (overlap_of_suffix (List.mem_of_find?_eq_some hfound) hmem hover).1

end Language

namespace Project

open Text CodeSweep.Language

/-! ## The files of a folder -/

/-- A file name has an allowed extension if it ends with one of an enabled language and is none. -/
theorem hasAllowedExtension_eq_true_iff {name : String} {languages : List Language} :
    hasAllowedExtension (allowedExtensions (languages.map (·.name))) name = true ↔
      (∃ l ∈ languages, ∃ ext ∈ l.profile.extensions, ext.toList <:+ lower name.toList) ∧
        ∀ l ∈ languages, lowerString name ∉ l.profile.extensions := by
  have hlower : ∀ ext : String, ext.toList = lower name.toList ↔ ext = lowerString name := by
    intro ext
    rw [← String.toList_inj, lowerString, String.toList_ofList]
  simp only [hasAllowedExtension, Bool.and_eq_true, Bool.not_eq_true', List.any_eq_true,
    List.any_eq_false, List.isSuffixOf_iff_suffix, beq_iff_eq, mem_allowedExtensions, hlower]
  refine and_congr ⟨?_, ?_⟩ ⟨fun h l hl hext => h _ ⟨l, hl, hext⟩ rfl, ?_⟩
  · rintro ⟨ext, ⟨l, hl, hext⟩, hends⟩
    exact ⟨l, hl, ext, hext, hends⟩
  · rintro ⟨l, hl, ext, hext, hends⟩
    exact ⟨ext, ⟨l, hl, hext⟩, hends⟩
  · rintro h ext ⟨l, hl, hext⟩ rfl
    exact h l hl hext

/-- **The two tests of file names** differ on names that are themselves extensions with a shorter
one at their end, and on no others. -/
theorem hasAllowedExtension_iff {name : String} (h : Path.isName name = true)
    (languages : List Language) :
    hasAllowedExtension (allowedExtensions (languages.map (·.name))) name = true ↔
      (∃ l ∈ languages, ofExtension? name = some l) ∧
        lowerString name ∉ [".d.ts", ".gradle.kts"] := by
  have hlower : (lowerString name).toList = lower name.toList := String.toList_ofList
  rw [hasAllowedExtension_eq_true_iff]
  simp only [ofExtension?_eq_some_iff h, ← hlower, ne_eq, String.toList_inj]
  constructor
  · rintro ⟨⟨l, hl, ext, hext, hends⟩, hnone⟩
    refine ⟨⟨l, hl, ext, hext, hends, fun heq => hnone l hl (heq ▸ hext)⟩, fun hname => ?_⟩
    -- the name is an extension, and of the language of the one it ends with
    obtain ⟨k, hk⟩ : ∃ k, (lowerString name, k) ∈ extensions := by
      simp only [List.mem_cons, List.not_mem_nil, or_false] at hname
      rcases hname with hname | hname
      · exact ⟨typescript, mem_extensions.mpr (by rw [hname]; decide)⟩
      · exact ⟨kotlin, mem_extensions.mpr (by rw [hname]; decide)⟩
    obtain rfl : l = k := (overlap_of_suffix (mem_extensions.mpr hext) hk hends).1
    exact hnone l hl (mem_extensions.mp hk)
  · rintro ⟨⟨l, hl, ext, hext, hends, hne⟩, hname⟩
    refine ⟨⟨l, hl, ext, hext, hends⟩, fun k hk hself => ?_⟩
    rcases (overlap_of_suffix (mem_extensions.mpr hext) (mem_extensions.mpr hself) hends).2 with
      hsame | hnested
    · exact hne (Prod.mk.inj hsame).1
    · exact hname hnested

/-- A name that ends with such an extension, and has something before it, passes both tests. -/
theorem hasAllowedExtension_iff_declarations :
    Path.isName "Index.D.TS" = true ∧
      hasAllowedExtension (allowedExtensions ["typescript"]) "Index.D.TS" = true := by
  have hname : Path.isName "Index.D.TS" = true := by decide
  exact ⟨hname, (hasAllowedExtension_iff hname [typescript]).mpr
    ⟨⟨typescript, List.mem_cons_self, (ofExtension?_eq_some_iff hname).mpr (by decide)⟩,
      by decide⟩⟩

/-- A name that is such an extension stands for the language but is not chosen. -/
theorem hasAllowedExtension_ne_dotfile :
    Path.isName ".d.ts" = true ∧ ofExtension? ".d.ts" = some typescript ∧
      hasAllowedExtension (allowedExtensions ([typescript].map (·.name))) ".d.ts" = false := by
  have hname : Path.isName ".d.ts" = true := by decide
  exact ⟨hname, (ofExtension?_eq_some_iff hname).mpr (by decide), by decide⟩

end Project

end CodeSweep
