/-
# All files of a tree

Where no folder holds a name twice, the files of a tree are what routes lead to that go through no
folder whose name is skipped (`mem_files_iff`), and each of them is listed once (`nodup_files`).
-/
import CodeSweep.Proofs.Tree
import Mathlib.Data.List.Nodup

namespace CodeSweep.Tree

/-! ## Names in folders -/

mutual

/-- In every folder of the tree, no name is used twice. -/
def distinct : Tree → Bool
  | file _ => true
  | folder es => decide (es.map (·.1)).Nodup && distinctIn es

/-- So it is in what the entries hold. -/
def distinctIn : List (String × Tree) → Bool
  | [] => true
  | (_, t) :: es => distinct t && distinctIn es

end

section

variable {skip : String → Bool}

/-- The route to a file of a folder begins with the name of an entry. -/
theorem exists_name_of_mem_filesOf {es : List (String × Tree)} {r : Route}
    (h : r ∈ filesOf skip es) : ∃ name rest, r = name :: rest ∧ name ∈ es.map (·.1) := by
  rw [filesOf_eq, List.mem_flatMap] at h
  obtain ⟨e, he, h⟩ := h
  split at h
  · cases h
  · obtain ⟨rest, -, rfl⟩ := List.mem_map.mp h
    exact ⟨e.1, rest, rfl, List.mem_map_of_mem he⟩

/-! ## Routes to files -/

/-- A route to a file goes through the entry that it begins with if there is more of it. -/
theorem entry_skipped_iff {t : Tree} {octets : List UInt8} {rest : Route}
    (h : t.get? rest = some (file octets)) (name : String) :
    ((t.isFolder && skip name) = false ∧ ∀ n ∈ rest.dropLast, skip n = false) ↔
      ∀ n ∈ (name :: rest).dropLast, skip n = false := by
  cases rest with
  | nil =>
      obtain rfl := Option.some.inj h
      simp [isFolder]
  | cons next rest =>
      rw [isFolder_of_get?_cons h, Bool.true_and,
        List.dropLast_cons_of_ne_nil (x := name) (List.cons_ne_nil next rest),
        List.forall_mem_cons]

/-- The first entry is found under its name, and the others under theirs. -/
theorem get?_folder_cons (entry : String) (t : Tree) (es : List (String × Tree)) (name : String)
    (rest : Route) : (folder ((entry, t) :: es)).get? (name :: rest)
      = if name = entry then t.get? rest else (folder es).get? (name :: rest) := by
  rw [get?, entries, List.lookup_cons]
  split
  · next h => simp [eq_of_beq h]
  · next h => rw [if_neg (ne_of_beq_false h)]; rfl

mutual

/-- **The files of a tree** are what routes lead to that go through no skipped folder. -/
theorem mem_files_iff : ∀ {t : Tree}, t.distinct = true → ∀ r : Route, r ∈ t.files skip ↔
    (∃ octets, t.get? r = some (file octets)) ∧ ∀ name ∈ r.dropLast, skip name = false
  | file octets, _, [] => by
      rw [files]
      simp [get?]
  | file octets, _, name :: rest => by
      rw [files]
      simp [get?, entries]
  | folder es, h, r => by
      rw [distinct, Bool.and_eq_true, decide_eq_true_eq] at h
      exact mem_filesOf_iff h.1 h.2 r

/-- So are those of a folder with the entries. -/
theorem mem_filesOf_iff : ∀ {es : List (String × Tree)}, (es.map (·.1)).Nodup →
    distinctIn es = true → ∀ r : Route, r ∈ filesOf skip es ↔
      (∃ octets, (folder es).get? r = some (file octets)) ∧
        ∀ name ∈ r.dropLast, skip name = false
  | [], _, _, r => by
      cases r with
      | nil => simp [filesOf, get?]
      | cons name rest => simp [filesOf, get?, entries]
  | (entry, t) :: es, _, _, [] => by
      refine iff_of_false (fun h => ?_) (by simp [get?])
      obtain ⟨name, rest, heq, -⟩ := exists_name_of_mem_filesOf h
      cases heq
  | (entry, t) :: es, hnames, hes, name :: rest => by
      rw [List.map_cons, List.nodup_cons] at hnames
      rw [distinctIn, Bool.and_eq_true] at hes
      rw [filesOf, List.mem_append, get?_folder_cons]
      by_cases hname : name = entry
      · -- the other entries have other names
        subst hname
        have hothers : name :: rest ∉ filesOf skip es := fun h => by
          obtain ⟨_, _, heq, hmem⟩ := exists_name_of_mem_filesOf h
          exact hnames.1 ((List.cons.inj heq).1 ▸ hmem)
        have hentry : name :: rest ∈ (if t.isFolder && skip name then []
              else (files skip t).map (name :: ·)) ↔
            (t.isFolder && skip name) = false ∧ rest ∈ files skip t := by
          split
          · next h => simp [h]
          · next h => simp [Bool.eq_false_iff.mpr h]
        rw [or_iff_left hothers, hentry, if_pos rfl, mem_files_iff hes.1 rest]
        constructor
        · rintro ⟨hskip, ⟨octets, hget⟩, hrest⟩
          exact ⟨⟨octets, hget⟩, (entry_skipped_iff hget name).mp ⟨hskip, hrest⟩⟩
        · rintro ⟨⟨octets, hget⟩, hall⟩
          obtain ⟨hskip, hrest⟩ := (entry_skipped_iff hget name).mpr hall
          exact ⟨hskip, ⟨octets, hget⟩, hrest⟩
      · have hentry : name :: rest ∉ (if t.isFolder && skip entry then []
            else (files skip t).map (entry :: ·)) := by
          split
          · exact List.not_mem_nil
          · rw [List.mem_map]
            rintro ⟨_, -, heq⟩
            exact hname (List.cons.inj heq).1.symm
        rw [or_iff_right hentry, if_neg hname]
        exact mem_filesOf_iff hnames.2 hes.2 (name :: rest)

end

/-! ## No file twice -/

mutual

/-- **Each file of a tree** is listed once. -/
theorem nodup_files : ∀ {t : Tree}, t.distinct = true → (t.files skip).Nodup
  | file octets, _ => List.pairwise_singleton _ _
  | folder es, h => by
      rw [distinct, Bool.and_eq_true, decide_eq_true_eq] at h
      exact nodup_filesOf h.1 h.2

/-- So is each file of a folder with the entries. -/
theorem nodup_filesOf : ∀ {es : List (String × Tree)}, (es.map (·.1)).Nodup →
    distinctIn es = true → (filesOf skip es).Nodup
  | [], _, _ => List.nodup_nil
  | (entry, t) :: es, hnames, hes => by
      rw [List.map_cons, List.nodup_cons] at hnames
      rw [distinctIn, Bool.and_eq_true] at hes
      rw [filesOf, List.nodup_append]
      refine ⟨?_, nodup_filesOf hnames.2 hes.2, fun r hr r' hr' heq => ?_⟩
      · split
        · exact List.nodup_nil
        · exact (nodup_files hes.1).map List.cons_injective
      · -- a route of the first entry and one of another begin with different names
        subst heq
        obtain ⟨name, rest, rfl, hmem⟩ := exists_name_of_mem_filesOf hr'
        split at hr
        · cases hr
        · obtain ⟨_, -, heq⟩ := List.mem_map.mp hr
          exact hnames.1 ((List.cons.inj heq).1 ▸ hmem)

end

end

end CodeSweep.Tree
