/-
# Files below a folder of a tree

In a tree in which no folder holds a name twice, the files whose routes go through a folder are the
files of that folder (`filter_files_eq`), and routes are ordered like words (`precedes_eq_keyLe`),
so a common start does not matter to their order.  What the files hold does not matter to where they
are (`files_rewrite`).
-/
import CodeSweep.Proofs.Path
import CodeSweep.Proofs.StableSort
import CodeSweep.Tree
import Mathlib.Data.List.Lex

namespace CodeSweep

namespace Tree

/-! ## Names -/

mutual

/-- In every folder of the tree, no name is used twice and each one can be the name of a file. -/
def wellNamed : Tree → Bool
  | file _ => true
  | folder es => decide (es.map (·.1)).Nodup && wellNamedIn es

/-- What the entries hold is well named, and so are they. -/
def wellNamedIn : List (String × Tree) → Bool
  | [] => true
  | (name, t) :: es => Path.isName name && wellNamed t && wellNamedIn es

end

/-- The entries of a folder are well named, each by itself. -/
theorem wellNamedIn_eq (es : List (String × Tree)) :
    wellNamedIn es = es.all fun e => Path.isName e.1 && e.2.wellNamed := by
  induction es with
  | nil => rfl
  | cons e es ih => rw [wellNamedIn, List.all_cons, ih]

/-- What is in a folder with proper names. -/
theorem wellNamed_folder {es : List (String × Tree)} (h : (folder es).wellNamed = true) :
    (es.map (·.1)).Nodup ∧ ∀ e ∈ es, Path.isName e.1 = true ∧ e.2.wellNamed = true := by
  rw [wellNamed, wellNamedIn_eq, Bool.and_eq_true, decide_eq_true_eq, List.all_eq_true] at h
  exact ⟨h.1, fun e he => Bool.and_eq_true_iff.mp (h.2 e he)⟩

/-! ## Entries -/

/-- A name that leads somewhere is that of an entry. -/
theorem mem_of_lookup {es : List (String × Tree)} {name : String} {t : Tree}
    (h : es.lookup name = some t) : (name, t) ∈ es := by
  obtain ⟨before, after, rfl, -⟩ := List.lookup_eq_some_iff.mp h
  exact List.mem_append_right _ List.mem_cons_self

/-- Where no name is used twice, what is said of the entries with a name is said of one. -/
theorem flatMap_lookup {α : Type} {es : List (String × Tree)} (hes : (es.map (·.1)).Nodup)
    {name : String} {t : Tree} (h : es.lookup name = some t) (f : Tree → List α) :
    es.flatMap (fun e => if name = e.1 then f e.2 else []) = f t := by
  obtain ⟨before, after, rfl, hbefore⟩ := List.lookup_eq_some_iff.mp h
  rw [List.map_append, List.map_cons, List.nodup_append, List.nodup_cons] at hes
  -- neither the entries before it nor those after it bear its name
  have hfirst : before.flatMap (fun e => if name = e.1 then f e.2 else []) = [] := by
    rw [List.flatMap_eq_nil_iff]
    exact fun e he => if_neg (by simpa using hbefore e he)
  have hlast : after.flatMap (fun e => if name = e.1 then f e.2 else []) = [] := by
    rw [List.flatMap_eq_nil_iff]
    exact fun e he => if_neg fun heq => hes.2.1.1 (List.mem_map.mpr ⟨e, he, heq.symm⟩)
  rw [List.flatMap_append, List.flatMap_cons, hfirst, hlast, if_pos rfl, List.append_nil,
    List.nil_append]

/-! ## Routes -/

/-- One route after the other. -/
theorem get?_append (t : Tree) (route rest : Route) :
    t.get? (route ++ rest) = (t.get? route).bind (·.get? rest) := by
  induction route generalizing t with
  | nil => rfl
  | cons name route ih =>
      rw [List.cons_append, get?, get?, Option.bind_assoc]
      congr 1
      funext inner
      exact ih inner

/-- What has something at the end of a route that goes on is a folder. -/
theorem isFolder_of_get?_cons {t sub : Tree} {name : String} {rest : Route}
    (h : t.get? (name :: rest) = some sub) : t.isFolder = true := by
  cases t with
  | file octets => simp [get?, entries] at h
  | folder es => rfl

/-- What is in a folder is in a folder. -/
theorem exists_folder_of_has {t : Tree} {route : Route} {name : String}
    (h : t.has (route ++ [name]) = true) :
    ∃ inner, t.get? route = some inner ∧ inner.isFolder = true := by
  rw [has, get?_append] at h
  obtain ⟨entry, hentry⟩ := Option.isSome_iff_exists.mp h
  obtain ⟨inner, hinner, hget⟩ := Option.bind_eq_some_iff.mp hentry
  exact ⟨inner, hinner, isFolder_of_get?_cons hget⟩

/-- Everything in a well named tree is well named. -/
theorem wellNamed_of_get? {t sub : Tree} {route : Route} (ht : t.wellNamed = true)
    (h : t.get? route = some sub) : sub.wellNamed = true := by
  induction route generalizing t with
  | nil => rwa [← Option.some.inj h]
  | cons name route ih =>
      cases t with
      | file octets => simp [get?, entries] at h
      | folder es =>
          obtain ⟨inner, hinner, hget⟩ := Option.bind_eq_some_iff.mp h
          exact ih ((wellNamed_folder ht).2 _ (mem_of_lookup hinner)).2 hget

/-! ## Files -/

section

variable {skip : String → Bool}

/-- The files of a folder are those of its entries. -/
theorem filesOf_eq (es : List (String × Tree)) :
    filesOf skip es = es.flatMap fun e =>
      if e.2.isFolder && skip e.1 then [] else (files skip e.2).map (e.1 :: ·) := by
  induction es with
  | nil => rfl
  | cons e es ih => rw [filesOf, List.flatMap_cons, ih]

/-- The route to a file in a folder is not empty. -/
theorem ne_nil_of_mem_files {t : Tree} (ht : t.isFolder = true) {r : Route}
    (hr : r ∈ t.files skip) : r ≠ [] := by
  cases t with
  | file octets => cases ht
  | folder es =>
      rw [files, filesOf_eq, List.mem_flatMap] at hr
      obtain ⟨e, -, hr⟩ := hr
      split at hr
      · cases hr
      · obtain ⟨rest, -, rfl⟩ := List.mem_map.mp hr
        exact List.cons_ne_nil _ _

mutual

/-- The routes to the files of a tree consist of proper names. -/
theorem isName_of_mem_files : ∀ {t : Tree}, t.wellNamed = true →
    ∀ r ∈ t.files skip, ∀ name ∈ r, Path.isName name = true
  | file octets, _, r, hr, name, hname => by
      rw [files, List.mem_singleton] at hr
      exact absurd (hr ▸ hname) List.not_mem_nil
  | folder es, ht, r, hr, name, hname => by
      rw [wellNamed, Bool.and_eq_true] at ht
      exact isName_of_mem_filesOf ht.2 r hr name hname

/-- So do those to the files of a folder with the entries. -/
theorem isName_of_mem_filesOf : ∀ {es : List (String × Tree)}, wellNamedIn es = true →
    ∀ r ∈ filesOf skip es, ∀ name ∈ r, Path.isName name = true
  | [], _, r, hr, _, _ => absurd hr List.not_mem_nil
  | (entry, t) :: es, hes, r, hr, name, hname => by
      rw [wellNamedIn, Bool.and_eq_true, Bool.and_eq_true] at hes
      rw [filesOf, List.mem_append] at hr
      rcases hr with hr | hr
      · split at hr
        · cases hr
        · obtain ⟨rest, hrest, rfl⟩ := List.mem_map.mp hr
          rcases List.mem_cons.mp hname with rfl | hname
          · exact hes.1.1
          · exact isName_of_mem_files hes.1.2 rest hrest name hname
      · exact isName_of_mem_filesOf hes.2 r hr name hname

end

/-- **The files below a folder** of a tree, reached by names that are not skipped, are the files of
that folder. -/
theorem filter_files_eq {t sub : Tree} {route : Route} (ht : t.wellNamed = true)
    (hsub : t.get? route = some sub) (hfolder : sub.isFolder = true)
    (hskip : ∀ name ∈ route, skip name = false) :
    (t.files skip).filter (route.isPrefixOf ·) = (sub.files skip).map (route ++ ·) := by
  induction route generalizing t with
  | nil =>
      obtain rfl := Option.some.inj hsub
      simp
  | cons name rest ih =>
      cases t with
      | file octets => simp [get?, entries] at hsub
      | folder es =>
          obtain ⟨inner, hinner, hget⟩ := Option.bind_eq_some_iff.mp hsub
          rw [List.forall_mem_cons] at hskip
          have hwell := wellNamed_folder ht
          have hrest := ih (hwell.2 _ (mem_of_lookup hinner)).2 hget hskip.2
          -- of the entries, only the one on the route has files that the route leads to
          have hentry : ∀ e ∈ es,
              (if e.2.isFolder && skip e.1 then [] else (files skip e.2).map (e.1 :: ·)).filter
                  ((name :: rest).isPrefixOf ·)
                = if name = e.1 then
                    ((files skip e.2).filter (rest.isPrefixOf ·)).map (name :: ·)
                  else [] := by
            intro e he
            by_cases hname : name = e.1
            · subst hname
              rw [if_pos rfl, hskip.1, Bool.and_false, if_neg (by simp), List.filter_map]
              congr 1
              exact List.filter_congr fun r _ => by
                rw [Function.comp_apply, List.isPrefixOf_cons_cons, beq_self_eq_true, Bool.true_and]
            · rw [if_neg hname, List.filter_eq_nil_iff]
              intro r hr
              split at hr
              · cases hr
              · obtain ⟨inside, -, rfl⟩ := List.mem_map.mp hr
                simp [List.isPrefixOf_cons_cons, hname]
          rw [files, filesOf_eq, List.filter_flatMap, List.flatMap_congr hentry,
            flatMap_lookup hwell.1 hinner fun t =>
              ((files skip t).filter (rest.isPrefixOf ·)).map (name :: ·), hrest, List.map_map]
          rfl

end

/-! ## Other contents -/

mutual

/-- The tree with other contents in its files, by their routes and what they were. -/
def rewrite (f : Route → List UInt8 → List UInt8) : Tree → Tree
  | file octets => file (f [] octets)
  | folder es => folder (rewriteIn f es)

/-- The entries with other contents in the files that they hold. -/
def rewriteIn (f : Route → List UInt8 → List UInt8) : List (String × Tree) → List (String × Tree)
  | [] => []
  | (name, t) :: es => (name, rewrite (fun route => f (name :: route)) t) :: rewriteIn f es

end

section

variable {f : Route → List UInt8 → List UInt8}

/-- Other contents do not make a file of a folder. -/
theorem isFolder_rewrite (t : Tree) : (t.rewrite f).isFolder = t.isFolder := by
  cases t <;> rfl

/-- What is found under a name is what was there, with other contents. -/
theorem lookup_rewriteIn (es : List (String × Tree)) (name : String) :
    (rewriteIn f es).lookup name
      = (es.lookup name).map (rewrite fun route => f (name :: route)) := by
  induction es with
  | nil => rfl
  | cons e es ih =>
      rw [rewriteIn, List.lookup_cons, List.lookup_cons]
      cases hname : name == e.1 with
      | true =>
          rw [eq_of_beq hname]
          rfl
      | false => exact ih

/-- **At the end of a route** is what was there, with other contents. -/
theorem get?_rewrite (t : Tree) (route : Route) :
    (t.rewrite f).get? route = (t.get? route).map (rewrite fun rest => f (route ++ rest)) := by
  induction route generalizing t f with
  | nil => rfl
  | cons name route ih =>
      cases t with
      | file octets => rfl
      | folder es =>
          show ((rewriteIn f es).lookup name).bind _ = ((es.lookup name).bind _).map _
          rw [lookup_rewriteIn, Option.bind_map, Option.map_bind]
          congr 1
          funext inner
          exact ih inner

/-- Routes lead somewhere whatever the contents. -/
theorem has_rewrite (t : Tree) (route : Route) : (t.rewrite f).has route = t.has route := by
  rw [has, has, get?_rewrite, Option.isSome_map]

mutual

/-- The files are the same ones whatever their contents. -/
theorem files_rewrite (skip : String → Bool) : ∀ (t : Tree) (f : Route → List UInt8 → List UInt8),
    (t.rewrite f).files skip = t.files skip
  | file _, _ => rfl
  | folder es, f => by
      rw [rewrite, files, files]
      exact filesOf_rewriteIn skip es f

/-- So are those of a folder with the entries. -/
theorem filesOf_rewriteIn (skip : String → Bool) :
    ∀ (es : List (String × Tree)) (f : Route → List UInt8 → List UInt8),
      filesOf skip (rewriteIn f es) = filesOf skip es
  | [], _ => rfl
  | (name, t) :: es, f => by
      rw [rewriteIn, filesOf, filesOf, isFolder_rewrite, files_rewrite skip t,
        filesOf_rewriteIn skip es]

end

end

end Tree

/-! ## The order of routes -/

namespace Route

/-- A route comes before another one or is the same in the order of words. -/
theorem precedes_iff (as bs : Route) : precedes as bs = true ↔ as = bs ∨ as < bs := by
  induction as generalizing bs with
  | nil => cases bs <;> simp [precedes]
  | cons a as ih =>
      cases bs with
      | nil => simp [precedes]
      | cons b bs =>
          rw [precedes, List.cons_lt_cons_iff, List.cons.injEq]
          by_cases hab : a = b
          · rw [if_pos hab, ih bs]
            simp [hab]
          · rw [if_neg hab, decide_eq_true_eq]
            simp [hab]

/-- Routes are ordered like words. -/
theorem precedes_eq_keyLe : precedes = StableSort.keyLe (id : List String → List String) := by
  funext as bs
  rw [Bool.eq_iff_iff, precedes_iff, StableSort.keyLe, decide_eq_true_eq, le_iff_eq_or_lt]
  rfl

end Route

end CodeSweep
