/-
# Reading the fields of a configuration

What each reader of a field can give, and that it gives back what is written for it.  Texts come out
trimmed and not blank (`trimmed_of_readTexts`), names of rules in snake case
(`isSnakeCase_of_readRuleName`), and overrides with one entry for each name
(`nodup_of_readOverrideEntries`).
-/
import CodeSweep.Config.Reader
import CodeSweep.Proofs.Registry
import CodeSweep.Proofs.Result
import CodeSweep.Proofs.Text.Words
import Mathlib.Data.List.DropRight

namespace CodeSweep

/-! ## Trimming and lower-casing -/

/-- A text that was trimmed is trimmed. -/
theorem Text.trim_trim (cs : List Char) : trim (trim cs) = trim cs := by
  have htrim : ∀ ds : List Char, trim ds = (ds.dropWhile isBlank).rdropWhile isBlank :=
    fun _ => rfl
  have hstart : (trim cs).dropWhile isBlank = trim cs := by
    rw [htrim, List.dropWhile_eq_self_iff]
    intro hlength
    rw [(List.rdropWhile_prefix isBlank _).getElem hlength]
    exact List.dropWhile_get_zero_not isBlank cs _
  rw [htrim (trim cs), hstart, htrim cs, List.rdropWhile_idempotent]

/-- A text that was trimmed is trimmed. -/
theorem Text.trimString_trimString (s : String) : trimString (trimString s) = trimString s := by
  rw [trimString, trimString, String.toList_ofList, trim_trim]

/-- A text without blanks is trimmed. -/
theorem Text.trim_eq_self {cs : List Char} (h : ∀ c ∈ cs, isBlank c = false) : trim cs = cs := by
  have hkeep : ∀ ds : List Char, (∀ c ∈ ds, isBlank c = false) → ds.dropWhile isBlank = ds := by
    intro ds hds
    rw [List.dropWhile_eq_self_iff]
    exact fun hlength => by rw [hds _ (List.getElem_mem hlength)]; exact Bool.false_ne_true
  rw [trim, hkeep cs h, hkeep _ fun c hc => h c (List.mem_reverse.mp hc), List.reverse_reverse]

/-- The names of languages are trimmed, not blank and in lower case. -/
theorem Language.name_trimmed (l : Language) :
    (l.name ≠ "" ∧ Text.trimString l.name = l.name) ∧ Text.lowerString l.name = l.name := by
  cases l <;> decide

namespace Config

/-! ## Names of rules -/

/-- A small letter, then small letters, digits and underscores. -/
def IsSnakeCase (s : String) : Prop :=
  ∃ c cs, s.toList = c :: cs ∧ ('a' ≤ c ∧ c ≤ 'z') ∧
    ∀ d ∈ cs, ('a' ≤ d ∧ d ≤ 'z') ∨ ('0' ≤ d ∧ d ≤ '9') ∨ d = '_'

/-- The names of rules are those in snake case. -/
theorem isRuleName_iff {s : String} : isRuleName s = true ↔ IsSnakeCase s := by
  rw [isRuleName, IsSnakeCase]
  cases s.toList with
  | nil => simp
  | cons c cs => simp [isNameChar, List.all_eq_true, or_assoc]

/-- A name in snake case is made of basic characters that are neither blank nor capital. -/
theorem IsSnakeCase.of_mem {s : String} (h : IsSnakeCase s) {c : Char} (hc : c ∈ s.toList) :
    Text.isBlank c = false ∧ c.toNat < 128 ∧ Text.smallLetter c = c := by
  obtain ⟨first, rest, hs, hfirst, hrest⟩ := h
  have hchar : isNameChar c = true := by
    rw [hs, List.mem_cons] at hc
    simp only [isNameChar, Bool.or_eq_true, Bool.and_eq_true, decide_eq_true_eq, beq_iff_eq,
      or_assoc]
    rcases hc with rfl | hc
    · exact .inl hfirst
    · exact hrest c hc
  have hlt : c.toNat < 128 := by
    simp only [isNameChar, Bool.or_eq_true, Bool.and_eq_true, decide_eq_true_eq,
      beq_iff_eq] at hchar
    rcases hchar with (⟨-, hle⟩ | ⟨-, hle⟩) | rfl
    · exact Nat.lt_of_le_of_lt hle (by decide)
    · exact Nat.lt_of_le_of_lt hle (by decide)
    · decide
  exact ⟨Text.forall_of_toNat_lt (P := fun c => isNameChar c = true → Text.isBlank c = false)
      (by decide) hlt hchar, hlt,
    Text.forall_of_toNat_lt (P := fun c => isNameChar c = true → Text.smallLetter c = c)
      (by decide) hlt hchar⟩

/-- A name in snake case is trimmed and not blank. -/
theorem IsSnakeCase.trimmed {s : String} (h : IsSnakeCase s) :
    s ≠ "" ∧ Text.trimString s = s := by
  constructor
  · rintro rfl
    obtain ⟨c, cs, hs, -⟩ := h
    cases hs
  · rw [Text.trimString, Text.trim_eq_self fun c hc => (h.of_mem hc).1, String.ofList_toList]

/-- A name in snake case is in lower case. -/
theorem IsSnakeCase.lowerString {s : String} (h : IsSnakeCase s) : Text.lowerString s = s := by
  have hlower : Text.lower s.toList = s.toList := by
    rw [Text.lower_eq_map fun c hc => (h.of_mem hc).2.1,
      List.map_congr_left fun c hc => (h.of_mem hc).2.2, List.map_id']
  rw [Text.lowerString, hlower, String.ofList_toList]

/-- What is read as the name of a rule is in snake case. -/
theorem isSnakeCase_of_readRuleName {field s name : String}
    (h : readRuleName field s = .ok name) : IsSnakeCase name := by
  unfold readRuleName at h
  simp only at h
  split at h
  · next hname =>
      obtain rfl := Except.ok.inj h
      exact isRuleName_iff.mp hname
  · cases h

/-- A name in snake case is read as it is. -/
theorem IsSnakeCase.readRuleName {name : String} (h : IsSnakeCase name) (field : String) :
    Config.readRuleName field name = .ok name := by
  unfold Config.readRuleName
  simp only [h.trimmed.2, h.lowerString]
  rw [if_pos (isRuleName_iff.mpr h)]

/-! ## Lists of texts -/

/-- The texts of a list of texts. -/
theorem texts?_map_text (ss : List String) : texts? (ss.map .text) = some ss := by
  induction ss with
  | nil => rfl
  | cons s ss ih => rw [List.map_cons, texts?, ih, Option.map_some]

/-- What is read as a list of texts is trimmed and not blank. -/
theorem trimmed_of_readTexts {field : String} {v : Option Value} {ss : List String}
    (h : readTexts field v = .ok ss) : ∀ s ∈ ss, s ≠ "" ∧ Text.trimString s = s := by
  unfold readTexts at h
  split at h
  · obtain rfl := Except.ok.inj h
    simp
  · split at h
    · obtain rfl := Except.ok.inj h
      intro s hs
      rw [List.mem_filter, List.mem_map] at hs
      obtain ⟨⟨raw, -, rfl⟩, hne⟩ := hs
      exact ⟨bne_iff_ne.mp hne, Text.trimString_trimString raw⟩
    · cases h
  · cases h

/-- Texts that are trimmed and not blank are read as they are. -/
theorem readTexts_textList {ss : List String} (h : ∀ s ∈ ss, s ≠ "" ∧ Text.trimString s = s)
    (field : String) : readTexts field (some (textList ss)) = .ok ss := by
  have htrim : ss.map Text.trimString = ss := by
    conv_rhs => rw [← List.map_id ss]
    exact List.map_congr_left fun s hs => (h s hs).2
  simp only [readTexts, textList, given?, texts?_map_text, htrim]
  rw [List.filter_eq_self.mpr fun s hs => bne_iff_ne.mpr (h s hs).1]

/-- What is read as the rules that are switched off are names in snake case. -/
theorem isSnakeCase_of_readDisabled {entries : List (String × Value)} {names : List String}
    (h : readDisabled entries = .ok names) : ∀ name ∈ names, IsSnakeCase name := by
  simp only [readDisabled, bind_eq_ok_iff] at h
  obtain ⟨raws, -, hnames⟩ := h
  intro name hname
  obtain ⟨raw, -, hraw⟩ := exists_of_mem_mapM hnames hname
  exact isSnakeCase_of_readRuleName hraw

/-- Names in snake case are read as they are. -/
theorem readDisabled_textList {names : List String} (h : ∀ name ∈ names, IsSnakeCase name)
    {entries : List (String × Value)}
    (hentries : entries.lookup "disable" = some (textList names)) :
    readDisabled entries = .ok names := by
  simp only [readDisabled, hentries]
  rw [readTexts_textList fun name hname => (h name hname).trimmed]
  show names.mapM _ = _
  rw [mapM_eq_ok names _ id fun name hname => (h name hname).readRuleName _, List.map_id]

/-! ## Severities, languages and workers -/

/-- A severity is read from its name. -/
theorem readSeverity_name (field : String) (v : Severity) :
    readSeverity field (.text v.name) = .ok v := by
  cases v <;> rfl

/-- Languages are read from their names. -/
theorem readLanguages_textList (ls : List Language) :
    readLanguages (some (textList (ls.map (·.name)))) = .ok ls := by
  have hnames : ∀ s ∈ ls.map (·.name), s ≠ "" ∧ Text.trimString s = s :=
    List.forall_mem_map.mpr fun l _ => (Language.name_trimmed l).1
  have htexts := readTexts_textList hnames (fieldName "languages")
  have hlower : (ls.map (·.name)).map Text.lowerString = ls.map (·.name) := by
    rw [List.map_map]
    exact List.map_congr_left fun l _ => (Language.name_trimmed l).2
  have hunknown : (ls.map (·.name)).filter (fun n => (Language.ofName? n).isNone) = [] := by
    rw [List.filter_eq_nil_iff]
    exact List.forall_mem_map.mpr fun l _ => by simp [Language.ofName?_name]
  have hknown : (ls.map (·.name)).filterMap Language.ofName? = ls := by
    rw [List.filterMap_map]
    exact (List.filterMap_congr fun l _ => Language.ofName?_name l).trans List.filterMap_some
  show (readTexts (fieldName "languages") (some (textList (ls.map (·.name))))).bind _ = _
  rw [htexts]
  simp only [Except.bind, hlower, hunknown, hknown]
  rfl

/-- What is read as the number of workers is at least one and at most the greatest number. -/
theorem bounds_of_readWorkers {v : Option Value} {workers : Option Nat}
    (h : readWorkers v = .ok workers) : ∀ n ∈ workers, 1 ≤ n ∧ n ≤ mostWorkers := by
  unfold readWorkers at h
  split at h
  · obtain rfl := Except.ok.inj h
    simp
  · split at h
    · next hpos =>
        obtain rfl := Except.ok.inj h
        intro n hn
        obtain rfl := Option.mem_some.mp hn
        rw [mostWorkers]
        omega
    · cases h
  · cases h

/-- A number of workers within the bounds is read as it is. -/
theorem readWorkers_int {n : Nat} (h : 1 ≤ n ∧ n ≤ mostWorkers) :
    readWorkers (some (.int n)) = .ok (some n) := by
  have hpos : (0 : Int) < n := by omega
  simp only [readWorkers, given?, if_pos hpos, Int.toNat_natCast]
  rw [Nat.min_eq_left h.2]

/-! ## Overrides -/

/-- A new override comes at the end. -/
theorem override_of_not_mem {name : String} {severity : Severity}
    {found : List (String × Severity)} (h : name ∉ found.map (·.1)) :
    override name severity found = found ++ [(name, severity)] := by
  induction found with
  | nil => rfl
  | cons o found ih =>
      rw [List.map_cons, List.mem_cons, not_or] at h
      rw [override, if_neg (Ne.symm h.1), ih h.2, List.cons_append]

/-- An override of a name that is there takes its place. -/
theorem names_override_of_mem {name : String} {severity : Severity}
    {found : List (String × Severity)} (h : name ∈ found.map (·.1)) :
    (override name severity found).map (·.1) = found.map (·.1) := by
  induction found with
  | nil => cases h
  | cons o found ih =>
      rw [override]
      split
      · next heq => rw [List.map_cons, List.map_cons, heq]
      · next hne =>
          rw [List.map_cons, List.mem_cons] at h
          rw [List.map_cons, List.map_cons, ih (h.resolve_left (Ne.symm hne))]

/-- **One entry for each name**, also after one more override. -/
theorem nodup_override {found : List (String × Severity)} (h : (found.map (·.1)).Nodup)
    (name : String) (severity : Severity) : ((override name severity found).map (·.1)).Nodup := by
  by_cases hname : name ∈ found.map (·.1)
  · rwa [names_override_of_mem hname]
  · rw [override_of_not_mem hname, List.map_append, List.nodup_append]
    refine ⟨h, List.nodup_singleton _, fun a ha b hb => ?_⟩
    obtain rfl := List.mem_singleton.mp hb
    rintro rfl
    exact hname ha

/-- The names are those that were there and the new one. -/
theorem mem_names_override {found : List (String × Severity)} {name raw : String}
    {severity : Severity} (h : raw ∈ (override name severity found).map (·.1)) :
    raw = name ∨ raw ∈ found.map (·.1) := by
  by_cases hname : name ∈ found.map (·.1)
  · rw [names_override_of_mem hname] at h
    exact .inr h
  · rw [override_of_not_mem hname, List.map_append, List.mem_append] at h
    exact h.symm.imp_left List.mem_singleton.mp

/-- **What is read as overrides** has one entry for each name, and the names are in snake case. -/
theorem nodup_of_readOverrideEntries {found overrides : List (String × Severity)}
    {entries : List (String × Value)} (h : readOverrideEntries found entries = .ok overrides)
    (hnodup : (found.map (·.1)).Nodup) (hfound : ∀ name ∈ found.map (·.1), IsSnakeCase name) :
    (overrides.map (·.1)).Nodup ∧ ∀ name ∈ overrides.map (·.1), IsSnakeCase name := by
  induction entries generalizing found with
  | nil =>
      obtain rfl := Except.ok.inj h
      exact ⟨hnodup, hfound⟩
  | cons e entries ih =>
      simp only [readOverrideEntries, bind_eq_ok_iff] at h
      obtain ⟨name, hname, severity, -, hrest⟩ := h
      refine ih hrest (nodup_override hnodup name severity) fun raw hraw => ?_
      rcases mem_names_override hraw with rfl | hraw
      · exact isSnakeCase_of_readRuleName hname
      · exact hfound raw hraw

/-- What is read from a table of rules as overrides, too. -/
theorem nodup_of_readOverrides {entries : List (String × Value)}
    {overrides : List (String × Severity)} (h : readOverrides entries = .ok overrides) :
    (overrides.map (·.1)).Nodup ∧ ∀ name ∈ overrides.map (·.1), IsSnakeCase name := by
  unfold readOverrides at h
  split at h
  · obtain rfl := Except.ok.inj h
    simp
  · exact nodup_of_readOverrideEntries h List.nodup_nil (by simp)
  · cases h

/-- Overrides with different names in snake case are read as they are, after those found before. -/
theorem readOverrideEntries_map (found : List (String × Severity))
    {overrides : List (String × Severity)} (hnames : ∀ name ∈ overrides.map (·.1), IsSnakeCase name)
    (hnodup : ((found ++ overrides).map (·.1)).Nodup) :
    readOverrideEntries found (overrides.map fun o => (o.1, .text o.2.name))
      = .ok (found ++ overrides) := by
  induction overrides generalizing found with
  | nil => rw [List.append_nil]; rfl
  | cons o overrides ih =>
      rw [List.map_cons, List.forall_mem_cons] at hnames
      have hnew : o.1 ∉ found.map (·.1) := by
        rw [List.map_append, List.nodup_append] at hnodup
        exact fun hmem => hnodup.2.2 _ hmem _ List.mem_cons_self rfl
      rw [List.map_cons, readOverrideEntries, hnames.1.readRuleName, readSeverity_name]
      show readOverrideEntries (override o.1 o.2 found) _ = _
      rw [override_of_not_mem hnew, ih _ hnames.2 (by rwa [List.append_assoc]), List.append_assoc]
      rfl

end Config

end CodeSweep
