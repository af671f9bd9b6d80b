/-
# Scans of sources

Where all globs can be read, a source has its findings whatever the others are
(`scanSource_eq_ok`), and a scan puts together the findings of the sources that it does not leave
out (`scanSources_eq_ok`).  So two lists of sources, one after the other, have the findings of the
one and then those of the other.
-/
import CodeSweep.Proofs.Scan.Text
import CodeSweep.Scan.Sources

namespace CodeSweep

/-- No language has an empty name. -/
theorem Language.name_ne_empty (l : Language) : l.name ≠ "" := by
  cases l <;> decide

/-! ## Summaries -/

namespace Summary

/-- The summary of two scans, one after the other. -/
instance : Append Summary where
  append s t :=
    { filesScanned := s.filesScanned + t.filesScanned
      filesCancelled := s.filesCancelled + t.filesCancelled
      findings := s.findings ++ t.findings }

/-- Every source is counted, as scanned or as left out. -/
theorem filesScanned_add_filesCancelled (os : List (Option (List Finding))) :
    (ofOutcomes os).filesScanned + (ofOutcomes os).filesCancelled = os.length := by
  show (os.filter (·.isSome)).length + (os.filter (·.isNone)).length = os.length
  induction os with
  | nil => rfl
  | cons o os ih =>
      cases o
      · simp only [List.filter_cons, List.length_cons, Option.isSome_none, Option.isNone_none,
          if_true, Bool.false_eq_true, if_false]
        omega
      · simp only [List.filter_cons, List.length_cons, Option.isSome_some, Option.isNone_some,
          if_true, Bool.false_eq_true, if_false]
        omega

end Summary

namespace Scan

/-! ## One source -/

section

variable {reg : Registry} (cfg : Config)

/-- The findings in a source that the configuration asks for, where all globs can be read. -/
def findingsIn (reg : Registry) (cfg : Config) (source : Source) : List Finding :=
  let language := Language.classify source.path (some source.text)
  if cfg.languages.contains language then
    ((findings (appliedRules reg cfg.disable (some language.name) source.path source.text)
      (Path.normalize source.path) language.name source.text).map (regrade cfg)).filter
        (·.severity.meets cfg.minSeverity)
  else []

/-- **A source has its findings** where all globs can be read. -/
theorem scanSource_eq_ok (hreg : reg.globsRead = true) (source : Source) :
    scanSource reg cfg source = .ok (findingsIn reg cfg source) := by
  rw [scanSource, findingsIn]
  split
  · rw [scanText_eq_ok hreg, languageOf_some (Language.name_ne_empty _)]
    rfl
  · rfl

/-- What becomes of a source where all globs can be read. -/
theorem outcome_eq_ok (hreg : reg.globsRead = true) (calledOff : Bool) (source : Source) :
    outcome reg cfg calledOff source
      = .ok (if calledOff then none else some (findingsIn reg cfg source)) := by
  rw [outcome, scanSource_eq_ok cfg hreg]
  split <;> rfl

/-- A finding bears the path of its source. -/
theorem path_of_mem_findingsIn {source : Source} {f : Finding}
    (hf : f ∈ findingsIn reg cfg source) : f.path = Path.normalize source.path := by
  rw [findingsIn] at hf
  split at hf
  · obtain ⟨f', hf', rfl⟩ := List.mem_map.mp (List.mem_filter.mp hf).1
    obtain ⟨r, -, h, -, rfl⟩ := exists_hit_of_mem_findings hf'
    rfl
  · simp at hf

/-! ## All sources -/

/-- **A scan of sources** puts together what becomes of each of them. -/
theorem scanSources_eq_ok (hreg : reg.globsRead = true) (calledOff : Nat → Bool)
    (sources : List Source) :
    scanSources reg cfg calledOff sources
      = .ok (.ofOutcomes (sources.zipIdx.map fun s =>
          if calledOff s.2 then none else some (findingsIn reg cfg s.1))) := by
  rw [scanSources, mapM_eq_ok _ _ _ fun s _ => outcome_eq_ok cfg hreg (calledOff s.2) s.1]
  rfl

/-- The findings of a scan are those of the sources that are not left out, in their order. -/
theorem findings_ofOutcomes (calledOff : Nat → Bool) (sources : List (Source × Nat)) :
    (Summary.ofOutcomes (sources.map fun s =>
        if calledOff s.2 then none else some (findingsIn reg cfg s.1))).findings
      = (sources.filter fun s => !calledOff s.2).flatMap fun s => findingsIn reg cfg s.1 := by
  show (sources.map _).flatMap _ = _
  induction sources with
  | nil => rfl
  | cons s sources ih =>
      rw [List.map_cons, List.flatMap_cons, ih]
      cases hs : calledOff s.2 <;> simp [hs]

/-- As many sources are left out as are found called off. -/
theorem filesCancelled_ofOutcomes (calledOff : Nat → Bool) (sources : List Source) :
    (Summary.ofOutcomes (sources.zipIdx.map fun s =>
        if calledOff s.2 then none else some (findingsIn reg cfg s.1))).filesCancelled
      = (List.range sources.length).countP calledOff := by
  have hrange : List.range sources.length = sources.zipIdx.map (·.2) := by
    rw [List.zipIdx_map_snd, List.range_eq_range']
  rw [hrange, List.countP_map]
  show ((sources.zipIdx.map _).filter _).length = _
  rw [← List.countP_eq_length_filter, List.countP_map]
  apply List.countP_congr
  intro s _
  simp only [Function.comp_apply]
  cases calledOff s.2 <;> simp

/-- A scan that is not called off finds what is in each source. -/
theorem scanSources_false (hreg : reg.globsRead = true) (sources : List Source) :
    scanSources reg cfg (fun _ => false) sources
      = .ok ⟨sources.length, 0, sources.flatMap (findingsIn reg cfg)⟩ := by
  have houtcomes : (sources.zipIdx.map fun s =>
        if false then none else some (findingsIn reg cfg s.1))
      = sources.map fun source => some (findingsIn reg cfg source) := by
    conv_rhs => rw [← List.zipIdx_map_fst 0 sources, List.map_map]
    rfl
  rw [scanSources_eq_ok cfg hreg, houtcomes]
  simp [Summary.ofOutcomes, List.filter_map, List.flatMap_map, Function.comp_def]

end

end Scan

end CodeSweep
