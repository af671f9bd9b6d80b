/-
# Findings locate their text

Every hit of a rule, and so every finding of a scan, names the stretch of the text that it shows:
both of its places lead to offsets of the text and back, and between these offsets stand the
characters that it shows.
-/
import CodeSweep.Proofs.Scan.Text

namespace CodeSweep.Scan

/-- **Hits and findings locate their text.**  A rule has an answer unless it lacks its analysis, and
each hit of it locates its characters; so does each finding of a scan. -/
theorem hits_and_findings_locate :
    (∀ (r : Rule) (text : List Char),
      (r.detector = .analysis → (analysisNamed? r.name).isSome) →
      ∃ hs, r.hits? text = some hs ∧ ∀ h ∈ hs, h.extent.Locates text h.text) ∧
    (∀ (reg : Registry) (disabled : List String) (language : Option String) (path : String)
      (text : List Char) (fs : List Finding),
      scanText reg disabled language path text = .ok fs →
      ∀ f ∈ fs, f.extent.Locates text f.text.toList) := by
  constructor
  · intro r text hr
    obtain ⟨hs, hhs⟩ := r.exists_hits? text hr
    exact ⟨hs, hhs, Rule.hits?_locates hhs⟩
  · intro reg disabled language path text fs hfs f hf
    obtain ⟨rules, rfl⟩ := exists_rules_of_scanText hfs
    obtain ⟨r, -, h, hh, rfl⟩ := exists_hit_of_mem_findings hf
    obtain ⟨hs, hhs, hmem⟩ := Rule.exists_hits?_of_mem hh
    rw [Finding.ofHit, String.toList_ofList]
    exact Rule.hits?_locates hhs h hmem

/-- The rule for stub functions. -/
def stubRule : Rule :=
  { name := "c_todo_stub_function", target := .only .c, detector := .analysis, severity := .low
    description := "" }

/-- A rule for semicolons at the end of a line. -/
def semicolonRule : Rule :=
  { name := "semicolon", target := .universal, detector := .pattern (.seq ";" .lineEnd) false
    severity := .low, description := "" }

/-- A stub function in the second of two lines that end with carriage returns. -/
def stubText : List Char := "x;\r\nint f() { /* TODO */ }\r\n".toList

/-- The analysis finds the stub in the second line, and a scan finds the stub and the semicolon that
the carriage return follows. -/
theorem hits_and_findings_locate_stub :
    (∃ hs, stubRule.hits? stubText = some hs ∧ hs.map (·.extent.start) = [⟨2, 5⟩] ∧
      ∀ h ∈ hs, h.extent.Locates stubText h.text) ∧
    ∃ fs, scanText ⟨[stubRule, semicolonRule]⟩ [] (some "c") "f.c" stubText = .ok fs ∧
      fs.length = 2 ∧ ∀ f ∈ fs, f.extent.Locates stubText f.text.toList := by
  constructor
  · obtain ⟨hs, hhs, hlocates⟩ :=
      hits_and_findings_locate.1 stubRule stubText (fun _ => by decide +kernel)
    have hstarts : (stubRule.hits? stubText).map (·.map (·.extent.start)) = some [⟨2, 5⟩] := by
      decide +kernel
    rw [hhs] at hstarts
    exact ⟨hs, hhs, Option.some.inj hstarts, hlocates⟩
  · have hscan := scanText_eq_ok
      (show Registry.globsRead ⟨[stubRule, semicolonRule]⟩ = true by decide +kernel) []
      (some "c") "f.c" stubText
    refine ⟨_, hscan, ?_, hits_and_findings_locate.2 _ _ _ _ _ _ hscan⟩
    rw [findings_eq, List.length_mergeSort]
    decide +kernel

end CodeSweep.Scan
