/-
# Rules that read lines

A rule whose pattern is matched line by line sees nothing but the lines of a text.  So what it hits
in two texts with a line feed between them is what it hits in the first, and then what it hits in
the second, so many lines further down (`hits_append`); and carriage returns before line feeds make
no difference to it (`hits_withReturns`).
-/
import CodeSweep.Proofs.Rule.Hit
import CodeSweep.Proofs.Text.Lines

namespace CodeSweep

/-! ## Further down -/

/-- The place `n` lines further down. -/
def Position.down (n : Nat) (p : Position) : Position := ⟨p.line + n, p.column⟩

/-- The stretch `n` lines further down. -/
def Extent.down (n : Nat) (e : Extent) : Extent := ⟨e.start.down n, e.stop.down n⟩

/-- The hit `n` lines further down. -/
def Hit.down (n : Nat) (h : Hit) : Hit := { h with extent := h.extent.down n }

/-- It starts `n` lines further down. -/
@[simp] theorem Hit.line_down (n : Nat) (h : Hit) :
    (h.down n).extent.start.line = h.extent.start.line + n := rfl

/-! ## Hits in numbered lines -/

namespace Hit

variable (p : Pattern)

/-- The hits in lines come line by line. -/
theorem inLines_append (number : Nat) (ls ls' : List (List Char)) :
    inLines p number (ls ++ ls')
      = inLines p number ls ++ inLines p (number + ls.length) ls' := by
  induction ls generalizing number with
  | nil => rfl
  | cons l ls ih =>
      rw [List.cons_append, inLines, inLines, ih, List.append_assoc, List.length_cons,
        Nat.add_right_comm, Nat.add_assoc]

/-- A line with a greater number has its hit further down. -/
theorem inLine?_add (number n : Nat) (line : List Char) :
    inLine? p (number + n) line = (inLine? p number line).map (down n) := by
  unfold inLine?
  split
  · rfl
  · rw [Option.map_map]
    rfl

/-- Lines with greater numbers have their hits further down. -/
theorem inLines_add (number n : Nat) (ls : List (List Char)) :
    inLines p (number + n) ls = (inLines p number ls).map (down n) := by
  induction ls generalizing number with
  | nil => rfl
  | cons l ls ih =>
      rw [inLines, inLines, Nat.add_right_comm, ih, inLine?_add, List.map_append]
      cases inLine? p number l <;> rfl

/-- The hits are in the lines that are looked at. -/
theorem line_of_mem_inLines {p : Pattern} {number : Nat} {ls : List (List Char)} {h : Hit}
    (hh : h ∈ inLines p number ls) :
    number ≤ h.extent.start.line ∧ h.extent.start.line < number + ls.length := by
  obtain ⟨k, line, hk, hline⟩ := mem_inLines.mp hh
  obtain ⟨hlt, -⟩ := List.getElem?_eq_some_iff.mp hk
  rw [line_of_inLine? hline]
  omega

end Hit

/-! ## Hits of a rule -/

namespace Rule

/-- The rule has a pattern that is matched line by line, or nothing to detect anything by. -/
def readsLines (r : Rule) : Bool :=
  match r.detector with
  | .pattern _ _ => r.scope == .line
  | .analysis => false
  | .nothing => true

/-- Such a rule hits what its pattern matches in the lines, or nothing. -/
theorem exists_hits_eq {r : Rule} (hr : r.readsLines = true) :
    ∃ (p : Pattern) (applied : Bool),
      ∀ text, r.hits text = if applied then Hit.inLines p 1 (Text.lines text) else [] := by
  cases hdetector : r.detector with
  | pattern p anyCase =>
      have hscope : r.scope = .line := by simpa [readsLines, hdetector] using hr
      refine ⟨p, r.enabled, fun text => ?_⟩
      rw [hits, hits?]
      split
      · rw [enabledHits?, hdetector, hscope]
        rfl
      · rfl
  | analysis => simp [readsLines, hdetector] at hr
  | nothing =>
      refine ⟨.empty, false, fun text => ?_⟩
      rw [hits, hits?, enabledHits?, hdetector]
      split <;> rfl

/-- What such a rule hits is in the lines of the text. -/
theorem line_of_mem_hits {r : Rule} (hr : r.readsLines = true) {text : List Char} {h : Hit}
    (hh : h ∈ r.hits text) :
    1 ≤ h.extent.start.line ∧ h.extent.start.line ≤ text.count '\n' + 1 := by
  obtain ⟨p, applied, hhits⟩ := exists_hits_eq hr
  rw [hhits] at hh
  split at hh
  · have hline := Hit.line_of_mem_inLines hh
    rw [Text.length_lines] at hline
    omega
  · simp at hh

/-- **Hits line by line.**  In two texts with a line feed between them such a rule hits what it hits
in each of them. -/
theorem hits_append {r : Rule} (hr : r.readsLines = true) (as bs : List Char) :
    r.hits (as ++ '\n' :: bs)
      = r.hits as ++ (r.hits bs).map (Hit.down (as.count '\n' + 1)) := by
  obtain ⟨p, applied, hhits⟩ := exists_hits_eq hr
  rw [hhits, hhits, hhits]
  split
  · rw [Text.lines_append, Hit.inLines_append, Hit.inLines_add, Text.length_lines]
  · rfl

/-- **Line ends do not matter** to such a rule. -/
theorem hits_withReturns {r : Rule} (hr : r.readsLines = true) {text : List Char}
    (htext : '\r' ∉ text) : r.hits (Text.withReturns text) = r.hits text := by
  obtain ⟨p, applied, hhits⟩ := exists_hits_eq hr
  rw [hhits, hhits, Text.lines_withReturns htext]

end Rule

end CodeSweep
