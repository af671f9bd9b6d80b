/-
# Sequences of patterns

However the sequences in a pattern are bracketed, its matches are those of its parts one after the
other (`ends_eq_endsInTurn`).  A run matches as many characters of its set as it may
(`mem_ends_run`), and a group with nothing but tests of the place before it begins where the match
does (`begins_lookup`).
-/
import CodeSweep.Proofs.Pattern.CharSet
import CodeSweep.Proofs.Pattern.Matches

namespace CodeSweep

namespace Pattern

/-! ## Parts -/

/-- The patterns that the pattern is a sequence of. -/
def parts : Pattern → List Pattern
  | seq p q => p.parts ++ q.parts
  | p => [p]

/-- The parts of two patterns one after the other. -/
theorem parts_append (p q : Pattern) : (p ++ q).parts = p.parts ++ q.parts := rfl

/-- The ends of matches of the patterns one after the other. -/
def endsInTurn (text : Array Char) : List Pattern → Nat → Groups → List End
  | [], i, g => [(i, g)]
  | p :: ps, i, g => (ends text p i g).flatMap fun e => endsInTurn text ps e.1 e.2

section

variable {text : Array Char} {i : Nat} {g : Groups} {e : End}

/-- No patterns end where they start. -/
theorem mem_endsInTurn_nil : e ∈ endsInTurn text [] i g ↔ e = (i, g) := List.mem_singleton

/-- The first pattern, and then the others from where it ends. -/
theorem mem_endsInTurn_cons {p : Pattern} {ps : List Pattern} :
    e ∈ endsInTurn text (p :: ps) i g ↔
      ∃ mid ∈ ends text p i g, e ∈ endsInTurn text ps mid.1 mid.2 := by
  rw [endsInTurn, List.mem_flatMap]

/-- Some patterns, and then the others from where they end. -/
theorem endsInTurn_append (ps qs : List Pattern) (i : Nat) (g : Groups) :
    endsInTurn text (ps ++ qs) i g
      = (endsInTurn text ps i g).flatMap fun e => endsInTurn text qs e.1 e.2 := by
  induction ps generalizing i g with
  | nil => simp [endsInTurn]
  | cons p ps ih =>
      rw [List.cons_append, endsInTurn, endsInTurn, List.flatMap_assoc]
      simp only [ih]

/-- **The matches of a pattern** are those of its parts one after the other. -/
theorem ends_eq_endsInTurn (p : Pattern) (i : Nat) (g : Groups) :
    ends text p i g = endsInTurn text p.parts i g := by
  induction p generalizing i g with
  | seq p q ihp ihq =>
      rw [ends, parts, endsInTurn_append, ← ihp]
      simp only [← ihq]
  | _ => simp [parts, endsInTurn]

/-- Two ways to bracket a sequence make no difference. -/
theorem ends_eq_of_parts_eq {p q : Pattern} (h : p.parts = q.parts) :
    ends text p i g = ends text q i g := by
  rw [ends_eq_endsInTurn, h, ← ends_eq_endsInTurn]

end

/-- Patterns without a group of the name leave what is kept under it. -/
theorem lookup_of_mem_endsInTurn {name : String} {ps : List Pattern}
    (hps : ∀ p ∈ ps, name ∉ groupNames p) {text : Array Char} {i : Nat} {g : Groups} :
    ∀ e ∈ endsInTurn text ps i g, e.2.lookup name = g.lookup name := by
  induction ps generalizing i g with
  | nil =>
      intro e he
      rw [mem_endsInTurn_nil.mp he]
  | cons p ps ih =>
      intro e he
      obtain ⟨mid, hmid, he⟩ := mem_endsInTurn_cons.mp he
      rw [List.forall_mem_cons] at hps
      rw [ih hps.2 e he, lookup_of_not_mem_groupNames hps.1 mid hmid]

/-! ## Single characters -/

/-- A place passes a test if a character stands there that does. -/
theorem holdsAt_eq_true_iff {test : Char → Bool} {text : Array Char} {i : Nat} :
    holdsAt test text i = true ↔ ∃ c, text[i]? = some c ∧ test c = true := by
  rw [holdsAt]
  cases text[i]? <;> simp

/-- One given character. -/
theorem mem_ends_single {text : Array Char} {c : Char} {i : Nat} {g : Groups} {e : End} :
    e ∈ ends text (one (.single c)) i g ↔ text[i]? = some c ∧ e = (i + 1, g) := by
  rw [mem_ends_one, holdsAt_eq_true_iff]
  constructor
  · rintro ⟨⟨d, hd, hdc⟩, he⟩
    exact ⟨CharSet.holds_single.mp hdc ▸ hd, he⟩
  · rintro ⟨hc, he⟩
    exact ⟨⟨c, hc, CharSet.holds_single.mpr rfl⟩, he⟩

/-- A given text. -/
theorem mem_ends_ofChars {text cs : List Char} {i : Nat} {g : Groups} {e : End} :
    e ∈ ends text.toArray (ofChars cs) i g ↔
      cs <+: text.drop i ∧ e = (i + cs.length, g) := by
  -- one more character in front
  have hcons : ∀ (c : Char) (cs : List Char) (i : Nat),
      c :: cs <+: text.drop i ↔ text[i]? = some c ∧ cs <+: text.drop (i + 1) := by
    intro c cs i
    by_cases hi : i < text.length
    · rw [List.drop_eq_getElem_cons hi, List.cons_prefix_cons, List.getElem?_eq_getElem hi,
        Option.some.injEq, eq_comm]
    · rw [List.drop_eq_nil_of_le (by omega), List.getElem?_eq_none (by omega)]
      simp
  induction cs using ofChars.induct generalizing i with
  | case1 => simp [ofChars, ends]
  | case2 c =>
      rw [ofChars, mem_ends_single, hcons, List.getElem?_toArray]
      simp
  | case3 c cs hcs ih =>
      have hplace : ∀ i, (i + 1 + cs.length, g) = (i + (c :: cs).length, g) := by
        intro i
        rw [List.length_cons, Nat.add_assoc, Nat.add_comm 1]
      rw [ofChars, ends, List.mem_flatMap, hcons]
      · constructor
        · rintro ⟨mid, hmid, he⟩
          obtain ⟨hc, rfl⟩ := mem_ends_single.mp hmid
          obtain ⟨hrest, rfl⟩ := ih.mp he
          exact ⟨⟨List.getElem?_toArray ▸ hc, hrest⟩, hplace i⟩
        · rintro ⟨⟨hc, hrest⟩, rfl⟩
          refine ⟨(i + 1, g), mem_ends_single.mpr ⟨List.getElem?_toArray ▸ hc, rfl⟩, ?_⟩
          exact ih.mpr ⟨hrest, (hplace i).symm⟩
      · exact hcs

/-- What ends with a given character. -/
theorem of_mem_ends_seq_single {text : Array Char} {p : Pattern} {c : Char} {i : Nat} {g : Groups}
    {e : End} (he : e ∈ ends text (seq p (one (.single c))) i g) :
    i < e.1 ∧ text[e.1 - 1]? = some c := by
  obtain ⟨mid, hmid, he⟩ := List.mem_flatMap.mp he
  obtain ⟨hc, rfl⟩ := mem_ends_single.mp he
  exact ⟨Nat.lt_succ_of_le (le_of_mem_ends hmid), hc⟩

/-! ## Runs -/

section

variable {text : Array Char} {i : Nat}

/-- A run goes on for `n` characters if they are all in the set and no more than allowed. -/
theorem le_runLength_iff {s : CharSet} {limit n : Nat} :
    n ≤ runLength s text limit i ↔ n ≤ limit ∧ ∀ k < n, holdsAt s.holds text (i + k) = true := by
  induction limit generalizing i n with
  | zero =>
      rw [runLength]
      exact ⟨fun h => ⟨h, fun k hk => by omega⟩, And.left⟩
  | succ limit ih =>
      cases n with
      | zero => simp
      | succ n =>
          have hall : (∀ k < n + 1, holdsAt s.holds text (i + k) = true) ↔
              holdsAt s.holds text i = true ∧
                ∀ k < n, holdsAt s.holds text (i + 1 + k) = true := by
            rw [Nat.forall_lt_succ_left]
            simp only [Nat.add_zero, Nat.add_assoc, Nat.add_comm 1]
          rw [runLength, hall]
          split
          · next hhere => simp [hhere, ih]
          · next hhere => simp [hhere]

/-- A run ends after any allowed number of characters that are all in the set. -/
theorem mem_runEnds {s : CharSet} {least : Nat} {most : Option Nat} {lazy : Bool} {j : Nat} :
    j ∈ runEnds s least most lazy text i ↔
      ∃ n, j = i + n ∧ least ≤ n ∧ (∀ m ∈ most, n ≤ m) ∧
        ∀ k < n, holdsAt s.holds text (i + k) = true := by
  have hlimit : ∀ n, (∀ k < n, holdsAt s.holds text (i + k) = true) →
      (n ≤ most.getD (text.size - i) ↔ ∀ m ∈ most, n ≤ m) := by
    intro n hall
    cases most with
    | some m => simp
    | none =>
        -- characters that are in the set are characters of the text
        have hsize : n ≤ text.size - i := by
          cases n with
          | zero => exact Nat.zero_le _
          | succ n =>
              have := lt_size_of_holdsAt (hall n (Nat.lt_succ_self n))
              omega
        simpa using hsize
  have hmem : j ∈ runEnds s least most lazy text i ↔
      i + least ≤ j ∧ j ≤ i + runLength s text (most.getD (text.size - i)) i := by
    rw [runEnds]
    split
    · rw [List.mem_range'_1]
      omega
    · rw [List.mem_reverse, List.mem_range'_1]
      omega
  rw [hmem]
  constructor
  · rintro ⟨hleast, hle⟩
    obtain ⟨n, rfl⟩ := Nat.exists_eq_add_of_le (Nat.le_of_add_right_le hleast)
    obtain ⟨hmost, hall⟩ := le_runLength_iff.mp (Nat.le_of_add_le_add_left hle)
    exact ⟨n, rfl, by omega, (hlimit n hall).mp hmost, hall⟩
  · rintro ⟨n, rfl, hleast, hmost, hall⟩
    have hle := le_runLength_iff.mpr ⟨(hlimit n hall).mpr hmost, hall⟩
    omega

/-- **Runs** match any allowed number of characters that are all in the set. -/
theorem mem_ends_run {s : CharSet} {least : Nat} {most : Option Nat} {lazy : Bool} {g : Groups}
    {e : End} :
    e ∈ ends text (run s least most lazy) i g ↔
      ∃ n, e = (i + n, g) ∧ least ≤ n ∧ (∀ m ∈ most, n ≤ m) ∧
        ∀ k < n, holdsAt s.holds text (i + k) = true := by
  rw [ends, List.mem_map]
  constructor
  · rintro ⟨j, hj, rfl⟩
    obtain ⟨n, rfl, h⟩ := mem_runEnds.mp hj
    exact ⟨n, rfl, h⟩
  · rintro ⟨n, rfl, h⟩
    exact ⟨i + n, mem_runEnds.mpr ⟨n, rfl, h⟩, rfl⟩

end

/-! ## Groups at the start -/

/-- The pattern consumes nothing: it only tests the place. -/
def standsStill : Pattern → Bool
  | empty => true
  | edge _ => true
  | ahead _ _ => true
  | behind _ _ _ => true
  | seq p q => p.standsStill && q.standsStill
  | _ => false

/-- A pattern that only tests the place ends where it starts. -/
theorem eq_of_standsStill {text : Array Char} {p : Pattern} (hp : p.standsStill = true) {i : Nat}
    {g : Groups} : ∀ e ∈ ends text p i g, e.1 = i := by
  induction p generalizing i g with
  | empty => simp [ends]
  | edge d =>
      intro e he
      rw [(mem_ends_edge.mp he).2]
  | ahead p wanted => exact fun e he => (of_mem_ends_ahead he).1
  | behind p width wanted => exact fun e he => (of_mem_ends_behind he).1
  | seq p q ihp ihq =>
      intro e he
      rw [standsStill, Bool.and_eq_true] at hp
      rw [ends, List.mem_flatMap] at he
      obtain ⟨mid, hmid, he⟩ := he
      rw [ihq hp.2 e he, ihp hp.1 mid hmid]
  | _ => simp [standsStill] at hp

/-- A group of the name begins every match, and is the last of its name to be kept. -/
def begins (name : String) : Pattern → Bool
  | seq p q =>
    (begins name p && !(groupNames q).contains name) || (p.standsStill && begins name q)
  | alt p q => begins name p && begins name q
  | group n p => n == name || begins name p
  | _ => false

/-- **A group at the start** holds a stretch that begins where the match does. -/
theorem begins_lookup {text : Array Char} {name : String} {p : Pattern} {i : Nat} {g : Groups}
    (hp : begins name p = true) :
    ∀ e ∈ ends text p i g, ∃ b, e.2.lookup name = some (i, b) := by
  induction p generalizing i g with
  | seq p q ihp ihq =>
      intro e he
      rw [ends, List.mem_flatMap] at he
      obtain ⟨mid, hmid, he⟩ := he
      rw [begins, Bool.or_eq_true, Bool.and_eq_true, Bool.and_eq_true] at hp
      rcases hp with ⟨hp, hq⟩ | ⟨hp, hq⟩
      · rw [lookup_of_not_mem_groupNames (by simpa using hq) e he]
        exact ihp hp mid hmid
      · obtain ⟨b, hb⟩ := ihq hq e he
        exact ⟨b, by rw [hb, eq_of_standsStill hp mid hmid]⟩
  | alt p q ihp ihq =>
      intro e he
      rw [begins, Bool.and_eq_true] at hp
      rw [ends, List.mem_append] at he
      rcases he with he | he
      · exact ihp hp.1 e he
      · exact ihq hp.2 e he
  | group n p ih =>
      intro e he
      rw [ends, List.mem_map] at he
      obtain ⟨e, he, rfl⟩ := he
      rw [begins, Bool.or_eq_true, beq_iff_eq] at hp
      by_cases hn : n = name
      · exact ⟨e.1, by rw [hn, List.lookup_cons_self]⟩
      · rw [List.lookup_cons, beq_false_of_ne (Ne.symm hn)]
        exact ih (hp.resolve_left hn) e he
  | _ => simp [begins] at hp

/-- The same for patterns one after the other. -/
def beginsInTurn (name : String) : List Pattern → Bool
  | [] => false
  | p :: ps =>
    (begins name p && ps.all fun q => !(groupNames q).contains name) ||
      (p.standsStill && beginsInTurn name ps)

/-- A group at the start of a sequence holds a stretch that begins where the match does. -/
theorem beginsInTurn_lookup {text : Array Char} {name : String} {ps : List Pattern} {i : Nat}
    {g : Groups} (hps : beginsInTurn name ps = true) :
    ∀ e ∈ endsInTurn text ps i g, ∃ b, e.2.lookup name = some (i, b) := by
  induction ps generalizing i g with
  | nil => simp [beginsInTurn] at hps
  | cons p ps ih =>
      intro e he
      obtain ⟨mid, hmid, he⟩ := mem_endsInTurn_cons.mp he
      rw [beginsInTurn, Bool.or_eq_true, Bool.and_eq_true, Bool.and_eq_true] at hps
      rcases hps with ⟨hp, hrest⟩ | ⟨hp, hrest⟩
      · rw [lookup_of_mem_endsInTurn (by simpa using hrest) e he]
        exact begins_lookup hp mid hmid
      · obtain ⟨b, hb⟩ := ih hrest e he
        exact ⟨b, by rw [hb, eq_of_standsStill hp mid hmid]⟩

end Pattern

end CodeSweep
