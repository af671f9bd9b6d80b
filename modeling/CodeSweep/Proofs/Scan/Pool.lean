/-
# Scans by several workers

However a schedule mixes the steps of the workers, a source ends up as it would by itself, and what
decides whether it is left out is only whether the scan is called off before it is looked at
(`Pool.Follows`, kept by every step).  So every schedule that comes to its end has the summary of a
scan one source after the other (`eq_scanSources_of_ends`), and every schedule can come to its end
(`exists_run?_to_end`).
-/
import CodeSweep.Proofs.Scan.Settings
import CodeSweep.Scan.Pool
import Mathlib.Data.List.Basic

namespace CodeSweep.Scan

variable {reg : Registry} {cfg : Config}

/-! ## When sources are looked at -/

/-- The scan is called off in the schedule before the source of the number is looked at. -/
def calledOffBefore (events : List Event) (i : Nat) : Bool :=
  (events.takeWhile (· != .look i)).contains .callOff

/-- What comes after a look does not matter to it. -/
theorem calledOffBefore_append {events : List Event} {i : Nat} (h : Event.look i ∈ events)
    (more : List Event) : calledOffBefore (events ++ more) i = calledOffBefore events i := by
  obtain ⟨before, after, rfl, hbefore⟩ := List.eq_append_cons_of_mem h
  have htake : ∀ rest, (before ++ Event.look i :: rest).takeWhile (· != .look i) = before := by
    intro rest
    rw [List.takeWhile_append_of_pos, List.takeWhile_cons_of_neg (by simp), List.append_nil]
    intro e he
    have hne : e ≠ .look i := fun heq => hbefore (heq ▸ he)
    simpa using hne
  rw [calledOffBefore, calledOffBefore, List.append_assoc, List.cons_append, htake, htake]

/-- A first look finds what has happened before. -/
theorem calledOffBefore_look {events : List Event} {i : Nat} (h : Event.look i ∉ events) :
    calledOffBefore (events ++ [.look i]) i = events.contains .callOff := by
  rw [calledOffBefore, List.takeWhile_append_of_pos, List.takeWhile_cons_of_neg (by simp),
    List.append_nil]
  intro e he
  have hne : e ≠ .look i := fun heq => h (heq ▸ he)
  simpa using hne

/-- In a schedule that does not call the scan off, no look finds it called off. -/
theorem calledOffBefore_eq_false {events : List Event} (h : Event.callOff ∉ events) :
    calledOffBefore events = fun _ => false := by
  funext i
  rw [calledOffBefore, List.contains_eq_mem, decide_eq_false_iff_not]
  exact fun hmem => h (List.takeWhile_subset _ hmem)

/-! ## What a step can do -/

/-- The event moves the source of the number from one stage to the next. -/
inductive Moves (reg : Registry) (cfg : Config) (calledOff : Bool) (i : Nat) (source : Source) :
    Event → Stage → Stage → Prop
  | take : Moves reg cfg calledOff i source (.take i) .waiting .taken
  | goOn (h : calledOff = false) : Moves reg cfg calledOff i source (.look i) .taken .underway
  | giveUp (h : calledOff = true) :
    Moves reg cfg calledOff i source (.look i) .taken (.settled (outcome reg cfg true source))
  | finish : Moves reg cfg calledOff i source (.finish i) .underway
      (.settled (outcome reg cfg false source))

namespace Pool

/-- **What a step can do**: call the scan off, or move one source to its next stage. -/
theorem step?_cases {p q : Pool} {e : Event} (h : p.step? reg cfg e = some q) :
    (e = .callOff ∧ q = { p with calledOff := true }) ∨
    ∃ i source before after, p.tasks[i]? = some (source, before) ∧
      Moves reg cfg p.calledOff i source e before after ∧ q = p.put i source after := by
  cases e with
  | callOff => exact .inl ⟨rfl, (Option.some.inj h).symm⟩
  | take i =>
      right
      simp only [step?] at h
      split at h
      · next source hi =>
          split at h
          · exact ⟨i, source, .waiting, .taken, hi, .take, (Option.some.inj h).symm⟩
          · cases h
      · cases h
  | look i =>
      right
      simp only [step?] at h
      split at h
      · next source hi =>
          obtain rfl := Option.some.inj h
          cases hoff : p.calledOff with
          | true => exact ⟨i, source, .taken, _, hi, .giveUp rfl, rfl⟩
          | false => exact ⟨i, source, .taken, _, hi, .goOn rfl, rfl⟩
      · cases h
  | finish i =>
      right
      simp only [step?] at h
      split at h
      · next source hi =>
          exact ⟨i, source, .underway, _, hi, .finish, (Option.some.inj h).symm⟩
      · cases h

end Pool

/-! ## Schedules and stages -/

/-- The source of the number has come as far as the schedule says. -/
def Stage.Fits (reg : Registry) (cfg : Config) (events : List Event) (i : Nat) (source : Source) :
    Stage → Prop
  | waiting => Event.look i ∉ events
  | taken => Event.look i ∉ events
  | underway => Event.look i ∈ events ∧ calledOffBefore events i = false
  | settled result =>
    Event.look i ∈ events ∧ result = outcome reg cfg (calledOffBefore events i) source

/-- The stage still fits after an event that is about something else. -/
theorem Stage.Fits.append {events : List Event} {i : Nat} {source : Source} {stage : Stage}
    (h : stage.Fits reg cfg events i source) {e : Event} (he : e ≠ .look i) :
    stage.Fits reg cfg (events ++ [e]) i source := by
  have hnew : Event.look i ∉ events → Event.look i ∉ events ++ [e] := by
    intro hlook hmem
    rcases List.mem_append.mp hmem with hmem | hmem
    · exact hlook hmem
    · exact he (List.mem_singleton.mp hmem).symm
  cases stage with
  | waiting => exact hnew h
  | taken => exact hnew h
  | underway => exact ⟨List.mem_append_left _ h.1, (calledOffBefore_append h.1 _).trans h.2⟩
  | settled result =>
      refine ⟨List.mem_append_left _ h.1, ?_⟩
      rw [calledOffBefore_append h.1]
      exact h.2

/-- The next stage fits after the event that moves the source to it. -/
theorem Moves.fits {events : List Event} {i : Nat} {source : Source} {e : Event}
    {before after : Stage}
    (hmove : Moves reg cfg (events.contains .callOff) i source e before after)
    (h : before.Fits reg cfg events i source) :
    after.Fits reg cfg (events ++ [e]) i source := by
  cases hmove with
  | take =>
      have htaken : Stage.taken.Fits reg cfg events i source := h
      exact htaken.append (by simp)
  | goOn hoff => exact ⟨by simp, (calledOffBefore_look h).trans hoff⟩
  | giveUp hoff =>
      refine ⟨by simp, ?_⟩
      rw [calledOffBefore_look h, hoff]
  | finish =>
      refine ⟨List.mem_append_left _ h.1, ?_⟩
      rw [calledOffBefore_append h.1, h.2]

namespace Pool

/-- The scan of the sources has come as far as the schedule says. -/
structure Follows (reg : Registry) (cfg : Config) (sources : List Source) (events : List Event)
    (p : Pool) : Prop where
  calledOff : p.calledOff = events.contains .callOff
  sources : p.tasks.map (·.1) = sources
  stages : ∀ i source (stage : Stage), p.tasks[i]? = some (source, stage) →
    stage.Fits reg cfg events i source

/-- Before anything happens, all sources wait. -/
theorem follows_start (workers : Int) (sources : List Source) :
    (start workers sources).Follows reg cfg sources [] where
  calledOff := rfl
  sources := by simp [start, Function.comp_def]
  stages i source stage h := by
    rw [start, List.getElem?_map, Option.map_eq_some_iff] at h
    obtain ⟨s, -, hs⟩ := h
    obtain ⟨-, rfl⟩ := Prod.mk.inj hs
    exact List.not_mem_nil

/-- **Every step follows the schedule.** -/
theorem Follows.step {sources : List Source} {events : List Event} {p q : Pool} {e : Event}
    (h : p.Follows reg cfg sources events) (hstep : p.step? reg cfg e = some q) :
    q.Follows reg cfg sources (events ++ [e]) := by
  rcases step?_cases hstep with ⟨rfl, rfl⟩ | ⟨i, source, before, after, hi, hmove, rfl⟩
  · exact ⟨by simp, h.sources,
      fun j source stage hj => (h.stages j source stage hj).append (by simp)⟩
  · -- the event is about no other source, so the stages of the others still fit
    have hlook : ∀ j, j ≠ i → e ≠ .look j := by
      rintro j hne rfl
      cases hmove <;> exact hne rfl
    refine ⟨?_, ?_, fun j source' stage hj => ?_⟩
    · have hother : e ≠ .callOff := by
        rintro rfl
        cases hmove
      show p.calledOff = _
      rw [h.calledOff, List.contains_append, List.contains_cons, List.contains_nil,
        beq_false_of_ne (Ne.symm hother), Bool.or_false, Bool.or_false]
    · show (p.tasks.set i (source, after)).map (·.1) = sources
      have hsource : (p.tasks.map (·.1))[i]? = some source := by
        rw [List.getElem?_map, hi]
        rfl
      obtain ⟨hlt, hget⟩ := List.getElem?_eq_some_iff.mp hsource
      have hself := List.set_getElem_self hlt
      rw [hget] at hself
      rw [List.map_set, hself, h.sources]
    · have hj' : (p.tasks.set i (source, after))[j]? = some (source', stage) := hj
      by_cases hij : i = j
      · subst hij
        obtain ⟨hlt, -⟩ := List.getElem?_eq_some_iff.mp hi
        rw [List.getElem?_set_self hlt] at hj'
        obtain ⟨rfl, rfl⟩ := Prod.mk.inj (Option.some.inj hj')
        rw [h.calledOff] at hmove
        exact hmove.fits (h.stages i source before hi)
      · rw [List.getElem?_set_ne hij] at hj'
        exact (h.stages j source' stage hj').append (hlook j (Ne.symm hij))

/-- So does every run. -/
theorem Follows.run {sources : List Source} {events more : List Event} {p q : Pool}
    (h : p.Follows reg cfg sources events) (hrun : p.run? reg cfg more = some q) :
    q.Follows reg cfg sources (events ++ more) := by
  induction more generalizing p events with
  | nil =>
      obtain rfl := Option.some.inj hrun
      rwa [List.append_nil]
  | cons e more ih =>
      rw [run?, Option.bind_eq_some_iff] at hrun
      obtain ⟨mid, hstep, hrun⟩ := hrun
      have hmid := ih (h.step hstep) hrun
      rwa [List.append_assoc] at hmid

/-! ## Runs to the end -/

/-- The results of all sources are there once each source has one. -/
theorem results?_eq_some_iff {p : Pool}
    {results : List (Except GlobError (Option (List Finding)))} :
    p.results? = some results ↔ p.tasks.map (·.2.result?) = results.map some := by
  rw [results?]
  generalize p.tasks = tasks
  induction tasks generalizing results with
  | nil => cases results <;> simp
  | cons t tasks ih =>
      cases results with
      | nil => simp [Option.bind_eq_some_iff]
      | cons result results => simp [Option.bind_eq_some_iff, ← ih]

/-- **Every source ends up as it would by itself.** -/
theorem Follows.results {sources : List Source} {events : List Event} {p : Pool}
    (h : p.Follows reg cfg sources events)
    {results : List (Except GlobError (Option (List Finding)))} (hend : p.results? = some results) :
    results = sources.zipIdx.map fun s => outcome reg cfg (calledOffBefore events s.2) s.1 := by
  rw [results?_eq_some_iff] at hend
  apply List.map_injective_iff.mpr fun _ _ => Option.some.inj
  rw [← hend]
  apply List.ext_getElem?
  intro i
  rw [← h.sources, List.getElem?_map, List.getElem?_map, List.getElem?_map, List.getElem?_zipIdx,
    List.getElem?_map]
  cases hi : p.tasks[i]? with
  | none => rfl
  | some t =>
      obtain ⟨source, stage⟩ := t
      -- all results are there, so this source is settled
      have hstage : some stage.result? = (results.map some)[i]? := by
        rw [← hend, List.getElem?_map, hi]
        rfl
      rw [List.getElem?_map] at hstage
      obtain ⟨result, -, hresult⟩ := Option.map_eq_some_iff.mp hstage.symm
      cases stage with
      | settled result =>
          have hfits := (h.stages i source _ hi).2
          simp [Stage.result?, hfits]
      | waiting => cases hresult
      | taken => cases hresult
      | underway => cases hresult

/-- The schedule brings the scan of the sources to its end, with the result. -/
def Ends (reg : Registry) (cfg : Config) (workers : Int) (sources : List Source)
    (events : List Event) (result : Except GlobError Summary) : Prop :=
  ((start workers sources).run? reg cfg events).bind summary? = some result

/-- **A schedule that comes to its end has the summary of a scan one source after the other.** -/
theorem eq_scanSources_of_ends {workers : Int} {sources : List Source} {events : List Event}
    {result : Except GlobError Summary} (h : Ends reg cfg workers sources events result) :
    result = scanSources reg cfg (calledOffBefore events) sources := by
  obtain ⟨q, hrun, hq⟩ := Option.bind_eq_some_iff.mp h
  obtain ⟨results, hresults, rfl⟩ := Option.map_eq_some_iff.mp hq
  rw [((follows_start workers sources).run hrun).results hresults, List.nil_append, scanSources,
    List.mapM_map]
  rfl

end Pool

/-! ## Progress -/

/-- How many events about the source are still to come, at most. -/
def Stage.left : Stage → Nat
  | waiting => 3
  | taken => 2
  | underway => 1
  | settled _ => 0

/-- A move brings a source closer to its result. -/
theorem Moves.left_lt {calledOff : Bool} {i : Nat} {source : Source} {e : Event}
    {before after : Stage} (h : Moves reg cfg calledOff i source e before after) :
    after.left < before.left := by
  cases h <;> simp only [Stage.left] <;> omega

/-- A source whose result is not there is waiting or busy. -/
theorem Stage.isWaiting_or_isBusy {stage : Stage} (h : stage.result? = none) :
    stage.isWaiting = true ∨ stage.isBusy = true := by
  cases stage with
  | waiting => exact .inl rfl
  | taken => exact .inr rfl
  | underway => exact .inr rfl
  | settled result => cases h

namespace Pool

/-- How many events about the sources are still to come, at most. -/
def leftOf : List (Source × Stage) → Nat
  | [] => 0
  | t :: tasks => t.2.left + leftOf tasks

/-- A source that comes closer to its result brings the scan closer to its end. -/
theorem leftOf_set_lt {tasks : List (Source × Stage)} {i : Nat} {t t' : Source × Stage}
    (hi : tasks[i]? = some t) (h : t'.2.left < t.2.left) :
    leftOf (tasks.set i t') < leftOf tasks := by
  induction tasks generalizing i with
  | nil => cases hi
  | cons u tasks ih =>
      cases i with
      | zero =>
          obtain rfl := Option.some.inj hi
          exact Nat.add_lt_add_right h _
      | succ i => exact Nat.add_lt_add_left (ih hi) _

/-- There is room for a source to be worked on as long as there was. -/
theorem lanes_of_step? {p q : Pool} {e : Event} (h : p.step? reg cfg e = some q) :
    q.lanes = p.lanes := by
  rcases step?_cases h with ⟨-, rfl⟩ | ⟨i, source, before, after, -, -, rfl⟩ <;> rfl

/-- At the start, there is room for a source to be worked on. -/
theorem lanes_start_pos (workers : Int) (sources : List Source) :
    0 < (start workers sources).lanes := by
  show 0 < lanesFor workers sources.length
  rw [lanesFor]
  split <;> omega

/-- Every step but calling the scan off brings it closer to its end. -/
theorem left_lt_of_step? {p q : Pool} {e : Event} (h : p.step? reg cfg e = some q)
    (he : e ≠ .callOff) : leftOf q.tasks < leftOf p.tasks := by
  rcases step?_cases h with ⟨rfl, -⟩ | ⟨i, source, before, after, hi, hmove, rfl⟩
  · exact absurd rfl he
  · exact leftOf_set_lt hi hmove.left_lt

/-- A result is missing because a source has none. -/
theorem exists_result?_eq_none {p : Pool} (h : p.results? = none) :
    ∃ t ∈ p.tasks, t.2.result? = none := by
  -- if each source had a result, these would be the results of the scan
  by_contra hall
  push Not at hall
  have hsome : p.tasks.map (·.2.result?) = (p.tasks.filterMap (·.2.result?)).map some := by
    rw [List.map_filterMap_some_eq_filter_map_isSome, List.filter_eq_self.mpr]
    intro result? hresult?
    obtain ⟨t, ht, rfl⟩ := List.mem_map.mp hresult?
    exact Option.isSome_iff_ne_none.mpr (hall t ht)
  rw [results?_eq_some_iff.mpr hsome] at h
  cases h

/-- While a result is missing, something can happen that brings the scan closer to its end. -/
theorem exists_step? {p : Pool} (hlanes : 0 < p.lanes) (h : p.results? = none) :
    ∃ e q, e ≠ .callOff ∧ p.step? reg cfg e = some q := by
  by_cases hbusy : ∃ t ∈ p.tasks, t.2.isBusy = true
  · obtain ⟨⟨source, stage⟩, ht, hstage⟩ := hbusy
    obtain ⟨i, hi⟩ := List.getElem?_of_mem ht
    cases stage with
    | taken => exact ⟨.look i, _, by simp, by rw [step?, hi]⟩
    | underway => exact ⟨.finish i, _, by simp, by rw [step?, hi]⟩
    | waiting => cases hstage
    | settled result => cases hstage
  · -- nobody is at work, so the first source that waits can be taken
    obtain ⟨t, ht, hresult⟩ := exists_result?_eq_none h
    have hidle : ∀ u ∈ p.tasks, u.2.isBusy = false := by
      intro u hu
      exact Bool.eq_false_iff.mpr fun hu' => hbusy ⟨u, hu, hu'⟩
    have hwaiting : ∃ u ∈ p.tasks, u.2.isWaiting = true :=
      ⟨t, ht, (Stage.isWaiting_or_isBusy hresult).resolve_right (by simp [hidle t ht])⟩
    obtain ⟨⟨source, stage⟩, hfind⟩ := Option.isSome_iff_exists.mp (List.find?_isSome.mpr hwaiting)
    obtain ⟨hstage, before, after, htasks, hbefore⟩ := List.find?_eq_some_iff_append.mp hfind
    have hi : p.tasks[before.length]? = some (source, stage) := by
      rw [htasks, List.getElem?_append_right (Nat.le_refl _), Nat.sub_self]
      rfl
    have hfree : p.isFree before.length = true := by
      have hbusy0 : p.tasks.countP (·.2.isBusy) = 0 := by
        rw [List.countP_eq_zero]
        exact fun u hu => Bool.eq_false_iff.mp (hidle u hu)
      rw [isFree, hbusy0, htasks, List.take_left]
      simp [hlanes, List.all_eq_true.mpr hbefore]
    cases stage with
    | waiting => exact ⟨.take before.length, _, by simp, by rw [step?, hi]; exact if_pos hfree⟩
    | taken => cases hstage
    | underway => cases hstage
    | settled result => cases hstage

/-- One run after the other. -/
theorem run?_append (p : Pool) (events more : List Event) :
    p.run? reg cfg (events ++ more) = (p.run? reg cfg events).bind (·.run? reg cfg more) := by
  induction events generalizing p with
  | nil => rfl
  | cons e events ih =>
      rw [List.cons_append, run?, run?, Option.bind_assoc]
      congr 1
      funext q
      exact ih q

/-- There is room for a source to be worked on after every run. -/
theorem lanes_of_run? {p q : Pool} {events : List Event} (h : p.run? reg cfg events = some q) :
    q.lanes = p.lanes := by
  induction events generalizing p with
  | nil => rw [Option.some.inj h]
  | cons e events ih =>
      obtain ⟨mid, hstep, hrun⟩ := Option.bind_eq_some_iff.mp h
      rw [ih hrun, lanes_of_step? hstep]

/-- **A scan on its way can always come to its end** without being called off. -/
theorem exists_run?_to_end {p : Pool} (hlanes : 0 < p.lanes) :
    ∃ events q, Event.callOff ∉ events ∧ p.run? reg cfg events = some q ∧
      q.summary?.isSome = true := by
  -- on how many events are still to come
  induction hleft : leftOf p.tasks using Nat.strongRecOn generalizing p with
  | ind n ih =>
      cases hresults : p.results? with
      | some results => exact ⟨[], p, List.not_mem_nil, rfl, by rw [summary?, hresults]; rfl⟩
      | none =>
          obtain ⟨e, mid, he, hstep⟩ := @exists_step? reg cfg p hlanes hresults
          obtain ⟨events, q, hevents, hrun, hq⟩ := ih _ (hleft ▸ left_lt_of_step? hstep he)
            (lanes_of_step? hstep ▸ hlanes) rfl
          refine ⟨e :: events, q, ?_, by rw [run?, hstep]; exact hrun, hq⟩
          simp [hevents, Ne.symm he]

/-! ## The summary of a schedule -/

/-- A schedule that does not call the scan off has the findings of all sources. -/
theorem Ends.eq_ok {workers : Int} {sources : List Source} {events : List Event}
    {result : Except GlobError Summary} (h : Ends reg cfg workers sources events result)
    (hreg : reg.globsRead = true) (hevents : Event.callOff ∉ events) :
    result = .ok ⟨sources.length, 0, sources.flatMap (findingsIn reg cfg)⟩ := by
  rw [eq_scanSources_of_ends h, calledOffBefore_eq_false hevents, scanSources_false cfg hreg]

/-- **However the workers are scheduled**, the scan can come to its end, each source is scanned as a
whole or left out, and the findings of those that are scanned are in the order of the sources.
If the scan is not called off, the summary does not depend on the workers, and that of two lists of
sources one after the other is put together from theirs. -/
theorem summary_of_schedule (hreg : reg.globsRead = true) (cfg : Config) :
    (∀ workers sources events p, (start workers sources).run? reg cfg events = some p →
      ∃ more result, Event.callOff ∉ more ∧
        Ends reg cfg workers sources (events ++ more) result) ∧
    (∀ workers sources events result, Ends reg cfg workers sources events result →
      ∃ s found, result = .ok s ∧ sources.mapM (scanSource reg cfg) = .ok found ∧
        s.filesScanned + s.filesCancelled = sources.length ∧
        s.filesCancelled = (List.range sources.length).countP (calledOffBefore events) ∧
        s.findings = (found.zipIdx.filter fun f => !calledOffBefore events f.2).flatMap (·.1)) ∧
    (∀ workers₁ workers₂ sources events₁ events₂ result₁ result₂,
      Event.callOff ∉ events₁ → Event.callOff ∉ events₂ →
      Ends reg cfg workers₁ sources events₁ result₁ →
      Ends reg cfg workers₂ sources events₂ result₂ → result₁ = result₂) ∧
    (∀ workers₁ workers₂ workers as bs events₁ events₂ events s t result,
      Event.callOff ∉ events₁ → Event.callOff ∉ events₂ → Event.callOff ∉ events →
      Ends reg cfg workers₁ as events₁ (.ok s) → Ends reg cfg workers₂ bs events₂ (.ok t) →
      Ends reg cfg workers (as ++ bs) events result → result = .ok (s ++ t)) := by
  refine ⟨fun workers sources events p hp => ?_, fun workers sources events result h => ?_,
    fun workers₁ workers₂ sources events₁ events₂ result₁ result₂ h₁ h₂ hends₁ hends₂ => ?_,
    fun workers₁ workers₂ workers as bs events₁ events₂ events s t result h₁ h₂ h hs ht hr => ?_⟩
  · have hlanes : 0 < p.lanes := lanes_of_run? hp ▸ lanes_start_pos workers sources
    obtain ⟨more, q, hmore, hrun, hq⟩ := exists_run?_to_end hlanes
    obtain ⟨result, hresult⟩ := Option.isSome_iff_exists.mp hq
    refine ⟨more, result, hmore, ?_⟩
    rw [Ends, run?_append, hp, Option.bind_some, hrun, Option.bind_some, hresult]
  · refine ⟨_, sources.map (findingsIn reg cfg), (eq_scanSources_of_ends h).trans
      (scanSources_eq_ok cfg hreg _ _), mapM_eq_ok _ _ _ fun s _ => scanSource_eq_ok cfg hreg s,
      ?_, filesCancelled_ofOutcomes cfg _ _, ?_⟩
    · rw [Summary.filesScanned_add_filesCancelled, List.length_map, List.length_zipIdx]
    · rw [findings_ofOutcomes, List.zipIdx_map, List.filter_map, List.flatMap_map]
      rfl
  · rw [hends₁.eq_ok hreg h₁, hends₂.eq_ok hreg h₂]
  · obtain rfl := Except.ok.inj (hs.eq_ok hreg h₁)
    obtain rfl := Except.ok.inj (ht.eq_ok hreg h₂)
    rw [hr.eq_ok hreg h, List.length_append, List.flatMap_append]
    rfl

/-- The paths of three files. -/
def letterPaths : List String := ["a.c", "b.c", "c.c"]

/-- Three sources with the letter `x`. -/
def letterSources : List Source := letterPaths.map fun path => ⟨path, ['x']⟩

/-- If two workers start with the second source and the scan is called off while they are at the
first two, the findings are those of the second, which are what its rule finds there.  If it is not
called off, one worker alone comes to the same summary, with a finding in each source. -/
theorem summary_of_schedule_letters :
    (∃ s fs, Ends ⟨[letterRule "x"]⟩ {} 2 letterSources
        [.take 1, .take 0, .look 1, .callOff, .look 0, .finish 1, .take 2, .look 2] (.ok s) ∧
      scanSource ⟨[letterRule "x"]⟩ {} ⟨"b.c", ['x']⟩ = .ok fs ∧
      s.filesScanned = 1 ∧ s.filesCancelled = 2 ∧ s.findings = fs ∧
      fs = [letterFinding "b.c" "c" .low]) ∧
    ∃ result₁ result₂, Ends ⟨[letterRule "x"]⟩ {} 1 letterSources
        [.take 0, .look 0, .finish 0, .take 1, .look 1, .finish 1, .take 2, .look 2, .finish 2]
        result₁ ∧
      Ends ⟨[letterRule "x"]⟩ {} 2 letterSources
        [.take 1, .take 0, .look 1, .look 0, .finish 1, .take 2, .look 2, .finish 2, .finish 0]
        result₂ ∧
      result₁ = result₂ ∧
      result₂ = .ok ⟨3, 0, letterPaths.map fun path => letterFinding path "c" .low⟩ := by
  have hreg : Registry.globsRead ⟨[letterRule "x"]⟩ = true := by decide +kernel
  have hfound : ∀ path ∈ letterPaths,
      findingsIn ⟨[letterRule "x"]⟩ {} ⟨path, ['x']⟩ = [letterFinding path "c" .low] := by
    have hpaths : ∀ path ∈ letterPaths, Path.isName path = true ∧ Path.normalize path = path ∧
        appliedRules ⟨[letterRule "x"]⟩ [] (some "c") path ['x'] = [letterRule "x"] ∧
        ∃ ext ∈ Language.c.profile.extensions, ext.toList <:+ Text.lower path.toList ∧
          ext.toList ≠ Text.lower path.toList := by decide +kernel
    intro path hpath
    obtain ⟨hname, hnormal, hrules, hext⟩ := hpaths path hpath
    rw [findingsIn_letter (Language.classify_of_extension hname hext _) (by decide) hrules,
      hnormal]
    rfl
  obtain ⟨-, hwhole, hsame, -⟩ := @summary_of_schedule ⟨[letterRule "x"]⟩ hreg {}
  constructor
  · obtain ⟨s, found, hs, hall, hcount, hcancelled, hfindings⟩ := hwhole 2 letterSources
      [.take 1, .take 0, .look 1, .callOff, .look 0, .finish 1, .take 2, .look 2] _ rfl
    have hleftOut : s.filesCancelled = 2 := hcancelled.trans (by decide +kernel)
    have hsources : s.filesScanned + s.filesCancelled = 3 := hcount
    rw [mapM_eq_ok _ _ _ fun source _ => scanSource_eq_ok {} hreg source] at hall
    obtain rfl := Except.ok.inj hall
    exact ⟨s, _, hs ▸ rfl, scanSource_eq_ok {} hreg _, by omega, hleftOut,
      hfindings.trans (List.append_nil _), hfound "b.c" (by decide)⟩
  · obtain ⟨result₁, hends₁⟩ : ∃ result, Ends ⟨[letterRule "x"]⟩ {} 1 letterSources
        [.take 0, .look 0, .finish 0, .take 1, .look 1, .finish 1, .take 2, .look 2, .finish 2]
        result := ⟨_, rfl⟩
    obtain ⟨result₂, hends₂⟩ : ∃ result, Ends ⟨[letterRule "x"]⟩ {} 2 letterSources
        [.take 1, .take 0, .look 1, .look 0, .finish 1, .take 2, .look 2, .finish 2, .finish 0]
        result := ⟨_, rfl⟩
    refine ⟨result₁, result₂, hends₁, hends₂,
      hsame 1 2 letterSources _ _ _ _ (by decide) (by decide) hends₁ hends₂, ?_⟩
    rw [hends₂.eq_ok hreg (by decide), letterSources, List.flatMap_map,
      List.flatMap_congr hfound]
    rfl

end Pool

end CodeSweep.Scan
