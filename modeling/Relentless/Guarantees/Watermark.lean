import Relentless.Trace.DebugConformance

/-!
# A Spent Budget Stays Spent

Whatever the clock reads, the elapsed times a run shows are the running maximum of
its readings, and a budget that one reading has used up ends the run.

- `Metered` — every elapsed time shown is the watermark at that point
- `BudgetEnds` — no attempt follows a post-operation reading that leaves a spent budget
- `elapsed_is_watermark` — both, for both engines, and the clock panic of a debug build
-/

namespace Relentless

open StateLoop

variable {R A O : Type}

/-! ## §1 What a log shows -/

/-- The elapsed times shown in a log, in order. -/
def shownElapsed (log : List (Event R A O)) : List Duration := log.filterMap Event.elapsed?

/-- The elapsed times shown in `log` are the highest so far. -/
structure Metered (log : List (Event R A O)) : Prop where
  shown : ∀ before ev after d, log = before ++ ev :: after → ev.elapsed? = some d →
    d = spent (readings before)
  ascending : (shownElapsed log).Pairwise (· ≤ ·)

/-- The statistics close the sequence of elapsed times. -/
structure ClosedBy (log : List (Event R A O)) (stats : RetryStats) : Prop where
  total : stats.totalElapsed = spent (readings log)
  ascending : (shownElapsed log ++ [stats.totalElapsed]).Pairwise (· ≤ ·)

/-- An outcome is followed by the post-operation reading; and when one of the readings
up to it is at least `T` above the baseline, no operation call comes after it. -/
def BudgetEnds (T : Duration) (log : List (Event R A O)) : Prop :=
  ∀ before outcome after, log = before ++ .outcome outcome :: after →
    ∃ baseline reading, (readings log).head? = some baseline ∧ after.head? = some (.now reading) ∧
      ((∃ r ∈ readings before ++ [reading], T ≤ r.saturatingSub baseline) → opStates after = [])

theorem TracksElapsed.shown_le {e : Elapsed} {log : List (Event R A O)}
    (h : TracksElapsed e log) :
    (∀ d ∈ shownElapsed log, e.highest ≤ d ∧ d ≤ (e.observeAll (readings log)).highest) ∧
      (shownElapsed log).Pairwise (· ≤ ·) := by
  induction log generalizing e with
  | nil => exact ⟨fun d hd => absurd hd (List.not_mem_nil), .nil⟩
  | cons ev log ih =>
    obtain ⟨hev, hlog⟩ := h
    obtain ⟨hbounds, hascending⟩ := ih hlog
    have hrise : e.highest ≤ (e.observeAll ev.reading?.toList).highest :=
      e.highest_le_observeAll _
    have hend : e.highest ≤ (e.observeAll (readings (ev :: log))).highest :=
      e.highest_le_observeAll _
    rw [readings_cons, Elapsed.observeAll_append] at hend ⊢
    have hlater : ∀ d ∈ shownElapsed log, e.highest ≤ d ∧
        d ≤ ((e.observeAll ev.reading?.toList).observeAll (readings log)).highest :=
      fun d hd => ⟨hrise.trans (hbounds d hd).1, (hbounds d hd).2⟩
    -- The event shows the watermark it finds, which later ones do not fall below.
    cases hshown : ev.elapsed? with
    | none =>
      have hskip : shownElapsed (ev :: log) = shownElapsed log :=
        List.filterMap_cons_none hshown
      rw [hskip]
      exact ⟨hlater, hascending⟩
    | some d =>
      obtain rfl : d = e.highest := hev d hshown
      have hfirst : shownElapsed (ev :: log) = e.highest :: shownElapsed log :=
        List.filterMap_cons_some hshown
      rw [hfirst, List.forall_mem_cons]
      exact ⟨⟨⟨le_refl _, hend⟩, hlater⟩, .cons (fun d hd => (hlater d hd).1) hascending⟩

/-- After a baseline reading, a log that tracks the watermark is metered. -/
theorem Metered.of_tracks {baseline : Duration} {log : List (Event R A O)}
    (h : TracksElapsed ⟨baseline, .zero⟩ log) : Metered (.now baseline :: log) := by
  constructor
  · intro before ev after d hlog hd
    cases before with
    | nil =>
      obtain ⟨rfl, -⟩ := List.cons.inj hlog
      cases hd
    | cons first before =>
      obtain ⟨rfl, rfl⟩ := List.cons.inj hlog
      exact (h.at hd).trans (Elapsed.observeAll_start baseline (readings before))
  · exact h.shown_le.2

theorem ClosedBy.of_tracks {baseline : Duration} {log : List (Event R A O)} {stats : RetryStats}
    (h : TracksElapsed ⟨baseline, .zero⟩ log)
    (htotal : stats.totalElapsed =
      ((⟨baseline, .zero⟩ : Elapsed).observeAll (readings log)).highest) :
    ClosedBy (.now baseline :: log) stats := by
  constructor
  · exact htotal.trans (Elapsed.observeAll_start baseline (readings log))
  · obtain ⟨hbounds, hascending⟩ := h.shown_le
    rw [List.pairwise_append]
    refine ⟨hascending, List.pairwise_singleton _ _, ?_⟩
    intro d hd total hmem
    obtain rfl := List.mem_singleton.mp hmem
    exact (hbounds d hd).2.trans (le_of_eq htotal.symm)

/-! ## §2 Two readings for each attempt -/

/-- What an event requires of the log around it, `reads` readings and `ops` operation
calls coming before: an operation call has its own reading, an outcome is read next. -/
def Event.Placed (reads ops : ℕ) (after : List (Event R A O)) : Event R A O → Prop
  | .op _ => reads = 2 * ops + 2
  | .outcome _ => reads = 2 * ops ∧ ∃ reading, after.head? = some (.now reading)
  | _ => True

/-- Every event of `log` is placed, `reads` readings and `ops` calls coming before. -/
def ReadsTwice (reads ops : ℕ) : List (Event R A O) → Prop
  | [] => True
  | ev :: log => ev.Placed reads ops log ∧
      ReadsTwice (reads + (readings [ev]).length) (ops + (opStates [ev]).length) log

theorem Event.Placed.append {reads ops : ℕ} {after : List (Event R A O)} {ev : Event R A O}
    (h : ev.Placed reads ops after) (later : List (Event R A O)) :
    ev.Placed reads ops (after ++ later) := by
  cases ev with
  | outcome outcome =>
    obtain ⟨hreads, reading, hhead⟩ := h
    refine ⟨hreads, reading, ?_⟩
    rw [List.head?_append, hhead]
    rfl
  | _ => exact h

theorem opStates_cons (ev : Event R A O) (log : List (Event R A O)) :
    opStates (ev :: log) = opStates [ev] ++ opStates log := opStates_append [ev] log

theorem ReadsTwice.append {reads ops : ℕ} {log log' : List (Event R A O)}
    (h : ReadsTwice reads ops log)
    (h' : ReadsTwice (reads + (readings log).length) (ops + (opStates log).length) log') :
    ReadsTwice reads ops (log ++ log') := by
  induction log generalizing reads ops with
  | nil => exact h'
  | cons ev log ih =>
    obtain ⟨hev, hlog⟩ := h
    refine ⟨hev.append log', ih hlog ?_⟩
    have hreads : readings (ev :: log) = readings [ev] ++ readings log :=
      readings_append [ev] log
    rw [hreads, opStates_cons, List.length_append, List.length_append, ← Nat.add_assoc,
      ← Nat.add_assoc] at h'
    exact h'

theorem ReadsTwice.at {reads ops : ℕ} {before after : List (Event R A O)} {ev : Event R A O}
    (h : ReadsTwice reads ops (before ++ ev :: after)) :
    ev.Placed (reads + (readings before).length) (ops + (opStates before).length) after := by
  induction before generalizing reads ops with
  | nil => exact h.1
  | cons first before ih =>
    have hreads : readings (first :: before) = readings [first] ++ readings before :=
      readings_append [first] before
    rw [hreads, opStates_cons, List.length_append, List.length_append, ← Nat.add_assoc,
      ← Nat.add_assoc]
    exact ih h.2

/-- Events that are placed anywhere. -/
theorem ReadsTwice.of_placed {reads ops : ℕ} {log : List (Event R A O)}
    (h : ∀ ev ∈ log, ∀ reads ops after, ev.Placed reads ops after) :
    ReadsTwice reads ops log := by
  induction log generalizing reads ops with
  | nil => trivial
  | cons ev log ih =>
    obtain ⟨hev, hlog⟩ := List.forall_mem_cons.mp h
    exact ⟨hev reads ops log, ih hlog⟩

theorem ReadsTwice.hooks {α : Type} (event : ℕ → α → Event R A O) (n : ℕ) (view : α)
    (hplaced : ∀ hook reads ops after, (event hook view).Placed reads ops after)
    (reads ops : ℕ) : ReadsTwice reads ops (hookEvents n event view) := by
  apply ReadsTwice.of_placed
  intro ev hev
  obtain ⟨hook, -, rfl⟩ := mem_hookEvents.mp hev
  exact hplaced hook

/-- In the opening of a round the operation is called after one reading. -/
theorem ReadsTwice.opening (S : Setting R A O) (mark : Mark) (reading : Duration) (k : ℕ) :
    ReadsTwice (2 * k + 1) k (Round.openingCalls S mark reading) := by
  let state := mark.state (mark.before reading)
  let hooks : List (Event R A O) := hookEvents S.beforeHooks .beforeAttempt state
  have hreads : readings hooks = [] := filterMap_hookEvents _ _ _ _ fun _ => rfl
  have hops : opStates hooks = [] := filterMap_hookEvents _ _ _ _ fun _ => rfl
  refine ⟨trivial, .append (.hooks .beforeAttempt _ _ (fun _ _ _ _ => trivial) _ _) ⟨?_, trivial⟩⟩
  rw [hreads, hops]
  rfl

/-- From the verdict on a round reads no clock and calls no operation. -/
theorem ReadsTwice.fate (S : Setting R A O) (state : RetryState) (outcome : O)
    (fate : Fate R A O) (reads ops : ℕ) :
    ReadsTwice reads ops (fate.calls S state outcome ++ fate.waitCalls S state.elapsed) := by
  have hexit (exit : Exit R A O) (reads ops : ℕ) :
      ReadsTwice reads ops (hookEvents S.exitHooks .onExit exit) :=
    .hooks .onExit _ _ (fun _ _ _ _ => trivial) _ _
  cases fate with
  | returned value | aborted last => exact .append ⟨trivial, hexit _ _ _⟩ trivial
  | exhausted last answer => exact .append ⟨trivial, trivial, hexit _ _ _⟩ trivial
  | retried last rawDelay =>
    refine .append ⟨trivial, trivial, trivial, trivial⟩ (.of_placed ?_)
    intro ev hev
    simp only [Fate.waitCalls, waitEvents] at hev
    split at hev
    · cases hev
    · obtain rfl := List.mem_singleton.mp hev
      exact fun _ _ _ => trivial

theorem ReadsTwice.round (S : Setting R A O) (mark : Mark) (round : Round R A O) (k : ℕ) :
    ReadsTwice (2 * k + 1) k (round.calls S mark) := by
  unfold Round.calls
  rw [List.append_assoc, List.append_assoc]
  refine .append (.opening S mark round.beforeReading k) (.append ?_ (.fate S _ _ _ _ _))
  rw [Round.readings_openingCalls, Round.opStates_openingCalls]
  exact ⟨⟨rfl, round.afterReading, rfl⟩, trivial,
    .hooks .afterAttempt _ _ (fun _ _ _ _ => trivial) _ _⟩

/-- The rounds of a run read the clock before each call and after each outcome. -/
theorem Rounds.readsTwice {S : Setting R A O} {mark : Mark} {log : List (Event R A O)}
    {turn : Turn Mark (Output R A O)} (h : Rounds S mark log turn) (k : ℕ) :
    ReadsTwice (2 * k + 1) k log := by
  induction h generalizing k with
  | pause mark => trivial
  | last mark round output hallowed hturn => exact .round S mark round k
  | next mark mark' round rest turn hallowed hturn hrest ih =>
    refine .append (.round S mark round k) ?_
    rw [readings_round, opStates_round]
    exact ih (k + 1)

theorem Rounds.length_readings {S : Setting R A O} {mark : Mark} {log : List (Event R A O)}
    {turn : Turn Mark (Output R A O)} (h : Rounds S mark log turn) :
    (readings log).length = 2 * (opStates log).length := by
  induction h with
  | pause mark => rfl
  | last mark round output hallowed hturn =>
    rw [readings_round, opStates_round]
    rfl
  | next mark mark' round rest turn hallowed hturn hrest ih =>
    rw [readings_append, opStates_append, readings_round, opStates_round, List.length_append,
      List.length_append, ih, Nat.mul_add]
    rfl

/-! ## §3 The budget -/

/-- An attempt is retried only while less than `T` has elapsed. -/
def Setting.RetriesWithin (S : Setting R A O) (T : Duration) : Prop :=
  ∀ state outcome last rawDelay,
    (Fate.retried last rawDelay).Allowed S state outcome → state.elapsed < T

/-- The readings of the retried rounds are all less than `T` above the origin. -/
theorem Rounds.within {S : Setting R A O} {T : Duration} (hbudget : S.RetriesWithin T)
    {mark : Mark} {log : List (Event R A O)} {turn : Turn Mark (Output R A O)}
    (h : Rounds S mark log turn) :
    ∀ r ∈ (readings log).take (2 * (gapDelays S.timeout log).length),
      r.saturatingSub mark.elapsed.origin < T := by
  induction h with
  | pause mark => exact fun r hr => absurd hr List.not_mem_nil
  | last mark round output hallowed hturn =>
    rw [gapDelays_round, Round.gap_of_done hturn]
    exact fun r hr => absurd hr List.not_mem_nil
  | next mark mark' round rest turn hallowed hturn hrest ih =>
    obtain ⟨last, rawDelay, hfate, rfl⟩ := Round.eq_retried_of_turn hturn
    -- The strategies saw the watermark of both readings of the round.
    have hspent : (round.after mark).highest < T := by
      rw [Round.Allowed, hfate] at hallowed
      exact hbudget _ _ _ _ hallowed
    have hgap : gapDelays S.timeout (round.calls S mark) =
        [clampDelay S.timeout (round.after mark).highest rawDelay] := by
      rw [gapDelays_round, Round.gap, hfate]
      rfl
    have hcount : 2 * (gapDelays S.timeout (round.calls S mark ++ rest)).length =
        2 * (gapDelays S.timeout rest).length + 2 := by
      rw [gapDelays_append, hgap, List.length_append, List.length_singleton]
      omega
    rw [hcount, readings_append, readings_round]
    intro r hr
    rcases List.mem_cons.mp hr with rfl | hr
    · have hseen : round.beforeReading.saturatingSub mark.elapsed.origin ≤
          (mark.before round.beforeReading).highest :=
        le_max_right _ _
      exact (hseen.trans (le_max_left _ _)).trans_lt hspent
    rcases List.mem_cons.mp hr with rfl | hr
    · have hseen : round.afterReading.saturatingSub mark.elapsed.origin ≤
          (round.after mark).highest :=
        le_max_right _ _
      exact hseen.trans_lt hspent
    · exact ih r hr

/-- If only `retried` attempts are followed by another and all their readings are less
than `T` above the baseline, no attempt follows a spent budget. -/
theorem BudgetEnds.of_within {T baseline : Duration} {log : List (Event R A O)} (retried : ℕ)
    (hreads : ReadsTwice 1 0 log) (hops : (opStates log).length ≤ retried + 1)
    (hwithin : ∀ r ∈ (readings log).take (2 * retried), r.saturatingSub baseline < T) :
    BudgetEnds T (.now baseline :: log) := by
  intro before outcome after hlog
  cases before with
  | nil =>
    obtain ⟨habsurd, -⟩ := List.cons.inj hlog
    cases habsurd
  | cons first before =>
    obtain ⟨rfl, hrest⟩ := List.cons.inj hlog
    obtain rfl : log = before ++ .outcome outcome :: after := hrest
    obtain ⟨hcount, reading, hhead⟩ := hreads.at
    refine ⟨baseline, reading, rfl, hhead, ?_⟩
    rintro ⟨r, hr, hspent⟩
    -- Another call would make this outcome one of the retried ones, within the budget.
    by_contra hmore
    obtain ⟨later, rfl⟩ : ∃ later, after = .now reading :: later :=
      ⟨after.tail, (List.eq_cons_of_mem_head? hhead)⟩
    have hpos : 0 < (opStates (.now reading :: later : List (Event R A O))).length :=
      List.length_pos_iff.mpr hmore
    have hsplit : opStates (before ++ .outcome outcome :: .now reading :: later) =
        opStates before ++ opStates (.now reading :: later) := opStates_append _ _
    rw [hsplit, List.length_append] at hops
    have hreadings : readings (before ++ .outcome outcome :: .now reading :: later) =
        (readings before ++ [reading]) ++ readings later := by
      rw [readings_append, List.append_assoc]
      rfl
    have hinside : ∀ r' ∈ readings before ++ [reading], r'.saturatingSub baseline < T := by
      intro r' hr'
      apply hwithin
      rw [hreadings, List.take_append, List.take_of_length_le]
      · exact List.mem_append_left _ hr'
      · rw [List.length_append, List.length_singleton]
        omega
    rcases List.mem_cons.mp hr with rfl | hr
    · -- The baseline is no time above itself, so the budget is empty.
      have hlast := hinside reading (List.mem_append_right _ (List.mem_singleton_self reading))
      have hzero : T ≤ .zero := by simpa [Duration.le_def] using hspent
      exact absurd (hlast.trans_le hzero) (not_lt_of_ge (Duration.zero_le _))
    · exact absurd (hinside r hr) (not_lt_of_ge hspent)

/-- A run with `.timeout(T)`, or with a stop strategy `anything | stop::elapsed(T)`. -/
def GivesUpAt {m : Type → Type} [Monad m] (timeout : Option Duration) (stop : Stop m)
    (T : Duration) : Prop :=
  timeout = some T ∨ ∃ left, stop = .any left (.elapsed T)

variable {σ : Type}

theorem GivesUpAt.retriesWithin {S : Setting R A O} {classifier : Decide (Eff σ) R A O}
    {stop : Stop (Eff σ)} {wait : Wait (Eff σ)} {T : Duration}
    (hanswers : S.answers = .of classifier stop wait) (h : GivesUpAt S.timeout stop T) :
    S.RetriesWithin T := by
  intro state outcome last rawDelay hallowed
  obtain ⟨-, hstop, htimeout, -⟩ := hallowed
  rcases h with hlimit | ⟨left, rfl⟩
  · rw [hlimit] at htimeout
    exact lt_of_not_ge (of_decide_eq_false htimeout)
  · rw [hanswers] at hstop
    obtain ⟨w, hfalse⟩ := hstop
    -- Both sides of the composite were consulted, and both said no.
    obtain ⟨-, hright⟩ := Bool.or_eq_false_iff.mp hfalse
    exact lt_of_not_ge (of_decide_eq_false hright)

/-! ## §4 Both engines -/

namespace Rounds

variable {S : Setting R A O} {baseline : Duration} {rounds : List (Event R A O)}
  {turn : Turn Mark (Output R A O)}

theorem metered (h : Rounds S (.start baseline) rounds turn) : Metered (.now baseline :: rounds) :=
  .of_tracks h.tracks.1

theorem closedBy {output : Output R A O} (h : Rounds S (.start baseline) rounds (.done output)) :
    ClosedBy (.now baseline :: rounds) output.2 :=
  .of_tracks h.tracks.1 h.tracks.2

theorem budgetEnds {T : Duration} (hbudget : S.RetriesWithin T)
    (h : Rounds S (.start baseline) rounds turn) : BudgetEnds T (.now baseline :: rounds) := by
  refine .of_within (gapDelays S.timeout rounds).length (h.readsTwice 0) ?_ (h.within hbudget)
  have hgaps := h.gaps
  cases turn with
  | again mark => exact hgaps.le.trans (Nat.le_succ _)
  | done output => exact hgaps.le

end Rounds

variable {Fut WaitFut : Type}

theorem Stands.metered {S : Setting R A O} {baseline : Duration} {log : List (Event R A O)}
    {state : AsyncRetry.LoopState Fut WaitFut} (h : Stands S baseline log state) :
    Metered log := by
  cases h with
  | ready rounds mark hrounds => exact hrounds.metered
  | sleeping rounds mark k future hrounds hround hpos => exact hrounds.metered
  | yielding rounds mark k hrounds hround hpos => exact hrounds.metered
  | polling rounds mark reading future hrounds =>
    obtain ⟨htracks, helapsed⟩ := hrounds.tracks
    have helapsed : mark.elapsed = (Mark.start baseline).elapsed.observeAll (readings rounds) :=
      helapsed
    exact .of_tracks (htracks.append (helapsed ▸ .opening S mark reading))

theorem Stands.budgetEnds {S : Setting R A O} {T baseline : Duration}
    (hbudget : S.RetriesWithin T) {log : List (Event R A O)}
    {state : AsyncRetry.LoopState Fut WaitFut} (h : Stands S baseline log state) :
    BudgetEnds T log := by
  cases h with
  | ready rounds mark hrounds => exact hrounds.budgetEnds hbudget
  | sleeping rounds mark k future hrounds hround hpos => exact hrounds.budgetEnds hbudget
  | yielding rounds mark k hrounds hround hpos => exact hrounds.budgetEnds hbudget
  | polling rounds mark reading future hrounds =>
    -- The operation in flight is the one call that no gap follows yet.
    have hgaps : (opStates rounds).length = (gapDelays S.timeout rounds).length := hrounds.gaps
    have hreads := hrounds.length_readings
    refine .of_within (gapDelays S.timeout rounds).length ?_ ?_ ?_
    · refine .append (hrounds.readsTwice 0) ?_
      have hplaced := ReadsTwice.opening S mark reading (opStates rounds).length
      rwa [hreads, Nat.add_comm 1, Nat.zero_add]
    · rw [opStates_append, Round.opStates_openingCalls, List.length_append, hgaps]
      exact le_refl _
    · rw [readings_append, List.take_append_of_le_length (by omega)]
      exact hrounds.within hbudget

/-- What the log of a sync run shows. -/
theorem Retry.metered (self : Retry (Eff σ) R A O) {n : ℕ} {w₀ : σ}
    {turn : Turn Cursor (Output R A O)} {t : Traced σ R A O}
    (hrun : self.traced.runFor n ⟨w₀, []⟩ = (turn, t)) :
    Metered t.log ∧ (∀ output, turn = .done output → ClosedBy t.log output.2) ∧
      ∀ T, GivesUpAt self.timeout self.stop T → BudgetEnds T t.log := by
  obtain ⟨baseline, rounds, turn', w', hrounds, -, hrun'⟩ := self.runFor_rounds n w₀
  obtain ⟨rfl, rfl⟩ := Prod.mk.inj (hrun'.symm.trans hrun)
  refine ⟨hrounds.metered, ?_, ?_⟩
  · intro output hturn
    cases turn' with
    | again mark => cases hturn
    | done output' =>
      cases hturn
      exact hrounds.closedBy
  · intro T hgives
    exact hrounds.budgetEnds (GivesUpAt.retriesWithin rfl hgives)

/-- A debug build runs the same until an elapsed time falls, and then it panics. -/
theorem Retry.debug_neverFalls (self : Retry (Eff σ) R A O) {n : ℕ} {w₀ : σ}
    {turn : Turn Cursor (Output R A O)} {t : Traced σ R A O}
    (hrun : self.traced.runFor n ⟨w₀, []⟩ = (turn, t)) :
    (NeverFalls (readings t.log) → self.debug.runFor n w₀ = (.ok turn, t.world)) ∧
      (¬ NeverFalls (readings t.log) →
        ∃ w', self.debug.runFor n w₀ = (.error .clockWentBackwards, w')) := by
  let baseline := (self.clock.now w₀).1
  obtain ⟨rounds, turn', w', hrounds, hrelease, hguarded⟩ :=
    self.loop_debug n (.start baseline) (le_refl 1) (self.clock.now w₀).2
  obtain ⟨rfl, rfl⟩ := Prod.mk.inj ((hrelease [.now baseline]).symm.trans hrun)
  -- After the baseline, elapsed times that never fall are readings that all pass.
  have hfalls : NeverFalls (readings (.now baseline :: rounds)) ↔
      (Mark.start baseline).elapsed.Ascends (readings rounds) :=
    neverFalls_cons_iff baseline (readings rounds)
  constructor
  · intro hnever
    exact hguarded.passes (hfalls.mp hnever)
  · intro hnot
    exact hguarded.fails fun hascends => hnot (hfalls.mpr hascends)

/-- What the calls of an async run show. -/
theorem AsyncRetry.metered (self : AsyncRetry (Eff σ) Fut WaitFut R A O) {cxs : ℕ → Context}
    {w₀ : σ} {j : ℕ} {t : Traced σ R A O} {run : AsyncRun Fut WaitFut}
    {result : PollEnd (Output R A O)}
    (h : self.traced.PolledTo cxs ⟨w₀, []⟩ j t run result) :
    Metered (calls t.log) ∧
      (∀ output, result = .ready output → ClosedBy (calls t.log) output.2) ∧
      ∀ T, GivesUpAt self.timeout self.stop T → BudgetEnds T (calls t.log) := by
  refine self.polledTo_cases (P := fun log result => Metered log ∧
    (∀ output, result = .ready output → ClosedBy log output.2) ∧
    ∀ T, GivesUpAt self.timeout self.stop T → BudgetEnds T log) ?_ ?_ ?_ h
  · -- Not polled yet, it has called nothing.
    refine ⟨⟨?_, .nil⟩, fun output hout => (by cases hout), ?_⟩
    · intro before ev after d hlog
      exact absurd hlog (by simp)
    · intro T hgives before outcome after hlog
      exact absurd hlog (by simp)
  · intro baseline log state hstands
    refine ⟨hstands.metered, fun output hout => (by cases hout), ?_⟩
    intro T hgives
    exact hstands.budgetEnds (GivesUpAt.retriesWithin rfl hgives)
  · rintro baseline log output ⟨rounds, rfl, hrounds⟩
    refine ⟨hrounds.metered, ?_, ?_⟩
    · intro output' hout
      cases hout
      exact hrounds.closedBy
    · intro T hgives
      exact hrounds.budgetEnds (GivesUpAt.retriesWithin rfl hgives)

/-- **Elapsed times are the running maximum of the clock, and a spent budget is not
refunded.**  In a release build, whatever the clock reads, both engines show at every
point the highest reading above the baseline so far, up to the statistics, and make no
attempt after a post-operation reading with a spent budget behind it.  A debug build
runs the same unless an elapsed time falls below an earlier one; then its assertion
fires. -/
theorem elapsed_is_watermark (sync : Retry (Eff σ) R A O)
    (async : AsyncRetry (Eff σ) Fut WaitFut R A O) (w₀ : σ) :
    (∀ n turn t, sync.traced.runFor n ⟨w₀, []⟩ = (turn, t) →
      Metered t.log ∧ (∀ output, turn = .done output → ClosedBy t.log output.2) ∧
      (∀ T, GivesUpAt sync.timeout sync.stop T → BudgetEnds T t.log) ∧
      (NeverFalls (readings t.log) → sync.debug.runFor n w₀ = (.ok turn, t.world)) ∧
      (¬ NeverFalls (readings t.log) →
        ∃ w', sync.debug.runFor n w₀ = (.error .clockWentBackwards, w'))) ∧
    (∀ cxs j t run result, async.traced.PolledTo cxs ⟨w₀, []⟩ j t run result →
      Metered (calls t.log) ∧
      (∀ output, result = .ready output → ClosedBy (calls t.log) output.2) ∧
      (∀ T, GivesUpAt async.timeout async.stop T → BudgetEnds T (calls t.log)) ∧
      (NeverFalls (readings t.log) →
        async.traced.DebugPolledTo cxs ⟨w₀, []⟩ j t (.ok (run, result)) ∧
        ∀ i ≤ j, ∀ t' panic, ¬ async.traced.DebugPolledTo cxs ⟨w₀, []⟩ i t' (.error panic)) ∧
      (¬ NeverFalls (readings t.log) →
        ∃ i ≤ j, ∃ t',
          async.traced.DebugPolledTo cxs ⟨w₀, []⟩ i t' (.error .clockWentBackwards))) ∧
    ∀ rs : List Duration, rs.Pairwise (· ≤ ·) → NeverFalls rs := by
  refine ⟨?_, ?_, fun rs hrs => .of_pairwise hrs⟩
  · intro n turn t hrun
    obtain ⟨hmetered, hclosed, hends⟩ := sync.metered hrun
    exact ⟨hmetered, hclosed, hends, sync.debug_neverFalls hrun⟩
  · intro cxs j t run result hpolled
    obtain ⟨hmetered, hclosed, hends⟩ := async.metered hpolled
    obtain ⟨hok, herror⟩ := async.polledTo_debug hpolled
    refine ⟨hmetered, hclosed, hends, ?_, herror⟩
    intro hnever
    exact ⟨hok hnever, fun i hi t' panic => (hok hnever).no_panic hi⟩

end Relentless
