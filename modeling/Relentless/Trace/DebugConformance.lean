import Mathlib.Data.List.Chain
import Relentless.Engine.DebugBuild
import Relentless.Trace.AsyncConformance
import Relentless.Trace.Readings

/-!
# Debug Runs Follow Release Runs

A debug run makes the calls of the release run up to the first clock reading
below the watermark, where it panics.

- `Elapsed.Ascends` — no reading is below the watermark of those before it
- `Retry.loop_debug` — a debug run is the release run, or the clock panic
- `AsyncRetry.passes_debug` — the same for one poll
-/

namespace Relentless

open StateLoop

variable {σ R A O : Type}

/-! ## §1 Ascending readings -/

/-- Each reading is accepted by the watermark of the readings before it. -/
def Elapsed.Ascends (e : Elapsed) : List Duration → Prop
  | [] => True
  | r :: rs => e.Accepts r ∧ (e.observe r).Ascends rs

theorem Elapsed.ascends_append (e : Elapsed) (rs rs' : List Duration) :
    e.Ascends (rs ++ rs') ↔ e.Ascends rs ∧ (e.observeAll rs).Ascends rs' := by
  induction rs generalizing e with
  | nil => simp [Ascends]
  | cons r rs ih => simp [Ascends, ih, and_assoc]

/-- Accepting readings one after the other is their elapsed times not decreasing. -/
theorem Elapsed.ascends_iff_pairwise (e : Elapsed) (rs : List Duration) :
    e.Ascends rs ↔
      (e.highest :: rs.map fun r => r.saturatingSub e.origin).Pairwise (· ≤ ·) := by
  rw [← List.isChain_iff_pairwise]
  -- Adjacent elapsed times are what the assertion compares.
  induction rs generalizing e with
  | nil => simp [Ascends]
  | cons r rs ih =>
    rw [Ascends, ih, observe_origin, List.map_cons, List.isChain_cons_cons]
    constructor
    · rintro ⟨haccepts, hchain⟩
      have hhighest : (e.observe r).highest = r.saturatingSub e.origin := max_eq_right haccepts
      exact ⟨haccepts, hhighest ▸ hchain⟩
    · rintro ⟨haccepts, hchain⟩
      have hhighest : (e.observe r).highest = r.saturatingSub e.origin := max_eq_right haccepts
      exact ⟨haccepts, hhighest.symm ▸ hchain⟩

/-- The elapsed times of readings, the first being the baseline, never decrease. -/
def NeverFalls : List Duration → Prop
  | [] => True
  | baseline :: rs => (rs.map fun r => r.saturatingSub baseline).Pairwise (· ≤ ·)

theorem neverFalls_cons_iff (baseline : Duration) (rs : List Duration) :
    NeverFalls (baseline :: rs) ↔ (⟨baseline, .zero⟩ : Elapsed).Ascends rs := by
  rw [Elapsed.ascends_iff_pairwise, List.pairwise_cons]
  constructor
  · intro h
    exact ⟨fun d _ => Duration.zero_le d, h⟩
  · rintro ⟨-, h⟩
    exact h

/-- A clock that never goes back reads elapsed times that never decrease. -/
theorem NeverFalls.of_pairwise {rs : List Duration} (h : rs.Pairwise (· ≤ ·)) : NeverFalls rs := by
  cases rs with
  | nil => trivial
  | cons baseline rs =>
    refine List.Pairwise.map _ ?_ (List.Pairwise.tail h)
    intro a b hab
    exact Nat.sub_le_sub_right hab _

/-! ## §2 The sync engine -/

namespace Retry

/-- A debug round is the release round when its readings ascend, and otherwise
the clock panic. -/
theorem loopBody_debug_spec (self : Retry (Eff σ) R A O) (mark : Mark) (hround : 1 ≤ mark.round)
    (w : σ) :
    ∃ (round : Round R A O) (w' : σ), round.Allowed self.setting mark ∧
      (∀ log, self.traced.loopBody mark.cursor ⟨w, log⟩ =
        ((round.turn self.setting mark).mapNext Mark.cursor,
          ⟨w', log ++ round.calls self.setting mark⟩)) ∧
      GuardedBy (mark.elapsed.Ascends (readings (round.calls self.setting mark)))
        .clockWentBackwards (self.debug.loopBody mark.cursor w)
        ((round.turn self.setting mark).mapNext Mark.cursor, w') := by
  obtain ⟨round, w₀, w₁, w₂, w₃, h⟩ := self.exists_unfolds mark w
  obtain ⟨w', hbody, -, hbody'⟩ := h.loopBody
  have hattempt : 1 ≤ mark.cursor.attempt := attemptNumber_ne_zero hround
  have hdebug := self.loopBody_debug mark.cursor hattempt w
  obtain ⟨hinvoke, -⟩ := self.invoke_spec mark w
  simp only [h.before, h.op] at hinvoke
  simp only [hinvoke, h.before, h.after, hbody] at hdebug
  have hchecks : mark.elapsed.Ascends [round.beforeReading, round.afterReading] ↔
      mark.elapsed.Accepts round.beforeReading ∧
        (mark.before round.beforeReading).Accepts round.afterReading := by
    simp [Elapsed.Ascends, Mark.before]
  refine ⟨round, w', h.step.allowed, hbody', ?_⟩
  rw [readings_round, hchecks]
  exact hdebug

/-- **A debug run** is the release run when the readings of the release run ascend,
and otherwise ends in the clock panic. -/
theorem loop_debug (self : Retry (Eff σ) R A O) (n : ℕ) (mark : Mark) (hround : 1 ≤ mark.round)
    (w : σ) :
    ∃ (rounds : List (Event R A O)) (turn : Turn Mark (Output R A O)) (w' : σ),
      Rounds self.setting mark rounds turn ∧
      (∀ log, StateLoop.runFor self.traced.loopBody n mark.cursor ⟨w, log⟩ =
        (turn.mapNext Mark.cursor, ⟨w', log ++ rounds⟩)) ∧
      GuardedBy (mark.elapsed.Ascends (readings rounds)) .clockWentBackwards
        (StateLoop.runFor self.debug.loopBody n mark.cursor w) (turn.mapNext Mark.cursor, w') := by
  induction n generalizing mark w with
  | zero =>
    -- No readings, so nothing that could fail to ascend.
    refine ⟨[], .again mark, w, .pause mark, fun log => by simp, fun _ => rfl, fun hnot => ?_⟩
    exact absurd trivial hnot
  | succ n ih =>
    obtain ⟨round, w₁, hallowed, hbody, hguarded⟩ := self.loopBody_debug_spec mark hround w
    match hturn : round.turn self.setting mark with
    | .done output =>
      rw [hturn] at hbody hguarded
      refine ⟨_, .done output, w₁, .last mark round output hallowed hturn, fun log => ?_, ?_⟩
      · exact runFor_succ_done (hbody log) n
      · exact runFor_guarded_done hguarded n
    | .again mark' =>
      rw [hturn] at hbody hguarded
      obtain ⟨last, rawDelay, hfate, hmark'⟩ := Round.eq_retried_of_turn hturn
      have hround' : 1 ≤ mark'.round := by
        rw [hmark']
        exact Nat.le_add_left 1 mark.round
      -- The rest is judged against the watermark that this round leaves.
      have helapsed : mark.elapsed.observeAll (readings (round.calls self.setting mark)) =
          mark'.elapsed := by
        rw [readings_round, hmark']
        rfl
      obtain ⟨rest, turn, w₂, hrest, hrun, hguarded'⟩ := ih mark' hround' w₁
      refine ⟨round.calls self.setting mark ++ rest, turn, w₂,
        .next mark mark' round rest turn hallowed hturn hrest, fun log => ?_, ?_⟩
      · rw [runFor_succ_again (hbody log), hrun, List.append_assoc]
      · rw [readings_append, Elapsed.ascends_append, helapsed]
        exact runFor_guarded_again hguarded hguarded'

end Retry

/-! ## §3 The async engine -/

variable {Fut WaitFut : Type}

/-- Where a run stands, its watermark is that of the readings in its log. -/
theorem Stands.elapsed_eq {S : Setting R A O} {baseline : Duration} {log : List (Event R A O)}
    {state : AsyncRetry.LoopState Fut WaitFut} (h : Stands S baseline log state) :
    ∃ rs, readings log = baseline :: rs ∧
      state.1 = (⟨baseline, .zero⟩ : Elapsed).observeAll rs := by
  cases h with
  | ready rounds mark hrounds => exact ⟨readings rounds, rfl, hrounds.tracks.2⟩
  | polling rounds mark reading future hrounds =>
    -- The opening of the round in flight has taken one more reading.
    refine ⟨readings rounds ++ [reading], ?_, ?_⟩
    · have hopening : readings (Round.openingCalls S mark reading) = [reading] :=
        Round.readings_openingCalls S mark reading
      show readings ([.now baseline] ++ (rounds ++ Round.openingCalls S mark reading)) = _
      rw [readings_append, readings_append, hopening]
      rfl
    · have helapsed : mark.elapsed = (⟨baseline, .zero⟩ : Elapsed).observeAll (readings rounds) :=
        hrounds.tracks.2
      rw [Elapsed.observeAll_append, ← helapsed]
      rfl
  | sleeping rounds mark k future hrounds hround hpos =>
    exact ⟨readings rounds, rfl, hrounds.tracks.2⟩
  | yielding rounds mark k hrounds hround hpos => exact ⟨readings rounds, rfl, hrounds.tracks.2⟩

/-- Where a run stands, its attempt counter is at least one. -/
theorem Stands.one_le_attempt {S : Setting R A O} {baseline : Duration}
    {log : List (Event R A O)} {state : AsyncRetry.LoopState Fut WaitFut}
    (h : Stands S baseline log state) : 1 ≤ state.2.attempt := by
  cases h with
  | ready rounds mark hrounds | polling rounds mark reading future hrounds =>
    apply attemptNumber_ne_zero
    have hcount : mark.round = 1 + (opStates rounds).length := hrounds.counts
    omega
  | sleeping rounds mark k future hrounds hround hpos => exact attemptNumber_ne_zero hpos
  | yielding rounds mark k hrounds hround hpos => exact attemptNumber_ne_zero hpos

namespace AsyncRetry

variable (self : AsyncRetry (Eff σ) Fut WaitFut R A O) (cx : Context)

theorem proceed_reads (elapsed : Elapsed) (run : RunFields Fut WaitFut) (next : Step R A O)
    (w : σ) (log : List (Event R A O)) :
    ∃ evs, (self.traced.proceed cx elapsed run next ⟨w, log⟩).2.log = log ++ evs ∧
      readings evs = [] := by
  cases next with
  | done result stats => exact ⟨[], by simp [proceed], rfl⟩
  | continue_ delay running =>
    by_cases hzero : delay.isZero = true
    · exact ⟨[.wake cx], by simp [proceed, hzero, traced, recorded], rfl⟩
    · exact ⟨[.wait delay], by simp [proceed, hzero, traced, recorded, AsyncClock.recorded], rfl⟩

/-- A pass of the poll loop logs the one reading it takes, if any. -/
theorem pollBody_reads (baseline : Duration) (state : LoopState Fut WaitFut) (w : σ)
    (log : List (Event R A O)) (h : Stands self.setting baseline (calls log) state) :
    ∃ evs, (self.traced.pollBody cx state ⟨w, log⟩).2.log = log ++ evs ∧
      readings evs = (self.traced.passReading cx state.2 ⟨w, log⟩).toList := by
  generalize calls log = logged at h
  -- Phase by phase: a reading when an attempt starts, and one when its operation is ready.
  cases h with
  | ready rounds mark hrounds =>
    rw [self.pollBody_ready cx mark w log]
    exact ⟨_, rfl, Round.readings_openingCalls self.setting mark _⟩
  | polling rounds mark reading future hrounds =>
    rcases hpoll : self.op.poll future cx w with ⟨⟨_ | outcome, future'⟩, w₁⟩
    · rw [self.pollBody_opPending cx mark _ future future' hpoll log]
      refine ⟨_, rfl, ?_⟩
      simp [passReading, Mark.fields, traced, recorded, AsyncRetryOp.recorded, hpoll, readings,
        Event.reading?, opPolled]
    · rcases hafter : self.clock.now w₁ with ⟨after, w₂⟩
      obtain ⟨fate, w₃, hstep⟩ := step_spec self.setting self.classifier self.stop
        self.wait self.hooks rfl rfl rfl (mark.state ((mark.before reading).observe after))
        (.ofNanos mark.waited) outcome w₂
      let round : Round R A O := ⟨reading, outcome, after, fate⟩
      rw [self.pollBody_opReady cx mark round future future' hpoll hafter hstep log]
      obtain ⟨evs, hlog, hevs⟩ := self.proceed_reads cx (round.after mark)
        (mark.fields (.polling future) mark.round)
        (round.fate.step self.setting (mark.state (round.after mark)) (.ofNanos mark.waited)) w₃
        (log ++ Round.closingCalls self.setting mark (round.after mark) round.outcome
            round.afterReading ++
          round.fate.calls self.setting (mark.state (round.after mark)) round.outcome)
      rw [hlog, List.append_assoc, List.append_assoc]
      refine ⟨_, rfl, ?_⟩
      have hfate : readings (round.fate.calls self.setting (mark.state (round.after mark))
          round.outcome) = [] :=
        List.filterMap_eq_nil_iff.mpr fun ev hev => (Fate.calls_shows hev).1
      rw [readings_append, readings_append, hevs, hfate, Round.readings_closingCalls]
      simp [passReading, Mark.fields, traced, recorded, AsyncRetryOp.recorded,
        AsyncClock.recorded, Clock.recorded, hpoll, hafter, round]
  | sleeping rounds mark k future hrounds hround hpos =>
    rcases hpoll : self.clock.pollWait future cx w with ⟨⟨_ | _, future'⟩, w'⟩
    · rw [self.pollBody_waitPending cx mark k future future' hpoll log]
      exact ⟨_, rfl, rfl⟩
    · rw [self.pollBody_waitReady cx mark k hround future future' hpoll log]
      exact ⟨_, rfl, rfl⟩
  | yielding rounds mark k hrounds hround hpos =>
    rw [self.pollBody_yielding cx mark k hround w log]
    exact ⟨[], (List.append_nil log).symm, rfl⟩

/-- One debug pass of the poll loop is the release pass when the reading it takes, if
any, is accepted. -/
theorem pass_debug (baseline : Duration) (state : LoopState Fut WaitFut) (w : σ)
    (log : List (Event R A O)) (h : Stands self.setting baseline (calls log) state) :
    ∃ turn w' evs, self.traced.pollBody cx state ⟨w, log⟩ = (turn, ⟨w', log ++ evs⟩) ∧
      Lands self.setting baseline (calls (log ++ evs)) turn ∧
      GuardedBy (state.1.Ascends (readings evs)) .clockWentBackwards
        (self.traced.debug.pollBody cx state ⟨w, log⟩) (turn, ⟨w', log ++ evs⟩) := by
  obtain ⟨turn, w', log', hbody, hlands⟩ := self.pollBody_lands cx baseline state w log h
  obtain ⟨evs, hlog, hreads⟩ := self.pollBody_reads cx baseline state w log h
  rw [hbody] at hlog
  obtain rfl : log' = log ++ evs := hlog
  have hdebug := self.traced.pollBody_debug cx state.1 state.2 h.one_le_attempt ⟨w, log⟩
  -- A pass takes one reading at most, so accepting it is the log ascending.
  have haccepts : (∀ reading ∈ self.traced.passReading cx state.2 ⟨w, log⟩,
      state.1.Accepts reading) ↔ state.1.Ascends (readings evs) := by
    rw [hreads]
    cases self.traced.passReading cx state.2 ⟨w, log⟩ with
    | none => simp [Elapsed.Ascends]
    | some reading => simp [Elapsed.Ascends]
  rw [hbody] at hdebug
  refine ⟨turn, w', evs, hbody, hlands, ?_, ?_⟩
  · intro hascends
    exact hdebug.passes (haccepts.mpr hascends)
  · intro hnot
    exact hdebug.fails fun hall => hnot (haccepts.mp hall)

/-- **Passes of a debug poll** are those of the release poll when the readings they
take ascend, and otherwise end in the clock panic. -/
theorem passes_debug (baseline : Duration) (n : ℕ) (state : LoopState Fut WaitFut) (w : σ)
    (log : List (Event R A O)) (h : Stands self.setting baseline (calls log) state) :
    ∃ turn w' evs, StateLoop.runFor (self.traced.pollBody cx) n state ⟨w, log⟩ =
        (turn, ⟨w', log ++ evs⟩) ∧
      GuardedBy (state.1.Ascends (readings evs)) .clockWentBackwards
        (StateLoop.runFor (self.traced.debug.pollBody cx) n state ⟨w, log⟩)
        (turn, ⟨w', log ++ evs⟩) := by
  induction n generalizing state w log with
  | zero =>
    refine ⟨.again state, w, [], by simp, fun _ => by simp; rfl, fun hnot => ?_⟩
    exact absurd trivial hnot
  | succ n ih =>
    obtain ⟨turn, w₁, evs, hbody, hlands, hguarded⟩ := self.pass_debug cx baseline state w log h
    cases turn with
    | done result => exact ⟨_, w₁, evs, runFor_succ_done hbody n, runFor_guarded_done hguarded n⟩
    | again state' =>
      obtain ⟨turn, w₂, evs', hrun, hguarded'⟩ := ih state' w₁ (log ++ evs) hlands
      -- The next pass is checked against the watermark that this one leaves.
      have helapsed : state'.1 = state.1.observeAll (readings evs) := by
        obtain ⟨rs, hrs, hstate⟩ := h.elapsed_eq
        obtain ⟨rs', hrs', hstate'⟩ := Stands.elapsed_eq hlands
        rw [readings_calls] at hrs hrs'
        rw [readings_append, hrs] at hrs'
        obtain rfl : rs ++ readings evs = rs' := List.tail_eq_of_cons_eq hrs'
        rw [hstate', hstate, Elapsed.observeAll_append]
      rw [List.append_assoc] at hrun hguarded'
      refine ⟨turn, w₂, evs ++ evs', (runFor_succ_again hbody n).trans hrun, ?_⟩
      rw [readings_append, Elapsed.ascends_append, ← helapsed]
      exact runFor_guarded_again hguarded hguarded'

/-- **A debug future** is polled like the release future as long as the elapsed times
never decrease, and otherwise one of the polls panics. -/
theorem polledTo_debug {cxs : ℕ → Context} {w₀ : σ} {j : ℕ} {t : Traced σ R A O}
    {run : AsyncRun Fut WaitFut} {result : PollEnd (Output R A O)}
    (h : self.traced.PolledTo cxs ⟨w₀, []⟩ j t run result) :
    (NeverFalls (readings t.log) →
      self.traced.DebugPolledTo cxs ⟨w₀, []⟩ j t (.ok (run, result))) ∧
    (¬ NeverFalls (readings t.log) → ∃ i ≤ j, ∃ t',
      self.traced.DebugPolledTo cxs ⟨w₀, []⟩ i t' (.error .clockWentBackwards)) := by
  induction h with
  | created => exact ⟨fun _ => .created, fun hnot => absurd trivial hnot⟩
  | poll j n t t' run run' result hprev hpoll ih =>
    -- Where the poll starts, and the watermark it starts with.
    obtain ⟨baseline, elapsed, t₁, hbegin, hstart, hstands⟩ : ∃ baseline elapsed t₁,
        self.traced.startElapsed run t = (elapsed, t₁) ∧
        (NeverFalls (readings t₁.log) ↔ NeverFalls (readings t.log)) ∧
        Stands self.setting baseline (calls t₁.log) (elapsed, run.toRunFields) := by
      rcases self.polledTo_lands hprev with ⟨-, rfl, rfl, -⟩ | ⟨elapsed, helapsed, hstands⟩
      · refine ⟨(self.clock.now w₀).1, _, _, rfl, ?_, Stands.ready [] (.start _) (.pause _)⟩
        -- The baseline is the only reading so far.
        exact ⟨fun _ => trivial, fun _ => List.Pairwise.nil⟩
      · refine ⟨_, elapsed, t, ?_, Iff.rfl, hstands⟩
        simp [startElapsed, helapsed]
    obtain ⟨turn, w', evs, hrun, hguarded⟩ :=
      self.passes_debug (cxs j) baseline n _ t₁.world t₁.log hstands
    rw [pollFor, Eff.bind_apply, hbegin, hrun] at hpoll
    obtain ⟨rfl, rfl⟩ := Prod.mk.inj hpoll
    have hbegin' : self.traced.debug.startElapsed run t = (.ok elapsed, t₁) := by
      rw [startElapsed_debug, hbegin]
    have hascends : NeverFalls (readings (t₁.log ++ evs)) ↔
        NeverFalls (readings t₁.log) ∧ elapsed.Ascends (readings evs) := by
      obtain ⟨rs, hrs, helapsed⟩ := hstands.elapsed_eq
      rw [readings_calls] at hrs
      rw [readings_append, hrs, List.cons_append, neverFalls_cons_iff, neverFalls_cons_iff,
        Elapsed.ascends_append, ← helapsed]
    constructor
    · intro hfalls
      obtain ⟨hbefore, hnow⟩ := hascends.mp hfalls
      refine .poll j n t _ run run' result (ih.1 (hstart.mp hbefore)) ?_
      exact (Fallible.bind_ok hbegin' _).trans (hguarded.passes hnow)
    · intro hnot
      by_cases hbefore : NeverFalls (readings t.log)
      · -- The first reading below the watermark is taken by this poll.
        obtain ⟨t'', hpanic⟩ := hguarded.fails fun hnow =>
          hnot (hascends.mpr ⟨hstart.mpr hbefore, hnow⟩)
        refine ⟨j + 1, le_refl _, t'', .panic j n t t'' run _ (ih.1 hbefore) ?_⟩
        exact (Fallible.bind_ok hbegin' _).trans hpanic
      · obtain ⟨i, hi, hpanic⟩ := ih.2 hbefore
        exact ⟨i, Nat.le_succ_of_le hi, hpanic⟩

end AsyncRetry

end Relentless
