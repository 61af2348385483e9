import Relentless.Trace.Readings
import Relentless.Trace.SyncConformance

/-!
# The Async Engine Writes Rounds

However its futures behave and however it is polled, the calls `AsyncRun` has
logged are one baseline reading, a sequence of rounds, and at most the opening
of the next round.

- `Stands` — the calls so far, tied to the phase and the fields
- `AsyncRetry.pollBody_lands` — one pass of the poll loop keeps `Stands`
- `AsyncRetry.polledTo_lands` — so does any sequence of polls
-/

namespace Relentless

open StateLoop

variable {σ Fut WaitFut R A O : Type}

/-! ## §1 Where an async run stands -/

/-- The fields of an async run whose history is a mark. -/
def Mark.fields (mark : Mark) (phase : Phase Fut WaitFut) (round : ℕ) :
    RunFields Fut WaitFut :=
  { phase, attempt := attemptNumber round, previousDelay := mark.previousDelay,
    totalWait := .ofNanos mark.waited }

/-- `Stands S baseline log state`: the calls `log` are what a run in `state` has
made.  In the two phases between attempts the counter still shows the attempt
that ended, one behind the mark the log leads to. -/
inductive Stands (S : Setting R A O) (baseline : Duration) :
    List (Event R A O) → AsyncRetry.LoopState Fut WaitFut → Prop where
  | ready (rounds : List (Event R A O)) (mark : Mark)
      (hrounds : Rounds S (.start baseline) rounds (.again mark)) :
      Stands S baseline (.now baseline :: rounds)
        (mark.elapsed, mark.fields .readyToStart mark.round)
  | polling (rounds : List (Event R A O)) (mark : Mark) (reading : Duration) (future : Fut)
      (hrounds : Rounds S (.start baseline) rounds (.again mark)) :
      Stands S baseline (.now baseline :: (rounds ++ Round.openingCalls S mark reading))
        (mark.before reading, mark.fields (.polling future) mark.round)
  | sleeping (rounds : List (Event R A O)) (mark : Mark) (k : ℕ) (future : WaitFut)
      (hrounds : Rounds S (.start baseline) rounds (.again mark)) (hround : mark.round = k + 1)
      (hpos : 1 ≤ k) :
      Stands S baseline (.now baseline :: rounds)
        (mark.elapsed, mark.fields (.sleeping future) k)
  | yielding (rounds : List (Event R A O)) (mark : Mark) (k : ℕ)
      (hrounds : Rounds S (.start baseline) rounds (.again mark)) (hround : mark.round = k + 1)
      (hpos : 1 ≤ k) :
      Stands S baseline (.now baseline :: rounds) (mark.elapsed, mark.fields .yielding k)

/-- What a finished async run has called. -/
def Finished (S : Setting R A O) (baseline : Duration) (log : List (Event R A O))
    (output : Output R A O) : Prop :=
  ∃ rounds, log = .now baseline :: rounds ∧ Rounds S (.start baseline) rounds (.done output)

/-- Where a pass of the poll loop lands: in a live phase, inside or after the poll,
or at the end of the run. -/
def Lands (S : Setting R A O) (baseline : Duration) (log : List (Event R A O)) :
    Turn (AsyncRetry.LoopState Fut WaitFut) (AsyncRetry.PollResult Fut WaitFut R A O) → Prop :=
  AsyncRetry.PollKeeps (fun _ () state => Stands S baseline log state)
    (fun _ () output => Finished S baseline log output) 0 ()

namespace AsyncRetry

/-! ## §2 One pass of the poll loop, phase by phase -/

variable (self : AsyncRetry (Eff σ) Fut WaitFut R A O) (cx : Context)

/-- `ReadyToStart`: the opening of a round. -/
theorem pollBody_ready (mark : Mark) (w : σ) (log : List (Event R A O)) :
    let reading := (self.clock.now w).1
    let state := mark.state (mark.before reading)
    let call := self.op.callOp state
      (self.hooks.beforeAttempt.call state (self.clock.now w).2).2
    self.traced.pollBody cx (mark.elapsed, mark.fields .readyToStart mark.round) ⟨w, log⟩ =
      (.again (mark.before reading, mark.fields (.polling call.1) mark.round),
        ⟨call.2, log ++ Round.openingCalls self.setting mark reading⟩) := by
  simp [pollBody, traced, recorded, AsyncClock.recorded, Clock.recorded, ExecutionHooks.recorded,
    AsyncRetryOp.recorded, Round.openingCalls, setting, Mark.state, Mark.before, Mark.fields,
    RetryState.withElapsed, RetryState.withPreviousDelay]

/-- `Polling`, when the operation is not ready. -/
theorem pollBody_opPending (mark : Mark) (elapsed : Elapsed) (future future' : Fut) {w w' : σ}
    (hpoll : self.op.poll future cx w = ((.pending, future'), w')) (log : List (Event R A O)) :
    self.traced.pollBody cx (elapsed, mark.fields (.polling future) mark.round) ⟨w, log⟩ =
      (leave .pending elapsed (mark.fields (.polling future') mark.round),
        ⟨w', log ++ [.opPending cx]⟩) := by
  simp [pollBody, traced, recorded, AsyncRetryOp.recorded, Mark.fields, hpoll, opPolled]

/-- `Sleeping`, when the wait is not ready. -/
theorem pollBody_waitPending (mark : Mark) (k : ℕ) (future future' : WaitFut) {w w' : σ}
    (hpoll : self.clock.pollWait future cx w = ((.pending, future'), w'))
    (log : List (Event R A O)) :
    self.traced.pollBody cx (mark.elapsed, mark.fields (.sleeping future) k) ⟨w, log⟩ =
      (leave .pending mark.elapsed (mark.fields (.sleeping future') k),
        ⟨w', log ++ [.waitPending cx]⟩) := by
  simp [pollBody, traced, recorded, AsyncClock.recorded, Mark.fields, hpoll, waitPolled]

/-- `Sleeping`, when the wait is over: the counter catches up with the mark. -/
theorem pollBody_waitReady (mark : Mark) (k : ℕ) (hround : mark.round = k + 1)
    (future future' : WaitFut) {w w' : σ}
    (hpoll : self.clock.pollWait future cx w = ((.ready (), future'), w'))
    (log : List (Event R A O)) :
    self.traced.pollBody cx (mark.elapsed, mark.fields (.sleeping future) k) ⟨w, log⟩ =
      (.again (mark.elapsed, mark.fields .readyToStart mark.round),
        ⟨w', log ++ [.waitReady cx]⟩) := by
  simp [pollBody, traced, recorded, AsyncClock.recorded, Mark.fields, hpoll, waitPolled, hround,
    u32SaturatingAdd_attemptNumber]

/-- `Yielding`: the counter catches up with the mark. -/
theorem pollBody_yielding (mark : Mark) (k : ℕ) (hround : mark.round = k + 1) (w : σ)
    (log : List (Event R A O)) :
    self.traced.pollBody cx (mark.elapsed, mark.fields .yielding k) ⟨w, log⟩ =
      (.again (mark.elapsed, mark.fields .readyToStart mark.round), ⟨w, log⟩) := by
  simp [pollBody, Mark.fields, hround, u32SaturatingAdd_attemptNumber]

/-- `Polling`, when the operation is ready: the decision step, read as a fate,
determines what `proceed` is given and what has been logged by then. -/
theorem pollBody_answered (elapsed : Elapsed) (run : RunFields Fut WaitFut) (fate : Fate R A O)
    {future future' : Fut} {outcome : O} {reading : Duration} {w w₁ w₂ w₃ : σ}
    (hphase : run.phase = .polling future)
    (hpoll : self.op.poll future cx w = ((.ready outcome, future'), w₁))
    (hafter : self.clock.now w₁ = (reading, w₂))
    (hstep : StepsTo self.setting self.classifier self.stop self.wait self.hooks
      ⟨run.attempt, (elapsed.observe reading).highest, run.previousDelay⟩ run.totalWait outcome
      w₂ fate w₃) (log : List (Event R A O)) :
    let state : RetryState :=
      ⟨run.attempt, (elapsed.observe reading).highest, run.previousDelay⟩
    self.traced.pollBody cx (elapsed, run) ⟨w, log⟩ =
      self.traced.proceed cx (elapsed.observe reading) run
        (fate.step self.setting state run.totalWait)
        ⟨w₃, log ++ ([.outcome outcome, .now reading] ++ hookEvents self.setting.afterHooks
            .afterAttempt ⟨run.attempt, state.elapsed, outcome⟩) ++
          fate.calls self.setting state outcome⟩ := by
  intro state
  -- The log after the outcome and the second reading, before the decision step.
  let log₁ := log ++ [.outcome outcome] ++ [.now reading]
  have hpoll' : self.traced.op.poll future cx ⟨w, log⟩ =
      ((.ready outcome, future'), ⟨w₁, log ++ [.outcome outcome]⟩) := by
    simp [traced, recorded, AsyncRetryOp.recorded, hpoll, opPolled]
  have hnow : self.traced.clock.now ⟨w₁, log ++ [.outcome outcome]⟩ =
      (reading, ⟨w₂, log₁⟩) := by
    simp [traced, recorded, AsyncClock.recorded, Clock.recorded, hafter, log₁]
  have hlog : log ++ ([.outcome outcome, .now reading] ++ hookEvents self.setting.afterHooks
        .afterAttempt ⟨run.attempt, state.elapsed, outcome⟩) ++
        fate.calls self.setting state outcome =
      log₁ ++ hookEvents self.setting.afterHooks .afterAttempt
        ⟨run.attempt, state.elapsed, outcome⟩ ++ fate.calls self.setting state outcome := by
    simp [log₁]
  rw [hlog]
  simp only [pollBody, hphase, Eff.bind_apply, hpoll', Elapsed.read_release, hnow]
  exact congrArg (fun r => self.traced.proceed _ _ _ r.1 r.2) (hstep.traced log₁)

/-- `Polling`, when the operation answers the round of a mark. -/
theorem pollBody_opReady (mark : Mark) (round : Round R A O) (future future' : Fut)
    {w w₁ w₂ w₃ : σ}
    (hpoll : self.op.poll future cx w = ((.ready round.outcome, future'), w₁))
    (hafter : self.clock.now w₁ = (round.afterReading, w₂))
    (hstep : StepsTo self.setting self.classifier self.stop self.wait self.hooks
      (mark.state (round.after mark)) (.ofNanos mark.waited) round.outcome w₂ round.fate w₃)
    (log : List (Event R A O)) :
    self.traced.pollBody cx
        (mark.before round.beforeReading, mark.fields (.polling future) mark.round) ⟨w, log⟩ =
      self.traced.proceed cx (round.after mark) (mark.fields (.polling future) mark.round)
        (round.fate.step self.setting (mark.state (round.after mark)) (.ofNanos mark.waited))
        ⟨w₃, log ++ Round.closingCalls self.setting mark (round.after mark) round.outcome
            round.afterReading ++
          round.fate.calls self.setting (mark.state (round.after mark)) round.outcome⟩ :=
  self.pollBody_answered cx (mark.before round.beforeReading)
    (mark.fields (.polling future) mark.round) round.fate rfl hpoll hafter hstep log

/-! ## §3 What the decision makes of the phase -/

/-- A decision to stop ends the poll and the run. -/
theorem proceed_done (mark : Mark) (round : Round R A O) (fields : RunFields Fut WaitFut)
    (output : Output R A O) (hturn : round.turn self.setting mark = .done output) (w : σ)
    (log : List (Event R A O)) :
    self.traced.proceed cx (round.after mark) fields
        (round.fate.step self.setting (mark.state (round.after mark)) (.ofNanos mark.waited))
        ⟨w, log⟩ =
      (leave (.ready output) (round.after mark) { fields with phase := .done }, ⟨w, log⟩) ∧
    round.fate.waitCalls self.setting (round.after mark).highest = [] := by
  obtain ⟨before, outcome, after, fate⟩ := round
  cases fate with
  | returned value | aborted last | exhausted last answer =>
    obtain rfl := Turn.done.inj hturn
    exact ⟨rfl, rfl⟩
  | retried last rawDelay => cases hturn

/-- A decision to retry after a zero delay wakes the task and yields. -/
theorem proceed_yield (mark mark' : Mark) (round : Round R A O) (future : Fut)
    (hturn : round.turn self.setting mark = .again mark')
    (hzero : mark'.previousDelay = some .zero) (w : σ) (log : List (Event R A O)) :
    self.traced.proceed cx (round.after mark) (mark.fields (.polling future) mark.round)
        (round.fate.step self.setting (mark.state (round.after mark)) (.ofNanos mark.waited))
        ⟨w, log⟩ =
      (leave .pending mark'.elapsed (mark'.fields .yielding mark.round),
        ⟨(self.wakeByRef cx w).2, log ++ [.wake cx]⟩) ∧
    round.fate.waitCalls self.setting (round.after mark).highest = [] := by
  obtain ⟨before, outcome, after, fate⟩ := round
  cases fate with
  | returned value | aborted last | exhausted last answer => cases hturn
  | retried last rawDelay =>
    obtain rfl := Turn.again.inj hturn
    have hdelay := Option.some.inj hzero
    constructor
    · simp only [Fate.step, proceed, Mark.state, hdelay]
      simp [Duration.isZero, traced, recorded, Round.nextMark, Mark.fields, hdelay,
        Duration.ofNanos_saturatingAdd]
    · simp [Fate.waitCalls, waitEvents, hdelay]

/-- A decision to retry after another delay starts to sleep. -/
theorem proceed_sleep (mark mark' : Mark) (round : Round R A O) (future : Fut)
    (delay : Duration) (hturn : round.turn self.setting mark = .again mark')
    (hdelay : mark'.previousDelay = some delay) (hzero : delay ≠ .zero) (w : σ)
    (log : List (Event R A O)) :
    self.traced.proceed cx (round.after mark) (mark.fields (.polling future) mark.round)
        (round.fate.step self.setting (mark.state (round.after mark)) (.ofNanos mark.waited))
        ⟨w, log⟩ =
      (.again (mark'.elapsed, mark'.fields (.sleeping (self.clock.waitAsync delay w).1) mark.round),
        ⟨(self.clock.waitAsync delay w).2, log ++ [.wait delay]⟩) ∧
    round.fate.waitCalls self.setting (round.after mark).highest = [.wait delay] := by
  obtain ⟨before, outcome, after, fate⟩ := round
  cases fate with
  | returned value | aborted last | exhausted last answer => cases hturn
  | retried last rawDelay =>
    obtain rfl := Turn.again.inj hturn
    have hdelay := Option.some.inj hdelay
    have hzero : delay.isZero = false := delay.isZero_eq_false_iff.mpr hzero
    -- The delay of the gap is the one the mark records.
    constructor
    · simp only [Fate.step, proceed, Mark.state, hdelay, hzero]
      simp [traced, recorded, AsyncClock.recorded, Round.nextMark, Mark.fields, hdelay,
        Duration.ofNanos_saturatingAdd]
    · simp [Fate.waitCalls, waitEvents, hdelay, hzero]

/-! ## §4 Whole runs -/

/-- The calls a log gains when the operation answers complete the round. -/
theorem calls_round (mark : Mark) (round : Round R A O) (log rounds : List (Event R A O))
    (hlog : calls log = rounds ++ Round.openingCalls self.setting mark round.beforeReading) :
    calls (log ++ Round.closingCalls self.setting mark (round.after mark) round.outcome
        round.afterReading ++
      round.fate.calls self.setting (mark.state (round.after mark)) round.outcome) ++
      round.fate.waitCalls self.setting (round.after mark).highest =
    rounds ++ round.calls self.setting mark := by
  simp [hlog, Round.calls, Mark.state]

/-- When the operation answers, the round is complete: the run ends, yields or sleeps. -/
theorem lands_opReady (baseline : Duration) (mark : Mark) (round : Round R A O)
    (future future' : Fut) {w w₁ w₂ w₃ : σ} (log rounds : List (Event R A O))
    (hrounds : Rounds self.setting (.start baseline) rounds (.again mark))
    (hlog : calls log =
      .now baseline :: rounds ++ Round.openingCalls self.setting mark round.beforeReading)
    (hpoll : self.op.poll future cx w = ((.ready round.outcome, future'), w₁))
    (hafter : self.clock.now w₁ = (round.afterReading, w₂))
    (hstep : StepsTo self.setting self.classifier self.stop self.wait self.hooks
      (mark.state (round.after mark)) (.ofNanos mark.waited) round.outcome w₂ round.fate w₃) :
    ∃ turn w' log', self.traced.pollBody cx
        (mark.before round.beforeReading, mark.fields (.polling future) mark.round) ⟨w, log⟩ =
          (turn, ⟨w', log'⟩) ∧
      Lands self.setting baseline (calls log') turn := by
  have hbody := self.pollBody_opReady cx mark round future future' hpoll hafter hstep log
  have hround := calls_round self mark round log (.now baseline :: rounds) hlog
  have hall : Rounds self.setting (.start baseline) (rounds ++ round.calls self.setting mark)
      (round.turn self.setting mark) :=
    hrounds.trans rfl (.single round hstep.allowed)
  -- The rounds so far and this one lead where the decision does.
  match hturn : round.turn self.setting mark with
  | .done output =>
    have hdone := self.proceed_done cx mark round (mark.fields (.polling future) mark.round) output
      hturn w₃
    rw [(hdone []).2, List.append_nil] at hround
    rw [hturn] at hall
    exact ⟨_, _, _, hbody.trans (hdone _).1, rounds ++ round.calls self.setting mark, hround, hall⟩
  | .again mark' =>
    obtain ⟨hnumber, delay, hdelay⟩ := Round.next_of_turn hturn
    have hpos : 1 ≤ mark.round := by
      have hcount : mark.round = 1 + (opStates rounds).length := hrounds.counts
      omega
    rw [hturn] at hall
    by_cases hzero : delay = .zero
    · -- A zero delay: woken, and back to the executor.
      rw [hzero] at hdelay
      have hyield := self.proceed_yield cx mark mark' round future hturn hdelay w₃
      rw [(hyield []).2, List.append_nil] at hround
      refine ⟨_, _, _, hbody.trans (hyield _).1, mark'.elapsed, rfl, ?_⟩
      rw [calls_append, hround]
      simpa using Stands.yielding _ mark' mark.round hall hnumber hpos
    · have hsleep := self.proceed_sleep cx mark mark' round future delay hturn hdelay hzero w₃
      rw [(hsleep []).2] at hround
      refine ⟨_, _, _, hbody.trans (hsleep _).1, ?_⟩
      have hwait : calls ([.wait delay] : List (Event R A O)) = [.wait delay] := rfl
      rw [calls_append, hwait, hround]
      exact Stands.sleeping _ mark' mark.round _ hall hnumber hpos

/-- **One pass of the poll loop** keeps the calls a sequence of rounds. -/
theorem pollBody_lands (baseline : Duration) (state : LoopState Fut WaitFut) (w : σ)
    (log : List (Event R A O)) (h : Stands self.setting baseline (calls log) state) :
    ∃ turn w' log', self.traced.pollBody cx state ⟨w, log⟩ = (turn, ⟨w', log'⟩) ∧
      Lands self.setting baseline (calls log') turn := by
  generalize hcalls : calls log = logged at h
  -- One case for each live phase; only a ready operation adds a round.
  cases h with
  | ready rounds mark hrounds =>
    refine ⟨_, _, _, self.pollBody_ready cx mark w log, ?_⟩
    simp only [calls_append, hcalls, Round.calls_openingCalls]
    exact Stands.polling rounds mark _ _ hrounds
  | polling rounds mark reading future hrounds =>
    match hpoll : self.op.poll future cx w with
    | ((.pending, future'), w') =>
      refine ⟨_, _, _, self.pollBody_opPending cx mark _ future future' hpoll log, ?_⟩
      simp only [calls_append, hcalls]
      refine ⟨_, rfl, ?_⟩
      simpa using Stands.polling rounds mark reading future' hrounds
    | ((.ready outcome, future'), w₁) =>
      match hafter : self.clock.now w₁ with
      | (after, w₂) =>
      obtain ⟨fate, w₃, hstep⟩ := step_spec self.setting self.classifier self.stop
        self.wait self.hooks rfl rfl rfl (mark.state ((mark.before reading).observe after))
        (.ofNanos mark.waited) outcome w₂
      exact self.lands_opReady cx baseline mark ⟨reading, outcome, after, fate⟩ future future' log
        rounds hrounds hcalls hpoll hafter hstep
  | sleeping rounds mark k future hrounds hround hpos =>
    match hpoll : self.clock.pollWait future cx w with
    | ((.pending, future'), w') =>
      refine ⟨_, _, _, self.pollBody_waitPending cx mark k future future' hpoll log, ?_⟩
      simp only [calls_append, hcalls]
      refine ⟨_, rfl, ?_⟩
      simpa using Stands.sleeping rounds mark k future' hrounds hround hpos
    | ((.ready (), future'), w') =>
      refine ⟨_, _, _, self.pollBody_waitReady cx mark k hround future future' hpoll log, ?_⟩
      have hready : calls ([.waitReady cx] : List (Event R A O)) = [] := rfl
      rw [calls_append, hcalls, hready, List.append_nil]
      exact Stands.ready rounds mark hrounds
  | yielding rounds mark k hrounds hround hpos =>
    refine ⟨_, _, _, self.pollBody_yielding cx mark k hround w log, ?_⟩
    rw [hcalls]
    exact Stands.ready rounds mark hrounds

/-- **However it is polled**, a future that was polled at least once has logged
rounds, and it never panics. -/
theorem polledTo_lands {cxs : ℕ → Context} {w₀ : σ} {j : ℕ} {t : Traced σ R A O}
    {run : AsyncRun Fut WaitFut} {result : PollEnd (Output R A O)}
    (h : self.traced.PolledTo cxs ⟨w₀, []⟩ j t run result) :
    (j = 0 ∧ t = ⟨w₀, []⟩ ∧ run = .intoRun ∧ result = .pending) ∨
      Lands self.setting (self.clock.now w₀).1 (calls t.log) (.done (result, run)) := by
  let baseline := (self.clock.now w₀).1
  -- Between polls nothing happens, so passes are all there is to check.
  have hrule := h.rule
    (I := fun _ t state => Stands self.setting baseline (calls t.log) state)
    (Q := fun _ t output => Finished self.setting baseline (calls t.log) output)
    (Stands.ready [] (.start baseline) (.pause _)) ?_
  · rcases hrule with hcreated | ⟨i, -, hkeeps⟩
    · exact .inl hcreated
    · right
      cases result with
      | pending | ready output | panicked => exact hkeeps
  · intro j cx state t hstands
    obtain ⟨turn, w', log', hbody, hlands⟩ :=
      self.pollBody_lands cx baseline state t.world t.log hstands
    rw [hbody]
    match turn with
    | .again state' => exact hlands
    | .done (.pending, run) => exact hlands
    | .done (.ready output, run) => exact hlands
    | .done (.panicked, run) => exact hlands

/-- What holds before the first poll, wherever a live run stands, and when it has
finished, holds after any sequence of polls. -/
theorem polledTo_cases {P : List (Event R A O) → PollEnd (Output R A O) → Prop}
    (hcreated : P [] .pending)
    (hlive : ∀ baseline log (state : LoopState Fut WaitFut),
      Stands self.setting baseline log state → P log .pending)
    (hready : ∀ baseline log output, Finished self.setting baseline log output →
      P log (.ready output))
    {cxs : ℕ → Context} {w₀ : σ} {j : ℕ} {t : Traced σ R A O} {run : AsyncRun Fut WaitFut}
    {result : PollEnd (Output R A O)} (h : self.traced.PolledTo cxs ⟨w₀, []⟩ j t run result) :
    P (calls t.log) result := by
  rcases self.polledTo_lands h with ⟨-, rfl, -, rfl⟩ | hlands
  · exact hcreated
  · cases result with
    | pending =>
      obtain ⟨elapsed, -, hstands⟩ := hlands
      exact hlive _ _ _ hstands
    | ready output => exact hready _ _ _ hlands
    | panicked => exact hlands.elim

end AsyncRetry

end Relentless
