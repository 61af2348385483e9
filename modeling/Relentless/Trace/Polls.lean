import Relentless.Library.Labelled
import Relentless.Trace.AsyncConformance

/-!
# What One Poll Does

The events of a single poll of `AsyncRun`, as the paths of a small transition relation
that knows the poll's waker and which gaps have a zero delay.

- `Gate`, `Gate.Step` — how far the poll is, and the events that move it on
- `PhaseGate` — the gates a poll can be at in a phase of the run
- `AsyncRetry.pollBody_gates`, `AsyncRetry.pollFor_gates` — every poll follows a path
-/

namespace Relentless

open StateLoop Labelled

variable {σ Fut WaitFut R A O : Type}

/-! ## §1 Gates -/

/-- How far a poll is: free to call the operation, with an operation called, with a
delay to wait for, waiting, at a zero delay, woken, or suspended by an inner future. -/
inductive Gate where
  | free
  | started
  | priced (delay : Duration)
  | waiting
  | zero
  | yielded
  | suspended
  deriving DecidableEq

/-- Events that leave a poll where it is: readings, hooks, outcomes and verdicts. -/
def Event.isQuiet : Event R A O → Bool
  | .now _ | .beforeAttempt .. | .outcome _ | .afterAttempt .. | .decide .. => true
  | .shouldStop .. | .onExit .. => true
  | _ => false

namespace Gate

/-- The operation may be in flight: called in this poll, or in an earlier one. -/
def MayRun : Gate → Prop
  | .free | .started => True
  | _ => False

/-- A wait may be in flight: begun in this poll, or in an earlier one. -/
def MayWait : Gate → Prop
  | .free | .waiting => True
  | _ => False

/-- The events of a poll with the context `cx`. -/
inductive Step (timeout : Option Duration) (cx : Context) : Gate → Event R A O → Gate → Prop where
  | quiet (gate : Gate) (hgate : gate.MayRun) (ev : Event R A O) (hquiet : ev.isQuiet = true) :
      Step timeout cx gate ev gate
  | op (state : RetryState) : Step timeout cx .free (.op state) .started
  | opPending (gate : Gate) (hgate : gate.MayRun) : Step timeout cx gate (.opPending cx) .suspended
  | zero (gate : Gate) (hgate : gate.MayRun) (state : RetryState) (rawDelay : Duration)
      (hzero : clampDelay timeout state.elapsed rawDelay = .zero) :
      Step timeout cx gate (.nextWait state rawDelay) .zero
  | wake : Step timeout cx .zero (.wake cx) .yielded
  | price (gate : Gate) (hgate : gate.MayRun) (state : RetryState) (rawDelay : Duration)
      (hzero : clampDelay timeout state.elapsed rawDelay ≠ .zero) :
      Step timeout cx gate (.nextWait state rawDelay)
        (.priced (clampDelay timeout state.elapsed rawDelay))
  | wait (delay : Duration) : Step timeout cx (.priced delay) (.wait delay) .waiting
  | waitPending (gate : Gate) (hgate : gate.MayWait) :
      Step timeout cx gate (.waitPending cx) .suspended
  | waitReady (gate : Gate) (hgate : gate.MayWait) : Step timeout cx gate (.waitReady cx) .free

end Gate

/-- The events `log` of a poll lead from one gate to another. -/
abbrev Gates (timeout : Option Duration) (cx : Context) :
    Gate → List (Event R A O) → Gate → Prop :=
  Path (Gate.Step timeout cx)

/-- The gates a poll can be at in a phase. -/
def PhaseGate : Phase Fut WaitFut → Gate → Prop
  | .readyToStart, gate => gate = .free
  | .polling _, gate => gate.MayRun
  | .sleeping _, gate => gate.MayWait
  | .yielding, gate => gate = .free
  | .done, gate => gate = .free

/-- The gates a poll can be at after some passes, and when it returns. -/
def TurnGate : Turn (AsyncRetry.LoopState Fut WaitFut)
    (AsyncRetry.PollResult Fut WaitFut R A O) → Gate → Prop
  | .again state, gate => PhaseGate state.2.phase gate
  | .done (.pending, _), gate => gate = .yielded ∨ gate = .suspended
  | .done (.ready _, _), gate => gate.MayRun
  | .done (.panicked, _), gate => gate = .free

/-- Whatever phase a poll finds, it starts at the free gate. -/
theorem PhaseGate.free (phase : Phase Fut WaitFut) : PhaseGate phase .free := by
  cases phase with
  | readyToStart => rfl
  | polling future => trivial
  | sleeping future => trivial
  | yielding => rfl
  | done => rfl

/-! ## §2 Quiet stretches -/

section Quiet

variable {timeout : Option Duration} {cx : Context} {gate : Gate}

theorem Gates.quiet (hgate : gate.MayRun) {log : List (Event R A O)}
    (hquiet : ∀ ev ∈ log, ev.isQuiet = true) : Gates timeout cx gate log gate :=
  .stay fun ev hev => .quiet gate hgate ev (hquiet ev hev)

/-- A terminal fate only informs the hooks. -/
theorem Fate.isQuiet_calls {S : Setting R A O} {state : RetryState} {outcome : O}
    {fate : Fate R A O} (hdone : ∀ last rawDelay, fate ≠ .retried last rawDelay) :
    ∀ ev ∈ fate.calls S state outcome, ev.isQuiet = true := by
  intro ev hev
  rcases mem_calls hev with ⟨verdict, rfl⟩ | ⟨answer, rfl⟩ | ⟨last, rawDelay, hfate, -⟩ |
    ⟨hook, exit, -, rfl⟩
  · rfl
  · rfl
  · exact absurd hfate (hdone last rawDelay)
  · rfl

end Quiet

/-! ## §3 Passes and polls -/

/-- The events added to `log` lead from the gate to one that fits the turn taken. -/
def MovesOn (timeout : Option Duration) (cx : Context) (gate : Gate) (log : List (Event R A O))
    (result : Turn (AsyncRetry.LoopState Fut WaitFut)
      (AsyncRetry.PollResult Fut WaitFut R A O) × Traced σ R A O) : Prop :=
  ∃ seg gate', result.2.log = log ++ seg ∧ Gates timeout cx gate seg gate' ∧
    TurnGate result.1 gate'

namespace AsyncRetry

variable (self : AsyncRetry (Eff σ) Fut WaitFut R A O) (cx : Context)

/-- What the engine does with a decision to go on after a delay. -/
theorem proceed_retried (elapsed : Elapsed) (run : RunFields Fut WaitFut) (state : RetryState)
    (outcome last : O) (rawDelay totalWait : Duration) (w : σ) (log : List (Event R A O))
    {gate : Gate} (hgate : gate.MayRun) :
    MovesOn self.timeout cx gate log
      (self.traced.proceed cx elapsed run
        ((Fate.retried last rawDelay : Fate R A O).step self.setting state totalWait)
        ⟨w, log ++
          (Fate.retried last rawDelay : Fate R A O).calls self.setting state outcome⟩) := by
  have hquiet : Gates self.timeout cx gate
      ([.decide outcome (.retry last), .shouldStop state false] : List (Event R A O)) gate := by
    apply Gates.quiet hgate
    simp [Event.isQuiet]
  by_cases hzero : clampDelay self.timeout state.elapsed rawDelay = .zero
  · -- No sleep for a zero delay: wake, and end the poll.
    refine ⟨[.decide outcome (.retry last), .shouldStop state false] ++
      [.nextWait state rawDelay, .wake cx], .yielded, ?_, hquiet.append ?_, ?_⟩
    · simp [Fate.step, Fate.calls, proceed, traced, recorded, setting, hzero]
    · exact .cons (.zero gate hgate state rawDelay hzero) (.cons .wake (.nil _))
    · simp [Fate.step, proceed, traced, recorded, setting, hzero, leave, TurnGate]
  · -- Otherwise the next pass polls the sleep.
    have hisZero := (Duration.isZero_eq_false_iff _).mpr hzero
    refine ⟨[.decide outcome (.retry last), .shouldStop state false] ++
      [.nextWait state rawDelay, .wait (clampDelay self.timeout state.elapsed rawDelay)],
      .waiting, ?_, hquiet.append ?_, ?_⟩
    · simp [Fate.step, Fate.calls, proceed, traced, recorded, AsyncClock.recorded, setting, hisZero]
    · exact .cons (.price gate hgate state rawDelay hzero) (.cons (.wait _) (.nil _))
    · simp [Fate.step, proceed, traced, recorded, AsyncClock.recorded, setting, hisZero, TurnGate,
        PhaseGate, Gate.MayWait]

/-- What the engine does with a decision, and the gate it leaves. -/
theorem proceed_gates (elapsed : Elapsed) (run : RunFields Fut WaitFut) (state : RetryState)
    (outcome : O) (totalWait : Duration) (fate : Fate R A O) (w : σ)
    (log : List (Event R A O)) {gate : Gate} (hgate : gate.MayRun) :
    MovesOn self.timeout cx gate log
      (self.traced.proceed cx elapsed run (fate.step self.setting state totalWait)
        ⟨w, log ++ fate.calls self.setting state outcome⟩) := by
  -- A terminal decision ends the poll where it is; only a retry moves the gate.
  cases fate with
  | returned value => exact ⟨_, gate, rfl, .quiet hgate (Fate.isQuiet_calls (by simp)), hgate⟩
  | aborted last => exact ⟨_, gate, rfl, .quiet hgate (Fate.isQuiet_calls (by simp)), hgate⟩
  | exhausted last answer =>
    exact ⟨_, gate, rfl, .quiet hgate (Fate.isQuiet_calls (by simp)), hgate⟩
  | retried last rawDelay =>
    exact self.proceed_retried cx elapsed run state outcome last rawDelay totalWait w log hgate

/-- A pass in which the operation answers: the decision step, read as a fate, says what
the engine does. -/
theorem opReady_gates (elapsed : Elapsed) (run : RunFields Fut WaitFut) (future future' : Fut)
    {w w₁ w₂ : σ} {outcome : O} {reading : Duration} (hphase : run.phase = .polling future)
    (hpoll : self.op.poll future cx w = ((.ready outcome, future'), w₁))
    (hafter : self.clock.now w₁ = (reading, w₂)) (log : List (Event R A O)) {gate : Gate}
    (hgate : gate.MayRun) :
    MovesOn self.timeout cx gate log (self.traced.pollBody cx (elapsed, run) ⟨w, log⟩) := by
  let elapsed' := elapsed.observe reading
  let state : RetryState :=
    { attempt := run.attempt, elapsed := elapsed'.highest, previousDelay := run.previousDelay }
  obtain ⟨fate, w₃, hstep⟩ := step_spec self.setting self.classifier self.stop self.wait
    self.hooks rfl rfl rfl state run.totalWait outcome w₂
  -- The outcome, the second reading and the hooks come before the verdict.
  let opening : List (Event R A O) := [.outcome outcome, .now reading] ++
    hookEvents self.hooks.afterAttempt.count .afterAttempt
      ⟨run.attempt, elapsed'.highest, outcome⟩
  have hopening : Gates self.timeout cx gate opening gate := by
    apply Gates.quiet hgate
    intro ev hev
    rcases List.mem_append.mp hev with hev | hev
    · simp only [List.mem_cons, List.not_mem_nil, or_false] at hev
      rcases hev with rfl | rfl <;> rfl
    · obtain ⟨hook, -, rfl⟩ := mem_hookEvents.mp hev
      rfl
  have hbody : self.traced.pollBody cx (elapsed, run) ⟨w, log⟩ =
      self.traced.proceed cx elapsed' run (fate.step self.setting state run.totalWait)
        ⟨w₃, log ++ opening ++ fate.calls self.setting state outcome⟩ :=
    self.pollBody_answered cx elapsed run fate hphase hpoll hafter hstep log
  obtain ⟨seg, gate', hlog, hgates, hturn⟩ :=
    self.proceed_gates cx elapsed' run state outcome run.totalWait fate w₃ (log ++ opening) hgate
  rw [hbody]
  exact ⟨opening ++ seg, gate', by rw [hlog, List.append_assoc], hopening.append hgates, hturn⟩

/-- **One pass** of the poll loop moves on along the gates. -/
theorem pollBody_gates (state : LoopState Fut WaitFut) (t : Traced σ R A O) {gate : Gate}
    (hgate : PhaseGate state.2.phase gate) :
    MovesOn self.timeout cx gate t.log (self.traced.pollBody cx state t) := by
  obtain ⟨elapsed, phase, attempt, previousDelay, totalWait⟩ := state
  obtain ⟨w, log⟩ := t
  cases phase with
  | readyToStart =>
    -- A reading and the hooks, then the one call of the operation.
    obtain rfl : gate = .free := hgate
    let reading := (self.clock.now w).1
    let state : RetryState :=
      { attempt, elapsed := (elapsed.observe reading).highest, previousDelay }
    have hquiet : Gates self.timeout cx .free (.now reading ::
        hookEvents self.hooks.beforeAttempt.count .beforeAttempt state : List (Event R A O))
        .free := by
      apply Gates.quiet (by exact trivial)
      intro ev hev
      rcases List.mem_cons.mp hev with rfl | hev
      · rfl
      · obtain ⟨hook, -, rfl⟩ := mem_hookEvents.mp hev
        rfl
    refine ⟨_, .started, ?_, hquiet.append (.cons (.op state) (.nil _)), ?_⟩
    · simp [pollBody, traced, recorded, AsyncClock.recorded, Clock.recorded,
        ExecutionHooks.recorded, AsyncRetryOp.recorded, RetryState.withElapsed,
        RetryState.withPreviousDelay, reading, state]
    · simp [pollBody, TurnGate, PhaseGate, Gate.MayRun]
  | polling future =>
    have hgate : gate.MayRun := hgate
    obtain ⟨⟨⟨answer, future'⟩, w₁⟩, hpoll⟩ : ∃ polled, self.op.poll future cx w = polled :=
      ⟨_, rfl⟩
    cases answer with
    | pending =>
      refine ⟨[.opPending cx], .suspended, ?_, .cons (.opPending gate hgate) (.nil _), ?_⟩
      · simp [pollBody, traced, recorded, AsyncRetryOp.recorded, hpoll, opPolled]
      · simp [pollBody, traced, recorded, AsyncRetryOp.recorded, hpoll, leave, TurnGate]
    | ready outcome =>
      obtain ⟨⟨reading, w₂⟩, hafter⟩ : ∃ read, self.clock.now w₁ = read := ⟨_, rfl⟩
      exact self.opReady_gates cx elapsed _ future future' rfl hpoll hafter log hgate
  | sleeping future =>
    -- The sleep suspends the poll, or frees it for the next attempt.
    have hgate : gate.MayWait := hgate
    obtain ⟨⟨⟨answer, future'⟩, w₁⟩, hpoll⟩ : ∃ polled, self.clock.pollWait future cx w = polled :=
      ⟨_, rfl⟩
    cases answer with
    | pending =>
      refine ⟨[.waitPending cx], .suspended, ?_, .cons (.waitPending gate hgate) (.nil _), ?_⟩
      · simp [pollBody, traced, recorded, AsyncClock.recorded, hpoll, waitPolled]
      · simp [pollBody, traced, recorded, AsyncClock.recorded, hpoll, leave, TurnGate]
    | ready value =>
      refine ⟨[.waitReady cx], .free, ?_, .cons (.waitReady gate hgate) (.nil _), ?_⟩
      · simp [pollBody, traced, recorded, AsyncClock.recorded, hpoll, waitPolled]
      · simp [pollBody, traced, recorded, AsyncClock.recorded, hpoll, TurnGate, PhaseGate]
  -- The last two phases call nothing.
  | yielding => exact ⟨[], gate, (List.append_nil log).symm, .nil gate, hgate⟩
  | done => exact ⟨[], gate, (List.append_nil log).symm, .nil gate, hgate⟩

/-- Any number of passes moves on along the gates. -/
theorem passes_gates (n : ℕ) (state : LoopState Fut WaitFut) (t : Traced σ R A O) {gate : Gate}
    (hgate : PhaseGate state.2.phase gate) :
    MovesOn self.timeout cx gate t.log
      (StateLoop.runFor (self.traced.pollBody cx) n state t) := by
  refine runFor_keeps (P := fun turn t' => MovesOn self.timeout cx gate t.log (turn, t')) ?_ n
    ⟨[], gate, (List.append_nil t.log).symm, .nil gate, hgate⟩
  rintro state₁ t₁ ⟨seg, gate₁, hlog, hgates, hgate₁⟩
  -- The pass goes on from the gate that the passes before it have led to.
  obtain ⟨seg', gate', hlog', hgates', hturn⟩ := self.pollBody_gates cx state₁ t₁ hgate₁
  refine ⟨seg ++ seg', gate', ?_, hgates.append hgates', hturn⟩
  rw [hlog', hlog, List.append_assoc]

/-- **Every poll**, whatever it finds and however far it gets, follows the gates. -/
theorem pollFor_gates (n : ℕ) (run : AsyncRun Fut WaitFut) (t : Traced σ R A O) :
    MovesOn self.timeout cx .free t.log (self.traced.pollFor n cx run t) := by
  have hfree := PhaseGate.free run.phase
  match hstart : run.elapsed with
  | some elapsed =>
    have hpoll : self.traced.pollFor n cx run t =
        StateLoop.runFor (self.traced.pollBody cx) n (elapsed, run.toRunFields) t := by
      simp [pollFor, startElapsed, hstart]
    rw [hpoll]
    exact self.passes_gates cx n _ t hfree
  | none =>
    -- The first poll begins by taking the baseline.
    let baseline := (self.clock.now t.world).1
    have hpoll : self.traced.pollFor n cx run t =
        StateLoop.runFor (self.traced.pollBody cx) n (⟨baseline, .zero⟩, run.toRunFields)
          ⟨(self.clock.now t.world).2, t.log ++ [.now baseline]⟩ := by
      unfold pollFor startElapsed
      rw [hstart]
      rfl
    have hnow : Gates self.timeout cx .free [(.now baseline : Event R A O)] .free := by
      apply Gates.quiet (by exact trivial)
      simp [Event.isQuiet]
    obtain ⟨seg, gate, hlog, hgates, hturn⟩ := self.passes_gates cx n
      (⟨baseline, .zero⟩, run.toRunFields)
      ⟨(self.clock.now t.world).2, t.log ++ [.now baseline]⟩ hfree
    rw [hpoll]
    refine ⟨[.now baseline] ++ seg, gate, ?_, hnow.append hgates, hturn⟩
    rw [hlog, List.append_assoc]

end AsyncRetry

end Relentless
