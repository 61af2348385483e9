import Relentless.Engine.SyncEngine

/-!
# The Asynchronous Engine

`AsyncRun` is the async twin of the sync loop: a state machine of five phases
that a single poll may traverse many times.  `pollBody` is one pass through the
`loop` inside `AsyncRun::poll`; `pollFor n` executes at most `n` passes of it.
-/

namespace Relentless

open StateLoop

/-- `AsyncRetryOp`: an operation whose attempts are futures of type `Fut`. -/
structure AsyncRetryOp (m : Type → Type) (Fut O : Type) where
  callOp : RetryState → m Fut
  poll : Fut → Context → m (Poll O × Fut)

/-- `AsyncRetry`: the configuration `AsyncRun` carries unchanged.  `wakeByRef` is
the executor's `cx.waker().wake_by_ref()`. -/
structure AsyncRetry (m : Type → Type) (Fut WaitFut R A O : Type) where
  op : AsyncRetryOp m Fut O
  classifier : Decide m R A O
  stop : Stop m
  wait : Wait m
  clock : AsyncClock m WaitFut
  hooks : ExecutionHooks m R A O
  timeout : Option Duration
  wakeByRef : Context → m Unit

/-- `Phase`. -/
inductive Phase (Fut WaitFut : Type) where
  | readyToStart
  | polling (opFuture : Fut)
  | sleeping (sleepFuture : WaitFut)
  | yielding
  | done

/-- The mutable fields of `AsyncRun`, except the watermark. -/
structure RunFields (Fut WaitFut : Type) where
  phase : Phase Fut WaitFut
  attempt : UInt32
  previousDelay : Option Duration
  totalWait : Duration

/-- The mutable fields of `AsyncRun`. -/
structure AsyncRun (Fut WaitFut : Type) extends RunFields Fut WaitFut where
  elapsed : Option Elapsed

/-- `AsyncRetry::into_run`. -/
def AsyncRun.intoRun {Fut WaitFut : Type} : AsyncRun Fut WaitFut :=
  { phase := .readyToStart, attempt := 1, previousDelay := none, totalWait := .zero,
    elapsed := none }

/-- How one call of `AsyncRun::poll` ends. -/
inductive PollEnd (α : Type) where
  | pending
  | ready (value : α)
  | panicked
  deriving DecidableEq

namespace AsyncRetry

variable {m : Type → Type} [Monad m] [Build m] {Fut WaitFut R A O : Type}

/-- The loop state of one poll: the borrowed `Elapsed`, and the other fields. -/
abbrev LoopState (Fut WaitFut : Type) : Type := Elapsed × RunFields Fut WaitFut

/-- What a poll leaves behind: how it ended, and the fields after it. -/
abbrev PollResult (Fut WaitFut R A O : Type) : Type :=
  PollEnd (Output R A O) × AsyncRun Fut WaitFut

/-- Leave the poll, with the watermark back in its field. -/
def leave (result : PollEnd (Output R A O)) (elapsed : Elapsed) (run : RunFields Fut WaitFut) :
    Turn (LoopState Fut WaitFut) (PollResult Fut WaitFut R A O) :=
  .done (result, { run with elapsed := some elapsed })

/-- The async engine's half of a round: return, yield, or start to sleep. -/
def proceed (self : AsyncRetry m Fut WaitFut R A O) (cx : Context) (elapsed : Elapsed)
    (run : RunFields Fut WaitFut) :
    Step R A O → m (Turn (LoopState Fut WaitFut) (PollResult Fut WaitFut R A O))
  | .done result stats =>
    return leave (.ready (result, stats)) elapsed { run with phase := .done }
  | .continue_ delay running => do
    let run := { run with totalWait := running, previousDelay := some delay }
    if delay.isZero then
      -- No sleep future for a zero delay, but still a yield, woken first.
      self.wakeByRef cx
      return leave .pending elapsed { run with phase := .yielding }
    else
      let sleepFuture ← self.clock.waitAsync delay
      return .again (elapsed, { run with phase := .sleeping sleepFuture })

/-- One pass through the loop of `AsyncRun::poll`. -/
def pollBody (self : AsyncRetry m Fut WaitFut R A O) (cx : Context) :
    LoopState Fut WaitFut →
      m (Turn (LoopState Fut WaitFut) (PollResult Fut WaitFut R A O))
  | (elapsed, run) => match run.phase with
  | .readyToStart => do
    let state ← RetryState.forAttempt run.attempt
    let (beforeElapsed, elapsed) ← elapsed.read self.clock.toClock
    let beforeState := (state.withElapsed beforeElapsed).withPreviousDelay run.previousDelay
    self.hooks.beforeAttempt.call beforeState
    let opFuture ← self.op.callOp beforeState
    return .again (elapsed, { run with phase := .polling opFuture })
  | .polling opFuture => do
    match ← self.op.poll opFuture cx with
    | (.pending, opFuture) =>
      return leave .pending elapsed { run with phase := .polling opFuture }
    | (.ready outcome, _) => do
      let (postElapsed, elapsed) ← elapsed.read self.clock.toClock
      let progress : Progress :=
        { attempt := run.attempt, elapsed := postElapsed,
          previousDelay := run.previousDelay, totalWait := run.totalWait }
      let next ← step progress outcome self.classifier self.stop self.wait self.timeout self.hooks
      self.proceed cx elapsed run next
  | .sleeping sleepFuture => do
    match ← self.clock.pollWait sleepFuture cx with
    | (.pending, sleepFuture) =>
      return leave .pending elapsed { run with phase := .sleeping sleepFuture }
    | (.ready (), _) =>
      return .again (elapsed,
        { run with attempt := u32SaturatingAdd run.attempt 1, phase := .readyToStart })
  | .yielding =>
    return .again (elapsed,
      { run with attempt := u32SaturatingAdd run.attempt 1, phase := .readyToStart })
  | .done => return leave .panicked elapsed run

/-- `this.elapsed.get_or_insert_with(|| Elapsed::start(this.clock))`. -/
def startElapsed (self : AsyncRetry m Fut WaitFut R A O) (run : AsyncRun Fut WaitFut) :
    m Elapsed :=
  match run.elapsed with
  | some elapsed => pure elapsed
  | none => Elapsed.start self.clock.toClock

/-- `AsyncRun::poll`, for at most `n` passes of its loop. -/
def pollFor (self : AsyncRetry m Fut WaitFut R A O) (n : ℕ) (cx : Context)
    (run : AsyncRun Fut WaitFut) :
    m (Turn (LoopState Fut WaitFut) (PollResult Fut WaitFut R A O)) := do
  let elapsed ← self.startElapsed run
  StateLoop.runFor (self.pollBody cx) n (elapsed, run.toRunFields)

end AsyncRetry

/-! ## Polling -/

/-- `PolledTo self cxs w₀ j w run result`: polled `j` times from `w₀`, the `i`-th
time with the context `cxs i` and never again after it was ready, the future has
left the world `w` and the fields `run`, and the last poll ended in `result`
(`pending` when `j = 0`: the future exists but has not been polled). -/
inductive AsyncRetry.PolledTo {σ Fut WaitFut R A O : Type}
    (self : AsyncRetry (Eff σ) Fut WaitFut R A O) (cxs : ℕ → Context) (w₀ : σ) :
    ℕ → σ → AsyncRun Fut WaitFut → PollEnd (Output R A O) → Prop where
  | created : PolledTo self cxs w₀ 0 w₀ .intoRun .pending
  | poll (j n : ℕ) (w w' : σ) (run run' : AsyncRun Fut WaitFut) (result : PollEnd (Output R A O))
      (hprev : PolledTo self cxs w₀ j w run .pending)
      (hpoll : self.pollFor n (cxs j) run w = (.done (result, run'), w')) :
      PolledTo self cxs w₀ (j + 1) w' run' result

namespace AsyncRetry

variable {σ Fut WaitFut R A O : Type} {self : AsyncRetry (Eff σ) Fut WaitFut R A O}
  {cxs : ℕ → Context} {w₀ : σ}

section Passes

variable {cx : Context} {elapsed : Elapsed} {run : RunFields Fut WaitFut} {w w' : σ}

/-- `Polling`, when the operation is not ready. -/
theorem pollBody_polling_pending {future future' : Fut} (hphase : run.phase = .polling future)
    (h : self.op.poll future cx w = ((.pending, future'), w')) :
    self.pollBody cx (elapsed, run) w =
      (leave .pending elapsed { run with phase := .polling future' }, w') := by
  simp only [pollBody, hphase, Eff.bind_apply, h, Eff.pure_apply]

/-- `Polling`, when the operation is ready: a reading, the decision, and what follows it. -/
theorem pollBody_polling_ready {future future' : Fut} {outcome : O}
    (hphase : run.phase = .polling future)
    (h : self.op.poll future cx w = ((.ready outcome, future'), w')) :
    let reading := elapsed.read self.clock.toClock w'
    let progress : Progress :=
      { attempt := run.attempt, elapsed := reading.1.1, previousDelay := run.previousDelay,
        totalWait := run.totalWait }
    let decided := step progress outcome self.classifier self.stop self.wait self.timeout
      self.hooks reading.2
    self.pollBody cx (elapsed, run) w =
      self.proceed cx reading.1.2 run decided.1 decided.2 := by
  simp only [pollBody, hphase, Eff.bind_apply, h]

/-- `Sleeping`, when the wait is not over. -/
theorem pollBody_sleeping_pending {future future' : WaitFut} (hphase : run.phase = .sleeping future)
    (h : self.clock.pollWait future cx w = ((.pending, future'), w')) :
    self.pollBody cx (elapsed, run) w =
      (leave .pending elapsed { run with phase := .sleeping future' }, w') := by
  simp only [pollBody, hphase, Eff.bind_apply, h, Eff.pure_apply]

/-- `Sleeping`, when the wait is over. -/
theorem pollBody_sleeping_ready {future future' : WaitFut} (hphase : run.phase = .sleeping future)
    (h : self.clock.pollWait future cx w = ((.ready (), future'), w')) :
    self.pollBody cx (elapsed, run) w =
      (.again (elapsed, { run with
        attempt := u32SaturatingAdd run.attempt 1, phase := .readyToStart }), w') := by
  simp only [pollBody, hphase, Eff.bind_apply, h, Eff.pure_apply]

end Passes

/-- What passes of the poll loop of poll `j` must keep: `I` while the run goes on,
counting finished polls, and `Q` when it is ready.  It must not panic. -/
def PollKeeps (I : ℕ → σ → LoopState Fut WaitFut → Prop) (Q : ℕ → σ → Output R A O → Prop)
    (j : ℕ) (w : σ) : Turn (LoopState Fut WaitFut) (PollResult Fut WaitFut R A O) → Prop
  | .again state => I j w state
  | .done (.pending, run) => ∃ elapsed, run.elapsed = some elapsed ∧
      I (j + 1) w (elapsed, run.toRunFields)
  | .done (.ready output, _) => Q (j + 1) w output
  | .done (.panicked, _) => False

/-- **Polling rule**: what each pass keeps holds after any sequence of polls. -/
theorem PolledTo.rule {I : ℕ → σ → LoopState Fut WaitFut → Prop}
    {Q : ℕ → σ → Output R A O → Prop}
    (hstart : I 0 (self.clock.now w₀).2
      (⟨(self.clock.now w₀).1, .zero⟩, (AsyncRun.intoRun : AsyncRun Fut WaitFut).toRunFields))
    (hpass : ∀ j cx state w, I j w state →
      PollKeeps I Q j (self.pollBody cx state w).2 (self.pollBody cx state w).1)
    {j : ℕ} {w : σ} {run : AsyncRun Fut WaitFut} {result : PollEnd (Output R A O)}
    (h : self.PolledTo cxs w₀ j w run result) :
    (j = 0 ∧ w = w₀ ∧ run = .intoRun ∧ result = .pending) ∨
      ∃ i, j = i + 1 ∧ PollKeeps I Q i w (.done (result, run)) := by
  have hpasses (j n : ℕ) (cx : Context) (state : LoopState Fut WaitFut) (w : σ)
      (hstate : I j w state) : PollKeeps I Q j (StateLoop.runFor (self.pollBody cx) n state w).2
        (StateLoop.runFor (self.pollBody cx) n state w).1 :=
    runFor_keeps (P := fun turn w => PollKeeps I Q j w turn)
      (fun state w hstate => hpass j cx state w hstate) n hstate
  induction h with
  | created => exact .inl ⟨rfl, rfl, rfl, rfl⟩
  | poll j n w w' run run' result hprev hpoll ih =>
    refine .inr ⟨j, rfl, ?_⟩
    -- The watermark exists from the first poll on, and the first poll creates it.
    obtain ⟨elapsed, w₁, hbegin, hstate⟩ : ∃ elapsed w₁,
        self.startElapsed run w = (elapsed, w₁) ∧ I j w₁ (elapsed, run.toRunFields) := by
      rcases ih with ⟨rfl, rfl, rfl, -⟩ | ⟨i, rfl, elapsed, helapsed, hstate⟩
      · exact ⟨_, _, rfl, hstart⟩
      · refine ⟨elapsed, w, ?_, hstate⟩
        simp [startElapsed, helapsed]
    have hkeeps := hpasses j n (cxs j) _ w₁ hstate
    rw [pollFor, Eff.bind_apply, hbegin] at hpoll
    rw [hpoll] at hkeeps
    exact hkeeps

/-- In the middle of poll `j`, after some passes of its loop. -/
def Midway (self : AsyncRetry (Eff σ) Fut WaitFut R A O) (cxs : ℕ → Context) (w₀ : σ) (j : ℕ)
    (w : σ) (state : LoopState Fut WaitFut) : Prop :=
  ∃ n w₁ run elapsed w₂, self.PolledTo cxs w₀ j w₁ run .pending ∧
    self.startElapsed run w₁ = (elapsed, w₂) ∧
    StateLoop.runFor (self.pollBody (cxs j)) n (elapsed, run.toRunFields) w₂ = (.again state, w)

theorem Midway.again {j : ℕ} {w w' : σ} {state state' : LoopState Fut WaitFut}
    (h : self.Midway cxs w₀ j w state)
    (hpass : self.pollBody (cxs j) state w = (.again state', w')) :
    self.Midway cxs w₀ j w' state' := by
  obtain ⟨n, w₁, run, elapsed, w₂, hpolled, hbegin, hrun⟩ := h
  exact ⟨n + 1, w₁, run, elapsed, w₂, hpolled, hbegin, (runFor_snoc hrun).trans hpass⟩

/-- A pass that returns from the poll ends it. -/
theorem Midway.done {j : ℕ} {w w' : σ} {state : LoopState Fut WaitFut}
    {result : PollEnd (Output R A O)} {run' : AsyncRun Fut WaitFut}
    (h : self.Midway cxs w₀ j w state)
    (hpass : self.pollBody (cxs j) state w = (.done (result, run'), w')) :
    self.PolledTo cxs w₀ (j + 1) w' run' result := by
  obtain ⟨n, w₁, run, elapsed, w₂, hpolled, hbegin, hrun⟩ := h
  refine .poll j (n + 1) w₁ w' run run' result hpolled ?_
  rw [pollFor, Eff.bind_apply, hbegin]
  exact (runFor_snoc hrun).trans hpass

/-- After a pending poll the next one starts where it stopped. -/
theorem Midway.pending {j : ℕ} {w w' : σ} {state : LoopState Fut WaitFut} {elapsed : Elapsed}
    {fields : RunFields Fut WaitFut} (h : self.Midway cxs w₀ j w state)
    (hpass : self.pollBody (cxs j) state w = (leave .pending elapsed fields, w')) :
    self.Midway cxs w₀ (j + 1) w' (elapsed, fields) :=
  ⟨0, w', _, elapsed, w', h.done hpass, rfl, rfl⟩

theorem Midway.first : self.Midway cxs w₀ 0 (self.clock.now w₀).2
    (⟨(self.clock.now w₀).1, .zero⟩, (AsyncRun.intoRun : AsyncRun Fut WaitFut).toRunFields) :=
  ⟨0, w₀, .intoRun, _, _, .created, rfl, rfl⟩

/-- A poll that has returned ended with a pass of its own. -/
theorem PolledTo.last_pass {j : ℕ} {w' : σ} {run' : AsyncRun Fut WaitFut}
    {result : PollEnd (Output R A O)} (h : self.PolledTo cxs w₀ (j + 1) w' run' result) :
    ∃ w state, self.Midway cxs w₀ j w state ∧
      self.pollBody (cxs j) state w = (.done (result, run'), w') := by
  cases h with
  | poll _ n w₁ _ run _ _ hprev hpoll =>
    rw [pollFor, Eff.bind_apply] at hpoll
    obtain ⟨k, -, state, w, hrun, hbody⟩ := runFor_done_split hpoll
    exact ⟨w, state, ⟨k, w₁, run, _, _, hprev, rfl, hrun⟩, hbody⟩

/-- **Invariant rule**: what every pass keeps holds in the middle of every poll. -/
theorem Midway.rule {I : σ → LoopState Fut WaitFut → Prop}
    (hstart : I (self.clock.now w₀).2
      (⟨(self.clock.now w₀).1, .zero⟩, (AsyncRun.intoRun : AsyncRun Fut WaitFut).toRunFields))
    (hagain : ∀ cx state w state' w', I w state →
      self.pollBody cx state w = (.again state', w') → I w' state')
    (hpending : ∀ cx state w run w', I w state →
      self.pollBody cx state w = (.done (.pending, run), w') →
        ∃ elapsed, run.elapsed = some elapsed ∧ I w' (elapsed, run.toRunFields))
    {j : ℕ} {w : σ} {state : LoopState Fut WaitFut} (h : self.Midway cxs w₀ j w state) :
    I w state := by
  induction j generalizing w state with
  | zero =>
    obtain ⟨n, w₁, run, elapsed, w₂, hpolled, hbegin, hrun⟩ := h
    cases hpolled with
    | created =>
      obtain ⟨rfl, rfl⟩ := Prod.mk.inj hbegin
      exact runFor_invariant (I := fun _ state w => I w state) hstart
        (fun _ state w state' w' hI hbody => hagain _ state w state' w' hI hbody) hrun
  | succ j ih =>
    obtain ⟨n, w₁, run, elapsed, w₂, hpolled, hbegin, hrun⟩ := h
    obtain ⟨w₀', state₀, hmidway, hbody⟩ := hpolled.last_pass
    obtain ⟨elapsed', helapsed, hI⟩ := hpending _ _ _ _ _ (ih hmidway) hbody
    -- The watermark is there, so the poll goes on from where the last one stopped.
    rw [startElapsed, helapsed] at hbegin
    obtain ⟨rfl, rfl⟩ := Prod.mk.inj hbegin
    exact runFor_invariant (I := fun _ state w => I w state) hI
      (fun _ state w state' w' hI hbody => hagain _ state w state' w' hI hbody) hrun

end AsyncRetry

/-- The first `j` polls, each for at most `n` passes; `none` when one of them does
not return, or when the future was ready before. -/
def AsyncRetry.polls {σ Fut WaitFut R A O : Type} (self : AsyncRetry (Eff σ) Fut WaitFut R A O)
    (cxs : ℕ → Context) (n : ℕ) (w₀ : σ) :
    ℕ → Option (PollEnd (Output R A O) × AsyncRun Fut WaitFut × σ)
  | 0 => some (.pending, .intoRun, w₀)
  | j + 1 =>
    match self.polls cxs n w₀ j with
    | some (.pending, run, w) =>
      match self.pollFor n (cxs j) run w with
      | (.done (result, run'), w') => some (result, run', w')
      | (.again _, _) => none
    | _ => none

theorem AsyncRetry.polledTo_of_polls {σ Fut WaitFut R A O : Type}
    {self : AsyncRetry (Eff σ) Fut WaitFut R A O} {cxs : ℕ → Context} {n : ℕ} {w₀ w : σ} {j : ℕ}
    {result : PollEnd (Output R A O)} {run : AsyncRun Fut WaitFut}
    (h : self.polls cxs n w₀ j = some (result, run, w)) : self.PolledTo cxs w₀ j w run result := by
  induction j generalizing result run w with
  | zero =>
    cases h
    exact .created
  | succ j ih =>
    rw [polls] at h
    split at h
    next run₁ w₁ hprev =>
      split at h
      next result' run' w' hpoll =>
        cases h
        exact .poll j n w₁ _ run₁ _ _ (ih hprev) hpoll
      next => cases h
    next => cases h

theorem AsyncRetry.exists_polledTo {σ Fut WaitFut R A O : Type}
    {self : AsyncRetry (Eff σ) Fut WaitFut R A O} {cxs : ℕ → Context} {n : ℕ} {w₀ : σ} {j : ℕ}
    {result : PollEnd (Output R A O)}
    (h : (self.polls cxs n w₀ j).map Prod.fst = some result) :
    ∃ w run, self.PolledTo cxs w₀ j w run result := by
  obtain ⟨⟨result', run, w⟩, hpolls, hresult⟩ := Option.map_eq_some_iff.mp h
  obtain rfl : result' = result := hresult
  exact ⟨w, run, polledTo_of_polls hpolls⟩

end Relentless
