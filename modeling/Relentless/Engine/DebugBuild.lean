import Relentless.Engine.AsyncEngine

/-!
# The Engines in a Debug Build

The same configuration run with `debug_assert!` enabled.  The callers' parts
cannot fail, so the only failures are those of the crate's own assertions; of
these only the clock assertion in `Elapsed::read` can be reached.

- `Retry.debug`, `AsyncRetry.debug` — a configuration in a debug build
- `Retry.loopBody_debug` — a debug round is the release round, cut off at the
  first reading below the watermark
- `AsyncRetry.pollBody_debug` — the same for one pass of the poll loop
-/

namespace Relentless

open StateLoop

variable {σ α R A O : Type}

/-! ## §1 Parts and configurations -/

def HookSlot.debug : HookSlot (Eff σ) α → HookSlot (Fallible Panic σ) α
  | .unit => .unit
  | .chain first second => .chain first.debug fun view => .ofEff (second view)

def ExecutionHooks.debug (hooks : ExecutionHooks (Eff σ) R A O) :
    ExecutionHooks (Fallible Panic σ) R A O where
  beforeAttempt := hooks.beforeAttempt.debug
  afterAttempt := hooks.afterAttempt.debug
  onExit := hooks.onExit.debug

def Decide.debug (classifier : Decide (Eff σ) R A O) : Decide (Fallible Panic σ) R A O where
  decide outcome := .ofEff (classifier.decide outcome)

def Stop.debug (stop : Stop (Eff σ)) : Stop (Fallible Panic σ) where
  shouldStop state := .ofEff (stop.shouldStop state)

def Wait.debug (wait : Wait (Eff σ)) : Wait (Fallible Panic σ) where
  nextWait state := .ofEff (wait.nextWait state)

def Clock.debug (clock : Clock (Eff σ)) : Clock (Fallible Panic σ) where
  now := .ofEff clock.now

/-- A sync configuration in a debug build. -/
def Retry.debug (self : Retry (Eff σ) R A O) : Retry (Fallible Panic σ) R A O where
  op state := .ofEff (self.op state)
  classifier := self.classifier.debug
  stop := self.stop.debug
  wait := self.wait.debug
  clock := { toClock := self.clock.toClock.debug, wait := fun d => .ofEff (self.clock.wait d) }
  hooks := self.hooks.debug
  timeout := self.timeout

/-- An async configuration in a debug build. -/
def AsyncRetry.debug {Fut WaitFut : Type} (self : AsyncRetry (Eff σ) Fut WaitFut R A O) :
    AsyncRetry (Fallible Panic σ) Fut WaitFut R A O where
  op := { callOp := fun state => .ofEff (self.op.callOp state)
          poll := fun future cx => .ofEff (self.op.poll future cx) }
  classifier := self.classifier.debug
  stop := self.stop.debug
  wait := self.wait.debug
  clock := { toClock := self.clock.toClock.debug
             waitAsync := fun d => .ofEff (self.clock.waitAsync d)
             pollWait := fun future cx => .ofEff (self.clock.pollWait future cx) }
  hooks := self.hooks.debug
  timeout := self.timeout
  wakeByRef cx := .ofEff (self.wakeByRef cx)

/-! ## §2 The shared parts -/

@[simp] theorem HookSlot.debug_call (slot : HookSlot (Eff σ) α) (view : α) :
    slot.debug.call view = Fallible.ofEff (slot.call view) := by
  induction slot with
  | unit => rfl
  | chain first second ih =>
    simp only [HookSlot.debug, HookSlot.call, ih]
    rfl

/-- The clock assertion: the reading is not below the watermark. -/
def Elapsed.Accepts (e : Elapsed) (reading : Duration) : Prop :=
  e.highest ≤ reading.saturatingSub e.origin

instance (e : Elapsed) (reading : Duration) : Decidable (e.Accepts reading) :=
  inferInstanceAs (Decidable (e.highest ≤ reading.saturatingSub e.origin))

/-- A reading answers as in a release build, if it is accepted. -/
theorem Elapsed.read_debug (e : Elapsed) (clock : Clock (Eff σ)) (w : σ) :
    GuardedBy (e.Accepts (clock.now w).1) .clockWentBackwards
      ((e.read clock.debug : Fallible Panic σ _) w) (e.read clock w) := by
  constructor
  · intro haccepts
    have hcheck : decide (e.highest ≤ (clock.now w).1.saturatingSub e.origin) = true :=
      decide_eq_true haccepts
    simp [Elapsed.read, Clock.debug, hcheck]
  · intro hrejects
    have hcheck : decide (e.highest ≤ (clock.now w).1.saturatingSub e.origin) = false :=
      decide_eq_false hrejects
    exact ⟨(clock.now w).2, by simp [Elapsed.read, Clock.debug, hcheck]⟩

/-- The decision step makes no failing assertion from attempt one on. -/
theorem step_debug (progress : Progress) (hattempt : 1 ≤ progress.attempt) (outcome : O)
    (classifier : Decide (Eff σ) R A O) (stop : Stop (Eff σ)) (wait : Wait (Eff σ))
    (timeout : Option Duration) (hooks : ExecutionHooks (Eff σ) R A O) (w : σ) :
    step progress outcome classifier.debug stop.debug wait.debug timeout hooks.debug w =
      (.ok (step progress outcome classifier stop wait timeout hooks w).1,
        (step progress outcome classifier stop wait timeout hooks w).2) := by
  obtain ⟨attempt, elapsed, previousDelay, totalWait⟩ := progress
  simp only [step, AttemptState.new_debug hattempt, RetryState.forAttempt_debug hattempt]
  simp only [ExecutionHooks.debug, Decide.debug, HookSlot.debug_call, Fallible.pure_bind_apply,
    Fallible.ofEff_bind_apply, Eff.bind_apply, AttemptState.new_release,
    RetryState.forAttempt_release]
  generalize (hooks.afterAttempt.call ⟨attempt, elapsed, outcome⟩ w).2 = w₁
  -- Both assertions passed; what is left of the step cannot fail.
  match (classifier.decide outcome w₁).1 with
  | .return_ value => simp
  | .abort last => simp
  | .retry last =>
    simp only [Stop.debug, Fallible.ofEff_bind_apply, Eff.bind_apply]
    split
    · simp
    · simp [Wait.debug]

/-! ## §3 The loop bodies -/

/-- The first part of a debug round. -/
theorem Retry.invoke_debug (self : Retry (Eff σ) R A O) (cursor : Cursor)
    (hattempt : 1 ≤ cursor.attempt) (w : σ) :
    GuardedBy (cursor.elapsed.Accepts (self.clock.now w).1) .clockWentBackwards
      (self.debug.invoke cursor w) (self.invoke cursor w) := by
  have hclock : self.debug.clock.toClock = self.clock.toClock.debug := rfl
  simp only [invoke, RetryState.forAttempt_debug hattempt, hclock, Fallible.pure_bind_apply]
  apply (cursor.elapsed.read_debug self.clock.toClock w).bind_right
  simp [debug, ExecutionHooks.debug]

theorem Retry.proceed_debug (self : Retry (Eff σ) R A O) (cursor : Cursor) (elapsed : Elapsed)
    (next : Step R A O) (w : σ) :
    self.debug.proceed cursor elapsed next w =
      (.ok (self.proceed cursor elapsed next w).1, (self.proceed cursor elapsed next w).2) := by
  cases next with
  | done result stats => rfl
  | continue_ delay running =>
    simp only [proceed, sleep, debug]
    split <;> simp

/-- **A debug round** is the release round, cut off at the first reading that is
below the watermark. -/
theorem Retry.loopBody_debug (self : Retry (Eff σ) R A O) (cursor : Cursor)
    (hattempt : 1 ≤ cursor.attempt) (w : σ) :
    let invoked := self.invoke cursor w
    GuardedBy (cursor.elapsed.Accepts (self.clock.now w).1 ∧
        invoked.1.2.Accepts (self.clock.now invoked.2).1) .clockWentBackwards
      (self.debug.loopBody cursor w) (self.loopBody cursor w) := by
  intro invoked
  -- Two readings, two assertions: the second is reached only when the first one passes.
  have hread := invoked.1.2.read_debug self.clock.toClock invoked.2
  apply (self.invoke_debug cursor hattempt w).bind
  apply hread.bind_right
  let progress : Progress :=
    { attempt := cursor.attempt, elapsed := (invoked.1.2.read self.clock.toClock invoked.2).1.1,
      previousDelay := cursor.previousDelay, totalWait := cursor.totalWait }
  have hstep := step_debug progress hattempt invoked.1.1 self.classifier self.stop self.wait
    self.timeout self.hooks (invoked.1.2.read self.clock.toClock invoked.2).2
  exact (Fallible.bind_ok hstep _).trans (self.proceed_debug ..)

variable {Fut WaitFut : Type}

theorem AsyncRetry.proceed_debug (self : AsyncRetry (Eff σ) Fut WaitFut R A O) (cx : Context)
    (elapsed : Elapsed) (run : RunFields Fut WaitFut) (next : Step R A O) (w : σ) :
    self.debug.proceed cx elapsed run next w =
      (.ok (self.proceed cx elapsed run next w).1, (self.proceed cx elapsed run next w).2) := by
  cases next with
  | done result stats => rfl
  | continue_ delay running =>
    simp only [proceed, debug]
    split <;> simp

/-- The reading one pass of the poll loop takes when it starts in the given phase,
and the watermark it is checked against; `none` when the pass takes no reading. -/
def AsyncRetry.passReading (self : AsyncRetry (Eff σ) Fut WaitFut R A O) (cx : Context)
    (run : RunFields Fut WaitFut) (w : σ) : Option Duration :=
  match run.phase with
  | .readyToStart => some (self.clock.now w).1
  | .polling opFuture =>
    match self.op.poll opFuture cx w with
    | ((.pending, _), _) => none
    | ((.ready _, _), w₁) => some (self.clock.now w₁).1
  | .sleeping _ | .yielding | .done => none

/-- The phase in which an operation that is ready is followed by a reading. -/
theorem AsyncRetry.pollBody_debug_ready (self : AsyncRetry (Eff σ) Fut WaitFut R A O) (cx : Context)
    (elapsed : Elapsed) (run : RunFields Fut WaitFut) (hattempt : 1 ≤ run.attempt)
    (opFuture opFuture' : Fut) (outcome : O) (w w₁ : σ) (hphase : run.phase = .polling opFuture)
    (hpoll : self.op.poll opFuture cx w = ((.ready outcome, opFuture'), w₁)) :
    GuardedBy (elapsed.Accepts (self.clock.now w₁).1) .clockWentBackwards
      (self.debug.pollBody cx (elapsed, run) w) (self.pollBody cx (elapsed, run) w) := by
  have hclock : self.debug.clock.toClock = self.clock.toClock.debug := rfl
  have hpoll' : self.debug.op.poll opFuture cx w = (.ok (.ready outcome, opFuture'), w₁) := by
    simp [debug, hpoll]
  obtain ⟨phase, attempt, previousDelay, totalWait⟩ := run
  obtain rfl : phase = .polling opFuture := hphase
  simp only [pollBody, hclock]
  apply GuardedBy.bind_left (x := ((.ready outcome, opFuture'), w₁)) hpoll'
  apply (elapsed.read_debug self.clock.toClock w₁).bind_right
  let progress : Progress :=
    { attempt, elapsed := (elapsed.read self.clock.toClock w₁).1.1, previousDelay, totalWait }
  have hstep := step_debug progress hattempt outcome self.classifier self.stop self.wait
    self.timeout self.hooks (elapsed.read self.clock.toClock w₁).2
  refine (Fallible.bind_ok hstep _).trans ?_
  rw [self.proceed_debug]
  simp only [Eff.bind_apply, hpoll]
  rfl

/-- **A debug pass of the poll loop** is the release pass, unless its reading is
below the watermark. -/
theorem AsyncRetry.pollBody_debug (self : AsyncRetry (Eff σ) Fut WaitFut R A O) (cx : Context)
    (elapsed : Elapsed) (run : RunFields Fut WaitFut) (hattempt : 1 ≤ run.attempt) (w : σ) :
    GuardedBy (∀ reading ∈ self.passReading cx run w, elapsed.Accepts reading)
      .clockWentBackwards (self.debug.pollBody cx (elapsed, run) w)
      (self.pollBody cx (elapsed, run) w) := by
  have hclock : self.debug.clock.toClock = self.clock.toClock.debug := rfl
  obtain ⟨phase, attempt, previousDelay, totalWait⟩ := run
  -- A reading is taken when an attempt starts and when its operation is ready.
  cases phase with
  | readyToStart =>
    simp only [passReading, Option.mem_some_iff, forall_eq', pollBody, hclock,
      RetryState.forAttempt_debug hattempt, Fallible.pure_bind_apply]
    apply (elapsed.read_debug self.clock.toClock w).bind_right
    simp [debug, ExecutionHooks.debug]
  | polling opFuture =>
    obtain ⟨answer, opFuture', w₁, hpoll⟩ : ∃ answer opFuture' w₁,
      self.op.poll opFuture cx w = ((answer, opFuture'), w₁) := ⟨_, _, _, rfl⟩
    cases answer with
    | pending => exact .of_eq (by simp [passReading, hpoll]) (by simp [pollBody, hpoll, debug])
    | ready outcome =>
      simp only [passReading, hpoll, Option.mem_some_iff, forall_eq']
      exact self.pollBody_debug_ready cx elapsed _ hattempt opFuture opFuture' outcome w w₁ rfl
        hpoll
  | sleeping sleepFuture =>
    refine .of_eq (by simp [passReading]) ?_
    obtain ⟨answer, sleepFuture', w', hpoll⟩ : ∃ answer sleepFuture' w',
      self.clock.pollWait sleepFuture cx w = ((answer, sleepFuture'), w') := ⟨_, _, _, rfl⟩
    cases answer with
    | pending => simp [pollBody, debug, hpoll]
    | ready value => simp [pollBody, debug, hpoll]
  | yielding => exact .of_eq (by simp [passReading]) (by simp [pollBody])
  | done => exact .of_eq (by simp [passReading]) (by simp [pollBody])

/-- `PolledTo` for a debug build: the polls so far returned, the last with the given
result, or the last one panicked. -/
inductive AsyncRetry.DebugPolledTo (self : AsyncRetry (Eff σ) Fut WaitFut R A O)
    (cxs : ℕ → Context) (w₀ : σ) :
    ℕ → σ → Except Panic (AsyncRun Fut WaitFut × PollEnd (Output R A O)) → Prop where
  | created : DebugPolledTo self cxs w₀ 0 w₀ (.ok (.intoRun, .pending))
  | poll (j n : ℕ) (w w' : σ) (run run' : AsyncRun Fut WaitFut) (result : PollEnd (Output R A O))
      (hprev : DebugPolledTo self cxs w₀ j w (.ok (run, .pending)))
      (hpoll : self.debug.pollFor n (cxs j) run w = (.ok (.done (result, run')), w')) :
      DebugPolledTo self cxs w₀ (j + 1) w' (.ok (run', result))
  | panic (j n : ℕ) (w w' : σ) (run : AsyncRun Fut WaitFut) (panic : Panic)
      (hprev : DebugPolledTo self cxs w₀ j w (.ok (run, .pending)))
      (hpoll : self.debug.pollFor n (cxs j) run w = (.error panic, w')) :
      DebugPolledTo self cxs w₀ (j + 1) w' (.error panic)

theorem AsyncRetry.startElapsed_debug (self : AsyncRetry (Eff σ) Fut WaitFut R A O)
    (run : AsyncRun Fut WaitFut) (w : σ) :
    self.debug.startElapsed run w =
      (.ok (self.startElapsed run w).1, (self.startElapsed run w).2) := by
  unfold startElapsed
  cases run.elapsed with
  | some elapsed => rfl
  | none => simp [debug, Clock.debug, Elapsed.start]

/-- Two executions of one debug poll that both end, end alike. -/
theorem AsyncRetry.pollFor_debug_unique (self : AsyncRetry (Eff σ) Fut WaitFut R A O)
    (cx : Context) (run : AsyncRun Fut WaitFut) (n n' : ℕ) (w : σ)
    (hn : ∀ state w', self.debug.pollFor n cx run w ≠ (.ok (.again state), w'))
    (hn' : ∀ state w', self.debug.pollFor n' cx run w ≠ (.ok (.again state), w')) :
    self.debug.pollFor n cx run w = self.debug.pollFor n' cx run w := by
  unfold pollFor at hn hn' ⊢
  simp only [Fallible.bind_ok (self.startElapsed_debug run w)] at hn hn' ⊢
  exact StateLoop.runFor_ended_unique hn hn'

/-- A debug run polled equally often is where it is. -/
theorem AsyncRetry.DebugPolledTo.unique {self : AsyncRetry (Eff σ) Fut WaitFut R A O}
    {cxs : ℕ → Context} {w₀ w w' : σ} {j : ℕ}
    {end₁ end₂ : Except Panic (AsyncRun Fut WaitFut × PollEnd (Output R A O))}
    (h : self.DebugPolledTo cxs w₀ j w end₁) (h' : self.DebugPolledTo cxs w₀ j w' end₂) :
    end₁ = end₂ ∧ w = w' := by
  induction h generalizing end₂ w' with
  | created =>
    cases h'
    exact ⟨rfl, rfl⟩
  | poll j n w₁ w run run' result hprev hpoll ih | panic j n w₁ w run panic hprev hpoll ih =>
    cases h' with
    | poll _ n' w₂ _ run₂ _ _ hprev' hpoll' | panic _ n' w₂ _ run₂ _ hprev' hpoll' =>
      -- Both last polls started in one place, so they are one poll with different fuel.
      obtain ⟨hrun, rfl⟩ := ih hprev'
      obtain rfl := congrArg Prod.fst (Except.ok.inj hrun)
      have hsame := self.pollFor_debug_unique (cxs j) run n n' w₁ (by simp [hpoll])
        (by simp [hpoll'])
      have hends := hpoll.symm.trans (hsame.trans hpoll')
      cases hends <;> exact ⟨rfl, rfl⟩

/-- A debug run that is still going has not panicked before. -/
theorem AsyncRetry.DebugPolledTo.no_panic {self : AsyncRetry (Eff σ) Fut WaitFut R A O}
    {cxs : ℕ → Context} {w₀ w w' : σ} {i j : ℕ} {panic : Panic}
    {alive : AsyncRun Fut WaitFut × PollEnd (Output R A O)} (hij : i ≤ j)
    (h : self.DebugPolledTo cxs w₀ j w (.ok alive)) :
    ¬ self.DebugPolledTo cxs w₀ i w' (.error panic) := by
  induction j generalizing w alive with
  | zero =>
    obtain rfl := Nat.le_zero.mp hij
    intro h'
    cases h'
  | succ j ih =>
    rcases Nat.le_succ_iff.mp hij with hle | rfl
    · cases h with
      | poll _ n w₁ _ run run' result hprev hpoll => exact ih hle hprev
    · intro h'
      cases (h.unique h').1

end Relentless
