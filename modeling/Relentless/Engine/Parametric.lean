import Relentless.Engine.AsyncEngine
import Relentless.Library.Parametric

/-!
# The Engines in Any Two Monads

The engines are written once for all monads.  So whatever relation there is between the
computations of two of them, configurations with related parts run alike.

- `Retry.into`, `AsyncRetry.into` — configurations whose parts run in another monad
- `StepRelated`, `Retry.Related`, `AsyncRetry.Related` — configurations with related parts
- `Retry.Related.runFor`, `AsyncRetry.Related.pollFor` — they run alike
- `AsyncRetry.drive` — polls in a row, in any monad
- `AsyncRetry.polledTo_of_drive`, `AsyncRetry.midway_of_drive` — with nobody else around
-/

namespace Relentless

open StateLoop

/-! ## §1 Configurations in another monad -/

section Into

variable {m m' : Type → Type} (lift : ∀ {α : Type}, m α → m' α)
  {R A O α Fut WaitFut : Type}

/-- A slot of hooks that run in another monad. -/
def HookSlot.into : HookSlot m α → HookSlot m' α
  | .unit => .unit
  | .chain first second => .chain first.into fun view => lift (second view)

@[simp] theorem HookSlot.count_into (slot : HookSlot m α) :
    (slot.into lift).count = slot.count := by
  induction slot with
  | unit => rfl
  | chain first second ih => exact congrArg (· + 1) ih

/-- Hooks that run in another monad. -/
def ExecutionHooks.into (hooks : ExecutionHooks m R A O) : ExecutionHooks m' R A O where
  beforeAttempt := hooks.beforeAttempt.into lift
  afterAttempt := hooks.afterAttempt.into lift
  onExit := hooks.onExit.into lift

/-- A sync configuration whose parts run in another monad. -/
def Retry.into (self : Retry m R A O) : Retry m' R A O where
  op state := lift (self.op state)
  classifier := ⟨fun outcome => lift (self.classifier.decide outcome)⟩
  stop := ⟨fun state => lift (self.stop.shouldStop state)⟩
  wait := ⟨fun state => lift (self.wait.nextWait state)⟩
  clock := { now := lift self.clock.now, wait := fun delay => lift (self.clock.wait delay) }
  hooks := self.hooks.into lift
  timeout := self.timeout

/-- An async configuration whose parts run in another monad. -/
def AsyncRetry.into (self : AsyncRetry m Fut WaitFut R A O) :
    AsyncRetry m' Fut WaitFut R A O where
  op :=
    { callOp := fun state => lift (self.op.callOp state)
      poll := fun future cx => lift (self.op.poll future cx) }
  classifier := ⟨fun outcome => lift (self.classifier.decide outcome)⟩
  stop := ⟨fun state => lift (self.stop.shouldStop state)⟩
  wait := ⟨fun state => lift (self.wait.nextWait state)⟩
  clock :=
    { now := lift self.clock.now
      waitAsync := fun delay => lift (self.clock.waitAsync delay)
      pollWait := fun future cx => lift (self.clock.pollWait future cx) }
  hooks := self.hooks.into lift
  timeout := self.timeout
  wakeByRef cx := lift (self.wakeByRef cx)

end Into

variable {m m' : Type → Type} [Monad m] [Monad m'] [Build m] [Build m'] {R A O : Type}
  {T : MonadRel m m'}

/-! ## §2 The decision step -/

/-- The parts that an attempt consults, besides the operation and the clock, are related, and
both builds agree about debug assertions. -/
structure StepRelated (T : MonadRel m m') (classifier : Decide m R A O)
    (classifier' : Decide m' R A O) (stop : Stop m) (stop' : Stop m') (wait : Wait m)
    (wait' : Wait m') (hooks : ExecutionHooks m R A O) (hooks' : ExecutionHooks m' R A O) :
    Prop where
  debugAssert : ∀ ok panic, T.rel (debugAssert ok panic : m Unit) (debugAssert ok panic)
  decide : ∀ outcome, T.rel (classifier.decide outcome) (classifier'.decide outcome)
  shouldStop : ∀ state, T.rel (stop.shouldStop state) (stop'.shouldStop state)
  nextWait : ∀ state, T.rel (wait.nextWait state) (wait'.nextWait state)
  beforeAttempt : ∀ state,
    T.rel (hooks.beforeAttempt.call state) (hooks'.beforeAttempt.call state)
  afterAttempt : ∀ state, T.rel (hooks.afterAttempt.call state) (hooks'.afterAttempt.call state)
  onExit : ∀ exit, T.rel (hooks.onExit.call exit) (hooks'.onExit.call exit)

section Step

variable {classifier : Decide m R A O} {classifier' : Decide m' R A O} {stop : Stop m}
  {stop' : Stop m'} {wait : Wait m} {wait' : Wait m'} {hooks : ExecutionHooks m R A O}
  {hooks' : ExecutionHooks m' R A O}

theorem StepRelated.forAttempt
    (h : StepRelated T classifier classifier' stop stop' wait wait' hooks hooks')
    (attempt : UInt32) :
    T.rel (RetryState.forAttempt attempt : m RetryState) (RetryState.forAttempt attempt) :=
  T.bind (h.debugAssert _ _) fun _ => T.pure _

/-- **The decision step** of related parts is related. -/
theorem StepRelated.step
    (h : StepRelated T classifier classifier' stop stop' wait wait' hooks hooks')
    (progress : Progress) (outcome : O) (timeout : Option Duration) :
    T.rel (step progress outcome classifier stop wait timeout hooks)
      (step progress outcome classifier' stop' wait' timeout hooks') := by
  obtain ⟨attempt, elapsed, previousDelay, totalWait⟩ := progress
  unfold Relentless.step
  refine T.bind (T.bind (h.debugAssert _ _) fun _ => T.pure _) fun attemptState => ?_
  refine T.bind (h.afterAttempt attemptState) fun _ => ?_
  refine T.bind (h.forAttempt attempt) fun state => ?_
  refine T.bind (h.decide outcome) fun verdict => ?_
  -- The verdict says which of the other parts are consulted.
  cases verdict with
  | return_ value => exact T.bind (h.onExit _) fun _ => T.pure _
  | abort last => exact T.bind (h.onExit _) fun _ => T.pure _
  | retry last =>
    refine T.bind (h.shouldStop _) fun answer => ?_
    cases answer || timeoutExceeded timeout elapsed with
    | true => exact T.bind (h.onExit _) fun _ => T.pure _
    | false => exact T.bind (h.nextWait _) fun _ => T.pure _

/-- A reading of related clocks. -/
theorem StepRelated.read
    (h : StepRelated T classifier classifier' stop stop' wait wait' hooks hooks')
    {clock : Clock m} {clock' : Clock m'} (hnow : T.rel clock.now clock'.now)
    (elapsed : Elapsed) : T.rel (elapsed.read clock) (elapsed.read clock') := by
  refine T.bind hnow fun reading => ?_
  exact T.bind (h.debugAssert _ _) fun _ => T.pure _

end Step

omit [Build m] [Build m'] in
/-- The hooks of two slots, registered in the same order, are dispatched to alike. -/
theorem HookSlot.related_chain {α : Type} {first : HookSlot m α} {first' : HookSlot m' α}
    {second : α → m Unit} {second' : α → m' Unit}
    (hfirst : ∀ view, T.rel (first.call view) (first'.call view))
    (hsecond : ∀ view, T.rel (second view) (second' view)) (view : α) :
    T.rel ((HookSlot.chain first second).call view) ((HookSlot.chain first' second').call view) :=
  T.bind (hfirst view) fun _ => hsecond view

/-! ## §3 The sync engine -/

namespace Retry

/-- Two sync configurations with related parts. -/
structure Related (T : MonadRel m m') (retry : Retry m R A O) (retry' : Retry m' R A O) :
    Prop where
  parts : StepRelated T retry.classifier retry'.classifier retry.stop retry'.stop retry.wait
    retry'.wait retry.hooks retry'.hooks
  op : ∀ state, T.rel (retry.op state) (retry'.op state)
  now : T.rel retry.clock.now retry'.clock.now
  wait : ∀ delay, T.rel (retry.clock.wait delay) (retry'.clock.wait delay)
  timeout : retry.timeout = retry'.timeout

namespace Related

variable {self : Retry m R A O} {self' : Retry m' R A O}

theorem invoke (h : Related T self self') (cursor : Cursor) :
    T.rel (self.invoke cursor) (self'.invoke cursor) := by
  unfold Retry.invoke
  refine T.bind (h.parts.forAttempt _) fun state => ?_
  refine T.bind (h.parts.read h.now cursor.elapsed) fun reading => ?_
  refine T.bind (h.parts.beforeAttempt _) fun _ => ?_
  exact T.bind (h.op _) fun _ => T.pure _

theorem sleep (h : Related T self self') (delay : Duration) :
    T.rel (self.sleep delay) (self'.sleep delay) := by
  unfold Retry.sleep
  cases delay.isZero with
  | true => exact T.pure ()
  | false => exact h.wait delay

theorem loopBody (h : Related T self self') (cursor : Cursor) :
    T.rel (self.loopBody cursor) (self'.loopBody cursor) := by
  unfold Retry.loopBody
  refine T.bind (h.invoke cursor) fun invoked => ?_
  refine T.bind (h.parts.read h.now _) fun reading => ?_
  rw [h.timeout]
  refine T.bind (h.parts.step _ _ _) fun next => ?_
  cases next with
  | done result stats => exact T.pure _
  | continue_ delay running => exact T.bind (h.sleep delay) fun _ => T.pure _

/-- **Related configurations run alike**, for any number of rounds. -/
theorem runFor (h : Related T self self') (n : ℕ) : T.rel (self.runFor n) (self'.runFor n) := by
  have hstart : T.rel (Elapsed.start self.clock.toClock) (Elapsed.start self'.clock.toClock) :=
    T.bind h.now fun _ => T.pure _
  exact T.bind hstart fun elapsed => T.runFor h.loopBody n _

end Related

end Retry

/-! ## §4 The async engine -/

namespace AsyncRetry

variable {Fut WaitFut : Type}

/-- Two async configurations with related parts and the same futures. -/
structure Related (T : MonadRel m m') (retry : AsyncRetry m Fut WaitFut R A O)
    (retry' : AsyncRetry m' Fut WaitFut R A O) : Prop where
  parts : StepRelated T retry.classifier retry'.classifier retry.stop retry'.stop retry.wait
    retry'.wait retry.hooks retry'.hooks
  callOp : ∀ state, T.rel (retry.op.callOp state) (retry'.op.callOp state)
  poll : ∀ future cx, T.rel (retry.op.poll future cx) (retry'.op.poll future cx)
  now : T.rel retry.clock.now retry'.clock.now
  waitAsync : ∀ delay, T.rel (retry.clock.waitAsync delay) (retry'.clock.waitAsync delay)
  pollWait : ∀ future cx,
    T.rel (retry.clock.pollWait future cx) (retry'.clock.pollWait future cx)
  wakeByRef : ∀ cx, T.rel (retry.wakeByRef cx) (retry'.wakeByRef cx)
  timeout : retry.timeout = retry'.timeout

/-- The first polls, `j` of them at most: the `i`-th with the context `cxs i` and for at most
`fuel i` passes, and none when the future was ready before.  It yields how many there were
and what they left, or `none` when one of them did not return. -/
def drive (self : AsyncRetry m Fut WaitFut R A O) (cxs : ℕ → Context) (fuel : ℕ → ℕ) :
    ℕ → m (Option (ℕ × PollResult Fut WaitFut R A O))
  | 0 => return some (0, (.pending, .intoRun))
  | j + 1 => do
    match ← self.drive cxs fuel j with
    | some (i, (.pending, run)) => do
      match ← self.pollFor (fuel i) (cxs i) run with
      | .done ended => return some (i + 1, ended)
      | .again _ => return none
    | driven => return driven

namespace Related

variable {self : AsyncRetry m Fut WaitFut R A O} {self' : AsyncRetry m' Fut WaitFut R A O}

theorem proceed (h : Related T self self') (cx : Context) (elapsed : Elapsed)
    (run : RunFields Fut WaitFut) (next : Step R A O) :
    T.rel (self.proceed cx elapsed run next) (self'.proceed cx elapsed run next) := by
  cases next with
  | done result stats => exact T.pure _
  | continue_ delay running =>
    unfold AsyncRetry.proceed
    dsimp only
    cases delay.isZero with
    | true => exact T.bind (h.wakeByRef cx) fun _ => T.pure _
    | false => exact T.bind (h.waitAsync delay) fun _ => T.pure _

/-- **One pass** of two related poll loops. -/
theorem pollBody (h : Related T self self') (cx : Context) (state : LoopState Fut WaitFut) :
    T.rel (self.pollBody cx state) (self'.pollBody cx state) := by
  obtain ⟨elapsed, phase, attempt, previousDelay, totalWait⟩ := state
  unfold AsyncRetry.pollBody
  cases phase with
  | readyToStart =>
    refine T.bind (h.parts.forAttempt _) fun retryState => ?_
    refine T.bind (h.parts.read h.now elapsed) fun reading => ?_
    refine T.bind (h.parts.beforeAttempt _) fun _ => ?_
    exact T.bind (h.callOp _) fun _ => T.pure _
  | polling future =>
    refine T.bind (h.poll future cx) fun answer => ?_
    obtain ⟨value, future'⟩ := answer
    cases value with
    | pending => exact T.pure _
    | ready outcome =>
      refine T.bind (h.parts.read h.now elapsed) fun reading => ?_
      rw [h.timeout]
      refine T.bind (h.parts.step _ _ _) fun next => ?_
      exact h.proceed cx _ _ next
  | sleeping future =>
    refine T.bind (h.pollWait future cx) fun answer => ?_
    obtain ⟨value, future'⟩ := answer
    cases value with
    | pending => exact T.pure _
    | ready value => exact T.pure _
  | yielding => exact T.pure _
  | done => exact T.pure _

theorem pollFor (h : Related T self self') (n : ℕ) (cx : Context) (run : AsyncRun Fut WaitFut) :
    T.rel (self.pollFor n cx run) (self'.pollFor n cx run) := by
  have hbegin : T.rel (self.startElapsed run) (self'.startElapsed run) := by
    unfold startElapsed
    cases run.elapsed with
    | some elapsed => exact T.pure elapsed
    | none => exact T.bind h.now fun _ => T.pure _
  exact T.bind hbegin fun elapsed => T.runFor (h.pollBody cx) n _

/-- **Related configurations are driven alike**, for any number of polls. -/
theorem drive (h : Related T self self') (cxs : ℕ → Context) (fuel : ℕ → ℕ) (j : ℕ) :
    T.rel (self.drive cxs fuel j) (self'.drive cxs fuel j) := by
  induction j with
  | zero => exact T.pure _
  | succ j ih =>
    refine T.bind ih fun driven => ?_
    match driven with
    | none => exact T.pure _
    | some (i, (.pending, run)) =>
      refine T.bind (h.pollFor (fuel i) (cxs i) run) fun turn => ?_
      cases turn with
      | again state => exact T.pure _
      | done ended => exact T.pure _
    | some (i, (.ready output, run)) => exact T.pure _
    | some (i, (.panicked, run)) => exact T.pure _

end Related

/-! ## §5 Polls that nobody disturbs -/

variable {σ : Type} {self : AsyncRetry (Eff σ) Fut WaitFut R A O}

/-- Driven alone, a future is polled as often as its driver says. -/
theorem polledTo_of_drive {cxs : ℕ → Context} {fuel : ℕ → ℕ} {j i : ℕ} {w₀ w : σ}
    {result : PollEnd (Output R A O)} {run : AsyncRun Fut WaitFut}
    (h : self.drive cxs fuel j w₀ = (some (i, (result, run)), w)) :
    self.PolledTo cxs w₀ i w run result := by
  induction j generalizing i w result run with
  | zero =>
    cases h
    exact .created
  | succ j ih =>
    rw [AsyncRetry.drive, Eff.bind_apply] at h
    obtain ⟨driven, w₁, hdriven⟩ : ∃ driven w₁, self.drive cxs fuel j w₀ = (driven, w₁) :=
      ⟨_, _, rfl⟩
    rw [hdriven] at h
    match driven with
    | none => cases h
    | some (i', (.pending, run')) =>
      obtain ⟨turn, w₂, hpoll⟩ : ∃ turn w₂, self.pollFor (fuel i') (cxs i') run' w₁ = (turn, w₂) :=
        ⟨_, _, rfl⟩
      dsimp only at h
      rw [Eff.bind_apply, hpoll] at h
      cases turn with
      | again state => cases h
      | done ended =>
        cases h
        exact .poll i' (fuel i') w₁ w₂ run' run result (ih hdriven) hpoll
    | some (i', (.ready output, run')) =>
      cases h
      exact ih hdriven
    | some (i', (.panicked, run')) =>
      cases h
      exact ih hdriven

/-- Driven alone, a future whose poll has not returned is in the middle of it. -/
theorem midway_of_drive {cxs : ℕ → Context} {fuel : ℕ → ℕ} {j : ℕ} {w₀ w : σ}
    (h : self.drive cxs fuel j w₀ = (none, w)) : ∃ i state, self.Midway cxs w₀ i w state := by
  induction j generalizing w with
  | zero => cases h
  | succ j ih =>
    rw [AsyncRetry.drive, Eff.bind_apply] at h
    obtain ⟨driven, w₁, hdriven⟩ : ∃ driven w₁, self.drive cxs fuel j w₀ = (driven, w₁) :=
      ⟨_, _, rfl⟩
    rw [hdriven] at h
    match driven with
    | none =>
      cases h
      exact ih hdriven
    | some (i', (.pending, run')) =>
      obtain ⟨turn, w₂, hpoll⟩ : ∃ turn w₂, self.pollFor (fuel i') (cxs i') run' w₁ = (turn, w₂) :=
        ⟨_, _, rfl⟩
      dsimp only at h
      rw [Eff.bind_apply, hpoll] at h
      cases turn with
      | done ended => cases h
      | again state =>
        cases h
        exact ⟨i', state, fuel i', w₁, run', _, _, polledTo_of_drive hdriven, rfl, hpoll⟩
    | some (i', (.ready output, run')) => cases h
    | some (i', (.panicked, run')) => cases h

end AsyncRetry

end Relentless
