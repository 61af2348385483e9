import Relentless.Engine.AsyncEngine
import Relentless.Library.Relational

/-!
# Call Logs

The calls an engine makes to the operation, the classifier, the strategies, the
hooks, the clock and the waker, recorded in order.  The engines themselves are
not instrumented: a configuration is wrapped so that every one of its parts
appends an event when it is called, and the wrapped configuration is run by the
same engine code.

- `Event` — one call, with its arguments and (where it has one) its answer
- `Recorder` — how to run the parts, and how to record an event
- `Retry.recorded`, `AsyncRetry.recorded` — configurations that record every call
- `Traced` — a world together with the log of the calls made so far
- `Retry.traced`, `AsyncRetry.traced` — configurations that record in a traced world
-/

namespace Relentless

/-! ## §1 Events -/

/-- A call made by an engine.  An operation is split in two: `op` is the call,
`outcome` is its result arriving.  Hook events carry the registration index. -/
inductive Event (R A O : Type) where
  | now (reading : Duration)
  | beforeAttempt (hook : ℕ) (state : RetryState)
  | op (state : RetryState)
  | outcome (value : O)
  | afterAttempt (hook : ℕ) (state : AttemptState O)
  | decide (outcome : O) (verdict : Verdict R A O)
  | shouldStop (state : RetryState) (answer : Bool)
  | nextWait (state : RetryState) (delay : Duration)
  | wait (delay : Duration)
  | onExit (hook : ℕ) (exit : Exit R A O)
  -- The polls of the async engine, which the sync engine has no counterpart of.
  | opPending (cx : Context)
  | waitPending (cx : Context)
  | waitReady (cx : Context)
  | wake (cx : Context)
  deriving DecidableEq

/-- The events both engines have: everything but the polls and wakes. -/
@[simp] def Event.isCall {R A O : Type} : Event R A O → Bool
  | .opPending _ | .waitPending _ | .waitReady _ | .wake _ => false
  | _ => true

/-- The calls of a log, without the polls and wakes. -/
def calls {R A O : Type} (log : List (Event R A O)) : List (Event R A O) :=
  log.filter Event.isCall

@[simp] theorem calls_nil {R A O : Type} : calls ([] : List (Event R A O)) = [] := rfl

@[simp] theorem calls_cons {R A O : Type} (event : Event R A O) (log : List (Event R A O)) :
    calls (event :: log) = if event.isCall then event :: calls log else calls log :=
  List.filter_cons ..

@[simp] theorem calls_append {R A O : Type} (log log' : List (Event R A O)) :
    calls (log ++ log') = calls log ++ calls log' := List.filter_append ..

/-- The record of one poll of an operation future. -/
def opPolled {R A O : Type} (cx : Context) : Poll O → Event R A O
  | .pending => .opPending cx
  | .ready value => .outcome value

/-- The record of one poll of a wait future. -/
def waitPolled {R A O : Type} (cx : Context) : Poll Unit → Event R A O
  | .pending => .waitPending cx
  | .ready () => .waitReady cx

/-! ## §2 Recorders -/

/-- The computations of `m` among those of `m'`, and the records of events there. -/
structure Recorder (m m' : Type → Type) (R A O : Type) where
  lift : ∀ {α : Type}, m α → m' α
  record : Event R A O → m' Unit

section Recorded

variable {m m' : Type → Type} [Monad m'] {R A O α : Type} (rec : Recorder m m' R A O)

/-- Run a computation and record its answer. -/
def Recorder.logged (event : α → Event R A O) (x : m α) : m' α := do
  let answer ← rec.lift x
  rec.record (event answer)
  return answer

/-- Record an event, and run a computation. -/
def Recorder.announced (event : Event R A O) (x : m α) : m' α := do
  rec.record event
  rec.lift x

/-- Every hook of the slot records its call before it runs. -/
def HookSlot.recorded (event : ℕ → α → Event R A O) : HookSlot m α → HookSlot m' α
  | .unit => .unit
  | .chain first second => .chain (first.recorded event) fun view =>
    rec.announced (event first.count view) (second view)

/-- The hooks, each recording its call. -/
def ExecutionHooks.recorded (hooks : ExecutionHooks m R A O) : ExecutionHooks m' R A O where
  beforeAttempt := hooks.beforeAttempt.recorded rec .beforeAttempt
  afterAttempt := hooks.afterAttempt.recorded rec .afterAttempt
  onExit := hooks.onExit.recorded rec .onExit

/-- The classifier, recording each verdict. -/
def Decide.recorded (classifier : Decide m R A O) : Decide m' R A O where
  decide outcome := rec.logged (.decide outcome) (classifier.decide outcome)

/-- The stop strategy, recording each consultation. -/
def Stop.recorded (stop : Stop m) : Stop m' where
  shouldStop state := rec.logged (.shouldStop state) (stop.shouldStop state)

/-- The wait strategy, recording each consultation. -/
def Wait.recorded (wait : Wait m) : Wait m' where
  nextWait state := rec.logged (.nextWait state) (wait.nextWait state)

/-- The clock's reading seam, recording each reading. -/
def Clock.recorded (clock : Clock m) : Clock m' where
  now := rec.logged .now clock.now

/-- The blocking clock, recording each wait as it is requested. -/
def SyncClock.recorded (clock : SyncClock m) : SyncClock m' where
  toClock := clock.toClock.recorded rec
  wait delay := rec.announced (.wait delay) (clock.wait delay)

/-- A sync configuration whose every part records its calls: the operation its call, and then
its outcome. -/
def Retry.recorded (self : Retry m R A O) : Retry m' R A O where
  op state := do
    rec.record (.op state)
    rec.logged .outcome (self.op state)
  classifier := self.classifier.recorded rec
  stop := self.stop.recorded rec
  wait := self.wait.recorded rec
  clock := self.clock.recorded rec
  hooks := self.hooks.recorded rec
  timeout := self.timeout

variable {Fut WaitFut : Type}

/-- The async operation, recording the call, each `Pending` and the outcome. -/
def AsyncRetryOp.recorded (op : AsyncRetryOp m Fut O) : AsyncRetryOp m' Fut O where
  callOp state := rec.announced (.op state) (op.callOp state)
  poll future cx := rec.logged (fun answer => opPolled cx answer.1) (op.poll future cx)

/-- The async clock, recording each reading, each requested wait and its polls. -/
def AsyncClock.recorded (clock : AsyncClock m WaitFut) : AsyncClock m' WaitFut where
  toClock := clock.toClock.recorded rec
  waitAsync delay := rec.announced (.wait delay) (clock.waitAsync delay)
  pollWait future cx :=
    rec.logged (fun answer => waitPolled cx answer.1) (clock.pollWait future cx)

/-- An async configuration whose every part records its calls, polls and wakes. -/
def AsyncRetry.recorded (self : AsyncRetry m Fut WaitFut R A O) :
    AsyncRetry m' Fut WaitFut R A O where
  op := self.op.recorded rec
  classifier := self.classifier.recorded rec
  stop := self.stop.recorded rec
  wait := self.wait.recorded rec
  clock := self.clock.recorded rec
  hooks := self.hooks.recorded rec
  timeout := self.timeout
  wakeByRef cx := rec.announced (.wake cx) (self.wakeByRef cx)

end Recorded

/-! ## §3 Traced worlds -/

/-- A world together with the calls made so far. -/
structure Traced (σ R A O : Type) where
  world : σ
  log : List (Event R A O)

variable {σ R A O α : Type}

/-- Append one event to the log. -/
def record (event : Event R A O) : Eff (Traced σ R A O) Unit :=
  fun t => ((), { t with log := t.log ++ [event] })

/-- The world of a traced one. -/
def Traced.worldPart : Eff.Part σ (Traced σ R A O) where
  get := Traced.world
  put w t := { t with world := w }
  get_put _ _ := rfl

/-- Run a computation on the world, leaving the log alone. -/
def onWorld (x : Eff σ α) : Eff (Traced σ R A O) α := Traced.worldPart.run x

/-- The records in the log of a traced world. -/
def Recorder.traced : Recorder (Eff σ) (Eff (Traced σ R A O)) R A O where
  lift := onWorld
  record := Relentless.record

/-- Run a computation and record its answer. -/
def logged (event : α → Event R A O) (x : Eff σ α) : Eff (Traced σ R A O) α :=
  Recorder.traced.logged event x

@[simp] theorem traced_record (event : Event R A O) :
    (Recorder.traced : Recorder (Eff σ) _ R A O).record event = record event := rfl

@[simp] theorem traced_logged (event : α → Event R A O) (x : Eff σ α) :
    Recorder.traced.logged event x = logged event x := rfl

@[simp] theorem traced_announced (event : Event R A O) (x : Eff σ α) :
    Recorder.traced.announced event x = record event >>= fun _ => onWorld x := rfl

@[simp] theorem record_apply (event : Event R A O) (w : σ) (log : List (Event R A O)) :
    record event ⟨w, log⟩ = ((), ⟨w, log ++ [event]⟩) := rfl

@[simp] theorem onWorld_apply (x : Eff σ α) (w : σ) (log : List (Event R A O)) :
    onWorld x ⟨w, log⟩ = ((x w).1, ⟨(x w).2, log⟩) := rfl

@[simp] theorem logged_apply (event : α → Event R A O) (x : Eff σ α) (w : σ)
    (log : List (Event R A O)) :
    logged event x ⟨w, log⟩ = ((x w).1, ⟨(x w).2, log ++ [event (x w).1]⟩) := rfl

/-! ## §4 Dispatches to hooks -/

/-- The events of one dispatch to a slot of `n` hooks. -/
def hookEvents (n : ℕ) (event : ℕ → α → Event R A O) (view : α) : List (Event R A O) :=
  (List.range n).map fun hook => event hook view

theorem mem_hookEvents {n : ℕ} {event : ℕ → α → Event R A O} {view : α} {ev : Event R A O} :
    ev ∈ hookEvents n event view ↔ ∃ hook < n, event hook view = ev := by
  simp [hookEvents]

/-- What holds of every event of a hook point holds of a dispatch to it. -/
theorem forall_hookEvents {P : Event R A O → Prop} {n : ℕ} {event : ℕ → α → Event R A O}
    {view : α} (h : ∀ hook, P (event hook view)) : ∀ ev ∈ hookEvents n event view, P ev := by
  intro ev hev
  obtain ⟨hook, -, rfl⟩ := mem_hookEvents.mp hev
  exact h hook

theorem filter_hookEvents (p : Event R A O → Bool) (n : ℕ) (event : ℕ → α → Event R A O)
    (view : α) (hskip : ∀ hook, p (event hook view) = false) :
    (hookEvents n event view).filter p = [] := by
  apply List.filter_eq_nil_iff.mpr
  apply forall_hookEvents
  intro hook
  rw [hskip hook]
  exact Bool.false_ne_true

theorem filterMap_hookEvents {β : Type} (f : Event R A O → Option β) (n : ℕ)
    (event : ℕ → α → Event R A O) (view : α) (hskip : ∀ hook, f (event hook view) = none) :
    (hookEvents n event view).filterMap f = [] :=
  List.filterMap_eq_nil_iff.mpr (forall_hookEvents hskip)

theorem calls_hookEvents (n : ℕ) (event : ℕ → α → Event R A O) (view : α)
    (hcall : ∀ hook, (event hook view).isCall = true) :
    calls (hookEvents n event view) = hookEvents n event view :=
  List.filter_eq_self.mpr (forall_hookEvents hcall)

@[simp] theorem calls_beforeAttempt (n : ℕ) (state : RetryState) :
    calls (hookEvents n .beforeAttempt state : List (Event R A O)) =
      hookEvents n .beforeAttempt state :=
  calls_hookEvents n _ state fun _ => rfl

@[simp] theorem calls_afterAttempt (n : ℕ) (state : AttemptState O) :
    calls (hookEvents n .afterAttempt state : List (Event R A O)) =
      hookEvents n .afterAttempt state :=
  calls_hookEvents n _ state fun _ => rfl

@[simp] theorem calls_onExit (n : ℕ) (exit : Exit R A O) :
    calls (hookEvents n .onExit exit) = hookEvents n .onExit exit :=
  calls_hookEvents n _ exit fun _ => rfl

/-- A dispatch fires each registered hook once, in registration order. -/
@[simp] theorem HookSlot.recorded_call (event : ℕ → α → Event R A O)
    (slot : HookSlot (Eff σ) α) (view : α) (w : σ) (log : List (Event R A O)) :
    (slot.recorded .traced event).call view ⟨w, log⟩ =
      ((), ⟨(slot.call view w).2, log ++ hookEvents slot.count event view⟩) := by
  induction slot generalizing w log with
  | unit => simp [HookSlot.recorded, HookSlot.call, HookSlot.count, hookEvents]
  | chain first second ih =>
    simp [HookSlot.recorded, HookSlot.call, HookSlot.count, hookEvents, ih, List.range_succ]

/-! ## §5 Traced configurations -/

/-- A sync configuration whose every part records its calls. -/
def Retry.traced (self : Retry (Eff σ) R A O) : Retry (Eff (Traced σ R A O)) R A O :=
  self.recorded .traced

variable {Fut WaitFut : Type}

/-- An async configuration whose every part records its calls, polls and wakes. -/
def AsyncRetry.traced (self : AsyncRetry (Eff σ) Fut WaitFut R A O) :
    AsyncRetry (Eff (Traced σ R A O)) Fut WaitFut R A O :=
  self.recorded .traced

end Relentless
