import Relentless.Engine.Elapsed
import Relentless.Engine.Step
import Relentless.Library.Loop

/-!
# The Synchronous Engine

`Retry::run` as a loop whose locals are a `Cursor`.  The loop is unbounded in
the source; `runFor n` executes at most `n` rounds of it.
-/

namespace Relentless

open StateLoop

/-- `Retry`: an operation with its classifier, strategies, clock, hooks and timeout. -/
structure Retry (m : Type → Type) (R A O : Type) where
  op : RetryState → m O
  classifier : Decide m R A O
  stop : Stop m
  wait : Wait m
  clock : SyncClock m
  hooks : ExecutionHooks m R A O
  timeout : Option Duration

/-- The locals `Retry::run` carries from round to round. -/
structure Cursor where
  elapsed : Elapsed
  attempt : UInt32
  previousDelay : Option Duration
  totalWait : Duration
  deriving DecidableEq

/-- The locals before the first round. -/
def Cursor.start (elapsed : Elapsed) : Cursor :=
  { elapsed, attempt := 1, previousDelay := none, totalWait := .zero }

namespace Retry

variable {m : Type → Type} [Monad m] [Build m] {R A O : Type}

/-- The first part of a round: one clock read, `before_attempt`, the operation. -/
def invoke (self : Retry m R A O) (cursor : Cursor) : m (O × Elapsed) := do
  let state ← RetryState.forAttempt cursor.attempt
  let (beforeElapsed, elapsed) ← cursor.elapsed.read self.clock.toClock
  let beforeState := (state.withElapsed beforeElapsed).withPreviousDelay cursor.previousDelay
  self.hooks.beforeAttempt.call beforeState
  let outcome ← self.op beforeState
  return (outcome, elapsed)

/-- `if !delay.is_zero() { self.clock.wait(delay) }`. -/
def sleep (self : Retry m R A O) (delay : Duration) : m Unit :=
  if delay.isZero then pure () else self.clock.wait delay

/-- The sync engine's half of a round: sleep and go round again, or return. -/
def proceed (self : Retry m R A O) (cursor : Cursor) (elapsed : Elapsed) :
    Step R A O → m (Turn Cursor (Output R A O))
  | .done result stats => return .done (result, stats)
  | .continue_ delay running => do
    self.sleep delay
    return .again
      { elapsed, attempt := u32SaturatingAdd cursor.attempt 1,
        previousDelay := some delay, totalWait := running }

/-- The body of the loop in `Retry::run`. -/
def loopBody (self : Retry m R A O) (cursor : Cursor) : m (Turn Cursor (Output R A O)) := do
  let (outcome, elapsed) ← self.invoke cursor
  -- Elapsed is re-read after the operation, so `step` sees the time it took.
  let (postElapsed, elapsed) ← elapsed.read self.clock.toClock
  let progress : Progress :=
    { attempt := cursor.attempt, elapsed := postElapsed,
      previousDelay := cursor.previousDelay, totalWait := cursor.totalWait }
  let next ← step progress outcome self.classifier self.stop self.wait self.timeout self.hooks
  self.proceed cursor elapsed next

/-- `Retry::run`, for at most `n` rounds. -/
def runFor (self : Retry m R A O) (n : ℕ) : m (Turn Cursor (Output R A O)) := do
  let elapsed ← Elapsed.start self.clock.toClock
  StateLoop.runFor self.loopBody n (Cursor.start elapsed)

end Retry

end Relentless
