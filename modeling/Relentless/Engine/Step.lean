import Relentless.Decision
import Relentless.Hooks
import Relentless.Stop
import Relentless.Wait

/-!
# The Shared Decision Step

`step` is the middle both engines share: what happens between having an outcome
and sleeping or terminating.
-/

namespace Relentless

variable {m : Type → Type} [Monad m] [Build m] {R A O : Type}

/-- `Progress`: the loop's cursor at the moment an attempt completes. -/
structure Progress where
  attempt : UInt32
  elapsed : Duration
  previousDelay : Option Duration
  totalWait : Duration

/-- `Step`: what a completed attempt tells the driving loop to do next. -/
inductive Step (R A O : Type) where
  | done (result : Except (RetryError A O) R) (stats : RetryStats)
  | continue_ (delay totalWait : Duration)

/-- `timeout.is_some_and(|t| post_elapsed >= t)`. -/
def timeoutExceeded (timeout : Option Duration) (postElapsed : Duration) : Bool :=
  match timeout with
  | some t => decide (t ≤ postElapsed)
  | none => false

/-- The delay of the wait strategy, clamped to the remaining timeout budget. -/
def clampDelay (timeout : Option Duration) (postElapsed nextDelay : Duration) : Duration :=
  match timeout with
  | some t => min nextDelay (t.saturatingSub postElapsed)
  | none => nextDelay

/-- While the timeout is not exceeded the clamp keeps a non-zero delay non-zero. -/
theorem clampDelay_ne_zero {timeout : Option Duration} {postElapsed nextDelay : Duration}
    (hleft : timeoutExceeded timeout postElapsed = false) (hdelay : nextDelay ≠ .zero) :
    clampDelay timeout postElapsed nextDelay ≠ .zero := by
  cases timeout with
  | none => exact hdelay
  | some t =>
    have hlt : ¬ t ≤ postElapsed := of_decide_eq_false hleft
    rw [Duration.le_def] at hlt
    rw [Duration.ne_zero_iff] at hdelay ⊢
    simp only [clampDelay, Duration.nanos_min, Duration.nanos_saturatingSub]
    omega

/-- `step`: processes one completed attempt's outcome. -/
def step (progress : Progress) (outcome : O) (classifier : Decide m R A O) (stop : Stop m)
    (wait : Wait m) (timeout : Option Duration) (hooks : ExecutionHooks m R A O) :
    m (Step R A O) := do
  let { attempt, elapsed := postElapsed, previousDelay, totalWait } := progress
  -- `after_attempt` sees the raw outcome, before the classifier consumes it.
  let attemptState ← AttemptState.new attempt postElapsed outcome
  hooks.afterAttempt.call attemptState
  let state := ((← RetryState.forAttempt attempt).withElapsed postElapsed).withPreviousDelay
    previousDelay
  let statsFor (stopReason : StopReason) : RetryStats :=
    { attempts := attempt, totalElapsed := postElapsed, totalWait, stopReason }
  match ← classifier.decide outcome with
  | .return_ value => do
    hooks.onExit.call (.returned attempt postElapsed value)
    return .done (.ok value) (statsFor .returned)
  | .abort last => do
    hooks.onExit.call (.aborted attempt postElapsed last)
    return .done (.error (.aborted last)) (statsFor .aborted)
  | .retry last => do
    -- The stop strategy is consulted even when the timeout has already fired.
    if (← stop.shouldStop state) || timeoutExceeded timeout postElapsed then
      hooks.onExit.call (.exhausted attempt postElapsed last)
      return .done (.error (.exhausted last)) (statsFor .exhausted)
    else
      let nextDelay ← wait.nextWait state
      let delay := clampDelay timeout postElapsed nextDelay
      return .continue_ delay (totalWait.saturatingAdd delay)

end Relentless
