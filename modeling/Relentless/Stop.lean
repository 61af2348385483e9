import Relentless.State

/-!
# Stop Strategies

The `Stop` trait, the built-in strategies and the two composites.  A strategy
takes `&self` but may keep interior state, so consulting it is a computation.
Both composites consult both sides, in order, before combining the answers.
-/

namespace Relentless

/-- `Stop`: determines when the retry loop should give up. -/
structure Stop (m : Type → Type) where
  shouldStop : RetryState → m Bool

namespace Stop

variable {m : Type → Type} [Monad m]

/-- `StopAfterAttempts`, as `stop::attempts(max)` builds it for `max >= 1`. -/
def attempts (max : UInt32) : Stop m where
  shouldStop state := return decide (max ≤ state.attempt)

/-- `StopAfterElapsed`, built by `stop::elapsed(deadline)`. -/
def elapsed (deadline : Duration) : Stop m where
  shouldStop state := return decide (deadline ≤ state.elapsed)

/-- `StopNever`, built by `stop::never()`. -/
def never : Stop m where
  shouldStop _ := return false

/-- `StopAny`, built by `|` and `Stop::or`. -/
def any (left right : Stop m) : Stop m where
  shouldStop state := do
    let left ← left.shouldStop state
    let right ← right.shouldStop state
    return left || right

/-- `StopAll`, built by `&` and `Stop::and`. -/
def all (left right : Stop m) : Stop m where
  shouldStop state := do
    let left ← left.shouldStop state
    let right ← right.shouldStop state
    return left && right

end Stop

end Relentless
