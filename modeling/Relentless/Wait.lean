import Relentless.State

/-!
# Wait Strategies

The `Wait` trait as the engines consult it, and the clamp to a remaining
timeout budget.
-/

namespace Relentless

/-- `Wait`: computes the delay before the next attempt. -/
structure Wait (m : Type → Type) where
  nextWait : RetryState → m Duration

end Relentless
