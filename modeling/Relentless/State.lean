import Relentless.Duration
import Relentless.Library.Effect

/-!
# Retry State and Build Profile

The context handed to hooks, operations and strategies, and the reading that a
build profile gives to `debug_assert!`.

The engines are written once, over any monad that says what a failed
`debug_assert!` does.  In a release build (`Eff σ`) it does nothing; in a debug
build (`Fallible Panic σ`) it stops the execution with the panic.
-/

namespace Relentless

/-! ## §1 Panics and build profiles -/

/-- The panics the crate's own code can raise. -/
inductive Panic where
  /-- `RetryState::for_attempt` and `AttemptState::new` on attempt zero. -/
  | attemptIsOneIndexed
  /-- `Elapsed::read` on a reading below one already reported. -/
  | clockWentBackwards
  /-- `stop::attempts(0)`. -/
  | attemptsRequiresMax
  /-- `AsyncRun::poll` after it returned `Ready`. -/
  | polledAfterCompletion
  deriving DecidableEq

/-- What a build does with `debug_assert!`. -/
class Build (m : Type → Type) where
  debugAssert : Bool → Panic → m Unit

export Build (debugAssert)

/-- A release build drops debug assertions. -/
instance releaseBuild {σ : Type} : Build (Eff σ) where
  debugAssert _ _ := pure ()

/-- A debug build panics on a failed assertion. -/
instance debugBuild {σ : Type} : Build (Fallible Panic σ) where
  debugAssert ok panic := if ok then pure () else Fallible.raise panic

@[simp] theorem debugAssert_release {σ : Type} (ok : Bool) (p : Panic) (w : σ) :
    (debugAssert ok p : Eff σ Unit) w = ((), w) := rfl

@[simp] theorem debugAssert_debug_true {σ : Type} (p : Panic) :
    (debugAssert true p : Fallible Panic σ Unit) = pure () := rfl

@[simp] theorem debugAssert_debug_false {σ : Type} (p : Panic) :
    (debugAssert false p : Fallible Panic σ Unit) = Fallible.raise p := rfl

/-! ## §2 Retry state -/

/-- `RetryState`: the outcome-free context of an attempt. -/
structure RetryState where
  attempt : UInt32
  elapsed : Duration
  previousDelay : Option Duration
  deriving DecidableEq

/-- `AttemptState`: the context of a completed attempt with its raw outcome. -/
structure AttemptState (O : Type) where
  attempt : UInt32
  elapsed : Duration
  outcome : O
  deriving DecidableEq

section Constructors

variable {m : Type → Type} [Monad m] [Build m]

/-- `RetryState::for_attempt`. -/
def RetryState.forAttempt (attempt : UInt32) : m RetryState := do
  debugAssert (decide (1 ≤ attempt)) .attemptIsOneIndexed
  return { attempt, elapsed := .zero, previousDelay := none }

/-- `RetryState::with_elapsed`. -/
def RetryState.withElapsed (state : RetryState) (elapsed : Duration) : RetryState :=
  { state with elapsed }

/-- `RetryState::with_previous_delay`. -/
def RetryState.withPreviousDelay (state : RetryState) (previousDelay : Option Duration) :
    RetryState :=
  { state with previousDelay }

/-- `AttemptState::new`. -/
def AttemptState.new {O : Type} (attempt : UInt32) (elapsed : Duration) (outcome : O) :
    m (AttemptState O) := do
  debugAssert (decide (1 ≤ attempt)) .attemptIsOneIndexed
  return { attempt, elapsed, outcome }

end Constructors

@[simp] theorem RetryState.forAttempt_release {σ : Type} (attempt : UInt32) (w : σ) :
    (RetryState.forAttempt attempt : Eff σ RetryState) w =
      ({ attempt, elapsed := .zero, previousDelay := none }, w) := rfl

@[simp] theorem AttemptState.new_release {σ O : Type} (attempt : UInt32) (elapsed : Duration)
    (outcome : O) (w : σ) :
    (AttemptState.new attempt elapsed outcome : Eff σ (AttemptState O)) w =
      ({ attempt, elapsed, outcome }, w) := rfl

theorem RetryState.forAttempt_debug {σ : Type} {attempt : UInt32} (h : 1 ≤ attempt) :
    (RetryState.forAttempt attempt : Fallible Panic σ RetryState) =
      pure { attempt, elapsed := .zero, previousDelay := none } := by
  unfold RetryState.forAttempt
  rw [decide_eq_true h]
  rfl

theorem AttemptState.new_debug {σ O : Type} {attempt : UInt32} (h : 1 ≤ attempt)
    (elapsed : Duration) (outcome : O) :
    (AttemptState.new attempt elapsed outcome : Fallible Panic σ (AttemptState O)) =
      pure { attempt, elapsed, outcome } := by
  unfold AttemptState.new
  rw [decide_eq_true h]
  rfl

end Relentless
