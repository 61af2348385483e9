import Mathlib.Logic.Function.Basic
import Relentless.Library.Effect

/-!
# Classification of Outcomes

The outcome-classification layer: the three-way `Verdict` a classifier gives to
a completed outcome, the default classification of the standard outcome shapes,
the predicate adapters `.when` and `.until`, and the predicate factories.

- `Outcome` — outcome types that classify themselves
- `Decide` — the classifier slot of an engine
- `When`, `Until` — classifiers built from a `Predicate`
-/

namespace Relentless

/-! ## §1 Decisions and verdicts -/

/-- `Decision`: accept an outcome or try again. -/
inductive Decision (R O : Type) where
  | return_ (value : R)
  | retry (outcome : O)
  deriving DecidableEq

/-- `Verdict`: accept an outcome, retry it, or abort. -/
inductive Verdict (R A O : Type) where
  | return_ (value : R)
  | retry (outcome : O)
  | abort (payload : A)
  deriving DecidableEq

/-- `core::ops::ControlFlow`. -/
inductive ControlFlow (B C : Type) where
  | continue_ (value : C)
  | break_ (value : B)
  deriving DecidableEq

/-- `Outcome`: a type that classifies itself. -/
class Outcome (O : Type) (R A : outParam Type) where
  classify : O → Verdict R A O

/-- `Ok` returns, any `Err` retries. -/
instance {T E : Type} : Outcome (Except E T) T E where
  classify
    | .ok value => .return_ value
    | .error error => .retry (.error error)

/-- `Some` returns, `None` retries. -/
instance {T : Type} : Outcome (Option T) T Empty where
  classify
    | some value => .return_ value
    | none => .retry none

/-- `Break` returns, `Continue` retries. -/
instance {B C : Type} : Outcome (ControlFlow B C) B Empty where
  classify
    | .break_ value => .return_ value
    | .continue_ value => .retry (.continue_ value)

/-! ## §2 Classifiers -/

/-- `Decide`: the classifier slot of an engine. -/
structure Decide (m : Type → Type) (R A O : Type) where
  decide : O → m (Verdict R A O)

section Classifiers

variable {m : Type → Type} [Monad m]

/-- `DefaultClassifier`: the outcome type classifies itself. -/
def DefaultClassifier {O R A : Type} [Outcome O R A] : Decide m R A O where
  decide outcome := return Outcome.classify outcome

/-- `IntoDecision::into_verdict` for `Decision`. -/
def Decision.intoVerdict {R O : Type} : Decision R O → Verdict R Empty O
  | .return_ value => .return_ value
  | .retry outcome => .retry outcome

/-- `ClosureClassifier` over a closure that answers with a `Verdict`. -/
def ClosureClassifier {O R A : Type} (closure : O → m (Verdict R A O)) : Decide m R A O where
  decide outcome := closure outcome

/-- `ClosureClassifier` over a closure that answers with a `Decision`. -/
def ClosureClassifier.ofDecision {O R : Type} (closure : O → m (Decision R O)) :
    Decide m R Empty O where
  decide outcome := return (← closure outcome).intoVerdict

end Classifiers

/-! ## §3 Predicates -/

/-- `Predicate`: `shouldRetry` examines a borrowed `Result`. -/
structure Predicate (m : Type → Type) (T E : Type) where
  shouldRetry : Except E T → m Bool

section Predicates

variable {m : Type → Type} [Monad m] {T E : Type}

namespace Predicate

/-- `predicate::any_error`. -/
def anyError : Predicate m T E where
  shouldRetry
    | .ok _ => return false
    | .error _ => return true

/-- `predicate::error`. -/
def error (matcher : E → m Bool) : Predicate m T E where
  shouldRetry
    | .ok _ => return false
    | .error error => matcher error

/-- `predicate::result`. -/
def result (matcher : Except E T → m Bool) : Predicate m T E where
  shouldRetry outcome := matcher outcome

/-- `predicate::ok`. -/
def ok (matcher : T → m Bool) : Predicate m T E where
  shouldRetry
    | .ok value => matcher value
    | .error _ => return false

end Predicate

/-- `When`: retry while the predicate wants to, otherwise accept. -/
def When (predicate : Predicate m T E) : Decide m T E (Except E T) where
  decide outcome := do
    if ← predicate.shouldRetry outcome then
      return .retry outcome
    else
      match outcome with
      | .ok value => return .return_ value
      | .error error => return .abort error

/-- `Until`: retry until the predicate is satisfied, then accept. -/
def Until (predicate : Predicate m T E) : Decide m T E (Except E T) where
  decide outcome := do
    if ← predicate.shouldRetry outcome then
      match outcome with
      | .ok value => return .return_ value
      | .error error => return .abort error
    else
      return .retry outcome

end Predicates

end Relentless
