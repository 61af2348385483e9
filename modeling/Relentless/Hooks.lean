import Relentless.Engine.Termination

/-!
# Hook Slots

The three hook slots an execution carries.  A slot starts as `()` and every
registration wraps it in a `HookChain`, so a slot is a left-nested chain of the
registered closures and dispatch runs them in registration order.
-/

namespace Relentless

/-- A hook slot: `()`, or a `HookChain` of an earlier slot and one closure. -/
inductive HookSlot (m : Type → Type) (α : Type) where
  | unit
  | chain (first : HookSlot m α) (second : α → m Unit)

namespace HookSlot

variable {m : Type → Type} {α : Type}

/-- Dispatch to every hook of the slot. -/
def call [Monad m] : HookSlot m α → α → m Unit
  | .unit, _ => pure ()
  | .chain first second, view => do
    first.call view
    second view

/-- The number of registered hooks. -/
def count : HookSlot m α → ℕ
  | .unit => 0
  | .chain first _ => first.count + 1

end HookSlot

/-- `ExecutionHooks`: the three slots carried by the builder. -/
structure ExecutionHooks (m : Type → Type) (R A O : Type) where
  beforeAttempt : HookSlot m RetryState
  afterAttempt : HookSlot m (AttemptState O)
  onExit : HookSlot m (Exit R A O)

namespace ExecutionHooks

variable {m : Type → Type} {R A O : Type}

/-- `ExecutionHooks::new`. -/
def new : ExecutionHooks m R A O :=
  { beforeAttempt := .unit, afterAttempt := .unit, onExit := .unit }

/-- `ExecutionHooks::chain_before_attempt`. -/
def chainBeforeAttempt (self : ExecutionHooks m R A O) (hook : RetryState → m Unit) :
    ExecutionHooks m R A O :=
  { self with beforeAttempt := .chain self.beforeAttempt hook }

/-- `ExecutionHooks::chain_after_attempt`. -/
def chainAfterAttempt (self : ExecutionHooks m R A O) (hook : AttemptState O → m Unit) :
    ExecutionHooks m R A O :=
  { self with afterAttempt := .chain self.afterAttempt hook }

/-- `ExecutionHooks::chain_on_exit`. -/
def chainOnExit (self : ExecutionHooks m R A O) (hook : Exit R A O → m Unit) :
    ExecutionHooks m R A O :=
  { self with onExit := .chain self.onExit hook }

end ExecutionHooks

end Relentless
