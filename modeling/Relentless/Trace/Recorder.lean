import Relentless.Engine.Parametric
import Relentless.Trace.Event

/-!
# Two Recorders of One Run

Two recorders in different monads, for one configuration and the same one in another monad,
record the same calls.

- `Recorder.Agree` — what one recorder does with a computation, the other one does
- `Retry.related_recorded`, `AsyncRetry.related_recorded` — so they do with configurations
-/

namespace Relentless

variable {m m' m₁ m₂ : Type → Type} {R A O : Type} [Monad m₁] [Monad m₂] [Build m₁] [Build m₂]

/-- Two recorders do the same with the computations of `m` as those of `m'` do. -/
structure Recorder.Agree (T : MonadRel m₁ m₂) (lift : ∀ {α : Type}, m α → m' α)
    (rec₁ : Recorder m m₁ R A O) (rec₂ : Recorder m' m₂ R A O) : Prop where
  debugAssert : ∀ ok panic, T.rel (debugAssert ok panic : m₁ Unit) (debugAssert ok panic)
  lift : ∀ {α : Type} (x : m α), T.rel (rec₁.lift x) (rec₂.lift (lift x))
  record : ∀ event, T.rel (rec₁.record event) (rec₂.record event)

variable {T : MonadRel m₁ m₂} {lift : ∀ {α : Type}, m α → m' α} {rec₁ : Recorder m m₁ R A O}
  {rec₂ : Recorder m' m₂ R A O} {α Fut WaitFut : Type}

theorem Recorder.Agree.logged (h : Recorder.Agree T lift rec₁ rec₂) (event : α → Event R A O)
    (x : m α) : T.rel (rec₁.logged event x) (rec₂.logged event (lift x)) := by
  refine T.bind (h.lift x) fun answer => ?_
  exact T.bind (h.record _) fun _ => T.pure answer

theorem Recorder.Agree.announced (h : Recorder.Agree T lift rec₁ rec₂) (event : Event R A O)
    (x : m α) : T.rel (rec₁.announced event x) (rec₂.announced event (lift x)) :=
  T.bind (h.record event) fun _ => h.lift x

theorem HookSlot.related_recorded (h : Recorder.Agree T lift rec₁ rec₂)
    (event : ℕ → α → Event R A O) (slot : HookSlot m α) (view : α) :
    T.rel ((slot.recorded rec₁ event).call view)
      (((slot.into lift).recorded rec₂ event).call view) := by
  induction slot generalizing view with
  | unit => exact T.pure ()
  | chain first second ih =>
    refine HookSlot.related_chain ih (fun view => ?_) view
    rw [HookSlot.count_into]
    exact h.announced _ _

/-- **What one recorder does with a sync configuration**, the other does with the one in the
other monad. -/
theorem Retry.related_recorded (h : Recorder.Agree T lift rec₁ rec₂) (self : Retry m R A O) :
    Related T (self.recorded rec₁) ((self.into lift).recorded rec₂) where
  parts :=
    { debugAssert := h.debugAssert
      decide := fun _ => h.logged _ _
      shouldStop := fun _ => h.logged _ _
      nextWait := fun _ => h.logged _ _
      beforeAttempt := HookSlot.related_recorded h _ _
      afterAttempt := HookSlot.related_recorded h _ _
      onExit := HookSlot.related_recorded h _ _ }
  op _ := T.bind (h.record _) fun _ => h.logged _ _
  now := h.logged _ _
  wait _ := h.announced _ _
  timeout := rfl

/-- **What one recorder does with an async configuration**, the other does with the one in
the other monad. -/
theorem AsyncRetry.related_recorded (h : Recorder.Agree T lift rec₁ rec₂)
    (self : AsyncRetry m Fut WaitFut R A O) :
    Related T (self.recorded rec₁) ((self.into lift).recorded rec₂) where
  parts :=
    { debugAssert := h.debugAssert
      decide := fun _ => h.logged _ _
      shouldStop := fun _ => h.logged _ _
      nextWait := fun _ => h.logged _ _
      beforeAttempt := HookSlot.related_recorded h _ _
      afterAttempt := HookSlot.related_recorded h _ _
      onExit := HookSlot.related_recorded h _ _ }
  callOp _ := h.announced _ _
  poll _ _ := h.logged _ _
  now := h.logged _ _
  waitAsync _ := h.announced _ _
  pollWait _ _ := h.logged _ _
  wakeByRef _ := h.announced _ _
  timeout := rfl

end Relentless
