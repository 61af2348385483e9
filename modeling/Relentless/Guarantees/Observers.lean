import Relentless.Engine.AsyncTwin
import Relentless.Engine.Coupled
import Relentless.Trace.Recorder

/-!
# Hooks Only Observe

Hooks that are registered after all others, and that have a state of their own: nothing that
a run does, and nothing that it returns, depends on them.

- `HookSlot.append` — hooks that are registered after others
- `Retry.observed`, `AsyncRetry.observed` — a configuration with such hooks
- `Event.isRegistered` — the calls that are made without them
- `hooks_only_observe` — runs with and without them
-/

namespace Relentless

open StateLoop
open Eff (Couples Part)

variable {σ τ α R A O Fut WaitFut : Type}

/-! ## §1 Observers -/

/-- The hooks of two slots, those of the second one registered last. -/
def HookSlot.append {m : Type → Type} (slot : HookSlot m α) : HookSlot m α → HookSlot m α
  | .unit => slot
  | .chain first second => .chain (slot.append first) second

@[simp] theorem HookSlot.count_append {m : Type → Type} (slot slot' : HookSlot m α) :
    (slot.append slot').count = slot.count + slot'.count := by
  induction slot' with
  | unit => rfl
  | chain first second ih => exact congrArg (· + 1) ih

/-- Hooks on the left, followed by observers on the right. -/
def HookSlot.observed (slot : HookSlot (Eff σ) α) (observers : HookSlot (Eff τ) α) :
    HookSlot (Eff (σ × τ)) α :=
  (slot.into Part.left.run).append (observers.into Part.right.run)

/-- The left part of the world is what it is without the observers. -/
theorem HookSlot.call_observed (slot : HookSlot (Eff σ) α) (observers : HookSlot (Eff τ) α)
    (view : α) (w : σ × τ) :
    ((slot.observed observers).call view w).2.1 = (slot.call view w.1).2 := by
  induction observers with
  | chain first second ih => exact ih
  | unit =>
    have hcouples : Couples (fun w (w' : σ × τ) => w'.1 = w) Eq (slot.call view)
        ((slot.into Part.left.run).call view) :=
      HookSlot.couples_into Part.left.couples slot view
    exact (hcouples w.1 w rfl).2

/-- All three slots, with observers. -/
def ExecutionHooks.observed (hooks : ExecutionHooks (Eff σ) R A O)
    (observers : ExecutionHooks (Eff τ) R A O) : ExecutionHooks (Eff (σ × τ)) R A O where
  beforeAttempt := hooks.beforeAttempt.observed observers.beforeAttempt
  afterAttempt := hooks.afterAttempt.observed observers.afterAttempt
  onExit := hooks.onExit.observed observers.onExit

/-- A sync configuration with observers. -/
def Retry.observed (self : Retry (Eff σ) R A O) (observers : ExecutionHooks (Eff τ) R A O) :
    Retry (Eff (σ × τ)) R A O :=
  { self.into Part.left.run with hooks := self.hooks.observed observers }

/-- An async configuration with observers. -/
def AsyncRetry.observed (self : AsyncRetry (Eff σ) Fut WaitFut R A O)
    (observers : ExecutionHooks (Eff τ) R A O) : AsyncRetry (Eff (σ × τ)) Fut WaitFut R A O :=
  { self.into Part.left.run with hooks := self.hooks.observed observers }

/-! ## §2 Calls with and without them -/

/-- The event is no call of a hook beyond those that are registered. -/
def Event.isRegistered (hooks : ExecutionHooks (Eff σ) R A O) : Event R A O → Bool
  | .beforeAttempt hook _ => hook < hooks.beforeAttempt.count
  | .afterAttempt hook _ => hook < hooks.afterAttempt.count
  | .onExit hook _ => hook < hooks.onExit.count
  | _ => true

/-- The same world on the left, and the same calls but those of the observers. -/
def Observes (hooks : ExecutionHooks (Eff σ) R A O) (t : Traced σ R A O)
    (t' : Traced (σ × τ) R A O) : Prop :=
  t.world = t'.world.1 ∧ t.log = t'.log.filter (Event.isRegistered hooks)

section Parts

variable {hooks : ExecutionHooks (Eff σ) R A O}

theorem couples_onWorld_observes (x : Eff σ α) :
    Couples (Observes (τ := τ) hooks) Eq (onWorld x) (onWorld (Part.left.run x)) := by
  rintro ⟨w, log⟩ ⟨⟨_, u⟩, log'⟩ ⟨rfl, hlog⟩
  exact ⟨rfl, rfl, hlog⟩

theorem couples_record_observes {event : Event R A O} (h : event.isRegistered hooks = true) :
    Couples (Observes (τ := τ) hooks) Eq (record event) (record event) := by
  rintro ⟨w, log⟩ ⟨⟨_, u⟩, log'⟩ ⟨hworld, hlog⟩
  refine ⟨rfl, hworld, ?_⟩
  show log ++ [event] = (log' ++ [event]).filter _
  rw [List.filter_append, List.filter_cons_of_pos h, List.filter_nil]
  exact congrArg (· ++ [event]) hlog

theorem couples_logged_observes {event : α → Event R A O} (x : Eff σ α)
    (h : ∀ answer, (event answer).isRegistered hooks = true) :
    Couples (Observes (τ := τ) hooks) Eq (logged event x) (logged event (Part.left.run x)) :=
  (couples_onWorld_observes x).bind_same fun answer =>
    (couples_record_observes (h answer)).bind_same fun _ => Couples.pure rfl

/-- A dispatch to one slot: the observers come after the hooks that are registered. -/
theorem couples_hooks_observes {event : ℕ → α → Event R A O} (slot : HookSlot (Eff σ) α)
    (observers : HookSlot (Eff τ) α)
    (h : ∀ hook view, (event hook view).isRegistered hooks = decide (hook < slot.count))
    (view : α) :
    Couples (Observes hooks) Eq ((slot.recorded .traced event).call view)
      (((slot.observed observers).recorded .traced event).call view) := by
  rintro ⟨w, log⟩ ⟨⟨_, u⟩, log'⟩ ⟨rfl, hlog⟩
  rw [HookSlot.recorded_call, HookSlot.recorded_call]
  refine ⟨rfl, (slot.call_observed observers view (w, u)).symm, ?_⟩
  have hcount : (slot.observed observers).count = slot.count + observers.count := by
    rw [HookSlot.observed, HookSlot.count_append, HookSlot.count_into, HookSlot.count_into]
  have hkept : ∀ ev ∈ hookEvents slot.count event view, ev.isRegistered hooks = true := by
    intro ev hev
    obtain ⟨hook, hlt, rfl⟩ := mem_hookEvents.mp hev
    rw [h hook view]
    exact decide_eq_true hlt
  have hdropped : ∀ ev ∈ (List.range observers.count).map
      (fun hook => event (slot.count + hook) view), ¬ev.isRegistered hooks = true := by
    intro ev hev
    obtain ⟨hook, -, rfl⟩ := List.mem_map.mp hev
    rw [h, decide_eq_true_iff]
    exact Nat.not_lt.mpr (Nat.le_add_right _ _)
  have hevents : hookEvents (slot.observed observers).count event view =
      hookEvents slot.count event view ++
        (List.range observers.count).map fun hook => event (slot.count + hook) view := by
    rw [hookEvents, hookEvents, hcount, List.range_add, List.map_append, List.map_map]
    rfl
  show log ++ _ = (log' ++ _).filter _
  rw [hevents, List.filter_append, List.filter_append, List.filter_eq_self.mpr hkept,
    List.filter_eq_nil_iff.mpr hdropped, List.append_nil]
  exact congrArg (· ++ _) hlog

end Parts

/-! ## §3 Both engines -/

section Step

variable {classifier : Decide (Eff σ) R A O} {stop : Stop (Eff σ)} {wait : Wait (Eff σ)}
  {hooks : ExecutionHooks (Eff σ) R A O}

theorem Retry.related_observed (self : Retry (Eff σ) R A O)
    (observers : ExecutionHooks (Eff τ) R A O) :
    Related (.couples (Observes self.hooks)) self.traced (self.observed observers).traced where
  parts :=
    { debugAssert := fun _ _ _ _ hworlds => ⟨rfl, hworlds⟩
      decide := fun _ => couples_logged_observes _ fun _ => rfl
      shouldStop := fun _ => couples_logged_observes _ fun _ => rfl
      nextWait := fun _ => couples_logged_observes _ fun _ => rfl
      beforeAttempt := couples_hooks_observes _ _ fun _ _ => rfl
      afterAttempt := couples_hooks_observes _ _ fun _ _ => rfl
      onExit := couples_hooks_observes _ _ fun _ _ => rfl }
  op state := (couples_record_observes rfl).bind_same fun _ =>
    couples_logged_observes (self.op state) fun _ => rfl
  now := couples_logged_observes self.clock.now fun _ => rfl
  wait delay := (couples_record_observes rfl).bind_same fun _ =>
    couples_onWorld_observes (self.clock.wait delay)
  timeout := rfl

theorem AsyncRetry.related_observed (self : AsyncRetry (Eff σ) Fut WaitFut R A O)
    (observers : ExecutionHooks (Eff τ) R A O) :
    Related (.couples (Observes self.hooks)) self.traced (self.observed observers).traced where
  parts :=
    { debugAssert := fun _ _ _ _ hworlds => ⟨rfl, hworlds⟩
      decide := fun _ => couples_logged_observes _ fun _ => rfl
      shouldStop := fun _ => couples_logged_observes _ fun _ => rfl
      nextWait := fun _ => couples_logged_observes _ fun _ => rfl
      beforeAttempt := couples_hooks_observes _ _ fun _ _ => rfl
      afterAttempt := couples_hooks_observes _ _ fun _ _ => rfl
      onExit := couples_hooks_observes _ _ fun _ _ => rfl }
  callOp state := (couples_record_observes rfl).bind_same fun _ =>
    couples_onWorld_observes (self.op.callOp state)
  poll future cx := couples_logged_observes (self.op.poll future cx) fun answer => by
    obtain ⟨value, future'⟩ := answer
    cases value <;> rfl
  now := couples_logged_observes self.clock.now fun _ => rfl
  waitAsync delay := (couples_record_observes rfl).bind_same fun _ =>
    couples_onWorld_observes (self.clock.waitAsync delay)
  pollWait future cx := couples_logged_observes (self.clock.pollWait future cx) fun answer => by
    obtain ⟨value, future'⟩ := answer
    cases value <;> rfl
  wakeByRef cx := (couples_record_observes rfl).bind_same fun _ =>
    couples_onWorld_observes (self.wakeByRef cx)
  timeout := rfl

end Step

/-- **Hooks only observe.**  With further hooks that have a state of their own, a run of either
engine returns the same result and the same statistics, poll by poll, leaves the same world,
and makes the same calls, with the same arguments, besides those of these hooks. -/
theorem hooks_only_observe (w₀ : σ) (u₀ : τ) (observers : ExecutionHooks (Eff τ) R A O) :
    (∀ (self : Retry (Eff σ) R A O) (n : ℕ),
      let run := self.traced.runFor n ⟨w₀, []⟩
      let run' := (self.observed observers).traced.runFor n ⟨(w₀, u₀), []⟩
      run'.1 = run.1 ∧ run'.2.world.1 = run.2.world ∧
        run'.2.log.filter (Event.isRegistered self.hooks) = run.2.log) ∧
    ∀ (self : AsyncRetry (Eff σ) Fut WaitFut R A O) (cxs : ℕ → Context) (fuel : ℕ → ℕ) (j : ℕ),
      let polls := self.traced.drive cxs fuel j ⟨w₀, []⟩
      let polls' := (self.observed observers).traced.drive cxs fuel j ⟨(w₀, u₀), []⟩
      polls'.1 = polls.1 ∧ polls'.2.world.1 = polls.2.world ∧
        polls'.2.log.filter (Event.isRegistered self.hooks) = polls.2.log := by
  constructor
  · intro self n run run'
    obtain ⟨hanswer, hworld, hlog⟩ :=
      (self.related_observed observers).runFor n ⟨w₀, []⟩ ⟨(w₀, u₀), []⟩ ⟨rfl, rfl⟩
    exact ⟨hanswer.symm, hworld.symm, hlog.symm⟩
  · intro self cxs fuel j polls polls'
    obtain ⟨hanswer, hworld, hlog⟩ :=
      (self.related_observed observers).drive cxs fuel j ⟨w₀, []⟩ ⟨(w₀, u₀), []⟩ ⟨rfl, rfl⟩
    exact ⟨hanswer.symm, hworld.symm, hlog.symm⟩

end Relentless
