import Mathlib.Logic.Function.Basic
import Relentless.Engine.AsyncTwin
import Relentless.Library.Writes
import Relentless.Policy

/-!
# Builder Chains

What a chain of builder calls configures: in every slot the last value set on the builder,
else the last one set on the policy, else the default; at every hook point the registered
hooks, in order; and nothing else matters, the order of the other calls included.

- `Slots` — what a builder holds besides its operation; `Slots.set` — one method call
- `Slots.chosen` — what a chain of calls should lead to
- `BuilderCall.slots_sync`, `BuilderCall.slots_async` — the methods do what `Slots.set` says
- `builder_chains` — the law of the chains
-/

namespace Relentless

open Writes

variable {m : Type → Type} {Fut R A O : Type}

/-! ## §1 Hook chains -/

namespace HookSlot

variable {α : Type}

/-- The registered hooks, in registration order. -/
def hooks : HookSlot m α → List (α → m Unit)
  | .unit => []
  | .chain first second => first.hooks ++ [second]

/-- **Dispatch through a nested chain** calls every registered hook once, in order. -/
theorem call_eq_forM [Monad m] [LawfulMonad m] (slot : HookSlot m α) (view : α) :
    slot.call view = slot.hooks.forM fun hook => hook view := by
  induction slot with
  | unit => rfl
  | chain first second ih => simp [call, hooks, ih]

/-- A slot is its list of hooks. -/
theorem hooks_injective : Function.Injective (hooks : HookSlot m α → List (α → m Unit)) := by
  intro slot slot' h
  induction slot generalizing slot' with
  | unit =>
    cases slot' with
    | unit => rfl
    | chain first second => simp [hooks] at h
  | chain first second ih =>
    cases slot' with
    | unit => simp [hooks] at h
    | chain first' second' =>
      -- The hook registered last is the last of the list.
      obtain ⟨hfirst, hsecond⟩ := List.append_inj' h rfl
      rw [ih hfirst, List.singleton_inj.mp hsecond]

end HookSlot

theorem ExecutionHooks.eq_of_hooks {hooks hooks' : ExecutionHooks m R A O}
    (hbefore : hooks.beforeAttempt.hooks = hooks'.beforeAttempt.hooks)
    (hafter : hooks.afterAttempt.hooks = hooks'.afterAttempt.hooks)
    (hexit : hooks.onExit.hooks = hooks'.onExit.hooks) : hooks = hooks' := by
  obtain ⟨before, after, exit⟩ := hooks
  obtain ⟨before', after', exit'⟩ := hooks'
  obtain rfl : before = before' := HookSlot.hooks_injective hbefore
  obtain rfl : after = after' := HookSlot.hooks_injective hafter
  obtain rfl : exit = exit' := HookSlot.hooks_injective hexit
  rfl

/-! ## §2 Slots -/

/-- What a builder holds besides its operation, the hooks as lists. -/
@[ext]
structure Slots (m : Type → Type) (Clk : Type*) (R A O : Type) where
  classifier : ClassifierSlot m O
  stop : Stop m
  wait : Wait m
  clock : ClockSlot Clk
  timeout : Option Duration
  beforeAttempt : List (RetryState → m Unit)
  afterAttempt : List (AttemptState O → m Unit)
  onExit : List (Exit R A O → m Unit)

def RetryBuilder.slots (self : RetryBuilder m R A O) : Slots m (SyncClock m) R A O where
  classifier := self.classifier
  stop := self.stop
  wait := self.wait
  clock := self.clock
  timeout := self.timeout
  beforeAttempt := self.hooks.beforeAttempt.hooks
  afterAttempt := self.hooks.afterAttempt.hooks
  onExit := self.hooks.onExit.hooks

def AsyncRetryBuilder.slots (self : AsyncRetryBuilder m Fut R A O) :
    Slots m (AnyAsyncClock m) R A O where
  classifier := self.classifier
  stop := self.stop
  wait := self.wait
  clock := self.clock
  timeout := self.timeout
  beforeAttempt := self.hooks.beforeAttempt.hooks
  afterAttempt := self.hooks.afterAttempt.hooks
  onExit := self.hooks.onExit.hooks

/-- A builder is its operation and its slots. -/
theorem RetryBuilder.eq_of_slots {self other : RetryBuilder m R A O} (hop : self.op = other.op)
    (hslots : self.slots = other.slots) : self = other := by
  have hhooks : self.hooks = other.hooks :=
    ExecutionHooks.eq_of_hooks (congrArg Slots.beforeAttempt hslots)
      (congrArg Slots.afterAttempt hslots) (congrArg Slots.onExit hslots)
  obtain ⟨op, classifier, stop, wait, clock, hooks, timeout⟩ := self
  obtain ⟨op', classifier', stop', wait', clock', hooks', timeout'⟩ := other
  obtain ⟨rfl, rfl, rfl, rfl, rfl, -⟩ := Slots.mk.inj hslots
  obtain rfl : op = op' := hop
  obtain rfl : hooks = hooks' := hhooks
  rfl

theorem AsyncRetryBuilder.eq_of_slots {self other : AsyncRetryBuilder m Fut R A O}
    (hop : self.op = other.op) (hslots : self.slots = other.slots) : self = other := by
  have hhooks : self.hooks = other.hooks :=
    ExecutionHooks.eq_of_hooks (congrArg Slots.beforeAttempt hslots)
      (congrArg Slots.afterAttempt hslots) (congrArg Slots.onExit hslots)
  obtain ⟨op, classifier, stop, wait, clock, hooks, timeout⟩ := self
  obtain ⟨op', classifier', stop', wait', clock', hooks', timeout'⟩ := other
  obtain ⟨rfl, rfl, rfl, rfl, rfl, -⟩ := Slots.mk.inj hslots
  obtain rfl : op = op' := hop
  obtain rfl : hooks = hooks' := hhooks
  rfl

/-! ## §3 What a call is about -/

section Calls

variable {Clk Clk' : Type*}

/-- The clock slot, with another form of its clock. -/
def ClockSlot.map (f : Clk → Clk') : ClockSlot Clk → ClockSlot Clk'
  | .systemClock => .systemClock
  | .of clock => .of (f clock)

/-- The slots and the hook points. -/
inductive SlotName where
  | classifier | stop | wait | clock | timeout | beforeAttempt | afterAttempt | onExit
  deriving DecidableEq

namespace BuilderCall

/-- What a call sets a slot to, if it sets that slot. -/
def stop? : BuilderCall m Clk R A O → Option (Stop m)
  | .stop newStop => some newStop
  | _ => none

def wait? : BuilderCall m Clk R A O → Option (Wait m)
  | .wait newWait => some newWait
  | _ => none

def clock? : BuilderCall m Clk R A O → Option (ClockSlot Clk)
  | .clock newClock => some newClock
  | _ => none

def timeout? : BuilderCall m Clk R A O → Option (Option Duration)
  | .timeout dur => some (some dur)
  | _ => none

/-- The hook that a call registers at a hook point, if it registers one there. -/
def beforeAttempt? : BuilderCall m Clk R A O → Option (RetryState → m Unit)
  | .beforeAttempt hook => some hook
  | _ => none

def afterAttempt? : BuilderCall m Clk R A O → Option (AttemptState O → m Unit)
  | .afterAttempt hook => some hook
  | _ => none

def onExit? : BuilderCall m Clk R A O → Option (Exit R A O → m Unit)
  | .onExit hook => some hook
  | _ => none

/-- The slot, or the hook point, of a call. -/
def slot : BuilderCall m Clk R A O → SlotName
  | .stop _ => .stop
  | .wait _ => .wait
  | .clock _ => .clock
  | .timeout _ => .timeout
  | .classify _ => .classifier
  | .beforeAttempt _ => .beforeAttempt
  | .afterAttempt _ => .afterAttempt
  | .onExit _ => .onExit

/-- The same call, with another form of the clock. -/
def mapClock (f : Clk → Clk') : BuilderCall m Clk R A O → BuilderCall m Clk' R A O
  | .stop newStop => .stop newStop
  | .wait newWait => .wait newWait
  | .clock newClock => .clock (newClock.map f)
  | .timeout dur => .timeout dur
  | .classify call => .classify call
  | .beforeAttempt hook => .beforeAttempt hook
  | .afterAttempt hook => .afterAttempt hook
  | .onExit hook => .onExit hook

end BuilderCall

namespace PolicyCall

def stop? : PolicyCall m O → Option (Stop m)
  | .stop newStop => some newStop
  | _ => none

def wait? : PolicyCall m O → Option (Wait m)
  | .wait newWait => some newWait
  | _ => none

def timeout? : PolicyCall m O → Option (Option Duration)
  | .timeout dur => some (some dur)
  | _ => none

/-- The slot of a call; boxing sets none. -/
def slot : PolicyCall m O → Option SlotName
  | .stop _ => some .stop
  | .wait _ => some .wait
  | .timeout _ => some .timeout
  | .classify _ => some .classifier
  | .boxed | .boxedLocal => none

end PolicyCall

end Calls

variable [Monad m]

/-- The classifier that a call installs. -/
def ClassifierCall.slot : {O : Type} → ClassifierCall m O → ClassifierSlot m O
  | _, .decide closure => .of closure.classifier
  | _, .when_ predicate => .of (When predicate)
  | _, .until_ predicate => .of (Until predicate)

def BuilderCall.classifier? {Clk : Type*} :
    BuilderCall m Clk R A O → Option (ClassifierSlot m O)
  | .classify call => some call.slot
  | _ => none

def PolicyCall.classifier? : PolicyCall m O → Option (ClassifierSlot m O)
  | .classify call => some call.slot
  | _ => none

/-! ## §4 One call -/

section Set

variable {Clk : Type*}

/-- A method call sets one slot, or adds one hook. -/
def Slots.set (slots : Slots m Clk R A O) : BuilderCall m Clk R A O → Slots m Clk R A O
  | .stop newStop => { slots with stop := newStop }
  | .wait newWait => { slots with wait := newWait }
  | .clock newClock => { slots with clock := newClock }
  | .timeout dur => { slots with timeout := some dur }
  | .classify call => { slots with classifier := call.slot }
  | .beforeAttempt hook => { slots with beforeAttempt := slots.beforeAttempt ++ [hook] }
  | .afterAttempt hook => { slots with afterAttempt := slots.afterAttempt ++ [hook] }
  | .onExit hook => { slots with onExit := slots.onExit ++ [hook] }

end Set

/-- **Every method of `Retry` sets its slot and keeps all others**, the operation included. -/
theorem BuilderCall.slots_sync (self : RetryBuilder m R A O)
    (call : BuilderCall m (SyncClock m) R A O) :
    (call.sync self).slots = self.slots.set call ∧ (call.sync self).op = self.op := by
  -- Method by method; the three classifier methods all go through `with_classifier`.
  cases call with
  | classify call => cases call <;> exact ⟨rfl, rfl⟩
  | _ => exact ⟨rfl, rfl⟩

/-- **And so does every method of `AsyncRetry`.** -/
theorem BuilderCall.slots_async (self : AsyncRetryBuilder m Fut R A O)
    (call : BuilderCall m (AnyAsyncClock m) R A O) :
    (call.async self).slots = self.slots.set call ∧ (call.async self).op = self.op := by
  cases call with
  | classify call => cases call <;> exact ⟨rfl, rfl⟩
  | _ => exact ⟨rfl, rfl⟩

/-! ## §5 Chains of calls -/

section Chosen

variable {Clk Clk' : Type*}

/-- What a chain chooses: in every slot the last value set on the builder, else the last one
set on the policy, else the default; and the hooks that were registered, in order. -/
def Slots.chosen (policyCalls : List (PolicyCall m O)) (calls : List (BuilderCall m Clk R A O)) :
    Slots m Clk R A O where
  classifier := last BuilderCall.classifier? calls
    (last PolicyCall.classifier? policyCalls .default_)
  stop := last BuilderCall.stop? calls (last PolicyCall.stop? policyCalls Defaults.stop)
  wait := last BuilderCall.wait? calls (last PolicyCall.wait? policyCalls Defaults.wait)
  clock := last BuilderCall.clock? calls .systemClock
  timeout := last BuilderCall.timeout? calls (last PolicyCall.timeout? policyCalls none)
  beforeAttempt := calls.filterMap BuilderCall.beforeAttempt?
  afterAttempt := calls.filterMap BuilderCall.afterAttempt?
  onExit := calls.filterMap BuilderCall.onExit?

/-- The slots after some calls, from the slots before them. -/
theorem Slots.foldl_set (calls : List (BuilderCall m Clk R A O)) (slots : Slots m Clk R A O) :
    calls.foldl set slots =
      { classifier := last BuilderCall.classifier? calls slots.classifier
        stop := last BuilderCall.stop? calls slots.stop
        wait := last BuilderCall.wait? calls slots.wait
        clock := last BuilderCall.clock? calls slots.clock
        timeout := last BuilderCall.timeout? calls slots.timeout
        beforeAttempt := slots.beforeAttempt ++ calls.filterMap BuilderCall.beforeAttempt?
        afterAttempt := slots.afterAttempt ++ calls.filterMap BuilderCall.afterAttempt?
        onExit := slots.onExit ++ calls.filterMap BuilderCall.onExit? } := by
  apply Slots.ext
  -- Five slots are overwritten, ...
  · exact foldl_last (fun _ call => by cases call <;> rfl) calls slots
  · exact foldl_last (fun _ call => by cases call <;> rfl) calls slots
  · exact foldl_last (fun _ call => by cases call <;> rfl) calls slots
  · exact foldl_last (fun _ call => by cases call <;> rfl) calls slots
  · exact foldl_last (fun _ call => by cases call <;> rfl) calls slots
  -- ... and three hook points are added to.
  · exact foldl_gather (fun _ call => by cases call <;> simp [set, BuilderCall.beforeAttempt?])
      calls slots
  · exact foldl_gather (fun _ call => by cases call <;> simp [set, BuilderCall.afterAttempt?])
      calls slots
  · exact foldl_gather (fun _ call => by cases call <;> simp [set, BuilderCall.onExit?])
      calls slots

/-- Calls to different slots commute. -/
theorem Slots.set_comm (slots : Slots m Clk R A O) (a b : BuilderCall m Clk R A O)
    (h : a.slot ≠ b.slot) : (slots.set a).set b = (slots.set b).set a := by
  -- Two calls to one slot are excluded; two to different slots write different fields.
  cases a <;> cases b <;> first | rfl | exact absurd rfl h

/-- A chain is a fold of its calls, over what the policy and the defaults give. -/
theorem Slots.chosen_eq_foldl (policyCalls : List (PolicyCall m O))
    (calls : List (BuilderCall m Clk R A O)) :
    chosen policyCalls calls = calls.foldl set (chosen policyCalls []) := by
  rw [foldl_set]
  rfl

def Slots.mapClock (f : Clk → Clk') (slots : Slots m Clk R A O) : Slots m Clk' R A O where
  classifier := slots.classifier
  stop := slots.stop
  wait := slots.wait
  clock := slots.clock.map f
  timeout := slots.timeout
  beforeAttempt := slots.beforeAttempt
  afterAttempt := slots.afterAttempt
  onExit := slots.onExit

theorem Slots.set_mapClock (slots : Slots m Clk R A O) (f : Clk → Clk')
    (call : BuilderCall m Clk R A O) :
    (slots.mapClock f).set (call.mapClock f) = (slots.set call).mapClock f := by
  cases call <;> rfl

/-- A chain with other forms of its clocks chooses the same, up to the clock. -/
theorem Slots.chosen_mapClock (policyCalls : List (PolicyCall m O))
    (calls : List (BuilderCall m Clk R A O)) (f : Clk → Clk') :
    chosen policyCalls (calls.map (.mapClock f)) = (chosen policyCalls calls).mapClock f := by
  rw [chosen_eq_foldl, chosen_eq_foldl policyCalls calls, List.foldl_map]
  -- No policy sets a clock, so both folds start from the same slots.
  let start : Slots m Clk R A O := chosen policyCalls []
  show calls.foldl (fun slots call => slots.set (call.mapClock f)) (start.mapClock f) = _
  exact List.foldl_hom (mapClock f) fun slots call => slots.set_mapClock f call

end Chosen

/-! ## §6 Policies -/

section Policies

/-- A method call on a policy sets one slot, or none. -/
theorem PolicyCall.apply_eq (self : RetryPolicy m O) (call : PolicyCall m O) :
    call.apply self =
      { stop := call.stop?.getD self.stop
        wait := call.wait?.getD self.wait
        classifier := call.classifier?.getD self.classifier
        timeout := call.timeout?.getD self.timeout } := by
  cases call with
  | classify call => cases call <;> rfl
  | _ => rfl

/-- The policy that a chain of calls on `RetryPolicy::new()` builds. -/
theorem RetryPolicy.built_eq (calls : List (PolicyCall m O)) :
    built calls =
      { stop := last PolicyCall.stop? calls Defaults.stop
        wait := last PolicyCall.wait? calls Defaults.wait
        classifier := last PolicyCall.classifier? calls .default_
        timeout := last PolicyCall.timeout? calls none } := by
  apply RetryPolicy.ext
  · exact foldl_last (fun self call => congrArg stop (call.apply_eq self)) calls new
  · exact foldl_last (fun self call => congrArg wait (call.apply_eq self)) calls new
  · exact foldl_last (fun self call => congrArg classifier (call.apply_eq self)) calls new
  · exact foldl_last (fun self call => congrArg timeout (call.apply_eq self)) calls new

theorem PolicyCall.apply_comm (self : RetryPolicy m O) (a b : PolicyCall m O)
    (h : a.slot ≠ b.slot) : b.apply (a.apply self) = a.apply (b.apply self) := by
  simp only [apply_eq]
  cases a <;> cases b <;> first | rfl | exact absurd rfl h

end Policies

/-! ## §7 Whole chains -/

/-- What a chain starts with: the operation, and what the policy and the defaults give. -/
theorem SyncEntry.slots_builder (entry : SyncEntry m O) :
    (entry.builder : RetryBuilder m R A O).slots = .chosen entry.policyCalls [] ∧
      (entry.builder : RetryBuilder m R A O).op = entry.op := by
  cases entry with
  | retry op | retryExt op => exact ⟨rfl, rfl⟩
  | policy calls op =>
    rw [builder, RetryPolicy.built_eq]
    exact ⟨rfl, rfl⟩

theorem AsyncEntry.slots_builder (entry : AsyncEntry m Fut O) :
    (entry.builder : AsyncRetryBuilder m Fut R A O).slots = .chosen entry.policyCalls [] ∧
      (entry.builder : AsyncRetryBuilder m Fut R A O).op = entry.op := by
  cases entry with
  | retryAsync op | retryAsyncExt op => exact ⟨rfl, rfl⟩
  | policy calls op =>
    rw [builder, RetryPolicy.built_eq]
    exact ⟨rfl, rfl⟩

/-- Calls on a builder, one after the other. -/
theorem RetryBuilder.slots_foldl (self : RetryBuilder m R A O)
    (calls : List (BuilderCall m (SyncClock m) R A O)) :
    (calls.foldl BuilderCall.sync self).slots = calls.foldl Slots.set self.slots ∧
      (calls.foldl BuilderCall.sync self).op = self.op :=
  foldl_refines (fun self call => (call.slots_sync self).1)
    (fun self call => (call.slots_sync self).2) calls self

theorem AsyncRetryBuilder.slots_foldl (self : AsyncRetryBuilder m Fut R A O)
    (calls : List (BuilderCall m (AnyAsyncClock m) R A O)) :
    (calls.foldl BuilderCall.async self).slots = calls.foldl Slots.set self.slots ∧
      (calls.foldl BuilderCall.async self).op = self.op :=
  foldl_refines (fun self call => (call.slots_async self).1)
    (fun self call => (call.slots_async self).2) calls self

/-- **A chain on `Retry` leads to what it chooses.** -/
theorem SyncEntry.slots_chain (entry : SyncEntry m O)
    (calls : List (BuilderCall m (SyncClock m) R A O)) :
    (calls.foldl BuilderCall.sync entry.builder).slots = .chosen entry.policyCalls calls ∧
      (calls.foldl BuilderCall.sync entry.builder).op = entry.op := by
  obtain ⟨hslots, hop⟩ := entry.builder.slots_foldl calls
  obtain ⟨hstart, hentry⟩ := entry.slots_builder (R := R) (A := A)
  rw [hslots, hop, hstart, hentry, ← Slots.chosen_eq_foldl]
  exact ⟨rfl, rfl⟩

/-- **A chain on `AsyncRetry` leads to what it chooses.** -/
theorem AsyncEntry.slots_chain (entry : AsyncEntry m Fut O)
    (calls : List (BuilderCall m (AnyAsyncClock m) R A O)) :
    (calls.foldl BuilderCall.async entry.builder).slots = .chosen entry.policyCalls calls ∧
      (calls.foldl BuilderCall.async entry.builder).op = entry.op := by
  obtain ⟨hslots, hop⟩ := entry.builder.slots_foldl calls
  obtain ⟨hstart, hentry⟩ := entry.slots_builder (R := R) (A := A)
  rw [hslots, hop, hstart, hentry, ← Slots.chosen_eq_foldl]
  exact ⟨rfl, rfl⟩

/-! ## §8 What an execution uses -/

section Used

variable {Clk : Type*}

/-- An execution runs with what a chain has chosen: with the value in every slot, and with
the registered hooks at every hook point, each of them once, in registration order. -/
structure Slots.UsedBy (slots : Slots m Clk R A O) (outcome : Option (Outcome O R A))
    (system : Option Clk) (classifier : Decide m R A O) (stop : Stop m) (wait : Wait m)
    (clock : Clk) (hooks : ExecutionHooks m R A O) (timeout : Option Duration) : Prop where
  classifier : slots.classifier.Decides outcome classifier
  stop : stop = slots.stop
  wait : wait = slots.wait
  clock : slots.clock.resolve system = some clock
  timeout : timeout = slots.timeout
  beforeAttempt : ∀ state, hooks.beforeAttempt.call state =
    slots.beforeAttempt.forM fun hook => hook state
  afterAttempt : ∀ state, hooks.afterAttempt.call state =
    slots.afterAttempt.forM fun hook => hook state
  onExit : ∀ exit, hooks.onExit.call exit = slots.onExit.forM fun hook => hook exit

end Used

theorem RetryBuilder.Resolves.usedBy [LawfulMonad m] {builder : RetryBuilder m R A O}
    {outcome : Option (Outcome O R A)} {system : Option (SyncClock m)} {retry : Retry m R A O}
    (h : builder.Resolves outcome system retry) :
    builder.slots.UsedBy outcome system retry.classifier retry.stop retry.wait retry.clock
      retry.hooks retry.timeout where
  classifier := h.classifier
  stop := h.stop
  wait := h.wait
  clock := h.clock
  timeout := h.timeout
  beforeAttempt state := by rw [h.hooks, HookSlot.call_eq_forM]; rfl
  afterAttempt state := by rw [h.hooks, HookSlot.call_eq_forM]; rfl
  onExit exit := by rw [h.hooks, HookSlot.call_eq_forM]; rfl

theorem AsyncRetryBuilder.Resolves.usedBy [LawfulMonad m] {WaitFut : Type}
    {builder : AsyncRetryBuilder m Fut R A O} {outcome : Option (Outcome O R A)}
    {retry : AsyncRetry m Fut WaitFut R A O} (h : builder.Resolves outcome retry) :
    builder.slots.UsedBy outcome none retry.classifier retry.stop retry.wait
      ⟨WaitFut, retry.clock⟩ retry.hooks retry.timeout where
  classifier := h.classifier
  stop := h.stop
  wait := h.wait
  clock := h.clock
  timeout := h.timeout
  beforeAttempt state := by rw [h.hooks, HookSlot.call_eq_forM]; rfl
  afterAttempt state := by rw [h.hooks, HookSlot.call_eq_forM]; rfl
  onExit exit := by rw [h.hooks, HookSlot.call_eq_forM]; rfl

/-! ## §9 Reordering, and the two builders -/

theorem RetryPolicy.built_of_sameOrder {calls calls' : List (PolicyCall m O)}
    (h : SameOrder PolicyCall.slot calls calls') : built calls = built calls' :=
  foldl_of_sameOrder PolicyCall.apply_comm h new

theorem RetryBuilder.foldl_of_sameOrder (self : RetryBuilder m R A O)
    {calls calls' : List (BuilderCall m (SyncClock m) R A O)}
    (h : SameOrder BuilderCall.slot calls calls') :
    calls.foldl BuilderCall.sync self = calls'.foldl BuilderCall.sync self :=
  foldl_of_sameOrder_of_refines (fun _ _ => eq_of_slots)
    (fun self call => (call.slots_sync self).1) (fun self call => (call.slots_sync self).2)
    Slots.set_comm h self

theorem AsyncRetryBuilder.foldl_of_sameOrder (self : AsyncRetryBuilder m Fut R A O)
    {calls calls' : List (BuilderCall m (AnyAsyncClock m) R A O)}
    (h : SameOrder BuilderCall.slot calls calls') :
    calls.foldl BuilderCall.async self = calls'.foldl BuilderCall.async self :=
  foldl_of_sameOrder_of_refines (fun _ _ => eq_of_slots)
    (fun self call => (call.slots_async self).1) (fun self call => (call.slots_async self).2)
    Slots.set_comm h self

/-- A slot implements `Decide` in one way. -/
theorem ClassifierSlot.Decides.unique {outcome : Option (Outcome O R A)}
    {slot : ClassifierSlot m O} {classifier classifier' : Decide m R A O}
    (h : slot.Decides outcome classifier) (h' : slot.Decides outcome classifier') :
    classifier = classifier' := by
  cases h with
  | default_ impl himpl =>
    cases h' with
    | default_ impl' himpl' =>
      obtain rfl := Option.some.inj (himpl.symm.trans himpl')
      rfl
  | of => cases h' with | of => rfl

/-- A sync and an async configuration agree in all that they share but the clock. -/
structure Agree {WaitFut : Type} (sync : Retry m R A O) (async : AsyncRetry m Fut WaitFut R A O) :
    Prop where
  classifier : async.classifier = sync.classifier
  stop : async.stop = sync.stop
  wait : async.wait = sync.wait
  hooks : async.hooks = sync.hooks
  timeout : async.timeout = sync.timeout

/-- **The two builders agree**: one chain of calls, with two forms of each clock, leads to
configurations that agree, and whose clocks are the two forms of one. -/
theorem agree_of_resolves {WaitFut : Type} {outcome : Option (Outcome O R A)}
    {system : Option (SyncClock m)} {entry : SyncEntry m O} {entry' : AsyncEntry m Fut O}
    (hentry : entry'.policyCalls = entry.policyCalls)
    {calls : List (BuilderCall m (SyncClock m × AnyAsyncClock m) R A O)} {sync : Retry m R A O}
    {async : AsyncRetry m Fut WaitFut R A O}
    (hsync : ((calls.map (.mapClock Prod.fst)).foldl BuilderCall.sync entry.builder).Resolves
      outcome system sync)
    (hasync : ((calls.map (.mapClock Prod.snd)).foldl BuilderCall.async entry'.builder).Resolves
      outcome async) :
    Agree sync async ∧ ∃ clocks, last BuilderCall.clock? calls .systemClock = .of clocks ∧
      clocks.1 = sync.clock ∧ clocks.2 = ⟨WaitFut, async.clock⟩ := by
  have hslots := (entry.slots_chain (calls.map (.mapClock Prod.fst))).1
  have hslots' := (entry'.slots_chain (calls.map (.mapClock Prod.snd))).1
  rw [Slots.chosen_mapClock] at hslots hslots'
  rw [hentry] at hslots'
  generalize (calls.map (.mapClock Prod.fst)).foldl BuilderCall.sync entry.builder = builder
    at hsync hslots
  generalize (calls.map (.mapClock Prod.snd)).foldl BuilderCall.async entry'.builder = builder'
    at hasync hslots'
  -- In every slot both builders hold what the chain chooses.
  have hclassifier : builder'.classifier = builder.classifier :=
    (congrArg Slots.classifier hslots').trans (congrArg Slots.classifier hslots).symm
  have hstop : builder'.stop = builder.stop :=
    (congrArg Slots.stop hslots').trans (congrArg Slots.stop hslots).symm
  have hwait : builder'.wait = builder.wait :=
    (congrArg Slots.wait hslots').trans (congrArg Slots.wait hslots).symm
  have htimeout : builder'.timeout = builder.timeout :=
    (congrArg Slots.timeout hslots').trans (congrArg Slots.timeout hslots).symm
  have hhooks : builder'.hooks = builder.hooks := ExecutionHooks.eq_of_hooks
    ((congrArg Slots.beforeAttempt hslots').trans (congrArg Slots.beforeAttempt hslots).symm)
    ((congrArg Slots.afterAttempt hslots').trans (congrArg Slots.afterAttempt hslots).symm)
    ((congrArg Slots.onExit hslots').trans (congrArg Slots.onExit hslots).symm)
  refine ⟨⟨?_, ?_, ?_, ?_, ?_⟩, ?_⟩
  · have hdecides := hasync.classifier
    rw [hclassifier] at hdecides
    exact hdecides.unique hsync.classifier
  · rw [hasync.stop, hsync.stop, hstop]
  · rw [hasync.wait, hsync.wait, hwait]
  · rw [hasync.hooks, hsync.hooks, hhooks]
  · rw [hasync.timeout, hsync.timeout, htimeout]
  · -- The async run needs a clock, so one was set, and it was set in both forms.
    have hclock : builder.clock = (last BuilderCall.clock? calls .systemClock).map Prod.fst :=
      congrArg Slots.clock hslots
    have hclock' : builder'.clock = (last BuilderCall.clock? calls .systemClock).map Prod.snd :=
      congrArg Slots.clock hslots'
    have hresolves := hsync.clock
    have hresolves' := hasync.clock
    rw [hclock] at hresolves
    rw [hclock'] at hresolves'
    cases hlast : last BuilderCall.clock? calls .systemClock with
    | systemClock =>
      rw [hlast] at hresolves'
      cases hresolves'
    | of clocks =>
      rw [hlast] at hresolves hresolves'
      exact ⟨clocks, rfl, Option.some.inj hresolves, Option.some.inj hresolves'⟩

/-! ## §10 Sessions -/

section Sessions

variable {ι : Type} [DecidableEq ι] {Rs As : ι → Type}

/-- A policy, and the builders made from it so far, by their names. -/
structure PolicySession (m : Type → Type) (Fut O : Type) (Rs As : ι → Type) : Type 1 where
  policy : RetryPolicy m O
  sync : (i : ι) → Option (RetryBuilder m (Rs i) (As i) O)
  async : (i : ι) → Option (AsyncRetryBuilder m Fut (Rs i) (As i) O)

/-- A builder is made from the policy, or a method is called on one. -/
inductive PolicyStep (m : Type → Type) (Fut O : Type) (Rs As : ι → Type) : Type 1 where
  | retry (i : ι) (op : RetryState → m O)
  | retryAsync (i : ι) (op : AsyncRetryOp m Fut O)
  | sync (i : ι) (call : BuilderCall m (SyncClock m) (Rs i) (As i) O)
  | async (i : ι) (call : BuilderCall m (AnyAsyncClock m) (Rs i) (As i) O)

namespace PolicySession

def step (session : PolicySession m Fut O Rs As) :
    PolicyStep m Fut O Rs As → PolicySession m Fut O Rs As
  | .retry i op => { session with
      sync := Function.update session.sync i (some (session.policy.retry op)) }
  | .retryAsync i op => { session with
      async := Function.update session.async i (some (session.policy.retryAsync op)) }
  | .sync i call => { session with
      sync := Function.update session.sync i ((session.sync i).map fun self => call.sync self) }
  | .async i call => { session with
      async := Function.update session.async i ((session.async i).map fun self => call.async self) }

/-- **No call on a builder changes the policy.** -/
theorem policy_foldl (session : PolicySession m Fut O Rs As)
    (steps : List (PolicyStep m Fut O Rs As)) :
    (steps.foldl step session).policy = session.policy :=
  foldl_frame (fun session s => by cases s <;> rfl) steps session

end PolicySession

end Sessions

/-! ## §11 The law -/

/-- **Builder chains: the last one wins in every slot, hooks accumulate, and the order is
otherwise free.**  Whatever a chain on `Retry` or `AsyncRetry` starts with, if its `.call()`
compiles, then

- it runs the operation given at the start, with the slots and the hooks that `Slots.chosen`
  names;
- calls to different slots can be exchanged, on the policy and on the builder, and the same
  is built;
- one chain on both builders leads to configurations that agree;
- `.call()` is the execution of `.with_stats().call()`, without the stats;
- the policy stays as it is, whatever is called on the builders made from it. -/
theorem builder_chains [LawfulMonad m] [Build m] {WaitFut ι : Type} [DecidableEq ι]
    {Rs As : ι → Type} (outcome : Option (Outcome O R A)) (system : Option (SyncClock m)) :
    (∀ (entry : SyncEntry m O) (calls : List (BuilderCall m (SyncClock m) R A O))
      (retry : Retry m R A O),
      (calls.foldl BuilderCall.sync entry.builder).Resolves outcome system retry →
        retry.op = entry.op ∧
          (Slots.chosen entry.policyCalls calls).UsedBy outcome system retry.classifier retry.stop
            retry.wait retry.clock retry.hooks retry.timeout) ∧
    (∀ (entry : AsyncEntry m Fut O) (calls : List (BuilderCall m (AnyAsyncClock m) R A O))
      (retry : AsyncRetry m Fut WaitFut R A O),
      (calls.foldl BuilderCall.async entry.builder).Resolves outcome retry →
        retry.op = entry.op ∧
          (Slots.chosen entry.policyCalls calls).UsedBy outcome none retry.classifier retry.stop
            retry.wait ⟨WaitFut, retry.clock⟩ retry.hooks retry.timeout) ∧
    (∀ calls calls' : List (PolicyCall m O), SameOrder PolicyCall.slot calls calls' →
      RetryPolicy.built calls = RetryPolicy.built calls') ∧
    (∀ (builder : RetryBuilder m R A O) (calls calls' : List (BuilderCall m (SyncClock m) R A O)),
      SameOrder BuilderCall.slot calls calls' →
        calls.foldl BuilderCall.sync builder = calls'.foldl BuilderCall.sync builder) ∧
    (∀ (builder : AsyncRetryBuilder m Fut R A O)
      (calls calls' : List (BuilderCall m (AnyAsyncClock m) R A O)),
      SameOrder BuilderCall.slot calls calls' →
        calls.foldl BuilderCall.async builder = calls'.foldl BuilderCall.async builder) ∧
    (∀ (entry : SyncEntry m O) (entry' : AsyncEntry m Fut O)
      (calls : List (BuilderCall m (SyncClock m × AnyAsyncClock m) R A O)) (sync : Retry m R A O)
      (async : AsyncRetry m Fut WaitFut R A O),
      entry'.policyCalls = entry.policyCalls →
      ((calls.map (.mapClock Prod.fst)).foldl BuilderCall.sync entry.builder).Resolves
        outcome system sync →
      ((calls.map (.mapClock Prod.snd)).foldl BuilderCall.async entry'.builder).Resolves
        outcome async →
      Agree sync async ∧ ∃ clocks, last BuilderCall.clock? calls .systemClock = .of clocks ∧
        clocks.1 = sync.clock ∧ clocks.2 = ⟨WaitFut, async.clock⟩) ∧
    (∀ (retry : Retry m R A O) (n : ℕ),
      retry.call n = return (← RetryWithStats.call ⟨retry⟩ n).mapDone Prod.fst) ∧
    (∀ (retry : AsyncRetry m Fut WaitFut R A O) (n : ℕ) (cx : Context)
      (run : AsyncRun Fut WaitFut),
      retry.call.pollFor n cx run =
        return (← (AsyncRetryWithStats.call ⟨retry⟩).pollFor n cx run).mapDone
          fun (result, run) => (result.map Prod.fst, run)) ∧
    (∀ (session : PolicySession m Fut O Rs As) (steps : List (PolicyStep m Fut O Rs As)),
      (steps.foldl PolicySession.step session).policy = session.policy) := by
  refine ⟨?_, ?_, ?_, ?_, ?_, ?_, ?_, ?_, ?_⟩
  · intro entry calls retry hresolves
    obtain ⟨hslots, hop⟩ := entry.slots_chain calls
    refine ⟨hresolves.op.trans hop, ?_⟩
    rw [← hslots]
    exact hresolves.usedBy
  · intro entry calls retry hresolves
    obtain ⟨hslots, hop⟩ := entry.slots_chain calls
    refine ⟨hresolves.op.trans hop, ?_⟩
    rw [← hslots]
    exact hresolves.usedBy
  · intro calls calls' horder
    exact RetryPolicy.built_of_sameOrder horder
  · intro builder calls calls' horder
    exact builder.foldl_of_sameOrder horder
  · intro builder calls calls' horder
    exact builder.foldl_of_sameOrder horder
  · intro entry entry' calls sync async hentry hsync hasync
    exact agree_of_resolves hentry hsync hasync
  · intro retry n
    rfl
  · intro retry n cx run
    rfl
  · intro session steps
    exact session.policy_foldl steps

/-- A policy with a stop strategy and a timeout. -/
def layeredPolicy : List (PolicyCall (Eff ℕ) (Except String ℕ)) :=
  [.stop (.attempts 5), .timeout (.ofNanos 20)]

/-- Calls on a builder made from it: a clock, another stop strategy, and two hooks. -/
def layeredCalls : List (BuilderCall (Eff ℕ) (SyncClock (Eff ℕ)) ℕ String (Except String ℕ)) :=
  [.clock (.of (Retry.busyTwice none).clock), .onExit fun _ => pure (), .stop (.attempts 2),
    .onExit fun _ now => ((), now + 1)]

/-- What they build: the stop strategy of the builder, the timeout of the policy. -/
def Retry.layered : Retry (Eff ℕ) ℕ String (Except String ℕ) :=
  { Retry.busyTwice (some (.ofNanos 20)) with
    stop := .attempts 2
    wait := Defaults.wait
    hooks := (ExecutionHooks.new.chainOnExit fun _ => pure ()).chainOnExit
      fun _ now => ((), now + 1) }

theorem builder_chains_layered :
    (Slots.chosen layeredPolicy layeredCalls).UsedBy (some inferInstance) none
      Retry.layered.classifier Retry.layered.stop Retry.layered.wait Retry.layered.clock
      Retry.layered.hooks Retry.layered.timeout := by
  have hresolves : (layeredCalls.foldl BuilderCall.sync
      (SyncEntry.policy layeredPolicy (Retry.busyTwice none).op).builder).Resolves
        (some inferInstance) none Retry.layered :=
    ⟨rfl, .default_ _ rfl, rfl, rfl, rfl, rfl, rfl⟩
  have hlaw := @builder_chains (Eff ℕ) Unit ℕ String (Except String ℕ) _ _ _ Unit ℕ _
    (fun _ => ℕ) (fun _ => String) (some inferInstance) none
  exact (hlaw.1 _ layeredCalls Retry.layered hresolves).2

end Relentless
