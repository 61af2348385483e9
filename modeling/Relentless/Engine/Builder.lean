import Relentless.Engine.AsyncEngine
import Relentless.Wait.Strategies

/-!
# The Builders

`Retry` and `AsyncRetry` before `.call()`: every method takes the builder apart and puts it
together again with one slot changed.  What the engines run with is fixed only at `.call()`,
where the slots must implement the traits that the loop needs.

- `ClassifierSlot`, `ClockSlot` — slots that may hold what the loop cannot use
- `RetryBuilder`, `AsyncRetryBuilder` — the builders with their methods
- `RetryBuilder.Resolves`, `AsyncRetryBuilder.Resolves` — the trait bounds of `.call()`
- `BuilderCall` — a method call, with its argument
-/

namespace Relentless

open StateLoop

/-! ## §1 Slots -/

/-- What the classifier slot holds: `DefaultClassifier`, which classifies only outcomes that
classify themselves, or a classifier over types of its own. -/
inductive ClassifierSlot (m : Type → Type) (O : Type) : Type 1 where
  | default_
  | of {R A : Type} (classifier : Decide m R A O)

/-- The slot implements `Decide<O>`; `outcome` is the implementation of `Outcome`, if any. -/
inductive ClassifierSlot.Decides {m : Type → Type} [Monad m] {R A O : Type}
    (outcome : Option (Outcome O R A)) : ClassifierSlot m O → Decide m R A O → Prop where
  | default_ (impl : Outcome O R A) (himpl : outcome = some impl) :
      Decides outcome .default_ DefaultClassifier
  | of (classifier : Decide m R A O) : Decides outcome (.of classifier) classifier

/-- What the clock slot holds: `SystemClock`, with which it starts, or another clock. -/
inductive ClockSlot (Clk : Type*) where
  | systemClock
  | of (clock : Clk)

/-- The clock that the slot is, where `system` is what `SystemClock` is as such a clock. -/
def ClockSlot.resolve {Clk : Type*} (system : Option Clk) : ClockSlot Clk → Option Clk
  | .systemClock => system
  | .of clock => some clock

/-- An async clock, whatever the type of its futures. -/
structure AnyAsyncClock (m : Type → Type) : Type 1 where
  WaitFut : Type
  clock : AsyncClock m WaitFut

/-- What a `.decide` closure returns: a `Verdict`, or a `Decision`. -/
inductive DecisionClosure (m : Type → Type) (O : Type) : Type → Type → Type 1 where
  | verdict {R A : Type} (closure : O → m (Verdict R A O)) : DecisionClosure m O R A
  | decision {R : Type} (closure : O → m (Decision R O)) : DecisionClosure m O R Empty

/-- `ClosureClassifier(classifier)`, with the `into_verdict` of what the closure returns. -/
def DecisionClosure.classifier {m : Type → Type} [Monad m] {R A O : Type} :
    DecisionClosure m O R A → Decide m R A O
  | .verdict closure => ClosureClassifier closure
  | .decision closure => ClosureClassifier.ofDecision closure

/-- The three ways to install a classifier: `.decide`, `.when` and `.until`. -/
inductive ClassifierCall (m : Type → Type) : Type → Type 1 where
  | decide {O R A : Type} (closure : DecisionClosure m O R A) : ClassifierCall m O
  | when_ {T E : Type} (predicate : Predicate m T E) : ClassifierCall m (Except E T)
  | until_ {T E : Type} (predicate : Predicate m T E) : ClassifierCall m (Except E T)

namespace Defaults

/-- `DEFAULT_MAX_ATTEMPTS`. -/
def maxAttempts : UInt32 := 3

/-- `DEFAULT_INITIAL_WAIT`: a hundred milliseconds. -/
def initialWait : Duration := .ofNanos 100000000

variable {m : Type → Type} [Monad m]

/-- `defaults::stop`. -/
def stop : Stop m := .attempts maxAttempts

/-- `defaults::wait`. -/
def wait : Wait m where
  nextWait state := return (exponential initialWait).nextWait state

end Defaults

/-! ## §2 The sync builder -/

/-- `Retry`, as it is built. -/
structure RetryBuilder (m : Type → Type) (R A O : Type) : Type 1 where
  op : RetryState → m O
  classifier : ClassifierSlot m O
  stop : Stop m
  wait : Wait m
  clock : ClockSlot (SyncClock m)
  hooks : ExecutionHooks m R A O
  timeout : Option Duration

namespace RetryBuilder

variable {m : Type → Type} [Monad m] {R A R' A' O T E : Type}

/-- `Retry::from_parts`. -/
def fromParts (op : RetryState → m O) (classifier : ClassifierSlot m O) (stop : Stop m)
    (wait : Wait m) (timeout : Option Duration) : RetryBuilder m R A O :=
  { op, classifier, stop, wait, clock := .systemClock, hooks := .new, timeout }

/-- `Retry::from_op`. -/
def fromOp (op : RetryState → m O) : RetryBuilder m R A O :=
  fromParts op .default_ Defaults.stop Defaults.wait none

/-- `Retry::stop`. -/
def withStop (self : RetryBuilder m R A O) (stop : Stop m) : RetryBuilder m R A O :=
  { op := self.op, classifier := self.classifier, stop, wait := self.wait,
    clock := self.clock, hooks := self.hooks, timeout := self.timeout }

/-- `Retry::wait`. -/
def withWait (self : RetryBuilder m R A O) (wait : Wait m) : RetryBuilder m R A O :=
  { op := self.op, classifier := self.classifier, stop := self.stop, wait,
    clock := self.clock, hooks := self.hooks, timeout := self.timeout }

/-- `Retry::clock`. -/
def withClock (self : RetryBuilder m R A O) (clock : ClockSlot (SyncClock m)) :
    RetryBuilder m R A O :=
  { op := self.op, classifier := self.classifier, stop := self.stop, wait := self.wait,
    clock, hooks := self.hooks, timeout := self.timeout }

/-- `Retry::timeout`. -/
def withTimeout (self : RetryBuilder m R A O) (dur : Duration) : RetryBuilder m R A O :=
  { self with timeout := some dur }

/-- `Retry::with_classifier`. -/
def withClassifier (self : RetryBuilder m R A O) (classifier : Decide m R' A' O) :
    RetryBuilder m R A O :=
  { op := self.op, classifier := .of classifier, stop := self.stop, wait := self.wait,
    clock := self.clock, hooks := self.hooks, timeout := self.timeout }

/-- `Retry::decide`. -/
def decide (self : RetryBuilder m R A O) (closure : DecisionClosure m O R' A') :
    RetryBuilder m R A O :=
  self.withClassifier closure.classifier

/-- `Retry::when`. -/
def when_ (self : RetryBuilder m R A (Except E T)) (predicate : Predicate m T E) :
    RetryBuilder m R A (Except E T) :=
  self.withClassifier (When predicate)

/-- `Retry::until`. -/
def until_ (self : RetryBuilder m R A (Except E T)) (predicate : Predicate m T E) :
    RetryBuilder m R A (Except E T) :=
  self.withClassifier (Until predicate)

/-- `Retry::before_attempt`. -/
def beforeAttempt (self : RetryBuilder m R A O) (hook : RetryState → m Unit) :
    RetryBuilder m R A O :=
  { op := self.op, classifier := self.classifier, stop := self.stop, wait := self.wait,
    clock := self.clock, hooks := self.hooks.chainBeforeAttempt hook, timeout := self.timeout }

/-- `Retry::after_attempt`. -/
def afterAttempt (self : RetryBuilder m R A O) (hook : AttemptState O → m Unit) :
    RetryBuilder m R A O :=
  { op := self.op, classifier := self.classifier, stop := self.stop, wait := self.wait,
    clock := self.clock, hooks := self.hooks.chainAfterAttempt hook, timeout := self.timeout }

/-- `Retry::on_exit`. -/
def onExit (self : RetryBuilder m R A O) (hook : Exit R A O → m Unit) : RetryBuilder m R A O :=
  { op := self.op, classifier := self.classifier, stop := self.stop, wait := self.wait,
    clock := self.clock, hooks := self.hooks.chainOnExit hook, timeout := self.timeout }

/-- The bounds of `Retry::call` are met, and `retry` is what its loop runs with. -/
structure Resolves (builder : RetryBuilder m R A O) (outcome : Option (Outcome O R A))
    (system : Option (SyncClock m)) (retry : Retry m R A O) : Prop where
  op : retry.op = builder.op
  classifier : builder.classifier.Decides outcome retry.classifier
  stop : retry.stop = builder.stop
  wait : retry.wait = builder.wait
  clock : builder.clock.resolve system = some retry.clock
  hooks : retry.hooks = builder.hooks
  timeout : retry.timeout = builder.timeout

end RetryBuilder

/-- `retry`. -/
def retry {m : Type → Type} [Monad m] {R A O : Type} (op : RetryState → m O) :
    RetryBuilder m R A O :=
  .fromOp op

/-- `StatelessOp`: an operation that is not shown the state. -/
def StatelessOp {m : Type → Type} {O : Type} (op : m O) : RetryState → m O := fun _ => op

/-- `RetryExt::retry`. -/
def RetryExt.retry {m : Type → Type} [Monad m] {R A O : Type} (self : m O) :
    RetryBuilder m R A O :=
  .fromOp (StatelessOp self)

/-! ## §3 The async builder -/

/-- `AsyncRetry`, as it is built. -/
structure AsyncRetryBuilder (m : Type → Type) (Fut R A O : Type) : Type 1 where
  op : AsyncRetryOp m Fut O
  classifier : ClassifierSlot m O
  stop : Stop m
  wait : Wait m
  clock : ClockSlot (AnyAsyncClock m)
  hooks : ExecutionHooks m R A O
  timeout : Option Duration

namespace AsyncRetryBuilder

variable {m : Type → Type} [Monad m] {Fut R A R' A' O T E : Type}

/-- `AsyncRetry::from_parts`. -/
def fromParts (op : AsyncRetryOp m Fut O) (classifier : ClassifierSlot m O) (stop : Stop m)
    (wait : Wait m) (timeout : Option Duration) : AsyncRetryBuilder m Fut R A O :=
  { op, classifier, stop, wait, clock := .systemClock, hooks := .new, timeout }

/-- `AsyncRetry::from_op`. -/
def fromOp (op : AsyncRetryOp m Fut O) : AsyncRetryBuilder m Fut R A O :=
  fromParts op .default_ Defaults.stop Defaults.wait none

/-- `AsyncRetry::stop`. -/
def withStop (self : AsyncRetryBuilder m Fut R A O) (stop : Stop m) :
    AsyncRetryBuilder m Fut R A O :=
  { op := self.op, classifier := self.classifier, stop, wait := self.wait,
    clock := self.clock, hooks := self.hooks, timeout := self.timeout }

/-- `AsyncRetry::wait`. -/
def withWait (self : AsyncRetryBuilder m Fut R A O) (wait : Wait m) :
    AsyncRetryBuilder m Fut R A O :=
  { op := self.op, classifier := self.classifier, stop := self.stop, wait,
    clock := self.clock, hooks := self.hooks, timeout := self.timeout }

/-- `AsyncRetry::clock`. -/
def withClock (self : AsyncRetryBuilder m Fut R A O) (clock : ClockSlot (AnyAsyncClock m)) :
    AsyncRetryBuilder m Fut R A O :=
  { op := self.op, classifier := self.classifier, stop := self.stop, wait := self.wait,
    clock, hooks := self.hooks, timeout := self.timeout }

/-- `AsyncRetry::timeout`. -/
def withTimeout (self : AsyncRetryBuilder m Fut R A O) (dur : Duration) :
    AsyncRetryBuilder m Fut R A O :=
  { self with timeout := some dur }

/-- `AsyncRetry::with_classifier`. -/
def withClassifier (self : AsyncRetryBuilder m Fut R A O) (classifier : Decide m R' A' O) :
    AsyncRetryBuilder m Fut R A O :=
  { op := self.op, classifier := .of classifier, stop := self.stop, wait := self.wait,
    clock := self.clock, hooks := self.hooks, timeout := self.timeout }

/-- `AsyncRetry::decide`. -/
def decide (self : AsyncRetryBuilder m Fut R A O) (closure : DecisionClosure m O R' A') :
    AsyncRetryBuilder m Fut R A O :=
  self.withClassifier closure.classifier

/-- `AsyncRetry::when`. -/
def when_ (self : AsyncRetryBuilder m Fut R A (Except E T)) (predicate : Predicate m T E) :
    AsyncRetryBuilder m Fut R A (Except E T) :=
  self.withClassifier (When predicate)

/-- `AsyncRetry::until`. -/
def until_ (self : AsyncRetryBuilder m Fut R A (Except E T)) (predicate : Predicate m T E) :
    AsyncRetryBuilder m Fut R A (Except E T) :=
  self.withClassifier (Until predicate)

/-- `AsyncRetry::before_attempt`. -/
def beforeAttempt (self : AsyncRetryBuilder m Fut R A O) (hook : RetryState → m Unit) :
    AsyncRetryBuilder m Fut R A O :=
  { op := self.op, classifier := self.classifier, stop := self.stop, wait := self.wait,
    clock := self.clock, hooks := self.hooks.chainBeforeAttempt hook, timeout := self.timeout }

/-- `AsyncRetry::after_attempt`. -/
def afterAttempt (self : AsyncRetryBuilder m Fut R A O) (hook : AttemptState O → m Unit) :
    AsyncRetryBuilder m Fut R A O :=
  { op := self.op, classifier := self.classifier, stop := self.stop, wait := self.wait,
    clock := self.clock, hooks := self.hooks.chainAfterAttempt hook, timeout := self.timeout }

/-- `AsyncRetry::on_exit`. -/
def onExit (self : AsyncRetryBuilder m Fut R A O) (hook : Exit R A O → m Unit) :
    AsyncRetryBuilder m Fut R A O :=
  { op := self.op, classifier := self.classifier, stop := self.stop, wait := self.wait,
    clock := self.clock, hooks := self.hooks.chainOnExit hook, timeout := self.timeout }

/-- The bounds of `AsyncRetry::call` are met, and `retry` is what `into_run` hands to the
future.  `SystemClock` is no `AsyncClock`. -/
structure Resolves {WaitFut : Type} (builder : AsyncRetryBuilder m Fut R A O)
    (outcome : Option (Outcome O R A)) (retry : AsyncRetry m Fut WaitFut R A O) : Prop where
  op : retry.op = builder.op
  classifier : builder.classifier.Decides outcome retry.classifier
  stop : retry.stop = builder.stop
  wait : retry.wait = builder.wait
  clock : builder.clock.resolve none = some ⟨WaitFut, retry.clock⟩
  hooks : retry.hooks = builder.hooks
  timeout : retry.timeout = builder.timeout

end AsyncRetryBuilder

/-- `retry_async`. -/
def retryAsync {m : Type → Type} [Monad m] {Fut R A O : Type} (op : AsyncRetryOp m Fut O) :
    AsyncRetryBuilder m Fut R A O :=
  .fromOp op

/-- A no-argument closure that returns futures, and how these are polled. -/
structure AsyncClosure (m : Type → Type) (Fut O : Type) where
  closure : m Fut
  poll : Fut → Context → m (Poll O × Fut)

/-- `StatelessOp`, around a closure that returns futures. -/
def AsyncClosure.statelessOp {m : Type → Type} {Fut O : Type} (op : AsyncClosure m Fut O) :
    AsyncRetryOp m Fut O where
  callOp _ := op.closure
  poll := op.poll

/-- `AsyncRetryExt::retry_async`. -/
def AsyncRetryExt.retryAsync {m : Type → Type} [Monad m] {Fut R A O : Type}
    (self : AsyncClosure m Fut O) : AsyncRetryBuilder m Fut R A O :=
  .fromOp self.statelessOp

/-! ## §4 Method calls -/

/-- A method call on a builder, `.call()` and `.with_stats()` apart. -/
inductive BuilderCall (m : Type → Type) (Clk : Type*) (R A O : Type) where
  | stop (stop : Stop m)
  | wait (wait : Wait m)
  | clock (clock : ClockSlot Clk)
  | timeout (dur : Duration)
  | classify (call : ClassifierCall m O)
  | beforeAttempt (hook : RetryState → m Unit)
  | afterAttempt (hook : AttemptState O → m Unit)
  | onExit (hook : Exit R A O → m Unit)

section Calls

variable {m : Type → Type} [Monad m] {Fut R A O : Type}

/-- `Retry::decide`, `Retry::when` or `Retry::until`. -/
def ClassifierCall.sync :
    {O : Type} → RetryBuilder m R A O → ClassifierCall m O → RetryBuilder m R A O
  | _, self, .decide closure => self.decide closure
  | _, self, .when_ predicate => self.when_ predicate
  | _, self, .until_ predicate => self.until_ predicate

/-- `AsyncRetry::decide`, `AsyncRetry::when` or `AsyncRetry::until`. -/
def ClassifierCall.async :
    {O : Type} → AsyncRetryBuilder m Fut R A O → ClassifierCall m O → AsyncRetryBuilder m Fut R A O
  | _, self, .decide closure => self.decide closure
  | _, self, .when_ predicate => self.when_ predicate
  | _, self, .until_ predicate => self.until_ predicate

/-- A method call on `Retry`. -/
def BuilderCall.sync (self : RetryBuilder m R A O) :
    BuilderCall m (SyncClock m) R A O → RetryBuilder m R A O
  | .stop newStop => self.withStop newStop
  | .wait newWait => self.withWait newWait
  | .clock newClock => self.withClock newClock
  | .timeout dur => self.withTimeout dur
  | .classify call => call.sync self
  | .beforeAttempt hook => self.beforeAttempt hook
  | .afterAttempt hook => self.afterAttempt hook
  | .onExit hook => self.onExit hook

/-- A method call on `AsyncRetry`. -/
def BuilderCall.async (self : AsyncRetryBuilder m Fut R A O) :
    BuilderCall m (AnyAsyncClock m) R A O → AsyncRetryBuilder m Fut R A O
  | .stop newStop => self.withStop newStop
  | .wait newWait => self.withWait newWait
  | .clock newClock => self.withClock newClock
  | .timeout dur => self.withTimeout dur
  | .classify call => call.async self
  | .beforeAttempt hook => self.beforeAttempt hook
  | .afterAttempt hook => self.afterAttempt hook
  | .onExit hook => self.onExit hook

end Calls

/-! ## §5 The two endings -/

section Endings

variable {m : Type → Type} [Monad m] [Build m] {Fut WaitFut R A O : Type}

/-- `Retry::call`, for at most `n` rounds: `self.run().0`. -/
def Retry.call (self : Retry m R A O) (n : ℕ) :
    m (Turn Cursor (Except (RetryError A O) R)) :=
  return (← self.runFor n).mapDone Prod.fst

/-- `RetryWithStats`, as `Retry::with_stats` wraps it. -/
structure RetryWithStats (m : Type → Type) (R A O : Type) where
  inner : Retry m R A O

/-- `RetryWithStats::call`, for at most `n` rounds. -/
def RetryWithStats.call (self : RetryWithStats m R A O) (n : ℕ) :
    m (Turn Cursor (Output R A O)) :=
  self.inner.runFor n

def PollEnd.map {α β : Type} (f : α → β) : PollEnd α → PollEnd β
  | .pending => .pending
  | .ready value => .ready (f value)
  | .panicked => .panicked

/-- `DropStats`: the future of `AsyncRetry::call`. -/
structure DropStats (m : Type → Type) (Fut WaitFut R A O : Type) where
  inner : AsyncRetry m Fut WaitFut R A O

/-- `DropStats::poll`, for at most `n` passes of the inner loop. -/
def DropStats.pollFor (self : DropStats m Fut WaitFut R A O) (n : ℕ) (cx : Context)
    (run : AsyncRun Fut WaitFut) :
    m (Turn (AsyncRetry.LoopState Fut WaitFut)
      (PollEnd (Except (RetryError A O) R) × AsyncRun Fut WaitFut)) :=
  return (← self.inner.pollFor n cx run).mapDone fun (result, run) => (result.map Prod.fst, run)

/-- `AsyncRetry::call`. -/
def AsyncRetry.call (self : AsyncRetry m Fut WaitFut R A O) : DropStats m Fut WaitFut R A O :=
  ⟨self⟩

/-- `AsyncRetryWithStats`, as `AsyncRetry::with_stats` wraps it. -/
structure AsyncRetryWithStats (m : Type → Type) (Fut WaitFut R A O : Type) where
  inner : AsyncRetry m Fut WaitFut R A O

/-- `AsyncRetryWithStats::call`: the future that yields the stats. -/
def AsyncRetryWithStats.call (self : AsyncRetryWithStats m Fut WaitFut R A O) :
    AsyncRetry m Fut WaitFut R A O :=
  self.inner

end Endings

end Relentless
