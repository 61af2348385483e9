import Relentless.Engine.Builder

/-!
# Policies

`RetryPolicy`: a stop strategy, a wait strategy, a classifier and a timeout, from which
builders are made.

- `RetryPolicy` — the policy with its methods, `retry` and `retryAsync` among them
- `PolicyCall` — a method call, with its argument
- `SyncEntry`, `AsyncEntry` — where a builder chain starts
-/

namespace Relentless

/-! ## §1 The policy -/

/-- `RetryPolicy`, for operations with outcomes of type `O`. -/
@[ext]
structure RetryPolicy (m : Type → Type) (O : Type) : Type 1 where
  stop : Stop m
  wait : Wait m
  classifier : ClassifierSlot m O
  timeout : Option Duration

/-- `Box::new`, on a stop strategy: consulting the box consults the strategy. -/
def Stop.boxed {m : Type → Type} (stop : Stop m) : Stop m where
  shouldStop state := stop.shouldStop state

/-- `Box::new`, on a wait strategy. -/
def Wait.boxed {m : Type → Type} (wait : Wait m) : Wait m where
  nextWait state := wait.nextWait state

namespace RetryPolicy

variable {m : Type → Type} [Monad m] {Fut R A O T E : Type}

/-- `RetryPolicy::new`. -/
def new : RetryPolicy m O :=
  { stop := Defaults.stop, wait := Defaults.wait, classifier := .default_, timeout := none }

/-- `RetryPolicy::default`. -/
def default_ : RetryPolicy m O := new

/-- `RetryPolicy::stop`. -/
def withStop (self : RetryPolicy m O) (stop : Stop m) : RetryPolicy m O :=
  { stop, wait := self.wait, classifier := self.classifier, timeout := self.timeout }

/-- `RetryPolicy::wait`. -/
def withWait (self : RetryPolicy m O) (wait : Wait m) : RetryPolicy m O :=
  { stop := self.stop, wait, classifier := self.classifier, timeout := self.timeout }

/-- `RetryPolicy::timeout`. -/
def withTimeout (self : RetryPolicy m O) (dur : Duration) : RetryPolicy m O :=
  { self with timeout := some dur }

/-- `RetryPolicy::when`. -/
def when_ (self : RetryPolicy m (Except E T)) (predicate : Predicate m T E) :
    RetryPolicy m (Except E T) :=
  { stop := self.stop, wait := self.wait, classifier := .of (When predicate),
    timeout := self.timeout }

/-- `RetryPolicy::until`. -/
def until_ (self : RetryPolicy m (Except E T)) (predicate : Predicate m T E) :
    RetryPolicy m (Except E T) :=
  { stop := self.stop, wait := self.wait, classifier := .of (Until predicate),
    timeout := self.timeout }

/-- `RetryPolicy::decide`. -/
def decide (self : RetryPolicy m O) (closure : DecisionClosure m O R A) : RetryPolicy m O :=
  { stop := self.stop, wait := self.wait, classifier := .of closure.classifier,
    timeout := self.timeout }

/-- `RetryPolicy::boxed`. -/
def boxed (self : RetryPolicy m O) : RetryPolicy m O :=
  { stop := self.stop.boxed, wait := self.wait.boxed, classifier := self.classifier,
    timeout := self.timeout }

/-- `RetryPolicy::boxed_local`. -/
def boxedLocal (self : RetryPolicy m O) : RetryPolicy m O :=
  { stop := self.stop.boxed, wait := self.wait.boxed, classifier := self.classifier,
    timeout := self.timeout }

/-- `RetryPolicy::retry`.  The parts are borrowed, and a reference to a part is used as the
part is. -/
def retry (self : RetryPolicy m O) (op : RetryState → m O) : RetryBuilder m R A O :=
  .fromParts op self.classifier self.stop self.wait self.timeout

/-- `RetryPolicy::retry_async`. -/
def retryAsync (self : RetryPolicy m O) (op : AsyncRetryOp m Fut O) :
    AsyncRetryBuilder m Fut R A O :=
  .fromParts op self.classifier self.stop self.wait self.timeout

end RetryPolicy

/-! ## §2 Method calls -/

/-- A method call on a policy, `.retry(...)` and `.retry_async(...)` apart. -/
inductive PolicyCall (m : Type → Type) (O : Type) : Type 1 where
  | stop (stop : Stop m)
  | wait (wait : Wait m)
  | timeout (dur : Duration)
  | classify (call : ClassifierCall m O)
  | boxed
  | boxedLocal

section Calls

variable {m : Type → Type} [Monad m]

/-- `RetryPolicy::decide`, `RetryPolicy::when` or `RetryPolicy::until`. -/
def ClassifierCall.onPolicy : {O : Type} → RetryPolicy m O → ClassifierCall m O → RetryPolicy m O
  | _, self, .decide closure => self.decide closure
  | _, self, .when_ predicate => self.when_ predicate
  | _, self, .until_ predicate => self.until_ predicate

def PolicyCall.apply {O : Type} (self : RetryPolicy m O) : PolicyCall m O → RetryPolicy m O
  | .stop newStop => self.withStop newStop
  | .wait newWait => self.withWait newWait
  | .timeout dur => self.withTimeout dur
  | .classify call => call.onPolicy self
  | .boxed => self.boxed
  | .boxedLocal => self.boxedLocal

end Calls

/-! ## §3 Entry points -/

/-- Where a chain on `Retry` starts: `retry(op)`, `(|| op()).retry()`, or a policy that is
built by some calls, and its `retry(op)`. -/
inductive SyncEntry (m : Type → Type) (O : Type) : Type 1 where
  | retry (op : RetryState → m O)
  | retryExt (op : m O)
  | policy (calls : List (PolicyCall m O)) (op : RetryState → m O)

/-- Where a chain on `AsyncRetry` starts. -/
inductive AsyncEntry (m : Type → Type) (Fut O : Type) : Type 1 where
  | retryAsync (op : AsyncRetryOp m Fut O)
  | retryAsyncExt (op : AsyncClosure m Fut O)
  | policy (calls : List (PolicyCall m O)) (op : AsyncRetryOp m Fut O)

section Entries

variable {m : Type → Type} [Monad m] {Fut R A O : Type}

/-- The policy that some calls on `RetryPolicy::new()` build. -/
def RetryPolicy.built (calls : List (PolicyCall m O)) : RetryPolicy m O :=
  calls.foldl PolicyCall.apply .new

def SyncEntry.builder : SyncEntry m O → RetryBuilder m R A O
  | .retry op => Relentless.retry op
  | .retryExt op => RetryExt.retry op
  | .policy calls op => (RetryPolicy.built calls).retry op

def AsyncEntry.builder : AsyncEntry m Fut O → AsyncRetryBuilder m Fut R A O
  | .retryAsync op => Relentless.retryAsync op
  | .retryAsyncExt op => AsyncRetryExt.retryAsync op
  | .policy calls op => (RetryPolicy.built calls).retryAsync op

/-- The calls on the policy that the chain starts with, if it starts with one. -/
def SyncEntry.policyCalls : SyncEntry m O → List (PolicyCall m O)
  | .retry _ | .retryExt _ => []
  | .policy calls _ => calls

def SyncEntry.op : SyncEntry m O → RetryState → m O
  | .retry op => op
  | .retryExt op => StatelessOp op
  | .policy _ op => op

def AsyncEntry.policyCalls : AsyncEntry m Fut O → List (PolicyCall m O)
  | .retryAsync _ | .retryAsyncExt _ => []
  | .policy calls _ => calls

def AsyncEntry.op : AsyncEntry m Fut O → AsyncRetryOp m Fut O
  | .retryAsync op => op
  | .retryAsyncExt op => op.statelessOp
  | .policy _ op => op

end Entries

end Relentless
