import Relentless.Engine.AsyncEngine

/-!
# Async Twins of a Sync Configuration

An async configuration with the same classifier, strategies, hooks, timeout and
clock readings as a sync one, whose futures do what the blocking calls do after
answering `Pending` any finite number of times.

- `Completes` — a future that is ready after finitely many polls
- `AsyncTwin` — the futures of a twin; `AsyncTwin.toAsync` — the configuration
- `AsyncTwin.delayed` — every choice of finitely many `Pending`s gives a twin
-/

namespace Relentless

variable {σ R A O : Type}

/-- Polled from `future` in a given world, under any contexts and with nothing else
happening in between, the future answers `Pending` finitely often and then is
ready with the answer, and in the world, of `goal`. -/
inductive Completes {Fut α : Type} (poll : Fut → Context → Eff σ (Poll α × Fut))
    (goal : α × σ) : Fut → σ → Prop where
  | intro (future : Fut) (w : σ)
      (hready : ∀ cx answer future' w',
        poll future cx w = ((.ready answer, future'), w') → (answer, w') = goal)
      (hpending : ∀ cx future' w',
        poll future cx w = ((.pending, future'), w') → Completes poll goal future' w') :
      Completes poll goal future w

/-- Futures that stand in for the blocking operation and the blocking wait. -/
structure AsyncTwin (sync : Retry (Eff σ) R A O) (Fut WaitFut : Type) where
  callOp : RetryState → Eff σ Fut
  pollOp : Fut → Context → Eff σ (Poll O × Fut)
  waitAsync : Duration → Eff σ WaitFut
  pollWait : WaitFut → Context → Eff σ (Poll Unit × WaitFut)
  op_completes : ∀ state w,
    Completes pollOp (sync.op state w) (callOp state w).1 (callOp state w).2
  wait_completes : ∀ delay w,
    Completes pollWait (sync.clock.wait delay w) (waitAsync delay w).1 (waitAsync delay w).2

namespace AsyncTwin

/-- The async configuration of a twin.  Waking changes nothing the run can see. -/
def toAsync {sync : Retry (Eff σ) R A O} {Fut WaitFut : Type} (twin : AsyncTwin sync Fut WaitFut) :
    AsyncRetry (Eff σ) Fut WaitFut R A O where
  op := { callOp := twin.callOp, poll := twin.pollOp }
  classifier := sync.classifier
  stop := sync.stop
  wait := sync.wait
  clock := { now := sync.clock.now, waitAsync := twin.waitAsync, pollWait := twin.pollWait }
  hooks := sync.hooks
  timeout := sync.timeout
  wakeByRef _ := pure ()

/-- A future that runs `x` when it has been polled `pending` times in vain. -/
def delayedPoll {α : Type} : ℕ × Eff σ α → Context → Eff σ (Poll α × (ℕ × Eff σ α))
  | (0, x), _ => fun w => ((.ready (x w).1, (0, x)), (x w).2)
  | (pending + 1, x), _ => fun w => ((.pending, (pending, x)), w)

theorem delayedPoll_completes {α : Type} (x : Eff σ α) (pending : ℕ) (w : σ) :
    Completes delayedPoll (x w) (pending, x) w := by
  induction pending with
  | zero =>
    refine .intro _ _ ?_ ?_
    · intro cx answer future' w' hpoll
      cases hpoll
      rfl
    · intro cx future' w' hpoll
      cases hpoll
  | succ pending ih =>
    refine .intro _ _ ?_ ?_
    · intro cx answer future' w' hpoll
      cases hpoll
    · intro cx future' w' hpoll
      cases hpoll
      exact ih

/-- The twin whose futures answer `Pending` as often as two functions say. -/
def delayed (sync : Retry (Eff σ) R A O) (opPending : RetryState → σ → ℕ)
    (waitPending : Duration → σ → ℕ) : AsyncTwin sync (ℕ × Eff σ O) (ℕ × Eff σ Unit) where
  callOp state := fun w => ((opPending state w, sync.op state), w)
  pollOp := delayedPoll
  waitAsync delay := fun w => ((waitPending delay w, sync.clock.wait delay), w)
  pollWait := delayedPoll
  op_completes state w := delayedPoll_completes (sync.op state) (opPending state w) w
  wait_completes delay w := delayedPoll_completes (sync.clock.wait delay) (waitPending delay w) w

end AsyncTwin

/-! ## A small configuration -/

/-- An operation that is busy twice and then answers, on a clock that counts the
nanoseconds spent in operations (three each) and waits. -/
def Retry.busyTwice (timeout : Option Duration) : Retry (Eff ℕ) ℕ String (Except String ℕ) where
  op state := fun now => (if state.attempt ≤ 2 then .error "busy" else .ok 7, now + 3)
  classifier := DefaultClassifier
  stop := .attempts 5
  wait := { nextWait := fun state => pure (if state.attempt = 1 then .zero else .ofNanos 5) }
  clock := { now := fun now => (.ofNanos now, now), wait := fun d now => ((), now + d.nanos) }
  hooks := ExecutionHooks.new.chainOnExit fun _ => pure ()
  timeout

/-- Its twin, with one `Pending` from every future. -/
def AsyncRetry.busyTwice (timeout : Option Duration) :=
  (AsyncTwin.delayed (.busyTwice timeout) (fun _ _ => 1) (fun _ _ => 1)).toAsync

end Relentless
