import Relentless.Engine.AsyncEngine
import Relentless.Engine.DebugBuild
import Relentless.Trace.Event

/-!
# A Timeout Is an Elapsed Stop and a Clamped Wait

`.timeout(T)` over a stop strategy `s` and a wait strategy `w` is the run without a
timeout over `s | stop::elapsed(T)` and `w` clamped to the remaining budget.

- `step_timeout` — the decision step cannot tell the two apart, in any monad
- `timeout_is_elapsed_stop` — neither can runs, in either engine and either build
-/

namespace Relentless

open StateLoop

variable {m : Type → Type} [Monad m] [Build m] {Fut WaitFut R A O : Type}

/-! ## §1 The two configurations -/

/-- The wait strategy that returns `min(w.next_wait(state), T - state.elapsed)`. -/
def Wait.clampedTo (wait : Wait m) (T : Duration) : Wait m where
  nextWait state := do
    let delay ← wait.nextWait state
    return min delay (T.saturatingSub state.elapsed)

/-- `.timeout(T)`. -/
def Retry.withTimeout (self : Retry m R A O) (T : Duration) : Retry m R A O :=
  { self with timeout := some T }

/-- The same without a timeout: `s | stop::elapsed(T)`, and the clamped wait. -/
def Retry.withElapsedStop (self : Retry m R A O) (T : Duration) : Retry m R A O :=
  { self with stop := .any self.stop (.elapsed T), wait := self.wait.clampedTo T, timeout := none }

def AsyncRetry.withTimeout (self : AsyncRetry m Fut WaitFut R A O) (T : Duration) :
    AsyncRetry m Fut WaitFut R A O :=
  { self with timeout := some T }

def AsyncRetry.withElapsedStop (self : AsyncRetry m Fut WaitFut R A O) (T : Duration) :
    AsyncRetry m Fut WaitFut R A O :=
  { self with stop := .any self.stop (.elapsed T), wait := self.wait.clampedTo T, timeout := none }

/-! ## §2 One step -/

section Lawful

variable [LawfulMonad m]

theorem step_timeout (progress : Progress) (outcome : O) (classifier : Decide m R A O)
    (stop : Stop m) (wait : Wait m) (T : Duration) (hooks : ExecutionHooks m R A O) :
    step progress outcome classifier stop wait (some T) hooks =
      step progress outcome classifier (.any stop (.elapsed T)) (wait.clampedTo T) none hooks := by
  obtain ⟨attempt, elapsed, previousDelay, totalWait⟩ := progress
  unfold step
  apply bind_congr
  intro attemptState
  apply bind_congr
  intro _
  apply bind_congr
  intro state
  apply bind_congr
  intro verdict
  cases verdict with
  | return_ value | abort last => rfl
  | retry last =>
    -- Both consult `stop` once and compare one elapsed time, then both consult `wait` once.
    simp [Stop.any, Stop.elapsed, Wait.clampedTo, timeoutExceeded, clampDelay,
      RetryState.withElapsed, RetryState.withPreviousDelay]

theorem Retry.loopBody_timeout (self : Retry m R A O) (T : Duration) (cursor : Cursor) :
    (self.withTimeout T).loopBody cursor = (self.withElapsedStop T).loopBody cursor := by
  unfold loopBody
  simp only [withTimeout, step_timeout]
  rfl

theorem AsyncRetry.pollBody_timeout (self : AsyncRetry m Fut WaitFut R A O) (T : Duration)
    (cx : Context) (state : LoopState Fut WaitFut) :
    (self.withTimeout T).pollBody cx state = (self.withElapsedStop T).pollBody cx state := by
  obtain ⟨elapsed, phase, attempt, previousDelay, totalWait⟩ := state
  cases phase with
  | readyToStart | sleeping future | yielding | done => rfl
  | polling future =>
    simp only [pollBody, withTimeout, step_timeout]
    rfl

/-! ## §3 Whole runs -/

theorem Retry.runFor_timeout (self : Retry m R A O) (T : Duration) (n : ℕ) :
    (self.withTimeout T).runFor n = (self.withElapsedStop T).runFor n := by
  unfold runFor
  rw [StateLoop.runFor_congr (self.loopBody_timeout T)]
  rfl

theorem AsyncRetry.pollFor_timeout (self : AsyncRetry m Fut WaitFut R A O) (T : Duration) (n : ℕ)
    (cx : Context) (run : AsyncRun Fut WaitFut) :
    (self.withTimeout T).pollFor n cx run = (self.withElapsedStop T).pollFor n cx run := by
  unfold pollFor
  rw [StateLoop.runFor_congr (self.pollBody_timeout T cx)]
  rfl

end Lawful

variable {σ : Type}

/-- Two futures whose polls agree are polled alike. -/
theorem AsyncRetry.PolledTo.congr {self other : AsyncRetry (Eff σ) Fut WaitFut R A O}
    (hsame : ∀ n cx run, self.pollFor n cx run = other.pollFor n cx run)
    {cxs : ℕ → Context} {w₀ w : σ} {j : ℕ} {run : AsyncRun Fut WaitFut}
    {result : PollEnd (Output R A O)} (h : self.PolledTo cxs w₀ j w run result) :
    other.PolledTo cxs w₀ j w run result := by
  induction h with
  | created => exact .created
  | poll j n w w' run run' result hprev hpoll ih =>
    rw [hsame] at hpoll
    exact .poll j n w w' run run' result ih hpoll

theorem AsyncRetry.DebugPolledTo.congr {self other : AsyncRetry (Eff σ) Fut WaitFut R A O}
    (hsame : ∀ n cx run, self.debug.pollFor n cx run = other.debug.pollFor n cx run)
    {cxs : ℕ → Context} {w₀ w : σ} {j : ℕ}
    {ended : Except Panic (AsyncRun Fut WaitFut × PollEnd (Output R A O))}
    (h : self.DebugPolledTo cxs w₀ j w ended) : other.DebugPolledTo cxs w₀ j w ended := by
  induction h with
  | created => exact .created
  | poll j n w w' run run' result hprev hpoll ih =>
    rw [hsame] at hpoll
    exact .poll j n w w' run run' result ih hpoll
  | panic j n w w' run panic hprev hpoll ih =>
    rw [hsame] at hpoll
    exact .panic j n w w' run panic ih hpoll

/-- **A timeout is an elapsed stop and a clamped wait.**  For any number of rounds, or
polls, and in either build, the two runs log the same calls with the same arguments and
answers, those of the strategies included, leave the same world, and stand in the same
place or return the same result and statistics. -/
theorem timeout_is_elapsed_stop (sync : Retry (Eff σ) R A O)
    (async : AsyncRetry (Eff σ) Fut WaitFut R A O) (T : Duration) (w₀ : σ) :
    (∀ n, (sync.withTimeout T).traced.runFor n ⟨w₀, []⟩ =
      (sync.traced.withElapsedStop T).runFor n ⟨w₀, []⟩) ∧
    (∀ n, (sync.withTimeout T).traced.debug.runFor n ⟨w₀, []⟩ =
      (sync.traced.withElapsedStop T).debug.runFor n ⟨w₀, []⟩) ∧
    (∀ cxs j t run result, (async.withTimeout T).traced.PolledTo cxs ⟨w₀, []⟩ j t run result ↔
      (async.traced.withElapsedStop T).PolledTo cxs ⟨w₀, []⟩ j t run result) ∧
    (∀ cxs j t ended, (async.withTimeout T).traced.DebugPolledTo cxs ⟨w₀, []⟩ j t ended ↔
      (async.traced.withElapsedStop T).DebugPolledTo cxs ⟨w₀, []⟩ j t ended) := by
  refine ⟨?_, ?_, ?_, ?_⟩
  · intro n
    exact congrFun (sync.traced.runFor_timeout T n) _
  · intro n
    exact congrFun (sync.traced.debug.runFor_timeout T n) _
  · intro cxs j t run result
    have hsame := async.traced.pollFor_timeout T
    exact ⟨.congr hsame, .congr fun n cx run => (hsame n cx run).symm⟩
  · intro cxs j t ended
    have hsame : ∀ n cx run, (async.withTimeout T).traced.debug.pollFor n cx run =
        (async.traced.withElapsedStop T).debug.pollFor n cx run :=
      async.traced.debug.pollFor_timeout T
    exact ⟨.congr hsame, .congr fun n cx run => (hsame n cx run).symm⟩

end Relentless
