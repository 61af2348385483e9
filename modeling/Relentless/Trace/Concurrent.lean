import Relentless.Library.Isolation
import Relentless.Trace.AsyncConformance
import Relentless.Trace.Recorder

/-!
# Runs among Other Threads

Configurations whose parts are threads: every call of the engine takes as many steps as it
likes on a world that other threads change between any two of them.  A run of such a
configuration is a thread itself, and what it notes is its call log.

- `Retry.threaded`, `AsyncRetry.threaded` — configurations that note their calls
- `Retry.alone`, `AsyncRetry.alone` — the same, with nobody else but a world that changes
- `replayRel` — a thread and its replay, as a relation for all code
- `Retry.PartsMove`, `AsyncRetry.PartsMove` — what the parts can do to the world
- `Retry.replay_threaded`, `AsyncRetry.replay_threaded` — a run among others, replayed
- `EngineRun` — a run of one of the two engines, for threads that run both
-/

namespace Relentless

open StateLoop
open Interleaving (Run)

variable {σ R A O Fut WaitFut : Type}

/-! ## §1 Configurations of threads -/

/-- Threads are those of a release build. -/
instance threadBuild {E : Type} : Build (Thread σ E) where
  debugAssert _ _ := pure ()

/-- A call notes its event in the log of the thread that makes it. -/
def Recorder.thread : Recorder (Thread σ Empty) (Thread σ (Event R A O)) R A O where
  lift := Thread.silent
  record := Thread.record

/-- A sync configuration of threads, which notes every call. -/
def Retry.threaded (self : Retry (Thread σ Empty) R A O) : Retry (Thread σ (Event R A O)) R A O :=
  self.recorded .thread

/-- An async configuration of threads, which notes every call, poll and wake. -/
def AsyncRetry.threaded (self : AsyncRetry (Thread σ Empty) Fut WaitFut R A O) :
    AsyncRetry (Thread σ (Event R A O)) Fut WaitFut R A O :=
  self.recorded .thread

/-- A sync configuration of threads, whose world others change as a replay says. -/
def Retry.alone (self : Retry (Thread σ Empty) R A O) :
    Retry (Eff (Thread.Replay σ)) R A O :=
  self.into Thread.alone

/-- An async configuration of threads, whose world others change as a replay says. -/
def AsyncRetry.alone (self : AsyncRetry (Thread σ Empty) Fut WaitFut R A O) :
    AsyncRetry (Eff (Thread.Replay σ)) Fut WaitFut R A O :=
  self.into Thread.alone

/-! ## §2 Replays of runs -/

/-- A thread that notes calls, and a computation on a traced world that does what the replay
of the thread does. -/
def replayRel : MonadRel (Thread σ (Event R A O)) (Eff (Traced (Thread.Replay σ) R A O)) where
  rel x y := ∀ r log, x.replay (r, log) =
    ((y ⟨r, log⟩).1, ((y ⟨r, log⟩).2.world, (y ⟨r, log⟩).2.log))
  pure _ _ _ := rfl
  bind hx hf r log := by
    rw [Thread.replay_bind, Eff.bind_apply, hx r log]
    exact hf _ _ _

theorem Recorder.agree_thread : Recorder.Agree (replayRel (σ := σ)) Thread.alone
    (Recorder.thread (R := R) (A := A) (O := O)) Recorder.traced where
  debugAssert _ _ _ _ := rfl
  lift x r log := Thread.replay_silent x r log
  record _ _ _ := rfl

namespace Retry

variable {self : Retry (Thread σ Empty) R A O}

/-- A run among others, replayed, is the traced run of the configuration on its own. -/
theorem replay_threaded (self : Retry (Thread σ Empty) R A O) (n : ℕ) (r : Thread.Replay σ)
    (log : List (Event R A O)) :
    (self.threaded.runFor n).replay (r, log) =
      ((self.alone.traced.runFor n ⟨r, log⟩).1,
        ((self.alone.traced.runFor n ⟨r, log⟩).2.world,
          (self.alone.traced.runFor n ⟨r, log⟩).2.log)) :=
  (self.related_recorded Recorder.agree_thread).runFor n r log

end Retry

namespace AsyncRetry

variable (self : AsyncRetry (Thread σ Empty) Fut WaitFut R A O)

/-- Polls among others, replayed, are traced polls of the configuration on its own. -/
theorem replay_threaded (cxs : ℕ → Context) (fuel : ℕ → ℕ) (j : ℕ) (r : Thread.Replay σ)
    (log : List (Event R A O)) :
    (self.threaded.drive cxs fuel j).replay (r, log) =
      ((self.alone.traced.drive cxs fuel j ⟨r, log⟩).1,
        ((self.alone.traced.drive cxs fuel j ⟨r, log⟩).2.world,
          (self.alone.traced.drive cxs fuel j ⟨r, log⟩).2.log)) :=
  (self.related_recorded Recorder.agree_thread).drive cxs fuel j r log

end AsyncRetry

/-! ## §3 What runs do to the world -/

section Moves

variable {rely : σ → σ → Prop} {E α : Type}

/-- The threads that change the world as `rely` says, as a relation for all code. -/
def movesRel (rely : σ → σ → Prop) : MonadRel (Thread σ E) (Thread σ E) :=
  .of_keeps (fun x => x.Moves rely) (fun _ => trivial) fun hx hf => hx.bind hf

/-- Every hook of the slot changes the world as `rely` says. -/
def HookSlot.Move (rely : σ → σ → Prop) : HookSlot (Thread σ E) α → Prop
  | .unit => True
  | .chain first second => first.Move rely ∧ ∀ view, (second view).Moves rely

/-- The parts of a sync configuration, besides its clock, change the world as `rely` says. -/
structure Retry.PartsMove (rely : σ → σ → Prop) (retry : Retry (Thread σ Empty) R A O) :
    Prop where
  op : ∀ state, (retry.op state).Moves rely
  decide : ∀ outcome, (retry.classifier.decide outcome).Moves rely
  shouldStop : ∀ state, (retry.stop.shouldStop state).Moves rely
  nextWait : ∀ state, (retry.wait.nextWait state).Moves rely
  beforeAttempt : retry.hooks.beforeAttempt.Move rely
  afterAttempt : retry.hooks.afterAttempt.Move rely
  onExit : retry.hooks.onExit.Move rely

theorem Recorder.moves_logged (event : α → Event R A O) {x : Thread σ Empty α}
    (hx : x.Moves rely) : (Recorder.thread.logged event x).Moves rely :=
  hx.silent.bind fun _ => trivial

theorem Recorder.moves_announced (event : Event R A O) {x : Thread σ Empty α}
    (hx : x.Moves rely) : (Recorder.thread.announced event x).Moves rely :=
  Thread.Moves.bind (x := Recorder.thread.record event) trivial fun _ => hx.silent

theorem HookSlot.Move.recorded {slot : HookSlot (Thread σ Empty) α} (h : slot.Move rely)
    (event : ℕ → α → Event R A O) (view : α) :
    ((slot.recorded .thread event).call view).Moves rely := by
  induction slot generalizing view with
  | unit => trivial
  | chain first second ih =>
    exact (ih h.1 view).bind fun _ => Recorder.moves_announced _ (h.2 view)

/-- **Runs** do to the world what the parts do. -/
theorem Retry.PartsMove.threaded {self : Retry (Thread σ Empty) R A O} (h : self.PartsMove rely)
    (hnow : self.clock.now.Moves rely) (hwait : ∀ delay, (self.clock.wait delay).Moves rely)
    (n : ℕ) : (self.threaded.runFor n).Moves rely := by
  have hrelated : Retry.Related (movesRel rely) self.threaded self.threaded := by
    constructor
    case parts =>
      exact
        { debugAssert := fun _ _ => trivial
          decide := fun outcome => Recorder.moves_logged _ (h.decide outcome)
          shouldStop := fun state => Recorder.moves_logged _ (h.shouldStop state)
          nextWait := fun state => Recorder.moves_logged _ (h.nextWait state)
          beforeAttempt := fun state => h.beforeAttempt.recorded _ state
          afterAttempt := fun state => h.afterAttempt.recorded _ state
          onExit := fun exit => h.onExit.recorded _ exit }
    case op =>
      intro state
      exact Thread.Moves.bind (x := Recorder.thread.record (.op state)) trivial fun _ =>
        Recorder.moves_logged _ (h.op state)
    case now => exact Recorder.moves_logged _ hnow
    case wait => exact fun delay => Recorder.moves_announced (.wait delay) (hwait delay)
    case timeout => rfl
  exact hrelated.runFor n

/-- The parts of an async configuration, besides its clock, change the world as `rely` says. -/
structure AsyncRetry.PartsMove (rely : σ → σ → Prop)
    (retry : AsyncRetry (Thread σ Empty) Fut WaitFut R A O) : Prop where
  callOp : ∀ state, (retry.op.callOp state).Moves rely
  poll : ∀ future cx, (retry.op.poll future cx).Moves rely
  decide : ∀ outcome, (retry.classifier.decide outcome).Moves rely
  shouldStop : ∀ state, (retry.stop.shouldStop state).Moves rely
  nextWait : ∀ state, (retry.wait.nextWait state).Moves rely
  wakeByRef : ∀ cx, (retry.wakeByRef cx).Moves rely
  beforeAttempt : retry.hooks.beforeAttempt.Move rely
  afterAttempt : retry.hooks.afterAttempt.Move rely
  onExit : retry.hooks.onExit.Move rely

/-- **Polls** do to the world what the parts do. -/
theorem AsyncRetry.PartsMove.threaded {self : AsyncRetry (Thread σ Empty) Fut WaitFut R A O}
    (h : self.PartsMove rely) (hnow : self.clock.now.Moves rely)
    (hwait : ∀ delay, (self.clock.waitAsync delay).Moves rely)
    (hpoll : ∀ future cx, (self.clock.pollWait future cx).Moves rely) (cxs : ℕ → Context)
    (fuel : ℕ → ℕ) (j : ℕ) : (self.threaded.drive cxs fuel j).Moves rely := by
  have hrelated : AsyncRetry.Related (movesRel rely) self.threaded self.threaded := by
    constructor
    case parts =>
      exact
        { debugAssert := fun _ _ => trivial
          decide := fun outcome => Recorder.moves_logged _ (h.decide outcome)
          shouldStop := fun state => Recorder.moves_logged _ (h.shouldStop state)
          nextWait := fun state => Recorder.moves_logged _ (h.nextWait state)
          beforeAttempt := fun state => h.beforeAttempt.recorded _ state
          afterAttempt := fun state => h.afterAttempt.recorded _ state
          onExit := fun exit => h.onExit.recorded _ exit }
    case callOp => exact fun state => Recorder.moves_announced (.op state) (h.callOp state)
    case poll => exact fun future cx => Recorder.moves_logged _ (h.poll future cx)
    case now => exact Recorder.moves_logged _ hnow
    case waitAsync => exact fun delay => Recorder.moves_announced (.wait delay) (hwait delay)
    case pollWait => exact fun future cx => Recorder.moves_logged _ (hpoll future cx)
    case wakeByRef => exact fun cx => Recorder.moves_announced (.wake cx) (h.wakeByRef cx)
    case timeout => rfl
  exact hrelated.drive cxs fuel j

end Moves

/-! ## §4 Runs of either engine -/

/-- A run of `Retry::run` for so many rounds, or so many polls of a future at most. -/
inductive EngineRun (m : Type → Type) (R A O : Type) : Type 1 where
  | sync (retry : Retry m R A O) (rounds : ℕ)
  | async {Fut WaitFut : Type} (retry : AsyncRetry m Fut WaitFut R A O) (cxs : ℕ → Context)
      (fuel : ℕ → ℕ) (polls : ℕ)

namespace EngineRun

variable {m m' : Type → Type}

/-- What the run comes to. -/
def Answer : EngineRun m R A O → Type
  | .sync _ _ => Turn Cursor (Output R A O)
  | @async _ _ _ _ Fut WaitFut _ _ _ _ => Option (ℕ × AsyncRetry.PollResult Fut WaitFut R A O)

/-- The run, on a thread of its own that notes every call. -/
def thread : (self : EngineRun (Thread σ Empty) R A O) → Thread σ (Event R A O) self.Answer
  | .sync retry rounds => retry.threaded.runFor rounds
  | .async retry cxs fuel polls => retry.threaded.drive cxs fuel polls

/-- The run on the caller's own thread, in a world that nobody else changes. -/
def whole : (self : EngineRun (Thread σ Empty) R A O) → Eff (Traced σ R A O) self.Answer
  | .sync retry rounds => (retry.into Thread.whole).traced.runFor rounds
  | .async retry cxs fuel polls => (retry.into Thread.whole).traced.drive cxs fuel polls

/-- The run with another wait strategy. -/
def withWait (wait : Wait m) : EngineRun m R A O → EngineRun m R A O
  | .sync retry rounds => .sync { retry with wait } rounds
  | .async retry cxs fuel polls => .async { retry with wait } cxs fuel polls

/-- All its parts change the world as `rely` says. -/
def AllMove (rely : σ → σ → Prop) : EngineRun (Thread σ Empty) R A O → Prop
  | .sync retry _ => retry.PartsMove rely ∧ retry.clock.now.Moves rely ∧
    ∀ delay, (retry.clock.wait delay).Moves rely
  | .async retry _ _ _ => retry.PartsMove rely ∧ retry.clock.now.Moves rely ∧
    (∀ delay, (retry.clock.waitAsync delay).Moves rely) ∧
    ∀ future cx, (retry.clock.pollWait future cx).Moves rely

end EngineRun

end Relentless
