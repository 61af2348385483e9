import Relentless.Engine.Coupled
import Relentless.Library.Futures

/-!
# Watching the Inner Futures

The futures that `AsyncRun` creates and polls, one operation or one wait at a time.  Each
of them is given a number when it is created and keeps it, so that a log can tell which
future is polled.  As with the call logs, only the parts of the configuration are wrapped.

- `Watched` — a world, with the log of its futures
- `AsyncRetry.watched` — the configuration whose futures are numbered
- `AsyncRetry.watched_pollSequence` — it is polled as the configuration itself is
- `AsyncRetry.PollSequence.contract` — its log keeps the contract, however it is polled
- `AsyncRetry.PollSequence.polled_of_created` — and what a poll creates, it polls
-/

namespace Relentless

open StateLoop
open Eff (Couples Moves)
open Futures
open Labelled (Path path_append_iff path_singleton_iff)

/-! ## §1 Watched worlds -/

/-- The two kinds of futures that an async run holds. -/
inductive FutureKind where
  | op
  | wait
  deriving DecidableEq

/-- A world, the number of futures created in it so far, and the log of these futures. -/
structure Watched (σ : Type) where
  world : σ
  created : ℕ
  log : List (FutureEvent FutureKind)

/-- Before the first future. -/
def Watched.start {σ : Type} (w₀ : σ) : Watched σ := { world := w₀, created := 0, log := [] }

/-- Whether a poll was ready. -/
def Poll.isReady {α : Type} : Poll α → Bool
  | .pending => false
  | .ready _ => true

variable {σ R A O α F Fut WaitFut : Type}

/-- The world of a watched one. -/
def Watched.worldPart : Eff.Part σ (Watched σ) where
  get := Watched.world
  put w t := { t with world := w }
  get_put _ _ := rfl

/-- A computation that has to do with no future. -/
def unwatched (x : Eff σ α) : Eff (Watched σ) α := Watched.worldPart.run x

/-- The creation of a future, which gets the next number. -/
def watchCreated (kind : FutureKind) (x : Eff σ F) : Eff (Watched σ) (ℕ × F) :=
  fun t => ((t.created, (x t.world).1),
    { world := (x t.world).2, created := t.created + 1, log := t.log ++ [.created kind t.created] })

/-- A poll of the future with the given number, which it keeps. -/
def watchPolled (kind : FutureKind) (id : ℕ) (x : Eff σ (Poll α × F)) :
    Eff (Watched σ) (Poll α × (ℕ × F)) :=
  fun t => (((x t.world).1.1, (id, (x t.world).1.2)),
    { t with
      world := (x t.world).2
      log := t.log ++ [.polled kind id (x t.world).1.1.isReady] })

/-- An async configuration whose futures are numbered and watched. -/
def AsyncRetry.watched (self : AsyncRetry (Eff σ) Fut WaitFut R A O) :
    AsyncRetry (Eff (Watched σ)) (ℕ × Fut) (ℕ × WaitFut) R A O where
  op :=
    { callOp := fun state => watchCreated .op (self.op.callOp state)
      poll := fun future cx => watchPolled .op future.1 (self.op.poll future.2 cx) }
  classifier := ⟨fun outcome => unwatched (self.classifier.decide outcome)⟩
  stop := ⟨fun state => unwatched (self.stop.shouldStop state)⟩
  wait := ⟨fun state => unwatched (self.wait.nextWait state)⟩
  clock :=
    { now := unwatched self.clock.now
      waitAsync := fun delay => watchCreated .wait (self.clock.waitAsync delay)
      pollWait := fun future cx => watchPolled .wait future.1 (self.clock.pollWait future.2 cx) }
  hooks := self.hooks.into unwatched
  timeout := self.timeout
  wakeByRef cx := unwatched (self.wakeByRef cx)

/-! ## §2 Watching changes nothing -/

/-- What a watched world adds to a world. -/
def Watches (w : σ) (t : Watched σ) : Prop := t.world = w

/-- A future, and the same one with its number. -/
def SameFuture (future : F) (numbered : ℕ × F) : Prop := numbered.2 = future

theorem couples_watchCreated (kind : FutureKind) (x : Eff σ F) :
    Couples Watches SameFuture x (watchCreated kind x) := by
  rintro _ t rfl
  exact ⟨rfl, rfl⟩

theorem couples_watchPolled (kind : FutureKind) (id : ℕ) (x : Eff σ (Poll α × F)) :
    Couples Watches (fun answer answer' => answer.1 = answer'.1 ∧ SameFuture answer.2 answer'.2)
      x (watchPolled kind id x) := by
  rintro _ t rfl
  exact ⟨⟨rfl, rfl⟩, rfl⟩

namespace AsyncRetry

variable (self : AsyncRetry (Eff σ) Fut WaitFut R A O)

theorem coupled_watched : Coupled Watches SameFuture SameFuture self self.watched where
  parts :=
    { decide := fun outcome => Watched.worldPart.couples (self.classifier.decide outcome)
      shouldStop := fun state => Watched.worldPart.couples (self.stop.shouldStop state)
      nextWait := fun state => Watched.worldPart.couples (self.wait.nextWait state)
      beforeAttempt := fun state =>
        HookSlot.couples_into Watched.worldPart.couples self.hooks.beforeAttempt state
      afterAttempt := fun state =>
        HookSlot.couples_into Watched.worldPart.couples self.hooks.afterAttempt state
      onExit := fun exit => HookSlot.couples_into Watched.worldPart.couples self.hooks.onExit exit }
  callOp state := couples_watchCreated .op (self.op.callOp state)
  poll := by
    rintro _ ⟨id, future⟩ cx rfl
    exact couples_watchPolled .op id (self.op.poll future cx)
  now := Watched.worldPart.couples self.clock.now
  waitAsync delay := couples_watchCreated .wait (self.clock.waitAsync delay)
  pollWait := by
    rintro _ ⟨id, future⟩ cx rfl
    exact couples_watchPolled .wait id (self.clock.pollWait future cx)
  wakeByRef cx := Watched.worldPart.couples (self.wakeByRef cx)
  timeout := rfl

/-- **Watched or not**, the polls of a configuration go the same way. -/
theorem watched_pollSequence {cxs : ℕ → Context} {w₀ : σ}
    {results : List (PollEnd (Output R A O))} {w : σ} {run : AsyncRun Fut WaitFut}
    (h : self.PollSequence cxs w₀ results w run) :
    ∃ t run', self.watched.PollSequence cxs (.start w₀) results t run' ∧ t.world = w ∧
      run.Matches SameFuture SameFuture run' :=
  self.coupled_watched.pollSequence rfl h

end AsyncRetry

/-! ## §3 What the parts do to the log -/

/-- Nothing has happened to any future. -/
def Still (t t' : Watched σ) : Prop := t'.created = t.created ∧ t'.log = t.log

instance : Std.Refl (Still (σ := σ)) := ⟨fun _ => ⟨rfl, rfl⟩⟩

instance : IsTrans (Watched σ) Still :=
  ⟨fun _ _ _ h h' => ⟨h'.1.trans h.1, h'.2.trans h.2⟩⟩

/-- Something may have happened, and the log says so. -/
def Lengthens (t t' : Watched σ) : Prop := t.log <+: t'.log

instance : Std.Refl (Lengthens (σ := σ)) := ⟨fun t => List.prefix_refl t.log⟩

instance : IsTrans (Watched σ) Lengthens := ⟨fun _ _ _ h h' => h.trans h'⟩

theorem Still.lengthens {t t' : Watched σ} (h : Still t t') : Lengthens t t' :=
  ⟨[], (List.append_nil t.log).trans h.2.symm⟩

theorem moves_unwatched (x : Eff σ α) : Moves Still (unwatched x) :=
  Watched.worldPart.moves (fun _ _ => ⟨rfl, rfl⟩) x

namespace AsyncRetry

variable (self : AsyncRetry (Eff σ) Fut WaitFut R A O)

/-- No future is created or polled by what an attempt consults. -/
theorem watched_parts : StepMoves Still self.watched.classifier self.watched.stop
    self.watched.wait self.watched.hooks where
  decide outcome := moves_unwatched (self.classifier.decide outcome)
  shouldStop state := moves_unwatched (self.stop.shouldStop state)
  nextWait state := moves_unwatched (self.wait.nextWait state)
  beforeAttempt state := HookSlot.moves_into moves_unwatched self.hooks.beforeAttempt state
  afterAttempt state := HookSlot.moves_into moves_unwatched self.hooks.afterAttempt state
  onExit exit := HookSlot.moves_into moves_unwatched self.hooks.onExit exit

/-- A poll only adds to the log. -/
theorem watched_allMove : self.watched.AllMove Lengthens where
  parts := self.watched_parts.mono fun _ _ h => Still.lengthens h
  callOp _ := fun _ => List.prefix_append _ _
  poll _ _ := fun _ => List.prefix_append _ _
  now := (moves_unwatched self.clock.now).mono fun _ _ h => Still.lengthens h
  waitAsync _ := fun _ => List.prefix_append _ _
  pollWait _ _ := fun _ => List.prefix_append _ _
  wakeByRef cx := (moves_unwatched (self.wakeByRef cx)).mono fun _ _ h => Still.lengthens h

end AsyncRetry

/-! ## §4 One future at a time -/

/-- All futures that were created have been ready. -/
def Idle (t : Watched σ) : Prop := Path Slot.Step .start t.log ⟨t.created, .idle⟩

/-- The future with this number is the last one that was created, and has not been ready. -/
def Holding (kind : FutureKind) (id : ℕ) (t : Watched σ) : Prop :=
  t.created = id + 1 ∧
    ∃ stage, stage.Holds kind ∧ Path Slot.Step .start t.log ⟨t.created, stage⟩

/-- The future with this number has moreover been polled. -/
def Waiting (kind : FutureKind) (id : ℕ) (t : Watched σ) : Prop :=
  t.created = id + 1 ∧ Path Slot.Step .start t.log ⟨t.created, .waiting kind⟩

section Futures

variable {kind : FutureKind} {id : ℕ} {t t' : Watched σ}

theorem Idle.still (h : Idle t) (hstill : Still t t') : Idle t' := by
  rw [Idle, hstill.1, hstill.2]
  exact h

theorem Idle.created (h : Idle t) (x : Eff σ F) :
    Holding kind (watchCreated kind x t).1.1 (watchCreated kind x t).2 :=
  ⟨rfl, .fresh kind, rfl, h.append (path_singleton_iff.mpr (.created t.created kind))⟩

theorem Waiting.holding (h : Waiting kind id t) : Holding kind id t :=
  ⟨h.1, .waiting kind, rfl, h.2⟩

theorem Waiting.still (h : Waiting kind id t) (hstill : Still t t') : Waiting kind id t' := by
  rw [Waiting, hstill.1, hstill.2]
  exact h

/-- A poll of the future that is held takes the log to the next stage. -/
theorem Holding.polled (h : Holding kind id t) {x : Eff σ (Poll α × F)} {ready : Bool}
    {next : Stage FutureKind} (hready : (x t.world).1.1.isReady = ready)
    (hstep : ∀ stage, stage.Holds kind →
      Slot.Step ⟨id + 1, stage⟩ (.polled kind id ready) ⟨id + 1, next⟩) :
    Path Slot.Step .start (watchPolled kind id x t).2.log ⟨t.created, next⟩ := by
  obtain ⟨hcreated, stage, hholds, hpath⟩ := h
  show Path Slot.Step .start (t.log ++ [.polled kind id (x t.world).1.1.isReady]) _
  rw [hcreated] at hpath ⊢
  rw [hready]
  exact hpath.append (path_singleton_iff.mpr (hstep stage hholds))

/-- A poll in vain leaves the future where it is. -/
theorem Holding.pending (h : Holding kind id t) {x : Eff σ (Poll α × F)}
    (hanswer : (x t.world).1.1 = .pending) : Waiting kind id (watchPolled kind id x t).2 :=
  ⟨h.1, h.polled (by rw [hanswer]; rfl) fun stage hholds => .pending id kind stage hholds⟩

/-- A future that is ready is let go. -/
theorem Holding.ready (h : Holding kind id t) {x : Eff σ (Poll α × F)} {value : α}
    (hanswer : (x t.world).1.1 = .ready value) : Idle (watchPolled kind id x t).2 :=
  h.polled (by rw [hanswer]; rfl) fun stage hholds => .ready id kind stage hholds

end Futures

/-- Within a poll, a run in this phase holds the future that the phase says. -/
def HeldIn (t : Watched σ) : Phase (ℕ × Fut) (ℕ × WaitFut) → Prop
  | .polling future => Holding .op future.1 t
  | .sleeping future => Holding .wait future.1 t
  | .readyToStart | .yielding | .done => Idle t

/-- Between polls, that future has been polled. -/
def AtRest (t : Watched σ) : Phase (ℕ × Fut) (ℕ × WaitFut) → Prop
  | .polling future => Waiting .op future.1 t
  | .sleeping future => Waiting .wait future.1 t
  | .readyToStart | .yielding | .done => Idle t

/-- After a pass of the poll loop. -/
def TurnHeld : Turn (AsyncRetry.LoopState (ℕ × Fut) (ℕ × WaitFut))
    (AsyncRetry.PollResult (ℕ × Fut) (ℕ × WaitFut) R A O) → Watched σ → Prop
  | .again state, t => HeldIn t state.2.phase
  | .done (_, run), t => AtRest t run.phase

section Phases

variable {t t' : Watched σ} {phase : Phase (ℕ × Fut) (ℕ × WaitFut)}

theorem AtRest.heldIn (h : AtRest t phase) : HeldIn t phase := by
  cases phase with
  | polling future | sleeping future => exact Waiting.holding h
  | readyToStart | yielding | done => exact h

theorem AtRest.still (h : AtRest t phase) (hstill : Still t t') : AtRest t' phase := by
  cases phase with
  | polling future | sleeping future => exact Waiting.still h hstill
  | readyToStart | yielding | done => exact Idle.still h hstill

theorem HeldIn.contract (h : HeldIn t phase) : FutureContract t.log := by
  cases phase with
  | polling future | sleeping future =>
    obtain ⟨-, stage, -, hpath⟩ := h
    exact Slot.Path.contract hpath
  | readyToStart | yielding | done => exact Slot.Path.contract h

/-- Between polls no future is left that has not been polled. -/
theorem AtRest.settled (h : AtRest t phase) :
    ∃ slot, Path Slot.Step .start t.log slot ∧ slot.stage.Settled := by
  cases phase with
  | polling future | sleeping future => exact ⟨_, h.2, trivial⟩
  | readyToStart | yielding | done => exact ⟨_, h, trivial⟩

end Phases

namespace AsyncRetry

variable (self : AsyncRetry (Eff σ) Fut WaitFut R A O) (cx : Context)

/-- A run that holds no future creates at most the one it then sleeps on. -/
theorem proceed_held (elapsed : Elapsed) (run : RunFields (ℕ × Fut) (ℕ × WaitFut))
    (next : Step R A O) {t : Watched σ} (h : Idle t) :
    TurnHeld (self.watched.proceed cx elapsed run next t).1
      (self.watched.proceed cx elapsed run next t).2 := by
  cases next with
  | done result stats => exact h
  | continue_ delay running =>
    unfold proceed
    dsimp only
    cases delay.isZero with
    | true => exact h.still (moves_unwatched (self.wakeByRef cx) t)
    | false => exact h.created (self.clock.waitAsync delay)

/-- **One pass** of the poll loop lets go of a future when it is ready, and only then takes
the next one. -/
theorem pollBody_held (state : LoopState (ℕ × Fut) (ℕ × WaitFut)) (t : Watched σ)
    (h : TurnHeld (.again state : Turn _ (PollResult _ _ R A O)) t) :
    TurnHeld (self.watched.pollBody cx state t).1 (self.watched.pollBody cx state t).2 := by
  obtain ⟨elapsed, phase, attempt, previousDelay, totalWait⟩ := state
  cases phase with
  | readyToStart =>
    -- The reading and the hooks come before the operation is called.
    have hread := moves_unwatched self.clock.now t
    have hhooks := self.watched_parts.beforeAttempt
      { attempt, elapsed := (elapsed.observe (self.clock.now t.world).1).highest, previousDelay }
      (unwatched self.clock.now t).2
    exact Idle.created (h.still (trans_of Still hread hhooks)) _
  | polling future =>
    obtain ⟨⟨⟨answer, future'⟩, w⟩, hpoll⟩ :
      ∃ polled, self.op.poll future.2 cx t.world = polled := ⟨_, rfl⟩
    have hwatched : self.watched.op.poll future cx t =
        ((answer, (future.1, future')),
          (watchPolled .op future.1 (self.op.poll future.2 cx) t).2) := by
      simp [watched, watchPolled, hpoll]
    cases answer with
    | pending =>
      rw [self.watched.pollBody_polling_pending rfl hwatched]
      exact Holding.pending h (by rw [hpoll])
    | ready outcome =>
      rw [self.watched.pollBody_polling_ready rfl hwatched]
      have hidle := Holding.ready h (x := self.op.poll future.2 cx) (by rw [hpoll])
      -- Neither the second reading nor the decision touches a future.
      have hread := moves_unwatched self.clock.now
        (watchPolled .op future.1 (self.op.poll future.2 cx) t).2
      refine self.proceed_held cx _ _ _ ((hidle.still hread).still ?_)
      exact self.watched_parts.step _ _ _ _
  | sleeping future =>
    obtain ⟨⟨⟨answer, future'⟩, w⟩, hpoll⟩ :
      ∃ polled, self.clock.pollWait future.2 cx t.world = polled := ⟨_, rfl⟩
    have hwatched : self.watched.clock.pollWait future cx t =
        ((answer, (future.1, future')),
          (watchPolled .wait future.1 (self.clock.pollWait future.2 cx) t).2) := by
      simp [watched, watchPolled, hpoll]
    cases answer with
    | pending =>
      rw [self.watched.pollBody_sleeping_pending rfl hwatched]
      exact Holding.pending h (by rw [hpoll])
    | ready value =>
      rw [self.watched.pollBody_sleeping_ready rfl hwatched]
      exact Holding.ready h (by rw [hpoll])
  -- The last two phases hold no future, and create none.
  | yielding => exact h
  | done => exact h

/-- **A poll**, however far it gets. -/
theorem pollFor_held (n : ℕ) (run : AsyncRun (ℕ × Fut) (ℕ × WaitFut)) (t : Watched σ)
    (h : AtRest t run.phase) :
    TurnHeld (self.watched.pollFor n cx run t).1 (self.watched.pollFor n cx run t).2 := by
  have hbegin : Still t (self.watched.startElapsed run t).2 := by
    unfold startElapsed
    cases run.elapsed with
    | some elapsed => exact refl_of Still t
    | none => exact moves_unwatched self.clock.now t
  exact runFor_keeps (P := TurnHeld) (fun state t h => self.pollBody_held cx state t h) n
    (h.still hbegin).heldIn

variable {self} {cxs : ℕ → Context} {w₀ : σ} {results : List (PollEnd (Output R A O))}
  {t : Watched σ} {run : AsyncRun (ℕ × Fut) (ℕ × WaitFut)}

/-- Between any two polls the run is at rest. -/
theorem PollSequence.atRest (h : self.watched.PollSequence cxs (.start w₀) results t run) :
    AtRest t run.phase := by
  induction h with
  | created => exact Path.nil Slot.start
  | poll results n t t' run run' result hprev hpoll ih =>
    have hheld := self.pollFor_held (cxs results.length) n run t ih
    rw [hpoll] at hheld
    exact hheld

/-- **The contract of the inner futures** is kept at any point of the next poll. -/
theorem PollSequence.contract (h : self.watched.PollSequence cxs (.start w₀) results t run)
    (cx : Context) (n : ℕ) : FutureContract (self.watched.pollFor n cx run t).2.log := by
  have hheld := self.pollFor_held cx n run t h.atRest
  obtain ⟨⟨turn, t'⟩, hpoll⟩ : ∃ polled, self.watched.pollFor n cx run t = polled := ⟨_, rfl⟩
  rw [hpoll] at hheld ⊢
  cases turn with
  | again state => exact HeldIn.contract hheld
  | done ended => exact (AtRest.heldIn hheld).contract

/-- **Every future is polled in the poll that creates it.** -/
theorem PollSequence.polled_of_created
    (h : self.watched.PollSequence cxs (.start w₀) results t run) {cx : Context} {n : ℕ}
    {ended : PollResult (ℕ × Fut) (ℕ × WaitFut) R A O} {t' : Watched σ}
    (hpoll : self.watched.pollFor n cx run t = (.done ended, t')) :
    ∃ added, t'.log = t.log ++ added ∧ ∀ kind id, .created kind id ∈ added →
      ∃ ready, .polled kind id ready ∈ added := by
  have hgrows : Lengthens t (self.watched.pollFor n cx run t).2 :=
    self.watched_allMove.pollFor n cx run t
  have hheld := self.pollFor_held cx n run t h.atRest
  rw [hpoll] at hgrows hheld
  obtain ⟨added, hadded⟩ := hgrows
  refine ⟨added, hadded.symm, fun kind id hcreated => ?_⟩
  -- The poll ends with no future that has not been polled, and what it adds is a path.
  obtain ⟨slot, hpath, hsettled⟩ := AtRest.settled hheld
  rw [← hadded] at hpath
  obtain ⟨slot₁, -, hlater⟩ := path_append_iff.mp hpath
  exact Slot.Path.polled_of_created hlater hsettled hcreated

end AsyncRetry

end Relentless
