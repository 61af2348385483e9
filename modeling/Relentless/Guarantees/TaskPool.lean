import Relentless.Engine.AsyncTwin
import Relentless.Engine.Coupled
import Relentless.Library.Interleaving
import Relentless.Trace.Grammar

/-!
# Tasks of One Executor

Futures that one executor polls in any order, each only when its waker was woken.  An engine
that returns `Pending` without a waker in somebody's hands strands its task; an engine that
goes on for ever within a poll, or is pending again and again, starves the others.

- `Patience` — how long the parts of a run can keep it waiting
- `AsyncRetry.Patient.pollFor` — every poll returns, and each pending poll uses some up
- `AsyncRetry.Wakes` — futures that keep the waker they are polled with
- `AsyncTask.Turn` — the executor polls a task
- `served_of_run` — no task is stranded, and none is polled too often
- `FairExecutor` — an executor that goes on for ever and leaves nobody out
- `executor_finishes` — all tasks finish
-/

namespace Relentless

open StateLoop
open Interleaving (Run play)
open Eff (Moves Part)

variable {σ Fut WaitFut R A O : Type}

/-! ## §1 Patience -/

/-- How many attempts a run may make, and how often the futures of one attempt and of one gap
may be pending; the ranks say how often a future may still be. -/
structure Patience (Fut WaitFut : Type) where
  attempts : ℕ
  opPending : ℕ
  waitPending : ℕ
  opRank : Fut → ℕ
  waitRank : WaitFut → ℕ

namespace Patience

/-- The pending polls from one attempt to the next: a gap has one at least, when it yields. -/
def perAttempt (p : Patience Fut WaitFut) : ℕ := p.opPending + max p.waitPending 1

/-- The pending polls that are left. -/
def pollsLeft (p : Patience Fut WaitFut) (run : RunFields Fut WaitFut) : ℕ :=
  match run.phase with
  | .readyToStart => (p.attempts - run.attempt.toNat) * p.perAttempt + p.opPending
  | .polling future => (p.attempts - run.attempt.toNat) * p.perAttempt + p.opRank future
  | .sleeping future =>
    (p.attempts - (run.attempt.toNat + 1)) * p.perAttempt + p.opPending + p.waitRank future
  | .yielding => (p.attempts - (run.attempt.toNat + 1)) * p.perAttempt + p.opPending
  | .done => 0

/-- The passes of the poll loop that are left, in a poll that has not returned. -/
def passesLeft (p : Patience Fut WaitFut) (run : RunFields Fut WaitFut) : ℕ :=
  match run.phase with
  | .readyToStart => 3 * (p.attempts - run.attempt.toNat) + 2
  | .polling _ => 3 * (p.attempts - run.attempt.toNat) + 1
  | .sleeping _ | .yielding => 3 * (p.attempts - run.attempt.toNat)
  | .done => 0

/-- A run that has not made too many attempts: in a gap there is one left. -/
def Within (p : Patience Fut WaitFut) (run : RunFields Fut WaitFut) : Prop :=
  1 ≤ run.attempt.toNat ∧
  match run.phase with
  | .readyToStart | .polling _ => run.attempt.toNat ≤ p.attempts
  | .sleeping _ | .yielding => run.attempt.toNat < p.attempts
  | .done => False

/-- What a pass leaves of a run with `polls` pending polls left: no more of them, and less
when it has been pending. -/
def Keeps (p : Patience Fut WaitFut) (polls : ℕ) :
    Turn (AsyncRetry.LoopState Fut WaitFut) (AsyncRetry.PollResult Fut WaitFut R A O) → Prop
  | .again (_, run) => p.Within run ∧ p.pollsLeft run ≤ polls
  | .done (.pending, run) => p.Within run.toRunFields ∧ p.pollsLeft run.toRunFields < polls
  | .done (.ready _, _) => True
  | .done (.panicked, _) => False

theorem passesLeft_lt {p : Patience Fut WaitFut} {run : RunFields Fut WaitFut}
    (h : p.Within run) : p.passesLeft run < 3 * p.attempts := by
  obtain ⟨phase, attempt, previousDelay, totalWait⟩ := run
  obtain ⟨hpos, hphase⟩ := h
  cases phase <;> simp only [passesLeft] at hpos hphase ⊢ <;> omega

end Patience

namespace AsyncRetry

/-- The parts keep to the patience: the stop strategy gives up after so many attempts, and
the futures are pending as often as their ranks say at most. -/
structure Patient (retry : AsyncRetry (Eff σ) Fut WaitFut R A O) (p : Patience Fut WaitFut) :
    Prop where
  attempts_pos : 1 ≤ p.attempts
  attempts_le : p.attempts ≤ u32Max
  stops : ∀ state w, p.attempts ≤ state.attempt.toNat → (retry.stop.shouldStop state w).1 = true
  callOp : ∀ state w, p.opRank (retry.op.callOp state w).1 ≤ p.opPending
  poll : ∀ future cx w future' w', retry.op.poll future cx w = ((.pending, future'), w') →
    p.opRank future' < p.opRank future
  waitAsync : ∀ delay w, p.waitRank (retry.clock.waitAsync delay w).1 ≤ p.waitPending
  pollWait : ∀ future cx w future' w',
    retry.clock.pollWait future cx w = ((.pending, future'), w') →
      p.waitRank future' < p.waitRank future

namespace Patient

variable {self : AsyncRetry (Eff σ) Fut WaitFut R A O} {p : Patience Fut WaitFut}

/-- A decision to go on comes before the last attempt. -/
theorem lt_attempts (h : self.Patient p) {progress : Progress} {outcome : O} {w w' : σ}
    {delay running : Duration}
    (hstep : step progress outcome self.classifier self.stop self.wait self.timeout self.hooks w =
      (.continue_ delay running, w')) : progress.attempt.toNat < p.attempts := by
  obtain ⟨attempt, elapsed, previousDelay, totalWait⟩ := progress
  obtain ⟨fate, w₁, hfate⟩ := step_spec self.setting self.classifier self.stop self.wait
    self.hooks rfl rfl rfl ⟨attempt, elapsed, previousDelay⟩ totalWait outcome w
  have hanswer := congrArg Prod.fst (hfate.answer.symm.trans hstep)
  cases fate with
  | returned value | aborted last | exhausted last answer => cases hanswer
  | retried last rawDelay =>
    obtain ⟨w₂, hgoes⟩ := hfate.allowed.2.1
    by_contra hlast
    rw [h.stops _ w₂ (Nat.le_of_not_lt hlast)] at hgoes
    cases hgoes

/-- The decision to go on or not: the gap takes what the next attempt leaves of the patience. -/
theorem proceed (h : self.Patient p) (cx : Context) (elapsed : Elapsed)
    {run : RunFields Fut WaitFut} {future : Fut} (hphase : run.phase = .polling future)
    (hwithin : p.Within run) {next : Step R A O}
    (hnext : ∀ delay running, next = .continue_ delay running → run.attempt.toNat < p.attempts)
    (w : σ) :
    p.Keeps (p.pollsLeft run) (self.proceed cx elapsed run next w).1 ∧
      ∀ state w', self.proceed cx elapsed run next w = (.again state, w') →
        p.passesLeft state.2 < p.passesLeft run := by
  obtain ⟨phase, attempt, previousDelay, totalWait⟩ := run
  obtain rfl : phase = .polling future := hphase
  cases next with
  | done result stats => exact ⟨trivial, fun state w' hproceed => by cases hproceed⟩
  | continue_ delay running =>
    have hlt : attempt.toNat < p.attempts := hnext delay running rfl
    have hpos : 1 ≤ attempt.toNat := hwithin.1
    have hleft : (p.attempts - attempt.toNat) * p.perAttempt =
        (p.attempts - (attempt.toNat + 1)) * p.perAttempt + p.perAttempt := by
      rw [← Nat.succ_mul]
      congr 1
      omega
    have hgap : p.perAttempt = p.opPending + max p.waitPending 1 := rfl
    unfold AsyncRetry.proceed
    dsimp only
    cases delay.isZero with
    | true =>
      refine ⟨⟨⟨hpos, hlt⟩, ?_⟩, fun state w' hproceed => by cases hproceed⟩
      simp only [Patience.pollsLeft]
      omega
    | false =>
      have hrank := h.waitAsync delay w
      refine ⟨⟨⟨hpos, hlt⟩, ?_⟩, ?_⟩
      · simp only [Patience.pollsLeft]
        omega
      · intro state w' hproceed
        cases hproceed
        simp only [Patience.passesLeft]
        omega

/-- **One pass** of the poll loop keeps the patience, and there are fewer passes left. -/
theorem pollBody (h : self.Patient p) (cx : Context) (state : LoopState Fut WaitFut) (w : σ)
    (hwithin : p.Within state.2) :
    p.Keeps (p.pollsLeft state.2) (self.pollBody cx state w).1 ∧
      ∀ state' w', self.pollBody cx state w = (.again state', w') →
        p.passesLeft state'.2 < p.passesLeft state.2 := by
  obtain ⟨elapsed, phase, attempt, previousDelay, totalWait⟩ := state
  -- The counter catches up with the next attempt, which is not beyond the last one.
  have hcatchup : attempt.toNat < p.attempts →
      (u32SaturatingAdd attempt 1).toNat = attempt.toNat + 1 := by
    intro hlt
    have hnumber : attempt = attemptNumber attempt.toNat := by
      apply UInt32.toNat_inj.mp
      rw [attemptNumber_toNat]
      exact (Nat.min_eq_left (hlt.le.trans h.attempts_le)).symm
    rw [hnumber, u32SaturatingAdd_attemptNumber, attemptNumber_toNat, ← hnumber]
    exact Nat.min_eq_left (Nat.le_trans hlt h.attempts_le)
  let next : RunFields Fut WaitFut :=
    { phase := .readyToStart, attempt := u32SaturatingAdd attempt 1, previousDelay, totalWait }
  have hnext : 1 ≤ attempt.toNat → attempt.toNat < p.attempts → p.Within next ∧
      p.pollsLeft next = (p.attempts - (attempt.toNat + 1)) * p.perAttempt + p.opPending ∧
      p.passesLeft next < 3 * (p.attempts - attempt.toNat) := by
    intro hpos hlt
    have hattempt : next.attempt.toNat = attempt.toNat + 1 := hcatchup hlt
    refine ⟨⟨?_, ?_⟩, ?_, ?_⟩
    · omega
    · show next.attempt.toNat ≤ p.attempts
      omega
    · simp only [Patience.pollsLeft, ← hattempt, next]
    · simp only [Patience.passesLeft, next] at hattempt ⊢
      omega
  cases phase with
  | readyToStart =>
    refine ⟨⟨hwithin, ?_⟩, fun state' w' hbody => ?_⟩
    · have hrank := h.callOp
      simp only [Patience.pollsLeft]
      exact Nat.add_le_add_left (hrank _ _) _
    · cases hbody
      simp only [Patience.passesLeft]
      omega
  | polling future =>
    obtain ⟨⟨⟨answer, future'⟩, w₁⟩, hpoll⟩ : ∃ polled, self.op.poll future cx w = polled :=
      ⟨_, rfl⟩
    cases answer with
    | pending =>
      rw [self.pollBody_polling_pending rfl hpoll]
      refine ⟨⟨hwithin, ?_⟩, fun state' w' hbody => by cases hbody⟩
      exact Nat.add_lt_add_left (h.poll _ _ _ _ _ hpoll) _
    | ready outcome =>
      rw [self.pollBody_polling_ready rfl hpoll]
      exact h.proceed cx _ rfl hwithin
        (fun delay running hnext => h.lt_attempts (Prod.ext hnext rfl)) _
  | sleeping future =>
    obtain ⟨⟨⟨answer, future'⟩, w₁⟩, hpoll⟩ : ∃ polled, self.clock.pollWait future cx w = polled :=
      ⟨_, rfl⟩
    cases answer with
    | pending =>
      rw [self.pollBody_sleeping_pending rfl hpoll]
      refine ⟨⟨hwithin, ?_⟩, fun state' w' hbody => by cases hbody⟩
      exact Nat.add_lt_add_left (h.pollWait _ _ _ _ _ hpoll) _
    | ready value =>
      rw [self.pollBody_sleeping_ready rfl hpoll]
      obtain ⟨hwithin', hpolls, hpasses⟩ := hnext hwithin.1 hwithin.2
      refine ⟨⟨hwithin', hpolls.le.trans ?_⟩, fun state' w' hbody => ?_⟩
      · simp only [Patience.pollsLeft]
        omega
      · cases hbody
        exact hpasses
  | yielding =>
    obtain ⟨hwithin', hpolls, hpasses⟩ := hnext hwithin.1 hwithin.2
    refine ⟨⟨hwithin', hpolls.le⟩, fun state' w' hbody => ?_⟩
    cases hbody
    exact hpasses
  | done => exact hwithin.2.elim

/-- **Every poll returns**, after three passes for each attempt at most; a pending poll uses
some of the patience up, and none panics. -/
theorem pollFor (h : self.Patient p) (cx : Context) (run : AsyncRun Fut WaitFut)
    (hwithin : p.Within run.toRunFields) (w : σ) :
    ∃ ended w', self.pollFor (3 * p.attempts) cx run w = (.done ended, w') ∧
      p.Keeps (p.pollsLeft run.toRunFields) (.done ended) := by
  obtain ⟨elapsed, w₁, hbegin⟩ : ∃ elapsed w₁, self.startElapsed run w = (elapsed, w₁) :=
    ⟨_, _, rfl⟩
  rw [AsyncRetry.pollFor, Eff.bind_apply, hbegin]
  apply runFor_ends (P := fun turn _ => p.Keeps (p.pollsLeft run.toRunFields) turn)
    (μ := fun state => p.passesLeft state.2)
  · rintro ⟨elapsed, fields⟩ w ⟨hfields, hle⟩
    have hkeeps := (h.pollBody cx (elapsed, fields) w hfields).1
    revert hkeeps
    generalize (self.pollBody cx (elapsed, fields) w).1 = turn
    intro hkeeps
    cases turn with
    | again state => exact ⟨hkeeps.1, hkeeps.2.trans hle⟩
    | done ended =>
      obtain ⟨value, run'⟩ := ended
      cases value with
      | pending => exact ⟨hkeeps.1, Nat.lt_of_lt_of_le hkeeps.2 hle⟩
      | ready output => trivial
      | panicked => exact hkeeps
  · rintro ⟨elapsed, fields⟩ w state' w' ⟨hfields, -⟩ hbody
    exact (h.pollBody cx (elapsed, fields) w hfields).2 state' w' hbody
  · exact ⟨hwithin, le_refl _⟩
  · exact Patience.passesLeft_lt hwithin

/-- What is left after a poll that has returned, however many passes it was allowed. -/
theorem keeps_of_pollFor (h : self.Patient p) {n : ℕ} {cx : Context} {run : AsyncRun Fut WaitFut}
    (hwithin : p.Within run.toRunFields) {w w' : σ} {ended : PollResult Fut WaitFut R A O}
    (hpoll : self.pollFor n cx run w = (.done ended, w')) :
    p.Keeps (p.pollsLeft run.toRunFields) (.done ended) := by
  obtain ⟨ended', w'', hreturns, hkeeps⟩ := h.pollFor cx run hwithin w
  have hmax := runFor_done_mono (Nat.le_max_left n (3 * p.attempts)) hpoll
  have hmax' := runFor_done_mono (Nat.le_max_right n (3 * p.attempts)) hreturns
  obtain ⟨hended, -⟩ := Prod.mk.inj (hmax.symm.trans hmax')
  obtain rfl := Turn.done.inj hended
  exact hkeeps

end Patient

end AsyncRetry

/-! ## §2 Wakers -/

/-- What an executor knows about wakers: which tasks were woken, whose waker somebody holds
that has not woken it yet, and how a task that was woken is taken up to be polled. -/
structure Executor (σ : Type) where
  woken : Context → σ → Prop
  held : Context → σ → Prop
  take : Context → σ → σ
  take_other : ∀ cx cx' w, cx' ≠ cx → woken cx' w ∨ held cx' w →
    woken cx' (take cx w) ∨ held cx' (take cx w)

namespace Executor

/-- The task was woken, or somebody can wake it. -/
def Armed (executor : Executor σ) (cx : Context) (w : σ) : Prop :=
  executor.woken cx w ∨ executor.held cx w

/-- No waker gets lost on the way from one world to another. -/
def LosesNone (executor : Executor σ) (w w' : σ) : Prop :=
  ∀ cx, executor.Armed cx w → executor.Armed cx w'

instance (executor : Executor σ) : Std.Refl executor.LosesNone where
  refl _ _ harmed := harmed

instance (executor : Executor σ) : IsTrans σ executor.LosesNone where
  trans _ _ _ h h' cx harmed := h' cx (h cx harmed)

end Executor

namespace AsyncRetry

/-- Futures that are pending have arranged for a wake-up of the task that polled them, or have
woken it; and waking it does so. -/
structure Wakes (retry : AsyncRetry (Eff σ) Fut WaitFut R A O) (executor : Executor σ) :
    Prop where
  poll : ∀ future cx w future' w', retry.op.poll future cx w = ((.pending, future'), w') →
    executor.Armed cx w'
  pollWait : ∀ future cx w future' w',
    retry.clock.pollWait future cx w = ((.pending, future'), w') → executor.Armed cx w'
  wakeByRef : ∀ cx w, executor.Armed cx (retry.wakeByRef cx w).2

variable {self : AsyncRetry (Eff σ) Fut WaitFut R A O} {executor : Executor σ}

/-- The pass that ends a pending poll leaves the waker in somebody's hands. -/
theorem Wakes.pollBody (h : self.Wakes executor) {cx : Context} {state : LoopState Fut WaitFut}
    {w w' : σ} {run : AsyncRun Fut WaitFut}
    (hbody : self.pollBody cx state w = (.done (.pending, run), w')) : executor.Armed cx w' := by
  obtain ⟨elapsed, phase, attempt, previousDelay, totalWait⟩ := state
  cases phase with
  | readyToStart | yielding | done => cases hbody
  | polling future =>
    obtain ⟨⟨⟨answer, future'⟩, w₁⟩, hpoll⟩ : ∃ polled, self.op.poll future cx w = polled :=
      ⟨_, rfl⟩
    cases answer with
    | pending =>
      rw [self.pollBody_polling_pending rfl hpoll] at hbody
      cases hbody
      exact h.poll _ _ _ _ _ hpoll
    | ready outcome =>
      rw [self.pollBody_polling_ready rfl hpoll] at hbody
      revert hbody
      generalize step _ outcome self.classifier self.stop self.wait self.timeout self.hooks _ =
        decided
      obtain ⟨next, w₂⟩ := decided
      intro hbody
      -- Only a zero delay ends the poll here, and the task was woken for it.
      cases next with
      | done result stats => cases hbody
      | continue_ delay running =>
        unfold proceed at hbody
        dsimp only at hbody
        cases hzero : delay.isZero with
        | true =>
          rw [hzero] at hbody
          cases hbody
          exact h.wakeByRef cx w₂
        | false =>
          rw [hzero] at hbody
          cases hbody
  | sleeping future =>
    obtain ⟨⟨⟨answer, future'⟩, w₁⟩, hpoll⟩ : ∃ polled, self.clock.pollWait future cx w = polled :=
      ⟨_, rfl⟩
    cases answer with
    | pending =>
      rw [self.pollBody_sleeping_pending rfl hpoll] at hbody
      cases hbody
      exact h.pollWait _ _ _ _ _ hpoll
    | ready value =>
      rw [self.pollBody_sleeping_ready rfl hpoll] at hbody
      cases hbody

theorem Wakes.pollFor (h : self.Wakes executor) {n : ℕ} {cx : Context}
    {run run' : AsyncRun Fut WaitFut} {w w' : σ}
    (hpoll : self.pollFor n cx run w = (.done (.pending, run'), w')) : executor.Armed cx w' := by
  rw [AsyncRetry.pollFor, Eff.bind_apply] at hpoll
  obtain ⟨k, -, state, w₁, -, hbody⟩ := runFor_done_split hpoll
  exact h.pollBody hbody

end AsyncRetry

/-! ## §3 Turns of the executor -/

/-- A task: its future, how often it was polled, and its output when it is finished. -/
structure AsyncTask (Fut WaitFut R A O : Type) where
  run : AsyncRun Fut WaitFut
  polls : ℕ
  output : Option (Output R A O)

namespace AsyncTask

/-- A task that was not polled yet. -/
def spawn : AsyncTask Fut WaitFut R A O := { run := .intoRun, polls := 0, output := none }

/-- The task after a poll. -/
def polled (task : AsyncTask Fut WaitFut R A O) (run : AsyncRun Fut WaitFut)
    (output : Option (Output R A O)) : AsyncTask Fut WaitFut R A O :=
  { run, polls := task.polls + 1, output }

/-- A turn of the executor: it takes up a task that was woken and is not finished, and polls
it. -/
inductive Turn (self : AsyncRetry (Eff σ) Fut WaitFut R A O) (executor : Executor σ)
    (cx : Context) :
    σ × AsyncTask Fut WaitFut R A O → σ × AsyncTask Fut WaitFut R A O → Prop where
  | pending (w w' : σ) (task : AsyncTask Fut WaitFut R A O) (n : ℕ) (run : AsyncRun Fut WaitFut)
      (hwoken : executor.woken cx w) (hopen : task.output = none)
      (hpoll : self.pollFor n cx task.run (executor.take cx w) = (.done (.pending, run), w')) :
      Turn self executor cx (w, task) (w', task.polled run none)
  | ready (w w' : σ) (task : AsyncTask Fut WaitFut R A O) (n : ℕ) (run : AsyncRun Fut WaitFut)
      (output : Output R A O) (hwoken : executor.woken cx w) (hopen : task.output = none)
      (hpoll : self.pollFor n cx task.run (executor.take cx w) =
        (.done (.ready output, run), w')) :
      Turn self executor cx (w, task) (w', task.polled run (some output))

variable {self : AsyncRetry (Eff σ) Fut WaitFut R A O} {executor : Executor σ}
  {p : Patience Fut WaitFut} {cx : Context}

/-- A task that has not been polled more than its patience allows, and that is not stranded. -/
structure Served (executor : Executor σ) (p : Patience Fut WaitFut) (cx : Context) (w : σ)
    (task : AsyncTask Fut WaitFut R A O) : Prop where
  unfinished : task.output = none → executor.Armed cx w ∧ p.Within task.run.toRunFields ∧
    task.polls + p.pollsLeft task.run.toRunFields ≤ p.pollsLeft AsyncRun.intoRun.toRunFields
  polls_le : task.polls ≤ p.pollsLeft AsyncRun.intoRun.toRunFields + 1

/-- **A turn** of a task serves it. -/
theorem Served.turn (hpatient : self.Patient p) (hwakes : self.Wakes executor) {w : σ}
    {task : AsyncTask Fut WaitFut R A O} {next : σ × AsyncTask Fut WaitFut R A O}
    (h : Served executor p cx w task) (hturn : Turn self executor cx (w, task) next) :
    Served executor p cx next.1 next.2 := by
  cases hturn with
  | pending _ w' _ n run hwoken hopen hpoll =>
    obtain ⟨-, hwithin, hpolls⟩ := h.unfinished hopen
    obtain ⟨hwithin', hless⟩ := hpatient.keeps_of_pollFor hwithin hpoll
    refine ⟨fun _ => ⟨hwakes.pollFor hpoll, hwithin', ?_⟩, ?_⟩ <;> simp only [polled] <;> omega
  | ready _ w' _ n run output hwoken hopen hpoll =>
    obtain ⟨-, -, hpolls⟩ := h.unfinished hopen
    refine ⟨fun hnone => (by cases hnone), ?_⟩
    simp only [polled]
    omega

/-- What loses no wakers strands nobody. -/
theorem Served.mono {w w' : σ} {task : AsyncTask Fut WaitFut R A O}
    (h : Served executor p cx w task) (harmed : executor.Armed cx w → executor.Armed cx w') :
    Served executor p cx w' task where
  unfinished hopen := ⟨harmed (h.unfinished hopen).1, (h.unfinished hopen).2⟩
  polls_le := h.polls_le

/-- The turns of one task lose no waker of another. -/
theorem Turn.armed (hkeeps : self.AllMove executor.LosesNone)
    {s s' : σ × AsyncTask Fut WaitFut R A O} (h : Turn self executor cx s s') {cx' : Context}
    (hother : cx' ≠ cx) (harmed : executor.Armed cx' s.1) : executor.Armed cx' s'.1 := by
  have hmoves (n : ℕ) (run : AsyncRun Fut WaitFut) (w : σ) (harmed : executor.Armed cx' w) :
      executor.Armed cx' (self.pollFor n cx run (executor.take cx w)).2 :=
    hkeeps.pollFor n cx run _ cx' (executor.take_other cx cx' w hother harmed)
  cases h with
  | pending w w' task n run hwoken hopen hpoll | ready w w' task n run output hwoken hopen hpoll =>
    have hworld := hmoves n task.run w harmed
    rw [hpoll] at hworld
    exact hworld

/-- A woken task that is not finished can be polled. -/
theorem Served.exists_turn (hpatient : self.Patient p) {w : σ}
    {task : AsyncTask Fut WaitFut R A O} (h : Served executor p cx w task)
    (hopen : task.output = none) (hwoken : executor.woken cx w) :
    ∃ next, Turn self executor cx (w, task) next := by
  obtain ⟨-, hwithin, -⟩ := h.unfinished hopen
  obtain ⟨⟨result, run⟩, w', hpoll, hkeeps⟩ :=
    hpatient.pollFor cx task.run hwithin (executor.take cx w)
  cases result with
  | pending => exact ⟨_, .pending w w' task _ run hwoken hopen hpoll⟩
  | ready output => exact ⟨_, .ready w w' task _ run output hwoken hopen hpoll⟩
  | panicked => exact hkeeps.elim

end AsyncTask

/-- What may become of a task: it is polled again, until it has an output, and then no more. -/
def AsyncTask.Later (task task' : AsyncTask Fut WaitFut R A O) : Prop :=
  task.polls ≤ task'.polls ∧ (task.output.isSome → task' = task)

instance : IsPreorder (AsyncTask Fut WaitFut R A O) AsyncTask.Later where
  refl _ := ⟨le_refl _, fun _ => rfl⟩
  trans := by
    rintro task task' task'' ⟨hle, hsame⟩ ⟨hle', hsame'⟩
    refine ⟨hle.trans hle', fun hsome => ?_⟩
    obtain rfl := hsame hsome
    exact hsame' hsome

theorem AsyncTask.Turn.later {self : AsyncRetry (Eff σ) Fut WaitFut R A O} {executor : Executor σ}
    {cx : Context} (s s' : σ × AsyncTask Fut WaitFut R A O)
    (h : AsyncTask.Turn self executor cx s s') : s.2.Later s'.2 := by
  cases h with
  | pending w w' task n run hwoken hopen hpoll | ready w w' task n run output hwoken hopen hpoll =>
    refine ⟨Nat.le_succ _, fun hsome => ?_⟩
    dsimp only at hsome
    rw [hopen] at hsome
    cases hsome

/-! ## §4 The guarantee -/

section Guarantee

variable {ι : Type} [DecidableEq ι] {Fut WaitFut R A O : ι → Type}
  {retries : (i : ι) → AsyncRetry (Eff σ) (Fut i) (WaitFut i) (R i) (A i) (O i)}
  {p : (i : ι) → Patience (Fut i) (WaitFut i)} {executor : Executor σ} {cxs : ι → Context}
  {outside : σ → σ → Prop} {w₀ : σ}

/-- **Every task is served**, whatever the order of the turns and whatever happens in between. -/
theorem served_of_run (hcxs : Function.Injective cxs) (hpatient : ∀ i, (retries i).Patient (p i))
    (hwakes : ∀ i, (retries i).Wakes executor)
    (hkeeps : ∀ i, (retries i).AllMove executor.LosesNone)
    (houtside : ∀ w w', outside w w' → executor.LosesNone w w')
    (hspawned : ∀ i, executor.Armed (cxs i) w₀)
    {s : σ × ((i : ι) → AsyncTask (Fut i) (WaitFut i) (R i) (A i) (O i))}
    (h : Run (fun i => AsyncTask.Turn (retries i) executor (cxs i)) outside
      (w₀, fun _ => .spawn) s) (i : ι) : (s.2 i).Served executor (p i) (cxs i) s.1 := by
  refine h.invariant (I := fun i w task => task.Served executor (p i) (cxs i) w) ?_ ?_ ?_ ?_ i
  · intro i
    refine ⟨fun _ => ⟨hspawned i, ⟨le_refl _, (hpatient i).attempts_pos⟩, ?_⟩, Nat.zero_le _⟩
    exact (Nat.zero_add _).le
  · intro i w task next hserved hturn
    exact hserved.turn (hpatient i) (hwakes i) hturn
  · intro i j w task task' next hne hserved _ hturn
    exact hserved.mono fun harmed => hturn.armed (hkeeps j) (hcxs.ne hne) harmed
  · intro i w task w' hserved hout
    exact hserved.mono fun harmed => houtside w w' hout _ harmed

/-- An executor that goes on for ever.  Whoever holds the waker of an unfinished task wakes it in
the end; and a task that was woken, and whose poll would return, is polled in the end. -/
structure FairExecutor
    (retries : (i : ι) → AsyncRetry (Eff σ) (Fut i) (WaitFut i) (R i) (A i) (O i))
    (executor : Executor σ) (cxs : ι → Context) (outside : σ → σ → Prop)
    (s : ℕ → σ × ((i : ι) → AsyncTask (Fut i) (WaitFut i) (R i) (A i) (O i))) : Prop where
  steps : ∀ k, Interleaving.Step (fun i => AsyncTask.Turn (retries i) executor (cxs i)) outside
    (s k) (s (k + 1))
  wakes : ∀ i k, ((s k).2 i).output = none → executor.held (cxs i) (s k).1 →
    ∃ k' ≥ k, executor.woken (cxs i) (s k').1
  polls : ∀ i k next, executor.woken (cxs i) (s k).1 →
    AsyncTask.Turn (retries i) executor (cxs i) ((s k).1, (s k).2 i) next →
      ∃ k' > k, ((s k).2 i).polls < ((s k').2 i).polls

variable {s : ℕ → σ × ((i : ι) → AsyncTask (Fut i) (WaitFut i) (R i) (A i) (O i))}

theorem FairExecutor.later (h : FairExecutor retries executor cxs outside s) {k k' : ℕ}
    (hle : k ≤ k') (i : ι) : ((s k).2 i).Later ((s k').2 i) :=
  (Interleaving.run_of_steps h.steps hle).process fun s s' hturn => hturn.later s s'

/-- **An executor finishes its tasks.**  A fair executor, which polls a task only after it was
woken, comes to a point from which on a task is finished, whichever it is and whatever the
others do; and it has polled no task more often than its patience allows. -/
theorem executor_finishes (hcxs : Function.Injective cxs)
    (hpatient : ∀ i, (retries i).Patient (p i)) (hwakes : ∀ i, (retries i).Wakes executor)
    (hkeeps : ∀ i, (retries i).AllMove executor.LosesNone)
    (houtside : ∀ w w', outside w w' → executor.LosesNone w w')
    (hspawned : ∀ i, executor.Armed (cxs i) w₀) (hstart : s 0 = (w₀, fun _ => .spawn))
    (hfair : FairExecutor retries executor cxs outside s) (i : ι) :
    (∃ k output, ∀ k' ≥ k, ((s k').2 i).output = some output) ∧
    ∀ k, ((s k).2 i).polls ≤ ((p i).attempts - 1) * (p i).perAttempt + (p i).opPending + 1 := by
  have hserved (k : ℕ) : ((s k).2 i).Served executor (p i) (cxs i) (s k).1 := by
    have hrun := Interleaving.run_of_steps hfair.steps (Nat.zero_le k)
    rw [hstart] at hrun
    exact served_of_run hcxs hpatient hwakes hkeeps houtside hspawned hrun i
  refine ⟨?_, fun k => (hserved k).polls_le⟩
  by_contra hnever
  have hopen (k : ℕ) : ((s k).2 i).output = none := by
    by_contra hsome
    obtain ⟨output, houtput⟩ := Option.ne_none_iff_exists'.mp hsome
    refine hnever ⟨k, output, fun k' hle => ?_⟩
    rw [(hfair.later hle i).2 (by rw [houtput]; rfl), houtput]
  -- A task that never finishes is woken and polled again and again, beyond its patience.
  have hagain (k : ℕ) : ∃ k', ((s k).2 i).polls < ((s k').2 i).polls := by
    obtain ⟨k₁, hle, hwoken⟩ : ∃ k₁ ≥ k, executor.woken (cxs i) (s k₁).1 := by
      rcases ((hserved k).unfinished (hopen k)).1 with hwoken | hheld
      · exact ⟨k, le_refl k, hwoken⟩
      · exact hfair.wakes i k (hopen k) hheld
    obtain ⟨next, hturn⟩ := (hserved k₁).exists_turn (hpatient i) (hopen k₁) hwoken
    obtain ⟨k₂, -, hpolls⟩ := hfair.polls i k₁ next hwoken hturn
    exact ⟨k₂, Nat.lt_of_le_of_lt (hfair.later hle i).1 hpolls⟩
  have hmany (n : ℕ) : ∃ k, n ≤ ((s k).2 i).polls := by
    induction n with
    | zero => exact ⟨0, Nat.zero_le _⟩
    | succ n ih =>
      obtain ⟨k, hk⟩ := ih
      obtain ⟨k', hk'⟩ := hagain k
      exact ⟨k', Nat.lt_of_le_of_lt hk hk'⟩
  obtain ⟨k, hk⟩ := hmany ((p i).pollsLeft AsyncRun.intoRun.toRunFields + 2)
  exact absurd (hserved k).polls_le (Nat.not_le.mpr hk)

end Guarantee

/-! ## §5 Two tasks on a queue -/

/-- An executor with a queue of the tasks that were woken, and nobody who holds a waker. -/
def Executor.queue : Executor (ℕ × List Context) where
  woken cx w := cx ∈ w.2
  held _ _ := False
  take cx w := (w.1, w.2.filter (· ≠ cx))
  take_other cx cx' w hother harmed := by
    rcases harmed with hwoken | hheld
    · exact .inl (List.mem_filter.mpr ⟨hwoken, decide_eq_true hother⟩)
    · exact hheld.elim

/-- A computation on the clock leaves the queue alone. -/
theorem moves_left {α : Type} (x : Eff ℕ α) :
    Moves Executor.queue.LosesNone (Part.left.run x) :=
  Part.left.moves (fun _ _ _ harmed => harmed) x

/-- A future that wakes its task before it is pending. -/
def wakingPoll {Fut α : Type} (poll : Fut → Context → Eff ℕ (Poll α × Fut)) (future : Fut)
    (cx : Context) : Eff (ℕ × List Context) (Poll α × Fut) := fun w =>
  match poll future cx w.1 with
  | ((.pending, future'), now) => ((.pending, future'), (now, cx :: w.2))
  | ((.ready answer, future'), now) => ((.ready answer, future'), (now, w.2))

/-- A run that is busy twice, with futures that wake it. -/
def AsyncRetry.busyWaking : AsyncRetry (Eff (ℕ × List Context)) (ℕ × Eff ℕ (Except String ℕ))
    (ℕ × Eff ℕ Unit) ℕ String (Except String ℕ) :=
  let quiet := (AsyncRetry.busyTwice none).into Part.left.run
  { quiet with
    op := { quiet.op with poll := wakingPoll (AsyncRetry.busyTwice none).op.poll }
    clock := { quiet.clock with pollWait := wakingPoll (AsyncRetry.busyTwice none).clock.pollWait }
    wakeByRef := fun cx w => ((), (w.1, cx :: w.2)) }

theorem wakingPoll_armed {Fut α : Type} {poll : Fut → Context → Eff ℕ (Poll α × Fut)}
    {future future' : Fut} {cx : Context} {w w' : ℕ × List Context}
    (h : wakingPoll poll future cx w = ((.pending, future'), w')) :
    Executor.queue.Armed cx w' ∧
      ∃ now, poll future cx w.1 = ((.pending, future'), now) := by
  unfold wakingPoll at h
  split at h
  next future₁ now hpoll =>
    cases h
    exact ⟨.inl List.mem_cons_self, now, hpoll⟩
  next => cases h

theorem moves_wakingPoll {Fut α : Type} (poll : Fut → Context → Eff ℕ (Poll α × Fut))
    (future : Fut) (cx : Context) :
    Moves Executor.queue.LosesNone (wakingPoll poll future cx) := by
  intro w cx' harmed
  unfold wakingPoll
  split
  · exact harmed.imp_left (List.mem_cons_of_mem cx)
  · exact harmed

theorem AsyncRetry.busyWaking_wakes : busyWaking.Wakes Executor.queue where
  poll _ _ _ _ _ h := (wakingPoll_armed h).1
  pollWait _ _ _ _ _ h := (wakingPoll_armed h).1
  wakeByRef _ _ := .inl List.mem_cons_self

theorem AsyncRetry.busyWaking_allMove : busyWaking.AllMove Executor.queue.LosesNone where
  parts :=
    { decide := fun _ => moves_left _
      shouldStop := fun _ => moves_left _
      nextWait := fun _ => moves_left _
      beforeAttempt := HookSlot.moves_into moves_left _
      afterAttempt := HookSlot.moves_into moves_left _
      onExit := HookSlot.moves_into moves_left _ }
  callOp _ := moves_left _
  poll := moves_wakingPoll _
  now := moves_left _
  waitAsync _ := moves_left _
  pollWait := moves_wakingPoll _
  wakeByRef cx _ _ harmed := harmed.imp_left (List.mem_cons_of_mem cx)

/-- Five attempts, and one pending poll from every future. -/
def AsyncRetry.busyPatience : Patience (ℕ × Eff ℕ (Except String ℕ)) (ℕ × Eff ℕ Unit) where
  attempts := 5
  opPending := 1
  waitPending := 1
  opRank := Prod.fst
  waitRank := Prod.fst

theorem delayedPoll_pending {α : Type} {future future' : ℕ × Eff ℕ α} {cx : Context} {w w' : ℕ}
    (h : AsyncTwin.delayedPoll future cx w = ((.pending, future'), w')) :
    future'.1 < future.1 := by
  obtain ⟨pending, x⟩ := future
  cases pending with
  | zero => cases h
  | succ pending =>
    cases h
    exact Nat.lt_succ_self pending

theorem AsyncRetry.busyWaking_patient : busyWaking.Patient busyPatience where
  attempts_pos := by decide
  attempts_le := by decide
  stops state w hlast := decide_eq_true (UInt32.le_iff_toNat_le.mpr hlast)
  callOp _ _ := le_refl 1
  poll _ _ _ _ _ h := by
    obtain ⟨-, now, hpoll⟩ := wakingPoll_armed h
    exact delayedPoll_pending hpoll
  waitAsync _ _ := le_refl 1
  pollWait _ _ _ _ _ h := by
    obtain ⟨-, now, hpoll⟩ := wakingPoll_armed h
    exact delayedPoll_pending hpoll

/-- A turn of a task in the queue, with enough passes. -/
def AsyncTask.serve (self : AsyncRetry (Eff (ℕ × List Context)) Fut WaitFut R A O) (cx : Context)
    (n : ℕ) (s : (ℕ × List Context) × AsyncTask Fut WaitFut R A O) :
    (ℕ × List Context) × AsyncTask Fut WaitFut R A O :=
  if cx ∈ s.1.2 ∧ s.2.output.isNone then
    match self.pollFor n cx s.2.run (Executor.queue.take cx s.1) with
    | (.done (.pending, run), w) => (w, s.2.polled run none)
    | (.done (.ready output, run), w) => (w, s.2.polled run (some output))
    | _ => s
  else s

theorem AsyncTask.turn_serve {self : AsyncRetry (Eff (ℕ × List Context)) Fut WaitFut R A O}
    (cx : Context) (n : ℕ) (s : (ℕ × List Context) × AsyncTask Fut WaitFut R A O) :
    Turn self Executor.queue cx s (serve self cx n s) ∨ serve self cx n s = s := by
  unfold serve
  split
  next hserved =>
    obtain ⟨hwoken, hnone⟩ := hserved
    have hopen := Option.isNone_iff_eq_none.mp hnone
    split
    next run w hpoll => exact .inl (.pending s.1 w s.2 n run hwoken hopen hpoll)
    next output run w hpoll => exact .inl (.ready s.1 w s.2 n run output hwoken hopen hpoll)
    next => exact .inr rfl
  next => exact .inr rfl

/-- The tasks take turns on one queue and one clock, for ever. -/
def AsyncTask.takeTurns (cxs : Bool → Context) :
    ℕ → (ℕ × List Context) × (Bool → AsyncTask (ℕ × Eff ℕ (Except String ℕ)) (ℕ × Eff ℕ Unit)
      ℕ String (Except String ℕ))
  | 0 => ((0, [⟨0⟩, ⟨1⟩]), fun _ => .spawn)
  | k + 1 => play (fun i => serve AsyncRetry.busyWaking (cxs i) 15) (takeTurns cxs k) [k % 2 = 1]

theorem AsyncTask.step_takeTurns (cxs : Bool → Context) (k : ℕ) :
    Interleaving.Step (fun i => Turn AsyncRetry.busyWaking Executor.queue (cxs i)) Eq
      (takeTurns cxs k) (takeTurns cxs (k + 1)) := by
  have hserve : Turn AsyncRetry.busyWaking Executor.queue (cxs (k % 2 = 1)) _ _ ∨ _ := turn_serve
    (cxs (k % 2 = 1)) 15 ((takeTurns cxs k).1, (takeTurns cxs k).2 (k % 2 = 1))
  rcases hserve with hturn | hidle
  · exact .act _ _ hturn
  · have hsame : takeTurns cxs (k + 1) = takeTurns cxs k := by
      rw [takeTurns, play, List.foldl_cons, List.foldl_nil, hidle]
      dsimp only
      rw [Function.update_eq_self]
    rw [hsame]
    exact .idle

/-- Two tasks that take turns on one queue and one clock finish, each after ten polls at most. -/
theorem executor_finishes_busyWaking :
    ∃ s : ℕ → (ℕ × List Context) × (Bool → AsyncTask (ℕ × Eff ℕ (Except String ℕ))
        (ℕ × Eff ℕ Unit) ℕ String (Except String ℕ)),
      ∀ i, (∃ k output, ∀ k' ≥ k, ((s k').2 i).output = some output) ∧
        ∀ k, ((s k).2 i).polls ≤ 4 * 2 + 1 + 1 := by
  let cxs (i : Bool) : Context := if i then ⟨1⟩ else ⟨0⟩
  let s := AsyncTask.takeTurns cxs
  have hcxs : Function.Injective cxs := by
    intro i j hij
    cases i <;> cases j <;> first | rfl | cases hij
  have hlater {k k' : ℕ} (hle : k ≤ k') (i : Bool) : ((s k).2 i).Later ((s k').2 i) :=
    (Interleaving.run_of_steps (AsyncTask.step_takeTurns cxs) hle).process
      fun s s' hturn => hturn.later s s'
  have hdone (i : Bool) : ((s 12).2 i).output.isSome ∧ ((s 12).2 i).polls = 6 := by
    cases i <;> decide +kernel
  have hbefore : ∀ k < 12, ∀ i, ((s k).2 i).output.isNone → ((s k).2 i).polls < 6 := by
    decide +kernel
  have hfair : FairExecutor (fun _ : Bool => AsyncRetry.busyWaking) Executor.queue cxs Eq s := by
    refine ⟨AsyncTask.step_takeTurns cxs, fun i k hopen hheld => hheld.elim,
      fun i k next hwoken hturn => ?_⟩
    have hopen : ((s k).2 i).output.isNone := by
      cases hturn with
      | pending _ w' _ n run _ hopen hpoll | ready _ w' _ n run output _ hopen hpoll =>
        rw [hopen]
        rfl
    -- After twelve turns there is nobody left to be polled.
    have hk : k < 12 := by
      by_contra hk
      rw [(hlater (Nat.le_of_not_lt hk) i).2 (hdone i).1] at hopen
      have hsome := (hdone i).1
      rw [Option.isNone_iff_eq_none.mp hopen] at hsome
      cases hsome
    exact ⟨12, hk, (hdone i).2 ▸ hbefore k hk i hopen⟩
  refine ⟨s, fun i => ?_⟩
  refine executor_finishes (p := fun _ => AsyncRetry.busyPatience) hcxs
    (fun _ => AsyncRetry.busyWaking_patient) (fun _ => AsyncRetry.busyWaking_wakes)
    (fun _ => AsyncRetry.busyWaking_allMove) ?_ ?_ rfl hfair i
  · rintro w _ rfl cx harmed
    exact harmed
  · intro i
    cases i <;> exact .inl (show _ ∈ [_, _] by simp [cxs])

end Relentless
