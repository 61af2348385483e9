import Relentless.Engine.Coupled
import Relentless.Engine.Parametric

/-!
# Invariants of Async Runs

What an `AsyncRun` keeps of its world, however it is polled.  While it sleeps, and only then,
it may owe something to the clock that its wait future will pay; and what it owes between two
polls, its wait future has already been polled for.

- `AsyncRetry.Holds` — an invariant, and what takes its place during a sleep
- `AsyncRetry.Preserves` — what the parts have to do with it
- `AsyncRetry.Preserves.pollBody`, `AsyncRetry.Preserves.pollFor` — it holds after every pass,
  and after every poll
- `AsyncRetry.Preserves.last_pass` — the pass in which a poll has returned
- `AsyncRetry.Preserves.drive` — the invariant holds after any polls
-/

namespace Relentless

open StateLoop
open Eff (Moves)
open Eff.Moves (Inherits)

variable {σ Fut WaitFut R A O : Type}

namespace AsyncRetry

/-- In the middle of a run `I` holds of the watermark and the world, or during a sleep `J` of
them and the wait future. -/
def Holds (I : Elapsed → σ → Prop) (J : Elapsed → WaitFut → σ → Prop)
    (state : LoopState Fut WaitFut) (w : σ) : Prop :=
  match state.2.phase with
  | .sleeping future => J state.1 future w
  | _ => I state.1 w

/-- The same of a run after a pass, or several; when the poll has returned, `K` holds of a
sleep. -/
def HoldsAfter (I : Elapsed → σ → Prop) (J K : Elapsed → WaitFut → σ → Prop) (w : σ) :
    Turn (LoopState Fut WaitFut) (PollResult Fut WaitFut R A O) → Prop
  | .again state => Holds I J state w
  | .done (_, run) => ∃ elapsed, run.elapsed = some elapsed ∧ Holds I K (elapsed, run.toRunFields) w

/-- The parts keep the invariant; a wait that is requested turns it into what holds of the
future, and one that is over turns it back. -/
structure Preserves (I : Elapsed → σ → Prop) (J K : Elapsed → WaitFut → σ → Prop)
    (retry : AsyncRetry (Eff σ) Fut WaitFut R A O) : Prop where
  parts : ∀ elapsed,
    StepMoves (Inherits (I elapsed)) retry.classifier retry.stop retry.wait retry.hooks
  callOp : ∀ elapsed state, Moves (Inherits (I elapsed)) (retry.op.callOp state)
  poll : ∀ elapsed future cx, Moves (Inherits (I elapsed)) (retry.op.poll future cx)
  wakeByRef : ∀ elapsed cx, Moves (Inherits (I elapsed)) (retry.wakeByRef cx)
  now : ∀ elapsed w, I elapsed w →
    I (elapsed.observe (retry.clock.now w).1) (retry.clock.now w).2
  waitAsync : ∀ elapsed delay w, delay ≠ .zero → I elapsed w →
    J elapsed (retry.clock.waitAsync delay w).1 (retry.clock.waitAsync delay w).2
  pending : ∀ elapsed future future' cx w w', J elapsed future w →
    retry.clock.pollWait future cx w = ((.pending, future'), w') → K elapsed future' w'
  ready : ∀ elapsed future future' cx w w', J elapsed future w →
    retry.clock.pollWait future cx w = ((.ready (), future'), w') → I elapsed w'
  resumed : ∀ elapsed future w, K elapsed future w → J elapsed future w

theorem Holds.mono {I : Elapsed → σ → Prop} {J K : Elapsed → WaitFut → σ → Prop}
    (hresumed : ∀ elapsed future w, K elapsed future w → J elapsed future w)
    {state : LoopState Fut WaitFut} {w : σ} (h : Holds I K state w) : Holds I J state w := by
  obtain ⟨elapsed, phase, attempt, previousDelay, totalWait⟩ := state
  cases phase with
  | sleeping future => exact hresumed elapsed future w h
  | readyToStart | polling future | yielding | done => exact h

namespace Preserves

variable {I : Elapsed → σ → Prop} {J K : Elapsed → WaitFut → σ → Prop}
  {self : AsyncRetry (Eff σ) Fut WaitFut R A O}

theorem proceed (h : self.Preserves I J K) (cx : Context) (elapsed : Elapsed)
    (run : RunFields Fut WaitFut) (next : Step R A O) {w : σ} (hw : I elapsed w) :
    HoldsAfter I J K (self.proceed cx elapsed run next w).2
      (self.proceed cx elapsed run next w).1 := by
  cases next with
  | done result stats => exact ⟨elapsed, rfl, hw⟩
  | continue_ delay running =>
    unfold AsyncRetry.proceed
    dsimp only
    by_cases hzero : delay.isZero = true
    · rw [if_pos hzero]
      exact ⟨elapsed, rfl, h.wakeByRef elapsed cx w hw⟩
    · rw [if_neg hzero]
      exact h.waitAsync elapsed delay w (fun heq => hzero (delay.isZero_iff.mpr heq)) hw

/-- **One pass** keeps the invariant, or what takes its place. -/
theorem pollBody (h : self.Preserves I J K) (cx : Context) (state : LoopState Fut WaitFut) {w : σ}
    (hw : Holds I J state w) :
    HoldsAfter I J K (self.pollBody cx state w).2 (self.pollBody cx state w).1 := by
  obtain ⟨elapsed, phase, attempt, previousDelay, totalWait⟩ := state
  cases phase with
  | readyToStart =>
    let reading := elapsed.read self.clock.toClock w
    let state : RetryState := ⟨attempt, reading.1.1, previousDelay⟩
    have hread : I reading.1.2 reading.2 := h.now elapsed w hw
    have hbefore := (h.parts reading.1.2).beforeAttempt state reading.2 hread
    exact h.callOp reading.1.2 state _ hbefore
  | polling future =>
    obtain ⟨value, future', w₁, hpolled⟩ : ∃ value future' w₁,
      self.op.poll future cx w = ((value, future'), w₁) := ⟨_, _, _, rfl⟩
    have hkept := h.poll elapsed future cx w hw
    rw [hpolled] at hkept
    cases value with
    | pending =>
      rw [pollBody_polling_pending rfl hpolled]
      exact ⟨elapsed, rfl, hkept⟩
    | ready outcome =>
      rw [pollBody_polling_ready rfl hpolled]
      have hread := h.now elapsed w₁ hkept
      exact h.proceed cx _ _ _ ((h.parts _).step _ outcome self.timeout _ hread)
  | sleeping future =>
    obtain ⟨value, future', w₁, hpolled⟩ : ∃ value future' w₁,
      self.clock.pollWait future cx w = ((value, future'), w₁) := ⟨_, _, _, rfl⟩
    cases value with
    | pending =>
      rw [pollBody_sleeping_pending rfl hpolled]
      exact ⟨elapsed, rfl, h.pending elapsed future future' cx w w₁ hw hpolled⟩
    | ready value =>
      rw [pollBody_sleeping_ready rfl hpolled]
      exact h.ready elapsed future future' cx w w₁ hw hpolled
  | yielding => exact hw
  | done => exact ⟨elapsed, rfl, hw⟩

/-- What a poll starts from, if the run has begun. -/
theorem begun {run : AsyncRun Fut WaitFut} {elapsed : Elapsed}
    (helapsed : run.elapsed = some elapsed) {w : σ}
    (hw : Holds I J (elapsed, run.toRunFields) w) :
    Holds I J ((self.startElapsed run w).1, run.toRunFields) (self.startElapsed run w).2 := by
  rw [startElapsed, helapsed]
  exact hw

/-- What the first poll starts from, which reads the baseline. -/
theorem first {w : σ} (hstart : I ⟨(self.clock.now w).1, .zero⟩ (self.clock.now w).2) :
    let run : AsyncRun Fut WaitFut := .intoRun
    Holds I J ((self.startElapsed run w).1, run.toRunFields) (self.startElapsed run w).2 :=
  hstart

/-- **One poll**, which may have to go on. -/
theorem pollFor (h : self.Preserves I J K) (n : ℕ) (cx : Context)
    {run : AsyncRun Fut WaitFut} {w : σ}
    (hbegin : Holds I J ((self.startElapsed run w).1, run.toRunFields)
      (self.startElapsed run w).2) :
    HoldsAfter I J K (self.pollFor n cx run w).2 (self.pollFor n cx run w).1 :=
  runFor_keeps (P := fun turn w => HoldsAfter I J K w turn)
    (fun state _ hstate => h.pollBody cx state hstate) n hbegin

/-- **The last pass** of a poll that has returned. -/
theorem last_pass (h : self.Preserves I J K) {n : ℕ} {cx : Context} {run : AsyncRun Fut WaitFut}
    {w w' : σ} {ended : PollResult Fut WaitFut R A O}
    (hbegin : Holds I J ((self.startElapsed run w).1, run.toRunFields) (self.startElapsed run w).2)
    (hpoll : self.pollFor n cx run w = (.done ended, w')) :
    ∃ state w₁, Holds I J state w₁ ∧ self.pollBody cx state w₁ = (.done ended, w') := by
  obtain ⟨k, -, state, w₁, hrun, hbody⟩ := runFor_done_split hpoll
  have hpasses := runFor_keeps (P := fun turn w => HoldsAfter I J K w turn)
    (fun state _ hstate => h.pollBody cx state hstate) k hbegin
  rw [hrun] at hpasses
  exact ⟨state, w₁, hpasses, hbody⟩

/-- **Any polls**: nothing has happened yet, or the invariant holds, or what takes its place. -/
theorem drive (h : self.Preserves I J K) {w₀ : σ}
    (hstart : I ⟨(self.clock.now w₀).1, .zero⟩ (self.clock.now w₀).2) {cxs : ℕ → Context}
    {fuel : ℕ → ℕ} {j : ℕ} {driven : Option (ℕ × PollResult Fut WaitFut R A O)} {w : σ}
    (hdrive : self.drive cxs fuel j w₀ = (driven, w)) :
    (driven = some (0, (.pending, .intoRun)) ∧ w = w₀) ∨
      ∃ turn : Turn (LoopState Fut WaitFut) (PollResult Fut WaitFut R A O),
        HoldsAfter I J K w turn ∧ ∀ i ended, driven = some (i, ended) → turn = .done ended := by
  induction j generalizing driven w with
  | zero =>
    cases hdrive
    exact .inl ⟨rfl, rfl⟩
  | succ j ih =>
    rw [AsyncRetry.drive, Eff.bind_apply] at hdrive
    obtain ⟨driven₁, w₁, hdriven⟩ : ∃ driven₁ w₁, self.drive cxs fuel j w₀ = (driven₁, w₁) :=
      ⟨_, _, rfl⟩
    have hbefore := ih hdriven
    rw [hdriven] at hdrive
    cases driven₁ with
    | none =>
      cases hdrive
      exact hbefore
    | some ended₁ =>
      obtain ⟨i, value, run⟩ := ended₁
      cases value with
      | pending =>
        obtain ⟨turn, w₂, hpoll⟩ : ∃ turn w₂, self.pollFor (fuel i) (cxs i) run w₁ = (turn, w₂) :=
          ⟨_, _, rfl⟩
        have hafter : HoldsAfter I J K w₂ turn := by
          rcases hbefore with ⟨hcreated, rfl⟩ | ⟨turn₁, hholds, hended⟩
          · cases hcreated
            have hfirst := h.pollFor (fuel 0) (cxs 0) (first hstart)
            rwa [hpoll] at hfirst
          · obtain rfl := hended _ _ rfl
            obtain ⟨elapsed, helapsed, hw⟩ := hholds
            have hnext := h.pollFor (fuel i) (cxs i) (begun helapsed (hw.mono h.resumed))
            rwa [hpoll] at hnext
        dsimp only at hdrive
        rw [Eff.bind_apply, hpoll] at hdrive
        cases turn with
        | again state =>
          cases hdrive
          exact .inr ⟨_, hafter, fun i ended habsurd => (by cases habsurd)⟩
        | done ended =>
          cases hdrive
          refine .inr ⟨_, hafter, fun i' ended' heq => ?_⟩
          cases heq
          rfl
      | ready output =>
        cases hdrive
        exact hbefore
      | panicked =>
        cases hdrive
        exact hbefore

end Preserves

end AsyncRetry

end Relentless
