import Relentless.Engine.AsyncEngine

/-!
# The Phases of an Async Run

What the phase of an `AsyncRun` says about its last delay, and how its polls end.  The
caller may poll as often as it likes: before the run is ready each poll is pending or
ready, and afterwards each poll panics.

- `RunFields.Live` — the run is not done, and its phase fits its last delay
- `AsyncRetry.PollSequence` — any sequence of polls
- `AsyncRetry.PollSequence.cases` — the run is live, or it was ready and has stayed as it was
- `AsyncRetry.PollSequence.panicked_iff` — the next poll panics just when it was ready
-/

namespace Relentless

open StateLoop

variable {σ Fut WaitFut R A O : Type}

/-! ## §1 Live runs -/

/-- A run that is not done: it sleeps on the delay of the last gap, or yields for want of one. -/
def RunFields.Live (run : RunFields Fut WaitFut) : Prop :=
  match run.phase with
  | .readyToStart | .polling _ => True
  | .sleeping _ => ∃ delay, run.previousDelay = some delay ∧ delay ≠ .zero
  | .yielding => run.previousDelay = some .zero
  | .done => False

/-- A run as a poll leaves it: live and past `ReadyToStart` when pending, done when ready. -/
def PollEnd.Leaves : PollEnd (Output R A O) → RunFields Fut WaitFut → Prop
  | .pending, run => run.Live ∧ run.phase ≠ .readyToStart
  | .ready _, run => run.phase = .done
  | .panicked, _ => False

/-- After a pass of the poll loop; a poll that ends has a watermark to go on with. -/
def TurnLive : Turn (AsyncRetry.LoopState Fut WaitFut)
    (AsyncRetry.PollResult Fut WaitFut R A O) → Prop
  | .again state => state.2.Live
  | .done (result, run) => result.Leaves run.toRunFields ∧ ∃ elapsed, run.elapsed = some elapsed

namespace AsyncRetry

variable (self : AsyncRetry (Eff σ) Fut WaitFut R A O) (cx : Context)

/-- A decision ends the run, yields after a zero delay, or sleeps for another one. -/
theorem proceed_live (elapsed : Elapsed) (run : RunFields Fut WaitFut) (next : Step R A O)
    (w : σ) : TurnLive (self.proceed cx elapsed run next w).1 := by
  cases next with
  | done result stats => exact ⟨rfl, elapsed, rfl⟩
  | continue_ delay running =>
    unfold proceed
    dsimp only
    cases hzero : delay.isZero with
    | true =>
      obtain rfl := delay.isZero_iff.mp hzero
      exact ⟨⟨rfl, by simp⟩, elapsed, rfl⟩
    | false => exact ⟨delay, rfl, delay.isZero_eq_false_iff.mp hzero⟩

/-- **One pass** of the poll loop. -/
theorem pollBody_live (state : LoopState Fut WaitFut) (w : σ) (h : state.2.Live) :
    TurnLive (self.pollBody cx state w).1 := by
  obtain ⟨elapsed, phase, attempt, previousDelay, totalWait⟩ := state
  cases phase with
  | readyToStart => trivial
  | polling future =>
    obtain ⟨⟨⟨answer, future'⟩, w'⟩, hpoll⟩ : ∃ polled, self.op.poll future cx w = polled :=
      ⟨_, rfl⟩
    cases answer with
    | pending =>
      rw [self.pollBody_polling_pending rfl hpoll]
      exact ⟨⟨trivial, by simp⟩, elapsed, rfl⟩
    | ready outcome =>
      rw [self.pollBody_polling_ready rfl hpoll]
      exact self.proceed_live cx _ _ _ _
  | sleeping future =>
    obtain ⟨⟨⟨answer, future'⟩, w'⟩, hpoll⟩ : ∃ polled, self.clock.pollWait future cx w = polled :=
      ⟨_, rfl⟩
    cases answer with
    | pending =>
      -- It sleeps on, after the same delay.
      rw [self.pollBody_sleeping_pending rfl hpoll]
      exact ⟨⟨h, by simp⟩, elapsed, rfl⟩
    | ready value =>
      rw [self.pollBody_sleeping_ready rfl hpoll]
      trivial
  | yielding => trivial
  | done => exact h.elim

/-- **A poll** of a live run, however far it gets. -/
theorem pollFor_live (n : ℕ) (run : AsyncRun Fut WaitFut) (w : σ) (h : run.toRunFields.Live) :
    TurnLive (self.pollFor n cx run w).1 :=
  runFor_keeps (P := fun turn _ => TurnLive turn)
    (fun state w h => self.pollBody_live cx state w h) n h

/-- A poll of a run that is done panics at once, and changes nothing. -/
theorem pollFor_of_done (n : ℕ) {run : AsyncRun Fut WaitFut} {elapsed : Elapsed}
    (hphase : run.phase = .done) (helapsed : run.elapsed = some elapsed) (w : σ) :
    self.pollFor (n + 1) cx run w = (.done (.panicked, run), w) := by
  obtain ⟨⟨phase, attempt, previousDelay, totalWait⟩, runElapsed⟩ := run
  obtain rfl : phase = .done := hphase
  obtain rfl : runElapsed = some elapsed := helapsed
  let fields : RunFields Fut WaitFut := { phase := .done, attempt, previousDelay, totalWait }
  have hbody : self.pollBody cx (elapsed, fields) w = (leave .panicked elapsed fields, w) := rfl
  exact runFor_succ_done hbody n

variable {self} {cxs : ℕ → Context} {w₀ w : σ} {j : ℕ} {run : AsyncRun Fut WaitFut}

theorem PolledTo.leaves {result : PollEnd (Output R A O)}
    (h : self.PolledTo cxs w₀ j w run result) :
    (j = 0 ∧ run = .intoRun ∧ result = .pending) ∨
      result.Leaves run.toRunFields ∧ ∃ elapsed, run.elapsed = some elapsed := by
  induction h with
  | created => exact .inl ⟨rfl, rfl, rfl⟩
  | poll j n w w' run run' result hprev hpoll ih =>
    have hlive : run.toRunFields.Live := by
      rcases ih with ⟨-, rfl, -⟩ | ⟨hleaves, -⟩
      · trivial
      · exact hleaves.1
    have hturn := self.pollFor_live (cxs j) n run w hlive
    rw [hpoll] at hturn
    exact .inr hturn

theorem PolledTo.live (h : self.PolledTo cxs w₀ j w run .pending) : run.toRunFields.Live := by
  rcases h.leaves with ⟨-, rfl, -⟩ | ⟨hleaves, -⟩
  · trivial
  · exact hleaves.1

theorem PolledTo.done {output : Output R A O} (h : self.PolledTo cxs w₀ j w run (.ready output)) :
    run.phase = .done ∧ ∃ elapsed, run.elapsed = some elapsed := by
  rcases h.leaves with ⟨-, -, hresult⟩ | hleaves
  · cases hresult
  · exact hleaves

end AsyncRetry

/-! ## §2 Any sequence of polls -/

/-- Polled as often as there are `results`, and with these results, the future has left the
world `w` and the fields `run`.  Nothing keeps the caller from going on when it was ready. -/
inductive AsyncRetry.PollSequence (self : AsyncRetry (Eff σ) Fut WaitFut R A O)
    (cxs : ℕ → Context) (w₀ : σ) :
    List (PollEnd (Output R A O)) → σ → AsyncRun Fut WaitFut → Prop where
  | created : PollSequence self cxs w₀ [] w₀ .intoRun
  | poll (results : List (PollEnd (Output R A O))) (n : ℕ) (w w' : σ)
      (run run' : AsyncRun Fut WaitFut) (result : PollEnd (Output R A O))
      (hprev : PollSequence self cxs w₀ results w run)
      (hpoll : self.pollFor n (cxs results.length) run w = (.done (result, run'), w')) :
      PollSequence self cxs w₀ (results ++ [result]) w' run'

namespace AsyncRetry

variable {self : AsyncRetry (Eff σ) Fut WaitFut R A O} {cxs : ℕ → Context} {w₀ w : σ}
  {results : List (PollEnd (Output R A O))} {run : AsyncRun Fut WaitFut}

/-- Polls up to the one that is ready are a sequence of polls. -/
theorem PolledTo.pollSequence {j : ℕ} {result : PollEnd (Output R A O)}
    (h : self.PolledTo cxs w₀ j w run result) :
    ∃ results, results.length = j ∧ self.PollSequence cxs w₀ results w run ∧
      (j ≠ 0 → results.getLast? = some result) := by
  induction h with
  | created => exact ⟨[], rfl, .created, fun hzero => absurd rfl hzero⟩
  | poll j n w w' run run' result hprev hpoll ih =>
    obtain ⟨results, rfl, hsequence, -⟩ := ih
    exact ⟨results ++ [result], List.length_append, .poll results n w w' run run' result hsequence
      hpoll, fun _ => List.getLast?_concat⟩

/-- **Where a sequence of polls leads**: the run has been pending all along, or it was ready
and nothing has changed since. -/
theorem PollSequence.cases (h : self.PollSequence cxs w₀ results w run) :
    (∀ result ∈ results, result = .pending) ∧
      self.PolledTo cxs w₀ results.length w run .pending ∨
    ∃ j output, .ready output ∈ results ∧ results.getLast? ≠ some .pending ∧
      self.PolledTo cxs w₀ (j + 1) w run (.ready output) := by
  induction h with
  | created => exact .inl ⟨fun result hmem => (by cases hmem), .created⟩
  | poll results n w w' run run' result hprev hpoll ih =>
    rcases ih with ⟨hpending, hpolled⟩ | ⟨j, output, hmem, -, hpolled⟩
    · have hpolled' := PolledTo.poll results.length n w w' run run' result hpolled hpoll
      cases result with
      | pending =>
        left
        rw [List.length_append]
        refine ⟨fun result hmem => ?_, hpolled'⟩
        rcases List.mem_append.mp hmem with hmem | hmem
        · exact hpending result hmem
        · exact List.mem_singleton.mp hmem
      | ready output =>
        exact .inr ⟨results.length, output, List.mem_append_right _ List.mem_cons_self, by simp,
          hpolled'⟩
      | panicked =>
        rcases hpolled'.leaves with ⟨-, -, hresult⟩ | ⟨hleaves, -⟩
        · cases hresult
        · exact hleaves.elim
    · -- The run is done, so this poll panics and leaves everything as it was.
      right
      obtain ⟨hdone, elapsed, helapsed⟩ := hpolled.done
      cases n with
      | zero => cases hpoll
      | succ n =>
        rw [self.pollFor_of_done _ n hdone helapsed] at hpoll
        obtain ⟨hturn, rfl⟩ := Prod.mk.inj hpoll
        obtain ⟨rfl, rfl⟩ := Prod.mk.inj (Turn.done.inj hturn)
        exact ⟨j, output, List.mem_append_left _ hmem, by simp, hpolled⟩

/-- **The next poll panics** just when the run has been ready. -/
theorem PollSequence.panicked_iff (h : self.PollSequence cxs w₀ results w run) (cx : Context) :
    (∃ n run' w', self.pollFor n cx run w = (.done (.panicked, run'), w')) ↔
      ∃ output, .ready output ∈ results := by
  rcases h.cases with ⟨hpending, hpolled⟩ | ⟨j, output, hmem, -, hpolled⟩
  · constructor
    · rintro ⟨n, run', w', hpoll⟩
      have hturn := self.pollFor_live cx n run w hpolled.live
      rw [hpoll] at hturn
      exact hturn.1.elim
    · rintro ⟨output, hmem⟩
      cases hpending _ hmem
  · refine ⟨fun _ => ⟨output, hmem⟩, fun _ => ?_⟩
    obtain ⟨hdone, elapsed, helapsed⟩ := hpolled.done
    exact ⟨1, run, w, self.pollFor_of_done cx 0 hdone helapsed w⟩

end AsyncRetry

end Relentless
