import Relentless.Engine.Parametric
import Relentless.Engine.Phases

/-!
# Engines Side by Side

Two configurations on different worlds, whose parts give the same answers and keep the
worlds related, run alike.  In the async engine their futures may differ as well.

- `StepCoupled` — the parts that the shared decision step consults
- `StepMoves` — what such parts may do to the world
- `Retry.Coupled`, `AsyncRetry.Coupled` — coupled configurations
- `Retry.Coupled.runFor` — their runs are coupled
- `AsyncRetry.Coupled.polledTo` — and so is any sequence of polls
-/

namespace Relentless

open StateLoop
open Eff (Couples Moves)

variable {σ σ' R A O : Type} {J : σ → σ' → Prop}

/-! ## §1 The decision step -/

/-- The parts that an attempt consults, besides the operation and the clock, are coupled. -/
structure StepCoupled (J : σ → σ' → Prop) (classifier : Decide (Eff σ) R A O)
    (classifier' : Decide (Eff σ') R A O) (stop : Stop (Eff σ)) (stop' : Stop (Eff σ'))
    (wait : Wait (Eff σ)) (wait' : Wait (Eff σ')) (hooks : ExecutionHooks (Eff σ) R A O)
    (hooks' : ExecutionHooks (Eff σ') R A O) : Prop where
  decide : ∀ outcome, Couples J Eq (classifier.decide outcome) (classifier'.decide outcome)
  shouldStop : ∀ state, Couples J Eq (stop.shouldStop state) (stop'.shouldStop state)
  nextWait : ∀ state, Couples J Eq (wait.nextWait state) (wait'.nextWait state)
  beforeAttempt : ∀ state,
    Couples J Eq (hooks.beforeAttempt.call state) (hooks'.beforeAttempt.call state)
  afterAttempt : ∀ state,
    Couples J Eq (hooks.afterAttempt.call state) (hooks'.afterAttempt.call state)
  onExit : ∀ exit, Couples J Eq (hooks.onExit.call exit) (hooks'.onExit.call exit)

/-- Coupled parts are related, with the same answers from related worlds. -/
theorem StepCoupled.related {classifier : Decide (Eff σ) R A O}
    {classifier' : Decide (Eff σ') R A O} {stop : Stop (Eff σ)} {stop' : Stop (Eff σ')}
    {wait : Wait (Eff σ)} {wait' : Wait (Eff σ')} {hooks : ExecutionHooks (Eff σ) R A O}
    {hooks' : ExecutionHooks (Eff σ') R A O}
    (h : StepCoupled J classifier classifier' stop stop' wait wait' hooks hooks') :
    StepRelated (MonadRel.couples J) classifier classifier' stop stop' wait wait' hooks hooks' where
  debugAssert _ _ := Couples.pure rfl
  decide := h.decide
  shouldStop := h.shouldStop
  nextWait := h.nextWait
  beforeAttempt := h.beforeAttempt
  afterAttempt := h.afterAttempt
  onExit := h.onExit

/-- **The decision step** of coupled parts is coupled. -/
theorem StepCoupled.step {classifier : Decide (Eff σ) R A O}
    {classifier' : Decide (Eff σ') R A O} {stop : Stop (Eff σ)} {stop' : Stop (Eff σ')}
    {wait : Wait (Eff σ)} {wait' : Wait (Eff σ')} {hooks : ExecutionHooks (Eff σ) R A O}
    {hooks' : ExecutionHooks (Eff σ') R A O}
    (h : StepCoupled J classifier classifier' stop stop' wait wait' hooks hooks')
    (progress : Progress) (outcome : O) (timeout : Option Duration) :
    Couples J Eq (step progress outcome classifier stop wait timeout hooks)
      (step progress outcome classifier' stop' wait' timeout hooks') :=
  h.related.step progress outcome timeout

/-- The parts that an attempt consults take every world only to a related one. -/
structure StepMoves (r : σ → σ → Prop) (classifier : Decide (Eff σ) R A O) (stop : Stop (Eff σ))
    (wait : Wait (Eff σ)) (hooks : ExecutionHooks (Eff σ) R A O) : Prop where
  decide : ∀ outcome, Moves r (classifier.decide outcome)
  shouldStop : ∀ state, Moves r (stop.shouldStop state)
  nextWait : ∀ state, Moves r (wait.nextWait state)
  beforeAttempt : ∀ state, Moves r (hooks.beforeAttempt.call state)
  afterAttempt : ∀ state, Moves r (hooks.afterAttempt.call state)
  onExit : ∀ exit, Moves r (hooks.onExit.call exit)

theorem StepMoves.mono {r r' : σ → σ → Prop} (hr : ∀ w w', r w w' → r' w w')
    {classifier : Decide (Eff σ) R A O} {stop : Stop (Eff σ)} {wait : Wait (Eff σ)}
    {hooks : ExecutionHooks (Eff σ) R A O} (h : StepMoves r classifier stop wait hooks) :
    StepMoves r' classifier stop wait hooks where
  decide outcome := (h.decide outcome).mono hr
  shouldStop state := (h.shouldStop state).mono hr
  nextWait state := (h.nextWait state).mono hr
  beforeAttempt state := (h.beforeAttempt state).mono hr
  afterAttempt state := (h.afterAttempt state).mono hr
  onExit exit := (h.onExit exit).mono hr

/-- The parts beside themselves, in a world that has come from `w₀`. -/
theorem StepMoves.coupled {r : σ → σ → Prop} [IsTrans σ r] {classifier : Decide (Eff σ) R A O}
    {stop : Stop (Eff σ)} {wait : Wait (Eff σ)} {hooks : ExecutionHooks (Eff σ) R A O}
    (h : StepMoves r classifier stop wait hooks) (w₀ : σ) :
    StepCoupled (fun w w' => w = w' ∧ r w₀ w) classifier classifier stop stop wait wait hooks
      hooks where
  decide outcome := (h.decide outcome).couples w₀
  shouldStop state := (h.shouldStop state).couples w₀
  nextWait state := (h.nextWait state).couples w₀
  beforeAttempt state := (h.beforeAttempt state).couples w₀
  afterAttempt state := (h.afterAttempt state).couples w₀
  onExit exit := (h.onExit exit).couples w₀

/-- **The decision step** does to the world what its parts do. -/
theorem StepMoves.step {r : σ → σ → Prop} [Std.Refl r] [IsTrans σ r]
    {classifier : Decide (Eff σ) R A O} {stop : Stop (Eff σ)} {wait : Wait (Eff σ)}
    {hooks : ExecutionHooks (Eff σ) R A O} (h : StepMoves r classifier stop wait hooks)
    (progress : Progress) (outcome : O) (timeout : Option Duration) :
    Moves r (step progress outcome classifier stop wait timeout hooks) :=
  Moves.of_couples fun w₀ => (h.coupled w₀).step progress outcome timeout

theorem Elapsed.couples_read {clock : Clock (Eff σ)} {clock' : Clock (Eff σ')}
    (hnow : Couples J Eq clock.now clock'.now) (elapsed : Elapsed) :
    Couples J Eq (elapsed.read clock) (elapsed.read clock') := by
  refine hnow.bind_same fun reading => ?_
  exact Couples.bind_same (fun w w' hworlds => ⟨rfl, hworlds⟩) fun _ => Couples.pure rfl

/-! ## §2 The sync engine -/

namespace Retry

/-- Two sync configurations with coupled parts. -/
structure Coupled (J : σ → σ' → Prop) (retry : Retry (Eff σ) R A O)
    (retry' : Retry (Eff σ') R A O) : Prop where
  parts : StepCoupled J retry.classifier retry'.classifier retry.stop retry'.stop retry.wait
    retry'.wait retry.hooks retry'.hooks
  op : ∀ state, Couples J Eq (retry.op state) (retry'.op state)
  now : Couples J Eq retry.clock.now retry'.clock.now
  wait : ∀ delay, Couples J Eq (retry.clock.wait delay) (retry'.clock.wait delay)
  timeout : retry.timeout = retry'.timeout

namespace Coupled

variable {self : Retry (Eff σ) R A O} {self' : Retry (Eff σ') R A O}

theorem related (h : Coupled J self self') : Related (MonadRel.couples J) self self' where
  parts := h.parts.related
  op := h.op
  now := h.now
  wait := h.wait
  timeout := h.timeout

/-- **Coupled configurations run alike**, for any number of rounds. -/
theorem runFor (h : Coupled J self self') (n : ℕ) :
    Couples J Eq (self.runFor n) (self'.runFor n) :=
  h.related.runFor n

end Coupled

/-- All parts take every world only to a related one. -/
structure AllMove (r : σ → σ → Prop) (retry : Retry (Eff σ) R A O) : Prop where
  parts : StepMoves r retry.classifier retry.stop retry.wait retry.hooks
  op : ∀ state, Moves r (retry.op state)
  now : Moves r retry.clock.now
  wait : ∀ delay, Moves r (retry.clock.wait delay)

/-- **A round** does to the world what the parts do. -/
theorem AllMove.loopBody {r : σ → σ → Prop} [Std.Refl r] [IsTrans σ r]
    {self : Retry (Eff σ) R A O} (h : self.AllMove r) (cursor : Cursor) :
    Moves r (self.loopBody cursor) := by
  -- The configuration beside itself, with one answer and one world everywhere.
  have hcoupled (w₀ : σ) : Coupled (fun w w' => w = w' ∧ r w₀ w) self self :=
    { parts := h.parts.coupled w₀
      op := fun state => (h.op state).couples w₀
      now := h.now.couples w₀
      wait := fun delay => (h.wait delay).couples w₀
      timeout := rfl }
  exact Moves.of_couples fun w₀ => (hcoupled w₀).related.loopBody cursor

end Retry

/-! ## §3 The async engine -/

variable {Fut Fut' WaitFut WaitFut' : Type} {PF : Fut → Fut' → Prop}
  {PW : WaitFut → WaitFut' → Prop}

/-- The same phase, with related futures. -/
inductive Phase.Matches (PF : Fut → Fut' → Prop) (PW : WaitFut → WaitFut' → Prop) :
    Phase Fut WaitFut → Phase Fut' WaitFut' → Prop where
  | readyToStart : Matches PF PW .readyToStart .readyToStart
  | polling {future : Fut} {future' : Fut'} (h : PF future future') :
      Matches PF PW (.polling future) (.polling future')
  | sleeping {future : WaitFut} {future' : WaitFut'} (h : PW future future') :
      Matches PF PW (.sleeping future) (.sleeping future')
  | yielding : Matches PF PW .yielding .yielding
  | done : Matches PF PW .done .done

theorem Phase.Matches.refl {PF : Fut → Fut → Prop} {PW : WaitFut → WaitFut → Prop}
    (hfut : ∀ future, PF future future) (hwait : ∀ future, PW future future)
    (phase : Phase Fut WaitFut) : phase.Matches PF PW phase := by
  cases phase with
  | readyToStart => exact .readyToStart
  | polling future => exact .polling (hfut future)
  | sleeping future => exact .sleeping (hwait future)
  | yielding => exact .yielding
  | done => exact .done

/-- The same fields, up to the futures. -/
structure RunFields.Matches (PF : Fut → Fut' → Prop) (PW : WaitFut → WaitFut' → Prop)
    (run : RunFields Fut WaitFut) (run' : RunFields Fut' WaitFut') : Prop where
  phase : run.phase.Matches PF PW run'.phase
  attempt : run.attempt = run'.attempt
  previousDelay : run.previousDelay = run'.previousDelay
  totalWait : run.totalWait = run'.totalWait

/-- The same run, up to the futures. -/
structure AsyncRun.Matches (PF : Fut → Fut' → Prop) (PW : WaitFut → WaitFut' → Prop)
    (run : AsyncRun Fut WaitFut) (run' : AsyncRun Fut' WaitFut') : Prop where
  fields : run.toRunFields.Matches PF PW run'.toRunFields
  elapsed : run.elapsed = run'.elapsed

theorem AsyncRun.Matches.refl {PF : Fut → Fut → Prop} {PW : WaitFut → WaitFut → Prop}
    (hfut : ∀ future, PF future future) (hwait : ∀ future, PW future future)
    (run : AsyncRun Fut WaitFut) : run.Matches PF PW run where
  fields := ⟨.refl hfut hwait run.phase, rfl, rfl, rfl⟩
  elapsed := rfl

/-- With the same futures it is the same run. -/
theorem AsyncRun.Matches.eq {run run' : AsyncRun Fut WaitFut} (h : run.Matches Eq Eq run') :
    run = run' := by
  obtain ⟨⟨phase, attempt, previousDelay, totalWait⟩, elapsed⟩ := run
  obtain ⟨⟨phase', attempt', previousDelay', totalWait'⟩, elapsed'⟩ := run'
  obtain ⟨⟨hphase, rfl, rfl, rfl⟩, rfl⟩ := h
  cases hphase with
  | polling hfuture | sleeping hfuture =>
    obtain rfl := hfuture
    rfl
  | readyToStart | yielding | done => rfl

namespace AsyncRetry

/-- Two async configurations with coupled parts, whose futures are related. -/
structure Coupled (J : σ → σ' → Prop) (PF : Fut → Fut' → Prop) (PW : WaitFut → WaitFut' → Prop)
    (retry : AsyncRetry (Eff σ) Fut WaitFut R A O)
    (retry' : AsyncRetry (Eff σ') Fut' WaitFut' R A O) : Prop where
  parts : StepCoupled J retry.classifier retry'.classifier retry.stop retry'.stop retry.wait
    retry'.wait retry.hooks retry'.hooks
  callOp : ∀ state, Couples J PF (retry.op.callOp state) (retry'.op.callOp state)
  poll : ∀ {future future'} cx, PF future future' →
    Couples J (fun answer answer' => answer.1 = answer'.1 ∧ PF answer.2 answer'.2)
      (retry.op.poll future cx) (retry'.op.poll future' cx)
  now : Couples J Eq retry.clock.now retry'.clock.now
  waitAsync : ∀ delay, Couples J PW (retry.clock.waitAsync delay) (retry'.clock.waitAsync delay)
  pollWait : ∀ {future future'} cx, PW future future' →
    Couples J (fun answer answer' => answer.1 = answer'.1 ∧ PW answer.2 answer'.2)
      (retry.clock.pollWait future cx) (retry'.clock.pollWait future' cx)
  wakeByRef : ∀ cx, Couples J Eq (retry.wakeByRef cx) (retry'.wakeByRef cx)
  timeout : retry.timeout = retry'.timeout

/-- The loop states of two coupled polls. -/
def StateMatches (PF : Fut → Fut' → Prop) (PW : WaitFut → WaitFut' → Prop)
    (state : LoopState Fut WaitFut) (state' : LoopState Fut' WaitFut') : Prop :=
  state.1 = state'.1 ∧ state.2.Matches PF PW state'.2

/-- The results of two coupled polls. -/
def ResultMatches (PF : Fut → Fut' → Prop) (PW : WaitFut → WaitFut' → Prop)
    (result : PollResult Fut WaitFut R A O) (result' : PollResult Fut' WaitFut' R A O) : Prop :=
  result.1 = result'.1 ∧ result.2.Matches PF PW result'.2

namespace Coupled

variable {self : AsyncRetry (Eff σ) Fut WaitFut R A O}
  {self' : AsyncRetry (Eff σ') Fut' WaitFut' R A O}

theorem proceed (h : Coupled J PF PW self self') (cx : Context) (elapsed : Elapsed)
    {run : RunFields Fut WaitFut} {run' : RunFields Fut' WaitFut'}
    (hrun : run.Matches PF PW run') (next : Step R A O) :
    Couples J (Couples.TurnRel (StateMatches PF PW) (ResultMatches PF PW))
      (self.proceed cx elapsed run next) (self'.proceed cx elapsed run' next) := by
  cases next with
  | done result stats =>
    exact Couples.pure ⟨rfl, ⟨.done, hrun.attempt, hrun.previousDelay, hrun.totalWait⟩, rfl⟩
  | continue_ delay running =>
    unfold AsyncRetry.proceed
    dsimp only
    cases delay.isZero with
    | true =>
      refine (h.wakeByRef cx).bind_same fun _ => ?_
      exact Couples.pure ⟨rfl, ⟨.yielding, hrun.attempt, rfl, rfl⟩, rfl⟩
    | false =>
      refine (h.waitAsync delay).bind fun future future' hfuture => ?_
      exact Couples.pure ⟨rfl, .sleeping hfuture, hrun.attempt, rfl, rfl⟩

/-- **One pass** of two coupled poll loops. -/
theorem pollBody (h : Coupled J PF PW self self') (cx : Context)
    {state : LoopState Fut WaitFut} {state' : LoopState Fut' WaitFut'}
    (hstate : StateMatches PF PW state state') :
    Couples J (Couples.TurnRel (StateMatches PF PW) (ResultMatches PF PW))
      (self.pollBody cx state) (self'.pollBody cx state') := by
  obtain ⟨elapsed, phase, attempt, previousDelay, totalWait⟩ := state
  obtain ⟨elapsed', phase', attempt', previousDelay', totalWait'⟩ := state'
  obtain ⟨rfl, hphase, rfl, rfl, rfl⟩ := hstate
  cases hphase with
  | readyToStart =>
    refine Couples.bind_same (fun w w' hworlds => ⟨rfl, hworlds⟩) fun retryState => ?_
    refine (Elapsed.couples_read h.now elapsed).bind_same fun reading => ?_
    refine (h.parts.beforeAttempt _).bind_same fun _ => ?_
    refine (h.callOp _).bind fun future future' hfuture => ?_
    exact Couples.pure ⟨rfl, .polling hfuture, rfl, rfl, rfl⟩
  | polling hfuture =>
    refine (h.poll cx hfuture).bind fun answer answer' hanswer => ?_
    obtain ⟨value, future⟩ := answer
    obtain ⟨value', future'⟩ := answer'
    obtain ⟨rfl, hfuture'⟩ := hanswer
    cases value with
    | pending => exact Couples.pure ⟨rfl, ⟨.polling hfuture', rfl, rfl, rfl⟩, rfl⟩
    | ready outcome =>
      refine (Elapsed.couples_read h.now elapsed).bind_same fun reading => ?_
      rw [h.timeout]
      refine (h.parts.step _ _ _).bind_same fun next => ?_
      exact h.proceed cx _ ⟨.polling hfuture, rfl, rfl, rfl⟩ next
  | sleeping hfuture =>
    refine (h.pollWait cx hfuture).bind fun answer answer' hanswer => ?_
    obtain ⟨value, future⟩ := answer
    obtain ⟨value', future'⟩ := answer'
    obtain ⟨rfl, hfuture'⟩ := hanswer
    cases value with
    | pending => exact Couples.pure ⟨rfl, ⟨.sleeping hfuture', rfl, rfl, rfl⟩, rfl⟩
    | ready value => exact Couples.pure ⟨rfl, .readyToStart, rfl, rfl, rfl⟩
  | yielding => exact Couples.pure ⟨rfl, .readyToStart, rfl, rfl, rfl⟩
  | done => exact Couples.pure ⟨rfl, ⟨.done, rfl, rfl, rfl⟩, rfl⟩

theorem pollFor (h : Coupled J PF PW self self') (n : ℕ) (cx : Context)
    {run : AsyncRun Fut WaitFut} {run' : AsyncRun Fut' WaitFut'} (hrun : run.Matches PF PW run') :
    Couples J (Couples.TurnRel (StateMatches PF PW) (ResultMatches PF PW))
      (self.pollFor n cx run) (self'.pollFor n cx run') := by
  have hbegin : Couples J Eq (self.startElapsed run) (self'.startElapsed run') := by
    unfold startElapsed
    rw [hrun.elapsed]
    cases run'.elapsed with
    | some elapsed => exact Couples.pure rfl
    | none => exact h.now.bind_same fun _ => Couples.pure rfl
  refine hbegin.bind_same fun elapsed => ?_
  exact Couples.runFor (fun _ _ hstate => h.pollBody cx hstate) n ⟨rfl, hrun.fields⟩

/-- A poll that returns, and the one beside it. -/
theorem pollFor_done (h : Coupled J PF PW self self') {n : ℕ} {cx : Context} {w w₁ : σ} {w' : σ'}
    {run run₁ : AsyncRun Fut WaitFut} {run' : AsyncRun Fut' WaitFut'}
    {result : PollEnd (Output R A O)} (hrun : run.Matches PF PW run') (hworlds : J w w')
    (hpoll : self.pollFor n cx run w = (.done (result, run₁), w₁)) :
    ∃ run₁' w₁', self'.pollFor n cx run' w' = (.done (result, run₁'), w₁') ∧ J w₁ w₁' ∧
      run₁.Matches PF PW run₁' := by
  obtain ⟨hturn, hworlds₁⟩ := h.pollFor n cx hrun w w' hworlds
  rw [hpoll] at hturn hworlds₁
  obtain ⟨turn, w₁', hpoll'⟩ : ∃ turn w₁', self'.pollFor n cx run' w' = (turn, w₁') :=
    ⟨_, _, rfl⟩
  rw [hpoll'] at hturn hworlds₁
  cases turn with
  | again state => exact hturn.elim
  | done ended =>
    obtain ⟨result', run₁'⟩ := ended
    obtain ⟨rfl, hrun₁⟩ := hturn
    exact ⟨run₁', w₁', hpoll', hworlds₁, hrun₁⟩

theorem created_matches :
    (AsyncRun.intoRun : AsyncRun Fut WaitFut).Matches PF PW
      (AsyncRun.intoRun : AsyncRun Fut' WaitFut') :=
  ⟨⟨.readyToStart, rfl, rfl, rfl⟩, rfl⟩

/-- **Coupled futures are polled alike**: whatever sequence of polls one of them takes, the
other one takes as well, and it ends in the same way. -/
theorem polledTo (h : Coupled J PF PW self self') {cxs : ℕ → Context} {w₀ : σ} {w₀' : σ'}
    (hworlds : J w₀ w₀') {j : ℕ} {w : σ} {run : AsyncRun Fut WaitFut}
    {result : PollEnd (Output R A O)} (hpolled : self.PolledTo cxs w₀ j w run result) :
    ∃ w' run', self'.PolledTo cxs w₀' j w' run' result ∧ J w w' ∧ run.Matches PF PW run' := by
  induction hpolled with
  | created => exact ⟨w₀', .intoRun, .created, hworlds, created_matches⟩
  | poll j n w w₁ run run₁ result hprev hpoll ih =>
    obtain ⟨w', run', hprev', hworlds', hrun⟩ := ih
    obtain ⟨run₁', w₁', hpoll', hworlds₁, hrun₁⟩ := h.pollFor_done hrun hworlds' hpoll
    exact ⟨w₁', run₁', .poll j n w' w₁' run' run₁' result hprev' hpoll', hworlds₁, hrun₁⟩

/-- Nor does it matter when they are polled after they were ready. -/
theorem pollSequence (h : Coupled J PF PW self self') {cxs : ℕ → Context} {w₀ : σ} {w₀' : σ'}
    (hworlds : J w₀ w₀') {results : List (PollEnd (Output R A O))} {w : σ}
    {run : AsyncRun Fut WaitFut} (hpolled : self.PollSequence cxs w₀ results w run) :
    ∃ w' run', self'.PollSequence cxs w₀' results w' run' ∧ J w w' ∧ run.Matches PF PW run' := by
  induction hpolled with
  | created => exact ⟨w₀', .intoRun, .created, hworlds, created_matches⟩
  | poll results n w w₁ run run₁ result hprev hpoll ih =>
    obtain ⟨w', run', hprev', hworlds', hrun⟩ := ih
    obtain ⟨run₁', w₁', hpoll', hworlds₁, hrun₁⟩ := h.pollFor_done hrun hworlds' hpoll
    exact ⟨w₁', run₁', .poll results n w' w₁' run' run₁' result hprev' hpoll', hworlds₁, hrun₁⟩

end Coupled

/-- All parts take every world only to a related one. -/
structure AllMove (r : σ → σ → Prop) (retry : AsyncRetry (Eff σ) Fut WaitFut R A O) : Prop where
  parts : StepMoves r retry.classifier retry.stop retry.wait retry.hooks
  callOp : ∀ state, Moves r (retry.op.callOp state)
  poll : ∀ future cx, Moves r (retry.op.poll future cx)
  now : Moves r retry.clock.now
  waitAsync : ∀ delay, Moves r (retry.clock.waitAsync delay)
  pollWait : ∀ future cx, Moves r (retry.clock.pollWait future cx)
  wakeByRef : ∀ cx, Moves r (retry.wakeByRef cx)

/-- **A poll** does to the world what the parts do. -/
theorem AllMove.pollFor {r : σ → σ → Prop} [Std.Refl r] [IsTrans σ r]
    {self : AsyncRetry (Eff σ) Fut WaitFut R A O} (h : self.AllMove r) (n : ℕ) (cx : Context)
    (run : AsyncRun Fut WaitFut) : Moves r (self.pollFor n cx run) := by
  -- The configuration beside itself, with one answer and one world everywhere.
  have hcoupled (w₀ : σ) : Coupled (fun w w' => w = w' ∧ r w₀ w) Eq Eq self self := by
    constructor
    case parts => exact h.parts.coupled w₀
    case callOp => exact fun state => (h.callOp state).couples w₀
    case poll =>
      rintro future _ cx rfl w w' hworlds
      obtain ⟨hanswer, hworlds'⟩ := (h.poll future cx).couples w₀ w w' hworlds
      exact ⟨⟨congrArg Prod.fst hanswer, congrArg Prod.snd hanswer⟩, hworlds'⟩
    case now => exact h.now.couples w₀
    case waitAsync => exact fun delay => (h.waitAsync delay).couples w₀
    case pollWait =>
      rintro future _ cx rfl w w' hworlds
      obtain ⟨hanswer, hworlds'⟩ := (h.pollWait future cx).couples w₀ w w' hworlds
      exact ⟨⟨congrArg Prod.fst hanswer, congrArg Prod.snd hanswer⟩, hworlds'⟩
    case wakeByRef => exact fun cx => (h.wakeByRef cx).couples w₀
    case timeout => rfl
  exact Moves.of_couples fun w₀ =>
    (hcoupled w₀).pollFor n cx (.refl (fun _ => rfl) (fun _ => rfl) run)

end AsyncRetry

/-! ## §4 The same configuration on a larger world -/

section Into

variable {lift : ∀ {α : Type}, Eff σ α → Eff σ' α}

theorem HookSlot.couples_into {α : Type}
    (hlift : ∀ x : Eff σ Unit, Couples J Eq x (lift x)) (slot : HookSlot (Eff σ) α) (view : α) :
    Couples J Eq (slot.call view) ((slot.into lift).call view) := by
  induction slot generalizing view with
  | unit => exact Couples.pure rfl
  | chain first second ih => exact (ih view).bind_same fun _ => hlift _

theorem HookSlot.moves_into {r : σ' → σ' → Prop} [Std.Refl r] [IsTrans σ' r] {α : Type}
    (hlift : ∀ x : Eff σ Unit, Moves r (lift x)) (slot : HookSlot (Eff σ) α) (view : α) :
    Moves r ((slot.into lift).call view) := by
  induction slot generalizing view with
  | unit => exact Moves.pure ()
  | chain first second ih => exact (ih view).bind fun _ => hlift _

end Into

end Relentless
