import Relentless.Trace.Event

/-!
# The Grammar of a Call Log

What a run of either engine may write into its log, stated without reference to
the engines: a log is a sequence of rounds, each a fixed pattern of calls whose
arguments are determined by the round's number and by the rounds before it.

- `Mark` — where a run stands between two rounds, as its history determines it
- `Fate` — what follows an attempt; `Round` — one attempt with its fate
- `Round.calls` — the calls of a round, in order, with their arguments
- `Rounds` — the logs that are sequences of rounds
- `step_spec` — the shared decision step writes the second half of a round
-/

namespace Relentless

open StateLoop

variable {R A O : Type}

/-! ## §1 Settings -/

/-- The answers the classifier and the strategies may give. -/
structure Answers (R A O : Type) where
  decide : O → Verdict R A O → Prop
  shouldStop : RetryState → Bool → Prop
  nextWait : RetryState → Duration → Prop

/-- What a grammar is relative to: the timeout, the number of hooks registered
at each point, and the answers that may be given. -/
structure Setting (R A O : Type) where
  timeout : Option Duration
  beforeHooks : ℕ
  afterHooks : ℕ
  exitHooks : ℕ
  answers : Answers R A O

/-- The answers that given parts give in some world. -/
def Answers.of {σ : Type} (classifier : Decide (Eff σ) R A O) (stop : Stop (Eff σ))
    (wait : Wait (Eff σ)) : Answers R A O where
  decide outcome verdict := ∃ w, (classifier.decide outcome w).1 = verdict
  shouldStop state answer := ∃ w, (stop.shouldStop state w).1 = answer
  nextWait state delay := ∃ w, (wait.nextWait state w).1 = delay

/-- The setting a sync configuration runs in. -/
def Retry.setting {σ : Type} (self : Retry (Eff σ) R A O) : Setting R A O where
  timeout := self.timeout
  beforeHooks := self.hooks.beforeAttempt.count
  afterHooks := self.hooks.afterAttempt.count
  exitHooks := self.hooks.onExit.count
  answers := .of self.classifier self.stop self.wait

/-- The setting an async configuration runs in. -/
def AsyncRetry.setting {σ Fut WaitFut : Type} (self : AsyncRetry (Eff σ) Fut WaitFut R A O) :
    Setting R A O where
  timeout := self.timeout
  beforeHooks := self.hooks.beforeAttempt.count
  afterHooks := self.hooks.afterAttempt.count
  exitHooks := self.hooks.onExit.count
  answers := .of self.classifier self.stop self.wait

/-! ## §2 Marks -/

/-- Where a run stands between two rounds: the number of the next round, the
delay of the last gap, the watermark, and the exact sum of all delays so far. -/
structure Mark where
  round : ℕ
  previousDelay : Option Duration
  elapsed : Elapsed
  waited : ℕ

namespace Mark

/-- Before the first round, with the baseline reading taken. -/
def start (baseline : Duration) : Mark :=
  { round := 1, previousDelay := none, elapsed := ⟨baseline, .zero⟩, waited := 0 }

/-- The locals of the loop at a mark. -/
def cursor (mark : Mark) : Cursor :=
  { elapsed := mark.elapsed
    attempt := attemptNumber mark.round
    previousDelay := mark.previousDelay
    totalWait := .ofNanos mark.waited }

/-- The state of the mark's round, with a given elapsed time. -/
def state (mark : Mark) (elapsed : Elapsed) : RetryState :=
  { attempt := attemptNumber mark.round
    elapsed := elapsed.highest
    previousDelay := mark.previousDelay }

/-- The watermark after the round's first reading. -/
def before (mark : Mark) (reading : Duration) : Elapsed := mark.elapsed.observe reading

end Mark

/-! ## §3 Rounds -/

/-- What follows an attempt. -/
inductive Fate (R A O : Type) where
  | returned (value : R)
  | aborted (last : A)
  | exhausted (last : O) (stopAnswer : Bool)
  | retried (last : O) (rawDelay : Duration)

/-- One round: the two readings, the outcome, and what followed. -/
structure Round (R A O : Type) where
  beforeReading : Duration
  outcome : O
  afterReading : Duration
  fate : Fate R A O

/-- The request to the clock for a gap: none when the delay is zero. -/
def waitEvents (delay : Duration) : List (Event R A O) :=
  if delay.isZero then [] else [.wait delay]

namespace Fate

/-- The verdict on the outcome. -/
def verdict : Fate R A O → Verdict R A O
  | .returned value => .return_ value
  | .aborted last => .abort last
  | .exhausted last _ => .retry last
  | .retried last _ => .retry last

/-- The calls from the verdict on, up to the clock wait. -/
def calls (S : Setting R A O) (state : RetryState) (outcome : O) :
    Fate R A O → List (Event R A O)
  | .returned value =>
    .decide outcome (.return_ value) ::
      hookEvents S.exitHooks .onExit (.returned state.attempt state.elapsed value)
  | .aborted last =>
    .decide outcome (.abort last) ::
      hookEvents S.exitHooks .onExit (.aborted state.attempt state.elapsed last)
  | .exhausted last answer =>
    .decide outcome (.retry last) :: .shouldStop state answer ::
      hookEvents S.exitHooks .onExit (.exhausted state.attempt state.elapsed last)
  | .retried last rawDelay =>
    [.decide outcome (.retry last), .shouldStop state false, .nextWait state rawDelay]

/-- From the verdict on, the strategies are consulted with the state of the round, the wait
strategy only when there is a next one, and the exit hooks are shown its elapsed time. -/
theorem mem_calls {S : Setting R A O} {state : RetryState} {outcome : O} {fate : Fate R A O}
    {ev : Event R A O} (hev : ev ∈ fate.calls S state outcome) :
    (∃ verdict, ev = .decide outcome verdict) ∨ (∃ answer, ev = .shouldStop state answer) ∨
    (∃ last rawDelay, fate = .retried last rawDelay ∧ ev = .nextWait state rawDelay) ∨
    ∃ hook exit, exit.elapsed = state.elapsed ∧ ev = .onExit hook exit := by
  -- The three terminal fates end with the exit hooks, the fourth with the wait strategy.
  cases fate with
  | returned value | aborted last =>
    simp only [calls, List.mem_cons, mem_hookEvents] at hev
    rcases hev with rfl | ⟨hook, -, rfl⟩
    · exact .inl ⟨_, rfl⟩
    · exact .inr (.inr (.inr ⟨hook, _, rfl, rfl⟩))
  | exhausted last answer =>
    simp only [calls, List.mem_cons, mem_hookEvents] at hev
    rcases hev with rfl | rfl | ⟨hook, -, rfl⟩
    · exact .inl ⟨_, rfl⟩
    · exact .inr (.inl ⟨answer, rfl⟩)
    · exact .inr (.inr (.inr ⟨hook, _, rfl, rfl⟩))
  | retried last rawDelay =>
    simp only [calls, List.mem_cons, List.not_mem_nil, or_false] at hev
    rcases hev with rfl | rfl | rfl
    · exact .inl ⟨_, rfl⟩
    · exact .inr (.inl ⟨false, rfl⟩)
    · exact .inr (.inr (.inl ⟨last, rawDelay, rfl, rfl⟩))

/-- The request to the clock that ends a retried round. -/
def waitCalls (S : Setting R A O) (elapsed : Duration) : Fate R A O → List (Event R A O)
  | .retried _ rawDelay => waitEvents (clampDelay S.timeout elapsed rawDelay)
  | _ => []

/-- The answers the fate rests on were given, and lead to it. -/
def Allowed (S : Setting R A O) (state : RetryState) (outcome : O) (fate : Fate R A O) : Prop :=
  S.answers.decide outcome fate.verdict ∧
  match fate with
  | .returned _ | .aborted _ => True
  | .exhausted _ answer =>
    S.answers.shouldStop state answer ∧
      (answer || timeoutExceeded S.timeout state.elapsed) = true
  | .retried _ rawDelay =>
    S.answers.shouldStop state false ∧ timeoutExceeded S.timeout state.elapsed = false ∧
      S.answers.nextWait state rawDelay

/-- What the decision step answers. -/
def step (S : Setting R A O) (state : RetryState) (totalWait : Duration) :
    Fate R A O → Step R A O
  | .returned value => .done (.ok value) ⟨state.attempt, state.elapsed, totalWait, .returned⟩
  | .aborted last =>
    .done (.error (.aborted last)) ⟨state.attempt, state.elapsed, totalWait, .aborted⟩
  | .exhausted last _ =>
    .done (.error (.exhausted last)) ⟨state.attempt, state.elapsed, totalWait, .exhausted⟩
  | .retried _ rawDelay =>
    let delay := clampDelay S.timeout state.elapsed rawDelay
    .continue_ delay (totalWait.saturatingAdd delay)

end Fate

namespace Round

/-- The watermark after the operation. -/
def after (mark : Mark) (round : Round R A O) : Elapsed :=
  (mark.before round.beforeReading).observe round.afterReading

/-- The calls before the operation answers. -/
def openingCalls (S : Setting R A O) (mark : Mark) (reading : Duration) :
    List (Event R A O) :=
  let state := mark.state (mark.before reading)
  .now reading :: (hookEvents S.beforeHooks .beforeAttempt state ++ [.op state])

/-- The opening of a round reads the clock, fires hooks and calls the operation. -/
theorem mem_openingCalls {S : Setting R A O} {mark : Mark} {reading : Duration}
    {ev : Event R A O} (hev : ev ∈ (openingCalls S mark reading : List (Event R A O))) :
    ev = .now reading ∨ (∃ hook, ev = .beforeAttempt hook (mark.state (mark.before reading))) ∨
      ev = .op (mark.state (mark.before reading)) := by
  simp only [openingCalls, List.mem_cons, List.mem_append, mem_hookEvents, List.not_mem_nil,
    or_false] at hev
  rcases hev with rfl | ⟨hook, -, rfl⟩ | rfl
  · exact .inl rfl
  · exact .inr (.inl ⟨hook, rfl⟩)
  · exact .inr (.inr rfl)

theorem filterMap_openingCalls {β : Type} (f : Event R A O → Option β)
    (hnow : ∀ reading, f (.now reading) = none)
    (hhook : ∀ hook state, f (.beforeAttempt hook state) = none)
    (hop : ∀ state, f (.op state) = none) (S : Setting R A O) (mark : Mark)
    (reading : Duration) : (openingCalls S mark reading).filterMap f = [] := by
  apply List.filterMap_eq_nil_iff.mpr
  intro ev hev
  rcases mem_openingCalls hev with rfl | ⟨hook, rfl⟩ | rfl
  · exact hnow reading
  · exact hhook hook _
  · exact hop _

/-- The calls from the outcome up to the verdict. -/
def closingCalls (S : Setting R A O) (mark : Mark) (elapsed : Elapsed) (outcome : O)
    (reading : Duration) : List (Event R A O) :=
  .outcome outcome :: .now reading ::
    hookEvents S.afterHooks .afterAttempt
      { attempt := attemptNumber mark.round, elapsed := elapsed.highest, outcome }

/-- All calls of a round. -/
def calls (S : Setting R A O) (mark : Mark) (round : Round R A O) : List (Event R A O) :=
  let elapsed := round.after mark
  let state := mark.state elapsed
  openingCalls S mark round.beforeReading ++
    closingCalls S mark elapsed round.outcome round.afterReading ++
    round.fate.calls S state round.outcome ++
    round.fate.waitCalls S state.elapsed

/-- The fate of the round is one its answers lead to. -/
def Allowed (S : Setting R A O) (mark : Mark) (round : Round R A O) : Prop :=
  round.fate.Allowed S (mark.state (round.after mark)) round.outcome

/-- The mark after a retried round with the given raw delay. -/
def nextMark (S : Setting R A O) (mark : Mark) (round : Round R A O) (rawDelay : Duration) :
    Mark :=
  let elapsed := round.after mark
  let delay := clampDelay S.timeout elapsed.highest rawDelay
  { round := mark.round + 1, previousDelay := some delay, elapsed,
    waited := mark.waited + delay.nanos }

/-- Where the round leads: the next mark, or what the run returns. -/
def turn (S : Setting R A O) (mark : Mark) (round : Round R A O) : Turn Mark (Output R A O) :=
  let state := mark.state (round.after mark)
  let stats (reason : StopReason) : RetryStats :=
    ⟨state.attempt, state.elapsed, .ofNanos mark.waited, reason⟩
  match round.fate with
  | .returned value => .done (.ok value, stats .returned)
  | .aborted last => .done (.error (.aborted last), stats .aborted)
  | .exhausted last _ => .done (.error (.exhausted last), stats .exhausted)
  | .retried _ rawDelay => .again (round.nextMark S mark rawDelay)

/-- A round that leads on was retried. -/
theorem eq_retried_of_turn {S : Setting R A O} {mark mark' : Mark} {round : Round R A O}
    (hturn : round.turn S mark = .again mark') :
    ∃ last rawDelay, round.fate = .retried last rawDelay ∧
      mark' = round.nextMark S mark rawDelay := by
  obtain ⟨before, outcome, after, fate⟩ := round
  cases fate with
  | returned value | aborted last | exhausted last answer => cases hturn
  | retried last rawDelay => exact ⟨last, rawDelay, rfl, (Turn.again.inj hturn).symm⟩

/-- The next round has the next number, and comes after a gap. -/
theorem next_of_turn {S : Setting R A O} {mark mark' : Mark} {round : Round R A O}
    (hturn : round.turn S mark = .again mark') :
    mark'.round = mark.round + 1 ∧ ∃ delay, mark'.previousDelay = some delay := by
  obtain ⟨last, rawDelay, -, rfl⟩ := eq_retried_of_turn hturn
  exact ⟨rfl, _, rfl⟩

end Round

/-! ## §4 Logs -/

/-- `Rounds S mark log turn`: from `mark` on, `log` is a sequence of rounds that
leads to `turn` — a later mark, or the end of the run. -/
inductive Rounds (S : Setting R A O) :
    Mark → List (Event R A O) → Turn Mark (Output R A O) → Prop where
  /-- The run is observed up to here. -/
  | pause (mark : Mark) : Rounds S mark [] (.again mark)
  /-- The last round of the run. -/
  | last (mark : Mark) (round : Round R A O) (output : Output R A O)
      (hallowed : round.Allowed S mark) (hturn : round.turn S mark = .done output) :
      Rounds S mark (round.calls S mark) (.done output)
  /-- A round that is retried, and what follows it. -/
  | next (mark mark' : Mark) (round : Round R A O) (rest : List (Event R A O))
      (turn : Turn Mark (Output R A O))
      (hallowed : round.Allowed S mark) (hturn : round.turn S mark = .again mark')
      (hrest : Rounds S mark' rest turn) :
      Rounds S mark (round.calls S mark ++ rest) turn

@[simp] theorem Fate.calls_calls (S : Setting R A O) (state : RetryState) (outcome : O)
    (fate : Fate R A O) :
    Relentless.calls (fate.calls S state outcome) = fate.calls S state outcome := by
  cases fate <;> simp [Fate.calls]

@[simp] theorem Round.calls_openingCalls (S : Setting R A O) (mark : Mark) (reading : Duration) :
    Relentless.calls (Round.openingCalls S mark reading) = Round.openingCalls S mark reading := by
  simp [Round.openingCalls]

@[simp] theorem Round.calls_closingCalls (S : Setting R A O) (mark : Mark) (elapsed : Elapsed)
    (outcome : O) (reading : Duration) :
    Relentless.calls (Round.closingCalls S mark elapsed outcome reading) =
      Round.closingCalls S mark elapsed outcome reading := by
  simp [Round.closingCalls]

/-- One round on its own. -/
theorem Rounds.single {S : Setting R A O} {mark : Mark} (round : Round R A O)
    (hallowed : round.Allowed S mark) :
    Rounds S mark (round.calls S mark) (round.turn S mark) := by
  match hturn : round.turn S mark with
  | .done output => exact .last mark round output hallowed hturn
  | .again mark' =>
    have h := Rounds.next mark mark' round [] _ hallowed hturn (.pause mark')
    rwa [List.append_nil] at h

/-- Rounds after rounds are rounds. -/
theorem Rounds.trans {S : Setting R A O} {mark mark' : Mark} {log log' : List (Event R A O)}
    {turn turn' : Turn Mark (Output R A O)} (h : Rounds S mark log turn)
    (hturn : turn = .again mark') (h' : Rounds S mark' log' turn') :
    Rounds S mark (log ++ log') turn' := by
  induction h with
  | pause mark =>
    obtain rfl := Turn.again.inj hturn
    exact h'
  | last => cases hturn
  | next mark mark₁ round rest turn hallowed hround _ ih =>
    rw [List.append_assoc]
    exact .next mark mark₁ round _ _ hallowed hround (ih hturn)

/-- A finished sequence of rounds has a last round. -/
theorem Rounds.done_split {S : Setting R A O} {mark : Mark} {log : List (Event R A O)}
    {turn : Turn Mark (Output R A O)} {output : Output R A O} (h : Rounds S mark log turn)
    (hturn : turn = .done output) :
    ∃ (before : List (Event R A O)) (mark' : Mark) (round : Round R A O),
      Rounds S mark before (.again mark') ∧ log = before ++ round.calls S mark' ∧
      round.Allowed S mark' ∧ round.turn S mark' = .done output := by
  induction h with
  | pause mark => cases hturn
  | last mark round output' hallowed hround =>
    cases hturn
    exact ⟨[], mark, round, .pause mark, rfl, hallowed, hround⟩
  | next mark mark₁ round rest turn hallowed hround _ ih =>
    obtain ⟨before, mark', last, hbefore, rfl, hallowed', hlast⟩ := ih hturn
    refine ⟨round.calls S mark ++ before, mark', last, ?_, ?_, hallowed', hlast⟩
    · exact .next mark mark₁ round before _ hallowed hround hbefore
    · rw [List.append_assoc]

/-! ## §5 The decision step writes the second half of a round -/

variable {σ : Type}

/-- One decision step in the world `w`, read as a fate: the fate is allowed, the
step answers as it says, and the traced step appends its calls to any log. -/
structure StepsTo (S : Setting R A O) (classifier : Decide (Eff σ) R A O) (stop : Stop (Eff σ))
    (wait : Wait (Eff σ)) (hooks : ExecutionHooks (Eff σ) R A O) (state : RetryState)
    (totalWait : Duration) (outcome : O) (w : σ) (fate : Fate R A O) (w' : σ) : Prop where
  allowed : fate.Allowed S state outcome
  answer : step ⟨state.attempt, state.elapsed, state.previousDelay, totalWait⟩ outcome
    classifier stop wait S.timeout hooks w = (fate.step S state totalWait, w')
  traced : ∀ log, step ⟨state.attempt, state.elapsed, state.previousDelay, totalWait⟩ outcome
    (classifier.recorded .traced) (stop.recorded .traced) (wait.recorded .traced) S.timeout
    (hooks.recorded .traced) ⟨w, log⟩ =
      (fate.step S state totalWait,
        ⟨w', log ++ hookEvents S.afterHooks .afterAttempt
            ⟨state.attempt, state.elapsed, outcome⟩ ++ fate.calls S state outcome⟩)

/-- What a timeout makes of the fate that the answers lead to: once it is exceeded, a
retry becomes exhaustion. -/
def Fate.cutBy (timeout : Option Duration) (elapsed : Duration) : Fate R A O → Fate R A O
  | .retried last rawDelay =>
    if timeoutExceeded timeout elapsed then .exhausted last false else .retried last rawDelay
  | fate => fate

/-- The round with the fate that a timeout leaves it. -/
def Round.cutBy (timeout : Option Duration) (mark : Mark) (round : Round R A O) : Round R A O :=
  { round with fate := round.fate.cutBy timeout (round.after mark).highest }

/-- **Every decision step can be read as a fate**, and whatever the timeout is: it decides
only whether a retry is cut short. -/
theorem step_uniform (S : Setting R A O) (classifier : Decide (Eff σ) R A O)
    (stop : Stop (Eff σ)) (wait : Wait (Eff σ)) (hooks : ExecutionHooks (Eff σ) R A O)
    (hS : S.answers = .of classifier stop wait)
    (hafter : S.afterHooks = hooks.afterAttempt.count) (hexit : S.exitHooks = hooks.onExit.count)
    (state : RetryState) (totalWait : Duration) (outcome : O) (w : σ) :
    ∃ (fate : Fate R A O) (world : Fate R A O → σ), ∀ timeout,
      StepsTo { S with timeout } classifier stop wait hooks state totalWait outcome w
        (fate.cutBy timeout state.elapsed) (world (fate.cutBy timeout state.elapsed)) := by
  suffices h : ∃ (fate : Fate R A O) (world : Fate R A O → σ), ∀ timeout,
      let S' : Setting R A O := { S with timeout }
      let fate' := fate.cutBy timeout state.elapsed
      fate'.Allowed S' state outcome ∧
      step ⟨state.attempt, state.elapsed, state.previousDelay, totalWait⟩ outcome
          classifier stop wait timeout hooks w = (fate'.step S' state totalWait, world fate') ∧
      ∀ log, step ⟨state.attempt, state.elapsed, state.previousDelay, totalWait⟩ outcome
          (classifier.recorded .traced) (stop.recorded .traced) (wait.recorded .traced) timeout
          (hooks.recorded .traced) ⟨w, log⟩ =
        (fate'.step S' state totalWait,
          ⟨world fate', log ++ hookEvents S.afterHooks .afterAttempt
              ⟨state.attempt, state.elapsed, outcome⟩ ++ fate'.calls S' state outcome⟩) by
    obtain ⟨fate, world, h⟩ := h
    refine ⟨fate, world, fun timeout => ?_⟩
    obtain ⟨hallowed, hanswer, htraced⟩ := h timeout
    exact ⟨hallowed, hanswer, htraced⟩
  have hstate : (({ attempt := state.attempt, elapsed := .zero, previousDelay := none } :
      RetryState).withElapsed state.elapsed).withPreviousDelay state.previousDelay = state := rfl
  simp only [step, Eff.bind_apply, AttemptState.new_release, ExecutionHooks.recorded,
    HookSlot.recorded_call, RetryState.forAttempt_release, hstate, Decide.recorded, traced_logged,
    logged_apply]
  generalize (hooks.afterAttempt.call ⟨state.attempt, state.elapsed, outcome⟩ w).2 = w₁
  have hdecide : S.answers.decide outcome (classifier.decide outcome w₁).1 := by
    rw [hS]; exact ⟨w₁, rfl⟩
  match hverdict : (classifier.decide outcome w₁).1 with
  | .return_ value =>
    rw [hverdict] at hdecide
    let wf := (hooks.onExit.call (.returned state.attempt state.elapsed value)
      (classifier.decide outcome w₁).2).2
    refine ⟨.returned value, fun _ => wf, fun timeout => ⟨⟨hdecide, trivial⟩, ?_, fun log => ?_⟩⟩
    · simp [Fate.step, Fate.cutBy, wf]
    · simp [Fate.step, Fate.cutBy, Fate.calls, hexit, hafter, wf]
  | .abort last =>
    rw [hverdict] at hdecide
    let wf := (hooks.onExit.call (.aborted state.attempt state.elapsed last)
      (classifier.decide outcome w₁).2).2
    refine ⟨.aborted last, fun _ => wf, fun timeout => ⟨⟨hdecide, trivial⟩, ?_, fun log => ?_⟩⟩
    · simp [Fate.step, Fate.cutBy, wf]
    · simp [Fate.step, Fate.cutBy, Fate.calls, hexit, hafter, wf]
  | .retry last =>
    rw [hverdict] at hdecide
    simp only [Eff.bind_apply, Stop.recorded, traced_logged, logged_apply]
    generalize (classifier.decide outcome w₁).2 = w₂
    have hstop : S.answers.shouldStop state (stop.shouldStop state w₂).1 := by
      rw [hS]; exact ⟨w₂, rfl⟩
    let wE := (hooks.onExit.call (.exhausted state.attempt state.elapsed last)
      (stop.shouldStop state w₂).2).2
    -- The stop strategy is asked whether or not the timeout has fired.
    obtain hanswer | hanswer := Bool.eq_false_or_eq_true (stop.shouldStop state w₂).1
    · rw [hanswer] at hstop
      refine ⟨.exhausted last true, fun _ => wE, fun timeout =>
        ⟨⟨hdecide, hstop, rfl⟩, ?_, fun log => ?_⟩⟩
      · simp [Fate.step, Fate.cutBy, hanswer, wE]
      · simp [Fate.step, Fate.cutBy, Fate.calls, hexit, hafter, hanswer, wE]
    · rw [hanswer] at hstop
      let answer := wait.nextWait state (stop.shouldStop state w₂).2
      have hwait : S.answers.nextWait state answer.1 := by
        rw [hS]; exact ⟨_, rfl⟩
      let world : Fate R A O → σ
        | .retried _ _ => answer.2
        | _ => wE
      refine ⟨.retried last answer.1, world, fun timeout => ?_⟩
      obtain hcut | hcut := Bool.eq_false_or_eq_true (timeoutExceeded timeout state.elapsed)
      · have hfate : (Fate.retried last answer.1 : Fate R A O).cutBy timeout state.elapsed =
            .exhausted last false := by
          rw [Fate.cutBy, hcut, if_pos rfl]
        rw [hfate]
        refine ⟨⟨hdecide, hstop, hcut⟩, ?_, fun log => ?_⟩
        · simp [Fate.step, hanswer, hcut, world, wE]
        · simp [Fate.step, Fate.calls, hexit, hafter, hanswer, hcut, world, wE]
      · have hfate : (Fate.retried last answer.1 : Fate R A O).cutBy timeout state.elapsed =
            .retried last answer.1 := by
          rw [Fate.cutBy, hcut]
          rfl
        rw [hfate]
        refine ⟨⟨hdecide, hstop, hcut, hwait⟩, ?_, fun log => ?_⟩
        · simp [Fate.step, hanswer, hcut, world, answer]
        · simp [Fate.step, Fate.calls, hafter, Wait.recorded, hanswer, hcut, world, answer]

/-- The decision step under the timeout of the setting. -/
theorem step_spec (S : Setting R A O) (classifier : Decide (Eff σ) R A O)
    (stop : Stop (Eff σ)) (wait : Wait (Eff σ)) (hooks : ExecutionHooks (Eff σ) R A O)
    (hS : S.answers = .of classifier stop wait)
    (hafter : S.afterHooks = hooks.afterAttempt.count) (hexit : S.exitHooks = hooks.onExit.count)
    (state : RetryState) (totalWait : Duration) (outcome : O) (w : σ) :
    ∃ (fate : Fate R A O) (w' : σ),
      StepsTo S classifier stop wait hooks state totalWait outcome w fate w' := by
  obtain ⟨fate, world, h⟩ := step_uniform S classifier stop wait hooks hS hafter hexit state
    totalWait outcome w
  exact ⟨_, _, h S.timeout⟩

end Relentless
