import Relentless.Trace.Readings

/-!
# The Sync Engine Writes Rounds

Every run of `Retry::run` logs one baseline reading followed by a sequence of
rounds in the sense of `Rounds`, whatever its parts are and whatever state they
keep.

- `Retry.loopBody_spec` — one execution of the loop body is one round
- `Retry.runFor_rounds` — a run is a sequence of rounds
- `Retry.length_opStates_of_again` — a run that is still going has made a call in every round
-/

namespace Relentless

open StateLoop

variable {σ R A O : Type}

namespace Retry

/-! ## §1 One round -/

/-- The first part of a round, and what its traced twin logs. -/
theorem invoke_spec (self : Retry (Eff σ) R A O) (mark : Mark) (w : σ) :
    let reading := (self.clock.now w).1
    let state := mark.state (mark.before reading)
    let w₁ := (self.hooks.beforeAttempt.call state (self.clock.now w).2).2
    self.invoke mark.cursor w =
        (((self.op state w₁).1, mark.before reading), (self.op state w₁).2) ∧
      ∀ log, self.traced.invoke mark.cursor ⟨w, log⟩ =
        (((self.op state w₁).1, mark.before reading),
          ⟨(self.op state w₁).2, log ++ Round.openingCalls self.setting mark reading ++
            [.outcome (self.op state w₁).1]⟩) := by
  refine ⟨rfl, fun log => ?_⟩
  simp [invoke, traced, recorded, SyncClock.recorded, Clock.recorded, ExecutionHooks.recorded,
    Round.openingCalls, setting, Mark.state, Mark.before, Mark.cursor, RetryState.withElapsed,
    RetryState.withPreviousDelay]

/-- The clock wait of a gap, and what its traced twin logs. -/
theorem sleep_traced (self : Retry (Eff σ) R A O) (delay : Duration) (w : σ)
    (log : List (Event R A O)) :
    self.traced.sleep delay ⟨w, log⟩ = ((), ⟨(self.sleep delay w).2, log ++ waitEvents delay⟩) := by
  unfold sleep waitEvents
  split
  · simp
  · simp [traced, recorded, SyncClock.recorded]

/-- What the sync engine does with the decision, and what its traced twin logs. -/
theorem proceed_spec (self : Retry (Eff σ) R A O) (mark : Mark) (round : Round R A O) (w : σ) :
    let state := mark.state (round.after mark)
    let next := round.fate.step self.setting state (.ofNanos mark.waited)
    ∃ w', self.proceed mark.cursor (round.after mark) next w =
        ((round.turn self.setting mark).mapNext Mark.cursor, w') ∧
      ∀ log, self.traced.proceed mark.cursor (round.after mark) next ⟨w, log⟩ =
        ((round.turn self.setting mark).mapNext Mark.cursor,
          ⟨w', log ++ round.fate.waitCalls self.setting state.elapsed⟩) := by
  intro state next
  obtain ⟨before, outcome, after, fate⟩ := round
  -- Only a retried round still does something: it sleeps.
  cases fate with
  | returned value =>
    exact ⟨w, rfl, by simp [next, Fate.step, Fate.waitCalls, proceed, Round.turn, state]⟩
  | aborted last =>
    exact ⟨w, rfl, by simp [next, Fate.step, Fate.waitCalls, proceed, Round.turn, state]⟩
  | exhausted last answer =>
    exact ⟨w, rfl, by simp [next, Fate.step, Fate.waitCalls, proceed, Round.turn, state]⟩
  | retried last rawDelay =>
    refine ⟨(self.sleep (clampDelay self.setting.timeout state.elapsed rawDelay) w).2,
      ?_, fun log => ?_⟩ <;>
      simp [next, Fate.step, Fate.waitCalls, proceed, Round.turn, Round.nextMark, Mark.cursor,
        state, Mark.state, u32SaturatingAdd_attemptNumber, Duration.ofNanos_saturatingAdd,
        sleep_traced]

/-- All that happens to the world after the decision is the sleep of the gap. -/
theorem proceed_world (self : Retry (Eff σ) R A O) (mark : Mark) (round : Round R A O)
    (w : σ) :
    (self.proceed mark.cursor (round.after mark) (round.fate.step self.setting
      (mark.state (round.after mark)) (.ofNanos mark.waited)) w).2 =
        match round.gap self.timeout mark with
        | some delay => (self.sleep delay w).2
        | none => w := by
  obtain ⟨before, outcome, after, fate⟩ := round
  cases fate <;> rfl

/-- One round that starts in the world `w`, taken apart: `w₀` after the first
reading, `w₁` after the operation, `w₂` after the second reading, and `w₃` after
the decision step. -/
structure Unfolds (retry : Retry (Eff σ) R A O) (mark : Mark) (w : σ) (round : Round R A O)
    (w₀ w₁ w₂ w₃ : σ) : Prop where
  before : retry.clock.now w = (round.beforeReading, w₀)
  op : retry.op (mark.state (mark.before round.beforeReading))
    (retry.hooks.beforeAttempt.call (mark.state (mark.before round.beforeReading)) w₀).2 =
      (round.outcome, w₁)
  after : retry.clock.now w₁ = (round.afterReading, w₂)
  step : StepsTo retry.setting retry.classifier retry.stop retry.wait retry.hooks
    (mark.state (round.after mark)) (.ofNanos mark.waited) round.outcome w₂ round.fate w₃

/-- The configuration with another timeout, or with none. -/
def timedBy (self : Retry (Eff σ) R A O) (timeout : Option Duration) : Retry (Eff σ) R A O :=
  { self with timeout }

/-- A round can be taken apart, up to its fate alike for every timeout. -/
theorem exists_unfolds_uniform (self : Retry (Eff σ) R A O) (mark : Mark) (w : σ) :
    ∃ (round : Round R A O) (w₀ w₁ w₂ : σ) (world : Fate R A O → σ), ∀ timeout,
      (self.timedBy timeout).Unfolds mark w (round.cutBy timeout mark) w₀ w₁ w₂
        (world (round.cutBy timeout mark).fate) := by
  -- In the order in which the loop body makes the calls.
  match hbefore : self.clock.now w with
  | (before, w₀) =>
  match hop : self.op (mark.state (mark.before before))
      (self.hooks.beforeAttempt.call (mark.state (mark.before before)) w₀).2 with
  | (outcome, w₁) =>
  match hafter : self.clock.now w₁ with
  | (after, w₂) =>
  obtain ⟨fate, world, hstep⟩ := step_uniform self.setting self.classifier self.stop
    self.wait self.hooks rfl rfl rfl (mark.state ((mark.before before).observe after))
    (.ofNanos mark.waited) outcome w₂
  refine ⟨⟨before, outcome, after, fate⟩, w₀, w₁, w₂, world, fun timeout => ?_⟩
  exact ⟨hbefore, hop, hafter, hstep timeout⟩

theorem exists_unfolds (self : Retry (Eff σ) R A O) (mark : Mark) (w : σ) :
    ∃ round w₀ w₁ w₂ w₃, self.Unfolds mark w round w₀ w₁ w₂ w₃ := by
  obtain ⟨round, w₀, w₁, w₂, world, h⟩ := self.exists_unfolds_uniform mark w
  exact ⟨_, w₀, w₁, w₂, _, h self.timeout⟩

/-- A round taken apart determines the loop body, in the run itself and in the log
of its traced twin. -/
theorem Unfolds.loopBody {self : Retry (Eff σ) R A O} {mark : Mark} {round : Round R A O}
    {w w₀ w₁ w₂ w₃ : σ} (h : self.Unfolds mark w round w₀ w₁ w₂ w₃) :
    ∃ w', self.loopBody mark.cursor w =
        ((round.turn self.setting mark).mapNext Mark.cursor, w') ∧
      self.proceed mark.cursor (round.after mark) (round.fate.step self.setting
        (mark.state (round.after mark)) (.ofNanos mark.waited)) w₃ =
          ((round.turn self.setting mark).mapNext Mark.cursor, w') ∧
      ∀ log, self.traced.loopBody mark.cursor ⟨w, log⟩ =
        ((round.turn self.setting mark).mapNext Mark.cursor,
          ⟨w', log ++ round.calls self.setting mark⟩) := by
  obtain ⟨hinvoke, hinvoke'⟩ := self.invoke_spec mark w
  simp only [h.before, h.op] at hinvoke hinvoke'
  obtain ⟨w₄, hproceed, hproceed'⟩ := self.proceed_spec mark round w₃
  refine ⟨w₄, ?_, hproceed, fun log => ?_⟩
  · -- The bare run: the answers found in `h` are those it gets, one after the other.
    rw [← hproceed]
    simp only [Retry.loopBody, Eff.bind_apply, hinvoke, Elapsed.read_release, h.after]
    exact congrArg (fun r => self.proceed _ _ r.1 r.2) h.step.answer
  · -- The log at each hand-over: after the operation, the second reading, the decision.
    let log₁ := log ++ Round.openingCalls self.setting mark round.beforeReading ++
      [.outcome round.outcome]
    let log₂ := log₁ ++ [.now round.afterReading]
    let log₃ := log₂ ++ hookEvents self.setting.afterHooks .afterAttempt
      ⟨attemptNumber mark.round, (round.after mark).highest, round.outcome⟩ ++
      round.fate.calls self.setting (mark.state (round.after mark)) round.outcome
    have hnow : self.traced.clock.now ⟨w₁, log₁⟩ = (round.afterReading, ⟨w₂, log₂⟩) := by
      simp [traced, recorded, SyncClock.recorded, Clock.recorded, h.after, log₂]
    have hcalls : log ++ round.calls self.setting mark =
        log₃ ++ round.fate.waitCalls self.setting (round.after mark).highest := by
      simp [Round.calls, Round.closingCalls, log₁, log₂, log₃, Mark.state]
    rw [hcalls]
    refine Eq.trans ?_ (hproceed' log₃)
    simp only [Retry.loopBody, Eff.bind_apply, hinvoke', Elapsed.read_release]
    rw [hnow]
    exact congrArg (fun r => self.traced.proceed _ _ r.1 r.2) (h.step.traced log₂)

/-- **One execution of the loop body is one allowed round**, in the run itself and
in the log of its traced twin. -/
theorem loopBody_spec (self : Retry (Eff σ) R A O) (mark : Mark) (w : σ) :
    ∃ (round : Round R A O) (w' : σ), round.Allowed self.setting mark ∧
      self.loopBody mark.cursor w = ((round.turn self.setting mark).mapNext Mark.cursor, w') ∧
      ∀ log, self.traced.loopBody mark.cursor ⟨w, log⟩ =
        ((round.turn self.setting mark).mapNext Mark.cursor,
          ⟨w', log ++ round.calls self.setting mark⟩) := by
  obtain ⟨round, w₀, w₁, w₂, w₃, h⟩ := self.exists_unfolds mark w
  obtain ⟨w', hbody, -, hbody'⟩ := h.loopBody
  exact ⟨round, w', h.step.allowed, hbody, hbody'⟩

/-! ## §2 Whole runs -/

/-- From a mark on, the loop stands where some sequence of rounds leads, and its
traced twin has logged that sequence. -/
theorem loop_rounds (self : Retry (Eff σ) R A O) (n : ℕ) (mark : Mark) (w : σ) :
    ∃ (rounds : List (Event R A O)) (turn : Turn Mark (Output R A O)) (w' : σ),
      Rounds self.setting mark rounds turn ∧
      StateLoop.runFor self.loopBody n mark.cursor w = (turn.mapNext Mark.cursor, w') ∧
      ∀ log, StateLoop.runFor self.traced.loopBody n mark.cursor ⟨w, log⟩ =
        (turn.mapNext Mark.cursor, ⟨w', log ++ rounds⟩) := by
  induction n generalizing mark w with
  | zero => exact ⟨[], .again mark, w, .pause mark, rfl, by simp⟩
  | succ n ih =>
    -- The first turn is one round; the induction hypothesis gives the others.
    obtain ⟨round, w₁, hallowed, hbody, hbody'⟩ := self.loopBody_spec mark w
    match hturn : round.turn self.setting mark with
    | .done output =>
      rw [hturn] at hbody hbody'
      refine ⟨_, .done output, w₁, .last mark round output hallowed hturn, ?_, fun log => ?_⟩
      · exact runFor_succ_done hbody n
      · exact runFor_succ_done (hbody' log) n
    | .again mark' =>
      rw [hturn] at hbody hbody'
      obtain ⟨rest, turn, w₂, hrest, hrun, hrun'⟩ := ih mark' w₁
      refine ⟨round.calls self.setting mark ++ rest, turn, w₂,
        .next mark mark' round rest turn hallowed hturn hrest, ?_, fun log => ?_⟩
      · exact (runFor_succ_again hbody n).trans hrun
      · rw [runFor_succ_again (hbody' log), hrun', List.append_assoc]

/-- **Every run of `Retry::run` logs one baseline reading and then rounds**, and
tracing does not change the run. -/
theorem runFor_rounds (self : Retry (Eff σ) R A O) (n : ℕ) (w : σ) :
    ∃ (baseline : Duration) (rounds : List (Event R A O)) (turn : Turn Mark (Output R A O))
      (w' : σ),
      Rounds self.setting (.start baseline) rounds turn ∧
      self.runFor n w = (turn.mapNext Mark.cursor, w') ∧
      self.traced.runFor n ⟨w, []⟩ =
        (turn.mapNext Mark.cursor, ⟨w', .now baseline :: rounds⟩) := by
  obtain ⟨rounds, turn, w', hrounds, hrun, hrun'⟩ := self.loop_rounds n
    (.start (self.clock.now w).1) (self.clock.now w).2
  exact ⟨_, rounds, turn, w', hrounds, hrun, hrun' [.now (self.clock.now w).1]⟩

/-! ## §3 How many calls -/

/-- Every round calls the operation once. -/
theorem length_opStates_loopBody (self : Retry (Eff σ) R A O) (mark : Mark)
    (t : Traced σ R A O) :
    (opStates (self.traced.loopBody mark.cursor t).2.log).length = (opStates t.log).length + 1 := by
  obtain ⟨w, log⟩ := t
  obtain ⟨round, w', -, -, hbody⟩ := self.loopBody_spec mark w
  rw [hbody log, opStates_append, opStates_round, List.length_append, List.length_singleton]

/-- A run that is still going after `n` rounds has made `n` calls. -/
theorem length_opStates_of_again (self : Retry (Eff σ) R A O) {w₀ : σ} {n : ℕ} {cursor : Cursor}
    {t : Traced σ R A O} (h : self.traced.runFor n ⟨w₀, []⟩ = (.again cursor, t)) :
    (∃ mark : Mark, cursor = mark.cursor) ∧ (opStates t.log).length = n := by
  -- Counted along with where the loop stands, which is always some mark.
  refine runFor_invariant (I := fun n cursor (t : Traced σ R A O) =>
    (∃ mark : Mark, cursor = mark.cursor) ∧ (opStates t.log).length = n)
    ⟨⟨.start (self.clock.now w₀).1, rfl⟩, rfl⟩ ?_ h
  rintro k cursor t cursor' t' ⟨⟨mark, rfl⟩, hlength⟩ hbody
  obtain ⟨round, w', -, -, hround⟩ := self.loopBody_spec mark t.world
  have hcalls := self.length_opStates_loopBody mark t
  rw [hbody, hlength] at hcalls
  refine ⟨?_, hcalls⟩
  have hturn : (round.turn self.setting mark).mapNext Mark.cursor = .again cursor' :=
    congrArg Prod.fst ((hround t.log).symm.trans hbody)
  cases hnext : round.turn self.setting mark with
  | done output =>
    rw [hnext] at hturn
    cases hturn
  | again mark' =>
    rw [hnext] at hturn
    exact ⟨mark', (Turn.again.inj hturn).symm⟩

/-- After `n` rounds a run has made at most `n` calls. -/
theorem length_opStates_le (self : Retry (Eff σ) R A O) (w₀ : σ) (n : ℕ) :
    (opStates (self.traced.runFor n ⟨w₀, []⟩).2.log).length ≤ n := by
  rcases hrun : self.traced.runFor n ⟨w₀, []⟩ with ⟨cursor | output, t⟩
  · exact (self.length_opStates_of_again hrun).2.le
  · obtain ⟨k, hk, cursor, t', hbefore, hbody⟩ := runFor_done_split hrun
    obtain ⟨⟨mark, rfl⟩, hlength⟩ := self.length_opStates_of_again hbefore
    have hcalls := self.length_opStates_loopBody mark t'
    rw [hbody, hlength] at hcalls
    exact hcalls.le.trans hk

/-- A run with more rounds goes on from where one with fewer has stopped. -/
theorem prefix_runFor (self : Retry (Eff σ) R A O) (w₀ : σ) {m n : ℕ} (h : m ≤ n) :
    (self.traced.runFor m ⟨w₀, []⟩).2.log <+: (self.traced.runFor n ⟨w₀, []⟩).2.log := by
  induction n, h using Nat.le_induction with
  | base => exact List.prefix_refl _
  | succ n hle ih =>
    refine ih.trans ?_
    obtain ⟨turn, t, hrun⟩ : ∃ turn t, self.traced.runFor n ⟨w₀, []⟩ = (turn, t) := ⟨_, _, rfl⟩
    cases turn with
    | done output =>
      have hsame : self.traced.runFor (n + 1) ⟨w₀, []⟩ = (.done output, t) :=
        runFor_done_mono (Nat.le_succ n) hrun
      simp only [hrun, hsame, List.prefix_refl]
    | again cursor =>
      obtain ⟨⟨mark, rfl⟩, -⟩ := self.length_opStates_of_again hrun
      obtain ⟨round, w', -, -, hbody⟩ := self.loopBody_spec mark t.world
      have hnext : self.traced.runFor (n + 1) ⟨w₀, []⟩ =
          self.traced.loopBody mark.cursor t := runFor_snoc hrun
      rw [hrun, hnext, hbody t.log]
      exact List.prefix_append _ _

end Retry

end Relentless
