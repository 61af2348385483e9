import Relentless.Engine.AsyncTwin
import Relentless.Trace.AsyncConformance

/-!
# Result, Exit View and Statistics Agree

However a run ends, the value it returns, the view its `on_exit` hooks saw and
the statistics it reports describe the same thing, and describe the calls made.

- `Rounds.no_exit` — no `on_exit` hook fires while the run goes on
- `Story` — the agreement of the three views with one another and with the log
- `finished_run_story` — every finished run of either engine has its story
-/

namespace Relentless

open StateLoop

variable {σ Fut WaitFut R A O : Type}

/-! ## §1 The exit of a round -/

def Event.isExit : Event R A O → Bool
  | .onExit .. => true
  | _ => false

/-- What the caller receives, read off the view `on_exit` receives. -/
def Exit.result : Exit R A O → Except (RetryError A O) R
  | .returned _ _ value => .ok value
  | .aborted _ _ last => .error (.aborted last)
  | .exhausted _ _ last => .error (.exhausted last)

/-- The view of `on_exit` after a terminal attempt. -/
def Fate.exit? (state : RetryState) : Fate R A O → Option (Exit R A O)
  | .returned value => some (.returned state.attempt state.elapsed value)
  | .aborted last => some (.aborted state.attempt state.elapsed last)
  | .exhausted last _ => some (.exhausted state.attempt state.elapsed last)
  | .retried _ _ => none

theorem Round.not_isExit_opening (S : Setting R A O) (mark : Mark) (reading : Duration) :
    ∀ ev ∈ (openingCalls S mark reading : List (Event R A O)), ev.isExit = false := by
  intro ev hev
  rcases mem_openingCalls hev with rfl | ⟨hook, rfl⟩ | rfl <;> rfl

theorem Round.not_isExit_closing (S : Setting R A O) (mark : Mark) (elapsed : Elapsed)
    (outcome : O) (reading : Duration) :
    ∀ ev ∈ (closingCalls S mark elapsed outcome reading : List (Event R A O)),
      ev.isExit = false := by
  intro ev hev
  simp only [closingCalls, List.mem_cons] at hev
  rcases hev with rfl | rfl | hev
  · rfl
  · rfl
  · obtain ⟨hook, -, rfl⟩ := mem_hookEvents.mp hev
    rfl

/-- A retried round fires no `on_exit` hook. -/
theorem Round.not_isExit_of_again {S : Setting R A O} {mark mark' : Mark} {round : Round R A O}
    (hturn : round.turn S mark = .again mark') :
    ∀ ev ∈ round.calls S mark, ev.isExit = false := by
  obtain ⟨last, rawDelay, hfate, -⟩ := eq_retried_of_turn hturn
  intro ev hev
  simp only [calls, hfate, Fate.calls, Fate.waitCalls, waitEvents, List.mem_append] at hev
  rcases hev with ((hev | hev) | hev) | hev
  · exact not_isExit_opening S mark _ ev hev
  · exact not_isExit_closing S mark _ _ _ ev hev
  · simp only [List.mem_cons, List.not_mem_nil, or_false] at hev
    rcases hev with rfl | rfl | rfl <;> rfl
  · split at hev
    · cases hev
    · obtain rfl := List.mem_singleton.mp hev
      rfl

/-- No `on_exit` hook fires while the run goes on. -/
theorem Rounds.no_exit {S : Setting R A O} {mark : Mark} {log : List (Event R A O)}
    {turn : Turn Mark (Output R A O)} (h : Rounds S mark log turn) {mark' : Mark}
    (hturn : turn = .again mark') : ∀ ev ∈ log, ev.isExit = false := by
  induction h with
  | pause mark => simp
  | last => cases hturn
  | next mark mark₁ round rest turn hallowed hround hrest ih =>
    intro ev hev
    rcases List.mem_append.mp hev with hev | hev
    · exact Round.not_isExit_of_again hround ev hev
    · exact ih hturn ev hev

/-- A terminal round ends in one dispatch to the `on_exit` hooks. -/
theorem Round.exit_of_done {S : Setting R A O} {mark : Mark} {round : Round R A O}
    {output : Output R A O} (hturn : round.turn S mark = .done output) :
    ∃ (exit : Exit R A O) (verdict : List (Event R A O)),
      round.fate.exit? (mark.state (round.after mark)) = some exit ∧
      round.calls S mark = openingCalls S mark round.beforeReading ++
        closingCalls S mark (round.after mark) round.outcome round.afterReading ++
        verdict ++ hookEvents S.exitHooks .onExit exit ∧
      (∀ ev ∈ verdict, ev.isExit = false ∧ ev.reading? = none) := by
  obtain ⟨before, outcome, after, fate⟩ := round
  -- Each terminal branch fires the hooks last, with its own view.
  cases fate with
  | returned value =>
    refine ⟨_, [.decide outcome (.return_ value)], rfl, by simp [calls, Fate.calls, Fate.waitCalls],
      ?_⟩
    intro ev hev
    obtain rfl := List.mem_singleton.mp hev
    exact ⟨rfl, rfl⟩
  | aborted last =>
    refine ⟨_, [.decide outcome (.abort last)], rfl, by simp [calls, Fate.calls, Fate.waitCalls],
      ?_⟩
    intro ev hev
    obtain rfl := List.mem_singleton.mp hev
    exact ⟨rfl, rfl⟩
  | exhausted last answer =>
    refine ⟨_, [.decide outcome (.retry last),
      .shouldStop (mark.state _) answer], rfl, by simp [calls, Fate.calls, Fate.waitCalls]; rfl, ?_⟩
    intro ev hev
    simp only [List.mem_cons, List.not_mem_nil, or_false] at hev
    rcases hev with rfl | rfl <;> exact ⟨rfl, rfl⟩
  | retried last rawDelay => cases hturn

/-! ## §2 The story of a finished run -/

/-- The calls of a finished run, what it returned, and the view its `on_exit` hooks
saw agree. -/
structure Story (S : Setting R A O) (log : List (Event R A O)) (output : Output R A O)
    (exit : Exit R A O) : Prop where
  /-- Each hook fires once, and nothing is called afterwards. -/
  fires_once : ∃ before, log = before ++ hookEvents S.exitHooks .onExit exit ∧
    ∀ ev ∈ before, ev.isExit = false
  result : exit.result = output.1
  stop_reason : exit.stopReason = output.2.stopReason
  error_stop_reason : ∀ error, output.1 = .error error → error.stopReason = output.2.stopReason
  attempt : exit.attempt = output.2.attempts
  attempts : output.2.attempts.toNat = min (opStates log).length u32Max
  attempts_pos : 1 ≤ output.2.attempts
  elapsed : exit.elapsed = output.2.totalElapsed
  /-- The last reading is the one after the last operation. -/
  total_elapsed : ∃ before outcome reading after,
    log = before ++ [.outcome outcome, .now reading] ++ after ∧ readings after = [] ∧
      output.2.totalElapsed = spent (readings (before ++ [.outcome outcome, .now reading]))
  total_wait : output.2.totalWait =
    .ofNanos ((gapDelays S.timeout log).map Duration.nanos).sum

/-- A terminal round fills the three views with the same values. -/
theorem Round.views_agree {S : Setting R A O} {mark : Mark} {round : Round R A O}
    {output : Output R A O} {exit : Exit R A O} (hturn : round.turn S mark = .done output)
    (hexit : round.fate.exit? (mark.state (round.after mark)) = some exit) :
    exit.result = output.1 ∧ exit.stopReason = output.2.stopReason ∧
      (∀ error, output.1 = .error error → error.stopReason = output.2.stopReason) ∧
      exit.attempt = output.2.attempts ∧ exit.elapsed = output.2.totalElapsed := by
  obtain ⟨before, outcome, after, fate⟩ := round
  -- Each terminal branch fills the exit view and the statistics from the same state.
  cases fate with
  | returned value =>
    obtain rfl := Turn.done.inj hturn
    obtain rfl := Option.some.inj hexit
    exact ⟨rfl, rfl, fun error herror => (by cases herror), rfl, rfl⟩
  | aborted last =>
    obtain rfl := Turn.done.inj hturn
    obtain rfl := Option.some.inj hexit
    exact ⟨rfl, rfl, fun error herror => (by cases herror; rfl), rfl, rfl⟩
  | exhausted last answer =>
    obtain rfl := Turn.done.inj hturn
    obtain rfl := Option.some.inj hexit
    exact ⟨rfl, rfl, fun error herror => (by cases herror; rfl), rfl, rfl⟩
  | retried last rawDelay => cases hturn

/-- How a finished log ends: the last outcome, the reading after it, calls that take
no reading, and one dispatch to the `on_exit` hooks. -/
theorem Rounds.ending {S : Setting R A O} {mark : Mark} {log : List (Event R A O)}
    {output : Output R A O} (h : Rounds S mark log (.done output)) :
    ∃ (opening middle : List (Event R A O)) (outcome : O) (reading : Duration)
      (exit : Exit R A O),
      log = opening ++ [.outcome outcome, .now reading] ++ middle ++
        hookEvents S.exitHooks .onExit exit ∧
      (∀ ev ∈ opening, ev.isExit = false) ∧
      (∀ ev ∈ middle, ev.isExit = false ∧ ev.reading? = none) ∧
      exit.result = output.1 ∧ exit.stopReason = output.2.stopReason ∧
      (∀ error, output.1 = .error error → error.stopReason = output.2.stopReason) ∧
      exit.attempt = output.2.attempts ∧ exit.elapsed = output.2.totalElapsed := by
  obtain ⟨before, mark, round, hbefore, rfl, hallowed, hturn⟩ := h.done_split rfl
  -- Only the last round fires an `on_exit` hook, and it does so at its end.
  obtain ⟨exit, verdict, hexit, hcalls, hverdict⟩ := Round.exit_of_done hturn
  let hooks : List (Event R A O) := hookEvents S.afterHooks .afterAttempt
    ⟨attemptNumber mark.round, (round.after mark).highest, round.outcome⟩
  refine ⟨before ++ Round.openingCalls S mark round.beforeReading, hooks ++ verdict,
    round.outcome, round.afterReading, exit, ?_, ?_, ?_, Round.views_agree hturn hexit⟩
  · simp [hcalls, Round.closingCalls, hooks]
  · intro ev hev
    rcases List.mem_append.mp hev with hev | hev
    · exact hbefore.no_exit rfl ev hev
    · exact Round.not_isExit_opening S mark _ ev hev
  · intro ev hev
    rcases List.mem_append.mp hev with hev | hev
    · obtain ⟨hook, -, rfl⟩ := mem_hookEvents.mp hev
      exact ⟨rfl, rfl⟩
    · exact hverdict ev hev

/-- **A finished log tells one story.** -/
theorem Rounds.story {S : Setting R A O} {baseline : Duration} {rounds : List (Event R A O)}
    {output : Output R A O} (h : Rounds S (.start baseline) rounds (.done output)) :
    ∃ exit, Story S (.now baseline :: rounds) output exit := by
  obtain ⟨opening, middle, outcome, reading, exit, hlog, hopening, hmiddle, hresult, hreason,
    herror, hattempt, helapsed⟩ := h.ending
  let before : List (Event R A O) := .now baseline :: opening
  let after := middle ++ hookEvents S.exitHooks .onExit exit
  have hlog' : .now baseline :: rounds =
      before ++ [.outcome outcome, .now reading] ++ after := by
    simp [hlog, before, after]
  have hstill : readings after = [] := by
    apply List.filterMap_eq_nil_iff.mpr
    intro ev hev
    rcases List.mem_append.mp hev with hev | hev
    · exact (hmiddle ev hev).2
    · obtain ⟨hook, -, rfl⟩ := mem_hookEvents.mp hev
      rfl
  -- Rounds are numbered from one, so the last number is how many there are.
  obtain ⟨hpos, hattempts⟩ := h.counts
  have hnumber : (Mark.start baseline).round + (opStates rounds).length - 1 =
      (opStates rounds).length := Nat.add_sub_cancel_left 1 _
  rw [hnumber] at hattempts
  refine ⟨exit, ?_⟩
  constructor
  case fires_once =>
    refine ⟨before ++ [.outcome outcome, .now reading] ++ middle, ?_, ?_⟩
    · rw [hlog', List.append_assoc _ middle]
    · intro ev hev
      simp only [List.mem_append, before, List.mem_cons, List.not_mem_nil, or_false] at hev
      rcases hev with ((rfl | hev) | rfl | rfl) | hev
      · rfl
      · exact hopening ev hev
      · rfl
      · rfl
      · exact (hmiddle ev hev).1
  case result => exact hresult
  case stop_reason => exact hreason
  case error_stop_reason => exact herror
  case attempt => exact hattempt
  case attempts =>
    rw [hattempts, attemptNumber_toNat]
    rfl
  case attempts_pos =>
    rw [hattempts]
    exact attemptNumber_ne_zero hpos
  case elapsed => exact helapsed
  case total_elapsed =>
    refine ⟨before, outcome, reading, after, hlog', hstill, ?_⟩
    have hreadings : readings (before ++ [.outcome outcome, .now reading]) =
        baseline :: readings rounds := by
      have hall : readings (.now baseline :: rounds) = baseline :: readings rounds := rfl
      rw [← hall, hlog', readings_append _ after, hstill, List.append_nil]
    rw [hreadings]
    exact h.tracks.2.trans (Elapsed.observeAll_start baseline (readings rounds))
  case total_wait => exact h.total_wait

/-- **Every finished run has its story**: a sync run after any number of rounds, and an
async run after any sequence of polls. -/
theorem finished_run_story :
    (∀ (self : Retry (Eff σ) R A O) (n : ℕ) (w : σ) (t : Traced σ R A O) (output : Output R A O),
      self.traced.runFor n ⟨w, []⟩ = (.done output, t) →
        ∃ exit, Story self.setting t.log output exit) ∧
    (∀ (self : AsyncRetry (Eff σ) Fut WaitFut R A O) (cxs : ℕ → Context) (w : σ) (j : ℕ)
      (t : Traced σ R A O) (run : AsyncRun Fut WaitFut) (output : Output R A O),
      self.traced.PolledTo cxs ⟨w, []⟩ j t run (.ready output) →
        ∃ exit, Story self.setting (calls t.log) output exit) := by
  constructor
  · intro self n w t output hrun
    -- The traced run and its rounds lead to one turn.
    obtain ⟨baseline, rounds, turn, w', hrounds, -, hrun'⟩ := self.runFor_rounds n w
    rw [hrun'] at hrun
    obtain ⟨hturn, rfl⟩ := Prod.mk.inj hrun
    cases turn with
    | again mark => cases hturn
    | done output' =>
      obtain rfl := Turn.done.inj hturn
      exact hrounds.story
  · intro self cxs w j t run output hpolled
    rcases self.polledTo_lands hpolled with ⟨-, -, -, hresult⟩ | ⟨rounds, hlog, hrounds⟩
    · cases hresult
    · rw [hlog]
      exact hrounds.story

/-- The story of a sync run of three rounds, and of its twin after six polls. -/
theorem finished_run_story_busyTwice :
    (∃ t exit, Story (Retry.busyTwice none).setting t
      (.ok 7, ⟨3, .ofNanos 14, .ofNanos 5, .returned⟩) exit) ∧
    ∃ t exit, Story (AsyncRetry.busyTwice none).setting t
      (.ok 7, ⟨3, .ofNanos 14, .ofNanos 5, .returned⟩) exit := by
  have hrun : ((Retry.busyTwice none).traced.runFor 3 ⟨0, []⟩).1 =
      .done (.ok 7, ⟨3, .ofNanos 14, .ofNanos 5, .returned⟩) := by decide +kernel
  have hpolls : ((AsyncRetry.busyTwice none).traced.polls (fun _ => ⟨0⟩) 9 ⟨0, []⟩ 6).map
      Prod.fst = some (.ready (.ok 7, ⟨3, .ofNanos 14, .ofNanos 5, .returned⟩)) := by
    decide +kernel
  obtain ⟨t, run, hpolled⟩ := AsyncRetry.exists_polledTo hpolls
  have hstory := @finished_run_story ℕ (ℕ × Eff ℕ (Except String ℕ)) (ℕ × Eff ℕ Unit) ℕ String
    (Except String ℕ)
  obtain ⟨t', hrun⟩ := Eff.exists_world hrun
  exact ⟨⟨_, hstory.1 _ 3 0 t' _ hrun⟩, _, hstory.2 _ _ _ _ t run _ hpolled⟩

end Relentless
