import Relentless.Guarantees.CallLog

/-!
# The Grammar of Call Logs Is Exact

Not only does every run of `Retry::run` write a log of the grammar: every log of the grammar is
written by some run, so that the grammar allows nothing that no configuration does.

- `Script` — what the parts of a run are to answer, call by call
- `Retry.scripted` — a configuration that answers what its world is a script of
- `Retry.unfolds_scripted` — a round of the script is played as it is written
- `Retry.scripted_rounds` — and so are all of them
- `Retry.call_log_exact` — the logs of runs, and those of the grammar
-/

namespace Relentless

open StateLoop

variable {R A O : Type}

/-! ## §1 Scripts -/

/-- The answers that the parts of a run are still to give, in their order. -/
structure Script (R A O : Type) where
  readings : List Duration
  outcomes : List O
  verdicts : List (Verdict R A O)
  stops : List Bool
  delays : List Duration

/-- The next answer of a list, and the rest of it. -/
def pop {α : Type} (fallback : α) : List α → α × List α
  | [] => (fallback, [])
  | a :: rest => (a, rest)

/-- The answers that the stop strategy gives in a round. -/
def Fate.stops : Fate R A O → List Bool
  | .returned _ | .aborted _ => []
  | .exhausted _ answer => [answer]
  | .retried _ _ => [false]

/-- The answers that the wait strategy gives in a round. -/
def Fate.delays : Fate R A O → List Duration
  | .returned _ | .aborted _ | .exhausted _ _ => []
  | .retried _ rawDelay => [rawDelay]

/-- The script that starts with a round. -/
def Script.play (round : Round R A O) (rest : Script R A O) : Script R A O where
  readings := round.beforeReading :: round.afterReading :: rest.readings
  outcomes := round.outcome :: rest.outcomes
  verdicts := round.fate.verdict :: rest.verdicts
  stops := round.fate.stops ++ rest.stops
  delays := round.fate.delays ++ rest.delays

section Answers

/-- The next reading of the clock. -/
def Script.reading : Eff (Script R A O) Duration := fun script =>
  ((pop .zero script.readings).1, { script with readings := (pop .zero script.readings).2 })

/-- The next outcome of the operation. -/
def Script.outcome [Inhabited O] : Eff (Script R A O) O := fun script =>
  ((pop default script.outcomes).1, { script with outcomes := (pop default script.outcomes).2 })

/-- The next verdict on an outcome. -/
def Script.verdict (outcome : O) : Eff (Script R A O) (Verdict R A O) := fun script =>
  ((pop (.retry outcome) script.verdicts).1,
    { script with verdicts := (pop (.retry outcome) script.verdicts).2 })

/-- The next answer of the stop strategy. -/
def Script.stop : Eff (Script R A O) Bool := fun script =>
  ((pop true script.stops).1, { script with stops := (pop true script.stops).2 })

/-- The next answer of the wait strategy. -/
def Script.delay : Eff (Script R A O) Duration := fun script =>
  ((pop .zero script.delays).1, { script with delays := (pop .zero script.delays).2 })

variable (readings : List Duration) (outcomes : List O) (verdicts : List (Verdict R A O))
  (stops : List Bool) (delays : List Duration)

@[simp] theorem Script.verdict_cons (outcome : O) (next : Verdict R A O) :
    Script.verdict outcome ⟨readings, outcomes, next :: verdicts, stops, delays⟩ =
      (next, ⟨readings, outcomes, verdicts, stops, delays⟩) := rfl

@[simp] theorem Script.stop_cons (next : Bool) :
    Script.stop ⟨readings, outcomes, verdicts, next :: stops, delays⟩ =
      (next, ⟨readings, outcomes, verdicts, stops, delays⟩) := rfl

@[simp] theorem Script.delay_cons (next : Duration) :
    Script.delay ⟨readings, outcomes, verdicts, stops, next :: delays⟩ =
      (next, ⟨readings, outcomes, verdicts, stops, delays⟩) := rfl

end Answers

/-- So many hooks that do nothing. -/
def HookSlot.idle {m : Type → Type} [Monad m] {α : Type} : ℕ → HookSlot m α
  | 0 => .unit
  | n + 1 => .chain (idle n) fun _ => pure ()

@[simp] theorem HookSlot.count_idle {m : Type → Type} [Monad m] {α : Type} (n : ℕ) :
    (idle n : HookSlot m α).count = n := by
  induction n with
  | zero => rfl
  | succ n ih => exact congrArg (· + 1) ih

@[simp] theorem HookSlot.call_idle {σ α : Type} (n : ℕ) (view : α) (w : σ) :
    (idle n : HookSlot (Eff σ) α).call view w = ((), w) := by
  induction n with
  | zero => rfl
  | succ n ih => rw [idle, call, Eff.bind_apply, ih]; rfl

/-- The configuration whose parts answer what the script says, with the timeout and the hooks of
a setting. -/
def Retry.scripted [Inhabited O] (S : Setting R A O) : Retry (Eff (Script R A O)) R A O where
  op _ := Script.outcome
  classifier := ⟨Script.verdict⟩
  stop := ⟨fun _ => Script.stop⟩
  wait := ⟨fun _ => Script.delay⟩
  clock := { now := Script.reading, wait := fun _ => pure () }
  hooks :=
    { beforeAttempt := .idle S.beforeHooks
      afterAttempt := .idle S.afterHooks
      onExit := .idle S.exitHooks }
  timeout := S.timeout

namespace Retry

variable [Inhabited O] {S : Setting R A O} {mark : Mark}

/-- The setting of the configuration: only the answers may be others. -/
theorem setting_scripted (S : Setting R A O) :
    (scripted S).setting = { S with answers := (scripted S).setting.answers } := by
  simp [setting, scripted]

/-- The decision step comes to the fate that the script says. -/
theorem stepsTo_scripted {state : RetryState} {outcome : O} {fate : Fate R A O}
    (hallowed : fate.Allowed S state outcome) (totalWait : Duration) (rest : Script R A O) :
    StepsTo (scripted S).setting (scripted S).classifier (scripted S).stop (scripted S).wait
      (scripted S).hooks state totalWait outcome
      { rest with
        verdicts := fate.verdict :: rest.verdicts
        stops := fate.stops ++ rest.stops
        delays := fate.delays ++ rest.delays } fate rest := by
  have hstate : (({ attempt := state.attempt, elapsed := .zero, previousDelay := none } :
      RetryState).withElapsed state.elapsed).withPreviousDelay state.previousDelay = state := rfl
  have hverdict : (scripted S).setting.answers.decide outcome fate.verdict :=
    ⟨{ rest with verdicts := [fate.verdict] }, rfl⟩
  have hstop (answer : Bool) : (scripted S).setting.answers.shouldStop state answer :=
    ⟨{ rest with stops := [answer] }, rfl⟩
  have hwait (delay : Duration) : (scripted S).setting.answers.nextWait state delay :=
    ⟨{ rest with delays := [delay] }, rfl⟩
  obtain ⟨-, hfate⟩ := hallowed
  cases fate with
  | returned value =>
    refine ⟨⟨hverdict, trivial⟩, ?_, fun log => ?_⟩
    · simp [step, Fate.step, Fate.verdict, Fate.stops, Fate.delays, setting, scripted]
    · simp [step, Fate.step, Fate.calls, Fate.verdict, Fate.stops, Fate.delays, setting, scripted,
        ExecutionHooks.recorded, Decide.recorded]
  | aborted last =>
    refine ⟨⟨hverdict, trivial⟩, ?_, fun log => ?_⟩
    · simp [step, Fate.step, Fate.verdict, Fate.stops, Fate.delays, setting, scripted]
    · simp [step, Fate.step, Fate.calls, Fate.verdict, Fate.stops, Fate.delays, setting, scripted,
        ExecutionHooks.recorded, Decide.recorded]
  | exhausted last answer =>
    -- Either the script says stop, or the timeout has passed.
    have hfired : (answer || timeoutExceeded S.timeout state.elapsed) = true := hfate.2
    have heither := (Bool.or_eq_true _ _).mp hfired
    refine ⟨⟨hverdict, hstop answer, hfired⟩, ?_, fun log => ?_⟩
    · simp [step, Fate.step, Fate.verdict, Fate.stops, Fate.delays, setting, scripted, heither]
    · simp [step, Fate.step, Fate.calls, Fate.verdict, Fate.stops, Fate.delays, setting, scripted,
        ExecutionHooks.recorded, Decide.recorded, Stop.recorded, heither, hstate]
  | retried last rawDelay =>
    have hleft : timeoutExceeded S.timeout state.elapsed = false := hfate.2.1
    refine ⟨⟨hverdict, hstop false, hleft, hwait rawDelay⟩, ?_, fun log => ?_⟩
    · simp [step, Fate.step, Fate.verdict, Fate.stops, Fate.delays, setting, scripted, hleft]
    · simp [step, Fate.step, Fate.calls, Fate.verdict, Fate.stops, Fate.delays, setting, scripted,
        ExecutionHooks.recorded, Decide.recorded, Stop.recorded, Wait.recorded, hleft, hstate]

/-- **A round of the script** is played as it is written. -/
theorem unfolds_scripted (round : Round R A O) (hallowed : round.Allowed S mark)
    (rest : Script R A O) :
    ∃ w₀ w₁ w₂, (scripted S).Unfolds mark (rest.play round) round w₀ w₁ w₂ rest := by
  let w₀ : Script R A O := { rest.play round with readings := round.afterReading :: rest.readings }
  let w₁ : Script R A O := { w₀ with outcomes := rest.outcomes }
  let w₂ : Script R A O := { w₁ with readings := rest.readings }
  refine ⟨w₀, w₁, w₂, rfl, ?_, rfl, stepsTo_scripted hallowed _ rest⟩
  rw [scripted]
  dsimp only
  rw [HookSlot.call_idle]
  rfl

/-- It writes the log of the round, and leaves the rest of the script. -/
theorem loopBody_scripted (round : Round R A O) (hallowed : round.Allowed S mark)
    (rest : Script R A O) (log : List (Event R A O)) :
    (scripted S).traced.loopBody mark.cursor ⟨rest.play round, log⟩ =
      ((round.turn S mark).mapNext Mark.cursor, ⟨rest, log ++ round.calls S mark⟩) := by
  obtain ⟨w₀, w₁, w₂, hunfolds⟩ := unfolds_scripted round hallowed rest
  obtain ⟨w', -, hproceed, htraced⟩ := hunfolds.loopBody
  -- The last thing that a round does is to sleep, which takes nothing from the script.
  have hrest : w' = rest := by
    have hworld := (scripted S).proceed_world mark round rest
    rw [hproceed] at hworld
    have hsleep (delay : Duration) : ((scripted S).sleep delay rest).2 = rest := by
      unfold sleep
      split <;> rfl
    refine hworld.trans ?_
    cases round.gap (scripted S).timeout mark with
    | none => rfl
    | some delay => exact hsleep delay
  have hturn : round.turn (scripted S).setting mark = round.turn S mark := rfl
  have hcalls : round.calls (scripted S).setting mark = round.calls S mark := by
    rw [setting_scripted]
    rfl
  rw [htraced, hturn, hcalls, hrest]

/-- **Rounds that the grammar allows** are played from some script. -/
theorem scripted_rounds {log : List (Event R A O)} {turn : Turn Mark (Output R A O)}
    (h : Rounds S mark log turn) :
    ∃ (script rest : Script R A O) (n : ℕ), ∀ before,
      StateLoop.runFor (scripted S).traced.loopBody n mark.cursor ⟨script, before⟩ =
        (turn.mapNext Mark.cursor, ⟨rest, before ++ log⟩) := by
  induction h with
  | pause mark =>
    refine ⟨⟨[], [], [], [], []⟩, ⟨[], [], [], [], []⟩, 0, fun before => ?_⟩
    rw [List.append_nil]
    rfl
  | last mark round output hallowed hturn =>
    -- Nothing is left to answer after the round that returns.
    refine ⟨Script.play round ⟨[], [], [], [], []⟩, ⟨[], [], [], [], []⟩, 1, fun before => ?_⟩
    have hbody := loopBody_scripted round hallowed ⟨[], [], [], [], []⟩ before
    rw [hturn] at hbody
    exact runFor_succ_done hbody 0
  | next mark mark' round log turn hallowed hturn hrest ih =>
    obtain ⟨script, rest, n, hrun⟩ := ih
    refine ⟨script.play round, rest, n + 1, fun before => ?_⟩
    have hbody := loopBody_scripted round hallowed script before
    rw [hturn] at hbody
    rw [runFor_succ_again hbody, hrun, List.append_assoc]

end Retry

/-! ## §2 The guarantee -/

/-- **The grammar is exact.**  What some run of the sync engine with a given timeout and so many
hooks has logged after so many rounds, and where it stands then or what it has returned, are a
baseline reading and rounds of the grammar, with some answers of its parts; and conversely all
that the grammar allows is what some run does. -/
theorem Retry.call_log_exact [Inhabited O] (timeout : Option Duration)
    (beforeHooks afterHooks exitHooks : ℕ) (log : List (Event R A O))
    (turn : Turn Cursor (Output R A O)) :
    (∃ (σ : Type) (self : Retry (Eff σ) R A O) (w w' : σ) (n : ℕ), self.timeout = timeout ∧
      self.hooks.beforeAttempt.count = beforeHooks ∧ self.hooks.afterAttempt.count = afterHooks ∧
      self.hooks.onExit.count = exitHooks ∧
      self.traced.runFor n ⟨w, []⟩ = (turn, ⟨w', log⟩)) ↔
    ∃ (answers : Answers R A O) (baseline : Duration) (rounds : List (Event R A O))
      (reached : Turn Mark (Output R A O)),
      Rounds ⟨timeout, beforeHooks, afterHooks, exitHooks, answers⟩ (.start baseline) rounds
        reached ∧
      log = .now baseline :: rounds ∧ turn = reached.mapNext Mark.cursor := by
  constructor
  · rintro ⟨σ, self, w, w', n, rfl, rfl, rfl, rfl, hrun⟩
    obtain ⟨baseline, rounds, reached, w₁, hrounds, -, htraced⟩ := self.runFor_rounds n w
    rw [hrun] at htraced
    obtain ⟨hturn, hlog⟩ := Prod.mk.inj htraced
    exact ⟨self.setting.answers, baseline, rounds, reached, hrounds,
      congrArg Traced.log hlog, hturn⟩
  · rintro ⟨answers, baseline, rounds, reached, hrounds, rfl, rfl⟩
    obtain ⟨script, rest, n, hrun⟩ := Retry.scripted_rounds hrounds
    refine ⟨Script R A O, Retry.scripted ⟨timeout, beforeHooks, afterHooks, exitHooks, answers⟩,
      { script with readings := baseline :: script.readings }, rest, n, rfl,
      HookSlot.count_idle _, HookSlot.count_idle _, HookSlot.count_idle _, ?_⟩
    -- The baseline is the first reading of the script.
    exact hrun [.now baseline]

end Relentless
