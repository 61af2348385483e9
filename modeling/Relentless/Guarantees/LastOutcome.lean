import Relentless.Engine.AsyncTwin
import Relentless.Trace.AsyncConformance

/-!
# The Last Outcome Determines the Result

With a built-in classifier over a pure predicate, a run retries every outcome but the
last, and its result is read off the last outcome alone.

- `PurePredicate` — predicates whose answer depends on the outcome alone
- `Builtin` — the built-in classifiers over them, with their retry conditions
- `Settled` — how the outcomes of a finished run settle its result
- `result_of_last_outcome` — both engines settle so
-/

namespace Relentless

open StateLoop

variable {σ Fut WaitFut R A O T E : Type}

/-! ## §1 Pure predicates -/

/-- A predicate that depends on the outcome alone: a built-in one over pure matchers, or
any pure closure. -/
inductive PurePredicate (T E : Type) where
  | anyError
  | error (matcher : E → Bool)
  | result (matcher : Except E T → Bool)
  | ok (matcher : T → Bool)
  | closure (shouldRetry : Except E T → Bool)

namespace PurePredicate

/-- The predicate as the classifiers take it. -/
def predicate {m : Type → Type} [Monad m] : PurePredicate T E → Predicate m T E
  | .anyError => .anyError
  | .error matcher => .error fun e => return matcher e
  | .result matcher => .result fun outcome => return matcher outcome
  | .ok matcher => .ok fun value => return matcher value
  | .closure shouldRetry => { shouldRetry := fun outcome => return shouldRetry outcome }

/-- Whether the predicate holds of an outcome. -/
def holds : PurePredicate T E → Except E T → Bool
  | .anyError, .ok _ => false
  | .anyError, .error _ => true
  | .error _, .ok _ => false
  | .error matcher, .error e => matcher e
  | .result matcher, outcome => matcher outcome
  | .ok matcher, .ok value => matcher value
  | .ok _, .error _ => false
  | .closure shouldRetry, outcome => shouldRetry outcome

/-- `|o| !p(o)`. -/
def negate (p : PurePredicate T E) : PurePredicate T E :=
  .closure fun outcome => !p.holds outcome

/-- The three-way closure that spells `.until(p)` out. -/
def untilClosure {m : Type → Type} [Monad m] (p : PurePredicate T E) (outcome : Except E T) :
    m (Verdict T E (Except E T)) :=
  return match p.holds outcome, outcome with
    | false, outcome => .retry outcome
    | true, .ok value => .return_ value
    | true, .error e => .abort e

theorem predicate_apply (p : PurePredicate T E) (outcome : Except E T) (w : σ) :
    (p.predicate : Predicate (Eff σ) T E).shouldRetry outcome w = (p.holds outcome, w) := by
  cases p <;> cases outcome <;> rfl

end PurePredicate

/-! ## §2 Built-in classifiers -/

/-- The built-in classifiers on `Result`: the default, `.when(p)` and `.until(p)`. -/
inductive OnResult (T E : Type) where
  | default_
  | when_ (p : PurePredicate T E)
  | until_ (p : PurePredicate T E)

/-- The built-in classifiers, by the shape of the outcome. -/
inductive Builtin : Type → Type → Type → Type 1 where
  | onResult {T E : Type} (c : OnResult T E) : Builtin T E (Except E T)
  | onOption {T : Type} : Builtin T Empty (Option T)
  | onControlFlow {B C : Type} : Builtin B Empty (ControlFlow B C)

namespace OnResult

/-- The classifier that is installed. -/
def classifier {m : Type → Type} [Monad m] : OnResult T E → Decide m T E (Except E T)
  | .default_ => DefaultClassifier
  | .when_ p => When p.predicate
  | .until_ p => Until p.predicate

/-- The retry condition. -/
def retries : OnResult T E → Except E T → Bool
  | .default_, outcome => !outcome.isOk
  | .when_ p, outcome => p.holds outcome
  | .until_ p, outcome => !p.holds outcome

/-- What the classifier answers: retry, or take the outcome apart. -/
def verdict (c : OnResult T E) (outcome : Except E T) : Verdict T E (Except E T) :=
  match c.retries outcome, outcome with
  | true, outcome => .retry outcome
  | false, .ok value => .return_ value
  | false, .error e => .abort e

theorem decide_apply (c : OnResult T E) (outcome : Except E T) (w : σ) :
    (c.classifier : Decide (Eff σ) T E (Except E T)).decide outcome w =
      (c.verdict outcome, w) := by
  cases c with
  | default_ => cases outcome <;> rfl
  | when_ p =>
    simp only [classifier, When, verdict, retries, Eff.bind_apply, p.predicate_apply]
    cases p.holds outcome with
    | true => rfl
    | false => cases outcome <;> rfl
  | until_ p =>
    simp only [classifier, Until, verdict, retries, Eff.bind_apply, p.predicate_apply]
    cases p.holds outcome with
    | false => rfl
    | true => cases outcome <;> rfl

end OnResult

namespace Builtin

/-- The classifier that is installed. -/
def classifier {m : Type → Type} [Monad m] : {R A O : Type} → Builtin R A O → Decide m R A O
  | _, _, _, .onResult c => c.classifier
  | _, _, _, .onOption => DefaultClassifier
  | _, _, _, .onControlFlow => DefaultClassifier

/-- The retry condition. -/
def retries : {R A O : Type} → Builtin R A O → O → Bool
  | _, _, _, .onResult c, outcome => c.retries outcome
  | _, _, _, .onOption, outcome => outcome.isNone
  | _, _, _, .onControlFlow, .continue_ _ => true
  | _, _, _, .onControlFlow, .break_ _ => false

/-- The result that a last outcome stands for. -/
def resultOf : {R A O : Type} → Builtin R A O → O → Except (RetryError A O) R
  | _, _, _, .onResult c, last =>
    match c.retries last, last with
    | true, last => .error (.exhausted last)
    | false, .ok value => .ok value
    | false, .error e => .error (.aborted e)
  | _, _, _, .onOption, some value => .ok value
  | _, _, _, .onOption, none => .error (.exhausted none)
  | _, _, _, .onControlFlow, .break_ value => .ok value
  | _, _, _, .onControlFlow, .continue_ value => .error (.exhausted (.continue_ value))

/-- The default classifiers, and `.until(ok(f))`. -/
def isDefaultOrUntilOk : {R A O : Type} → Builtin R A O → Bool
  | _, _, _, .onResult .default_ => true
  | _, _, _, .onResult (.until_ (.ok _)) => true
  | _, _, _, .onResult _ => false
  | _, _, _, .onOption => true
  | _, _, _, .onControlFlow => true

/-- What a verdict on an outcome says of it. -/
def Explains (b : Builtin R A O) (outcome : O) : Verdict R A O → Prop
  | .retry last => b.retries outcome = true ∧ last = outcome
  | .return_ value => b.retries outcome = false ∧ b.resultOf outcome = .ok value
  | .abort last => b.retries outcome = false ∧ b.resultOf outcome = .error (.aborted last)

theorem explains_decide (b : Builtin R A O) (outcome : O) (w : σ) :
    b.Explains outcome ((b.classifier : Decide (Eff σ) R A O).decide outcome w).1 := by
  cases b with
  | onResult c =>
    simp only [classifier, c.decide_apply, OnResult.verdict, Explains, retries, resultOf]
    cases c.retries outcome with
    | true => exact ⟨rfl, rfl⟩
    | false => cases outcome <;> exact ⟨rfl, rfl⟩
  | onOption => cases outcome <;> exact ⟨rfl, rfl⟩
  | onControlFlow => cases outcome <;> exact ⟨rfl, rfl⟩

theorem resultOf_of_retries (b : Builtin R A O) {last : O} (h : b.retries last = true) :
    b.resultOf last = .error (.exhausted last) := by
  cases b with
  | onResult c =>
    have hretries : c.retries last = true := h
    simp only [resultOf, hretries]
  | onOption =>
    obtain rfl := Option.isNone_iff_eq_none.mp h
    rfl
  | onControlFlow =>
    cases last with
    | continue_ value => rfl
    | break_ value => cases h

/-- Exhaustion hands back the last outcome itself. -/
theorem eq_of_exhausted (b : Builtin R A O) {last o : O}
    (h : b.resultOf last = .error (.exhausted o)) : o = last := by
  cases b with
  | onResult c =>
    cases hretries : c.retries last with
    | true =>
      simp only [resultOf, hretries] at h
      cases h
      rfl
    | false =>
      simp only [resultOf, hretries] at h
      cases last <;> cases h
  | onOption =>
    cases last with
    | none =>
      cases h
      rfl
    | some value => cases h
  | onControlFlow =>
    cases last with
    | continue_ value =>
      cases h
      rfl
    | break_ value => cases h

/-- The default classifiers and `.until(ok(f))` retry every error. -/
theorem not_aborted (b : Builtin R A O) (hb : b.isDefaultOrUntilOk = true) (last : O) (a : A) :
    b.resultOf last ≠ .error (.aborted a) := by
  intro habort
  cases b with
  | onResult c =>
    -- What these classifiers do not retry is a value.
    have hretries : ∀ e, last = .error e → c.retries last = true := by
      rintro e rfl
      cases c with
      | default_ => rfl
      | when_ p => cases hb
      | until_ p =>
        cases p with
        | ok matcher => rfl
        | anyError | error matcher | result matcher | closure shouldRetry => cases hb
    cases last with
    | ok value => cases hv : c.retries (.ok value) <;> simp [resultOf, hv] at habort
    | error e => simp [resultOf, hretries e rfl] at habort
  | onOption | onControlFlow => cases a

end Builtin

/-! ## §3 Settled runs -/

/-- How the outcomes `earlier` and `last` of a finished run settle its result: all but
`last` were retried, and `last` alone determines the result.  If it was to be retried
too, the stop strategy or the timeout fired right after it. -/
structure Settled (b : Builtin R A O) (timeout : Option Duration) (log : List (Event R A O))
    (result : Except (RetryError A O) R) (earlier : List O) (last : O) : Prop where
  outcomes : outcomes log = earlier ++ [last]
  calls : (opStates log).length = earlier.length + 1
  retried : ∀ outcome ∈ earlier, b.retries outcome = true
  result : result = b.resultOf last
  stopped : b.retries last = true → ∃ before state answer after,
    log = before ++ .shouldStop state answer :: after ∧
      Relentless.outcomes before = earlier ++ [last] ∧
      (answer || timeoutExceeded timeout state.elapsed) = true

/-- Every verdict of the setting's classifier is one of the built-in classifier. -/
def Explained (b : Builtin R A O) (S : Setting R A O) : Prop :=
  ∀ outcome verdict, S.answers.decide outcome verdict → b.Explains outcome verdict

/-- A round that leads on was retried. -/
theorem Round.retries_of_again {b : Builtin R A O} {S : Setting R A O} (hS : Explained b S)
    {mark mark' : Mark} {round : Round R A O} (hallowed : round.Allowed S mark)
    (hturn : round.turn S mark = .again mark') : b.retries round.outcome = true := by
  obtain ⟨last, rawDelay, hfate, -⟩ := Round.eq_retried_of_turn hturn
  have hexplains := hS _ _ hallowed.1
  rw [hfate] at hexplains
  exact hexplains.1

/-- In an exhausted round the stop strategy is consulted right after the outcome. -/
theorem Round.stop_of_exhausted (S : Setting R A O) (mark : Mark) {round : Round R A O} {last : O}
    {answer : Bool} (hfate : round.fate = .exhausted last answer) :
    ∃ before after, round.calls S mark =
        before ++ .shouldStop (mark.state (round.after mark)) answer :: after ∧
      outcomes before = [round.outcome] := by
  let state := mark.state (round.after mark)
  let exits : List (Event R A O) :=
    hookEvents S.exitHooks .onExit (.exhausted state.attempt state.elapsed last)
  let consulted := Round.openingCalls S mark round.beforeReading ++
    Round.closingCalls S mark (round.after mark) round.outcome round.afterReading ++
    [.decide round.outcome (.retry last)]
  have hcalls : round.calls S mark = consulted ++ .shouldStop state answer :: exits := by
    simp [Round.calls, hfate, Fate.calls, Fate.waitCalls, consulted, exits, state]
  -- The round has one outcome, and nothing after the consultation is one.
  have houtcomes := outcomes_round S mark round
  have hexits : outcomes (.shouldStop state answer :: exits) = [] :=
    filterMap_hookEvents Event.outcome? _ _ _ fun _ => rfl
  rw [hcalls, outcomes_append, hexits, List.append_nil] at houtcomes
  exact ⟨consulted, exits, hcalls, houtcomes⟩

/-- A terminal round settles the run by its outcome. -/
theorem Round.settled {b : Builtin R A O} {S : Setting R A O} (hS : Explained b S)
    {mark : Mark} {round : Round R A O} {output : Output R A O}
    (hallowed : round.Allowed S mark) (hturn : round.turn S mark = .done output) :
    Settled b S.timeout (round.calls S mark) output.1 [] round.outcome := by
  obtain ⟨before, outcome, after, fate⟩ := round
  obtain ⟨hdecide, hfate⟩ := hallowed
  have hexplains := hS _ _ hdecide
  -- The verdict on the outcome, and with it the fate, is what the classifier makes of it.
  constructor
  case outcomes => exact outcomes_round S mark _
  case calls =>
    rw [opStates_round]
    rfl
  case retried => simp
  case result =>
    cases fate with
    | returned value | aborted last =>
      obtain rfl := Turn.done.inj hturn
      exact hexplains.2.symm
    | exhausted last answer =>
      obtain rfl := Turn.done.inj hturn
      obtain ⟨hretries, rfl⟩ := hexplains
      exact (b.resultOf_of_retries hretries).symm
    | retried last rawDelay => cases hturn
  case stopped =>
    intro hretries
    cases fate with
    | returned value | aborted last =>
      rw [hexplains.1] at hretries
      cases hretries
    | exhausted last answer =>
      let round : Round R A O := ⟨before, outcome, after, .exhausted last answer⟩
      obtain ⟨earlier, later, hcalls, houtcomes⟩ :=
        Round.stop_of_exhausted S mark (rfl : round.fate = .exhausted last answer)
      exact ⟨earlier, _, answer, later, hcalls, houtcomes, hfate.2⟩
    | retried last rawDelay => cases hturn

/-- A retried round before a settled run. -/
theorem Settled.cons {b : Builtin R A O} {S : Setting R A O} {mark : Mark}
    {round : Round R A O} {log : List (Event R A O)} {result : Except (RetryError A O) R}
    {earlier : List O} {last : O} (hretries : b.retries round.outcome = true)
    (h : Settled b S.timeout log result earlier last) :
    Settled b S.timeout (round.calls S mark ++ log) result (round.outcome :: earlier) last where
  outcomes := by
    rw [outcomes_append, outcomes_round, h.outcomes]
    rfl
  calls := by
    rw [opStates_append, opStates_round, List.length_append, h.calls]
    exact Nat.add_comm 1 _
  retried := List.forall_mem_cons.mpr ⟨hretries, h.retried⟩
  result := h.result
  stopped hlast := by
    obtain ⟨before, state, answer, after, rfl, hbefore, hfired⟩ := h.stopped hlast
    refine ⟨round.calls S mark ++ before, state, answer, after, ?_, ?_, hfired⟩
    · rw [List.append_assoc]
    · rw [outcomes_append, outcomes_round, hbefore]
      rfl

/-- The baseline reading before a settled run. -/
theorem Settled.baseline {b : Builtin R A O} {timeout : Option Duration}
    {log : List (Event R A O)} {result : Except (RetryError A O) R} {earlier : List O} {last : O}
    (reading : Duration) (h : Settled b timeout log result earlier last) :
    Settled b timeout (.now reading :: log) result earlier last where
  outcomes := h.outcomes
  calls := h.calls
  retried := h.retried
  result := h.result
  stopped hlast := by
    obtain ⟨before, state, answer, after, rfl, hbefore, hfired⟩ := h.stopped hlast
    exact ⟨.now reading :: before, state, answer, after, rfl, hbefore, hfired⟩

/-- Rounds that lead on were all retried; rounds that end are settled. -/
theorem Rounds.settled {b : Builtin R A O} {S : Setting R A O} (hS : Explained b S)
    {mark : Mark} {log : List (Event R A O)} {turn : Turn Mark (Output R A O)}
    (h : Rounds S mark log turn) :
    match turn with
    | .again _ => ∀ outcome ∈ outcomes log, b.retries outcome = true
    | .done output => ∃ earlier last, Settled b S.timeout log output.1 earlier last := by
  induction h with
  | pause mark => simp [outcomes]
  | last mark round output hallowed hturn =>
    exact ⟨[], round.outcome, Round.settled hS hallowed hturn⟩
  | next mark mark' round rest turn hallowed hturn hrest ih =>
    have hretries := Round.retries_of_again hS hallowed hturn
    cases turn with
    | again mark'' =>
      rw [outcomes_append, outcomes_round]
      exact List.forall_mem_cons.mpr ⟨hretries, ih⟩
    | done output =>
      obtain ⟨earlier, last, hsettled⟩ := ih
      exact ⟨round.outcome :: earlier, last, hsettled.cons hretries⟩

/-- `last()` retains the outcome of an exhausted run, and of no other. -/
theorem Settled.retained {b : Builtin R A O} {timeout : Option Duration}
    {log : List (Event R A O)} {earlier : List O} {last : O} {error : RetryError A O}
    (h : Settled b timeout log (.error error) earlier last) (o : O) :
    error.last = some o ↔ error = .exhausted o ∧ o = last := by
  constructor
  · intro hlast
    cases error with
    | aborted payload => cases hlast
    | exhausted o' =>
      obtain rfl := Option.some.inj hlast
      exact ⟨rfl, b.eq_of_exhausted h.result.symm⟩
  · rintro ⟨rfl, -⟩
    rfl

/-- `last_error()` is the error of a failed run's last outcome. -/
theorem Settled.lastError {c : OnResult T E} {timeout : Option Duration}
    {log : List (Event T E (Except E T))} {result : Except (RetryError E (Except E T)) T}
    {earlier : List (Except E T)} {last : Except E T}
    (h : Settled (.onResult c) timeout log result earlier last) (e : E) :
    (∃ error, result = .error error ∧ error.lastError = some e) ↔
      result.isOk = false ∧ last = .error e := by
  rw [h.result]
  cases hretries : c.retries last <;> cases last <;>
    simp [Builtin.resultOf, hretries, RetryError.lastError, Except.isOk, Except.toBool]

/-! ## §4 Both engines -/

/-- The configuration with another classifier. -/
def Retry.withClassifier (self : Retry (Eff σ) R A O) (classifier : Decide (Eff σ) R A O) :
    Retry (Eff σ) R A O :=
  { self with classifier }

/-- The configuration with another classifier. -/
def AsyncRetry.withClassifier (self : AsyncRetry (Eff σ) Fut WaitFut R A O)
    (classifier : Decide (Eff σ) R A O) : AsyncRetry (Eff σ) Fut WaitFut R A O :=
  { self with classifier }

theorem Retry.withClassifier_explained (self : Retry (Eff σ) R A O) (b : Builtin R A O) :
    Explained b (self.withClassifier b.classifier).setting := by
  rintro outcome verdict ⟨w, rfl⟩
  exact b.explains_decide outcome w

theorem AsyncRetry.withClassifier_explained (self : AsyncRetry (Eff σ) Fut WaitFut R A O)
    (b : Builtin R A O) : Explained b (self.withClassifier b.classifier).setting := by
  rintro outcome verdict ⟨w, rfl⟩
  exact b.explains_decide outcome w

/-- Where a live async run stands, all its outcomes were retried. -/
theorem Stands.retried {b : Builtin R A O} {S : Setting R A O} (hS : Explained b S)
    {baseline : Duration} {log : List (Event R A O)} {state : AsyncRetry.LoopState Fut WaitFut}
    (h : Stands S baseline log state) : ∀ outcome ∈ outcomes log, b.retries outcome = true := by
  cases h with
  | ready rounds mark hrounds => exact hrounds.settled hS
  | polling rounds mark reading future hrounds =>
    have hopening : outcomes (Round.openingCalls S mark reading) = [] :=
      Round.filterMap_openingCalls _ (fun _ => rfl) (fun _ _ => rfl) (fun _ => rfl) S mark reading
    show ∀ outcome ∈ outcomes (rounds ++ Round.openingCalls S mark reading), _
    rw [outcomes_append, hopening, List.append_nil]
    exact hrounds.settled hS
  | sleeping rounds mark k future hrounds hround hpos => exact hrounds.settled hS
  | yielding rounds mark k hrounds hround hpos => exact hrounds.settled hS

theorem Retry.settled (self : Retry (Eff σ) R A O) (b : Builtin R A O) {n : ℕ} {w : σ}
    {turn : Turn Cursor (Output R A O)} {t : Traced σ R A O}
    (hrun : (self.withClassifier b.classifier).traced.runFor n ⟨w, []⟩ = (turn, t)) :
    (∀ cursor, turn = .again cursor → ∀ outcome ∈ outcomes t.log, b.retries outcome = true) ∧
      ∀ output, turn = .done output →
        ∃ earlier last, Settled b self.timeout t.log output.1 earlier last := by
  obtain ⟨baseline, rounds, turn', w', hrounds, -, hrun'⟩ :=
    (self.withClassifier b.classifier).runFor_rounds n w
  obtain ⟨rfl, rfl⟩ := Prod.mk.inj (hrun'.symm.trans hrun)
  have hsettled := hrounds.settled (self.withClassifier_explained b)
  constructor
  · intro cursor hturn
    cases turn' with
    | again mark => exact hsettled
    | done output => cases hturn
  · intro output hturn
    cases turn' with
    | again mark => cases hturn
    | done output' =>
      cases hturn
      obtain ⟨earlier, last, hsettled⟩ := hsettled
      exact ⟨earlier, last, hsettled.baseline baseline⟩

theorem AsyncRetry.settled (self : AsyncRetry (Eff σ) Fut WaitFut R A O) (b : Builtin R A O)
    {cxs : ℕ → Context} {w : σ} {j : ℕ} {t : Traced σ R A O} {run : AsyncRun Fut WaitFut}
    {result : PollEnd (Output R A O)}
    (h : (self.withClassifier b.classifier).traced.PolledTo cxs ⟨w, []⟩ j t run result) :
    (result = .pending → ∀ outcome ∈ outcomes (calls t.log), b.retries outcome = true) ∧
      ∀ output, result = .ready output →
        ∃ earlier last, Settled b self.timeout (calls t.log) output.1 earlier last := by
  have hS := self.withClassifier_explained b
  refine (self.withClassifier b.classifier).polledTo_cases (P := fun log result =>
    (result = .pending → ∀ outcome ∈ outcomes log, b.retries outcome = true) ∧
      ∀ output, result = .ready output →
        ∃ earlier last, Settled b self.timeout log output.1 earlier last) ?_ ?_ ?_ h
  · exact ⟨by simp [outcomes], fun output hout => (by cases hout)⟩
  · intro baseline log state hstands
    exact ⟨fun _ => hstands.retried hS, fun output hout => (by cases hout)⟩
  · rintro baseline log output ⟨rounds, rfl, hrounds⟩
    refine ⟨fun hout => (by cases hout), ?_⟩
    intro output' hout
    cases hout
    obtain ⟨earlier, last, hsettled⟩ := hrounds.settled hS
    exact ⟨earlier, last, hsettled.baseline baseline⟩

/-- `.until(p)` is `.when(not p)`. -/
theorem until_eq_when (p : PurePredicate T E) :
    (Until p.predicate : Decide (Eff σ) T E (Except E T)) = When p.negate.predicate := by
  apply congrArg Decide.mk
  funext outcome w
  have huntil := (OnResult.until_ p).decide_apply outcome w
  have hwhen := (OnResult.when_ p.negate).decide_apply outcome w
  exact huntil.trans hwhen.symm

/-- `.until(p)` is the three-way closure that spells it out. -/
theorem until_eq_closure (p : PurePredicate T E) :
    (Until p.predicate : Decide (Eff σ) T E (Except E T)) = ClosureClassifier p.untilClosure := by
  apply congrArg Decide.mk
  funext outcome w
  refine ((OnResult.until_ p).decide_apply outcome w).trans ?_
  cases hholds : p.holds outcome <;> cases outcome <;>
    simp [OnResult.verdict, OnResult.retries, PurePredicate.untilClosure, hholds]

/-- **The result is determined by the last outcome.**  A run that goes on has retried
every outcome; a finished run is settled by its outcomes, with `last()` and
`last_error()` as its last outcome says, and without `Aborted` for the default and for
`.until(ok(f))`; and `.until(p)`, `.when(not p)` and the three-way closure run alike. -/
theorem result_of_last_outcome :
    (∀ (b : Builtin R A O) (self : Retry (Eff σ) R A O) (n : ℕ) (w : σ) (t : Traced σ R A O),
      (∀ cursor, (self.withClassifier b.classifier).traced.runFor n ⟨w, []⟩ = (.again cursor, t) →
        ∀ outcome ∈ outcomes t.log, b.retries outcome = true) ∧
      (∀ output, (self.withClassifier b.classifier).traced.runFor n ⟨w, []⟩ = (.done output, t) →
        ∃ earlier last, Settled b self.timeout t.log output.1 earlier last)) ∧
    (∀ (b : Builtin R A O) (self : AsyncRetry (Eff σ) Fut WaitFut R A O) (cxs : ℕ → Context)
      (w : σ) (j : ℕ) (t : Traced σ R A O) (run : AsyncRun Fut WaitFut),
      ((self.withClassifier b.classifier).traced.PolledTo cxs ⟨w, []⟩ j t run .pending →
        ∀ outcome ∈ outcomes (calls t.log), b.retries outcome = true) ∧
      (∀ output,
        (self.withClassifier b.classifier).traced.PolledTo cxs ⟨w, []⟩ j t run (.ready output) →
          ∃ earlier last, Settled b self.timeout (calls t.log) output.1 earlier last)) ∧
    (∀ (b : Builtin R A O) timeout log result earlier last,
      Settled b timeout log result earlier last →
        (∀ error o, result = .error error →
          (error.last = some o ↔ error = .exhausted o ∧ o = last)) ∧
        (b.isDefaultOrUntilOk = true → ∀ a, result ≠ .error (.aborted a))) ∧
    (∀ (c : OnResult T E) timeout log result earlier last,
      Settled (.onResult c) timeout log result earlier last →
        ∀ e, (∃ error, result = .error error ∧ error.lastError = some e) ↔
          result.isOk = false ∧ last = .error e) ∧
    (∀ (p : PurePredicate T E) (self : Retry (Eff σ) T E (Except E T)) (n : ℕ) (w : σ),
      (self.withClassifier (Until p.predicate)).traced.runFor n ⟨w, []⟩ =
          (self.withClassifier (When p.negate.predicate)).traced.runFor n ⟨w, []⟩ ∧
        (self.withClassifier (Until p.predicate)).traced.runFor n ⟨w, []⟩ =
          (self.withClassifier (ClosureClassifier p.untilClosure)).traced.runFor n ⟨w, []⟩) ∧
    (∀ (p : PurePredicate T E) (self : AsyncRetry (Eff σ) Fut WaitFut T E (Except E T)) cxs (w : σ)
      j t run result,
      ((self.withClassifier (Until p.predicate)).traced.PolledTo cxs ⟨w, []⟩ j t run result ↔
        (self.withClassifier (When p.negate.predicate)).traced.PolledTo cxs ⟨w, []⟩ j t run
          result) ∧
      ((self.withClassifier (Until p.predicate)).traced.PolledTo cxs ⟨w, []⟩ j t run result ↔
        (self.withClassifier (ClosureClassifier p.untilClosure)).traced.PolledTo cxs ⟨w, []⟩ j t
          run result)) := by
  refine ⟨?_, ?_, ?_, ?_, ?_, ?_⟩
  · intro b self n w t
    exact ⟨fun cursor hrun => (self.settled b hrun).1 cursor rfl,
      fun output hrun => (self.settled b hrun).2 output rfl⟩
  · intro b self cxs w j t run
    exact ⟨fun hpolled => (self.settled b hpolled).1 rfl,
      fun output hpolled => (self.settled b hpolled).2 output rfl⟩
  · intro b timeout log result earlier last hsettled
    constructor
    · rintro error o rfl
      exact hsettled.retained o
    · intro hb a
      rw [hsettled.result]
      exact b.not_aborted hb last a
  · intro c timeout log result earlier last hsettled e
    exact hsettled.lastError e
  · intro p self n w
    rw [← until_eq_when, ← until_eq_closure]
    exact ⟨rfl, rfl⟩
  · intro p self cxs w j t run result
    rw [← until_eq_when, ← until_eq_closure]
    exact ⟨.rfl, .rfl⟩

/-- Two errors are retried, and the third outcome is returned. -/
theorem result_of_last_outcome_busyTwice :
    ∃ (t : Traced ℕ ℕ String (Except String ℕ)) (earlier : List (Except String ℕ))
      (last : Except String ℕ),
      Settled (.onResult .default_) none t.log (.ok 7) earlier last := by
  let self := (Retry.busyTwice none).withClassifier (Builtin.onResult .default_).classifier
  have hturn : (self.traced.runFor 3 ⟨0, []⟩).1 =
      .done (.ok 7, ⟨3, .ofNanos 14, .ofNanos 5, .returned⟩) := by
    decide +kernel
  obtain ⟨t, hrun⟩ := Eff.exists_world hturn
  have hsettled := (@result_of_last_outcome ℕ Unit Unit ℕ String (Except String ℕ) ℕ String).1
  exact ⟨t, (hsettled (.onResult .default_) (.busyTwice none) 3 0 t).2 _ hrun⟩

end Relentless
