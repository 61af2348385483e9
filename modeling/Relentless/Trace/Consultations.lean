import Relentless.Trace.AsyncConformance

/-!
# What the Wait Strategy Is Shown

The consultations of the wait strategy in a call log, the delays that are applied after
them, and how each of these is fed back to the next consultation.

- `consultations`, `requested` — the questions, and the waits that the clock is asked for
- `FedBack` — questions, answers and applied delays fit together
- `Rounds.fedBack`, `Stands.fedBack` — in the log of every run they do
-/

namespace Relentless

open StateLoop

variable {σ R A O : Type}

/-! ## §1 Projections -/

def Event.consultation? : Event R A O → Option (RetryState × Duration)
  | .nextWait state rawDelay => some (state, rawDelay)
  | _ => none

def Event.requested? : Event R A O → Option Duration
  | .wait delay => some delay
  | _ => none

/-- The states the wait strategy is shown, with its raw answers. -/
def consultations (log : List (Event R A O)) : List (RetryState × Duration) :=
  log.filterMap Event.consultation?

/-- The waits the clock is asked for. -/
def requested (log : List (Event R A O)) : List Duration := log.filterMap Event.requested?

/-- The delay applied after a consultation. -/
def applied (timeout : Option Duration) (consultation : RetryState × Duration) : Duration :=
  clampDelay timeout consultation.1.elapsed consultation.2

@[simp] theorem consultations_append (log log' : List (Event R A O)) :
    consultations (log ++ log') = consultations log ++ consultations log' :=
  List.filterMap_append

@[simp] theorem requested_append (log log' : List (Event R A O)) :
    requested (log ++ log') = requested log ++ requested log' := List.filterMap_append

theorem gapDelays_eq_map (timeout : Option Duration) (log : List (Event R A O)) :
    gapDelays timeout log = (consultations log).map (applied timeout) := by
  rw [consultations, List.map_filterMap, gapDelays]
  congr 1
  funext ev
  cases ev <;> rfl

/-- The polls and wakes consult nothing. -/
theorem consultations_calls (log : List (Event R A O)) :
    consultations (calls log) = consultations log := by
  apply filterMap_calls
  intro ev hev
  cases ev <;> first | rfl | cases hev

theorem gapDelays_calls (timeout : Option Duration) (log : List (Event R A O)) :
    gapDelays timeout (calls log) = gapDelays timeout log := by
  rw [gapDelays_eq_map, gapDelays_eq_map, consultations_calls]

theorem requested_calls (log : List (Event R A O)) : requested (calls log) = requested log := by
  apply filterMap_calls
  intro ev hev
  cases ev <;> first | rfl | cases hev

/-! ## §2 Rounds -/

/-- The consultation of a round, if it is retried. -/
def Round.consultation (mark : Mark) (round : Round R A O) : Option (RetryState × Duration) :=
  match round.fate with
  | .retried _ rawDelay => some (mark.state (round.after mark), rawDelay)
  | _ => none

theorem consultations_round (S : Setting R A O) (mark : Mark) (round : Round R A O) :
    consultations (round.calls S mark) = (round.consultation mark).toList := by
  have hskip : ∀ ev : Event R A O, ev.isSkeleton = false → ev.consultation? = none := by
    intro ev hev
    cases ev <;> first | rfl | cases hev
  rw [consultations, Round.filterMap_calls _ hskip]
  obtain ⟨before, outcome, after, fate⟩ := round
  cases fate <;> rfl

theorem consultations_openingCalls (S : Setting R A O) (mark : Mark) (reading : Duration) :
    consultations (Round.openingCalls S mark reading) = [] :=
  Round.filterMap_openingCalls _ (fun _ => rfl) (fun _ _ => rfl) (fun _ => rfl) S mark reading

theorem requested_openingCalls (S : Setting R A O) (mark : Mark) (reading : Duration) :
    requested (Round.openingCalls S mark reading) = [] :=
  Round.filterMap_openingCalls _ (fun _ => rfl) (fun _ _ => rfl) (fun _ => rfl) S mark reading

theorem requested_waitEvents (delay : Duration) :
    requested (waitEvents delay : List (Event R A O)) = [delay].filter (· ≠ .zero) := by
  by_cases hzero : delay = .zero <;> simp [waitEvents, requested, Event.requested?, hzero]

/-- A round asks the clock for its gap, unless the delay is zero. -/
theorem requested_round (S : Setting R A O) (mark : Mark) (round : Round R A O) :
    requested (round.calls S mark) =
      (gapDelays S.timeout (round.calls S mark)).filter (· ≠ .zero) := by
  have hhooks {α : Type} (n : ℕ) (event : ℕ → α → Event R A O) (view : α)
      (hskip : ∀ hook, (event hook view).requested? = none) :
      requested (hookEvents n event view) = [] := filterMap_hookEvents _ n event view hskip
  have hclosing : requested (Round.closingCalls S mark (round.after mark) round.outcome
      round.afterReading) = [] := hhooks _ _ _ fun _ => rfl
  rw [gapDelays_round]
  simp only [Round.calls, requested_append, requested_openingCalls, hclosing]
  obtain ⟨before, outcome, after, fate⟩ := round
  cases fate with
  | returned value | aborted last | exhausted last answer =>
    simpa [Round.gap, Fate.calls, Fate.waitCalls, requested, Event.requested?]
      using hhooks S.exitHooks _ _ fun _ => rfl
  | retried last rawDelay => exact requested_waitEvents _

/-! ## §3 Feedback -/

/-- The answers are ones the strategy may give; each consultation is shown the delay
applied just before it; and the clock is asked for the applied delays, except zero. -/
structure FedBack (S : Setting R A O) (previous : Option Duration) (log : List (Event R A O)) :
    Prop where
  answered : ∀ c ∈ consultations log, S.answers.nextWait c.1 c.2
  shown : ∀ k c, (consultations log)[k]? = some c → c.1.previousDelay =
    if k = 0 then previous else (gapDelays S.timeout log)[k - 1]?
  requested : requested log = (gapDelays S.timeout log).filter (· ≠ .zero)

/-- A log with the same consultations and waits. -/
theorem FedBack.congr {S : Setting R A O} {previous : Option Duration}
    {log log' : List (Event R A O)} (h : FedBack S previous log)
    (hconsultations : consultations log' = consultations log)
    (hrequested : Relentless.requested log' = Relentless.requested log) :
    FedBack S previous log' := by
  have hgaps : gapDelays S.timeout log' = gapDelays S.timeout log := by
    rw [gapDelays_eq_map, gapDelays_eq_map, hconsultations]
  constructor
  · rw [hconsultations]
    exact h.answered
  · rw [hconsultations, hgaps]
    exact h.shown
  · rw [hrequested, hgaps]
    exact h.requested

/-- One retried round, and what is fed back after it. -/
theorem FedBack.cons {S : Setting R A O} {mark mark' : Mark} {round : Round R A O}
    {rest : List (Event R A O)} (hallowed : round.Allowed S mark)
    (hturn : round.turn S mark = .again mark') (h : FedBack S mark'.previousDelay rest) :
    FedBack S mark.previousDelay (round.calls S mark ++ rest) := by
  obtain ⟨last, rawDelay, hfate, rfl⟩ := Round.eq_retried_of_turn hturn
  have hconsultation : consultations (round.calls S mark) =
      [(mark.state (round.after mark), rawDelay)] := by
    rw [consultations_round, Round.consultation, hfate]
    rfl
  have hgap : gapDelays S.timeout (round.calls S mark) =
      [clampDelay S.timeout (round.after mark).highest rawDelay] := by
    rw [gapDelays_round, Round.gap, hfate]
    rfl
  constructor
  case answered =>
    rw [consultations_append, hconsultation]
    intro c hc
    rcases List.mem_cons.mp hc with rfl | hc
    · rw [Round.Allowed, hfate] at hallowed
      exact hallowed.2.2.2
    · exact h.answered c hc
  case shown =>
    rw [consultations_append, hconsultation, gapDelays_append, hgap]
    intro k c hc
    -- The first consultation is this round's; the second is shown its delay.
    cases k with
    | zero =>
      obtain rfl := Option.some.inj hc
      rfl
    | succ k =>
      rw [h.shown k c hc]
      cases k with
      | zero => rfl
      | succ k => rfl
  case requested =>
    rw [requested_append, requested_round, gapDelays_append, List.filter_append, h.requested]

/-- **Rounds feed the applied delays back.** -/
theorem Rounds.fedBack {S : Setting R A O} {mark : Mark} {log : List (Event R A O)}
    {turn : Turn Mark (Output R A O)} (h : Rounds S mark log turn) :
    FedBack S mark.previousDelay log := by
  -- An induction on the rounds; only a retried round consults, and it feeds its successor.
  induction h with
  | pause mark =>
    refine ⟨fun c hc => ?_, fun k c hc => ?_, rfl⟩
    · cases hc
    · cases hc
  | last mark round output hallowed hturn =>
    have hnone : consultations (round.calls S mark) = [] := by
      rw [consultations_round]
      obtain ⟨before, outcome, after, fate⟩ := round
      cases fate with
      | returned value | aborted last | exhausted last answer => rfl
      | retried last rawDelay => cases hturn
    refine ⟨fun c hc => ?_, fun k c hc => ?_, requested_round S mark round⟩
    · rw [hnone] at hc
      cases hc
    · rw [hnone] at hc
      cases hc
  | next mark mark' round rest turn hallowed hturn hrest ih => exact .cons hallowed hturn ih

/-! ## §4 Both engines -/

variable {Fut WaitFut : Type}

theorem Stands.fedBack {S : Setting R A O} {baseline : Duration} {log : List (Event R A O)}
    {state : AsyncRetry.LoopState Fut WaitFut} (h : Stands S baseline log state) :
    FedBack S none log := by
  cases h with
  | ready rounds mark hrounds => exact hrounds.fedBack.congr rfl rfl
  | sleeping rounds mark k future hrounds hround hpos => exact hrounds.fedBack.congr rfl rfl
  | yielding rounds mark k hrounds hround hpos => exact hrounds.fedBack.congr rfl rfl
  | polling rounds mark reading future hrounds =>
    apply hrounds.fedBack.congr
    · show consultations (rounds ++ Round.openingCalls S mark reading) = _
      rw [consultations_append, consultations_openingCalls, List.append_nil]
    · show Relentless.requested (rounds ++ Round.openingCalls S mark reading) = _
      rw [requested_append, requested_openingCalls, List.append_nil]

/-- The log of a sync run. -/
theorem Retry.fedBack (self : Retry (Eff σ) R A O) (n : ℕ) (w : σ) :
    FedBack self.setting none (self.traced.runFor n ⟨w, []⟩).2.log := by
  obtain ⟨baseline, rounds, turn, w', hrounds, -, hrun⟩ := self.runFor_rounds n w
  rw [hrun]
  exact hrounds.fedBack.congr rfl rfl

/-- The log of an async run, however it is polled. -/
theorem AsyncRetry.fedBack (self : AsyncRetry (Eff σ) Fut WaitFut R A O) {cxs : ℕ → Context}
    {w₀ : σ} {j : ℕ} {t : Traced σ R A O} {run : AsyncRun Fut WaitFut}
    {result : PollEnd (Output R A O)} (h : self.traced.PolledTo cxs ⟨w₀, []⟩ j t run result) :
    FedBack self.setting none t.log := by
  have hcalls : FedBack self.setting none (calls t.log) := by
    refine self.polledTo_cases (P := fun log _ => FedBack self.setting none log) ?_ ?_ ?_ h
    · exact (Rounds.pause (.start .zero)).fedBack
    · intro baseline log state hstands
      exact hstands.fedBack
    · rintro baseline log output ⟨rounds, rfl, hrounds⟩
      exact hrounds.fedBack.congr rfl rfl
  exact hcalls.congr (consultations_calls t.log).symm (requested_calls t.log).symm

end Relentless
