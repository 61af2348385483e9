import Relentless.Trace.AsyncConformance

/-!
# Coherent Clocks

The contract of the clocks as a property of a call log: readings never fall, and the
first one after a wait for `d` is at least `d` above the last one before it.

- `Pace` — the last reading, and the least that the next one may be
- `Coherent` — a log whose readings keep the pace
- `Round.coherent_iff`, `Round.pace_after` — what a round asks of the clock
-/

namespace Relentless

open StateLoop

variable {R A O : Type}

/-! ## §1 Pace -/

/-- The last reading of the clock, and the least that its next reading may be. -/
structure Pace where
  last : ℕ
  due : ℕ

namespace Pace

/-- Before any reading. -/
def start : Pace := ⟨0, 0⟩

/-- A reading sets the pace; a wait moves the next reading on. -/
def next (pace : Pace) : Event R A O → Pace
  | .now reading => ⟨reading.nanos, reading.nanos⟩
  | .wait delay => ⟨pace.last, max pace.due (pace.last + delay.nanos)⟩
  | _ => pace

/-- The pace after a log. -/
def after (pace : Pace) (log : List (Event R A O)) : Pace := log.foldl next pace

@[simp] theorem after_nil (pace : Pace) : pace.after ([] : List (Event R A O)) = pace := rfl

@[simp] theorem after_cons (pace : Pace) (ev : Event R A O) (log : List (Event R A O)) :
    pace.after (ev :: log) = (pace.next ev).after log := rfl

@[simp] theorem after_append (pace : Pace) (log log' : List (Event R A O)) :
    pace.after (log ++ log') = (pace.after log).after log' := List.foldl_append

end Pace

/-- In `log` no reading is less than it may be. -/
def Coherent (pace : Pace) : List (Event R A O) → Prop
  | [] => True
  | ev :: log => (∀ reading ∈ ev.reading?, pace.due ≤ reading.nanos) ∧
      Coherent (pace.next ev) log

instance instDecidableCoherent : ∀ (pace : Pace) (log : List (Event R A O)),
    Decidable (Coherent pace log)
  | _, [] => isTrue trivial
  | pace, ev :: log =>
    have := instDecidableCoherent (pace.next ev) log
    inferInstanceAs (Decidable ((∀ reading ∈ ev.reading?, pace.due ≤ reading.nanos) ∧
      Coherent (pace.next ev) log))

theorem coherent_append_iff {pace : Pace} {log log' : List (Event R A O)} :
    Coherent pace (log ++ log') ↔ Coherent pace log ∧ Coherent (pace.after log) log' := by
  induction log generalizing pace with
  | nil => simp [Coherent]
  | cons ev log ih => simp [Coherent, ih, and_assoc]

/-! ## §2 Readings and waits -/

/-- The events that a pace is about. -/
def Event.isPaced : Event R A O → Bool
  | .now _ | .wait _ => true
  | _ => false

theorem Event.of_not_paced {ev : Event R A O} (h : ev.isPaced = false) (pace : Pace) :
    ev.reading? = none ∧ pace.next ev = pace := by
  cases ev with
  | now | wait => cases h
  | _ => exact ⟨rfl, rfl⟩

/-- The other events do not matter. -/
theorem coherent_filter {pace : Pace} {log : List (Event R A O)} :
    Coherent pace (log.filter Event.isPaced) ↔ Coherent pace log := by
  induction log generalizing pace with
  | nil => rfl
  | cons ev log ih =>
    by_cases hpaced : ev.isPaced = true
    · rw [List.filter_cons_of_pos hpaced, Coherent, Coherent, ih]
    · obtain ⟨hreading, hnext⟩ := Event.of_not_paced (Bool.eq_false_iff.mpr hpaced) pace
      rw [List.filter_cons_of_neg hpaced, Coherent, ih, hreading, hnext]
      simp

theorem Pace.after_filter (pace : Pace) (log : List (Event R A O)) :
    pace.after (log.filter Event.isPaced) = pace.after log := by
  induction log generalizing pace with
  | nil => rfl
  | cons ev log ih =>
    by_cases hpaced : ev.isPaced = true
    · rw [List.filter_cons_of_pos hpaced, after_cons, after_cons, ih]
    · obtain ⟨-, hnext⟩ := Event.of_not_paced (Bool.eq_false_iff.mpr hpaced) pace
      rw [List.filter_cons_of_neg hpaced, after_cons, hnext, ih]

/-- A log is as coherent as its calls, since the polls and wakes do not matter. -/
theorem coherent_calls {pace : Pace} {log : List (Event R A O)} :
    Coherent pace (calls log) ↔ Coherent pace log := by
  have hcalls : (calls log).filter Event.isPaced = log.filter Event.isPaced := by
    rw [calls, List.filter_filter]
    congr 1
    funext ev
    cases ev <;> rfl
  rw [← coherent_filter, hcalls, coherent_filter]

/-! ## §3 Rounds -/

theorem isPaced_waitEvents (delay : Duration) :
    (waitEvents delay : List (Event R A O)).filter Event.isPaced = waitEvents delay := by
  unfold waitEvents
  split <;> rfl

/-- A round reads the clock twice, and then waits if it is retried. -/
theorem Round.filter_isPaced (S : Setting R A O) (mark : Mark) (round : Round R A O) :
    (round.calls S mark).filter Event.isPaced =
      [.now round.beforeReading, .now round.afterReading] ++
        round.fate.waitCalls S (round.after mark).highest := by
  have hbefore := fun state => filter_hookEvents Event.isPaced S.beforeHooks
    (.beforeAttempt : ℕ → _ → Event R A O) state fun _ => rfl
  have hafter := fun state => filter_hookEvents Event.isPaced S.afterHooks
    (.afterAttempt : ℕ → _ → Event R A O) state fun _ => rfl
  have hexit := fun exit => filter_hookEvents Event.isPaced S.exitHooks
    (.onExit : ℕ → _ → Event R A O) exit fun _ => rfl
  obtain ⟨before, outcome, after, fate⟩ := round
  cases fate <;>
    simp [Round.calls, openingCalls, closingCalls, Fate.calls, Fate.waitCalls, hbefore, hafter,
      hexit, isPaced_waitEvents, Event.isPaced, List.filter_cons, Mark.state]

theorem coherent_waitEvents (pace : Pace) (delay : Duration) :
    Coherent pace (waitEvents delay : List (Event R A O)) := by
  unfold waitEvents
  split
  · trivial
  · refine ⟨?_, trivial⟩
    intro reading hreading
    cases hreading

theorem pace_after_waitEvents (r : ℕ) (delay : Duration) :
    Pace.after ⟨r, r⟩ (waitEvents delay : List (Event R A O)) = ⟨r, r + delay.nanos⟩ := by
  by_cases hzero : delay = .zero
  · simp [waitEvents, hzero]
  · simp [waitEvents, hzero, Pace.next]

/-- The clock keeps the pace in a round when its two readings do. -/
theorem Round.coherent_iff {S : Setting R A O} {mark : Mark} {round : Round R A O} {pace : Pace} :
    Coherent pace (round.calls S mark) ↔
      pace.due ≤ round.beforeReading.nanos ∧
        round.beforeReading.nanos ≤ round.afterReading.nanos := by
  rw [← coherent_filter, filter_isPaced, coherent_append_iff]
  have hwait (pace : Pace) :
      Coherent pace (round.fate.waitCalls S (round.after mark).highest) := by
    cases round.fate with
    | returned value | aborted last | exhausted last answer => trivial
    | retried last rawDelay => exact coherent_waitEvents _ _
  simp [Coherent, Event.reading?, Pace.next, hwait]

/-- The pace after a round: the second reading, and the delay of the gap. -/
theorem Round.pace_after (S : Setting R A O) (mark : Mark) (round : Round R A O) (pace : Pace) :
    pace.after (round.calls S mark) = ⟨round.afterReading.nanos, round.afterReading.nanos +
      ((round.gap S.timeout mark).getD .zero).nanos⟩ := by
  rw [← Pace.after_filter, filter_isPaced, Pace.after_append]
  obtain ⟨before, outcome, after, fate⟩ := round
  cases fate with
  | returned value | aborted last | exhausted last answer => rfl
  | retried last rawDelay => exact pace_after_waitEvents _ _

/-! ## §4 The watermark on a coherent clock -/

/-- The next reading will not be below the watermark. -/
def Pace.Covers (pace : Pace) (elapsed : Elapsed) : Prop :=
  elapsed.origin.nanos + elapsed.highest.nanos ≤ pace.due

/-- When the clock keeps the pace, the watermark after a round is its second reading. -/
theorem Pace.Covers.after_eq {S : Setting R A O} {mark : Mark} {round : Round R A O} {pace : Pace}
    (h : pace.Covers mark.elapsed) (hround : Coherent pace (round.calls S mark)) :
    (round.after mark).origin.nanos + (round.after mark).highest.nanos =
        round.afterReading.nanos ∧
      pace.due ≤ round.afterReading.nanos := by
  obtain ⟨hbefore, hafter⟩ := Round.coherent_iff.mp hround
  have horigin : (round.after mark).origin = mark.elapsed.origin := rfl
  have hhighest : (round.after mark).highest =
      max (max mark.elapsed.highest (round.beforeReading.saturatingSub mark.elapsed.origin))
        (round.afterReading.saturatingSub mark.elapsed.origin) := rfl
  rw [horigin, hhighest]
  unfold Covers at h
  simp only [Duration.nanos_max, Duration.nanos_saturatingSub]
  omega

/-- A retried round is followed by readings above its watermark and its gap. -/
theorem Pace.Covers.next {S : Setting R A O} {mark mark' : Mark} {round : Round R A O}
    {pace : Pace} (h : pace.Covers mark.elapsed) (hround : Coherent pace (round.calls S mark))
    (hturn : round.turn S mark = .again mark') :
    ∃ delay, round.gap S.timeout mark = some delay ∧ mark'.elapsed = round.after mark ∧
      (pace.after (round.calls S mark)).due =
        mark'.elapsed.origin.nanos + mark'.elapsed.highest.nanos + delay.nanos := by
  obtain ⟨last, rawDelay, hfate, rfl⟩ := Round.eq_retried_of_turn hturn
  have hgap : round.gap S.timeout mark =
      some (clampDelay S.timeout (round.after mark).highest rawDelay) := by
    rw [Round.gap, hfate]
  refine ⟨_, hgap, rfl, ?_⟩
  rw [Round.pace_after, hgap]
  exact congrArg (· + _) (h.after_eq hround).1.symm

/-- Wherever a run stands, on a coherent clock, its next reading covers its watermark. -/
theorem Rounds.covers {S : Setting R A O} {mark mark' : Mark} {log : List (Event R A O)}
    {turn : Turn Mark (Output R A O)} {pace : Pace} (h : Rounds S mark log turn)
    (hturn : turn = .again mark') (hcovers : pace.Covers mark.elapsed)
    (hcoherent : Coherent pace log) : (pace.after log).Covers mark'.elapsed := by
  induction h generalizing pace with
  | pause mark =>
    obtain rfl := Turn.again.inj hturn
    exact hcovers
  | last => cases hturn
  | next mark mark₁ round rest turn hallowed hround hrest ih =>
    obtain ⟨hround', hcoherent'⟩ := coherent_append_iff.mp hcoherent
    obtain ⟨delay, -, -, hdue⟩ := hcovers.next hround' hround
    rw [Pace.after_append]
    refine ih hturn ?_ hcoherent'
    rw [Pace.Covers, hdue]
    exact Nat.le_add_right _ _

end Relentless
