import Relentless.Engine.AsyncTwin
import Relentless.Trace.SyncConformance

/-!
# The Deadline Guarantee of a Timeout

How far past `.timeout(T)` a run can get, on a clock whose wait advances time by
exactly the requested delay.  Time is a measure on worlds that the clock reads;
the operation, the hooks and the strategies may take any amount of it.

- `Retry.Timed` — what is assumed about time
- `Retry.InTime` — what holds whenever a round begins
- `Retry.deadline` — the guarantee, for every round of every run
-/

namespace Relentless

open StateLoop

variable {σ R A O : Type}

namespace Retry

/-! ## §1 Time -/

/-- `time` is what the clock reads, up to `Duration::MAX`; a wait advances it by
exactly the delay, and nothing turns it back. -/
structure Timed (retry : Retry (Eff σ) R A O) (time : σ → ℕ) : Prop where
  now_reads : ∀ w, (retry.clock.now w).1 = .ofNanos (time w)
  wait_exact : ∀ delay w, time (retry.clock.wait delay w).2 = time w + delay.nanos
  now_le : ∀ w, time w ≤ time (retry.clock.now w).2
  before_le : ∀ state w, time w ≤ time (retry.hooks.beforeAttempt.call state w).2
  op_le : ∀ state w, time w ≤ time (retry.op state w).2
  after_le : ∀ state w, time w ≤ time (retry.hooks.afterAttempt.call state w).2
  decide_le : ∀ outcome w, time w ≤ time (retry.classifier.decide outcome w).2
  stop_le : ∀ state w, time w ≤ time (retry.stop.shouldStop state w).2
  nextWait_le : ∀ state w, time w ≤ time (retry.wait.nextWait state w).2

section Times

variable (self : Retry (Eff σ) R A O) (time : σ → ℕ)

/-- A round up to where it sleeps or returns. -/
def untilWait (cursor : Cursor) : Eff σ (Elapsed × Step R A O) := do
  let (outcome, elapsed) ← self.invoke cursor
  let (postElapsed, elapsed) ← elapsed.read self.clock.toClock
  let progress : Progress :=
    { attempt := cursor.attempt, elapsed := postElapsed,
      previousDelay := cursor.previousDelay, totalWait := cursor.totalWait }
  let next ← step progress outcome self.classifier self.stop self.wait self.timeout self.hooks
  return (elapsed, next)

/-- The elapsed time at which the attempt of a round starts. -/
def startElapsed (cursor : Cursor) (w : σ) : Duration :=
  (cursor.elapsed.read self.clock.toClock w).1.1

/-- The time at the post-operation reading of a round. -/
def postTime (cursor : Cursor) (w : σ) : ℕ := time (self.invoke cursor w).2

/-- How long the attempt of a round takes. -/
def duration (cursor : Cursor) (w : σ) : ℕ := self.postTime time cursor w - time w

/-- The time between the post-operation reading and the start of the wait. -/
def overhead (cursor : Cursor) (w : σ) : ℕ :=
  time (self.untilWait cursor w).2 - self.postTime time cursor w

/-- `h_n`: the overhead of round `n`; for `n = 0`, the time between the baseline and
the first reading. -/
def overheadOf (w₀ : σ) : ℕ → ℕ
  | 0 => time (self.clock.now w₀).2 - time w₀
  | n + 1 =>
    match self.runFor n w₀ with
    | (.again cursor, w) => self.overhead time cursor w
    | (.done _, _) => 0

end Times

/-! ## §2 One round -/

variable {self : Retry (Eff σ) R A O} {time : σ → ℕ}

/-- The decision step turns no time back on its way to a wait. -/
theorem Timed.step_le (h : self.Timed time) (progress : Progress) (outcome : O) (w : σ)
    (delay totalWait : Duration)
    (hstep : (step progress outcome self.classifier self.stop self.wait self.timeout
      self.hooks w).1 = .continue_ delay totalWait) :
    time w ≤ time (step progress outcome self.classifier self.stop self.wait self.timeout
      self.hooks w).2 := by
  obtain ⟨attempt, elapsed, previousDelay, waited⟩ := progress
  simp only [step, Eff.bind_apply, AttemptState.new_release, RetryState.forAttempt_release]
    at hstep ⊢
  have hafter := h.after_le ⟨attempt, elapsed, outcome⟩ w
  generalize (self.hooks.afterAttempt.call ⟨attempt, elapsed, outcome⟩ w).2 = w₁ at *
  have hdecide := h.decide_le outcome w₁
  cases hverdict : (self.classifier.decide outcome w₁).1 with
  | return_ value =>
    rw [hverdict] at hstep
    simp at hstep
  | abort last =>
    rw [hverdict] at hstep
    simp at hstep
  | retry last =>
    rw [hverdict] at hstep
    simp only [Eff.bind_apply] at hstep ⊢
    -- A wait comes after both checks, of the stop strategy and of the timeout.
    split at hstep
    · simp at hstep
    next hgoes =>
      rw [if_neg hgoes]
      simp only [Eff.bind_apply, Eff.pure_apply]
      exact hafter.trans (hdecide.trans ((h.stop_le _ _).trans (h.nextWait_le _ _)))

/-- The measured times of a round taken apart. -/
theorem Unfolds.times {mark : Mark} {round : Round R A O} {w w₀ w₁ w₂ w₃ : σ}
    (h : self.Unfolds mark w round w₀ w₁ w₂ w₃) :
    self.postTime time mark.cursor w = time w₁ ∧
      self.overhead time mark.cursor w = time w₃ - time w₁ := by
  obtain ⟨hinvoke, -⟩ := self.invoke_spec mark w
  simp only [h.before, h.op] at hinvoke
  have hpost : self.postTime time mark.cursor w = time w₁ := by rw [postTime, hinvoke]
  have huntil : (self.untilWait mark.cursor w).2 = w₃ := by
    simp only [untilWait, Eff.bind_apply, hinvoke, Elapsed.read_release, h.after, Eff.pure_apply]
    exact congrArg Prod.snd h.step.answer
  exact ⟨hpost, by rw [overhead, hpost, huntil]⟩

/-- The clock reads the time at both ends of the attempt, which does not go back. -/
theorem Timed.attempt {mark : Mark} {round : Round R A O} {w w₀ w₁ w₂ w₃ : σ}
    (htimed : self.Timed time) (h : self.Unfolds mark w round w₀ w₁ w₂ w₃) :
    round.beforeReading = .ofNanos (time w) ∧ round.afterReading = .ofNanos (time w₁) ∧
      time w ≤ time w₁ ∧ time w₁ ≤ time w₂ := by
  have hbefore := htimed.now_reads w
  have hafter := htimed.now_reads w₁
  have hnow := htimed.now_le w
  have hnow' := htimed.now_le w₁
  have hhooks := htimed.before_le (mark.state (mark.before round.beforeReading)) w₀
  have hop := htimed.op_le (mark.state (mark.before round.beforeReading))
    (self.hooks.beforeAttempt.call (mark.state (mark.before round.beforeReading)) w₀).2
  rw [h.before] at hbefore hnow
  rw [h.after] at hafter hnow'
  rw [h.op] at hop
  exact ⟨hbefore, hafter, hnow.trans (hhooks.trans hop), hnow'⟩

/-- The sleep of a gap takes exactly its delay, whether or not the clock is asked. -/
theorem Timed.sleep_exact (h : self.Timed time) (delay : Duration) (w : σ) :
    time (self.sleep delay w).2 = time w + delay.nanos := by
  unfold sleep
  split
  case isTrue hzero =>
    rw [delay.isZero_iff.mp hzero]
    rfl
  case isFalse => exact h.wait_exact delay w

/-- A retried round ended before the deadline. -/
theorem Unfolds.lt_timeout {mark mark' : Mark} {round : Round R A O} {w w₀ w₁ w₂ w₃ : σ}
    {T : Duration} (h : self.Unfolds mark w round w₀ w₁ w₂ w₃) (hT : self.timeout = some T)
    (hturn : round.turn self.setting mark = .again mark') : (round.after mark).highest < T := by
  obtain ⟨last, rawDelay, hfate, -⟩ := Round.eq_retried_of_turn hturn
  have hallowed := h.step.allowed
  rw [hfate] at hallowed
  obtain ⟨-, -, htimeout, -⟩ := hallowed
  have hsetting : self.setting.timeout = some T := hT
  rw [hsetting] at htimeout
  exact lt_of_not_ge (of_decide_eq_false htimeout)

/-- From the post-operation reading of a retried round to the start of the next one, time
moves on by the overhead and the delay of the gap. -/
theorem Timed.gap {mark mark' : Mark} {round : Round R A O} {w w₀ w₁ w₂ w₃ w₄ : σ}
    (htimed : self.Timed time) (h : self.Unfolds mark w round w₀ w₁ w₂ w₃)
    (hproceed : self.proceed mark.cursor (round.after mark) (round.fate.step self.setting
      (mark.state (round.after mark)) (.ofNanos mark.waited)) w₃ =
        ((round.turn self.setting mark).mapNext Mark.cursor, w₄))
    (hturn : round.turn self.setting mark = .again mark') :
    ∃ delay, mark'.waited = mark.waited + delay.nanos ∧
      (∀ T, self.timeout = some T → delay ≤ T.saturatingSub (round.after mark).highest) ∧
      time w₂ ≤ time w₃ ∧ time w₄ = time w₃ + delay.nanos := by
  obtain ⟨last, rawDelay, hfate, rfl⟩ := Round.eq_retried_of_turn hturn
  refine ⟨clampDelay self.timeout (round.after mark).highest rawDelay, rfl, ?_, ?_, ?_⟩
  · intro T hT
    rw [hT]
    exact min_le_right _ _
  · have hanswer := h.step.answer
    rw [hfate] at hanswer
    have hle := htimed.step_le _ _ w₂ _ _ (congrArg Prod.fst hanswer)
    rwa [show self.timeout = self.setting.timeout from rfl, hanswer] at hle
  · -- Between the decision and the next round there is the sleep, and nothing else.
    have hworld := self.proceed_world mark round w₃
    have hgap : round.gap self.timeout mark =
        some (clampDelay self.timeout (round.after mark).highest rawDelay) := by
      rw [Round.gap, hfate]
    rw [hproceed, hgap] at hworld
    rw [show w₄ = (self.sleep _ w₃).2 from hworld]
    exact htimed.sleep_exact _ w₃

/-! ## §3 What holds when a round begins -/

/-- The elapsed time a fresh reading would show. -/
def elapsedAt (time : σ → ℕ) (w₀ w : σ) : Duration :=
  (Duration.ofNanos (time w)).saturatingSub (.ofNanos (time w₀))

/-- What holds when round `n + 1` of a run from `w₀` begins at `mark` in the world `w`. -/
structure InTime (retry : Retry (Eff σ) R A O) (time : σ → ℕ) (T : Duration) (w₀ : σ) (n : ℕ)
    (mark : Mark) (w : σ) : Prop where
  reached : retry.runFor n w₀ = (.again mark.cursor, w)
  origin : mark.elapsed.origin = .ofNanos (time w₀)
  since : time w₀ ≤ time w
  highest : mark.elapsed.highest ≤ elapsedAt time w₀ w
  start : (elapsedAt time w₀ w).nanos ≤ T.nanos + retry.overheadOf time w₀ n
  -- Exact as long as the clock has not run past `Duration::MAX`.
  waited : time w ≤ maxNanos → time w₀ + mark.waited ≤ time w ∧ mark.waited ≤ T.nanos

variable {T : Duration} {w₀ : σ} {n : ℕ} {mark : Mark} {w : σ}

/-- When a round begins, its reading is the watermark. -/
theorem InTime.startElapsed_eq (htimed : self.Timed time) (h : self.InTime time T w₀ n mark w) :
    self.startElapsed mark.cursor w = elapsedAt time w₀ w := by
  have hreading : ((self.clock.now w).1).saturatingSub mark.elapsed.origin =
      elapsedAt time w₀ w := by
    rw [htimed.now_reads, h.origin, elapsedAt]
  show max mark.elapsed.highest (((self.clock.now w).1).saturatingSub mark.elapsed.origin) = _
  rw [hreading, max_eq_right h.highest]

/-- At the end of the attempt, too. -/
theorem InTime.after_eq (htimed : self.Timed time) (h : self.InTime time T w₀ n mark w)
    {round : Round R A O} {w₀' w₁ w₂ w₃ : σ} (hround : self.Unfolds mark w round w₀' w₁ w₂ w₃) :
    (round.after mark).origin = .ofNanos (time w₀) ∧
      (round.after mark).highest = elapsedAt time w₀ w₁ := by
  obtain ⟨hbefore, hafter, hattempt, -⟩ := htimed.attempt hround
  have hmono : elapsedAt time w₀ w ≤ elapsedAt time w₀ w₁ := by
    simp only [Duration.le_def, elapsedAt, Duration.nanos_saturatingSub, Duration.nanos_ofNanos]
    omega
  refine ⟨h.origin, ?_⟩
  show max (max mark.elapsed.highest (round.beforeReading.saturatingSub mark.elapsed.origin))
    (round.afterReading.saturatingSub mark.elapsed.origin) = _
  rw [h.origin, hbefore, hafter]
  exact max_eq_right ((max_le h.highest (le_refl _)).trans hmono)

/-- When the first round begins. -/
theorem InTime.first (self : Retry (Eff σ) R A O) (htimed : self.Timed time) (T : Duration)
    (w₀ : σ) :
    self.InTime time T w₀ 0 (.start (self.clock.now w₀).1) (self.clock.now w₀).2 := by
  have hnow := htimed.now_le w₀
  constructor
  case reached => rfl
  case origin => exact htimed.now_reads w₀
  case since => exact hnow
  case highest => exact Duration.zero_le _
  case start =>
    simp only [elapsedAt, Duration.nanos_saturatingSub, Duration.nanos_ofNanos, overheadOf]
    omega
  case waited => exact fun _ => ⟨hnow, Nat.zero_le _⟩

/-- **A retried round leaves the next one in time.** -/
theorem InTime.next (htimed : self.Timed time) (hT : self.timeout = some T)
    (h : self.InTime time T w₀ n mark w) {cursor : Cursor} {w' : σ}
    (hbody : self.loopBody mark.cursor w = (.again cursor, w')) :
    ∃ mark', cursor = mark'.cursor ∧ self.InTime time T w₀ (n + 1) mark' w' := by
  obtain ⟨round, w₀', w₁, w₂, w₃, hround⟩ := self.exists_unfolds mark w
  obtain ⟨w₄, hbody', hproceed, -⟩ := hround.loopBody
  rw [hbody'] at hbody
  obtain ⟨hcursor, rfl⟩ := Prod.mk.inj hbody
  match hturn : round.turn self.setting mark with
  | .done output =>
    rw [hturn] at hcursor
    cases hcursor
  | .again mark' =>
    rw [hturn] at hcursor
    obtain ⟨-, -, hattempt, hreading⟩ := htimed.attempt hround
    obtain ⟨horigin, hafter⟩ := h.after_eq htimed hround
    obtain ⟨delay, hwaited', hclamp, hstep, hworld⟩ := htimed.gap hround hproceed hturn
    have hbudget := hround.lt_timeout hT hturn
    have hclamp := hclamp T hT
    rw [hafter] at hbudget hclamp
    have helapsed : mark'.elapsed = round.after mark := by
      obtain ⟨last, rawDelay, -, rfl⟩ := Round.eq_retried_of_turn hturn
      rfl
    have hreached : self.runFor (n + 1) w₀ = (.again mark'.cursor, w₄) := by
      refine (runFor_snoc h.reached).trans (hbody'.trans ?_)
      rw [hturn]
      rfl
    have hoverhead : self.overheadOf time w₀ (n + 1) = time w₃ - time w₁ := by
      rw [overheadOf, h.reached]
      exact hround.times.2
    have hsince := h.since
    -- All that is left is arithmetic on nanoseconds.
    simp only [Duration.le_def, Duration.lt_def, Duration.nanos_saturatingSub, elapsedAt,
      Duration.nanos_ofNanos] at hclamp hbudget
    refine ⟨mark', (Turn.again.inj hcursor).symm, ?_⟩
    constructor
    case reached => exact hreached
    case origin =>
      rw [helapsed]
      exact horigin
    case since => omega
    case highest =>
      rw [helapsed, hafter, Duration.le_def]
      simp only [elapsedAt, Duration.nanos_saturatingSub, Duration.nanos_ofNanos]
      omega
    case start =>
      rw [hoverhead]
      simp only [elapsedAt, Duration.nanos_saturatingSub, Duration.nanos_ofNanos]
      omega
    case waited =>
      intro hrange
      obtain ⟨hwaited, hspent⟩ := h.waited (by omega)
      omega

/-- **Every round begins in time.** -/
theorem InTime.of_runFor (htimed : self.Timed time) (hT : self.timeout = some T) (w₀ : σ) (n : ℕ)
    (cursor : Cursor) (w : σ) (hrun : self.runFor n w₀ = (.again cursor, w)) :
    ∃ mark, cursor = mark.cursor ∧ self.InTime time T w₀ n mark w := by
  have hfirst := InTime.first self htimed T w₀
  refine runFor_invariant (I := fun n cursor w =>
    ∃ mark, cursor = mark.cursor ∧ self.InTime time T w₀ n mark w) ⟨_, rfl, hfirst⟩ ?_ hrun
  rintro k cursor w cursor' w' ⟨mark, rfl, hin⟩ hbody
  exact hin.next htimed hT hbody

/-! ## §4 The guarantee -/

/-- The last round of a run that was in time. -/
theorem InTime.last (htimed : self.Timed time) (h : self.InTime time T w₀ n mark w)
    {output : Output R A O} {w' : σ} (hbody : self.loopBody mark.cursor w = (.done output, w')) :
    output.2.totalElapsed.nanos ≤
        T.nanos + self.overheadOf time w₀ n + self.duration time mark.cursor w ∧
      (time w ≤ maxNanos → output.2.totalWait ≤ T) := by
  obtain ⟨round, w₀', w₁, w₂, w₃, hround⟩ := self.exists_unfolds mark w
  obtain ⟨w₄, hbody', -, -⟩ := hround.loopBody
  rw [hbody'] at hbody
  match hturn : round.turn self.setting mark with
  | .again mark' =>
    rw [hturn] at hbody
    cases (Prod.mk.inj hbody).1
  | .done output' =>
    rw [hturn] at hbody
    obtain rfl := Turn.done.inj (Prod.mk.inj hbody).1
    obtain ⟨-, helapsed, hwait⟩ := Round.stats_of_done hturn
    obtain ⟨-, -, hattempt, -⟩ := htimed.attempt hround
    -- The attempt started in time, and the reading after it is its duration later.
    constructor
    · rw [helapsed, (h.after_eq htimed hround).2, duration, hround.times.1]
      have hstart := h.start
      simp only [elapsedAt, Duration.nanos_saturatingSub, Duration.nanos_ofNanos] at hstart ⊢
      omega
    · intro hrange
      rw [hwait, Duration.le_def, Duration.nanos_ofNanos]
      exact (min_le_left _ _).trans (h.waited hrange).2

/-- An attempt that starts past the deadline is the last one. -/
theorem last_of_late (hT : self.timeout = some T) (mark : Mark) (w : σ)
    (hlate : T ≤ self.startElapsed mark.cursor w) :
    ∃ output w', self.loopBody mark.cursor w = (.done output, w') := by
  obtain ⟨round, w₀', w₁, w₂, w₃, hround⟩ := self.exists_unfolds mark w
  obtain ⟨w₄, hbody, -, -⟩ := hround.loopBody
  match hturn : round.turn self.setting mark with
  | .done output =>
    rw [hturn] at hbody
    exact ⟨output, w₄, hbody⟩
  | .again mark' =>
    -- A retried round has passed the timeout check, later than it started.
    have hleft := hround.lt_timeout hT hturn
    have hmono : self.startElapsed mark.cursor w ≤ (round.after mark).highest := by
      show max mark.elapsed.highest _ ≤ _
      rw [hround.before]
      exact le_max_left _ _
    exact absurd (hlate.trans hmono) (not_le_of_gt hleft)

/-- **The deadline guarantee.**  With `.timeout(T)`, on a clock whose wait is exact:
when round `n + 1` begins, its attempt starts at most the overhead of the round
before past `T`; if it starts at `T` or later, it is the last; if it is the last,
the total elapsed time exceeds that bound by at most its duration, and the total
wait is at most `T` (as long as the clock has not run past `Duration::MAX`); and
the clamp has never made a delay of the wait strategy zero that was not. -/
theorem deadline (self : Retry (Eff σ) R A O) (time : σ → ℕ) (T : Duration)
    (htimed : self.Timed time) (hT : self.timeout = some T) (w₀ : σ) (n : ℕ) :
    (∀ cursor w, self.runFor n w₀ = (.again cursor, w) →
      (self.startElapsed cursor w).nanos ≤ T.nanos + self.overheadOf time w₀ n ∧
      (T ≤ self.startElapsed cursor w → ∃ output w', self.loopBody cursor w = (.done output, w')) ∧
      ∀ output w', self.loopBody cursor w = (.done output, w') →
        output.2.totalElapsed.nanos ≤
            T.nanos + self.overheadOf time w₀ n + self.duration time cursor w ∧
          (time w ≤ maxNanos → output.2.totalWait ≤ T)) ∧
    ∀ state rawDelay, .nextWait state rawDelay ∈ (self.traced.runFor n ⟨w₀, []⟩).2.log →
      rawDelay ≠ .zero → clampDelay self.timeout state.elapsed rawDelay ≠ .zero := by
  constructor
  · intro cursor w hrun
    obtain ⟨mark, rfl, hin⟩ := InTime.of_runFor htimed hT w₀ n cursor w hrun
    refine ⟨?_, last_of_late hT mark w, fun output w' hbody => hin.last htimed hbody⟩
    rw [hin.startElapsed_eq htimed]
    exact hin.start
  · intro state rawDelay hmem hdelay
    obtain ⟨baseline, rounds, turn, w', hrounds, -, hrun⟩ := self.runFor_rounds n w₀
    rw [hrun] at hmem
    rcases List.mem_cons.mp hmem with hnow | hmem
    · cases hnow
    · exact clampDelay_ne_zero (hrounds.of_mem_nextWait hmem) hdelay

/-- The small configuration reads its world as the time. -/
theorem busyTwice_timed (timeout : Option Duration) : (Retry.busyTwice timeout).Timed id where
  now_reads _ := rfl
  wait_exact _ _ := rfl
  now_le _ := le_refl _
  before_le _ _ := le_refl _
  op_le _ now := Nat.le_add_right now 3
  after_le _ _ := le_refl _
  decide_le _ _ := le_refl _
  stop_le _ _ := le_refl _
  nextWait_le _ _ := le_refl _

/-- With a timeout of ten nanoseconds its third attempt starts at the deadline, and
is the last. -/
theorem deadline_busyTwice :
    ∃ output w', (Retry.busyTwice (some (.ofNanos 10))).loopBody
      { elapsed := ⟨.zero, .ofNanos 6⟩, attempt := 3, previousDelay := some (.ofNanos 4),
        totalWait := .ofNanos 4 } 10 = (.done output, w') := by
  have hrun : (Retry.busyTwice (some (.ofNanos 10))).runFor 2 0 =
      (.again { elapsed := ⟨.zero, .ofNanos 6⟩, attempt := 3, previousDelay := some (.ofNanos 4),
                totalWait := .ofNanos 4 }, 10) := by decide +kernel
  have hdeadline := deadline (Retry.busyTwice (some (.ofNanos 10))) id (.ofNanos 10)
    (busyTwice_timed _) rfl 0 2
  exact (hdeadline.1 _ _ hrun).2.1 (by decide +kernel)

end Retry

end Relentless
