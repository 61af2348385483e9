import Relentless.Clock.Runtime
import Relentless.Engine.Sleeps
import Relentless.Guarantees.ClockAdapters
import Relentless.Guarantees.SystemTime

/-!
# Futures on the Clocks of Async Runtimes

Futures of the async engine on any of the four clocks, polled by any number of threads of a
process where time passes whenever it likes.  If the timers of the runtimes are not ready
before their time, the readings of each future keep the contract of the clock, as long as its
waits are some that the adapter does not shorten.

- `RuntimeClock` — the clocks, with the timers that they wait through
- `RuntimeClock.Lawful` — what they rely on; `RuntimeClock.Covers` — the waits that last
- `RuntimeClock.exists_honours` — such a clock honours these waits
- `AsyncRetry.preserves_clocked` — what a run alone keeps, while others let time pass
- `RuntimeClock.concurrent_futures` — the logs are coherent, and a timeout bounds the runs
-/

namespace Relentless

open StateLoop
open Interleaving (Run play)
open Thread (Replay)
open Eff (Moves)
open Eff.Moves (Inherits)

variable {ρ R A O Fut Timer : Type}

/-! ## §1 The clocks -/

/-- A clock of an async runtime, and the timers of the runtime. -/
inductive RuntimeClock (ρ Timer : Type) where
  | tokio (clock : TokioClock) (sleep : Timers ρ Duration Timer)
  | futuresTimer (clock : FuturesTimerClock) (delay : Timers ρ Duration Timer)
  | embassy (clock : EmbassyClock) (time : EmbassyTime) (after : Timers ρ UInt64 Timer)
  | gloo (clock : GlooClock ρ) (timeout : Timers ρ UInt32 Timer)

namespace RuntimeClock

def asyncClock : RuntimeClock ρ Timer → AsyncClock (Thread (SystemTime × ρ) Empty) Timer
  | tokio clock sleep => clock.asyncClock sleep
  | futuresTimer clock delay => clock.asyncClock delay
  | embassy clock time after => clock.asyncClock time after
  | gloo clock timeout => clock.asyncClock timeout

/-- The clock was made before the instant `since`, and what it is made of does as it is said to:
timers that take a `Duration` last up to `ceiling`, ticks are counted up and converted down, and
the readings that are supplied observe the time that passes. -/
def Lawful (ceiling : Duration) (since : ℕ) : RuntimeClock ρ Timer → Prop
  | tokio clock sleep => clock.origin ≤ since ∧
      ∃ deadline, sleep.Lawful id (fun dur => min dur.nanos ceiling.nanos) deadline
  | futuresTimer clock delay => clock.origin ≤ since ∧
      ∃ deadline, delay.Lawful id (fun dur => min dur.nanos ceiling.nanos) deadline
  | embassy clock time after => clock.origin ≤ time.ticks since ∧ 1 ≤ time.tickHz.toNat ∧
      (∀ ticks, time.asMicros ticks = ticks.toNat * 1000000 / time.tickHz.toNat) ∧
      (Monotone fun n => (time.ticks n).toNat) ∧
      ∃ deadline, after.Lawful (fun n => (time.ticks n).toNat) UInt64.toNat deadline
  | gloo clock timeout =>
      (∃ shown, (∀ n n', n ≤ n' → shown n + (n' - n) ≤ shown n') ∧ Reads clock.now since shown) ∧
      ∃ deadline, timeout.Lawful id (fun millis => millis.toNat * 1000000) deadline

/-- The waits that the adapter does not shorten. -/
def Covers (ceiling : Duration) : RuntimeClock ρ Timer → Duration → Prop
  | tokio _ _, delay => delay ≤ ceiling
  | futuresTimer _ _, delay => delay ≤ ceiling
  | embassy _ time _, delay => RoundsUp time.tickHz delay ∧ ¬AtCeiling time.tickHz delay
  | gloo _ _, delay => delay.nanos % 1000000 = 0 ∧ delay.asMillis ≤ i32Max

end RuntimeClock

/-- The scale of a clock that counts nanoseconds from its origin. -/
theorem Timers.Lawful.honours_since {timers : Timers ρ Duration Timer} {lasts : Duration → ℕ}
    {deadline : Timer → ℕ} (h : timers.Lawful id lasts deadline) {origin since : ℕ}
    (horigin : origin ≤ since) :
    AsyncClock.Honours
      { now := SystemClock.onTime fun time => (time.elapsed origin, time)
        waitAsync := timers.start
        pollWait := timers.poll }
      since (· - origin) lasts fun timer => deadline timer - origin := by
  have hscale : Monotone fun n => n - origin := fun n n' hle => Nat.sub_le_sub_right hle origin
  refine h.honours monotone_id hscale (.onTime _ hscale fun n _ => rfl) (fun dur => dur)
    fun dur n hn => ?_
  dsimp only [id]
  omega

/-- A number of ticks in nanoseconds, rounded down to a microsecond. -/
def EmbassyTime.wholeMicros (self : EmbassyTime) (ticks : ℕ) : ℕ :=
  ticks * 1000000 / self.tickHz.toNat * 1000

theorem EmbassyTime.wholeMicros_mono (self : EmbassyTime) : Monotone self.wholeMicros :=
  fun _ _ hle => Nat.mul_le_mul_right _ (Nat.div_le_div_right (Nat.mul_le_mul_right _ hle))

/-- The whole microseconds of two spans are no more than those of both together. -/
theorem EmbassyTime.wholeMicros_add_le (self : EmbassyTime) (ticks ticks' : ℕ) :
    self.wholeMicros ticks + self.wholeMicros ticks' ≤ self.wholeMicros (ticks + ticks') := by
  rw [wholeMicros, wholeMicros, wholeMicros, ← Nat.add_mul, Nat.add_mul ticks]
  exact Nat.mul_le_mul_right _ Nat.div_add_div_le_add_div

theorem EmbassyClock.honours {clock : EmbassyClock} {time : EmbassyTime}
    {after : Timers ρ UInt64 Timer} {deadline : Timer → ℕ} {since : ℕ}
    (horigin : clock.origin ≤ time.ticks since)
    (hdown : ∀ ticks, time.asMicros ticks = ticks.toNat * 1000000 / time.tickHz.toNat)
    (hticks : Monotone fun n => (time.ticks n).toNat)
    (h : after.Lawful (fun n => (time.ticks n).toNat) UInt64.toNat deadline) :
    (clock.asyncClock time after).Honours since
      (fun n => time.wholeMicros ((time.ticks n).toNat - clock.origin.toNat))
      (fun dur => time.wholeMicros (ceilTicks time.tickHz dur))
      fun timer => time.wholeMicros (deadline timer - clock.origin.toNat) := by
  have hscale : Monotone fun ticks => time.wholeMicros (ticks - clock.origin.toNat) :=
    fun n n' hle => time.wholeMicros_mono (Nat.sub_le_sub_right hle _)
  -- The clock was made before, so the subtraction of its origin does not wrap.
  have hlate (n : ℕ) (hn : since ≤ n) : clock.origin.toNat ≤ (time.ticks n).toNat :=
    (UInt64.le_iff_toNat_le.mp horigin).trans (hticks hn)
  have hread (n : ℕ) (hn : since ≤ n) :
      embassyNow time.asMicros (time.ticks n - clock.origin) =
        .ofNanos (time.wholeMicros ((time.ticks n).toNat - clock.origin.toNat)) := by
    have hsub := UInt64.toNat_sub_of_le _ _ (UInt64.le_iff_toNat_le.mpr (hlate n hn))
    rw [embassyNow, Duration.fromMicros, hdown, hsub, EmbassyTime.wholeMicros]
  refine h.honours hticks hscale (.onTime _ (hscale.comp hticks) hread) time.request
    fun dur n hn => ?_
  -- Rounding the two spans down apart loses no less than rounding their sum.
  have hsum := time.wholeMicros_add_le ((time.ticks n).toNat - clock.origin.toNat)
    (ceilTicks time.tickHz dur)
  rw [← Nat.sub_add_comm (hlate n hn), ← time.toNat_request] at hsum
  rwa [← time.toNat_request]

theorem GlooClock.honours {clock : GlooClock ρ} {timeout : Timers ρ UInt32 Timer}
    {deadline : Timer → ℕ} {since : ℕ} {shown : ℕ → ℕ}
    (hobserves : ∀ n n', n ≤ n' → shown n + (n' - n) ≤ shown n')
    (hreads : Reads clock.now since shown)
    (h : timeout.Lawful id (fun millis => millis.toNat * 1000000) deadline) :
    (clock.asyncClock timeout).Honours since shown (fun dur => min dur.asMillis i32Max * 1000000)
      fun timer => shown (deadline timer) := by
  have hshown : Monotone shown := fun n n' hle => (Nat.le_add_right _ _).trans (hobserves n n' hle)
  refine h.honours monotone_id hshown hreads request fun dur n hn => ?_
  rw [toNat_request]
  have hlater := hobserves n (n + min dur.asMillis i32Max * 1000000) (Nat.le_add_right _ _)
  rwa [Nat.add_sub_cancel_left] at hlater

/-- **Every clock honours the waits that it covers**, once it has been made. -/
theorem RuntimeClock.exists_honours {clock : RuntimeClock ρ Timer} {ceiling : Duration} {since : ℕ}
    (h : clock.Lawful ceiling since) :
    ∃ shown lasts due, clock.asyncClock.Honours since shown lasts due ∧
      ∀ delay, clock.Covers ceiling delay → delay.nanos ≤ lasts delay := by
  cases clock with
  | tokio clock timers =>
    obtain ⟨horigin, deadline, htimers⟩ := h
    exact ⟨_, _, _, htimers.honours_since horigin, fun delay hle => le_min (le_refl _) hle⟩
  | futuresTimer clock timers =>
    obtain ⟨horigin, deadline, htimers⟩ := h
    exact ⟨_, _, _, htimers.honours_since horigin, fun delay hle => le_min (le_refl _) hle⟩
  | embassy clock time after =>
    obtain ⟨horigin, hhz, hdown, hticks, deadline, htimers⟩ := h
    refine ⟨_, _, _, EmbassyClock.honours horigin hdown hticks htimers, fun delay hcovers => ?_⟩
    -- Ticks that round up cover the delay once they are shown in whole microseconds.
    obtain ⟨hup, hbelow⟩ := hcovers
    have hmicros := ((roundsUp_iff time.tickHz delay).mp hup).resolve_left hbelow
    have hle := (ceilMicros_le_iff delay _).mp ((Nat.le_div_iff_mul_le hhz).mpr hmicros)
    rw [EmbassyTime.wholeMicros, Nat.mul_comm _ 1000]
    exact hle
  | gloo clock timeout =>
    obtain ⟨⟨shown, hobserves, hreads⟩, deadline, htimers⟩ := h
    refine ⟨_, _, _, GlooClock.honours hobserves hreads htimers, fun delay hcovers => ?_⟩
    -- A whole number of milliseconds below the ceiling is waited for in full.
    obtain ⟨hwhole, hbelow⟩ := hcovers
    rw [min_eq_left hbelow, Duration.asMillis]
    omega

/-- A configuration on a runtime clock. -/
def AsyncRetry.onRuntime (self : AsyncRetry (Thread (SystemTime × ρ) Empty) Fut Timer R A O)
    (clock : RuntimeClock ρ Timer) : AsyncRetry (Thread (SystemTime × ρ) Empty) Fut Timer R A O :=
  { self with clock := clock.asyncClock }

/-! ## §2 Waits that do not last -/

/-- A wait counts for as long as it lasts, at most. -/
def Event.cutWait (lasts : Duration → ℕ) : Event R A O → Event R A O
  | .wait delay => .wait (min delay (.ofNanos (lasts delay)))
  | ev => ev

theorem Event.isPaced_cutWait (lasts : Duration → ℕ) (ev : Event R A O) :
    (ev.cutWait lasts).isPaced = ev.isPaced := by
  cases ev <;> rfl

/-- A log whose waits last is cut nowhere. -/
theorem map_cutWait {lasts : Duration → ℕ} {log : List (Event R A O)}
    (h : ∀ delay ∈ requested log, delay.nanos ≤ lasts delay) :
    log.map (Event.cutWait lasts) = log := by
  have hsame : ∀ ev ∈ log, ev.cutWait lasts = ev := by
    intro ev hev
    cases ev with
    | wait delay =>
      have hle := h delay (List.mem_filterMap.mpr ⟨.wait delay, hev, rfl⟩)
      exact congrArg Event.wait (min_eq_left (le_min hle delay.nanos_le))
    | _ => rfl
  rw [List.map_congr_left hsame, List.map_id'']
  exact fun ev => rfl

/-! ## §3 One run, while others let time pass -/

/-- The log keeps the pace of what the clock shows, and owes nothing beyond `owed`. -/
structure Clocked (since : ℕ) (shown : ℕ → ℕ) (lasts : Duration → ℕ) (owed : ℕ)
    (t : Traced (Replay (SystemTime × ρ)) R A O) : Prop where
  within : t.world.Within Passes
  since_le : since ≤ t.world.world.1.instant
  paced : KeepsPace (t.log.map (Event.cutWait lasts)) (shown t.world.world.1.instant) owed

/-- The next reading may be taken now. -/
def Awake (since : ℕ) (shown : ℕ → ℕ) (lasts : Duration → ℕ) (_ : Elapsed)
    (t : Traced (Replay (SystemTime × ρ)) R A O) : Prop :=
  Clocked since shown lasts (shown t.world.world.1.instant) t

/-- The next reading may be taken when the timer is ready. -/
def Asleep (since : ℕ) (shown : ℕ → ℕ) (lasts : Duration → ℕ) (due : Timer → ℕ) (_ : Elapsed)
    (timer : Timer) (t : Traced (Replay (SystemTime × ρ)) R A O) : Prop :=
  Clocked since shown lasts (max (shown t.world.world.1.instant) (due timer)) t

section Steps

variable {clock : AsyncClock (Thread (SystemTime × ρ) Empty) Timer} {since owed owed' : ℕ}
  {shown : ℕ → ℕ} {lasts : Duration → ℕ} {due : Timer → ℕ} {r r' : Replay (SystemTime × ρ)}
  {log : List (Event R A O)}

/-- Events that are not paced, while time passes. -/
theorem Clocked.unpaced (h : Clocked since shown lasts owed ⟨r, log⟩) (hshown : Monotone shown)
    (honward : Onward r r') (howed : owed ≤ owed') {evs : List (Event R A O)}
    (hevs : ∀ ev ∈ evs, ev.isPaced = false) :
    Clocked since shown lasts owed' ⟨r', log ++ evs⟩ := by
  obtain ⟨hwithin, hpasses⟩ := honward h.within
  refine ⟨hwithin, h.since_le.trans hpasses.1, ?_⟩
  show KeepsPace ((log ++ evs).map _) _ _
  rw [List.map_append]
  -- What is shown has only grown, and the events neither read the clock nor wait.
  refine (h.paced.mono (hshown hpasses.1) howed).unpaced fun ev hev => ?_
  obtain ⟨ev', hev', rfl⟩ := List.mem_map.mp hev
  rw [Event.isPaced_cutWait]
  exact hevs ev' hev'

/-- A reading when nothing is owed any more. -/
theorem Clocked.now (h : Clocked since shown lasts owed ⟨r, log⟩)
    (hclock : clock.Honours since shown lasts due) (howed : owed ≤ shown r.world.1.instant) :
    let reading := clock.now.alone r
    Clocked since shown lasts (shown reading.2.world.1.instant)
      ⟨reading.2, log ++ [.now reading.1]⟩ := by
  intro reading
  -- The reading is what the clock showed at some instant of the call.
  obtain ⟨n, hreading, hfrom, hto⟩ := hclock.now r h.within h.since_le
  obtain ⟨hwithin, hpasses⟩ := onward_alone hclock.moves_now r h.within
  refine ⟨hwithin, h.since_le.trans hpasses.1, ?_⟩
  show KeepsPace ((log ++ [Event.now reading.1]).map _) _ _
  rw [List.map_append, hreading]
  exact h.paced.now (howed.trans hfrom) hto

/-- A timer is started, and everything after it is owed. -/
theorem Clocked.wait (h : Clocked since shown lasts (shown r.world.1.instant) ⟨r, log⟩)
    (hclock : clock.Honours since shown lasts due) (delay : Duration) :
    let timer := (clock.waitAsync delay).alone r
    Clocked since shown lasts (max (shown timer.2.world.1.instant) (due timer.1))
      ⟨timer.2, log ++ [.wait delay]⟩ := by
  intro timer
  obtain ⟨hwithin, hpasses⟩ := onward_alone (hclock.moves_wait delay) r h.within
  refine ⟨hwithin, h.since_le.trans hpasses.1, ?_⟩
  -- The timer is due no earlier than the time shown plus what it lasts.
  have hstarted := hclock.started delay r h.within h.since_le
  have hlasts : (min delay (.ofNanos (lasts delay))).nanos ≤ lasts delay := by
    rw [Duration.nanos_min]
    exact (min_le_right _ _).trans (min_le_left _ _)
  have hreached := hclock.mono hpasses.1
  show KeepsPace ((log ++ [Event.wait delay]).map _) _ _
  rw [List.map_append]
  -- So the wait, cut to what it lasts, is over by then.
  have hpaced := h.paced.wait (hreached.trans (le_max_left _ _))
    ((Nat.add_le_add_left hlasts _).trans (hstarted.trans (le_max_right _ _)))
  exact hpaced.mono hreached (le_refl _)

end Steps

section Parts

variable {α : Type} {since : ℕ} {shown : ℕ → ℕ} {lasts : Duration → ℕ} {elapsed : Elapsed}

theorem awake_record (hshown : Monotone shown) {ev : Event R A O} (hev : ev.isPaced = false) :
    Moves (Inherits (Awake (ρ := ρ) since shown lasts elapsed)) (record ev) :=
  fun _ h => h.unpaced hshown (refl_of Onward _) (le_refl _) (List.forall_mem_singleton.mpr hev)

theorem awake_onWorld (hshown : Monotone shown) {x : Thread (SystemTime × ρ) Empty α}
    (hx : x.Moves Passes) :
    Moves (Inherits (Awake (R := R) (A := A) (O := O) since shown lasts elapsed))
      (onWorld x.alone) := by
  intro t h
  have hpasses := (onward_alone hx t.world h.within).2
  have hkept := h.unpaced hshown (onward_alone hx t.world) (hshown hpasses.1)
    (List.forall_mem_nil _)
  rwa [List.append_nil] at hkept

theorem awake_logged (hshown : Monotone shown) {event : α → Event R A O}
    {x : Thread (SystemTime × ρ) Empty α} (hx : x.Moves Passes)
    (hevent : ∀ answer, (event answer).isPaced = false) :
    Moves (Inherits (Awake since shown lasts elapsed)) (logged event x.alone) :=
  (awake_onWorld hshown hx).bind fun answer =>
    (awake_record hshown (hevent answer)).bind fun _ => Moves.pure answer

theorem HookSlot.Move.awake {slot : HookSlot (Thread (SystemTime × ρ) Empty) α}
    (h : slot.Move Passes) (hshown : Monotone shown) {event : ℕ → α → Event R A O}
    (hevent : ∀ hook view, (event hook view).isPaced = false) (view : α) :
    Moves (Inherits (Awake since shown lasts elapsed))
      (((slot.into Thread.alone).recorded .traced event).call view) := by
  intro t hawake
  rw [HookSlot.recorded_call]
  have hpasses := (h.onward view t.world hawake.within).2
  exact hawake.unpaced hshown (h.onward view t.world) (hshown hpasses.1)
    (forall_hookEvents fun hook => hevent hook view)

end Parts

theorem isPaced_opPolled (cx : Context) (answer : Poll O) :
    (opPolled cx answer : Event R A O).isPaced = false := by
  cases answer <;> rfl

theorem isPaced_waitPolled (cx : Context) (answer : Poll Unit) :
    (waitPolled cx answer : Event R A O).isPaced = false := by
  cases answer <;> rfl

namespace AsyncRetry

variable {self : AsyncRetry (Thread (SystemTime × ρ) Empty) Fut Timer R A O}
  {clock : AsyncClock (Thread (SystemTime × ρ) Empty) Timer} {since : ℕ} {shown : ℕ → ℕ}
  {lasts : Duration → ℕ} {due : Timer → ℕ}

/-- **Every part keeps the log clocked**: a wait that is requested is owed by its timer, and is
over when the timer is ready. -/
theorem preserves_clocked (h : self.PartsMove Passes)
    (hclock : clock.Honours since shown lasts due) :
    ({ self with clock := clock }.alone.traced).Preserves (Awake since shown lasts)
      (Asleep since shown lasts due) (Asleep since shown lasts due) := by
  have hshown := hclock.mono
  constructor
  case parts =>
    exact fun elapsed =>
      { decide := fun outcome => awake_logged hshown (h.decide outcome) fun _ => rfl
        shouldStop := fun state => awake_logged hshown (h.shouldStop state) fun _ => rfl
        nextWait := fun state => awake_logged hshown (h.nextWait state) fun _ => rfl
        beforeAttempt := fun state => h.beforeAttempt.awake hshown (fun _ _ => rfl) state
        afterAttempt := fun state => h.afterAttempt.awake hshown (fun _ _ => rfl) state
        onExit := fun exit => h.onExit.awake hshown (fun _ _ => rfl) exit }
  case callOp =>
    exact fun elapsed state =>
      (awake_record hshown rfl).bind fun _ => awake_onWorld hshown (h.callOp state)
  case poll =>
    exact fun elapsed future cx =>
      awake_logged hshown (h.poll future cx) fun _ => isPaced_opPolled cx _
  case wakeByRef =>
    exact fun elapsed cx =>
      (awake_record hshown rfl).bind fun _ => awake_onWorld hshown (h.wakeByRef cx)
  case now => exact fun elapsed t hawake => hawake.now hclock (le_refl _)
  case waitAsync => exact fun elapsed delay t hpos hawake => hawake.wait hclock delay
  case pending =>
    rintro elapsed timer timer' cx ⟨r, log⟩ t' hasleep hpoll
    obtain ⟨hanswer, rfl⟩ := Prod.mk.inj hpoll
    have honward := onward_alone (hclock.moves_poll timer cx) r
    -- A timer that is pending is not due any earlier than it was.
    have hlater := hclock.pending timer timer' cx r _ hasleep.within (Prod.ext hanswer rfl)
    exact hasleep.unpaced hshown honward
      (max_le_max (hshown (honward hasleep.within).2.1) hlater)
      (List.forall_mem_singleton.mpr (isPaced_waitPolled cx _))
  case ready =>
    rintro elapsed timer timer' cx ⟨r, log⟩ t' hasleep hpoll
    obtain ⟨hanswer, rfl⟩ := Prod.mk.inj hpoll
    have honward := onward_alone (hclock.moves_poll timer cx) r
    -- A timer is ready only when the clock shows that it is due.
    have hlate := hclock.ready timer timer' cx r _ hasleep.within (Prod.ext hanswer rfl)
    exact hasleep.unpaced hshown honward
      (max_le (hshown (honward hasleep.within).2.1) hlate)
      (List.forall_mem_singleton.mpr (isPaced_waitPolled cx _))
  case resumed => exact fun elapsed timer t hasleep => hasleep

/-- **Polls alone are clocked**, from the baseline on. -/
theorem clocked_drive (h : self.PartsMove Passes) (hclock : clock.Honours since shown lasts due)
    {r : Replay (SystemTime × ρ)} (hr : r.Within Passes) (hsince : since ≤ r.world.1.instant)
    {cxs : ℕ → Context} {fuel : ℕ → ℕ} {j : ℕ} {driven : Option (ℕ × PollResult Fut Timer R A O)}
    {t : Traced (Replay (SystemTime × ρ)) R A O}
    (hdrive : ({ self with clock := clock }.alone.traced).drive cxs fuel j ⟨r, []⟩ = (driven, t)) :
    ∃ owed, Clocked since shown lasts owed t := by
  have hcreated : Clocked since shown lasts (shown r.world.1.instant) (⟨r, []⟩ : Traced _ R A O) :=
    ⟨hr, hsince, .start _ _⟩
  let retry := { self with clock := clock }.alone.traced
  have hpreserves : retry.Preserves (Awake since shown lasts) (Asleep since shown lasts due)
      (Asleep since shown lasts due) := preserves_clocked h hclock
  have hstart : Awake since shown lasts ⟨(retry.clock.now ⟨r, []⟩).1, .zero⟩
      (retry.clock.now ⟨r, []⟩).2 := hcreated.now hclock (le_refl _)
  -- Either the future was never polled, or the parts have kept the log clocked since the baseline.
  rcases hpreserves.drive hstart hdrive with ⟨-, rfl⟩ | ⟨turn, hafter, -⟩
  · exact ⟨_, hcreated⟩
  · have hholds : ∀ state : LoopState Fut Timer, Holds (Awake since shown lasts)
        (Asleep since shown lasts due) state t → ∃ owed, Clocked since shown lasts owed t := by
      rintro ⟨elapsed, phase, attempt, previousDelay, totalWait⟩ hstate
      cases phase <;> exact ⟨_, hstate⟩
    cases turn with
    | again state => exact hholds state hafter
    | done ended =>
      obtain ⟨elapsed, -, hstate⟩ := hafter
      exact hholds _ hstate

end AsyncRetry

/-! ## §4 The guarantee -/

section Threads

variable {ι : Type} [DecidableEq ι] {Fut Timer R A O : ι → Type}
  {retries : (i : ι) →
    AsyncRetry (Thread (SystemTime × ρ) Empty) (Fut i) (Timer i) (R i) (A i) (O i)}
  {clocks : (i : ι) → RuntimeClock ρ (Timer i)} {ceiling : ι → Duration}
  {cxs : ι → ℕ → Context} {fuel : ι → ℕ → ℕ} {j : ι → ℕ}
  {outside : SystemTime × ρ → SystemTime × ρ → Prop} {w₀ : SystemTime × ρ}
  {s : (SystemTime × ρ) × ((i : ι) → List (Event (R i) (A i) (O i)) ×
    Thread (SystemTime × ρ) (Event (R i) (A i) (O i))
      (Option (ℕ × AsyncRetry.PollResult (Fut i) (Timer i) (R i) (A i) (O i))))}

/-- **Futures on runtime clocks.**  Several threads poll a future each, on clocks that were
made before and whose runtimes are lawful, and time passes at any point in between.  What a
future has read up to now never falls, and after each wait has moved on by at least as much;
and with `.timeout(T)` and delays of at least `δ` it has called its operation at most
`⌈T / δ⌉ + 1` times.  This is so until the adapter of its clock shortens a wait, or the clock
has come to `Duration::MAX`. -/
theorem RuntimeClock.concurrent_futures (hparts : ∀ i, (retries i).PartsMove Passes)
    (hclocks : ∀ i, (clocks i).Lawful (ceiling i) w₀.1.instant)
    (hout : ∀ w w', outside w w' → Passes w w')
    (h : Run (fun _ => Thread.Act) outside (w₀, fun i =>
      ([], ((retries i).onRuntime (clocks i)).threaded.drive (cxs i) (fuel i) (j i))) s)
    (i : ι) (hshort : ∀ reading ∈ readings (s.2 i).1, reading ≠ .maxValue)
    (hcovers : ∀ delay ∈ requested (s.2 i).1, (clocks i).Covers (ceiling i) delay) :
    Coherent .start (s.2 i).1 ∧
      ∀ T δ, (retries i).timeout = some T → δ ≠ .zero →
        (∀ state, ((retries i).wait.nextWait state).Answers fun delay => δ ≤ delay) →
        (opStates (s.2 i).1).length ≤ T.nanos ⌈/⌉ δ.nanos + 1 := by
  -- All that the threads do to the world is to let time pass.
  have hmoves (i : ι) : (((retries i).onRuntime (clocks i)).threaded.drive (cxs i) (fuel i)
      (j i)).Moves Passes := by
    obtain ⟨_, _, _, hhonours, -⟩ := RuntimeClock.exists_honours (hclocks i)
    have hparts' : ((retries i).onRuntime (clocks i)).PartsMove Passes := { hparts i with }
    exact hparts'.threaded hhonours.moves_now hhonours.moves_wait hhonours.moves_poll (cxs i)
      (fuel i) (j i)
  obtain ⟨shown, lasts, due, hhonours, hlasts⟩ := RuntimeClock.exists_honours (hclocks i)
  -- So thread `i` has made the calls of polls alone, between which time may have passed.
  obtain ⟨r, t, driven, hpasses, hwithin, hdrive, hbegun, -⟩ :=
    AsyncRetry.drive_alone_of_run h hout i fun k _ => hmoves k
  obtain ⟨owed, hclocked⟩ :=
    AsyncRetry.clocked_drive (hparts i) hhonours hwithin hpasses.1 hdrive
  have hcoherent : Coherent .start (s.2 i).1 := by
    -- The adapter shortens none of these waits, so cutting them changes nothing.
    have hcut := hbegun.map (Event.cutWait lasts)
    rw [map_cutWait fun delay hdelay => hlasts delay (hcovers delay hdelay)] at hcut
    exact hclocked.paced.coherent hcut hshort
  refine ⟨hcoherent, fun T δ hT hpos hδ => ?_⟩
  have hanswers : ∀ state d,
      ((retries i).onRuntime (clocks i)).alone.setting.answers.nextWait state d → δ ≤ d := by
    rintro state d ⟨r', rfl⟩
    exact (hδ state).alone r'
  rw [← opStates_calls]
  exact (AsyncRetry.underway_of_drive hdrive).ops_le_of_front hT hpos hanswers
    (hbegun.filter _) (coherent_calls.mpr hcoherent)

end Threads

/-- A timer that is polled too early parks the thread until it is due, in units of `unit`
nanoseconds. -/
def SystemTime.park (reached : ℕ → ℕ) (unit deadline : ℕ) : Eff SystemTime (Poll Unit × ℕ) :=
  fun time =>
    if deadline ≤ reached time.instant then ((.ready (), deadline), time)
    else ((.pending, deadline), time.wakeUp (deadline * unit))

/-- A runtime with such timers. -/
def Timers.parking (reached : ℕ → ℕ) (unit : ℕ) (lasts : Request → ℕ) : Timers Unit Request ℕ where
  start request := SystemClock.onTime fun time => (reached time.instant + lasts request, time)
  poll deadline _ := SystemClock.onTime (SystemTime.park reached unit deadline)

section Parking

variable {reached : ℕ → ℕ} {unit : ℕ} {lasts : Request → ℕ}

theorem Timers.poll_parking (deadline : ℕ) (cx : Context) (r : Replay (SystemTime × Unit)) :
    ((Timers.parking reached unit lasts).poll deadline cx).alone r =
      if deadline ≤ reached r.world.1.instant then ((.ready (), deadline), r.found r.world)
      else ((.pending, deadline), r.found (r.world.1.wakeUp (deadline * unit), r.world.2)) := by
  refine (SystemClock.onTime_alone (SystemTime.park reached unit deadline) r).trans ?_
  rw [SystemTime.park]
  by_cases hdue : deadline ≤ reached r.world.1.instant
  · rw [if_pos hdue, if_pos hdue]
  · rw [if_neg hdue, if_neg hdue]

theorem Timers.lawful_parking (hreached : Monotone reached) :
    (Timers.parking reached unit lasts).Lawful reached lasts id where
  moves_start _ := .atomic fun w => refl_of Passes w
  moves_poll deadline _ := by
    refine .atomic fun w => ?_
    dsimp only [SystemTime.park]
    by_cases hdue : deadline ≤ reached w.1.instant
    · rw [if_pos hdue]
      exact refl_of Passes w
    · rw [if_neg hdue]
      exact SystemTime.passes_wakeUp w _
  started request r _ := le_refl _
  pending deadline deadline' cx r r' _ h := by
    rw [Timers.poll_parking] at h
    by_cases hdue : deadline ≤ reached r.world.1.instant
    · rw [if_pos hdue] at h
      cases h
    · rw [if_neg hdue] at h
      cases h
      exact le_refl _
  ready deadline deadline' cx r r' hr h := by
    rw [Timers.poll_parking] at h
    by_cases hdue : deadline ≤ reached r.world.1.instant
    · rw [if_pos hdue] at h
      cases h
      exact hdue.trans (hreached (hr.found r.world).2.1)
    · rw [if_neg hdue] at h
      cases h

end Parking

/-- Ticks of a microsecond. -/
def EmbassyTime.micros : EmbassyTime where
  tickHz := 1000000
  asMicros := microsAtMillion
  ticks n := .ofNat (min (n / 1000) (2 ^ 64 - 1))

theorem EmbassyTime.toNat_ticks_micros (n : ℕ) :
    (EmbassyTime.micros.ticks n).toNat = min (n / 1000) (2 ^ 64 - 1) :=
  UInt64.toNat_ofNat_of_lt' (lt_of_le_of_lt (min_le_right _ _) (by decide))

/-- One clock of each kind, made when the process was five milliseconds old. -/
def RuntimeClock.parking : Fin 4 → RuntimeClock Unit ℕ
  | 0 => .tokio ⟨5000000⟩ (.parking id 1 fun dur => min dur.nanos maxNanos)
  | 1 => .futuresTimer ⟨5000000⟩ (.parking id 1 fun dur => min dur.nanos maxNanos)
  | 2 => .embassy ⟨5000⟩ .micros
    (.parking (fun n => (EmbassyTime.micros.ticks n).toNat) 1000 UInt64.toNat)
  | 3 => .gloo (.withNow (SystemClock.onTime fun time => (.ofNanos time.instant, time)))
    (.parking id 1 fun millis => millis.toNat * 1000000)

theorem RuntimeClock.lawful_parking (i : Fin 4) :
    (RuntimeClock.parking i).Lawful .maxValue 5000000 := by
  have hticks : Monotone fun n => (EmbassyTime.micros.ticks n).toNat := by
    intro n n' hle
    have hdiv : n / 1000 ≤ n' / 1000 := Nat.div_le_div_right hle
    dsimp only
    rw [EmbassyTime.toNat_ticks_micros, EmbassyTime.toNat_ticks_micros]
    exact min_le_min_right _ hdiv
  match i with
  | 0 | 1 => exact ⟨le_refl _, id, Timers.lawful_parking monotone_id⟩
  | 2 => exact ⟨by decide, by decide, fun ticks => rfl, hticks, id, Timers.lawful_parking hticks⟩
  | 3 =>
    exact ⟨⟨id, fun n n' hle => (Nat.add_sub_cancel' hle).le,
      .onTime Duration.ofNanos monotone_id fun n _ => rfl⟩, id, Timers.lawful_parking monotone_id⟩

theorem RuntimeClock.covers_parking (i : Fin 4) :
    (RuntimeClock.parking i).Covers .maxValue (.ofNanos 4000000) := by
  match i with
  | 0 | 1 => exact Duration.nanos_le _
  | 2 => exact ⟨.inl (by decide), by unfold AtCeiling; decide⟩
  | 3 => exact ⟨by decide, by decide⟩

/-- A future that is ready at its first poll, which takes three milliseconds, in vain, and that
is called again after four. -/
def AsyncRetry.busyRuntime (timeout : Option Duration) :
    AsyncRetry (Thread (SystemTime × Unit) Empty) Unit ℕ ℕ String (Except String ℕ) where
  op :=
    { callOp := fun _ => pure ()
      poll := fun _ _ =>
        .atomic fun w => ((.ready (.error "busy"), ()), (w.1.wakeUp (w.1.instant + 3000000), w.2)) }
  classifier := DefaultClassifier
  stop := .never
  wait := { nextWait := fun _ => pure (.ofNanos 4000000) }
  clock := (RuntimeClock.parking 0).asyncClock
  hooks := .new
  timeout
  wakeByRef _ := pure ()

theorem AsyncRetry.partsMove_busyRuntime (timeout : Option Duration) :
    (AsyncRetry.busyRuntime timeout).PartsMove Passes where
  callOp _ := trivial
  poll _ _ := .atomic fun w => SystemTime.passes_wakeUp w _
  decide outcome := by
    cases outcome with
    | error e => trivial
    | ok value => trivial
  shouldStop _ := trivial
  nextWait _ := trivial
  wakeByRef _ := trivial
  beforeAttempt := trivial
  afterAttempt := trivial
  onExit := trivial

/-- Four threads that poll such a future each, the one on Embassy's clock with a timeout. -/
def RuntimeClock.busyThreads : (SystemTime × Unit) × (Fin 4 →
    List (Event ℕ String (Except String ℕ)) × Thread (SystemTime × Unit)
      (Event ℕ String (Except String ℕ))
      (Option (ℕ × AsyncRetry.PollResult Unit ℕ ℕ String (Except String ℕ)))) :=
  ((⟨5000000, none, fun _ ha => absurd ha (Option.not_mem_none _)⟩, ()), fun i => ([],
    ((AsyncRetry.busyRuntime (if i = 2 then some (.ofNanos 20000000) else none)).onRuntime
      (RuntimeClock.parking i)).threaded.drive (fun _ => ⟨0⟩) (fun _ => 9) 9))

/-- The four after ninety steps each. -/
def RuntimeClock.busyPlayed :=
  play (fun _ => Thread.advance) RuntimeClock.busyThreads (List.replicate 90 [0, 1, 2, 3]).flatten

/-- Each has heard of the time that the others have taken; the one with a timeout of twenty
milliseconds has called its operation six times at most. -/
theorem RuntimeClock.concurrent_futures_busyRuntime :
    (∀ i, Coherent .start (RuntimeClock.busyPlayed.2 i).1) ∧
      (readings (RuntimeClock.busyPlayed.2 3).1).length = 13 ∧
      (opStates (RuntimeClock.busyPlayed.2 2).1).length ≤ 6 := by
  have hrun : Run (fun _ => Thread.Act) Passes RuntimeClock.busyThreads RuntimeClock.busyPlayed :=
    Run.play (fun _ => Thread.act_advance) .start _
  have hall := RuntimeClock.concurrent_futures (fun _ => AsyncRetry.partsMove_busyRuntime _)
    RuntimeClock.lawful_parking (fun _ _ hpasses => hpasses) hrun
  have hrequested : ∀ i, ∀ delay ∈ requested (RuntimeClock.busyPlayed.2 i).1,
      delay = .ofNanos 4000000 := by
    decide +kernel
  have hcoherent (i : Fin 4) := hall i
    (by revert i; decide +kernel)
    fun delay hdelay => hrequested i delay hdelay ▸ RuntimeClock.covers_parking i
  exact ⟨fun i => (hcoherent i).1, by decide +kernel,
    (hcoherent 2).2 (.ofNanos 20000000) (.ofNanos 4000000) rfl (by decide) fun _ => Nat.le_refl _⟩

end Relentless
