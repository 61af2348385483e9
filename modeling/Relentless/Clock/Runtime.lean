import Relentless.Clock.Adapters
import Relentless.Clock.System

/-!
# Clocks of Async Runtimes

`TokioClock`, `FuturesTimerClock`, `EmbassyClock` and `GlooClock`: what they read, and how they
wait through the timers of a runtime.  The timers are no part of this crate; what it relies on
is that a timer is not ready before its time.

- `Timers`, `Timers.Lawful` — the timers of a runtime, and what their documentation says
- `TokioClock`, `FuturesTimerClock`, `EmbassyClock`, `GlooClock` — the clocks
- `AsyncClock.Honours` — a clock that shows the time of its waits pass
- `Timers.Lawful.honours` — lawful timers, and a clock that shows how far they have come
-/

namespace Relentless

open Thread (Replay)

variable {ρ Request Timer : Type}

/-! ## §1 Timers -/

/-- The timers of a runtime: how one is started, and how it is polled. -/
structure Timers (ρ Request Timer : Type) where
  start : Request → Thread (SystemTime × ρ) Empty Timer
  poll : Timer → Context → Thread (SystemTime × ρ) Empty (Poll Unit × Timer)

/-- At any instant the runtime has `reached` some point; a timer is not ready before it has come
on by what `lasts` says of the request, whatever happens meanwhile. -/
structure Timers.Lawful (timers : Timers ρ Request Timer) (reached : ℕ → ℕ)
    (lasts : Request → ℕ) (deadline : Timer → ℕ) : Prop where
  moves_start : ∀ request, (timers.start request).Moves Passes
  moves_poll : ∀ timer cx, (timers.poll timer cx).Moves Passes
  started : ∀ request (r : Replay (SystemTime × ρ)), r.Within Passes →
    reached r.world.1.instant + lasts request ≤ deadline ((timers.start request).alone r).1
  pending : ∀ timer timer' cx (r r' : Replay (SystemTime × ρ)), r.Within Passes →
    (timers.poll timer cx).alone r = ((.pending, timer'), r') → deadline timer ≤ deadline timer'
  ready : ∀ timer timer' cx (r r' : Replay (SystemTime × ρ)), r.Within Passes →
    (timers.poll timer cx).alone r = ((.ready (), timer'), r') →
      deadline timer ≤ reached r'.world.1.instant

/-! ## §2 The clocks -/

/-- `TokioClock`. -/
structure TokioClock where
  origin : ℕ

/-- `TokioClock::new`. -/
def TokioClock.new : Thread (SystemTime × ρ) Empty TokioClock :=
  SystemClock.onTime fun time => (⟨time.instant⟩, time)

/-- `TokioClock` as an `AsyncClock`, which waits through `tokio::time::sleep`. -/
def TokioClock.asyncClock (self : TokioClock) (sleep : Timers ρ Duration Timer) :
    AsyncClock (Thread (SystemTime × ρ) Empty) Timer where
  now := SystemClock.onTime fun time => (time.elapsed self.origin, time)
  waitAsync := sleep.start
  pollWait := sleep.poll

/-- `FuturesTimerClock`. -/
structure FuturesTimerClock where
  origin : ℕ

/-- `FuturesTimerClock::new`. -/
def FuturesTimerClock.new : Thread (SystemTime × ρ) Empty FuturesTimerClock :=
  SystemClock.onTime fun time => (⟨time.instant⟩, time)

/-- `FuturesTimerClock` as an `AsyncClock`, which waits through `futures_timer::Delay::new`. -/
def FuturesTimerClock.asyncClock (self : FuturesTimerClock) (delay : Timers ρ Duration Timer) :
    AsyncClock (Thread (SystemTime × ρ) Empty) Timer where
  now := SystemClock.onTime fun time => (time.elapsed self.origin, time)
  waitAsync := delay.start
  pollWait := delay.poll

/-- `embassy_time`: `TICK_HZ`, `Duration::as_micros`, and the ticks that its driver counts. -/
structure EmbassyTime where
  tickHz : UInt64
  asMicros : UInt64 → ℕ
  ticks : ℕ → UInt64

/-- `EmbassyClock`. -/
structure EmbassyClock where
  origin : UInt64

/-- `EmbassyClock::new`. -/
def EmbassyClock.new (embassy : EmbassyTime) : Thread (SystemTime × ρ) Empty EmbassyClock :=
  SystemClock.onTime fun time => (⟨embassy.ticks time.instant⟩, time)

/-- The argument of `Timer::after`. -/
def EmbassyTime.request (self : EmbassyTime) (dur : Duration) : UInt64 :=
  (toEmbassyDuration self.tickHz dur).get
    (Option.isSome_of_eq_some (toEmbassyDuration_eq self.tickHz dur))

/-- `EmbassyClock` as an `AsyncClock`, which waits through `embassy_time::Timer::after`. -/
def EmbassyClock.asyncClock (self : EmbassyClock) (embassy : EmbassyTime)
    (after : Timers ρ UInt64 Timer) : AsyncClock (Thread (SystemTime × ρ) Empty) Timer where
  now := SystemClock.onTime fun time =>
    (embassyNow embassy.asMicros (embassy.ticks time.instant - self.origin), time)
  waitAsync dur := after.start (embassy.request dur)
  pollWait := after.poll

/-- `GlooClock`, with a supplied source of readings. -/
structure GlooClock (ρ : Type) where
  now : Thread (SystemTime × ρ) Empty Duration

/-- `GlooClock::with_now`. -/
def GlooClock.withNow (now : Thread (SystemTime × ρ) Empty Duration) : GlooClock ρ where
  now

/-- The argument of `TimeoutFuture::new`. -/
def GlooClock.request (dur : Duration) : UInt32 :=
  (glooMillis dur).get (Option.isSome_of_eq_some (glooMillis_eq dur))

/-- `GlooClock` as an `AsyncClock`, which waits through `TimeoutFuture::new`. -/
def GlooClock.asyncClock (self : GlooClock ρ) (timeout : Timers ρ UInt32 Timer) :
    AsyncClock (Thread (SystemTime × ρ) Empty) Timer where
  now := self.now
  waitAsync dur := timeout.start (request dur)
  pollWait := timeout.poll

theorem EmbassyTime.toNat_request (self : EmbassyTime) (dur : Duration) :
    (self.request dur).toNat = ceilTicks self.tickHz dur := by
  simp only [request, toEmbassyDuration_eq, Option.get_some]
  exact UInt64.toNat_ofNat_of_lt' (ceilTicks_lt self.tickHz dur)

theorem GlooClock.toNat_request (dur : Duration) :
    (request dur).toNat = min dur.asMillis i32Max := by
  simp only [request, glooMillis_eq, Option.get_some]
  refine UInt32.toNat_ofNat_of_lt' (lt_of_le_of_lt (min_le_right _ _) ?_)
  decide

/-! ## §3 Clocks that show their waits pass -/

/-- From the instant `since` on, a reading is how far the clock is `shown` to have come while it
is taken; and a wait is over when the clock shows as much more as `lasts` says of it. -/
structure AsyncClock.Honours (clock : AsyncClock (Thread (SystemTime × ρ) Empty) Timer)
    (since : ℕ) (shown : ℕ → ℕ) (lasts : Duration → ℕ) (due : Timer → ℕ) : Prop where
  moves_now : clock.now.Moves Passes
  moves_wait : ∀ dur, (clock.waitAsync dur).Moves Passes
  moves_poll : ∀ timer cx, (clock.pollWait timer cx).Moves Passes
  mono : Monotone shown
  now : ∀ r : Replay (SystemTime × ρ), r.Within Passes → since ≤ r.world.1.instant →
    ∃ n, (clock.now.alone r).1 = .ofNanos n ∧ shown r.world.1.instant ≤ n ∧
      n ≤ shown (clock.now.alone r).2.world.1.instant
  started : ∀ dur (r : Replay (SystemTime × ρ)), r.Within Passes → since ≤ r.world.1.instant →
    shown r.world.1.instant + lasts dur ≤ due ((clock.waitAsync dur).alone r).1
  pending : ∀ timer timer' cx (r r' : Replay (SystemTime × ρ)), r.Within Passes →
    (clock.pollWait timer cx).alone r = ((.pending, timer'), r') → due timer ≤ due timer'
  ready : ∀ timer timer' cx (r r' : Replay (SystemTime × ρ)), r.Within Passes →
    (clock.pollWait timer cx).alone r = ((.ready (), timer'), r') →
      due timer ≤ shown r'.world.1.instant

/-- What is asked of a source of readings: it is at some point of a scale while it is read. -/
structure Reads (now : Thread (SystemTime × ρ) Empty Duration) (since : ℕ) (shown : ℕ → ℕ) :
    Prop where
  moves : now.Moves Passes
  reading : ∀ r : Replay (SystemTime × ρ), r.Within Passes → since ≤ r.world.1.instant →
    ∃ n, (now.alone r).1 = .ofNanos n ∧ shown r.world.1.instant ≤ n ∧
      n ≤ shown (now.alone r).2.world.1.instant

/-- A reading in one step. -/
theorem Reads.onTime (read : ℕ → Duration) {since : ℕ} {shown : ℕ → ℕ} (hmono : Monotone shown)
    (hread : ∀ n, since ≤ n → read n = .ofNanos (shown n)) :
    Reads (ρ := ρ) (SystemClock.onTime fun time => (read time.instant, time)) since shown where
  moves := .atomic fun w => refl_of Passes w
  reading r hr hsince := by
    have hothers : Passes r.world (r.found r.world).world := (hr.found r.world).2
    exact ⟨_, hread _ hsince, le_refl _, hmono hothers.1⟩

/-- **Lawful timers make a clock that honours its waits**, if it shows how far the runtime has
come, on a scale on which a request covers the wait that it is made for. -/
theorem Timers.Lawful.honours {timers : Timers ρ Request Timer} {reached : ℕ → ℕ}
    {requested : Request → ℕ} {deadline : Timer → ℕ}
    (h : timers.Lawful reached requested deadline) (hreached : Monotone reached) {scale : ℕ → ℕ}
    (hscale : Monotone scale) {now : Thread (SystemTime × ρ) Empty Duration} {since : ℕ}
    (hnow : Reads now since fun n => scale (reached n)) (request : Duration → Request)
    {lasts : Duration → ℕ} (hcovers : ∀ dur n, since ≤ n →
      scale (reached n) + lasts dur ≤ scale (reached n + requested (request dur))) :
    AsyncClock.Honours
      { now := now, waitAsync := fun dur => timers.start (request dur), pollWait := timers.poll }
      since (fun n => scale (reached n)) lasts fun timer => scale (deadline timer) where
  moves_now := hnow.moves
  moves_wait dur := h.moves_start (request dur)
  moves_poll := h.moves_poll
  mono := hscale.comp hreached
  now := hnow.reading
  started dur r hr hsince :=
    (hcovers dur _ hsince).trans (hscale (h.started (request dur) r hr))
  pending timer timer' cx r r' hr hpoll := hscale (h.pending timer timer' cx r r' hr hpoll)
  ready timer timer' cx r r' hr hpoll := hscale (h.ready timer timer' cx r r' hr hpoll)

end Relentless
