import Relentless.Clock
import Relentless.Library.Threads

/-!
# The System Clock

`SystemClock`, as the threads of one process use it: `Instant::now` never goes back, the
first reading of all sets the process-global anchor, and a thread that sleeps goes on at some
instant when it has slept long enough.

- `SystemTime` — the instant it is, and the anchor
- `SystemClock.now`, `SystemClock.wait` — the clock, in atomic steps
- `Passes` — what all that happens in a process can do to its time
- `SystemClock.now_alone`, `SystemClock.wait_alone` — what a thread sees of it
-/

namespace Relentless

variable {ρ α : Type}

/-! ## §1 The clock -/

/-- The current `Instant`, and the `ANCHOR`, which some earlier instant has been. -/
structure SystemTime where
  instant : ℕ
  anchor : Option ℕ
  anchored : ∀ a ∈ anchor, a ≤ instant

namespace SystemTime

/-- It is not before `deadline`. -/
def wakeUp (self : SystemTime) (deadline : ℕ) : SystemTime where
  instant := max self.instant deadline
  anchor := self.anchor
  anchored a ha := (self.anchored a ha).trans (le_max_left _ _)

/-- `ANCHOR.get_or_init(Instant::now)`. -/
def getOrInit (self : SystemTime) : ℕ × SystemTime :=
  match self.anchor with
  | some anchor => (anchor, self)
  | none => (self.instant,
    { instant := self.instant
      anchor := some self.instant
      anchored := fun _ ha => (Option.some.inj ha).ge })

/-- `Instant::elapsed` of an earlier instant. -/
def elapsed (self : SystemTime) (anchor : ℕ) : Duration := .ofNanos (self.instant - anchor)

/-- The nanoseconds since the anchor, of which there are none before it is set. -/
def sinceAnchor (self : SystemTime) : ℕ :=
  match self.anchor with
  | some anchor => self.instant - anchor
  | none => 0

theorem sinceAnchor_eq {self : SystemTime} {anchor : ℕ} (h : anchor ∈ self.anchor) :
    self.sinceAnchor + anchor = self.instant := by
  have hle := self.anchored anchor h
  rw [sinceAnchor, Option.mem_def.mp h]
  exact Nat.sub_add_cancel hle

end SystemTime

namespace SystemClock

/-- A step that reads or changes the time of the process. -/
def onTime (x : Eff SystemTime α) : Thread (SystemTime × ρ) Empty α :=
  .atomic fun w => ((x w.1).1, ((x w.1).2, w.2))

/-- `SystemClock::now`. -/
def now : Thread (SystemTime × ρ) Empty Duration := do
  let anchor ← onTime SystemTime.getOrInit
  onTime fun time => (time.elapsed anchor, time)

/-- `SystemClock::wait`: `std::thread::sleep` notes when it starts, and comes back when the
time has passed. -/
def wait (dur : Duration) : Thread (SystemTime × ρ) Empty Unit := do
  let start ← onTime fun time => (time.instant, time)
  onTime fun time => ((), time.wakeUp (start + dur.nanos))

/-- `SystemClock` as a `SyncClock`. -/
def syncClock : SyncClock (Thread (SystemTime × ρ) Empty) where
  now := now
  wait := wait

end SystemClock

/-! ## §2 What happens to the time -/

/-- Time passes, or does not, and an anchor that is set stays. -/
def Passes (w w' : SystemTime × ρ) : Prop :=
  w.1.instant ≤ w'.1.instant ∧ ∀ a ∈ w.1.anchor, a ∈ w'.1.anchor

instance : IsPreorder (SystemTime × ρ) Passes where
  refl _ := ⟨le_refl _, fun _ ha => ha⟩
  trans _ _ _ h h' := ⟨h.1.trans h'.1, fun a ha => h'.2 a (h.2 a ha)⟩

theorem Passes.sinceAnchor_le {w w' : SystemTime × ρ} (h : Passes w w') :
    w.1.sinceAnchor ≤ w'.1.sinceAnchor := by
  cases hanchor : w.1.anchor with
  | none =>
    have hzero : w.1.sinceAnchor = 0 := by rw [SystemTime.sinceAnchor, hanchor]
    exact hzero.le.trans (Nat.zero_le _)
  | some a =>
    have hthen := SystemTime.sinceAnchor_eq (Option.mem_def.mpr hanchor)
    have hnow := SystemTime.sinceAnchor_eq (h.2 a hanchor)
    have hle := h.1
    omega

theorem SystemTime.passes_getOrInit (w : SystemTime × ρ) :
    Passes w (w.1.getOrInit.2, w.2) ∧ w.1.getOrInit.1 ∈ w.1.getOrInit.2.anchor := by
  obtain ⟨⟨instant, anchor, hanchored⟩, rest⟩ := w
  cases anchor with
  | none => exact ⟨⟨le_refl _, fun _ ha => absurd ha (Option.not_mem_none _)⟩, rfl⟩
  | some a => exact ⟨refl_of Passes _, rfl⟩

theorem SystemTime.passes_wakeUp (w : SystemTime × ρ) (deadline : ℕ) :
    Passes w (w.1.wakeUp deadline, w.2) :=
  ⟨le_max_left _ _, fun _ ha => ha⟩

namespace SystemClock

open Thread (Replay)

theorem moves_now : (now : Thread (SystemTime × ρ) Empty Duration).Moves Passes := by
  refine Thread.Moves.bind (.atomic fun w => (SystemTime.passes_getOrInit w).1) fun anchor => ?_
  exact .atomic fun w => refl_of Passes w

theorem moves_wait (dur : Duration) :
    (wait dur : Thread (SystemTime × ρ) Empty Unit).Moves Passes := by
  refine Thread.Moves.bind (.atomic fun w => refl_of Passes w) fun start => ?_
  exact .atomic fun w => SystemTime.passes_wakeUp w _

/-! ## §3 What a thread sees of it -/

theorem onTime_alone (x : Eff SystemTime α) (r : Replay (SystemTime × ρ)) :
    (onTime x).alone r = ((x r.world.1).1, r.found ((x r.world.1).2, r.world.2)) := rfl

variable {r : Replay (SystemTime × ρ)}

/-- A reading is the time since the anchor at some instant while it is taken, up to the end
of what a `Duration` can say. -/
theorem now_alone (hr : r.Within Passes) :
    ∃ n, (now.alone r).1 = .ofNanos n ∧ r.world.1.sinceAnchor ≤ n ∧
      n ≤ (now.alone r).2.world.1.sinceAnchor ∧ (now.alone r).2.world.1.anchor.isSome := by
  -- Others act after the anchor is there, and after the reading.
  obtain ⟨hinit, hanchor⟩ := SystemTime.passes_getOrInit r.world
  obtain ⟨hwithin, hothers⟩ := hr.found (r.world.1.getOrInit.2, r.world.2)
  obtain ⟨-, hothers'⟩ := hwithin.found (r.found (r.world.1.getOrInit.2, r.world.2)).world
  have hanchor' := hothers.2 _ hanchor
  refine ⟨(r.found (r.world.1.getOrInit.2, r.world.2)).world.1.sinceAnchor, ?_, ?_,
    hothers'.sinceAnchor_le, ?_⟩
  · show Duration.ofNanos _ = _
    rw [← SystemTime.sinceAnchor_eq hanchor', Nat.add_sub_cancel]
  · exact (trans_of Passes hinit hothers).sinceAnchor_le
  · exact Option.isSome_iff_exists.mpr ⟨_, hothers'.2 _ hanchor'⟩

/-- After a wait that much time has passed, when the anchor was set before. -/
theorem wait_alone (hr : r.Within Passes) (hset : r.world.1.anchor.isSome) (dur : Duration) :
    r.world.1.sinceAnchor + dur.nanos ≤ ((wait dur).alone r).2.world.1.sinceAnchor := by
  obtain ⟨a, ha⟩ := Option.isSome_iff_exists.mp hset
  obtain ⟨hwithin, hothers⟩ := hr.found r.world
  let woken := (r.found r.world).world.1.wakeUp (r.world.1.instant + dur.nanos)
  obtain ⟨-, hothers'⟩ := hwithin.found (woken, (r.found r.world).world.2)
  have hslept : r.world.1.instant + dur.nanos ≤ woken.instant := le_max_right _ _
  have hbefore := SystemTime.sinceAnchor_eq (Option.mem_def.mpr ha)
  have hawake : woken.sinceAnchor + a = woken.instant :=
    SystemTime.sinceAnchor_eq (hothers.2 a ha)
  have hafter : woken.sinceAnchor ≤ ((wait dur).alone r).2.world.1.sinceAnchor :=
    hothers'.sinceAnchor_le
  omega

end SystemClock

end Relentless
