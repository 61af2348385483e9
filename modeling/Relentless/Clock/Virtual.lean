import Relentless.Clock

/-!
# The Virtual Clock

`VirtualClock`, the deterministic clock whose waits advance virtual time by exactly the
requested amount, and its async wait future, which does so on its first poll.
-/

namespace Relentless

/-- `VirtualClock`: the current virtual time, and the record of requested waits. -/
structure VirtualClock where
  now : Duration
  waits : List Duration
  deriving DecidableEq

/-- `VirtualWait`, without its borrow of the clock. -/
structure VirtualWait where
  dur : Duration
  advanced : Bool
  deriving DecidableEq

namespace VirtualClock

/-- `VirtualClock::new`. -/
def new : VirtualClock := { now := .zero, waits := [] }

/-- `VirtualClock::advance`. -/
def advance (self : VirtualClock) (dur : Duration) : VirtualClock :=
  { self with now := self.now.saturatingAdd dur }

/-- `VirtualClock::record_wait`. -/
def recordWait (self : VirtualClock) (dur : Duration) : VirtualClock :=
  let self := self.advance dur
  { self with waits := self.waits ++ [dur] }

/-- `wait_async` of a shared borrow. -/
def waitAsync (_self : VirtualClock) (dur : Duration) : VirtualWait :=
  { dur, advanced := false }

@[simp] theorem waits_advance (clock : VirtualClock) (dur : Duration) :
    (clock.advance dur).waits = clock.waits := rfl

@[simp] theorem now_recordWait (clock : VirtualClock) (dur : Duration) :
    (clock.recordWait dur).now = (clock.advance dur).now := rfl

@[simp] theorem waits_recordWait (clock : VirtualClock) (dur : Duration) :
    (clock.recordWait dur).waits = clock.waits ++ [dur] := rfl

/-- Virtual time never decreases. -/
theorem now_le_advance (clock : VirtualClock) (dur : Duration) :
    clock.now ≤ (clock.advance dur).now := by
  show clock.now.nanos ≤ min (clock.now.nanos + dur.nanos) maxNanos
  exact le_min (Nat.le_add_right _ _) clock.now.nanos_le

/-- Against the exact sum, only the end of it is cut off. -/
theorem now_advance_of_eq {clock : VirtualClock} {n : ℕ} (h : clock.now = .ofNanos n)
    (dur : Duration) : (clock.advance dur).now = .ofNanos (n + dur.nanos) := by
  show clock.now.saturatingAdd dur = _
  rw [h, Duration.ofNanos_saturatingAdd]

/-- Advancing again and again records no wait, and adds up. -/
theorem waits_foldl_advance (clock : VirtualClock) (durs : List Duration) :
    (durs.foldl advance clock).waits = clock.waits := by
  induction durs generalizing clock with
  | nil => rfl
  | cons dur durs ih => rw [List.foldl_cons, ih, waits_advance]

theorem now_foldl_advance {clock : VirtualClock} {n : ℕ} (h : clock.now = .ofNanos n)
    (durs : List Duration) :
    (durs.foldl advance clock).now = .ofNanos (n + (durs.map Duration.nanos).sum) := by
  induction durs generalizing clock n with
  | nil => exact h
  | cons dur durs ih =>
    rw [List.foldl_cons, ih (now_advance_of_eq h dur), List.map_cons, List.sum_cons,
      Nat.add_assoc]

/-- `VirtualClock` as a `SyncClock`. -/
def syncClock : SyncClock (Eff VirtualClock) where
  now self := (self.now, self)
  wait dur self := ((), self.recordWait dur)

end VirtualClock

/-- `VirtualWait::poll`. -/
def VirtualWait.poll (self : VirtualWait) (_cx : Context) :
    Eff VirtualClock (Poll Unit × VirtualWait) := fun clock =>
  if !self.advanced then
    ((.ready (), { self with advanced := true }), clock.recordWait self.dur)
  else
    ((.ready (), self), clock)

/-- `&VirtualClock` as an `AsyncClock`. -/
def VirtualClock.asyncClock : AsyncClock (Eff VirtualClock) VirtualWait where
  now self := (self.now, self)
  waitAsync dur self := (self.waitAsync dur, self)
  pollWait := VirtualWait.poll

namespace VirtualWait

/-- The first poll advances time, and resolves. -/
theorem poll_first (dur : Duration) (cx : Context) (clock : VirtualClock) :
    (⟨dur, false⟩ : VirtualWait).poll cx clock =
      ((.ready (), ⟨dur, true⟩), clock.recordWait dur) := rfl

/-- Another poll resolves again, and changes nothing. -/
theorem poll_again (dur : Duration) (cx : Context) (clock : VirtualClock) :
    (⟨dur, true⟩ : VirtualWait).poll cx clock = ((.ready (), ⟨dur, true⟩), clock) := rfl

end VirtualWait

end Relentless
