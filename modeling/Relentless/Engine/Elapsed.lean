import Relentless.Clock

/-!
# Elapsed-Time Accounting

`Elapsed` is shared by the two drivers: elapsed time since execution started,
held to a non-decreasing sequence by retaining the highest reading.
-/

namespace Relentless

/-- `Elapsed`. -/
structure Elapsed where
  origin : Duration
  highest : Duration
  deriving DecidableEq

namespace Elapsed

section Code

variable {m : Type → Type} [Monad m] [Build m]

/-- `Elapsed::start`. -/
def start (clock : Clock m) : m Elapsed := do
  return { origin := ← clock.now, highest := .zero }

/-- `Elapsed::read`: the elapsed time, and the watermark it leaves behind. -/
def read (self : Elapsed) (clock : Clock m) : m (Duration × Elapsed) := do
  let seen := (← clock.now).saturatingSub self.origin
  debugAssert (decide (self.highest ≤ seen)) .clockWentBackwards
  let highest := max self.highest seen
  return (highest, { self with highest })

end Code

/-- The watermark after a clock reading. -/
def observe (self : Elapsed) (reading : Duration) : Elapsed :=
  { self with highest := max self.highest (reading.saturatingSub self.origin) }

@[simp] theorem observe_origin (e : Elapsed) (r : Duration) :
    (e.observe r).origin = e.origin := rfl

/-- In a release build a reading never fails and only moves the watermark. -/
@[simp] theorem read_release {σ : Type} (e : Elapsed) (clock : Clock (Eff σ)) (w : σ) :
    e.read clock w =
      (((e.observe (clock.now w).1).highest, e.observe (clock.now w).1), (clock.now w).2) := rfl

end Elapsed

end Relentless
