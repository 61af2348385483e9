import Relentless.State

/-!
# Clocks and Futures

The clock traits the engines read and wait through, and futures as the async
engine sees them: a value that is polled with a context and answers `Pending` or
`Ready`.  A future is used only through its `poll`, so its type is a parameter.
-/

namespace Relentless

/-- `Poll`. -/
inductive Poll (α : Type) where
  | pending
  | ready (value : α)
  deriving DecidableEq

/-- `Context`: the waker a poll is made with, by its identity. -/
structure Context where
  waker : ℕ
  deriving DecidableEq

/-- `Clock`. -/
structure Clock (m : Type → Type) where
  now : m Duration

/-- `SyncClock`: a clock with a blocking wait. -/
structure SyncClock (m : Type → Type) extends Clock m where
  wait : Duration → m Unit

/-- `AsyncClock`: a clock whose wait is a future of type `WaitFut`. -/
structure AsyncClock (m : Type → Type) (WaitFut : Type) extends Clock m where
  waitAsync : Duration → m WaitFut
  pollWait : WaitFut → Context → m (Poll Unit × WaitFut)

end Relentless
