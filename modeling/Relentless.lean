import Relentless.Library.Effect
import Relentless.Library.Relational
import Relentless.Library.Loop
import Relentless.Library.Writes
import Relentless.Library.Words
import Relentless.Library.Cycle
import Relentless.Library.Rounding
import Relentless.Library.Binary64
import Relentless.Library.Binary64Scaled
import Relentless.Library.Labelled
import Relentless.Library.Saturation
import Relentless.Library.Parting
import Relentless.Library.Futures
import Relentless.Library.Interleaving
import Relentless.Library.Parametric
import Relentless.Library.Threads
import Relentless.Library.Isolation
import Relentless.Library.Responses
import Relentless.Library.Streams
import Relentless.Duration
import Relentless.State
import Relentless.Decision
import Relentless.Stop
import Relentless.Stop.Tree
import Relentless.Wait
import Relentless.Wait.Strategies
import Relentless.Wait.Jitter
import Relentless.Wait.JitterHistory
import Relentless.Wait.Draws
import Relentless.Wait.Expr
import Relentless.Wait.Checked
import Relentless.Wait.PlainExpr
import Relentless.Wait.Exponential
import Relentless.Wait.JitterSessions
import Relentless.Clock
import Relentless.Clock.Adapters
import Relentless.Clock.Virtual
import Relentless.Clock.System
import Relentless.Clock.Runtime
import Relentless.Hooks
import Relentless.Engine.Termination
import Relentless.Engine.Elapsed
import Relentless.Engine.Step
import Relentless.Engine.SyncEngine
import Relentless.Engine.AsyncEngine
import Relentless.Engine.Phases
import Relentless.Engine.DebugBuild
import Relentless.Engine.AsyncTwin
import Relentless.Engine.Coupled
import Relentless.Engine.Watched
import Relentless.Engine.Parametric
import Relentless.Engine.Sleeps
import Relentless.Engine.Builder
import Relentless.Policy
import Relentless.Trace.Event
import Relentless.Trace.Grammar
import Relentless.Trace.Readings
import Relentless.Trace.SyncConformance
import Relentless.Trace.AsyncConformance
import Relentless.Trace.Consultations
import Relentless.Trace.Polls
import Relentless.Trace.Coherence
import Relentless.Trace.Saturating
import Relentless.Trace.DebugConformance
import Relentless.Trace.Simulation
import Relentless.Trace.Recorder
import Relentless.Trace.Concurrent
import Relentless.Guarantees.SyncAsync
import Relentless.Guarantees.CallLog
import Relentless.Guarantees.ExactGrammar
import Relentless.Guarantees.OneStory
import Relentless.Guarantees.Deadline
import Relentless.Guarantees.Watermark
import Relentless.Guarantees.TimeoutStop
import Relentless.Guarantees.Nonces
import Relentless.Guarantees.SharedStream
import Relentless.Guarantees.Uniformity
import Relentless.Guarantees.ClockAdapters
import Relentless.Guarantees.WaitBounds
import Relentless.Guarantees.ReachableDelays
import Relentless.Guarantees.Seeding
import Relentless.Guarantees.DecorrelatedRun
import Relentless.Guarantees.WakeUps
import Relentless.Guarantees.RunLength
import Relentless.Guarantees.TimeoutBound
import Relentless.Guarantees.LastOutcome
import Relentless.Guarantees.LooserTimeout
import Relentless.Guarantees.BuilderChains
import Relentless.Guarantees.ExactWaits
import Relentless.Guarantees.StopTrees
import Relentless.Guarantees.VirtualSessions
import Relentless.Guarantees.VirtualTime
import Relentless.Guarantees.AsyncContract
import Relentless.Guarantees.ConcurrentRuns
import Relentless.Guarantees.ConcurrentDraws
import Relentless.Guarantees.VirtualTasks
import Relentless.Guarantees.TaskPool
import Relentless.Guarantees.SystemTime
import Relentless.Guarantees.RuntimeClocks
import Relentless.Guarantees.IsolatedRuns
import Relentless.Guarantees.Observers
import Relentless.Guarantees.BackoffPlan
import Relentless.Guarantees.Cancellation
import Relentless.Guarantees.Reports
