import Relentless.Guarantees.SyncAsync
import Relentless.Trace.Concurrent

/-!
# Twins That Share Nothing

Runs of both engines whose operations, clocks, strategies and hooks work on parts of the world
of their own.  The crate keeps nothing between its calls that such runs could meet in, so each
of them does what it does on its own; and so a sync run and a future of a twin of it agree,
whatever else goes on.

- `Retry.threaded_onPart`, `AsyncRetry.threaded_onPart` — runs on one part of the world
- `Retry.noted_threaded`, `AsyncRetry.noted_threaded` — runs from their start to their end
- `EngineRun.whole_of_run` — runs of both engines, in any order of their steps
- `TwinRuns` — a sync run, and a future of a twin of it
- `concurrent_twins` — the guarantee
-/

namespace Relentless

open StateLoop
open Interleaving (Run play)

variable {ι τ : Type} {σ : ι → Type} {i : ι} {R A O Fut WaitFut : Type}

/-! ## §1 Runs on one part of the world -/

/-- A thread, and the same one on part `i` of the world, as a relation for all code. -/
def onPartRel [DecidableEq ι] {E : Type} (i : ι) :
    MonadRel (Thread (σ i) E) (Thread ((i : ι) → σ i) E) where
  rel x y := y = x.onPart i
  pure _ := rfl
  bind hx hf := by
    obtain rfl := hx
    rw [Thread.onPart_bind]
    exact congrArg _ (funext hf)

theorem Recorder.agree_onPart [DecidableEq ι] : Recorder.Agree (onPartRel i) (Thread.onPart i)
    (Recorder.thread (σ := σ i) (R := R) (A := A) (O := O)) Recorder.thread where
  debugAssert _ _ := rfl
  lift x := Thread.onPart_silent x
  record _ := rfl

theorem Retry.threaded_onPart [DecidableEq ι] (self : Retry (Thread (σ i) Empty) R A O) (n : ℕ) :
    (self.into (Thread.onPart i)).threaded.runFor n = (self.threaded.runFor n).onPart i :=
  (self.related_recorded Recorder.agree_onPart).runFor n

theorem AsyncRetry.threaded_onPart [DecidableEq ι]
    (self : AsyncRetry (Thread (σ i) Empty) Fut WaitFut R A O) (cxs : ℕ → Context)
    (fuel : ℕ → ℕ) (j : ℕ) : (self.into (Thread.onPart i)).threaded.drive cxs fuel j =
      (self.threaded.drive cxs fuel j).onPart i :=
  (self.related_recorded Recorder.agree_onPart).drive cxs fuel j

/-! ## §2 Runs from their start to their end -/

/-- A thread, and a computation on a traced world that does what the whole thread does. -/
def notedRel : MonadRel (Thread τ (Event R A O)) (Eff (Traced τ R A O)) where
  rel x y := ∀ w log, x.noted (w, log) =
    ((y ⟨w, log⟩).1, ((y ⟨w, log⟩).2.world, (y ⟨w, log⟩).2.log))
  pure _ _ _ := rfl
  bind hx hf w log := by
    rw [Thread.noted_bind, Eff.bind_apply, hx w log]
    exact hf _ _ _

theorem Recorder.agree_noted : Recorder.Agree (notedRel (τ := τ)) Thread.whole
    (Recorder.thread (R := R) (A := A) (O := O)) Recorder.traced where
  debugAssert _ _ _ _ := rfl
  lift x w log := Thread.noted_silent x w log
  record _ _ _ := rfl

theorem Retry.noted_threaded (self : Retry (Thread τ Empty) R A O) (n : ℕ) (w : τ) :
    (self.threaded.runFor n).noted (w, []) =
      (((self.into Thread.whole).traced.runFor n ⟨w, []⟩).1,
        (((self.into Thread.whole).traced.runFor n ⟨w, []⟩).2.world,
          ((self.into Thread.whole).traced.runFor n ⟨w, []⟩).2.log)) :=
  (self.related_recorded Recorder.agree_noted).runFor n w []

theorem AsyncRetry.noted_threaded (self : AsyncRetry (Thread τ Empty) Fut WaitFut R A O)
    (cxs : ℕ → Context) (fuel : ℕ → ℕ) (j : ℕ) (w : τ) :
    (self.threaded.drive cxs fuel j).noted (w, []) =
      (((self.into Thread.whole).traced.drive cxs fuel j ⟨w, []⟩).1,
        (((self.into Thread.whole).traced.drive cxs fuel j ⟨w, []⟩).2.world,
          ((self.into Thread.whole).traced.drive cxs fuel j ⟨w, []⟩).2.log)) :=
  (self.related_recorded Recorder.agree_noted).drive cxs fuel j w []

/-! ## §3 Runs of both engines -/

namespace EngineRun

/-- The run on a thread of its own, whose parts see only part `i` of the world. -/
def threadOn [DecidableEq ι] (i : ι) :
    (self : EngineRun (Thread (σ i) Empty) R A O) →
      Thread ((i : ι) → σ i) (Event R A O) self.Answer
  | .sync retry rounds => (retry.into (Thread.onPart i)).threaded.runFor rounds
  | .async retry cxs fuel polls => (retry.into (Thread.onPart i)).threaded.drive cxs fuel polls

theorem threadOn_eq [DecidableEq ι] (self : EngineRun (Thread (σ i) Empty) R A O) :
    self.threadOn i = self.thread.onPart i := by
  cases self with
  | sync retry rounds => exact retry.threaded_onPart rounds
  | async retry cxs fuel polls => exact retry.threaded_onPart cxs fuel polls

theorem noted_thread (self : EngineRun (Thread τ Empty) R A O) (w : τ) :
    self.thread.noted (w, []) = ((self.whole ⟨w, []⟩).1,
      ((self.whole ⟨w, []⟩).2.world, (self.whole ⟨w, []⟩).2.log)) := by
  cases self with
  | sync retry rounds => exact retry.noted_threaded rounds w
  | async retry cxs fuel polls => exact retry.noted_threaded cxs fuel polls w

/-- **Runs that share nothing.**  Whatever the schedule, each run has made the first calls of
the run that nobody interrupts; and when it has returned, it has made all of them, with the
same result, the same statistics and the same effect on its part of the world. -/
theorem whole_of_run [DecidableEq ι] {R A O : ι → Type}
    {runs : (i : ι) → EngineRun (Thread (σ i) Empty) (R i) (A i) (O i)} {w₀ : (i : ι) → σ i}
    {s : ((i : ι) → σ i) × ((i : ι) → List (Event (R i) (A i) (O i)) ×
      Thread ((i : ι) → σ i) (Event (R i) (A i) (O i)) (runs i).Answer)}
    (h : Run (fun _ => Thread.Act) Eq (w₀, fun i => ([], (runs i).threadOn i)) s) (i : ι) :
    (s.2 i).1 <+: ((runs i).whole ⟨w₀ i, []⟩).2.log ∧
      ∀ answer, (s.2 i).2 = .ended answer →
        (runs i).whole ⟨w₀ i, []⟩ = (answer, ⟨s.1 i, (s.2 i).1⟩) := by
  simp only [threadOn_eq] at h
  obtain ⟨hbegun, hended⟩ := Thread.whole_of_run h i
  rw [noted_thread] at hbegun hended
  refine ⟨hbegun, fun answer hanswer => ?_⟩
  obtain ⟨hresult, hstate⟩ := Prod.mk.inj (hended answer hanswer)
  obtain ⟨hworld, hlog⟩ := Prod.mk.inj hstate
  exact Prod.ext hresult (congrArg₂ Traced.mk hworld hlog)

end EngineRun

/-- A sync run, and a future of a twin of its configuration, which is polled. -/
structure TwinRuns (τ R A O : Type) where
  {Fut WaitFut : Type}
  sync : Retry (Thread τ Empty) R A O
  async : AsyncRetry (Thread τ Empty) Fut WaitFut R A O
  twin : AsyncTwin (sync.into Thread.whole) Fut WaitFut
  is_twin : async.into Thread.whole = twin.toAsync
  rounds : ℕ
  cxs : ℕ → Context
  fuel : ℕ → ℕ
  polls : ℕ

namespace TwinRuns

/-- The sync run and the future, each of them on its own. -/
def run (pair : TwinRuns τ R A O) : Bool → EngineRun (Thread τ Empty) R A O
  | false => .sync pair.sync pair.rounds
  | true => .async pair.async pair.cxs pair.fuel pair.polls

variable (pair : TwinRuns τ R A O) (w₀ : τ)

/-- The future makes no call that the sync run does not make. -/
theorem calls_begin : ∃ n, calls ((pair.run true).whole ⟨w₀, []⟩).2.log <+:
    ((pair.sync.into Thread.whole).traced.runFor n ⟨w₀, []⟩).2.log := by
  obtain ⟨driven, t, hdrive⟩ : ∃ driven t,
      pair.twin.toAsync.traced.drive pair.cxs pair.fuel pair.polls ⟨w₀, []⟩ = (driven, t) :=
    ⟨_, _, rfl⟩
  have hwhole : (pair.run true).whole ⟨w₀, []⟩ = (driven, t) := by
    show (pair.async.into Thread.whole).traced.drive pair.cxs pair.fuel pair.polls ⟨w₀, []⟩ = _
    rw [pair.is_twin, hdrive]
  rw [hwhole]
  cases driven with
  | none =>
    obtain ⟨i, state, hmidway⟩ := AsyncRetry.midway_of_drive hdrive
    obtain ⟨n, hfollows⟩ := pair.twin.midway_follows pair.cxs w₀ hmidway
    exact hfollows.prefix_sync
  | some driven =>
    obtain ⟨k, result, run⟩ := driven
    have hpolled := AsyncRetry.polledTo_of_drive hdrive
    exact ((pair.twin.refines_sync pair.cxs w₀).1 _ _ _ _ hpolled).2.1

end TwinRuns

/-! ## §4 The guarantee -/

/-- **Twins that share nothing.**  Sync runs, and futures of twins of them, in any order of
their steps, each on a part of the world of its own that starts as that of its twin.  Every one
of them does what it does on its own.  Of a sync run and its twin, what one has called is the
beginning of what the other has called; and when both have returned, they have made the same
calls, with the same result, the same statistics and the same effect, and the future was polled
once, and once more after each `Pending`. -/
theorem concurrent_twins {ι : Type} [DecidableEq ι] {τ R A O : ι → Type}
    (pairs : (i : ι) → TwinRuns (τ i) (R i) (A i) (O i)) (w₀ : (i : ι) → τ i)
    (s : ((k : ι × Bool) → τ k.1) × ((k : ι × Bool) → List (Event (R k.1) (A k.1) (O k.1)) ×
      Thread ((k : ι × Bool) → τ k.1) (Event (R k.1) (A k.1) (O k.1)) ((pairs k.1).run k.2).Answer))
    (h : Run (fun _ => Thread.Act) Eq (fun k : ι × Bool => w₀ k.1, fun k =>
      ([], ((pairs k.1).run k.2).threadOn (σ := fun k : ι × Bool => τ k.1) k)) s) :
    (∀ k, (s.2 k).1 <+: (((pairs k.1).run k.2).whole ⟨w₀ k.1, []⟩).2.log ∧
      ∀ answer, (s.2 k).2 = .ended answer →
        ((pairs k.1).run k.2).whole ⟨w₀ k.1, []⟩ = (answer, ⟨s.1 k, (s.2 k).1⟩)) ∧
    ∀ i, ((s.2 (i, false)).1 <+: calls (s.2 (i, true)).1 ∨
        calls (s.2 (i, true)).1 <+: (s.2 (i, false)).1) ∧
      ∀ output output' k run, (s.2 (i, false)).2 = .ended (.done output) →
        (s.2 (i, true)).2 = .ended (some (k, (.ready output', run))) →
          output' = output ∧ calls (s.2 (i, true)).1 = (s.2 (i, false)).1 ∧
          s.1 (i, true) = s.1 (i, false) ∧
          k = 1 + yields (pairs i).sync.timeout (s.2 (i, true)).1 := by
  have hwhole := fun k => EngineRun.whole_of_run h k
  refine ⟨hwhole, fun i => ?_⟩
  have hsync := hwhole (i, false)
  have hasync := hwhole (i, true)
  constructor
  · -- Both are beginnings of what one sync run calls that is allowed rounds enough.
    obtain ⟨n, hcalls⟩ := (pairs i).calls_begin (w₀ i)
    have hleft : (s.2 (i, false)).1 <+: (((pairs i).sync.into Thread.whole).traced.runFor
        (max (pairs i).rounds n) ⟨w₀ i, []⟩).2.log :=
      hsync.1.trans (Retry.prefix_runFor _ _ (le_max_left _ _))
    have hright : calls (s.2 (i, true)).1 <+: (((pairs i).sync.into Thread.whole).traced.runFor
        (max (pairs i).rounds n) ⟨w₀ i, []⟩).2.log :=
      ((hasync.1.filter Event.isCall).trans hcalls).trans
        (Retry.prefix_runFor _ _ (le_max_right _ _))
    exact List.prefix_or_prefix_of_prefix hleft hright
  · intro output output' k run hdone hready
    have hrun : ((pairs i).sync.into Thread.whole).traced.runFor (pairs i).rounds ⟨w₀ i, []⟩ =
        (.done output, ⟨s.1 (i, false), (s.2 (i, false)).1⟩) := hsync.2 _ hdone
    have hdrive : ((pairs i).async.into Thread.whole).traced.drive (pairs i).cxs (pairs i).fuel
        (pairs i).polls ⟨w₀ i, []⟩ = (some (k, (.ready output', run)),
          ⟨s.1 (i, true), (s.2 (i, true)).1⟩) := hasync.2 _ hready
    rw [(pairs i).is_twin] at hdrive
    have hpolled := AsyncRetry.polledTo_of_drive hdrive
    obtain ⟨hpolls, n, hrun'⟩ :=
      ((pairs i).twin.refines_sync (pairs i).cxs (w₀ i)).2.2 _ _ _ _ hpolled
    -- Both ends are the end of one sync run.
    have hmax := runFor_done_mono (le_max_left (pairs i).rounds n) hrun
    have hmax' := runFor_done_mono (le_max_right (pairs i).rounds n) hrun'
    obtain ⟨houtput, hstate⟩ := Prod.mk.inj (hmax.symm.trans hmax')
    obtain ⟨hworld, hlog⟩ := Traced.mk.inj hstate
    exact ⟨(Turn.done.inj houtput).symm, hlog.symm, hworld.symm, hpolls⟩

/-- A sync run that is busy twice, and a twin of it whose futures are pending once. -/
def TwinRuns.busyTwice (timed : Bool) : TwinRuns ℕ ℕ String (Except String ℕ) where
  sync := (Retry.busyTwice (if timed then some (.ofNanos 9) else none)).into Thread.atomic
  async := (AsyncRetry.busyTwice (if timed then some (.ofNanos 9) else none)).into Thread.atomic
  twin := .delayed _ (fun _ _ => 1) fun _ _ => 1
  is_twin := rfl
  rounds := 4
  cxs _ := ⟨0⟩
  fuel _ := 9
  polls := 9

/-- Two such pairs, one of them with a timeout, whose clocks start at different times. -/
theorem concurrent_twins_busyTwice :
    ∃ s : ((k : Bool × Bool) → ℕ) × ((k : Bool × Bool) → List (Event ℕ String (Except String ℕ)) ×
        Thread ((k : Bool × Bool) → ℕ) (Event ℕ String (Except String ℕ))
          ((TwinRuns.busyTwice k.1).run k.2).Answer),
      (∀ k, (s.2 k).2.answer?.isSome) ∧
      ∀ i, calls (s.2 (i, true)).1 = (s.2 (i, false)).1 ∧ s.1 (i, true) = s.1 (i, false) := by
  let clocks (timed : Bool) : ℕ := if timed then 100 else 0
  let output (timed : Bool) : Output ℕ String (Except String ℕ) :=
    if timed then (.ok 7, ⟨3, .ofNanos 12, .ofNanos 3, .returned⟩)
    else (.ok 7, ⟨3, .ofNanos 14, .ofNanos 5, .returned⟩)
  let schedule :=
    (List.replicate 60 [(false, false), (false, true), (true, true), (true, false)]).flatten
  let start (k : Bool × Bool) := (([] : List (Event ℕ String (Except String ℕ))),
    ((TwinRuns.busyTwice k.1).run k.2).threadOn (σ := fun _ => ℕ) k)
  let s := play (fun _ => Thread.advance) (fun k => clocks k.1, start) schedule
  have hrun : Run (fun _ => Thread.Act) Eq (fun k => clocks k.1, start) s :=
    Run.play (fun _ => Thread.act_advance) .start schedule
  have htwins := (concurrent_twins TwinRuns.busyTwice clocks s hrun).2
  refine ⟨s, fun k => ?_, fun i => ?_⟩
  · obtain ⟨timed, async⟩ := k
    cases timed <;> cases async <;> decide +kernel
  · have hdone : ((s.2 (i, false)).2.answer?.map
        fun answer : Turn Cursor (Output ℕ String (Except String ℕ)) => answer) =
          some (.done (output i)) := by cases i <;> decide +kernel
    obtain ⟨answer, hended, rfl⟩ := Option.map_eq_some_iff.mp hdone
    -- The futures of a run are functions, so only the results can be compared.
    have hready : ((s.2 (i, true)).2.answer?.bind (Option.map fun driven => driven.2.1)) =
        some (.ready (output i)) := by cases i <;> decide +kernel
    obtain ⟨driven, hanswer, hdriven⟩ := Option.bind_eq_some_iff.mp hready
    obtain ⟨⟨k, result, run⟩, rfl, rfl⟩ := Option.map_eq_some_iff.mp hdriven
    obtain ⟨-, hcalls, hworld, -⟩ := (htwins i).2 (output i) (output i) k run
      (Thread.eq_ended_of_answer? hended) (Thread.eq_ended_of_answer? hanswer)
    exact ⟨hcalls, hworld⟩

end Relentless
