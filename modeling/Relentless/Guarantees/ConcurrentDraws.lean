import Relentless.Guarantees.ConcurrentRuns
import Relentless.Guarantees.SharedStream
import Relentless.Library.Streams

/-!
# One Stream for All Threads

Runs on several threads that share one jittered strategy by reference, and so one generator.
Every draw is one step on it.  In whatever order the threads take their steps, each value of
the stream goes to one of them, and into the delay that this thread notes next.

- `Wait.byReference` — a jittered strategy that threads share
- `drawnFrom` — how the values of the stream go into delays
- `takes_nextWait` — a call draws in one step, and notes its delay next
- `SharedDraws` — no value is lost, and none is drawn twice
- `concurrent_draws` — the guarantee
-/

namespace Relentless

open StateLoop
open Interleaving (Run play)

variable {σ α R A O Fut WaitFut : Type}

/-! ## §1 Threads that draw -/

/-- A jittered strategy that threads share by reference: the inner strategy gives `base`, and the
draw is one step on the generator in their world. -/
def Wait.byReference (gen : σ → SplitMix64) (set : SplitMix64 → σ → σ) (kind : JitterKind)
    (base : RetryState → Duration) : Wait (Thread σ Empty) where
  nextWait state := .atomic fun w =>
    let drawn := Jittered.jitterFrom kind (base state) state (gen w)
    (drawn.1, set drawn.2 w)

/-- A consultation that draws. -/
def drawing? (draw : RetryState → Draw) (c : RetryState × Duration) : Bool := (draw c.1).count = 1

/-- The values of the stream go into the delays of the consultations that draw. -/
def drawnFrom (gen : σ → SplitMix64) (draw : RetryState → Draw) :
    Thread.Stream σ UInt64 (Event R A O) (RetryState × Duration) where
  ahead w := (gen w).raw
  made? ev := ev.consultation?.filter (drawing? draw)
  From c raw := c.2 = (draw c.1).eval raw

section Takes

variable {gen : σ → SplitMix64} {set : SplitMix64 → σ → σ} {draw : RetryState → Draw}
  {kind : JitterKind} {base : RetryState → Duration}

/-- The generator is left alone. -/
def Keeps (gen : σ → SplitMix64) (w w' : σ) : Prop := gen w' = gen w

theorem Recorder.takes_logged {event : α → Event R A O}
    (hevent : ∀ a, (event a).consultation? = none) {x : Thread σ Empty α}
    (hx : x.Moves (Keeps gen)) :
    (Recorder.thread.logged event x).Takes (drawnFrom gen draw) none := by
  refine Thread.Takes.bind (.silent (fun w w' hkeeps => congrArg SplitMix64.raw hkeeps) hx)
    fun a => ⟨?_, rfl⟩
  show (event a).consultation?.filter (drawing? draw) = none
  rw [hevent a]
  rfl

theorem Recorder.takes_announced {event : Event R A O} (hevent : event.consultation? = none)
    {x : Thread σ Empty α} (hx : x.Moves (Keeps gen)) :
    (Recorder.thread.announced event x).Takes (drawnFrom gen draw) none := by
  refine Thread.Takes.bind (x := Recorder.thread.record event) ⟨?_, rfl⟩
    fun _ => .silent (fun w w' hkeeps => congrArg SplitMix64.raw hkeeps) hx
  show event.consultation?.filter (drawing? draw) = none
  rw [hevent]
  rfl

theorem HookSlot.Move.takes {slot : HookSlot (Thread σ Empty) α} (h : slot.Move (Keeps gen))
    {event : ℕ → α → Event R A O} (hevent : ∀ hook view, (event hook view).consultation? = none)
    (view : α) :
    ((slot.recorded .thread event).call view).Takes (drawnFrom gen draw) none := by
  induction slot generalizing view with
  | unit => rfl
  | chain first second ih =>
    exact (ih h.1 view).bind fun _ => Recorder.takes_announced (hevent _ view) (h.2 view)

/-- **A call of the shared strategy** draws in one step, and its delay is noted next. -/
theorem takes_nextWait (hset : ∀ rng w, gen (set rng w) = rng) (state : RetryState) :
    (Recorder.thread.logged (.nextWait state)
      ((Wait.byReference gen set kind base).nextWait state) :
        Thread σ (Event R A O) Duration).Takes
      (drawnFrom gen fun state => jitterDraw kind (base state) state) none := by
  refine ⟨rfl, fun w => ?_⟩
  have hleft : ∀ k, (gen (set (Jittered.jitterFrom kind (base state) state (gen w)).2 w)).raw k =
      (gen w).raw ((jitterDraw kind (base state) state).count + k) := by
    intro k
    rw [hset, jitterFrom_eq, Draw.raw_run]
  have hdelay : (Jittered.jitterFrom kind (base state) state (gen w)).1 =
      (jitterDraw kind (base state) state).eval ((gen w).raw 0) := by
    rw [jitterFrom_eq, Draw.run_fst]
  by_cases hcount : (jitterDraw kind (base state) state).count = 1
  · -- The first value of the stream is in the delay, and the note of it is all that is left to do.
    right
    refine ⟨?_, ⟨(state, (Jittered.jitterFrom kind (base state) state (gen w)).1), ?_, hdelay⟩, rfl⟩
    · funext k
      have hnext := hleft k
      rw [hcount, Nat.add_comm 1 k] at hnext
      dsimp only [drawnFrom]
      exact hnext
    · exact Option.filter_some_pos (decide_eq_true hcount)
  · -- A delay that needs no draw leaves the stream where it is.
    left
    have hnone : (jitterDraw kind (base state) state).count = 0 := by
      revert hcount
      cases jitterDraw kind (base state) state with
      | still delay => exact fun _ => rfl
      | draw place => exact fun habsurd => absurd rfl habsurd
    refine ⟨?_, ?_, rfl⟩
    · funext k
      have hsame := hleft k
      rw [hnone, Nat.zero_add] at hsame
      dsimp only [drawnFrom]
      exact hsame
    · exact Option.filter_some_neg (decide_eq_false hcount)

/-- The parts that an attempt consults, when the strategy is the shared one. -/
theorem stepRelated_takes {classifier : Decide (Thread σ Empty) R A O}
    {stop : Stop (Thread σ Empty)} {hooks : ExecutionHooks (Thread σ Empty) R A O}
    (hset : ∀ rng w, gen (set rng w) = rng)
    (hdecide : ∀ outcome, (classifier.decide outcome).Moves (Keeps gen))
    (hstop : ∀ state, (stop.shouldStop state).Moves (Keeps gen))
    (hbefore : hooks.beforeAttempt.Move (Keeps gen))
    (hafter : hooks.afterAttempt.Move (Keeps gen)) (hexit : hooks.onExit.Move (Keeps gen)) :
    StepRelated (Thread.takesRel (drawnFrom gen fun state => jitterDraw kind (base state) state))
      ⟨fun outcome => Recorder.thread.logged (.decide outcome) (classifier.decide outcome)⟩
      ⟨fun outcome => Recorder.thread.logged (.decide outcome) (classifier.decide outcome)⟩
      ⟨fun state => Recorder.thread.logged (.shouldStop state) (stop.shouldStop state)⟩
      ⟨fun state => Recorder.thread.logged (.shouldStop state) (stop.shouldStop state)⟩
      ⟨fun state => Recorder.thread.logged (.nextWait state)
        ((Wait.byReference gen set kind base).nextWait state)⟩
      ⟨fun state => Recorder.thread.logged (.nextWait state)
        ((Wait.byReference gen set kind base).nextWait state)⟩
      (hooks.recorded .thread) (hooks.recorded .thread) where
  debugAssert _ _ := rfl
  decide outcome := Recorder.takes_logged (fun _ => rfl) (hdecide outcome)
  shouldStop state := Recorder.takes_logged (fun _ => rfl) (hstop state)
  nextWait state := takes_nextWait hset state
  beforeAttempt view := hbefore.takes (fun _ _ => rfl) view
  afterAttempt view := hafter.takes (fun _ _ => rfl) view
  onExit view := hexit.takes (fun _ _ => rfl) view

/-- Sync runs draw nothing else. -/
theorem Retry.PartsMove.takes {self : Retry (Thread σ Empty) R A O}
    (h : self.PartsMove (Keeps gen)) (hset : ∀ rng w, gen (set rng w) = rng)
    (hnow : self.clock.now.Moves (Keeps gen))
    (hwait : ∀ delay, (self.clock.wait delay).Moves (Keeps gen)) (n : ℕ) :
    (({ self with wait := .byReference gen set kind base }).threaded.runFor n).Takes
      (drawnFrom gen fun state => jitterDraw kind (base state) state) none := by
  have hrelated : Retry.Related
      (Thread.takesRel (drawnFrom gen fun state => jitterDraw kind (base state) state))
      ({ self with wait := .byReference gen set kind base }).threaded
      ({ self with wait := .byReference gen set kind base }).threaded := by
    constructor
    case parts =>
      exact stepRelated_takes hset h.decide h.shouldStop h.beforeAttempt h.afterAttempt h.onExit
    case op =>
      intro state
      exact Thread.Takes.bind (x := Recorder.thread.record (.op state)) ⟨rfl, rfl⟩ fun _ =>
        Recorder.takes_logged (fun _ => rfl) (h.op state)
    case now => exact Recorder.takes_logged (fun _ => rfl) hnow
    case wait => exact fun delay => Recorder.takes_announced rfl (hwait delay)
    case timeout => rfl
  exact hrelated.runFor n

/-- Futures draw nothing else. -/
theorem AsyncRetry.PartsMove.takes {self : AsyncRetry (Thread σ Empty) Fut WaitFut R A O}
    (h : self.PartsMove (Keeps gen)) (hset : ∀ rng w, gen (set rng w) = rng)
    (hnow : self.clock.now.Moves (Keeps gen))
    (hwait : ∀ delay, (self.clock.waitAsync delay).Moves (Keeps gen))
    (hpoll : ∀ future cx, (self.clock.pollWait future cx).Moves (Keeps gen))
    (cxs : ℕ → Context) (fuel : ℕ → ℕ) (j : ℕ) :
    (({ self with wait := .byReference gen set kind base }).threaded.drive cxs fuel j).Takes
      (drawnFrom gen fun state => jitterDraw kind (base state) state) none := by
  have hrelated : AsyncRetry.Related
      (Thread.takesRel (drawnFrom gen fun state => jitterDraw kind (base state) state))
      ({ self with wait := .byReference gen set kind base }).threaded
      ({ self with wait := .byReference gen set kind base }).threaded := by
    constructor
    case parts =>
      exact stepRelated_takes hset h.decide h.shouldStop h.beforeAttempt h.afterAttempt h.onExit
    case callOp => exact fun state => Recorder.takes_announced rfl (h.callOp state)
    case poll =>
      refine fun future cx => Recorder.takes_logged (fun answer => ?_) (h.poll future cx)
      obtain ⟨value, future'⟩ := answer
      cases value <;> rfl
    case now => exact Recorder.takes_logged (fun _ => rfl) hnow
    case waitAsync => exact fun delay => Recorder.takes_announced rfl (hwait delay)
    case pollWait =>
      refine fun future cx => Recorder.takes_logged (fun answer => ?_) (hpoll future cx)
      obtain ⟨value, future'⟩ := answer
      cases value <;> rfl
    case wakeByRef => exact fun cx => Recorder.takes_announced rfl (h.wakeByRef cx)
    case timeout => rfl
  exact hrelated.drive cxs fuel j

/-- **Runs** of either engine draw nothing else. -/
theorem EngineRun.AllMove.takes {run : EngineRun (Thread σ Empty) R A O}
    (h : run.AllMove (Keeps gen)) (hset : ∀ rng w, gen (set rng w) = rng) :
    (run.withWait (.byReference gen set kind base)).thread.Takes
      (drawnFrom gen fun state => jitterDraw kind (base state) state) none := by
  cases run with
  | sync retry rounds =>
    obtain ⟨hparts, hnow, hwait⟩ := h
    exact hparts.takes hset hnow hwait rounds
  | async retry cxs fuel polls =>
    obtain ⟨hparts, hnow, hwait, hpoll⟩ := h
    exact hparts.takes hset hnow hwait hpoll cxs fuel polls

end Takes

/-! ## §2 The guarantee -/

/-- The consultations in a log that draw. -/
def drawings (draw : RetryState → Draw) (log : List (Event R A O)) : List (RetryState × Duration) :=
  (consultations log).filter (drawing? draw)

theorem filterMap_made? (gen : σ → SplitMix64) (draw : RetryState → Draw)
    (log : List (Event R A O)) : log.filterMap (drawnFrom gen draw).made? = drawings draw log := by
  rw [drawings, consultations, List.filter_filterMap]
  rfl

/-- What threads have drawn from one generator, which was `rng` and has become `rng'`: thread `i`
the values at `places i` of its stream.  The first `n` values went to one thread each, and the
others are still to come; a delay that has been noted is made of its value, and one draw at most
is still to be noted, none where the thread has ended; and fewer draws than a whole round have
no two values the same. -/
structure SharedDraws {ι : Type} (draw : RetryState → Draw) (rng rng' : SplitMix64)
    (drawn : ι → List (RetryState × Duration)) (ended : ι → Prop) (n : ℕ)
    (places : ι → List ℕ) : Prop where
  shared : Thread.Shared n places
  ahead : ∀ k, rng'.raw k = rng.raw (n + k)
  noted : ∀ i, ∃ noted underway, places i = noted ++ underway ∧ underway.length ≤ 1 ∧
    (ended i → underway = []) ∧
    List.Forall₂ (fun c k => c.2 = (draw c.1).eval (rng.raw k)) (drawn i) noted
  distinct : n ≤ 2 ^ 64 → ∀ j k, j < k → k < n → rng.raw j ≠ rng.raw k

/-- Threads that have all ended have nothing still to be noted. -/
theorem SharedDraws.of_ended {ι : Type} {draw : RetryState → Draw} {rng rng' : SplitMix64}
    {drawn : ι → List (RetryState × Duration)} {ended : ι → Prop} {n : ℕ} {places : ι → List ℕ}
    (h : SharedDraws draw rng rng' drawn ended n places) (hended : ∀ i, ended i) :
    SharedDraws draw rng rng' drawn (fun _ => True) n places where
  shared := h.shared
  ahead := h.ahead
  noted i := by
    obtain ⟨noted, underway, hplaces, hone, hnone, hmade⟩ := h.noted i
    exact ⟨noted, underway, hplaces, hone, fun _ => hnone (hended i), hmade⟩
  distinct := h.distinct

/-- **Threads that draw** share the stream, whatever their code is. -/
theorem sharedDraws_of_run {ι : Type} [DecidableEq ι] {R A O β : ι → Type}
    {gen : σ → SplitMix64} {draw : RetryState → Draw} {outside : σ → σ → Prop}
    {s s' : σ × ((i : ι) → List (Event (R i) (A i) (O i)) ×
      Thread σ (Event (R i) (A i) (O i)) (β i))}
    (h : Run (fun _ => Thread.Act) outside s s') (hout : ∀ w w', outside w w' → Keeps gen w w')
    (hempty : ∀ i, (s.2 i).1 = []) (htakes : ∀ i, (s.2 i).2.Takes (drawnFrom gen draw) none) :
    ∃ n places, SharedDraws draw (gen s.1) (gen s'.1) (fun i => drawings draw (s'.2 i).1)
      (fun i => ∃ answer, (s'.2 i).2 = .ended answer) n places := by
  obtain ⟨n, places, hahead, hshared, hholds⟩ := Thread.shared_of_run h
    (fun w w' hw => congrArg SplitMix64.raw (hout w w' hw)) hempty htakes
  refine ⟨n, places, hshared, fun k => congrFun hahead k, fun i => ?_, fun hn j k hjk hk => ?_⟩
  · obtain ⟨noted, hnoted, hplaces⟩ := hholds i
    replace hnoted := filterMap_made? gen draw (s'.2 i).1 ▸ hnoted
    rcases hplaces with ⟨hplaces, -⟩ | ⟨k, hplaces, hdue⟩
    · exact ⟨noted, [], hplaces.trans (List.append_nil noted).symm, Nat.zero_le 1, fun _ => rfl,
        hnoted⟩
    · refine ⟨noted, [k], hplaces, le_refl 1, ?_, hnoted⟩
      -- A thread that has ended would have noted what was due.
      rintro ⟨answer, hended⟩
      rw [hended] at hdue
      cases hdue
  · -- The stream comes round only after all 64-bit values.
    exact raw_ne_raw _ hjk (by omega)

/-- **One stream for all.**  Runs of both engines share a jittered strategy by reference, and
nobody else touches its generator.  In every interleaving the values that they have drawn are
the first ones of one stream: none is lost, each goes to one of the runs, be it sync or async,
and the delays that a run has noted are made of its own values in their order. -/
theorem concurrent_draws {ι : Type} [DecidableEq ι] (gen : σ → SplitMix64)
    (set : SplitMix64 → σ → σ) (hset : ∀ rng w, gen (set rng w) = rng) (kind : JitterKind)
    (base : RetryState → Duration) {R A O : ι → Type}
    (runs : (i : ι) → EngineRun (Thread σ Empty) (R i) (A i) (O i))
    (hruns : ∀ i, (runs i).AllMove (Keeps gen)) (outside : σ → σ → Prop)
    (hout : ∀ w w', outside w w' → Keeps gen w w') (w₀ : σ)
    (s : σ × ((i : ι) → List (Event (R i) (A i) (O i)) × Thread σ (Event (R i) (A i) (O i))
      ((runs i).withWait (.byReference gen set kind base)).Answer))
    (h : Run (fun _ => Thread.Act) outside (w₀, fun i =>
      ([], ((runs i).withWait (.byReference gen set kind base)).thread)) s) :
    ∃ drawn places, SharedDraws (fun state => jitterDraw kind (base state) state) (gen w₀)
      (gen s.1) (fun i => drawings (fun state => jitterDraw kind (base state) state) (s.2 i).1)
      (fun i => ∃ answer, (s.2 i).2 = .ended answer) drawn places :=
  sharedDraws_of_run h hout (fun _ => rfl) fun i => (hruns i).takes hset

/-- A sync run and a future that are busy twice. -/
def EngineRun.busyJittered : Bool → EngineRun (Thread (ℕ × SplitMix64) Empty) ℕ String
    (Except String ℕ)
  | false => .sync Retry.busyJittered 4
  | true => .async AsyncRetry.busyJittered (fun _ => ⟨0⟩) (fun _ => 9) 6

theorem EngineRun.busyJittered_allMove (i : Bool) :
    (EngineRun.busyJittered i).AllMove (Keeps Prod.snd) := by
  cases i with
  | false =>
    have hparts : Retry.busyJittered.PartsMove (Keeps Prod.snd) :=
      { op := fun _ => .atomic fun _ => rfl
        decide := fun _ => .atomic fun _ => rfl
        shouldStop := fun _ => .atomic fun _ => rfl
        nextWait := fun _ => .atomic fun _ => rfl
        beforeAttempt := trivial
        afterAttempt := trivial
        onExit := ⟨trivial, fun _ => .atomic fun _ => rfl⟩ }
    exact ⟨hparts, .atomic fun _ => rfl, fun _ => .atomic fun _ => rfl⟩
  | true =>
    have hparts : AsyncRetry.busyJittered.PartsMove (Keeps Prod.snd) :=
      { callOp := fun _ => .atomic fun _ => rfl
        poll := fun _ _ => .atomic fun _ => rfl
        decide := fun _ => .atomic fun _ => rfl
        shouldStop := fun _ => .atomic fun _ => rfl
        nextWait := fun _ => .atomic fun _ => rfl
        wakeByRef := fun _ => .atomic fun _ => rfl
        beforeAttempt := trivial
        afterAttempt := trivial
        onExit := ⟨trivial, fun _ => .atomic fun _ => rfl⟩ }
    exact ⟨hparts, .atomic fun _ => rfl, fun _ => .atomic fun _ => rfl,
      fun _ _ => .atomic fun _ => rfl⟩

/-- Full jitter over nine nanoseconds, from the generator in the world. -/
def Wait.busyShared : Wait (Thread (ℕ × SplitMix64) Empty) :=
  .byReference Prod.snd (fun rng w => (w.1, rng)) .full fun _ => .ofNanos 9

/-- A sync run and a future, which take turns and have drawn twice each. -/
theorem concurrent_draws_busyShared :
    ∃ (logs : Bool → List (Event ℕ String (Except String ℕ))) (rng : SplitMix64),
      (∀ i, (drawings (fun state => jitterDraw .full (.ofNanos 9) state) (logs i)).length = 2) ∧
      ∃ drawn places, SharedDraws (fun state => jitterDraw .full (.ofNanos 9) state) ⟨0⟩ rng
        (fun i => drawings (fun state => jitterDraw .full (.ofNanos 9) state) (logs i))
        (fun _ => True) drawn places := by
  let world : ℕ × SplitMix64 := (0, ⟨0⟩)
  let start (i : Bool) := (([] : List (Event ℕ String (Except String ℕ))),
    ((EngineRun.busyJittered i).withWait .busyShared).thread)
  let mixed :=
    play (fun _ => Thread.advance) (world, start) (List.replicate 90 [false, true]).flatten
  have hrun : Run (fun _ => Thread.Act) Eq (world, start) mixed :=
    Run.play (fun _ => Thread.act_advance) .start _
  have hdraws := concurrent_draws Prod.snd (fun rng (w : ℕ × SplitMix64) => (w.1, rng))
    (fun _ _ => rfl) .full (fun _ => .ofNanos 9) EngineRun.busyJittered
    EngineRun.busyJittered_allMove Eq (fun w w' hw => congrArg Prod.snd hw.symm) world mixed hrun
  have hended (i : Bool) : ∃ answer, (mixed.2 i).2 = .ended answer := by
    apply Thread.exists_ended
    cases i <;> decide +kernel
  obtain ⟨drawn, places, hshared⟩ := hdraws
  refine ⟨fun i => (mixed.2 i).1, mixed.1.2, fun i => ?_, drawn, places, hshared.of_ended hended⟩
  cases i <;> decide +kernel

end Relentless
