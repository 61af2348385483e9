import Relentless.Guarantees.AsyncContract
import Relentless.Guarantees.DecorrelatedRun
import Relentless.Guarantees.OneStory
import Relentless.Trace.Concurrent

/-!
# Runs That Share a World

Runs of either engine on one world — a clock, the generators of their strategies, whatever
their operations work on — whose calls are interleaved in any order, with each other and
with changes from outside.  Each of them still makes the calls of a run, and reports what it
alone has done.

- `Underway` — the calls of a run up to some moment
- `Retry.concurrent_sync_runs` — sync runs on several threads
- `AsyncRetry.concurrent_async_runs` — futures that several threads poll
- `concurrent_decorrelated` — decorrelated jitter from one shared policy
-/

namespace Relentless

open StateLoop
open Interleaving (Run play)

variable {σ R A O Fut WaitFut : Type}

/-! ## §1 Runs that are under way -/

/-- The calls of a run so far: none, or the baseline, whole rounds, and at most the opening
of the next one. -/
inductive Underway (S : Setting R A O) : List (Event R A O) → Prop where
  | created : Underway S []
  | rounds (baseline : Duration) (log : List (Event R A O)) (turn : Turn Mark (Output R A O))
      (hrounds : Rounds S (.start baseline) log turn) : Underway S (.now baseline :: log)
  | opened (baseline : Duration) (log : List (Event R A O)) (mark : Mark) (reading : Duration)
      (hrounds : Rounds S (.start baseline) log (.again mark)) :
      Underway S (.now baseline :: (log ++ Round.openingCalls S mark reading))

theorem Stands.underway {S : Setting R A O} {baseline : Duration} {log : List (Event R A O)}
    {state : AsyncRetry.LoopState Fut WaitFut} (h : Stands S baseline log state) :
    Underway S log := by
  cases h with
  | ready rounds mark hrounds => exact .rounds baseline rounds _ hrounds
  | polling rounds mark reading future hrounds => exact .opened baseline rounds mark reading hrounds
  | sleeping rounds mark k future hrounds hround hpos => exact .rounds baseline rounds _ hrounds
  | yielding rounds mark k hrounds hround hpos => exact .rounds baseline rounds _ hrounds

/-- Runs that are under way have fed their delays back. -/
theorem Underway.fedBack {S : Setting R A O} {log : List (Event R A O)} (h : Underway S log) :
    FedBack S none log := by
  cases h with
  | created => exact (Rounds.pause (.start .zero)).fedBack
  | rounds baseline log turn hrounds => exact hrounds.fedBack.congr rfl rfl
  | opened baseline log mark reading hrounds =>
    have hstands : @Stands Unit Unit R A O S baseline _ _ := .polling log mark reading () hrounds
    exact hstands.fedBack

theorem Finished.underway {S : Setting R A O} {baseline : Duration} {log : List (Event R A O)}
    {output : Output R A O} (h : Finished S baseline log output) : Underway S log := by
  obtain ⟨rounds, rfl, hrounds⟩ := h
  exact .rounds baseline rounds _ hrounds

theorem Finished.story {S : Setting R A O} {baseline : Duration} {log : List (Event R A O)}
    {output : Output R A O} (h : Finished S baseline log output) :
    ∃ exit, Story S log output exit := by
  obtain ⟨rounds, rfl, hrounds⟩ := h
  exact hrounds.story

namespace AsyncRetry

variable {self : AsyncRetry (Eff σ) Fut WaitFut R A O} {cxs : ℕ → Context} {w₀ : σ} {j : ℕ}
  {t : Traced σ R A O}

theorem underway_of_polledTo {run : AsyncRun Fut WaitFut} {result : PollEnd (Output R A O)}
    (h : self.traced.PolledTo cxs ⟨w₀, []⟩ j t run result) :
    Underway self.setting (calls t.log) :=
  self.polledTo_cases (P := fun log _ => Underway self.setting log) .created
    (fun _ _ _ hstands => hstands.underway) (fun _ _ _ hfinished => hfinished.underway) h

/-- In the middle of a poll the run stands where its fields say. -/
theorem stands_of_midway {state : LoopState Fut WaitFut}
    (h : self.traced.Midway cxs ⟨w₀, []⟩ j t state) :
    Stands self.setting (self.clock.now w₀).1 (calls t.log) state := by
  apply h.rule (I := fun t state => Stands self.setting (self.clock.now w₀).1 (calls t.log) state)
  · exact Stands.ready [] (.start _) (.pause _)
  · intro cx state t state' t' hstands hbody
    obtain ⟨turn, w', log', hbody', hlands⟩ := self.pollBody_lands cx _ state t.world t.log hstands
    obtain ⟨rfl, rfl⟩ := Prod.mk.inj (hbody'.symm.trans hbody)
    exact hlands
  · intro cx state t run t' hstands hbody
    obtain ⟨turn, w', log', hbody', hlands⟩ := self.pollBody_lands cx _ state t.world t.log hstands
    obtain ⟨rfl, rfl⟩ := Prod.mk.inj (hbody'.symm.trans hbody)
    exact hlands

/-- Polls in a row leave a run that is under way, also when the last one has not returned. -/
theorem underway_of_drive {fuel : ℕ → ℕ} {driven : Option (ℕ × PollResult Fut WaitFut R A O)}
    (h : self.traced.drive cxs fuel j ⟨w₀, []⟩ = (driven, t)) :
    Underway self.setting (calls t.log) := by
  match driven with
  | none =>
    obtain ⟨k, state, hmidway⟩ := midway_of_drive h
    exact (stands_of_midway hmidway).underway
  | some (k, (result, run)) => exact underway_of_polledTo (polledTo_of_drive h)

/-- The phase invariant after a pending poll, for a future that was polled. -/
theorem phaseInvariant_of_polledTo {run : AsyncRun Fut WaitFut}
    (h : self.traced.PolledTo cxs ⟨w₀, []⟩ (j + 1) t run .pending) :
    PhaseInvariant self.timeout (self.clock.now w₀).1 (calls t.log) run ∧
      BaselineFirst (self.clock.now w₀).1 (calls t.log) := by
  rcases self.polledTo_lands h with ⟨hcreated, -⟩ | ⟨elapsed, helapsed, hstands⟩
  · cases hcreated
  · rcases h.leaves with ⟨hcreated, -⟩ | ⟨⟨hlive, hphase⟩, -⟩
    · cases hcreated
    · exact ⟨hstands.phaseInvariant helapsed hlive hphase, hstands.baselineFirst⟩

end AsyncRetry

/-! ## §2 Sync runs on several threads -/

/-- The log of a sync thread among others is the beginning of that of a run on its own, and
all of it when the thread has ended, with the answer of that run. -/
theorem Retry.run_alone_of_run {ι : Type} [DecidableEq ι] {rely : σ → σ → Prop}
    [IsPreorder σ rely] {R A O : ι → Type}
    {retries : (i : ι) → Retry (Thread σ Empty) (R i) (A i) (O i)} {n : ι → ℕ}
    {outside : σ → σ → Prop} {w₀ : σ}
    {s : σ × ((i : ι) → List (Event (R i) (A i) (O i)) ×
      Thread σ (Event (R i) (A i) (O i)) (Turn Cursor (Output (R i) (A i) (O i))))}
    (h : Run (fun _ => Thread.Act) outside
      (w₀, fun i => ([], (retries i).threaded.runFor (n i))) s)
    (hout : ∀ w w', outside w w' → rely w w') (i : ι)
    (hmoves : ∀ j, j ≠ i → ((retries j).threaded.runFor (n j)).Moves rely) :
    ∃ (r : Thread.Replay σ) (t : Traced (Thread.Replay σ) (R i) (A i) (O i))
      (answer : Turn Cursor (Output (R i) (A i) (O i))), rely w₀ r.world ∧ r.Within rely ∧
      (retries i).alone.traced.runFor (n i) ⟨r, []⟩ = (answer, t) ∧ (s.2 i).1 <+: t.log ∧
      ∀ answer', (s.2 i).2 = .ended answer' → (s.2 i).1 = t.log ∧ answer' = answer := by
  obtain ⟨r, r', answer, log, hstart, hwithin, hreplay, hbegun, hended⟩ :=
    Thread.replay_of_run h hout i hmoves
  rw [(retries i).replay_threaded] at hreplay
  obtain ⟨rfl, hstate⟩ := Prod.mk.inj hreplay
  obtain ⟨-, rfl⟩ := Prod.mk.inj hstate
  exact ⟨r, _, _, hstart, hwithin, rfl, hbegun, hended⟩

/-- What the log of a sync thread is the beginning of, and what the thread has ended with. -/
theorem Retry.rounds_of_run {ι : Type} [DecidableEq ι] {R A O : ι → Type}
    {retries : (i : ι) → Retry (Thread σ Empty) (R i) (A i) (O i)} {n : ι → ℕ}
    {outside : σ → σ → Prop} {w₀ : σ}
    {s : σ × ((i : ι) → List (Event (R i) (A i) (O i)) ×
      Thread σ (Event (R i) (A i) (O i)) (Turn Cursor (Output (R i) (A i) (O i))))}
    (h : Run (fun _ => Thread.Act) outside
      (w₀, fun i => ([], (retries i).threaded.runFor (n i))) s) (i : ι) :
    ∃ baseline rounds turn, Rounds (retries i).alone.setting (.start baseline) rounds turn ∧
      (s.2 i).1 <+: .now baseline :: rounds ∧
      ∀ answer, (s.2 i).2 = .ended answer →
        (s.2 i).1 = .now baseline :: rounds ∧ answer = turn.mapNext Mark.cursor := by
  obtain ⟨r, t, answer, -, -, hrun, hbegun, hended⟩ :=
    Retry.run_alone_of_run h Thread.anything_of i fun _ _ => .anything _
  obtain ⟨baseline, rounds, turn, w', hrounds, -, hrun'⟩ :=
    (retries i).alone.runFor_rounds (n i) r
  obtain ⟨rfl, rfl⟩ := Prod.mk.inj (hrun.symm.trans hrun')
  exact ⟨baseline, rounds, turn, hrounds, hbegun, hended⟩

/-- Such a thread is under way, and when it has returned its run has finished. -/
theorem Retry.underway_of_run {ι : Type} [DecidableEq ι] {R A O : ι → Type}
    {retries : (i : ι) → Retry (Thread σ Empty) (R i) (A i) (O i)} {n : ι → ℕ}
    {outside : σ → σ → Prop} {w₀ : σ}
    {s : σ × ((i : ι) → List (Event (R i) (A i) (O i)) ×
      Thread σ (Event (R i) (A i) (O i)) (Turn Cursor (Output (R i) (A i) (O i))))}
    (h : Run (fun _ => Thread.Act) outside
      (w₀, fun i => ([], (retries i).threaded.runFor (n i))) s) (i : ι) :
    ∃ whole, Underway (retries i).alone.setting whole ∧ (s.2 i).1 <+: whole ∧
      ∀ output, (s.2 i).2 = .ended (.done output) →
        ∃ baseline, Finished (retries i).alone.setting baseline (s.2 i).1 output := by
  obtain ⟨baseline, rounds, turn, hrounds, hbegun, hended⟩ := Retry.rounds_of_run h i
  refine ⟨_, .rounds baseline rounds turn hrounds, hbegun, fun output hdone => ?_⟩
  obtain ⟨hlog, hturn⟩ := hended _ hdone
  cases turn with
  | again mark => cases hturn
  | done output' =>
    obtain rfl : output = output' := Turn.done.inj hturn
    exact ⟨baseline, rounds, hlog, hrounds⟩

/-- **Sync runs that share a world.**  However the steps of several `Retry::run` calls are
interleaved with each other and with changes from outside, each has made the calls of a run
so far, and one that has returned tells one story about its own calls. -/
theorem Retry.concurrent_sync_runs {ι : Type} [DecidableEq ι] {R A O : ι → Type}
    (retries : (i : ι) → Retry (Thread σ Empty) (R i) (A i) (O i)) (n : ι → ℕ)
    (outside : σ → σ → Prop) (w₀ : σ)
    (s : σ × ((i : ι) → List (Event (R i) (A i) (O i)) ×
      Thread σ (Event (R i) (A i) (O i)) (Turn Cursor (Output (R i) (A i) (O i)))))
    (h : Run (fun _ => Thread.Act) outside
      (w₀, fun i => ([], (retries i).threaded.runFor (n i))) s) (i : ι) :
    (∃ whole, Underway (retries i).alone.setting whole ∧ (s.2 i).1 <+: whole) ∧
    ∀ output, (s.2 i).2 = .ended (.done output) →
      (∃ baseline, Finished (retries i).alone.setting baseline (s.2 i).1 output) ∧
      ∃ exit, Story (retries i).alone.setting (s.2 i).1 output exit := by
  obtain ⟨whole, hunderway, hbegun, hended⟩ := Retry.underway_of_run h i
  refine ⟨⟨whole, hunderway, hbegun⟩, fun output hdone => ?_⟩
  obtain ⟨baseline, hfinished⟩ := hended output hdone
  exact ⟨⟨baseline, hfinished⟩, hfinished.story⟩

/-- Two runs that are busy twice, one of them with a timeout, on one clock. -/
def Retry.busyThreads (timed : Bool) : Retry (Thread ℕ Empty) ℕ String (Except String ℕ) :=
  (Retry.busyTwice (if timed then some (.ofNanos 9) else none)).into Thread.atomic

/-- Two threads that take turns: each has its own story, with the time that the other's
operations have taken. -/
theorem Retry.concurrent_sync_runs_busyThreads :
    (∃ log exit, Story (Retry.busyThreads false).alone.setting log
      (.ok 7, ⟨3, .ofNanos 20, .ofNanos 5, .returned⟩) exit) ∧
    ∃ log exit, Story (Retry.busyThreads true).alone.setting log
      (.error (.exhausted (.error "busy")), ⟨2, .ofNanos 12, .zero, .exhausted⟩) exit := by
  let schedule := (List.replicate 50 [false, true]).flatten
  let start (i : Bool) := (([] : List (Event ℕ String (Except String ℕ))),
    (Retry.busyThreads i).threaded.runFor 4)
  have hrun : Run (fun _ => Thread.Act) Eq ((0 : ℕ), start)
      (play (fun _ => Thread.advance) (0, start) schedule) :=
    Run.play (fun _ => Thread.act_advance) .start schedule
  have hstories := Retry.concurrent_sync_runs Retry.busyThreads (fun _ => 4) Eq 0 _ hrun
  have hfalse := (hstories false).2 (.ok 7, ⟨3, .ofNanos 20, .ofNanos 5, .returned⟩)
    (Thread.eq_ended_of_answer? (by decide +kernel))
  have htrue := (hstories true).2
    (.error (.exhausted (.error "busy")), ⟨2, .ofNanos 12, .zero, .exhausted⟩)
    (Thread.eq_ended_of_answer? (by decide +kernel))
  exact ⟨⟨_, hfalse.2⟩, _, htrue.2⟩

/-! ## §3 Futures that several threads poll -/

/-- The log of a thread that polls a future among others is the beginning of that of polls of
the future on its own, and all of it when the thread has ended. -/
theorem AsyncRetry.drive_alone_of_run {ι : Type} [DecidableEq ι] {rely : σ → σ → Prop}
    [IsPreorder σ rely] {Fut WaitFut R A O : ι → Type}
    {retries : (i : ι) → AsyncRetry (Thread σ Empty) (Fut i) (WaitFut i) (R i) (A i) (O i)}
    {cxs : ι → ℕ → Context} {fuel : ι → ℕ → ℕ} {j : ι → ℕ} {outside : σ → σ → Prop} {w₀ : σ}
    {s : σ × ((i : ι) → List (Event (R i) (A i) (O i)) × Thread σ (Event (R i) (A i) (O i))
      (Option (ℕ × PollResult (Fut i) (WaitFut i) (R i) (A i) (O i))))}
    (h : Run (fun _ => Thread.Act) outside
      (w₀, fun i => ([], (retries i).threaded.drive (cxs i) (fuel i) (j i))) s)
    (hout : ∀ w w', outside w w' → rely w w') (i : ι)
    (hmoves : ∀ k, k ≠ i → ((retries k).threaded.drive (cxs k) (fuel k) (j k)).Moves rely) :
    ∃ (r : Thread.Replay σ) (t : Traced (Thread.Replay σ) (R i) (A i) (O i))
      (driven : Option (ℕ × PollResult (Fut i) (WaitFut i) (R i) (A i) (O i))),
      rely w₀ r.world ∧ r.Within rely ∧
      (retries i).alone.traced.drive (cxs i) (fuel i) (j i) ⟨r, []⟩ = (driven, t) ∧
      (s.2 i).1 <+: t.log ∧
      ∀ driven', (s.2 i).2 = .ended driven' → (s.2 i).1 = t.log ∧ driven' = driven := by
  obtain ⟨r, r', driven, log, hstart, hwithin, hreplay, hbegun, hended⟩ :=
    Thread.replay_of_run h hout i hmoves
  rw [(retries i).replay_threaded] at hreplay
  obtain ⟨rfl, hstate⟩ := Prod.mk.inj hreplay
  obtain ⟨-, rfl⟩ := Prod.mk.inj hstate
  exact ⟨r, _, _, hstart, hwithin, rfl, hbegun, hended⟩

/-- What the calls of a thread that polls a future are the beginning of, and what they are when
the future is ready; no poll panics. -/
theorem AsyncRetry.underway_of_run {ι : Type} [DecidableEq ι] {Fut WaitFut R A O : ι → Type}
    {retries : (i : ι) → AsyncRetry (Thread σ Empty) (Fut i) (WaitFut i) (R i) (A i) (O i)}
    {cxs : ι → ℕ → Context} {fuel : ι → ℕ → ℕ} {j : ι → ℕ} {outside : σ → σ → Prop} {w₀ : σ}
    {s : σ × ((i : ι) → List (Event (R i) (A i) (O i)) × Thread σ (Event (R i) (A i) (O i))
      (Option (ℕ × PollResult (Fut i) (WaitFut i) (R i) (A i) (O i))))}
    (h : Run (fun _ => Thread.Act) outside
      (w₀, fun i => ([], (retries i).threaded.drive (cxs i) (fuel i) (j i))) s) (i : ι) :
    ∃ whole, Underway (retries i).alone.setting whole ∧ calls (s.2 i).1 <+: whole ∧
      ∀ k result run, (s.2 i).2 = .ended (some (k, (result, run))) → result ≠ .panicked ∧
        ∀ output, result = .ready output →
          ∃ baseline, Finished (retries i).alone.setting baseline (calls (s.2 i).1) output := by
  obtain ⟨r, t, driven, -, -, hdrive, hbegun, hended⟩ :=
    AsyncRetry.drive_alone_of_run h Thread.anything_of i fun _ _ => .anything _
  refine ⟨calls t.log, AsyncRetry.underway_of_drive hdrive, hbegun.filter _,
    fun k result run hthread => ?_⟩
  obtain ⟨hlog, rfl⟩ := hended _ hthread
  have hlands := (retries i).alone.polledTo_lands (AsyncRetry.polledTo_of_drive hdrive)
  rw [hlog]
  constructor
  · rintro rfl
    rcases hlands with ⟨-, -, -, hresult⟩ | hfalse
    · cases hresult
    · exact hfalse
  · rintro output rfl
    rcases hlands with ⟨-, -, -, hresult⟩ | hfinished
    · cases hresult
    · exact ⟨_, hfinished⟩

/-- **Futures that share a world.**  However several threads poll an `AsyncRun` each, and
however the steps of these polls are interleaved, each run has made the calls of a run so
far; after a pending poll its fields show its own attempts and delays, after the last one it
tells one story about its own calls, and no poll panics. -/
theorem AsyncRetry.concurrent_async_runs {ι : Type} [DecidableEq ι] {Fut WaitFut R A O : ι → Type}
    (retries : (i : ι) → AsyncRetry (Thread σ Empty) (Fut i) (WaitFut i) (R i) (A i) (O i))
    (cxs : ι → ℕ → Context) (fuel : ι → ℕ → ℕ) (j : ι → ℕ) (outside : σ → σ → Prop) (w₀ : σ)
    (s : σ × ((i : ι) → List (Event (R i) (A i) (O i)) × Thread σ (Event (R i) (A i) (O i))
      (Option (ℕ × PollResult (Fut i) (WaitFut i) (R i) (A i) (O i)))))
    (h : Run (fun _ => Thread.Act) outside
      (w₀, fun i => ([], (retries i).threaded.drive (cxs i) (fuel i) (j i))) s) (i : ι) :
    (∃ whole, Underway (retries i).alone.setting whole ∧ calls (s.2 i).1 <+: whole) ∧
    ∀ k result run, (s.2 i).2 = .ended (some (k, (result, run))) →
      match result with
      | .pending => (k = 0 ∧ run = .intoRun) ∨
          ∃ baseline, PhaseInvariant (retries i).timeout baseline (calls (s.2 i).1) run ∧
            BaselineFirst baseline (calls (s.2 i).1)
      | .ready output => (∃ baseline, Finished (retries i).alone.setting baseline
            (calls (s.2 i).1) output) ∧
          ∃ exit, Story (retries i).alone.setting (calls (s.2 i).1) output exit
      | .panicked => False := by
  obtain ⟨whole, hunderway, hbegun, hended⟩ := AsyncRetry.underway_of_run h i
  refine ⟨⟨whole, hunderway, hbegun⟩, fun k result run hthread => ?_⟩
  obtain ⟨hsafe, hready⟩ := hended k result run hthread
  cases result with
  | pending =>
    obtain ⟨r, t, driven, -, -, hdrive, -, hends⟩ :=
      AsyncRetry.drive_alone_of_run h Thread.anything_of i fun _ _ => .anything _
    obtain ⟨hlog, rfl⟩ := hends _ hthread
    have hpolled := AsyncRetry.polledTo_of_drive hdrive
    rw [hlog]
    cases k with
    | zero =>
      cases hpolled with
      | created => exact .inl ⟨rfl, rfl⟩
    | succ k => exact .inr ⟨_, AsyncRetry.phaseInvariant_of_polledTo hpolled⟩
  | ready output =>
    obtain ⟨baseline, hfinished⟩ := hready output rfl
    exact ⟨⟨baseline, hfinished⟩, hfinished.story⟩
  | panicked => exact hsafe rfl

/-- Two futures that are busy twice, one of them with a timeout, on one clock. -/
def AsyncRetry.busyThreads (timed : Bool) :
    AsyncRetry (Thread ℕ Empty) (ℕ × Eff ℕ (Except String ℕ)) (ℕ × Eff ℕ Unit) ℕ String
      (Except String ℕ) :=
  (AsyncRetry.busyTwice (if timed then some (.ofNanos 9) else none)).into Thread.atomic

/-- Two threads that take turns in polling a future each. -/
theorem AsyncRetry.concurrent_async_runs_busyThreads :
    (∃ log exit, Story (AsyncRetry.busyThreads false).alone.setting log
      (.ok 7, ⟨3, .ofNanos 20, .ofNanos 5, .returned⟩) exit) ∧
    ∃ log exit, Story (AsyncRetry.busyThreads true).alone.setting log
      (.error (.exhausted (.error "busy")), ⟨2, .ofNanos 12, .zero, .exhausted⟩) exit := by
  let schedule := (List.replicate 70 [false, true]).flatten
  let start (i : Bool) := (([] : List (Event ℕ String (Except String ℕ))),
    (AsyncRetry.busyThreads i).threaded.drive (fun _ => ⟨0⟩) (fun _ => 9) 6)
  have hrun : Run (fun _ => Thread.Act) Eq ((0 : ℕ), start)
      (play (fun _ => Thread.advance) (0, start) schedule) :=
    Run.play (fun _ => Thread.act_advance) .start schedule
  have hstories := AsyncRetry.concurrent_async_runs AsyncRetry.busyThreads (fun _ _ => ⟨0⟩)
    (fun _ _ => 9) (fun _ => 6) Eq 0 _ hrun
  -- The futures of a run are functions, so only the results can be compared.
  have hended (i : Bool) (output : Output ℕ String (Except String ℕ))
      (h : ((play (fun _ => Thread.advance) (0, start) schedule).2 i).2.answer?.bind
        (Option.map fun driven => driven.2.1) = some (.ready output)) :
      ∃ log exit, Story (AsyncRetry.busyThreads i).alone.setting log output exit := by
    obtain ⟨driven, hanswer, hdriven⟩ := Option.bind_eq_some_iff.mp h
    obtain ⟨⟨k, ended, run⟩, rfl, rfl⟩ := Option.map_eq_some_iff.mp hdriven
    exact ⟨_, ((hstories i).2 k _ run (Thread.eq_ended_of_answer? hanswer)).2⟩
  exact ⟨hended false _ (by decide +kernel), hended true _ (by decide +kernel)⟩

/-! ## §4 A policy that is shared -/

/-- A strategy that is consulted in one step, as it is when it draws once. -/
def Wait.atomic (wait : Wait (Eff σ)) : Wait (Thread σ Empty) where
  nextWait state := .atomic (wait.nextWait state)

/-- **Decorrelated jitter, shared.**  Runs of both engines draw from the generators of shared
policies, in any order.  The delays of each follow the recurrence of its own delays: what the
others draw and wait for does not feed back into them. -/
theorem concurrent_decorrelated {ι cell : Type} [DecidableEq ι] [DecidableEq cell]
    (get : σ → cell → SplitMix64) (put : (cell → SplitMix64) → σ → σ) (base cap : ι → Duration)
    (shared : ι → cell) {R A O : ι → Type} (outside : σ → σ → Prop) (w₀ : σ) :
    let wait (i : ι) : Wait (Thread σ Empty) :=
      (Wait.ofExpr get put ((WaitExpr.decorrelatedJitter (base i) (shared i)).capped
        (cap i))).atomic
    (∀ (retries : (i : ι) → Retry (Thread σ Empty) (R i) (A i) (O i)) (n : ι → ℕ)
      (s : σ × ((i : ι) → List (Event (R i) (A i) (O i)) ×
        Thread σ (Event (R i) (A i) (O i)) (Turn Cursor (Output (R i) (A i) (O i))))),
      Run (fun _ => Thread.Act) outside (w₀, fun i =>
        ([], ({ retries i with wait := wait i }).threaded.runFor (n i))) s →
      ∀ i, ∃ whole, (s.2 i).1 <+: whole ∧
        Decorrelated (base i) (cap i) (retries i).timeout whole) ∧
    ∀ (Fut WaitFut : ι → Type)
      (retries : (i : ι) → AsyncRetry (Thread σ Empty) (Fut i) (WaitFut i) (R i) (A i) (O i))
      (cxs : ι → ℕ → Context) (fuel : ι → ℕ → ℕ) (j : ι → ℕ)
      (s : σ × ((i : ι) → List (Event (R i) (A i) (O i)) × Thread σ (Event (R i) (A i) (O i))
        (Option (ℕ × AsyncRetry.PollResult (Fut i) (WaitFut i) (R i) (A i) (O i))))),
      Run (fun _ => Thread.Act) outside (w₀, fun i =>
        ([], ({ retries i with wait := wait i }).threaded.drive (cxs i) (fuel i) (j i))) s →
      ∀ i, ∃ whole, calls (s.2 i).1 <+: whole ∧
        Decorrelated (base i) (cap i) (retries i).timeout whole := by
  intro wait
  have hanswers : ∀ i (classifier : Decide (Eff (Thread.Replay σ)) (R i) (A i) (O i)) stop state d,
      (Answers.of classifier stop ⟨fun state => ((wait i).nextWait state).alone⟩).nextWait state d →
        (decorrelatedBounds (base i) (cap i) state).Contains d := by
    rintro i classifier stop state d ⟨r, rfl⟩
    exact contains_next ((WaitExpr.decorrelatedJitter (base i) (shared i)).capped (cap i)) state
      (get r.world)
  constructor
  · intro retries n s h i
    obtain ⟨whole, hunderway, hbegun, -⟩ := Retry.underway_of_run h i
    exact ⟨whole, hbegun, hunderway.fedBack.decorrelated fun state d => hanswers i _ _ state d⟩
  · intro Fut WaitFut retries cxs fuel j s h i
    obtain ⟨whole, hunderway, hbegun, -⟩ := AsyncRetry.underway_of_run h i
    exact ⟨whole, hbegun, hunderway.fedBack.decorrelated fun state d => hanswers i _ _ state d⟩

/-- A run on a clock that shares its world with one generator. -/
def Retry.busyJittered :
    Retry (Thread (ℕ × SplitMix64) Empty) ℕ String (Except String ℕ) :=
  (Retry.busyTwice none).into fun x =>
    .atomic fun w => ((x w.1).1, ((x w.1).2, w.2))

/-- A future on a clock that shares its world with one generator. -/
def AsyncRetry.busyJittered : AsyncRetry (Thread (ℕ × SplitMix64) Empty)
    (ℕ × Eff ℕ (Except String ℕ)) (ℕ × Eff ℕ Unit) ℕ String (Except String ℕ) :=
  (AsyncRetry.busyTwice none).into fun x => .atomic fun w => ((x w.1).1, ((x w.1).2, w.2))

/-- Two runs that draw from one generator in turns, and have waited twice each. -/
theorem concurrent_decorrelated_busyJittered :
    ∃ logs : Bool → List (Event ℕ String (Except String ℕ)),
      (∀ i, (gapDelays none (logs i)).length = 2) ∧
      ∀ i, ∃ whole, logs i <+: whole ∧
        Decorrelated (.ofNanos 4) (.ofNanos 9) none whole := by
  let get (w : ℕ × SplitMix64) (_ : Unit) : SplitMix64 := w.2
  let put (generators : Unit → SplitMix64) (w : ℕ × SplitMix64) := (w.1, generators ())
  let wait : Wait (Thread (ℕ × SplitMix64) Empty) := (Wait.ofExpr get put
    ((WaitExpr.decorrelatedJitter (.ofNanos 4) ()).capped (.ofNanos 9))).atomic
  let start (_ : Bool) := (([] : List (Event ℕ String (Except String ℕ))),
    ({ Retry.busyJittered with wait }).threaded.runFor 4)
  let played := play (fun _ => Thread.advance) (((0 : ℕ), (⟨0⟩ : SplitMix64)), start)
    (List.replicate 60 [false, true]).flatten
  have hrun : Run (fun _ => Thread.Act) Eq (_, start) played :=
    Run.play (fun _ => Thread.act_advance) .start _
  have h := (concurrent_decorrelated get put (fun _ => .ofNanos 4) (fun _ => .ofNanos 9)
    (fun _ => ()) Eq _).1 (fun _ => Retry.busyJittered) (fun _ => 4) played hrun
  refine ⟨fun i => (played.2 i).1, fun i => ?_, h⟩
  cases i <;> decide +kernel

end Relentless
