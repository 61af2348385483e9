import Relentless.Engine.AsyncTwin
import Relentless.Engine.Watched
import Relentless.Guarantees.Watermark
import Relentless.Trace.Consultations

/-!
# The Phase Invariant and the Future Contract

However an `AsyncRun` is polled, its fields can be read off the calls it has made, its inner
futures are polled as futures have to be, and it panics only when it is polled after it was
ready.

- `BaselineFirst` — the baseline is read once, by the first poll
- `PhaseInvariant` — the fields between two polls, phase by phase
- `AsyncRetry.phaseInvariant` — they hold after every pending poll
- `async_run_contract` — the invariant, the contract of the futures, and the panic
-/

namespace Relentless

open StateLoop
open Futures (FutureContract)

variable {σ Fut WaitFut R A O : Type}

/-! ## §1 What rounds leave behind -/

/-- Polls and wakes bring no outcome. -/
theorem outcomes_calls (log : List (Event R A O)) : outcomes (calls log) = outcomes log := by
  apply filterMap_calls
  intro ev hev
  cases ev <;> first | rfl | cases hev

theorem outcomes_openingCalls (S : Setting R A O) (mark : Mark) (reading : Duration) :
    outcomes (Round.openingCalls S mark reading) = [] :=
  Round.filterMap_openingCalls Event.outcome? (fun _ => rfl) (fun _ _ => rfl) (fun _ => rfl) S mark
    reading

theorem gapDelays_openingCalls (S : Setting R A O) (mark : Mark) (reading : Duration) :
    gapDelays S.timeout (Round.openingCalls S mark reading) = [] :=
  Round.filterMap_openingCalls (Event.gapDelay? S.timeout) (fun _ => rfl) (fun _ _ => rfl)
    (fun _ => rfl) S mark reading

/-- Every operation of a round is answered. -/
theorem Rounds.length_outcomes {S : Setting R A O} {mark : Mark} {log : List (Event R A O)}
    {turn : Turn Mark (Output R A O)} (h : Rounds S mark log turn) :
    (outcomes log).length = (opStates log).length := by
  induction h with
  | pause mark => rfl
  | last mark round output hallowed hturn => rw [outcomes_round, opStates_round]; rfl
  | next mark mark' round rest turn hallowed hturn hrest ih =>
    rw [outcomes_append, opStates_append, outcomes_round, opStates_round, List.length_append,
      List.length_append, ih]
    rfl

/-- The mark after some rounds keeps the origin, and remembers the delay of the last gap. -/
theorem Rounds.remembers {S : Setting R A O} {mark : Mark} {log : List (Event R A O)}
    {turn : Turn Mark (Output R A O)} (h : Rounds S mark log turn) {mark' : Mark}
    (hturn : turn = .again mark') :
    mark'.elapsed.origin = mark.elapsed.origin ∧
      mark'.previousDelay = ((gapDelays S.timeout log).getLast?).or mark.previousDelay := by
  induction h with
  | pause mark =>
    obtain rfl := Turn.again.inj hturn
    exact ⟨rfl, rfl⟩
  | last mark round output hallowed hround => cases hturn
  | next mark mark₁ round rest turn hallowed hround hrest ih =>
    obtain ⟨horigin, hprevious⟩ := ih hturn
    obtain ⟨last, rawDelay, hfate, rfl⟩ := Round.eq_retried_of_turn hround
    refine ⟨horigin, ?_⟩
    rw [hprevious, gapDelays_append, gapDelays_round, Round.gap, hfate, List.getLast?_append,
      Option.or_assoc]
    rfl

/-- A sum saturated at every step is the saturation of the whole sum. -/
theorem Duration.foldl_saturatingAdd (delays : List Duration) (n : ℕ) :
    delays.foldl saturatingAdd (.ofNanos n) = .ofNanos (n + (delays.map nanos).sum) := by
  have hfold := Saturation.foldl_min_add maxNanos n (delays.map nanos)
  rw [List.foldl_map] at hfold
  apply Duration.ext
  rw [nanos_ofNanos, ← hfold]
  exact (List.foldl_hom nanos fun sum delay => rfl).symm

/-! ## §2 Between two polls -/

/-- The first call of the run reads the baseline, and all other readings of the clock are
those before and after its attempts. -/
def BaselineFirst (baseline : Duration) (log : List (Event R A O)) : Prop :=
  ∃ rest, log = .now baseline :: rest ∧ ReadsTwice 1 0 rest ∧
    (readings rest).length = (opStates rest).length + (outcomes rest).length

/-- What the fields of a pending run show, `log` being the calls it has made so far. -/
structure PhaseInvariant (timeout : Option Duration) (baseline : Duration)
    (log : List (Event R A O)) (run : AsyncRun Fut WaitFut) : Prop where
  /-- The counter shows the attempt that is made, or the one that the gap follows; and in a
  gap the previous delay is the delay of that gap. -/
  phase : match run.phase with
    | .polling _ => run.attempt.toNat = min ((outcomes log).length + 1) u32Max
    | .sleeping _ => run.attempt.toNat = min (outcomes log).length u32Max ∧
        ∃ delay, (gapDelays timeout log).getLast? = some delay ∧
          run.previousDelay = some delay ∧ .zero < delay
    | .yielding => run.attempt.toNat = min (outcomes log).length u32Max ∧
        (gapDelays timeout log).getLast? = some .zero ∧ run.previousDelay = some .zero
    | .readyToStart | .done => False
  /-- The total wait is the saturating sum of the delays of all gaps. -/
  totalWait : run.totalWait = (gapDelays timeout log).foldl Duration.saturatingAdd .zero
  /-- Elapsed times are measured from the baseline that was read first. -/
  origin : ∃ elapsed, run.elapsed = some elapsed ∧ elapsed.origin = baseline

theorem PhaseInvariant.congr {timeout : Option Duration} {baseline : Duration}
    {log log' : List (Event R A O)} {run : AsyncRun Fut WaitFut}
    (h : PhaseInvariant timeout baseline log run) (houtcomes : outcomes log' = outcomes log)
    (hgaps : gapDelays timeout log' = gapDelays timeout log) :
    PhaseInvariant timeout baseline log' run where
  phase := by
    rw [houtcomes, hgaps]
    exact h.phase
  totalWait := by
    rw [hgaps]
    exact h.totalWait
  origin := h.origin

section Live

variable {S : Setting R A O} {baseline : Duration} {rounds : List (Event R A O)} {mark : Mark}

/-- The attempts of the rounds so far have been completed. -/
theorem Rounds.completed (h : Rounds S (.start baseline) rounds (.again mark)) :
    mark.round = (outcomes rounds).length + 1 := by
  have hcount : mark.round = 1 + (opStates rounds).length := h.counts
  rw [hcount, h.length_outcomes, Nat.add_comm]

/-- In a gap the counter still shows the attempt before it. -/
theorem Rounds.attempt_in_gap (h : Rounds S (.start baseline) rounds (.again mark)) {k : ℕ}
    (hround : mark.round = k + 1) :
    (attemptNumber k).toNat = min (outcomes rounds).length u32Max := by
  have hk : k = (outcomes rounds).length := Nat.succ.inj (hround.symm.trans h.completed)
  rw [attemptNumber_toNat, hk]

theorem Rounds.previousDelay_eq (h : Rounds S (.start baseline) rounds (.again mark)) :
    (gapDelays S.timeout rounds).getLast? = mark.previousDelay := by
  have hprevious := (h.remembers rfl).2
  rw [hprevious]
  exact (Option.or_none).symm

theorem Rounds.waited_eq (h : Rounds S (.start baseline) rounds (.again mark)) :
    Duration.ofNanos mark.waited =
      (gapDelays S.timeout rounds).foldl Duration.saturatingAdd .zero := by
  have hwaits : mark.waited = 0 + ((gapDelays S.timeout rounds).map Duration.nanos).sum := h.waits
  rw [hwaits]
  exact (Duration.foldl_saturatingAdd _ 0).symm

theorem Rounds.baselineFirst {turn : Turn Mark (Output R A O)}
    (h : Rounds S (.start baseline) rounds turn) :
    BaselineFirst baseline (.now baseline :: rounds) := by
  refine ⟨rounds, rfl, h.readsTwice 0, ?_⟩
  rw [h.length_readings, h.length_outcomes, Nat.two_mul]

/-- **A live run stands where its fields say.** -/
theorem Stands.phaseInvariant {log : List (Event R A O)} {elapsed : Elapsed}
    {run : AsyncRun Fut WaitFut} (h : Stands S baseline log (elapsed, run.toRunFields))
    (helapsed : run.elapsed = some elapsed) (hlive : run.toRunFields.Live)
    (hphase : run.phase ≠ .readyToStart) : PhaseInvariant S.timeout baseline log run := by
  obtain ⟨fields, runElapsed⟩ := run
  obtain rfl : runElapsed = some elapsed := helapsed
  cases h with
  | ready rounds mark hrounds => exact absurd rfl hphase
  | polling rounds mark reading future hrounds =>
    -- The opening of the next round is neither an outcome nor a gap.
    let fields : RunFields Fut WaitFut := mark.fields (.polling future) mark.round
    have hinvariant : PhaseInvariant S.timeout baseline rounds
        { fields with elapsed := some (mark.before reading) } := by
      constructor
      · show (attemptNumber mark.round).toNat = _
        rw [attemptNumber_toNat, hrounds.completed]
      · exact hrounds.waited_eq
      · exact ⟨_, rfl, (Elapsed.observe_origin _ _).trans (hrounds.remembers rfl).1⟩
    apply hinvariant.congr
    · show outcomes (rounds ++ Round.openingCalls S mark reading) = _
      rw [outcomes_append, outcomes_openingCalls, List.append_nil]
    · show gapDelays S.timeout (rounds ++ Round.openingCalls S mark reading) = _
      rw [gapDelays_append, gapDelays_openingCalls, List.append_nil]
  | sleeping rounds mark k future hrounds hround hpos =>
    obtain ⟨delay, hdelay, hzero⟩ := hlive
    have hdelay : mark.previousDelay = some delay := hdelay
    constructor
    · refine ⟨hrounds.attempt_in_gap hround, delay, hrounds.previousDelay_eq.trans hdelay,
        hdelay, ?_⟩
      exact (Duration.ne_zero_iff delay).mp hzero
    · exact hrounds.waited_eq
    · exact ⟨_, rfl, (hrounds.remembers rfl).1⟩
  | yielding rounds mark k hrounds hround hpos =>
    have hdelay : mark.previousDelay = some .zero := hlive
    constructor
    · exact ⟨hrounds.attempt_in_gap hround, hrounds.previousDelay_eq.trans hdelay, hdelay⟩
    · exact hrounds.waited_eq
    · exact ⟨_, rfl, (hrounds.remembers rfl).1⟩

theorem Stands.baselineFirst {log : List (Event R A O)}
    {state : AsyncRetry.LoopState Fut WaitFut} (h : Stands S baseline log state) :
    BaselineFirst baseline log := by
  cases h with
  | ready rounds mark hrounds => exact hrounds.baselineFirst
  | sleeping rounds mark k future hrounds hround hpos => exact hrounds.baselineFirst
  | yielding rounds mark k hrounds hround hpos => exact hrounds.baselineFirst
  | polling rounds mark reading future hrounds =>
    refine ⟨rounds ++ Round.openingCalls S mark reading, rfl, .append (hrounds.readsTwice 0) ?_, ?_⟩
    · have hplaced := ReadsTwice.opening S mark reading (opStates rounds).length
      rwa [hrounds.length_readings, Nat.add_comm 1, Nat.zero_add]
    · -- The operation in flight has been read before, but not answered.
      rw [readings_append, opStates_append, outcomes_append, Round.readings_openingCalls,
        Round.opStates_openingCalls, outcomes_openingCalls, List.length_append,
        List.length_append, List.length_append, hrounds.length_readings, hrounds.length_outcomes]
      simp only [List.length_singleton, List.length_nil]
      omega

end Live

/-! ## §3 However a run is polled -/

/-- What the log adds to a world, and nothing else. -/
def Logs (w : σ) (t : Traced σ R A O) : Prop := t.world = w

theorem HookSlot.couples_traced {α : Type} (event : ℕ → α → Event R A O) (slot : HookSlot (Eff σ) α)
    (view : α) :
    Eff.Couples Logs Eq (slot.call view) ((slot.recorded .traced event).call view) := by
  rintro _ ⟨w, log⟩ rfl
  rw [HookSlot.recorded_call]
  exact ⟨rfl, rfl⟩

namespace AsyncRetry

variable (self : AsyncRetry (Eff σ) Fut WaitFut R A O)

theorem coupled_traced : Coupled Logs Eq Eq self self.traced where
  parts :=
    { decide := by rintro outcome _ t rfl; exact ⟨rfl, rfl⟩
      shouldStop := by rintro state _ t rfl; exact ⟨rfl, rfl⟩
      nextWait := by rintro state _ t rfl; exact ⟨rfl, rfl⟩
      beforeAttempt := HookSlot.couples_traced .beforeAttempt self.hooks.beforeAttempt
      afterAttempt := HookSlot.couples_traced .afterAttempt self.hooks.afterAttempt
      onExit := HookSlot.couples_traced .onExit self.hooks.onExit }
  callOp := by rintro state _ t rfl; exact ⟨rfl, rfl⟩
  poll := by rintro future _ cx rfl _ t rfl; exact ⟨⟨rfl, rfl⟩, rfl⟩
  now := by rintro _ t rfl; exact ⟨rfl, rfl⟩
  waitAsync := by rintro delay _ t rfl; exact ⟨rfl, rfl⟩
  pollWait := by rintro future _ cx rfl _ t rfl; exact ⟨⟨rfl, rfl⟩, rfl⟩
  wakeByRef := by rintro cx _ t rfl; exact ⟨rfl, rfl⟩
  timeout := rfl

/-- **Traced or not**, the polls of a configuration go the same way. -/
theorem traced_pollSequence {cxs : ℕ → Context} {w₀ : σ}
    {results : List (PollEnd (Output R A O))} {w : σ} {run : AsyncRun Fut WaitFut}
    (h : self.PollSequence cxs w₀ results w run) :
    ∃ t, self.traced.PollSequence cxs ⟨w₀, []⟩ results t run ∧ t.world = w := by
  have hlogs : Logs w₀ (⟨w₀, []⟩ : Traced σ R A O) := rfl
  obtain ⟨t, run', hpolled, hworlds, hrun⟩ := self.coupled_traced.pollSequence hlogs h
  obtain rfl := hrun.eq
  exact ⟨t, hpolled, hworlds⟩

variable {self} {cxs : ℕ → Context} {w₀ : σ} {results : List (PollEnd (Output R A O))}
  {t : Traced σ R A O} {run : AsyncRun Fut WaitFut}

/-- **The phase invariant** holds after every poll that was pending. -/
theorem phaseInvariant (h : self.traced.PollSequence cxs ⟨w₀, []⟩ results t run)
    (hpending : results.getLast? = some .pending) :
    PhaseInvariant self.timeout (self.clock.now w₀).1 t.log run := by
  rcases h.cases with ⟨-, hpolled⟩ | ⟨j, output, -, hlast, -⟩
  · have hnonempty : results.length ≠ 0 := by
      rintro hnil
      rw [List.length_eq_zero_iff.mp hnil] at hpending
      cases hpending
    rcases self.polledTo_lands hpolled with ⟨hnil, -⟩ | ⟨elapsed, helapsed, hstands⟩
    · exact absurd hnil hnonempty
    · rcases hpolled.leaves with ⟨hnil, -⟩ | ⟨⟨hlive, hphase⟩, -⟩
      · exact absurd hnil hnonempty
      · have hcalls := hstands.phaseInvariant helapsed hlive hphase
        exact hcalls.congr (outcomes_calls t.log).symm (gapDelays_calls self.timeout t.log).symm
  · exact absurd hpending hlast

/-- **The baseline is read once**, by the first poll. -/
theorem baselineFirst (h : self.traced.PollSequence cxs ⟨w₀, []⟩ results t run)
    (hpolled : results ≠ []) : BaselineFirst (self.clock.now w₀).1 (calls t.log) := by
  rcases h.cases with ⟨-, hpending⟩ | ⟨j, output, -, -, hready⟩
  · rcases self.polledTo_lands hpending with ⟨hnil, -⟩ | ⟨elapsed, -, hstands⟩
    · exact absurd (List.length_eq_zero_iff.mp hnil) hpolled
    · exact hstands.baselineFirst
  · rcases self.polledTo_lands hready with ⟨hnil, -⟩ | ⟨rounds, hlog, hrounds⟩
    · cases hnil
    · rw [hlog]
      exact hrounds.baselineFirst

end AsyncRetry

/-- **What holds of an async run, however it is polled.**  After each poll that was pending its
phase is polling, sleeping or yielding, and its fields are determined by the calls it has made;
the baseline is read once, by the first poll.  At any point of any poll the log of the inner
futures keeps their contract, and a poll that returns has polled every future that it has
created.  A poll panics just when the run was ready before. -/
theorem async_run_contract (self : AsyncRetry (Eff σ) Fut WaitFut R A O) (cxs : ℕ → Context)
    (w₀ : σ) :
    (∀ results t run, self.traced.PollSequence cxs ⟨w₀, []⟩ results t run →
      (results.getLast? = some .pending →
        PhaseInvariant self.timeout (self.clock.now w₀).1 t.log run) ∧
      (results ≠ [] → BaselineFirst (self.clock.now w₀).1 (calls t.log))) ∧
    (∀ results t run, self.watched.PollSequence cxs (.start w₀) results t run → ∀ n,
      let polled := self.watched.pollFor n (cxs results.length) run t
      FutureContract polled.2.log ∧
      ∀ ended, polled.1 = .done ended → ∃ added, polled.2.log = t.log ++ added ∧
        ∀ kind id, .created kind id ∈ added → ∃ ready, .polled kind id ready ∈ added) ∧
    ∀ results w run, self.PollSequence cxs w₀ results w run →
      ((∃ n run' w', self.pollFor n (cxs results.length) run w = (.done (.panicked, run'), w')) ↔
        ∃ output, .ready output ∈ results) ∧
      (∃ t, self.traced.PollSequence cxs ⟨w₀, []⟩ results t run ∧ t.world = w) ∧
      ∃ t run', self.watched.PollSequence cxs (.start w₀) results t run' ∧ t.world = w ∧
        run.Matches SameFuture SameFuture run' := by
  refine ⟨?_, ?_, ?_⟩
  · intro results t run h
    exact ⟨AsyncRetry.phaseInvariant h, AsyncRetry.baselineFirst h⟩
  · intro results t run h n
    refine ⟨h.contract (cxs results.length) n, fun ended hended => ?_⟩
    exact h.polled_of_created (Prod.ext hended rfl)
  · intro results w run h
    exact ⟨h.panicked_iff (cxs results.length), self.traced_pollSequence h,
      self.watched_pollSequence h⟩

/-- A run that sleeps after its fourth poll, and panics when it is polled after the sixth, which
was ready. -/
theorem async_run_contract_busyTwice :
    (∃ t run, PhaseInvariant none .zero t.log run ∧
      (AsyncRetry.busyTwice none).traced.PolledTo (fun _ => ⟨0⟩) ⟨0, []⟩ 4 t run .pending) ∧
    ∃ w run n run' w',
      (AsyncRetry.busyTwice none).PolledTo (fun _ => ⟨0⟩) 0 6 w run
        (.ready (.ok 7, ⟨3, .ofNanos 14, .ofNanos 5, .returned⟩)) ∧
      (AsyncRetry.busyTwice none).pollFor n ⟨0⟩ run w = (.done (.panicked, run'), w') := by
  obtain ⟨htraced, -, hplain⟩ := async_run_contract (AsyncRetry.busyTwice none) (fun _ => ⟨0⟩) 0
  constructor
  · have hpolls : ((AsyncRetry.busyTwice none).traced.polls (fun _ => ⟨0⟩) 9 ⟨0, []⟩ 4).map
        Prod.fst = some .pending := by decide +kernel
    obtain ⟨t, run, hpolled⟩ := AsyncRetry.exists_polledTo hpolls
    obtain ⟨results, -, hsequence, hlast⟩ := hpolled.pollSequence
    exact ⟨t, run, (htraced results t run hsequence).1 (hlast (by decide)), hpolled⟩
  · have hpolls : ((AsyncRetry.busyTwice none).polls (fun _ => ⟨0⟩) 9 0 6).map Prod.fst =
        some (.ready (.ok 7, ⟨3, .ofNanos 14, .ofNanos 5, .returned⟩)) := by decide +kernel
    obtain ⟨w, run, hpolled⟩ := AsyncRetry.exists_polledTo hpolls
    obtain ⟨results, -, hsequence, hlast⟩ := hpolled.pollSequence
    have hready := List.mem_of_getLast? (hlast (by decide))
    obtain ⟨n, run', w', hpanicked⟩ := (hplain results w run hsequence).1.mpr ⟨_, hready⟩
    exact ⟨w, run, n, run', w', hpolled, hpanicked⟩

/-- The futures of a run of three attempts, each of which is pending once: no wait follows
the first attempt, whose delay is zero. -/
example : ((AsyncRetry.busyTwice none).watched.polls (fun _ => ⟨0⟩) 9 (.start 0) 6).map
    (fun polled => polled.2.2.log) = some
      [.created .op 0, .polled .op 0 false, .polled .op 0 true,
        .created .op 1, .polled .op 1 false, .polled .op 1 true,
        .created .wait 2, .polled .wait 2 false, .polled .wait 2 true,
        .created .op 3, .polled .op 3 false, .polled .op 3 true] := by
  decide +kernel

end Relentless
