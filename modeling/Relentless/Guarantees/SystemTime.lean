import Relentless.Clock.System
import Relentless.Engine.Coupled
import Relentless.Guarantees.ConcurrentRuns
import Relentless.Guarantees.TimeoutBound
import Relentless.Trace.Saturating

/-!
# Threads on the System Clock

Runs of the sync engine on `SystemClock`, on any number of threads, in a process where time
passes whenever it likes.  The readings of each thread keep the contract of the clock, which
the guarantees of a run assume, whoever has set the anchor.

- `Retry.PartsMove.onTime_runFor` — a run alone, while others let time pass
- `SystemClock.concurrent_coherent` — the logs of all threads are coherent
- `SystemClock.concurrent_bounded` — and a timeout bounds the runs of all threads
-/

namespace Relentless

open StateLoop
open Interleaving (Run play)
open Thread (Replay)
open Eff (Moves)
open Eff.Moves (Inherits)

variable {ρ R A O : Type}

/-! ## §1 One run, while others let time pass -/

/-- If others will only let time pass, then so they will, and time has passed. -/
def Onward (r r' : Replay (SystemTime × ρ)) : Prop :=
  r.Within Passes → r'.Within Passes ∧ Passes r.world r'.world

instance : IsPreorder (Replay (SystemTime × ρ)) Onward where
  refl _ h := ⟨h, refl_of Passes _⟩
  trans _ _ _ h h' hwithin :=
    ⟨(h' (h hwithin).1).1, trans_of Passes (h hwithin).2 (h' (h hwithin).1).2⟩

theorem onward_alone {α : Type} {x : Thread (SystemTime × ρ) Empty α}
    (hx : x.Moves Passes) : Eff.Moves Onward x.alone :=
  fun _ hr => hx.alone hr

theorem HookSlot.Move.onward {α : Type} {slot : HookSlot (Thread (SystemTime × ρ) Empty) α}
    (h : slot.Move Passes) (view : α) : Eff.Moves Onward ((slot.into Thread.alone).call view) := by
  induction slot generalizing view with
  | unit => exact Eff.Moves.pure ()
  | chain first second ih => exact (ih h.1 view).bind fun _ => onward_alone (h.2 view)

/-- The log keeps the pace, and the next reading will. -/
structure Timed (t : Traced (Replay (SystemTime × ρ)) R A O) : Prop where
  within : t.world.Within Passes
  paced : KeepsPace t.log t.world.world.1.sinceAnchor t.world.world.1.sinceAnchor

/-- The same, with an anchor, from which a wait can be measured. -/
structure OnTime (t : Traced (Replay (SystemTime × ρ)) R A O) : Prop extends Timed t where
  anchored : t.world.world.1.anchor.isSome

section Steps

variable {r r' : Replay (SystemTime × ρ)} {log : List (Event R A O)}

theorem Timed.start (hr : r.Within Passes) : Timed (⟨r, []⟩ : Traced _ R A O) :=
  ⟨hr, .start _ _⟩

/-- Events that are not paced, while time passes. -/
theorem OnTime.unpaced (h : OnTime ⟨r, log⟩) (honward : Onward r r') {evs : List (Event R A O)}
    (hevs : ∀ ev ∈ evs, ev.isPaced = false) : OnTime ⟨r', log ++ evs⟩ := by
  obtain ⟨hwithin, hpasses⟩ := honward h.within
  obtain ⟨a, ha⟩ := Option.isSome_iff_exists.mp h.anchored
  have hpaced := h.paced.mono hpasses.sinceAnchor_le hpasses.sinceAnchor_le
  exact ⟨⟨hwithin, hpaced.unpaced hevs⟩, Option.isSome_iff_exists.mpr ⟨a, hpasses.2 a ha⟩⟩

/-- A reading keeps the pace, and sets the anchor if nobody has. -/
theorem Timed.now (h : Timed ⟨r, log⟩) :
    OnTime ⟨(SystemClock.now.alone r).2, log ++ [.now (SystemClock.now.alone r).1]⟩ := by
  obtain ⟨n, hreading, hbefore, hafter, hanchored⟩ := SystemClock.now_alone h.within
  have hwithin := (onward_alone SystemClock.moves_now r h.within).1
  exact ⟨⟨hwithin, hreading ▸ h.paced.now hbefore hafter⟩, hanchored⟩

/-- After a wait the next reading is as late as it has to be. -/
theorem OnTime.wait (h : OnTime ⟨r, log⟩) (delay : Duration) :
    OnTime ⟨((SystemClock.wait delay).alone r).2, log ++ [.wait delay]⟩ := by
  obtain ⟨hwithin, hpasses⟩ := onward_alone (SystemClock.moves_wait delay) r h.within
  obtain ⟨a, ha⟩ := Option.isSome_iff_exists.mp h.anchored
  have hslept := SystemClock.wait_alone h.within h.anchored delay
  have hpaced := h.paced.wait hpasses.sinceAnchor_le hslept
  exact ⟨⟨hwithin, hpaced.mono hpasses.sinceAnchor_le (le_refl _)⟩,
    Option.isSome_iff_exists.mpr ⟨a, hpasses.2 a ha⟩⟩

end Steps

section Parts

variable {α : Type}

theorem moves_record {ev : Event R A O} (hev : ev.isPaced = false) :
    Moves (Inherits (OnTime (ρ := ρ))) (record ev) :=
  fun _ h => h.unpaced (refl_of Onward _) (List.forall_mem_singleton.mpr hev)

theorem moves_logged {event : α → Event R A O} {x : Thread (SystemTime × ρ) Empty α}
    (hx : x.Moves Passes) (hevent : ∀ answer, (event answer).isPaced = false) :
    Moves (Inherits OnTime) (logged event x.alone) :=
  fun t h => h.unpaced (onward_alone hx t.world) (List.forall_mem_singleton.mpr (hevent _))

theorem HookSlot.Move.stays {slot : HookSlot (Thread (SystemTime × ρ) Empty) α}
    (h : slot.Move Passes) {event : ℕ → α → Event R A O}
    (hevent : ∀ hook view, (event hook view).isPaced = false) (view : α) :
    Moves (Inherits OnTime) (((slot.into Thread.alone).recorded .traced event).call view) := by
  intro t hontime
  rw [HookSlot.recorded_call]
  exact hontime.unpaced (h.onward view t.world) (forall_hookEvents fun hook => hevent hook view)

end Parts

namespace Retry

variable {self : Retry (Thread (SystemTime × ρ) Empty) R A O}

/-- The configuration on `SystemClock`. -/
def onSystemClock (self : Retry (Thread (SystemTime × ρ) Empty) R A O) :
    Retry (Thread (SystemTime × ρ) Empty) R A O :=
  { self with clock := SystemClock.syncClock }

/-- **Every part keeps the log on time.** -/
theorem PartsMove.inheritsOnTime (h : self.PartsMove Passes) :
    self.onSystemClock.alone.traced.AllMove (Inherits OnTime) where
  parts :=
    { decide := fun outcome => moves_logged (h.decide outcome) fun _ => rfl
      shouldStop := fun state => moves_logged (h.shouldStop state) fun _ => rfl
      nextWait := fun state => moves_logged (h.nextWait state) fun _ => rfl
      beforeAttempt := fun state => h.beforeAttempt.stays (fun _ _ => rfl) state
      afterAttempt := fun state => h.afterAttempt.stays (fun _ _ => rfl) state
      onExit := fun exit => h.onExit.stays (fun _ _ => rfl) exit }
  op state := (moves_record rfl).bind fun _ => moves_logged (h.op state) fun _ => rfl
  now _ hontime := hontime.now
  wait delay _ hontime := hontime.wait delay

/-- **A run alone is on time**: its first reading sets the anchor, if there was none. -/
theorem PartsMove.onTime_runFor (h : self.PartsMove Passes) (n : ℕ) {r : Replay (SystemTime × ρ)}
    (hr : r.Within Passes) : OnTime (self.onSystemClock.alone.traced.runFor n ⟨r, []⟩).2 := by
  have hrounds := Moves.runFor (fun cursor => h.inheritsOnTime.loopBody cursor) n
  exact hrounds _ _ (Timed.start hr).now

end Retry

/-! ## §2 Runs that are cut off -/

/-- What a run has logged at some moment: whole rounds, and of the next one a part, in which
the operation is called once at most. -/
theorem Rounds.of_front {S : Setting R A O} {mark : Mark} {log front : List (Event R A O)}
    {turn : Turn Mark (Output R A O)} (h : Rounds S mark log turn) (hfront : front <+: log) :
    ∃ rounds part mark', Rounds S mark rounds (.again mark') ∧ front = rounds ++ part ∧
      (opStates part).length ≤ 1 := by
  -- A part of a round has no more calls than the round.
  have hpart (mark : Mark) (round : Round R A O) {part : List (Event R A O)}
      (hpart : part <+: round.calls S mark) : (opStates part).length ≤ 1 := by
    have hle := (hpart.sublist.filterMap Event.opState?).length_le
    have hround : (opStates (round.calls S mark)).length = 1 := by
      rw [opStates_round, List.length_singleton]
    exact hle.trans hround.le
  induction h generalizing front with
  | pause mark =>
    obtain rfl := List.prefix_nil.mp hfront
    exact ⟨[], [], mark, .pause mark, rfl, Nat.zero_le _⟩
  | last mark round output hallowed hturn =>
    exact ⟨[], front, mark, .pause mark, rfl, hpart mark round hfront⟩
  | next mark mark' round rest turn hallowed hturn hrest ih =>
    by_cases hlong : (round.calls S mark).length ≤ front.length
    · obtain ⟨later, rfl⟩ :=
        List.prefix_of_prefix_length_le (List.prefix_append _ rest) hfront hlong
      obtain ⟨rounds, part, mark'', hrounds, rfl, hops⟩ :=
        ih ((List.prefix_append_right_inj _).mp hfront)
      refine ⟨round.calls S mark ++ rounds, part, mark'', ?_, (List.append_assoc _ _ _).symm, hops⟩
      exact .next mark mark' round rounds _ hallowed hturn hrounds
    · have hshort : front <+: round.calls S mark :=
        List.prefix_of_prefix_length_le hfront (List.prefix_append _ rest) (not_le.mp hlong).le
      exact ⟨[], front, mark, .pause mark, rfl, hpart mark round hshort⟩

/-- The same, from the baseline on, when the log has begun. -/
theorem Underway.of_front {S : Setting R A O} {log front : List (Event R A O)}
    (h : Underway S log) (hfront : front <+: log) (hbegun : front ≠ []) :
    ∃ baseline rounds part mark, Rounds S (.start baseline) rounds (.again mark) ∧
      front = .now baseline :: (rounds ++ part) ∧ (opStates part).length ≤ 1 := by
  obtain ⟨ev, front, rfl⟩ := List.exists_cons_of_ne_nil hbegun
  cases h with
  | created => cases List.prefix_nil.mp hfront
  | rounds baseline log turn hrounds =>
    obtain ⟨rfl, hrest⟩ := List.cons_prefix_cons.mp hfront
    obtain ⟨rounds, part, mark, hrounds', rfl, hops⟩ := hrounds.of_front hrest
    exact ⟨baseline, rounds, part, mark, hrounds', rfl, hops⟩
  | opened baseline log mark reading hrounds =>
    obtain ⟨rfl, hrest⟩ := List.cons_prefix_cons.mp hfront
    by_cases hlong : log.length ≤ front.length
    · obtain ⟨part, rfl⟩ :=
        List.prefix_of_prefix_length_le (List.prefix_append _ _) hrest hlong
      have hpart := (List.prefix_append_right_inj _).mp hrest
      have hle := (hpart.sublist.filterMap Event.opState?).length_le
      have hopening : (opStates (Round.openingCalls S mark reading)).length = 1 := by
        rw [Round.opStates_openingCalls, List.length_singleton]
      exact ⟨baseline, log, part, mark, hrounds, rfl, hle.trans hopening.le⟩
    · have hshort : front <+: log :=
        List.prefix_of_prefix_length_le hrest (List.prefix_append _ _) (not_le.mp hlong).le
      obtain ⟨rounds, part, mark', hrounds', rfl, hops⟩ := hrounds.of_front hshort
      exact ⟨baseline, rounds, part, mark', hrounds', rfl, hops⟩

/-- The bound on the calls of a run holds at every moment of it. -/
theorem Underway.ops_le_of_front {S : Setting R A O} {T δ : Duration}
    {log front : List (Event R A O)} (h : Underway S log) (hT : S.timeout = some T)
    (hpos : δ ≠ .zero) (hδ : ∀ state d, S.answers.nextWait state d → δ ≤ d)
    (hfront : front <+: log) (hcoherent : Coherent .start front) :
    (opStates front).length ≤ T.nanos ⌈/⌉ δ.nanos + 1 := by
  by_cases hbegun : front = []
  · rw [hbegun]
    exact Nat.zero_le _
  · obtain ⟨baseline, rounds, part, mark, hrounds, rfl, hops⟩ := h.of_front hfront hbegun
    have hcoherent' : Coherent .start (.now baseline :: rounds) :=
      ⟨hcoherent.1, (coherent_append_iff.mp hcoherent.2).1⟩
    have hle := hrounds.gaps_le hT hpos hδ hcoherent'
    have hgaps : (opStates rounds).length = (gapDelays S.timeout rounds).length := hrounds.gaps
    show (opStates (rounds ++ part)).length ≤ _
    rw [opStates_append, List.length_append, hgaps]
    exact Nat.add_le_add hle hops

/-! ## §3 Threads -/

section Threads

variable {ι : Type} [DecidableEq ι] {R A O : ι → Type}
  {retries : (i : ι) → Retry (Thread (SystemTime × ρ) Empty) (R i) (A i) (O i)} {n : ι → ℕ}
  {outside : SystemTime × ρ → SystemTime × ρ → Prop} {w₀ : SystemTime × ρ}
  {s : (SystemTime × ρ) × ((i : ι) → List (Event (R i) (A i) (O i)) ×
    Thread (SystemTime × ρ) (Event (R i) (A i) (O i)) (Turn Cursor (Output (R i) (A i) (O i))))}

/-- The log of a thread is the beginning of that of a run that is on time. -/
theorem Retry.onTime_of_run (hparts : ∀ i, (retries i).PartsMove Passes)
    (hout : ∀ w w', outside w w' → Passes w w')
    (h : Run (fun _ => Thread.Act) outside
      (w₀, fun i => ([], (retries i).onSystemClock.threaded.runFor (n i))) s) (i : ι) :
    ∃ (r : Replay (SystemTime × ρ)) (t : Traced (Replay (SystemTime × ρ)) (R i) (A i) (O i))
      (answer : Turn Cursor (Output (R i) (A i) (O i))),
      (retries i).onSystemClock.alone.traced.runFor (n i) ⟨r, []⟩ = (answer, t) ∧ OnTime t ∧
      (s.2 i).1 <+: t.log ∧
      ∀ answer', (s.2 i).2 = .ended answer' → (s.2 i).1 = t.log ∧ answer' = answer := by
  have hmoves (j : ι) : ((retries j).onSystemClock.threaded.runFor (n j)).Moves Passes := by
    have hparts' : (retries j).onSystemClock.PartsMove Passes := { hparts j with }
    exact hparts'.threaded SystemClock.moves_now SystemClock.moves_wait (n j)
  obtain ⟨r, t, answer, -, hwithin, hrun, hbegun, hended⟩ :=
    Retry.run_alone_of_run h hout i fun j _ => hmoves j
  have hontime := (hparts i).onTime_runFor (n i) hwithin
  rw [hrun] at hontime
  exact ⟨r, t, answer, hrun, hontime, hbegun, hended⟩

/-- **`SystemClock` keeps its contract on every thread.**  Runs of several threads read the
clock and wait through it, one of them sets the anchor for all, and time passes at any point
in between.  Whatever the schedule, what a thread has read up to now never falls, and after
each wait has moved on by at least as much, unless it has come to `Duration::MAX`. -/
theorem SystemClock.concurrent_coherent (hparts : ∀ i, (retries i).PartsMove Passes)
    (hout : ∀ w w', outside w w' → Passes w w')
    (h : Run (fun _ => Thread.Act) outside
      (w₀, fun i => ([], (retries i).onSystemClock.threaded.runFor (n i))) s) (i : ι)
    (hshort : ∀ reading ∈ readings (s.2 i).1, reading ≠ .maxValue) :
    Coherent .start (s.2 i).1 := by
  obtain ⟨r, t, answer, -, hontime, hbegun, -⟩ := Retry.onTime_of_run hparts hout h i
  exact hontime.paced.coherent hbegun hshort

/-- **A timeout bounds every thread on `SystemClock`.**  A run with `.timeout(T)` and delays of
at least `δ` calls its operation at most `⌈T / δ⌉ + 1` times, however the other threads delay
it, and does not need more rounds to end. -/
theorem SystemClock.concurrent_bounded (hparts : ∀ i, (retries i).PartsMove Passes)
    (hout : ∀ w w', outside w w' → Passes w w')
    (h : Run (fun _ => Thread.Act) outside
      (w₀, fun i => ([], (retries i).onSystemClock.threaded.runFor (n i))) s) (i : ι)
    (hshort : ∀ reading ∈ readings (s.2 i).1, reading ≠ .maxValue) (T δ : Duration)
    (hT : (retries i).timeout = some T) (hpos : δ ≠ .zero)
    (hδ : ∀ state, ((retries i).wait.nextWait state).Answers fun delay => δ ≤ delay) :
    (opStates (s.2 i).1).length ≤ T.nanos ⌈/⌉ δ.nanos + 1 ∧
      ∀ answer, (s.2 i).2 = .ended answer → T.nanos ⌈/⌉ δ.nanos + 1 ≤ n i →
        ∃ output, answer = .done output := by
  obtain ⟨r, t, answer, hrun, hontime, hbegun, hended⟩ := Retry.onTime_of_run hparts hout h i
  have hcoherent := hontime.paced.coherent hbegun hshort
  obtain ⟨baseline, rounds, turn, w', hrounds, -, hrun'⟩ :=
    (retries i).onSystemClock.alone.runFor_rounds (n i) r
  obtain ⟨rfl, rfl⟩ := Prod.mk.inj (hrun.symm.trans hrun')
  have hanswers : ∀ state d, (retries i).onSystemClock.alone.setting.answers.nextWait state d →
      δ ≤ d := by
    rintro state d ⟨r', rfl⟩
    exact (hδ state).alone r'
  have hunderway : Underway (retries i).onSystemClock.alone.setting (.now baseline :: rounds) :=
    .rounds baseline rounds turn hrounds
  refine ⟨hunderway.ops_le_of_front hT hpos hanswers hbegun hcoherent, ?_⟩
  intro answer' hthread henough
  obtain ⟨hlog, rfl⟩ := hended answer' hthread
  cases turn with
  | done output => exact ⟨output, rfl⟩
  | again mark =>
    -- A run that is still going has made a call, and opened a gap, in every round.
    rw [hlog] at hcoherent
    have hgaps : (opStates rounds).length = (gapDelays (retries i).timeout rounds).length :=
      hrounds.gaps
    have hle := hrounds.gaps_le hT hpos hanswers hcoherent
    have hcalls : (opStates rounds).length = n i :=
      ((retries i).onSystemClock.alone.length_opStates_of_again hrun').2
    exact absurd (henough.trans (hcalls.symm.trans hgaps).le |>.trans hle) (Nat.not_succ_le_self _)

end Threads

/-- A thread that works for three nanoseconds, in vain, and retries every four. -/
def Retry.busySystem (timeout : Option Duration) :
    Retry (Thread (SystemTime × Unit) Empty) ℕ String (Except String ℕ) where
  op _ := .atomic fun w => (.error "busy", (w.1.wakeUp (w.1.instant + 3), w.2))
  classifier := DefaultClassifier
  stop := .never
  wait := { nextWait := fun _ => pure (.ofNanos 4) }
  clock := SystemClock.syncClock
  hooks := .new
  timeout

theorem Retry.partsMove_busySystem (timeout : Option Duration) :
    (Retry.busySystem timeout).PartsMove Passes where
  op _ := .atomic fun w => SystemTime.passes_wakeUp w _
  decide outcome := by
    cases outcome with
    | error e => trivial
    | ok value => trivial
  shouldStop _ := trivial
  nextWait _ := trivial
  beforeAttempt := trivial
  afterAttempt := trivial
  onExit := trivial

/-- Two such threads, one of them with a timeout, in a process that is a nanosecond old. -/
def Retry.busySystemThreads : (SystemTime × Unit) × (Bool →
    List (Event ℕ String (Except String ℕ)) × Thread (SystemTime × Unit)
      (Event ℕ String (Except String ℕ)) (Turn Cursor (Output ℕ String (Except String ℕ)))) :=
  ((⟨1, none, fun _ ha => absurd ha (Option.not_mem_none _)⟩, ()), fun timed => ([],
    (Retry.busySystem (if timed then some (.ofNanos 20) else none)).onSystemClock.threaded.runFor
      6))

/-- The two after ninety steps each. -/
def Retry.busySystemPlayed :=
  play (fun _ => Thread.advance) Retry.busySystemThreads (List.replicate 90 [false, true]).flatten

theorem Retry.run_busySystem :
    Run (fun _ => Thread.Act) Passes Retry.busySystemThreads Retry.busySystemPlayed :=
  Run.play (fun _ => Thread.act_advance) .start _

/-- Both have read the clock twice in every round. -/
theorem SystemClock.concurrent_coherent_busySystem :
    (readings (Retry.busySystemPlayed.2 false).1).length = 13 ∧
      ∀ timed, Coherent .start (Retry.busySystemPlayed.2 timed).1 := by
  refine ⟨by decide +kernel, fun timed => ?_⟩
  refine SystemClock.concurrent_coherent (fun _ => Retry.partsMove_busySystem _)
    (fun _ _ hpasses => hpasses) Retry.run_busySystem timed ?_
  cases timed <;> decide +kernel

/-- The one with a timeout of twenty nanoseconds has ended after at most six calls. -/
theorem SystemClock.concurrent_bounded_busySystem :
    (opStates (Retry.busySystemPlayed.2 true).1).length ≤ 6 ∧
      ∃ output, (Retry.busySystemPlayed.2 true).2 = .ended (.done output) := by
  obtain ⟨hops, hdone⟩ := SystemClock.concurrent_bounded
    (fun _ => Retry.partsMove_busySystem _) (fun _ _ hpasses => hpasses)
    Retry.run_busySystem true (by decide +kernel) (.ofNanos 20) (.ofNanos 4) rfl
    (by decide) fun _ => Nat.le_refl _
  obtain ⟨answer, hanswer⟩ : ∃ answer, (Retry.busySystemPlayed.2 true).2.answer? = some answer :=
    Option.isSome_iff_exists.mp (by decide +kernel)
  have hended := Thread.eq_ended_of_answer? hanswer
  obtain ⟨output, rfl⟩ := hdone answer hended (Nat.le_refl _)
  exact ⟨hops, output, hended⟩

end Relentless
