import Relentless.Guarantees.ConcurrentRuns

/-!
# Backoff Plans

How long a run can wait in all, read off its wait expression alone: gap by gap, the upper bound
of the expression after such a delay before it.  Threads may share the generators of their
expressions, and every draw is a step of its own.

- `WaitExpr.longest`, `WaitExpr.shortest` — the two ends of a gap's delay
- `WaitExpr.bounds_hi_mono` — a longer delay leads to longer ones
- `Wait.shared` — an expression whose generators are shared with other threads
- `Underway.planned` — the delays of a log keep to the plan
- `concurrent_backoff` — every run stays within the plan of its expression
-/

namespace Relentless

open StateLoop
open Interleaving (Run play)

variable {σ cell R A O : Type}

/-! ## §1 Plans -/

/-- What the bounds of an expression can see of gap `k`, counted from zero. -/
def gapState (k : ℕ) (previousDelay : Option Duration) : RetryState :=
  { attempt := attemptNumber (k + 1), elapsed := .zero, previousDelay }

namespace WaitExpr

/-- The upper bound of the delay of gap `k`, after such delays before it.  Where equal jitter halves
an odd base, it is a nanosecond above the longest delay that is drawn. -/
def longest (expr : WaitExpr (JitterNode cell)) : ℕ → Duration
  | 0 => (expr.bounds (gapState 0 none)).hi
  | k + 1 => (expr.bounds (gapState (k + 1) (some (expr.longest k)))).hi

/-- The shortest delay of gap `k`, which no delay before it lowers. -/
def shortest (expr : WaitExpr (JitterNode cell)) (k : ℕ) : Duration :=
  (expr.bounds (gapState k none)).lo

section Chain

variable {first second : WaitExpr (JitterNode cell)} {after : UInt32} (state : RetryState)

theorem bounds_first (h : state.attempt ≤ after) :
    (chain first second after).bounds state = first.bounds state := if_pos h

theorem bounds_second (h : ¬state.attempt ≤ after) :
    (chain first second after).bounds state = second.bounds state := if_neg h

end Chain

/-- The elapsed time decides nothing. -/
theorem bounds_withElapsed (expr : WaitExpr (JitterNode cell)) (state : RetryState)
    (elapsed : Duration) : expr.bounds (state.withElapsed elapsed) = expr.bounds state := by
  induction expr with
  | fixed strategy | linear strategy | exponential strategy => rfl
  | capped inner max ih => rw [bounds, ih, bounds]
  | combine left right ihl ihr => rw [bounds, ihl, ihr, bounds]
  | chain first second after ih₁ ih₂ =>
    rw [bounds, ih₁, ih₂, bounds]
    rfl
  | jittered inner node ih =>
    rw [bounds, ih, bounds]
    rfl

/-- The previous delay lowers nothing. -/
theorem bounds_lo_eq (expr : WaitExpr (JitterNode cell)) (state : RetryState)
    (previousDelay : Option Duration) :
    (expr.bounds (state.withPreviousDelay previousDelay)).lo = (expr.bounds state).lo := by
  induction expr with
  | fixed strategy | linear strategy | exponential strategy => rfl
  | capped inner max ih => exact congrArg (min · max) ih
  | combine left right ihl ihr => exact congrArg₂ Duration.saturatingAdd ihl ihr
  | chain first second after ih₁ ih₂ =>
    by_cases hfirst : state.attempt ≤ after
    · rw [bounds_first (state.withPreviousDelay previousDelay) hfirst, bounds_first state hfirst]
      exact ih₁
    · rw [bounds_second (state.withPreviousDelay previousDelay) hfirst, bounds_second state hfirst]
      exact ih₂
  | jittered inner node ih =>
    obtain ⟨kind, index⟩ := node
    cases kind with
    | additive maxJitter => exact ih
    | full => rfl
    | equal => exact congrArg (Duration.divBy · 2) ih
    | decorrelated => exact ih

/-- **A longer delay leads to longer ones.** -/
theorem bounds_hi_mono (expr : WaitExpr (JitterNode cell)) (state : RetryState)
    {d d' : Duration} (h : d ≤ d') :
    (expr.bounds (state.withPreviousDelay (some d))).hi ≤
      (expr.bounds (state.withPreviousDelay (some d'))).hi := by
  induction expr with
  | fixed strategy | linear strategy | exponential strategy => exact le_refl _
  | capped inner max ih => exact min_le_min_right max ih
  | combine left right ihl ihr => exact Duration.saturatingAdd_mono ihl ihr
  | chain first second after ih₁ ih₂ =>
    by_cases hfirst : state.attempt ≤ after
    · rw [bounds_first (state.withPreviousDelay (some d)) hfirst,
        bounds_first (state.withPreviousDelay (some d')) hfirst]
      exact ih₁
    · rw [bounds_second (state.withPreviousDelay (some d)) hfirst,
        bounds_second (state.withPreviousDelay (some d')) hfirst]
      exact ih₂
  | jittered inner node ih =>
    obtain ⟨kind, index⟩ := node
    cases kind with
    | additive maxJitter => exact Duration.saturatingAdd_mono ih (le_refl _)
    | full => exact ih
    | equal => exact ih
    | decorrelated => exact max_le_max ih (Duration.ofNanos_mono (Nat.mul_le_mul_right 3 h))

/-- What a state shows of its gap. -/
theorem bounds_gapState (expr : WaitExpr (JitterNode cell)) {state : RetryState} {k : ℕ}
    (hattempt : state.attempt = attemptNumber (k + 1)) :
    expr.bounds state = expr.bounds (gapState k state.previousDelay) := by
  rw [← bounds_withElapsed expr state .zero]
  obtain ⟨attempt, elapsed, previousDelay⟩ := state
  obtain rfl := hattempt
  rfl

end WaitExpr

/-! ## §2 Delays that keep to a plan -/

/-- **The number of a consultation** counts the rounds. -/
theorem Rounds.numbered {S : Setting R A O} {mark : Mark} {log : List (Event R A O)}
    {turn : Turn Mark (Output R A O)} (h : Rounds S mark log turn) (k : ℕ)
    (c : RetryState × Duration) (hc : (consultations log)[k]? = some c) :
    c.1.attempt = attemptNumber (mark.round + k) := by
  induction h generalizing k with
  | pause mark => cases hc
  | last mark round output hallowed hturn =>
    rw [consultations_round] at hc
    obtain ⟨before, outcome, after, fate⟩ := round
    cases fate with
    | returned value | aborted last | exhausted last answer => cases hc
    | retried last rawDelay => cases hturn
  | next mark mark' round rest turn hallowed hturn hrest ih =>
    obtain ⟨last, rawDelay, hfate, rfl⟩ := Round.eq_retried_of_turn hturn
    rw [consultations_append, consultations_round, Round.consultation, hfate] at hc
    -- The first consultation is this round's; the others are those of the rounds after it.
    cases k with
    | zero =>
      obtain rfl := Option.some.inj hc
      rfl
    | succ k =>
      rw [ih k hc]
      show attemptNumber (mark.round + 1 + k) = attemptNumber (mark.round + (k + 1))
      rw [Nat.add_assoc, Nat.add_comm 1 k]

theorem Underway.numbered {S : Setting R A O} {log : List (Event R A O)} (h : Underway S log)
    (k : ℕ) (c : RetryState × Duration) (hc : (consultations log)[k]? = some c) :
    c.1.attempt = attemptNumber (k + 1) := by
  rw [Nat.add_comm k 1]
  cases h with
  | created => cases hc
  | rounds baseline log turn hrounds => exact hrounds.numbered k c hc
  | opened baseline log mark reading hrounds =>
    have hopening : consultations (.now baseline :: (log ++ Round.openingCalls S mark reading)) =
        consultations log := by
      show consultations (log ++ Round.openingCalls S mark reading) = _
      rw [consultations_append, consultations_openingCalls, List.append_nil]
    rw [hopening] at hc
    exact hrounds.numbered k c hc

/-- The delays of a log keep to the plan of an expression: none is above the longest one of
its gap, and none is below the shortest unless the timeout has cut it. -/
structure Planned (expr : WaitExpr (JitterNode cell)) (timeout : Option Duration)
    (log : List (Event R A O)) : Prop where
  longest : ∀ (k : ℕ) d, (gapDelays timeout log)[k]? = some d → d ≤ expr.longest k
  shortest : ∀ (k : ℕ) d (c : RetryState × Duration), (gapDelays timeout log)[k]? = some d →
    (consultations log)[k]? = some c →
      expr.shortest k ≤ d ∨ ∃ t, timeout = some t ∧ d = t.saturatingSub c.1.elapsed

section Planned

variable {expr : WaitExpr (JitterNode cell)} {S : Setting R A O} {log : List (Event R A O)}

/-- Every gap comes from a consultation whose answer is within the bounds of its gap. -/
theorem Underway.bounded (h : Underway S log)
    (hbounds : ∀ state d, S.answers.nextWait state d → (expr.bounds state).Contains d) {k : ℕ}
    {c : RetryState × Duration} (hc : (consultations log)[k]? = some c) :
    (expr.bounds (gapState k
      (if k = 0 then none else (gapDelays S.timeout log)[k - 1]?))).Contains c.2 := by
  have hfed := h.fedBack
  have hcontains := hbounds _ _ (hfed.answered c (List.mem_of_getElem? hc))
  rwa [expr.bounds_gapState (h.numbered k c hc), hfed.shown k c hc] at hcontains

/-- **Runs keep to the plan** of an expression that bounds the answers of their strategy. -/
theorem Underway.planned (h : Underway S log)
    (hbounds : ∀ state d, S.answers.nextWait state d → (expr.bounds state).Contains d) :
    Planned expr S.timeout log := by
  constructor
  · intro k d hd
    -- By induction on the gap: the longest delay before it leads to the longest here.
    induction k generalizing d with
    | zero =>
      rw [gapDelays_eq_map, List.getElem?_map] at hd
      obtain ⟨c, hc, rfl⟩ := Option.map_eq_some_iff.mp hd
      exact (applied_le S.timeout c).trans (h.bounded hbounds hc).2
    | succ k ih =>
      have hlt : k < (gapDelays S.timeout log).length :=
        Nat.lt_of_succ_lt (List.getElem?_eq_some_iff.mp hd).1
      have hbefore := List.getElem?_eq_getElem hlt
      rw [gapDelays_eq_map, List.getElem?_map] at hd
      obtain ⟨c, hc, rfl⟩ := Option.map_eq_some_iff.mp hd
      have hcontains := h.bounded hbounds hc
      rw [if_neg (Nat.succ_ne_zero k), Nat.add_sub_cancel, hbefore] at hcontains
      exact ((applied_le S.timeout c).trans hcontains.2).trans
        (expr.bounds_hi_mono (gapState (k + 1) none) (ih _ hbefore))
  · intro k d c hd hc
    rw [gapDelays_eq_map, List.getElem?_map, hc] at hd
    obtain rfl := Option.some.inj hd
    rcases applied_eq_or S.timeout c with heq | hrest
    · -- What is applied is the answer, whatever the delay before it was.
      left
      have hlo := (h.bounded hbounds hc).1
      rw [heq]
      exact (expr.bounds_lo_eq (gapState k none) _).ge.trans hlo
    · exact .inr hrest

/-- What the delays of a plan add up to in the first `n` gaps. -/
def planTotal (plan : ℕ → Duration) (n : ℕ) : Duration :=
  .ofNanos ((List.range n).map fun k => (plan k).nanos).sum

/-- The total wait that statistics report is within the plan, after so many operation calls. -/
structure WithinPlan (expr : WaitExpr (JitterNode cell)) (timeout : Option Duration)
    (opCalls : ℕ) (stats : RetryStats) : Prop where
  most : stats.totalWait ≤ planTotal expr.longest (opCalls - 1)
  least : timeout = none → planTotal expr.shortest (opCalls - 1) ≤ stats.totalWait

theorem forall₂_range {α : Type} {P : ℕ → α → Prop} {xs : List α}
    (h : ∀ (k : ℕ) x, xs[k]? = some x → P k x) :
    List.Forall₂ P (List.range xs.length) xs := by
  refine List.forall₂_iff_get.mpr ⟨List.length_range, fun k hk hk' => ?_⟩
  rw [List.get_eq_getElem, List.get_eq_getElem, List.getElem_range]
  exact h k _ (List.getElem?_eq_getElem hk')

/-- **What a run has waited for in all** is within the plan. -/
theorem Finished.withinPlan {baseline : Duration} {output : Output R A O}
    (h : Finished S baseline log output)
    (hbounds : ∀ state d, S.answers.nextWait state d → (expr.bounds state).Contains d) :
    WithinPlan expr S.timeout (opStates log).length output.2 := by
  have hplanned := h.underway.planned hbounds
  obtain ⟨rounds, rfl, hrounds⟩ := h
  have hgaps : (opStates rounds).length = (gapDelays S.timeout rounds).length + 1 := hrounds.gaps
  have hcount : (opStates (.now baseline :: rounds)).length - 1 =
      (gapDelays S.timeout (.now baseline :: rounds)).length := by
    show (opStates rounds).length - 1 = (gapDelays S.timeout rounds).length
    rw [hgaps, Nat.add_sub_cancel]
  constructor
  · rw [hrounds.total_wait, hcount]
    apply Duration.ofNanos_mono
    apply List.Forall₂.sum_le_sum
    rw [List.forall₂_map_left_iff, List.forall₂_map_right_iff]
    exact (forall₂_range fun k d hd => hplanned.longest k d hd).flip
  · intro hnone
    rw [hrounds.total_wait, hcount]
    apply Duration.ofNanos_mono
    apply List.Forall₂.sum_le_sum
    rw [List.forall₂_map_left_iff, List.forall₂_map_right_iff]
    refine forall₂_range fun k d hd => ?_
    have hd' := hd
    rw [gapDelays_eq_map, List.getElem?_map] at hd'
    obtain ⟨c, hc, -⟩ := Option.map_eq_some_iff.mp hd'
    rcases hplanned.shortest k d c hd hc with hle | ⟨t, ht, -⟩
    · exact hle
    · cases hnone.symm.trans ht

end Planned

/-! ## §3 Shared expressions -/

/-- An expression whose generators other threads draw from as well: every draw is one step. -/
def Wait.shared [DecidableEq cell] (get : σ → cell → SplitMix64)
    (put : (cell → SplitMix64) → σ → σ) (expr : WaitExpr (JitterNode cell)) :
    Wait (Thread σ Empty) where
  nextWait := expr.nextWait fun node base state => .atomic fun w =>
    let (delay, store) := drawAt node base state (get w)
    (delay, put store w)

/-- **Every delay** is within the bounds of its expression, also when others draw in between. -/
theorem Wait.answers_shared [DecidableEq cell] (get : σ → cell → SplitMix64)
    (put : (cell → SplitMix64) → σ → σ) (expr : WaitExpr (JitterNode cell)) (state : RetryState) :
    ((Wait.shared get put expr).nextWait state).Answers (expr.bounds state).Contains := by
  unfold Wait.shared
  dsimp only
  induction expr with
  | fixed strategy | linear strategy | exponential strategy => exact Bounds.contains_point _
  | capped inner max ih => exact ih.bind fun delay hdelay => hdelay.cap max
  | combine left right ihl ihr =>
    exact ihl.bind fun delay hdelay => ihr.bind fun delay' hdelay' => hdelay.add hdelay'
  | chain first second after ih₁ ih₂ =>
    by_cases hfirst : state.attempt ≤ after
    · rw [WaitExpr.bounds_first state hfirst, WaitExpr.nextWait, if_pos hfirst]
      exact ih₁
    · rw [WaitExpr.bounds_second state hfirst, WaitExpr.nextWait, if_neg hfirst]
      exact ih₂
  | jittered inner node ih =>
    refine ih.bind fun base hbase w => ?_
    show ((inner.bounds state).jitter node.kind state).Contains (drawAt node base state (get w)).1
    rw [drawAt_fst]
    exact hbase.jitter node.kind state _

/-- The answers that a strategy gives in a world that others change. -/
theorem Wait.bounds_of_answers [DecidableEq cell] {get : σ → cell → SplitMix64}
    {put : (cell → SplitMix64) → σ → σ} {expr : WaitExpr (JitterNode cell)}
    {classifier : Decide (Eff (Thread.Replay σ)) R A O} {stop : Stop (Eff (Thread.Replay σ))}
    (state : RetryState) (d : Duration)
    (h : (Answers.of classifier stop
      ⟨fun state => ((Wait.shared get put expr).nextWait state).alone⟩).nextWait state d) :
    (expr.bounds state).Contains d := by
  obtain ⟨r, rfl⟩ := h
  exact (Wait.answers_shared get put expr state).alone r

/-! ## §4 The guarantee -/

/-- **Backoff plans.**  Runs of both engines share the generators of their wait expressions,
and draw from them in any order.  Each of them still keeps to the plan of its own expression:
no gap is longer than the longest delay after the longest ones before it, whatever is drawn,
and none is shorter than the shortest, but where the timeout cuts it; so a run that ends has
not waited for longer in all than its plan says for so many operation calls, nor, without a
timeout, for less. -/
theorem concurrent_backoff {ι cell : Type} [DecidableEq ι] [DecidableEq cell]
    (get : σ → cell → SplitMix64) (put : (cell → SplitMix64) → σ → σ)
    (expr : ι → WaitExpr (JitterNode cell)) {R A O : ι → Type} (outside : σ → σ → Prop) (w₀ : σ) :
    (∀ (retries : (i : ι) → Retry (Thread σ Empty) (R i) (A i) (O i)) (n : ι → ℕ)
      (s : σ × ((i : ι) → List (Event (R i) (A i) (O i)) ×
        Thread σ (Event (R i) (A i) (O i)) (Turn Cursor (Output (R i) (A i) (O i))))),
      Run (fun _ => Thread.Act) outside (w₀, fun i => ([],
        ({ retries i with wait := .shared get put (expr i) }).threaded.runFor (n i))) s →
      ∀ i, (∃ whole, (s.2 i).1 <+: whole ∧ Planned (expr i) (retries i).timeout whole) ∧
        ∀ output, (s.2 i).2 = .ended (.done output) →
          WithinPlan (expr i) (retries i).timeout (opStates (s.2 i).1).length output.2) ∧
    ∀ (Fut WaitFut : ι → Type)
      (retries : (i : ι) → AsyncRetry (Thread σ Empty) (Fut i) (WaitFut i) (R i) (A i) (O i))
      (cxs : ι → ℕ → Context) (fuel : ι → ℕ → ℕ) (j : ι → ℕ)
      (s : σ × ((i : ι) → List (Event (R i) (A i) (O i)) × Thread σ (Event (R i) (A i) (O i))
        (Option (ℕ × AsyncRetry.PollResult (Fut i) (WaitFut i) (R i) (A i) (O i))))),
      Run (fun _ => Thread.Act) outside (w₀, fun i => ([],
        ({ retries i with wait := .shared get put (expr i) }).threaded.drive (cxs i) (fuel i)
          (j i))) s →
      ∀ i, (∃ whole, calls (s.2 i).1 <+: whole ∧ Planned (expr i) (retries i).timeout whole) ∧
        ∀ k output run, (s.2 i).2 = .ended (some (k, (.ready output, run))) →
          WithinPlan (expr i) (retries i).timeout (opStates (s.2 i).1).length output.2 := by
  constructor
  · intro retries n s h i
    obtain ⟨whole, hunderway, hbegun, hended⟩ := Retry.underway_of_run h i
    refine ⟨⟨whole, hbegun, hunderway.planned Wait.bounds_of_answers⟩, fun output hdone => ?_⟩
    obtain ⟨baseline, hfinished⟩ := hended output hdone
    exact hfinished.withinPlan Wait.bounds_of_answers
  · intro Fut WaitFut retries cxs fuel j s h i
    obtain ⟨whole, hunderway, hbegun, hended⟩ := AsyncRetry.underway_of_run h i
    refine ⟨⟨whole, hbegun, hunderway.planned Wait.bounds_of_answers⟩,
      fun k output run hready => ?_⟩
    obtain ⟨baseline, hfinished⟩ := (hended k _ run hready).2 output rfl
    have hwithin := hfinished.withinPlan Wait.bounds_of_answers
    rwa [opStates_calls] at hwithin

/-- Decorrelated and full jitter, both from one generator. -/
def WaitExpr.busyBackoff : WaitExpr (JitterNode Unit) :=
  .combine ((decorrelatedJitter (.ofNanos 4) ()).capped (.ofNanos 9))
    (fullJitter (.fixed (Relentless.fixed (.ofNanos 3))) ())

/-- Its generator is part of the world. -/
def Wait.busyBackoff : Wait (Thread (ℕ × SplitMix64) Empty) :=
  .shared (fun w _ => w.2) (fun store w => (w.1, store ())) .busyBackoff

/-- Two sync runs, which draw in turns. -/
def Retry.busyBackoff : Bool → Retry (Thread (ℕ × SplitMix64) Empty) ℕ String (Except String ℕ) :=
  fun _ => { Retry.busyJittered with wait := .busyBackoff }

/-- Two futures, which draw in turns. -/
def AsyncRetry.busyBackoff : Bool → AsyncRetry (Thread (ℕ × SplitMix64) Empty)
    (ℕ × Eff ℕ (Except String ℕ)) (ℕ × Eff ℕ Unit) ℕ String (Except String ℕ) :=
  fun _ => { AsyncRetry.busyJittered with wait := .busyBackoff }

/-- All of them wait twice, for between eight and twenty-four nanoseconds. -/
theorem concurrent_backoff_busyBackoff :
    planTotal WaitExpr.busyBackoff.shortest 2 = .ofNanos 8 ∧
    planTotal WaitExpr.busyBackoff.longest 2 = .ofNanos 24 ∧
    WithinPlan .busyBackoff none 3 ⟨3, .ofNanos 51, .ofNanos 22, .returned⟩ ∧
    WithinPlan .busyBackoff none 3 ⟨3, .ofNanos 51, .ofNanos 11, .returned⟩ := by
  let world : ℕ × SplitMix64 := (0, ⟨0⟩)
  let syncStart (i : Bool) := (([] : List (Event ℕ String (Except String ℕ))),
    (Retry.busyBackoff i).threaded.runFor 4)
  let asyncStart (i : Bool) := (([] : List (Event ℕ String (Except String ℕ))),
    (AsyncRetry.busyBackoff i).threaded.drive (fun _ => ⟨0⟩) (fun _ => 9) 6)
  have hsync : Run (fun _ => Thread.Act) Eq (world, syncStart) (play (fun _ => Thread.advance)
      (world, syncStart) (List.replicate 70 [false, true]).flatten) :=
    Run.play (fun _ => Thread.act_advance) .start _
  have hasync : Run (fun _ => Thread.Act) Eq (world, asyncStart) (play (fun _ => Thread.advance)
      (world, asyncStart) (List.replicate 90 [false, true]).flatten) :=
    Run.play (fun _ => Thread.act_advance) .start _
  have hplans := concurrent_backoff (fun w (_ : Unit) => w.2) (fun store w => (w.1, store ()))
    (fun _ : Bool => .busyBackoff) (R := fun _ => ℕ) (A := fun _ => String)
    (O := fun _ => Except String ℕ) Eq world
  have hplan := (hplans.1 (fun _ => Retry.busyJittered) (fun _ => 4) _ hsync false).2
    (.ok 7, ⟨3, .ofNanos 51, .ofNanos 22, .returned⟩)
    (Thread.eq_ended_of_answer? (by decide +kernel))
  -- The futures of a run are functions, so only the results can be compared.
  have hready : ((play (fun _ => Thread.advance) (world, asyncStart)
      (List.replicate 90 [false, true]).flatten).2 true).2.answer?.bind
        (Option.map fun driven => driven.2.1) =
      some (.ready (.ok 7, ⟨3, .ofNanos 51, .ofNanos 11, .returned⟩)) := by decide +kernel
  obtain ⟨driven, hanswer, hdriven⟩ := Option.bind_eq_some_iff.mp hready
  obtain ⟨⟨k, result, run⟩, rfl, rfl⟩ := Option.map_eq_some_iff.mp hdriven
  have hplan' := (hplans.2 _ _ (fun _ => AsyncRetry.busyJittered) (fun _ _ => ⟨0⟩) (fun _ _ => 9)
    (fun _ => 6) _ hasync true).2 k _ run (Thread.eq_ended_of_answer? hanswer)
  have hcalls : (opStates ((play (fun _ => Thread.advance) (world, syncStart)
      (List.replicate 70 [false, true]).flatten).2 false).1).length = 3 := by decide +kernel
  have hcalls' : (opStates ((play (fun _ => Thread.advance) (world, asyncStart)
      (List.replicate 90 [false, true]).flatten).2 true).1).length = 3 := by decide +kernel
  rw [hcalls] at hplan
  rw [hcalls'] at hplan'
  exact ⟨by decide +kernel, by decide +kernel, hplan, hplan'⟩

end Relentless
