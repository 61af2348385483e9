import Relentless.Trace.Grammar

/-!
# What a Call Log Adds Up To

Totals of a log — its clock readings, its operation calls, the delays of its
gaps — and how a sequence of rounds fixes them.

- `watermark` — the highest elapsed time among some readings
- `TracksElapsed` — every elapsed time in a log is the watermark at that point
- `Rounds.tracks`, `Rounds.counts`, `Rounds.waits` — the totals of a sequence of rounds
-/

namespace Relentless

open StateLoop

variable {R A O : Type}

/-! ## §1 Projections of a log -/

def Event.reading? : Event R A O → Option Duration
  | .now reading => some reading
  | _ => none

def Event.opState? : Event R A O → Option RetryState
  | .op state => some state
  | _ => none

def Event.outcome? : Event R A O → Option O
  | .outcome value => some value
  | _ => none

/-- The delay, after clamping, of the gap that a consultation of the wait strategy opens. -/
def Event.gapDelay? (timeout : Option Duration) : Event R A O → Option Duration
  | .nextWait state rawDelay => some (clampDelay timeout state.elapsed rawDelay)
  | _ => none

/-- The elapsed time that a hook, the operation or a strategy is shown. -/
def Event.elapsed? : Event R A O → Option Duration
  | .beforeAttempt _ state | .op state => some state.elapsed
  | .shouldStop state _ | .nextWait state _ => some state.elapsed
  | .afterAttempt _ state => some state.elapsed
  | .onExit _ exit => some exit.elapsed
  | _ => none

/-- The clock readings of a log. -/
def readings (log : List (Event R A O)) : List Duration := log.filterMap Event.reading?

/-- The states of the operation calls of a log. -/
def opStates (log : List (Event R A O)) : List RetryState := log.filterMap Event.opState?

/-- The outcomes of the operation calls of a log. -/
def outcomes (log : List (Event R A O)) : List O := log.filterMap Event.outcome?

/-- The delays of the gaps of a log. -/
def gapDelays (timeout : Option Duration) (log : List (Event R A O)) : List Duration :=
  log.filterMap (Event.gapDelay? timeout)

@[simp] theorem readings_append (log log' : List (Event R A O)) :
    readings (log ++ log') = readings log ++ readings log' := List.filterMap_append

theorem readings_cons (ev : Event R A O) (log : List (Event R A O)) :
    readings (ev :: log) = ev.reading?.toList ++ readings log := by
  rw [readings, List.filterMap_cons]
  cases ev.reading? <;> rfl

/-- A projection that ignores the polls and wakes sees only the calls. -/
theorem filterMap_calls {β : Type} (f : Event R A O → Option β)
    (hskip : ∀ ev, ev.isCall = false → f ev = none) (log : List (Event R A O)) :
    (calls log).filterMap f = log.filterMap f := by
  rw [calls, List.filterMap_filter]
  congr 1
  funext ev
  by_cases hev : ev.isCall = true
  · rw [if_pos hev]
  · rw [if_neg hev, hskip ev (Bool.eq_false_iff.mpr hev)]

/-- The polls and wakes read no clock. -/
theorem readings_calls (log : List (Event R A O)) : readings (calls log) = readings log := by
  apply filterMap_calls
  intro ev hev
  cases ev <;> first | rfl | cases hev

/-- Nor do they call the operation. -/
theorem opStates_calls (log : List (Event R A O)) : opStates (calls log) = opStates log := by
  apply filterMap_calls
  intro ev hev
  cases ev <;> first | rfl | cases hev

@[simp] theorem opStates_append (log log' : List (Event R A O)) :
    opStates (log ++ log') = opStates log ++ opStates log' := List.filterMap_append

@[simp] theorem outcomes_append (log log' : List (Event R A O)) :
    outcomes (log ++ log') = outcomes log ++ outcomes log' := List.filterMap_append

@[simp] theorem gapDelays_append (timeout : Option Duration) (log log' : List (Event R A O)) :
    gapDelays timeout (log ++ log') = gapDelays timeout log ++ gapDelays timeout log' :=
  List.filterMap_append

/-! ## §2 The skeleton of a round -/

/-- Everything but the hook calls and the clock waits. -/
def Event.isSkeleton : Event R A O → Bool
  | .beforeAttempt .. | .afterAttempt .. | .onExit .. | .wait _ => false
  | _ => true

theorem skeleton_waitEvents (delay : Duration) :
    (waitEvents delay : List (Event R A O)).filter Event.isSkeleton = [] := by
  unfold waitEvents
  split <;> rfl

/-- The consultations of the two strategies. -/
def Fate.consultations (state : RetryState) : Fate R A O → List (Event R A O)
  | .returned _ | .aborted _ => []
  | .exhausted _ answer => [.shouldStop state answer]
  | .retried _ rawDelay => [.shouldStop state false, .nextWait state rawDelay]

def Round.skeleton (mark : Mark) (round : Round R A O) : List (Event R A O) :=
  [.now round.beforeReading, .op (mark.state (mark.before round.beforeReading)),
    .outcome round.outcome, .now round.afterReading,
    .decide round.outcome round.fate.verdict] ++
  round.fate.consultations (mark.state (round.after mark))

theorem Round.filter_isSkeleton (S : Setting R A O) (mark : Mark) (round : Round R A O) :
    (round.calls S mark).filter Event.isSkeleton = round.skeleton mark := by
  have hbefore := fun state => filter_hookEvents Event.isSkeleton S.beforeHooks
    (.beforeAttempt : ℕ → _ → Event R A O) state fun _ => rfl
  have hafter := fun state => filter_hookEvents Event.isSkeleton S.afterHooks
    (.afterAttempt : ℕ → _ → Event R A O) state fun _ => rfl
  have hexit := fun exit => filter_hookEvents Event.isSkeleton S.exitHooks
    (.onExit : ℕ → _ → Event R A O) exit fun _ => rfl
  obtain ⟨before, outcome, after, fate⟩ := round
  cases fate <;>
    simp [Round.calls, openingCalls, closingCalls, Fate.calls, Fate.waitCalls, skeleton,
      Fate.consultations, Fate.verdict, hbefore, hafter, hexit, skeleton_waitEvents,
      Event.isSkeleton, List.filter_cons]

/-- The wait strategy is consulted only while the timeout is not exceeded. -/
theorem Round.of_mem_nextWait {S : Setting R A O} {mark : Mark} {round : Round R A O}
    (hallowed : round.Allowed S mark) {state : RetryState} {rawDelay : Duration}
    (hmem : .nextWait state rawDelay ∈ round.calls S mark) :
    timeoutExceeded S.timeout state.elapsed = false := by
  have hskeleton : .nextWait state rawDelay ∈ round.skeleton mark := by
    rw [← filter_isSkeleton S mark round]
    exact List.mem_filter.mpr ⟨hmem, rfl⟩
  obtain ⟨before, outcome, after, fate⟩ := round
  cases fate with
  | returned value | aborted last | exhausted last answer =>
    simp [skeleton, Fate.consultations] at hskeleton
  | retried last raw =>
    have hstate : state = mark.state ((mark.before before).observe after) := by
      simp [skeleton, Fate.consultations] at hskeleton
      exact hskeleton.1
    rw [hstate]
    exact hallowed.2.2.1

/-- A projection that ignores hooks and waits sees only the skeleton. -/
theorem Round.filterMap_calls {β : Type} (f : Event R A O → Option β)
    (hskip : ∀ ev, ev.isSkeleton = false → f ev = none)
    (S : Setting R A O) (mark : Mark) (round : Round R A O) :
    (round.calls S mark).filterMap f = (round.skeleton mark).filterMap f := by
  rw [← filter_isSkeleton S mark round, List.filterMap_filter]
  congr 1
  funext ev
  by_cases hev : ev.isSkeleton = true
  · rw [if_pos hev]
  · rw [if_neg hev, hskip ev (Bool.eq_false_iff.mpr hev)]

/-- A round reads the clock before and after its operation. -/
@[simp] theorem readings_round (S : Setting R A O) (mark : Mark) (round : Round R A O) :
    readings (round.calls S mark) = [round.beforeReading, round.afterReading] := by
  have hskip : ∀ ev : Event R A O, ev.isSkeleton = false → ev.reading? = none := by
    intro ev hev
    cases ev <;> first | rfl | cases hev
  rw [readings, Round.filterMap_calls _ hskip]
  obtain ⟨before, outcome, after, fate⟩ := round
  cases fate <;> rfl

/-- A round calls the operation once. -/
@[simp] theorem opStates_round (S : Setting R A O) (mark : Mark) (round : Round R A O) :
    opStates (round.calls S mark) = [mark.state (mark.before round.beforeReading)] := by
  have hskip : ∀ ev : Event R A O, ev.isSkeleton = false → ev.opState? = none := by
    intro ev hev
    cases ev <;> first | rfl | cases hev
  rw [opStates, Round.filterMap_calls _ hskip]
  obtain ⟨before, outcome, after, fate⟩ := round
  cases fate <;> rfl

/-- A round has one outcome. -/
@[simp] theorem outcomes_round (S : Setting R A O) (mark : Mark) (round : Round R A O) :
    outcomes (round.calls S mark) = [round.outcome] := by
  have hskip : ∀ ev : Event R A O, ev.isSkeleton = false → ev.outcome? = none := by
    intro ev hev
    cases ev <;> first | rfl | cases hev
  rw [outcomes, Round.filterMap_calls _ hskip]
  obtain ⟨before, outcome, after, fate⟩ := round
  cases fate <;> rfl

/-- The delay of the gap after a round, if it is retried. -/
def Round.gap (timeout : Option Duration) (mark : Mark) (round : Round R A O) :
    Option Duration :=
  match round.fate with
  | .retried _ rawDelay => some (clampDelay timeout (round.after mark).highest rawDelay)
  | _ => none

theorem gapDelays_round (S : Setting R A O) (mark : Mark) (round : Round R A O) :
    gapDelays S.timeout (round.calls S mark) = (round.gap S.timeout mark).toList := by
  have hskip : ∀ ev : Event R A O, ev.isSkeleton = false → ev.gapDelay? S.timeout = none := by
    intro ev hev
    cases ev <;> first | rfl | cases hev
  rw [gapDelays, Round.filterMap_calls _ hskip]
  obtain ⟨before, outcome, after, fate⟩ := round
  cases fate <;> rfl

theorem Round.gap_of_done {S : Setting R A O} {mark : Mark} {round : Round R A O}
    {output : Output R A O} (hturn : round.turn S mark = .done output) :
    round.gap S.timeout mark = none := by
  obtain ⟨before, outcome, after, fate⟩ := round
  cases fate with
  | returned value | aborted last | exhausted last answer => rfl
  | retried last rawDelay => cases hturn

theorem Round.gap_of_again {S : Setting R A O} {mark mark' : Mark} {round : Round R A O}
    (hturn : round.turn S mark = .again mark') :
    round.gap S.timeout mark = mark'.previousDelay := by
  obtain ⟨last, rawDelay, hfate, rfl⟩ := Round.eq_retried_of_turn hturn
  rw [Round.gap, hfate]
  rfl

/-! ## §3 Totals of a sequence of rounds -/

/-- The watermark after some readings. -/
def Elapsed.observeAll (e : Elapsed) (rs : List Duration) : Elapsed := rs.foldl observe e

/-- The highest elapsed time since `baseline` among some readings. -/
def watermark (baseline : Duration) (rs : List Duration) : Duration :=
  (rs.map fun reading => reading.saturatingSub baseline).foldl max .zero

/-- The highest elapsed time among some readings, the first being the baseline. -/
def spent : List Duration → Duration
  | [] => .zero
  | baseline :: rs => watermark baseline rs

/-- What a terminal round reports. -/
theorem Round.stats_of_done {S : Setting R A O} {mark : Mark} {round : Round R A O}
    {output : Output R A O} (hturn : round.turn S mark = .done output) :
    output.2.attempts = attemptNumber mark.round ∧
      output.2.totalElapsed = (round.after mark).highest ∧
      output.2.totalWait = .ofNanos mark.waited := by
  obtain ⟨before, outcome, after, fate⟩ := round
  cases fate with
  | returned value | aborted last | exhausted last answer =>
    obtain rfl := Turn.done.inj hturn
    exact ⟨rfl, rfl, rfl⟩
  | retried last rawDelay => cases hturn

/-- Every operation call of a sequence of rounds advances the round number. -/
theorem Rounds.counts {S : Setting R A O} {mark : Mark} {log : List (Event R A O)}
    {turn : Turn Mark (Output R A O)} (h : Rounds S mark log turn) :
    match turn with
    | .again mark' => mark'.round = mark.round + (opStates log).length
    | .done output => 1 ≤ (opStates log).length ∧
        output.2.attempts = attemptNumber (mark.round + (opStates log).length - 1) := by
  induction h with
  | pause mark => rfl
  | last mark round output hallowed hturn =>
    -- The statistics show the number of the round that ends the run.
    rw [opStates_round]
    exact ⟨le_refl _, (Round.stats_of_done hturn).1⟩
  | next mark mark' round rest turn hallowed hturn hrest ih =>
    obtain ⟨last, rawDelay, hfate, rfl⟩ := Round.eq_retried_of_turn hturn
    rw [opStates_append, opStates_round, List.length_append, List.length_singleton]
    cases turn with
    | again mark'' =>
      have hround : mark''.round = mark.round + 1 + (opStates rest).length := ih
      show mark''.round = _
      omega
    | done output =>
      obtain ⟨hpos, hattempts⟩ := ih
      refine ⟨by omega, hattempts.trans ?_⟩
      show attemptNumber (mark.round + 1 + (opStates rest).length - 1) = _
      congr 1
      omega

theorem Rounds.of_mem_nextWait {S : Setting R A O} {mark : Mark} {log : List (Event R A O)}
    {turn : Turn Mark (Output R A O)} (h : Rounds S mark log turn) {state : RetryState}
    {rawDelay : Duration} (hmem : .nextWait state rawDelay ∈ log) :
    timeoutExceeded S.timeout state.elapsed = false := by
  induction h with
  | pause mark => cases hmem
  | last mark round output hallowed hturn => exact Round.of_mem_nextWait hallowed hmem
  | next mark mark' round rest turn hallowed hturn hrest ih =>
    rcases List.mem_append.mp hmem with hmem | hmem
    · exact Round.of_mem_nextWait hallowed hmem
    · exact ih hmem

/-- The delays of the gaps add up, counting none for a terminal attempt. -/
theorem Rounds.waits {S : Setting R A O} {mark : Mark} {log : List (Event R A O)}
    {turn : Turn Mark (Output R A O)} (h : Rounds S mark log turn) :
    let total := mark.waited + ((gapDelays S.timeout log).map Duration.nanos).sum
    match turn with
    | .again mark' => mark'.waited = total
    | .done output => output.2.totalWait = .ofNanos total := by
  induction h with
  | pause mark => rfl
  | last mark round output hallowed hturn =>
    -- A terminal round has no gap, and reports the sum that it found.
    rw [gapDelays_round, Round.gap_of_done hturn]
    exact (Round.stats_of_done hturn).2.2
  | next mark mark' round rest turn hallowed hturn hrest ih =>
    obtain ⟨last, rawDelay, hfate, rfl⟩ := Round.eq_retried_of_turn hturn
    have hgap : round.gap S.timeout mark =
        some (clampDelay S.timeout (round.after mark).highest rawDelay) := by
      rw [Round.gap, hfate]
    have htotal : ((gapDelays S.timeout (round.calls S mark ++ rest)).map Duration.nanos).sum =
        (clampDelay S.timeout (round.after mark).highest rawDelay).nanos +
          ((gapDelays S.timeout rest).map Duration.nanos).sum := by
      rw [gapDelays_append, gapDelays_round, hgap]
      rfl
    rw [htotal, ← Nat.add_assoc]
    cases turn with
    | again mark' => exact ih
    | done output => exact ih

/-- What a finished run reports as its total wait. -/
theorem Rounds.total_wait {S : Setting R A O} {baseline : Duration} {rounds : List (Event R A O)}
    {output : Output R A O} (h : Rounds S (.start baseline) rounds (.done output)) :
    output.2.totalWait =
      .ofNanos ((gapDelays S.timeout (.now baseline :: rounds)).map Duration.nanos).sum := by
  have hwaits : output.2.totalWait =
      .ofNanos (0 + ((gapDelays S.timeout rounds).map Duration.nanos).sum) := h.waits
  rw [hwaits, Nat.zero_add]
  rfl

/-- Every operation call but the last one of a finished run is followed by a gap. -/
theorem Rounds.gaps {S : Setting R A O} {mark : Mark} {log : List (Event R A O)}
    {turn : Turn Mark (Output R A O)} (h : Rounds S mark log turn) :
    match turn with
    | .again _ => (opStates log).length = (gapDelays S.timeout log).length
    | .done _ => (opStates log).length = (gapDelays S.timeout log).length + 1 := by
  induction h with
  | pause mark => rfl
  | last mark round output hallowed hturn =>
    rw [opStates_round, gapDelays_round, Round.gap_of_done hturn]
    rfl
  | next mark mark' round rest turn hallowed hturn hrest ih =>
    obtain ⟨last, rawDelay, hfate, -⟩ := Round.eq_retried_of_turn hturn
    -- A retried round calls the operation once and opens one gap.
    have hgap : (gapDelays S.timeout (round.calls S mark)).length = 1 := by
      rw [gapDelays_round, Round.gap, hfate]
      rfl
    rw [opStates_append, gapDelays_append, List.length_append, List.length_append,
      opStates_round, hgap]
    cases turn with
    | again mark'' => exact congrArg (1 + ·) ih
    | done output => exact congrArg (1 + ·) ih

/-! ## §4 Elapsed times are watermarks -/

namespace Elapsed

@[simp] theorem observeAll_nil (e : Elapsed) : e.observeAll [] = e := rfl

@[simp] theorem observeAll_cons (e : Elapsed) (r : Duration) (rs : List Duration) :
    e.observeAll (r :: rs) = (e.observe r).observeAll rs := rfl

@[simp] theorem observeAll_append (e : Elapsed) (rs rs' : List Duration) :
    e.observeAll (rs ++ rs') = (e.observeAll rs).observeAll rs' := List.foldl_append

theorem observeAll_highest (e : Elapsed) (rs : List Duration) :
    (e.observeAll rs).highest =
      (rs.map fun reading => reading.saturatingSub e.origin).foldl max e.highest := by
  induction rs generalizing e with
  | nil => rfl
  | cons r rs ih =>
    rw [observeAll_cons, ih, observe_origin]
    rfl

/-- From the baseline on, the watermark is the highest elapsed time. -/
theorem observeAll_start (baseline : Duration) (rs : List Duration) :
    ((⟨baseline, .zero⟩ : Elapsed).observeAll rs).highest = watermark baseline rs :=
  observeAll_highest _ rs

end Elapsed

theorem le_foldl_max (d : Duration) (rs : List Duration) : d ≤ rs.foldl max d := by
  induction rs generalizing d with
  | nil => exact le_refl d
  | cons r rs ih => exact (le_max_left d r).trans (ih (max d r))

theorem Elapsed.highest_le_observeAll (e : Elapsed) (rs : List Duration) :
    e.highest ≤ (e.observeAll rs).highest := by
  rw [observeAll_highest]
  exact le_foldl_max _ _

/-- `TracksElapsed e log`: in `log`, every elapsed time shown is the watermark that
the readings before it leave, starting from `e`. -/
def TracksElapsed (e : Elapsed) : List (Event R A O) → Prop
  | [] => True
  | ev :: log => (∀ d, ev.elapsed? = some d → d = e.highest) ∧
      TracksElapsed (e.observeAll ev.reading?.toList) log

theorem TracksElapsed.append {e : Elapsed} {log log' : List (Event R A O)}
    (h : TracksElapsed e log) (h' : TracksElapsed (e.observeAll (readings log)) log') :
    TracksElapsed e (log ++ log') := by
  induction log generalizing e with
  | nil => exact h'
  | cons ev log ih =>
    refine ⟨h.1, ih h.2 ?_⟩
    rwa [readings_cons, Elapsed.observeAll_append] at h'

theorem TracksElapsed.at {e : Elapsed} {before after : List (Event R A O)} {ev : Event R A O}
    (h : TracksElapsed e (before ++ ev :: after)) {d : Duration} (hd : ev.elapsed? = some d) :
    d = (e.observeAll (readings before)).highest := by
  induction before generalizing e with
  | nil => exact h.1 d hd
  | cons ev' before ih =>
    rw [readings_cons, Elapsed.observeAll_append]
    exact ih h.2

/-- A log without readings tracks a watermark when it shows only that watermark. -/
theorem TracksElapsed.of_still {e : Elapsed} {log : List (Event R A O)}
    (hstill : ∀ ev ∈ log, ev.reading? = none)
    (hshown : ∀ ev ∈ log, ∀ d, ev.elapsed? = some d → d = e.highest) : TracksElapsed e log := by
  induction log with
  | nil => trivial
  | cons ev log ih =>
    obtain ⟨hev, hlog⟩ := List.forall_mem_cons.mp hstill
    obtain ⟨hev', hlog'⟩ := List.forall_mem_cons.mp hshown
    refine ⟨hev', ?_⟩
    rw [hev]
    exact ih hlog hlog'

theorem Round.opStates_openingCalls (S : Setting R A O) (mark : Mark) (reading : Duration) :
    opStates (Round.openingCalls S mark reading) = [mark.state (mark.before reading)] := by
  have hhooks := filterMap_hookEvents (R := R) (A := A) (O := O) Event.opState? S.beforeHooks
    .beforeAttempt (mark.state (mark.before reading)) fun _ => rfl
  show ((hookEvents S.beforeHooks .beforeAttempt (mark.state (mark.before reading)) ++
    [.op (mark.state (mark.before reading))] : List (Event R A O)).filterMap Event.opState?) = _
  rw [List.filterMap_append, hhooks]
  rfl

theorem Round.openingCalls_still (S : Setting R A O) (mark : Mark) (reading : Duration) :
    ∀ ev ∈ (hookEvents S.beforeHooks .beforeAttempt (mark.state (mark.before reading)) ++
      [.op (mark.state (mark.before reading))] : List (Event R A O)), ev.reading? = none := by
  intro ev hev
  simp only [List.mem_append, mem_hookEvents, List.mem_singleton] at hev
  rcases hev with ⟨hook, -, rfl⟩ | rfl <;> rfl

theorem Round.readings_openingCalls (S : Setting R A O) (mark : Mark) (reading : Duration) :
    readings (Round.openingCalls S mark reading) = [reading] :=
  congrArg (reading :: ·) (List.filterMap_eq_nil_iff.mpr (openingCalls_still S mark reading))

theorem Round.readings_closingCalls (S : Setting R A O) (mark : Mark) (elapsed : Elapsed)
    (outcome : O) (reading : Duration) :
    readings (Round.closingCalls S mark elapsed outcome reading) = [reading] :=
  congrArg (reading :: ·) (filterMap_hookEvents _ _ _ _ fun _ => rfl)

theorem Fate.calls_shows {S : Setting R A O} {state : RetryState} {outcome : O}
    {fate : Fate R A O} {ev : Event R A O} (hev : ev ∈ fate.calls S state outcome) :
    ev.reading? = none ∧ ∀ d, ev.elapsed? = some d → d = state.elapsed := by
  rcases Fate.mem_calls hev with ⟨verdict, rfl⟩ | ⟨answer, rfl⟩ | ⟨last, rawDelay, -, rfl⟩ |
    ⟨hook, exit, helapsed, rfl⟩
  · exact ⟨rfl, fun d hd => by cases hd⟩
  · exact ⟨rfl, fun d hd => (Option.some.inj hd).symm⟩
  · exact ⟨rfl, fun d hd => (Option.some.inj hd).symm⟩
  · exact ⟨rfl, fun d hd => (Option.some.inj hd).symm.trans helapsed⟩

theorem Fate.waitCalls_shows {S : Setting R A O} {elapsed : Duration} {fate : Fate R A O}
    {ev : Event R A O} (hev : ev ∈ fate.waitCalls S elapsed) :
    ev.reading? = none ∧ ev.elapsed? = none := by
  cases fate with
  | returned value | aborted last | exhausted last answer => cases hev
  | retried last rawDelay =>
    simp only [Fate.waitCalls, waitEvents] at hev
    split at hev
    · cases hev
    · obtain rfl := List.mem_singleton.mp hev
      exact ⟨rfl, rfl⟩

/-- Up to the operation everything shows the watermark of the round's first reading. -/
theorem TracksElapsed.opening (S : Setting R A O) (mark : Mark) (reading : Duration) :
    TracksElapsed mark.elapsed (Round.openingCalls S mark reading) := by
  refine ⟨fun d hd => (by cases hd), .of_still (Round.openingCalls_still S mark reading) ?_⟩
  intro ev hev d hd
  simp only [List.mem_append, mem_hookEvents, List.mem_singleton] at hev
  rcases hev with ⟨hook, -, rfl⟩ | rfl <;> exact (Option.some.inj hd).symm

/-- After its second reading, everything in a round shows the watermark it leaves. -/
theorem TracksElapsed.closing (S : Setting R A O) (mark : Mark) (round : Round R A O) :
    TracksElapsed (round.after mark)
      (hookEvents S.afterHooks .afterAttempt
          ⟨attemptNumber mark.round, (round.after mark).highest, round.outcome⟩ ++
        round.fate.calls S (mark.state (round.after mark)) round.outcome ++
        round.fate.waitCalls S (round.after mark).highest) := by
  refine .of_still ?_ ?_
  · intro ev hev
    -- Hooks, then the calls from the verdict on, then the wait.
    rcases List.mem_append.mp hev with hev | hev
    · rcases List.mem_append.mp hev with hev | hev
      · obtain ⟨hook, -, rfl⟩ := mem_hookEvents.mp hev
        rfl
      · exact (Fate.calls_shows hev).1
    · exact (Fate.waitCalls_shows hev).1
  · intro ev hev d hd
    rcases List.mem_append.mp hev with hev | hev
    · rcases List.mem_append.mp hev with hev | hev
      · obtain ⟨hook, -, rfl⟩ := mem_hookEvents.mp hev
        exact (Option.some.inj hd).symm
      · exact (Fate.calls_shows hev).2 d hd
    · rw [(Fate.waitCalls_shows hev).2] at hd
      cases hd

/-- What a hook, the operation or a strategy is shown within a round. -/
theorem TracksElapsed.round (S : Setting R A O) (mark : Mark) (round : Round R A O) :
    TracksElapsed mark.elapsed (round.calls S mark) := by
  have hcalls : round.calls S mark =
      Round.openingCalls S mark round.beforeReading ++
      ([.outcome round.outcome, .now round.afterReading] ++
        (hookEvents S.afterHooks .afterAttempt
            ⟨attemptNumber mark.round, (round.after mark).highest, round.outcome⟩ ++
          round.fate.calls S (mark.state (round.after mark)) round.outcome ++
          round.fate.waitCalls S (round.after mark).highest)) := by
    simp [Round.calls, Round.closingCalls, Mark.state]
  rw [hcalls]
  refine .append (.opening S mark round.beforeReading) ?_
  rw [Round.readings_openingCalls]
  exact ⟨fun d hd => (by cases hd), fun d hd => (by cases hd), .closing S mark round⟩

/-- The rounds of a run show nothing but watermarks, and lead to one. -/
theorem Rounds.tracks {S : Setting R A O} {mark : Mark} {log : List (Event R A O)}
    {turn : Turn Mark (Output R A O)} (h : Rounds S mark log turn) :
    TracksElapsed mark.elapsed log ∧
    match turn with
    | .again mark' => mark'.elapsed = mark.elapsed.observeAll (readings log)
    | .done output => output.2.totalElapsed = (mark.elapsed.observeAll (readings log)).highest := by
  induction h with
  | pause mark => exact ⟨trivial, rfl⟩
  | last mark round output hallowed hturn =>
    refine ⟨.round S mark round, ?_⟩
    rw [readings_round]
    exact (Round.stats_of_done hturn).2.1
  | next mark mark' round rest turn hallowed hturn hrest ih =>
    obtain ⟨last, rawDelay, hfate, rfl⟩ := Round.eq_retried_of_turn hturn
    obtain ⟨htracks, hturn'⟩ := ih
    -- The watermark that the rest starts from is what the readings of this round leave.
    have helapsed : mark.elapsed.observeAll (readings (round.calls S mark)) =
        (round.nextMark S mark rawDelay).elapsed := by
      rw [readings_round]
      rfl
    refine ⟨.append (.round S mark round) (helapsed ▸ htracks), ?_⟩
    rw [readings_append, Elapsed.observeAll_append, helapsed]
    cases turn with
    | again mark'' => exact hturn'
    | done output => exact hturn'

end Relentless
