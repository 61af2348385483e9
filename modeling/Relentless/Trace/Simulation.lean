import Relentless.Engine.AsyncTwin
import Relentless.Trace.AsyncConformance

/-!
# The Async Engine Simulates the Sync Engine

Every phase of an async run corresponds to a point of the sync loop of which its
configuration is a twin: the same calls have been made, and what the pending
future still has to do is what the blocking call does.

- `Follows` — the simulation relation, phase by phase
- `Follows.pass` — one pass of the poll loop keeps it
- `yields` — the polls that return `Pending`, counted in the log
-/

namespace Relentless

open StateLoop

variable {σ Fut WaitFut R A O : Type}

/-! ## §1 Yields -/

/-- The polls of the inner futures that returned `Pending`. -/
def Event.isPending : Event R A O → Bool
  | .opPending _ | .waitPending _ => true
  | _ => false

/-- The `Pending`s returned by inner futures, and the zero-delay gaps. -/
def yields (timeout : Option Duration) (log : List (Event R A O)) : ℕ :=
  log.countP Event.isPending + (gapDelays timeout log).count .zero

@[simp] theorem yields_append (timeout : Option Duration) (log log' : List (Event R A O)) :
    yields timeout (log ++ log') = yields timeout log + yields timeout log' := by
  simp only [yields, List.countP_append, gapDelays_append, List.count_append]
  omega

/-- Calls that consult no wait strategy do not yield. -/
theorem yields_eq_zero {timeout : Option Duration} {log : List (Event R A O)}
    (h : ∀ ev ∈ log, ev.isPending = false ∧ ev.gapDelay? timeout = none) :
    yields timeout log = 0 := by
  have hpending : log.countP Event.isPending = 0 := by
    apply List.countP_eq_zero.mpr
    intro ev hev
    rw [(h ev hev).1]
    exact Bool.false_ne_true
  have hgaps : gapDelays timeout log = [] :=
    List.filterMap_eq_nil_iff.mpr fun ev hev => (h ev hev).2
  rw [yields, hpending, hgaps]
  rfl

theorem yields_openingCalls (S : Setting R A O) (mark : Mark) (reading : Duration) :
    yields S.timeout (Round.openingCalls S mark reading : List (Event R A O)) = 0 := by
  apply yields_eq_zero
  intro ev hev
  rcases Round.mem_openingCalls hev with rfl | ⟨hook, rfl⟩ | rfl <;> exact ⟨rfl, rfl⟩

/-- The second half of a round yields when it opens a zero-delay gap. -/
theorem yields_closing (S : Setting R A O) (mark : Mark) (round : Round R A O) :
    yields S.timeout (Round.closingCalls S mark (round.after mark) round.outcome
        round.afterReading ++
      round.fate.calls S (mark.state (round.after mark)) round.outcome) =
    if round.gap S.timeout mark = some .zero then 1 else 0 := by
  have hclosing : yields S.timeout (Round.closingCalls S mark (round.after mark) round.outcome
      round.afterReading) = 0 := by
    apply yields_eq_zero
    intro ev hev
    simp only [Round.closingCalls, List.mem_cons, mem_hookEvents] at hev
    rcases hev with rfl | rfl | ⟨hook, -, rfl⟩ <;> exact ⟨rfl, rfl⟩
  obtain ⟨before, outcome, after, fate⟩ := round
  rw [yields_append, hclosing, Nat.zero_add]
  cases fate with
  | returned value | aborted last | exhausted last answer =>
    -- A terminal fate consults no wait strategy.
    apply yields_eq_zero
    intro ev hev
    rcases Fate.mem_calls hev with ⟨verdict, rfl⟩ | ⟨answer, rfl⟩ | ⟨_, _, hfate, -⟩ |
      ⟨hook, exit, -, rfl⟩
    · exact ⟨rfl, rfl⟩
    · exact ⟨rfl, rfl⟩
    · cases hfate
    · exact ⟨rfl, rfl⟩
  | retried last rawDelay =>
    -- Of its calls only the consultation can yield, and its delay is the gap of the round.
    let delay := clampDelay S.timeout ((mark.before before).observe after).highest rawDelay
    show 0 + [delay].count .zero = if some delay = some .zero then 1 else 0
    rw [Nat.zero_add, List.count_singleton]
    simp

/-! ## §2 The simulation relation -/

/-- After `n` rounds the sync run stands at `mark` in the world `w`, having made the
calls `log`. -/
def Retry.At (sync : Retry (Eff σ) R A O) (w₀ : σ) (n : ℕ) (mark : Mark) (w : σ)
    (log : List (Event R A O)) : Prop :=
  sync.traced.runFor n ⟨w₀, []⟩ = (.again mark.cursor, ⟨w, log⟩)

/-- One more round from where the sync run stands. -/
theorem Retry.At.snoc {sync : Retry (Eff σ) R A O} {w₀ w w' : σ} {n : ℕ} {mark : Mark}
    {log log' : List (Event R A O)} {turn : Turn Cursor (Output R A O)}
    (h : sync.At w₀ n mark w log)
    (hbody : sync.traced.loopBody mark.cursor ⟨w, log⟩ = (turn, ⟨w', log'⟩)) :
    sync.traced.runFor (n + 1) ⟨w₀, []⟩ = (turn, ⟨w', log'⟩) :=
  Eq.trans (runFor_snoc h) hbody

/-- `Follows twin w₀ n log w state`: with the calls of `log` made, in the world `w`, an
async run in `state` is where the sync run is after `n` rounds: before a round, in
the operation of the next round, or in the wait that ended the last one. -/
inductive Follows {sync : Retry (Eff σ) R A O} (twin : AsyncTwin sync Fut WaitFut) (w₀ : σ)
    (n : ℕ) : List (Event R A O) → σ → AsyncRetry.LoopState Fut WaitFut → Prop where
  | ready (mark : Mark) (w : σ) (log : List (Event R A O))
      (hsync : sync.At w₀ n mark w (calls log)) :
      Follows twin w₀ n log w (mark.elapsed, mark.fields .readyToStart mark.round)
  | polling (mark : Mark) (w w₁ w' : σ) (log rounds : List (Event R A O)) (reading : Duration)
      (future : Fut) (hsync : sync.At w₀ n mark w rounds)
      (hbefore : sync.clock.now w = (reading, w₁))
      (hlog : calls log = rounds ++ Round.openingCalls sync.setting mark reading)
      (hcompletes : Completes twin.pollOp (sync.op (mark.state (mark.before reading))
        (sync.hooks.beforeAttempt.call (mark.state (mark.before reading)) w₁).2) future w') :
      Follows twin w₀ n log w' (mark.before reading, mark.fields (.polling future) mark.round)
  | sleeping (mark : Mark) (k : ℕ) (w w' : σ) (log : List (Event R A O)) (future : WaitFut)
      (hsync : sync.At w₀ n mark w (calls log)) (hround : mark.round = k + 1)
      (hcompletes : Completes twin.pollWait ((), w) future w') :
      Follows twin w₀ n log w' (mark.elapsed, mark.fields (.sleeping future) k)
  | yielding (mark : Mark) (k : ℕ) (w : σ) (log : List (Event R A O))
      (hsync : sync.At w₀ n mark w (calls log)) (hround : mark.round = k + 1) :
      Follows twin w₀ n log w (mark.elapsed, mark.fields .yielding k)

/-- What a pass of the poll loop, yielding some number of times, has led to: a later
state of the same poll, the end of a poll, or the end of both runs. -/
inductive Advances {sync : Retry (Eff σ) R A O} (twin : AsyncTwin sync Fut WaitFut) (w₀ : σ)
    (n : ℕ) (log : List (Event R A O)) (w : σ) :
    ℕ → Turn (AsyncRetry.LoopState Fut WaitFut) (AsyncRetry.PollResult Fut WaitFut R A O) →
      Prop where
  | again (state : AsyncRetry.LoopState Fut WaitFut) (hfollows : Follows twin w₀ n log w state) :
      Advances twin w₀ n log w 0 (.again state)
  | pending (state : AsyncRetry.LoopState Fut WaitFut) (hfollows : Follows twin w₀ n log w state) :
      Advances twin w₀ n log w 1 (AsyncRetry.leave .pending state.1 state.2)
  | ready (output : Output R A O) (run : AsyncRun Fut WaitFut)
      (hsync : sync.traced.runFor n ⟨w₀, []⟩ = (.done output, ⟨w, calls log⟩)) :
      Advances twin w₀ n log w 0 (.done (.ready output, run))

/-! ## §3 Passes keep the relation -/

section Passes

variable {sync : Retry (Eff σ) R A O} (twin : AsyncTwin sync Fut WaitFut) (cx : Context)

/-- The operation of round `n + 1` has answered in both engines.  The sync run has
finished the round, in the world `w'`; the async run has logged `evs` up to its
decision, in the world `w`. -/
structure Answered (sync : Retry (Eff σ) R A O) (w₀ : σ) (n : ℕ) (mark : Mark)
    (round : Round R A O) (log evs rounds : List (Event R A O)) (w w' : σ) : Prop where
  sync_round : sync.traced.runFor (n + 1) ⟨w₀, []⟩ =
    ((round.turn sync.setting mark).mapNext Mark.cursor,
      ⟨w', rounds ++ round.calls sync.setting mark⟩)
  slept : w' = match round.gap sync.setting.timeout mark with
    | some delay => (sync.sleep delay w).2
    | none => w
  calls : calls (log ++ evs) ++ round.fate.waitCalls sync.setting (round.after mark).highest =
    rounds ++ round.calls sync.setting mark
  yields : yields sync.setting.timeout evs =
    if round.gap sync.setting.timeout mark = some .zero then 1 else 0

/-- From its decision on, the pass leads to where the sync run is after `n + 1` rounds. -/
def Proceeds (w₀ : σ) (n : ℕ) (mark : Mark) (round : Round R A O) (future : Fut)
    (log evs : List (Event R A O)) (w : σ) : Prop :=
  ∃ turn wf evs', twin.toAsync.traced.proceed cx (round.after mark)
      (mark.fields (.polling future) mark.round)
      (round.fate.step sync.setting (mark.state (round.after mark)) (.ofNanos mark.waited))
      ⟨w, log ++ evs⟩ = (turn, ⟨wf, log ++ evs'⟩) ∧
    Advances twin w₀ (n + 1) (log ++ evs') wf (yields sync.setting.timeout evs') turn

variable {w₀ : σ} {n : ℕ} {mark : Mark} {round : Round R A O} {log evs rounds : List (Event R A O)}
  {w w' : σ}

/-- Both runs are over. -/
theorem Answered.done (h : Answered sync w₀ n mark round log evs rounds w w') (future : Fut)
    {output : Output R A O} (hturn : round.turn sync.setting mark = .done output) :
    Proceeds twin cx w₀ n mark round future log evs w := by
  have hgap := Round.gap_of_done hturn
  have hdone := twin.toAsync.proceed_done cx mark round (mark.fields (.polling future) mark.round)
    output hturn w
  have hcalls := h.calls
  have hsync := h.sync_round
  obtain rfl : w' = w := by
    have hslept := h.slept
    rwa [hgap] at hslept
  have hnone : round.fate.waitCalls sync.setting (round.after mark).highest = [] := (hdone []).2
  rw [hnone, List.append_nil] at hcalls
  rw [hturn, ← hcalls] at hsync
  refine ⟨_, _, evs, (hdone (log ++ evs)).1, ?_⟩
  rw [h.yields, hgap]
  exact .ready output _ hsync

/-- No clock wait in either engine; the async one yields instead. -/
theorem Answered.yielding (h : Answered sync w₀ n mark round log evs rounds w w') (future : Fut)
    {mark' : Mark} (hturn : round.turn sync.setting mark = .again mark')
    (hdelay : mark'.previousDelay = some .zero) (hnumber : mark'.round = mark.round + 1) :
    Proceeds twin cx w₀ n mark round future log evs w := by
  have hgap := Round.gap_of_again hturn
  rw [hdelay] at hgap
  have hyield := twin.toAsync.proceed_yield cx mark mark' round future hturn hdelay w
  have hcalls := h.calls
  have hsync := h.sync_round
  obtain rfl : w' = w := by
    have hslept := h.slept
    rwa [hgap] at hslept
  have hnone : round.fate.waitCalls sync.setting (round.after mark).highest = [] := (hyield []).2
  rw [hnone, List.append_nil] at hcalls
  -- The wake is no call, so the calls stay those of the sync run.
  have hwake : Relentless.calls (log ++ evs ++ [.wake cx]) =
      rounds ++ round.calls sync.setting mark := by
    rw [calls_append, hcalls]
    exact List.append_nil _
  have hbody := (hyield (log ++ evs)).1
  rw [List.append_assoc log] at hbody hwake
  have hone : Relentless.yields sync.setting.timeout (evs ++ [.wake cx]) = 1 := by
    rw [yields_append, h.yields, hgap]
    rfl
  refine ⟨_, _, _, hbody, ?_⟩
  rw [hone]
  refine .pending (mark'.elapsed, mark'.fields .yielding mark.round) ?_
  refine .yielding mark' mark.round w' _ ?_ hnumber
  rw [Retry.At, hwake]
  rwa [hturn] at hsync

/-- The blocking wait, and the future that stands in for it. -/
theorem Answered.sleeping (h : Answered sync w₀ n mark round log evs rounds w w') (future : Fut)
    {mark' : Mark} (hturn : round.turn sync.setting mark = .again mark') {delay : Duration}
    (hdelay : mark'.previousDelay = some delay) (hzero : delay ≠ .zero)
    (hnumber : mark'.round = mark.round + 1) :
    Proceeds twin cx w₀ n mark round future log evs w := by
  have hgap := Round.gap_of_again hturn
  rw [hdelay] at hgap
  have hsleep := twin.toAsync.proceed_sleep cx mark mark' round future delay hturn hdelay hzero w
  have hcalls := h.calls
  have hsync := h.sync_round
  -- The sync run has waited in the world in which the async one asks for the wait.
  have hslept : ((), w') = sync.clock.wait delay w := by
    have hworld := h.slept
    rw [hgap] at hworld
    have hworld : w' = (sync.sleep delay w).2 := hworld
    rw [Retry.sleep, delay.isZero_eq_false_iff.mpr hzero] at hworld
    rw [hworld]
    rfl
  have hone : round.fate.waitCalls sync.setting (round.after mark).highest = [.wait delay] :=
    (hsleep []).2
  have hwait : Relentless.calls (log ++ evs ++ [.wait delay]) =
      rounds ++ round.calls sync.setting mark := by
    rw [calls_append, ← hcalls, hone]
    rfl
  have hbody := (hsleep (log ++ evs)).1
  rw [List.append_assoc log] at hbody hwait
  have hnone : Relentless.yields sync.setting.timeout (evs ++ [.wait delay]) = 0 := by
    rw [yields_append, h.yields, hgap, if_neg (fun h => hzero (Option.some.inj h))]
    rfl
  refine ⟨_, _, _, hbody, ?_⟩
  rw [hnone]
  refine .again _ (.sleeping mark' mark.round w' _ _ _ ?_ hnumber ?_)
  · rw [Retry.At, hwait]
    rwa [hturn] at hsync
  · rw [hslept]
    exact twin.wait_completes delay w

/-- The operation's answer completes the round in both engines. -/
theorem Follows.opReady {w₀ : σ} {n : ℕ} (mark : Mark) (w w₁ w' w'' : σ)
    (log rounds : List (Event R A O)) (reading : Duration) (future future' : Fut) (answer : O)
    (hsync : sync.At w₀ n mark w rounds) (hbefore : sync.clock.now w = (reading, w₁))
    (hlog : calls log = rounds ++ Round.openingCalls sync.setting mark reading)
    (hpoll : twin.pollOp future cx w' = ((.ready answer, future'), w''))
    (hgoal : (answer, w'') = sync.op (mark.state (mark.before reading))
      (sync.hooks.beforeAttempt.call (mark.state (mark.before reading)) w₁).2) :
    ∃ turn wf evs, twin.toAsync.traced.pollBody cx
        (mark.before reading, mark.fields (.polling future) mark.round) ⟨w', log⟩ =
          (turn, ⟨wf, log ++ evs⟩) ∧
      Advances twin w₀ (n + 1) (log ++ evs) wf (yields sync.setting.timeout evs) turn := by
  obtain ⟨round, w₀', w₁', w₂, w₃, h⟩ := sync.exists_unfolds mark w
  obtain ⟨w₄, -, hproceed, hbody⟩ := h.loopBody
  -- The sync round reads the same clock and runs the same operation.
  obtain ⟨rfl, rfl⟩ : round.beforeReading = reading ∧ w₀' = w₁ :=
    Prod.mk.inj (h.before.symm.trans hbefore)
  obtain ⟨rfl, rfl⟩ : round.outcome = answer ∧ w₁' = w'' :=
    Prod.mk.inj (h.op.symm.trans hgoal.symm)
  let evs := Round.closingCalls sync.setting mark (round.after mark) round.outcome
      round.afterReading ++
    round.fate.calls sync.setting (mark.state (round.after mark)) round.outcome
  have hpass := twin.toAsync.pollBody_opReady cx mark round future future' hpoll h.after h.step log
  have hcalls := twin.toAsync.calls_round mark round log rounds hlog
  rw [List.append_assoc] at hpass hcalls
  have hworld := sync.proceed_world mark round w₃
  rw [hproceed] at hworld
  have hanswered : Answered sync w₀ n mark round log evs rounds w₃ w₄ :=
    ⟨hsync.snoc (hbody rounds), hworld, hcalls, yields_closing sync.setting mark round⟩
  suffices hproceeds : Proceeds twin cx w₀ n mark round future log evs w₃ by
    obtain ⟨turn, wf, evs', hturn, hadvances⟩ := hproceeds
    exact ⟨turn, wf, evs', hpass.trans hturn, hadvances⟩
  match hturn : round.turn sync.setting mark with
  | .done output => exact hanswered.done twin cx future hturn
  | .again mark' =>
    obtain ⟨hnumber, delay, hdelay⟩ := Round.next_of_turn hturn
    by_cases hzero : delay = .zero
    · rw [hzero] at hdelay
      exact hanswered.yielding twin cx future hturn hdelay hnumber
    · exact hanswered.sleeping twin cx future hturn hdelay hzero hnumber

/-- **Every pass of the poll loop keeps the simulation**, and yields when it ends a
poll as pending. -/
theorem Follows.pass {w₀ v : σ} {n : ℕ} {log : List (Event R A O)}
    {state : AsyncRetry.LoopState Fut WaitFut} (h : Follows twin w₀ n log v state) :
    ∃ n' turn wf evs, twin.toAsync.traced.pollBody cx state ⟨v, log⟩ =
        (turn, ⟨wf, log ++ evs⟩) ∧
      Advances twin w₀ n' (log ++ evs) wf (yields sync.setting.timeout evs) turn := by
  -- The phase says where the sync run is, and what the pass does next.
  cases h with
  | ready mark w log hsync =>
    refine ⟨n, _, _, _, twin.toAsync.pollBody_ready cx mark v log, ?_⟩
    have hzero := yields_openingCalls sync.setting mark (sync.clock.now v).1
    rw [show twin.toAsync.setting = sync.setting from rfl]
    refine hzero.symm ▸ .again _ (.polling mark v (sync.clock.now v).2 _ _ (calls log) _ _ hsync
      rfl ?_ ?_)
    · simp
    · exact twin.op_completes _ _
  | polling mark w w₁ w' log rounds reading future hsync hbefore hlog hcompletes =>
    obtain ⟨hready, hpending⟩ : _ ∧ _ := by
      cases hcompletes with
      | intro _ _ hready hpending => exact ⟨hready, hpending⟩
    match hpoll : twin.pollOp future cx v with
    | ((.pending, future'), w') =>
      refine ⟨n, _, _, _, twin.toAsync.pollBody_opPending cx mark _ future future' hpoll log, ?_⟩
      refine .pending (mark.before reading, mark.fields (.polling future') mark.round) ?_
      refine .polling mark w w₁ w' _ rounds reading future' hsync hbefore ?_
        (hpending cx future' w' hpoll)
      simpa using hlog
    | ((.ready answer, future'), w'') =>
      obtain ⟨turn, wf, evs, hbody, hadvances⟩ := Follows.opReady twin cx mark w w₁ v w'' log rounds
        reading future future' answer hsync hbefore hlog hpoll (hready cx answer future' w'' hpoll)
      exact ⟨n + 1, turn, wf, evs, hbody, hadvances⟩
  | sleeping mark k w w' log future hsync hround hcompletes =>
    obtain ⟨hready, hpending⟩ : _ ∧ _ := by
      cases hcompletes with
      | intro _ _ hready hpending => exact ⟨hready, hpending⟩
    match hpoll : twin.pollWait future cx v with
    | ((.pending, future'), w'') =>
      refine ⟨n, _, _, _, twin.toAsync.pollBody_waitPending cx mark k future future' hpoll log, ?_⟩
      refine .pending (mark.elapsed, mark.fields (.sleeping future') k) ?_
      refine .sleeping mark k w w'' _ future' ?_ hround (hpending cx future' w'' hpoll)
      simpa using hsync
    | ((.ready (), future'), w'') =>
      refine ⟨n, _, _, _,
        twin.toAsync.pollBody_waitReady cx mark k hround future future' hpoll log, ?_⟩
      have hworld := hready cx () future' w'' hpoll
      obtain rfl := (Prod.mk.inj hworld).2
      refine .again _ (.ready mark w'' _ ?_)
      simpa using hsync
  | yielding mark k w log hsync hround =>
    have hbody := twin.toAsync.pollBody_yielding cx mark k hround v log
    have hsync' : sync.At w₀ n mark v (calls (log ++ [])) := by rwa [List.append_nil]
    refine ⟨n, _, v, [], ?_, .again _ (.ready mark v (log ++ []) hsync')⟩
    rw [hbody, List.append_nil]

/-! ## §4 When the sync run terminates, so does the polling -/

variable (cxs : ℕ → Context) (w₀ : σ)

/-- Some poll finds the run ready. -/
def AsyncTwin.Terminates : Prop :=
  ∃ j t run output, twin.toAsync.traced.PolledTo cxs ⟨w₀, []⟩ j t run (.ready output)

/-- Where the async run is midway through a poll and follows the sync run after `n` rounds. -/
def AsyncTwin.Reaches (n : ℕ) : Prop :=
  ∃ j log w state, twin.toAsync.traced.Midway cxs ⟨w₀, []⟩ j ⟨w, log⟩ state ∧
    Follows twin w₀ n log w state

variable {twin cxs w₀}

/-- The operation's future gets ready, and with it the round ends. -/
theorem AsyncTwin.finishes_op {n j : ℕ} (mark : Mark) (w w₁ w' : σ)
    (log rounds : List (Event R A O)) (reading : Duration) (future : Fut)
    (hsync : sync.At w₀ n mark w rounds) (hbefore : sync.clock.now w = (reading, w₁))
    (hlog : calls log = rounds ++ Round.openingCalls sync.setting mark reading)
    (hcompletes : Completes twin.pollOp (sync.op (mark.state (mark.before reading))
      (sync.hooks.beforeAttempt.call (mark.state (mark.before reading)) w₁).2) future w')
    (hmidway : twin.toAsync.traced.Midway cxs ⟨w₀, []⟩ j ⟨w', log⟩
      (mark.before reading, mark.fields (.polling future) mark.round)) :
    twin.Terminates cxs w₀ ∨ twin.Reaches cxs w₀ (n + 1) := by
  -- By induction on the `Pending`s the future still has to answer.
  induction hcompletes generalizing j log with
  | intro future w' hready hpending ih =>
    match hpoll : twin.pollOp future (cxs j) w' with
    | ((.pending, future'), w'') =>
      have hbody := twin.toAsync.pollBody_opPending (cxs j) mark (mark.before reading) future
        future' hpoll log
      refine ih (cxs j) future' w'' hpoll _ ?_ (hmidway.pending hbody)
      simpa using hlog
    | ((.ready answer, future'), w'') =>
      obtain ⟨turn, wf, evs, hbody, hadvances⟩ := Follows.opReady twin (cxs j) mark w w₁ w' w'' log
        rounds reading future future' answer hsync hbefore hlog hpoll
        (hready (cxs j) answer future' w'' hpoll)
      generalize yields sync.setting.timeout evs = yielded at hadvances
      cases hadvances with
      | again state hfollows => exact .inr ⟨j, _, wf, state, hmidway.again hbody, hfollows⟩
      | pending state hfollows => exact .inr ⟨j + 1, _, wf, state, hmidway.pending hbody, hfollows⟩
      | ready output run hdone => exact .inl ⟨j + 1, _, run, output, hmidway.done hbody⟩

/-- A run about to start a round gets through it. -/
theorem AsyncTwin.finishes_round {n j : ℕ} (mark : Mark) (w : σ) (log : List (Event R A O))
    (hsync : sync.At w₀ n mark w (calls log))
    (hmidway : twin.toAsync.traced.Midway cxs ⟨w₀, []⟩ j ⟨w, log⟩
      (mark.elapsed, mark.fields .readyToStart mark.round)) :
    twin.Terminates cxs w₀ ∨ twin.Reaches cxs w₀ (n + 1) := by
  have hbody := twin.toAsync.pollBody_ready (cxs j) mark w log
  refine twin.finishes_op mark w (sync.clock.now w).2 _ _ (calls log) _ _ hsync rfl ?_
    (twin.op_completes _ _) (hmidway.again hbody)
  rw [calls_append, Round.calls_openingCalls]
  rfl

/-- A run in a wait gets through it and through the round after it. -/
theorem AsyncTwin.finishes_wait {n j : ℕ} (mark : Mark) (k : ℕ) (w w' : σ)
    (log : List (Event R A O)) (future : WaitFut) (hsync : sync.At w₀ n mark w (calls log))
    (hround : mark.round = k + 1) (hcompletes : Completes twin.pollWait ((), w) future w')
    (hmidway : twin.toAsync.traced.Midway cxs ⟨w₀, []⟩ j ⟨w', log⟩
      (mark.elapsed, mark.fields (.sleeping future) k)) :
    twin.Terminates cxs w₀ ∨ twin.Reaches cxs w₀ (n + 1) := by
  -- By induction on the `Pending`s the wait still has to answer.
  induction hcompletes generalizing j log with
  | intro future w' hready hpending ih =>
    match hpoll : twin.pollWait future (cxs j) w' with
    | ((.pending, future'), w'') =>
      have hbody := twin.toAsync.pollBody_waitPending (cxs j) mark k future future' hpoll log
      refine ih (cxs j) future' w'' hpoll _ ?_ (hmidway.pending hbody)
      simpa using hsync
    | ((.ready (), future'), w'') =>
      have hbody := twin.toAsync.pollBody_waitReady (cxs j) mark k hround future future' hpoll log
      obtain rfl := (Prod.mk.inj (hready (cxs j) () future' w'' hpoll)).2
      refine twin.finishes_round mark w'' _ ?_ (hmidway.again hbody)
      simpa using hsync

/-- Wherever the async run follows the sync run, it gets one round further or ends. -/
theorem AsyncTwin.Reaches.succ {n : ℕ} (h : twin.Reaches cxs w₀ n) :
    twin.Terminates cxs w₀ ∨ twin.Reaches cxs w₀ (n + 1) := by
  obtain ⟨j, log, w, state, hmidway, hfollows⟩ := h
  cases hfollows with
  | ready mark w log hsync => exact twin.finishes_round mark w log hsync hmidway
  | polling mark w w₁ w' log rounds reading future hsync hbefore hlog hcompletes =>
    exact twin.finishes_op mark w w₁ _ log rounds reading future hsync hbefore hlog hcompletes
      hmidway
  | sleeping mark k w w' log future hsync hround hcompletes =>
    exact twin.finishes_wait mark k w _ log future hsync hround hcompletes hmidway
  | yielding mark k w log hsync hround =>
    have hbody := twin.toAsync.pollBody_yielding (cxs j) mark k hround w log
    exact twin.finishes_round mark w log hsync (hmidway.again hbody)

/-- Where the async run follows it, the sync run has made or will make its calls. -/
theorem Follows.prefix_sync {n : ℕ} {log : List (Event R A O)} {v : σ}
    {state : AsyncRetry.LoopState Fut WaitFut} (h : Follows twin w₀ n log v state) :
    ∃ n', calls log <+: (sync.traced.runFor n' ⟨w₀, []⟩).2.log := by
  cases h with
  | ready mark w log hsync | sleeping mark k w w' log future hsync
  | yielding mark k w log hsync =>
    have hlog : (sync.traced.runFor n ⟨w₀, []⟩).2.log = calls log := congrArg (·.2.log) hsync
    exact ⟨n, hlog ▸ List.prefix_refl _⟩
  | polling mark w w₁ w' log rounds reading future hsync hbefore hlog =>
    -- The opening of a round is the beginning of the round the sync run makes next.
    obtain ⟨round, w₀', w₁', w₂, w₃, h⟩ := sync.exists_unfolds mark w
    obtain ⟨w₄, -, -, hbody⟩ := h.loopBody
    obtain ⟨rfl, -⟩ := Prod.mk.inj (h.before.symm.trans hbefore)
    refine ⟨n + 1, ?_⟩
    rw [hsync.snoc (hbody rounds), hlog]
    apply List.prefix_append_right_inj _ |>.mpr
    rw [Round.calls, List.append_assoc, List.append_assoc]
    exact List.prefix_append _ _

/-- Where the async run follows it, the sync run is still going after `n` rounds. -/
theorem Follows.going {n : ℕ} {log : List (Event R A O)} {w : σ}
    {state : AsyncRetry.LoopState Fut WaitFut} (h : Follows twin w₀ n log w state) :
    ∃ cursor t, sync.traced.runFor n ⟨w₀, []⟩ = (.again cursor, t) := by
  cases h with
  | ready mark w log hsync | sleeping mark k w w' log future hsync
  | yielding mark k w log hsync => exact ⟨_, _, hsync⟩
  | polling mark w w₁ w' log rounds reading future hsync => exact ⟨_, _, hsync⟩

/-- **Liveness**: when the sync run terminates, some poll finds the async run ready. -/
theorem AsyncTwin.terminates_of_sync {N : ℕ} {output : Output R A O} {t : Traced σ R A O}
    (hdone : sync.traced.runFor N ⟨w₀, []⟩ = (.done output, t)) : twin.Terminates cxs w₀ := by
  have hreaches : ∀ n, twin.Terminates cxs w₀ ∨ twin.Reaches cxs w₀ n := by
    intro n
    induction n with
    | zero =>
      refine .inr ⟨0, _, _, _, AsyncRetry.Midway.first, ?_⟩
      exact .ready (.start (sync.clock.now w₀).1) _ _ rfl
    | succ n ih =>
      rcases ih with hterm | hreaches
      · exact .inl hterm
      · exact hreaches.succ
  rcases hreaches N with hterm | ⟨j, log, w, state, hmidway, hfollows⟩
  · exact hterm
  · -- After `N` rounds the sync run is over, so it cannot still be followed.
    obtain ⟨cursor, t', hgoing⟩ := hfollows.going
    rw [hgoing] at hdone
    cases (Prod.mk.inj hdone).1

end Passes

end Relentless
