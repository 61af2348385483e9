import Relentless.Engine.Sleeps
import Relentless.Guarantees.ConcurrentRuns
import Relentless.Guarantees.VirtualTime
import Relentless.Library.Interleaving

/-!
# Tasks on One Virtual Clock

Any number of futures of the async engine that borrow one `VirtualClock`, polled in any order,
while the clock is advanced as well.  What the clock has recorded is a ledger of the waits of
all tasks; the time that a task reports is that of every wait and every advance since it began.

- `AsyncRetry.Polls` — one poll of a task that is not ready
- `AsyncRetry.PollsReady` — the poll that finds it ready, and its last reading
- `AsyncRetry.Led` — where its calls have led a task
- `AsyncRetry.OnVirtual.preserves` — the waits that a poll requests take effect in it
- `Host.Steady` — a task between its polls
- `Host.Entered` — the ledger of what all tasks have waited for
- `virtual_tasks` — the guarantee
-/

namespace Relentless

open StateLoop
open Interleaving (Run play)

variable {σ ι Fut WaitFut R A O : Type}

/-! ## §1 Tasks -/

/-- A poll of a future that is not ready, which nobody interrupts. -/
def AsyncRetry.Polls (retry : AsyncRetry (Eff σ) Fut WaitFut R A O)
    (s s' : σ × (List (Event R A O) × AsyncRetry.PollResult Fut WaitFut R A O)) : Prop :=
  ∃ n cx, s.2.2.1 = .pending ∧
    retry.traced.pollFor n cx s.2.2.2 ⟨s.1, s.2.1⟩ = (.done s'.2.2, ⟨s'.1, s'.2.1⟩)

/-- The poll that finds the future ready.  The clock was read for the last time in the world
`stop`, when the operation had answered. -/
def AsyncRetry.PollsReady (retry : AsyncRetry (Eff σ) Fut WaitFut R A O)
    (s s' : σ × (List (Event R A O) × AsyncRetry.PollResult Fut WaitFut R A O))
    (output : Output R A O) (stop : σ) : Prop :=
  ∃ n cx state t future outcome future' log, s.2.2.1 = .pending ∧ s'.2.2.1 = .ready output ∧
    retry.traced.pollFor n cx s.2.2.2 ⟨s.1, s.2.1⟩ = (.again state, t) ∧
    state.2.phase = .polling future ∧
    retry.traced.op.poll future cx t = ((.ready outcome, future'), ⟨stop, log⟩) ∧
    retry.traced.pollBody cx state t = (.done s'.2.2, ⟨s'.1, s'.2.1⟩)

/-- A task that has not been polled, or that its calls have led to where it is. -/
def AsyncRetry.Led (S : Setting R A O) (log : List (Event R A O))
    (ended : AsyncRetry.PollResult Fut WaitFut R A O) : Prop :=
  (log = [] ∧ ended = (.pending, .intoRun)) ∨
    ∃ baseline, Lands S baseline (calls log) (.done ended)

namespace AsyncRetry

/-- Such a task is under way, and when it is ready its run has finished. -/
theorem Led.underway {S : Setting R A O} {log : List (Event R A O)}
    {ended : PollResult Fut WaitFut R A O} (h : Led S log ended) :
    Underway S (calls log) ∧ ∀ output, ended.1 = .ready output →
      ∃ baseline, Finished S baseline (calls log) output := by
  rcases h with ⟨rfl, rfl⟩ | ⟨baseline, hlands⟩
  · exact ⟨.created, fun output habsurd => (by cases habsurd)⟩
  · obtain ⟨result, run⟩ := ended
    cases result with
    | pending =>
      obtain ⟨elapsed, -, hstands⟩ := hlands
      exact ⟨hstands.underway, fun output habsurd => (by cases habsurd)⟩
    | ready output =>
      have hfinished : Finished S baseline (calls log) output := hlands
      refine ⟨hfinished.underway, fun output' hready => ?_⟩
      obtain rfl := PollEnd.ready.inj hready
      exact ⟨baseline, hfinished⟩
    | panicked => exact hlands.elim

variable {self : AsyncRetry (Eff σ) Fut WaitFut R A O}

theorem Polls.pending {s s' : σ × (List (Event R A O) × PollResult Fut WaitFut R A O)}
    (h : self.Polls s s') : s.2.2.1 = .pending := by
  obtain ⟨n, cx, hpending, -⟩ := h
  exact hpending

theorem PollsReady.polls {s s' : σ × (List (Event R A O) × PollResult Fut WaitFut R A O)}
    {output : Output R A O} {stop : σ} (h : self.PollsReady s s' output stop) :
    self.Polls s s' := by
  obtain ⟨n, cx, state, t, future, outcome, future', log, hpending, -, hrun, -, -, hbody⟩ := h
  exact ⟨n + 1, cx, hpending, (runFor_snoc hrun).trans hbody⟩

/-- Every poll that finds the future ready is such a one: only an operation that has answered
ends a run. -/
theorem Polls.ready {s s' : σ × (List (Event R A O) × PollResult Fut WaitFut R A O)}
    {output : Output R A O} (h : self.Polls s s') (hready : s'.2.2.1 = .ready output) :
    ∃ stop, self.PollsReady s s' output stop := by
  obtain ⟨n, cx, hpending, hpoll⟩ := h
  obtain ⟨k, -, state, t, hrun, hbody⟩ := runFor_done_split hpoll
  obtain ⟨w', log', result, run⟩ := s'
  obtain rfl : result = .ready output := hready
  have hpass := hbody
  obtain ⟨elapsed, phase, attempt, previousDelay, totalWait⟩ := state
  cases phase with
  | polling future =>
    obtain ⟨value, future', ⟨stop, log⟩, hpolled⟩ : ∃ value future' t₁,
      self.traced.op.poll future cx t = ((value, future'), t₁) := ⟨_, _, _, rfl⟩
    cases value with
    | pending =>
      rw [pollBody_polling_pending rfl hpolled] at hpass
      cases hpass
    | ready outcome =>
      exact ⟨stop, k, cx, _, t, future, outcome, future', log, hpending, rfl, hrun, rfl, hpolled,
        hbody⟩
  | sleeping future =>
    obtain ⟨value, future', t₁, hpolled⟩ : ∃ value future' t₁,
      self.traced.clock.pollWait future cx t = ((value, future'), t₁) := ⟨_, _, _, rfl⟩
    cases value with
    | pending =>
      rw [pollBody_sleeping_pending rfl hpolled] at hpass
      cases hpass
    | ready value =>
      rw [pollBody_sleeping_ready rfl hpolled] at hpass
      cases hpass
  | readyToStart | yielding | done => cases hpass

/-- **One poll**, in whatever world the others have left. -/
theorem Led.polls {s s' : σ × (List (Event R A O) × PollResult Fut WaitFut R A O)}
    (hled : Led self.setting s.2.1 s.2.2) (h : self.Polls s s') :
    ∃ baseline, Lands self.setting baseline (calls s'.2.1) (.done s'.2.2) := by
  obtain ⟨w, log, result, run⟩ := s
  obtain ⟨w', log', ended⟩ := s'
  obtain ⟨n, cx, rfl, hpoll⟩ := h
  have hpass (baseline : Duration) (state : LoopState Fut WaitFut) (t : Traced σ R A O)
      (hstands : Stands self.setting baseline (calls t.log) state) :
      Lands self.setting baseline (calls (self.traced.pollBody cx state t).2.log)
        (self.traced.pollBody cx state t).1 := by
    obtain ⟨turn, w', log', hbody, hlands⟩ :=
      self.pollBody_lands cx baseline state t.world t.log hstands
    rw [hbody]
    exact hlands
  have hpasses (baseline : Duration) (state : LoopState Fut WaitFut) (t : Traced σ R A O)
      (hstands : Stands self.setting baseline (calls t.log) state) :
      Lands self.setting baseline (calls (runFor (self.traced.pollBody cx) n state t).2.log)
        (runFor (self.traced.pollBody cx) n state t).1 :=
    runFor_keeps (P := fun (turn : Turn (LoopState Fut WaitFut) (PollResult Fut WaitFut R A O))
      (t : Traced σ R A O) => Lands self.setting baseline (calls t.log) turn) (hpass baseline) n
      hstands
  rcases hled with ⟨rfl, hcreated⟩ | ⟨baseline, elapsed, helapsed, hstands⟩
  · obtain rfl := congrArg Prod.snd hcreated
    let t₁ : Traced σ R A O := ⟨(self.clock.now w).2, [.now (self.clock.now w).1]⟩
    have hlands := hpasses (self.clock.now w).1
      (⟨(self.clock.now w).1, .zero⟩, AsyncRun.intoRun.toRunFields) t₁
      (.ready [] (.start _) (.pause _))
    have hfirst : self.traced.pollFor n cx .intoRun ⟨w, []⟩ = runFor (self.traced.pollBody cx) n
        (⟨(self.clock.now w).1, .zero⟩, AsyncRun.intoRun.toRunFields) t₁ := rfl
    rw [← hfirst, hpoll] at hlands
    exact ⟨_, hlands⟩
  · have hlands := hpasses baseline _ ⟨w, log⟩ hstands
    have hnext : self.traced.pollFor n cx run ⟨w, log⟩ =
        runFor (self.traced.pollBody cx) n (elapsed, run.toRunFields) ⟨w, log⟩ := by
      rw [pollFor, startElapsed, helapsed]
      rfl
    rw [← hnext, hpoll] at hlands
    exact ⟨baseline, hlands⟩

end AsyncRetry

/-! ## §2 What a poll pays -/

namespace Host

variable {host : Host σ} {w₀ w w' : σ} {waits waits' : List Duration}

theorem Booked.now_le (h : host.Booked w waits w') : (host.clock w).now ≤ (host.clock w').now := by
  rw [h.now, Duration.le_def, Duration.nanos_ofNanos]
  have hle := (host.clock w).now.nanos_le
  omega

/-- One account after another. -/
theorem Booked.trans (h : host.Booked w₀ waits w) (h' : host.Booked w waits' w') :
    host.Booked w₀ (waits ++ waits') w' := by
  have hsince := h.since
  have hsince' := h'.since
  constructor
  case now =>
    have hnow := congrArg Duration.nanos h.now
    rw [Duration.nanos_ofNanos] at hnow
    apply Duration.ext
    rw [h'.now, hnow, Duration.nanos_ofNanos, Duration.nanos_ofNanos, List.map_append,
      List.sum_append]
    omega
  case recorded => rw [h'.recorded, h.recorded, List.append_assoc]
  case since => exact hsince.trans hsince'

/-- Since the world was `w` and the log had requested `base`, more waits have been requested, and
all but those that are `owed` have taken effect; the watermark of a run that began in `w₀` is
level. -/
structure Paying (host : Host σ) (base : List Duration) (w w₀ : σ) (owed : List Duration)
    (elapsed : Elapsed) (t : Traced σ R A O) : Prop where
  level : host.Level w₀ elapsed t.world
  paid : ∃ paid, requested t.log = base ++ paid ++ owed ∧ host.Booked w paid t.world

theorem Paying.spends {base owed : List Duration} {elapsed : Elapsed} {t t' : Traced σ R A O}
    (h : host.Paying base w w₀ owed elapsed t) (hspends : host.Spends t t') :
    host.Paying base w w₀ owed elapsed t' := by
  obtain ⟨hlevel, paid, hrequested, hbooked⟩ := h
  exact ⟨hlevel.mono hspends.advances.now_le, paid, hspends.requested_eq.trans hrequested,
    hbooked.advances hspends.advances⟩

end Host

namespace AsyncRetry.OnVirtual

variable {self : AsyncRetry (Eff σ) Fut VirtualWait R A O} {host : Host σ} {w₀ : σ}

theorem spends_poll (h : self.OnVirtual host) (future : Fut) (cx : Context) :
    Eff.Moves host.Spends (self.traced.op.poll future cx) := by
  refine Host.spends_logged (fun answer => ?_) (h.poll future cx)
  obtain ⟨value, future'⟩ := answer
  cases value <;> rfl

/-- **Every part pays what it requests**: a wait is owed until its future is polled, and then
takes effect at once. -/
theorem preserves (h : self.OnVirtual host) (base : List Duration) (w w₀ : σ) :
    self.traced.Preserves (host.Paying base w w₀ [])
      (fun elapsed future t => future.advanced = false ∧
        host.Paying base w w₀ [future.dur] elapsed t)
      fun _ _ _ => False := by
  have hpays {α : Type} {x : Eff (Traced σ R A O) α} (hx : Eff.Moves host.Spends x)
      (elapsed : Elapsed) : Eff.Moves (Eff.Moves.Inherits (host.Paying base w w₀ [] elapsed)) x :=
    fun t hpaying => hpaying.spends (hx t)
  constructor
  case parts =>
    exact fun elapsed => h.traced_parts.mono fun t t' hspends hpaying => hpaying.spends hspends
  case callOp =>
    exact fun elapsed state =>
      hpays ((Host.spends_record rfl).bind fun _ => Host.spends_onWorld (h.callOp state)) elapsed
  case poll => exact fun elapsed future cx => hpays (h.spends_poll future cx) elapsed
  case wakeByRef =>
    exact fun elapsed cx =>
      hpays ((Host.spends_record rfl).bind fun _ => Host.spends_onWorld (h.wakeByRef cx)) elapsed
  case now =>
    intro elapsed t hpaying
    obtain ⟨hreading, hspends, hclock⟩ := Host.reads (R := R) (A := A) (O := O) h.now t
    have hlevel := hpaying.level.observe
    exact ⟨hreading ▸ hlevel.mono (congrArg VirtualClock.now hclock).ge,
      (hpaying.spends hspends).paid⟩
  case waitAsync =>
    rintro elapsed delay ⟨w₁, log⟩ hpos ⟨hlevel, paid, hrequested, hbooked⟩
    obtain ⟨hfuture, hclock, hadvanced⟩ := h.waitAsync delay w₁
    have hcreated : host.Advances w₁ (self.clock.waitAsync delay w₁).2 := ⟨[], hclock, hadvanced⟩
    refine ⟨congrArg VirtualWait.advanced hfuture, hlevel.mono hcreated.now_le, paid, ?_,
      hbooked.advances hcreated⟩
    have hdur : (self.clock.waitAsync delay w₁).1.dur = delay := congrArg VirtualWait.dur hfuture
    rw [List.append_nil] at hrequested
    show requested (log ++ [.wait delay]) = base ++ paid ++ [(self.clock.waitAsync delay w₁).1.dur]
    rw [requested_append, hrequested, hdur]
    rfl
  case pending =>
    rintro elapsed future future' cx ⟨w₁, log⟩ t' ⟨hfresh, -⟩ hpoll
    obtain ⟨dur, advanced⟩ := future
    obtain rfl : advanced = false := hfresh
    have hanswer : (self.clock.pollWait ⟨dur, false⟩ cx w₁).1 = (.pending, future') :=
      congrArg Prod.fst hpoll
    rw [(h.pollWait ⟨dur, false⟩ cx w₁).1] at hanswer
    cases hanswer
  case ready =>
    rintro elapsed future future' cx ⟨w₁, log⟩ t' ⟨hfresh, hlevel, paid, hrequested, hbooked⟩ hpoll
    obtain ⟨dur, advanced⟩ := future
    obtain rfl : advanced = false := hfresh
    obtain ⟨hanswer, hclock, hadvanced⟩ := h.pollWait ⟨dur, false⟩ cx w₁
    have hclock' : host.clock (self.clock.pollWait ⟨dur, false⟩ cx w₁).2 =
      (host.clock w₁).recordWait dur := hclock
    obtain ⟨-, rfl⟩ := Prod.mk.inj hpoll
    refine ⟨hlevel.mono ?_, paid ++ [dur], ?_, hbooked.wait hclock' hadvanced⟩
    · show (host.clock w₁).now ≤ (host.clock (self.clock.pollWait ⟨dur, false⟩ cx w₁).2).now
      rw [hclock']
      exact (host.clock w₁).now_le_advance dur
    · show requested (log ++ [waitPolled cx (self.clock.pollWait ⟨dur, false⟩ cx w₁).1.1]) = _
      rw [hanswer, requested_append]
      refine (congrArg (· ++ []) hrequested).trans ?_
      simp only [List.append_nil, List.append_assoc]
  case resumed => exact fun elapsed future t habsurd => habsurd.elim

/-- **The pass that ends a run** reads the clock when the operation has answered, and reports the
time since the start. -/
theorem ready_pass (h : self.OnVirtual host) {cx : Context} {state : LoopState Fut VirtualWait}
    {t t₁ t' : Traced σ R A O} {future future' : Fut} {outcome : O} {output : Output R A O}
    {run : AsyncRun Fut VirtualWait} (hlevel : host.Level w₀ state.1 t.world)
    (hphase : state.2.phase = .polling future)
    (hpolled : self.traced.op.poll future cx t = ((.ready outcome, future'), t₁))
    (hbody : self.traced.pollBody cx state t = (.done (.ready output, run), t')) :
    host.Spends t t₁ ∧ host.Spends t₁ t' ∧
      output.2.totalElapsed = (host.clock t₁.world).now.saturatingSub (host.clock w₀).now := by
  obtain ⟨elapsed, phase, attempt, previousDelay, totalWait⟩ := state
  obtain rfl : phase = .polling future := hphase
  have hspends := h.spends_poll future cx t
  rw [hpolled] at hspends
  rw [pollBody_polling_ready rfl hpolled] at hbody
  obtain ⟨helapsed, -, hread⟩ :=
    (hlevel.mono hspends.advances.now_le).read (R := R) (A := A) (O := O) h.now
  let reading := elapsed.read self.traced.clock.toClock t₁
  let progress : Progress := { attempt, elapsed := reading.1.1, previousDelay, totalWait }
  obtain ⟨next, t₂, hstep⟩ : ∃ next t₂, step progress outcome self.traced.classifier
      self.traced.stop self.traced.wait self.traced.timeout self.traced.hooks reading.2 =
        (next, t₂) := ⟨_, _, rfl⟩
  have hdecided := h.traced_parts.step progress outcome self.traced.timeout reading.2
  rw [hstep] at hdecided
  dsimp only at hbody
  rw [hstep] at hbody
  cases next with
  | done result stats =>
    cases hbody
    exact ⟨hspends, trans_of host.Spends hread hdecided, (step_done_stats hstep).trans helapsed⟩
  | continue_ delay running =>
    -- Going on never makes the future ready.
    unfold AsyncRetry.proceed at hbody
    dsimp only at hbody
    split at hbody <;> cases hbody

/-- A poll starts by reading the baseline, if there is none. -/
theorem spends_startElapsed (h : self.OnVirtual host) (run : AsyncRun Fut VirtualWait) :
    Eff.Moves host.Spends (self.traced.startElapsed run) := by
  rw [startElapsed]
  cases run.elapsed with
  | some elapsed => exact Eff.Moves.pure elapsed
  | none => exact fun t => (Host.reads (R := R) (A := A) (O := O) h.now t).2.1

/-- What a poll of a task that does not sleep starts from. -/
theorem paying_begin (h : self.OnVirtual host) {run : AsyncRun Fut VirtualWait}
    {t : Traced σ R A O} (hawake : ∀ future, run.phase ≠ .sleeping future)
    (hlevel : host.Level w₀ (self.traced.startElapsed run t).1
      (self.traced.startElapsed run t).2.world) :
    Holds (host.Paying (requested t.log) t.world w₀ [])
      (fun elapsed future t₁ => future.advanced = false ∧
        host.Paying (requested t.log) t.world w₀ [future.dur] elapsed t₁)
      ((self.traced.startElapsed run t).1, run.toRunFields)
      (self.traced.startElapsed run t).2 := by
  have hspends := h.spends_startElapsed run t
  have hpaying : host.Paying (requested t.log) t.world w₀ [] (self.traced.startElapsed run t).1
      (self.traced.startElapsed run t).2 := by
    refine ⟨hlevel, [], ?_, (Host.Booked.start t.world).advances hspends.advances⟩
    rw [hspends.requested_eq, List.append_nil, List.append_nil]
  obtain ⟨⟨phase, attempt, previousDelay, totalWait⟩, elapsed⟩ := run
  cases phase with
  | sleeping future => exact absurd rfl (hawake future)
  | readyToStart | polling future | yielding | done => exact hpaying

/-- **One poll** of a task that does not sleep: what it requests takes effect, and it does not
sleep afterwards. -/
theorem poll_paid (h : self.OnVirtual host) {n : ℕ} {cx : Context}
    {run : AsyncRun Fut VirtualWait} {t t' : Traced σ R A O}
    {ended : PollResult Fut VirtualWait R A O} (hawake : ∀ future, run.phase ≠ .sleeping future)
    (hlevel : host.Level w₀ (self.traced.startElapsed run t).1
      (self.traced.startElapsed run t).2.world)
    (hpoll : self.traced.pollFor n cx run t = (.done ended, t')) :
    ∃ paid elapsed, requested t'.log = requested t.log ++ paid ∧
      host.Booked t.world paid t'.world ∧ ended.2.elapsed = some elapsed ∧
      host.Level w₀ elapsed t'.world ∧ ∀ future, ended.2.phase ≠ .sleeping future := by
  have hafter := (h.preserves (requested t.log) t.world w₀).pollFor n cx
    (h.paying_begin hawake hlevel)
  rw [hpoll] at hafter
  obtain ⟨elapsed, helapsed, hholds⟩ := hafter
  obtain ⟨hawake', hlevel', paid, hrequested, hbooked⟩ :
      (∀ future, ended.2.phase ≠ .sleeping future) ∧
        host.Paying (requested t.log) t.world w₀ [] elapsed t' := by
    obtain ⟨result, ⟨phase, attempt, previousDelay, totalWait⟩, elapsed'⟩ := ended
    cases phase with
    | sleeping future => exact hholds.elim
    | readyToStart | polling future | yielding | done =>
      exact ⟨fun future habsurd => (by cases habsurd), hholds⟩
  rw [List.append_nil] at hrequested
  exact ⟨paid, elapsed, hrequested, hbooked, helapsed, hlevel', hawake'⟩

/-- **The last poll** has paid all that the task requests by the last reading, and the task
reports the time up to it. -/
theorem ready_paid (h : self.OnVirtual host)
    {s s' : σ × (List (Event R A O) × PollResult Fut VirtualWait R A O)} {output : Output R A O}
    {stop : σ} (hawake : ∀ future, s.2.2.2.phase ≠ .sleeping future)
    (hlevel : host.Level w₀ (self.traced.startElapsed s.2.2.2 ⟨s.1, s.2.1⟩).1
      (self.traced.startElapsed s.2.2.2 ⟨s.1, s.2.1⟩).2.world)
    (hpoll : self.PollsReady s s' output stop) :
    ∃ paid, requested s'.2.1 = requested s.2.1 ++ paid ∧ host.Booked s.1 paid stop ∧
      output.2.totalElapsed = (host.clock stop).now.saturatingSub (host.clock w₀).now := by
  obtain ⟨n, cx, state, t, future, outcome, future', log, -, hready, hrun, hphase, hpolled,
    hbody⟩ := hpoll
  obtain ⟨w', log', result, run⟩ := s'
  obtain rfl : result = .ready output := hready
  have hstate := (h.preserves (requested s.2.1) s.1 w₀).pollFor n cx (h.paying_begin hawake hlevel)
  rw [hrun] at hstate
  have hpaying : host.Paying (requested s.2.1) s.1 w₀ [] state.1 t := by
    unfold HoldsAfter Holds at hstate
    dsimp only at hstate
    rw [hphase] at hstate
    exact hstate
  obtain ⟨hread, hsettled, htotal⟩ := h.ready_pass hpaying.level hphase hpolled hbody
  obtain ⟨-, paid, hrequested, hbooked⟩ := hpaying.spends hread
  rw [List.append_nil, ← hsettled.requested_eq] at hrequested
  exact ⟨paid, hrequested, hbooked, htotal⟩

end AsyncRetry.OnVirtual

/-! ## §3 Tasks between their polls -/

/-- A task between its polls: it does not sleep; and while it is pending it was not polled yet, or
its watermark is level with the clock since it began, in a world that is a `P`. -/
structure Host.Steady (host : Host σ) (S : Setting R A O) (P : σ → Prop) (w : σ)
    (task : List (Event R A O) × AsyncRetry.PollResult Fut VirtualWait R A O) : Prop where
  led : AsyncRetry.Led S task.1 task.2
  awake : task.2.1 = .pending → ∀ future, task.2.2.phase ≠ .sleeping future
  level : task.2.1 = .pending → (task = ([], (.pending, .intoRun)) ∧ ∀ w, P w) ∨
    ∃ elapsed start, task.2.2.elapsed = some elapsed ∧ P start ∧ host.Level start elapsed w

namespace Host.Steady

variable {host : Host σ} {P : σ → Prop} {w w' : σ}

theorem created {S : Setting R A O} (hP : ∀ w, P w) :
    host.Steady S P w (([], (.pending, .intoRun)) :
      List (Event R A O) × AsyncRetry.PollResult Fut VirtualWait R A O) where
  led := .inl ⟨rfl, rfl⟩
  awake _ future habsurd := by cases habsurd
  level _ := .inl ⟨rfl, hP⟩

/-- What the others do changes nothing of it, as the clock never goes back. -/
theorem mono {S : Setting R A O}
    {task : List (Event R A O) × AsyncRetry.PollResult Fut VirtualWait R A O}
    (h : host.Steady S P w task) (hle : (host.clock w).now ≤ (host.clock w').now) :
    host.Steady S P w' task where
  led := h.led
  awake := h.awake
  level hpending := (h.level hpending).imp_right
    fun ⟨elapsed, start, helapsed, hstart, hlevel⟩ =>
      ⟨elapsed, start, helapsed, hstart, hlevel.mono hle⟩

/-- What the task began in may be described in other words. -/
theorem imp {S : Setting R A O} {Q : σ → Prop} (hPQ : ∀ w, P w → Q w)
    {task : List (Event R A O) × AsyncRetry.PollResult Fut VirtualWait R A O}
    (h : host.Steady S P w task) : host.Steady S Q w task where
  led := h.led
  awake := h.awake
  level hpending := by
    rcases h.level hpending with ⟨hcreated, hP⟩ | ⟨elapsed, start, helapsed, hstart, hlevel⟩
    · exact .inl ⟨hcreated, fun w => hPQ w (hP w)⟩
    · exact .inr ⟨elapsed, start, helapsed, hPQ start hstart, hlevel⟩

variable {self : AsyncRetry (Eff σ) Fut VirtualWait R A O}
  {s s' : σ × (List (Event R A O) × AsyncRetry.PollResult Fut VirtualWait R A O)}

/-- The task began in the poll that starts now, or before. -/
theorem begins (hself : self.OnVirtual host) (h : host.Steady self.setting P s.1 s.2)
    (hpending : s.2.2.1 = .pending) :
    ∃ start, P start ∧ host.Level start (self.traced.startElapsed s.2.2.2 ⟨s.1, s.2.1⟩).1
      (self.traced.startElapsed s.2.2.2 ⟨s.1, s.2.1⟩).2.world := by
  obtain ⟨w, log, result, run⟩ := s
  rcases h.level hpending with ⟨hcreated, hP⟩ | ⟨elapsed, start, helapsed, hstart, hlevel⟩
  · cases hcreated
    exact ⟨w, hP w, (Host.started (R := R) (A := A) (O := O) hself.now w).1⟩
  · refine ⟨start, hstart, ?_⟩
    rw [AsyncRetry.startElapsed, helapsed]
    exact hlevel

/-- **One poll** of the task, which began in the world `start`. -/
theorem polls {start : σ} (hself : self.OnVirtual host) (h : host.Steady self.setting P s.1 s.2)
    (hlevel : host.Level start (self.traced.startElapsed s.2.2.2 ⟨s.1, s.2.1⟩).1
      (self.traced.startElapsed s.2.2.2 ⟨s.1, s.2.1⟩).2.world) (hpoll : self.Polls s s') :
    ∃ waits, host.Booked s.1 waits s'.1 ∧ requested s'.2.1 = requested s.2.1 ++ waits ∧
      ∀ Q : σ → Prop, Q start → host.Steady self.setting Q s'.1 s'.2 := by
  have hled := h.led.polls hpoll
  obtain ⟨n, cx, hpending, hpoll⟩ := hpoll
  obtain ⟨waits, elapsed, hrequested, hbooked, helapsed, hlevel', hawake⟩ :=
    hself.poll_paid (h.awake hpending) hlevel hpoll
  exact ⟨waits, hbooked, hrequested, fun Q hQ =>
    ⟨.inr hled, fun _ => hawake, fun _ => .inr ⟨elapsed, start, helapsed, hQ, hlevel'⟩⟩⟩

end Host.Steady

/-! ## §4 The ledger -/

section Ledger

variable [DecidableEq ι] {i : ι} {ledger new : List (ι × Duration)}

/-- The waits of one task. -/
def share (i : ι) (ledger : List (ι × Duration)) : List Duration :=
  (ledger.filter (·.1 = i)).map Prod.snd

theorem share_append : share i (ledger ++ new) = share i ledger ++ share i new := by
  rw [share, List.filter_append, List.map_append]
  rfl

theorem share_own (waits : List Duration) : share i (waits.map (i, ·)) = waits := by
  induction waits with
  | nil => rfl
  | cons delay waits ih =>
    rw [share, List.map_cons, List.filter_cons_of_pos (by simp), List.map_cons]
    exact congrArg (delay :: ·) ih

theorem share_other {j : ι} (hj : j ≠ i) (waits : List Duration) :
    share i (waits.map (j, ·)) = [] := by
  rw [share, List.filter_eq_nil_iff.mpr ?_, List.map_nil]
  rintro entry hentry
  obtain ⟨delay, -, rfl⟩ := List.mem_map.mp hentry
  exact fun habsurd => hj (of_decide_eq_true habsurd)

omit [DecidableEq ι] in
theorem map_snd_own (waits : List Duration) : (waits.map (i, ·)).map Prod.snd = waits := by
  rw [List.map_map]
  exact List.map_id _

theorem sum_share_le (i : ι) (ledger : List (ι × Duration)) :
    ((share i ledger).map Duration.nanos).sum ≤
      ((ledger.map Prod.snd).map Duration.nanos).sum :=
  ((List.filter_sublist.map Prod.snd).map Duration.nanos).sum_le_sum fun _ _ => Nat.zero_le _

end Ledger

section Tasks

variable {ι : Type} [DecidableEq ι] {Fut R A O : ι → Type} {host : Host σ}
  {retries : (i : ι) → AsyncRetry (Eff σ) (Fut i) VirtualWait (R i) (A i) (O i)} {w₀ : σ}
  {s s' s'' s₁ s₂ : σ × ((i : ι) → List (Event (R i) (A i) (O i)) ×
    AsyncRetry.PollResult (Fut i) VirtualWait (R i) (A i) (O i))} {i : ι}
  {ledger ledger' : List (ι × Duration)}

/-- **All tasks are steady**, whatever the order of their polls. -/
theorem Host.steady_of_run (honv : ∀ i, (retries i).OnVirtual host) {P : ι → σ → Prop}
    (h : Run (fun i => (retries i).Polls) host.Advances s s')
    (hstart : ∀ i, host.Steady (retries i).setting (P i) s.1 (s.2 i)) (i : ι) :
    host.Steady (retries i).setting (P i) s'.1 (s'.2 i) := by
  have hpolls (j : ι) {w : σ} {task next}
      (hsteady : host.Steady (retries j).setting (P j) w task)
      (hpoll : (retries j).Polls (w, task) next) :
      (host.clock w).now ≤ (host.clock next.1).now ∧
        host.Steady (retries j).setting (P j) next.1 next.2 := by
    obtain ⟨start, hP, hlevel⟩ := Steady.begins (s := (w, task)) (honv j) hsteady hpoll.pending
    obtain ⟨waits, hbooked, -, hnext⟩ := Steady.polls (honv j) hsteady hlevel hpoll
    exact ⟨hbooked.now_le, hnext _ hP⟩
  refine h.invariant (I := fun i w task => host.Steady (retries i).setting (P i) w task) hstart
    ?_ ?_ ?_ i
  · exact fun j w task next hsteady hpoll => (hpolls j hsteady hpoll).2
  · exact fun _ j w task task' next _ hsteady hother hpoll =>
      hsteady.mono (hpolls j hother hpoll).1
  · exact fun _ w task w' hsteady hadvances => hsteady.mono hadvances.now_le

/-- What all tasks have waited for from one configuration to another: it is booked on the clock,
and the share of each task is what it has requested. -/
structure Host.Entered (host : Host σ)
    (s s' : σ × ((i : ι) → List (Event (R i) (A i) (O i)) ×
      AsyncRetry.PollResult (Fut i) VirtualWait (R i) (A i) (O i)))
    (ledger : List (ι × Duration)) : Prop where
  booked : host.Booked s.1 (ledger.map Prod.snd) s'.1
  requested : ∀ i, requested (s'.2 i).1 = requested (s.2 i).1 ++ share i ledger

namespace Host.Entered

theorem start : host.Entered s s [] where
  booked := .start s.1
  requested _ := (List.append_nil _).symm

theorem trans (h : host.Entered s s' ledger) (h' : host.Entered s' s'' ledger') :
    host.Entered s s'' (ledger ++ ledger') where
  booked := by
    rw [List.map_append]
    exact h.booked.trans h'.booked
  requested i := by
    rw [h'.requested, h.requested, share_append, List.append_assoc]

/-- A poll enters what it has waited for. -/
theorem poll {next : σ × (List (Event (R i) (A i) (O i)) ×
      AsyncRetry.PollResult (Fut i) VirtualWait (R i) (A i) (O i))} {waits : List Duration}
    (hbooked : host.Booked s.1 waits next.1)
    (hrequested : Relentless.requested next.2.1 = Relentless.requested (s.2 i).1 ++ waits) :
    host.Entered s (next.1, Function.update s.2 i next.2) (waits.map (i, ·)) where
  booked := by rwa [map_snd_own]
  requested j := by
    by_cases hj : j = i
    · subst hj
      dsimp only
      rw [Function.update_self, share_own, hrequested]
    · dsimp only
      rw [Function.update_of_ne hj, share_other (Ne.symm hj), List.append_nil]

end Host.Entered

/-- **Every poll of every task** is entered in the ledger. -/
theorem Host.exists_entered (honv : ∀ i, (retries i).OnVirtual host)
    (hstart : ∀ i, host.Steady (retries i).setting (fun _ => True) s.1 (s.2 i))
    (h : Run (fun i => (retries i).Polls) host.Advances s s') :
    ∃ ledger, host.Entered s s' ledger := by
  induction h with
  | start => exact ⟨[], .start⟩
  | act s' i next hrun hpoll ih =>
    obtain ⟨ledger, hentered⟩ := ih
    have hsteady := Host.steady_of_run honv hrun hstart i
    obtain ⟨start, -, hlevel⟩ :=
      Steady.begins (s := (s'.1, s'.2 i)) (honv i) hsteady hpoll.pending
    obtain ⟨waits, hbooked, hrequested, -⟩ := Steady.polls (honv i) hsteady hlevel hpoll
    exact ⟨_, hentered.trans (.poll hbooked hrequested)⟩
  | outside s' w hrun hadvances ih =>
    obtain ⟨ledger, hbooked, hrequested⟩ := ih
    exact ⟨ledger, hbooked.advances hadvances, hrequested⟩

omit [DecidableEq ι] in
/-- The share of a task is the non-zero delays of its gaps. -/
theorem Host.Steady.requested_eq {P : σ → Prop} {w : σ}
    {task : List (Event (R i) (A i) (O i)) ×
      AsyncRetry.PollResult (Fut i) VirtualWait (R i) (A i) (O i)}
    (h : host.Steady (retries i).setting P w task) :
    requested task.1 = (gapDelays (retries i).timeout task.1).filter (· ≠ .zero) := by
  have hrequested := h.led.underway.1.fedBack.requested
  rwa [requested_calls, gapDelays_calls] at hrequested

/-! ## §5 The guarantee -/

/-- Task `i` was polled for the first time in the configuration `s₁`, and is to be polled in `s₂`:
for the first time, or after that. -/
structure Host.Polled (host : Host σ)
    (retries : (i : ι) → AsyncRetry (Eff σ) (Fut i) VirtualWait (R i) (A i) (O i)) (w₀ : σ) (i : ι)
    (s₁ s₂ : σ × ((i : ι) → List (Event (R i) (A i) (O i)) ×
      AsyncRetry.PollResult (Fut i) VirtualWait (R i) (A i) (O i))) : Prop where
  reached : Run (fun i => (retries i).Polls) host.Advances
    (w₀, fun _ => ([], (.pending, .intoRun))) s₁
  unpolled : s₁.2 i = ([], (.pending, .intoRun))
  since : s₂ = s₁ ∨ ∃ first, (retries i).Polls (s₁.1, s₁.2 i) first ∧
    Run (fun i => (retries i).Polls) host.Advances
      (first.1, Function.update s₁.2 i first.2) s₂

/-- What all tasks have waited for since the first poll of a task that has begun, and what its
watermark says. -/
theorem Host.Polled.entered (honv : ∀ i, (retries i).OnVirtual host)
    (h : host.Polled retries w₀ i s₁ s₂) (hpending : (s₂.2 i).2.1 = .pending) :
    ∃ ledger, host.Entered s₁ s₂ ledger ∧
      host.Steady (retries i).setting (fun _ => True) s₂.1 (s₂.2 i) ∧
      host.Level s₁.1 ((retries i).traced.startElapsed (s₂.2 i).2.2 ⟨s₂.1, (s₂.2 i).1⟩).1
        ((retries i).traced.startElapsed (s₂.2 i).2.2 ⟨s₂.1, (s₂.2 i).1⟩).2.world := by
  have hsteady := Host.steady_of_run (P := fun _ _ => True) honv h.reached
    fun _ => .created fun _ => trivial
  have hlevel : host.Level s₁.1
      ((retries i).traced.startElapsed (s₁.2 i).2.2 ⟨s₁.1, (s₁.2 i).1⟩).1
      ((retries i).traced.startElapsed (s₁.2 i).2.2 ⟨s₁.1, (s₁.2 i).1⟩).2.world := by
    rw [h.unpolled]
    exact (Host.started (R := R i) (A := A i) (O := O i) (honv i).now s₁.1).1
  rcases h.since with rfl | ⟨first, hpoll, hrun⟩
  · exact ⟨[], .start, hsteady i, hlevel⟩
  · obtain ⟨waits, hbooked, hrequested, hfirst⟩ :=
      Steady.polls (s := (s₁.1, s₁.2 i)) (honv i) (hsteady i) hlevel hpoll
    -- Of this task alone it matters where it began.
    have hbegun (j : ι) : host.Steady (retries j).setting (fun start => j = i → start = s₁.1)
        first.1 (Function.update s₁.2 i first.2 j) := by
      by_cases hj : j = i
      · subst hj
        rw [Function.update_self]
        exact hfirst _ fun _ => rfl
      · rw [Function.update_of_ne hj]
        exact ((hsteady j).mono hbooked.now_le).imp fun _ _ habsurd => absurd habsurd hj
    have hsince := Host.steady_of_run honv hrun hbegun i
    obtain ⟨start, hstart, hlevel'⟩ :=
      Steady.begins (s := (s₂.1, s₂.2 i)) (honv i) hsince hpending
    obtain rfl := hstart rfl
    obtain ⟨ledger, hentered⟩ :=
      Host.exists_entered honv (fun j => (hbegun j).imp fun _ _ => trivial) hrun
    exact ⟨_, (Entered.poll hbooked hrequested).trans hentered, hsince.imp fun _ _ => trivial,
      hlevel'⟩

/-- What a task reports that was polled first in `s₁`, and whose last reading was in the world
`stop` of a poll in `s₂`: its own waits, and the time that all waits and advances took from the
one to the other. -/
def Host.Reports (host : Host σ) (timeout : Option Duration) (i : ι)
    (s₁ s₂ : σ × ((i : ι) → List (Event (R i) (A i) (O i)) ×
      AsyncRetry.PollResult (Fut i) VirtualWait (R i) (A i) (O i))) (stop : σ)
    (log : List (Event (R i) (A i) (O i))) (stats : RetryStats) : Prop :=
  ∃ ledger : List (ι × Duration), host.Booked s₁.1 (ledger.map Prod.snd) stop ∧
    (∀ j, j ≠ i → requested (s₂.2 j).1 = requested (s₁.2 j).1 ++ share j ledger) ∧
    share i ledger = (gapDelays timeout log).filter (· ≠ .zero) ∧
    ((host.clock stop).now < .maxValue →
      stats.totalWait.nanos = ((share i ledger).map Duration.nanos).sum ∧
      stats.totalElapsed.nanos = ((ledger.map Prod.snd).map Duration.nanos).sum +
        (host.advanced stop - host.advanced s₁.1))

/-- **A task that is ready** reports so. -/
theorem Host.Polled.reports (honv : ∀ i, (retries i).OnVirtual host)
    (h : host.Polled retries w₀ i s₁ s₂)
    {next : σ × (List (Event (R i) (A i) (O i)) ×
      AsyncRetry.PollResult (Fut i) VirtualWait (R i) (A i) (O i))}
    {output : Output (R i) (A i) (O i)} {stop : σ}
    (hready : (retries i).PollsReady (s₂.1, s₂.2 i) next output stop) :
    host.Reports (retries i).timeout i s₁ s₂ stop next.2.1 output.2 := by
  have hpending : (s₂.2 i).2.1 = .pending := hready.polls.pending
  obtain ⟨ledger, hentered, hsteady, hlevel⟩ := h.entered honv hpending
  obtain ⟨paid, hrequested, hbooked, htotal⟩ :=
    (honv i).ready_paid (s := (s₂.1, s₂.2 i)) (hsteady.awake hpending) hlevel hready
  obtain ⟨waits, -, -, hnext⟩ :=
    Steady.polls (s := (s₂.1, s₂.2 i)) (honv i) hsteady hlevel hready.polls
  have hsteady' := hnext (fun _ => True) trivial
  have hshare : share i (ledger ++ paid.map (i, ·)) =
      (gapDelays (retries i).timeout next.2.1).filter (· ≠ .zero) := by
    rw [← hsteady'.requested_eq, hrequested, hentered.requested i, h.unpolled, share_append,
      share_own]
    rfl
  have hpaid : host.Booked s₁.1 ((ledger ++ paid.map (i, ·)).map Prod.snd) stop := by
    rw [List.map_append, map_snd_own]
    exact hentered.booked.trans hbooked
  refine ⟨ledger ++ paid.map (i, ·), hpaid, fun j hj => ?_, hshare, fun hend => ?_⟩
  · rw [hentered.requested j, share_append, share_other (Ne.symm hj), List.append_nil]
  · obtain ⟨hle, hexact⟩ := hpaid.exact hend
    obtain ⟨-, -, -, -, -, -, -, -, -, hdone, -⟩ := hready
    obtain ⟨baseline, rounds, hlog, hrounds⟩ := hsteady'.led.underway.2 output hdone
    have hwait : output.2.totalWait =
        .ofNanos ((gapDelays (retries i).timeout next.2.1).map Duration.nanos).sum := by
      rw [← gapDelays_calls, hlog]
      exact hrounds.total_wait
    constructor
    · rw [hwait, ← sum_filter_ne_zero, ← hshare, Duration.nanos_ofNanos]
      exact min_eq_left ((sum_share_le i _).trans hle)
    · rw [htotal, hexact]

/-- Every task that is ready was polled for the first time, and was found ready. -/
theorem Host.exists_polled (h : Run (fun i => (retries i).Polls) host.Advances
      (w₀, fun _ => ([], (.pending, .intoRun))) s) (i : ι) :
    (s.2 i = ([], (.pending, .intoRun)) ∨
      ∃ s₁ first, host.Polled retries w₀ i s₁ s₁ ∧ (retries i).Polls (s₁.1, s₁.2 i) first ∧
        Run (fun i => (retries i).Polls) host.Advances
          (first.1, Function.update s₁.2 i first.2) s) ∧
    ∀ output, (s.2 i).2.1 = .ready output → ∃ s₁ s₂ next stop,
      host.Polled retries w₀ i s₁ s₂ ∧ (retries i).PollsReady (s₂.1, s₂.2 i) next output stop ∧
      Run (fun i => (retries i).Polls) host.Advances (next.1, Function.update s₂.2 i next.2) s ∧
      s.2 i = next.2 := by
  induction h with
  | start => exact ⟨.inl rfl, fun output habsurd => by cases habsurd⟩
  | act s' j next hrun hpoll ih =>
    obtain ⟨hbegun, hready⟩ := ih
    by_cases hi : i = j
    · subst hi
      dsimp only
      rw [Function.update_self]
      -- This poll is the first one of the task, or there was one before.
      obtain ⟨s₁, first, hpolled, hfirst, hsince, hlast⟩ : ∃ s₁ first,
          host.Polled retries w₀ i s₁ s₁ ∧ (retries i).Polls (s₁.1, s₁.2 i) first ∧
          Run (fun i => (retries i).Polls) host.Advances
            (first.1, Function.update s₁.2 i first.2)
            (next.1, Function.update s'.2 i next.2) ∧ host.Polled retries w₀ i s₁ s' := by
        rcases hbegun with hunpolled | ⟨s₁, first, hpolled, hfirst, hsince⟩
        · exact ⟨s', next, ⟨hrun, hunpolled, .inl rfl⟩, hpoll, .start, hrun, hunpolled, .inl rfl⟩
        · exact ⟨s₁, first, hpolled, hfirst, .act s' i next hsince hpoll, hpolled.reached,
            hpolled.unpolled, .inr ⟨first, hfirst, hsince⟩⟩
      refine ⟨.inr ⟨s₁, first, hpolled, hfirst, hsince⟩, fun output houtput => ?_⟩
      obtain ⟨stop, hstop⟩ := hpoll.ready houtput
      exact ⟨s₁, s', next, stop, hlast, hstop, .start, rfl⟩
    · dsimp only
      rw [Function.update_of_ne hi]
      refine ⟨hbegun.imp_right fun ⟨s₁, first, hpolled, hfirst, hsince⟩ =>
        ⟨s₁, first, hpolled, hfirst, .act s' j next hsince hpoll⟩, fun output houtput => ?_⟩
      obtain ⟨s₁, s₂, last, stop, hpolled, hstop, hsince, hsame⟩ := hready output houtput
      exact ⟨s₁, s₂, last, stop, hpolled, hstop, .act s' j next hsince hpoll, hsame⟩
  | outside s' w hrun hadvances ih =>
    obtain ⟨hbegun, hready⟩ := ih
    refine ⟨hbegun.imp_right fun ⟨s₁, first, hpolled, hfirst, hsince⟩ =>
      ⟨s₁, first, hpolled, hfirst, .outside s' w hsince hadvances⟩, fun output houtput => ?_⟩
    obtain ⟨s₁, s₂, last, stop, hpolled, hstop, hsince, hsame⟩ := hready output houtput
    exact ⟨s₁, s₂, last, stop, hpolled, hstop, .outside s' w hsince hadvances, hsame⟩

/-- **Tasks on one virtual clock.**  Several futures borrow one clock, are polled in any order,
and advance the clock as others do.  The clock has recorded a ledger of waits, in which the
share of each task is the non-zero delays of its gaps, in order; and it shows its start, the
sum of the ledger and what has been advanced.  A task that is ready was polled for the first
time at some point, and was found ready by a poll at another one.  From the one to its last
reading in the other, it reports its own share as the total wait, but the waits of all tasks
and all advances as the total elapsed time. -/
theorem virtual_tasks (w₀ : σ) (honv : ∀ i, (retries i).OnVirtual host) :
    (∀ s, Run (fun i => (retries i).Polls) host.Advances
        (w₀, fun _ => ([], (.pending, .intoRun))) s →
      (∃ ledger : List (ι × Duration), host.Booked w₀ (ledger.map Prod.snd) s.1 ∧
        ∀ i, share i ledger =
          (gapDelays (retries i).timeout (s.2 i).1).filter (· ≠ .zero)) ∧
      ∀ i output, (s.2 i).2.1 = .ready output → ∃ s₁ s₂ next stop,
        host.Polled retries w₀ i s₁ s₂ ∧ (retries i).PollsReady (s₂.1, s₂.2 i) next output stop ∧
        Run (fun i => (retries i).Polls) host.Advances (next.1, Function.update s₂.2 i next.2) s ∧
        s.2 i = next.2) ∧
    ∀ i s₁ s₂ next output stop, host.Polled retries w₀ i s₁ s₂ →
      (retries i).PollsReady (s₂.1, s₂.2 i) next output stop →
        host.Reports (retries i).timeout i s₁ s₂ stop next.2.1 output.2 := by
  refine ⟨fun s h => ⟨?_, fun i => (Host.exists_polled h i).2⟩,
    fun i s₁ s₂ next output stop hpolled hready => hpolled.reports honv hready⟩
  have hcreated (i : ι) : host.Steady (retries i).setting (fun _ => True) w₀
      (([], (.pending, .intoRun)) : List (Event (R i) (A i) (O i)) ×
        AsyncRetry.PollResult (Fut i) VirtualWait (R i) (A i) (O i)) := .created fun _ => trivial
  obtain ⟨ledger, hbooked, hrequested⟩ := Host.exists_entered honv hcreated h
  refine ⟨ledger, hbooked, fun i => ?_⟩
  rw [← (Host.steady_of_run honv h hcreated i).requested_eq, hrequested i]
  rfl

end Tasks

/-- A poll that is allowed `n` passes, of a task that is pending. -/
def AsyncRetry.pollTask (retry : AsyncRetry (Eff σ) Fut WaitFut R A O) (n : ℕ) (cx : Context)
    (s : σ × (List (Event R A O) × AsyncRetry.PollResult Fut WaitFut R A O)) :
    σ × (List (Event R A O) × AsyncRetry.PollResult Fut WaitFut R A O) :=
  match s.2.2.1, retry.traced.pollFor n cx s.2.2.2 ⟨s.1, s.2.1⟩ with
  | .pending, (.done ended, t) => (t.world, (t.log, ended))
  | _, _ => s

theorem AsyncRetry.polls_pollTask (retry : AsyncRetry (Eff σ) Fut WaitFut R A O) (n : ℕ)
    (cx : Context) (s : σ × (List (Event R A O) × AsyncRetry.PollResult Fut WaitFut R A O)) :
    retry.Polls s (retry.pollTask n cx s) ∨ retry.pollTask n cx s = s := by
  obtain ⟨w, log, result, run⟩ := s
  obtain ⟨turn, t, hpoll⟩ : ∃ turn t, retry.traced.pollFor n cx run ⟨w, log⟩ = (turn, t) :=
    ⟨_, _, rfl⟩
  unfold AsyncRetry.pollTask
  dsimp only
  rw [hpoll]
  cases result with
  | pending =>
    cases turn with
    | again state => exact .inr rfl
    | done ended => exact .inl ⟨n, cx, rfl, hpoll⟩
  | ready output => exact .inr rfl
  | panicked => exact .inr rfl

/-- Two such tasks on a clock that shows a hundred nanoseconds. -/
def AsyncRetry.busyTasks : (VirtualClock × ℕ) × (Bool → List (Event ℕ String (Except String ℕ)) ×
    AsyncRetry.PollResult (Bool × UInt32) VirtualWait ℕ String (Except String ℕ)) :=
  ((⟨.ofNanos 100, []⟩, 0), fun _ => ([], (.pending, .intoRun)))

def AsyncRetry.busyDelay (slow : Bool) : Duration := .ofNanos (if slow then 5 else 4)

/-- The two after five polls each. -/
def AsyncRetry.busyPolled :=
  play (fun slow => (AsyncRetry.busyTask (AsyncRetry.busyDelay slow)).pollTask 9 ⟨0⟩)
    AsyncRetry.busyTasks (List.replicate 5 [false, true]).flatten

/-- Each has waited twice on its own account, and has seen the waits of the other pass: between
its first poll and its last reading. -/
theorem virtual_tasks_busyTasks :
    (∃ ledger : List (Bool × Duration), (ledger.map Prod.snd).map Duration.nanos = [4, 5, 4, 5] ∧
      ∀ slow, (share slow ledger).length = 2) ∧
    ∃ s₁ s₂ next stop,
      Host.pair.Polled (fun slow => AsyncRetry.busyTask (AsyncRetry.busyDelay slow))
        AsyncRetry.busyTasks.1 true s₁ s₂ ∧
      (AsyncRetry.busyTask (AsyncRetry.busyDelay true)).PollsReady (s₂.1, s₂.2 true) next
        (.ok 7, ⟨3, .ofNanos 36, .ofNanos 10, .returned⟩) stop ∧
      Host.pair.Reports none true s₁ s₂ stop next.2.1 ⟨3, .ofNanos 36, .ofNanos 10, .returned⟩ := by
  have hrun : Run (fun slow => (AsyncRetry.busyTask (AsyncRetry.busyDelay slow)).Polls)
      Host.pair.Advances AsyncRetry.busyTasks AsyncRetry.busyPolled :=
    Run.play (fun slow => AsyncRetry.polls_pollTask _ 9 ⟨0⟩) .start _
  obtain ⟨hruns, hreports⟩ := virtual_tasks AsyncRetry.busyTasks.1
    fun slow => AsyncRetry.busyTask_onVirtual (AsyncRetry.busyDelay slow)
  obtain ⟨⟨ledger, hbooked, hshares⟩, hready⟩ := hruns _ hrun
  constructor
  · have hwaits : (Host.pair.clock AsyncRetry.busyPolled.1).waits = [] ++ ledger.map Prod.snd :=
      hbooked.recorded
    refine ⟨ledger, ?_, fun slow => ?_⟩
    · rw [List.nil_append] at hwaits
      rw [← hwaits]
      decide +kernel
    · rw [hshares slow]
      cases slow <;> decide +kernel
  · obtain ⟨s₁, s₂, next, stop, hpolled, hstop, -, -⟩ := hready true
      (.ok 7, ⟨3, .ofNanos 36, .ofNanos 10, .returned⟩) (by decide +kernel)
    exact ⟨s₁, s₂, next, stop, hpolled, hstop, hreports true s₁ s₂ next _ stop hpolled hstop⟩

end Relentless
