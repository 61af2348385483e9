import Relentless.Clock.Virtual
import Relentless.Engine.Coupled
import Relentless.Trace.Consultations

/-!
# Time Accounting on a Virtual Clock

Runs of either engine on a `VirtualClock` that the operation, the hooks and all other parts
may advance by any amounts.  The clock, the list of its waits and the totals of the engine
are kept independently of each other, and agree.

- `Host` — a world that holds a virtual clock
- `Host.Advances` — what a part may do with it
- `Host.Booked`, `Host.Level` — what the clock and the watermark show in the middle of a run
- `virtual_time` — the guarantee
-/

namespace Relentless

open StateLoop
open Eff (Moves)

variable {σ R A O α : Type}

/-! ## §1 Worlds with a virtual clock -/

/-- A world that holds a virtual clock, and a count of the nanoseconds that have been passed
to `advance`. -/
structure Host (σ : Type) where
  clock : σ → VirtualClock
  advanced : σ → ℕ

namespace Host

variable (host : Host σ)

/-- The clock has been advanced, and not been asked to wait. -/
def Advances (w w' : σ) : Prop :=
  ∃ durs : List Duration, host.clock w' = durs.foldl VirtualClock.advance (host.clock w) ∧
    host.advanced w' = host.advanced w + (durs.map Duration.nanos).sum

instance : Std.Refl host.Advances where
  refl _ := ⟨[], rfl, rfl⟩

instance : IsTrans σ host.Advances where
  trans := by
    rintro w w' w'' ⟨durs, hclock, hadvanced⟩ ⟨durs', hclock', hadvanced'⟩
    refine ⟨durs ++ durs', ?_, ?_⟩
    · rw [hclock', hclock, List.foldl_append]
    · rw [hadvanced', hadvanced, List.map_append, List.sum_append, Nat.add_assoc]

/-- A method of the clock, called on the world that holds it. -/
def Runs (x : Eff σ α) (y : Eff VirtualClock α) : Prop :=
  ∀ w, (x w).1 = (y (host.clock w)).1 ∧ host.clock (x w).2 = (y (host.clock w)).2 ∧
    host.advanced (x w).2 = host.advanced w

variable {host}

/-- Methods that leave the clock as it is. -/
theorem Runs.advances {x : Eff σ α} {y : Eff VirtualClock α} (h : host.Runs x y)
    (hy : ∀ clock, (y clock).2 = clock) : Moves host.Advances x := by
  intro w
  obtain ⟨-, hclock, hadvanced⟩ := h w
  rw [hy] at hclock
  exact ⟨[], hclock, hadvanced⟩

theorem Advances.now_le {w w' : σ} (h : host.Advances w w') :
    (host.clock w).now ≤ (host.clock w').now := by
  obtain ⟨durs, hclock, -⟩ := h
  have hstart : (host.clock w).now = .ofNanos (host.clock w).now.nanos :=
    (Duration.ofNanos_nanos _).symm
  -- All advances together move the clock by their sum, up to its end.
  rw [hclock, VirtualClock.now_foldl_advance hstart]
  calc (host.clock w).now
      = .ofNanos (host.clock w).now.nanos := hstart
    _ ≤ .ofNanos ((host.clock w).now.nanos + (durs.map Duration.nanos).sum) :=
      Duration.ofNanos_mono (Nat.le_add_right _ _)

/-! ## §2 Accounts -/

/-- What the clock shows after `waits`, of a run that started in the world `w₀`. -/
structure Booked (host : Host σ) (w₀ : σ) (waits : List Duration) (w : σ) : Prop where
  now : (host.clock w).now = .ofNanos ((host.clock w₀).now.nanos +
    (waits.map Duration.nanos).sum + (host.advanced w - host.advanced w₀))
  recorded : (host.clock w).waits = (host.clock w₀).waits ++ waits
  since : host.advanced w₀ ≤ host.advanced w

namespace Booked

variable {w₀ w w' : σ} {waits : List Duration}

theorem start (w₀ : σ) : host.Booked w₀ [] w₀ where
  now := by simp
  recorded := (List.append_nil _).symm
  since := le_refl _

/-- Advances are not booked as waits. -/
theorem advances (h : host.Booked w₀ waits w) (hw : host.Advances w w') :
    host.Booked w₀ waits w' := by
  obtain ⟨durs, hclock, hadvanced⟩ := hw
  have hsince := h.since
  constructor
  case now =>
    rw [hclock, VirtualClock.now_foldl_advance h.now, hadvanced]
    congr 1
    omega
  case recorded => rw [hclock, VirtualClock.waits_foldl_advance, h.recorded]
  case since => omega

/-- **A wait** is recorded, and takes its duration. -/
theorem wait (h : host.Booked w₀ waits w) {delay : Duration}
    (hclock : host.clock w' = (host.clock w).recordWait delay)
    (hadvanced : host.advanced w' = host.advanced w) :
    host.Booked w₀ (waits ++ [delay]) w' := by
  have hsince := h.since
  constructor
  case now =>
    rw [hclock, VirtualClock.now_recordWait, VirtualClock.now_advance_of_eq h.now, hadvanced]
    simp only [List.map_append, List.map_singleton, List.sum_append, List.sum_singleton]
    congr 1
    omega
  case recorded => rw [hclock, VirtualClock.waits_recordWait, h.recorded, List.append_assoc]
  case since => omega

/-- As long as the clock has not reached its end, nothing is cut off. -/
theorem exact (h : host.Booked w₀ waits w) (hend : (host.clock w).now < .maxValue) :
    (waits.map Duration.nanos).sum ≤ maxNanos ∧
      ((host.clock w).now.saturatingSub (host.clock w₀).now).nanos =
        (waits.map Duration.nanos).sum + (host.advanced w - host.advanced w₀) := by
  rw [h.now, Duration.lt_def, Duration.nanos_ofNanos] at hend
  -- Below the end of the clock none of the saturating sums has saturated.
  have hmax : Duration.maxValue.nanos = maxNanos := rfl
  rw [h.now, Duration.nanos_saturatingSub, Duration.nanos_ofNanos]
  omega

end Booked

/-- A watermark that the clock has not fallen behind. -/
structure Level (host : Host σ) (w₀ : σ) (elapsed : Elapsed) (w : σ) : Prop where
  origin : elapsed.origin = (host.clock w₀).now
  highest : elapsed.highest ≤ (host.clock w).now.saturatingSub (host.clock w₀).now

namespace Level

variable {w₀ w w' : σ} {elapsed : Elapsed}

theorem start (w₀ : σ) : host.Level w₀ ⟨(host.clock w₀).now, .zero⟩ w₀ where
  origin := rfl
  highest := Duration.zero_le _

theorem mono (h : host.Level w₀ elapsed w) (hle : (host.clock w).now ≤ (host.clock w').now) :
    host.Level w₀ elapsed w' where
  origin := h.origin
  highest := h.highest.trans (Nat.sub_le_sub_right hle _)

/-- A reading shows the time since the start. -/
theorem observe_highest (h : host.Level w₀ elapsed w) :
    (elapsed.observe (host.clock w).now).highest =
      (host.clock w).now.saturatingSub (host.clock w₀).now := by
  show max elapsed.highest ((host.clock w).now.saturatingSub elapsed.origin) = _
  -- The watermark has not seen more than the clock shows now.
  rw [h.origin]
  exact max_eq_right h.highest

theorem observe (h : host.Level w₀ elapsed w) :
    host.Level w₀ (elapsed.observe (host.clock w).now) w where
  origin := h.origin
  highest := h.observe_highest.le

end Level

/-! ## §3 Parts that request no wait -/

/-- The clock has been advanced, and nothing in the log requests a wait. -/
def Spends (host : Host σ) (t t' : Traced σ R A O) : Prop :=
  ∃ events, t'.log = t.log ++ events ∧ requested events = [] ∧ host.Advances t.world t'.world

instance : Std.Refl (host.Spends : Traced σ R A O → Traced σ R A O → Prop) where
  refl t := ⟨[], (List.append_nil t.log).symm, rfl, refl_of host.Advances t.world⟩

instance : IsTrans (Traced σ R A O) host.Spends where
  trans := by
    rintro t t' t'' ⟨events, hlog, hnone, hworld⟩ ⟨events', hlog', hnone', hworld'⟩
    refine ⟨events ++ events', ?_, ?_, trans_of host.Advances hworld hworld'⟩
    · rw [hlog', hlog, List.append_assoc]
    · rw [requested_append, hnone, hnone', List.append_nil]

theorem Spends.requested_eq {t t' : Traced σ R A O} (h : host.Spends t t') :
    requested t'.log = requested t.log := by
  obtain ⟨events, hlog, hnone, -⟩ := h
  rw [hlog, requested_append, hnone, List.append_nil]

theorem Spends.advances {t t' : Traced σ R A O} (h : host.Spends t t') :
    host.Advances t.world t'.world :=
  h.choose_spec.2.2

theorem Booked.spends {w₀ : σ} {t t' : Traced σ R A O}
    (h : host.Booked w₀ (requested t.log) t.world) (hspends : host.Spends t t') :
    host.Booked w₀ (requested t'.log) t'.world := by
  rw [hspends.requested_eq]
  exact h.advances hspends.advances

theorem spends_record {event : Event R A O} (hevent : event.requested? = none) :
    Moves host.Spends (record event : Eff (Traced σ R A O) Unit) := by
  intro t
  refine ⟨[event], rfl, ?_, refl_of host.Advances t.world⟩
  rw [requested, List.filterMap_cons_none hevent]
  rfl

theorem spends_onWorld {x : Eff σ α} (hx : Moves host.Advances x) :
    Moves host.Spends (onWorld x : Eff (Traced σ R A O) α) :=
  fun t => ⟨[], (List.append_nil t.log).symm, rfl, hx t.world⟩

theorem spends_logged {event : α → Event R A O} {x : Eff σ α}
    (hevent : ∀ answer, (event answer).requested? = none) (hx : Moves host.Advances x) :
    Moves host.Spends (logged event x) :=
  (spends_onWorld hx).bind fun answer =>
    (spends_record (hevent answer)).bind fun _ => Moves.pure answer

theorem spends_hooks {event : ℕ → α → Event R A O} {slot : HookSlot (Eff σ) α}
    (hevent : ∀ hook view, (event hook view).requested? = none)
    (hslot : ∀ view, Moves host.Advances (slot.call view)) (view : α) :
    Moves host.Spends ((slot.recorded .traced event).call view) := by
  rintro ⟨w, log⟩
  rw [HookSlot.recorded_call]
  exact ⟨_, rfl, filterMap_hookEvents _ _ _ _ fun hook => hevent hook view, hslot view w⟩

/-- The parts of an attempt, tracing what they do. -/
theorem spends_parts {classifier : Decide (Eff σ) R A O} {stop : Stop (Eff σ)}
    {wait : Wait (Eff σ)} {hooks : ExecutionHooks (Eff σ) R A O}
    (h : StepMoves host.Advances classifier stop wait hooks) :
    StepMoves host.Spends (classifier.recorded .traced)
      (stop.recorded (.traced (R := R) (A := A) (O := O))) (wait.recorded .traced)
      (hooks.recorded .traced) where
  decide outcome := spends_logged (fun _ => rfl) (h.decide outcome)
  shouldStop state := spends_logged (fun _ => rfl) (h.shouldStop state)
  nextWait state := spends_logged (fun _ => rfl) (h.nextWait state)
  beforeAttempt := spends_hooks (fun _ _ => rfl) h.beforeAttempt
  afterAttempt := spends_hooks (fun _ _ => rfl) h.afterAttempt
  onExit := spends_hooks (fun _ _ => rfl) h.onExit

/-- A reading of the clock shows its time, and leaves it as it is. -/
theorem reads {clock : Clock (Eff σ)} (hnow : host.Runs clock.now VirtualClock.syncClock.now)
    (t : Traced σ R A O) :
    ((clock.recorded .traced).now t).1 = (host.clock t.world).now ∧
      host.Spends t ((clock.recorded .traced).now t).2 ∧
      host.clock ((clock.recorded .traced).now t).2.world = host.clock t.world := by
  obtain ⟨hreading, hclock, -⟩ := hnow t.world
  exact ⟨hreading, spends_logged (fun _ => rfl) (hnow.advances fun _ => rfl) t, hclock⟩

/-- So the elapsed time is the time since the start. -/
theorem Level.read {clock : Clock (Eff σ)}
    (hnow : host.Runs clock.now VirtualClock.syncClock.now) {w₀ : σ} {elapsed : Elapsed}
    {t : Traced σ R A O} (h : host.Level w₀ elapsed t.world) :
    let reading := elapsed.read (clock.recorded .traced) t
    reading.1.1 = (host.clock t.world).now.saturatingSub (host.clock w₀).now ∧
      host.Level w₀ reading.1.2 reading.2.world ∧ host.Spends t reading.2 := by
  obtain ⟨hreading, hspends, hclock⟩ := reads (R := R) (A := A) (O := O) hnow t
  rw [Elapsed.read_release]
  dsimp only
  rw [hreading]
  refine ⟨h.observe_highest, h.observe.mono ?_, hspends⟩
  rw [hclock]

/-- The accounts are in order when the baseline has been read. -/
theorem started {clock : Clock (Eff σ)} (hnow : host.Runs clock.now VirtualClock.syncClock.now)
    (w₀ : σ) :
    let reading : Duration × Traced σ R A O := (clock.recorded .traced).now ⟨w₀, []⟩
    host.Level w₀ ⟨reading.1, .zero⟩ reading.2.world ∧
      host.Booked w₀ (requested reading.2.log) reading.2.world := by
  obtain ⟨hreading, hspends, -⟩ := reads (R := R) (A := A) (O := O) hnow ⟨w₀, []⟩
  have hbooked : host.Booked w₀ (requested ([] : List (Event R A O))) w₀ := .start w₀
  constructor
  · rw [hreading]
    exact (Level.start w₀).mono hspends.advances.now_le
  · exact hbooked.spends hspends

end Host

/-- The delays that are zero do not count. -/
theorem sum_filter_ne_zero (delays : List Duration) :
    ((delays.filter (· ≠ .zero)).map Duration.nanos).sum = (delays.map Duration.nanos).sum := by
  induction delays with
  | nil => rfl
  | cons delay delays ih =>
    by_cases hzero : delay = .zero
    · rw [List.filter_cons_of_neg (by simp [hzero]), ih, hzero]
      simp
    · rw [List.filter_cons_of_pos (by simp [hzero]), List.map_cons, List.sum_cons, ih,
        List.map_cons, List.sum_cons]

/-- What is reported of a run that recorded `waits`, and that read the clock for the last time
in the world `w₁`. -/
structure Host.Reported (host : Host σ) (w₀ : σ) (waits : List Duration) (w₁ : σ)
    (stats : RetryStats) : Prop where
  totalWait : stats.totalWait.nanos = (waits.map Duration.nanos).sum
  totalElapsed : stats.totalElapsed.nanos =
    stats.totalWait.nanos + (host.advanced w₁ - host.advanced w₀)

/-- The totals of a run whose last reading shows the time since the start. -/
theorem Host.Booked.reported {host : Host σ} {w₀ w₁ : σ} {waits delays : List Duration}
    {stats : RetryStats} (h : host.Booked w₀ waits w₁) (hend : (host.clock w₁).now < .maxValue)
    (hdelays : waits = delays.filter (· ≠ .zero))
    (htotal : stats.totalWait = .ofNanos (delays.map Duration.nanos).sum)
    (helapsed : stats.totalElapsed = (host.clock w₁).now.saturatingSub (host.clock w₀).now) :
    host.Reported w₀ waits w₁ stats := by
  obtain ⟨hle, hexact⟩ := h.exact hend
  have hwaits : stats.totalWait.nanos = (waits.map Duration.nanos).sum := by
    rw [htotal, ← sum_filter_ne_zero, ← hdelays, Duration.nanos_ofNanos, Nat.min_eq_left hle]
  constructor
  case totalWait => exact hwaits
  case totalElapsed => rw [hwaits, helapsed, hexact]

/-- The statistics of a decision to return show the progress it was given. -/
theorem step_done_stats {progress : Progress} {outcome : O} {classifier : Decide (Eff σ) R A O}
    {stop : Stop (Eff σ)} {wait : Wait (Eff σ)} {timeout : Option Duration}
    {hooks : ExecutionHooks (Eff σ) R A O} {w w' : σ} {result : Except (RetryError A O) R}
    {stats : RetryStats}
    (h : step progress outcome classifier stop wait timeout hooks w = (.done result stats, w')) :
    stats.totalElapsed = progress.elapsed := by
  obtain ⟨attempt, elapsed, previousDelay, totalWait⟩ := progress
  -- The grammar of a step lists its fates; each one that ends the run copies the progress.
  let S : Setting R A O :=
    { timeout, beforeHooks := 0, afterHooks := hooks.afterAttempt.count,
      exitHooks := hooks.onExit.count, answers := .of classifier stop wait }
  obtain ⟨fate, w₁, hsteps⟩ := step_spec S classifier stop wait hooks rfl rfl rfl
    ⟨attempt, elapsed, previousDelay⟩ totalWait outcome w
  have hnext := congrArg Prod.fst (hsteps.answer.symm.trans h)
  cases fate with
  | returned value | aborted last | exhausted last answer =>
    cases hnext
    rfl
  | retried last rawDelay => cases hnext

/-! ## §4 The sync engine -/

namespace Retry

/-- A sync configuration on a virtual clock, which all its parts may advance. -/
structure OnVirtual (retry : Retry (Eff σ) R A O) (host : Host σ) : Prop where
  parts : StepMoves host.Advances retry.classifier retry.stop retry.wait retry.hooks
  op : ∀ state, Moves host.Advances (retry.op state)
  now : host.Runs retry.clock.now VirtualClock.syncClock.now
  wait : ∀ delay, host.Runs (retry.clock.wait delay) (VirtualClock.syncClock.wait delay)

/-- The world in which a finished run has read the clock for the last time. -/
def LastReading (retry : Retry (Eff σ) R A O) (w₀ : σ) (output : Output R A O) (w₁ : σ) : Prop :=
  ∃ k cursor w w', retry.runFor k w₀ = (.again cursor, w) ∧
    retry.loopBody cursor w = (.done output, w') ∧ (retry.invoke cursor w).2 = w₁

/-- What the clock and the watermark show when a round begins. -/
structure Accounted (host : Host σ) (w₀ : σ) (cursor : Cursor) (t : Traced σ R A O) : Prop where
  booked : host.Booked w₀ (requested t.log) t.world
  level : host.Level w₀ cursor.elapsed t.world

namespace OnVirtual

variable {self : Retry (Eff σ) R A O} {host : Host σ} {w₀ : σ} {cursor : Cursor}
  {t : Traced σ R A O}

theorem traced_parts (h : self.OnVirtual host) : StepMoves host.Spends self.traced.classifier
    self.traced.stop self.traced.wait self.traced.hooks :=
  Host.spends_parts h.parts

theorem invoke (h : self.OnVirtual host) (hcursor : Accounted host w₀ cursor t) :
    let invoked := self.traced.invoke cursor t
    host.Spends t invoked.2 ∧ host.Level w₀ invoked.1.2 invoked.2.world := by
  let reading := cursor.elapsed.read self.traced.clock.toClock t
  let state : RetryState := ⟨cursor.attempt, reading.1.1, cursor.previousDelay⟩
  obtain ⟨-, hlevel, hread⟩ := hcursor.level.read (R := R) (A := A) (O := O) h.now
  -- After the reading come the hooks and the operation, which may advance the clock but not wait.
  have hbefore := h.traced_parts.beforeAttempt state reading.2
  have hop : Moves host.Spends (self.traced.op state) :=
    (Host.spends_record rfl).bind fun _ => Host.spends_logged (fun _ => rfl) (h.op state)
  have hcalled := trans_of host.Spends hbefore
    (hop (self.traced.hooks.beforeAttempt.call state reading.2).2)
  exact ⟨trans_of host.Spends hread hcalled, hlevel.mono hcalled.advances.now_le⟩

/-- The sleep of a gap is booked, unless there is none. -/
theorem sleep (h : self.OnVirtual host) (delay : Duration)
    (hbooked : host.Booked w₀ (requested t.log) t.world) :
    let t' := (self.traced.sleep delay t).2
    host.Booked w₀ (requested t'.log) t'.world ∧
      (host.clock t.world).now ≤ (host.clock t'.world).now := by
  obtain ⟨w, log⟩ := t
  rw [sleep_traced]
  dsimp only
  rw [requested_append, requested_waitEvents]
  by_cases hzero : delay = .zero
  -- No delay: the engine does not call the clock, and the log shows no wait.
  · have hnone : self.sleep delay w = ((), w) := by
      unfold Retry.sleep
      rw [if_pos (delay.isZero_iff.mpr hzero)]
      rfl
    rw [List.filter_cons_of_neg (by simp [hzero]), hnone, List.filter_nil, List.append_nil]
    exact ⟨hbooked, le_rfl⟩
  -- Otherwise the clock is asked once, and books what the log shows.
  · have hwait : self.sleep delay w = self.clock.wait delay w := by
      unfold Retry.sleep
      rw [if_neg (by simpa using hzero)]
    obtain ⟨-, hclock, hadvanced⟩ := h.wait delay w
    rw [List.filter_cons_of_pos (by simp [hzero]), hwait, List.filter_nil]
    refine ⟨hbooked.wait hclock hadvanced, ?_⟩
    rw [hclock]
    exact (host.clock w).now_le_advance delay

/-- **One round** keeps the accounts; the last one reports the time of its last reading. -/
theorem loopBody (h : self.OnVirtual host) (hcursor : Accounted host w₀ cursor t) :
    let t₁ := (self.traced.invoke cursor t).2
    host.Booked w₀ (requested t₁.log) t₁.world ∧
      (∀ cursor' t', self.traced.loopBody cursor t = (.again cursor', t') →
        Accounted host w₀ cursor' t') ∧
      ∀ output t', self.traced.loopBody cursor t = (.done output, t') → host.Spends t₁ t' ∧
        output.2.totalElapsed = (host.clock t₁.world).now.saturatingSub (host.clock w₀).now := by
  obtain ⟨hinvoke, hlevel⟩ := h.invoke hcursor
  have hbooked := hcursor.booked.spends hinvoke
  let reading := (self.traced.invoke cursor t).1.2.read self.traced.clock.toClock
    (self.traced.invoke cursor t).2
  -- The reading after the operation shows the time since the start.
  obtain ⟨helapsed, hlevel₁, hread⟩ := hlevel.read (R := R) (A := A) (O := O) h.now
  let progress : Progress :=
    { attempt := cursor.attempt, elapsed := reading.1.1, previousDelay := cursor.previousDelay,
      totalWait := cursor.totalWait }
  -- The decision and the hooks around it take no further reading and request no wait.
  obtain ⟨next, t₂, hstep⟩ : ∃ next t₂, step progress (self.traced.invoke cursor t).1.1
      self.traced.classifier self.traced.stop self.traced.wait self.traced.timeout
      self.traced.hooks reading.2 = (next, t₂) := ⟨_, _, rfl⟩
  have hdecided := h.traced_parts.step progress (self.traced.invoke cursor t).1.1
    self.traced.timeout reading.2
  rw [hstep] at hdecided
  have hspends : host.Spends (self.traced.invoke cursor t).2 t₂ :=
    trans_of host.Spends hread hdecided
  have hbody : self.traced.loopBody cursor t = self.traced.proceed cursor reading.1.2 next t₂ :=
    congrArg (fun r : Step R A O × Traced σ R A O =>
      self.traced.proceed cursor reading.1.2 r.1 r.2) hstep
  refine ⟨hbooked, ?_⟩
  rw [hbody]
  -- A decision to return copies the elapsed time; a decision to go on sleeps first.
  cases next with
  | done result stats =>
    constructor
    · intro cursor' t' hagain
      cases hagain
    · intro output t' hdone
      obtain ⟨hturn, rfl⟩ := Prod.mk.inj hdone
      obtain rfl := Turn.done.inj hturn
      exact ⟨hspends, (step_done_stats hstep).trans helapsed⟩
  | continue_ delay running =>
    constructor
    · intro cursor' t' hagain
      obtain ⟨hturn, rfl⟩ := Prod.mk.inj hagain
      obtain rfl := Turn.again.inj hturn
      obtain ⟨hslept, hle⟩ := h.sleep delay (hbooked.spends hspends)
      exact ⟨hslept, hlevel₁.mono (hdecided.advances.now_le.trans hle)⟩
    · intro output t' hdone
      cases hdone

/-- **Every round** begins with the accounts in order. -/
theorem accounted (h : self.OnVirtual host) {k : ℕ}
    (hrun : self.traced.runFor k ⟨w₀, []⟩ = (.again cursor, t)) : Accounted host w₀ cursor t := by
  -- By induction on the rounds, with the baseline reading as the start.
  obtain ⟨hlevel, hbooked⟩ := Host.started (R := R) (A := A) (O := O) h.now w₀
  refine runFor_invariant (I := fun _ cursor t => Accounted host w₀ cursor t) ⟨hbooked, hlevel⟩
    ?_ hrun
  intro _ cursor t cursor' t' hcursor hbody
  exact (h.loopBody hcursor).2.1 cursor' t' hbody

/-- The accounts of a whole run. -/
theorem accounts (h : self.OnVirtual host) (n : ℕ) (w₀ : σ) :
    let run := self.traced.runFor n ⟨w₀, []⟩
    let waits := (gapDelays self.timeout run.2.log).filter (· ≠ .zero)
    (host.clock run.2.world).waits = (host.clock w₀).waits ++ waits ∧
      ∀ output, run.1 = .done output → ∃ t₁, self.traced.LastReading ⟨w₀, []⟩ output t₁ ∧
        ((host.clock t₁.world).now < .maxValue →
          host.Reported w₀ waits t₁.world output.2) := by
  intro run waits
  obtain ⟨turn, t, hrun⟩ : ∃ turn t, self.traced.runFor n ⟨w₀, []⟩ = (turn, t) := ⟨_, _, rfl⟩
  -- What the log requests of the clock are the delays of its gaps that are not zero.
  have hrequested : requested run.2.log = waits := (self.fedBack n w₀).requested
  rw [← hrequested]
  have hrun' : run = (turn, t) := hrun
  rw [hrun'] at hrequested ⊢
  cases turn with
  | again cursor =>
    refine ⟨(h.accounted hrun).booked.recorded, fun output hdone => ?_⟩
    cases hdone
  | done output =>
    -- A finished run has a last round, and its accounts were in order before that one.
    obtain ⟨k, -, cursor, t₀, hrunk, hbody⟩ := runFor_done_split hrun
    obtain ⟨hbooked, -, hlast⟩ := h.loopBody (h.accounted hrunk)
    obtain ⟨hspends, helapsed⟩ := hlast output t hbody
    refine ⟨(hbooked.spends hspends).recorded, fun output' hdone => ?_⟩
    obtain rfl := Turn.done.inj hdone
    refine ⟨_, ⟨k, cursor, t₀, t, hrunk, hbody, rfl⟩, fun hend => ?_⟩
    rw [← hspends.requested_eq] at hbooked
    refine hbooked.reported hend hrequested ?_ helapsed
    -- The total wait is read off the grammar of the log.
    obtain ⟨baseline, rounds, turn', w', hrounds, -, hlogged⟩ := self.runFor_rounds n w₀
    rw [hlogged] at hrun
    obtain ⟨hturn, rfl⟩ := Prod.mk.inj hrun
    cases turn' with
    | again mark => cases hturn
    | done output' =>
      obtain rfl := Turn.done.inj hturn
      rw [hrun']
      exact hrounds.total_wait

end OnVirtual

end Retry

/-! ## §5 The async engine -/

namespace AsyncRetry

variable {Fut : Type}

/-- An async configuration on a borrowed virtual clock, which all its parts may advance. -/
structure OnVirtual (retry : AsyncRetry (Eff σ) Fut VirtualWait R A O) (host : Host σ) : Prop where
  parts : StepMoves host.Advances retry.classifier retry.stop retry.wait retry.hooks
  callOp : ∀ state, Moves host.Advances (retry.op.callOp state)
  poll : ∀ future cx, Moves host.Advances (retry.op.poll future cx)
  wakeByRef : ∀ cx, Moves host.Advances (retry.wakeByRef cx)
  now : host.Runs retry.clock.now VirtualClock.asyncClock.now
  waitAsync : ∀ delay,
    host.Runs (retry.clock.waitAsync delay) (VirtualClock.asyncClock.waitAsync delay)
  pollWait : ∀ future cx,
    host.Runs (retry.clock.pollWait future cx) (VirtualClock.asyncClock.pollWait future cx)

/-- The world in which a finished future has read the clock for the last time. -/
def LastReading {WaitFut : Type} (retry : AsyncRetry (Eff σ) Fut WaitFut R A O)
    (cxs : ℕ → Context) (w₀ : σ) (output : Output R A O) (w₁ : σ) : Prop :=
  ∃ j w state future outcome future' run w', retry.Midway cxs w₀ j w state ∧
    retry.pollBody (cxs j) state w = (.done (.ready output, run), w') ∧
    state.2.phase = .polling future ∧
    retry.op.poll future (cxs j) w = ((.ready outcome, future'), w₁)

/-- The wait that has been requested, but has not taken effect yet. -/
def owed : Phase Fut VirtualWait → List Duration
  | .sleeping future => [future.dur]
  | _ => []

/-- What the clock and the watermark show between two passes. -/
structure Accounted (host : Host σ) (w₀ : σ) (t : Traced σ R A O)
    (state : LoopState Fut VirtualWait) : Prop where
  level : host.Level w₀ state.1 t.world
  fresh : ∀ future, state.2.phase = .sleeping future → future.advanced = false
  booked : ∃ waits, requested t.log = waits ++ owed state.2.phase ∧ host.Booked w₀ waits t.world

/-- What one pass leaves behind. -/
def Kept (retry : AsyncRetry (Eff (Traced σ R A O)) Fut VirtualWait R A O) (host : Host σ) (w₀ : σ)
    (cx : Context) (state : LoopState Fut VirtualWait) (t : Traced σ R A O) :
    Turn (LoopState Fut VirtualWait) (PollResult Fut VirtualWait R A O) × Traced σ R A O → Prop
  | (.again state', t') => Accounted host w₀ t' state'
  | (.done (.pending, run), t') => host.Booked w₀ (requested t'.log) t'.world ∧
    ∃ elapsed, run.elapsed = some elapsed ∧ Accounted host w₀ t' (elapsed, run.toRunFields)
  | (.done (.ready output, _), t') => ∃ future outcome future' t₁,
    state.2.phase = .polling future ∧
    retry.op.poll future cx t = ((.ready outcome, future'), t₁) ∧
    host.Booked w₀ (requested t₁.log) t₁.world ∧ host.Spends t₁ t' ∧
    output.2.totalElapsed = (host.clock t₁.world).now.saturatingSub (host.clock w₀).now
  | (.done (.panicked, _), _) => True

namespace OnVirtual

variable {self : AsyncRetry (Eff σ) Fut VirtualWait R A O} {host : Host σ} {w₀ : σ}
  {t : Traced σ R A O} {state : LoopState Fut VirtualWait}

theorem traced_parts (h : self.OnVirtual host) : StepMoves host.Spends self.traced.classifier
    self.traced.stop self.traced.wait self.traced.hooks :=
  Host.spends_parts h.parts

theorem kept_ready (h : self.OnVirtual host) (cx : Context) {elapsed : Elapsed}
    {attempt : UInt32} {previousDelay : Option Duration} {totalWait : Duration}
    (hlevel : host.Level w₀ elapsed t.world)
    (hbooked : host.Booked w₀ (requested t.log) t.world) :
    Kept self.traced host w₀ cx (elapsed, ⟨.readyToStart, attempt, previousDelay, totalWait⟩) t
      (self.traced.pollBody cx
        (elapsed, ⟨.readyToStart, attempt, previousDelay, totalWait⟩) t) := by
  let reading := elapsed.read self.traced.clock.toClock t
  let state : RetryState := ⟨attempt, reading.1.1, previousDelay⟩
  obtain ⟨-, hlevel₁, hread⟩ := hlevel.read (R := R) (A := A) (O := O) h.now
  -- The hooks and the call of the operation request no wait, so nothing is owed afterwards.
  have hbefore := h.traced_parts.beforeAttempt state reading.2
  have hcall : Moves host.Spends (self.traced.op.callOp state) :=
    (Host.spends_record rfl).bind fun _ => Host.spends_onWorld (h.callOp state)
  have hcalled := trans_of host.Spends hbefore
    (hcall (self.traced.hooks.beforeAttempt.call state reading.2).2)
  exact ⟨hlevel₁.mono hcalled.advances.now_le, fun future hphase => (by cases hphase), _,
    (List.append_nil _).symm, hbooked.spends (trans_of host.Spends hread hcalled)⟩

/-- A sleep future that has not been polled yet resolves, and its wait is booked. -/
theorem kept_sleeping (h : self.OnVirtual host) (cx : Context) {elapsed : Elapsed}
    {attempt : UInt32} {previousDelay : Option Duration} {totalWait dur : Duration}
    {waits : List Duration} (hlevel : host.Level w₀ elapsed t.world)
    (hrequested : requested t.log = waits ++ [dur]) (hbooked : host.Booked w₀ waits t.world) :
    Kept self.traced host w₀ cx
      (elapsed, ⟨.sleeping ⟨dur, false⟩, attempt, previousDelay, totalWait⟩) t
      (self.traced.pollBody cx
        (elapsed, ⟨.sleeping ⟨dur, false⟩, attempt, previousDelay, totalWait⟩) t) := by
  obtain ⟨w, log⟩ := t
  obtain ⟨hanswer, hclock, hadvanced⟩ := h.pollWait ⟨dur, false⟩ cx w
  -- The first poll of the future advances the clock and is ready at once.
  obtain ⟨w', hpolled⟩ := Eff.exists_world hanswer
  rw [hpolled] at hclock hadvanced
  have hready : self.traced.clock.pollWait ⟨dur, false⟩ cx ⟨w, log⟩ =
      ((.ready (), ⟨dur, true⟩), ⟨w', log ++ [.waitReady cx]⟩) := by
    show logged _ (self.clock.pollWait ⟨dur, false⟩ cx) ⟨w, log⟩ = _
    rw [logged_apply, hpolled]
    rfl
  rw [pollBody_sleeping_ready rfl hready]
  refine ⟨hlevel.mono ?_, fun future hphase => (by cases hphase), waits ++ [dur], ?_,
    hbooked.wait hclock hadvanced⟩
  · rw [hclock]
    exact (host.clock w).now_le_advance dur
  · rw [requested_append, hrequested]
    rfl

/-- A decision to go on wakes the task, or requests a wait that is still owed. -/
theorem kept_gap (h : self.OnVirtual host) (cx : Context) {elapsed : Elapsed}
    (run : RunFields Fut VirtualWait) (delay running : Duration) {t' : Traced σ R A O}
    (hlevel : host.Level w₀ elapsed t'.world)
    (hbooked : host.Booked w₀ (requested t'.log) t'.world) :
    Kept self.traced host w₀ cx state t
      (self.traced.proceed cx elapsed run (.continue_ delay running) t') := by
  unfold AsyncRetry.proceed
  dsimp only
  by_cases hzero : delay = .zero
  · -- Woken, and back to the executor.
    have hwake : Moves host.Spends (self.traced.wakeByRef cx) :=
      (Host.spends_record rfl).bind fun _ => Host.spends_onWorld (h.wakeByRef cx)
    rw [if_pos (delay.isZero_iff.mpr hzero)]
    have hwoken := hbooked.spends (hwake t')
    exact ⟨hwoken, _, rfl, hlevel.mono (hwake t').advances.now_le,
      fun future hphase => (by cases hphase), _, (List.append_nil _).symm, hwoken⟩
  · -- The wait is requested here, and booked when its future is polled.
    rw [if_neg (by simpa using hzero)]
    obtain ⟨hfuture, hclock, hadvanced⟩ := h.waitAsync delay t'.world
    have hcreated : host.Advances t'.world (self.clock.waitAsync delay t'.world).2 :=
      ⟨[], hclock, hadvanced⟩
    refine ⟨hlevel.mono hcreated.now_le, fun future hphase => ?_, requested t'.log, ?_,
      hbooked.advances hcreated⟩
    · obtain rfl := Phase.sleeping.inj hphase
      exact congrArg VirtualWait.advanced hfuture
    · have howed : owed (.sleeping (self.clock.waitAsync delay t'.world).1 :
          Phase Fut VirtualWait) = [delay] := by
        rw [hfuture]
        rfl
      show requested (t'.log ++ [.wait delay]) = _
      rw [requested_append]
      exact congrArg (requested t'.log ++ ·) howed.symm

/-- A poll of the operation's future: it is pending, or it completes a round. -/
theorem kept_polling (h : self.OnVirtual host) (cx : Context) {elapsed : Elapsed} {future : Fut}
    {attempt : UInt32} {previousDelay : Option Duration} {totalWait : Duration}
    (hlevel : host.Level w₀ elapsed t.world)
    (hbooked : host.Booked w₀ (requested t.log) t.world) :
    Kept self.traced host w₀ cx (elapsed, ⟨.polling future, attempt, previousDelay, totalWait⟩) t
      (self.traced.pollBody cx
        (elapsed, ⟨.polling future, attempt, previousDelay, totalWait⟩) t) := by
  have hpoll : Moves host.Spends (self.traced.op.poll future cx) := by
    refine Host.spends_logged (fun answer => ?_) (h.poll future cx)
    obtain ⟨value, future'⟩ := answer
    cases value with
    | pending => rfl
    | ready outcome => rfl
  obtain ⟨value, future', t₁, hpolled⟩ : ∃ value future' t₁,
    self.traced.op.poll future cx t = ((value, future'), t₁) := ⟨_, _, _, rfl⟩
  -- Whatever the poll answers, the clock has only been advanced.
  have hspends := hpoll t
  rw [hpolled] at hspends
  have hbooked₁ := hbooked.spends hspends
  have hlevel₁ := hlevel.mono hspends.advances.now_le
  cases value with
  | pending =>
    rw [pollBody_polling_pending rfl hpolled]
    exact ⟨hbooked₁, elapsed, rfl, hlevel₁, fun future hphase => (by cases hphase), _,
      (List.append_nil _).symm, hbooked₁⟩
  | ready outcome =>
    let reading := elapsed.read self.traced.clock.toClock t₁
    obtain ⟨helapsed, hlevel₂, hread⟩ := hlevel₁.read (R := R) (A := A) (O := O) h.now
    let progress : Progress :=
      { attempt, elapsed := reading.1.1, previousDelay, totalWait }
    let run : RunFields Fut VirtualWait := ⟨.polling future, attempt, previousDelay, totalWait⟩
    obtain ⟨next, t₂, hstep⟩ : ∃ next t₂, step progress outcome self.traced.classifier
        self.traced.stop self.traced.wait self.traced.timeout self.traced.hooks reading.2 =
          (next, t₂) := ⟨_, _, rfl⟩
    have hdecided := h.traced_parts.step progress outcome self.traced.timeout reading.2
    rw [hstep] at hdecided
    -- From the answer on there are a reading and a decision, which request no wait.
    have hsettled : host.Spends t₁ t₂ := trans_of host.Spends hread hdecided
    have hbody : self.traced.pollBody cx (elapsed, run) t =
        self.traced.proceed cx reading.1.2 run next t₂ :=
      (pollBody_polling_ready rfl hpolled).trans (congrArg (fun r : Step R A O × Traced σ R A O =>
        self.traced.proceed cx reading.1.2 run r.1 r.2) hstep)
    rw [hbody]
    have hbooked₂ := hbooked₁.spends hsettled
    have hlevel₃ := hlevel₂.mono hdecided.advances.now_le
    cases next with
    | done result stats =>
      exact ⟨future, outcome, future', t₁, rfl, hpolled, hbooked₁, hsettled,
        (step_done_stats hstep).trans helapsed⟩
    | continue_ delay running => exact h.kept_gap cx run delay running hlevel₃ hbooked₂

/-- **One pass** keeps the accounts. -/
theorem kept (h : self.OnVirtual host) (cx : Context) (hstate : Accounted host w₀ t state) :
    Kept self.traced host w₀ cx state t (self.traced.pollBody cx state t) := by
  obtain ⟨elapsed, phase, attempt, previousDelay, totalWait⟩ := state
  obtain ⟨hlevel, hfresh, waits, hrequested, hbooked⟩ := hstate
  -- Only a run that sleeps owes a wait; in the other phases all waits are booked.
  cases phase with
  | readyToStart =>
    obtain rfl : requested t.log = waits := hrequested.trans (List.append_nil waits)
    exact h.kept_ready cx hlevel hbooked
  | polling future =>
    obtain rfl : requested t.log = waits := hrequested.trans (List.append_nil waits)
    exact h.kept_polling cx hlevel hbooked
  | sleeping future =>
    obtain ⟨dur, advanced⟩ := future
    obtain rfl : advanced = false := hfresh _ rfl
    exact h.kept_sleeping cx hlevel hrequested hbooked
  | yielding => exact ⟨hlevel, fun future hphase => (by cases hphase), waits, hrequested, hbooked⟩
  | done => trivial

/-- **Every pass** begins with the accounts in order. -/
theorem accounted (h : self.OnVirtual host) {cxs : ℕ → Context} {j : ℕ}
    (hmidway : self.traced.Midway cxs ⟨w₀, []⟩ j t state) : Accounted host w₀ t state := by
  -- The start, a pass that goes on, and a pass that leaves a pending poll.
  refine hmidway.rule (I := fun t state => Accounted host w₀ t state) ?_ ?_ ?_
  · obtain ⟨hlevel, hbooked⟩ := Host.started (R := R) (A := A) (O := O) h.now w₀
    exact ⟨hlevel, fun future hphase => (by cases hphase), _, (List.append_nil _).symm, hbooked⟩
  · intro cx state t state' t' hstate hbody
    have hkept := h.kept cx hstate
    rw [hbody] at hkept
    exact hkept
  · intro cx state t run t' hstate hbody
    have hkept := h.kept cx hstate
    rw [hbody] at hkept
    exact hkept.2

/-- The accounts after any sequence of polls. -/
theorem accounts (h : self.OnVirtual host) {cxs : ℕ → Context} {j : ℕ}
    {run : AsyncRun Fut VirtualWait} {result : PollEnd (Output R A O)}
    (hpolled : self.traced.PolledTo cxs ⟨w₀, []⟩ j t run result) :
    let waits := (gapDelays self.timeout t.log).filter (· ≠ .zero)
    (host.clock t.world).waits = (host.clock w₀).waits ++ waits ∧
      ∀ output, result = .ready output → ∃ t₁, self.traced.LastReading cxs ⟨w₀, []⟩ output t₁ ∧
        ((host.clock t₁.world).now < .maxValue →
          host.Reported w₀ waits t₁.world output.2) := by
  intro waits
  have hrequested : requested t.log = waits := (self.fedBack hpolled).requested
  rw [← hrequested]
  have hlands := self.polledTo_lands hpolled
  cases j with
  | zero =>
    cases hpolled with
    | created =>
      refine ⟨(List.append_nil _).symm, fun output hready => ?_⟩
      cases hready
  | succ j =>
    -- The accounts were in order before the last pass of the last poll.
    obtain ⟨t₀, state, hmidway, hbody⟩ := hpolled.last_pass
    have hkept := h.kept (cxs j) (h.accounted hmidway)
    rw [hbody] at hkept
    obtain ⟨hzero, -⟩ | hlands := hlands
    · exact absurd hzero (Nat.succ_ne_zero j)
    cases result with
    | pending =>
      refine ⟨hkept.1.recorded, fun output hready => ?_⟩
      cases hready
    | ready output =>
      obtain ⟨future, outcome, future', t₁, hphase, hpoll, hbooked, hspends, helapsed⟩ := hkept
      refine ⟨(hbooked.spends hspends).recorded, fun output' hready => ?_⟩
      obtain rfl := PollEnd.ready.inj hready
      refine ⟨t₁, ⟨j, t₀, state, future, outcome, future', run, t, hmidway, hbody, hphase, hpoll⟩,
        fun hend => ?_⟩
      rw [← hspends.requested_eq] at hbooked
      refine hbooked.reported hend hrequested ?_ helapsed
      obtain ⟨rounds, hlog, hrounds⟩ := hlands
      rw [← gapDelays_calls, hlog]
      exact hrounds.total_wait
    | panicked => exact hlands.elim

end OnVirtual

end AsyncRetry

/-! ## §6 The guarantee -/

/-- **Time accounting on a virtual clock.**  In a run of either engine on a virtual clock that
all its parts may advance, the waits newly recorded are the non-zero delays of the gaps, in
order.  When the run has finished and the clock has not reached its end by the last reading,
the total wait is the sum of these, and the total elapsed time is the total wait plus what
has been advanced from the start up to that reading. -/
theorem virtual_time {Fut : Type} (host : Host σ) :
    (∀ (self : Retry (Eff σ) R A O), self.OnVirtual host → ∀ (n : ℕ) (w₀ : σ),
      let run := self.traced.runFor n ⟨w₀, []⟩
      let waits := (gapDelays self.timeout run.2.log).filter (· ≠ .zero)
      (host.clock run.2.world).waits = (host.clock w₀).waits ++ waits ∧
        ∀ output, run.1 = .done output → ∃ t₁, self.traced.LastReading ⟨w₀, []⟩ output t₁ ∧
          ((host.clock t₁.world).now < .maxValue →
            host.Reported w₀ waits t₁.world output.2)) ∧
    ∀ (self : AsyncRetry (Eff σ) Fut VirtualWait R A O), self.OnVirtual host →
      ∀ (cxs : ℕ → Context) (w₀ : σ) (j : ℕ) (t : Traced σ R A O) (run : AsyncRun Fut VirtualWait)
        (result : PollEnd (Output R A O)), self.traced.PolledTo cxs ⟨w₀, []⟩ j t run result →
      let waits := (gapDelays self.timeout t.log).filter (· ≠ .zero)
      (host.clock t.world).waits = (host.clock w₀).waits ++ waits ∧
        ∀ output, result = .ready output →
          ∃ t₁, self.traced.LastReading cxs ⟨w₀, []⟩ output t₁ ∧
            ((host.clock t₁.world).now < .maxValue →
              host.Reported w₀ waits t₁.world output.2) :=
  ⟨fun _ h n w₀ => h.accounts n w₀, fun _ h _ _ _ _ _ _ hpolled => h.accounts hpolled⟩

/-- A world that is a virtual clock and the count of its advances. -/
def Host.pair : Host (VirtualClock × ℕ) where
  clock := Prod.fst
  advanced := Prod.snd

/-- The operation that is busy twice, on a virtual clock that it advances. -/
def Retry.busyVirtual : Retry (Eff (VirtualClock × ℕ)) ℕ String (Except String ℕ) where
  op state w := (if state.attempt ≤ 2 then .error "busy" else .ok 7,
    w.1.advance (.ofNanos 3), w.2 + 3)
  classifier := DefaultClassifier
  stop := .attempts 5
  wait := { nextWait := fun state => pure (if state.attempt = 1 then .zero else .ofNanos 5) }
  clock := { now := fun w => (w.1.now, w), wait := fun dur w => ((), w.1.recordWait dur, w.2) }
  hooks := .new
  timeout := some (.ofNanos 10)

theorem Retry.busyVirtual_onVirtual : Retry.busyVirtual.OnVirtual Host.pair where
  parts :=
    { decide := fun outcome w => by
        cases outcome with
        | error last => exact refl_of Host.pair.Advances w
        | ok value => exact refl_of Host.pair.Advances w
      shouldStop := fun _ => refl_of Host.pair.Advances
      nextWait := fun _ => refl_of Host.pair.Advances
      beforeAttempt := fun _ => refl_of Host.pair.Advances
      afterAttempt := fun _ => refl_of Host.pair.Advances
      onExit := fun _ => refl_of Host.pair.Advances }
  op _ _ := ⟨[.ofNanos 3], rfl, rfl⟩
  now _ := ⟨rfl, rfl, rfl⟩
  wait _ _ := ⟨rfl, rfl, rfl⟩

/-- An operation that is pending once, takes three nanoseconds, and is busy twice; on a clock
that it borrows. -/
def AsyncRetry.busyTask (delay : Duration) :
    AsyncRetry (Eff (VirtualClock × ℕ)) (Bool × UInt32) VirtualWait ℕ String (Except String ℕ) where
  op :=
    { callOp := fun state => pure (false, state.attempt)
      poll := fun future _ w =>
        if future.1 then
          ((.ready (if future.2 ≤ 2 then .error "busy" else .ok 7), future),
            (w.1.advance (.ofNanos 3), w.2 + 3))
        else ((.pending, (true, future.2)), w) }
  classifier := DefaultClassifier
  stop := .attempts 5
  wait := { nextWait := fun _ => pure delay }
  clock :=
    { now := fun w => (w.1.now, w)
      waitAsync := fun dur w => (w.1.waitAsync dur, w)
      pollWait := fun future cx w => ((future.poll cx w.1).1, ((future.poll cx w.1).2, w.2)) }
  hooks := .new
  timeout := none
  wakeByRef _ := pure ()

theorem AsyncRetry.busyTask_onVirtual (delay : Duration) :
    (AsyncRetry.busyTask delay).OnVirtual Host.pair where
  parts :=
    { decide := fun outcome w => by
        cases outcome with
        | error last => exact refl_of Host.pair.Advances w
        | ok value => exact refl_of Host.pair.Advances w
      shouldStop := fun _ => refl_of Host.pair.Advances
      nextWait := fun _ => refl_of Host.pair.Advances
      beforeAttempt := fun _ => refl_of Host.pair.Advances
      afterAttempt := fun _ => refl_of Host.pair.Advances
      onExit := fun _ => refl_of Host.pair.Advances }
  callOp _ := refl_of Host.pair.Advances
  poll future _ w := by
    obtain ⟨asked, attempt⟩ := future
    cases asked with
    | true => exact ⟨[.ofNanos 3], rfl, rfl⟩
    | false => exact refl_of Host.pair.Advances w
  wakeByRef _ := refl_of Host.pair.Advances
  now _ := ⟨rfl, rfl, rfl⟩
  waitAsync _ _ := ⟨rfl, rfl, rfl⟩
  pollWait _ _ _ := ⟨rfl, rfl, rfl⟩

/-- Started at a hundred nanoseconds, the run waits once, for as long as the timeout leaves, and
the task waits twice. -/
theorem virtual_time_busyVirtual :
    ((Retry.busyVirtual.traced.runFor 3 ⟨(⟨.ofNanos 100, []⟩, 0), []⟩).1 =
        .done (.ok 7, ⟨3, .ofNanos 13, .ofNanos 4, .returned⟩) ∧
      (Host.pair.clock (Retry.busyVirtual.traced.runFor 3
        ⟨(⟨.ofNanos 100, []⟩, 0), []⟩).2.world).waits = [.ofNanos 4]) ∧
    ∃ t run, (AsyncRetry.busyTask (.ofNanos 5)).traced.PolledTo (fun _ => ⟨0⟩)
        ⟨(⟨.ofNanos 100, []⟩, 0), []⟩ 4 t run
          (.ready (.ok 7, ⟨3, .ofNanos 19, .ofNanos 10, .returned⟩)) ∧
      (Host.pair.clock t.world).waits = [.ofNanos 5, .ofNanos 5] := by
  obtain ⟨hsync, hasync⟩ :=
    @virtual_time (VirtualClock × ℕ) ℕ String (Except String ℕ) (Bool × UInt32) Host.pair
  constructor
  · have hdelays : (gapDelays Retry.busyVirtual.timeout
        (Retry.busyVirtual.traced.runFor 3 ⟨(⟨.ofNanos 100, []⟩, 0), []⟩).2.log).filter
          (· ≠ .zero) = [.ofNanos 4] := by decide +kernel
    have htime := (hsync Retry.busyVirtual Retry.busyVirtual_onVirtual 3 (⟨.ofNanos 100, []⟩, 0)).1
    exact ⟨by decide +kernel, htime.trans (congrArg ([] ++ ·) hdelays)⟩
  · let polls := (AsyncRetry.busyTask (.ofNanos 5)).traced.polls (fun _ => ⟨0⟩) 9
      ⟨(⟨.ofNanos 100, []⟩, 0), []⟩ 4
    have hready : polls.map Prod.fst =
        some (.ready (.ok 7, ⟨3, .ofNanos 19, .ofNanos 10, .returned⟩)) := by decide +kernel
    have hdelays : polls.map (fun polled =>
        (gapDelays none polled.2.2.log).filter (· ≠ .zero)) =
          some [.ofNanos 5, .ofNanos 5] := by decide +kernel
    obtain ⟨⟨result, run, t⟩, hpolls, rfl⟩ := Option.map_eq_some_iff.mp hready
    rw [hpolls] at hdelays
    have hpolled := AsyncRetry.polledTo_of_polls hpolls
    have htime := (hasync _ (AsyncRetry.busyTask_onVirtual (.ofNanos 5)) _ _ _ t run _ hpolled).1
    exact ⟨t, run, hpolled, htime.trans (congrArg ([] ++ ·) (Option.some.inj hdelays))⟩

end Relentless
