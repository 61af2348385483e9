import Mathlib.Algebra.BigOperators.Group.Finset.Basic
import Relentless.Clock.Virtual

/-!
# Sessions on a Virtual Clock

What comes of a `VirtualClock` in any interleaving of advances, sync waits, and the
creation, polls and drops of wait futures, of which any number may be outstanding.

- `ClockSession` — the clock, the futures created on it, and the answers of the polls
- `effects` — the waits that a history performs, in the order they take effect
- `Tracks` — what a history says about the session it leads to
- `virtual_clock_sessions` — the guarantee
-/

namespace Relentless

/-! ## §1 Sessions -/

/-- What is done with a virtual clock.  The futures go by the order of their creation. -/
inductive ClockAction where
  | advance (dur : Duration)
  | wait (dur : Duration)
  | waitAsync (dur : Duration)
  | poll (future : ℕ) (cx : Context)
  | drop (future : ℕ)
  deriving DecidableEq

/-- A clock, the futures created on it, without the dropped ones, and what the polls so far
have returned. -/
structure ClockSession where
  clock : VirtualClock
  futures : List (Option VirtualWait)
  answers : List (Poll Unit)
  deriving DecidableEq

namespace ClockSession

def start (clock : VirtualClock) : ClockSession := { clock, futures := [], answers := [] }

/-- One action.  A future that does not exist, or not any more, cannot be polled or dropped. -/
def step (self : ClockSession) : ClockAction → Option ClockSession
  | .advance dur => some { self with clock := self.clock.advance dur }
  | .wait dur => some { self with clock := (VirtualClock.syncClock.wait dur self.clock).2 }
  | .waitAsync dur =>
    let (future, clock) := VirtualClock.asyncClock.waitAsync dur self.clock
    some { self with clock, futures := self.futures ++ [some future] }
  | .poll i cx =>
    match self.futures[i]? with
    | some (some future) =>
      let ((answer, future), clock) := VirtualClock.asyncClock.pollWait future cx self.clock
      some
        { clock
          futures := self.futures.set i (some future)
          answers := self.answers ++ [answer] }
    | _ => none
  | .drop i =>
    match self.futures[i]? with
    | some (some _) => some { self with futures := self.futures.set i none }
    | _ => none

/-- A sequence of actions, if each of them can be done. -/
def run (self : ClockSession) (actions : List ClockAction) : Option ClockSession :=
  actions.foldlM step self

theorem run_snoc (session : ClockSession) (actions : List ClockAction) (action : ClockAction) :
    session.run (actions ++ [action]) = (session.run actions).bind (·.step action) := by
  unfold run
  rw [List.foldlM_append]
  simp

/-- A poll finds its future alive. -/
theorem step_poll {session session' : ClockSession} {i : ℕ} {cx : Context}
    (h : session.step (.poll i cx) = some session') :
    ∃ future, session.futures[i]? = some (some future) ∧
      session' =
        { clock := (future.poll cx session.clock).2
          futures := session.futures.set i (some (future.poll cx session.clock).1.2)
          answers := session.answers ++ [(future.poll cx session.clock).1.1] } := by
  rw [step] at h
  split at h
  case h_1 future hfuture => exact ⟨future, hfuture, (Option.some.inj h).symm⟩
  case h_2 => cases h

/-- So does a drop. -/
theorem step_drop {session session' : ClockSession} {i : ℕ}
    (h : session.step (.drop i) = some session') :
    ∃ future, session.futures[i]? = some (some future) ∧
      session' = { session with futures := session.futures.set i none } := by
  rw [step] at h
  split at h
  case h_1 future hfuture => exact ⟨future, hfuture, (Option.some.inj h).symm⟩
  case h_2 => cases h

end ClockSession

/-! ## §2 Histories -/

/-- The durations that were passed to `advance`. -/
def advances (actions : List ClockAction) : List Duration :=
  actions.filterMap fun
    | .advance dur => some dur
    | _ => none

/-- The durations of the sync waits. -/
def syncWaits (actions : List ClockAction) : List Duration :=
  actions.filterMap fun
    | .wait dur => some dur
    | _ => none

/-- The durations of the futures, in the order of their creation. -/
def created (actions : List ClockAction) : List Duration :=
  actions.filterMap fun
    | .waitAsync dur => some dur
    | _ => none

/-- The futures that were polled, once for every poll. -/
def polledFutures (actions : List ClockAction) : List ℕ :=
  actions.filterMap fun
    | .poll i _ => some i
    | _ => none

def droppedFutures (actions : List ClockAction) : List ℕ :=
  actions.filterMap fun
    | .drop i => some i
    | _ => none

/-- The wait that an action performs: a sync wait, or the first poll of a future. -/
def effect (before : List ClockAction) : ClockAction → Option Duration
  | .wait dur => some dur
  | .poll i _ => if i ∈ polledFutures before then none else (created before)[i]?
  | _ => none

/-- The waits that actions perform, in the order they take effect. -/
def effects (before : List ClockAction) : List ClockAction → List Duration
  | [] => []
  | action :: rest => (effect before action).toList ++ effects (before ++ [action]) rest

theorem effects_snoc (before actions : List ClockAction) (action : ClockAction) :
    effects before (actions ++ [action]) =
      effects before actions ++ (effect (before ++ actions) action).toList := by
  -- By induction from the front: each action is weighed after those before it.
  induction actions generalizing before with
  | nil => rw [List.nil_append, effects, effects, effects, List.append_nil, List.append_nil,
      List.nil_append]
  | cons first actions ih =>
    rw [List.cons_append, effects, effects, ih, List.append_assoc, List.append_assoc,
      List.singleton_append]

/-- The duration of a future. -/
def durationOf (actions : List ClockAction) (i : ℕ) : Duration :=
  (created actions)[i]?.getD .zero

/-- The durations of the futures polled at least once, each counted once. -/
def polledNanos (actions : List ClockAction) : ℕ :=
  ∑ i ∈ (polledFutures actions).toFinset, (durationOf actions i).nanos

/-- All advances, all sync waits, and the futures polled at least once. -/
def virtualNanos (actions : List ClockAction) : ℕ :=
  ((advances actions).map Duration.nanos).sum + ((syncWaits actions).map Duration.nanos).sum +
    polledNanos actions

/-- Only the futures that were created and polled matter for this. -/
theorem polledNanos_congr {actions actions' : List ClockAction}
    (hcreated : created actions' = created actions)
    (hpolled : polledFutures actions' = polledFutures actions) :
    polledNanos actions' = polledNanos actions := by
  have hdurations : durationOf actions' = durationOf actions := by
    funext i
    rw [durationOf, durationOf, hcreated]
  rw [polledNanos, polledNanos, hpolled, hdurations]

/-- Two histories that say the same of all futures. -/
structure SameFutures (actions actions' : List ClockAction) : Prop where
  created : created actions' = created actions
  polled : polledFutures actions' = polledFutures actions
  dropped : droppedFutures actions' = droppedFutures actions

namespace SameFutures

theorem advance (actions : List ClockAction) (dur : Duration) :
    SameFutures actions (actions ++ [.advance dur]) where
  created := by simp [Relentless.created]
  polled := by simp [polledFutures]
  dropped := by simp [droppedFutures]

theorem wait (actions : List ClockAction) (dur : Duration) :
    SameFutures actions (actions ++ [.wait dur]) where
  created := by simp [Relentless.created]
  polled := by simp [polledFutures]
  dropped := by simp [droppedFutures]

end SameFutures

/-! ## §3 What a history says -/

/-- The session that a history leads to. -/
structure Tracks (origin : VirtualClock) (actions : List ClockAction) (session : ClockSession) :
    Prop where
  futures : ∀ i, session.futures[i]? = (created actions)[i]?.map fun dur =>
    if i ∈ droppedFutures actions then none
    else some ⟨dur, decide (i ∈ polledFutures actions)⟩
  polled_lt : ∀ i ∈ polledFutures actions, i < (created actions).length
  dropped_lt : ∀ i ∈ droppedFutures actions, i < (created actions).length
  now : session.clock.now = .ofNanos (origin.now.nanos + virtualNanos actions)
  waits : session.clock.waits = origin.waits ++ effects [] actions
  answers : session.answers = List.replicate (polledFutures actions).length (.ready ())

namespace Tracks

variable {origin : VirtualClock} {actions : List ClockAction} {session session' : ClockSession}

theorem start : Tracks origin [] (.start origin) where
  futures _ := rfl
  polled_lt _ h := absurd h List.not_mem_nil
  dropped_lt _ h := absurd h List.not_mem_nil
  now := (Duration.ofNanos_nanos origin.now).symm
  waits := (List.append_nil origin.waits).symm
  answers := rfl

/-- A future that is alive. -/
theorem alive (h : Tracks origin actions session) {i : ℕ} {future : VirtualWait}
    (hfuture : session.futures[i]? = some (some future)) :
    ∃ dur, (created actions)[i]? = some dur ∧ i ∉ droppedFutures actions ∧
      future = ⟨dur, decide (i ∈ polledFutures actions)⟩ := by
  rw [h.futures i] at hfuture
  obtain ⟨dur, hdur, hlive⟩ := Option.map_eq_some_iff.mp hfuture
  -- A future that was dropped is not there any more.
  split at hlive
  case isTrue => cases hlive
  case isFalse hdropped => exact ⟨dur, hdur, hdropped, (Option.some.inj hlive).symm⟩

theorem length_futures (h : Tracks origin actions session) :
    session.futures.length = (created actions).length := by
  apply le_antisymm
  · rw [← List.getElem?_eq_none_iff, h.futures, List.getElem?_eq_none le_rfl]
    rfl
  · have hend := h.futures session.futures.length
    rw [List.getElem?_eq_none le_rfl] at hend
    exact List.getElem?_eq_none_iff.mp (Option.map_eq_none_iff.mp hend.symm)

/-- A future that is polled for the first time brings its duration into the sum. -/
theorem polledNanos_first {i : ℕ} (hfirst : i ∉ polledFutures actions) (cx : Context) :
    polledNanos (actions ++ [.poll i cx]) = polledNanos actions + (durationOf actions i).nanos := by
  -- The set of polled futures gains this one, and no duration changes.
  have hpolled : (polledFutures (actions ++ [.poll i cx])).toFinset =
      insert i (polledFutures actions).toFinset := by
    ext k
    simp [polledFutures]
  have hdurations : durationOf (actions ++ [.poll i cx]) = durationOf actions := by
    funext k
    simp [durationOf, created]
  rw [polledNanos, hpolled, hdurations, Finset.sum_insert (by simpa using hfirst), Nat.add_comm]
  rfl

/-- A future that was polled before does not. -/
theorem polledNanos_again {i : ℕ} (hagain : i ∈ polledFutures actions) (cx : Context) :
    polledNanos (actions ++ [.poll i cx]) = polledNanos actions := by
  have hpolled : (polledFutures (actions ++ [.poll i cx])).toFinset =
      (polledFutures actions).toFinset := by
    ext k
    -- It is among those that were polled already.
    have hinsert : (k ∈ polledFutures actions ∨ k = i) ↔ k ∈ polledFutures actions :=
      or_iff_left_of_imp fun hk => hk ▸ hagain
    simpa [polledFutures] using hinsert
  have hdurations : durationOf (actions ++ [.poll i cx]) = durationOf actions := by
    funext k
    simp [durationOf, created]
  rw [polledNanos, hpolled, hdurations]
  rfl

/-- Neither does one that is only created. -/
theorem polledNanos_waitAsync (h : Tracks origin actions session) (dur : Duration) :
    polledNanos (actions ++ [.waitAsync dur]) = polledNanos actions := by
  have hpolled : polledFutures (actions ++ [.waitAsync dur]) = polledFutures actions := by
    simp [polledFutures]
  have hcreated : created (actions ++ [.waitAsync dur]) = created actions ++ [dur] := by
    simp [created]
  rw [polledNanos, hpolled]
  -- A future that was polled is older than the new one, so its duration is looked up as before.
  refine Finset.sum_congr rfl fun i hi => ?_
  have hlt : i < (created actions).length := h.polled_lt i (List.mem_toFinset.mp hi)
  unfold durationOf
  rw [hcreated, List.getElem?_append_left hlt]

/-- A history that says the same of all futures tracks a session with the same futures. -/
theorem sameFutures (h : Tracks origin actions session) {actions' : List ClockAction}
    (hsame : SameFutures actions actions') {clock : VirtualClock}
    (hnow : clock.now = .ofNanos (origin.now.nanos + virtualNanos actions'))
    (hwaits : clock.waits = origin.waits ++ effects [] actions') :
    Tracks origin actions' { session with clock } where
  futures i := by
    rw [hsame.created, hsame.polled, hsame.dropped]
    exact h.futures i
  polled_lt := by
    rw [hsame.created, hsame.polled]
    exact h.polled_lt
  dropped_lt := by
    rw [hsame.created, hsame.dropped]
    exact h.dropped_lt
  now := hnow
  waits := hwaits
  answers := by
    rw [hsame.polled]
    exact h.answers

theorem advance (h : Tracks origin actions session) (dur : Duration) :
    Tracks origin (actions ++ [.advance dur])
      { session with clock := session.clock.advance dur } := by
  have hsame := SameFutures.advance actions dur
  have hsum : virtualNanos (actions ++ [.advance dur]) = virtualNanos actions + dur.nanos := by
    rw [virtualNanos, virtualNanos, polledNanos_congr hsame.created hsame.polled]
    simp [advances, syncWaits]
    omega
  apply h.sameFutures hsame
  · rw [hsum, ← Nat.add_assoc]
    exact VirtualClock.now_advance_of_eq h.now dur
  · rw [effects_snoc, VirtualClock.waits_advance, h.waits]
    exact congrArg (origin.waits ++ ·) (List.append_nil _).symm

theorem wait (h : Tracks origin actions session) (dur : Duration) :
    Tracks origin (actions ++ [.wait dur])
      { session with clock := session.clock.recordWait dur } := by
  have hsame := SameFutures.wait actions dur
  have hsum : virtualNanos (actions ++ [.wait dur]) = virtualNanos actions + dur.nanos := by
    rw [virtualNanos, virtualNanos, polledNanos_congr hsame.created hsame.polled]
    simp [advances, syncWaits]
    omega
  apply h.sameFutures hsame
  · rw [hsum, ← Nat.add_assoc]
    exact VirtualClock.now_advance_of_eq h.now dur
  · rw [effects_snoc, VirtualClock.waits_recordWait, h.waits, List.append_assoc]
    rfl

theorem waitAsync (h : Tracks origin actions session) (dur : Duration) :
    Tracks origin (actions ++ [.waitAsync dur])
      { session with futures := session.futures ++ [some ⟨dur, false⟩] } where
  futures i := by
    have hcreated : created (actions ++ [.waitAsync dur]) = created actions ++ [dur] := by
      simp [created]
    have hpolled : polledFutures (actions ++ [.waitAsync dur]) = polledFutures actions := by
      simp [polledFutures]
    have hdropped : droppedFutures (actions ++ [.waitAsync dur]) = droppedFutures actions := by
      simp [droppedFutures]
    have hlength : session.futures.length = (created actions).length := h.length_futures
    rw [hcreated, hpolled, hdropped]
    -- Older futures, the new one, and none.
    rcases Nat.lt_trichotomy i (created actions).length with hlt | rfl | hgt
    · rw [List.getElem?_append_left (by omega), List.getElem?_append_left hlt]
      exact h.futures i
    · -- Nothing has been done yet with the future that is created here.
      have hnew : (created actions).length ∉ polledFutures actions := fun hmem =>
        absurd (h.polled_lt _ hmem) (Nat.lt_irrefl _)
      have hkept : (created actions).length ∉ droppedFutures actions := fun hmem =>
        absurd (h.dropped_lt _ hmem) (Nat.lt_irrefl _)
      rw [← hlength, List.getElem?_concat_length, hlength, List.getElem?_concat_length,
        Option.map_some, if_neg hkept, decide_eq_false hnew]
    · rw [List.getElem?_eq_none (by simp; omega), List.getElem?_eq_none (by simp; omega)]
      rfl
  polled_lt i hi := by
    have hlt := h.polled_lt i (by simpa [polledFutures] using hi)
    simp [created] at hlt ⊢
    omega
  dropped_lt i hi := by
    have hlt := h.dropped_lt i (by simpa [droppedFutures] using hi)
    simp [created] at hlt ⊢
    omega
  now := by
    have hsum : virtualNanos (actions ++ [.waitAsync dur]) = virtualNanos actions := by
      simp only [virtualNanos, h.polledNanos_waitAsync]
      simp [advances, syncWaits]
    rw [hsum]
    exact h.now
  waits := by
    rw [effects_snoc]
    simpa [effect] using h.waits
  answers := by simpa [polledFutures] using h.answers

/-- A history that says something new of one future only. -/
theorem futures_set (h : Tracks origin actions session) {actions' : List ClockAction} {i : ℕ}
    {dur : Duration} {future : Option VirtualWait} (hdur : (created actions)[i]? = some dur)
    (hcreated : created actions' = created actions)
    (hothers : ∀ k ≠ i, (k ∈ polledFutures actions' ↔ k ∈ polledFutures actions) ∧
      (k ∈ droppedFutures actions' ↔ k ∈ droppedFutures actions))
    (hfuture : future = if i ∈ droppedFutures actions' then none
      else some ⟨dur, decide (i ∈ polledFutures actions')⟩) (k : ℕ) :
    (session.futures.set i future)[k]? = (created actions')[k]?.map fun dur =>
      if k ∈ droppedFutures actions' then none
      else some ⟨dur, decide (k ∈ polledFutures actions')⟩ := by
  have hlt : i < (created actions).length := (List.getElem?_eq_some_iff.mp hdur).1
  rw [hcreated, List.getElem?_set, h.length_futures]
  -- At the place that is set the new entry is found, and elsewhere the old one.
  by_cases hk : i = k
  · subst hk
    rw [if_pos rfl, if_pos hlt, hdur, Option.map_some, hfuture]
  · obtain ⟨hpolled, hdropped⟩ := hothers k (Ne.symm hk)
    rw [if_neg hk, h.futures k]
    simp only [hpolled, hdropped]

theorem poll (h : Tracks origin actions session) {i : ℕ} {cx : Context} {dur : Duration}
    (hdur : (created actions)[i]? = some dur) (hlive : i ∉ droppedFutures actions) :
    let future : VirtualWait := ⟨dur, decide (i ∈ polledFutures actions)⟩
    Tracks origin (actions ++ [.poll i cx])
      { clock := (future.poll cx session.clock).2
        futures := session.futures.set i (some (future.poll cx session.clock).1.2)
        answers := session.answers ++ [(future.poll cx session.clock).1.1] } := by
  intro future
  have hcreated : created (actions ++ [.poll i cx]) = created actions := by simp [created]
  have hpolled : polledFutures (actions ++ [.poll i cx]) = polledFutures actions ++ [i] := by
    simp [polledFutures]
  have hdropped : droppedFutures (actions ++ [.poll i cx]) = droppedFutures actions := by
    simp [droppedFutures]
  have hlt : i < (created actions).length := (List.getElem?_eq_some_iff.mp hdur).1
  have hduration : durationOf actions i = dur := by
    rw [durationOf, hdur, Option.getD_some]
  -- A poll is ready whether or not it is the first one; only the first one moves the clock.
  have hanswer : (future.poll cx session.clock).1 = (.ready (), ⟨dur, true⟩) := by
    by_cases hagain : i ∈ polledFutures actions
    · simp [future, hagain, VirtualWait.poll_again]
    · simp [future, hagain, VirtualWait.poll_first]
  refine
    { futures := h.futures_set hdur hcreated (fun k hk => ?_) ?_
      polled_lt := ?_
      dropped_lt := by rw [hcreated, hdropped]; exact h.dropped_lt
      now := ?_
      waits := ?_
      answers := ?_ }
  · rw [hpolled, hdropped]
    simp [hk]
  · rw [hanswer, hpolled, hdropped, if_neg hlive]
    simp
  · rw [hcreated, hpolled]
    intro k hk
    rcases List.mem_append.mp hk with hk | hk
    · exact h.polled_lt k hk
    · rwa [List.mem_singleton.mp hk]
  -- The time that is shown: a further poll adds nothing to it, and the first one its duration.
  · by_cases hagain : i ∈ polledFutures actions
    · have hsum : virtualNanos (actions ++ [.poll i cx]) = virtualNanos actions := by
        simp only [virtualNanos, polledNanos_again hagain]
        simp [advances, syncWaits]
      simpa [future, hagain, VirtualWait.poll_again, hsum] using h.now
    · have hsum : virtualNanos (actions ++ [.poll i cx]) = virtualNanos actions + dur.nanos := by
        simp only [virtualNanos, polledNanos_first hagain, hduration]
        simp [advances, syncWaits]
        omega
      have hnow := VirtualClock.now_advance_of_eq h.now dur
      simpa [future, hagain, VirtualWait.poll_first, hsum, Nat.add_assoc] using hnow
  -- The recorded waits, in the same two cases.
  · rw [effects_snoc, List.nil_append]
    by_cases hagain : i ∈ polledFutures actions
    · simpa [future, hagain, VirtualWait.poll_again, effect] using h.waits
    · simp [future, hagain, VirtualWait.poll_first, effect, h.waits, hdur]
  · rw [hanswer, hpolled, h.answers, List.length_append, List.length_singleton,
      List.replicate_succ']

theorem drop (h : Tracks origin actions session) {i : ℕ} {dur : Duration}
    (hdur : (created actions)[i]? = some dur) :
    Tracks origin (actions ++ [.drop i])
      { session with futures := session.futures.set i none } := by
  have hcreated : created (actions ++ [.drop i]) = created actions := by simp [created]
  have hpolled : polledFutures (actions ++ [.drop i]) = polledFutures actions := by
    simp [polledFutures]
  have hdropped : droppedFutures (actions ++ [.drop i]) = droppedFutures actions ++ [i] := by
    simp [droppedFutures]
  have hlt : i < (created actions).length := (List.getElem?_eq_some_iff.mp hdur).1
  refine
    { futures := h.futures_set hdur hcreated (fun k hk => ?_) ?_
      polled_lt := by rw [hcreated, hpolled]; exact h.polled_lt
      dropped_lt := ?_
      now := ?_
      waits := ?_
      answers := by rw [hpolled]; exact h.answers }
  · rw [hpolled, hdropped]
    simp [hk]
  · rw [hdropped]
    simp
  · rw [hcreated, hdropped]
    intro k hk
    rcases List.mem_append.mp hk with hk | hk
    · exact h.dropped_lt k hk
    · rwa [List.mem_singleton.mp hk]
  · have hsum : virtualNanos (actions ++ [.drop i]) = virtualNanos actions := by
      rw [virtualNanos, virtualNanos, polledNanos_congr hcreated hpolled]
      simp [advances, syncWaits]
    rw [hsum]
    exact h.now
  · rw [effects_snoc]
    simpa [effect] using h.waits

/-- **One action** keeps track. -/
theorem step (h : Tracks origin actions session) {action : ClockAction}
    (hstep : session.step action = some session') :
    Tracks origin (actions ++ [action]) session' := by
  cases action with
  | advance dur =>
    obtain rfl := Option.some.inj hstep
    exact h.advance dur
  | wait dur =>
    obtain rfl := Option.some.inj hstep
    exact h.wait dur
  | waitAsync dur =>
    obtain rfl := Option.some.inj hstep
    exact h.waitAsync dur
  | poll i cx =>
    obtain ⟨future, hfuture, rfl⟩ := ClockSession.step_poll hstep
    obtain ⟨dur, hdur, hlive, rfl⟩ := h.alive hfuture
    exact h.poll hdur hlive
  | drop i =>
    obtain ⟨future, hfuture, rfl⟩ := ClockSession.step_drop hstep
    obtain ⟨dur, hdur, -⟩ := h.alive hfuture
    exact h.drop hdur

/-- **A whole session** is tracked by its history. -/
theorem run {actions : List ClockAction}
    (h : (ClockSession.start origin).run actions = some session) :
    Tracks origin actions session := by
  -- By induction on the history from its end, where the session takes its step.
  induction actions using List.reverseRecOn generalizing session with
  | nil =>
    obtain rfl := Option.some.inj h
    exact start
  | append_singleton actions action ih =>
    rw [ClockSession.run_snoc] at h
    obtain ⟨before, hbefore, hstep⟩ := Option.bind_eq_some_iff.mp h
    exact (ih hbefore).step hstep

end Tracks

/-! ## §4 The guarantee -/

/-- The actions that change nothing: creating a future, dropping one, and polling one again. -/
def ClockAction.Idle (before : List ClockAction) : ClockAction → Prop
  | .waitAsync _ => True
  | .drop _ => True
  | .poll i _ => i ∈ polledFutures before
  | _ => False

/-- What one action does to the clock. -/
theorem Tracks.clock_step {origin : VirtualClock} {actions : List ClockAction}
    {session session' : ClockSession} (h : Tracks origin actions session) {action : ClockAction}
    (hstep : session.step action = some session') :
    session.clock.now ≤ session'.clock.now ∧
      (action.Idle actions → session'.clock = session.clock) := by
  cases action with
  | advance dur =>
    obtain rfl := Option.some.inj hstep
    exact ⟨session.clock.now_le_advance dur, False.elim⟩
  | wait dur =>
    obtain rfl := Option.some.inj hstep
    exact ⟨session.clock.now_le_advance dur, False.elim⟩
  | waitAsync dur =>
    obtain rfl := Option.some.inj hstep
    exact ⟨le_rfl, fun _ => rfl⟩
  | poll i cx =>
    obtain ⟨future, hfuture, rfl⟩ := ClockSession.step_poll hstep
    obtain ⟨dur, -, -, rfl⟩ := h.alive hfuture
    -- Only a poll that is the first one of its future changes the clock.
    by_cases hagain : i ∈ polledFutures actions
    · rw [decide_eq_true hagain]
      exact ⟨le_rfl, fun _ => rfl⟩
    · rw [decide_eq_false hagain]
      exact ⟨session.clock.now_le_advance dur, fun hidle => absurd hidle hagain⟩
  | drop i =>
    obtain ⟨future, -, rfl⟩ := ClockSession.step_drop hstep
    exact ⟨le_rfl, fun _ => rfl⟩

/-- **Virtual clock sessions.**  Whatever is done with a virtual clock and any number of its
wait futures, `now` is where it started plus all advances, all sync waits and the futures
polled at least once, each of them once, and saturates; the waits are recorded in the order
they take effect; every poll is ready; and `now` never decreases. -/
theorem virtual_clock_sessions (origin : VirtualClock) (actions : List ClockAction)
    (session : ClockSession) (h : (ClockSession.start origin).run actions = some session) :
    session.clock.now = .ofNanos (origin.now.nanos +
      (((advances actions).map Duration.nanos).sum + ((syncWaits actions).map Duration.nanos).sum +
        ∑ i ∈ (polledFutures actions).toFinset, (durationOf actions i).nanos)) ∧
    session.clock.waits = origin.waits ++ effects [] actions ∧
    session.answers = List.replicate (polledFutures actions).length (.ready ()) ∧
    ∀ action session', session.step action = some session' →
      session.clock.now ≤ session'.clock.now ∧
        (action.Idle actions → session'.clock = session.clock) := by
  have htracks := Tracks.run h
  exact ⟨htracks.now, htracks.waits, htracks.answers, fun action session' => htracks.clock_step⟩

/-- Two futures are outstanding; the second one is polled first, and again, and the third
one never. -/
theorem virtual_clock_sessions_two_futures :
    let actions : List ClockAction :=
      [.waitAsync (.ofNanos 5), .waitAsync (.ofNanos 7), .advance (.ofNanos 2), .poll 1 ⟨0⟩,
        .wait (.ofNanos 1), .poll 1 ⟨0⟩, .waitAsync (.ofNanos 9), .drop 2, .poll 0 ⟨0⟩]
    ∃ session, (ClockSession.start .new).run actions = some session ∧
      session.clock.now = .ofNanos 15 ∧
      session.clock.waits = [.ofNanos 7, .ofNanos 1, .ofNanos 5] := by
  intro actions
  refine ⟨_, rfl, ?_⟩
  obtain ⟨hnow, hwaits, -⟩ := virtual_clock_sessions .new actions _ rfl
  exact ⟨hnow.trans (by decide), hwaits.trans (by decide)⟩

end Relentless
