import Relentless.Engine.AsyncTwin
import Relentless.Trace.Polls

/-!
# Every Pending Poll Has a Waker

A poll that returns `Pending` has either handed its waker to an inner future that is not
ready, or has woken its task itself; and it does the latter exactly for a gap of zero
delay, which always ends the poll.

- `Suspends`, `Yields`, `WaitedOut` — how a poll ends, and what comes between two calls
- `PollLog` — what the events of one poll look like
- `no_lost_wakeup` — every poll of every run looks like that
-/

namespace Relentless

open Labelled

variable {σ Fut WaitFut R A O : Type}

/-! ## §1 The events of a poll -/

def Event.wakes? : Event R A O → Option Context
  | .wake cx => some cx
  | _ => none

/-- The wakers that were woken. -/
def wakes (log : List (Event R A O)) : List Context := log.filterMap Event.wakes?

/-- The last inner future that was polled, with the context `cx`, returned `Pending`. -/
def Suspends (cx : Context) (seg : List (Event R A O)) : Prop :=
  ∃ before, seg = before ++ [.opPending cx] ∨ seg = before ++ [.waitPending cx]

/-- The delay of the last gap was zero, and the engine woke its task. -/
def Yields (timeout : Option Duration) (cx : Context) (seg : List (Event R A O)) : Prop :=
  ∃ before state rawDelay, seg = before ++ [.nextWait state rawDelay] ++ [.wake cx] ∧
    clampDelay timeout state.elapsed rawDelay = .zero

/-- A wait for a delay other than zero was begun and returned `Ready`. -/
def WaitedOut (timeout : Option Duration) (cx : Context) (seg : List (Event R A O)) : Prop :=
  ∃ before state rawDelay after, seg = before ++ .nextWait state rawDelay ::
      .wait (clampDelay timeout state.elapsed rawDelay) :: .waitReady cx :: after ∧
    clampDelay timeout state.elapsed rawDelay ≠ .zero

/-- What the events of a poll with the context `cx` look like when it takes a turn. -/
structure PollLog (timeout : Option Duration) (cx : Context)
    (turn : StateLoop.Turn (AsyncRetry.LoopState Fut WaitFut)
      (AsyncRetry.PollResult Fut WaitFut R A O)) (seg : List (Event R A O)) : Prop where
  pending : ∀ run, turn = .done (.pending, run) →
    Xor (Suspends cx seg) (Yields timeout cx seg)
  yields : Yields timeout cx seg →
    (∃ run, turn = .done (.pending, run)) ∧ wakes seg = [cx]
  silent : ¬ Yields timeout cx seg → wakes seg = []
  between : ∀ first state second state' last,
    seg = first ++ .op state :: (second ++ .op state' :: last) → WaitedOut timeout cx second
  zeroEnds : ∀ before state rawDelay after, seg = before ++ .nextWait state rawDelay :: after →
    clampDelay timeout state.elapsed rawDelay = .zero →
      after = [.wake cx] ∧ ∃ run, turn = .done (.pending, run)
  oneOp : (∀ d ∈ gapDelays timeout seg, d = .zero) → (opStates seg).length ≤ 1

/-! ## §2 How a path of gates ends -/

section Gates

variable {timeout : Option Duration} {cx : Context} {gate gate' : Gate} {ev : Event R A O}
  {seg : List (Event R A O)}

/-- The wakers woken on the way to a gate. -/
def Gate.woken (cx : Context) : Gate → List Context
  | .yielded => [cx]
  | _ => []

theorem Gate.Step.woken_eq (h : Gate.Step timeout cx gate ev gate') :
    gate'.woken cx = gate.woken cx ++ ev.wakes?.toList := by
  cases h with
  | quiet _ hgate ev hquiet =>
    cases ev with
    | opPending | waitPending | waitReady | wake | op | nextWait | wait => cases hquiet
    | now | beforeAttempt | outcome | afterAttempt | decide | shouldStop | onExit =>
      exact (List.append_nil _).symm
  | op | wake | wait => rfl
  | opPending gate hgate | zero gate hgate | price gate hgate =>
    cases gate <;> first | rfl | exact hgate.elim
  | waitPending gate hgate | waitReady gate hgate =>
    cases gate <;> first | rfl | exact hgate.elim

/-- The waker of the poll is woken on the way to `yielded`, and nowhere else. -/
theorem Gates.wakes_eq (h : Gates timeout cx .free seg gate) : wakes seg = gate.woken cx :=
  (h.totals fun _ _ _ hstep => hstep.woken_eq).symm

/-- Nothing happens to a poll that has been suspended or has woken its task. -/
theorem Gate.Step.not_ended (h : Gate.Step timeout cx gate ev gate') :
    gate ≠ .yielded ∧ gate ≠ .suspended := by
  cases h with
  | op | wake | wait => exact ⟨nofun, nofun⟩
  | quiet _ hgate | opPending _ hgate | zero _ hgate | price _ hgate =>
    constructor <;> rintro rfl <;> exact hgate
  | waitPending _ hgate | waitReady _ hgate =>
    constructor <;> rintro rfl <;> exact hgate

/-- A poll comes to `yielded` by a zero delay and a wake. -/
theorem Gates.yields (h : Gates timeout cx .free seg .yielded) : Yields timeout cx seg := by
  -- Backwards from the last event: only a wake leads here, and only a zero delay to a wake.
  obtain ⟨before, ev, gate, rfl, hbefore, hlast⟩ := h.last nofun
  cases hlast with
  | quiet _ hgate => exact hgate.elim
  | wake =>
    obtain ⟨before, ev, gate, rfl, -, hlast⟩ := hbefore.last nofun
    cases hlast with
    | quiet _ hgate => exact hgate.elim
    | zero _ hgate state rawDelay hzero => exact ⟨before, state, rawDelay, rfl, hzero⟩

/-- A poll comes to `suspended` by an inner future that is not ready. -/
theorem Gates.suspends (h : Gates timeout cx .free seg .suspended) : Suspends cx seg := by
  obtain ⟨before, ev, gate, rfl, -, hlast⟩ := h.last nofun
  cases hlast with
  | quiet _ hgate => exact hgate.elim
  | opPending => exact ⟨before, .inl rfl⟩
  | waitPending => exact ⟨before, .inr rfl⟩

theorem Gates.eq_of_ended (h : Gates timeout cx gate seg gate')
    (hended : gate = .yielded ∨ gate = .suspended) : gate' = gate := by
  cases h with
  | nil => rfl
  | cons hstep _ =>
    obtain ⟨hyielded, hsuspended⟩ := hstep.not_ended
    rcases hended with h | h
    · exact absurd h hyielded
    · exact absurd h hsuspended

/-- After a zero delay there is only the wake. -/
theorem Gates.of_zero (h : Gates timeout cx .zero seg gate) :
    seg = [] ∧ gate = .zero ∨ seg = [.wake cx] ∧ gate = .yielded := by
  cases h with
  | nil => exact .inl ⟨rfl, rfl⟩
  | cons hwake hrest =>
    cases hwake with
    | quiet _ hgate | opPending _ hgate | zero _ hgate | price _ hgate => exact hgate.elim
    | waitPending _ hgate | waitReady _ hgate => exact hgate.elim
    | wake =>
      cases hrest with
      | nil => exact .inr ⟨rfl, rfl⟩
      | cons hstep _ => exact absurd rfl hstep.not_ended.1

/-- A consultation that yields a zero delay is followed by the wake. -/
theorem Gates.zero_ends {before after : List (Event R A O)} {state : RetryState}
    {rawDelay : Duration}
    (h : Gates timeout cx .free (before ++ .nextWait state rawDelay :: after) gate)
    (hzero : clampDelay timeout state.elapsed rawDelay = .zero) :
    after = [] ∧ gate = .zero ∨ after = [.wake cx] ∧ gate = .yielded := by
  obtain ⟨gate₁, -, hrest⟩ := path_append_iff.mp h
  obtain ⟨gate₂, hstep, hafter⟩ := path_cons_iff.mp hrest
  cases hstep with
  | quiet _ _ _ hquiet => cases hquiet
  | price _ _ _ _ hne => exact absurd hzero hne
  | zero => exact Gates.of_zero hafter

/-- After a delay other than zero, a poll is free again only through the wait for it. -/
theorem Gates.of_priced {delay : Duration} (h : Gates timeout cx (.priced delay) seg .free) :
    ∃ after, seg = .wait delay :: .waitReady cx :: after := by
  cases h with
  | cons hwait hrest =>
    cases hwait with
    | quiet _ hgate | opPending _ hgate | zero _ hgate | price _ hgate => exact hgate.elim
    | waitPending _ hgate | waitReady _ hgate => exact hgate.elim
    | wait =>
      cases hrest with
      | cons hready hafter =>
        cases hready with
        | quiet _ hgate | opPending _ hgate | zero _ hgate | price _ hgate => exact hgate.elim
        | waitPending => cases Gates.eq_of_ended hafter (.inr rfl)
        | waitReady => exact ⟨_, rfl⟩

/-- **From a call of the operation to the next** a poll waits out a delay. -/
theorem Gates.waitedOut (h : Gates timeout cx .started seg .free) : WaitedOut timeout cx seg := by
  -- From `started` a path stays there until it is suspended, yields, or waits for a delay;
  -- and only from the last can it become free again.
  induction seg with
  | nil => cases path_nil_iff.mp h
  | cons ev seg ih =>
    obtain ⟨gate, hstep, hrest⟩ := path_cons_iff.mp h
    cases hstep with
    | quiet =>
      obtain ⟨before, state, rawDelay, after, rfl, hne⟩ := ih hrest
      exact ⟨ev :: before, state, rawDelay, after, rfl, hne⟩
    | opPending => cases Gates.eq_of_ended hrest (.inr rfl)
    | zero =>
      rcases Gates.of_zero hrest with ⟨-, hgate⟩ | ⟨-, hgate⟩ <;> cases hgate
    | price _ _ state rawDelay hne =>
      obtain ⟨after, rfl⟩ := Gates.of_priced hrest
      exact ⟨[], state, rawDelay, after, rfl, hne⟩
    | waitPending _ hgate | waitReady _ hgate => exact hgate.elim

theorem Gates.of_op {state : RetryState} (h : Gates timeout cx gate (.op state :: seg) gate') :
    gate = .free ∧ Gates timeout cx .started seg gate' := by
  obtain ⟨gate₁, hstep, hrest⟩ := path_cons_iff.mp h
  cases hstep with
  | quiet _ _ _ hquiet => cases hquiet
  | op => exact ⟨rfl, hrest⟩

theorem Gates.between {first second last : List (Event R A O)} {state state' : RetryState}
    (h : Gates timeout cx .free (first ++ .op state :: (second ++ .op state' :: last)) gate) :
    WaitedOut timeout cx second := by
  obtain ⟨gate₁, -, hfirst⟩ := path_append_iff.mp h
  -- The second call, too, is made from the free gate.
  obtain ⟨gate₂, hsecond, hlast⟩ := path_append_iff.mp (Gates.of_op hfirst).2
  obtain ⟨rfl, -⟩ := Gates.of_op hlast
  exact Gates.waitedOut hsecond

theorem Event.eq_op {ev : Event R A O} {state : RetryState} (h : ev.opState? = some state) :
    ev = .op state := by
  cases ev with
  | op state' => exact congrArg Event.op (Option.some.inj h)
  | _ => cases h

/-- Without a delay to wait for, there is no second call in a poll. -/
theorem Gates.one_op (h : Gates timeout cx .free seg gate)
    (hzero : ∀ d ∈ gapDelays timeout seg, d = .zero) : (opStates seg).length ≤ 1 := by
  by_contra hmore
  obtain ⟨state, state', rest, hops⟩ : ∃ state state' rest,
      opStates seg = state :: state' :: rest := by
    match hops : opStates seg with
    | [] | [_] => simp [hops] at hmore
    | state :: state' :: rest => exact ⟨state, state', rest, rfl⟩
  -- Between the first two calls a delay was waited out, and it was not zero.
  obtain ⟨first, ev, tail, rfl, -, hev, htail⟩ := List.filterMap_eq_cons_iff.mp hops
  obtain ⟨second, ev', last, rfl, -, hev', -⟩ := List.filterMap_eq_cons_iff.mp htail
  obtain rfl := Event.eq_op hev
  obtain rfl := Event.eq_op hev'
  obtain ⟨before, state₁, rawDelay, after, rfl, hne⟩ := Gates.between h
  apply hne
  apply hzero
  apply List.mem_filterMap.mpr
  exact ⟨.nextWait state₁ rawDelay, by simp, rfl⟩

/-! ## §3 The guarantee -/

variable {turn : StateLoop.Turn (AsyncRetry.LoopState Fut WaitFut)
  (AsyncRetry.PollResult Fut WaitFut R A O)}

theorem PhaseGate.cases {phase : Phase Fut WaitFut} (h : PhaseGate phase gate) :
    gate = .free ∨ gate = .started ∨ gate = .waiting := by
  cases phase with
  | readyToStart | yielding | done => exact .inl h
  | polling future =>
    cases gate with
    | free => exact .inl rfl
    | started => exact .inr (.inl rfl)
    | _ => exact False.elim h
  | sleeping future =>
    cases gate with
    | free => exact .inl rfl
    | waiting => exact .inr (.inr rfl)
    | _ => exact False.elim h

theorem TurnGate.of_yielded (h : TurnGate turn .yielded) :
    ∃ run, turn = .done (.pending, run) := by
  match turn with
  | .again (elapsed, run) => rcases PhaseGate.cases h with h | h | h <;> cases h
  | .done (.pending, run) => exact ⟨run, rfl⟩
  | .done (.ready output, run) => exact h.elim
  | .done (.panicked, run) => cases h

theorem TurnGate.not_zero (h : TurnGate turn .zero) : False := by
  match turn with
  | .again (elapsed, run) => rcases PhaseGate.cases h with h | h | h <;> cases h
  | .done (.pending, run) => rcases h with h | h <;> cases h
  | .done (.ready output, run) => exact h
  | .done (.panicked, run) => cases h

/-- A path of gates that fits the turn taken is the log of a poll. -/
theorem Gates.pollLog (h : Gates timeout cx .free seg gate) (hturn : TurnGate turn gate) :
    PollLog timeout cx turn seg := by
  -- How the log ends says at which gate the poll has stopped, ...
  have hyields : Yields timeout cx seg → gate = .yielded := by
    rintro ⟨before, state, rawDelay, rfl, hzero⟩
    rw [List.append_assoc] at h
    rcases Gates.zero_ends h hzero with ⟨hnil, -⟩ | ⟨-, hgate⟩
    · cases hnil
    · exact hgate
  have hends (before : List (Event R A O)) (ev : Event R A O) (hseg : seg = before ++ [ev]) :
      ∃ gate₁, Gate.Step timeout cx gate₁ ev gate := by
    rw [hseg] at h
    obtain ⟨gate₁, -, hlast⟩ := path_append_iff.mp h
    exact ⟨gate₁, path_singleton_iff.mp hlast⟩
  have hsuspends : Suspends cx seg → gate = .suspended := by
    rintro ⟨before, hseg | hseg⟩ <;> obtain ⟨gate₁, hstep⟩ := hends before _ hseg
    · cases hstep with
      | quiet _ _ _ hquiet => cases hquiet
      | opPending => rfl
    · cases hstep with
      | quiet _ _ _ hquiet => cases hquiet
      | waitPending => rfl
  -- ... and the gate says how the poll has returned.
  constructor
  case pending =>
    rintro run rfl
    rcases hturn with rfl | rfl
    · right
      exact ⟨Gates.yields h, fun hs => by cases hsuspends hs⟩
    · left
      exact ⟨Gates.suspends h, fun hy => by cases hyields hy⟩
  case yields =>
    intro hy
    obtain rfl := hyields hy
    exact ⟨hturn.of_yielded, Gates.wakes_eq h⟩
  case silent =>
    intro hnot
    rw [Gates.wakes_eq h]
    cases gate with
    | yielded => exact absurd (Gates.yields h) hnot
    | _ => rfl
  case between =>
    rintro first state second state' last rfl
    exact Gates.between h
  case zeroEnds =>
    rintro before state rawDelay after rfl hzero
    -- No poll returns between the zero delay and the wake.
    rcases Gates.zero_ends h hzero with ⟨-, rfl⟩ | ⟨hafter, rfl⟩
    · exact hturn.not_zero.elim
    · exact ⟨hafter, hturn.of_yielded⟩
  case oneOp => exact Gates.one_op h

end Gates

/-- **No lost wake-up and no unyielding spin**: whatever the configuration, its futures and
the fields it finds, a poll of `AsyncRun` with any context adds the events of a `PollLog`.
So a pending poll has given its waker to the inner future that it waits for, or has woken
its task once, for a zero delay; and between two calls of the operation it waits out a
delay that is not zero. -/
theorem no_lost_wakeup (self : AsyncRetry (Eff σ) Fut WaitFut R A O) (cx : Context) (n : ℕ)
    (run : AsyncRun Fut WaitFut) (t : Traced σ R A O) :
    ∃ seg, (self.traced.pollFor n cx run t).2.log = t.log ++ seg ∧
      PollLog self.timeout cx (self.traced.pollFor n cx run t).1 seg := by
  obtain ⟨seg, gate, hlog, hgates, hturn⟩ := self.pollFor_gates cx n run t
  exact ⟨seg, hlog, hgates.pollLog hturn⟩

/-- The first poll of a run hands its waker to the operation that it waits for, and wakes nobody. -/
theorem no_lost_wakeup_busyTwice :
    ∃ seg, ((AsyncRetry.busyTwice none).traced.pollFor 9 ⟨1⟩ .intoRun ⟨0, []⟩).2.log = [] ++ seg ∧
      Suspends ⟨1⟩ seg ∧ wakes seg = [] := by
  obtain ⟨seg, hlog, hpoll⟩ :=
    no_lost_wakeup (AsyncRetry.busyTwice none) ⟨1⟩ 9 .intoRun ⟨0, []⟩
  have hsilent : wakes seg = [] := by
    have hnone : wakes
        ((AsyncRetry.busyTwice none).traced.pollFor 9 ⟨1⟩ .intoRun ⟨0, []⟩).2.log = [] := by
      decide +kernel
    rw [hlog] at hnone
    exact hnone
  -- A poll that yields wakes its task.
  have hgoes : ¬ Yields none ⟨1⟩ seg := by
    intro hyields
    have hwoken := (hpoll.yields hyields).2
    rw [hsilent] at hwoken
    cases hwoken
  rcases hpoll.pending _ rfl with ⟨hsuspends, -⟩ | ⟨hyields, -⟩
  · exact ⟨seg, hlog, hsuspends, hsilent⟩
  · exact absurd hyields hgoes

end Relentless
