import Mathlib.Data.Nat.Basic
import Relentless.Library.Labelled

/-!
# One Future at a Time

Logs of the futures that a driver creates and polls, when it holds at most one of them at
any time and lets go of it only when it is ready.  Futures are numbered in the order of
their creation; what they compute does not matter here.

- `FutureEvent` — a future is created, or polled
- `Slot` — where the driver stands; `Slot.Step` — what it may do next
- `FutureContract` — what holds of every such log
- `Path.polled_of_created` — a future is polled before the driver pauses
-/

namespace Futures

open Labelled (Path path_append_iff path_cons_iff)

variable {κ : Type}

/-! ## §1 Logs -/

/-- A future of some kind is created, or polled with an answer that is ready or not. -/
inductive FutureEvent (κ : Type) where
  | created (kind : κ) (id : ℕ)
  | polled (kind : κ) (id : ℕ) (ready : Bool)
  deriving DecidableEq

/-- The future that the driver holds: none, one that has not been polled yet, or one that
has been polled in vain. -/
inductive Stage (κ : Type) where
  | idle
  | fresh (kind : κ)
  | waiting (kind : κ)
  deriving DecidableEq

/-- The driver holds a future of this kind. -/
def Stage.Holds (kind : κ) : Stage κ → Prop
  | .idle => False
  | .fresh kind' => kind' = kind
  | .waiting kind' => kind' = kind

/-- It holds a future of one kind only. -/
theorem Stage.Holds.unique {kind kind' : κ} {stage : Stage κ} (h : stage.Holds kind)
    (h' : stage.Holds kind') : kind = kind' := by
  cases stage with
  | idle => exact h.elim
  | fresh kind₀ | waiting kind₀ => exact h.symm.trans h'

/-- The driver does not hold a future that it has not polled yet. -/
def Stage.Settled : Stage κ → Prop
  | .fresh _ => False
  | _ => True

/-- The number of futures created so far, and the stage of the last one. -/
structure Slot (κ : Type) where
  created : ℕ
  stage : Stage κ

/-- Before the first future. -/
def Slot.start : Slot κ := { created := 0, stage := .idle }

/-- A future is created only when none is held, and only the one that is held is polled. -/
inductive Slot.Step : Slot κ → FutureEvent κ → Slot κ → Prop where
  | created (n : ℕ) (kind : κ) : Step ⟨n, .idle⟩ (.created kind n) ⟨n + 1, .fresh kind⟩
  | pending (n : ℕ) (kind : κ) (stage : Stage κ) (hholds : stage.Holds kind) :
      Step ⟨n + 1, stage⟩ (.polled kind n false) ⟨n + 1, .waiting kind⟩
  | ready (n : ℕ) (kind : κ) (stage : Stage κ) (hholds : stage.Holds kind) :
      Step ⟨n + 1, stage⟩ (.polled kind n true) ⟨n + 1, .idle⟩

/-- What a log of futures keeps to. -/
structure FutureContract (log : List (FutureEvent κ)) : Prop where
  /-- No two futures have one number. -/
  unique : ∀ before after kind id, log = before ++ .created kind id :: after →
    ∀ kind', .created kind' id ∉ before ∧ .created kind' id ∉ after
  /-- A future that was ready is not polled again. -/
  neverAgain : ∀ before after kind id, log = before ++ .polled kind id true :: after →
    ∀ kind' ready, .polled kind' id ready ∉ after
  /-- A future is created only when all earlier ones have been ready. -/
  oneAtATime : ∀ before after kind id, log = before ++ .created kind id :: after →
    ∀ kind' id', .created kind' id' ∈ before → .polled kind' id' true ∈ before

/-! ## §2 What a step leads to -/

namespace Slot

variable {s s' : Slot κ} {events : List (FutureEvent κ)}

/-- Futures polled from here on are not older than the one that is held. -/
theorem Path.le_polled (h : Path Step s events s') {kind : κ} {id : ℕ} {ready : Bool}
    (hmem : .polled kind id ready ∈ events) :
    s.created ≤ id + 1 ∧ (s.stage = .idle → s.created ≤ id) := by
  induction h with
  | nil s => cases hmem
  | cons hstep hrest ih =>
    cases hstep with
    | created n kind' =>
      have hlater := ih (List.mem_of_ne_of_mem (by simp) hmem)
      exact ⟨Nat.le_of_succ_le hlater.1, fun _ => Nat.le_of_succ_le_succ hlater.1⟩
    | pending n kind' stage hholds | ready n kind' stage hholds =>
      -- Whoever holds a future is not idle, and polls no other one.
      constructor
      · rcases List.mem_cons.mp hmem with heq | hmem
        · obtain ⟨-, rfl, -⟩ := FutureEvent.polled.inj heq
          exact le_rfl
        · exact (ih hmem).1
      · intro hidle
        obtain rfl : stage = .idle := hidle
        exact hholds.elim

/-- Futures created from here on have the next numbers. -/
theorem Path.created_between (h : Path Step s events s') :
    s.created ≤ s'.created ∧ ∀ kind id, .created kind id ∈ events →
      s.created ≤ id ∧ id < s'.created := by
  induction h with
  | nil s => exact ⟨le_rfl, fun kind id hmem => by cases hmem⟩
  | cons hstep hrest ih =>
    obtain ⟨hle, hbetween⟩ := ih
    cases hstep with
    | created n kind' =>
      refine ⟨Nat.le_of_succ_le hle, fun kind id hmem => ?_⟩
      rcases List.mem_cons.mp hmem with heq | hmem
      · obtain ⟨-, rfl⟩ := FutureEvent.created.inj heq
        exact ⟨le_rfl, hle⟩
      · obtain ⟨hlow, hhigh⟩ := hbetween kind id hmem
        exact ⟨Nat.le_of_succ_le hlow, hhigh⟩
    | pending n kind' stage hholds | ready n kind' stage hholds =>
      exact ⟨hle, fun kind id hmem => hbetween kind id (List.mem_of_ne_of_mem (by simp) hmem)⟩

/-- A future that is held stays held until it is ready. -/
theorem Path.held (h : Path Step s events s') {kind : κ} {id : ℕ} (hholds : s.stage.Holds kind)
    (hid : s.created = id + 1) :
    .polled kind id true ∈ events ∨ s'.stage.Holds kind ∧ s'.created = id + 1 := by
  induction h with
  | nil s => exact .inr ⟨hholds, hid⟩
  | cons hstep hrest ih =>
    cases hstep with
    | created n kind' => exact hholds.elim
    | pending n kind' stage hholds' =>
      obtain rfl := hholds.unique hholds'
      exact (ih rfl hid).imp_left (List.mem_cons_of_mem _)
    | ready n kind' stage hholds' =>
      obtain rfl := hholds.unique hholds'
      obtain rfl : n = id := Nat.succ.inj hid
      exact .inl List.mem_cons_self

/-- **A future that was created** has been ready, or is held. -/
theorem Path.ready_or_held (h : Path Step s events s') {kind : κ} {id : ℕ}
    (hmem : .created kind id ∈ events) :
    .polled kind id true ∈ events ∨ s'.stage.Holds kind ∧ s'.created = id + 1 := by
  obtain ⟨before, after, rfl⟩ := List.append_of_mem hmem
  obtain ⟨s₁, -, hrest⟩ := path_append_iff.mp h
  obtain ⟨s₂, hstep, hafter⟩ := path_cons_iff.mp hrest
  cases hstep with
  | created n kind =>
    refine (Path.held hafter rfl rfl).imp_left fun hready => ?_
    exact List.mem_append_right _ (List.mem_cons_of_mem _ hready)

/-- **A future is polled before the driver pauses**, when it does not pause with a future
that it has not polled. -/
theorem Path.polled_of_created (h : Path Step s events s') (hsettled : s'.stage.Settled)
    {kind : κ} {id : ℕ} (hmem : .created kind id ∈ events) :
    ∃ ready, .polled kind id ready ∈ events := by
  obtain ⟨before, after, rfl⟩ := List.append_of_mem hmem
  obtain ⟨s₁, -, hrest⟩ := path_append_iff.mp h
  obtain ⟨s₂, hstep, hafter⟩ := path_cons_iff.mp hrest
  cases hstep with
  | created n kind =>
    cases hafter with
    | nil => exact hsettled.elim
    | cons hpolled hlast =>
      -- The next thing that happens to it is a poll.
      cases hpolled with
      | pending _ kind' _ hholds =>
        obtain rfl : kind = kind' := hholds
        exact ⟨false, List.mem_append_right _ (List.mem_cons_of_mem _ List.mem_cons_self)⟩
      | ready _ kind' _ hholds =>
        obtain rfl : kind = kind' := hholds
        exact ⟨true, List.mem_append_right _ (List.mem_cons_of_mem _ List.mem_cons_self)⟩

/-! ## §3 The contract -/

/-- **Whoever holds one future at a time** keeps the contract. -/
theorem Path.contract {log : List (FutureEvent κ)} (h : Path Step start log s) :
    FutureContract log := by
  constructor
  case unique =>
    rintro before after kind id rfl kind'
    obtain ⟨s₁, hbefore, hrest⟩ := path_append_iff.mp h
    obtain ⟨s₂, hstep, hafter⟩ := path_cons_iff.mp hrest
    cases hstep with
    | created n kind =>
      constructor
      · intro hmem
        exact absurd ((Path.created_between hbefore).2 kind' id hmem).2 (Nat.lt_irrefl id)
      · intro hmem
        exact absurd ((Path.created_between hafter).2 kind' id hmem).1 (Nat.not_succ_le_self id)
  case neverAgain =>
    rintro before after kind id rfl kind' ready hmem
    obtain ⟨s₁, -, hrest⟩ := path_append_iff.mp h
    obtain ⟨s₂, hstep, hafter⟩ := path_cons_iff.mp hrest
    cases hstep with
    | ready n kind stage hholds =>
      exact absurd ((Path.le_polled hafter hmem).2 rfl) (Nat.not_succ_le_self id)
  case oneAtATime =>
    rintro before after kind id rfl kind' id' hmem
    obtain ⟨s₁, hbefore, hrest⟩ := path_append_iff.mp h
    obtain ⟨s₂, hstep, -⟩ := path_cons_iff.mp hrest
    cases hstep with
    | created n kind => exact (Path.ready_or_held hbefore hmem).resolve_right fun hheld => hheld.1

end Slot

end Futures
