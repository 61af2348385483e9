import Relentless.Library.Relational

/-!
# Runs That Agree Until One Ends

Two computations on one world that are the same, except that one of them may end where the
other one goes on.  What the one that ended has left behind is then below what the other
one leaves, in an order that neither goes down in.

- `Eff.Parting` — two results: the same, or one of them has ended below the other
- `Parting.bind`, `Parting.runFor` — sequences and loops part as their parts do
- `Parting.runFor_comparable_le` — one of two such runs is always below the other
-/

namespace Eff

open StateLoop

variable {σ α β : Type} {r : σ → σ → Prop}

/-- Two results: the same, or one of them has ended, with its world below the other's. -/
inductive Parting (ended : α → Prop) (r : σ → σ → Prop) : α × σ → α × σ → Prop where
  | same (x : α × σ) : Parting ended r x x
  | first {x y : α × σ} (hended : ended x.1) (hbelow : r x.2 y.2) : Parting ended r x y
  | second {x y : α × σ} (hended : ended y.1) (hbelow : r y.2 x.2) : Parting ended r x y

/-- A turn that leaves the loop with such a result. -/
def LeavesWith (P : β → Prop) : Turn α β → Prop
  | .again _ => False
  | .done b => P b

namespace Parting

/-- What follows keeps an ended result as it is, and does not go down otherwise. -/
theorem bind [IsTrans σ r] {ended : α → Prop} {ended' : β → Prop} {x y : Eff σ α}
    {f : α → Eff σ β} {w : σ} (h : Parting ended r (x w) (y w))
    (hends : ∀ a w, ended a → ended' (f a w).1 ∧ (f a w).2 = w) (hmoves : ∀ a, Moves r (f a)) :
    Parting ended' r ((x >>= f) w) ((y >>= f) w) := by
  rw [bind_apply, bind_apply]
  generalize x w = x₁ at h ⊢
  generalize y w = y₁ at h ⊢
  cases h with
  | same => exact .same _
  | first hended hbelow =>
    obtain ⟨hended', hworld⟩ := hends x₁.1 x₁.2 hended
    apply Parting.first hended'
    rw [hworld]
    exact trans_of r hbelow (hmoves _ _)
  | second hended hbelow =>
    obtain ⟨hended', hworld⟩ := hends y₁.1 y₁.2 hended
    apply Parting.second hended'
    rw [hworld]
    exact trans_of r hbelow (hmoves _ _)

/-- **Loops whose bodies part** do so themselves. -/
theorem runFor [Std.Refl r] [IsTrans σ r] {ended : β → Prop} {body body' : α → Eff σ (Turn α β)}
    (hbody : ∀ a w, Parting (LeavesWith ended) r (body a w) (body' a w))
    (hmoves : ∀ a, Moves r (body a)) (hmoves' : ∀ a, Moves r (body' a)) (n : ℕ) (a : α) (w : σ) :
    Parting (LeavesWith ended) r (StateLoop.runFor body n a w)
      (StateLoop.runFor body' n a w) := by
  induction n generalizing a w with
  | zero => exact .same _
  | succ n ih =>
    obtain ⟨turn, w₁, hturn⟩ : ∃ turn w₁, body a w = (turn, w₁) := ⟨_, _, rfl⟩
    obtain ⟨turn', w₁', hturn'⟩ : ∃ turn w₁, body' a w = (turn, w₁) := ⟨_, _, rfl⟩
    have hparting := hbody a w
    rw [hturn, hturn'] at hparting
    cases hparting with
    | same =>
      -- Nothing has happened yet that tells them apart.
      cases turn with
      | again next =>
        rw [runFor_succ_again hturn, runFor_succ_again hturn']
        exact ih next w₁
      | done result =>
        rw [runFor_succ_done hturn, runFor_succ_done hturn']
        exact .same _
    | first hended hbelow =>
      cases turn with
      | again next => exact hended.elim
      | done result =>
        rw [runFor_succ_done hturn]
        apply Parting.first hended
        cases turn' with
        | again next' =>
          rw [runFor_succ_again hturn']
          exact trans_of r hbelow (Moves.runFor hmoves' n next' w₁')
        | done result' =>
          rw [runFor_succ_done hturn']
          exact hbelow
    | second hended hbelow =>
      cases turn' with
      | again next' => exact hended.elim
      | done result' =>
        rw [runFor_succ_done hturn']
        apply Parting.second hended
        cases turn with
        | again next =>
          rw [runFor_succ_again hturn]
          exact trans_of r hbelow (Moves.runFor hmoves n next w₁)
        | done result =>
          rw [runFor_succ_done hturn]
          exact hbelow

/-- Loops that have both been left part in what they were left with. -/
theorem of_done {ended : β → Prop} {b b' : β} {w w' : σ}
    (h : Parting (LeavesWith ended) r ((.done b : Turn α β), w) (.done b', w')) :
    Parting ended r (b, w) (b', w') := by
  cases h with
  | same => exact .same _
  | first hended hbelow => exact .first hended hbelow
  | second hended hbelow => exact .second hended hbelow

/-- The worlds of two results are comparable. -/
theorem comparable [Std.Refl r] {ended : α → Prop} {x y : α × σ} (h : Parting ended r x y) :
    r x.2 y.2 ∨ r y.2 x.2 := by
  cases h with
  | same => exact .inl (refl_of r x.2)
  | first hended hbelow => exact .inl hbelow
  | second hended hbelow => exact .inr hbelow

/-- Against a longer run, the same: it goes on from where the shorter one stopped, unless it
was over by then. -/
theorem runFor_comparable_le [Std.Refl r] [IsTrans σ r] {ended : β → Prop}
    {body body' : α → Eff σ (Turn α β)}
    (hbody : ∀ a w, Parting (LeavesWith ended) r (body a w) (body' a w))
    (hmoves : ∀ a, Moves r (body a)) (hmoves' : ∀ a, Moves r (body' a)) {n n' : ℕ} (hle : n ≤ n')
    (a : α) (w : σ) :
    r (StateLoop.runFor body n a w).2 (StateLoop.runFor body' n' a w).2 ∨
      r (StateLoop.runFor body' n' a w).2 (StateLoop.runFor body n a w).2 := by
  obtain ⟨k, rfl⟩ := Nat.exists_eq_add_of_le hle
  have hparting := runFor hbody hmoves hmoves' n a w
  obtain ⟨turn, w₁, hrun⟩ : ∃ turn w₁, StateLoop.runFor body' n a w = (turn, w₁) := ⟨_, _, rfl⟩
  rw [hrun] at hparting
  cases turn with
  | again next =>
    rw [runFor_add hrun]
    have hgrows := Moves.runFor hmoves' k next w₁
    generalize StateLoop.runFor body n a w = ended at hparting ⊢
    cases hparting with
    | same => exact .inl hgrows
    | first hended hbelow => exact .inl (trans_of r hbelow hgrows)
    | second hended hbelow => exact hended.elim
  | done result =>
    rw [runFor_done_mono hle hrun]
    exact hparting.comparable

end Parting

end Eff
