import Mathlib.Data.Nat.Basic
import Relentless.Library.Effect

/-!
# Bounded Iteration of State-Passing Loops

A loop whose body may finish or go round again, iterated a bounded number of
times in any monad, and the rules for reasoning about it when the monad threads
a state.  Nothing here knows what the loop does.

- `Turn` — what one execution of the body decides
- `runFor` — at most `n` executions of the body
- `runFor_invariant`, `runFor_keeps` — an invariant of one turn is an invariant of every run
- `runFor_done_split` — a finished run has a last turn
- `runFor_done_mono` — a finished run stays finished with more fuel
- `runFor_guarded_again` — a run that may fail is another run, cut off where a check fails
-/

namespace StateLoop

/-! ## §1 Loops -/

/-- What one execution of a loop body decides: go round again, or leave. -/
inductive Turn (α β : Type) where
  | again (next : α)
  | done (result : β)
  deriving DecidableEq

/-- Change what the next turn starts from. -/
def Turn.mapNext {α α' β : Type} (f : α → α') : Turn α β → Turn α' β
  | .again next => .again (f next)
  | .done result => .done result

@[simp] theorem Turn.mapNext_again {α α' β : Type} (f : α → α') (a : α) :
    (Turn.again a : Turn α β).mapNext f = .again (f a) := rfl

@[simp] theorem Turn.mapNext_done {α α' β : Type} (f : α → α') (b : β) :
    (Turn.done b : Turn α β).mapNext f = .done b := rfl

/-- Change what the loop is left with. -/
def Turn.mapDone {α β β' : Type} (f : β → β') : Turn α β → Turn α β'
  | .again next => .again next
  | .done result => .done (f result)

/-- Whether the loop is left. -/
def Turn.isDone {α β : Type} : Turn α β → Bool
  | .again _ => false
  | .done _ => true

section Run

variable {m : Type → Type} [Monad m] {α β : Type}

/-- At most `n` executions of `body`, starting from `a`. -/
def runFor (body : α → m (Turn α β)) : ℕ → α → m (Turn α β)
  | 0, a => pure (.again a)
  | n + 1, a => do
    match ← body a with
    | .again a' => runFor body n a'
    | .done b => pure (.done b)

theorem runFor_congr {body body' : α → m (Turn α β)} (h : ∀ a, body a = body' a) :
    runFor body = runFor body' := by
  rw [funext h]

end Run

/-! ## §2 Rules for state-passing loops -/

section Rules

variable {σ α β : Type} {body : α → Eff σ (Turn α β)}

@[simp] theorem runFor_zero (a : α) (w : σ) : runFor body 0 a w = (.again a, w) := rfl

theorem runFor_succ_again {a a' : α} {w w' : σ} (h : body a w = (.again a', w')) (n : ℕ) :
    runFor body (n + 1) a w = runFor body n a' w' := by
  simp [runFor, h]

theorem runFor_succ_done {a : α} {b : β} {w w' : σ} (h : body a w = (.done b, w')) (n : ℕ) :
    runFor body (n + 1) a w = (.done b, w') := by
  simp [runFor, h]

/-- Two runs in a row are one longer run. -/
theorem runFor_add {a a' : α} {w w' : σ} {k : ℕ}
    (h : runFor body k a w = (.again a', w')) (n : ℕ) :
    runFor body (k + n) a w = runFor body n a' w' := by
  -- Peel the first turn off both sides.
  induction k generalizing a w with
  | zero =>
    obtain ⟨rfl, rfl⟩ : a = a' ∧ w = w' := by simpa using h
    simp
  | succ k ih =>
    rw [Nat.succ_add_eq_add_succ, Nat.add_succ]
    match hb : body a w with
    | (.again a₁, w₁) =>
      rw [runFor_succ_again hb] at h ⊢
      exact ih h
    | (.done b, w₁) =>
      rw [runFor_succ_done hb] at h
      simp at h

/-- A run of `n + 1` turns that is still going ended its first `n` turns still going. -/
theorem runFor_snoc {a : α} {w : σ} {k : ℕ} {a' : α} {w' : σ}
    (h : runFor body k a w = (.again a', w')) :
    runFor body (k + 1) a w = body a' w' := by
  rw [runFor_add h 1]
  match hb : body a' w' with
  | (.again a₁, w₁) => rw [runFor_succ_again hb, runFor_zero]
  | (.done b, w₁) => rw [runFor_succ_done hb]

theorem runFor_again_pred {a : α} {w : σ} {k : ℕ} {a' : α} {w' : σ}
    (h : runFor body (k + 1) a w = (.again a', w')) :
    ∃ a₁ w₁, runFor body k a w = (.again a₁, w₁) ∧ body a₁ w₁ = (.again a', w') := by
  induction k generalizing a w with
  | zero =>
    exact ⟨a, w, rfl, (runFor_snoc (runFor_zero a w)).symm.trans h⟩
  | succ k ih =>
    match hb : body a w with
    | (.again a₁, w₁) =>
      rw [runFor_succ_again hb] at h
      obtain ⟨a₂, w₂, hrun, hbody⟩ := ih h
      exact ⟨a₂, w₂, by rw [runFor_succ_again hb, hrun], hbody⟩
    | (.done b, w₁) =>
      rw [runFor_succ_done hb] at h
      simp at h

/-- **Invariant rule**: what the body preserves holds whenever the loop goes round. -/
theorem runFor_invariant {I : ℕ → α → σ → Prop} {a : α} {w : σ} (h₀ : I 0 a w)
    (hstep : ∀ k a w a' w', I k a w → body a w = (.again a', w') → I (k + 1) a' w')
    {n : ℕ} {a' : α} {w' : σ} (h : runFor body n a w = (.again a', w')) : I n a' w' := by
  -- The invariant moves with the last turn, so the run is taken apart from its end.
  induction n generalizing a' w' with
  | zero =>
    obtain ⟨rfl, rfl⟩ : a = a' ∧ w = w' := by simpa using h
    exact h₀
  | succ n ih =>
    obtain ⟨a₁, w₁, hrun, hbody⟩ := runFor_again_pred h
    exact hstep n a₁ w₁ a' w' (ih hrun) hbody

/-- **Turn rule**: what every turn hands on holds wherever the run has got to. -/
theorem runFor_keeps {P : Turn α β → σ → Prop}
    (hbody : ∀ a w, P (.again a) w → P (body a w).1 (body a w).2) (n : ℕ) {a : α} {w : σ}
    (h : P (.again a) w) : P (runFor body n a w).1 (runFor body n a w).2 := by
  induction n generalizing a w with
  | zero => exact h
  | succ n ih =>
    have hturn := hbody a w h
    obtain ⟨⟨turn, w'⟩, hrun⟩ : ∃ next, body a w = next := ⟨_, rfl⟩
    rw [hrun] at hturn
    cases turn with
    | again a' =>
      rw [runFor_succ_again hrun]
      exact ih hturn
    | done b =>
      rw [runFor_succ_done hrun]
      exact hturn

/-- **Termination rule**: a measure that every turn lowers as long as it goes on bounds the
number of turns. -/
theorem runFor_ends {P : Turn α β → σ → Prop} {μ : α → ℕ}
    (hbody : ∀ a w, P (.again a) w → P (body a w).1 (body a w).2)
    (hlower : ∀ a w a' w', P (.again a) w → body a w = (.again a', w') → μ a' < μ a)
    {n : ℕ} {a : α} {w : σ} (h : P (.again a) w) (hn : μ a < n) :
    ∃ b w', runFor body n a w = (.done b, w') ∧ P (.done b) w' := by
  induction n generalizing a w with
  | zero => exact absurd hn (Nat.not_lt_zero _)
  | succ n ih =>
    have hturn := hbody a w h
    obtain ⟨⟨turn, w'⟩, hrun⟩ : ∃ next, body a w = next := ⟨_, rfl⟩
    rw [hrun] at hturn
    cases turn with
    | again a' =>
      rw [runFor_succ_again hrun]
      exact ih hturn (Nat.lt_of_lt_of_le (hlower a w a' w' h hrun) (Nat.le_of_lt_succ hn))
    | done b => exact ⟨b, w', runFor_succ_done hrun n, hturn⟩

/-- A finished run has a last turn, reached after fewer turns than the run was given. -/
theorem runFor_done_split {a : α} {w : σ} {n : ℕ} {b : β} {w' : σ}
    (h : runFor body n a w = (.done b, w')) :
    ∃ k < n, ∃ a₁ w₁, runFor body k a w = (.again a₁, w₁) ∧ body a₁ w₁ = (.done b, w') := by
  induction n generalizing a w with
  | zero => simp at h
  | succ n ih =>
    match hb : body a w with
    | (.again a₁, w₁) =>
      rw [runFor_succ_again hb] at h
      obtain ⟨k, hk, a₂, w₂, hrun, hbody⟩ := ih h
      exact ⟨k + 1, by omega, a₂, w₂, by rw [runFor_succ_again hb, hrun], hbody⟩
    | (.done b₁, w₁) =>
      rw [runFor_succ_done hb] at h
      obtain ⟨hb₁, rfl⟩ := Prod.mk.inj h
      obtain rfl := Turn.done.inj hb₁
      exact ⟨0, n.succ_pos, a, w, rfl, hb⟩

/-- A finished run stays finished, and unchanged, with more fuel. -/
theorem runFor_done_mono {a : α} {w : σ} {n k : ℕ} {b : β} {w' : σ} (hnk : n ≤ k)
    (h : runFor body n a w = (.done b, w')) : runFor body k a w = (.done b, w') := by
  induction n generalizing a w k with
  | zero => simp at h
  | succ n ih =>
    obtain ⟨k, rfl⟩ : ∃ j, k = j + 1 := ⟨k - 1, by omega⟩
    match hb : body a w with
    | (.again a₁, w₁) =>
      rw [runFor_succ_again hb] at h ⊢
      exact ih (by omega) h
    | (.done b₁, w₁) =>
      rw [runFor_succ_done hb] at h ⊢
      exact h

theorem runFor_of_isDone {a : α} {w : σ} {n k : ℕ} (hnk : n ≤ k)
    (h : (runFor body n a w).1.isDone = true) : runFor body k a w = runFor body n a w := by
  match hrun : runFor body n a w with
  | (.again a', w') =>
    rw [hrun] at h
    cases h
  | (.done b, w') => exact runFor_done_mono hnk hrun

/-- Fewer turns of a run that is still going are still going. -/
theorem runFor_again_le {a : α} {w : σ} {n k : ℕ} {a' : α} {w' : σ} (hkn : k ≤ n)
    (h : runFor body n a w = (.again a', w')) :
    ∃ a₁ w₁, runFor body k a w = (.again a₁, w₁) := by
  match hr : runFor body k a w with
  | (.again a₁, w₁) => exact ⟨a₁, w₁, rfl⟩
  | (.done b, w₁) =>
    rw [runFor_done_mono hkn hr] at h
    simp at h

end Rules

/-! ## §3 Rules for loops that may fail -/

section Failing

variable {ε σ α β : Type} {body : α → Fallible ε σ (Turn α β)}

theorem runFor_succ_ok_again {a a' : α} {w w' : σ} (h : body a w = (.ok (.again a'), w'))
    (n : ℕ) : runFor body (n + 1) a w = runFor body n a' w' :=
  Fallible.bind_ok h _

theorem runFor_succ_ok_done {a : α} {b : β} {w w' : σ} (h : body a w = (.ok (.done b), w'))
    (n : ℕ) : runFor body (n + 1) a w = (.ok (.done b), w') :=
  Fallible.bind_ok h _

theorem runFor_succ_error {a : α} {e : ε} {w w' : σ} (h : body a w = (.error e, w'))
    (n : ℕ) : runFor body (n + 1) a w = (.error e, w') :=
  Fallible.bind_error h _

/-- A run that has left the loop, or failed, is the same with more fuel. -/
theorem runFor_of_le {a : α} {w : σ} {n k : ℕ} (hnk : n ≤ k)
    (hended : ∀ a' w', runFor body n a w ≠ (.ok (.again a'), w')) :
    runFor body k a w = runFor body n a w := by
  induction n generalizing a w k with
  | zero => exact absurd rfl (hended a w)
  | succ n ih =>
    obtain ⟨k, rfl⟩ : ∃ j, k = j + 1 := ⟨k - 1, by omega⟩
    -- The three ways a turn can end; only one of them needs the fuel.
    rcases hb : body a w with ⟨e | a₁ | b, w₁⟩
    · rw [runFor_succ_error hb, runFor_succ_error hb]
    · rw [runFor_succ_ok_again hb] at hended ⊢
      rw [runFor_succ_ok_again hb]
      exact ih (by omega) hended
    · rw [runFor_succ_ok_done hb, runFor_succ_ok_done hb]

/-- Two runs from one place that both left the loop, or failed, are one run. -/
theorem runFor_ended_unique {a : α} {w : σ} {n k : ℕ}
    (hn : ∀ a' w', runFor body n a w ≠ (.ok (.again a'), w'))
    (hk : ∀ a' w', runFor body k a w ≠ (.ok (.again a'), w')) :
    runFor body n a w = runFor body k a w := by
  rcases Nat.le_total n k with hle | hle
  · exact (runFor_of_le hle hn).symm
  · exact runFor_of_le hle hk

/-- A guarded last turn guards the run. -/
theorem runFor_guarded_done {ok : Prop} {e : ε} {a : α} {b : β} {w w' : σ}
    (h : GuardedBy ok e (body a w) (.done b, w')) (n : ℕ) :
    GuardedBy ok e (runFor body (n + 1) a w) (.done b, w') where
  passes hok := runFor_succ_ok_done (h.passes hok) n
  fails hnot := by
    obtain ⟨w'', herror⟩ := h.fails hnot
    exact ⟨w'', runFor_succ_error herror n⟩

/-- A guarded turn before a guarded run passes both checks, or fails. -/
theorem runFor_guarded_again {ok ok' : Prop} {e : ε} {a a' : α} {w w' : σ} {n : ℕ}
    {x : Turn α β × σ} (h : GuardedBy ok e (body a w) (.again a', w'))
    (hrest : GuardedBy ok' e (runFor body n a' w') x) :
    GuardedBy (ok ∧ ok') e (runFor body (n + 1) a w) x :=
  h.bind hrest

end Failing

end StateLoop
