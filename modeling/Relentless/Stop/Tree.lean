import Relentless.Library.Relational
import Relentless.Stop

/-!
# Stop Trees

Stop expressions that `|` and `&` build over leaves of any kind, which may keep state of
their own, and the leaves' consultations as an observer notes them down.

- `StopTree` — the expressions, with `stop` as the strategy that one builds
- `StopTree.shouldStop_apply` — every leaf is asked once, from left to right
- `StopTree.noted` — the same leaves, each noting down its consultations
-/

namespace Relentless

variable {σ ι α : Type}

/-! ## §1 Trees -/

/-- A stop expression over leaves `ι`. -/
inductive StopTree (ι : Type) where
  | leaf (strategy : ι)
  | any (left right : StopTree ι)
  | all (left right : StopTree ι)

namespace StopTree

/-- The leaves, from left to right. -/
def leaves : StopTree ι → List ι
  | .leaf strategy => [strategy]
  | .any left right => left.leaves ++ right.leaves
  | .all left right => left.leaves ++ right.leaves

/-- The strategy that the expression builds. -/
def stop {m : Type → Type} [Monad m] : StopTree (Stop m) → Stop m
  | .leaf strategy => strategy
  | .any left right => .any left.stop right.stop
  | .all left right => .all left.stop right.stop

/-- The boolean formula of the expression, on the answers of its leaves in order. -/
def formula : StopTree ι → List Bool → Bool
  | .leaf _, answers => answers.headD false
  | .any left right, answers =>
    left.formula (answers.take left.leaves.length) ||
      right.formula (answers.drop left.leaves.length)
  | .all left right, answers =>
    left.formula (answers.take left.leaves.length) &&
      right.formula (answers.drop left.leaves.length)

/-- The answers of the leaves, asked from left to right. -/
def ask (state : RetryState) (leaves : List (Stop (Eff σ))) : Eff σ (List Bool) :=
  leaves.mapM fun leaf => leaf.shouldStop state

theorem ask_append (state : RetryState) (leaves leaves' : List (Stop (Eff σ))) (w : σ) :
    ask state (leaves ++ leaves') w =
      ((ask state leaves w).1 ++ (ask state leaves' (ask state leaves w).2).1,
        (ask state leaves' (ask state leaves w).2).2) := by
  unfold ask
  rw [List.mapM_append]
  rfl

theorem ask_singleton (state : RetryState) (leaf : Stop (Eff σ)) (w : σ) :
    ask state [leaf] w = ([(leaf.shouldStop state w).1], (leaf.shouldStop state w).2) := by
  unfold ask
  rw [List.mapM_cons, List.mapM_nil]
  rfl

theorem length_ask (state : RetryState) (leaves : List (Stop (Eff σ))) (w : σ) :
    (ask state leaves w).1.length = leaves.length := by
  induction leaves generalizing w with
  | nil => rfl
  | cons leaf leaves ih =>
    have hsplit := ask_append state [leaf] leaves w
    rw [ask_singleton] at hsplit
    rw [List.singleton_append] at hsplit
    rw [hsplit, List.singleton_append, List.length_cons, List.length_cons, ih]

/-- The formula of a composite splits the answers where its left side ends. -/
theorem take_drop_answers {left : StopTree ι} {answers answers' : List Bool}
    (h : answers.length = left.leaves.length) :
    (answers ++ answers').take left.leaves.length = answers ∧
      (answers ++ answers').drop left.leaves.length = answers' :=
  ⟨List.take_left' h, List.drop_left' h⟩

/-- **Every leaf is asked once**, from left to right and with one state, and the answer is
the formula of theirs. -/
theorem shouldStop_apply (tree : StopTree (Stop (Eff σ))) (state : RetryState) (w : σ) :
    tree.stop.shouldStop state w =
      (tree.formula (ask state tree.leaves w).1, (ask state tree.leaves w).2) := by
  induction tree generalizing w with
  | leaf strategy => rw [leaves, ask_singleton]; rfl
  | any left right ihl ihr =>
    have hlength := length_ask state left.leaves w
    -- The right side is asked in the world that the left side has left.
    show (left.stop.shouldStop state >>= fun answer =>
      right.stop.shouldStop state >>= fun answer' => pure (answer || answer')) w = _
    simp only [Eff.bind_apply, Eff.pure_apply, ihl, ihr, leaves, ask_append, formula,
      (take_drop_answers hlength).1, (take_drop_answers hlength).2]
  | all left right ihl ihr =>
    have hlength := length_ask state left.leaves w
    show (left.stop.shouldStop state >>= fun answer =>
      right.stop.shouldStop state >>= fun answer' => pure (answer && answer')) w = _
    simp only [Eff.bind_apply, Eff.pure_apply, ihl, ihr, leaves, ask_append, formula,
      (take_drop_answers hlength).1, (take_drop_answers hlength).2]

end StopTree

/-! ## §2 Notes -/

/-- What a note says: an attempt got its verdict, or a leaf was consulted. -/
inductive TreeNote where
  | verdict (retried : Bool)
  | consulted (leaf : ℕ) (state : RetryState) (answer : Bool)
  deriving DecidableEq

/-- A world together with the notes taken so far. -/
structure Noted (σ : Type) where
  world : σ
  notes : List TreeNote

/-- The world of one with notes. -/
def Noted.worldPart : Eff.Part σ (Noted σ) where
  get := Noted.world
  put w t := { t with world := w }
  get_put _ _ := rfl

/-- Run a computation on the world, and note nothing. -/
def onNoted (x : Eff σ α) : Eff (Noted σ) α := Noted.worldPart.run x

def note (event : TreeNote) : Eff (Noted σ) Unit :=
  fun t => ((), { t with notes := t.notes ++ [event] })

@[simp] theorem onNoted_apply (x : Eff σ α) (w : σ) (notes : List TreeNote) :
    onNoted x ⟨w, notes⟩ = ((x w).1, ⟨(x w).2, notes⟩) := rfl

@[simp] theorem note_apply (event : TreeNote) (w : σ) (notes : List TreeNote) :
    note event ⟨w, notes⟩ = ((), ⟨w, notes ++ [event]⟩) := rfl

/-- A leaf that notes down its consultations, under the number `i`. -/
def Stop.noted (leaf : Stop (Eff σ)) (i : ℕ) : Stop (Eff (Noted σ)) where
  shouldStop state := do
    let answer ← onNoted (leaf.shouldStop state)
    note (.consulted i state answer)
    return answer

/-- The tree with its leaves noting, numbered from left to right. -/
def StopTree.noted : StopTree (Stop (Eff σ)) → ℕ → StopTree (Stop (Eff (Noted σ)))
  | .leaf strategy, i => .leaf (strategy.noted i)
  | .any left right, i => .any (left.noted i) (right.noted (i + left.leaves.length))
  | .all left right, i => .all (left.noted i) (right.noted (i + left.leaves.length))

/-- The notes of one consultation of leaves numbered from `i` on. -/
def consults (state : RetryState) (i : ℕ) (answers : List Bool) : List TreeNote :=
  answers.mapIdx fun k answer => .consulted (i + k) state answer

theorem consults_append (state : RetryState) (i : ℕ) (answers answers' : List Bool) :
    consults state i (answers ++ answers') =
      consults state i answers ++ consults state (i + answers.length) answers' := by
  unfold consults
  rw [List.mapIdx_append]
  congr 1
  apply List.mapIdx_eq_mapIdx_iff.mpr
  intro k hk
  rw [Nat.add_assoc, Nat.add_comm k]

/-- **The notes of a consultation** are one for each leaf, from left to right. -/
theorem StopTree.noted_shouldStop (tree : StopTree (Stop (Eff σ))) (i : ℕ) (state : RetryState)
    (w : σ) (notes : List TreeNote) :
    (tree.noted i).stop.shouldStop state ⟨w, notes⟩ =
      (tree.formula (ask state tree.leaves w).1,
        ⟨(ask state tree.leaves w).2, notes ++ consults state i (ask state tree.leaves w).1⟩) := by
  induction tree generalizing i w notes with
  | leaf strategy => rw [leaves, ask_singleton]; rfl
  | any left right ihl ihr =>
    have hlength := length_ask state left.leaves w
    show ((left.noted i).stop.shouldStop state >>= fun answer =>
      (right.noted (i + left.leaves.length)).stop.shouldStop state >>= fun answer' =>
        pure (answer || answer')) ⟨w, notes⟩ = _
    simp only [Eff.bind_apply, Eff.pure_apply, ihl, ihr, leaves, ask_append, formula,
      (take_drop_answers hlength).1, (take_drop_answers hlength).2, consults_append, hlength,
      List.append_assoc]
  | all left right ihl ihr =>
    have hlength := length_ask state left.leaves w
    show ((left.noted i).stop.shouldStop state >>= fun answer =>
      (right.noted (i + left.leaves.length)).stop.shouldStop state >>= fun answer' =>
        pure (answer && answer')) ⟨w, notes⟩ = _
    simp only [Eff.bind_apply, Eff.pure_apply, ihl, ihr, leaves, ask_append, formula,
      (take_drop_answers hlength).1, (take_drop_answers hlength).2, consults_append, hlength,
      List.append_assoc]

end Relentless
