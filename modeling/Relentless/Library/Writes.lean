import Mathlib.Data.List.Basic

/-!
# Sequences of Writes

A state that is changed step by step, where every step concerns one part of it: what a
part is in the end depends on the steps that concern it, and on their order alone.

- `foldl_last` — a part that is overwritten is what the last such step wrote
- `foldl_gather` — a part that is added to is what the steps added, in order
- `SameOrder` — sequences that agree on the order of the steps of each key
- `foldl_of_sameOrder` — they lead to the same state, when steps of two keys commute
- `foldl_of_sameOrder_of_refines` — or when they refine steps that do
-/

namespace Writes

variable {σ α β γ κ : Type*} {step : σ → α → σ}

/-! ## §1 One part of the state -/

/-- What no step changes stays as it is. -/
theorem foldl_frame {get : σ → β} (hstep : ∀ s a, get (step s a) = get s) (steps : List α)
    (s : σ) : get (steps.foldl step s) = get s := by
  induction steps generalizing s with
  | nil => rfl
  | cons a steps ih => rw [List.foldl_cons, ih, hstep]

/-- What the last step that writes something writes, and otherwise what is there. -/
def last (writes? : α → Option β) (steps : List α) (initial : β) : β :=
  (steps.filterMap writes?).getLast?.getD initial

theorem last_cons (writes? : α → Option β) (a : α) (steps : List α) (initial : β) :
    last writes? (a :: steps) initial = last writes? steps ((writes? a).getD initial) := by
  cases hwrites : writes? a with
  | none => simp [last, hwrites]
  | some value => simp [last, hwrites, List.getLast?_cons]

/-- **The last write wins.** -/
theorem foldl_last {get : σ → β} {writes? : α → Option β}
    (hstep : ∀ s a, get (step s a) = (writes? a).getD (get s)) (steps : List α) (s : σ) :
    get (steps.foldl step s) = last writes? steps (get s) := by
  induction steps generalizing s with
  | nil => rfl
  | cons a steps ih => rw [List.foldl_cons, ih, hstep, last_cons]

/-- **Contributions accumulate.** -/
theorem foldl_gather {get : σ → List γ} {gives? : α → Option γ}
    (hstep : ∀ s a, get (step s a) = get s ++ (gives? a).toList) (steps : List α) (s : σ) :
    get (steps.foldl step s) = get s ++ steps.filterMap gives? := by
  induction steps generalizing s with
  | nil => simp
  | cons a steps ih =>
    rw [List.foldl_cons, ih, hstep]
    cases hgives : gives? a <;> simp [hgives]

/-! ## §2 Reordering -/

/-- A step commutes with a sequence of steps of other keys. -/
theorem foldl_comm {key : α → κ}
    (hcomm : ∀ s a b, key a ≠ key b → step (step s a) b = step (step s b) a)
    {a : α} {steps : List α} (hother : ∀ b ∈ steps, key b ≠ key a) (s : σ) :
    step (steps.foldl step s) a = steps.foldl step (step s a) := by
  induction steps generalizing s with
  | nil => rfl
  | cons b steps ih =>
    obtain ⟨hb, hsteps⟩ := List.forall_mem_cons.mp hother
    rw [List.foldl_cons, List.foldl_cons, ih hsteps, hcomm s b a hb]

section Reordering

variable [DecidableEq κ] {key : α → κ}

/-- Two sequences have the same steps of each key, in the same order. -/
def SameOrder (key : α → κ) (steps steps' : List α) : Prop :=
  ∀ k, steps.filter (key · = k) = steps'.filter (key · = k)

theorem SameOrder.eq_nil {steps : List α} (h : SameOrder key [] steps) : steps = [] := by
  apply List.eq_nil_iff_forall_not_mem.mpr
  intro a ha
  have hmem : a ∈ steps.filter (key · = key a) := by simp [ha]
  rw [← h (key a)] at hmem
  cases hmem

/-- The first step of one sequence can be found in the other after steps of other keys. -/
theorem SameOrder.cons {a : α} {steps steps' : List α} (h : SameOrder key (a :: steps) steps') :
    ∃ before after, steps' = before ++ a :: after ∧ (∀ b ∈ before, key b ≠ key a) ∧
      SameOrder key steps (before ++ after) := by
  have hkey := h (key a)
  rw [List.filter_cons_of_pos (by simp)] at hkey
  obtain ⟨before, after, rfl, hbefore, -, hafter⟩ := List.filter_eq_cons_iff.mp hkey.symm
  have hbefore' : ∀ b ∈ before, key b ≠ key a := by simpa using hbefore
  refine ⟨before, after, rfl, hbefore', fun k => ?_⟩
  rw [List.filter_append]
  -- With the key of `a`, nothing stands before it; with another key, `a` does not count.
  by_cases hk : key a = k
  · subst hk
    have hnone : before.filter (key · = key a) = [] := by simpa using hbefore'
    rw [hnone, hafter, List.nil_append]
  · have hother := h k
    rwa [List.filter_cons_of_neg (by simpa using hk), List.filter_append,
      List.filter_cons_of_neg (by simpa using hk)] at hother

/-- **Only the order within each key matters.** -/
theorem foldl_of_sameOrder
    (hcomm : ∀ s a b, key a ≠ key b → step (step s a) b = step (step s b) a)
    {steps steps' : List α} (h : SameOrder key steps steps') (s : σ) :
    steps.foldl step s = steps'.foldl step s := by
  induction steps generalizing steps' s with
  | nil => rw [h.eq_nil]
  | cons a steps ih =>
    obtain ⟨before, after, rfl, hbefore, hrest⟩ := h.cons
    -- `a` moves to the front, over steps of other keys.
    rw [List.foldl_cons, ih hrest, List.foldl_append, List.foldl_append, List.foldl_cons,
      foldl_comm hcomm hbefore]

end Reordering

/-! ## §3 Refinement -/

section Refinement

variable {σ' ρ : Type*} {step' : σ' → α → σ'} {abs : σ → σ'} {frame : σ → ρ}

/-- Steps that refine other steps, seen through `abs`, and keep a frame, step after step. -/
theorem foldl_refines (habs : ∀ s a, abs (step s a) = step' (abs s) a)
    (hframe : ∀ s a, frame (step s a) = frame s) (steps : List α) (s : σ) :
    abs (steps.foldl step s) = steps.foldl step' (abs s) ∧
      frame (steps.foldl step s) = frame s :=
  ⟨(List.foldl_hom abs fun s a => (habs s a).symm).symm, foldl_frame hframe steps s⟩

/-- **Reordering through a refinement**: it is enough that the abstract steps commute, when
the frame and the abstract state determine the state. -/
theorem foldl_of_sameOrder_of_refines [DecidableEq κ] {key : α → κ}
    (hinj : ∀ s t, frame s = frame t → abs s = abs t → s = t)
    (habs : ∀ s a, abs (step s a) = step' (abs s) a)
    (hframe : ∀ s a, frame (step s a) = frame s)
    (hcomm : ∀ s a b, key a ≠ key b → step' (step' s a) b = step' (step' s b) a)
    {steps steps' : List α} (h : SameOrder key steps steps') (s : σ) :
    steps.foldl step s = steps'.foldl step s := by
  obtain ⟨hsteps, hkept⟩ := foldl_refines habs hframe steps s
  obtain ⟨hsteps', hkept'⟩ := foldl_refines habs hframe steps' s
  apply hinj
  · rw [hkept, hkept']
  · rw [hsteps, hsteps', foldl_of_sameOrder hcomm h]

end Refinement

end Writes
