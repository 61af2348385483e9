import Mathlib.Data.Nat.Notation
import Mathlib.Logic.Function.Basic
import Mathlib.Order.Defs.Unbundled

/-!
# Interleaved Processes

Processes on one shared world, each with a state of its own, that act in any order; and
between their acts the world may change from outside.

- `Run` — what the processes can come to
- `View` — what one process sees of it, for which all others are outside
- `Run.view` — a run, seen by one of its processes, that relies on the others
- `Run.invariant` — invariants that no process and nothing outside breaks
- `Run.process` — what the acts of one process do to its state
- `Step`, `run_of_steps` — runs that go on for ever, step by step
- `play`, `Run.play` — processes that are scheduled
-/

namespace Interleaving

variable {ι σ : Type} {τ : ι → Type}

/-- The processes with the states `τ` can come from one configuration to another.  Process
`i` acts by `act i` on the shared world and its own state. -/
inductive Run [DecidableEq ι] (act : (i : ι) → σ × τ i → σ × τ i → Prop)
    (outside : σ → σ → Prop) (s : σ × ((i : ι) → τ i)) : σ × ((i : ι) → τ i) → Prop where
  | start : Run act outside s s
  | act (s' : σ × ((i : ι) → τ i)) (i : ι) (next : σ × τ i) (hrun : Run act outside s s')
      (hact : act i (s'.1, s'.2 i) next) :
      Run act outside s (next.1, Function.update s'.2 i next.2)
  | outside (s' : σ × ((i : ι) → τ i)) (w : σ) (hrun : Run act outside s s')
      (hout : outside s'.1 w) : Run act outside s (w, s'.2)

/-- A process that acts by `act`, in a world that the others may change by `others`. -/
inductive View {T : Type} (act : σ × T → σ × T → Prop) (others : σ → σ → Prop) (s : σ × T) :
    σ × T → Prop where
  | start : View act others s s
  | own (s' s'' : σ × T) (hview : View act others s s') (hact : act s' s'') :
      View act others s s''
  | others (s' : σ × T) (w : σ) (hview : View act others s s') (hothers : others s'.1 w) :
      View act others s (w, s'.2)

variable {act : (i : ι) → σ × τ i → σ × τ i → Prop} {outside : σ → σ → Prop}

/-- One run after another. -/
theorem Run.trans [DecidableEq ι] {s s' s'' : σ × ((i : ι) → τ i)} (h : Run act outside s s')
    (h' : Run act outside s' s'') : Run act outside s s'' := by
  induction h' with
  | start => exact h
  | act s₁ i next hrun hact ih => exact .act s₁ i next ih hact
  | outside s₁ w hrun hout ih => exact .outside s₁ w ih hout

/-- **What one process sees of a run**: its own acts, and a world that changes as `rely` says,
when nothing outside changes it in other ways, and no other process does from the states
`J` that it can be in. -/
theorem Run.view [DecidableEq ι] {rely : σ → σ → Prop} {J : (j : ι) → τ j → Prop} {i : ι}
    {s s' : σ × ((i : ι) → τ i)} (h : Run act outside s s')
    (hout : ∀ w w', outside w w' → rely w w')
    (hstart : ∀ j, j ≠ i → J j (s.2 j))
    (hothers : ∀ j, j ≠ i → ∀ w t next, J j t → act j (w, t) next → J j next.2 ∧ rely w next.1) :
    View (act i) rely (s.1, s.2 i) (s'.1, s'.2 i) := by
  suffices hboth : View (act i) rely (s.1, s.2 i) (s'.1, s'.2 i) ∧ ∀ j, j ≠ i → J j (s'.2 j) from
    hboth.1
  induction h with
  | start => exact ⟨.start, hstart⟩
  | act s' j next hrun hact ih =>
    obtain ⟨hview, hkept⟩ := ih
    dsimp only
    by_cases hj : j = i
    · subst hj
      rw [Function.update_self]
      refine ⟨.own _ _ hview hact, fun k hk => ?_⟩
      rw [Function.update_of_ne hk]
      exact hkept k hk
    · obtain ⟨hnext, hrely⟩ := hothers j hj _ _ _ (hkept j hj) hact
      rw [Function.update_of_ne (Ne.symm hj)]
      refine ⟨.others (s'.1, s'.2 i) next.1 hview hrely, fun k hk => ?_⟩
      by_cases hkj : k = j
      · subst hkj
        rw [Function.update_self]
        exact hnext
      · rw [Function.update_of_ne hkj]
        exact hkept k hk
  | outside s' w hrun hout' ih =>
    exact ⟨.others (s'.1, s'.2 i) w ih.1 (hout _ _ hout'), ih.2⟩

/-- **Invariants of all processes.**  What each process keeps of its own invariant, what no
process breaks of another's, and what nothing outside breaks, holds in every run. -/
theorem Run.invariant [DecidableEq ι] {I : (i : ι) → σ → τ i → Prop}
    {s s' : σ × ((i : ι) → τ i)} (h : Run act outside s s') (hstart : ∀ i, I i s.1 (s.2 i))
    (hown : ∀ i w t next, I i w t → act i (w, t) next → I i next.1 next.2)
    (hothers : ∀ i j w t u next, i ≠ j → I i w t → I j w u → act j (w, u) next → I i next.1 t)
    (hout : ∀ i w t w', I i w t → outside w w' → I i w' t) : ∀ i, I i s'.1 (s'.2 i) := by
  induction h with
  | start => exact hstart
  | act s' j next hrun hact ih =>
    intro i
    dsimp only
    by_cases hi : i = j
    · subst hi
      rw [Function.update_self]
      exact hown i _ _ _ (ih i) hact
    · rw [Function.update_of_ne hi]
      exact hothers i j _ _ _ _ hi (ih i) (ih j) hact
  | outside s' w hrun hout' ih => exact fun i => hout i _ _ _ (ih i) hout'

/-- **What happens to one process** are its own acts, one after the other. -/
theorem Run.process [DecidableEq ι] {i : ι} {r : τ i → τ i → Prop} [IsPreorder (τ i) r]
    {s s' : σ × ((i : ι) → τ i)} (h : Run act outside s s')
    (hact : ∀ s s', act i s s' → r s.2 s'.2) : r (s.2 i) (s'.2 i) := by
  induction h with
  | start => exact refl_of r _
  | act s' j next hrun hnext ih =>
    dsimp only
    by_cases hi : i = j
    · subst hi
      rw [Function.update_self]
      exact trans_of r ih (hact _ _ hnext)
    · rw [Function.update_of_ne hi]
      exact ih
  | outside s' w hrun hout ih => exact ih

/-- One step of a run: an act of a process, a change from outside, or nothing. -/
inductive Step [DecidableEq ι] (act : (i : ι) → σ × τ i → σ × τ i → Prop)
    (outside : σ → σ → Prop) (s : σ × ((i : ι) → τ i)) : σ × ((i : ι) → τ i) → Prop where
  | idle : Step act outside s s
  | act (i : ι) (next : σ × τ i) (hact : act i (s.1, s.2 i) next) :
      Step act outside s (next.1, Function.update s.2 i next.2)
  | outside (w : σ) (hout : outside s.1 w) : Step act outside s (w, s.2)

theorem Step.run [DecidableEq ι] {s s' : σ × ((i : ι) → τ i)} (h : Step act outside s s') :
    Run act outside s s' := by
  cases h with
  | idle => exact .start
  | act i next hact => exact .act s i next .start hact
  | outside w hout => exact .outside s w .start hout

/-- Between two points of a run that goes on for ever there is a run. -/
theorem run_of_steps [DecidableEq ι] {s : ℕ → σ × ((i : ι) → τ i)}
    (h : ∀ k, Step act outside (s k) (s (k + 1))) {k k' : ℕ} (hle : k ≤ k') :
    Run act outside (s k) (s k') := by
  induction hle with
  | refl => exact .start
  | step hle ih => exact ih.trans (h _).run

/-- Processes that act in the order of a schedule, each of them as `step` says. -/
def play [DecidableEq ι] (step : (i : ι) → σ × τ i → σ × τ i) (s : σ × ((i : ι) → τ i))
    (schedule : List ι) : σ × ((i : ι) → τ i) :=
  schedule.foldl (fun s i =>
    let next := step i (s.1, s.2 i)
    (next.1, Function.update s.2 i next.2)) s

/-- Every schedule is a run. -/
theorem Run.play [DecidableEq ι] {step : (i : ι) → σ × τ i → σ × τ i}
    (hstep : ∀ i s, act i s (step i s) ∨ step i s = s) {s s' : σ × ((i : ι) → τ i)}
    (h : Run act outside s s') (schedule : List ι) :
    Run act outside s (Interleaving.play step s' schedule) := by
  induction schedule generalizing s' with
  | nil => exact h
  | cons i schedule ih =>
    apply ih
    dsimp only
    rcases hstep i (s'.1, s'.2 i) with hact | hidle
    · exact .act s' i _ h hact
    · rw [hidle, Function.update_eq_self]
      exact h

end Interleaving
