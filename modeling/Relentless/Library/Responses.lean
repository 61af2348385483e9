import Mathlib.Data.List.Chain
import Relentless.Library.Parametric
import Relentless.Library.Threads

/-!
# Notes That Answer Notes

Threads that, in a world of some kind, note an answer next after they have noted that they
ask.  Once the world is of that kind and stays so, all their later notes are in such pairs,
but for a last one that is still to be answered.

- `Thread.Next` — what the thread notes next
- `Thread.Responds` — whatever asks is answered next
- `Thread.respondsRel` — the threads that respond, as a relation for all code
- `Thread.responds_of_run` — what such a thread notes among others
-/

namespace Thread

variable {σ E α β : Type} {K : σ → Prop} {asks answers : E → Prop}

/-! ## §1 Threads that respond -/

/-- While the world is a `K`, the thread goes on to a note, and this is an answer. -/
def Next (K : σ → Prop) (answers : E → Prop) : Thread σ E α → Prop
  | .ended _ => False
  | .step _ rest => ∀ w, K w → (rest w).Next K answers
  | .note event _ => answers event

/-- After each note that asks, whatever the thread has found before, it answers next. -/
def Responds (K : σ → Prop) (asks answers : E → Prop) : Thread σ E α → Prop
  | .ended _ => True
  | .step _ rest => ∀ w, (rest w).Responds K asks answers
  | .note event rest => (asks event → rest.Next K answers) ∧ rest.Responds K asks answers

theorem Next.bind {x : Thread σ E α} (h : x.Next K answers) (f : α → Thread σ E β) :
    (x >>= f).Next K answers := by
  induction x with
  | ended answer => exact h.elim
  | step move rest ih => exact fun w hw => ih w (h w hw)
  | note event rest ih => exact h

namespace Responds

theorem bind {x : Thread σ E α} {f : α → Thread σ E β} (hx : x.Responds K asks answers)
    (hf : ∀ a, (f a).Responds K asks answers) : (x >>= f).Responds K asks answers := by
  induction x with
  | ended answer => exact hf answer
  | step move rest ih => exact fun w => ih w (hx w)
  | note event rest ih => exact ⟨fun hasks => (hx.1 hasks).bind f, ih hx.2⟩

/-- A thread without notes has nothing to answer. -/
theorem silent (x : Thread σ Empty α) : (x.silent : Thread σ E α).Responds K asks answers := by
  induction x with
  | ended answer => trivial
  | step move rest ih => exact ih
  | note event rest ih => exact event.elim

theorem act {s s' : σ × (List E × Thread σ E α)} (h : Act s s')
    (hresponds : s.2.2.Responds K asks answers) : s'.2.2.Responds K asks answers := by
  cases h with
  | step w log move rest => exact hresponds w
  | note w log event rest => exact hresponds.2

end Responds

/-- The threads that respond, as a relation for all code. -/
def respondsRel (K : σ → Prop) (asks answers : E → Prop) : MonadRel (Thread σ E) (Thread σ E) :=
  .of_keeps (fun x => x.Responds K asks answers) (fun _ => trivial) fun hx hf => hx.bind hf

/-! ## §2 Responses among other threads -/

section Run

open Interleaving (Run View)

variable {rely : σ → σ → Prop} [IsPreorder σ rely]

/-- **What a thread that responds has noted**, since the world is a `K`. -/
theorem responds_of_view {s s' : σ × (List E × Thread σ E α)} (h : View Act rely s s')
    (hkeep : ∀ w w', rely w w' → K w → K w') (hmoves : s.2.2.Moves rely) (hstart : K s.1)
    (hresponds : s.2.2.Responds K asks answers) :
    ∃ new, s'.2.1 = s.2.1 ++ new ∧ new.IsChain (fun e e' => asks e → answers e') ∧
      ∀ e ∈ new.getLast?, asks e → s'.2.2.Next K answers := by
  -- The others keep the world a `K`, and this is why every question finds its answer.
  suffices hall : K s'.1 ∧ s'.2.2.Moves rely ∧ s'.2.2.Responds K asks answers ∧
      ∃ new, s'.2.1 = s.2.1 ++ new ∧ new.IsChain (fun e e' => asks e → answers e') ∧
        ∀ e ∈ new.getLast?, asks e → s'.2.2.Next K answers from hall.2.2.2
  induction h with
  | start =>
    exact ⟨hstart, hmoves, hresponds, [], (List.append_nil _).symm, .nil, fun e he => by cases he⟩
  | own s' s'' hview hact ih =>
    obtain ⟨hK, hmoves', hresponds', new, hlog, hchain, hlast⟩ := ih
    obtain ⟨hmoves'', hrely⟩ := hmoves'.act hact
    refine ⟨hkeep _ _ hrely hK, hmoves'', hresponds'.act hact, ?_⟩
    cases hact with
    | step w log move rest => exact ⟨new, hlog, hchain, fun e he hasks => hlast e he hasks w hK⟩
    | note w log event rest =>
      refine ⟨new ++ [event], ?_, ?_, fun e he hasks => ?_⟩
      · dsimp only at hlog ⊢
        rw [hlog, List.append_assoc]
      · refine hchain.append (.singleton event) fun e he e' he' hasks => ?_
        obtain rfl := Option.some.inj he'
        exact hlast e he hasks
      · -- The last note is the one just made, so its answer is what comes next.
        rw [List.getLast?_append, List.getLast?_singleton] at he
        obtain rfl := Option.some.inj he
        exact hresponds'.1 hasks
  | others s' w hview hrely ih =>
    obtain ⟨hK, hall⟩ := ih
    exact ⟨hkeep _ _ hrely hK, hall⟩

/-- Threads that move as `rely` says do so, and respond, wherever they have come. -/
theorem moves_responds_of_run {ι : Type} [DecidableEq ι] {E α : ι → Type}
    {asks answers : (i : ι) → E i → Prop} {outside : σ → σ → Prop}
    {s s' : σ × ((i : ι) → List (E i) × Thread σ (E i) (α i))} (h : Run (fun _ => Act) outside s s')
    (hmoves : ∀ i, (s.2 i).2.Moves rely)
    (hresponds : ∀ i, (s.2 i).2.Responds K (asks i) (answers i)) (i : ι) :
    (s'.2 i).2.Moves rely ∧ (s'.2 i).2.Responds K (asks i) (answers i) :=
  h.invariant (I := fun i (_ : σ) (t : List (E i) × Thread σ (E i) (α i)) =>
      t.2.Moves rely ∧ t.2.Responds K (asks i) (answers i))
    (fun i => ⟨hmoves i, hresponds i⟩)
    (fun _ _ _ _ hboth hact => ⟨(hboth.1.act hact).1, hboth.2.act hact⟩)
    (fun _ _ _ _ _ _ _ hboth _ _ => hboth) (fun _ _ _ _ hboth _ => hboth) i

/-- **Among others**, once the world is a `K` and everybody keeps it so, a thread that responds
answers whatever it asks from then on. -/
theorem responds_of_run {ι : Type} [DecidableEq ι] {E α : ι → Type}
    {asks answers : (i : ι) → E i → Prop} {outside : σ → σ → Prop}
    {s₀ s s' : σ × ((i : ι) → List (E i) × Thread σ (E i) (α i))}
    (h : Run (fun _ => Act) outside s₀ s) (h' : Run (fun _ => Act) outside s s')
    (hkeep : ∀ w w', rely w w' → K w → K w') (hout : ∀ w w', outside w w' → rely w w')
    (hmoves : ∀ i, (s₀.2 i).2.Moves rely)
    (hresponds : ∀ i, (s₀.2 i).2.Responds K (asks i) (answers i)) (hK : K s.1) (i : ι) :
    ∃ new, (s'.2 i).1 = (s.2 i).1 ++ new ∧ new.IsChain (fun e e' => asks i e → answers i e') ∧
      ∀ e ∈ new.getLast?, asks i e → (s'.2 i).2.Next K (answers i) := by
  have hboth := moves_responds_of_run h hmoves hresponds
  refine responds_of_view (h'.view (J := fun _ t => t.2.Moves rely) hout (fun j _ => (hboth j).1)
    fun j _ w t next hmoves' hact => hmoves'.act hact) hkeep (hboth i).1 hK (hboth i).2

end Run

end Thread
