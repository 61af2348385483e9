import Mathlib.Data.List.Forall2
import Relentless.Library.Parametric
import Relentless.Library.Threads

/-!
# Values Taken From One Stream

Threads that share a stream of values.  A step of a thread leaves the stream alone, or takes
its first value, and then the next note of the thread is made of this value.  Among any
threads, no value is lost and none is taken twice.

- `Thread.Takes` — how a thread takes values and notes what it makes of them
- `Thread.takesRel` — the threads that do so, as a relation for all code
- `Thread.Holds` — the places in the stream that a thread has taken
- `Thread.Shared` — every place has been taken by one thread
- `Thread.shared_of_run` — the threads share the stream
-/

namespace Thread

/-- How values of the stream go into notes: what of the stream is still ahead, what notes are
made of a value, and of which value. -/
structure Stream (σ V E C : Type) where
  ahead : σ → ℕ → V
  made? : E → Option C
  From : C → V → Prop

variable {σ V E C α β : Type} {T : Stream σ V E C}

/-! ## §1 Threads that take values -/

/-- Every step leaves the stream alone, or takes its first value; a value that is `due` is what
the next note is made of, and no other note is made of one. -/
def Takes (T : Stream σ V E C) : Thread σ E α → Option V → Prop
  | .ended _, due => due = none
  | .step move rest, due => due = none ∧ ∀ w,
    (T.ahead (move w) = T.ahead w ∧ (rest w).Takes T none) ∨
      (T.ahead (move w) = (fun k => T.ahead w (k + 1)) ∧ (rest w).Takes T (some (T.ahead w 0)))
  | .note event rest, none => T.made? event = none ∧ rest.Takes T none
  | .note event rest, some v => (∃ c ∈ T.made? event, T.From c v) ∧ rest.Takes T none

namespace Takes

theorem bind {x : Thread σ E α} {f : α → Thread σ E β} {due : Option V} (hx : x.Takes T due)
    (hf : ∀ a, (f a).Takes T none) : (x >>= f).Takes T due := by
  induction x generalizing due with
  | ended answer =>
    obtain rfl : due = none := hx
    exact hf answer
  | step move rest ih =>
    obtain ⟨rfl, hsteps⟩ := hx
    refine ⟨rfl, fun w => ?_⟩
    rcases hsteps w with ⟨hahead, hrest⟩ | ⟨hahead, hrest⟩
    · exact .inl ⟨hahead, ih w hrest⟩
    · exact .inr ⟨hahead, ih w hrest⟩
  | note event rest ih =>
    cases due with
    | none => exact ⟨hx.1, ih hx.2⟩
    | some v => exact ⟨hx.1, ih hx.2⟩

/-- A thread without notes that leaves the stream alone. -/
theorem silent {rely : σ → σ → Prop} (hrely : ∀ w w', rely w w' → T.ahead w' = T.ahead w)
    {x : Thread σ Empty α} (hx : x.Moves rely) : (x.silent : Thread σ E α).Takes T none := by
  induction x with
  | ended answer => rfl
  | step move rest ih => exact ⟨rfl, fun w => .inl ⟨hrely _ _ (hx w).1, ih w (hx w).2⟩⟩
  | note event rest ih => exact event.elim

end Takes

/-- The threads that take values so, as a relation for all code. -/
def takesRel (T : Stream σ V E C) : MonadRel (Thread σ E) (Thread σ E) :=
  .of_keeps (fun x => x.Takes T none) (fun _ => rfl) fun hx hf => hx.bind hf

/-! ## §2 One stream for all -/

/-- The thread has taken the values at `places`, and what it has noted is made of them in this
order; the last of them may still be due. -/
def Holds (T : Stream σ V E C) (stream : ℕ → V) (s : List E × Thread σ E α) (places : List ℕ) :
    Prop :=
  ∃ noted, List.Forall₂ (fun c k => T.From c (stream k)) (s.1.filterMap T.made?) noted ∧
    ((places = noted ∧ s.2.Takes T none) ∨
      ∃ k, places = noted ++ [k] ∧ s.2.Takes T (some (stream k)))

/-- **A step of a thread** takes the next value of the stream, or none. -/
theorem Holds.act {stream : ℕ → V} {n : ℕ} {s s' : σ × (List E × Thread σ E α)}
    {places : List ℕ} (h : Act s s') (hahead : T.ahead s.1 = fun k => stream (n + k))
    (hholds : Holds T stream s.2 places) :
    (T.ahead s'.1 = T.ahead s.1 ∧ Holds T stream s'.2 places) ∨
      (T.ahead s'.1 = (fun k => stream (n + 1 + k)) ∧ Holds T stream s'.2 (places ++ [n])) := by
  obtain ⟨noted, hnoted, htakes⟩ := hholds
  cases h with
  | step w log move rest =>
    obtain ⟨rfl, -, hsteps⟩ | ⟨k, -, habsurd, -⟩ := htakes
    · rcases hsteps w with ⟨hsame, hrest⟩ | ⟨hnext, hrest⟩
      · exact .inl ⟨hsame, places, hnoted, .inl ⟨rfl, hrest⟩⟩
      · -- The value taken is the one at `n`, which is due from now on.
        right
        rw [hahead] at hnext hrest
        refine ⟨?_, places, hnoted, .inr ⟨n, rfl, hrest⟩⟩
        rw [hnext]
        funext k
        show stream (n + (k + 1)) = stream (n + 1 + k)
        rw [Nat.add_assoc, Nat.add_comm 1 k]
    · -- Nothing is done while a value is due.
      cases habsurd
  | note w log event rest =>
    left
    refine ⟨rfl, ?_⟩
    rcases htakes with ⟨rfl, hnone, hrest⟩ | ⟨k, rfl, ⟨c, hmade, hfrom⟩, hrest⟩
    · refine ⟨places, ?_, .inl ⟨rfl, hrest⟩⟩
      dsimp only
      rw [List.filterMap_append, List.filterMap_cons_none hnone, List.filterMap_nil,
        List.append_nil]
      exact hnoted
    · -- What was due has been noted.
      refine ⟨noted ++ [k], ?_, .inl ⟨rfl, hrest⟩⟩
      dsimp only
      rw [List.filterMap_append, List.filterMap_cons_some hmade, List.filterMap_nil]
      exact List.rel_append hnoted (.cons hfrom .nil)

variable {ι : Type}

/-- The first `n` values of the stream have been taken, each of them by one thread, and each
thread has taken its own in their order. -/
structure Shared (n : ℕ) (places : ι → List ℕ) : Prop where
  taken : ∀ k < n, ∃! i, k ∈ places i
  before : ∀ i, ∀ k ∈ places i, k < n
  inOrder : ∀ i, (places i).Pairwise (· < ·)

theorem Shared.next [DecidableEq ι] {n : ℕ} {places : ι → List ℕ} (h : Shared n places) (i : ι) :
    Shared (n + 1) (Function.update places i (places i ++ [n])) := by
  have hmem (j : ι) (k : ℕ) : k ∈ Function.update places i (places i ++ [n]) j ↔
      k ∈ places j ∨ (j = i ∧ k = n) := by
    by_cases hj : j = i
    · subst hj
      rw [Function.update_self, List.mem_append, List.mem_singleton]
      simp only [true_and]
    · rw [Function.update_of_ne hj]
      simp only [hj, false_and, or_false]
  constructor
  · intro k hk
    rcases Nat.lt_succ_iff_lt_or_eq.mp hk with hlt | rfl
    · obtain ⟨j, hj, hunique⟩ := h.taken k hlt
      refine ⟨j, (hmem j k).mpr (.inl hj), fun j' hj' => ?_⟩
      rcases (hmem j' k).mp hj' with hold | ⟨-, rfl⟩
      · exact hunique j' hold
      · exact absurd hlt (lt_irrefl _)
    · refine ⟨i, (hmem i k).mpr (.inr ⟨rfl, rfl⟩), fun j hj => ?_⟩
      rcases (hmem j k).mp hj with hold | ⟨rfl, -⟩
      · exact absurd (h.before j k hold) (lt_irrefl _)
      · rfl
  · intro j k hk
    rcases (hmem j k).mp hk with hold | ⟨-, rfl⟩
    · exact Nat.lt_succ_of_lt (h.before j k hold)
    · exact Nat.lt_succ_self k
  · intro j
    by_cases hj : j = i
    · subst hj
      rw [Function.update_self]
      refine List.pairwise_append.mpr
        ⟨h.inOrder j, List.pairwise_singleton _ _, fun k hk k' hk' => ?_⟩
      rw [List.mem_singleton.mp hk']
      exact h.before j k hk
    · rw [Function.update_of_ne hj]
      exact h.inOrder j

open Interleaving (Run) in
/-- **No value is lost, and none is taken twice**, in whatever order the threads take their
steps, as long as nobody else touches the stream. -/
theorem shared_of_run [DecidableEq ι] {E C α : ι → Type} {ahead : σ → ℕ → V}
    {made? : (i : ι) → E i → Option (C i)} {From : (i : ι) → C i → V → Prop}
    {outside : σ → σ → Prop} {s s' : σ × ((i : ι) → List (E i) × Thread σ (E i) (α i))}
    (h : Run (fun _ => Act) outside s s') (hout : ∀ w w', outside w w' → ahead w' = ahead w)
    (hempty : ∀ i, (s.2 i).1 = [])
    (htakes : ∀ i, (s.2 i).2.Takes ⟨ahead, made? i, From i⟩ none) :
    ∃ n places, ahead s'.1 = (fun k => ahead s.1 (n + k)) ∧ Shared n places ∧
      ∀ i, Holds ⟨ahead, made? i, From i⟩ (ahead s.1) (s'.2 i) (places i) := by
  induction h with
  | start =>
    refine ⟨0, fun _ => [], ?_, ?_, fun i => ⟨[], ?_, .inl ⟨rfl, htakes i⟩⟩⟩
    · funext k
      rw [Nat.zero_add]
    · exact ⟨fun k hk => absurd hk (Nat.not_lt_zero k), fun _ k hk => (by cases hk), fun _ => .nil⟩
    · rw [hempty i]
      exact .nil
  | act s₁ i next hrun hact ih =>
    obtain ⟨n, places, hahead, hshared, hholds⟩ := ih
    have hothers {places' : List ℕ}
        (hi : Holds ⟨ahead, made? i, From i⟩ (ahead s.1) next.2 places') (j : ι) :
        Holds ⟨ahead, made? j, From j⟩ (ahead s.1) (Function.update s₁.2 i next.2 j)
          (Function.update places i places' j) := by
      by_cases hj : j = i
      · subst hj
        rw [Function.update_self, Function.update_self]
        exact hi
      · rw [Function.update_of_ne hj, Function.update_of_ne hj]
        exact hholds j
    -- A step that takes nothing leaves all places as they were; one that does adds `n` to its own.
    rcases (hholds i).act hact hahead with ⟨hsame, hi⟩ | ⟨hnext, hi⟩
    · refine ⟨n, places, hsame.trans hahead, hshared, fun j => ?_⟩
      have hj := hothers hi j
      rwa [Function.update_eq_self] at hj
    · exact ⟨n + 1, _, hnext, hshared.next i, hothers hi⟩
  | outside s₁ w hrun hw ih =>
    obtain ⟨n, places, hahead, hall⟩ := ih
    exact ⟨n, places, (hout _ _ hw).trans hahead, hall⟩

end Thread
