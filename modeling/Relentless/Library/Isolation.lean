import Relentless.Library.Threads

/-!
# Threads That Share Nothing

Threads that work on parts of the world of their own.  However they are interleaved, each of
them does to its part what it does when nobody else is there.

- `Thread.whole`, `Thread.noted` — a thread that runs from its start to its end
- `Thread.onPart` — a thread on one part of the world
- `Thread.whole_of_run` — it runs as a whole
-/

namespace Thread

variable {ι : Type} {σ : ι → Type} {τ E α β : Type} {i : ι}

/-- The thread from its start to its end, in a world that nobody else changes. -/
def noted : Thread τ E α → Eff (τ × List E) α
  | .ended answer => pure answer
  | .step move rest => fun s => (rest s.1).noted (move s.1, s.2)
  | .note event rest => fun s => rest.noted (s.1, s.2 ++ [event])

/-- The same, for a thread without notes. -/
def whole (x : Thread τ Empty α) : Eff τ α :=
  fun w => ((x.noted (w, [])).1, (x.noted (w, [])).2.1)

@[simp] theorem noted_pure (answer : α) :
    (pure answer : Thread τ E α).noted = pure answer := rfl

@[simp] theorem noted_bind (x : Thread τ E α) (f : α → Thread τ E β) :
    (x >>= f).noted = x.noted >>= fun answer => (f answer).noted := by
  induction x with
  | ended answer => rfl
  | step move rest ih =>
    funext s
    exact congrFun (ih s.1) _
  | note event rest ih =>
    funext s
    exact congrFun ih _

theorem noted_silent (x : Thread τ Empty α) (w : τ) (log : List E) :
    (x.silent : Thread τ E α).noted (w, log) = ((x.whole w).1, ((x.whole w).2, log)) := by
  induction x generalizing w with
  | ended answer => rfl
  | step move rest ih => exact ih w (move w)
  | note event rest ih => exact event.elim

/-- A thread only adds to its log. -/
theorem prefix_noted (x : Thread τ E α) (w : τ) (log : List E) :
    log <+: (x.noted (w, log)).2.2 := by
  induction x generalizing w log with
  | ended answer => exact List.prefix_refl log
  | step move rest ih => exact ih w (move w) log
  | note event rest ih => exact (List.prefix_append log [event]).trans (ih w (log ++ [event]))

variable [DecidableEq ι]

/-- The thread, on part `i` of the world. -/
def onPart (i : ι) : Thread (σ i) E α → Thread ((i : ι) → σ i) E α
  | .ended answer => .ended answer
  | .step move rest =>
    .step (fun w => Function.update w i (move (w i))) fun w => (rest (w i)).onPart i
  | .note event rest => .note event (rest.onPart i)

@[simp] theorem onPart_pure (answer : α) :
    (pure answer : Thread (σ i) E α).onPart i = pure answer := rfl

@[simp] theorem onPart_bind (x : Thread (σ i) E α) (f : α → Thread (σ i) E β) :
    (x >>= f).onPart i = x.onPart i >>= fun answer => (f answer).onPart i := by
  induction x with
  | ended answer => rfl
  | step move rest ih => exact congrArg (Thread.step _) (funext fun w => ih (w i))
  | note event rest ih => exact congrArg (Thread.note event) ih

theorem onPart_silent (x : Thread (σ i) Empty α) :
    ((x.onPart i).silent : Thread _ E α) = (x.silent : Thread (σ i) E α).onPart i := by
  induction x with
  | ended answer => rfl
  | step move rest ih => exact congrArg (Thread.step _) (funext fun w => ih (w i))
  | note event rest ih => exact event.elim

/-- What a thread has become on its part: a thread that comes to `ending` from here. -/
def Becomes (i : ι) (ending : α × (σ i × List E)) (w : (i : ι) → σ i)
    (t : List E × Thread ((i : ι) → σ i) E α) : Prop :=
  ∃ x : Thread (σ i) E α, t.2 = x.onPart i ∧ x.noted (w i, t.1) = ending

/-- A step of the thread is a step on its part, after which it comes to the same. -/
theorem Becomes.act {ending : α × (σ i × List E)}
    {s s' : ((i : ι) → σ i) × (List E × Thread ((i : ι) → σ i) E α)}
    (h : Becomes i ending s.1 s.2) (hact : Act s s') : Becomes i ending s'.1 s'.2 := by
  obtain ⟨x, hx, hending⟩ := h
  cases hact with
  | step w log move rest =>
    cases x with
    | ended answer => cases hx
    | note event next => cases hx
    | step move' rest' =>
      obtain ⟨rfl, rfl⟩ := Thread.step.inj hx
      refine ⟨rest' (w i), rfl, ?_⟩
      dsimp only
      rw [Function.update_self]
      exact hending
  | note w log event rest =>
    cases x with
    | ended answer => cases hx
    | step move' rest' => cases hx
    | note event' next =>
      obtain ⟨rfl, rfl⟩ := Thread.note.inj hx
      exact ⟨next, rfl, hending⟩

/-- It changes no other part. -/
theorem Becomes.others {j : ι} (hj : i ≠ j) {ending : α × (σ j × List E)}
    {s s' : ((i : ι) → σ i) × (List E × Thread ((i : ι) → σ i) E α)}
    (h : Becomes j ending s.1 s.2) (hact : Act s s') : s'.1 i = s.1 i := by
  obtain ⟨x, hx, -⟩ := h
  cases hact with
  | note w log event rest => rfl
  | step w log move rest =>
    cases x with
    | ended answer => cases hx
    | note event next => cases hx
    | step move' rest' =>
      obtain ⟨rfl, -⟩ := Thread.step.inj hx
      exact Function.update_of_ne hj _ _

/-- **Threads that share nothing run as a whole.**  Whatever the schedule, a thread on its part
of the world has noted a beginning of what it notes on its own, and when it has ended, all of
it, with the answer and the part of the world that it comes to on its own. -/
theorem whole_of_run {E α : ι → Type} {threads : (i : ι) → Thread (σ i) (E i) (α i)}
    {w₀ : (i : ι) → σ i}
    {s : ((i : ι) → σ i) × ((i : ι) → List (E i) × Thread ((i : ι) → σ i) (E i) (α i))}
    (h : Interleaving.Run (fun _ => Act) Eq (w₀, fun i => ([], (threads i).onPart i)) s) (i : ι) :
    (s.2 i).1 <+: ((threads i).noted (w₀ i, [])).2.2 ∧
      ∀ answer, (s.2 i).2 = .ended answer →
        (threads i).noted (w₀ i, []) = (answer, (s.1 i, (s.2 i).1)) := by
  have hbecomes := h.invariant
    (I := fun i w t => Becomes i ((threads i).noted (w₀ i, [])) w t) (fun i => ⟨_, rfl, rfl⟩)
    (fun i w t next hi hact => hi.act hact)
    (fun i j w t u next hij hi hj hact => by
      obtain ⟨x, hx, hending⟩ := hi
      have hpart : next.1 i = w i := hj.others hij hact
      exact ⟨x, hx, hpart ▸ hending⟩)
    (fun i w t w' hi hsame => hsame ▸ hi)
  obtain ⟨x, hx, hending⟩ := hbecomes i
  constructor
  · rw [← hending]
    exact x.prefix_noted _ _
  · intro answer hended
    rw [hended] at hx
    cases x with
    | ended answer' =>
      obtain rfl := Thread.ended.inj hx
      exact hending.symm
    | step move rest => cases hx
    | note event rest => cases hx

end Thread
