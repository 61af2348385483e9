import Relentless.Library.Effect
import Relentless.Library.Interleaving
import Relentless.Library.Relational

/-!
# Threads of Atomic Steps

A computation that can be interrupted between any two of its steps, and that notes events of
its own.  What a thread comes to among others is what it comes to on its own, in a world
where every step is followed by the changes that the others have made; and when all the
others keep to a relation, so do these changes.

- `Thread` — the computations; `Thread.atomic`, `Thread.record` — one step, one note
- `Thread.Act` — a thread as a process whose private state is its log
- `Thread.advance` — its next step, for schedules of threads
- `Thread.Moves` — all that a thread can do to the world, which the others rely on
- `Interrupted` — a thread whose world is exchanged after each of its steps
- `Replay`, `Thread.replay` — a thread that nobody interrupts, in a world that changes
- `Thread.replay_of_run` — threads that run among others, replayed
-/

/-- A computation on the world `σ` that has ended, or takes one step and then goes on as the
world it found says, or notes an event. -/
inductive Thread (σ E α : Type) : Type where
  | ended (answer : α)
  | step (move : σ → σ) (rest : σ → Thread σ E α)
  | note (event : E) (rest : Thread σ E α)

namespace Thread

variable {σ E α β : Type}

/-- One thread after another. -/
def andThen : Thread σ E α → (α → Thread σ E β) → Thread σ E β
  | .ended answer, f => f answer
  | .step move rest, f => .step move fun w => (rest w).andThen f
  | .note event rest, f => .note event (rest.andThen f)

instance : Monad (Thread σ E) where
  pure := .ended
  bind := andThen

/-- A computation as one step. -/
def atomic (x : Eff σ α) : Thread σ E α := .step (fun w => (x w).2) fun w => .ended (x w).1

/-- A note of one event. -/
def record (event : E) : Thread σ E Unit := .note event (.ended ())

/-- A thread without notes, among those with notes. -/
def silent : Thread σ Empty α → Thread σ E α
  | .ended answer => .ended answer
  | .step move rest => .step move fun w => (rest w).silent

/-- A step of a thread on the world that it shares, or on its log. -/
inductive Act : σ × (List E × Thread σ E α) → σ × (List E × Thread σ E α) → Prop where
  | step (w : σ) (log : List E) (move : σ → σ) (rest : σ → Thread σ E α) :
      Act (w, (log, .step move rest)) (move w, (log, rest w))
  | note (w : σ) (log : List E) (event : E) (rest : Thread σ E α) :
      Act (w, (log, .note event rest)) (w, (log ++ [event], rest))

/-- The next step of a thread, if it has one. -/
def advance : σ × (List E × Thread σ E α) → σ × (List E × Thread σ E α)
  | (w, (log, .ended answer)) => (w, (log, .ended answer))
  | (w, (log, .step move rest)) => (move w, (log, rest w))
  | (w, (log, .note event rest)) => (w, (log ++ [event], rest))

/-- The answer of a thread that has ended. -/
def answer? : Thread σ E α → Option α
  | .ended answer => some answer
  | _ => none

theorem eq_ended_of_answer? {thread : Thread σ E α} {answer : α}
    (h : thread.answer? = some answer) : thread = .ended answer := by
  cases thread with
  | ended answer' => exact congrArg _ (Option.some.inj h)
  | step move rest => cases h
  | note event rest => cases h

theorem exists_ended {thread : Thread σ E α} (h : thread.answer?.isSome) :
    ∃ answer, thread = .ended answer := by
  obtain ⟨answer, hanswer⟩ := Option.isSome_iff_exists.mp h
  exact ⟨answer, eq_ended_of_answer? hanswer⟩

theorem act_advance (s : σ × (List E × Thread σ E α)) : Act s (advance s) ∨ advance s = s := by
  obtain ⟨w, log, thread⟩ := s
  cases thread with
  | ended answer => exact .inr rfl
  | step move rest => exact .inl (.step w log move rest)
  | note event rest => exact .inl (.note w log event rest)

/-! ## §1 What a thread does to the world -/

/-- Every step that the thread can take changes the world as `rely` says. -/
def Moves (rely : σ → σ → Prop) : Thread σ E α → Prop
  | .ended _ => True
  | .step move rest => ∀ w, rely w (move w) ∧ (rest w).Moves rely
  | .note _ rest => rest.Moves rely

/-- What nobody can rely on. -/
def Anything (_ _ : σ) : Prop := True

instance : IsPreorder σ Anything where
  refl _ := trivial
  trans _ _ _ _ _ := trivial

theorem anything_of {outside : σ → σ → Prop} (w w' : σ) (_ : outside w w') : Anything w w' :=
  trivial

namespace Moves

variable {rely : σ → σ → Prop}

theorem anything (x : Thread σ E α) : x.Moves Anything := by
  induction x with
  | ended answer => trivial
  | step move rest ih => exact fun w => ⟨trivial, ih w⟩
  | note event rest ih => exact ih

theorem bind {x : Thread σ E α} {f : α → Thread σ E β} (hx : x.Moves rely)
    (hf : ∀ a, (f a).Moves rely) : (x >>= f).Moves rely := by
  induction x with
  | ended answer => exact hf answer
  | step move rest ih => exact fun w => ⟨(hx w).1, ih w (hx w).2⟩
  | note event rest ih => exact ih hx

theorem atomic {x : Eff σ α} (hx : Eff.Moves rely x) : (atomic x : Thread σ E α).Moves rely :=
  fun w => ⟨hx w, trivial⟩

theorem silent {x : Thread σ Empty α} (hx : x.Moves rely) :
    (x.silent : Thread σ E α).Moves rely := by
  induction x with
  | ended answer => trivial
  | step move rest ih => exact fun w => ⟨(hx w).1, ih w (hx w).2⟩
  | note event rest ih => exact event.elim

/-- A step of the thread is one of these, and so are the steps after it. -/
theorem act [IsPreorder σ rely] {s s' : σ × (List E × Thread σ E α)} (h : Act s s')
    (hmoves : s.2.2.Moves rely) : s'.2.2.Moves rely ∧ rely s.1 s'.1 := by
  cases h with
  | step w log move rest => exact ⟨(hmoves w).2, (hmoves w).1⟩
  | note w log event rest => exact ⟨hmoves, refl_of rely w⟩

end Moves

/-! ## §2 Interrupted threads -/

/-- The thread has come from one world to another, has become another thread, and has noted
`log`; after each step it went on in a world to which others have changed the one it left. -/
inductive Interrupted (rely : σ → σ → Prop) :
    σ × Thread σ E α → List E → σ × Thread σ E α → Prop where
  | rest (s : σ × Thread σ E α) : Interrupted rely s [] s
  | step (w w' : σ) (move : σ → σ) (next : σ → Thread σ E α) (log : List E)
      (s : σ × Thread σ E α) (hothers : rely (move w) w')
      (hrest : Interrupted rely (w', next w) log s) :
      Interrupted rely (w, .step move next) log s
  | note (w : σ) (event : E) (next : Thread σ E α) (log : List E) (s : σ × Thread σ E α)
      (hrest : Interrupted rely (w, next) log s) :
      Interrupted rely (w, .note event next) (event :: log) s

variable {rely : σ → σ → Prop}

namespace Interrupted

variable {s s' s'' : σ × Thread σ E α} {log log' : List E}

theorem trans (h : Interrupted rely s log s') (h' : Interrupted rely s' log' s'') :
    Interrupted rely s (log ++ log') s'' := by
  induction h with
  | rest s => exact h'
  | step w w' move next log s hothers hrest ih =>
    exact .step w w' move next _ s'' hothers (ih h')
  | note w event next log s hrest ih => exact .note w event next _ s'' (ih h')

variable [IsPreorder σ rely]

/-- The others change the world that was left, or the one to start from. -/
theorem others {w w' w₁ : σ} {thread thread' : Thread σ E α}
    (h : Interrupted rely (w, thread) log (w', thread')) (hothers : rely w' w₁) :
    ∃ w₀, rely w w₀ ∧ Interrupted rely (w₀, thread) log (w₁, thread') := by
  generalize hs : (w, thread) = s at h
  generalize hs' : (w', thread') = s' at h
  induction h generalizing w thread with
  | rest s =>
    obtain ⟨rfl, rfl⟩ := Prod.mk.inj (hs.trans hs'.symm)
    exact ⟨w₁, hothers, .rest _⟩
  | step w₂ w₃ move next log s hchange hrest ih =>
    cases hs
    obtain ⟨w₀, hmore, hrest'⟩ := ih rfl hs'
    exact ⟨w₂, refl_of rely w₂,
      .step w₂ w₀ move next log _ (trans_of rely hchange hmore) hrest'⟩
  | note w₂ event next log s hrest ih =>
    cases hs
    obtain ⟨w₀, hmore, hrest'⟩ := ih rfl hs'
    exact ⟨w₀, hmore, .note w₀ event next log _ hrest'⟩

/-- Whatever a thread has come to, left alone it ends. -/
theorem ends (rely : σ → σ → Prop) [IsPreorder σ rely] (w : σ) (thread : Thread σ E α) :
    ∃ log w' answer, Interrupted rely (w, thread) log (w', .ended answer) := by
  induction thread generalizing w with
  | ended answer => exact ⟨[], w, answer, .rest _⟩
  | step move next ih =>
    obtain ⟨log, w', answer, hends⟩ := ih w (move w)
    exact ⟨log, w', answer, .step w (move w) move next log _ (refl_of rely _) hends⟩
  | note event next ih =>
    obtain ⟨log, w', answer, hends⟩ := ih w
    exact ⟨event :: log, w', answer, .note w event next log _ hends⟩

end Interrupted

/-- **Among others, a thread is interrupted**, and starts in a world that they have left. -/
theorem interrupted_of_view [IsPreorder σ rely] {s s' : σ × (List E × Thread σ E α)}
    (h : Interleaving.View Act rely s s') :
    ∃ w log, rely s.1 w ∧ Interrupted rely (w, s.2.2) log (s'.1, s'.2.2) ∧
      s'.2.1 = s.2.1 ++ log := by
  induction h with
  | start => exact ⟨s.1, [], refl_of rely _, .rest _, (List.append_nil _).symm⟩
  | own s' s'' hview hact ih =>
    obtain ⟨w, log, hstart, hthread, hlog⟩ := ih
    cases hact with
    | step w' log' move next =>
      have hstep : Interrupted rely (w', .step move next) [] (move w', next w') :=
        .step w' (move w') move next [] _ (refl_of rely _) (.rest _)
      exact ⟨w, log, hstart, List.append_nil log ▸ hthread.trans hstep, hlog⟩
    | note w' log' event next =>
      have hnote : Interrupted rely (w', .note event next) [event] (w', next) :=
        .note w' event next [] _ (.rest _)
      refine ⟨w, log ++ [event], hstart, hthread.trans hnote, ?_⟩
      dsimp only at hlog ⊢
      rw [hlog, List.append_assoc]
  | others s' w hview hothers ih =>
    obtain ⟨w₁, log, hstart, hthread, hlog⟩ := ih
    obtain ⟨w₀, hmore, hthread'⟩ := hthread.others hothers
    exact ⟨w₀, log, trans_of rely hstart hmore, hthread', hlog⟩

/-! ## §3 Replays -/

/-- A world, with the changes that others will make to it after the next steps. -/
structure Replay (σ : Type) where
  world : σ
  changes : List (σ → σ)

namespace Replay

/-- What is found after a step that has left the world `w`. -/
def found (r : Replay σ) (w : σ) : Replay σ :=
  match r.changes with
  | [] => ⟨w, []⟩
  | change :: changes => ⟨change w, changes⟩

/-- All changes that are still to come are as `rely` says. -/
def Within (rely : σ → σ → Prop) (r : Replay σ) : Prop :=
  ∀ change ∈ r.changes, ∀ w, rely w (change w)

theorem Within.found [IsPreorder σ rely] {r : Replay σ} (h : r.Within rely) (w : σ) :
    (r.found w).Within rely ∧ rely w (r.found w).world := by
  obtain ⟨w₀, changes⟩ := r
  cases changes with
  | nil => exact ⟨h, refl_of rely w⟩
  | cons change changes =>
    obtain ⟨hchange, hchanges⟩ := List.forall_mem_cons.mp h
    exact ⟨hchanges, hchange w⟩

end Replay

/-- The thread without interruption, in a world that is changed as the replay says. -/
def replay : Thread σ E α → Eff (Replay σ × List E) α
  | .ended answer => pure answer
  | .step move rest => fun s => (rest s.1.world).replay (s.1.found (move s.1.world), s.2)
  | .note event rest => fun s => rest.replay (s.1, s.2 ++ [event])

@[simp] theorem replay_pure (answer : α) :
    (pure answer : Thread σ E α).replay = pure answer := rfl

@[simp] theorem replay_bind (x : Thread σ E α) (f : α → Thread σ E β) :
    (x >>= f).replay = x.replay >>= fun answer => (f answer).replay := by
  induction x with
  | ended answer => rfl
  | step move rest ih =>
    funext s
    exact congrFun (ih s.1.world) _
  | note event rest ih =>
    funext s
    exact congrFun ih _

/-- A thread without notes, on its own. -/
def alone (x : Thread σ Empty α) : Eff (Replay σ) α :=
  fun r => ((x.replay (r, [])).1, (x.replay (r, [])).2.1)

theorem replay_silent (x : Thread σ Empty α) (r : Replay σ) (log : List E) :
    (x.silent : Thread σ E α).replay (r, log) = ((x.alone r).1, ((x.alone r).2, log)) := by
  induction x generalizing r with
  | ended answer => rfl
  | step move rest ih => exact ih r.world (r.found (move r.world))
  | note event rest ih => exact event.elim

/-- On its own a thread changes the world as its steps, and those of the others, do. -/
theorem Moves.alone [IsPreorder σ rely] {x : Thread σ Empty α} (hx : x.Moves rely) {r : Replay σ}
    (hr : r.Within rely) :
    ((x.alone r).2).Within rely ∧ rely r.world (x.alone r).2.world := by
  induction x generalizing r with
  | ended answer => exact ⟨hr, refl_of rely _⟩
  | step move rest ih =>
    obtain ⟨hmove, hrest⟩ := hx r.world
    obtain ⟨hfound, hothers⟩ := hr.found (move r.world)
    obtain ⟨hafter, hmore⟩ := ih r.world hrest hfound
    exact ⟨hafter, trans_of rely hmove (trans_of rely hothers hmore)⟩
  | note event rest ih => exact event.elim

/-- Whatever the thread finds, what it ends with is a `P`. -/
def Answers (P : α → Prop) : Thread σ E α → Prop
  | .ended answer => P answer
  | .step _ rest => ∀ w, (rest w).Answers P
  | .note _ rest => rest.Answers P

theorem Answers.bind {P : α → Prop} {Q : β → Prop} {x : Thread σ E α} {f : α → Thread σ E β}
    (hx : x.Answers P) (hf : ∀ a, P a → (f a).Answers Q) : (x >>= f).Answers Q := by
  induction x with
  | ended answer => exact hf answer hx
  | step move rest ih => exact fun w => ih w (hx w)
  | note event rest ih => exact ih hx

theorem Answers.alone {P : α → Prop} {x : Thread σ Empty α} (hx : x.Answers P) (r : Replay σ) :
    P (x.alone r).1 := by
  induction x generalizing r with
  | ended answer => exact hx
  | step move rest ih => exact ih r.world (hx r.world) (r.found (move r.world))
  | note event rest ih => exact event.elim

/-- **An interrupted thread is a replay**: there are changes by others with which the thread
on its own comes to the same. -/
theorem Interrupted.replay [IsPreorder σ rely] {s s' : σ × Thread σ E α} {log : List E}
    (h : Interrupted rely s log s') :
    ∃ changes : List (σ → σ), (∀ change ∈ changes, ∀ w, rely w (change w)) ∧
      ∀ later log₀, s.2.replay (⟨s.1, changes ++ later⟩, log₀) =
        s'.2.replay (⟨s'.1, later⟩, log₀ ++ log) := by
  classical
  induction h with
  | rest s =>
    refine ⟨[], List.forall_mem_nil _, fun later log₀ => ?_⟩
    rw [List.append_nil, List.nil_append]
  | step w w' move next log s hothers hrest ih =>
    obtain ⟨changes, hchanges, hreplay⟩ := ih
    -- The others leave all worlds as they are but the one that this step has left.
    refine ⟨Function.update id (move w) w' :: changes, List.forall_mem_cons.mpr ⟨?_, hchanges⟩,
      fun later log₀ => ?_⟩
    · intro w₁
      by_cases hw₁ : w₁ = move w
      · rw [hw₁, Function.update_self]
        exact hothers
      · rw [Function.update_of_ne hw₁]
        exact refl_of rely w₁
    · refine Eq.trans ?_ (hreplay later log₀)
      have hfound : (⟨w, Function.update id (move w) w' :: (changes ++ later)⟩ : Replay σ).found
          (move w) = ⟨w', changes ++ later⟩ :=
        congrArg (Replay.mk · _) (Function.update_self _ _ _)
      rw [Thread.replay, List.cons_append]
      dsimp only
      rw [hfound]
  | note w event next log s hrest ih =>
    obtain ⟨changes, hchanges, hreplay⟩ := ih
    refine ⟨changes, hchanges, fun later log₀ => ?_⟩
    refine (hreplay later (log₀ ++ [event])).trans ?_
    rw [List.append_assoc, List.singleton_append]

/-- **Threads that run among others, replayed.**  When all the others do to the world what
`rely` says, what a thread has noted is a beginning of what some replay of it notes, and all
of it when the thread has ended, with the answer of the replay. -/
theorem replay_of_run [IsPreorder σ rely] {ι : Type} [DecidableEq ι] {E α : ι → Type}
    {outside : σ → σ → Prop} {threads : (i : ι) → Thread σ (E i) (α i)} {w₀ : σ}
    {s : σ × ((i : ι) → List (E i) × Thread σ (E i) (α i))}
    (h : Interleaving.Run (fun _ => Act) outside (w₀, fun i => ([], threads i)) s)
    (hout : ∀ w w', outside w w' → rely w w') (i : ι)
    (hmoves : ∀ j, j ≠ i → (threads j).Moves rely) :
    ∃ (r r' : Replay σ) (answer : α i) (log : List (E i)), rely w₀ r.world ∧ r.Within rely ∧
      (threads i).replay (r, []) = (answer, (r', log)) ∧ (s.2 i).1 <+: log ∧
      ∀ answer', (s.2 i).2 = .ended answer' → (s.2 i).1 = log ∧ answer' = answer := by
  have hview := h.view (J := fun j t => t.2.Moves rely) (i := i) hout hmoves
    fun j hj w t next hthread hact => Moves.act hact hthread
  obtain ⟨w, log, hstart, hthread, hlog⟩ := interrupted_of_view hview
  -- What is left of the thread ends when it is left alone from here on.
  obtain ⟨log', w', answer, hends⟩ := Interrupted.ends rely s.1 (s.2 i).2
  obtain ⟨changes, hchanges, hreplay⟩ := (hthread.trans hends).replay
  have hlog : (s.2 i).1 = log := hlog
  rw [← List.append_nil changes] at hchanges
  refine ⟨⟨w, changes ++ []⟩, ⟨w', []⟩, answer, log ++ log', hstart, hchanges, hreplay [] [],
    ?_, fun answer' h' => ?_⟩
  · exact hlog ▸ List.prefix_append log log'
  · rw [h'] at hends
    cases hends with
    | rest _ => exact ⟨hlog.trans (List.append_nil log).symm, rfl⟩

end Thread
