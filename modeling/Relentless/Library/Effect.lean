import Mathlib.Logic.Basic

/-!
# World-Passing Computations

`Eff σ α` is a computation that yields an `α` and changes a world `σ`.  It is
the state monad without a transformer stack underneath, so that running a
computation on a world is plain application and reduces by `rfl`.

`Fallible ε σ α` is a computation that may also stop with an error `ε`; `GuardedBy` says
that it is a computation that cannot, unless a check fails.
-/

/-- A computation that reads and changes a world `σ` and yields an `α`. -/
def Eff (σ α : Type) : Type := σ → α × σ

namespace Eff

variable {σ α β : Type}

instance : Monad (Eff σ) where
  pure a := fun w => (a, w)
  bind x f := fun w => f (x w).1 (x w).2

@[simp] theorem bind_apply (x : Eff σ α) (f : α → Eff σ β) (w : σ) :
    (x >>= f) w = f (x w).1 (x w).2 := rfl

@[simp] theorem pure_apply (a : α) (w : σ) : (pure a : Eff σ α) w = (a, w) := rfl

@[simp] theorem map_apply (f : α → β) (x : Eff σ α) (w : σ) :
    (f <$> x) w = (f (x w).1, (x w).2) := rfl

/-- A computation leaves some world behind its answer. -/
theorem exists_world {x : Eff σ α} {w : σ} {a : α} (h : (x w).1 = a) : ∃ w', x w = (a, w') :=
  ⟨(x w).2, Prod.ext h rfl⟩

instance : LawfulMonad (Eff σ) :=
  LawfulMonad.mk' (Eff σ) (fun _ => rfl) (fun _ _ => rfl) (fun _ _ _ => rfl)

end Eff

/-- A computation on a world `σ` that may stop with an error `ε`. -/
def Fallible (ε σ α : Type) : Type := σ → Except ε α × σ

namespace Fallible

variable {ε σ α β : Type}

/-- Stop with an error, leaving the world as it is. -/
def raise (e : ε) : Fallible ε σ α := fun w => (.error e, w)

/-- A computation that cannot fail, run where failure is possible. -/
def ofEff (x : Eff σ α) : Fallible ε σ α := fun w => (.ok (x w).1, (x w).2)

instance : Monad (Fallible ε σ) where
  pure a := fun w => (.ok a, w)
  bind x f := fun w =>
    match x w with
    | (.ok a, w') => f a w'
    | (.error e, w') => (.error e, w')

@[simp] theorem pure_apply (a : α) (w : σ) :
    (pure a : Fallible ε σ α) w = (.ok a, w) := rfl

@[simp] theorem raise_apply (e : ε) (w : σ) : (raise e : Fallible ε σ α) w = (.error e, w) := rfl

@[simp] theorem ofEff_apply (x : Eff σ α) (w : σ) :
    (ofEff x : Fallible ε σ α) w = (.ok (x w).1, (x w).2) := rfl

@[simp] theorem ofEff_bind_apply (x : Eff σ α) (f : α → Fallible ε σ β) (w : σ) :
    ((ofEff x : Fallible ε σ α) >>= f) w = f (x w).1 (x w).2 := rfl

@[simp] theorem pure_bind_apply (a : α) (f : α → Fallible ε σ β) (w : σ) :
    ((pure a : Fallible ε σ α) >>= f) w = f a w := rfl

@[simp] theorem raise_bind_apply (e : ε) (f : α → Fallible ε σ β) (w : σ) :
    ((raise e : Fallible ε σ α) >>= f) w = (.error e, w) := rfl

@[simp] theorem ofEff_map_apply (f : α → β) (x : Eff σ α) (w : σ) :
    (f <$> (ofEff x : Fallible ε σ α)) w = (.ok (f (x w).1), (x w).2) := rfl

@[simp] theorem raise_map_apply (f : α → β) (e : ε) (w : σ) :
    (f <$> (raise e : Fallible ε σ α)) w = (.error e, w) := rfl

theorem ofEff_pure (a : α) : (ofEff (pure a) : Fallible ε σ α) = pure a := rfl

theorem ofEff_bind (x : Eff σ α) (f : α → Eff σ β) :
    (ofEff (x >>= f) : Fallible ε σ β) = ofEff x >>= fun a => ofEff (f a) := rfl

/-- A computation that succeeded hands its answer on. -/
theorem bind_ok {x : Fallible ε σ α} {w w' : σ} {a : α} (h : x w = (.ok a, w'))
    (f : α → Fallible ε σ β) : (x >>= f) w = f a w' := by
  show (match x w with
    | (.ok a, w') => f a w'
    | (.error e, w') => (.error e, w')) = f a w'
  rw [h]

/-- A computation that failed ends what was to follow it. -/
theorem bind_error {x : Fallible ε σ α} {w w' : σ} {e : ε} (h : x w = (.error e, w'))
    (f : α → Fallible ε σ β) : (x >>= f) w = (.error e, w') := by
  show (match x w with
    | (.ok a, w') => f a w'
    | (.error e, w') => (.error e, w')) = (.error e, w')
  rw [h]

instance : LawfulMonad (Fallible ε σ) := by
  refine LawfulMonad.mk' (Fallible ε σ) ?_ ?_ ?_
  · intro α x
    funext w
    show (match x w with
      | (.ok a, w') => (.ok a, w')
      | (.error e, w') => (.error e, w')) = x w
    rcases x w with ⟨_ | _, _⟩ <;> rfl
  · intro α β a f
    rfl
  · intro α β γ x f g
    funext w
    rcases h : x w with ⟨e | a, w'⟩
    · rw [bind_error (bind_error h f) g, bind_error h]
    · rw [bind_ok h]
      rcases h' : f a w' with ⟨e | b, w''⟩
      · rw [bind_error ((bind_ok h f).trans h') g, bind_error h']
      · rw [bind_ok ((bind_ok h f).trans h') g, bind_ok h']

end Fallible

/-- Guarded by the check `ok`, a result that may fail is `x` when the check passes, and the
error `e` when it does not. -/
structure GuardedBy {ε σ α : Type} (ok : Prop) (e : ε) (result : Except ε α × σ) (x : α × σ) :
    Prop where
  passes : ok → result = (.ok x.1, x.2)
  fails : ¬ ok → ∃ w', result = (.error e, w')

namespace GuardedBy

variable {ε σ α β : Type} {ok ok' : Prop} {e : ε}

/-- A result that is no error passes any check that holds. -/
theorem of_eq {result : Except ε α × σ} {x : α × σ} (hok : ok) (h : result = (.ok x.1, x.2)) :
    GuardedBy ok e result x where
  passes _ := h
  fails hnot := absurd hok hnot

/-- Two guarded computations in a row pass both checks, or fail. -/
theorem bind {comp : Fallible ε σ α} {f : α → Fallible ε σ β} {w : σ} {x : α × σ} {y : β × σ}
    (h : GuardedBy ok e (comp w) x) (hf : GuardedBy ok' e (f x.1 x.2) y) :
    GuardedBy (ok ∧ ok') e ((comp >>= f) w) y where
  passes hboth := (Fallible.bind_ok (h.passes hboth.1) f).trans (hf.passes hboth.2)
  fails hnot := by
    by_cases hok : ok
    · -- The first passes, so it is the second that fails.
      obtain ⟨w', herror⟩ := hf.fails fun hok' => hnot ⟨hok, hok'⟩
      exact ⟨w', (Fallible.bind_ok (h.passes hok) f).trans herror⟩
    · obtain ⟨w', herror⟩ := h.fails hok
      exact ⟨w', Fallible.bind_error herror f⟩

/-- What cannot fail may come first. -/
theorem bind_left {comp : Fallible ε σ α} {f : α → Fallible ε σ β} {w : σ} {x : α × σ}
    {y : β × σ} (h : comp w = (.ok x.1, x.2)) (hf : GuardedBy ok e (f x.1 x.2) y) :
    GuardedBy ok e ((comp >>= f) w) y := by
  rwa [Fallible.bind_ok h]

/-- What cannot fail may follow. -/
theorem bind_right {comp : Fallible ε σ α} {f : α → Fallible ε σ β} {w : σ} {x : α × σ}
    {y : β × σ} (h : GuardedBy ok e (comp w) x) (hf : f x.1 x.2 = (.ok y.1, y.2)) :
    GuardedBy ok e ((comp >>= f) w) y where
  passes hok := (Fallible.bind_ok (h.passes hok) f).trans hf
  fails hnot := by
    obtain ⟨w', herror⟩ := h.fails hnot
    exact ⟨w', Fallible.bind_error herror f⟩

end GuardedBy
