import Mathlib.Order.Defs.Unbundled
import Relentless.Library.Loop

/-!
# Two Runs Side by Side

What two computations on different worlds have in common, when their worlds are related
before and after, and what one computation does to its world.

- `Eff.Couples` — related worlds lead to related answers and related worlds
- `Eff.Couples.bind`, `Eff.Couples.runFor` — sequences and loops are coupled step by step
- `Eff.Moves` — a computation takes every world only to a related one
- `Eff.Moves.Inherits` — what a computation keeps of its world
- `Eff.Part.run` — a computation on one part of a larger world
-/

namespace Eff

open StateLoop

variable {σ σ' α α' β β' : Type} {R : σ → σ' → Prop} {P : α → α' → Prop} {Q : β → β' → Prop}

/-! ## §1 Coupled computations -/

/-- From related worlds, the two computations give related answers and leave related worlds. -/
def Couples (R : σ → σ' → Prop) (P : α → α' → Prop) (x : Eff σ α) (y : Eff σ' α') : Prop :=
  ∀ w w', R w w' → P (x w).1 (y w').1 ∧ R (x w).2 (y w').2

namespace Couples

theorem pure {a : α} {a' : α'} (h : P a a') :
    Couples R P (Pure.pure a : Eff σ α) (Pure.pure a' : Eff σ' α') :=
  fun _ _ hworlds => ⟨h, hworlds⟩

theorem bind {x : Eff σ α} {y : Eff σ' α'} {f : α → Eff σ β} {g : α' → Eff σ' β'}
    (hx : Couples R P x y) (hf : ∀ a a', P a a' → Couples R Q (f a) (g a')) :
    Couples R Q (x >>= f) (y >>= g) := by
  intro w w' hworlds
  obtain ⟨hanswers, hworlds'⟩ := hx w w' hworlds
  exact hf _ _ hanswers _ _ hworlds'

/-- After computations with one answer, only what follows from it is left to couple. -/
theorem bind_same {x : Eff σ α} {y : Eff σ' α} {f : α → Eff σ β} {g : α → Eff σ' β'}
    (hx : Couples R Eq x y) (hf : ∀ a, Couples R Q (f a) (g a)) :
    Couples R Q (x >>= f) (y >>= g) := by
  refine hx.bind ?_
  rintro a _ rfl
  exact hf a

/-- Two turns of coupled loops: both go on, or both are left. -/
def TurnRel (P : α → α' → Prop) (Q : β → β' → Prop) : Turn α β → Turn α' β' → Prop
  | .again a, .again a' => P a a'
  | .done b, .done b' => Q b b'
  | _, _ => False

/-- **Coupled bodies** make coupled loops. -/
theorem runFor {body : α → Eff σ (Turn α β)} {body' : α' → Eff σ' (Turn α' β')}
    (hbody : ∀ a a', P a a' → Couples R (TurnRel P Q) (body a) (body' a')) (n : ℕ) {a : α}
    {a' : α'} (ha : P a a') :
    Couples R (TurnRel P Q) (StateLoop.runFor body n a) (StateLoop.runFor body' n a') := by
  induction n generalizing a a' with
  | zero => exact pure ha
  | succ n ih =>
    refine (hbody a a' ha).bind fun turn turn' hturn => ?_
    cases turn with
    | again next =>
      cases turn' with
      | again next' => exact ih hturn
      | done result' => exact hturn.elim
    | done result =>
      cases turn' with
      | again next' => exact hturn.elim
      | done result' => exact pure hturn

end Couples

/-! ## §2 What a computation does to its world -/

/-- The computation takes every world only to one that it is related to. -/
def Moves (r : σ → σ → Prop) (x : Eff σ α) : Prop := ∀ w, r w (x w).2

namespace Moves

variable {r : σ → σ → Prop}

theorem pure [Std.Refl r] (a : α) : Moves r (Pure.pure a : Eff σ α) := refl_of r

theorem bind [IsTrans σ r] {x : Eff σ α} {f : α → Eff σ β} (hx : Moves r x)
    (hf : ∀ a, Moves r (f a)) : Moves r (x >>= f) :=
  fun w => trans_of r (hx w) (hf _ _)

theorem mono {r' : σ → σ → Prop} (h : ∀ w w', r w w' → r' w w') {x : Eff σ α}
    (hx : Moves r x) : Moves r' x :=
  fun w => h _ _ (hx w)

/-- What holds of the world that was left holds of the one that is found, if it does. -/
def Inherits (P : σ → Prop) (w w' : σ) : Prop := P w → P w'

instance {P : σ → Prop} : IsPreorder σ (Inherits P) where
  refl _ h := h
  trans _ _ _ h h' hw := h' (h hw)

theorem runFor [Std.Refl r] [IsTrans σ r] {body : α → Eff σ (Turn α β)}
    (hbody : ∀ a, Moves r (body a)) (n : ℕ) (a : α) : Moves r (StateLoop.runFor body n a) := by
  induction n generalizing a with
  | zero => exact pure _
  | succ n ih =>
    refine (hbody a).bind fun turn => ?_
    cases turn with
    | again next => exact ih next
    | done result => exact pure _

/-- A computation beside itself, with a world that it has come from. -/
theorem couples [IsTrans σ r] {x : Eff σ α} (hx : Moves r x) (w₀ : σ) :
    Couples (fun w w' => w = w' ∧ r w₀ w) Eq x x := by
  rintro w _ ⟨rfl, hfrom⟩
  exact ⟨rfl, rfl, trans_of r hfrom (hx w)⟩

/-- What couples with itself, wherever it came from, moves worlds as its parts do. -/
theorem of_couples [Std.Refl r] {x : Eff σ α} {P : α → α → Prop}
    (h : ∀ w₀, Couples (fun w w' => w = w' ∧ r w₀ w) P x x) : Moves r x :=
  fun w => (h w w w ⟨rfl, refl_of r w⟩).2.2

end Moves

/-! ## §3 One part of a larger world -/

/-- A part of a larger world: how to read it, and how to put another one in its place. -/
structure Part (σ τ : Type) where
  get : τ → σ
  put : σ → τ → τ
  get_put : ∀ w t, get (put w t) = w

namespace Part

variable {τ : Type}

/-- Run a computation on the part, and leave the rest of the world alone. -/
def run (part : Part σ τ) (x : Eff σ α) : Eff τ α :=
  fun t => ((x (part.get t)).1, part.put (x (part.get t)).2 t)

/-- The left part of a pair. -/
def left : Part σ (σ × τ) where
  get := Prod.fst
  put w t := (w, t.2)
  get_put _ _ := rfl

/-- The right part of a pair. -/
def right : Part τ (σ × τ) where
  get := Prod.snd
  put w t := (t.1, w)
  get_put _ _ := rfl

/-- **On a part** a computation does what it does on its own. -/
theorem couples (part : Part σ τ) (x : Eff σ α) :
    Couples (fun w t => part.get t = w) Eq x (part.run x) := by
  rintro _ t rfl
  exact ⟨rfl, part.get_put _ t⟩

/-- It does to the larger world what another part put in there does. -/
theorem moves {r : τ → τ → Prop} (part : Part σ τ) (h : ∀ w t, r t (part.put w t))
    (x : Eff σ α) : Moves r (part.run x) :=
  fun t => h _ t

end Part

end Eff
