import Relentless.Library.Relational

/-!
# Code for All Monads

What is written once for all monads does in one of them what it does in another, when its
parts do, whatever "the same" means, as long as `pure` and `bind` respect it.

- `MonadRel` — a relation between the computations of two monads
- `MonadRel.runFor` — loops with related bodies are related
- `MonadRel.of_keeps` — a property of the computations of one monad
- `MonadRel.couples` — the same answers, from related worlds
-/

/-- A relation between the computations of two monads, that `pure` and `bind` respect. -/
structure MonadRel (m m' : Type → Type) [Monad m] [Monad m'] where
  rel : ∀ {α : Type}, m α → m' α → Prop
  pure : ∀ {α : Type} (a : α), rel (Pure.pure a) (Pure.pure a)
  bind : ∀ {α β : Type} {x : m α} {x' : m' α} {f : α → m β} {f' : α → m' β}, rel x x' →
    (∀ a, rel (f a) (f' a)) → rel (x >>= f) (x' >>= f')

namespace MonadRel

open StateLoop

variable {m m' : Type → Type} [Monad m] [Monad m']

/-- **Loops** with related bodies are related. -/
theorem runFor (T : MonadRel m m') {α β : Type} {body : α → m (Turn α β)}
    {body' : α → m' (Turn α β)} (hbody : ∀ a, T.rel (body a) (body' a)) (n : ℕ) (a : α) :
    T.rel (StateLoop.runFor body n a) (StateLoop.runFor body' n a) := by
  induction n generalizing a with
  | zero => exact T.pure _
  | succ n ih =>
    refine T.bind (hbody a) fun turn => ?_
    cases turn with
    | again next => exact ih next
    | done result => exact T.pure _

/-- A property that `pure` and `bind` keep, as a relation. -/
def of_keeps (P : ∀ {α : Type}, m α → Prop) (hpure : ∀ {α : Type} (a : α), P (Pure.pure a : m α))
    (hbind : ∀ {α β : Type} {x : m α} {f : α → m β}, P x → (∀ a, P (f a)) → P (x >>= f)) :
    MonadRel m m where
  rel x _ := P x
  pure := hpure
  bind hx hf := hbind hx hf

/-- Computations on related worlds with the same answers, that keep the worlds related. -/
def couples {σ σ' : Type} (J : σ → σ' → Prop) : MonadRel (Eff σ) (Eff σ') where
  rel x y := Eff.Couples J Eq x y
  pure _ := Eff.Couples.pure rfl
  bind hx hf := hx.bind_same hf

end MonadRel
