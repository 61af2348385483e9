import Relentless.Wait.Expr
import Relentless.Wait.JitterHistory

/-!
# Delays in the Middle of Everything Else

A wait expression whose jittered nodes are strategies of a process, asked for delays
while the process goes on with its other strategies.

- `Action.Touches` — the actions that change a strategy
- `Process.draw` — `jitter_from` of a strategy of the process
- `Pinned` — the history of a strategy ends in a seed and perhaps nonces
- `session` — the delays of an expression, with other actions in between
-/

namespace Relentless

variable {W : Type}

/-! ## §1 Pinned strategies -/

/-- The actions that change the strategy `i`: a clone only reads its original. -/
def Action.Touches (i : ℕ) : Action W → Prop
  | .new .. | .clone .. => False
  | .withSeed j _ | .withNonce j _ | .nextWait j _ _ => j = i

/-- The nonce of the last `with_nonce` on the strategy `i`, if there is one. -/
def lastNonce (i : ℕ) : List (Action W) → Option UInt64
  | [] => none
  | .withNonce j nonce :: actions =>
    (lastNonce i actions).or (if j = i then some nonce else none)
  | _ :: actions => lastNonce i actions

/-- The strategy `i` exists when the history gives it the seed `seed`, and from then on
it is given only nonces, the last of them `nonce`. -/
def Pinned (target : Target) (history : List (Action W)) (i : ℕ) (seed : UInt64)
    (nonce : Option UInt64) : Prop :=
  ∃ before after, history = before ++ .withSeed i seed :: after ∧
    i < (Process.run target before).instances.length ∧
    (∀ action ∈ after, action.Touches i → ∃ n, action = .withNonce i n) ∧
    lastNonce i after = nonce

/-! ## §2 Sessions -/

/-- A draw of the strategy `i`; a process without it passes the base through. -/
def Process.draw (i : ℕ) (base : Duration) (state : RetryState) : Eff (Process W) Duration :=
  fun p =>
    match p.instances[i]? with
    | some inst =>
      ((inst.strategy.nextWait base state).1,
        { p with instances := p.instances.modify i (·.nextWait base state) })
    | none => (base, p)

/-- A step of a session: ask the expression for a delay, or do something else. -/
inductive SessionStep (W : Type) where
  | call (state : RetryState)
  | other (action : Action W)

/-- The states an expression is asked with. -/
def asked : List (SessionStep W) → List RetryState
  | [] => []
  | .call state :: steps => state :: asked steps
  | .other _ :: steps => asked steps

/-- The delays that the expression gives in a session. -/
def session (target : Target) (expr : WaitExpr ℕ) :
    List (SessionStep W) → Eff (Process W) (List Duration)
  | [] => pure []
  | .call state :: steps => do
    let delay ← expr.nextWait Process.draw state
    let later ← session target expr steps
    return delay :: later
  | .other action :: steps => fun p => session target expr steps (p.step target action)

/-- The other actions of a session leave the expression's strategies alone. -/
def Apart (expr : WaitExpr ℕ) (steps : List (SessionStep W)) : Prop :=
  ∀ action, SessionStep.other action ∈ steps → ∀ i ∈ expr.nodes, ¬action.Touches i

/-! ## §3 What the actions do to one strategy -/

namespace Process

theorem getElem?_modify_of_ne {p : Process W} {i j : ℕ} (h : j ≠ i)
    (f : Instance W → Instance W) : (p.instances.modify j f)[i]? = p.instances[i]? := by
  simp [h]

theorem getElem?_add {target : Target} {now : ℤ} {p : Process W}
    {make : Eff ℕ (Jittered W)} {i : ℕ} (hi : i < p.instances.length) :
    (p.add target now make).instances[i]? = p.instances[i]? :=
  List.getElem?_append_left hi

/-- Actions on other strategies leave a strategy as it is. -/
theorem getElem?_step {target : Target} {p : Process W} {action : Action W} {i : ℕ}
    (hi : i < p.instances.length) (h : ¬action.Touches i) :
    (p.step target action).instances[i]? = p.instances[i]? := by
  cases action with
  | new inner kind now => exact getElem?_add hi
  | clone original inner now =>
    rcases hsource : p.instances[original]? with _ | source
    · simp only [step, hsource]
    · simp only [step, hsource]
      exact getElem?_add hi
  | withSeed j seed => exact getElem?_modify_of_ne h _
  | withNonce j nonce => exact getElem?_modify_of_ne h _
  | nextWait j base state => exact getElem?_modify_of_ne h _

/-- The generator of the strategy `i` is freshly seeded with a seed and a nonce. -/
def Seeded (p : Process W) (i : ℕ) (seed nonce : UInt64) : Prop :=
  ∃ inst, p.instances[i]? = some inst ∧ inst.strategy.seed = seed ∧
    inst.strategy.rng = seededRng seed nonce

theorem Seeded.lt {p : Process W} {i : ℕ} {seed nonce : UInt64} (h : p.Seeded i seed nonce) :
    i < p.instances.length := by
  obtain ⟨inst, hinst, -⟩ := h
  exact (List.getElem?_eq_some_iff.mp hinst).1

/-- `with_seed` erases whatever nonce was there before. -/
theorem seeded_withSeed {target : Target} {p : Process W} {i : ℕ}
    (hi : i < p.instances.length) (seed : UInt64) :
    (p.step target (.withSeed i seed)).Seeded i seed (deriveNonce seed) := by
  refine ⟨(p.instances[i]).withSeed seed, ?_, rfl, rfl⟩
  simp [step, hi]

/-- `with_nonce` replaces the nonce and keeps the seed. -/
theorem Seeded.withNonce {target : Target} {p : Process W} {i : ℕ} {seed nonce : UInt64}
    (h : p.Seeded i seed nonce) (n : UInt64) :
    (p.step target (.withNonce i n)).Seeded i seed n := by
  obtain ⟨inst, hinst, rfl, -⟩ := h
  refine ⟨inst.withNonce n, ?_, rfl, rfl⟩
  simp [step, hinst]

/-- **A tail of nonces** leaves the generator seeded with the last of them. -/
theorem Seeded.foldl {target : Target} {p : Process W} {i : ℕ} {seed nonce : UInt64}
    (h : p.Seeded i seed nonce) {after : List (Action W)}
    (htail : ∀ action ∈ after, action.Touches i → ∃ n, action = .withNonce i n) :
    (after.foldl (step target) p).Seeded i seed ((lastNonce i after).getD nonce) := by
  induction after generalizing p nonce with
  | nil => exact h
  | cons action after ih =>
    have htail' := fun a ha => htail a (List.mem_cons_of_mem _ ha)
    by_cases htouches : action.Touches i
    · -- A nonce for the strategy replaces the one before.
      obtain ⟨n, rfl⟩ := htail action List.mem_cons_self htouches
      have hlast : (lastNonce i (.withNonce i n :: after)).getD nonce =
          (lastNonce i after).getD n := by
        cases hrest : lastNonce i after <;> simp [lastNonce, hrest]
      rw [hlast]
      exact ih (h.withNonce n) htail'
    · -- An action on another strategy leaves this one as it is.
      have hsame : (p.step target action).Seeded i seed nonce := by
        unfold Seeded
        rwa [getElem?_step h.lt htouches]
      have hlast : lastNonce i (action :: after) = lastNonce i after := by
        cases action with
        | withNonce j n =>
          have hne : j ≠ i := htouches
          simp [lastNonce, hne]
        | _ => rfl
      rw [hlast]
      exact ih hsame htail'

end Process

/-- A pinned strategy is freshly seeded, whatever the rest of the history did. -/
theorem Pinned.seeded {target : Target} {history : List (Action W)} {i : ℕ} {seed : UInt64}
    {nonce : Option UInt64} (h : Pinned target history i seed nonce) :
    (Process.run target history).Seeded i seed (nonce.getD (deriveNonce seed)) := by
  obtain ⟨before, after, rfl, hi, htail, rfl⟩ := h
  rw [Process.run, List.foldl_append, List.foldl_cons]
  exact (Process.seeded_withSeed hi seed).foldl htail

end Relentless
