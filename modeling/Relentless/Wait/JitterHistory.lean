import Relentless.Wait.Jitter

/-!
# Histories of Jittered Strategies

Everything a process does with its jittered strategies, in the order of the atomic
steps, and what the nonces and streams of the strategies are at any point of it.

- `Instance` — a jittered strategy, with a record of where its stream came from
- `Action` — constructions, clones, seeds, nonces and draws
- `Process.run` — the process after a history
- `Process.Sound` — nonces come from the counter, streams from seeds and nonces
-/

namespace Relentless

variable {W : Type}

/-! ## §1 Processes -/

/-- A jittered strategy of the process.  The record beside it is what the history
did: the nonce it was handed, the wall clock then observed, the generator that its
stream last started from, and the nonce of its last `with_seed` or `with_nonce`. -/
structure Instance (W : Type) where
  strategy : Jittered W
  nonce : UInt64
  observed : ℤ
  start : SplitMix64
  pinned : Option UInt64

namespace Instance

/-- A strategy that was just constructed or cloned. -/
def born (strategy : Jittered W) (nonce : UInt64) (observed : ℤ) : Instance W :=
  { strategy, nonce, observed, start := strategy.rng, pinned := none }

def withSeed (self : Instance W) (seed : UInt64) : Instance W :=
  let strategy := self.strategy.withSeed seed
  { self with strategy, start := strategy.rng, pinned := some (deriveNonce seed) }

def withNonce (self : Instance W) (nonce : UInt64) : Instance W :=
  let strategy := self.strategy.withNonce nonce
  { self with strategy, start := strategy.rng, pinned := some nonce }

def nextWait (self : Instance W) (base : Duration) (state : RetryState) : Instance W :=
  { self with strategy := (self.strategy.nextWait base state).2 }

end Instance

/-- The nonce counter and the strategies made so far, oldest first. -/
structure Process (W : Type) where
  counter : ℕ
  instances : List (Instance W)

/-- One step of the process.  Constructions and clones observe the wall clock; the
readings need not follow the order of the counter, since threads may be preempted
between the two.  A jittered inner strategy is an instance of its own, cloned first. -/
inductive Action (W : Type) where
  | new (inner : W) (kind : JitterKind) (now : ℤ)
  | clone (original : ℕ) (inner : W) (now : ℤ)
  | withSeed (target : ℕ) (seed : UInt64)
  | withNonce (target : ℕ) (nonce : UInt64)
  | nextWait (target : ℕ) (base : Duration) (state : RetryState)

/-- Constructions and clones take a nonce from the counter. -/
def Action.takesNonce : Action W → Bool
  | .new .. | .clone .. => true
  | _ => false

namespace Process

/-- The counter starts at one. -/
def launch : Process W := ⟨1, []⟩

/-- The process with one more strategy, made by `make`. -/
def add (target : Target) (now : ℤ) (self : Process W) (make : Eff ℕ (Jittered W)) :
    Process W :=
  let (strategy, counter) := make self.counter
  let nonce := (nextJitterNonce target now self.counter).1
  { counter, instances := self.instances ++ [.born strategy nonce now] }

def step (target : Target) (self : Process W) : Action W → Process W
  | .new inner kind now => self.add target now (Jittered.new target now inner kind)
  | .clone original inner now =>
    match self.instances[original]? with
    | some source => self.add target now (source.strategy.clone target now inner)
    | none => self
  | .withSeed i seed => { self with instances := self.instances.modify i (·.withSeed seed) }
  | .withNonce i nonce => { self with instances := self.instances.modify i (·.withNonce nonce) }
  | .nextWait i base state =>
    { self with instances := self.instances.modify i (·.nextWait base state) }

/-- The process after a history. -/
def run (target : Target) (history : List (Action W)) : Process W :=
  history.foldl (step target) launch

end Process

/-- How many nonces a history takes at most. -/
def draws (history : List (Action W)) : ℕ := history.countP Action.takesNonce

/-! ## §2 Where nonces and streams come from -/

/-- The nonce handed out when the counter has been taken from `k` times. -/
def nthNonce (width : PointerWidth) (std : Bool) (k : ℕ) (now : ℤ) : UInt64 :=
  (nextJitterNonce (.atomics width std) now ((k + 1) % 2 ^ width.bits)).1

/-- The record of the `k`-th instance: it was handed the nonce of its place, and its
stream started from its seed and its pinned nonce, or else the one it was handed. -/
structure Instance.Genuine (width : PointerWidth) (std : Bool) (k : ℕ) (inst : Instance W) :
    Prop where
  nonce : inst.nonce = nthNonce width std k inst.observed
  start : inst.start = seededRng inst.strategy.seed (inst.pinned.getD inst.nonce)

/-- The counter counts the instances, and their records are genuine. -/
structure Process.Sound (width : PointerWidth) (std : Bool) (p : Process W) : Prop where
  counter : p.counter = (p.instances.length + 1) % 2 ^ width.bits
  genuine : ∀ (k : ℕ) (inst : Instance W), p.instances[k]? = some inst →
    inst.Genuine width std k

variable {width : PointerWidth} {std : Bool}

namespace Process

theorem Sound.launch : (Process.launch : Process W).Sound width std := by
  constructor
  case counter => cases width <;> rfl
  case genuine =>
    intro k inst hinst
    cases hinst

/-- A change to one instance that keeps its record genuine. -/
theorem Sound.modify {p : Process W} (h : p.Sound width std) (i : ℕ)
    (f : Instance W → Instance W)
    (hf : ∀ (k : ℕ) (inst : Instance W), inst.Genuine width std k →
      (f inst).Genuine width std k) :
    ({ p with instances := p.instances.modify i f } : Process W).Sound width std := by
  constructor
  case counter =>
    rw [List.length_modify]
    exact h.counter
  case genuine =>
    intro k inst hinst
    rw [List.getElem?_modify] at hinst
    obtain ⟨inst', hinst', rfl⟩ := Option.map_eq_some_iff.mp hinst
    split
    · exact hf k inst' (h.genuine k inst' hinst')
    · exact h.genuine k inst' hinst'

/-- One more instance whose generator is seeded with the nonce it was handed. -/
theorem Sound.add {p : Process W} (h : p.Sound width std) (now : ℤ)
    (make : Eff ℕ (Jittered W))
    (hcounter : (make p.counter).2 = (p.counter + 1) % 2 ^ width.bits)
    (hrng : (make p.counter).1.rng = seededRng (make p.counter).1.seed
      (nextJitterNonce (.atomics width std) now p.counter).1) :
    (p.add (.atomics width std) now make).Sound width std := by
  constructor
  case counter =>
    show (make p.counter).2 = ((p.instances ++ [_]).length + 1) % 2 ^ width.bits
    rw [hcounter, h.counter, List.length_append, List.length_singleton, Nat.mod_add_mod]
  case genuine =>
    intro k inst hinst
    -- The earlier instances are unchanged; the new one was handed the nonce of its place.
    rcases Nat.lt_trichotomy k p.instances.length with hk | rfl | hk
    · rw [Process.add, List.getElem?_append_left hk] at hinst
      exact h.genuine k inst hinst
    · rw [Process.add, List.getElem?_append_right (le_refl _), Nat.sub_self] at hinst
      obtain rfl := Option.some.inj hinst
      constructor
      case nonce =>
        show (nextJitterNonce (.atomics width std) now p.counter).1 = _
        rw [h.counter]
        rfl
      case start => exact hrng
    · rw [Process.add, List.getElem?_eq_none] at hinst
      · cases hinst
      · rw [List.length_append, List.length_singleton]
        exact hk

/-- Every step keeps the record sound. -/
theorem Sound.step {p : Process W} (h : p.Sound width std) (action : Action W) :
    (p.step (.atomics width std) action).Sound width std := by
  have htakes (now : ℤ) (counter : ℕ) :
      (nextJitterNonce (.atomics width std) now counter).2 = (counter + 1) % 2 ^ width.bits := by
    cases std <;> rfl
  -- Constructions and clones take from the counter; the others change one instance.
  cases action with
  | new inner kind now =>
    exact h.add now (Jittered.new _ now inner kind) (htakes now p.counter) rfl
  | clone original inner now =>
    cases hsource : p.instances[original]? with
    | none =>
      simp only [Process.step, hsource]
      exact h
    | some source =>
      simp only [Process.step, hsource]
      exact h.add now (source.strategy.clone _ now inner) (htakes now p.counter) rfl
  | withSeed i seed => exact h.modify i _ fun k inst hinst => ⟨hinst.nonce, rfl⟩
  | withNonce i nonce => exact h.modify i _ fun k inst hinst => ⟨hinst.nonce, rfl⟩
  | nextWait i base state =>
    exact h.modify i _ fun k inst hinst => ⟨hinst.nonce, hinst.start⟩

/-- **After any history** nonces come from the counter and streams from seeds. -/
theorem sound_run (width : PointerWidth) (std : Bool) (history : List (Action W)) :
    (run (.atomics width std) history).Sound width std := by
  have hfold (p : Process W) (h : p.Sound width std) :
      (history.foldl (step (.atomics width std)) p).Sound width std := by
    induction history generalizing p with
    | nil => exact h
    | cons action history ih => exact ih _ (h.step action)
  exact hfold _ .launch

/-- An action makes an instance only when it takes a nonce. -/
theorem length_instances_step (target : Target) (p : Process W) (action : Action W) :
    (p.step target action).instances.length ≤
      p.instances.length + if action.takesNonce then 1 else 0 := by
  cases action with
  | new inner kind now => simp [step, add, Action.takesNonce]
  | clone original inner now =>
    -- Cloning what does not exist makes nothing.
    cases hsource : p.instances[original]? <;> simp [step, hsource, add, Action.takesNonce]
  | withSeed i seed | withNonce i nonce | nextWait i base state =>
    simp [step, Action.takesNonce]

/-- A history makes at most as many instances as it takes nonces. -/
theorem length_instances_run (target : Target) (history : List (Action W)) :
    (run target history).instances.length ≤ draws history := by
  have hfold (p : Process W) :
      (history.foldl (step target) p).instances.length ≤ p.instances.length + draws history := by
    induction history generalizing p with
    | nil => exact le_refl _
    | cons action history ih =>
      have hdraws : draws (action :: history) =
          draws history + if action.takesNonce then 1 else 0 := List.countP_cons
      have hfirst := length_instances_step target p action
      have hrest := ih (p.step target action)
      rw [List.foldl_cons, hdraws]
      omega
  exact (hfold launch).trans (by simp [launch])

end Process

end Relentless
