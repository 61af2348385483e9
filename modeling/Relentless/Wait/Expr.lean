import Relentless.Wait
import Relentless.Wait.Draws
import Relentless.Wait.Strategies

/-!
# Wait Expressions

Strategies as the combinators build them: a tree over fixed, linear and exponential
strategies, with caps, sums, chains and jitter.

- `WaitExpr` — the tree, whose jittered nodes are named by a type of their own
- `WaitExpr.nextWait` — `next_wait`, given how a jittered node draws
- `JitterNode`, `drawAt` — a jittered node with a generator in a store
- `Wait.ofExpr` — an expression as the strategy of a run
- `WaitExpr.bounds` — the interval of the delays that an expression can give
-/

namespace Relentless

/-! ## §1 Expressions -/

/-- A wait strategy: the three leaves, `WaitCapped`, `WaitCombine`, `WaitChain` and
`Jittered`.  What a jittered node is beyond its inner strategy is left to `ν`. -/
inductive WaitExpr (ν : Type) where
  | fixed (strategy : WaitFixed)
  | linear (strategy : WaitLinear)
  | exponential (strategy : WaitExponential)
  | capped (inner : WaitExpr ν) (max : Duration)
  | combine (left right : WaitExpr ν)
  | chain (first second : WaitExpr ν) (after : UInt32)
  | jittered (inner : WaitExpr ν) (node : ν)

namespace WaitExpr

variable {ν ν' : Type}

/-- `Wait::next_wait`, where `draw` is the `jitter_from` of the jittered nodes. -/
def nextWait {m : Type → Type} [Monad m] (draw : ν → Duration → RetryState → m Duration) :
    WaitExpr ν → RetryState → m Duration
  | .fixed strategy, state => pure (strategy.nextWait state)
  | .linear strategy, state => pure (strategy.nextWait state)
  | .exponential strategy, state => pure (strategy.nextWait state)
  | .capped inner max, state => do
    let delay ← inner.nextWait draw state
    return min delay max
  | .combine left right, state => do
    -- The left side draws first.
    let left ← left.nextWait draw state
    let right ← right.nextWait draw state
    return left.saturatingAdd right
  | .chain first second after, state =>
    -- Only the side that is in force is consulted, so the other one draws nothing.
    if state.attempt ≤ after then first.nextWait draw state else second.nextWait draw state
  | .jittered inner node, state => do
    let base ← inner.nextWait draw state
    draw node base state

/-- The expression with its jittered nodes renamed. -/
def map (f : ν → ν') : WaitExpr ν → WaitExpr ν'
  | .fixed strategy => .fixed strategy
  | .linear strategy => .linear strategy
  | .exponential strategy => .exponential strategy
  | .capped inner max => .capped (inner.map f) max
  | .combine left right => .combine (left.map f) (right.map f)
  | .chain first second after => .chain (first.map f) (second.map f) after
  | .jittered inner node => .jittered (inner.map f) (f node)

/-- The jittered nodes of an expression, inner ones first. -/
def nodes : WaitExpr ν → List ν
  | .fixed _ | .linear _ | .exponential _ => []
  | .capped inner _ => inner.nodes
  | .combine left right => left.nodes ++ right.nodes
  | .chain first second _ => first.nodes ++ second.nodes
  | .jittered inner node => inner.nodes ++ [node]

end WaitExpr

/-! ## §2 Generators in a store -/

/-- A jittered node: its formula, and the cell of its generator. -/
structure JitterNode (ι : Type) where
  kind : JitterKind
  cell : ι

/-- The draw of a node, on the generator in its cell. -/
def drawAt {ι : Type} [DecidableEq ι] (node : JitterNode ι) (base : Duration)
    (state : RetryState) : Eff (ι → SplitMix64) Duration := fun store =>
  let (delay, rng) := Jittered.jitterFrom node.kind base state (store node.cell)
  (delay, Function.update store node.cell rng)

namespace WaitExpr

variable {ι : Type}

/-- `next_wait` of an expression whose generators are in a store. -/
def next [DecidableEq ι] (expr : WaitExpr (JitterNode ι)) (state : RetryState) :
    Eff (ι → SplitMix64) Duration :=
  expr.nextWait drawAt state

/-- `Wait::jitter`, `full_jitter`, `equal_jitter` and `decorrelated_jitter`. -/
def jitter (inner : WaitExpr (JitterNode ι)) (maxJitter : Duration) (cell : ι) :
    WaitExpr (JitterNode ι) :=
  .jittered inner { kind := .additive maxJitter, cell }

def fullJitter (inner : WaitExpr (JitterNode ι)) (cell : ι) : WaitExpr (JitterNode ι) :=
  .jittered inner { kind := .full, cell }

def equalJitter (inner : WaitExpr (JitterNode ι)) (cell : ι) : WaitExpr (JitterNode ι) :=
  .jittered inner { kind := .equal, cell }

def decorrelatedJitter (base : Duration) (cell : ι) : WaitExpr (JitterNode ι) :=
  .jittered (.fixed (Relentless.fixed base)) { kind := .decorrelated, cell }

end WaitExpr

/-- An expression as the strategy of a run, whose world keeps the generators. -/
def Wait.ofExpr {σ ι : Type} [DecidableEq ι] (get : σ → ι → SplitMix64)
    (put : (ι → SplitMix64) → σ → σ) (expr : WaitExpr (JitterNode ι)) : Wait (Eff σ) where
  nextWait state := fun w =>
    let (delay, store) := expr.next state (get w)
    (delay, put store w)

/-! ## §3 Bounds -/

/-- The two ends of an interval of durations. -/
structure Bounds where
  lo : Duration
  hi : Duration

namespace Bounds

def point (delay : Duration) : Bounds := ⟨delay, delay⟩

/-- A delay between the two ends. -/
def Contains (bounds : Bounds) (delay : Duration) : Prop :=
  bounds.lo ≤ delay ∧ delay ≤ bounds.hi

def cap (bounds : Bounds) (max : Duration) : Bounds := ⟨min bounds.lo max, min bounds.hi max⟩

def add (left right : Bounds) : Bounds :=
  ⟨left.lo.saturatingAdd right.lo, left.hi.saturatingAdd right.hi⟩

/-- What jitter makes of the bounds of its base. -/
def jitter (base : Bounds) (kind : JitterKind) (state : RetryState) : Bounds :=
  match kind with
  | .additive maxJitter => ⟨base.lo, base.hi.saturatingAdd maxJitter⟩
  | .full => ⟨.zero, base.hi⟩
  | .equal => ⟨base.lo.divBy 2, base.hi⟩
  | .decorrelated =>
    ⟨base.lo, max base.hi ((state.previousDelay.getD base.hi).saturatingMul 3)⟩

end Bounds

/-- The bounds of an expression's delay in a state. -/
def WaitExpr.bounds {ι : Type} : WaitExpr (JitterNode ι) → RetryState → Bounds
  | .fixed strategy, state => .point (strategy.nextWait state)
  | .linear strategy, state => .point (strategy.nextWait state)
  | .exponential strategy, state => .point (strategy.nextWait state)
  | .capped inner max, state => (inner.bounds state).cap max
  | .combine left right, state => (left.bounds state).add (right.bounds state)
  | .chain first second after, state =>
    if state.attempt ≤ after then first.bounds state else second.bounds state
  | .jittered inner node, state => (inner.bounds state).jitter node.kind state

end Relentless
