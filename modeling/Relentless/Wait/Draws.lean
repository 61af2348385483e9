import Relentless.Library.Cycle
import Relentless.Wait.Jitter

/-!
# Draws From a Stream

What a jittered strategy takes from its generator: nothing, or one raw value that it
reduces to its range.  Retry loops that share the strategy share the stream.

- `Draw` — a delay that needs no draw, or what is made of one
- `drawIn`, `jitterDraw` — the draws of `random_duration_in` and `jitter_from`
- `advanceAtomic`, `advanceCell` — the two variants of `SplitMix64::advance`
- `Jittered.serve` — calls from several loops, in the order of their draws
-/

namespace Relentless

open SplitMix64

/-! ## §1 One draw at most -/

/-- A delay that is fixed beforehand, or one made of the next raw value. -/
inductive Draw where
  | still (delay : Duration)
  | draw (place : UInt64 → Duration)

namespace Draw

/-- The delay, when the next raw value of the stream is `raw`. -/
def eval : Draw → UInt64 → Duration
  | .still delay, _ => delay
  | .draw place, raw => place raw

/-- How many raw values it takes. -/
def count : Draw → ℕ
  | .still _ => 0
  | .draw _ => 1

def run : Draw → Eff SplitMix64 Duration
  | .still delay => pure delay
  | .draw place => place <$> nextU64

def map (f : Duration → Duration) : Draw → Draw
  | .still delay => .still (f delay)
  | .draw place => .draw fun raw => f (place raw)

@[simp] theorem eval_map (f : Duration → Duration) (d : Draw) (raw : UInt64) :
    (d.map f).eval raw = f (d.eval raw) := by
  cases d <;> rfl

@[simp] theorem run_map (f : Duration → Duration) (d : Draw) : (d.map f).run = f <$> d.run := by
  cases d <;> rfl

theorem run_fst (d : Draw) (rng : SplitMix64) : (d.run rng).1 = d.eval (rng.raw 0) := by
  cases d <;> rfl

end Draw

/-- What `next_bounded` makes of a raw value. -/
def reduce (max raw : UInt64) : UInt64 :=
  if max = 0xffffffffffffffff then raw else raw % (max + 1)

/-- Below `u64::MAX` the range does not overflow. -/
theorem toNat_add_one {max : UInt64} (h : max ≠ 0xffffffffffffffff) :
    (max + 1).toNat = max.toNat + 1 := by
  have hlt := max.toNat_lt
  -- The excluded value is the only one that wraps around.
  have hne : max.toNat ≠ 2 ^ 64 - 1 := fun heq => h (UInt64.toNat_inj.mp heq)
  rw [UInt64.toNat_add, UInt64.toNat_one]
  omega

theorem nextBounded_eq (max : UInt64) : nextBounded max = reduce max <$> nextU64 := by
  unfold nextBounded reduce
  split <;> rfl

/-- The width of a range in nanoseconds, as far as one raw value reaches. -/
def span (lower upper : Duration) : ℕ := min (upper.nanos - lower.nanos) (2 ^ 64 - 1)

/-- The draw of `random_duration_in`. -/
def drawIn (lower upper : Duration) : Draw :=
  if upper.nanos - lower.nanos = 0 then .still lower
  else
    .draw fun raw =>
      lower.saturatingAdd (.fromNanos (reduce (UInt64.ofNat (span lower upper)) raw))

theorem randomDurationIn_eq (lower upper : Duration) :
    randomDurationIn lower upper = (drawIn lower upper).run := by
  unfold randomDurationIn drawIn
  simp only [nextBounded_eq]
  split <;> rfl

/-- The reduction is the remainder, for every bound. -/
theorem reduce_toNat (max raw : UInt64) :
    (reduce max raw).toNat = raw.toNat % (max.toNat + 1) := by
  unfold reduce
  split
  case isTrue h =>
    subst h
    exact (Nat.mod_eq_of_lt raw.toNat_lt).symm
  case isFalse h => rw [UInt64.toNat_mod, toNat_add_one h]

/-- **A drawn duration** exceeds the lower end by the remainder of the raw value. -/
theorem drawIn_eval_nanos (lower upper : Duration) (raw : UInt64) :
    ((drawIn lower upper).eval raw).nanos =
      lower.nanos + raw.toNat % (span lower upper + 1) := by
  unfold drawIn
  split
  case isTrue h => simp [Draw.eval, span, h, Nat.mod_one]
  case isFalse h =>
    have hspan : (UInt64.ofNat (span lower upper)).toNat = span lower upper :=
      UInt64.toNat_ofNat_of_lt' (by simp only [span, UInt64.size]; omega)
    have hrem : raw.toNat % (span lower upper + 1) ≤ upper.nanos - lower.nanos :=
      (Nat.lt_succ_iff.mp (Nat.mod_lt _ (Nat.succ_pos _))).trans (min_le_left _ _)
    -- Neither the conversion of the raw value nor the sum saturates: the sum is at most `upper`.
    have hupper := upper.nanos_le
    show min (lower.nanos + min (reduce (UInt64.ofNat (span lower upper)) raw).toNat _) _ = _
    rw [reduce_toNat, hspan]
    omega

/-- The draw of `jitter_from`. -/
def jitterDraw (kind : JitterKind) (base : Duration) (state : RetryState) : Draw :=
  match kind with
  | .additive maxJitter => (drawIn .zero maxJitter).map base.saturatingAdd
  | .full => drawIn .zero base
  | .equal => (drawIn .zero (base.divBy 2)).map (base.divBy 2).saturatingAdd
  | .decorrelated => drawIn base ((state.previousDelay.getD base).saturatingMul 3)

/-- **Every jittered call** draws at most once. -/
theorem jitterFrom_eq (kind : JitterKind) (base : Duration) (state : RetryState) :
    Jittered.jitterFrom kind base state = (jitterDraw kind base state).run := by
  cases kind <;>
    simp only [Jittered.jitterFrom, jitterDraw, randomJitterDuration, randomDurationIn_eq,
      Draw.run_map] <;> rfl

/-! ## §2 The raw stream -/

/-- `AtomicU64::fetch_add`, one atomic step that returns the old value. -/
def fetchAdd (delta : UInt64) : Eff UInt64 UInt64 := fun state => (state, state + delta)

/-- `SplitMix64::advance` on targets with 64-bit atomics. -/
def advanceAtomic : Eff UInt64 UInt64 := do
  return (← fetchAdd gamma) + gamma

/-- `Cell::get`. -/
def cellGet : Eff UInt64 UInt64 := fun state => (state, state)

/-- `Cell::set`. -/
def cellSet (value : UInt64) : Eff UInt64 Unit := fun _ => ((), value)

/-- `SplitMix64::advance` on targets without 64-bit atomics. -/
def advanceCell : Eff UInt64 UInt64 := do
  let next := (← cellGet) + gamma
  cellSet next
  return next

/-- The first `n` answers of a computation that is run over and over. -/
def answers {σ α : Type} (x : Eff σ α) : ℕ → Eff σ (List α)
  | 0 => pure []
  | n + 1 => do
    let first ← x
    let rest ← answers x n
    return first :: rest

theorem advanceAtomic_eq_advanceCell : advanceAtomic = advanceCell := rfl

/-- The inverse of `GAMMA` modulo two to the 64. -/
theorem gamma_inverse : gamma * 0xf1de83e19937733d = 1 := by decide

theorem addOrderOf_gamma : addOrderOf gamma = 2 ^ 64 :=
  UInt64.addOrderOf_of_inverse gamma_inverse

theorem mix_bijective : Function.Bijective mix :=
  Finite.injective_iff_bijective.mp mix_injective

theorem nextU64_apply (rng : SplitMix64) :
    nextU64 rng = (mix (rng.state + gamma), ⟨rng.state + gamma⟩) := rfl

theorem raw_zero (rng : SplitMix64) : rng.raw 0 = mix (rng.state + gamma) := rfl

theorem raw_succ (rng : SplitMix64) (k : ℕ) :
    rng.raw (k + 1) = raw ⟨rng.state + gamma⟩ k := by
  conv_lhs => rw [raw.eq_def]
  simp only [nextU64_apply]

/-- The `k`-th raw value is the mixed state after `k + 1` increments. -/
theorem raw_eq (rng : SplitMix64) (k : ℕ) :
    rng.raw k = mix (Cycle.walk gamma rng.state (k + 1)) := by
  -- The stream after its first value is the stream of the advanced generator.
  induction k generalizing rng with
  | zero => rw [raw_zero, Cycle.walk, one_nsmul]
  | succ k ih =>
    rw [raw_succ, ih, Nat.add_comm (k + 1) 1, Cycle.walk_add gamma rng.state, Cycle.walk_one]

/-! ## §3 Shared strategies -/

/-- A draw by each of the loops in turn, with the raw value that it gets. -/
def drawAll {ι : Type} : List ι → Eff SplitMix64 (List (ι × UInt64))
  | [] => pure []
  | loop :: schedule => do
    let raw ← nextU64
    let later ← drawAll schedule
    return (loop, raw) :: later

theorem drawAll_fst {ι : Type} (schedule : List ι) (rng : SplitMix64) :
    (drawAll schedule rng).1 = schedule.mapIdx fun k loop => (loop, rng.raw k) := by
  induction schedule generalizing rng with
  | nil => rfl
  | cons loop schedule ih =>
    simp only [drawAll, Eff.bind_apply, Eff.pure_apply, List.mapIdx_cons, ih, nextU64_apply,
      raw_zero, raw_succ]

/-- A call of `next_wait` by one of the loops that share a strategy, with the base that
the inner strategy gave it. -/
structure Call (ι : Type) where
  loop : ι
  base : Duration
  state : RetryState

/-- The calls on a shared strategy, in the order of their draws.  A call touches the
shared state in one atomic step at most, so this is every interleaving. -/
def Jittered.serve {W ι : Type} : List (Call ι) → Eff (Jittered W) (List (ι × Duration))
  | [] => pure []
  | call :: calls => fun jittered =>
    let (delay, jittered) := jittered.nextWait call.base call.state
    let (later, jittered) := serve calls jittered
    ((call.loop, delay) :: later, jittered)

/-- The draw of a call. -/
def Call.draw {ι : Type} (kind : JitterKind) (call : Call ι) : Draw :=
  jitterDraw kind call.base call.state

/-- How many raw values a list of calls takes. -/
def drawCount {ι : Type} (kind : JitterKind) (calls : List (Call ι)) : ℕ :=
  (calls.map fun call => (call.draw kind).count).sum

/-- The generator after a draw yields the rest of the stream. -/
theorem Draw.raw_run (d : Draw) (rng : SplitMix64) (k : ℕ) :
    (d.run rng).2.raw k = rng.raw (d.count + k) := by
  cases d with
  | still delay => simp [Draw.run, Draw.count]
  | draw place =>
    rw [Draw.count, Nat.add_comm, raw_succ]
    simp only [Draw.run, Eff.map_apply, nextU64_apply]

/-- **Sharing**: a call is served with the raw value after those of the calls before it. -/
theorem Jittered.serve_fst {W ι : Type} (calls : List (Call ι)) (jittered : Jittered W) :
    (serve calls jittered).1 = calls.mapIdx fun k call => (call.loop,
      (call.draw jittered.kind).eval
        (jittered.rng.raw (drawCount jittered.kind (calls.take k)))) := by
  induction calls generalizing jittered with
  | nil => rfl
  | cons call calls ih =>
    -- The first call is served from the start of the stream.
    have hserve : (serve (call :: calls) jittered).1 =
        (call.loop, (jittered.nextWait call.base call.state).1) ::
          (serve calls (jittered.nextWait call.base call.state).2).1 := rfl
    have hdelay : (jittered.nextWait call.base call.state).1 =
        (call.draw jittered.kind).eval (jittered.rng.raw 0) := by
      rw [Call.draw, ← Draw.run_fst, ← jitterFrom_eq]
      rfl
    -- The calls after it see what its draw leaves of the stream.
    have hrng (k : ℕ) : (jittered.nextWait call.base call.state).2.rng.raw k =
        jittered.rng.raw ((call.draw jittered.kind).count + k) := by
      rw [Call.draw, ← Draw.raw_run, ← jitterFrom_eq]
      rfl
    have hkind : (jittered.nextWait call.base call.state).2.kind = jittered.kind := rfl
    rw [hserve, ih, hdelay, hkind, List.mapIdx_cons]
    simp only [hrng, drawCount, List.take_zero, List.take_succ_cons, List.map_nil,
      List.sum_nil, List.map_cons, List.sum_cons]

end Relentless
