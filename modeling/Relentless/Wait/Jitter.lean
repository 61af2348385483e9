import Relentless.Library.Effect
import Relentless.Library.Words
import Relentless.State

/-!
# Jitter

`Jittered` applies jitter to an inner strategy's output, from a `SplitMix64`
stream of its own.  Every instance mixes a nonce into the seed of its stream.

- `SplitMix64` — the generator; `SplitMix64.nextU64` draws from it
- `nextJitterNonce` — the process-wide source of nonces
- `Jittered` — a strategy with its seed and its generator
-/

namespace Relentless

/-! ## §1 The generator -/

/-- `SplitMix64`: the state advances by a fixed increment per draw. -/
structure SplitMix64 where
  state : UInt64
  deriving DecidableEq

/-- `GAMMA`, the state increment. -/
def gamma : UInt64 := 0x9e3779b97f4a7c15

namespace SplitMix64

def new (seed : UInt64) : SplitMix64 := ⟨seed⟩

/-- `SplitMix64::advance`, one atomic step on the state. -/
def advance : Eff SplitMix64 UInt64 :=
  fun rng => (rng.state + gamma, ⟨rng.state + gamma⟩)

/-- What `next_u64` makes of the advanced state. -/
def mix (z : UInt64) : UInt64 :=
  let z := (z ^^^ (z >>> 30)) * 0xbf58476d1ce4e5b9
  let z := (z ^^^ (z >>> 27)) * 0x94d049bb133111eb
  z ^^^ (z >>> 31)

/-- `SplitMix64::next_u64`. -/
def nextU64 : Eff SplitMix64 UInt64 := do
  return mix (← advance)

/-- `SplitMix64::next_bounded`: a value in `[0, max]`. -/
def nextBounded (max : UInt64) : Eff SplitMix64 UInt64 := do
  -- For `u64::MAX` the range would overflow.
  if max = 0xffffffffffffffff then nextU64
  else
    -- A plain remainder, slightly biased towards small values.
    let range := max + 1
    return (← nextU64) % range

theorem mix_injective : Function.Injective mix := by
  -- The three xor-shifts and the two odd multipliers can each be undone.
  have hshift₁ := UInt64.xorShiftRight_injective (k := 30) (by decide)
  have hmul₁ := UInt64.mul_injective_of_inverse (c := 0xbf58476d1ce4e5b9)
    (d := 0x96de1b173f119089) (by decide)
  have hshift₂ := UInt64.xorShiftRight_injective (k := 27) (by decide)
  have hmul₂ := UInt64.mul_injective_of_inverse (c := 0x94d049bb133111eb)
    (d := 0x319642b2d24d8ec3) (by decide)
  have hshift₃ := UInt64.xorShiftRight_injective (k := 31) (by decide)
  exact hshift₃.comp (hmul₂.comp (hshift₂.comp (hmul₁.comp hshift₁)))

/-- The raw draws of a generator, in order. -/
def raw (rng : SplitMix64) : ℕ → UInt64
  | 0 => (nextU64 rng).1
  | k + 1 => (nextU64 rng).2.raw k

/-- Generators in different states draw different first values. -/
theorem raw_zero_injective : Function.Injective fun rng : SplitMix64 => rng.raw 0 := by
  intro rng rng' h
  -- The first value mixes the state after one increment, and both can be undone.
  have hstate : rng.state + gamma = rng'.state + gamma := mix_injective h
  obtain ⟨state⟩ := rng
  obtain ⟨state'⟩ := rng'
  exact congrArg SplitMix64.mk ((UInt64.add_left_inj gamma).mp hstate)

end SplitMix64

/-- `random_duration_in`: a duration in `[lower, upper]`, or `lower` when the range is
empty. -/
def randomDurationIn (lower upper : Duration) : Eff SplitMix64 Duration := do
  let rangeNanos := upper.nanos - lower.nanos
  -- An empty range takes nothing from the stream.
  if rangeNanos = 0 then return lower
  else
    -- One draw covers at most `u64::MAX` nanoseconds of a wider range.
    let maxNanos := UInt64.ofNat (min rangeNanos (2 ^ 64 - 1))
    let random ← SplitMix64.nextBounded maxNanos
    return lower.saturatingAdd (.fromNanos random)

/-- `random_jitter_duration`. -/
def randomJitterDuration (maxJitter : Duration) : Eff SplitMix64 Duration :=
  randomDurationIn .zero maxJitter

/-! ## §2 Nonces -/

/-- The width of a pointer, and so of `usize`. -/
inductive PointerWidth where
  | bits16 | bits32 | bits64
  deriving DecidableEq

def PointerWidth.bits : PointerWidth → ℕ
  | .bits16 => 16
  | .bits32 => 32
  | .bits64 => 64

/-- What the crate is compiled for: pointer-width atomics, with or without the `std`
feature, or no such atomics. -/
inductive Target where
  | atomics (width : PointerWidth) (std : Bool)
  | noAtomics
  deriving DecidableEq

/-- `JITTER_NONCE_COUNTER.fetch_add(1)`, as a `u64`.  The counter is a `usize`. -/
def fetchAddNonce (width : PointerWidth) : Eff ℕ UInt64 :=
  fun counter => (.ofNat counter, (counter + 1) % 2 ^ width.bits)

/-- The wall clock's nanoseconds since the epoch as a `u64`, zero before the epoch. -/
def wallNanos (now : ℤ) : UInt64 := .ofNat now.toNat

/-- `next_jitter_nonce`, when the wall clock shows `now` nanoseconds since the epoch. -/
def nextJitterNonce (target : Target) (now : ℤ) : Eff ℕ UInt64 :=
  match target with
  | .atomics width std => do
    let counter ← fetchAddNonce width
    if std then return counter ^^^ wallNanos now else return counter
  | .noAtomics => return 1

/-- `DEFAULT_JITTER_SEED`. -/
def defaultJitterSeed : UInt64 := 0x5a5a5a5a5a5a5a5a

/-- `seeded_rng`. -/
def seededRng (seed nonce : UInt64) : SplitMix64 := .new (seed ^^^ nonce)

/-- `derive_nonce`: the nonce that goes with an explicit seed. -/
def deriveNonce (seed : UInt64) : UInt64 := (SplitMix64.nextU64 (.new seed)).1

theorem seededRng_inj {seed nonce nonce' : UInt64} :
    seededRng seed nonce = seededRng seed nonce' ↔ nonce = nonce' := by
  constructor
  · intro h
    have hstate : seed ^^^ nonce = seed ^^^ nonce' := congrArg SplitMix64.state h
    exact (UInt64.xor_right_inj seed).mp hstate
  · rintro rfl
    rfl

/-! ## §3 Jittered strategies -/

/-- `JitterKind`: the formula applied to the base duration. -/
inductive JitterKind where
  | additive (maxJitter : Duration)
  | full
  | equal
  | decorrelated

/-- `Jittered<W>`. -/
structure Jittered (W : Type) where
  inner : W
  kind : JitterKind
  seed : UInt64
  rng : SplitMix64

namespace Jittered

variable {W : Type}

/-- `Jittered::new`. -/
def new (target : Target) (now : ℤ) (inner : W) (kind : JitterKind) : Eff ℕ (Jittered W) := do
  let nonce ← nextJitterNonce target now
  return { inner, kind, seed := defaultJitterSeed, rng := seededRng defaultJitterSeed nonce }

/-- `Jittered::with_seed`: the nonce is derived from the seed. -/
def withSeed (jittered : Jittered W) (seed : UInt64) : Jittered W :=
  { jittered with seed, rng := seededRng seed (deriveNonce seed) }

/-- `Jittered::with_nonce`. -/
def withNonce (jittered : Jittered W) (nonce : UInt64) : Jittered W :=
  { jittered with rng := seededRng jittered.seed nonce }

/-- `Clone::clone`, given the clone of the inner strategy, which is made first. -/
def clone (target : Target) (now : ℤ) (jittered : Jittered W) (inner : W) :
    Eff ℕ (Jittered W) := do
  let nonce ← nextJitterNonce target now
  return { inner, kind := jittered.kind, seed := jittered.seed,
           rng := seededRng jittered.seed nonce }

/-- `Jittered::jitter_from`: the jitter draw, from the base the inner strategy gave. -/
def jitterFrom (kind : JitterKind) (base : Duration) (state : RetryState) :
    Eff SplitMix64 Duration :=
  match kind with
  | .additive maxJitter => do
    let jitter ← randomJitterDuration maxJitter
    return base.saturatingAdd jitter
  | .full => randomJitterDuration base
  | .equal => do
    let half := base.divBy 2
    let jitter ← randomJitterDuration half
    return half.saturatingAdd jitter
  | .decorrelated => do
    let lower := base
    -- On the first attempt the upper bound falls back to the floor.
    let upper := (state.previousDelay.getD lower).saturatingMul 3
    randomDurationIn lower upper

/-- `Wait::next_wait`, once the inner strategy has given `base`. -/
def nextWait (jittered : Jittered W) (base : Duration) (state : RetryState) :
    Duration × Jittered W :=
  let (delay, rng) := jitterFrom jittered.kind base state jittered.rng
  (delay, { jittered with rng })

end Jittered

end Relentless
