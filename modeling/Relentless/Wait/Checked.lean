import Relentless.Wait.Expr

/-!
# Wait Expressions With Checked Arithmetic

The jitter code once more, with a check at every operation that can overflow, lose bits
or divide by zero.  The wrapping and saturating operations of the source need none.

- `Fault` — what a check finds
- `Checked.jitterFrom` — `jitter_from` with its checks
- `Checked.nextWait_eq` — an expression never faults, and its delay is the unchecked one
-/

namespace Relentless

/-- The arithmetic faults the wait code could run into. -/
inductive Fault where
  | addOverflow
  | castOverflow
  | divideByZero
  deriving DecidableEq

namespace Checked

variable {σ : Type}

/-! ## §1 Checked operations -/

def addU64 (a b : UInt64) : Fallible Fault σ UInt64 :=
  if a.toNat + b.toNat < 2 ^ 64 then pure (a + b) else Fallible.raise .addOverflow

def remU64 (a b : UInt64) : Fallible Fault σ UInt64 :=
  if b = 0 then Fallible.raise .divideByZero else pure (a % b)

def castU64 (n : ℕ) : Fallible Fault σ UInt64 :=
  if n < 2 ^ 64 then pure (.ofNat n) else Fallible.raise .castOverflow

def divDuration (dur : Duration) (k : ℕ) : Fallible Fault σ Duration :=
  if k = 0 then Fallible.raise .divideByZero else pure (dur.divBy k)

/-! ## §2 Jitter -/

def nextBounded (max : UInt64) : Fallible Fault SplitMix64 UInt64 := do
  if max = 0xffffffffffffffff then Fallible.ofEff SplitMix64.nextU64
  else
    let range ← addU64 max 1
    let raw ← Fallible.ofEff SplitMix64.nextU64
    remU64 raw range

def randomDurationIn (lower upper : Duration) : Fallible Fault SplitMix64 Duration := do
  let rangeNanos := upper.nanos - lower.nanos
  if rangeNanos = 0 then return lower
  else
    let maxNanos ← castU64 (min rangeNanos (2 ^ 64 - 1))
    let random ← nextBounded maxNanos
    return lower.saturatingAdd (.fromNanos random)

def randomJitterDuration (maxJitter : Duration) : Fallible Fault SplitMix64 Duration :=
  randomDurationIn .zero maxJitter

def jitterFrom (kind : JitterKind) (base : Duration) (state : RetryState) :
    Fallible Fault SplitMix64 Duration :=
  match kind with
  | .additive maxJitter => do
    let jitter ← randomJitterDuration maxJitter
    return base.saturatingAdd jitter
  | .full => randomJitterDuration base
  | .equal => do
    let half ← divDuration base 2
    let jitter ← randomJitterDuration half
    return half.saturatingAdd jitter
  | .decorrelated => do
    let lower := base
    let upper := (state.previousDelay.getD lower).saturatingMul 3
    randomDurationIn lower upper

/-- The draw of a node, on the generator in its cell. -/
def drawAt {ι : Type} [DecidableEq ι] (node : JitterNode ι) (base : Duration)
    (state : RetryState) : Fallible Fault (ι → SplitMix64) Duration := fun store =>
  let (result, rng) := jitterFrom node.kind base state (store node.cell)
  (result, Function.update store node.cell rng)

/-! ## §3 No faults -/

theorem nextBounded_eq (max : UInt64) :
    nextBounded max = Fallible.ofEff (SplitMix64.nextBounded max) := by
  unfold nextBounded SplitMix64.nextBounded
  by_cases hmax : max = 0xffffffffffffffff
  · rw [if_pos hmax, if_pos hmax]
  · -- Otherwise the range does not overflow, and it is not zero.
    have hadd := toNat_add_one hmax
    have hlt := (max + 1).toNat_lt
    have hrange : (addU64 max 1 : Fallible Fault SplitMix64 UInt64) = pure (max + 1) := by
      rw [addU64, if_pos]
      rwa [UInt64.toNat_one, ← hadd]
    have hne : max + 1 ≠ 0 := by
      intro hzero
      rw [hzero, UInt64.toNat_zero] at hadd
      omega
    have hrem (raw : UInt64) : (remU64 raw (max + 1) : Fallible Fault SplitMix64 UInt64) =
        Fallible.ofEff (pure (raw % (max + 1))) := if_neg hne
    rw [if_neg hmax, if_neg hmax, hrange, pure_bind, Fallible.ofEff_bind, funext hrem]

theorem randomDurationIn_eq (lower upper : Duration) :
    randomDurationIn lower upper = Fallible.ofEff (Relentless.randomDurationIn lower upper) := by
  unfold randomDurationIn Relentless.randomDurationIn
  dsimp only
  split
  · rfl
  · have hcast : (castU64 (min (upper.nanos - lower.nanos) (2 ^ 64 - 1)) :
        Fallible Fault SplitMix64 UInt64) = pure (.ofNat _) := if_pos (by omega)
    rw [hcast, pure_bind, nextBounded_eq]
    rfl

theorem randomJitterDuration_eq (maxJitter : Duration) :
    randomJitterDuration maxJitter =
      Fallible.ofEff (Relentless.randomJitterDuration maxJitter) :=
  randomDurationIn_eq .zero maxJitter

theorem jitterFrom_eq (kind : JitterKind) (base : Duration) (state : RetryState) :
    jitterFrom kind base state = Fallible.ofEff (Jittered.jitterFrom kind base state) := by
  cases kind with
  | additive maxJitter =>
    simp only [jitterFrom, Jittered.jitterFrom, randomJitterDuration_eq, Fallible.ofEff_bind,
      Fallible.ofEff_pure]
  | full => exact randomJitterDuration_eq base
  | equal =>
    have hdiv : (divDuration base 2 : Fallible Fault SplitMix64 Duration) =
        pure (base.divBy 2) := if_neg (by decide)
    simp only [jitterFrom, Jittered.jitterFrom, hdiv, pure_bind, randomJitterDuration_eq,
      Fallible.ofEff_bind, Fallible.ofEff_pure]
  | decorrelated => exact randomDurationIn_eq base _

/-- The checked draw of a node is the unchecked one. -/
theorem drawAt_eq {ι : Type} [DecidableEq ι] (node : JitterNode ι) (base : Duration)
    (state : RetryState) :
    drawAt node base state = Fallible.ofEff (Relentless.drawAt node base state) := by
  funext store
  simp only [drawAt, jitterFrom_eq, Fallible.ofEff_apply, Relentless.drawAt]

/-- **An expression never faults**, and its checked delay is the unchecked one. -/
theorem nextWait_eq {ι : Type} [DecidableEq ι] (expr : WaitExpr (JitterNode ι))
    (state : RetryState) : expr.nextWait drawAt state = Fallible.ofEff (expr.next state) := by
  unfold WaitExpr.next
  induction expr with
  | fixed strategy => rfl
  | linear strategy => rfl
  | exponential strategy => rfl
  | capped inner max ih =>
    simp only [WaitExpr.nextWait, ih, Fallible.ofEff_bind, Fallible.ofEff_pure]
  | combine left right ihl ihr =>
    simp only [WaitExpr.nextWait, ihl, ihr, Fallible.ofEff_bind, Fallible.ofEff_pure]
  | chain first second after ih₁ ih₂ =>
    simp only [WaitExpr.nextWait, ih₁, ih₂]
    split <;> rfl
  | jittered inner node ih =>
    simp only [WaitExpr.nextWait, ih, drawAt_eq, Fallible.ofEff_bind]

end Checked

end Relentless
