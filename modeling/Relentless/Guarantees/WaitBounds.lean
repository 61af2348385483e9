import Relentless.Wait.Checked

/-!
# Bounds on Wait Expressions

Whatever its generators hold, the delay of a wait expression lies within bounds that are
computed from its leaves.

- `Bounds.Contains.jitter` — every draw stays within the bounds of the jitter
- `contains_next` — every delay stays within the bounds of the expression
- `next_wait_within_bounds` — the bounds, what a cap encloses, and no arithmetic faults
-/

namespace Relentless

/-! ## §1 Draws -/

theorem le_drawIn_eval (lower upper : Duration) (raw : UInt64) :
    lower ≤ (drawIn lower upper).eval raw := by
  rw [Duration.le_def, drawIn_eval_nanos]
  exact Nat.le_add_right _ _

/-- The upper end bounds the draw, unless the range is inverted. -/
theorem drawIn_eval_le (lower upper : Duration) (raw : UInt64) :
    (drawIn lower upper).eval raw ≤ max lower upper := by
  have hmod := Nat.mod_lt raw.toNat (Nat.add_one_pos (span lower upper))
  rw [Duration.le_def, drawIn_eval_nanos, Duration.nanos_max]
  simp only [span] at hmod ⊢
  omega

theorem drawIn_zero_eval_le (upper : Duration) (raw : UInt64) :
    (drawIn .zero upper).eval raw ≤ upper := by
  have hle := drawIn_eval_le .zero upper raw
  rwa [max_eq_right (Duration.zero_le upper)] at hle

/-! ## §2 Bounds of the combinators -/

namespace Bounds

variable {a b : Bounds} {d e : Duration}

theorem contains_point (d : Duration) : (point d).Contains d := ⟨le_refl d, le_refl d⟩

theorem Contains.cap (h : a.Contains d) (max : Duration) :
    (a.cap max).Contains (min d max) :=
  ⟨min_le_min_right max h.1, min_le_min_right max h.2⟩

theorem Contains.add (ha : a.Contains d) (hb : b.Contains e) :
    (a.add b).Contains (d.saturatingAdd e) := by
  have halo := Duration.le_def.mp ha.1
  have hahi := Duration.le_def.mp ha.2
  have hblo := Duration.le_def.mp hb.1
  have hbhi := Duration.le_def.mp hb.2
  constructor <;>
    simp only [Bounds.add, Duration.le_def, Duration.nanos_saturatingAdd] <;> omega

/-- **Jitter** draws within its bounds, whatever the raw value. -/
theorem Contains.jitter (h : a.Contains d) (kind : JitterKind) (state : RetryState)
    (raw : UInt64) : (a.jitter kind state).Contains ((jitterDraw kind d state).eval raw) := by
  have hlo := Duration.le_def.mp h.1
  have hhi := Duration.le_def.mp h.2
  have hmax := d.nanos_le
  cases kind with
  | additive maxJitter =>
    have hjitter := Duration.le_def.mp (drawIn_zero_eval_le maxJitter raw)
    constructor <;>
      simp only [jitterDraw, Draw.eval_map, Bounds.jitter, Duration.le_def,
        Duration.nanos_saturatingAdd] <;> omega
  | full =>
    exact ⟨Duration.zero_le _, (drawIn_zero_eval_le d raw).trans h.2⟩
  | equal =>
    have hjitter := Duration.le_def.mp (drawIn_zero_eval_le (d.divBy 2) raw)
    rw [Duration.nanos_divBy] at hjitter
    constructor <;>
      simp only [jitterDraw, Draw.eval_map, Bounds.jitter, Duration.le_def,
        Duration.nanos_saturatingAdd, Duration.nanos_divBy] <;> omega
  | decorrelated =>
    -- A base above three times the previous delay inverts the range.
    have hupper : (state.previousDelay.getD d).saturatingMul 3 ≤
        (state.previousDelay.getD a.hi).saturatingMul 3 := by
      rw [Duration.le_def, Duration.nanos_saturatingMul, Duration.nanos_saturatingMul]
      cases state.previousDelay with
      | none =>
        simp only [Option.getD_none]
        omega
      | some previous => exact le_refl _
    exact ⟨h.1.trans (le_drawIn_eval _ _ _),
      (drawIn_eval_le _ _ _).trans (max_le_max h.2 hupper)⟩

end Bounds

/-! ## §3 Bounds of expressions -/

variable {ι : Type} [DecidableEq ι]

theorem drawAt_fst (node : JitterNode ι) (base : Duration) (state : RetryState)
    (store : ι → SplitMix64) :
    (drawAt node base state store).1 =
      (jitterDraw node.kind base state).eval ((store node.cell).raw 0) := by
  rw [← Draw.run_fst, ← jitterFrom_eq]
  rfl

/-- **Every delay** lies within the bounds of its expression. -/
theorem contains_next (expr : WaitExpr (JitterNode ι)) (state : RetryState)
    (store : ι → SplitMix64) : (expr.bounds state).Contains (expr.next state store).1 := by
  unfold WaitExpr.next
  -- Whatever generators the inner strategies leave behind, so the store is general.
  induction expr generalizing store with
  | fixed strategy => exact Bounds.contains_point _
  | linear strategy => exact Bounds.contains_point _
  | exponential strategy => exact Bounds.contains_point _
  | capped inner max ih => exact (ih store).cap max
  | combine left right ihl ihr => exact (ihl store).add (ihr _)
  | chain first second after ih₁ ih₂ =>
    simp only [WaitExpr.nextWait, WaitExpr.bounds]
    split
    · exact ih₁ store
    · exact ih₂ store
  | jittered inner node ih =>
    simp only [WaitExpr.nextWait, WaitExpr.bounds, Eff.bind_apply, drawAt_fst]
    exact (ih store).jitter node.kind state _

/-! ## §4 The guarantee -/

/-- **Interval soundness**: whatever its generators hold, a wait expression's delay lies
within its bounds and its arithmetic never faults; a cap outside jitter bounds the sum,
and a cap inside it bounds only the base. -/
theorem next_wait_within_bounds :
    (∀ (expr : WaitExpr (JitterNode ι)) (state : RetryState) (store : ι → SplitMix64),
      (expr.bounds state).lo ≤ (expr.next state store).1 ∧
      (expr.next state store).1 ≤ (expr.bounds state).hi ∧
      expr.nextWait Checked.drawAt state store =
        (.ok (expr.next state store).1, (expr.next state store).2)) ∧
    (∀ (base : Duration) (cell : ι) (state : RetryState),
      (WaitExpr.decorrelatedJitter base cell).bounds state =
        ⟨base, max base ((state.previousDelay.getD base).saturatingMul 3)⟩) ∧
    (∀ (expr : WaitExpr (JitterNode ι)) (cell : ι) (maxJitter cap : Duration)
      (state : RetryState) (store : ι → SplitMix64),
      (((expr.jitter maxJitter cell).capped cap).next state store).1 ≤ cap ∧
      (cap ≤ (expr.next state store).1 →
        (((expr.jitter maxJitter cell).capped cap).next state store).1 = cap) ∧
      (((expr.capped cap).jitter maxJitter cell).next state store).1 ≤
        cap.saturatingAdd maxJitter) ∧
    (∀ (initial : Duration) (multiplier : Float),
      (saturatingDurationMulF64 initial multiplier).isSome) := by
  refine ⟨?_, fun base cell state => rfl, ?_, saturatingDurationMulF64_isSome⟩
  · intro expr state store
    have hcontains := contains_next expr state store
    refine ⟨hcontains.1, hcontains.2, ?_⟩
    rw [Checked.nextWait_eq]
    rfl
  · intro expr cell maxJitter cap state store
    refine ⟨?_, ?_, ?_⟩
    · exact min_le_right _ _
    · intro hbase
      -- Jitter only adds to the base.
      apply min_eq_right
      have hdraw : ((expr.jitter maxJitter cell).next state store).1 =
          (expr.next state store).1.saturatingAdd
            ((drawIn .zero maxJitter).eval (((expr.next state store).2 cell).raw 0)) :=
        (drawAt_fst _ _ _ _).trans (Draw.eval_map _ _ _)
      have hnanos := Duration.le_def.mp hbase
      have hle := cap.nanos_le
      show cap ≤ ((expr.jitter maxJitter cell).next state store).1
      rw [hdraw, Duration.le_def, Duration.nanos_saturatingAdd]
      omega
    · have hbounds := (contains_next ((expr.capped cap).jitter maxJitter cell) state store).2
      apply hbounds.trans
      have hcap : (((expr.bounds state).cap cap)).hi ≤ cap := min_le_right _ _
      have hnanos := Duration.le_def.mp hcap
      show (((expr.bounds state).cap cap)).hi.saturatingAdd maxJitter ≤ _
      rw [Duration.le_def, Duration.nanos_saturatingAdd, Duration.nanos_saturatingAdd]
      omega

/-- A cap below the base is the delay, whatever jitter adds to the base. -/
theorem next_wait_within_bounds_lowCap :
    ((((WaitExpr.fixed (fixed (.ofNanos 6))).jitter (.ofNanos 4) ()).capped (.ofNanos 5)).next
      ⟨1, .zero, none⟩ fun _ => ⟨0⟩).1 = .ofNanos 5 :=
  (next_wait_within_bounds.2.2.1 _ () (.ofNanos 4) _ ⟨1, .zero, none⟩ _).2.1
    (show Duration.ofNanos 5 ≤ .ofNanos 6 by decide)

end Relentless
