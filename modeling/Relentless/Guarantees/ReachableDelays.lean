import Relentless.Guarantees.Uniformity
import Relentless.Guarantees.WaitBounds

/-!
# The Delays That a Wait Expression Can Give

When every jittered node has a generator of its own, the delays of an expression, over all
nonces that its generators can have, are an interval without gaps.  The bounds exceed it at
most at their upper end: by the nanosecond that equal jitter loses of an odd delay, and by what
64 bits cannot draw.

- `WaitExpr.reach` — the interval
- `WaitExpr.eval` — an expression over given raw values
- `Bounds.exists_base` — jitter leaves no gap between what it makes of two bases
- `WaitExpr.exists_eval_iff` — every duration in the interval is a delay, and no other
- `WaitExpr.Whole` — neither odd delays to halve nor ranges beyond 64 bits
- `delays_fill_interval` — the guarantee
-/

namespace Relentless

variable {cell : Type}

/-! ## §1 What jitter reaches -/

/-- The longest delay that jitter makes of a base: its draw at the largest remainder. -/
def JitterKind.longest (kind : JitterKind) (base : Duration) (state : RetryState) : Duration :=
  match kind with
  | .additive maxJitter => base.saturatingAdd (.ofNanos (span .zero maxJitter))
  | .full => .ofNanos (span .zero base)
  | .equal => (base.divBy 2).saturatingAdd (.ofNanos (span .zero (base.divBy 2)))
  | .decorrelated =>
    .ofNanos (base.nanos + span base ((state.previousDelay.getD base).saturatingMul 3))

/-- What jitter reaches from the bases between two bounds. -/
def Bounds.reach (base : Bounds) (kind : JitterKind) (state : RetryState) : Bounds :=
  ⟨(base.jitter kind state).lo, kind.longest base.hi state⟩

/-- A draw gives what its span allows, and nothing else. -/
theorem exists_drawIn_eval (lower upper : Duration) (n : ℕ) :
    (∃ raw, ((drawIn lower upper).eval raw).nanos = n) ↔
      lower.nanos ≤ n ∧ n ≤ lower.nanos + span lower upper := by
  simp only [drawIn_eval_nanos]
  constructor
  · rintro ⟨raw, rfl⟩
    have hmod := Nat.mod_lt raw.toNat (Nat.add_one_pos (span lower upper))
    omega
  · rintro ⟨hlower, hupper⟩
    have hspan : span lower upper ≤ 2 ^ 64 - 1 := min_le_right _ _
    refine ⟨.ofNat (n - lower.nanos), ?_⟩
    rw [UInt64.toNat_ofNat_of_lt' (by simp only [UInt64.size]; omega),
      Nat.mod_eq_of_lt (by omega)]
    omega

/-- A draw from zero that is added to a base. -/
theorem exists_add_drawIn_eval (base upper d : Duration) :
    (∃ raw, base.saturatingAdd ((drawIn .zero upper).eval raw) = d) ↔
      base ≤ d ∧ d ≤ base.saturatingAdd (.ofNanos (span .zero upper)) := by
  have hbase := base.nanos_le
  have hd := d.nanos_le
  simp only [Duration.ext_iff, Duration.le_def, Duration.nanos_saturatingAdd,
    Duration.nanos_ofNanos]
  constructor
  · rintro ⟨raw, hraw⟩
    have hdrawn := ((exists_drawIn_eval .zero upper _).mp ⟨raw, rfl⟩).2
    rw [Duration.nanos_zero] at hdrawn
    omega
  · rintro ⟨hlower, hupper⟩
    obtain ⟨raw, hraw⟩ := (exists_drawIn_eval .zero upper (d.nanos - base.nanos)).mpr
      (by rw [Duration.nanos_zero]; omega)
    exact ⟨raw, by omega⟩

/-- **A jittered delay** is what is reached from its base. -/
theorem exists_jitterDraw_eval (kind : JitterKind) (base : Duration) (state : RetryState)
    (d : Duration) :
    (∃ raw, (jitterDraw kind base state).eval raw = d) ↔
      ((Bounds.point base).reach kind state).Contains d := by
  have hd := d.nanos_le
  cases kind with
  | additive maxJitter =>
    simp only [jitterDraw, Draw.eval_map]
    exact exists_add_drawIn_eval base maxJitter d
  | equal =>
    simp only [jitterDraw, Draw.eval_map]
    exact exists_add_drawIn_eval (base.divBy 2) (base.divBy 2) d
  | full =>
    have hdrawn := exists_drawIn_eval .zero base d.nanos
    simp only [← Duration.ext_iff] at hdrawn
    rw [jitterDraw, hdrawn]
    simp only [Bounds.Contains, Bounds.reach, Bounds.point, Bounds.jitter, JitterKind.longest,
      Duration.le_def, Duration.nanos_ofNanos, Duration.nanos_zero]
    omega
  | decorrelated =>
    have hdrawn := exists_drawIn_eval base ((state.previousDelay.getD base).saturatingMul 3) d.nanos
    simp only [← Duration.ext_iff] at hdrawn
    rw [jitterDraw, hdrawn]
    simp only [Bounds.Contains, Bounds.reach, Bounds.point, Bounds.jitter, JitterKind.longest,
      Duration.le_def, Duration.nanos_ofNanos]
    omega

/-- A longer base leads to longer delays. -/
theorem JitterKind.longest_mono (kind : JitterKind) {base base' : Duration} (state : RetryState)
    (h : base ≤ base') : kind.longest base state ≤ kind.longest base' state := by
  have hnanos := Duration.le_def.mp h
  have hbase' := base'.nanos_le
  cases kind with
  | additive maxJitter =>
    simp only [JitterKind.longest, Duration.le_def, Duration.nanos_saturatingAdd]
    omega
  | full =>
    apply Duration.ofNanos_mono
    simp only [span, Duration.nanos_zero]
    omega
  | equal =>
    simp only [JitterKind.longest, Duration.le_def, Duration.nanos_saturatingAdd,
      Duration.nanos_ofNanos, Duration.nanos_divBy, Duration.nanos_zero, span]
    omega
  | decorrelated =>
    apply Duration.ofNanos_mono
    cases state.previousDelay with
    | none =>
      simp only [Option.getD_none, span, Duration.nanos_saturatingMul]
      omega
    | some previous =>
      simp only [Option.getD_some, span, Duration.nanos_saturatingMul]
      omega

/-- What jitter reaches from one base, it reaches from the bounds around it. -/
theorem Bounds.Contains.reach {b : Bounds} {base d : Duration} {kind : JitterKind}
    {state : RetryState} (hbase : b.Contains base)
    (h : ((Bounds.point base).reach kind state).Contains d) : (b.reach kind state).Contains d := by
  refine ⟨le_trans ?_ h.1, h.2.trans (kind.longest_mono state hbase.2)⟩
  cases kind with
  | additive maxJitter | decorrelated => exact hbase.1
  | full => exact le_refl _
  | equal => exact Nat.div_le_div_right hbase.1

/-- **Jitter leaves no gap**: what it reaches from the bounds, it reaches from a base between
them. -/
theorem Bounds.exists_base {b : Bounds} {d : Duration} {kind : JitterKind} {state : RetryState}
    (hle : b.lo ≤ b.hi) (h : (b.reach kind state).Contains d) :
    ∃ base, b.Contains base ∧ ((Bounds.point base).reach kind state).Contains d := by
  obtain ⟨hlo, hhi⟩ := h
  cases kind with
  | full => exact ⟨b.hi, ⟨hle, le_refl _⟩, hlo, hhi⟩
  | additive maxJitter =>
    -- The delay itself is a base, unless it is above them all.
    rcases le_total d b.hi with hd | hd
    · exact ⟨d, ⟨hlo, hd⟩, le_refl d, d.le_saturatingAdd _⟩
    · exact ⟨b.hi, ⟨hle, le_refl _⟩, hd, hhi⟩
  | decorrelated =>
    rcases le_total d b.hi with hd | hd
    · have hlongest : d ≤ JitterKind.longest .decorrelated d state := by
        have hmax := d.nanos_le
        simp only [JitterKind.longest, Duration.le_def, Duration.nanos_ofNanos]
        omega
      exact ⟨d, ⟨hlo, hd⟩, le_refl d, hlongest⟩
    · exact ⟨b.hi, ⟨hle, le_refl _⟩, hd, hhi⟩
  | equal =>
    -- A base whose half is the delay, unless all halves are below it.
    rcases Nat.lt_or_ge (2 * d.nanos) b.hi.nanos with hd | hd
    · have hlo' : b.lo.nanos / 2 ≤ d.nanos := Duration.le_def.mp hlo
      have htwice : 2 * d.nanos + 1 ≤ maxNanos := Nat.le_trans hd b.hi.nanos_le
      have hhalf : Duration.divBy ⟨2 * d.nanos + 1, htwice⟩ 2 = d := by
        apply Duration.ext
        show (2 * d.nanos + 1) / 2 = d.nanos
        omega
      refine ⟨⟨2 * d.nanos + 1, htwice⟩, ⟨?_, hd⟩, hhalf.le, ?_⟩
      · show b.lo.nanos ≤ 2 * d.nanos + 1
        omega
      · show d ≤ Duration.saturatingAdd (Duration.divBy ⟨2 * d.nanos + 1, htwice⟩ 2) _
        rw [hhalf]
        exact d.le_saturatingAdd _
    · refine ⟨b.hi, ⟨hle, le_refl _⟩, ?_, hhi⟩
      show b.hi.nanos / 2 ≤ d.nanos
      omega

/-! ## §2 Expressions over given raw values -/

namespace WaitExpr

/-- What an expression reaches in a state. -/
def reach : WaitExpr (JitterNode cell) → RetryState → Bounds
  | .fixed strategy, state => .point (strategy.nextWait state)
  | .linear strategy, state => .point (strategy.nextWait state)
  | .exponential strategy, state => .point (strategy.nextWait state)
  | .capped inner max, state => (inner.reach state).cap max
  | .combine left right, state => (left.reach state).add (right.reach state)
  | .chain first second after, state =>
    if state.attempt ≤ after then first.reach state else second.reach state
  | .jittered inner node, state => (inner.reach state).reach node.kind state

/-- The delay when each generator draws a given raw value. -/
def eval (expr : WaitExpr (JitterNode cell)) (raws : cell → UInt64) (state : RetryState) :
    Duration :=
  expr.nextWait (m := Id) (fun node base state =>
    (jitterDraw node.kind base state).eval (raws node.cell)) state

/-- The cells of the generators of an expression. -/
def cells (expr : WaitExpr (JitterNode cell)) : List cell := expr.nodes.map JitterNode.cell

theorem cells_combine (left right : WaitExpr (JitterNode cell)) :
    cells (.combine left right) = left.cells ++ right.cells := List.map_append

theorem cells_chain (first second : WaitExpr (JitterNode cell)) (after : UInt32) :
    cells (.chain first second after) = first.cells ++ second.cells := List.map_append

theorem cells_jittered (inner : WaitExpr (JitterNode cell)) (node : JitterNode cell) :
    cells (.jittered inner node) = inner.cells ++ [node.cell] := List.map_append

variable (state : RetryState)

/-- **The lower end** is that of the bounds. -/
theorem reach_lo (expr : WaitExpr (JitterNode cell)) :
    (expr.reach state).lo = (expr.bounds state).lo := by
  induction expr with
  | fixed strategy | linear strategy | exponential strategy => rfl
  | capped inner max ih => exact congrArg (min · max) ih
  | combine left right ihl ihr => exact congrArg₂ Duration.saturatingAdd ihl ihr
  | chain first second after ih₁ ih₂ =>
    rw [reach, bounds]
    split
    · exact ih₁
    · exact ih₂
  | jittered inner node ih =>
    obtain ⟨kind, index⟩ := node
    cases kind with
    | additive maxJitter | decorrelated => exact ih
    | full => rfl
    | equal => exact congrArg (Duration.divBy · 2) ih

/-- Equal jitter halves no odd delay, and one raw value spans every range that is drawn from. -/
def Whole : WaitExpr (JitterNode cell) → RetryState → Prop
  | .fixed _, _ | .linear _, _ | .exponential _, _ => True
  | .capped inner _, state => inner.Whole state
  | .combine left right, state => left.Whole state ∧ right.Whole state
  | .chain first second _, state => first.Whole state ∧ second.Whole state
  | .jittered inner node, state =>
    inner.Whole state ∧
      match node.kind with
      | .additive maxJitter => maxJitter.nanos < 2 ^ 64
      | .full => (inner.bounds state).hi.nanos < 2 ^ 64
      | .equal => 2 ∣ (inner.bounds state).hi.nanos ∧ (inner.bounds state).hi.nanos / 2 < 2 ^ 64
      | .decorrelated =>
        ((state.previousDelay.getD (inner.bounds state).hi).saturatingMul 3).nanos -
          (inner.bounds state).hi.nanos < 2 ^ 64

/-- **The upper end** is that of the bounds, too. -/
theorem reach_hi {expr : WaitExpr (JitterNode cell)} (h : expr.Whole state) :
    (expr.reach state).hi = (expr.bounds state).hi := by
  induction expr with
  | fixed strategy | linear strategy | exponential strategy => rfl
  | capped inner max ih => exact congrArg (min · max) (ih h)
  | combine left right ihl ihr => exact congrArg₂ Duration.saturatingAdd (ihl h.1) (ihr h.2)
  | chain first second after ih₁ ih₂ =>
    rw [reach, bounds]
    split
    · exact ih₁ h.1
    · exact ih₂ h.2
  | jittered inner node ih =>
    obtain ⟨hinner, hkind⟩ := h
    obtain ⟨kind, index⟩ := node
    show kind.longest (inner.reach state).hi state = ((inner.bounds state).jitter kind state).hi
    rw [ih hinner]
    have hmax := (inner.bounds state).hi.nanos_le
    apply Duration.ext
    cases kind with
    | additive maxJitter =>
      have hjitter := maxJitter.nanos_le
      simp only [JitterKind.longest, Bounds.jitter, Duration.nanos_saturatingAdd,
        Duration.nanos_ofNanos, Duration.nanos_zero, span] at hkind ⊢
      omega
    | full =>
      simp only [JitterKind.longest, Bounds.jitter, Duration.nanos_ofNanos, Duration.nanos_zero,
        span] at hkind ⊢
      omega
    | equal =>
      simp only [JitterKind.longest, Bounds.jitter, Duration.nanos_saturatingAdd,
        Duration.nanos_ofNanos, Duration.nanos_divBy, Duration.nanos_zero, span] at hkind ⊢
      omega
    | decorrelated =>
      have hupper := ((state.previousDelay.getD (inner.bounds state).hi).saturatingMul 3).nanos_le
      simp only [JitterKind.longest, Bounds.jitter, Duration.nanos_max, Duration.nanos_ofNanos,
        span] at hkind ⊢
      omega

/-- Only the generators of an expression decide its delay. -/
theorem eval_congr {expr : WaitExpr (JitterNode cell)} {raws raws' : cell → UInt64}
    (h : ∀ c ∈ expr.cells, raws c = raws' c) : expr.eval raws state = expr.eval raws' state := by
  induction expr with
  | fixed strategy | linear strategy | exponential strategy => rfl
  | capped inner max ih => exact congrArg (min · max) (ih h)
  | combine left right ihl ihr =>
    rw [cells_combine] at h
    exact congrArg₂ Duration.saturatingAdd (ihl fun c hc => h c (List.mem_append_left _ hc))
      (ihr fun c hc => h c (List.mem_append_right _ hc))
  | chain first second after ih₁ ih₂ =>
    rw [cells_chain] at h
    unfold eval nextWait
    split
    · exact ih₁ fun c hc => h c (List.mem_append_left _ hc)
    · exact ih₂ fun c hc => h c (List.mem_append_right _ hc)
  | jittered inner node ih =>
    rw [cells_jittered] at h
    have hbase := ih fun c hc => h c (List.mem_append_left _ hc)
    have hraw := h node.cell (List.mem_append_right _ (List.mem_singleton_self _))
    show (jitterDraw node.kind (inner.eval raws state) state).eval (raws node.cell) = _
    rw [hbase, hraw]
    rfl

/-- **Every delay** is reached. -/
theorem reach_contains_eval (expr : WaitExpr (JitterNode cell)) (raws : cell → UInt64) :
    (expr.reach state).Contains (expr.eval raws state) := by
  induction expr with
  | fixed strategy | linear strategy | exponential strategy => exact Bounds.contains_point _
  | capped inner max ih => exact ih.cap max
  | combine left right ihl ihr => exact ihl.add ihr
  | chain first second after ih₁ ih₂ =>
    unfold eval nextWait reach
    split
    · exact ih₁
    · exact ih₂
  | jittered inner node ih =>
    exact ih.reach ((exists_jitterDraw_eval node.kind _ state _).mp ⟨raws node.cell, rfl⟩)

theorem reach_le (expr : WaitExpr (JitterNode cell)) :
    (expr.reach state).lo ≤ (expr.reach state).hi :=
  have hcontains := expr.reach_contains_eval state fun _ => 0
  hcontains.1.trans hcontains.2

/-- Two expressions whose generators are not the same can be given their raw values apart. -/
theorem exists_raws_append {left right : WaitExpr (JitterNode cell)}
    (hcells : (left.cells ++ right.cells).Nodup) (raws raws' : cell → UInt64) :
    ∃ both, left.eval both state = left.eval raws state ∧
      right.eval both state = right.eval raws' state := by
  classical
  -- The left side's own generators draw what they drew, and all others what they drew on the right.
  refine ⟨fun c => if c ∈ left.cells then raws c else raws' c, ?_, ?_⟩
  · exact eval_congr state fun c hc => if_pos hc
  · exact eval_congr state fun c hc =>
      if_neg fun hleft => (List.disjoint_of_nodup_append hcells) hleft hc

end WaitExpr

/-- **A saturating sum leaves no gap.** -/
theorem Bounds.exists_summands {a b : Bounds} {d : Duration} (ha : a.lo ≤ a.hi) (hb : b.lo ≤ b.hi)
    (h : (a.add b).Contains d) :
    ∃ x y, a.Contains x ∧ b.Contains y ∧ x.saturatingAdd y = d := by
  have ha' := Duration.le_def.mp ha
  have hb' := Duration.le_def.mp hb
  have hlo := Duration.le_def.mp h.1
  have hhi := Duration.le_def.mp h.2
  have hmax := d.nanos_le
  simp only [Bounds.add, Duration.nanos_saturatingAdd] at hlo hhi
  -- The right side takes what the left side cannot give, so that little is left for the left one.
  rcases Nat.le_total d.nanos (a.lo.nanos + b.lo.nanos) with hd | hd
  · refine ⟨a.lo, b.lo, ⟨le_refl _, ha⟩, ⟨le_refl _, hb⟩, ?_⟩
    apply Duration.ext
    rw [Duration.nanos_saturatingAdd]
    omega
  · refine ⟨max a.lo (d.saturatingSub b.hi), d.saturatingSub (max a.lo (d.saturatingSub b.hi)),
      ⟨le_max_left _ _, ?_⟩, ⟨?_, ?_⟩, ?_⟩
    · simp only [Duration.le_def, Duration.nanos_max, Duration.nanos_saturatingSub]
      omega
    · simp only [Duration.le_def, Duration.nanos_max, Duration.nanos_saturatingSub]
      omega
    · simp only [Duration.le_def, Duration.nanos_max, Duration.nanos_saturatingSub]
      omega
    · apply Duration.ext
      simp only [Duration.nanos_saturatingAdd, Duration.nanos_max, Duration.nanos_saturatingSub]
      omega

/-- **A cap leaves no gap.** -/
theorem Bounds.exists_uncapped {b : Bounds} {max d : Duration} (hle : b.lo ≤ b.hi)
    (h : (b.cap max).Contains d) : ∃ x, b.Contains x ∧ min x max = d := by
  obtain ⟨hlo, hhi⟩ := h
  obtain ⟨hd, hmax⟩ := le_min_iff.mp hhi
  rcases min_le_iff.mp hlo with hlo | hlo
  · exact ⟨d, ⟨hlo, hd⟩, min_eq_left hmax⟩
  · -- The delay is the cap, which the longest one reaches.
    obtain rfl := le_antisymm hmax hlo
    exact ⟨b.hi, ⟨hle, le_refl _⟩, min_eq_right hd⟩

namespace WaitExpr

variable (state : RetryState)

/-- **Every duration in the interval** is a delay, and no other. -/
theorem exists_eval_iff {expr : WaitExpr (JitterNode cell)} (hcells : expr.cells.Nodup)
    (d : Duration) : (∃ raws, expr.eval raws state = d) ↔ (expr.reach state).Contains d := by
  constructor
  · rintro ⟨raws, rfl⟩
    exact expr.reach_contains_eval state raws
  · intro h
    induction expr generalizing d with
    | fixed strategy | linear strategy | exponential strategy =>
      exact ⟨fun _ => 0, le_antisymm h.1 h.2⟩
    | capped inner max ih =>
      obtain ⟨x, hx, rfl⟩ := Bounds.exists_uncapped (inner.reach_le state) h
      obtain ⟨raws, rfl⟩ := ih hcells x hx
      exact ⟨raws, rfl⟩
    | combine left right ihl ihr =>
      rw [cells_combine] at hcells
      obtain ⟨x, y, hx, hy, rfl⟩ :=
        Bounds.exists_summands (left.reach_le state) (right.reach_le state) h
      obtain ⟨raws, rfl⟩ := ihl hcells.of_append_left x hx
      obtain ⟨raws', rfl⟩ := ihr hcells.of_append_right y hy
      obtain ⟨both, hleft, hright⟩ := exists_raws_append state hcells raws raws'
      exact ⟨both, congrArg₂ Duration.saturatingAdd hleft hright⟩
    | chain first second after ih₁ ih₂ =>
      rw [cells_chain] at hcells
      unfold eval nextWait
      unfold reach at h
      split
      case isTrue hfirst =>
        rw [if_pos hfirst] at h
        exact ih₁ hcells.of_append_left d h
      case isFalse hfirst =>
        rw [if_neg hfirst] at h
        exact ih₂ hcells.of_append_right d h
    | jittered inner node ih =>
      rw [cells_jittered] at hcells
      obtain ⟨base, hbase, hd⟩ := Bounds.exists_base (inner.reach_le state) h
      obtain ⟨raws, rfl⟩ := ih hcells.of_append_left base hbase
      obtain ⟨raw, rfl⟩ := (exists_jitterDraw_eval node.kind _ state d).mpr hd
      classical
      -- The node's own generator draws the raw value; the inner ones are others.
      refine ⟨Function.update raws node.cell raw, ?_⟩
      have hother : ∀ c ∈ inner.cells, c ≠ node.cell := fun c hc heq =>
        (List.disjoint_of_nodup_append hcells) hc (List.mem_singleton.mpr heq)
      have hinner : inner.eval (Function.update raws node.cell raw) state = inner.eval raws state :=
        eval_congr state fun c hc => Function.update_of_ne (hother c hc) _ _
      show (jitterDraw node.kind (inner.eval (Function.update raws node.cell raw) state) state).eval
        (Function.update raws node.cell raw node.cell) = _
      rw [hinner, Function.update_self]

/-! ## §3 Generators -/

section Generators

variable [DecidableEq cell]

/-- A call leaves the generators of other expressions alone. -/
theorem next_frame {expr : WaitExpr (JitterNode cell)} (store : cell → SplitMix64) {c : cell}
    (hc : c ∉ expr.cells) : (expr.next state store).2 c = store c := by
  unfold next
  induction expr generalizing store with
  | fixed strategy | linear strategy | exponential strategy => rfl
  | capped inner max ih => exact ih store hc
  | combine left right ihl ihr =>
    rw [cells_combine, List.mem_append, not_or] at hc
    exact (ihr _ hc.2).trans (ihl store hc.1)
  | chain first second after ih₁ ih₂ =>
    rw [cells_chain, List.mem_append, not_or] at hc
    unfold nextWait
    split
    · exact ih₁ store hc.1
    · exact ih₂ store hc.2
  | jittered inner node ih =>
    rw [cells_jittered, List.mem_append, not_or, List.mem_singleton] at hc
    exact (Function.update_of_ne hc.2 _ _).trans (ih store hc.1)

/-- **With generators of their own**, all nodes draw the first values of these. -/
theorem next_fst {expr : WaitExpr (JitterNode cell)} (hcells : expr.cells.Nodup)
    (store : cell → SplitMix64) :
    (expr.next state store).1 = expr.eval (fun c => (store c).raw 0) state := by
  induction expr generalizing store with
  | fixed strategy | linear strategy | exponential strategy => rfl
  | capped inner max ih => exact congrArg (min · max) (ih hcells store)
  | combine left right ihl ihr =>
    rw [cells_combine] at hcells
    have hright := ihr hcells.of_append_right (left.next state store).2
    -- What the left side has drawn has left the generators of the right side as they were.
    have hkept : right.eval (fun c => ((left.next state store).2 c).raw 0) state =
        right.eval (fun c => (store c).raw 0) state :=
      eval_congr state fun c hc => congrArg (SplitMix64.raw · 0)
        (next_frame state store fun hleft => (List.disjoint_of_nodup_append hcells) hleft hc)
    exact congrArg₂ Duration.saturatingAdd (ihl hcells.of_append_left store) (hright.trans hkept)
  | chain first second after ih₁ ih₂ =>
    rw [cells_chain] at hcells
    unfold next eval nextWait
    split
    · exact ih₁ hcells.of_append_left store
    · exact ih₂ hcells.of_append_right store
  | jittered inner node ih =>
    rw [cells_jittered] at hcells
    have hbase := ih hcells.of_append_left store
    have hkept : (inner.next state store).2 node.cell = store node.cell :=
      next_frame state store fun hinner =>
        (List.disjoint_of_nodup_append hcells) hinner (List.mem_singleton_self _)
    show (drawAt node (inner.next state store).1 state (inner.next state store).2).1 = _
    rw [drawAt_fst, hbase, hkept]
    rfl

end Generators

end WaitExpr

/-- A generator with a given seed draws any value first, with some nonce. -/
theorem exists_seededRng_raw (seed raw : UInt64) :
    ∃ nonce, (seededRng seed nonce).raw 0 = raw := by
  obtain ⟨s, hs⟩ := mix_add_gamma_bijective.surjective raw
  refine ⟨seed ^^^ s, ?_⟩
  rw [seededRng, ← UInt64.xor_assoc, UInt64.xor_self, UInt64.zero_xor, raw_new]
  exact hs

/-! ## §4 The guarantee -/

/-- **No gaps.**  When every jittered strategy of an expression has a generator of its own, with
any seeds, the delays of a call over all nonces are all durations of an interval, and no others.
The interval starts where the bounds of the expression start, lies within them, and is all of
them where no odd delay is halved and 64 bits span every range. -/
theorem delays_fill_interval [DecidableEq cell] {expr : WaitExpr (JitterNode cell)}
    (hcells : expr.cells.Nodup) (state : RetryState) (seeds : cell → UInt64) :
    {delay | ∃ nonces : cell → UInt64,
      (expr.next state fun c => seededRng (seeds c) (nonces c)).1 = delay} =
        Set.Icc (expr.reach state).lo (expr.reach state).hi ∧
    (expr.reach state).lo = (expr.bounds state).lo ∧
    (expr.reach state).hi ≤ (expr.bounds state).hi ∧
    (expr.Whole state → (expr.reach state).hi = (expr.bounds state).hi) := by
  have hdelays (d : Duration) : (∃ nonces : cell → UInt64,
      (expr.next state fun c => seededRng (seeds c) (nonces c)).1 = d) ↔
        (expr.reach state).Contains d := by
    rw [← WaitExpr.exists_eval_iff state hcells d]
    constructor
    · rintro ⟨nonces, rfl⟩
      exact ⟨_, (WaitExpr.next_fst state hcells _).symm⟩
    · rintro ⟨raws, rfl⟩
      choose nonces hnonces using fun c => exists_seededRng_raw (seeds c) (raws c)
      refine ⟨nonces, (WaitExpr.next_fst state hcells _).trans ?_⟩
      exact congrArg (expr.eval · state) (funext hnonces)
  refine ⟨Set.ext hdelays, expr.reach_lo state, ?_, WaitExpr.reach_hi state⟩
  -- The longest delay is one, and every delay is within the bounds.
  obtain ⟨nonces, hlongest⟩ := (hdelays _).mpr ⟨expr.reach_le state, le_refl _⟩
  rw [← hlongest]
  exact (contains_next expr state _).2

/-- Equal and full jitter added up, each with its own generator, and capped. -/
def WaitExpr.busyReach : WaitExpr (JitterNode Bool) :=
  .capped (.combine (equalJitter (.fixed (Relentless.fixed (.ofNanos 6))) false)
    (fullJitter (.fixed (Relentless.fixed (.ofNanos 4))) true)) (.ofNanos 9)

/-- It gives every delay from three to nine nanoseconds. -/
theorem delays_fill_interval_busyReach :
    {delay | ∃ nonces : Bool → UInt64, (WaitExpr.busyReach.next ⟨1, .zero, none⟩
      fun c => seededRng 0 (nonces c)).1 = delay} = Set.Icc (.ofNanos 3) (.ofNanos 9) := by
  have hcells : WaitExpr.busyReach.cells.Nodup := by decide
  have hfill := delays_fill_interval hcells ⟨1, .zero, none⟩ fun _ => 0
  have hwhole : WaitExpr.busyReach.Whole ⟨1, .zero, none⟩ :=
    ⟨⟨trivial, by decide, by decide⟩, trivial, by decide⟩
  have hlo : (WaitExpr.busyReach.bounds ⟨1, .zero, none⟩).lo = .ofNanos 3 := by decide
  have hhi : (WaitExpr.busyReach.bounds ⟨1, .zero, none⟩).hi = .ofNanos 9 := by decide
  rw [hfill.1, hfill.2.1, hfill.2.2.2 hwhole, hlo, hhi]

end Relentless
