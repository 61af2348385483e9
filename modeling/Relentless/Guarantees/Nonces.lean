import Relentless.Wait.JitterHistory

/-!
# Which Streams Are Distinct

Default nonces are unique exactly when the wall clock does not undo the counter, and
a clone replays its original exactly when the original was pinned to the nonce that
the clone takes.

- `nonces_unique_iff` — nonces and default streams over any history
- `clones_diverge_iff` — clones and their originals over any history
-/

namespace Relentless

variable {W : Type} {width : PointerWidth} {std : Bool}

/-! ## §1 Nonces from the counter -/

theorem PointerWidth.pow_bits_le (width : PointerWidth) : 2 ^ width.bits ≤ 2 ^ 64 := by
  cases width <;> decide

/-- Before the counter wraps, the `k`-th nonce is `k + 1`, mixed with the clock. -/
theorem nthNonce_of_lt {k : ℕ} (hk : k + 1 < 2 ^ width.bits) (now : ℤ) :
    nthNonce width std k now =
      if std then .ofNat (k + 1) ^^^ wallNanos now else .ofNat (k + 1) := by
  unfold nthNonce
  rw [Nat.mod_eq_of_lt hk]
  cases std <;> rfl

theorem ofNat_inj_of_lt (width : PointerWidth) {a b : ℕ} (ha : a < 2 ^ width.bits)
    (hb : b < 2 ^ width.bits) :
    UInt64.ofNat a = UInt64.ofNat b ↔ a = b := by
  constructor
  · intro h
    have hnat := congrArg UInt64.toNat h
    rwa [UInt64.toNat_ofNat_of_lt' (ha.trans_le width.pow_bits_le),
      UInt64.toNat_ofNat_of_lt' (hb.trans_le width.pow_bits_le)] at hnat
  · rintro rfl
    rfl

/-! ## §2 Unique nonces -/

/-- All nonces handed out differ, and so do the start and the first raw draw of any two
streams that have one seed and run on the nonce they were handed. -/
def NoncesUnique (p : Process W) : Prop :=
  ∀ (i j : ℕ) (a b : Instance W), i < j → p.instances[i]? = some a → p.instances[j]? = some b →
    a.nonce ≠ b.nonce ∧
      (a.pinned = none → b.pinned = none → a.strategy.seed = b.strategy.seed →
        a.start ≠ b.start ∧ a.start.raw 0 ≠ b.start.raw 0)

/-- The wall clock readings of two constructions or clones never differ in just the bits
in which their places in the history differ. -/
def ClockSeparates (p : Process W) : Prop :=
  ∀ (i j : ℕ) (a b : Instance W), i < j → p.instances[i]? = some a → p.instances[j]? = some b →
    UInt64.ofNat (i + 1) ^^^ .ofNat (j + 1) ≠ wallNanos a.observed ^^^ wallNanos b.observed

/-- In a sound process two nonces agree when the clock undoes the counter. -/
theorem Process.Sound.nonce_ne_iff {p : Process W} (h : p.Sound width std)
    (hfew : p.instances.length < 2 ^ width.bits) {i j : ℕ} {a b : Instance W} (hij : i < j)
    (ha : p.instances[i]? = some a) (hb : p.instances[j]? = some b) :
    a.nonce ≠ b.nonce ↔ (std = true → UInt64.ofNat (i + 1) ^^^ .ofNat (j + 1) ≠
      wallNanos a.observed ^^^ wallNanos b.observed) := by
  have hj : j < p.instances.length := (List.getElem?_eq_some_iff.mp hb).1
  rw [(h.genuine i a ha).nonce, (h.genuine j b hb).nonce, nthNonce_of_lt (by omega),
    nthNonce_of_lt (by omega)]
  cases std with
  | true =>
    rw [if_pos rfl, if_pos rfl, ne_eq, UInt64.xor_eq_xor_iff]
    exact ⟨fun hne _ => hne, fun hne => hne rfl⟩
  | false =>
    -- Without a clock the nonces are the places themselves.
    have hplaces : UInt64.ofNat (i + 1) ≠ .ofNat (j + 1) := by
      rw [ne_eq, ofNat_inj_of_lt width (by omega) (by omega)]
      omega
    exact ⟨fun _ hstd => absurd hstd (by decide), fun _ => hplaces⟩

/-- Streams of one seed that start from different nonces are different streams. -/
theorem Instance.Genuine.start_ne {i j : ℕ} {a b : Instance W} (ha : a.Genuine width std i)
    (hb : b.Genuine width std j) (hpinned : a.pinned = none) (hpinned' : b.pinned = none)
    (hseed : a.strategy.seed = b.strategy.seed) (hne : a.nonce ≠ b.nonce) :
    a.start ≠ b.start ∧ a.start.raw 0 ≠ b.start.raw 0 := by
  have hstart : a.start ≠ b.start := by
    rw [ha.start, hb.start, hpinned, hpinned', hseed]
    exact fun h => hne (seededRng_inj.mp h)
  exact ⟨hstart, fun h => hstart (SplitMix64.raw_zero_injective h)⟩

/-- **Nonces are unique** over a history of fewer than `2 ^ w` constructions and clones:
always without `std`, and with it exactly when the clock does not undo the counter. -/
theorem nonces_unique_iff (width : PointerWidth) (std : Bool) (history : List (Action W))
    (hfew : draws history < 2 ^ width.bits) :
    NoncesUnique (.run (.atomics width std) history) ↔
      (std = true → ClockSeparates (.run (.atomics width std) history)) := by
  have hsound := Process.sound_run width std history
  have hlength := (Process.length_instances_run (.atomics width std) history).trans_lt hfew
  constructor
  · intro hunique hstd i j a b hij ha hb
    exact (hsound.nonce_ne_iff hlength hij ha hb).mp (hunique i j a b hij ha hb).1 hstd
  · intro hclock i j a b hij ha hb
    have hne : a.nonce ≠ b.nonce :=
      (hsound.nonce_ne_iff hlength hij ha hb).mpr fun hstd => hclock hstd i j a b hij ha hb
    refine ⟨hne, fun hpinned hpinned' hseed => ?_⟩
    exact (hsound.genuine i a ha).start_ne (hsound.genuine j b hb) hpinned hpinned' hseed hne

/-- Two constructions three nanoseconds apart. -/
def threeNanosApart : List (Action Unit) :=
  [.new () .full 1700000000000000000, .new () .full 1700000000000000003]

/-- Their readings do not decrease, and they are handed one nonce and one stream. -/
theorem nonces_threeNanosApart :
    let p := Process.run (.atomics .bits64 true) threeNanosApart
    draws threeNanosApart < 2 ^ 64 ∧
      (p.instances.map Instance.observed).Pairwise (· ≤ ·) ∧
      (p.instances.map Instance.nonce) = [1700000000000000001, 1700000000000000001] ∧
      ¬ NoncesUnique p := by
  refine ⟨by decide, by decide +kernel, by decide +kernel, ?_⟩
  intro hunique
  exact (hunique 0 1 _ _ Nat.zero_lt_one rfl rfl).1 (by decide +kernel)

/-- A microsecond apart they are handed two nonces and two streams. -/
theorem nonces_unique_microsecondApart :
    let history : List (Action Unit) :=
      [.new () .full 1700000000000000000, .new () .full 1700000000000001000]
    NoncesUnique (.run (.atomics .bits64 true) history) := by
  apply (nonces_unique_iff .bits64 true _ (by decide)).mpr
  intro _ i j a b hij ha hb
  have hj : j < 2 := (List.getElem?_eq_some_iff.mp hb).1
  obtain rfl : j = 1 := by omega
  obtain rfl : i = 0 := by omega
  obtain rfl := Option.some.inj ha
  obtain rfl := Option.some.inj hb
  decide +kernel

/-! ## §3 Clones -/

/-- The generator of a clone made after the history `before`. -/
def cloneStart (target : Target) (before : List (Action W)) (source : Instance W) (inner : W)
    (now : ℤ) : SplitMix64 :=
  (source.strategy.clone target now inner (Process.run target before).counter).1.rng

/-- At each clone, the clone's stream starts in another state than the stream of its
original did, and is another sequence of raw draws. -/
def ClonesDiverge (target : Target) (history : List (Action W)) : Prop :=
  ∀ before original inner now after source,
    history = before ++ .clone original inner now :: after →
    (Process.run target before).instances[original]? = some source →
    cloneStart target before source inner now ≠ source.start ∧
      ∃ k, (cloneStart target before source inner now).raw k ≠ source.start.raw k

/-- No original is pinned to the nonce that its clone takes: one more than the number of
constructions and clones before. -/
def ClonesUnforeseen (target : Target) (history : List (Action W)) : Prop :=
  ∀ before original inner now after source,
    history = before ++ .clone original inner now :: after →
    (Process.run target before).instances[original]? = some source →
    source.pinned ≠ some (.ofNat ((Process.run target before).instances.length + 1))

/-- A clone starts where its original did when the original is pinned to its nonce. -/
theorem cloneStart_eq_iff (width : PointerWidth) {before : List (Action W)} {original : ℕ}
    {source : Instance W} (inner : W) (now : ℤ)
    (hsource : (Process.run (.atomics width false) before).instances[original]? = some source)
    (hfew : (Process.run (.atomics width false) before).instances.length + 1 < 2 ^ width.bits) :
    cloneStart (.atomics width false) before source inner now = source.start ↔
      source.pinned =
        some (.ofNat ((Process.run (.atomics width false) before).instances.length + 1)) := by
  have hsound : (Process.run (.atomics width false) before).Sound width false :=
    Process.sound_run width false before
  have hgenuine := hsound.genuine original source hsource
  have hplace := (List.getElem?_eq_some_iff.mp hsource).1
  have hcounter := hsound.counter
  rw [Nat.mod_eq_of_lt hfew] at hcounter
  have hclone : cloneStart (.atomics width false) before source inner now =
      seededRng source.strategy.seed (.ofNat (Process.run (.atomics width false) before).counter) :=
    rfl
  rw [hclone, hcounter, hgenuine.start, seededRng_inj]
  cases hpinned : source.pinned with
  | none =>
    -- An original that still runs on its own nonce got it from an earlier count.
    have hnonce : source.nonce = .ofNat (original + 1) := by
      rw [hgenuine.nonce, nthNonce_of_lt (by omega)]
      rfl
    rw [Option.getD_none, hnonce, ofNat_inj_of_lt width hfew (by omega)]
    constructor
    · intro h
      omega
    · intro h
      cases h
  | some nonce =>
    rw [Option.getD_some, Option.some_inj]
    exact eq_comm

/-- **A clone replays its original** exactly when the original's last `with_nonce`, or the
nonce derived by its last `with_seed`, foresaw the counter. -/
theorem clones_diverge_iff (width : PointerWidth) (history : List (Action W))
    (hfew : draws history < 2 ^ width.bits) :
    ClonesDiverge (.atomics width false) history ↔
      ClonesUnforeseen (.atomics width false) history := by
  -- A clone in the history leaves room for the nonce that it takes.
  have hroom {before after : List (Action W)} {original : ℕ} {inner : W} {now : ℤ}
      (hhistory : history = before ++ .clone original inner now :: after) :
      (Process.run (.atomics width false) before).instances.length + 1 < 2 ^ width.bits := by
    have hlength := Process.length_instances_run (.atomics width false) before
    have hdraws : draws history = draws before + (draws after + 1) := by
      rw [hhistory, draws, List.countP_append, List.countP_cons_of_pos rfl]
      rfl
    omega
  constructor
  · intro hdiverge before original inner now after source hhistory hsource hpinned
    have hsame := cloneStart_eq_iff width inner now hsource (hroom hhistory)
    exact (hdiverge before original inner now after source hhistory hsource).1 (hsame.mpr hpinned)
  · intro hunforeseen before original inner now after source hhistory hsource
    have hsame := cloneStart_eq_iff width inner now hsource (hroom hhistory)
    have hstart : cloneStart (.atomics width false) before source inner now ≠ source.start :=
      fun h => hunforeseen before original inner now after source hhistory hsource (hsame.mp h)
    exact ⟨hstart, 0, fun h => hstart (SplitMix64.raw_zero_injective h)⟩

/-- A strategy pinned to the nonce 2, and then the second to take a nonce. -/
def pinnedToTwo : List (Action Unit) := [.new () .full 0, .withNonce 0 2, .clone 0 () 0]

/-- The clone starts where its original did. -/
theorem clone_replays_pinnedToTwo :
    draws pinnedToTwo < 2 ^ 64 ∧ ¬ ClonesDiverge (.atomics .bits64 false) pinnedToTwo := by
  refine ⟨by decide, ?_⟩
  intro hdiverge
  exact (hdiverge [.new () .full 0, .withNonce 0 2] 0 () 0 [] _ rfl rfl).1 (by decide +kernel)

/-- Pinned to a nonce that the counter does not reach, it does not. -/
theorem clone_diverges_pinnedToFive :
    ClonesDiverge (.atomics .bits64 false)
      ([.new () .full 0, .withNonce 0 5, .clone 0 () 0] : List (Action Unit)) := by
  apply (clones_diverge_iff .bits64 _ (by decide)).mpr
  intro before original inner now after source hhistory hsource
  -- The only clone is the last action.
  rcases before with _ | ⟨first, _ | ⟨second, _ | ⟨third, rest⟩⟩⟩ <;> simp at hhistory
  obtain ⟨rfl, rfl, ⟨rfl, -, -⟩, -⟩ := hhistory
  obtain rfl := Option.some.inj hsource
  decide +kernel

end Relentless
