import Relentless.Engine.AsyncTwin
import Relentless.Engine.Parametric
import Relentless.Guarantees.WaitBounds
import Relentless.Trace.Consultations

/-!
# Decorrelated Jitter over a Run

A run that waits with capped decorrelated jitter: each applied delay is at most three
times the one before it, the cap, or the base, and the growth starts again from what was
applied, not from what the strategy asked for.

- `Decorrelated` — the delays of a log, one against the next
- `FedBack.decorrelated` — feedback and the bounds of the strategy give the recurrence
- `decorrelated_run` — the delays of every run of either engine
-/

namespace Relentless

variable {R A O : Type}

/-! ## §1 Applied delays -/

/-- The delays of a log under decorrelated jitter: the first and every later one are
bounded by the delay before them, hence by powers of three; none is below the base and
the cap except as the rest of the timeout; each consultation is shown the delay applied
before it, and these are the delays that the clock is asked for. -/
structure Decorrelated (base cap : Duration) (timeout : Option Duration)
    (log : List (Event R A O)) : Prop where
  first : ∀ d, (gapDelays timeout log)[0]? = some d → d ≤ min cap (base.saturatingMul 3)
  next : ∀ (k : ℕ) d d', (gapDelays timeout log)[k]? = some d →
    (gapDelays timeout log)[k + 1]? = some d' →
      d' ≤ min cap (max base (d.saturatingMul 3))
  power : ∀ (k : ℕ) d, (gapDelays timeout log)[k]? = some d →
    d ≤ min cap (base.saturatingMul (3 ^ (k + 1)))
  lower : ∀ (k : ℕ) d (c : RetryState × Duration), (gapDelays timeout log)[k]? = some d →
    (consultations log)[k]? = some c →
      min base cap ≤ d ∨ ∃ t, timeout = some t ∧ d = t.saturatingSub c.1.elapsed
  shown : ∀ (k : ℕ) (c : RetryState × Duration), (consultations log)[k]? = some c →
    c.1.previousDelay = if k = 0 then none else (gapDelays timeout log)[k - 1]?
  requested : requested log = (gapDelays timeout log).filter (· ≠ .zero)

/-! ## §2 One consultation -/

/-- The clamp only lowers a delay. -/
theorem applied_le (timeout : Option Duration) (c : RetryState × Duration) :
    applied timeout c ≤ c.2 := by
  cases timeout with
  | none => exact le_refl _
  | some t => exact min_le_left _ _

/-- A delay that the clamp lowers is what is left of the timeout. -/
theorem applied_eq_or (timeout : Option Duration) (c : RetryState × Duration) :
    applied timeout c = c.2 ∨
      ∃ t, timeout = some t ∧ applied timeout c = t.saturatingSub c.1.elapsed := by
  cases timeout with
  | none => exact .inl rfl
  | some t =>
    rcases min_choice c.2 (t.saturatingSub c.1.elapsed) with h | h
    · exact .inl h
    · exact .inr ⟨t, rfl, h⟩

/-- Three times the larger of a base and three times a power of it is a larger power. -/
theorem max_saturatingMul_le {base d : Duration} {n : ℕ}
    (h : d ≤ base.saturatingMul (3 ^ n)) :
    max base (d.saturatingMul 3) ≤ base.saturatingMul (3 ^ (n + 1)) := by
  have hd := Duration.le_def.mp h
  have hpow : 1 ≤ 3 ^ (n + 1) := Nat.one_le_two_pow.trans (Nat.pow_le_pow_left (by decide) _)
  have hbase : base.nanos ≤ base.nanos * 3 ^ (n + 1) := Nat.le_mul_of_pos_right _ hpow
  have hthree : base.nanos * 3 ^ (n + 1) = base.nanos * 3 ^ n * 3 := by
    rw [Nat.pow_succ, Nat.mul_assoc]
  have hmax := base.nanos_le
  simp only [Duration.le_def, Duration.nanos_max, Duration.nanos_saturatingMul] at hd ⊢
  omega

/-! ## §3 The recurrence -/

section Recurrence

variable {base cap : Duration} {S : Setting R A O} {log : List (Event R A O)}

/-- The bounds of capped decorrelated jitter. -/
def decorrelatedBounds (base cap : Duration) (state : RetryState) : Bounds :=
  ⟨min base cap, min (max base ((state.previousDelay.getD base).saturatingMul 3)) cap⟩

/-- Every gap comes from a consultation whose answer is within the bounds. -/
theorem FedBack.consultation (h : FedBack S none log)
    (hbounds : ∀ state d, S.answers.nextWait state d →
      (decorrelatedBounds base cap state).Contains d) {k : ℕ} {d : Duration}
    (hd : (gapDelays S.timeout log)[k]? = some d) :
    ∃ c, (consultations log)[k]? = some c ∧ d = applied S.timeout c ∧
      (decorrelatedBounds base cap c.1).Contains c.2 ∧
      c.1.previousDelay = if k = 0 then none else (gapDelays S.timeout log)[k - 1]? := by
  rw [gapDelays_eq_map, List.getElem?_map] at hd
  obtain ⟨c, hc, rfl⟩ := Option.map_eq_some_iff.mp hd
  exact ⟨c, hc, rfl, hbounds _ _ (h.answered c (List.mem_of_getElem? hc)), h.shown k c hc⟩

/-- **Feedback and bounds give the recurrence.** -/
theorem FedBack.decorrelated (h : FedBack S none log)
    (hbounds : ∀ state d, S.answers.nextWait state d →
      (decorrelatedBounds base cap state).Contains d) :
    Decorrelated base cap S.timeout log := by
  have hfirst : ∀ d, (gapDelays S.timeout log)[0]? = some d →
      d ≤ min cap (base.saturatingMul 3) := by
    intro d hd
    obtain ⟨c, hc, rfl, hcontains, hshown⟩ := h.consultation hbounds hd
    -- Nothing was applied yet, so the base takes the place of the previous delay.
    have hprevious : c.1.previousDelay = none := hshown
    have hbase : base ≤ base.saturatingMul 3 := by
      have hmax := base.nanos_le
      rw [Duration.le_def, Duration.nanos_saturatingMul]
      omega
    have hle : applied S.timeout c ≤
        min (max base ((c.1.previousDelay.getD base).saturatingMul 3)) cap :=
      (applied_le S.timeout c).trans hcontains.2
    rwa [hprevious, Option.getD_none, max_eq_right hbase, min_comm] at hle
  have hnext : ∀ k d d', (gapDelays S.timeout log)[k]? = some d →
      (gapDelays S.timeout log)[k + 1]? = some d' →
        d' ≤ min cap (max base (d.saturatingMul 3)) := by
    intro k d d' hd hd'
    obtain ⟨c, hc, rfl, hcontains, hshown⟩ := h.consultation hbounds hd'
    have hprevious : c.1.previousDelay = some d := hshown.trans hd
    have hle : applied S.timeout c ≤
        min (max base ((c.1.previousDelay.getD base).saturatingMul 3)) cap :=
      (applied_le S.timeout c).trans hcontains.2
    rwa [hprevious, Option.getD_some, min_comm] at hle
  refine ⟨hfirst, hnext, ?_, ?_, h.shown, h.requested⟩
  · intro k d hd
    -- By induction on the gap: the bound of the one before it, tripled.
    induction k generalizing d with
    | zero =>
      rw [Nat.zero_add, Nat.pow_one]
      exact hfirst d hd
    | succ k ih =>
      have hlt : k < (gapDelays S.timeout log).length :=
        Nat.lt_of_succ_lt (List.getElem?_eq_some_iff.mp hd).1
      have hbefore := List.getElem?_eq_getElem hlt
      have hle := hnext k _ d hbefore hd
      apply le_min
      · exact hle.trans (min_le_left _ _)
      · have hpower := (ih _ hbefore).trans (min_le_right _ _)
        exact (hle.trans (min_le_right _ _)).trans (max_saturatingMul_le hpower)
  · intro k d c hd hc
    obtain ⟨c', hc', rfl, hcontains, -⟩ := h.consultation hbounds hd
    obtain rfl := Option.some.inj (hc'.symm.trans hc)
    rcases applied_eq_or S.timeout c' with heq | hrest
    · left
      rw [heq]
      exact hcontains.1
    · exact .inr hrest

end Recurrence

/-! ## §4 The guarantee -/

variable {σ ι Fut WaitFut : Type} [DecidableEq ι]

/-- The answers of `decorrelated_jitter(base).cap(cap)`, whatever its generator holds. -/
theorem decorrelated_answers (get : σ → ι → SplitMix64) (put : (ι → SplitMix64) → σ → σ)
    (base cap : Duration) (cell : ι) {classifier : Decide (Eff σ) R A O} {stop : Stop (Eff σ)}
    {state : RetryState} {d : Duration}
    (h : (Answers.of classifier stop (Wait.ofExpr get put
      ((WaitExpr.decorrelatedJitter base cell).capped cap))).nextWait state d) :
    (decorrelatedBounds base cap state).Contains d := by
  obtain ⟨w, rfl⟩ := h
  exact contains_next ((WaitExpr.decorrelatedJitter base cell).capped cap) state (get w)

/-- **Decorrelated jitter over a whole run**: with `decorrelated_jitter(base).cap(cap)`,
whatever the timeout, the other parts and the generator are, the applied delays of every
run of either engine follow the decorrelated recurrence. -/
theorem decorrelated_run (get : σ → ι → SplitMix64) (put : (ι → SplitMix64) → σ → σ)
    (base cap : Duration) (cell : ι) :
    (∀ (retry : Retry (Eff σ) R A O) (n : ℕ) (w : σ),
      let self := { retry with
        wait := .ofExpr get put ((WaitExpr.decorrelatedJitter base cell).capped cap) }
      Decorrelated base cap self.timeout (self.traced.runFor n ⟨w, []⟩).2.log) ∧
    (∀ (retry : AsyncRetry (Eff σ) Fut WaitFut R A O) (cxs : ℕ → Context) (w : σ) (j : ℕ)
      (t : Traced σ R A O) (run : AsyncRun Fut WaitFut) (result : PollEnd (Output R A O)),
      let self := { retry with
        wait := .ofExpr get put ((WaitExpr.decorrelatedJitter base cell).capped cap) }
      self.traced.PolledTo cxs ⟨w, []⟩ j t run result →
        Decorrelated base cap self.timeout t.log) := by
  constructor
  · intro retry n w self
    apply (self.fedBack n w).decorrelated
    exact fun _ _ => decorrelated_answers get put base cap cell
  · intro retry cxs w j t run result self hpolled
    apply (self.fedBack hpolled).decorrelated
    exact fun _ _ => decorrelated_answers get put base cap cell

/-- A run that is busy twice, on a clock beside one generator. -/
def Retry.busyBeside : Retry (Eff (ℕ × SplitMix64)) ℕ String (Except String ℕ) :=
  (Retry.busyTwice none).into Eff.Part.left.run

/-- Its twin. -/
def AsyncRetry.busyBeside : AsyncRetry (Eff (ℕ × SplitMix64)) (ℕ × Eff ℕ (Except String ℕ))
    (ℕ × Eff ℕ Unit) ℕ String (Except String ℕ) :=
  (AsyncRetry.busyTwice none).into Eff.Part.left.run

/-- The two delays of the run, and those of its twin after three polls. -/
theorem decorrelated_run_busyBeside :
    let drawn : Wait (Eff (ℕ × SplitMix64)) := .ofExpr (fun w (_ : Unit) => w.2)
      (fun store w => (w.1, store ()))
      ((WaitExpr.decorrelatedJitter (.ofNanos 4) ()).capped (.ofNanos 9))
    let self := { Retry.busyBeside with wait := drawn }
    let twin := { AsyncRetry.busyBeside with wait := drawn }
    let log := (self.traced.runFor 3 ⟨(0, ⟨0⟩), []⟩).2.log
    ((gapDelays none log).length = 2 ∧
      Decorrelated (.ofNanos 4) (.ofNanos 9) self.timeout log) ∧
    ∃ t run, twin.traced.PolledTo (fun _ => ⟨0⟩) ⟨(0, ⟨0⟩), []⟩ 3 t run .pending ∧
      Decorrelated (.ofNanos 4) (.ofNanos 9) twin.timeout t.log := by
  intro drawn self twin log
  obtain ⟨hsync, hasync⟩ := decorrelated_run (fun (w : ℕ × SplitMix64) (_ : Unit) => w.2)
    (fun store w => (w.1, store ())) (.ofNanos 4) (.ofNanos 9) ()
  have hpolls : (twin.traced.polls (fun _ => ⟨0⟩) 9 ⟨(0, ⟨0⟩), []⟩ 3).map Prod.fst =
      some .pending := by decide +kernel
  obtain ⟨t, run, hpolled⟩ := AsyncRetry.exists_polledTo hpolls
  have hlog := hsync Retry.busyBeside 3 (0, ⟨0⟩)
  have htwin := hasync AsyncRetry.busyBeside _ _ 3 t run _ hpolled
  exact ⟨⟨by decide +kernel, by with_reducible exact hlog⟩, t, run, hpolled,
    by with_reducible exact htwin⟩

end Relentless
