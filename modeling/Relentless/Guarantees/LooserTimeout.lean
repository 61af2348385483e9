import Relentless.Guarantees.TimeoutBound

/-!
# Loosening a Timeout Costs No Attempts

Two runs of one configuration, with the timeouts `tight ≤ loose`, make the same calls up
to the first round in which the tight one stops on its timeout or shortens its delay, and
the tight one makes no more attempts in all.

- `Parts` — how the fates of one round can differ under the two timeouts
- `Retry.PartsAt` — the two runs agree for `k` rounds, and part in the next
- `Retry.agree_or_part` — there is no other way for them to differ
- `looser_timeout_costs_no_attempts` — the guarantee
-/

namespace Relentless

open StateLoop

variable {σ R A O : Type}

/-! ## §1 Two timeouts -/

/-- `tight ≤ loose`, where no timeout is larger than every timeout. -/
def Tighter (tight loose : Option Duration) : Prop :=
  ∀ T, loose = some T → ∃ t, tight = some t ∧ t ≤ T

section Tighter

variable {tight loose : Option Duration} (h : Tighter tight loose)

include h

/-- Time that exceeds the looser timeout exceeds the tighter one. -/
theorem Tighter.exceeded {elapsed : Duration} (hloose : timeoutExceeded loose elapsed = true) :
    timeoutExceeded tight elapsed = true := by
  cases loose with
  | none => cases hloose
  | some T =>
    obtain ⟨t, rfl, hle⟩ := h T rfl
    have hexceeded : T ≤ elapsed := of_decide_eq_true hloose
    exact decide_eq_true (hle.trans hexceeded)

/-- The tighter timeout leaves no more of a delay. -/
theorem Tighter.clampDelay_le (elapsed rawDelay : Duration) :
    clampDelay tight elapsed rawDelay ≤ clampDelay loose elapsed rawDelay := by
  cases loose with
  | none =>
    cases tight with
    | none => exact le_refl _
    | some t => exact min_le_left _ _
  | some T =>
    obtain ⟨t, rfl, hle⟩ := h T rfl
    apply min_le_min_left
    simp only [Duration.le_def, Duration.nanos_saturatingSub] at hle ⊢
    omega

end Tighter

/-- A delay that is shortened further than under another timeout is all that is left. -/
theorem clampDelay_of_lt {tight loose : Option Duration} {elapsed rawDelay : Duration}
    (hless : clampDelay tight elapsed rawDelay < clampDelay loose elapsed rawDelay) :
    ∃ t, tight = some t ∧ clampDelay tight elapsed rawDelay = t.saturatingSub elapsed := by
  have hraw : clampDelay loose elapsed rawDelay ≤ rawDelay := by
    cases loose with
    | none => exact le_refl _
    | some T => exact min_le_left _ _
  cases tight with
  | none => exact absurd (hless.trans_le hraw) (lt_irrefl _)
  | some t => exact ⟨t, rfl, min_eq_right (min_lt_iff.mp (hless.trans_le hraw) |>.resolve_left
      (lt_irrefl _)).le⟩

/-! ## §2 One round under two timeouts -/

/-- How the fates of one round differ under two timeouts: the tight one has been exceeded
and the loose one has not, or the tight one leaves less of the delay. -/
inductive Parts (tight loose : Option Duration) (elapsed : Duration) :
    Fate R A O → Fate R A O → Prop where
  | stops (last : O) (rawDelay : Duration) (hexceeded : timeoutExceeded tight elapsed = true)
      (hwithin : timeoutExceeded loose elapsed = false) :
      Parts tight loose elapsed (.exhausted last false) (.retried last rawDelay)
  | clamps (last : O) (rawDelay : Duration)
      (hless : clampDelay tight elapsed rawDelay < clampDelay loose elapsed rawDelay) :
      Parts tight loose elapsed (.retried last rawDelay) (.retried last rawDelay)

/-- There is no other difference. -/
theorem Fate.same_or_parts {tight loose : Option Duration} (h : Tighter tight loose)
    (elapsed : Duration) (fate : Fate R A O) :
    (fate.cutBy tight elapsed = fate.cutBy loose elapsed ∧
      ∀ last rawDelay, fate.cutBy tight elapsed = .retried last rawDelay →
        clampDelay tight elapsed rawDelay = clampDelay loose elapsed rawDelay) ∨
    Parts tight loose elapsed (fate.cutBy tight elapsed) (fate.cutBy loose elapsed) := by
  cases fate with
  | returned value | aborted last | exhausted last answer =>
    -- The timeout is not consulted.
    refine .inl ⟨rfl, fun last rawDelay hfate => ?_⟩
    cases hfate
  | retried last rawDelay =>
    have hcut {timeout : Option Duration} (hexceeded : timeoutExceeded timeout elapsed = true) :
        (Fate.retried last rawDelay : Fate R A O).cutBy timeout elapsed =
          .exhausted last false := by
      simp [cutBy, hexceeded]
    have hkept {timeout : Option Duration} (hwithin : timeoutExceeded timeout elapsed = false) :
        (Fate.retried last rawDelay : Fate R A O).cutBy timeout elapsed =
          .retried last rawDelay := by
      simp [cutBy, hwithin]
    cases htight : timeoutExceeded tight elapsed with
    | true =>
      cases hloose : timeoutExceeded loose elapsed with
      | true =>
        -- Exceeded under both, the round ends in the same way.
        rw [hcut htight, hcut hloose]
        refine .inl ⟨rfl, fun last rawDelay hfate => ?_⟩
        cases hfate
      | false =>
        rw [hcut htight, hkept hloose]
        exact .inr (.stops last rawDelay htight hloose)
    | false =>
      have hloose : timeoutExceeded loose elapsed = false := by
        apply Bool.eq_false_iff.mpr
        intro hloose
        exact Bool.false_ne_true (htight.symm.trans (h.exceeded hloose))
      -- Under neither; what is left is the delay of the gap.
      rw [hkept htight, hkept hloose]
      rcases (h.clampDelay_le elapsed rawDelay).eq_or_lt with hsame | hless
      · refine .inl ⟨rfl, fun last' rawDelay' hfate => ?_⟩
        obtain ⟨-, rfl⟩ := Fate.retried.inj hfate
        exact hsame
      · exact .inr (.clamps last rawDelay hless)

/-- Where two timeouts leave the same delay, a round is the same under both. -/
theorem Round.gap_congr {timeout timeout' : Option Duration} {mark : Mark}
    {round : Round R A O}
    (hdelay : ∀ last rawDelay, round.fate = .retried last rawDelay →
      clampDelay timeout (round.after mark).highest rawDelay =
        clampDelay timeout' (round.after mark).highest rawDelay) :
    round.gap timeout mark = round.gap timeout' mark := by
  obtain ⟨before, outcome, after, fate⟩ := round
  cases fate with
  | returned value | aborted last | exhausted last answer => rfl
  | retried last rawDelay => exact congrArg some (hdelay last rawDelay rfl)

theorem Round.turn_congr {S S' : Setting R A O} {mark : Mark} {round : Round R A O}
    (hdelay : ∀ last rawDelay, round.fate = .retried last rawDelay →
      clampDelay S.timeout (round.after mark).highest rawDelay =
        clampDelay S'.timeout (round.after mark).highest rawDelay) :
    round.turn S mark = round.turn S' mark := by
  obtain ⟨before, outcome, after, fate⟩ := round
  cases fate with
  | returned value | aborted last | exhausted last answer => rfl
  | retried last rawDelay => simp [Round.turn, Round.nextMark, hdelay last rawDelay rfl]

theorem Round.calls_congr {S S' : Setting R A O} {mark : Mark} {round : Round R A O}
    (hbefore : S.beforeHooks = S'.beforeHooks) (hafter : S.afterHooks = S'.afterHooks)
    (hexit : S.exitHooks = S'.exitHooks)
    (hdelay : ∀ last rawDelay, round.fate = .retried last rawDelay →
      clampDelay S.timeout (round.after mark).highest rawDelay =
        clampDelay S'.timeout (round.after mark).highest rawDelay) :
    round.calls S mark = round.calls S' mark := by
  obtain ⟨before, outcome, after, fate⟩ := round
  cases fate with
  | returned value | aborted last | exhausted last answer =>
    simp [Round.calls, openingCalls, closingCalls, Fate.calls, Fate.waitCalls, hbefore, hafter,
      hexit]
  | retried last rawDelay =>
    have hsame := hdelay last rawDelay rfl
    simp [Round.calls, openingCalls, closingCalls, Fate.calls, Fate.waitCalls, hbefore, hafter,
      Mark.state, hsame]

namespace Retry

variable (self : Retry (Eff σ) R A O)

/-- The world after a round, from the one after its decision. -/
def slept (gap : Option Duration) (w : σ) : σ :=
  match gap with
  | some delay => (self.sleep delay w).2
  | none => w

/-- The loop body under every timeout: what is the same, and what the timeout decides. -/
theorem loopBody_uniform (mark : Mark) (w : σ) :
    ∃ (round : Round R A O) (world : Fate R A O → σ), ∀ timeout,
      let round' := round.cutBy timeout mark
      let S := (self.timedBy timeout).setting
      round'.Allowed S mark ∧ ∀ log, (self.timedBy timeout).traced.loopBody mark.cursor ⟨w, log⟩ =
        ((round'.turn S mark).mapNext Mark.cursor,
          ⟨self.slept (round'.gap timeout mark) (world round'.fate),
            log ++ round'.calls S mark⟩) := by
  obtain ⟨round, w₀, w₁, w₂, world, h⟩ := self.exists_unfolds_uniform mark w
  refine ⟨round, world, fun timeout => ?_⟩
  have hround := h timeout
  obtain ⟨w', -, hproceed, hbody⟩ := hround.loopBody
  have hworld := (self.timedBy timeout).proceed_world mark (round.cutBy timeout mark)
    (world (round.cutBy timeout mark).fate)
  rw [hproceed] at hworld
  refine ⟨hround.step.allowed, fun log => ?_⟩
  rw [hbody log]
  exact congrArg (fun w => (_, (⟨w, _⟩ : Traced σ R A O))) hworld

/-- One round from one place: the same in both runs, or they part in it. -/
theorem loopBody_same_or_parts {tight loose : Option Duration} (h : Tighter tight loose)
    (mark : Mark) (w : σ) (log : List (Event R A O)) :
    let S := (self.timedBy tight).setting
    let S' := (self.timedBy loose).setting
    (self.timedBy tight).traced.loopBody mark.cursor ⟨w, log⟩ =
      (self.timedBy loose).traced.loopBody mark.cursor ⟨w, log⟩ ∨
    ∃ (round : Round R A O) (fate : Fate R A O) (w₁ w₂ : σ),
      let round' : Round R A O := { round with fate }
      Parts tight loose (round.after mark).highest round.fate fate ∧
      (self.timedBy tight).traced.loopBody mark.cursor ⟨w, log⟩ =
        ((round.turn S mark).mapNext Mark.cursor, ⟨w₁, log ++ round.calls S mark⟩) ∧
      (self.timedBy loose).traced.loopBody mark.cursor ⟨w, log⟩ =
        ((round'.turn S' mark).mapNext Mark.cursor, ⟨w₂, log ++ round'.calls S' mark⟩) := by
  intro S S'
  obtain ⟨round, world, hbody⟩ := self.loopBody_uniform mark w
  have htight := (hbody tight).2 log
  have hloose := (hbody loose).2 log
  -- One round underlies both bodies, so only the two fates can differ.
  rcases Fate.same_or_parts h (round.after mark).highest round.fate with ⟨hsame, hdelay⟩ | hparts
  · have hround : round.cutBy tight mark = round.cutBy loose mark :=
      congrArg (fun fate => ({ round with fate } : Round R A O)) hsame
    have hgap : (round.cutBy tight mark).gap tight mark =
        (round.cutBy loose mark).gap loose mark := by
      rw [← hround]
      exact Round.gap_congr hdelay
    have hcalls : (round.cutBy tight mark).calls S mark =
        (round.cutBy loose mark).calls S' mark := by
      rw [← hround]
      exact Round.calls_congr rfl rfl rfl hdelay
    have hturn : (round.cutBy tight mark).turn S mark =
        (round.cutBy loose mark).turn S' mark := by
      rw [← hround]
      exact Round.turn_congr hdelay
    left
    rw [htight, hloose, hcalls, hturn, hgap, hround]
  · exact .inr ⟨round.cutBy tight mark, (round.cutBy loose mark).fate, _, _, hparts, htight,
      hloose⟩

/-! ## §3 Whole runs under two timeouts -/

/-- After `k` rounds both runs stand at `mark`, with one world and one log.  They take the
next round alike up to the decision, and part in what follows from it. -/
structure PartsAt (tight loose : Option Duration) (w₀ : σ) (k : ℕ) (mark : Mark)
    (t : Traced σ R A O) (round : Round R A O) (fate : Fate R A O) (w₁ w₂ : σ) : Prop where
  parts : Parts tight loose (round.after mark).highest round.fate fate
  tight_at : (self.timedBy tight).traced.runFor k ⟨w₀, []⟩ = (.again mark.cursor, t)
  loose_at : (self.timedBy loose).traced.runFor k ⟨w₀, []⟩ = (.again mark.cursor, t)
  tight_next : (self.timedBy tight).traced.runFor (k + 1) ⟨w₀, []⟩ =
    ((round.turn (self.timedBy tight).setting mark).mapNext Mark.cursor,
      ⟨w₁, t.log ++ round.calls (self.timedBy tight).setting mark⟩)
  loose_next : (self.timedBy loose).traced.runFor (k + 1) ⟨w₀, []⟩ =
    ((({ round with fate } : Round R A O).turn (self.timedBy loose).setting mark).mapNext
        Mark.cursor,
      ⟨w₂, t.log ++ ({ round with fate } : Round R A O).calls
        (self.timedBy loose).setting mark⟩)

/-- **Two runs agree, or part in some round** before which they agree. -/
theorem agree_or_part {tight loose : Option Duration} (h : Tighter tight loose) (w₀ : σ)
    (n : ℕ) :
    (self.timedBy tight).traced.runFor n ⟨w₀, []⟩ =
      (self.timedBy loose).traced.runFor n ⟨w₀, []⟩ ∨
    ∃ k < n, ∃ mark t round fate w₁ w₂,
      self.PartsAt tight loose w₀ k mark t round fate w₁ w₂ := by
  induction n with
  | zero => exact .inl rfl
  | succ n ih =>
    rcases ih with hsame | ⟨k, hk, hpart⟩
    · obtain ⟨baseline, rounds, turn, w', -, -, htight⟩ := (self.timedBy tight).runFor_rounds n w₀
      have hloose := hsame.symm.trans htight
      cases turn with
      | done output =>
        -- Both have ended, with one result.
        left
        have htight' : (self.timedBy tight).traced.runFor (n + 1) ⟨w₀, []⟩ = _ :=
          runFor_done_mono (Nat.le_succ n) htight
        have hloose' : (self.timedBy loose).traced.runFor (n + 1) ⟨w₀, []⟩ = _ :=
          runFor_done_mono (Nat.le_succ n) hloose
        exact htight'.trans hloose'.symm
      | again mark =>
        have htight' : (self.timedBy tight).traced.runFor (n + 1) ⟨w₀, []⟩ = _ :=
          runFor_snoc htight
        have hloose' : (self.timedBy loose).traced.runFor (n + 1) ⟨w₀, []⟩ = _ :=
          runFor_snoc hloose
        rcases self.loopBody_same_or_parts h mark w' (.now baseline :: rounds) with
          hbody | ⟨round, fate, w₁, w₂, hparts, hbody, hbody'⟩
        · exact .inl (htight'.trans (hbody.trans hloose'.symm))
        · exact .inr ⟨n, Nat.lt_succ_self n, mark, _, round, fate, w₁, w₂, hparts, htight, hloose,
            htight'.trans hbody, hloose'.trans hbody'⟩
    · exact .inr ⟨k, Nat.lt_succ_of_lt hk, hpart⟩

end Retry

/-! ## §4 The round after they part -/

/-- The round after one that has waited out the timeout is the last. -/
theorem Round.done_of_spent {S : Setting R A O} {mark mark' : Mark} {round next : Round R A O}
    {pace : Pace} {T : Duration} (hT : S.timeout = some T) (hcovers : pace.Covers mark.elapsed)
    (hcoherent : Coherent pace (round.calls S mark ++ next.calls S mark'))
    (hturn : round.turn S mark = .again mark')
    (hspent : round.gap S.timeout mark = some (T.saturatingSub (round.after mark).highest))
    (hallowed : next.Allowed S mark') : ∃ output, next.turn S mark' = .done output := by
  obtain ⟨hround, hnext⟩ := coherent_append_iff.mp hcoherent
  -- The clock owes the next reading all that was left of the timeout.
  obtain ⟨delay, hgap, helapsed, hdue⟩ := hcovers.next hround hturn
  obtain rfl : T.saturatingSub (round.after mark).highest = delay :=
    Option.some.inj (hspent.symm.trans hgap)
  have hcovers' : (pace.after (round.calls S mark)).Covers mark'.elapsed := by
    rw [Pace.Covers, hdue]
    exact Nat.le_add_right _ _
  obtain ⟨hreading, hlate⟩ := hcovers'.after_eq hnext
  -- The reading after the operation is past the timeout, and so is the watermark.
  have hexceeded : T ≤ (next.after mark').highest := by
    have horigin : (next.after mark').origin = mark'.elapsed.origin := rfl
    rw [hdue, helapsed, Duration.nanos_saturatingSub] at hlate
    rw [horigin, helapsed] at hreading
    rw [Duration.le_def]
    omega
  cases hnextTurn : next.turn S mark' with
  | done output => exact ⟨output, rfl⟩
  | again mark'' =>
    exfalso
    obtain ⟨last, rawDelay, hfate, -⟩ := eq_retried_of_turn hnextTurn
    rw [Round.Allowed, hfate] at hallowed
    obtain ⟨-, -, hwithin, -⟩ := hallowed
    rw [hT] at hwithin
    exact of_decide_eq_false hwithin hexceeded

namespace Retry

theorem covers_of_again {self : Retry (Eff σ) R A O} {w₀ : σ} {n : ℕ} {mark : Mark}
    {t : Traced σ R A O} (hrun : self.traced.runFor n ⟨w₀, []⟩ = (.again mark.cursor, t))
    (hcoherent : Coherent .start t.log) : (Pace.start.after t.log).Covers mark.elapsed := by
  obtain ⟨baseline, rounds, turn, w', hrounds, -, hrun'⟩ := self.runFor_rounds n w₀
  obtain ⟨hturn, rfl⟩ := Prod.mk.inj (hrun.symm.trans hrun')
  cases turn with
  | done output => cases hturn
  | again mark' =>
    have helapsed : mark.elapsed = mark'.elapsed :=
      congrArg Cursor.elapsed (Turn.again.inj hturn)
    rw [helapsed]
    exact hrounds.covers rfl (le_refl baseline.nanos) hcoherent.2

/-- A run that has ended makes no more calls than it took rounds. -/
theorem opCalls_le_of_isDone {self : Retry (Eff σ) R A O} {w₀ : σ} {k : ℕ}
    (hended : (self.traced.runFor k ⟨w₀, []⟩).1.isDone = true) : self.opCalls w₀ ≤ k := by
  apply iSup_le
  intro n
  apply Nat.cast_le.mpr
  rcases Nat.le_total n k with hle | hle
  · exact (self.length_opStates_le w₀ n).trans hle
  · have hsame : self.traced.runFor n ⟨w₀, []⟩ = self.traced.runFor k ⟨w₀, []⟩ :=
      runFor_of_isDone hle hended
    rw [hsame]
    exact self.length_opStates_le w₀ k

variable {self : Retry (Eff σ) R A O} {tight loose : Option Duration} {w₀ : σ}

/-- **The tight run makes at most one attempt after they part**, and then so does the
loose one. -/
theorem PartsAt.opCalls_le {k : ℕ} {mark : Mark} {t : Traced σ R A O} {round : Round R A O}
    {fate : Fate R A O} {w₁ w₂ : σ} (h : self.PartsAt tight loose w₀ k mark t round fate w₁ w₂)
    (hcoherent : ∀ n, Coherent .start ((self.timedBy tight).traced.runFor n ⟨w₀, []⟩).2.log) :
    (self.timedBy tight).opCalls w₀ ≤ (self.timedBy loose).opCalls w₀ := by
  obtain ⟨hparts, htight, hloose, htight', hloose'⟩ := h
  obtain ⟨before, outcome, after, tightFate⟩ := round
  cases hparts with
  | stops last rawDelay hexceeded hwithin =>
    -- The tight run ends with this round, which the loose one takes as well.
    have hended : (self.timedBy tight).opCalls w₀ ≤ (k + 1 : ℕ) := by
      apply opCalls_le_of_isDone
      rw [htight']
      rfl
    have hgoing : (self.timedBy loose).Going w₀ k :=
      ((self.timedBy loose).going_iff_traced w₀ k).mpr ⟨_, _, hloose⟩
    have hmore := ((self.timedBy loose).lt_opCalls_iff w₀ k).mpr hgoing
    exact hended.trans (Order.add_one_le_of_lt hmore)
  | clamps last rawDelay hless =>
    let tightRound : Round R A O := ⟨before, outcome, after, .retried last rawDelay⟩
    obtain ⟨T, hT, hclamp⟩ := clampDelay_of_lt hless
    -- The next round of the tight run is its last; the loose run goes on to it as well.
    have hended : (self.timedBy tight).opCalls w₀ ≤ (k + 2 : ℕ) := by
      let mark' := tightRound.nextMark (self.timedBy tight).setting mark rawDelay
      obtain ⟨next, w', hallowed, -, hnext⟩ := (self.timedBy tight).loopBody_spec mark' w₁
      have hrun : (self.timedBy tight).traced.runFor (k + 2) ⟨w₀, []⟩ = _ :=
        (runFor_snoc htight').trans (hnext _)
      have hlog := hcoherent (k + 2)
      rw [hrun, List.append_assoc] at hlog
      obtain ⟨hbefore, hafter⟩ := coherent_append_iff.mp hlog
      obtain ⟨output, hdone⟩ := Round.done_of_spent hT (covers_of_again htight hbefore) hafter rfl
        (congrArg some hclamp) hallowed
      apply opCalls_le_of_isDone
      rw [hrun, hdone]
      rfl
    have hgoing : (self.timedBy loose).Going w₀ (k + 1) :=
      ((self.timedBy loose).going_iff_traced w₀ (k + 1)).mpr ⟨_, _, hloose'⟩
    have hmore := ((self.timedBy loose).lt_opCalls_iff w₀ (k + 1)).mpr hgoing
    exact hended.trans (Order.add_one_le_of_lt hmore)

end Retry

/-! ## §5 The guarantee -/

/-- **Loosening a timeout never costs attempts.**  Let `tight ≤ loose`, where no timeout is
the largest.  On a coherent clock the run with `tight` calls the operation at most as often
as the run with `loose`; and for any number of rounds the two runs make the same calls and
return the same, or they do up to a round in which the first one stops on its timeout or
shortens its delay further. -/
theorem looser_timeout_costs_no_attempts (self : Retry (Eff σ) R A O)
    (tight loose : Option Duration) (h : Tighter tight loose) (w₀ : σ)
    (hcoherent : ∀ n, Coherent .start ((self.timedBy tight).traced.runFor n ⟨w₀, []⟩).2.log) :
    (self.timedBy tight).opCalls w₀ ≤ (self.timedBy loose).opCalls w₀ ∧
    ∀ n, (self.timedBy tight).traced.runFor n ⟨w₀, []⟩ =
        (self.timedBy loose).traced.runFor n ⟨w₀, []⟩ ∨
      ∃ k < n, ∃ mark t round fate w₁ w₂,
        self.PartsAt tight loose w₀ k mark t round fate w₁ w₂ := by
  refine ⟨?_, self.agree_or_part h w₀⟩
  -- Runs that never part make the same calls.
  by_cases hpart : ∃ k mark t round fate w₁ w₂,
      self.PartsAt tight loose w₀ k mark t round fate w₁ w₂
  · obtain ⟨k, mark, t, round, fate, w₁, w₂, hpart⟩ := hpart
    exact hpart.opCalls_le hcoherent
  · apply le_of_eq
    unfold Retry.opCalls
    apply iSup_congr
    intro n
    rcases self.agree_or_part h w₀ n with hsame | ⟨k, -, hparted⟩
    · rw [hsame]
    · exact absurd ⟨k, hparted⟩ hpart

/-- Twenty nanoseconds leave room for no more attempts than all the time in the world. -/
theorem looser_timeout_alwaysBusy :
    (Retry.alwaysBusy.timedBy (some (.ofNanos 20))).opCalls 0 ≤
      (Retry.alwaysBusy.timedBy none).opCalls 0 := by
  have htighter : Tighter (some (.ofNanos 20)) none := fun T hT => by cases hT
  have hcoherent : ∀ n, Coherent .start
      ((Retry.alwaysBusy.timedBy (some (.ofNanos 20))).traced.runFor n ⟨0, []⟩).2.log :=
    @Retry.coherent_of_isDone _ _ _ _ _ 4 _ (by decide +kernel) (by decide +kernel)
  exact (looser_timeout_costs_no_attempts Retry.alwaysBusy _ none htighter 0 hcoherent).1

end Relentless
