import Relentless.Guarantees.OneStory
import Relentless.Trace.Simulation

/-!
# The Async Engine Refines the Sync Engine

Under every poll schedule an async run makes the calls of the sync run it is a
twin of, in the same order and with the same arguments; it gets ready exactly
when the sync run terminates, with the same result and statistics.

- `Stands.no_exit` — no `on_exit` hook fires before the future is ready
- `AsyncTwin.refines_sync` — the refinement, with the exact number of polls
-/

namespace Relentless

open StateLoop

variable {σ Fut WaitFut R A O : Type}

/-- In a live phase no `on_exit` hook has fired. -/
theorem Stands.no_exit {S : Setting R A O} {baseline : Duration} {log : List (Event R A O)}
    {state : AsyncRetry.LoopState Fut WaitFut} (h : Stands S baseline log state) :
    ∀ ev ∈ log, ev.isExit = false := by
  intro ev hev
  cases h with
  | ready rounds mark hrounds | sleeping rounds mark k future hrounds
  | yielding rounds mark k hrounds =>
    rcases List.mem_cons.mp hev with rfl | hev
    · rfl
    · exact hrounds.no_exit rfl ev hev
  | polling rounds mark reading future hrounds =>
    rcases List.mem_cons.mp hev with rfl | hev
    · rfl
    · rcases List.mem_append.mp hev with hev | hev
      · exact hrounds.no_exit rfl ev hev
      · exact Round.not_isExit_opening S mark reading ev hev

/-- A call of `on_exit` is in the log exactly when it is among the calls. -/
theorem no_exit_of_calls {log : List (Event R A O)} (h : ∀ ev ∈ calls log, ev.isExit = false) :
    ∀ ev ∈ log, ev.isExit = false := by
  intro ev hev
  by_cases hcall : ev.isCall = true
  · exact h ev (List.mem_filter.mpr ⟨hev, hcall⟩)
  · cases ev <;> first | rfl | exact absurd rfl hcall

namespace AsyncTwin

variable {sync : Retry (Eff σ) R A O} (twin : AsyncTwin sync Fut WaitFut)
  (cxs : ℕ → Context) (w₀ : σ)

/-- Each poll of a twin either yields once or finds the sync run's end. -/
theorem polledTo_follows {j : ℕ} {t : Traced σ R A O} {run : AsyncRun Fut WaitFut}
    {result : PollEnd (Output R A O)}
    (h : twin.toAsync.traced.PolledTo cxs ⟨w₀, []⟩ j t run result) :
    match result with
    | .pending => j = yields sync.timeout t.log ∧
        ∃ n, calls t.log <+: (sync.traced.runFor n ⟨w₀, []⟩).2.log
    | .ready output => j = 1 + yields sync.timeout t.log ∧
        ∃ n, sync.traced.runFor n ⟨w₀, []⟩ = (.done output, ⟨t.world, calls t.log⟩)
    | .panicked => False := by
  have hstart : Follows twin w₀ 0 [.now (sync.clock.now w₀).1] (sync.clock.now w₀).2
      (⟨(sync.clock.now w₀).1, .zero⟩, (AsyncRun.intoRun : AsyncRun Fut WaitFut).toRunFields) :=
    .ready (.start (sync.clock.now w₀).1) _ [.now (sync.clock.now w₀).1] rfl
  -- The polls that are over are the yields in the log, and the run follows the sync one.
  have hrule := h.rule
    (I := fun j t state => j = yields sync.timeout t.log ∧
      ∃ n, Follows twin w₀ n t.log t.world state)
    (Q := fun j t output => j = 1 + yields sync.timeout t.log ∧
      ∃ n, sync.traced.runFor n ⟨w₀, []⟩ = (.done output, ⟨t.world, calls t.log⟩))
    ⟨rfl, 0, hstart⟩ ?_
  · rcases hrule with ⟨rfl, rfl, rfl, rfl⟩ | ⟨i, rfl, hkeeps⟩
    · exact ⟨rfl, 0, List.nil_prefix⟩
    · cases result with
      | pending =>
        obtain ⟨elapsed, -, hyields, n, hfollows⟩ := hkeeps
        exact ⟨hyields, hfollows.prefix_sync⟩
      | ready output => exact hkeeps
      | panicked => exact hkeeps
  · rintro j cx state ⟨w, log⟩ ⟨hyields, n, hfollows⟩
    obtain ⟨n', turn, wf, evs, hbody, hadvances⟩ := hfollows.pass twin cx
    rw [hbody]
    have htotal : yields sync.timeout (log ++ evs) = j + yields sync.setting.timeout evs := by
      rw [yields_append, hyields]
      rfl
    generalize yields sync.setting.timeout evs = yielded at hadvances htotal
    cases hadvances with
    | again state hfollows => exact ⟨htotal.symm, n', hfollows⟩
    | pending state hfollows => exact ⟨state.1, rfl, htotal.symm, n', hfollows⟩
    | ready output run hdone =>
      refine ⟨?_, n', hdone⟩
      show j + 1 = 1 + yields sync.timeout (log ++ evs)
      rw [htotal, Nat.add_zero]
      exact Nat.add_comm j 1

/-- Nor does it part from the sync run in the middle of a poll. -/
theorem midway_follows {j : ℕ} {t : Traced σ R A O} {state : AsyncRetry.LoopState Fut WaitFut}
    (h : twin.toAsync.traced.Midway cxs ⟨w₀, []⟩ j t state) :
    ∃ n, Follows twin w₀ n t.log t.world state := by
  refine h.rule (I := fun t state => ∃ n, Follows twin w₀ n t.log t.world state) ?_ ?_ ?_
  · exact ⟨0, .ready (.start (sync.clock.now w₀).1) _ [.now (sync.clock.now w₀).1] rfl⟩
  · rintro cx state ⟨w, log⟩ state' t' ⟨n, hfollows⟩ hpass
    obtain ⟨n', turn, wf, evs, hbody, hadvances⟩ := hfollows.pass twin cx
    obtain ⟨rfl, rfl⟩ := Prod.mk.inj (hbody.symm.trans hpass)
    generalize yields sync.setting.timeout evs = yielded at hadvances
    cases hadvances with
    | again _ hfollows => exact ⟨n', hfollows⟩
  · rintro cx state ⟨w, log⟩ run t' ⟨n, hfollows⟩ hpass
    obtain ⟨n', turn, wf, evs, hbody, hadvances⟩ := hfollows.pass twin cx
    obtain ⟨rfl, rfl⟩ := Prod.mk.inj (hbody.symm.trans hpass)
    generalize yields sync.setting.timeout evs = yielded at hadvances
    cases hadvances with
    | pending state hfollows => exact ⟨state.1, rfl, n', hfollows⟩

/-- **The async engine refines the sync engine under every poll schedule.**
(a) After any sequence of polls the calls made are a prefix of those of the sync run,
and unless the future was ready no `on_exit` hook has fired.  (b), (c) If the sync run
terminates, then poll number one plus the number of `Pending`s and zero-delay gaps
finds the future ready, with the same result, statistics and calls; and no poll
finds it ready otherwise. -/
theorem refines_sync :
    (∀ j t run result, twin.toAsync.traced.PolledTo cxs ⟨w₀, []⟩ j t run result →
      result ≠ .panicked ∧
      (∃ n, calls t.log <+: (sync.traced.runFor n ⟨w₀, []⟩).2.log) ∧
      (result = .pending → j = yields sync.timeout t.log ∧ ∀ ev ∈ t.log, ev.isExit = false)) ∧
    (∀ n output s, sync.traced.runFor n ⟨w₀, []⟩ = (.done output, s) →
      ∃ t run, twin.toAsync.traced.PolledTo cxs ⟨w₀, []⟩ (1 + yields sync.timeout t.log) t run
          (.ready output) ∧
        t.world = s.world ∧ calls t.log = s.log) ∧
    (∀ j t run output, twin.toAsync.traced.PolledTo cxs ⟨w₀, []⟩ j t run (.ready output) →
      j = 1 + yields sync.timeout t.log ∧
        ∃ n, sync.traced.runFor n ⟨w₀, []⟩ = (.done output, ⟨t.world, calls t.log⟩)) := by
  refine ⟨?_, ?_, ?_⟩
  · intro j t run result hpolled
    have hfollows := twin.polledTo_follows cxs w₀ hpolled
    cases result with
    | panicked => exact hfollows.elim
    | ready output =>
      obtain ⟨-, n, hdone⟩ := hfollows
      have hlog : (sync.traced.runFor n ⟨w₀, []⟩).2.log = calls t.log := congrArg (·.2.log) hdone
      exact ⟨by simp, ⟨n, hlog ▸ List.prefix_refl _⟩, by simp⟩
    | pending =>
      obtain ⟨hyields, hprefix⟩ := hfollows
      refine ⟨by simp, hprefix, fun _ => ⟨hyields, ?_⟩⟩
      rcases twin.toAsync.polledTo_lands hpolled with ⟨-, rfl, -, -⟩ | ⟨elapsed, -, hstands⟩
      · simp
      · exact no_exit_of_calls hstands.no_exit
  · intro n output s hdone
    have hterminates : twin.Terminates cxs w₀ := twin.terminates_of_sync hdone
    obtain ⟨j, t, run, output', hpolled⟩ := hterminates
    obtain ⟨hj, n', hdone'⟩ := twin.polledTo_follows cxs w₀ hpolled
    -- Both ends are the end of one sync run.
    have hmax := runFor_done_mono (le_max_left n n') hdone
    have hmax' := runFor_done_mono (le_max_right n n') hdone'
    obtain ⟨houtput, hs⟩ := Prod.mk.inj (hmax.symm.trans hmax')
    obtain rfl := Turn.done.inj houtput
    refine ⟨t, run, hj ▸ hpolled, ?_, ?_⟩
    · rw [hs]
    · rw [hs]
  · intro j t run output hpolled
    exact twin.polledTo_follows cxs w₀ hpolled

/-- The twin of a run of three rounds gets ready, with the result of that run. -/
theorem refines_sync_busyTwice :
    ∃ t run, (AsyncRetry.busyTwice none).traced.PolledTo (fun _ => ⟨0⟩) ⟨0, []⟩
      (1 + yields none t.log) t run (.ready (.ok 7, ⟨3, .ofNanos 14, .ofNanos 5, .returned⟩)) := by
  have hrun : ((Retry.busyTwice none).traced.runFor 3 ⟨0, []⟩).1 =
      .done (.ok 7, ⟨3, .ofNanos 14, .ofNanos 5, .returned⟩) := by decide +kernel
  have hrefines := refines_sync
    (AsyncTwin.delayed (Retry.busyTwice none) (fun _ _ => 1) (fun _ _ => 1)) (fun _ => ⟨0⟩) 0
  obtain ⟨s, hrun⟩ := Eff.exists_world hrun
  obtain ⟨t, run, hpolled, -, -⟩ := hrefines.2.1 3 _ s hrun
  exact ⟨t, run, hpolled⟩

end AsyncTwin

end Relentless
