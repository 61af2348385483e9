import Relentless.Guarantees.ConcurrentRuns
import Relentless.Guarantees.LastOutcome

/-!
# What a Failed Run Says

The texts of errors and of stop reasons, and the cause that an error names, for the built-in
classifiers.

- `RetryError.display_eq` — an error names its stop reason, and then its cause
- `Reported` — what a failed run says about itself
- `failed_run_reports` — every failed run of both engines says so
-/

namespace Relentless

open StateLoop

variable {R A O T E : Type}

/-! ## §1 Texts -/

/-- The cause, as a text says it. -/
def causeText [ToString E] : Option E → String
  | some error => ": " ++ toString error
  | none => ""

namespace RetryError

/-- **An error names its stop reason**, and then its cause. -/
theorem display_eq [ToString E] (error : RetryError E (Except E T)) :
    error.display = error.stopReason.display ++ causeText error.source := by
  have haborted : "aborted: " = "aborted" ++ ": " := by decide
  have hexhausted : "retries exhausted: " = "retries exhausted" ++ ": " := by decide
  cases error with
  | aborted last =>
    show "aborted: " ++ toString last = "aborted" ++ (": " ++ toString last)
    rw [haborted, String.append_assoc]
  | exhausted last =>
    cases last with
    | error error =>
      show "retries exhausted: " ++ toString error = "retries exhausted" ++ (": " ++ toString error)
      rw [hexhausted, String.append_assoc]
    | ok value => exact String.append_empty.symm

theorem displayExhausted_eq (error : RetryError Empty O) :
    error.displayExhausted = error.stopReason.display := by
  cases error with
  | aborted last => nomatch last
  | exhausted last => rfl

end RetryError

/-! ## §2 By the shape of the outcome -/

/-- The error of an outcome. -/
def errorOf : Except E T → Option E
  | .error error => some error
  | .ok _ => none

namespace Builtin

/-- `Display` of an error. -/
def display : Builtin R A O → [ToString A] → RetryError A O → String
  | .onResult _, _, error => error.display
  | .onOption, _, error | .onControlFlow, _, error => error.displayExhausted

/-- `Error::source` of an error. -/
def source : Builtin R A O → RetryError A O → Option A
  | .onResult _ => RetryError.source
  | .onOption | .onControlFlow => fun _ => none

/-- The error that an outcome brings, if it brings one. -/
def cause : Builtin R A O → O → Option A
  | .onResult _ => errorOf
  | .onOption | .onControlFlow => fun _ => none

theorem display_eq [ToString A] (b : Builtin R A O) (error : RetryError A O) :
    b.display error = error.stopReason.display ++ causeText (b.source error) := by
  cases b with
  | onResult c => exact error.display_eq
  | onOption | onControlFlow =>
    exact error.displayExhausted_eq.trans String.append_empty.symm

end Builtin

/-- The source of a settled run's error is the error of its last outcome. -/
theorem Settled.source {b : Builtin R A O} {timeout : Option Duration}
    {log : List (Event R A O)} {error : RetryError A O} {earlier : List O} {last : O}
    (h : Settled b timeout log (.error error) earlier last) : b.source error = b.cause last := by
  have hresult := h.result
  cases b with
  | onOption | onControlFlow => rfl
  | onResult c =>
    -- An abort hands on the error, and an exhausted run its last outcome.
    cases hretries : c.retries last <;> cases last <;>
      simp only [Builtin.resultOf, hretries, reduceCtorEq, Except.error.injEq] at hresult <;>
      subst hresult <;> rfl

/-! ## §3 Runs that have failed -/

/-- What a failed run says: its error names the stop reason of the statistics, and the error
that the last outcome brought; and the `on_exit` hooks are shown this error. -/
structure Reported [ToString A] (b : Builtin R A O) (log : List (Event R A O))
    (output : Output R A O) (error : RetryError A O) (last : O) : Prop where
  last_outcome : (outcomes log).getLast? = some last
  source : b.source error = b.cause last
  display : b.display error = output.2.stopReason.display ++ causeText (b.cause last)
  exits : ∀ hook exit, Event.onExit hook exit ∈ log →
    exit.result = .error error ∧ exit.stopReason = output.2.stopReason

/-- The views of `on_exit` in the log of a finished run are the one of its story. -/
theorem Story.eq_exit {S : Setting R A O} {log : List (Event R A O)} {output : Output R A O}
    {exit exit' : Exit R A O} {hook : ℕ} (h : Story S log output exit)
    (hmem : Event.onExit hook exit' ∈ log) : exit' = exit := by
  obtain ⟨before, rfl, hbefore⟩ := h.fires_once
  rcases List.mem_append.mp hmem with hmem | hmem
  · cases hbefore _ hmem
  · obtain ⟨hook', -, hevent⟩ := mem_hookEvents.mp hmem
    cases hevent
    rfl

theorem Finished.reported [ToString A] {b : Builtin R A O} {S : Setting R A O}
    (hS : Explained b S) {baseline : Duration} {log : List (Event R A O)} {output : Output R A O}
    {error : RetryError A O} (h : Finished S baseline log output)
    (herror : output.1 = .error error) : ∃ last, Reported b log output error last := by
  obtain ⟨exit, hstory⟩ := h.story
  obtain ⟨rounds, rfl, hrounds⟩ := h
  -- The built-in classifier tells the result from the last outcome alone.
  obtain ⟨earlier, last, hsettled⟩ := hrounds.settled hS
  have houtcomes : outcomes (.now baseline :: rounds) = earlier ++ [last] := hsettled.outcomes
  rw [herror] at hsettled
  have hsource := hsettled.source
  refine ⟨last, ?_, hsource, ?_, ?_⟩
  · rw [houtcomes]
    exact List.getLast?_concat
  · rw [b.display_eq, hsource, hstory.error_stop_reason error herror]
  · intro hook exit' hmem
    obtain rfl := hstory.eq_exit hmem
    exact ⟨hstory.result.trans herror, hstory.stop_reason⟩

variable {σ Fut WaitFut : Type}

/-- **Every failed run says why it failed**: the text of its error is that of its stop reason
and of the error that its last outcome brought, in a sync run after any number of rounds and in
an async run after any sequence of polls. -/
theorem failed_run_reports [ToString A] (b : Builtin R A O) :
    (∀ (self : Retry (Eff σ) R A O) (n : ℕ) (w : σ) (t : Traced σ R A O) (output : Output R A O)
      (error : RetryError A O),
      (self.withClassifier b.classifier).traced.runFor n ⟨w, []⟩ = (.done output, t) →
        output.1 = .error error → ∃ last, Reported b t.log output error last) ∧
    ∀ (self : AsyncRetry (Eff σ) Fut WaitFut R A O) (cxs : ℕ → Context) (w : σ) (j : ℕ)
      (t : Traced σ R A O) (run : AsyncRun Fut WaitFut) (output : Output R A O)
      (error : RetryError A O),
      (self.withClassifier b.classifier).traced.PolledTo cxs ⟨w, []⟩ j t run (.ready output) →
        output.1 = .error error → ∃ last, Reported b (calls t.log) output error last := by
  constructor
  · intro self n w t output error hrun herror
    obtain ⟨baseline, rounds, turn, w', hrounds, -, hrun'⟩ :=
      (self.withClassifier b.classifier).runFor_rounds n w
    obtain ⟨hturn, rfl⟩ := Prod.mk.inj (hrun'.symm.trans hrun)
    cases turn with
    | again mark => cases hturn
    | done output' =>
      obtain rfl := Turn.done.inj hturn
      have hfinished : Finished (self.withClassifier b.classifier).setting baseline _ output' :=
        ⟨rounds, rfl, hrounds⟩
      exact hfinished.reported (self.withClassifier_explained b) herror
  · intro self cxs w j t run output error hpolled herror
    rcases (self.withClassifier b.classifier).polledTo_lands hpolled with
      ⟨-, -, -, hresult⟩ | hfinished
    · cases hresult
    · exact hfinished.reported (self.withClassifier_explained b) herror

/-- A timeout that ends a run of either engine after its first attempt. -/
theorem failed_run_reports_busyTwice :
    let output : Output ℕ String (Except String ℕ) :=
      (.error (.exhausted (.error "busy")), ⟨1, .ofNanos 3, .zero, .exhausted⟩)
    ∃ t last t' last',
      Reported (.onResult .default_) t output (.exhausted (.error "busy")) last ∧
        Reported (.onResult .default_) t' output (.exhausted (.error "busy")) last' := by
  intro output
  let b : Builtin ℕ String (Except String ℕ) := .onResult .default_
  let self := (Retry.busyTwice (some (.ofNanos 1))).withClassifier b.classifier
  let twin := (AsyncRetry.busyTwice (some (.ofNanos 1))).withClassifier b.classifier
  have hturn : (self.traced.runFor 1 ⟨0, []⟩).1 = .done output := by decide +kernel
  have hpolls : (twin.traced.polls (fun _ => ⟨0⟩) 9 ⟨0, []⟩ 2).map Prod.fst =
      some (.ready output) := by
    decide +kernel
  obtain ⟨t, hrun⟩ := Eff.exists_world hturn
  obtain ⟨t', run, hpolled⟩ := AsyncRetry.exists_polledTo hpolls
  have hreports := @failed_run_reports ℕ String (Except String ℕ) ℕ (ℕ × Eff ℕ (Except String ℕ))
    (ℕ × Eff ℕ Unit) _ b
  obtain ⟨last, hreported⟩ := hreports.1 (.busyTwice (some (.ofNanos 1))) 1 0 t output _ hrun rfl
  obtain ⟨last', hreported'⟩ := hreports.2 (.busyTwice (some (.ofNanos 1))) _ 0 _ t' run output _
    hpolled rfl
  exact ⟨_, last, _, last', hreported, hreported'⟩

end Relentless
