import Relentless.Guarantees.ConcurrentRuns
import Relentless.Library.Responses

/-!
# Cancellation by a Flag

Sync runs on several threads whose operations read a flag first: when somebody has raised it,
they answer with an outcome that the classifier does not retry.  A run notices the flag at the
boundary of an attempt and nowhere else, so it may begin one more attempt, and this is its last.

- `Retry.cancellable` — a configuration whose operation reads a flag first
- `Retry.responds_cancellable` — while the flag is raised, every call is answered so
- `Rounds.quiet` — no attempt follows an outcome that is not retried
- `Rounds.aborts` — what a run returns with such an outcome
- `concurrent_cancellation` — the guarantee
-/

namespace Relentless

open StateLoop
open Interleaving (Run play)

variable {σ R A O : Type}

/-! ## §1 Operations that read a flag -/

/-- The configuration with an operation that reads a flag first, and answers `cancelled` when it
is raised. -/
def Retry.cancellable (flag : σ → Bool) (cancelled : O) (self : Retry (Thread σ Empty) R A O) :
    Retry (Thread σ Empty) R A O :=
  { self with
    op := fun state => do
      let raised ← Thread.atomic fun w => (flag w, w)
      if raised then return cancelled else self.op state }

/-- Nobody lowers the flag. -/
def Raises (flag : σ → Bool) (w w' : σ) : Prop := flag w = true → flag w' = true

instance (flag : σ → Bool) : IsPreorder σ (Raises flag) where
  refl _ := id
  trans _ _ _ h h' := h' ∘ h

def Event.isOp : Event R A O → Bool
  | .op _ => true
  | _ => false

section Responds

variable {α : Type} {K : σ → Prop} {answers : Event R A O → Prop}

theorem Recorder.responds_logged (event : α → Event R A O) (hevent : ∀ a, ¬(event a).isOp)
    (x : Thread σ Empty α) :
    (Recorder.thread.logged event x).Responds K (·.isOp) answers :=
  (Thread.Responds.silent x).bind fun a => ⟨fun hop => absurd hop (hevent a), trivial⟩

theorem Recorder.responds_announced (event : Event R A O) (hevent : ¬event.isOp)
    (x : Thread σ Empty α) :
    (Recorder.thread.announced event x).Responds K (·.isOp) answers :=
  Thread.Responds.bind (x := Recorder.thread.record event)
    ⟨fun hop => absurd hop hevent, trivial⟩ fun _ => .silent x

theorem HookSlot.responds_recorded (event : ℕ → α → Event R A O)
    (hevent : ∀ hook view, ¬(event hook view).isOp) (slot : HookSlot (Thread σ Empty) α)
    (view : α) : ((slot.recorded .thread event).call view).Responds K (·.isOp) answers := by
  induction slot generalizing view with
  | unit => trivial
  | chain first second ih =>
    exact (ih view).bind fun _ => Recorder.responds_announced _ (hevent _ view) _

/-- **While the flag is raised**, every call of the operation is answered with `cancelled`. -/
theorem Retry.responds_cancellable (self : Retry (Thread σ Empty) R A O) (flag : σ → Bool)
    (cancelled : O) (n : ℕ) :
    ((self.cancellable flag cancelled).threaded.runFor n).Responds (flag ·) (·.isOp)
      (· = .outcome cancelled) := by
  have hrelated : Retry.Related (Thread.respondsRel (flag ·) (·.isOp)
      (· = .outcome cancelled)) (self.cancellable flag cancelled).threaded
      (self.cancellable flag cancelled).threaded := by
    constructor
    case parts =>
      exact
        { debugAssert := fun _ _ => trivial
          decide := fun outcome =>
            Recorder.responds_logged (.decide outcome) (fun _ => Bool.false_ne_true) _
          shouldStop := fun state =>
            Recorder.responds_logged (.shouldStop state) (fun _ => Bool.false_ne_true) _
          nextWait := fun state =>
            Recorder.responds_logged (.nextWait state) (fun _ => Bool.false_ne_true) _
          beforeAttempt :=
            HookSlot.responds_recorded .beforeAttempt (fun _ _ => Bool.false_ne_true) _
          afterAttempt :=
            HookSlot.responds_recorded .afterAttempt (fun _ _ => Bool.false_ne_true) _
          onExit := HookSlot.responds_recorded .onExit (fun _ _ => Bool.false_ne_true) _ }
    case op =>
      intro state
      refine ⟨fun _ w hraised => ?_, ?_⟩
      · -- The flag is what the call looks at first.
        have hread : (if flag w then (pure cancelled : Thread σ Empty O) else self.op state) =
            .ended cancelled := if_pos hraised
        show Thread.Next _ _ ((if flag w then (pure cancelled : Thread σ Empty O)
          else self.op state).silent.andThen _)
        rw [hread]
        rfl
      · exact Recorder.responds_logged .outcome (fun _ => Bool.false_ne_true) _
    case now => exact Recorder.responds_logged .now (fun _ => Bool.false_ne_true) _
    case wait =>
      exact fun delay => Recorder.responds_announced (.wait delay) Bool.false_ne_true _
    case timeout => rfl
  exact hrelated.runFor n

end Responds

/-! ## §2 Outcomes that are not retried -/

def Event.attempt? : Event R A O → Option (RetryState ⊕ O)
  | .op state => some (.inl state)
  | .outcome value => some (.inr value)
  | _ => none

/-- The attempts of a log: the calls of the operation and their outcomes. -/
def attempts (log : List (Event R A O)) : List (RetryState ⊕ O) := log.filterMap Event.attempt?

theorem attempts_append (log log' : List (Event R A O)) :
    attempts (log ++ log') = attempts log ++ attempts log' := List.filterMap_append

theorem opStates_eq_attempts (log : List (Event R A O)) :
    opStates log = (attempts log).filterMap Sum.getLeft? := by
  rw [opStates, attempts, List.filterMap_filterMap]
  congr 1
  funext ev
  cases ev <;> rfl

theorem attempts_round (S : Setting R A O) (mark : Mark) (round : Round R A O) :
    attempts (round.calls S mark) =
      [.inl (mark.state (mark.before round.beforeReading)), .inr round.outcome] := by
  have hskip : ∀ ev : Event R A O, ev.isSkeleton = false → ev.attempt? = none := by
    intro ev hev
    cases ev <;> first | rfl | cases hev
  rw [attempts, Round.filterMap_calls _ hskip]
  obtain ⟨before, outcome, after, fate⟩ := round
  cases fate <;> rfl

theorem attempts_openingCalls (S : Setting R A O) (mark : Mark) (reading : Duration) :
    attempts (Round.openingCalls S mark reading) = [.inl (mark.state (mark.before reading))] := by
  have hhooks : attempts (hookEvents S.beforeHooks .beforeAttempt
      (mark.state (mark.before reading)) : List (Event R A O)) = [] :=
    filterMap_hookEvents _ _ _ _ fun _ => rfl
  show attempts (hookEvents S.beforeHooks .beforeAttempt _ ++ [.op _]) = _
  rw [attempts_append, hhooks]
  rfl

/-- A call of the operation after an outcome: this one was retried. -/
def Setting.Follows (S : Setting R A O) (earlier later : RetryState ⊕ O) : Prop :=
  ∀ outcome state, earlier = .inr outcome → later = .inl state →
    ∃ last, S.answers.decide outcome (.retry last)

section Log

variable {S : Setting R A O}

/-- **No attempt follows an outcome that is not retried**, nor does another round. -/
theorem Rounds.quiet {mark : Mark} {log : List (Event R A O)} {turn : Turn Mark (Output R A O)}
    (h : Rounds S mark log turn) :
    (attempts log).Pairwise S.Follows ∧ ∀ mark', turn = .again mark' →
      ∀ outcome, .inr outcome ∈ attempts log → ∃ last, S.answers.decide outcome (.retry last) := by
  have hround (mark : Mark) (round : Round R A O) :
      (attempts (round.calls S mark)).Pairwise S.Follows := by
    rw [attempts_round]
    exact List.pairwise_pair.mpr fun outcome state habsurd _ => by cases habsurd
  induction h with
  | pause mark => exact ⟨.nil, fun _ _ outcome hmem => by cases hmem⟩
  | last mark round output hallowed hturn =>
    exact ⟨hround mark round, fun mark' habsurd => by cases habsurd⟩
  | next mark mark' round rest turn hallowed hturn hrest ih =>
    -- There is a round after this one, so its outcome was retried.
    obtain ⟨last, rawDelay, hfate, -⟩ := Round.eq_retried_of_turn hturn
    rw [Round.Allowed, hfate] at hallowed
    have hretried : ∀ outcome, .inr outcome ∈ attempts (round.calls S mark) →
        ∃ last, S.answers.decide outcome (.retry last) := by
      rw [attempts_round]
      intro outcome hmem
      obtain rfl : outcome = round.outcome := by simpa using hmem
      exact ⟨last, hallowed.1⟩
    rw [attempts_append]
    refine ⟨List.pairwise_append.mpr ⟨hround mark round, ih.1, ?_⟩,
      fun mark'' hagain outcome hmem => ?_⟩
    · rintro earlier hearlier later - outcome state rfl -
      exact hretried outcome hearlier
    · rcases List.mem_append.mp hmem with hmem | hmem
      · exact hretried outcome hmem
      · exact ih.2 mark'' hagain outcome hmem

theorem Underway.quiet {log : List (Event R A O)} (h : Underway S log) :
    (attempts log).Pairwise S.Follows := by
  cases h with
  | created => exact .nil
  | rounds baseline log turn hrounds => exact hrounds.quiet.1
  | opened baseline log mark reading hrounds =>
    show (attempts (log ++ Round.openingCalls S mark reading)).Pairwise S.Follows
    rw [attempts_append, attempts_openingCalls]
    refine List.pairwise_append.mpr ⟨hrounds.quiet.1, List.pairwise_singleton _ _, ?_⟩
    rintro earlier hearlier later - outcome state rfl -
    exact hrounds.quiet.2 mark rfl outcome hearlier

/-- **What a run returns** in which an outcome came up that aborts it. -/
theorem Rounds.aborts {mark : Mark} {log : List (Event R A O)} {turn : Turn Mark (Output R A O)}
    {output : Output R A O} {cancelled : O} {last : A} (h : Rounds S mark log turn)
    (hturn : turn = .done output) (hmem : .inr cancelled ∈ attempts log)
    (hdecide : ∀ verdict, S.answers.decide cancelled verdict → verdict = .abort last) :
    output.1 = .error (.aborted last) ∧ output.2.stopReason = .aborted := by
  induction h with
  | pause mark => cases hmem
  | last mark round output' hallowed hround =>
    obtain rfl := Turn.done.inj hturn
    rw [attempts_round] at hmem
    obtain rfl : cancelled = round.outcome := by simpa using hmem
    have hverdict := hdecide _ hallowed.1
    obtain ⟨before, outcome, after, fate⟩ := round
    cases fate with
    | aborted last' =>
      obtain rfl := Verdict.abort.inj hverdict
      obtain rfl := Turn.done.inj hround
      exact ⟨rfl, rfl⟩
    | returned value | exhausted last' answer | retried last' rawDelay => cases hverdict
  | next mark mark' round rest turn hallowed hround hrest ih =>
    obtain ⟨last', rawDelay, hfate, -⟩ := Round.eq_retried_of_turn hround
    rw [attempts_append, attempts_round] at hmem
    rcases List.mem_append.mp hmem with hmem | hmem
    · -- This round was retried, and so cannot have come to the outcome that aborts.
      obtain rfl : cancelled = round.outcome := by simpa using hmem
      rw [Round.Allowed, hfate] at hallowed
      cases hdecide _ hallowed.1
    · exact ih hturn hmem

/-- Where every call is answered with an outcome that is not retried, there is one at most. -/
theorem length_opStates_le_one {cancelled : O} {new : List (Event R A O)}
    (hfinal : ∀ last, ¬S.answers.decide cancelled (.retry last))
    (hchain : new.IsChain fun e e' => e.isOp → e' = .outcome cancelled)
    (hquiet : (attempts new).Pairwise S.Follows) : (opStates new).length ≤ 1 := by
  induction new with
  | nil => exact Nat.zero_le 1
  | cons e rest ih =>
    cases e with
    | op state =>
      cases rest with
      | nil => exact le_refl 1
      | cons e' rest =>
        -- What follows the answer is no call.
        obtain rfl : e' = .outcome cancelled := hchain.rel rfl
        have hafter := (List.pairwise_cons.mp (List.pairwise_cons.mp hquiet).2).1
        have hnone : opStates rest = [] := by
          rw [opStates_eq_attempts]
          refine List.filterMap_eq_nil_iff.mpr fun attempt hattempt => ?_
          cases attempt with
          | inl state =>
            obtain ⟨last, hretry⟩ := hafter _ hattempt cancelled state rfl rfl
            exact absurd hretry (hfinal last)
          | inr outcome => rfl
        show (state :: opStates rest).length ≤ 1
        rw [hnone]
        exact le_refl 1
    | outcome value => exact ih hchain.tail (List.pairwise_cons.mp hquiet).2
    | _ => exact ih hchain.tail hquiet

/-- A call that is not the last note has been answered. -/
theorem mem_of_isChain {cancelled : O} {new : List (Event R A O)}
    (hchain : new.IsChain fun e e' => e.isOp → e' = .outcome cancelled)
    (hlast : ∀ e ∈ new.getLast?, ¬e.isOp) (hcalled : 0 < (opStates new).length) :
    .outcome cancelled ∈ new := by
  induction new with
  | nil => cases hcalled
  | cons e rest ih =>
    cases rest with
    | nil =>
      cases e with
      | op state => exact absurd rfl (hlast (.op state) rfl)
      | _ => cases hcalled
    | cons e' rest =>
      cases e with
      | op state =>
        obtain rfl : e' = .outcome cancelled := hchain.rel rfl
        exact List.mem_cons_of_mem _ List.mem_cons_self
      | _ => exact List.mem_cons_of_mem _ (ih hchain.tail hlast hcalled)

end Log

/-! ## §3 The guarantee -/

/-- **Cancellation.**  Several threads run the sync engine, with operations that read one flag
first and with classifiers that abort on what they answer then.  Nobody lowers the flag.  From
the moment when it is raised, each run calls its operation at most once more, whatever it was
doing, and in whatever order the threads take their steps; and a thread that has done so can end
in no other way than by returning the abort, however many rounds it is still allowed. -/
theorem concurrent_cancellation {ι : Type} [DecidableEq ι] {R A O : ι → Type}
    (retries : (i : ι) → Retry (Thread σ Empty) (R i) (A i) (O i)) (flag : σ → Bool)
    (cancelled : (i : ι) → O i) (last : (i : ι) → A i) (n : ι → ℕ) (outside : σ → σ → Prop)
    (w₀ : σ)
    (hdecide : ∀ i, ((retries i).classifier.decide (cancelled i)).Answers (· = .abort (last i)))
    (hparts : ∀ i, (retries i).PartsMove (Raises flag))
    (hnow : ∀ i, (retries i).clock.now.Moves (Raises flag))
    (hwait : ∀ i delay, ((retries i).clock.wait delay).Moves (Raises flag))
    (hout : ∀ w w', outside w w' → Raises flag w w')
    (s s' : σ × ((i : ι) → List (Event (R i) (A i) (O i)) ×
      Thread σ (Event (R i) (A i) (O i)) (Turn Cursor (Output (R i) (A i) (O i)))))
    (h : Run (fun _ => Thread.Act) outside (w₀, fun i =>
      ([], ((retries i).cancellable flag (cancelled i)).threaded.runFor (n i))) s)
    (hraised : flag s.1) (h' : Run (fun _ => Thread.Act) outside s s') (i : ι) :
    (opStates (s'.2 i).1).length ≤ (opStates (s.2 i).1).length + 1 ∧
    ∀ answer, (s'.2 i).2 = .ended answer →
      (opStates (s.2 i).1).length < (opStates (s'.2 i).1).length →
        ∃ output, answer = .done output ∧
          output.1 = .error (.aborted (last i)) ∧ output.2.stopReason = .aborted := by
  have hmoves (j : ι) :
      (((retries j).cancellable flag (cancelled j)).threaded.runFor (n j)).Moves (Raises flag) := by
    have hcancellable : ((retries j).cancellable flag (cancelled j)).PartsMove (Raises flag) :=
      { hparts j with
        op := fun state => Thread.Moves.bind (.atomic fun w => refl_of (Raises flag) w)
          fun raised => by
            cases raised with
            | true => trivial
            | false => exact (hparts j).op state }
    exact hcancellable.threaded (hnow j) (hwait j) (n j)
  have hkeep : ∀ w w', Raises flag w w' → flag w → flag w' := fun w w' hraises => hraises
  obtain ⟨new, hnew, hchain, hlast⟩ := Thread.responds_of_run h h' hkeep hout hmoves
    (fun j => (retries j).responds_cancellable flag (cancelled j) (n j)) hraised i
  have hverdict : ∀ verdict, ((retries i).cancellable flag
      (cancelled i)).alone.setting.answers.decide (cancelled i) verdict →
        verdict = .abort (last i) := by
    rintro verdict ⟨r, rfl⟩
    exact (hdecide i).alone r
  obtain ⟨baseline, rounds, turn, hrounds, hbegun, hended⟩ := Retry.rounds_of_run (h.trans h') i
  -- What has been noted since the flag was raised is a part of a log of the grammar.
  have hone : (opStates new).length ≤ 1 := by
    refine length_opStates_le_one (fun last hretry => ?_) hchain
      ((Underway.rounds baseline rounds turn hrounds).quiet.sublist (List.Sublist.filterMap _ ?_))
    · cases hverdict _ hretry
    · exact (hnew ▸ List.sublist_append_right _ _ : new.Sublist (s'.2 i).1).trans hbegun.sublist
  rw [hnew, opStates_append, List.length_append]
  refine ⟨Nat.add_le_add_left hone _, fun answer hanswer hmore => ?_⟩
  obtain ⟨hlog, rfl⟩ := hended answer hanswer
  -- The call that has been noted since was not the last note, so it was answered.
  have hanswered : .outcome (cancelled i) ∈ new := by
    refine mem_of_isChain hchain (fun e he hop => ?_) (Nat.pos_of_lt_add_right hmore)
    have hnext := hlast e he hop
    rw [hanswer] at hnext
    exact hnext
  have hmem : .inr (cancelled i) ∈ attempts rounds := by
    have hnoted : .outcome (cancelled i) ∈ (s'.2 i).1 := by
      rw [hnew]
      exact List.mem_append_right _ hanswered
    rw [hlog] at hnoted
    exact List.mem_filterMap.mpr ⟨_, (List.mem_cons.mp hnoted).resolve_left (by rintro ⟨⟩), rfl⟩
  cases turn with
  | done output => exact ⟨output, rfl, hrounds.aborts rfl hmem hverdict⟩
  | again mark =>
    -- A run that goes on has retried all its outcomes, and this one is never retried.
    obtain ⟨last, hretry⟩ := hrounds.quiet.2 mark rfl _ hmem
    cases hverdict _ hretry

/-- `.when(predicate::error(..))` aborts on the errors that its matcher refuses. -/
theorem When.answers_error {T E : Type} {matcher : E → Thread σ Empty Bool} {e : E}
    (h : (matcher e).Answers (· = false)) :
    ((When (Predicate.error matcher) : Decide (Thread σ Empty) T E (Except E T)).decide
      (.error e)).Answers (· = .abort e) := by
  refine h.bind fun answer hanswer => ?_
  obtain rfl := hanswer
  exact rfl

/-- A run that is busy for ever, and retries nothing else, on a clock beside a flag. -/
def Retry.busyForever : Retry (Thread (ℕ × Bool) Empty) ℕ String (Except String ℕ) :=
  { (Retry.busyTwice none).into fun x => .atomic fun w => ((x w.1).1, ((x w.1).2, w.2)) with
    op := fun _ => .atomic fun w => (.error "busy", (w.1 + 3, w.2))
    classifier := When (.error fun e => pure (e == "busy")) }

theorem Retry.busyForever_partsMove : Retry.busyForever.PartsMove (Raises Prod.snd) where
  op _ := .atomic fun _ => id
  decide outcome := by
    cases outcome with
    | error e =>
      refine Thread.Moves.bind (x := pure (e == "busy")) trivial fun answer => ?_
      cases answer with
      | true => trivial
      | false => trivial
    | ok value => trivial
  shouldStop _ := .atomic fun _ => id
  nextWait _ := .atomic fun _ => id
  beforeAttempt := trivial
  afterAttempt := trivial
  onExit := ⟨trivial, fun _ => .atomic fun _ => id⟩

/-- Two such runs that are cancelled after three calls each: they make one more, and abort. -/
theorem concurrent_cancellation_busyForever :
    ∃ threads : Bool → List (Event ℕ String (Except String ℕ)) ×
        Thread (ℕ × Bool) (Event ℕ String (Except String ℕ))
          (Turn Cursor (Output ℕ String (Except String ℕ))),
      ∀ i, (opStates (threads i).1).length ≤ 3 + 1 ∧
        ∃ output, (threads i).2 = .ended (.done output) ∧
          output.1 = .error (.aborted "cancelled") ∧ output.2.stopReason = .aborted := by
  let start (_ : Bool) := (([] : List (Event ℕ String (Except String ℕ))),
    (Retry.busyForever.cancellable Prod.snd (.error "cancelled")).threaded.runFor 9)
  let schedule := (List.replicate 40 [false, true]).flatten
  let early := play (fun _ => Thread.advance) (((0 : ℕ), false), start) schedule
  let raised := ((early.1.1, true), early.2)
  let late := play (fun _ => Thread.advance) raised schedule
  have hrun : Run (fun _ => Thread.Act) (fun w w' => w' = (w.1, true)) (((0 : ℕ), false), start)
      raised := .outside early _ (Run.play (fun _ => Thread.act_advance) .start schedule) rfl
  have hrun' : Run (fun _ => Thread.Act) (fun w w' => w' = (w.1, true)) raised late :=
    Run.play (fun _ => Thread.act_advance) .start schedule
  have hcancelled := concurrent_cancellation (fun _ => Retry.busyForever) Prod.snd
    (fun _ => .error "cancelled") (fun _ => "cancelled") (fun _ => 9) _ (0, false)
    (fun _ => When.answers_error rfl) (fun _ => Retry.busyForever_partsMove)
    (fun _ => .atomic fun _ => id) (fun _ _ => .atomic fun _ => id)
    (fun w w' hw' _ => congrArg Prod.snd hw') raised late hrun rfl hrun'
  have hcalls (i : Bool) : (opStates (raised.2 i).1).length = 3 := by
    cases i <;> decide +kernel
  have hended (i : Bool) : (late.2 i).2 = .ended (.done
      (.error (.aborted "cancelled"), ⟨4, .ofNanos 38, .ofNanos 10, .aborted⟩)) := by
    apply Thread.eq_ended_of_answer?
    cases i <;> decide +kernel
  have hmore (i : Bool) : 3 < (opStates (late.2 i).1).length := by
    cases i <;> decide +kernel
  refine ⟨late.2, fun i => ?_⟩
  have hboth := hcancelled i
  rw [hcalls i] at hboth
  obtain ⟨output, hdone, haborted⟩ := hboth.2 _ (hended i) (hmore i)
  exact ⟨hboth.1, output, hdone ▸ hended i, haborted⟩

end Relentless
