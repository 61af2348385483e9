import Relentless.Engine.Coupled
import Relentless.Library.Parting
import Relentless.Stop.Tree

/-!
# Stop Trees Consult Every Leaf Every Time

The leaves of a stop expression are consulted once for every attempt that is classified
for retry, and never otherwise, whatever the shape of the tree and whatever the timeout.

- `Attempts` — the notes that attempts leave behind
- `AsksOnce` — a computation that may ask the leaves once, and goes by the formula
- `AsksOnce.grows`, `AsksOnce.parting` — what that means for one tree, and for two
- `stop_trees_consult_every_leaf` — the guarantee
-/

namespace Relentless

open StateLoop
open Eff (Couples Moves Parting LeavesWith)

variable {σ R A O α β : Type}

/-! ## §1 Notes of a run -/

/-- The notes of whole attempts: a verdict, and after a retry one consultation of each
leaf, from left to right and with one state. -/
inductive Attempts (leaves : ℕ) : List TreeNote → Prop where
  | nil : Attempts leaves []
  | settled {rest : List TreeNote} (hrest : Attempts leaves rest) :
      Attempts leaves (.verdict false :: rest)
  | retried (state : RetryState) (answers : List Bool) {rest : List TreeNote}
      (hanswers : answers.length = leaves) (hrest : Attempts leaves rest) :
      Attempts leaves (.verdict true :: (consults state 0 answers ++ rest))

theorem Attempts.append {leaves : ℕ} {notes notes' : List TreeNote} (h : Attempts leaves notes)
    (h' : Attempts leaves notes') : Attempts leaves (notes ++ notes') := by
  induction h with
  | nil => exact h'
  | settled _ ih => exact .settled ih
  | retried state answers hanswers _ ih =>
    rw [List.cons_append, List.append_assoc]
    exact .retried state answers hanswers ih

/-- What a leaf was shown, and what it answered. -/
def leafHistory (leaf : ℕ) (notes : List TreeNote) : List (RetryState × Bool) :=
  notes.filterMap fun
    | .consulted i state answer => if i = leaf then some (state, answer) else none
    | .verdict _ => none

theorem leafHistory_consulted (leaf i : ℕ) (state : RetryState) (answer : Bool)
    (rest : List TreeNote) : leafHistory leaf (.consulted i state answer :: rest) =
      if i = leaf then (state, answer) :: leafHistory leaf rest else leafHistory leaf rest := by
  unfold leafHistory
  by_cases hi : i = leaf
  · simp [hi]
  · simp [hi]

theorem consults_cons (state : RetryState) (i : ℕ) (answer : Bool) (answers : List Bool) :
    consults state i (answer :: answers) =
      .consulted i state answer :: consults state (i + 1) answers :=
  consults_append state i [answer] answers

theorem count_verdict_consults (retried : Bool) (state : RetryState) (i : ℕ)
    (answers : List Bool) : (consults state i answers).count (.verdict retried) = 0 := by
  induction answers generalizing i with
  | nil => rfl
  | cons answer answers ih =>
    rw [consults_cons, List.count_cons_of_ne (by simp)]
    exact ih (i + 1)

/-- One consultation of leaves numbered from `i` on, as one leaf sees it. -/
theorem length_leafHistory_consults (leaf : ℕ) (state : RetryState) (i : ℕ)
    (answers : List Bool) : (leafHistory leaf (consults state i answers)).length =
      if i ≤ leaf ∧ leaf < i + answers.length then 1 else 0 := by
  induction answers generalizing i with
  | nil =>
    have hnone : ¬ (i ≤ leaf ∧ leaf < i + 0) := by omega
    exact (if_neg hnone).symm
  | cons answer answers ih =>
    rw [consults_cons, List.length_cons]
    rw [leafHistory_consulted]
    have hrest := ih (i + 1)
    by_cases hi : i = leaf
    · rw [if_pos hi, List.length_cons, hrest, if_neg (by omega), if_pos (by omega)]
    · rw [if_neg hi, hrest]
      congr 1
      apply propext
      omega

/-- **Each leaf is consulted once for every retry**, and never otherwise. -/
theorem Attempts.length_leafHistory {leaves : ℕ} {notes : List TreeNote}
    (h : Attempts leaves notes) {leaf : ℕ} (hleaf : leaf < leaves) :
    (leafHistory leaf notes).length = notes.count (.verdict true) := by
  induction h with
  | nil => rfl
  | settled hrest ih =>
    rw [List.count_cons_of_ne (by simp)]
    exact ih
  | retried state answers hanswers hrest ih =>
    have hone := length_leafHistory_consults leaf state 0 answers
    rw [if_pos (by omega)] at hone
    rw [List.count_cons_self, List.count_append, count_verdict_consults, Nat.zero_add, ← ih,
      Nat.add_comm, ← hone, ← List.length_append]
    unfold leafHistory
    rw [List.filterMap_cons_none rfl, List.filterMap_append]

/-- The notes only grow, by whole attempts. -/
def Grows (leaves : ℕ) (t t' : Noted σ) : Prop :=
  ∃ added, t'.notes = t.notes ++ added ∧ Attempts leaves added

instance {leaves : ℕ} : Std.Refl (Grows leaves : Noted σ → Noted σ → Prop) where
  refl _ := ⟨[], (List.append_nil _).symm, .nil⟩

instance {leaves : ℕ} : IsTrans (Noted σ) (Grows leaves) where
  trans := by
    rintro t t' t'' ⟨added, hnotes, hadded⟩ ⟨added', hnotes', hadded'⟩
    refine ⟨added ++ added', ?_, hadded.append hadded'⟩
    rw [hnotes', hnotes, List.append_assoc]

theorem Grows.isPrefix {leaves : ℕ} {t t' : Noted σ} (h : Grows leaves t t') :
    t.notes <+: t'.notes := by
  obtain ⟨added, hnotes, -⟩ := h
  rw [hnotes]
  exact List.prefix_append _ _

/-- Computations that note nothing. -/
theorem Grows.of_onNoted (leaves : ℕ) (x : Eff σ α) : Moves (Grows leaves) (onNoted x) :=
  Noted.worldPart.moves (fun _ t => ⟨[], (List.append_nil t.notes).symm, .nil⟩) x

/-! ## §2 Asking the leaves once -/

/-- A computation that takes one verdict: it settles without asking, or it asks the leaves
and then goes by the formula of the tree, unless it is too late anyway.  Which tree it is
makes no other difference. -/
inductive AsksOnce (leaves : List (Stop (Eff σ))) (ended : α → Prop)
    (x : StopTree (Stop (Eff σ)) → Eff (Noted σ) α) (w : σ) (notes : List TreeNote) : Prop where
  | settled (a : α) (w' : σ) (hended : ended a)
      (h : ∀ tree, tree.leaves = leaves →
        x tree ⟨w, notes⟩ = (a, ⟨w', notes ++ [.verdict false]⟩))
  | retried (state : RetryState) (answers : List Bool) (late : Bool) (stopped going : α × σ)
      (hanswers : answers.length = leaves.length) (hended : ended stopped.1)
      (h : ∀ tree, tree.leaves = leaves →
        let out := if tree.formula answers || late then stopped else going
        x tree ⟨w, notes⟩ =
          (out.1, ⟨out.2, notes ++ .verdict true :: consults state 0 answers⟩))

namespace AsksOnce

variable {leaves : List (Stop (Eff σ))} {ended : α → Prop} {ended' : β → Prop}
  {x : StopTree (Stop (Eff σ)) → Eff (Noted σ) α} {w : σ} {notes : List TreeNote}

/-- What follows notes nothing, and keeps what has ended. -/
theorem bind (h : AsksOnce leaves ended x w notes) (f : α → Eff σ β)
    (hends : ∀ a w, ended a → ended' (f a w).1) :
    AsksOnce leaves ended' (fun tree => x tree >>= fun a => onNoted (f a)) w notes := by
  cases h with
  | settled a w' hended h =>
    refine .settled (f a w').1 (f a w').2 (hends a w' hended) fun tree htree => ?_
    rw [Eff.bind_apply, h tree htree]
    rfl
  | retried state answers late stopped going hanswers hended h =>
    refine .retried state answers late (f stopped.1 stopped.2) (f going.1 going.2) hanswers
      (hends _ _ hended) fun tree htree => ?_
    rw [Eff.bind_apply, h tree htree]
    dsimp only
    split <;> rfl

theorem congr {x' : StopTree (Stop (Eff σ)) → Eff (Noted σ) α} {w' : σ}
    (h : AsksOnce leaves ended x w notes)
    (hx : ∀ tree, x' tree ⟨w', notes⟩ = x tree ⟨w, notes⟩) :
    AsksOnce leaves ended x' w' notes := by
  cases h with
  | settled a w₁ hended h =>
    exact .settled a w₁ hended fun tree htree => (hx tree).trans (h tree htree)
  | retried state answers late stopped going hanswers hended h =>
    exact .retried state answers late stopped going hanswers hended fun tree htree =>
      (hx tree).trans (h tree htree)

/-- **One tree**: a verdict, and after a retry one consultation of each leaf. -/
theorem grows (h : AsksOnce leaves ended x w notes) {tree : StopTree (Stop (Eff σ))}
    (htree : tree.leaves = leaves) :
    Grows leaves.length (⟨w, notes⟩ : Noted σ) (x tree ⟨w, notes⟩).2 := by
  cases h with
  | settled a w' hended h =>
    rw [h tree htree]
    exact ⟨_, rfl, .settled .nil⟩
  | retried state answers late stopped going hanswers hended h =>
    rw [h tree htree]
    have hone := Attempts.retried state answers hanswers .nil
    rw [List.append_nil] at hone
    exact ⟨_, rfl, hone⟩

/-- **Two trees** over the same leaves: the same, or one of them has ended with the same
notes. -/
theorem parting (h : AsksOnce leaves ended x w notes) {tree tree' : StopTree (Stop (Eff σ))}
    (htree : tree.leaves = leaves) (htree' : tree'.leaves = leaves) :
    Parting ended (Grows leaves.length) (x tree ⟨w, notes⟩) (x tree' ⟨w, notes⟩) := by
  cases h with
  | settled a w' hended h =>
    rw [h tree htree, h tree' htree']
    exact .same _
  | retried state answers late stopped going hanswers hended h =>
    rw [h tree htree, h tree' htree']
    cases tree.formula answers || late with
    | true =>
      cases tree'.formula answers || late with
      | true => exact .same _
      | false => exact .first hended ⟨[], (List.append_nil _).symm, .nil⟩
    | false =>
      cases tree'.formula answers || late with
      | true => exact .second hended ⟨[], (List.append_nil _).symm, .nil⟩
      | false => exact .same _

end AsksOnce

/-! ## §3 The decision step -/

def Verdict.isRetry : Verdict R A O → Bool
  | .retry _ => true
  | _ => false

/-- The classifier, noting down each verdict. -/
def Decide.noted (classifier : Decide (Eff σ) R A O) : Decide (Eff (Noted σ)) R A O where
  decide outcome := do
    let verdict ← onNoted (classifier.decide outcome)
    note (.verdict verdict.isRetry)
    return verdict

def Wait.noted (wait : Wait (Eff σ)) : Wait (Eff (Noted σ)) where
  nextWait state := onNoted (wait.nextWait state)

@[simp] theorem HookSlot.noted_call (slot : HookSlot (Eff σ) α) (view : α) :
    (slot.into onNoted).call view = onNoted (slot.call view) := by
  induction slot with
  | unit => rfl
  | chain first second ih =>
    show ((first.into onNoted).call view >>= fun _ => onNoted (second view)) = _
    rw [ih]
    rfl

/-- The step is over: the run returns. -/
def Step.IsDone : Step R A O → Prop
  | .done .. => True
  | .continue_ .. => False

/-- **The decision step** asks the leaves once when the verdict is a retry, also when the
timeout has already fired, and never otherwise. -/
theorem step_asksOnce (leaves : List (Stop (Eff σ))) (progress : Progress) (outcome : O)
    (classifier : Decide (Eff σ) R A O) (wait : Wait (Eff σ)) (timeout : Option Duration)
    (hooks : ExecutionHooks (Eff σ) R A O) (w : σ) (notes : List TreeNote) :
    AsksOnce leaves Step.IsDone (fun tree => step progress outcome classifier.noted
      (tree.noted 0).stop wait.noted timeout (hooks.into onNoted)) w notes := by
  obtain ⟨attempt, elapsed, previousDelay, totalWait⟩ := progress
  let state : RetryState := ⟨attempt, elapsed, previousDelay⟩
  let w₁ := (hooks.afterAttempt.call ⟨attempt, elapsed, outcome⟩ w).2
  obtain ⟨verdict, w₂, hverdict⟩ : ∃ verdict w₂, classifier.decide outcome w₁ = (verdict, w₂) :=
    ⟨_, _, rfl⟩
  have hdecide : classifier.noted.decide outcome ⟨w₁, notes⟩ =
      (verdict, ⟨w₂, notes ++ [.verdict verdict.isRetry]⟩) := by
    simp only [Decide.noted, Eff.bind_apply, onNoted_apply, note_apply, Eff.pure_apply, hverdict]
  cases verdict with
  | return_ value =>
    refine .settled (.done (.ok value) ⟨attempt, elapsed, totalWait, .returned⟩)
      (hooks.onExit.call (.returned attempt elapsed value) w₂).2 trivial fun tree _ => ?_
    simp only [step, Eff.bind_apply, AttemptState.new_release, RetryState.forAttempt_release,
      ExecutionHooks.into, HookSlot.noted_call, onNoted_apply]
    rw [hdecide]
    rfl
  | abort last =>
    refine .settled (.done (.error (.aborted last)) ⟨attempt, elapsed, totalWait, .aborted⟩)
      (hooks.onExit.call (.aborted attempt elapsed last) w₂).2 trivial fun tree _ => ?_
    simp only [step, Eff.bind_apply, AttemptState.new_release, RetryState.forAttempt_release,
      ExecutionHooks.into, HookSlot.noted_call, onNoted_apply]
    rw [hdecide]
    rfl
  | retry last =>
    let asked := StopTree.ask state leaves w₂
    let waited := wait.nextWait state asked.2
    let delay := clampDelay timeout elapsed waited.1
    refine .retried state asked.1 (timeoutExceeded timeout elapsed)
      (.done (.error (.exhausted last)) ⟨attempt, elapsed, totalWait, .exhausted⟩,
        (hooks.onExit.call (.exhausted attempt elapsed last) asked.2).2)
      (.continue_ delay (totalWait.saturatingAdd delay), waited.2)
      (StopTree.length_ask state leaves w₂) trivial fun tree htree => ?_
    have hstop : (tree.noted 0).stop.shouldStop state ⟨w₂, notes ++ [.verdict true]⟩ =
        (tree.formula asked.1, ⟨asked.2, notes ++ .verdict true :: consults state 0 asked.1⟩) := by
      rw [tree.noted_shouldStop, htree, List.append_assoc]
      rfl
    simp only [step, Eff.bind_apply, AttemptState.new_release, RetryState.forAttempt_release,
      ExecutionHooks.into, HookSlot.noted_call, onNoted_apply]
    rw [hdecide]
    show ((tree.noted 0).stop.shouldStop state >>= fun answer => if
      answer || timeoutExceeded timeout elapsed then _ else _) ⟨w₂, notes ++ [.verdict true]⟩ = _
    rw [Eff.bind_apply, hstop]
    dsimp only
    split <;> rfl

/-- A world with notes, and the world without. -/
def Noted.Of (w : σ) (t : Noted σ) : Prop := t.world = w

/-- Taking notes changes nothing else. -/
theorem stepCoupled_noted (classifier : Decide (Eff σ) R A O) (wait : Wait (Eff σ))
    (hooks : ExecutionHooks (Eff σ) R A O) (tree : StopTree (Stop (Eff σ))) :
    StepCoupled Noted.Of classifier classifier.noted tree.stop (tree.noted 0).stop wait wait.noted
      hooks (hooks.into onNoted) where
  decide outcome := by
    rintro _ t rfl
    exact ⟨rfl, rfl⟩
  shouldStop state := by
    rintro _ ⟨w, notes⟩ rfl
    rw [tree.noted_shouldStop, tree.shouldStop_apply]
    exact ⟨rfl, rfl⟩
  nextWait state := Noted.worldPart.couples _
  beforeAttempt := HookSlot.couples_into Noted.worldPart.couples hooks.beforeAttempt
  afterAttempt := HookSlot.couples_into Noted.worldPart.couples hooks.afterAttempt
  onExit := HookSlot.couples_into Noted.worldPart.couples hooks.onExit

/-! ## §4 The sync engine -/

namespace Retry

/-- The configuration with the strategy that a tree builds. -/
def withTree (self : Retry (Eff σ) R A O) (tree : StopTree (Stop (Eff σ))) :
    Retry (Eff σ) R A O :=
  { self with stop := tree.stop }

/-- The configuration with a tree, noting down the verdicts and the consultations. -/
def noted (self : Retry (Eff σ) R A O) (tree : StopTree (Stop (Eff σ))) :
    Retry (Eff (Noted σ)) R A O :=
  { self.into onNoted with
    classifier := self.classifier.noted
    stop := (tree.noted 0).stop }

variable (self : Retry (Eff σ) R A O)

theorem noted_invoke (tree : StopTree (Stop (Eff σ))) (cursor : Cursor) :
    (self.noted tree).invoke cursor = onNoted (self.invoke cursor) := by
  unfold invoke noted into
  simp only [ExecutionHooks.into, HookSlot.noted_call]
  rfl

theorem noted_proceed (tree : StopTree (Stop (Eff σ))) (cursor : Cursor) (elapsed : Elapsed)
    (next : Step R A O) :
    (self.noted tree).proceed cursor elapsed next = onNoted (self.proceed cursor elapsed next) := by
  have hsleep (delay : Duration) :
      (self.noted tree).sleep delay = onNoted (self.sleep delay) := by
    unfold sleep
    cases delay.isZero with
    | true => rfl
    | false => rfl
  cases next with
  | done result stats => rfl
  | continue_ delay running =>
    show ((self.noted tree).sleep delay >>= _) = _
    rw [hsleep]
    rfl

/-- **One round** takes one verdict. -/
theorem loopBody_asksOnce (leaves : List (Stop (Eff σ))) (cursor : Cursor) (w : σ)
    (notes : List TreeNote) :
    AsksOnce leaves (LeavesWith fun _ => True) (fun tree => (self.noted tree).loopBody cursor) w
      notes := by
  let invoked := self.invoke cursor w
  let reading := invoked.1.2.read self.clock.toClock invoked.2
  have hstep := step_asksOnce leaves
    { attempt := cursor.attempt, elapsed := reading.1.1, previousDelay := cursor.previousDelay,
      totalWait := cursor.totalWait }
    invoked.1.1 self.classifier self.wait self.timeout self.hooks reading.2 notes
  have hends (next : Step R A O) (w : σ) (hnext : next.IsDone) :
      LeavesWith (fun _ => True) (self.proceed cursor reading.1.2 next w).1 := by
    cases next with
    | done result stats => trivial
    | continue_ delay running => exact hnext.elim
  refine (hstep.bind (self.proceed cursor reading.1.2) hends).congr fun tree => ?_
  -- Up to the decision the tree plays no part.
  unfold loopBody
  rw [Eff.bind_apply, noted_invoke]
  simp only [noted_proceed]
  rfl

theorem coupled_noted (tree : StopTree (Stop (Eff σ))) :
    Coupled Noted.Of (self.withTree tree) (self.noted tree) where
  parts := stepCoupled_noted self.classifier self.wait self.hooks tree
  op _ := Noted.worldPart.couples _
  now := Noted.worldPart.couples _
  wait _ := Noted.worldPart.couples _
  timeout := rfl

/-- Whatever the rounds come to, the notes grow by whole attempts. -/
theorem loopBody_grows (tree : StopTree (Stop (Eff σ))) (cursor : Cursor) :
    Moves (Grows tree.leaves.length) ((self.noted tree).loopBody cursor) :=
  fun t => (self.loopBody_asksOnce tree.leaves cursor t.world t.notes).grows rfl

theorem noted_runFor_attempts (tree : StopTree (Stop (Eff σ))) (n : ℕ) (w₀ : σ) :
    Attempts tree.leaves.length ((self.noted tree).runFor n ⟨w₀, []⟩).2.notes := by
  have hgrows := Moves.runFor (self.loopBody_grows tree) n
    (Cursor.start ⟨(self.clock.now w₀).1, .zero⟩) ⟨(self.clock.now w₀).2, []⟩
  obtain ⟨added, hnotes, hadded⟩ := hgrows
  rw [List.nil_append] at hnotes
  rw [← hnotes] at hadded
  exact hadded

theorem noted_runFor_comparable {tree tree' : StopTree (Stop (Eff σ))}
    (hleaves : tree.leaves = tree'.leaves) {n n' : ℕ} (hle : n ≤ n') (w₀ : σ) :
    ((self.noted tree).runFor n ⟨w₀, []⟩).2.notes <+:
        ((self.noted tree').runFor n' ⟨w₀, []⟩).2.notes ∨
      ((self.noted tree').runFor n' ⟨w₀, []⟩).2.notes <+:
        ((self.noted tree).runFor n ⟨w₀, []⟩).2.notes := by
  have hmoves := self.loopBody_grows tree
  rw [hleaves] at hmoves
  have hcomparable := Parting.runFor_comparable_le
    (fun cursor (t : Noted σ) =>
      (self.loopBody_asksOnce tree'.leaves cursor t.world t.notes).parting hleaves rfl)
    hmoves (self.loopBody_grows tree') hle (Cursor.start ⟨(self.clock.now w₀).1, .zero⟩)
    ⟨(self.clock.now w₀).2, []⟩
  exact hcomparable.imp Grows.isPrefix Grows.isPrefix

end Retry

/-! ## §5 The async engine -/

namespace AsyncRetry

variable {Fut WaitFut : Type}

/-- The configuration with the strategy that a tree builds. -/
def withTree (self : AsyncRetry (Eff σ) Fut WaitFut R A O) (tree : StopTree (Stop (Eff σ))) :
    AsyncRetry (Eff σ) Fut WaitFut R A O :=
  { self with stop := tree.stop }

/-- The configuration with a tree, noting down the verdicts and the consultations. -/
def noted (self : AsyncRetry (Eff σ) Fut WaitFut R A O) (tree : StopTree (Stop (Eff σ))) :
    AsyncRetry (Eff (Noted σ)) Fut WaitFut R A O :=
  { self.into onNoted with
    classifier := self.classifier.noted
    stop := (tree.noted 0).stop }

/-- The future has come to its end. -/
def IsReady (result : PollResult Fut WaitFut R A O) : Prop :=
  ∃ output, result.1 = .ready output

variable (self : AsyncRetry (Eff σ) Fut WaitFut R A O)

theorem noted_proceed (tree : StopTree (Stop (Eff σ))) (cx : Context) (elapsed : Elapsed)
    (run : RunFields Fut WaitFut) (next : Step R A O) :
    (self.noted tree).proceed cx elapsed run next = onNoted (self.proceed cx elapsed run next) := by
  cases next with
  | done result stats => rfl
  | continue_ delay running =>
    unfold proceed
    dsimp only
    cases delay.isZero with
    | true => rfl
    | false => rfl

/-- **One pass** takes one verdict when the operation's future is ready, and otherwise the
stop strategy plays no part in it. -/
theorem pollBody_asksOnce (leaves : List (Stop (Eff σ))) (cx : Context)
    (state : LoopState Fut WaitFut) (w : σ) (notes : List TreeNote) :
    (∀ tree, (self.noted tree).pollBody cx state ⟨w, notes⟩ =
        onNoted (self.pollBody cx state) ⟨w, notes⟩) ∨
      AsksOnce leaves (LeavesWith IsReady) (fun tree => (self.noted tree).pollBody cx state) w
        notes := by
  obtain ⟨elapsed, phase, attempt, previousDelay, totalWait⟩ := state
  cases phase with
  | readyToStart =>
    refine .inl fun tree => ?_
    unfold pollBody noted into
    simp only [ExecutionHooks.into, HookSlot.noted_call]
    rfl
  | sleeping future =>
    obtain ⟨⟨⟨value, future'⟩, w'⟩, hpolled⟩ :
      ∃ polled, self.clock.pollWait future cx w = polled := ⟨_, rfl⟩
    refine .inl fun tree => ?_
    have hnoted : (self.noted tree).clock.pollWait future cx ⟨w, notes⟩ =
        ((value, future'), ⟨w', notes⟩) := by
      show onNoted (self.clock.pollWait future cx) ⟨w, notes⟩ = _
      rw [onNoted_apply, hpolled]
    rw [onNoted_apply]
    cases value with
    | pending =>
      rw [(self.noted tree).pollBody_sleeping_pending rfl hnoted,
        self.pollBody_sleeping_pending rfl hpolled]
    | ready value =>
      rw [(self.noted tree).pollBody_sleeping_ready rfl hnoted,
        self.pollBody_sleeping_ready rfl hpolled]
  | yielding => exact .inl fun tree => rfl
  | done => exact .inl fun tree => rfl
  | polling future =>
    obtain ⟨value, future', w', hpolled⟩ : ∃ value future' w',
      self.op.poll future cx w = ((value, future'), w') := ⟨_, _, _, rfl⟩
    have hnoted (tree : StopTree (Stop (Eff σ))) :
        (self.noted tree).op.poll future cx ⟨w, notes⟩ = ((value, future'), ⟨w', notes⟩) := by
      show onNoted (self.op.poll future cx) ⟨w, notes⟩ = _
      rw [onNoted_apply, hpolled]
    cases value with
    | pending =>
      refine .inl fun tree => ?_
      rw [onNoted_apply, (self.noted tree).pollBody_polling_pending rfl (hnoted tree),
        self.pollBody_polling_pending rfl hpolled]
    | ready outcome =>
      let reading := elapsed.read self.clock.toClock w'
      have hstep := step_asksOnce leaves
        { attempt, elapsed := reading.1.1, previousDelay, totalWait }
        outcome self.classifier self.wait self.timeout self.hooks reading.2 notes
      let run : RunFields Fut WaitFut := ⟨.polling future, attempt, previousDelay, totalWait⟩
      have hends (next : Step R A O) (w : σ) (hnext : next.IsDone) :
          LeavesWith IsReady (self.proceed cx reading.1.2 run next w).1 := by
        cases next with
        | done result stats => exact ⟨_, rfl⟩
        | continue_ delay running => exact hnext.elim
      refine .inr ((hstep.bind (self.proceed cx reading.1.2 run) hends).congr fun tree => ?_)
      rw [(self.noted tree).pollBody_polling_ready rfl (hnoted tree)]
      simp only [noted_proceed]
      rfl

theorem pollBody_grows (tree : StopTree (Stop (Eff σ))) (cx : Context)
    (state : LoopState Fut WaitFut) :
    Moves (Grows tree.leaves.length) ((self.noted tree).pollBody cx state) := by
  rintro ⟨w, notes⟩
  obtain hquiet | hasks := self.pollBody_asksOnce tree.leaves cx state w notes
  · rw [hquiet tree]
    exact Grows.of_onNoted _ _ _
  · exact hasks.grows rfl

theorem pollBody_parting {tree tree' : StopTree (Stop (Eff σ))}
    (hleaves : tree.leaves = tree'.leaves) (cx : Context) (state : LoopState Fut WaitFut)
    (t : Noted σ) : Parting (LeavesWith IsReady) (Grows tree'.leaves.length)
      ((self.noted tree).pollBody cx state t) ((self.noted tree').pollBody cx state t) := by
  obtain ⟨w, notes⟩ := t
  obtain hquiet | hasks := self.pollBody_asksOnce tree'.leaves cx state w notes
  · rw [hquiet tree, hquiet tree']
    exact .same _
  · exact hasks.parting hleaves rfl

theorem noted_startElapsed (tree : StopTree (Stop (Eff σ))) (run : AsyncRun Fut WaitFut) :
    (self.noted tree).startElapsed run = onNoted (self.startElapsed run) := by
  unfold startElapsed
  cases run.elapsed with
  | some elapsed => rfl
  | none => rfl

theorem pollFor_grows (tree : StopTree (Stop (Eff σ))) (n : ℕ) (cx : Context)
    (run : AsyncRun Fut WaitFut) :
    Moves (Grows tree.leaves.length) ((self.noted tree).pollFor n cx run) := by
  unfold pollFor
  rw [noted_startElapsed]
  exact (Grows.of_onNoted _ _).bind fun elapsed => Moves.runFor (self.pollBody_grows tree cx) n _

/-- Two polls that have returned are the same, or one of them was ready first. -/
theorem pollFor_parting {tree tree' : StopTree (Stop (Eff σ))}
    (hleaves : tree.leaves = tree'.leaves) {n n' : ℕ} {cx : Context} {run : AsyncRun Fut WaitFut}
    {t t₁ t₁' : Noted σ} {ended ended' : PollResult Fut WaitFut R A O}
    (h : (self.noted tree).pollFor n cx run t = (.done ended, t₁))
    (h' : (self.noted tree').pollFor n' cx run t = (.done ended', t₁')) :
    Parting IsReady (Grows tree'.leaves.length) (ended, t₁) (ended', t₁') := by
  unfold pollFor at h h'
  rw [noted_startElapsed, Eff.bind_apply] at h h'
  have hlong := runFor_done_mono (Nat.le_max_left n n') h
  have hlong' := runFor_done_mono (Nat.le_max_right n n') h'
  have hmoves := self.pollBody_grows tree cx
  rw [hleaves] at hmoves
  have hparting := Parting.runFor (self.pollBody_parting hleaves cx) hmoves
    (self.pollBody_grows tree' cx) (max n n') (onNoted (self.startElapsed run) t |>.1,
      run.toRunFields) (onNoted (self.startElapsed run) t).2
  rw [hlong, hlong'] at hparting
  exact hparting.of_done

/-- The notes of a longer sequence of polls go on from where a shorter one stopped. -/
theorem PolledTo.grows_from {tree : StopTree (Stop (Eff σ))} {cxs : ℕ → Context} {t₀ t' : Noted σ}
    {j j' : ℕ} {run' : AsyncRun Fut WaitFut} {result' : PollEnd (Output R A O)}
    (h : (self.noted tree).PolledTo cxs t₀ j' t' run' result') (hlt : j < j') :
    ∃ t run, (self.noted tree).PolledTo cxs t₀ j t run .pending ∧
      Grows tree.leaves.length t t' := by
  induction h with
  | created => exact absurd hlt (Nat.not_lt_zero j)
  | poll k n t t' run run' result hprev hpoll ih =>
    have hgrows := self.pollFor_grows tree n (cxs k) run t
    rw [hpoll] at hgrows
    rcases Nat.lt_succ_iff_lt_or_eq.mp hlt with hlt | rfl
    · obtain ⟨t₁, run₁, hpolled, hgrows₁⟩ := ih hlt
      exact ⟨t₁, run₁, hpolled, trans_of (Grows _) hgrows₁ hgrows⟩
    · exact ⟨t, run, hprev, hgrows⟩

/-- **Two futures**, polled alike, are in the same state, or one of them was ready first. -/
theorem PolledTo.parting {tree tree' : StopTree (Stop (Eff σ))}
    (hleaves : tree.leaves = tree'.leaves) {cxs : ℕ → Context} {t₀ t t' : Noted σ} {j : ℕ}
    {run run' : AsyncRun Fut WaitFut} {result result' : PollEnd (Output R A O)}
    (h : (self.noted tree).PolledTo cxs t₀ j t run result)
    (h' : (self.noted tree').PolledTo cxs t₀ j t' run' result') :
    Parting IsReady (Grows tree'.leaves.length) ((result, run), t) ((result', run'), t') := by
  induction h generalizing t' run' result' with
  | created =>
    cases h' with
    | created => exact .same _
  | poll j n t t₁ run run₁ result hprev hpoll ih =>
    cases h' with
    | poll _ n' t' t₁' run' run₁' result' hprev' hpoll' =>
      obtain ⟨hrun, ht⟩ : run = run' ∧ t = t' := by
        cases ih hprev' with
        | same => exact ⟨rfl, rfl⟩
        | first hended _ => cases hended with | intro _ h => cases h
        | second hended _ => cases hended with | intro _ h => cases h
      subst hrun ht
      exact self.pollFor_parting hleaves hpoll hpoll'

theorem PolledTo.comparable {tree tree' : StopTree (Stop (Eff σ))}
    (hleaves : tree.leaves = tree'.leaves) {cxs : ℕ → Context} {t₀ t t' : Noted σ} {j j' : ℕ}
    {run run' : AsyncRun Fut WaitFut} {result result' : PollEnd (Output R A O)}
    (h : (self.noted tree).PolledTo cxs t₀ j t run result)
    (h' : (self.noted tree').PolledTo cxs t₀ j' t' run' result') (hle : j ≤ j') :
    t.notes <+: t'.notes ∨ t'.notes <+: t.notes := by
  rcases Nat.lt_or_eq_of_le hle with hlt | rfl
  · obtain ⟨t₁, run₁, hpolled, hgrows⟩ := h'.grows_from self hlt
    -- At poll `j` the second future is pending, so it has not ended below the first.
    cases h.parting self hleaves hpolled with
    | same => exact .inl hgrows.isPrefix
    | first hended hbelow => exact .inl (hbelow.isPrefix.trans hgrows.isPrefix)
    | second hended hbelow => cases hended with | intro _ h => cases h
  · exact (h.parting self hleaves h').comparable.imp Grows.isPrefix Grows.isPrefix

theorem PolledTo.attempts {tree : StopTree (Stop (Eff σ))} {cxs : ℕ → Context} {w₀ : σ} {j : ℕ}
    {t : Noted σ} {run : AsyncRun Fut WaitFut} {result : PollEnd (Output R A O)}
    (h : (self.noted tree).PolledTo cxs ⟨w₀, []⟩ j t run result) :
    Attempts tree.leaves.length t.notes := by
  rcases Nat.eq_zero_or_pos j with rfl | hpos
  · cases h with
    | created => exact .nil
  · obtain ⟨t₁, run₁, hfirst, added, hnotes, hadded⟩ := h.grows_from self hpos
    cases hfirst with
    | created =>
      rw [List.nil_append] at hnotes
      rwa [hnotes]

theorem coupled_noted (tree : StopTree (Stop (Eff σ))) :
    Coupled Noted.Of Eq Eq (self.withTree tree) (self.noted tree) where
  parts := stepCoupled_noted self.classifier self.wait self.hooks tree
  callOp _ := Noted.worldPart.couples _
  poll := by
    rintro future _ cx rfl _ t rfl
    exact ⟨⟨rfl, rfl⟩, rfl⟩
  now := Noted.worldPart.couples _
  waitAsync _ := Noted.worldPart.couples _
  pollWait := by
    rintro future _ cx rfl _ t rfl
    exact ⟨⟨rfl, rfl⟩, rfl⟩
  wakeByRef _ := Noted.worldPart.couples _
  timeout := rfl

end AsyncRetry

/-! ## §6 The guarantee -/

/-- The consultations of a run over `leaves` leaves: one of each leaf after every verdict that
is a retry, and none after any other. -/
structure ConsultsEveryLeaf (leaves : ℕ) (notes : List TreeNote) : Prop where
  attempts : Attempts leaves notes
  once : ∀ leaf < leaves, (leafHistory leaf notes).length = notes.count (.verdict true)

theorem Attempts.consultsEveryLeaf {leaves : ℕ} {notes : List TreeNote}
    (h : Attempts leaves notes) : ConsultsEveryLeaf leaves notes where
  attempts := h
  once _ hleaf := h.length_leafHistory hleaf

/-- Of two runs, every leaf has the same history in the shorter one as at the start of the
longer one. -/
def AgreeToTheEnd (notes notes' : List TreeNote) : Prop :=
  (∀ leaf, leafHistory leaf notes <+: leafHistory leaf notes') ∨
    ∀ leaf, leafHistory leaf notes' <+: leafHistory leaf notes

theorem AgreeToTheEnd.of_comparable {notes notes' : List TreeNote}
    (h : notes <+: notes' ∨ notes' <+: notes) : AgreeToTheEnd notes notes' :=
  h.imp (fun hprefix _ => hprefix.filterMap _) fun hprefix _ => hprefix.filterMap _

theorem AgreeToTheEnd.symm {notes notes' : List TreeNote} (h : AgreeToTheEnd notes notes') :
    AgreeToTheEnd notes' notes :=
  Or.symm h

/-- **Stop trees consult every leaf every time.**  One call asks each leaf once, from left to
right and with one state, and answers with the formula of the tree.  In a run of either
engine each leaf is consulted once after every verdict that is a retry, and never otherwise.
Two trees over the same leaves give every leaf the same history, until one of the runs
ends. -/
theorem stop_trees_consult_every_leaf {Fut WaitFut : Type} :
    (∀ (tree : StopTree (Stop (Eff σ))) (state : RetryState) (w : σ) (notes : List TreeNote),
      let asked := StopTree.ask state tree.leaves w
      asked.1.length = tree.leaves.length ∧
        tree.stop.shouldStop state w = (tree.formula asked.1, asked.2) ∧
        (tree.noted 0).stop.shouldStop state ⟨w, notes⟩ =
          (tree.formula asked.1, ⟨asked.2, notes ++ consults state 0 asked.1⟩)) ∧
    (∀ (self : Retry (Eff σ) R A O) (w₀ : σ),
      (∀ tree n,
        (self.withTree tree).runFor n w₀ = (((self.noted tree).runFor n ⟨w₀, []⟩).1,
          ((self.noted tree).runFor n ⟨w₀, []⟩).2.world) ∧
        ConsultsEveryLeaf tree.leaves.length ((self.noted tree).runFor n ⟨w₀, []⟩).2.notes) ∧
      ∀ tree tree' n n', tree.leaves = tree'.leaves →
        AgreeToTheEnd ((self.noted tree).runFor n ⟨w₀, []⟩).2.notes
          ((self.noted tree').runFor n' ⟨w₀, []⟩).2.notes) ∧
    ∀ (self : AsyncRetry (Eff σ) Fut WaitFut R A O) (cxs : ℕ → Context) (w₀ : σ),
      (∀ tree j w run result, (self.withTree tree).PolledTo cxs w₀ j w run result →
        ∃ notes, (self.noted tree).PolledTo cxs ⟨w₀, []⟩ j ⟨w, notes⟩ run result ∧
          ConsultsEveryLeaf tree.leaves.length notes) ∧
      ∀ tree tree' j j' t t' run run' result result', tree.leaves = tree'.leaves →
        (self.noted tree).PolledTo cxs ⟨w₀, []⟩ j t run result →
        (self.noted tree').PolledTo cxs ⟨w₀, []⟩ j' t' run' result' →
        AgreeToTheEnd t.notes t'.notes := by
  refine ⟨fun tree state w notes => ?_, fun self w₀ => ⟨fun tree n => ⟨?_, ?_⟩, ?_⟩,
    fun self cxs w₀ => ⟨?_, ?_⟩⟩
  · exact ⟨StopTree.length_ask state tree.leaves w, tree.shouldStop_apply state w,
      tree.noted_shouldStop 0 state w notes⟩
  · obtain ⟨hturn, hworld⟩ := (self.coupled_noted tree).runFor n w₀ ⟨w₀, []⟩ rfl
    exact Prod.ext hturn hworld.symm
  · exact (self.noted_runFor_attempts tree n w₀).consultsEveryLeaf
  · intro tree tree' n n' hleaves
    rcases Nat.le_total n n' with hle | hle
    · exact .of_comparable (self.noted_runFor_comparable hleaves hle w₀)
    · exact .symm (.of_comparable (self.noted_runFor_comparable hleaves.symm hle w₀))
  · intro tree j w run result hpolled
    have hstart : Noted.Of w₀ (⟨w₀, []⟩ : Noted σ) := rfl
    obtain ⟨⟨w', notes⟩, run', hnoted, hworld, hrun⟩ :=
      (self.coupled_noted tree).polledTo hstart hpolled
    obtain rfl : w' = w := hworld
    obtain rfl := hrun.eq
    exact ⟨notes, hnoted, (hnoted.attempts self).consultsEveryLeaf⟩
  · intro tree tree' j j' t t' run run' result result' hleaves h h'
    rcases Nat.le_total j j' with hle | hle
    · exact .of_comparable (h.comparable self hleaves h' hle)
    · exact .symm (.of_comparable (h'.comparable self hleaves.symm h hle))

end Relentless
