import Relentless.Library.Relational
import Relentless.Wait.JitterSessions

/-!
# Seeds Pin the Delays

Two expressions of one shape, in two processes with histories of their own, whose
corresponding strategies end up with the same seed and nonce, give the same delays.

- `Twins` — the processes agree on the strategies of the expression
- `couples_nextWait` — one call, from which a session follows
- `seeding_pins_delays` — the delays do not depend on anything else
-/

namespace Relentless

variable {W W' : Type}

/-! ## §1 Twins -/

/-- The strategies in `nodes` and their counterparts have one formula and one generator. -/
def Twins (nodes : List ℕ) (rename : ℕ → ℕ) (p : Process W) (p' : Process W') : Prop :=
  ∀ i ∈ nodes, ∃ inst inst', p.instances[i]? = some inst ∧
    p'.instances[rename i]? = some inst' ∧ inst.strategy.kind = inst'.strategy.kind ∧
    inst.strategy.rng = inst'.strategy.rng

variable {nodes : List ℕ} {rename : ℕ → ℕ}

theorem Twins.lt {p : Process W} {p' : Process W'} (h : Twins nodes rename p p') {i : ℕ}
    (hi : i ∈ nodes) : i < p.instances.length ∧ rename i < p'.instances.length := by
  obtain ⟨inst, inst', hinst, hinst', -⟩ := h i hi
  exact ⟨(List.getElem?_eq_some_iff.mp hinst).1, (List.getElem?_eq_some_iff.mp hinst').1⟩

/-- What leaves the strategies of both sides alone keeps them twins. -/
theorem Twins.congr {p q : Process W} {p' q' : Process W'} (h : Twins nodes rename p p')
    (hq : ∀ i ∈ nodes, q.instances[i]? = p.instances[i]?)
    (hq' : ∀ i ∈ nodes, q'.instances[rename i]? = p'.instances[rename i]?) :
    Twins nodes rename q q' := by
  intro i hi
  rw [hq i hi, hq' i hi]
  exact h i hi

/-- Twins draw the same, and stay twins. -/
theorem couples_draw (hrename : Set.InjOn rename {i | i ∈ nodes}) {i : ℕ} (hi : i ∈ nodes)
    (base : Duration) (state : RetryState) :
    Eff.Couples (Twins nodes rename) Eq (Process.draw i base state : Eff (Process W) Duration)
      (Process.draw (rename i) base state : Eff (Process W') Duration) := by
  intro p p' htwins
  obtain ⟨inst, inst', hinst, hinst', hkind, hrng⟩ := htwins i hi
  simp only [Process.draw, hinst, hinst']
  constructor
  · simp only [Jittered.nextWait, hkind, hrng]
  · intro j hj
    by_cases hji : j = i
    · -- The drawing strategies advance together.
      subst hji
      refine ⟨inst.nextWait base state, inst'.nextWait base state, ?_, ?_, hkind, ?_⟩
      · simp [hinst]
      · simp [hinst']
      · simp only [Instance.nextWait, Jittered.nextWait, hkind, hrng]
    · -- The others are left alone, as renaming keeps them apart.
      have hne : rename i ≠ rename j := fun heq => hji (hrename hi hj heq).symm
      rw [Process.getElem?_modify_of_ne (Ne.symm hji), Process.getElem?_modify_of_ne hne]
      exact htwins j hj

/-! ## §2 Calls and sessions -/

/-- **One call**: expressions of one shape over twins give one delay. -/
theorem couples_nextWait (hrename : Set.InjOn rename {i | i ∈ nodes}) (expr : WaitExpr ℕ)
    (hnodes : ∀ i ∈ expr.nodes, i ∈ nodes) (state : RetryState) :
    Eff.Couples (Twins nodes rename) Eq
      (expr.nextWait Process.draw state : Eff (Process W) Duration)
      ((expr.map rename).nextWait Process.draw state : Eff (Process W') Duration) := by
  -- The leaves draw nothing; the combinators pass on delays that are equal by induction.
  induction expr with
  | fixed strategy => exact .pure rfl
  | linear strategy => exact .pure rfl
  | exponential strategy => exact .pure rfl
  | capped inner max ih =>
    apply (ih hnodes).bind
    rintro delay _ rfl
    exact .pure rfl
  | combine left right ihl ihr =>
    apply (ihl fun i hi => hnodes i (List.mem_append_left _ hi)).bind
    rintro l _ rfl
    apply (ihr fun i hi => hnodes i (List.mem_append_right _ hi)).bind
    rintro r _ rfl
    exact .pure rfl
  | chain first second after ih₁ ih₂ =>
    -- Both sessions are at the same attempt, so the same side is in force.
    simp only [WaitExpr.nextWait, WaitExpr.map]
    split
    · exact ih₁ fun i hi => hnodes i (List.mem_append_left _ hi)
    · exact ih₂ fun i hi => hnodes i (List.mem_append_right _ hi)
  | jittered inner node ih =>
    apply (ih fun i hi => hnodes i (List.mem_append_left _ hi)).bind
    rintro base _ rfl
    exact couples_draw hrename (hnodes node (by simp [WaitExpr.nodes])) base state

/-- Other actions, in either process, leave the twins alone. -/
theorem Twins.step_left {p : Process W} {p' : Process W'} (h : Twins nodes rename p p')
    (target : Target) {action : Action W} (hapart : ∀ i ∈ nodes, ¬action.Touches i) :
    Twins nodes rename (p.step target action) p' :=
  h.congr (fun i hi => Process.getElem?_step (h.lt hi).1 (hapart i hi)) fun _ _ => rfl

theorem Twins.step_right {p : Process W} {p' : Process W'} (h : Twins nodes rename p p')
    (target : Target) {action : Action W'}
    (hapart : ∀ i ∈ nodes, ¬action.Touches (rename i)) :
    Twins nodes rename p (p'.step target action) :=
  h.congr (fun _ _ => rfl) fun i hi => Process.getElem?_step (h.lt hi).2 (hapart i hi)

theorem mem_nodes_map {ν ν' : Type} {f : ν → ν'} {expr : WaitExpr ν} {i : ν}
    (hi : i ∈ expr.nodes) : f i ∈ (expr.map f).nodes := by
  induction expr with
  | fixed strategy => cases hi
  | linear strategy => cases hi
  | exponential strategy => cases hi
  | capped inner max ih => exact ih hi
  | combine left right ihl ihr =>
    exact List.mem_append.mpr ((List.mem_append.mp hi).imp ihl ihr)
  | chain first second after ih₁ ih₂ =>
    exact List.mem_append.mpr ((List.mem_append.mp hi).imp ih₁ ih₂)
  | jittered inner node ih =>
    rcases List.mem_append.mp hi with hinner | hnode
    · exact List.mem_append_left _ (ih hinner)
    · rw [List.mem_singleton.mp hnode]
      exact List.mem_append_right _ (List.mem_singleton_self _)

/-- **A session**: whatever else happens in between, twins give the same delays. -/
theorem session_eq {target target' : Target} {expr : WaitExpr ℕ}
    (hrename : Set.InjOn rename {i | i ∈ expr.nodes}) {steps : List (SessionStep W)}
    {steps' : List (SessionStep W')} (hapart : Apart expr steps)
    (hapart' : Apart (expr.map rename) steps') (hasked : asked steps = asked steps')
    {p : Process W} {p' : Process W'} (htwins : Twins expr.nodes rename p p') :
    (session target expr steps p).1 = (session target' (expr.map rename) steps' p').1 := by
  -- The other actions are peeled off one side, then the other; the calls go in pairs.
  induction steps generalizing steps' p p' with
  | nil =>
    induction steps' generalizing p' with
    | nil => rfl
    | cons step' steps' ih' =>
      cases step' with
      | call state => cases hasked
      | other action =>
        exact ih' (fun a ha => hapart' a (List.mem_cons_of_mem _ ha)) hasked
          (htwins.step_right target' fun i hi =>
            hapart' action List.mem_cons_self _ (mem_nodes_map hi))
  | cons step steps ih =>
    cases step with
    | other action =>
      exact ih (fun a ha => hapart a (List.mem_cons_of_mem _ ha)) hapart' hasked
        (htwins.step_left target (hapart action List.mem_cons_self))
    | call state =>
      induction steps' generalizing p' with
      | nil => cases hasked
      | cons step' steps' ih' =>
        cases step' with
        | other action =>
          exact ih' (fun a ha => hapart' a (List.mem_cons_of_mem _ ha))
            (htwins.step_right target' fun i hi =>
              hapart' action List.mem_cons_self _ (mem_nodes_map hi)) hasked
        | call state' =>
          obtain ⟨rfl, hrest⟩ := List.cons.inj hasked
          obtain ⟨hdelay, htwins'⟩ :=
            couples_nextWait hrename expr (fun _ hi => hi) state p p' htwins
          have hlater := ih (fun a ha => hapart a (List.mem_cons_of_mem _ ha))
            (fun a ha => hapart' a (List.mem_cons_of_mem _ ha)) hrest htwins'
          simp only [session, Eff.bind_apply, Eff.pure_apply, hdelay, hlater]

/-! ## §3 The guarantee -/

/-- **Seeds pin the delays**: expressions of one shape, whose corresponding strategies were
last given one seed and after it one nonce, if any, give the same delays when asked with
the same states.  The targets, the wall clocks and counters of the two histories, and all
that happens to other strategies before and during the sessions may differ. -/
theorem seeding_pins_delays {target target' : Target} {history : List (Action W)}
    {history' : List (Action W')} {expr : WaitExpr ℕ} {rename : ℕ → ℕ}
    (hrename : Set.InjOn rename {i | i ∈ expr.nodes})
    (hpinned : ∀ i ∈ expr.nodes, ∃ seed nonce, Pinned target history i seed nonce ∧
      Pinned target' history' (rename i) seed nonce)
    (hkinds : ∀ i ∈ expr.nodes,
      ((Process.run target history).instances[i]?).map (·.strategy.kind) =
        ((Process.run target' history').instances[rename i]?).map (·.strategy.kind))
    {steps : List (SessionStep W)} {steps' : List (SessionStep W')}
    (hapart : Apart expr steps) (hapart' : Apart (expr.map rename) steps')
    (hasked : asked steps = asked steps') :
    (session target expr steps (Process.run target history)).1 =
      (session target' (expr.map rename) steps' (Process.run target' history')).1 := by
  apply session_eq hrename hapart hapart' hasked
  intro i hi
  obtain ⟨seed, nonce, hpin, hpin'⟩ := hpinned i hi
  obtain ⟨inst, hinst, -, hrng⟩ := hpin.seeded
  obtain ⟨inst', hinst', -, hrng'⟩ := hpin'.seeded
  have hkind := hkinds i hi
  rw [hinst, hinst'] at hkind
  exact ⟨inst, inst', hinst, hinst', Option.some.inj hkind, hrng.trans hrng'.symm⟩

/-- Full jitter around one second, on the strategy `i`. -/
def jitteredSecond (i : ℕ) : WaitExpr ℕ := .jittered (.fixed (fixed (.fromMicros 1000000))) i

/-- The state after the first attempt. -/
def firstState : RetryState := { attempt := 1, elapsed := .zero, previousDelay := none }

/-- A strategy that is given the seed 7 at once. -/
def seededAtOnce : List (Action Unit) := [.new () .full 0, .withSeed 0 7]

/-- The second strategy of a process, given a nonce and drawn from before the seed. -/
def seededInTheEnd : List (Action Unit) :=
  [.new () .equal 3, .new () .full 5, .withNonce 1 9, .nextWait 1 .zero firstState,
    .clone 1 () 4, .withSeed 1 7]

/-- The two give the same delays, with a clone in the middle or without. -/
theorem seeding_pins_seededAtOnce :
    (session (.atomics .bits64 false) (jitteredSecond 0) [.call firstState, .call firstState]
        (Process.run (.atomics .bits64 false) seededAtOnce)).1 =
      (session (.atomics .bits32 true) (jitteredSecond 1)
        [.call firstState, .other (.clone 1 () 8), .call firstState]
        (Process.run (.atomics .bits32 true) seededInTheEnd)).1 := by
  have hpinned : ∀ i ∈ (jitteredSecond 0).nodes, ∃ seed nonce,
      Pinned (.atomics .bits64 false) seededAtOnce i seed nonce ∧
        Pinned (.atomics .bits32 true) seededInTheEnd (i + 1) seed nonce := by
    intro i hi
    obtain rfl := List.mem_singleton.mp hi
    refine ⟨7, none, ⟨[.new () .full 0], [], rfl, ?_, by simp, rfl⟩,
      ⟨seededInTheEnd.take 5, [], rfl, ?_, by simp, rfl⟩⟩
    · simp [Process.run, Process.step, Process.add]
    · simp [seededInTheEnd, Process.run, Process.step, Process.add]
  have hkinds : ∀ i ∈ (jitteredSecond 0).nodes,
      ((Process.run (.atomics .bits64 false) seededAtOnce).instances[i]?).map
          (·.strategy.kind) =
        ((Process.run (.atomics .bits32 true) seededInTheEnd).instances[i + 1]?).map
          (·.strategy.kind) := by
    intro i hi
    obtain rfl := List.mem_singleton.mp hi
    rfl
  apply seeding_pins_delays (Set.injOn_of_injective (add_left_injective 1)) hpinned hkinds
  · simp [Apart]
  · simp [Apart, Action.Touches]
  · rfl

end Relentless
