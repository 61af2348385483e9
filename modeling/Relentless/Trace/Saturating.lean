import Relentless.Trace.Coherence

/-!
# Clocks That Saturate

The contract of the clocks, for clocks whose readings stop at `Duration::MAX`, and what a
clock has to be like to keep it.

- `Saturating` — readings that keep the pace, as long as a `Duration` can say so
- `Saturating.coherent` — before that, the log is coherent
- `KeepsPace` — a log that keeps the pace, and how far the clock has come
-/

namespace Relentless

variable {R A O : Type}

/-! ## §1 Readings up to the last duration -/

/-- In `log` no reading is less than it may be, up to `Duration::MAX`. -/
def Saturating (pace : Pace) : List (Event R A O) → Prop
  | [] => True
  | ev :: log => (∀ reading ∈ ev.reading?, min pace.due maxNanos ≤ reading.nanos) ∧
      Saturating (pace.next ev) log

theorem saturating_append_iff {pace : Pace} {log log' : List (Event R A O)} :
    Saturating pace (log ++ log') ↔ Saturating pace log ∧ Saturating (pace.after log) log' := by
  induction log generalizing pace with
  | nil => simp [Saturating]
  | cons ev log ih => simp [Saturating, ih, and_assoc]

/-- A log without paced events keeps any pace. -/
theorem saturating_of_unpaced {pace : Pace} {log : List (Event R A O)}
    (h : ∀ ev ∈ log, ev.isPaced = false) : Saturating pace log ∧ pace.after log = pace := by
  induction log with
  | nil => exact ⟨trivial, rfl⟩
  | cons ev log ih =>
    obtain ⟨hev, hlog⟩ := List.forall_mem_cons.mp h
    obtain ⟨hreading, hnext⟩ := Event.of_not_paced hev pace
    obtain ⟨hsaturating, hafter⟩ := ih hlog
    rw [Saturating, hreading, Pace.after_cons, hnext]
    exact ⟨⟨fun _ habsurd => absurd habsurd (Option.not_mem_none _), hsaturating⟩, hafter⟩

/-- As long as the clock does not read `Duration::MAX`, it keeps the pace. -/
theorem Saturating.coherent {pace : Pace} {log : List (Event R A O)} (h : Saturating pace log)
    (hshort : ∀ reading ∈ readings log, reading ≠ .maxValue) : Coherent pace log := by
  induction log generalizing pace with
  | nil => trivial
  | cons ev log ih =>
    obtain ⟨hev, hlog⟩ := h
    rw [readings_cons] at hshort
    refine ⟨fun reading hreading => ?_, ih hlog fun r hr => ?_⟩
    · have hmin := hev reading hreading
      have hne : reading ≠ .maxValue :=
        hshort reading (List.mem_append_left _ (Option.mem_toList.mpr hreading))
      have hlt : reading.nanos < maxNanos :=
        lt_of_le_of_ne reading.nanos_le fun heq => hne (Duration.ext heq)
      omega
    · exact hshort r (List.mem_append_right _ hr)

/-! ## §2 How far the clock has come -/

/-- The log keeps the pace; the clock has come to `reached`, at least as far as it has been
read, and before it is read again it will have come to `owed`, if not further. -/
structure KeepsPace (log : List (Event R A O)) (reached owed : ℕ) : Prop where
  last_le : (Pace.start.after log).last ≤ reached
  due_le : (Pace.start.after log).due ≤ owed
  kept : Saturating .start log

namespace KeepsPace

variable {log : List (Event R A O)} {reached reached' owed owed' : ℕ}

theorem start (reached owed : ℕ) : KeepsPace ([] : List (Event R A O)) reached owed :=
  ⟨Nat.zero_le _, Nat.zero_le _, trivial⟩

theorem mono (h : KeepsPace log reached owed) (hreached : reached ≤ reached')
    (howed : owed ≤ owed') : KeepsPace log reached' owed' :=
  ⟨h.last_le.trans hreached, h.due_le.trans howed, h.kept⟩

theorem unpaced (h : KeepsPace log reached owed) {evs : List (Event R A O)}
    (hevs : ∀ ev ∈ evs, ev.isPaced = false) : KeepsPace (log ++ evs) reached owed := by
  obtain ⟨hsaturating, hafter⟩ : Saturating (Pace.start.after log) evs ∧
      (Pace.start.after log).after evs = Pace.start.after log := saturating_of_unpaced hevs
  have hpace : Pace.start.after (log ++ evs) = Pace.start.after log := by
    rw [Pace.after_append, hafter]
  constructor
  · exact hpace ▸ h.last_le
  · exact hpace ▸ h.due_le
  · exact saturating_append_iff.mpr ⟨h.kept, hsaturating⟩

/-- **A reading** shows how far the clock has come, which is as far as is owed. -/
theorem now (h : KeepsPace log reached owed) {n : ℕ} (hn : owed ≤ n) (hreached : n ≤ reached') :
    KeepsPace (log ++ [.now (.ofNanos n)]) reached' reached' := by
  have hpace : Pace.start.after (log ++ [.now (.ofNanos n)]) =
      ⟨min n maxNanos, min n maxNanos⟩ := by
    rw [Pace.after_append]
    rfl
  constructor
  · rw [hpace]
    exact (min_le_left _ _).trans hreached
  · rw [hpace]
    exact (min_le_left _ _).trans hreached
  · refine saturating_append_iff.mpr ⟨h.kept, ?_, trivial⟩
    intro reading hmem
    obtain rfl := Option.some.inj hmem
    exact min_le_min_right _ (h.due_le.trans hn)

/-- **A wait** is owed on top of how far the clock has come. -/
theorem wait (h : KeepsPace log reached owed) {delay : Duration} (howed : owed ≤ owed')
    (hdelay : reached + delay.nanos ≤ owed') :
    KeepsPace (log ++ [.wait delay]) reached owed' := by
  have hpace : Pace.start.after (log ++ [.wait delay]) = ⟨(Pace.start.after log).last,
      max (Pace.start.after log).due ((Pace.start.after log).last + delay.nanos)⟩ := by
    rw [Pace.after_append]
    rfl
  constructor
  · rw [hpace]
    exact h.last_le
  · rw [hpace]
    exact max_le (h.due_le.trans howed) ((Nat.add_le_add_right h.last_le _).trans hdelay)
  · refine saturating_append_iff.mpr ⟨h.kept, ?_, trivial⟩
    intro reading hmem
    cases hmem

/-- What has been logged up to some moment is coherent, if `Duration::MAX` was not read. -/
theorem coherent (h : KeepsPace log reached owed) {front : List (Event R A O)}
    (hfront : front <+: log) (hshort : ∀ reading ∈ readings front, reading ≠ .maxValue) :
    Coherent .start front := by
  obtain ⟨later, rfl⟩ := hfront
  exact (saturating_append_iff.mp h.kept).1.coherent hshort

end KeepsPace

end Relentless
