/-!
# Paths of a Labelled Transition Relation

Sequences of labels that a transition relation can follow from one state to another.

- `Labelled.Path` — a path, with the labels along it
- `path_append_iff`, `path_cons_iff` — paths taken apart
- `Path.stay`, `Path.totals` — labels that change nothing, and what each step adds
-/

namespace Labelled

variable {S E M : Type} {step : S → E → S → Prop}

/-- `Path step s es s'`: the labels `es` lead from `s` to `s'`. -/
inductive Path (step : S → E → S → Prop) : S → List E → S → Prop where
  | nil (s : S) : Path step s [] s
  | cons {s s' s'' : S} {e : E} {es : List E} (hstep : step s e s') (hrest : Path step s' es s'') :
      Path step s (e :: es) s''

theorem path_nil_iff {s s' : S} : Path step s [] s' ↔ s = s' := by
  constructor
  · intro h
    cases h
    rfl
  · rintro rfl
    exact .nil s

theorem path_cons_iff {s s'' : S} {e : E} {es : List E} :
    Path step s (e :: es) s'' ↔ ∃ s', step s e s' ∧ Path step s' es s'' := by
  constructor
  · intro h
    cases h with
    | cons hstep hrest => exact ⟨_, hstep, hrest⟩
  · rintro ⟨s', hstep, hrest⟩
    exact .cons hstep hrest

theorem path_append_iff {s s'' : S} {es es' : List E} :
    Path step s (es ++ es') s'' ↔ ∃ s', Path step s es s' ∧ Path step s' es' s'' := by
  induction es generalizing s with
  | nil => simp [path_nil_iff]
  | cons e es ih =>
    simp only [List.cons_append, path_cons_iff, ih]
    constructor
    · rintro ⟨s₁, hstep, s₂, hfirst, hrest⟩
      exact ⟨s₂, ⟨s₁, hstep, hfirst⟩, hrest⟩
    · rintro ⟨s₂, ⟨s₁, hstep, hfirst⟩, hrest⟩
      exact ⟨s₁, hstep, s₂, hfirst, hrest⟩

/-- A single label. -/
theorem path_singleton_iff {s s' : S} {e : E} : Path step s [e] s' ↔ step s e s' := by
  simp [path_cons_iff, path_nil_iff]

namespace Path

theorem append {s s' s'' : S} {es es' : List E} (h : Path step s es s')
    (h' : Path step s' es' s'') : Path step s (es ++ es') s'' :=
  path_append_iff.mpr ⟨s', h, h'⟩

/-- Labels that a state ignores. -/
theorem stay {s : S} {es : List E} (h : ∀ e ∈ es, step s e s) : Path step s es s := by
  induction es with
  | nil => exact .nil s
  | cons e es ih =>
    apply cons (h e List.mem_cons_self)
    exact ih fun e he => h e (List.mem_cons_of_mem _ he)

/-- The last step of a path that has one. -/
theorem last {s s' : S} {es : List E} (h : Path step s es s') (hne : s ≠ s') :
    ∃ before e s₁, es = before ++ [e] ∧ Path step s before s₁ ∧ step s₁ e s' := by
  rcases List.eq_nil_or_concat es with rfl | ⟨before, e, rfl⟩
  · exact absurd (path_nil_iff.mp h) hne
  · rw [List.concat_eq_append] at h ⊢
    obtain ⟨s₁, hbefore, hlast⟩ := path_append_iff.mp h
    exact ⟨before, e, s₁, rfl, hbefore, path_singleton_iff.mp hlast⟩

/-- What every step adds to a total, a path adds to it. -/
theorem totals {total : S → List M} {adds : E → Option M}
    (hstep : ∀ s e s', step s e s' → total s' = total s ++ (adds e).toList) {s s' : S}
    {es : List E} (h : Path step s es s') : total s' = total s ++ es.filterMap adds := by
  induction h with
  | nil s => simp
  | cons hfirst _ ih =>
    rw [ih, hstep _ _ _ hfirst, List.filterMap_cons, List.append_assoc]
    cases adds _ <;> rfl

end Path

end Labelled
