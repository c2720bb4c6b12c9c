import Mathlib.Data.List.Induction

/-! Finite runs of a labelled transition relation, with the labels listed
oldest first, and the induction rule every safety result is an instance of. -/

namespace Zephyr.Transition

universe u v

variable {State : Type u} {Label : Type v} {step : State → Label → State → Prop}
variable {start middle final : State} {labels more : List Label} {label : Label}

inductive Run (step : State → Label → State → Prop) (start : State) : List Label → State → Prop where
  | nil : Run step start [] start
  | snoc {labels : List Label} {middle final : State} {label : Label}
      (earlier : Run step start labels middle) (last : step middle label final) :
      Run step start (labels ++ [label]) final

theorem Run.invariant {holds : State → Prop} (run : Run step start labels final)
    (initial : holds start)
    (kept : ∀ {before label after}, holds before → step before label after → holds after) :
    holds final := by
  induction run with
  | nil => exact initial
  | snoc _ last ih => exact kept ih last

theorem Run.mono {weaker : State → Label → State → Prop}
    (implies : ∀ {before label after}, step before label after → weaker before label after)
    (run : Run step start labels final) : Run weaker start labels final := by
  induction run with
  | nil => exact .nil
  | snoc _ last ih => exact .snoc ih (implies last)

theorem Run.last (run : Run step start (labels ++ [label]) final) :
    ∃ middle, Run step start labels middle ∧ step middle label final := by
  generalize whole : labels ++ [label] = all at run
  cases run with
  | nil => simp at whole
  | snoc earlier last =>
    obtain ⟨rfl, same⟩ := List.append_inj' whole rfl
    cases same
    exact ⟨_, earlier, last⟩

theorem Run.split (run : Run step start (labels ++ more) final) :
    ∃ middle, Run step start labels middle ∧ Run step middle more final := by
  induction more using List.reverseRecOn generalizing final with
  | nil => exact ⟨final, by simpa using run, .nil⟩
  | append_singleton more label ih =>
    rw [← List.append_assoc] at run
    obtain ⟨before, earlier, last⟩ := run.last
    obtain ⟨middle, first, rest⟩ := ih earlier
    exact ⟨middle, first, .snoc rest last⟩

theorem Run.unique {other : State} (run : Run step start labels final)
    (second : Run step start labels other) (deterministic : ∀ {before label after other},
      step before label after → step before label other → after = other) : final = other := by
  induction run generalizing other with
  | nil =>
    generalize empty : ([] : List Label) = labels at second
    cases second with
    | nil => rfl
    | snoc => simp at empty
  | snoc _ last ih =>
    obtain ⟨middle, earlier, again⟩ := second.last
    obtain rfl := ih earlier
    exact deterministic last again

theorem Run.cons (first : step start label middle) (run : Run step middle labels final) :
    Run step start (label :: labels) final := by
  induction run with
  | nil => exact .snoc .nil first
  | snoc _ last ih => exact .snoc ih last

theorem Run.trans (first : Run step start labels middle) (second : Run step middle more final) :
    Run step start (labels ++ more) final := by
  induction second with
  | nil => simpa using first
  | snoc _ last ih =>
    rw [← List.append_assoc]
    exact .snoc ih last

/-- Each step of a step function's run finds its guard satisfied. -/
def Guarded (guard : State → Label → Prop) (perform : State → Label → State) : State → List Label → Prop
  | _, [] => True
  | start, label :: labels => guard start label ∧ Guarded guard perform (perform start label) labels

/-- A guard holds along a run when it holds before each of its steps. -/
theorem guarded_iff {guard : State → Label → Prop} {perform : State → Label → State} :
    Guarded guard perform start labels ↔
      ∀ earlier label, earlier ++ [label] <+: labels → guard (earlier.foldl perform start) label := by
  induction labels generalizing start with
  | nil => simp [Guarded]
  | cons first rest ih =>
    rw [Guarded, ih]
    constructor
    · rintro ⟨now, later⟩ earlier label split
      cases earlier with
      | nil =>
        obtain ⟨rfl, _⟩ := List.cons_prefix_cons.mp split
        exact now
      | cons head earlier =>
        obtain ⟨rfl, inside⟩ := List.cons_prefix_cons.mp split
        exact later earlier label inside
    · intro all
      refine ⟨all [] first (List.cons_prefix_cons.mpr ⟨rfl, List.nil_prefix⟩), ?_⟩
      intro earlier label split
      exact all (first :: earlier) label (List.cons_prefix_cons.mpr ⟨rfl, split⟩)

theorem Guarded.of_prefix {guard : State → Label → Prop} {perform : State → Label → State}
    {earlier : List Label} (guarded : Guarded guard perform start labels) (split : earlier <+: labels) :
    Guarded guard perform start earlier :=
  guarded_iff.mpr fun before label inside => guarded_iff.mp guarded before label (inside.trans split)

theorem Run.of_guarded {guard : State → Label → Prop} {perform : State → Label → State}
    (guarded : Guarded guard perform start labels) :
    Run (fun before label after => guard before label ∧ after = perform before label) start labels
      (labels.foldl perform start) := by
  induction labels generalizing start with
  | nil => exact .nil
  | cons label labels ih => exact .cons ⟨guarded.1, rfl⟩ (ih guarded.2)

theorem Run.foldl (perform : State → Label → State) (start : State) (labels : List Label) :
    Run (fun before label after => after = perform before label) start labels
      (labels.foldl perform start) := by
  induction labels generalizing start with
  | nil => exact .nil
  | cons label labels ih => exact .cons rfl (ih (perform start label))

end Zephyr.Transition
