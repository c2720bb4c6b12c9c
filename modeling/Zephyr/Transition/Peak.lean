import Zephyr.Transition.Run

/-! The highest value a measure takes along a run. -/

namespace Zephyr.Transition

universe u v

variable {State : Type u} {Label : Type v} {step : State → Label → State → Prop} {measure : State → Nat}
variable {start middle final : State} {labels : List Label} {label : Label} {level more : Nat}

/-- Some state along the run has the value, and none has a higher one. -/
structure Peak (step : State → Label → State → Prop) (start : State) (measure : State → Nat) (labels : List Label)
    (level : Nat) : Prop where
  reached : ∃ earlier state, earlier <+: labels ∧ Run step start earlier state ∧ measure state = level
  bounded : ∀ earlier state, earlier <+: labels → Run step start earlier state → measure state ≤ level

theorem Peak.nil : Peak step start measure [] (measure start) := by
  refine ⟨⟨[], start, List.prefix_refl _, .nil, rfl⟩, fun earlier state before run => ?_⟩
  cases run with
  | nil => exact Nat.le_refl _
  | snoc => simp at before

/-- The peak stays, or the new state is a new one. -/
theorem Peak.snoc (peak : Peak step start measure labels level) (run : Run step start labels middle)
    (last : step middle label final) (deterministic : ∀ {before label after other},
      step before label after → step before label other → after = other)
    (higher : level ≤ more) (below : measure final ≤ more) (attained : level = more ∨ measure final = more) :
    Peak step start measure (labels ++ [label]) more := by
  have whole : Run step start (labels ++ [label]) final := .snoc run last
  constructor
  · rcases attained with same | new
    · obtain ⟨earlier, state, before, reached, value⟩ := peak.reached
      exact ⟨earlier, state, before.trans (List.prefix_append _ _), reached, value.trans same⟩
    · exact ⟨_, final, List.prefix_refl _, whole, new⟩
  · intro earlier state before reached
    rcases List.prefix_concat_iff.mp before with rfl | shorter
    · rw [reached.unique whole deterministic]
      exact below
    · exact Nat.le_trans (peak.bounded earlier state shorter reached) higher

end Zephyr.Transition
