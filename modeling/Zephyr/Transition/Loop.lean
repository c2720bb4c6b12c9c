import Mathlib.Data.List.Basic
import Mathlib.Data.List.Induction

/-! Loops that may fail: rules for folding a fallible body over a list. -/

namespace Zephyr

variable {ε β α : Type*}

theorem foldlM_range' {body : β → Nat → Except ε β} {first last : β} {start count : Nat} (state : Nat → β)
    (starts : state 0 = first) (ends : state count = last)
    (step : ∀ turn < count, body (state turn) (start + turn) = .ok (state (turn + 1))) :
    (List.range' start count).foldlM body first = .ok last := by
  subst starts ends
  induction count with
  | zero => rfl
  | succ count ih =>
    rw [List.range'_1_concat, List.foldlM_append, ih fun turn before => step turn (Nat.lt_succ_of_lt before)]
    change List.foldlM body (state count) [start + count] = _
    rw [List.foldlM_cons, step count (Nat.lt_succ_self _)]
    rfl

theorem foldlM_invariant {body : β → α → Except ε β} {holds : β → Prop} {items : List α} {state : β}
    (step : ∀ item ∈ items, ∀ before, holds before → ∃ after, body before item = .ok after ∧ holds after)
    (starts : holds state) : ∃ after, items.foldlM body state = .ok after ∧ holds after := by
  induction items generalizing state with
  | nil => exact ⟨state, rfl, starts⟩
  | cons item items ih =>
    obtain ⟨middle, done, kept⟩ := step item List.mem_cons_self state starts
    obtain ⟨after, rest, last⟩ := ih (fun other member => step other (List.mem_cons_of_mem _ member)) kept
    exact ⟨after, by rw [List.foldlM_cons, done]; exact rest, last⟩

theorem mapM_ok {γ : Type*} {read : α → Except ε γ} {items : List α}
    (each : ∀ item ∈ items, ∃ value, read item = .ok value) :
    ∃ values, items.mapM read = .ok values ∧ values.length = items.length := by
  induction items with
  | nil => exact ⟨[], rfl, rfl⟩
  | cons item items ih =>
    obtain ⟨value, first⟩ := each item List.mem_cons_self
    obtain ⟨values, rest, length⟩ := ih fun other member => each other (List.mem_cons_of_mem _ member)
    refine ⟨value :: values, ?_, congrArg (· + 1) length⟩
    rw [List.mapM_cons, first, rest]
    rfl

theorem mapM_range {read : Nat → Except ε α} (items : List α)
    (each : ∀ index (inside : index < items.length), read index = .ok items[index]) :
    (List.range items.length).mapM read = .ok items := by
  induction items using List.reverseRecOn with
  | nil => rfl
  | append_singleton items last ih =>
    have before : (List.range items.length).mapM read = .ok items := by
      apply ih
      intro index inside
      rw [each index (by rw [List.length_append]; omega), List.getElem_append_left inside]
    have behind : read items.length = .ok last := by
      rw [each items.length (by rw [List.length_append, List.length_singleton]; omega)]
      exact congrArg Except.ok (List.getElem_concat_length rfl _)
    rw [List.length_append, List.length_singleton, List.range_succ, List.mapM_append, before,
      List.mapM_cons, behind]
    rfl

end Zephyr
