import Mathlib.Algebra.Group.Nat.Defs
import Mathlib.Data.List.Rotate

/-! Taking turns: whoever is first in the roster goes to its end. -/

namespace Zephyr.Transition

universe u

variable {α : Type u} (roster : List α)

/-- Who is first after each of so many turns. -/
def turns (roster : List α) : Nat → List α
  | 0 => []
  | count + 1 => (roster.rotate 1).take 1 ++ turns (roster.rotate 1) count

theorem turns_add (first second : Nat) :
    turns roster (first + second) = turns roster first ++ turns (roster.rotate first) second := by
  induction first generalizing roster with
  | zero => rw [Nat.zero_add, List.rotate_zero, turns, List.nil_append]
  | succ first ih => rw [Nat.succ_add, turns, ih, turns, List.rotate_rotate, Nat.add_comm 1, List.append_assoc]

/-- In one round everybody has a turn, the first one last. -/
theorem turns_of_le {count : Nat} (few : count ≤ roster.length) :
    turns roster count = (roster.rotate 1).take count := by
  induction count with
  | zero => rfl
  | succ count ih =>
    have inside : count < (roster.rotate 1).length := by
      rw [List.length_rotate]
      exact few
    have next : (roster.rotate count).rotate 1 = (roster.rotate 1).drop count ++ (roster.rotate 1).take count := by
      rw [List.rotate_rotate, Nat.add_comm, ← List.rotate_rotate, List.rotate_eq_drop_append_take (Nat.le_of_lt inside)]
    rw [turns_add, ih (Nat.le_of_succ_le few), turns, turns, List.append_nil, next, List.take_add,
      List.take_append_of_le_length]
    rw [List.length_drop]
    omega

variable [DecidableEq α]

theorem count_rounds (member : α) (rounds : Nat) :
    (turns roster (roster.length * rounds)).count member = rounds * roster.count member := by
  induction rounds with
  | zero => rw [Nat.mul_zero, turns, List.count_nil, Nat.zero_mul]
  | succ rounds ih =>
    have whole : turns roster roster.length = roster.rotate 1 := by
      rw [turns_of_le roster (Nat.le_refl _), ← List.length_rotate roster 1, List.take_length]
    rw [Nat.mul_succ, turns_add, List.rotate_length_mul, whole, List.count_append, ih,
      (List.rotate_perm roster 1).count_eq, Nat.succ_mul]

/-- Nobody is ahead of anybody else by more than one turn. -/
theorem count_turns (distinct : roster.Nodup) {member : α} (listed : member ∈ roster) (count : Nat) :
    count / roster.length ≤ (turns roster count).count member ∧
      (turns roster count).count member ≤ count / roster.length + 1 := by
  have rest : count % roster.length ≤ roster.length :=
    Nat.le_of_lt (Nat.mod_lt _ (List.length_pos_of_mem listed))
  have last : (turns roster (count % roster.length)).count member ≤ 1 := by
    rw [turns_of_le roster rest]
    have once : (roster.rotate 1).count member ≤ 1 :=
      List.nodup_iff_count_le_one.mp (List.nodup_rotate.mpr distinct) member
    exact Nat.le_trans ((List.take_sublist _ (roster.rotate 1)).count_le member) once
  have split : (turns roster count).count member =
      count / roster.length + (turns roster (count % roster.length)).count member := by
    conv_lhs => rw [← Nat.div_add_mod count roster.length]
    rw [turns_add, List.rotate_length_mul, List.count_append, count_rounds,
      List.count_eq_one_of_mem distinct listed, Nat.mul_one]
  omega

end Zephyr.Transition
