import Mathlib.Algebra.BigOperators.Group.Finset.Piecewise
import Mathlib.Algebra.Order.Group.Multiset
import Mathlib.Data.Multiset.Pairwise
import Mathlib.Order.Interval.Set.Disjoint
import Mathlib.Order.CompletePartialOrder

/-! Blocks of addresses, and pools of blocks that are pairwise apart. A pool is a
multiset: a block that changes hands moves from one summand of it to another. -/

namespace Zephyr.Region

universe u v w

section Pairwise

variable {Element : Type u} {apart : Element → Element → Prop} [Std.Symm apart]
variable {element : Element} {first second : Multiset Element}

theorem pairwise_cons : (element ::ₘ first).Pairwise apart ↔
    (∀ other ∈ first, apart element other) ∧ first.Pairwise apart := by
  induction first using Quotient.inductionOn with
  | h elements =>
    simp only [Multiset.quot_mk_to_coe, Multiset.cons_coe, Multiset.pairwise_coe_iff_pairwise, List.pairwise_cons,
      Multiset.mem_coe]

theorem pairwise_add : (first + second).Pairwise apart ↔
    first.Pairwise apart ∧ second.Pairwise apart ∧ ∀ one ∈ first, ∀ other ∈ second, apart one other := by
  induction first, second using Quotient.inductionOn₂ with
  | h left right =>
    simp only [Multiset.quot_mk_to_coe, Multiset.coe_add, Multiset.pairwise_coe_iff_pairwise, List.pairwise_append,
      Multiset.mem_coe]

theorem pairwise_of_map {Other : Type v} {others : Other → Other → Prop} [Std.Symm others] {image : Element → Other}
    (pairwise : (first.map image).Pairwise others)
    (implies : ∀ one two, others (image one) (image two) → apart one two) : first.Pairwise apart := by
  induction first using Multiset.induction with
  | empty => exact Multiset.pairwise_zero apart
  | cons element rest ih =>
    rw [Multiset.map_cons, pairwise_cons] at pairwise
    rw [pairwise_cons]
    refine ⟨fun other member => ?_, ih pairwise.2⟩
    exact implies element other (pairwise.1 _ (Multiset.mem_map_of_mem image member))

end Pairwise

section Family

variable {Index : Type u} {Node : Type v} {Element : Type w} [Fintype Index]

/-- What a family of lists holds. -/
def held (element : Index → Node → Element) (lists : Index → List Node) : Multiset Element :=
  ∑ index, ((lists index).map (element index) : Multiset Element)

variable {element : Index → Node → Element} {lists : Index → List Node} {index : Index} {node : Node}

theorem mem_held {one : Element} : one ∈ held element lists ↔ ∃ index, ∃ node ∈ lists index, element index node = one := by
  simp [held, Multiset.mem_sum]

@[simp] theorem held_nil : held element (fun _ => []) = 0 := by
  simp [held]

variable [DecidableEq Index]

theorem held_update (list : List Node) : held element (Function.update lists index list) =
    (list.map (element index) : Multiset Element) +
      ∑ other ∈ Finset.univ \ {index}, ((lists other).map (element other) : Multiset Element) := by
  rw [held, ← Finset.sum_update_of_mem (Finset.mem_univ index)]
  congr 1
  funext other
  exact Function.apply_update (fun index list => ((list.map (element index) : List Element) : Multiset Element)) lists
    index list other

theorem held_cons (rest : List Node) : held element (Function.update lists index (node :: rest)) =
    element index node ::ₘ held element (Function.update lists index rest) := by
  rw [held_update, held_update, List.map_cons, ← Multiset.cons_coe, Multiset.cons_add]

theorem held_pop {rest : List Node} (list : lists index = node :: rest) :
    held element lists = element index node ::ₘ held element (Function.update lists index rest) := by
  rw [← held_cons, ← list, Function.update_eq_self]

theorem held_push : held element (Function.update lists index (node :: lists index)) =
    element index node ::ₘ held element lists := by
  rw [held_cons, Function.update_eq_self]

end Family

/-- `size` addresses from `start` on. -/
structure Block where
  start : Nat
  size : Nat
  deriving DecidableEq

namespace Block

variable {first second : Block} {start size larger : Nat}

def span (block : Block) : Set Nat := Set.Ico block.start (block.start + block.size)

/-- No address in common. -/
def Apart (first second : Block) : Prop := Disjoint first.span second.span

instance : Std.Symm Apart := ⟨fun _ _ apart => Disjoint.symm apart⟩

structure Within (first second : Block) : Prop where
  above : second.start ≤ first.start
  below : first.start + first.size ≤ second.start + second.size

theorem Within.span (within : first.Within second) : first.span ⊆ second.span :=
  Set.Ico_subset_Ico within.above within.below

theorem Within.trans {third : Block} (inner : first.Within second) (outer : second.Within third) : first.Within third :=
  ⟨outer.above.trans inner.above, inner.below.trans outer.below⟩

/-- Blocks one behind the other. -/
theorem apart_of_le (order : first.start + first.size ≤ second.start) : first.Apart second :=
  Set.disjoint_left.mpr fun _ inside within => absurd (inside.2.trans_le order) (Nat.not_lt.mpr within.1)

theorem Apart.ne (apart : first.Apart second) (sized : 0 < first.size) : first ≠ second := by
  rintro rfl
  have member : first.start ∈ first.span := ⟨Nat.le_refl _, Nat.lt_add_of_pos_right sized⟩
  exact Set.disjoint_left.mp apart member member

theorem pairwise_cut {whole : Block} {others pieces : Multiset Block} (pairwise : (whole ::ₘ others).Pairwise Apart)
    (within : ∀ piece ∈ pieces, piece.Within whole) (apart : pieces.Pairwise Apart) : (pieces + others).Pairwise Apart := by
  obtain ⟨around, rest⟩ := pairwise_cons.mp pairwise
  refine pairwise_add.mpr ⟨apart, rest, fun piece member other listed => ?_⟩
  exact Disjoint.mono_left (within piece member).span (around other listed)

theorem span_mono (fits : size ≤ larger) : (⟨start, size⟩ : Block).span ⊆ (⟨start, larger⟩ : Block).span :=
  Set.Ico_subset_Ico_right (Nat.add_le_add_left fits start)

end Block

end Zephyr.Region
