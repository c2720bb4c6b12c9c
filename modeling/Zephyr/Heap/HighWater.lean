import Zephyr.Heap.Partition
import Zephyr.Transition.Peak

/-! How much the kernel heap takes from the heap below. Blocks of the nine sizes never go back
there; so many of a size are taken as were ever in use at one time. -/

namespace Zephyr

open Region Transition

variable {Heap : Type}

namespace KernelHeap

def inUse (index : BlockIndex) (heap : KernelHeap Heap) : Nat :=
  heap.live.countP fun allocation => findBlockIndex allocation.layout = some index

/-- The blocks of the size that the heap below has handed out. -/
def taken (index : BlockIndex) (heap : KernelHeap Heap) (free : BlockIndex → List NonNull) : Nat :=
  heap.inUse index + (free index).length

section Steps

variable {fallback : FallbackHeap Heap} {region : Block} {heap after : KernelHeap Heap}
variable {free : BlockIndex → List NonNull} {layout : Layout} {index own : BlockIndex} {node : NonNull}
variable {rest : List NonNull} {call : HeapCall}

def Takes (index : BlockIndex) (heap : KernelHeap Heap) (free : BlockIndex → List NonNull) (after : KernelHeap Heap)
    (lists : BlockIndex → List NonNull) : Prop :=
  after.taken index lists = heap.taken index free ∨
    after.taken index lists = heap.taken index free + 1 ∧ lists index = []

theorem inUse_cons_some (more : after.live = ⟨node, layout⟩ ::ₘ heap.live) (found : findBlockIndex layout = some own) :
    after.inUse index = heap.inUse index + if own = index then 1 else 0 := by
  rw [inUse, more, Multiset.countP_cons]
  simp only [found, Option.some.injEq]
  rfl

theorem inUse_cons_none (more : after.live = ⟨node, layout⟩ ::ₘ heap.live) (found : findBlockIndex layout = none) :
    after.inUse index = heap.inUse index := by
  rw [inUse, more, Multiset.countP_cons_of_neg]
  · rfl
  · simp [found]

theorem Partition.stepAlloc (partition : Partition fallback region heap free) (sized : 0 < layout.size)
    (performed : heap.perform fallback (.alloc layout) = .ok after) :
    ∃ lists, Partition fallback region after lists ∧ ∀ index, Takes index heap free after lists := by
  by_cases listed : ∃ own node, findBlockIndex layout = some own ∧ heap.allocator.listHeads own = some node
  · obtain ⟨own, node, found, head⟩ := listed
    obtain ⟨rest, list, taken⟩ := partition.take found head
    simp only [KernelHeap.perform, FixedSizeBlockAllocator.alloc_listed found head, Except.ok.injEq] at performed
    subst performed
    rw [Allocation.issued_ptr, Multiset.singleton_add]
    refine ⟨_, taken, fun index => .inl ?_⟩
    rw [KernelHeap.taken, KernelHeap.taken, inUse_cons_some rfl found]
    by_cases same : own = index
    · subst same
      rw [if_pos rfl, Function.update_self, list, List.length_cons]
      omega
    · rw [if_neg same, Function.update_of_ne (Ne.symm same), Nat.add_zero]
  · have unlisted : ∀ own, findBlockIndex layout = some own → heap.allocator.listHeads own = none := by
      intro own found
      exact Option.eq_none_iff_forall_ne_some.mpr fun node head => listed ⟨own, node, found, head⟩
    simp only [KernelHeap.perform, FixedSizeBlockAllocator.alloc_reserved unlisted] at performed
    generalize returned : heap.allocator.fallbackAllocation fallback heap.memory layout.reserved = result at performed
    obtain ⟨ptr, allocator, memory⟩ := result
    cases performed
    refine ⟨free, partition.fallbackAllocation sized returned, fun index => ?_⟩
    cases pointer : NonNull.new ptr with
    | none =>
      left
      rw [KernelHeap.taken, KernelHeap.taken, inUse, inUse, Allocation.issued, pointer, Multiset.zero_add]
    | some node =>
      rw [Takes, KernelHeap.taken, KernelHeap.taken, Allocation.issued, pointer, Multiset.singleton_add]
      cases found : findBlockIndex layout with
      | none =>
        left
        rw [inUse_cons_none rfl found]
      | some own =>
        rw [inUse_cons_some rfl found]
        by_cases same : own = index
        · subst same
          have chain := partition.lists own
          rw [unlisted own found] at chain
          have empty : free own = [] := by
            cases list : free own with
            | nil => rfl
            | cons first rest =>
              rw [list] at chain
              exact absurd chain.1 (by simp)
          right
          rw [if_pos rfl]
          exact ⟨by omega, empty⟩
        · left
          rw [if_neg same, Nat.add_zero]

theorem Partition.stepDealloc (partition : Partition fallback region heap free) (member : ⟨node, layout⟩ ∈ heap.live)
    (performed : heap.perform fallback (.dealloc node.ptr layout) = .ok after) :
    ∃ lists, Partition fallback region after lists ∧ ∀ index, Takes index heap free after lists := by
  obtain ⟨others, live⟩ := Multiset.exists_cons_of_mem member
  have rest : heap.live - Allocation.issued node.ptr layout = others := by
    rw [Allocation.issued_ptr, live, Multiset.sub_singleton, Multiset.erase_cons_head]
  cases found : findBlockIndex layout with
  | some own =>
    simp only [KernelHeap.perform, FixedSizeBlockAllocator.dealloc_listed found, rest, Except.ok.injEq] at performed
    have fewer (index : BlockIndex) : heap.inUse index = after.inUse index + if own = index then 1 else 0 :=
      inUse_cons_some (live.trans (by rw [← performed])) found
    subst performed
    refine ⟨_, partition.give found live, fun index => .inl ?_⟩
    rw [KernelHeap.taken, KernelHeap.taken, fewer]
    by_cases same : own = index
    · subst same
      rw [if_pos rfl, Function.update_self, List.length_cons]
      omega
    · rw [if_neg same, Function.update_of_ne (Ne.symm same), Nat.add_zero]
  | none =>
    simp only [KernelHeap.perform, FixedSizeBlockAllocator.dealloc_unlisted found, rest, Except.ok.injEq] at performed
    have same (index : BlockIndex) : heap.inUse index = after.inUse index :=
      inUse_cons_none (live.trans (by rw [← performed])) found
    subst performed
    refine ⟨free, partition.deallocate found live rfl, fun index => .inl ?_⟩
    rw [KernelHeap.taken, KernelHeap.taken, same]

theorem Partition.step (partition : Partition fallback region heap free) (step : Step fallback region heap call after) :
    ∃ lists, Partition fallback region after lists ∧ ∀ index, Takes index heap free after lists := by
  obtain ⟨legal, performed⟩ := step
  cases call with
  | alloc layout => exact partition.stepAlloc legal performed
  | dealloc ptr layout =>
    obtain ⟨node, pointer, member⟩ := legal
    obtain rfl := NonNull.ptr_of_new pointer
    exact partition.stepDealloc member performed
  | store addr value =>
    cases performed
    exact ⟨free, partition.store value legal, fun index => .inl rfl⟩

end Steps

section Runs

variable {fallback : FallbackHeap Heap} {region : Block} {memory : Nat → BitVec 8} {calls : List HeapCall}
variable {heap : KernelHeap Heap}

theorem step_deterministic {before after other : KernelHeap Heap} {call : HeapCall}
    (one : Step fallback region before call after) (two : Step fallback region before call other) : after = other :=
  Except.ok.inj (one.2.symm.trans two.2)

/-- However blocks are allocated and given back: of each of the nine sizes exactly as many blocks
are in use or on the list of the size as were ever in use at one time. A list is used up before
the heap below is asked, and no block of these sizes goes back there. -/
theorem blocks_taken_is_peak_in_use
    (run : Run (Step fallback region) (start fallback region memory) calls heap) :
    ∃ free, Separated region heap free ∧ ∀ index, Peak (Step fallback region) (start fallback region memory)
      (inUse index) calls (heap.inUse index + (free index).length) := by
  have kept : ∃ free, Partition fallback region heap free ∧ ∀ index, Peak (Step fallback region)
      (start fallback region memory) (inUse index) calls (heap.taken index free) := by
    induction run with
    | nil => exact ⟨_, partition_start fallback region memory, fun index => .nil⟩
    | @snoc _ _ final _ earlier last ih =>
      obtain ⟨free, partition, peaks⟩ := ih
      obtain ⟨lists, after, takes⟩ := partition.step last
      refine ⟨lists, after, fun index => ?_⟩
      have below : final.inUse index ≤ final.taken index lists := Nat.le_add_right _ _
      rcases takes index with same | ⟨more, empty⟩
      · exact (peaks index).snoc earlier last step_deterministic (Nat.le_of_eq same.symm) below (.inl same.symm)
      · refine (peaks index).snoc earlier last step_deterministic ?_ below (.inr ?_)
        · rw [more]
          exact Nat.le_succ _
        · rw [KernelHeap.taken, empty]
          rfl
  obtain ⟨free, partition, peaks⟩ := kept
  exact ⟨free, partition.separated, peaks⟩

private def threeWords : Layout := ⟨24, 8, Layout.powerOfTwo_eight, by decide⟩

private def lowBlock : NonNull := ⟨0x444444441000, by decide⟩

private def highBlock : NonNull := ⟨0x444444441020, by decide⟩

private def heapRegion : Block := ⟨0x444444441000, 300 * 1024⟩

/-- The calls of three uses of two blocks. -/
private def threeUses : List HeapCall :=
  [.alloc threeWords, .alloc threeWords, .dealloc lowBlock.ptr threeWords, .alloc threeWords]

private def lowLive : KernelHeap (Nat × Nat) :=
  ⟨⟨fun _ => none, (0x444444441020, 0x44444448C000)⟩, fun _ => 0, {⟨lowBlock, threeWords⟩}⟩

private def highLive : KernelHeap (Nat × Nat) :=
  ⟨⟨fun _ => none, (0x444444441040, 0x44444448C000)⟩, fun _ => 0, {⟨highBlock, threeWords⟩, ⟨lowBlock, threeWords⟩}⟩

private def lowBack : KernelHeap (Nat × Nat) :=
  ⟨⟨Function.update (fun _ => none) ⟨2, by decide⟩ (some lowBlock), (0x444444441040, 0x44444448C000)⟩,
    writeNode (fun _ => 0) lowBlock.ptr none, {⟨highBlock, threeWords⟩}⟩

/-- Two blocks serve three uses, one of them two after the other. -/
theorem blocks_taken_is_peak_in_use_again : ∃ heap : KernelHeap (Nat × Nat),
    Run (Step bumping heapRegion) (start bumping heapRegion fun _ => 0) threeUses heap ∧
    ∃ free, Separated heapRegion heap free ∧ ∀ index, Peak (Step bumping heapRegion)
      (start bumping heapRegion fun _ => 0) (inUse index) threeUses (heap.inUse index + (free index).length) := by
  have one : Step bumping heapRegion (start bumping heapRegion fun _ => 0) (.alloc threeWords) lowLive :=
    ⟨(by decide : 0 < 24), rfl⟩
  have two : Step bumping heapRegion lowLive (.alloc threeWords) highLive := ⟨(by decide : 0 < 24), rfl⟩
  have three : Step bumping heapRegion highLive (.dealloc lowBlock.ptr threeWords) lowBack :=
    ⟨⟨lowBlock, NonNull.new_ptr _, Multiset.mem_cons_of_mem (Multiset.mem_singleton_self _)⟩, rfl⟩
  have four : Step bumping heapRegion lowBack (.alloc threeWords) _ := ⟨(by decide : 0 < 24), rfl⟩
  have run := Run.cons one (.cons two (.cons three (.cons four .nil)))
  exact ⟨_, run, blocks_taken_is_peak_in_use run⟩

end Runs

end KernelHeap

end Zephyr
