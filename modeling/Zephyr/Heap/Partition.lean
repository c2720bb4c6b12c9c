import Mathlib.Data.Fintype.Basic
import Zephyr.Heap.FixedSizeBlock

/-! The kernel heap over whole runs. Its blocks are in one pool: those in use, and those
on the lists. A call moves one block between the two, or takes one from the heap below or
gives it back. -/

namespace Zephyr

open Region Transition

variable {Heap : Type}

/-- The allocator, the memory of the heap and, as a ghost, the blocks in use. -/
structure KernelHeap (Heap : Type) where
  allocator : FixedSizeBlockAllocator Heap
  memory : Nat → BitVec 8
  live : Multiset Allocation

/-- What the kernel does with its heap; the owner of a block may write its bytes. -/
inductive HeapCall where
  | alloc (layout : Layout)
  | dealloc (ptr : BitVec 64) (layout : Layout)
  | store (addr : Nat) (value : BitVec 8)

/-- The block behind a pointer that `alloc` returned. -/
def Allocation.issued (ptr : BitVec 64) (layout : Layout) : Multiset Allocation :=
  match NonNull.new ptr with
  | none => 0
  | some node => {⟨node, layout⟩}

theorem Allocation.issued_null (layout : Layout) : issued 0 layout = 0 := rfl

theorem Allocation.issued_ptr (node : NonNull) (layout : Layout) : issued node.ptr layout = {⟨node, layout⟩} := by
  rw [issued, NonNull.new_ptr]

namespace KernelHeap

/-- `init_heap` on a region. -/
def start (fallback : FallbackHeap Heap) (region : Block) (memory : Nat → BitVec 8) : KernelHeap Heap :=
  let (allocator, memory) := (FixedSizeBlockAllocator.new fallback).init fallback memory region
  ⟨allocator, memory, 0⟩

/-- Layouts are not empty, blocks are given back once and with their layout, and nobody
writes in the heap outside the blocks in use. -/
def Legal (region : Block) (heap : KernelHeap Heap) : HeapCall → Prop
  | .alloc layout => 0 < layout.size
  | .dealloc ptr layout => ∃ node, NonNull.new ptr = some node ∧ ⟨node, layout⟩ ∈ heap.live
  | .store addr _ => addr ∈ region.span → ∃ allocation ∈ heap.live, addr ∈ allocation.block.span

def perform (fallback : FallbackHeap Heap) (heap : KernelHeap Heap) : HeapCall → Except Panic (KernelHeap Heap)
  | .alloc layout =>
    match heap.allocator.alloc fallback heap.memory layout with
    | .error panic => .error panic
    | .ok (ptr, allocator, memory) =>
      .ok ⟨allocator, memory, Allocation.issued ptr layout + heap.live⟩
  | .dealloc ptr layout =>
    match heap.allocator.dealloc fallback heap.memory ptr layout with
    | .error panic => .error panic
    | .ok (allocator, memory) =>
      .ok ⟨allocator, memory, heap.live - Allocation.issued ptr layout⟩
  | .store addr value => .ok { heap with memory := Function.update heap.memory addr value }

def Step (fallback : FallbackHeap Heap) (region : Block) (before : KernelHeap Heap) (call : HeapCall)
    (after : KernelHeap Heap) : Prop :=
  before.Legal region call ∧ before.perform fallback call = .ok after

def freeBlock (index : BlockIndex) (node : NonNull) : Allocation := ⟨node, .block index⟩

/-- Every block the heap below has handed out. -/
def pool (live : Multiset Allocation) (free : BlockIndex → List NonNull) : Multiset Allocation :=
  live.map Allocation.reserved + held freeBlock free

/-- The lists hold `free`, and with the blocks in use they are what the heap below has
outstanding. -/
structure Partition (fallback : FallbackHeap Heap) (region : Block) (heap : KernelHeap Heap)
    (free : BlockIndex → List NonNull) : Prop where
  lists : ∀ index, Chain (nextNode heap.memory) (heap.allocator.listHeads index) (free index)
  outstanding : fallback.Outstanding region heap.allocator.fallbackAllocator heap.memory (pool heap.live free)
  placed : ∀ allocation ∈ pool heap.live free, allocation.Placed region
  apart : (pool heap.live free).Pairwise Allocation.Apart

section Pools

variable {live : Multiset Allocation} {free : BlockIndex → List NonNull} {allocation : Allocation} {index : BlockIndex}
variable {node : NonNull} {rest : List NonNull} {layout : Layout}

theorem pool_cons : pool (allocation ::ₘ live) free = allocation.reserved ::ₘ pool live free := by
  rw [pool, pool, Multiset.map_cons, Multiset.cons_add]

theorem pool_take (found : findBlockIndex layout = some index) (list : free index = node :: rest) :
    pool (⟨node, layout⟩ ::ₘ live) (Function.update free index rest) = pool live free := by
  rw [pool_cons, pool, pool, held_pop list, Multiset.add_cons]
  simp only [Allocation.reserved, Layout.reserved_some found, freeBlock]

/-- A block given back is on the list of its size. -/
theorem pool_give (found : findBlockIndex layout = some index) :
    pool live (Function.update free index (node :: free index)) = pool (⟨node, layout⟩ ::ₘ live) free := by
  rw [pool_cons, pool, pool, held_push, Multiset.add_cons]
  simp only [Allocation.reserved, Layout.reserved_some found, freeBlock]

theorem mem_pool_free (member : node ∈ free index) : freeBlock index node ∈ pool live free :=
  Multiset.mem_add.mpr (.inr (mem_held.mpr ⟨index, node, member, rfl⟩))

theorem mem_pool_live (member : allocation ∈ live) : allocation.reserved ∈ pool live free :=
  Multiset.mem_add.mpr (.inl (Multiset.mem_map_of_mem _ member))

theorem span_node (index : BlockIndex) (node : NonNull) :
    (⟨node.addr, listNodeSize⟩ : Block).span ⊆ (freeBlock index node).block.span :=
  Block.span_mono (listNode_fits index).1

end Pools

section Steps

variable {fallback : FallbackHeap Heap} {region : Block} {heap : KernelHeap Heap} {free : BlockIndex → List NonNull}
variable {layout : Layout} {index : BlockIndex} {node : NonNull} {rest : List NonNull} {memory : Nat → BitVec 8}

theorem chain_of_kept {live : Multiset Allocation} {head : Option NonNull} {nodes : List NonNull}
    (chain : Chain (nextNode heap.memory) head nodes) (kept : BytesKept (pool live free) heap.memory memory)
    (list : free index = nodes) : Chain (nextNode memory) head nodes :=
  chain.congr fun node member => (nextNode_congr fun byte inside =>
    kept _ (mem_pool_free (list ▸ member)) byte (span_node index node inside)).symm

/-- Writes that stay in one block of the pool leave the others alone. -/
theorem kept_of_apart {before : Nat → BitVec 8} {block : Allocation} {others : Multiset Allocation}
    (pairwise : (block ::ₘ others).Pairwise Allocation.Apart)
    (outside : ∀ byte ∉ block.block.span, memory byte = before byte) : BytesKept others before memory := by
  intro allocation member byte inside
  refine outside byte fun both => ?_
  exact Set.disjoint_left.mp ((pairwise_cons.mp pairwise).1 allocation member) both inside

/-- Blocks change hands, and one of them is written. The heap below does not see it. -/
theorem Partition.rearrange (partition : Partition fallback region heap free) {block : Allocation}
    {live : Multiset Allocation} {lists : BlockIndex → List NonNull} {heads : BlockIndex → Option NonNull}
    (same : pool live lists = pool heap.live free) (member : block ∈ pool heap.live free)
    (outside : ∀ byte ∉ block.block.span, memory byte = heap.memory byte)
    (chains : ∀ index, Chain (nextNode memory) (heads index) (lists index)) :
    Partition fallback region ⟨{ heap.allocator with listHeads := heads }, memory, live⟩ lists where
  lists := chains
  outstanding := by
    rw [same]
    exact fallback.stable partition.outstanding fun byte _ free => outside byte (free block member)
  placed := by
    rw [same]
    exact partition.placed
  apart := by
    rw [same]
    exact partition.apart

theorem partition_start (fallback : FallbackHeap Heap) (region : Block) (memory : Nat → BitVec 8) :
    Partition fallback region (start fallback region memory) (fun _ => []) where
  lists _ := rfl
  outstanding := by
    have empty : pool 0 (fun _ => []) = 0 := by simp [pool]
    change fallback.Outstanding _ _ _ (pool 0 fun _ => [])
    rw [empty]
    exact fallback.initialised memory region
  placed := by simp [pool, start]
  apart := by
    have empty : pool 0 (fun _ => []) = 0 := by simp [pool]
    change (pool 0 fun _ => []).Pairwise Allocation.Apart
    rw [empty]
    exact Multiset.pairwise_zero _

theorem writeNode_reserved (found : findBlockIndex layout = some index) (next : Option NonNull) (byte : Nat)
    (outside : byte ∉ (⟨node, layout⟩ : Allocation).reserved.block.span) :
    writeNode memory node.ptr next byte = memory byte := by
  refine writeNode_outside fun inside => outside ?_
  rw [Allocation.reserved, Layout.reserved_some found]
  exact span_node index node inside

theorem Partition.take (partition : Partition fallback region heap free) (found : findBlockIndex layout = some index)
    (head : heap.allocator.listHeads index = some node) : ∃ rest, free index = node :: rest ∧ Partition fallback region
      ⟨{ heap.allocator with listHeads := Function.update heap.allocator.listHeads index (nextNode heap.memory node) },
        writeNode heap.memory node.ptr none, ⟨node, layout⟩ ::ₘ heap.live⟩ (Function.update free index rest) := by
  have chain := partition.lists index
  cases list : free index with
  | nil =>
    rw [list, head] at chain
    cases chain
  | cons first rest =>
    rw [list, head] at chain
    obtain ⟨same, tail⟩ := chain
    obtain rfl := Option.some.inj same
    have moved : pool (⟨node, layout⟩ ::ₘ heap.live) (Function.update free index rest) = pool heap.live free :=
      pool_take found list
    have pairwise := partition.apart
    rw [← moved, pool_cons] at pairwise
    have kept : BytesKept _ heap.memory (writeNode heap.memory node.ptr none) :=
      kept_of_apart pairwise (writeNode_reserved found none)
    have member : (⟨node, layout⟩ : Allocation).reserved ∈ pool heap.live free := by
      rw [← moved, pool_cons]
      exact Multiset.mem_cons_self _ _
    refine ⟨rest, rfl, partition.rearrange moved member (writeNode_reserved found none) (chains_update ?_ ?_)⟩
    · exact fun other differs => chain_of_kept (partition.lists other) kept (Function.update_of_ne differs _ _)
    · exact chain_of_kept tail kept (Function.update_self _ _ _)

theorem Partition.give (partition : Partition fallback region heap free) {others : Multiset Allocation}
    (found : findBlockIndex layout = some index) (live : heap.live = ⟨node, layout⟩ ::ₘ others) :
    Partition fallback region
      ⟨{ heap.allocator with listHeads := Function.update heap.allocator.listHeads index (some node) },
        writeNode heap.memory node.ptr (heap.allocator.listHeads index), others⟩
      (Function.update free index (node :: free index)) := by
  have moved : pool others (Function.update free index (node :: free index)) = pool heap.live free := by
    rw [live]
    exact pool_give found
  have pairwise := partition.apart
  rw [live, pool_cons] at pairwise
  have kept : BytesKept _ heap.memory (writeNode heap.memory node.ptr (heap.allocator.listHeads index)) :=
    kept_of_apart pairwise (writeNode_reserved found _)
  have member : (⟨node, layout⟩ : Allocation).reserved ∈ pool heap.live free :=
    mem_pool_live (live ▸ Multiset.mem_cons_self _ _)
  refine partition.rearrange moved member (writeNode_reserved found _) (chains_update ?_ ⟨rfl, ?_⟩)
  · exact fun other _ => chain_of_kept (partition.lists other) kept rfl
  · rw [nextNode_writeNode]
    exact chain_of_kept (partition.lists index) kept rfl

theorem Partition.fallbackAllocation (partition : Partition fallback region heap free) (sized : 0 < layout.size)
    {ptr : BitVec 64} {allocator : FixedSizeBlockAllocator Heap}
    (returned : heap.allocator.fallbackAllocation fallback heap.memory layout.reserved = (ptr, allocator, memory)) :
    Partition fallback region
      ⟨allocator, memory, Allocation.issued ptr layout + heap.live⟩ free := by
  have reserved : 0 < layout.reserved.size := sized.trans_le layout.size_le_reserved
  unfold FixedSizeBlockAllocator.fallbackAllocation at returned
  split at returned
  · rename_i node below bytes given
    cases returned
    obtain ⟨outstanding, kept, placed, apart⟩ := fallback.allocated partition.outstanding reserved given
    rw [Allocation.issued_ptr, Multiset.singleton_add]
    refine ⟨fun index => chain_of_kept (partition.lists index) kept rfl, ?_, ?_, ?_⟩
    · rw [pool_cons]
      exact outstanding
    · rw [pool_cons]
      exact Multiset.forall_mem_cons.mpr ⟨placed, partition.placed⟩
    · rw [pool_cons]
      exact pairwise_cons.mpr ⟨apart, partition.apart⟩
  · rename_i below bytes refused
    cases returned
    obtain ⟨outstanding, kept⟩ := fallback.refused partition.outstanding reserved refused
    rw [Allocation.issued_null, Multiset.zero_add]
    exact ⟨fun index => chain_of_kept (partition.lists index) kept rfl, outstanding, partition.placed, partition.apart⟩

theorem Partition.deallocate (partition : Partition fallback region heap free) {others : Multiset Allocation}
    (found : findBlockIndex layout = none) (live : heap.live = ⟨node, layout⟩ ::ₘ others) {below : Heap}
    (returned : fallback.deallocate heap.allocator.fallbackAllocator heap.memory node layout = (below, memory)) :
    Partition fallback region ⟨{ heap.allocator with fallbackAllocator := below }, memory, others⟩ free := by
  obtain ⟨lists, outstanding, placed, apart⟩ := partition
  rw [live, pool_cons, Allocation.reserved, Layout.reserved_none found] at outstanding placed apart
  obtain ⟨after, kept⟩ := fallback.deallocated outstanding returned
  exact ⟨fun index => chain_of_kept (lists index) kept rfl, after, (Multiset.forall_mem_cons.mp placed).2,
    (pairwise_cons.mp apart).2⟩

/-- A write in a block in use, or outside the heap. -/
theorem Partition.store (partition : Partition fallback region heap free) {addr : Nat} (value : BitVec 8)
    (legal : heap.Legal region (.store addr value)) :
    Partition fallback region { heap with memory := Function.update heap.memory addr value } free := by
  have outside : ∀ allocation ∈ held freeBlock free, addr ∉ allocation.block.span := by
    intro allocation member inside
    obtain ⟨owner, owned, within⟩ := legal ((partition.placed _ (Multiset.mem_add.mpr (.inr member))).inside inside)
    have apart := (pairwise_add.mp partition.apart).2.2 _ (Multiset.mem_map_of_mem _ owned) _ member
    exact Set.disjoint_left.mp apart (owner.span_reserved within) inside
  refine ⟨fun index => (partition.lists index).congr fun node member => (nextNode_congr fun byte inside => ?_).symm, ?_,
    partition.placed, partition.apart⟩
  · refine Function.update_of_ne (fun same => ?_) _ _
    subst same
    exact outside _ (mem_held.mpr ⟨index, node, member, rfl⟩) (span_node index node inside)
  · refine fallback.stable partition.outstanding fun byte inside free => Function.update_of_ne (fun same => ?_) _ _
    subst same
    obtain ⟨owner, owned, within⟩ := legal inside
    exact free _ (mem_pool_live owned) (owner.span_reserved within)

theorem Partition.alloc (partition : Partition fallback region heap free) (sized : 0 < layout.size) :
    ∃ ptr allocator memory, heap.allocator.alloc fallback heap.memory layout = .ok (ptr, allocator, memory) ∧
      ∃ free, Partition fallback region ⟨allocator, memory, Allocation.issued ptr layout + heap.live⟩ free := by
  by_cases listed : ∃ index node, findBlockIndex layout = some index ∧ heap.allocator.listHeads index = some node
  · obtain ⟨index, node, found, head⟩ := listed
    refine ⟨_, _, _, FixedSizeBlockAllocator.alloc_listed found head, ?_⟩
    rw [Allocation.issued_ptr, Multiset.singleton_add]
    obtain ⟨rest, _, taken⟩ := partition.take found head
    exact ⟨_, taken⟩
  · refine ⟨_, _, _, FixedSizeBlockAllocator.alloc_reserved ?_, free, partition.fallbackAllocation sized rfl⟩
    intro index found
    refine Option.eq_none_iff_forall_ne_some.mpr fun node head => listed ⟨index, node, found, head⟩

theorem Partition.dealloc (partition : Partition fallback region heap free) (member : ⟨node, layout⟩ ∈ heap.live) :
    ∃ allocator memory, heap.allocator.dealloc fallback heap.memory node.ptr layout = .ok (allocator, memory) ∧
      ∃ free, Partition fallback region ⟨allocator, memory, heap.live - Allocation.issued node.ptr layout⟩ free := by
  obtain ⟨others, live⟩ := Multiset.exists_cons_of_mem member
  have rest : heap.live - Allocation.issued node.ptr layout = others := by
    rw [Allocation.issued_ptr, live, Multiset.sub_singleton, Multiset.erase_cons_head]
  rw [rest]
  cases found : findBlockIndex layout with
  | some index => exact ⟨_, _, FixedSizeBlockAllocator.dealloc_listed found, _, partition.give found live⟩
  | none => exact ⟨_, _, FixedSizeBlockAllocator.dealloc_unlisted found, free, partition.deallocate found live rfl⟩

theorem Partition.perform (partition : Partition fallback region heap free) {call : HeapCall}
    (legal : heap.Legal region call) :
    ∃ after, heap.perform fallback call = .ok after ∧ ∃ free, Partition fallback region after free := by
  cases call with
  | alloc layout =>
    obtain ⟨ptr, allocator, memory, returned, kept⟩ := partition.alloc legal
    exact ⟨_, by simp only [KernelHeap.perform, returned], kept⟩
  | dealloc ptr layout =>
    obtain ⟨node, pointer, member⟩ := legal
    obtain rfl := NonNull.ptr_of_new pointer
    obtain ⟨allocator, memory, returned, kept⟩ := partition.dealloc member
    exact ⟨_, by simp only [KernelHeap.perform, returned], kept⟩
  | store addr value => exact ⟨_, rfl, free, partition.store value legal⟩

end Steps

/-- The lists hold `free`; their blocks and the blocks in use are in place, and no two of
them have a byte in common. -/
structure Separated (region : Block) (heap : KernelHeap Heap) (free : BlockIndex → List NonNull) : Prop where
  lists : ∀ index, Chain (nextNode heap.memory) (heap.allocator.listHeads index) (free index)
  livePlaced : ∀ allocation ∈ heap.live, allocation.Placed region
  freePlaced : ∀ index, ∀ node ∈ free index, (freeBlock index node).Placed region
  apart : (heap.live + held freeBlock free).Pairwise Allocation.Apart

section Runs

variable {fallback : FallbackHeap Heap} {region : Block} {memory : Nat → BitVec 8} {calls : List HeapCall}
variable {heap : KernelHeap Heap} {free : BlockIndex → List NonNull}

theorem Partition.separated (partition : Partition fallback region heap free) : Separated region heap free where
  lists := partition.lists
  livePlaced _ member := .of_reserved (partition.placed _ (mem_pool_live member))
  freePlaced _ _ member := partition.placed _ (mem_pool_free member)
  apart := by
    obtain ⟨live, free, between⟩ := pairwise_add.mp partition.apart
    refine pairwise_add.mpr ⟨pairwise_of_map live fun one two apart => ?_, free, fun one member two other => ?_⟩
    · exact Disjoint.mono one.span_reserved two.span_reserved apart
    · exact Disjoint.mono_left one.span_reserved (between _ (Multiset.mem_map_of_mem _ member) two other)

theorem partition_of_run (run : Run (Step fallback region) (start fallback region memory) calls heap) :
    ∃ free, Partition fallback region heap free := by
  induction run with
  | nil => exact ⟨_, partition_start fallback region memory⟩
  | snoc earlier last ih =>
    obtain ⟨free, partition⟩ := ih
    obtain ⟨after, returned, kept⟩ := partition.perform last.1
    obtain rfl := Except.ok.inj (last.2.symm.trans returned)
    exact kept

/-- Whatever was allocated, freed and written before: no two blocks overlap, `alloc`
returns null or a block that is in place and overlaps no block in use, and no legal call
panics. -/
theorem blocks_never_overlap (run : Run (Step fallback region) (start fallback region memory) calls heap) :
    (∃! free, Separated region heap free) ∧
    (∀ layout, 0 < layout.size → ∃ ptr allocator bytes,
      heap.allocator.alloc fallback heap.memory layout = .ok (ptr, allocator, bytes) ∧
      ∀ node, NonNull.new ptr = some node → (⟨node, layout⟩ : Allocation).Placed region ∧
        ∀ other ∈ heap.live, (⟨node, layout⟩ : Allocation).Apart other) ∧
    ∀ call, heap.Legal region call → ∃ after, heap.perform fallback call = .ok after := by
  obtain ⟨free, partition⟩ := partition_of_run run
  refine ⟨⟨free, partition.separated, fun other also => ?_⟩, fun layout sized => ?_, fun call legal => ?_⟩
  · exact funext fun index => (also.lists index).unique (partition.lists index)
  · obtain ⟨ptr, allocator, bytes, returned, lists, next⟩ := partition.alloc sized
    refine ⟨ptr, allocator, bytes, returned, fun node pointer => ?_⟩
    obtain ⟨_, live, _, apart⟩ := next.separated
    simp only [Allocation.issued, pointer, Multiset.singleton_add] at live apart
    rw [Multiset.cons_add, pairwise_cons] at apart
    exact ⟨live _ (Multiset.mem_cons_self _ _), fun other member => apart.1 other (Multiset.mem_add.mpr (.inl member))⟩
  · obtain ⟨after, returned, _⟩ := partition.perform legal
    exact ⟨after, returned⟩

end Runs

section Examples

/-- The first address from `next` on with this alignment. -/
private def roundUp (next align : Nat) : Nat := (next + align - 1) / align * align

private theorem le_roundUp {next align : Nat} (positive : 0 < align) : next ≤ roundUp next align := by
  have step := Nat.lt_div_mul_add positive (a := next + align - 1)
  unfold roundUp
  omega

/-- The block above the last one, up to the end of the heap. -/
private def nextBlock (heap : Nat × Nat) (memory : Nat → BitVec 8) (layout : Layout) :
    Option NonNull × (Nat × Nat) × (Nat → BitVec 8) :=
  let start := roundUp heap.1 layout.align
  if fits : BitVec.ofNat 64 start ≠ 0 ∧ start < 2 ^ 64 ∧ start + layout.size ≤ heap.2 then
    (some ⟨BitVec.ofNat 64 start, fits.1⟩, (start + layout.size, heap.2), memory)
  else (none, heap, memory)

/-- All blocks in use are below the next one. -/
private structure Bumped (region : Block) (heap : Nat × Nat) (out : Multiset Allocation) : Prop where
  least : region.start ≤ heap.1
  limit : heap.2 = region.start + region.size
  below : ∀ allocation ∈ out, allocation.ptr.addr + allocation.layout.size ≤ heap.1

section Bumped

variable {region : Block} {heap after : Nat × Nat} {memory bytes : Nat → BitVec 8} {out : Multiset Allocation}
variable {layout : Layout} {ptr : NonNull}

private theorem nextBlock_some (given : nextBlock heap memory layout = (some ptr, after, bytes)) :
    ptr.addr = roundUp heap.1 layout.align ∧ heap.1 ≤ ptr.addr ∧ ptr.addr + layout.size ≤ heap.2 ∧
      after = (ptr.addr + layout.size, heap.2) ∧ bytes = memory := by
  have positive : 0 < layout.align := by
    rw [layout.powerOfTwo]
    exact Nat.two_pow_pos _
  unfold nextBlock at given
  dsimp only at given
  split at given
  · rename_i fits
    cases given
    obtain ⟨_, small, room⟩ := fits
    have addr : (BitVec.ofNat 64 (roundUp heap.1 layout.align)).toNat = roundUp heap.1 layout.align := by
      rw [BitVec.toNat_ofNat, Nat.mod_eq_of_lt small]
    rw [NonNull.addr, addr]
    exact ⟨rfl, le_roundUp positive, room, rfl, rfl⟩
  · cases given

private theorem nextBlock_none (refused : nextBlock heap memory layout = (none, after, bytes)) :
    after = heap ∧ bytes = memory := by
  unfold nextBlock at refused
  dsimp only at refused
  split at refused
  · cases refused
  · cases refused
    exact ⟨rfl, rfl⟩

private theorem Bumped.allocated (bumped : Bumped region heap out)
    (given : nextBlock heap memory layout = (some ptr, after, bytes)) :
    Bumped region after (⟨ptr, layout⟩ ::ₘ out) ∧ BytesKept out memory bytes ∧
      (⟨ptr, layout⟩ : Allocation).Placed region ∧ ∀ other ∈ out, (⟨ptr, layout⟩ : Allocation).Apart other := by
  obtain ⟨least, limit, below⟩ := bumped
  obtain ⟨addr, above, room, rfl, rfl⟩ := nextBlock_some given
  refine ⟨⟨?_, limit, Multiset.forall_mem_cons.mpr ⟨Nat.le_refl _, ?_⟩⟩, fun _ _ _ _ => rfl, ⟨?_, ?_⟩, ?_⟩
  · exact (least.trans above).trans (Nat.le_add_right _ _)
  · exact fun other member => (below other member).trans (above.trans (Nat.le_add_right _ _))
  · change layout.align ∣ ptr.addr
    rw [addr]
    exact Nat.dvd_mul_left _ _
  · change Set.Ico ptr.addr (ptr.addr + layout.size) ⊆ Set.Ico region.start _
    rw [← limit]
    exact Set.Ico_subset_Ico (least.trans above) room
  · intro other member
    refine Set.disjoint_left.mpr fun byte inside within => ?_
    exact absurd (within.2.trans_le ((below other member).trans above)) (Nat.not_lt.mpr inside.1)

end Bumped

/-- A heap that hands out what lies above its last block, and takes nothing back. -/
def bumping : FallbackHeap (Nat × Nat) where
  empty := (0, 0)
  init _ memory region := ((region.start, region.start + region.size), memory)
  allocateFirstFit := nextBlock
  deallocate heap memory _ _ := (heap, memory)
  Outstanding region heap _ out := Bumped region heap out
  initialised _ _ := ⟨Nat.le_refl _, rfl, nofun⟩
  allocated bumped _ given := bumped.allocated given
  refused bumped _ refused := by
    obtain ⟨rfl, rfl⟩ := nextBlock_none refused
    exact ⟨bumped, fun _ _ _ _ => rfl⟩
  deallocated bumped given := by
    cases given
    exact ⟨⟨bumped.least, bumped.limit, (Multiset.forall_mem_cons.mp bumped.below).2⟩, fun _ _ _ _ => rfl⟩
  stable bumped _ := bumped

private def kernelRegion : Block := ⟨0x444444440000, 300 * 1024⟩

private def words : Layout := ⟨16, 8, Layout.powerOfTwo_eight, by decide⟩

private def firstBlock : NonNull := ⟨0x444444440000, by decide⟩

private def secondBlock : NonNull := ⟨0x444444440010, by decide⟩

private def oneLive : KernelHeap (Nat × Nat) :=
  ⟨⟨fun _ => none, (0x444444440010, 0x44444448B000)⟩, fun _ => 0, {⟨firstBlock, words⟩}⟩

private def bothLive : KernelHeap (Nat × Nat) :=
  ⟨⟨fun _ => none, (0x444444440020, 0x44444448B000)⟩, fun _ => 0, {⟨secondBlock, words⟩, ⟨firstBlock, words⟩}⟩

private def oneBack : KernelHeap (Nat × Nat) :=
  ⟨⟨Function.update (fun _ => none) ⟨1, by decide⟩ (some firstBlock), (0x444444440020, 0x44444448B000)⟩,
    writeNode (fun _ => 0) firstBlock.ptr none, {⟨secondBlock, words⟩}⟩

/-- Two blocks are handed out, and the first is given back and handed out again from its
list. -/
theorem blocks_never_overlap_reused : ∃ heap : KernelHeap (Nat × Nat),
    Run (Step bumping kernelRegion) (start bumping kernelRegion fun _ => 0)
      [.alloc words, .alloc words, .dealloc firstBlock.ptr words, .alloc words] heap ∧
    heap.live = {⟨firstBlock, words⟩, ⟨secondBlock, words⟩} ∧ ∃! free, Separated kernelRegion heap free := by
  have one : Step bumping kernelRegion (start bumping kernelRegion fun _ => 0) (.alloc words) oneLive :=
    ⟨(by decide : 0 < 16), rfl⟩
  have two : Step bumping kernelRegion oneLive (.alloc words) bothLive := ⟨(by decide : 0 < 16), rfl⟩
  have three : Step bumping kernelRegion bothLive (.dealloc firstBlock.ptr words) oneBack :=
    ⟨⟨firstBlock, NonNull.new_ptr _, Multiset.mem_cons_of_mem (Multiset.mem_singleton_self _)⟩, rfl⟩
  have four : Step bumping kernelRegion oneBack (.alloc words) _ := ⟨(by decide : 0 < 16), rfl⟩
  have run := Run.cons one (.cons two (.cons three (.cons four .nil)))
  exact ⟨_, run, rfl, (blocks_never_overlap run).1⟩

end Examples

end KernelHeap

end Zephyr
