import Mathlib.Algebra.Group.Nat.Defs
import Zephyr.Mem.FrameAllocator
import Zephyr.Region.Nodes
import Zephyr.Region.Pool
import Zephyr.Transition.Run

/-! The kernel heap: nine lists of free blocks that run through the blocks themselves,
over a heap that serves what no list has. -/

namespace Zephyr

open Region Transition

/-- `core::alloc::Layout` with the checks of `from_size_align`. -/
structure Layout where
  size : Nat
  align : Nat
  powerOfTwo : align = 2 ^ align.log2
  fits : size + align ≤ 2 ^ 63
  deriving DecidableEq

theorem Layout.powerOfTwo_eight : 8 = 2 ^ Nat.log2 8 := by decide

def Layout.fromSizeAlign (size align : Nat) : Option Layout :=
  if valid : align = 2 ^ align.log2 ∧ size + align ≤ 2 ^ 63 then some ⟨size, align, valid.1, valid.2⟩ else none

/-- `NonNull<u8>`, and a reference to a node. -/
structure NonNull where
  ptr : BitVec 64
  nonNull : ptr ≠ 0
  deriving DecidableEq

namespace NonNull

def new (ptr : BitVec 64) : Option NonNull := if null : ptr = 0 then none else some ⟨ptr, null⟩

def addr (node : NonNull) : Nat := node.ptr.toNat

@[simp] theorem new_ptr (node : NonNull) : new node.ptr = some node := dif_neg node.nonNull

theorem ptr_of_new {ptr : BitVec 64} {node : NonNull} (pointer : new ptr = some node) : node.ptr = ptr := by
  unfold new at pointer
  split at pointer
  · cases pointer
  · rw [← Option.some.inj pointer]

end NonNull

/-! ### Nodes -/

/-- `next_node` of the `ListNode` at `node`; the null pointer is `None`. -/
def nextNode (memory : Nat → BitVec 8) (node : NonNull) : Option NonNull := NonNull.new (loadWord memory node.addr)

def writeNode (memory : Nat → BitVec 8) (ptr : BitVec 64) (next : Option NonNull) : Nat → BitVec 8 :=
  storeWord memory ptr.toNat ((next.map NonNull.ptr).getD 0)

/-- `size_of::<ListNode>()` and `align_of::<ListNode>()`. -/
def listNodeSize : Nat := 8
def listNodeAlign : Nat := 8

section Nodes

variable {memory after : Nat → BitVec 8} {node : NonNull} {next : Option NonNull}

theorem nextNode_writeNode : nextNode (writeNode memory node.ptr next) node = next := by
  rw [nextNode, writeNode, NonNull.addr, loadWord_storeWord]
  cases next with
  | none => rfl
  | some next => exact NonNull.new_ptr next

theorem writeNode_outside {byte : Nat} (outside : byte ∉ (⟨node.addr, listNodeSize⟩ : Block).span) :
    writeNode memory node.ptr next byte = memory byte := storeWord_outside outside

theorem nextNode_congr (same : ∀ byte ∈ (⟨node.addr, listNodeSize⟩ : Block).span, after byte = memory byte) :
    nextNode after node = nextNode memory node := by
  rw [nextNode, nextNode, loadWord_congr fun byte low high => same byte ⟨low, high⟩]

end Nodes

/-! ### Block sizes -/

/-- `BLOCK_SIZES`. -/
def blockSizes : List Nat := [8, 16, 32, 64, 128, 256, 512, 1024, 2048]

abbrev BlockIndex := Fin blockSizes.length

def blockSize (index : BlockIndex) : Nat := blockSizes[index]

def findBlockIndex (layout : Layout) : Option BlockIndex :=
  let requiredSize := max layout.size layout.align
  blockSizes.findFinIdx? fun size => decide (requiredSize ≤ size)

theorem blockSize_eq : ∀ index : BlockIndex, blockSize index = 2 ^ (index.val + 3) := by decide

theorem listNode_fits : ∀ index : BlockIndex, listNodeSize ≤ blockSize index ∧ listNodeAlign ≤ blockSize index := by
  decide

theorem findBlockIndex_fits {layout : Layout} {index : BlockIndex} (found : findBlockIndex layout = some index) :
    layout.size ≤ blockSize index ∧ layout.align ≤ blockSize index := by
  have fits := of_decide_eq_true (List.findFinIdx?_eq_some_iff.mp found).1
  exact max_le_iff.mp fits

namespace Layout

def block (index : BlockIndex) : Layout :=
  ⟨blockSize index, blockSize index, by revert index; decide, by revert index; decide⟩

theorem fromSizeAlign_block (index : BlockIndex) :
    fromSizeAlign (blockSize index) (blockSize index) = some (block index) :=
  dif_pos ⟨(block index).powerOfTwo, (block index).fits⟩

/-- What the heap below keeps for a block with this layout. -/
def reserved (layout : Layout) : Layout :=
  match findBlockIndex layout with
  | some index => block index
  | none => layout

variable {layout : Layout} {index : BlockIndex}

theorem reserved_some (found : findBlockIndex layout = some index) : layout.reserved = block index := by
  rw [reserved, found]

theorem reserved_none (found : findBlockIndex layout = none) : layout.reserved = layout := by
  rw [reserved, found]

theorem size_le_reserved (layout : Layout) : layout.size ≤ layout.reserved.size := by
  cases found : findBlockIndex layout with
  | none => rw [reserved_none found]
  | some index =>
    rw [reserved_some found]
    exact (findBlockIndex_fits found).1

/-- A power of two divides every larger one. -/
theorem align_dvd_reserved (layout : Layout) : layout.align ∣ layout.reserved.align := by
  cases found : findBlockIndex layout with
  | none => rw [reserved_none found]
  | some index =>
    have fits := (findBlockIndex_fits found).2
    rw [reserved_some found]
    change layout.align ∣ blockSize index
    rw [blockSize_eq, layout.powerOfTwo] at *
    exact Nat.pow_dvd_pow 2 ((Nat.pow_le_pow_iff_right (by decide)).mp fits)

end Layout

/-! ### The heap below -/

/-- A block that was handed out, with the layout it was asked for. -/
structure Allocation where
  ptr : NonNull
  layout : Layout
  deriving DecidableEq

namespace Allocation

def block (allocation : Allocation) : Block := ⟨allocation.ptr.addr, allocation.layout.size⟩

def Apart (first second : Allocation) : Prop := first.block.Apart second.block

instance : Std.Symm Apart := ⟨fun _ _ apart => Disjoint.symm apart⟩

/-- Aligned, and inside the heap. -/
structure Placed (region : Block) (allocation : Allocation) : Prop where
  aligned : allocation.layout.align ∣ allocation.ptr.addr
  inside : allocation.block.span ⊆ region.span

/-- The whole block behind an allocation. -/
def reserved (allocation : Allocation) : Allocation := ⟨allocation.ptr, allocation.layout.reserved⟩

theorem span_reserved (allocation : Allocation) : allocation.block.span ⊆ allocation.reserved.block.span :=
  Block.span_mono allocation.layout.size_le_reserved

theorem Placed.of_reserved {region : Block} {allocation : Allocation} (placed : allocation.reserved.Placed region) :
    allocation.Placed region where
  aligned := allocation.layout.align_dvd_reserved.trans placed.aligned
  inside := allocation.span_reserved.trans placed.inside

end Allocation

def BytesKept (blocks : Multiset Allocation) (before after : Nat → BitVec 8) : Prop :=
  ∀ allocation ∈ blocks, ∀ byte ∈ allocation.block.span, after byte = before byte

/-- `linked_list_allocator::Heap`. `Outstanding` tells which blocks it has handed out and not
got back; its own records are in the rest of the heap. -/
structure FallbackHeap (Heap : Type) where
  empty : Heap
  init : Heap → (Nat → BitVec 8) → (region : Block) → Heap × (Nat → BitVec 8)
  allocateFirstFit : Heap → (Nat → BitVec 8) → Layout → Option NonNull × Heap × (Nat → BitVec 8)
  deallocate : Heap → (Nat → BitVec 8) → NonNull → Layout → Heap × (Nat → BitVec 8)
  Outstanding : Block → Heap → (Nat → BitVec 8) → Multiset Allocation → Prop
  initialised : ∀ memory region, Outstanding region (init empty memory region).1 (init empty memory region).2 0
  allocated : ∀ {region heap memory out layout ptr after bytes}, Outstanding region heap memory out → 0 < layout.size →
    allocateFirstFit heap memory layout = (some ptr, after, bytes) →
    Outstanding region after bytes (⟨ptr, layout⟩ ::ₘ out) ∧ BytesKept out memory bytes ∧
      (⟨ptr, layout⟩ : Allocation).Placed region ∧ ∀ other ∈ out, (⟨ptr, layout⟩ : Allocation).Apart other
  refused : ∀ {region heap memory out layout after bytes}, Outstanding region heap memory out → 0 < layout.size →
    allocateFirstFit heap memory layout = (none, after, bytes) →
    Outstanding region after bytes out ∧ BytesKept out memory bytes
  deallocated : ∀ {region heap memory out ptr layout after bytes}, Outstanding region heap memory (⟨ptr, layout⟩ ::ₘ out) →
    deallocate heap memory ptr layout = (after, bytes) → Outstanding region after bytes out ∧ BytesKept out memory bytes
  stable : ∀ {region heap memory bytes out}, Outstanding region heap memory out →
    (∀ byte ∈ region.span, (∀ allocation ∈ out, byte ∉ allocation.block.span) → bytes byte = memory byte) →
    Outstanding region heap bytes out

/-! ### The allocator -/

structure FixedSizeBlockAllocator (Heap : Type) where
  listHeads : BlockIndex → Option NonNull
  fallbackAllocator : Heap

variable {Heap : Type}

namespace FixedSizeBlockAllocator

variable (fallback : FallbackHeap Heap)

def new : FixedSizeBlockAllocator Heap := ⟨fun _ => none, fallback.empty⟩

def init (allocator : FixedSizeBlockAllocator Heap) (memory : Nat → BitVec 8) (region : Block) :
    FixedSizeBlockAllocator Heap × (Nat → BitVec 8) :=
  let (fallbackAllocator, memory) := fallback.init allocator.fallbackAllocator memory region
  ({ allocator with fallbackAllocator }, memory)

def fallbackAllocation (allocator : FixedSizeBlockAllocator Heap) (memory : Nat → BitVec 8) (layout : Layout) :
    BitVec 64 × FixedSizeBlockAllocator Heap × (Nat → BitVec 8) :=
  match fallback.allocateFirstFit allocator.fallbackAllocator memory layout with
  | (some ptr, fallbackAllocator, memory) => (ptr.ptr, { allocator with fallbackAllocator }, memory)
  | (none, fallbackAllocator, memory) => (0, { allocator with fallbackAllocator }, memory)

def alloc (allocator : FixedSizeBlockAllocator Heap) (memory : Nat → BitVec 8) (layout : Layout) :
    Except Panic (BitVec 64 × FixedSizeBlockAllocator Heap × (Nat → BitVec 8)) :=
  match findBlockIndex layout with
  | some index =>
    match allocator.listHeads index with
    | some node =>
      .ok (node.ptr, { allocator with listHeads := Function.update allocator.listHeads index (nextNode memory node) },
        writeNode memory node.ptr none)
    | none =>
      match Layout.fromSizeAlign (blockSize index) (blockSize index) with
      | none => .error .unwrapErr
      | some layout => .ok (allocator.fallbackAllocation fallback memory layout)
  | none => .ok (allocator.fallbackAllocation fallback memory layout)

def dealloc (allocator : FixedSizeBlockAllocator Heap) (memory : Nat → BitVec 8) (ptr : BitVec 64) (layout : Layout) :
    Except Panic (FixedSizeBlockAllocator Heap × (Nat → BitVec 8)) :=
  match findBlockIndex layout with
  | some index =>
    if listNodeSize ≤ blockSize index ∧ listNodeAlign ≤ blockSize index then
      .ok ({ allocator with listHeads := Function.update allocator.listHeads index (NonNull.new ptr) },
        writeNode memory ptr (allocator.listHeads index))
    else .error .explicit
  | none =>
    match NonNull.new ptr with
    | none => .error .unwrapNone
    | some ptr =>
      let (fallbackAllocator, memory) := fallback.deallocate allocator.fallbackAllocator memory ptr layout
      .ok ({ allocator with fallbackAllocator }, memory)

section Calls

variable {fallback} {allocator : FixedSizeBlockAllocator Heap} {memory : Nat → BitVec 8} {layout : Layout}
variable {index : BlockIndex} {node : NonNull}

theorem alloc_listed (found : findBlockIndex layout = some index) (head : allocator.listHeads index = some node) :
    allocator.alloc fallback memory layout = .ok (node.ptr,
      { allocator with listHeads := Function.update allocator.listHeads index (nextNode memory node) },
      writeNode memory node.ptr none) := by
  simp only [alloc, found, head]

/-- Without a listed block, the heap below is asked for the whole reservation. -/
theorem alloc_reserved (unlisted : ∀ index, findBlockIndex layout = some index → allocator.listHeads index = none) :
    allocator.alloc fallback memory layout = .ok (allocator.fallbackAllocation fallback memory layout.reserved) := by
  cases found : findBlockIndex layout with
  | none => simp only [alloc, found, Layout.reserved_none]
  | some index =>
    simp only [alloc, found, unlisted index found, Layout.fromSizeAlign_block, Layout.reserved_some found]

theorem dealloc_listed (found : findBlockIndex layout = some index) :
    allocator.dealloc fallback memory node.ptr layout = .ok (
      { allocator with listHeads := Function.update allocator.listHeads index (some node) },
      writeNode memory node.ptr (allocator.listHeads index)) := by
  simp only [dealloc, found, if_pos (listNode_fits index), NonNull.new_ptr]

theorem dealloc_unlisted (found : findBlockIndex layout = none) :
    allocator.dealloc fallback memory node.ptr layout = .ok (
      { allocator with
        fallbackAllocator := (fallback.deallocate allocator.fallbackAllocator memory node layout).1 },
      (fallback.deallocate allocator.fallbackAllocator memory node layout).2) := by
  simp only [dealloc, found, NonNull.new_ptr]

end Calls

end FixedSizeBlockAllocator

end Zephyr
