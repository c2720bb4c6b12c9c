import Zephyr.Heap.Align
import Zephyr.Heap.Partition

/-! `LinkedListAllocator`: a list of free regions of any size that runs through the regions
themselves. -/

namespace Zephyr

open Region Transition

/-! ### Nodes -/

/-- The header of a free region; the null pointer is `None`. -/
structure ListNode where
  blockSize : BitVec 64
  nextNode : Option NonNull
  deriving DecidableEq

namespace ListNode

def new (size : Nat) : ListNode := ⟨BitVec.ofNat 64 size, none⟩

/-- `mem::size_of` and `mem::align_of`. -/
def sizeOf : Nat := 16
def alignOf : Nat := 8

def read (memory : Nat → BitVec 8) (addr : Nat) : ListNode :=
  ⟨loadWord memory addr, NonNull.new (loadWord memory (addr + 8))⟩

def write (memory : Nat → BitVec 8) (addr : Nat) (node : ListNode) : Nat → BitVec 8 :=
  storeWord (storeWord memory addr node.blockSize) (addr + 8) ((node.nextNode.map NonNull.ptr).getD 0)

/-- `start_address` and `block_size` of the node there. -/
def block (memory : Nat → BitVec 8) (node : NonNull) : Block := ⟨node.addr, (read memory node.addr).blockSize.toNat⟩

section Bytes

variable {memory after : Nat → BitVec 8} {addr : Nat} {node : ListNode}

theorem read_write : read (write memory addr node) addr = node := by
  obtain ⟨size, next⟩ := node
  have first : loadWord (write memory addr ⟨size, next⟩) addr = size := by
    refine (loadWord_congr fun byte low high => storeWord_outside ?_).trans loadWord_storeWord
    omega
  rw [read, first, write, loadWord_storeWord]
  cases next with
  | none => rfl
  | some next => exact congrArg _ (NonNull.new_ptr next)

theorem write_outside {byte : Nat} (outside : byte ∉ (⟨addr, sizeOf⟩ : Block).span) :
    write memory addr node byte = memory byte := by
  have away : ¬ (addr ≤ byte ∧ byte < addr + 16) := outside
  rw [write, storeWord_outside (by omega), storeWord_outside (by omega)]

theorem read_congr (same : ∀ byte ∈ (⟨addr, sizeOf⟩ : Block).span, after byte = memory byte) :
    read after addr = read memory addr := by
  have inside : ∀ byte, addr ≤ byte → byte < addr + 16 → after byte = memory byte := fun byte low high =>
    same byte ⟨low, high⟩
  rw [read, read, loadWord_congr fun byte low high => inside byte low (by omega),
    loadWord_congr fun byte low high => inside byte (by omega) (by omega)]

end Bytes

end ListNode

/-! ### The allocator -/

/-- Why a call does not return: a panic, or a walk over links that never ends. -/
inductive Stop where
  | panic (panic : Panic)
  | endless
  deriving DecidableEq

structure LinkedListAllocator where
  headNode : ListNode
  /-- Ghost: the regions given to `add_free_block` that `find_suitable_block` has not removed. -/
  pending : Multiset Block
  deriving DecidableEq

/-- Where `current` stands: at the head, or at a node in the free memory. -/
inductive Current where
  | head
  | node (node : NonNull)

namespace LinkedListAllocator

def new : LinkedListAllocator := ⟨.new 0, 0⟩

def nextNode (self : LinkedListAllocator) (memory : Nat → BitVec 8) : Current → Option NonNull
  | .head => self.headNode.nextNode
  | .node node => (ListNode.read memory node.addr).nextNode

def setNext (self : LinkedListAllocator) (memory : Nat → BitVec 8) (next : Option NonNull) :
    Current → LinkedListAllocator × (Nat → BitVec 8)
  | .head => ({ self with headNode := { self.headNode with nextNode := next } }, memory)
  | .node node => (self, ListNode.write memory node.addr { ListNode.read memory node.addr with nextNode := next })

/-- The new node is the whole list afterwards: the list it is put in front of is not linked
to it. -/
def addFreeBlock (self : LinkedListAllocator) (memory : Nat → BitVec 8) (address size : Nat) :
    Except Panic (LinkedListAllocator × (Nat → BitVec 8)) := do
  if (← alignUp address ListNode.alignOf) ≠ address then throw .explicit
  if size < ListNode.sizeOf then throw .explicit
  let newNode := ListNode.new size
  return (⟨{ self.headNode with nextNode := NonNull.new (BitVec.ofNat 64 address) }, ⟨address, size⟩ ::ₘ self.pending⟩,
    ListNode.write memory address newNode)

/-- `initialize`. -/
def initializeHeap (self : LinkedListAllocator) (memory : Nat → BitVec 8) (heapStart heapSize : Nat) :
    Except Panic (LinkedListAllocator × (Nat → BitVec 8)) :=
  self.addFreeBlock memory heapStart heapSize

/-- `Err(())` is `none`. -/
def allocateFromBlock (block : Block) (size align : Nat) : Except Panic (Option Nat) := do
  let alignedStart ← alignUp block.start align
  match checkedAdd alignedStart size with
  | none => return none
  | some alignedEnd =>
    let endAddress ← usizeAdd block.start block.size
    if alignedEnd > endAddress then return none
    let remainingSize ← usizeSub endAddress alignedEnd
    if remainingSize > 0 ∧ remainingSize < ListNode.sizeOf then return none
    return some alignedStart

/-- The loop of `find_suitable_block` from `current` on, for at most so many turns. -/
def findSuitableBlock (size align : Nat) : Nat → LinkedListAllocator → (Nat → BitVec 8) → Current →
    Except Stop (Option (NonNull × Nat) × LinkedListAllocator × (Nat → BitVec 8))
  | 0, _, _, _ => .error .endless
  | turns + 1, self, memory, current =>
    match self.nextNode memory current with
    | none => .ok (none, self, memory)
    | some region =>
      match allocateFromBlock (ListNode.block memory region) size align with
      | .error panic => .error (.panic panic)
      | .ok none => findSuitableBlock size align turns self memory (.node region)
      | .ok (some allocStart) =>
        let next := self.nextNode memory (.node region)
        let taken := { self with pending := self.pending.erase (ListNode.block memory region) }
        let (taken, memory) := taken.setNext memory none (.node region)
        let (taken, memory) := taken.setNext memory next current
        .ok (some (region, allocStart), taken, memory)

def adjustLayout (layout : Layout) : Except Panic (Nat × Nat) :=
  match Layout.fromSizeAlign layout.size (max layout.align ListNode.alignOf) with
  | none => .error .unwrapErr
  | some layout =>
    let padded := (layout.size + layout.align - 1) / layout.align * layout.align
    .ok (max padded ListNode.sizeOf, layout.align)

/-- A walk of more than `2 ^ 64` turns has met a node twice. -/
def alloc (self : LinkedListAllocator) (memory : Nat → BitVec 8) (layout : Layout) :
    Except Stop (BitVec 64 × LinkedListAllocator × (Nat → BitVec 8)) := do
  let (requiredSize, alignment) ← (adjustLayout layout).mapError .panic
  let (found, self, memory) ← findSuitableBlock requiredSize alignment (2 ^ 64) self memory .head
  match found with
  | none => return (0, self, memory)
  | some (block, startAddress) =>
    match checkedAdd startAddress requiredSize with
    | none => throw (.panic .unwrapNone)
    | some endAddress =>
      let region := ListNode.block memory block
      let blockEnd ← (usizeAdd region.start region.size).mapError .panic
      let remainingSize ← (usizeSub blockEnd endAddress).mapError .panic
      if remainingSize > 0 then
        let (self, memory) ← (self.addFreeBlock memory endAddress remainingSize).mapError .panic
        return (BitVec.ofNat 64 startAddress, self, memory)
      else return (BitVec.ofNat 64 startAddress, self, memory)

def dealloc (self : LinkedListAllocator) (memory : Nat → BitVec 8) (ptr : BitVec 64) (layout : Layout) :
    Except Panic (LinkedListAllocator × (Nat → BitVec 8)) := do
  let (requiredSize, _) ← adjustLayout layout
  self.addFreeBlock memory ptr.toNat requiredSize

section Specs

variable {self : LinkedListAllocator} {memory : Nat → BitVec 8} {layout : Layout} {block : Block} {address size align : Nat}

/-- What `adjust_layout` returns: at least a node, in whole words. -/
structure Adjusted (layout : Layout) (size align : Nat) : Prop where
  covers : layout.size ≤ size
  node : ListNode.sizeOf ≤ size
  words : ListNode.alignOf ∣ size
  coarser : layout.align ∣ align
  wordAligned : ListNode.alignOf ∣ align
  powerOfTwo : align = 2 ^ align.log2
  bounded : align ≤ 2 ^ 63

theorem adjustLayout_spec (returned : adjustLayout layout = .ok (size, align)) : Adjusted layout size align := by
  unfold adjustLayout Layout.fromSizeAlign at returned
  split at returned
  · cases returned
  · rename_i adjusted given
    split at given
    · rename_i valid
      cases given
      cases returned
      obtain ⟨power, fits⟩ := valid
      generalize wide : max layout.align ListNode.alignOf = align at power fits
      have positive : 0 < align := by
        rw [power]
        exact Nat.two_pow_pos _
      have above := Nat.lt_div_mul_add positive (a := layout.size + align - 1)
      have divides : ∀ {small : Nat}, small = 2 ^ small.log2 → small ≤ align → small ∣ align := by
        intro small shape le
        rw [shape, power] at le ⊢
        exact Nat.pow_dvd_pow 2 ((Nat.pow_le_pow_iff_right (by decide)).mp le)
      have words : ListNode.alignOf ∣ align := divides (by decide) (wide ▸ Nat.le_max_right _ _)
      have covers : layout.size ≤ (layout.size + align - 1) / align * align := by omega
      have bounded : align ≤ 2 ^ 63 := by omega
      refine ⟨covers.trans (Nat.le_max_left _ _), Nat.le_max_right _ _, ?_,
        divides layout.powerOfTwo (wide ▸ Nat.le_max_left _ _), words, power, bounded⟩
      rcases Nat.le_total ListNode.sizeOf ((layout.size + align - 1) / align * align) with more | less
      · rw [Nat.max_eq_left more]
        exact words.trans (Nat.dvd_mul_left _ _)
      · rw [Nat.max_eq_right less]
        decide
    · cases given

theorem addFreeBlock_ok (aligned : ListNode.alignOf ∣ address) (room : ListNode.sizeOf ≤ size) (low : address < 2 ^ 63) :
    self.addFreeBlock memory address size =
      .ok (⟨{ self.headNode with nextNode := NonNull.new (BitVec.ofNat 64 address) }, ⟨address, size⟩ ::ₘ self.pending⟩,
        ListNode.write memory address (.new size)) := by
  have stays : alignUp address ListNode.alignOf = .ok address :=
    alignUp_self (by decide) (by simp only [ListNode.alignOf]; omega) aligned
  simp only [addFreeBlock, stays, bind, Except.bind, ne_eq, not_true_eq_false, if_false, if_neg (Nat.not_lt.mpr room)]
  rfl

/-- The request fits at `start`, and what is left behind it is nothing or holds a node. -/
structure Fits (block : Block) (size align start : Nat) : Prop where
  aligned : AlignedUp block.start align start
  inside : start + size ≤ block.start + block.size
  rest : block.start + block.size - (start + size) = 0 ∨
    ListNode.sizeOf ≤ block.start + block.size - (start + size)

theorem allocateFromBlock_spec (size : Nat) (low : block.start + block.size < 2 ^ 63) (power : align = 2 ^ align.log2)
    (bounded : align ≤ 2 ^ 63) : ∃ found, allocateFromBlock block size align = .ok found ∧
      ∀ start ∈ found, Fits block size align start := by
  obtain ⟨start, returned, aligned⟩ := alignUp_ok block.start power (by omega)
  have whole : usizeAdd block.start block.size = .ok (block.start + block.size) := usizeAdd_ok (by omega)
  simp only [allocateFromBlock, returned, bind, Except.bind, whole]
  split
  · exact ⟨none, rfl, nofun⟩
  · rename_i alignedEnd sum
    obtain rfl : start + size = alignedEnd := by
      unfold checkedAdd at sum
      split at sum
      · exact Option.some.inj sum
      · cases sum
    split
    · exact ⟨none, rfl, nofun⟩
    · rename_i within
      have inside : start + size ≤ block.start + block.size := Nat.not_lt.mp within
      simp only [usizeSub_ok inside]
      split
      · exact ⟨none, rfl, nofun⟩
      · rename_i usable
        refine ⟨some start, rfl, fun _ same => Option.some.inj same ▸ ⟨aligned, inside, ?_⟩⟩
        simp only [ListNode.sizeOf] at usable ⊢
        omega

end Specs

end LinkedListAllocator

end Zephyr
