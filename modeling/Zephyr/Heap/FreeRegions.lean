import Zephyr.Heap.LinkedList

/-! The linked-list allocator over whole runs: where its blocks lie, and which free regions
its list still reaches. -/

namespace Zephyr

open Region Transition

namespace LinkedListAllocator

/-- The list holds this region, or nothing. -/
def Listed (self : LinkedListAllocator) (memory : Nat → BitVec 8) : Option Block → Prop
  | none => self.headNode.nextNode = none
  | some block => ∃ node, self.headNode.nextNode = some node ∧ node.addr = block.start ∧ block.size < 2 ^ 64 ∧
      ListNode.read memory node.addr = .new block.size

section Calls

variable {self : LinkedListAllocator} {memory : Nat → BitVec 8} {layout : Layout} {block : Block}
variable {size align start address : Nat}

/-- What is listed after `add_free_block`: a node at the null address is none. -/
def listedAt (block : Block) : Option Block := if block.start = 0 then none else some block

theorem Listed.block_eq {node : NonNull} (head : self.headNode.nextNode = some node)
    (listed : self.Listed memory (some block)) : ListNode.block memory node = block := by
  obtain ⟨other, again, start, small, read⟩ := listed
  obtain rfl := Option.some.inj (head.symm.trans again)
  rw [ListNode.block, read, start, ListNode.new]
  simp only [BitVec.toNat_ofNat, Nat.mod_eq_of_lt small]

theorem addFreeBlock_listed (self : LinkedListAllocator) (memory : Nat → BitVec 8) (block : Block)
    (aligned : ListNode.alignOf ∣ block.start) (room : ListNode.sizeOf ≤ block.size)
    (low : block.start + block.size < 2 ^ 63) : ∃ after bytes,
      self.addFreeBlock memory block.start block.size = .ok (after, bytes) ∧ after.Listed bytes (listedAt block) ∧
      after.pending = block ::ₘ self.pending ∧ ∀ byte ∉ block.span, bytes byte = memory byte := by
  refine ⟨_, _, addFreeBlock_ok aligned room (by omega), ?_, rfl, fun byte outside => ?_⟩
  · have value : (BitVec.ofNat 64 block.start).toNat = block.start := by
      rw [BitVec.toNat_ofNat, Nat.mod_eq_of_lt (by omega)]
    unfold listedAt
    split
    · rename_i null
      rw [null]
      rfl
    · rename_i proper
      have pointer : BitVec.ofNat 64 block.start ≠ 0 := by
        intro null
        rw [null] at value
        exact proper value.symm
      refine ⟨⟨_, pointer⟩, dif_neg pointer, value, by omega, ?_⟩
      rw [NonNull.addr, value]
      exact ListNode.read_write
  · exact ListNode.write_outside fun inside => outside (Block.span_mono room inside)

theorem findSuitableBlock_end (turns : Nat) {current : Current} (last : self.nextNode memory current = none) :
    findSuitableBlock size align (turns + 1) self memory current = .ok (none, self, memory) := by
  rw [findSuitableBlock, last]

theorem findSuitableBlock_refused (turns : Nat) (listed : self.Listed memory (some block))
    (refused : allocateFromBlock block size align = .ok none) :
    findSuitableBlock size align (turns + 2) self memory .head = .ok (none, self, memory) := by
  have listed' := listed
  obtain ⟨node, head, start, _, read⟩ := listed
  have region : ListNode.block memory node = block := listed'.block_eq head
  have last : self.nextNode memory (.node node) = none := by
    rw [nextNode, read]
    rfl
  rw [findSuitableBlock, nextNode, head]
  dsimp only
  rw [region, refused]
  exact findSuitableBlock_end turns last

theorem findSuitableBlock_taken (turns : Nat) (listed : self.Listed memory (some block))
    (taken : allocateFromBlock block size align = .ok (some start)) : ∃ node, node.addr = block.start ∧
      ListNode.read memory node.addr = .new block.size ∧
      findSuitableBlock size align (turns + 1) self memory .head = .ok (some (node, start),
        ⟨{ self.headNode with nextNode := none }, self.pending.erase block⟩,
        ListNode.write memory node.addr (.new block.size)) := by
  have listed' := listed
  obtain ⟨node, head, start, _, read⟩ := listed
  have region : ListNode.block memory node = block := listed'.block_eq head
  refine ⟨node, start, read, ?_⟩
  rw [findSuitableBlock, nextNode, head]
  dsimp only
  rw [region, taken]
  simp only [setNext, nextNode, read]
  rfl

theorem alloc_empty (adjusted : adjustLayout layout = .ok (size, align)) (listed : self.Listed memory none) :
    self.alloc memory layout = .ok (0, self, memory) := by
  have last : self.nextNode memory .head = none := listed
  have walk : findSuitableBlock size align (2 ^ 64) self memory .head = .ok (none, self, memory) :=
    findSuitableBlock_end (2 ^ 64 - 1) last
  simp only [alloc, adjusted, Except.mapError, bind, Except.bind, walk]
  rfl

theorem alloc_refused (adjusted : adjustLayout layout = .ok (size, align)) (listed : self.Listed memory (some block))
    (refused : allocateFromBlock block size align = .ok none) : self.alloc memory layout = .ok (0, self, memory) := by
  have walk : findSuitableBlock size align (2 ^ 64) self memory .head = .ok (none, self, memory) :=
    findSuitableBlock_refused (2 ^ 64 - 2) listed refused
  simp only [alloc, adjusted, Except.mapError, bind, Except.bind, walk]
  rfl

/-- What is left of a region behind a block. -/
def remainder (block : Block) (stop : Nat) : Option Block :=
  if block.start + block.size - stop = 0 then none else some ⟨stop, block.start + block.size - stop⟩

/-- The block and what is left behind it are cut out of the region, and the rest holds a node. -/
theorem remainder_spec (word : ListNode.alignOf ∣ start + size) (fits : Fits block size align start) :
    (⟨start, size⟩ : Block).Within block ∧ ∀ rest ∈ remainder block (start + size), rest.Within block ∧
      (⟨start, size⟩ : Block).Apart rest ∧ ListNode.alignOf ∣ rest.start ∧ ListNode.sizeOf ≤ rest.size := by
  obtain ⟨aligned, inside, whole⟩ := fits
  have above := aligned.le
  refine ⟨⟨above, inside⟩, fun rest member => ?_⟩
  unfold remainder at member
  split at member
  · cases member
  · rename_i left
    obtain rfl := Option.some.inj member
    refine ⟨⟨?_, ?_⟩, Block.apart_of_le (Nat.le_refl _), word, whole.resolve_left left⟩
    · exact above.trans (Nat.le_add_right _ _)
    · dsimp only
      omega

/-- The region is taken off the list, and what is left of it is put back. -/
theorem alloc_taken (adjusted : adjustLayout layout = .ok (size, align)) (listed : self.Listed memory (some block))
    (room : ListNode.sizeOf ≤ block.size)
    (low : block.start + block.size < 2 ^ 63) (taken : allocateFromBlock block size align = .ok (some start))
    (fits : Fits block size align start) : ∃ after bytes,
      self.alloc memory layout = .ok (BitVec.ofNat 64 start, after, bytes) ∧
      after.Listed bytes (remainder block (start + size)) ∧
      after.pending = (remainder block (start + size)).toList + self.pending.erase block ∧
      ∀ byte ∉ block.span, bytes byte = memory byte := by
  obtain ⟨node, addr, read, found⟩ := findSuitableBlock_taken (2 ^ 64 - 1) listed taken
  have walk : findSuitableBlock size align (2 ^ 64) self memory .head = _ := found
  have spec := adjustLayout_spec adjusted
  have inside := fits.inside
  have above := fits.aligned.le
  have outside : ∀ byte ∉ block.span, ListNode.write memory node.addr (.new block.size) byte = memory byte :=
    fun byte away => ListNode.write_outside fun within => away (Block.span_mono room (by rwa [addr] at within))
  have region : ListNode.block (ListNode.write memory node.addr (.new block.size)) node = block := by
    rw [ListNode.block, ListNode.read_write, addr, ListNode.new]
    simp only [BitVec.toNat_ofNat, Nat.mod_eq_of_lt (show block.size < 2 ^ 64 by omega)]
  by_cases whole : block.start + block.size - (start + size) = 0
  · refine ⟨⟨{ self.headNode with nextNode := none }, self.pending.erase block⟩, _, ?_, ?_, ?_, outside⟩
    · simp only [alloc, adjusted, Except.mapError, bind, Except.bind, walk,
        checkedAdd_some (show start + size < 2 ^ 64 by omega), region,
        usizeAdd_ok (show block.start + block.size < 2 ^ 64 by omega), usizeSub_ok inside, whole, gt_iff_lt, lt_irrefl, if_false]
      rfl
    · rw [remainder, if_pos whole]
      rfl
    · rw [remainder, if_pos whole]
      exact (Multiset.zero_add _).symm
  · have positive : 0 < block.start + block.size - (start + size) := Nat.pos_of_ne_zero whole
    have rest := fits.rest.resolve_left whole
    have wordEnd : ListNode.alignOf ∣ start + size :=
      Nat.dvd_add (spec.wordAligned.trans fits.aligned.dvd) spec.words
    obtain ⟨after, bytes, added, relisted, pending, kept⟩ :=
      addFreeBlock_listed ⟨{ self.headNode with nextNode := none }, self.pending.erase block⟩
        (ListNode.write memory node.addr (.new block.size)) ⟨start + size, block.start + block.size - (start + size)⟩
        wordEnd rest (by dsimp only; omega)
    have nonzero : start + size ≠ 0 := by
      have node := spec.node
      simp only [ListNode.sizeOf] at node
      omega
    refine ⟨after, bytes, ?_, ?_, ?_, fun byte away => ?_⟩
    · simp only [alloc, adjusted, Except.mapError, bind, Except.bind, walk,
        checkedAdd_some (show start + size < 2 ^ 64 by omega), region,
        usizeAdd_ok (show block.start + block.size < 2 ^ 64 by omega), usizeSub_ok inside, gt_iff_lt, positive, if_true, added]
      rfl
    · rw [remainder, if_neg whole]
      rwa [listedAt, if_neg nonzero] at relisted
    · rw [remainder, if_neg whole]
      exact pending
    · rw [kept byte fun within => away ?_, outside byte away]
      exact (⟨by dsimp only; omega, by dsimp only; omega⟩ : Block.Within _ block).span within

end Calls

end LinkedListAllocator

open LinkedListAllocator

/-! ### Runs -/

def Allocation.adjusted (allocation : Allocation) : Block :=
  ⟨allocation.ptr.addr, match adjustLayout allocation.layout with
    | .ok (size, _) => size
    | .error _ => 0⟩

/-- The allocator, the memory and, as ghosts, the blocks in use and the heaps given to
`initialize`. -/
structure LinkedHeap where
  allocator : LinkedListAllocator
  memory : Nat → BitVec 8
  live : Multiset Allocation
  heaps : Multiset Block

inductive ListCall where
  | initializeHeap (heap : Block)
  | alloc (layout : Layout)
  | dealloc (ptr : BitVec 64) (layout : Layout)
  | store (addr : Nat) (value : BitVec 8)

namespace LinkedHeap

def start (memory : Nat → BitVec 8) : LinkedHeap := ⟨.new, memory, 0, 0⟩

/-- A heap in whole words, with room for a node and in the lower half of the address space. -/
structure Bounds (heap : Block) : Prop where
  aligned : 8 ∣ heap.start
  room : 16 ≤ heap.size
  low : heap.start + heap.size < 2 ^ 63

/-- Heaps are apart, layouts are not empty, blocks are given back once and with their layout,
and nobody writes in the heaps outside the blocks in use. -/
def Legal (heap : LinkedHeap) : ListCall → Prop
  | .initializeHeap region => Bounds region ∧ ∀ other ∈ heap.heaps, region.Apart other
  | .alloc layout => 0 < layout.size
  | .dealloc ptr layout => ∃ node, NonNull.new ptr = some node ∧ ⟨node, layout⟩ ∈ heap.live
  | .store addr _ => (∃ region ∈ heap.heaps, addr ∈ region.span) → ∃ allocation ∈ heap.live, addr ∈ allocation.block.span

def perform (heap : LinkedHeap) : ListCall → Except Stop LinkedHeap
  | .initializeHeap region => do
    let (allocator, memory) ← (heap.allocator.initializeHeap heap.memory region.start region.size).mapError .panic
    return { heap with allocator, memory, heaps := region ::ₘ heap.heaps }
  | .alloc layout => do
    let (ptr, allocator, memory) ← heap.allocator.alloc heap.memory layout
    return { heap with allocator, memory, live := Allocation.issued ptr layout + heap.live }
  | .dealloc ptr layout => do
    let (allocator, memory) ← (heap.allocator.dealloc heap.memory ptr layout).mapError .panic
    return { heap with allocator, memory, live := heap.live - Allocation.issued ptr layout }
  | .store addr value => return { heap with memory := Function.update heap.memory addr value }

def Step (before : LinkedHeap) (call : ListCall) (after : LinkedHeap) : Prop :=
  before.Legal call ∧ before.perform call = .ok after

/-- The blocks in use and every region given to `add_free_block`. -/
def pool (heap : LinkedHeap) : Multiset Block := heap.live.map Allocation.adjusted + heap.allocator.pending

/-- The list holds `free`; the other regions it was given are lost. -/
structure Shape (heap : LinkedHeap) (free : Option Block) (lost : Multiset Block) : Prop where
  listed : heap.allocator.Listed heap.memory free
  pending : heap.allocator.pending = free.toList + lost
  low : ∀ region ∈ heap.heaps, region.start + region.size < 2 ^ 63
  owned : ∀ allocation ∈ heap.live, ∃ size align, adjustLayout allocation.layout = .ok (size, align) ∧
    align ∣ allocation.ptr.addr
  nodes : ∀ block ∈ heap.allocator.pending, ListNode.alignOf ∣ block.start ∧ ListNode.sizeOf ≤ block.size
  placed : ∀ block ∈ heap.pool, ∃ region ∈ heap.heaps, block.Within region
  apart : heap.pool.Pairwise Block.Apart

def Spares (heap : LinkedHeap) : ListCall → Prop
  | .initializeHeap region => heap.allocator.headNode.nextNode = none ∧ region.start ≠ 0
  | .dealloc _ _ => heap.allocator.headNode.nextNode = none
  | _ => True

section Steps

variable {heap : LinkedHeap} {free : Option Block} {lost : Multiset Block} {layout : Layout} {size align : Nat}

theorem adjusted_eq {allocation : Allocation} (adjusted : adjustLayout allocation.layout = .ok (size, align)) :
    allocation.adjusted = ⟨allocation.ptr.addr, size⟩ := by
  rw [Allocation.adjusted, adjusted]

theorem shape_start (memory : Nat → BitVec 8) : Shape (start memory) none 0 where
  listed := rfl
  pending := rfl
  low := nofun
  owned := nofun
  nodes := nofun
  placed := nofun
  apart := Multiset.pairwise_zero _

theorem Shape.below (shape : Shape heap free lost) {block : Block} (member : block ∈ heap.pool) :
    block.start + block.size < 2 ^ 63 := by
  obtain ⟨region, listed, within⟩ := shape.placed block member
  exact within.below.trans_lt (shape.low region listed)

theorem Shape.free_pending {block : Block} (shape : Shape heap (some block) lost) : block ∈ heap.allocator.pending := by
  rw [shape.pending]
  exact Multiset.mem_add.mpr (.inl (Multiset.mem_coe.mpr (List.mem_singleton_self block)))

/-- The list is empty exactly when nothing is listed. -/
theorem Shape.empty_iff (shape : Shape heap free lost) : heap.allocator.headNode.nextNode = none ↔ free = none := by
  have listed := shape.listed
  cases free with
  | none => exact ⟨fun _ => rfl, fun _ => listed⟩
  | some block =>
    obtain ⟨node, head, _⟩ := listed
    rw [head]
    exact ⟨nofun, nofun⟩

theorem Shape.add (shape : Shape heap free lost) (live : Multiset Allocation) {block : Block}
    {after : LinkedListAllocator} {bytes : Nat → BitVec 8} {heaps : Multiset Block} (listed : after.Listed bytes (listedAt block))
    (pending : after.pending = block ::ₘ heap.allocator.pending)
    (node : ListNode.alignOf ∣ block.start ∧ ListNode.sizeOf ≤ block.size)
    (low : ∀ region ∈ heaps, region.start + region.size < 2 ^ 63) (fewer : ∀ allocation ∈ live, allocation ∈ heap.live)
    (placed : ∀ one ∈ block ::ₘ (live.map Allocation.adjusted + heap.allocator.pending), ∃ region ∈ heaps, one.Within region)
    (apart : (block ::ₘ (live.map Allocation.adjusted + heap.allocator.pending)).Pairwise Block.Apart) :
    ∃ free' lost', Shape ⟨after, bytes, live, heaps⟩ free' lost' ∧
      (lost' = 0 ↔ lost = 0 ∧ free = none ∧ block.start ≠ 0) := by
  have moved : (⟨after, bytes, live, heaps⟩ : LinkedHeap).pool =
      block ::ₘ (live.map Allocation.adjusted + heap.allocator.pending) := by
    rw [pool, pending, Multiset.add_cons]
  have nodes : ∀ one ∈ after.pending, ListNode.alignOf ∣ one.start ∧ ListNode.sizeOf ≤ one.size := by
    rw [pending]
    exact Multiset.forall_mem_cons.mpr ⟨node, shape.nodes⟩
  have made : ∀ lost', after.pending = (listedAt block).toList + lost' →
      Shape ⟨after, bytes, live, heaps⟩ (listedAt block) lost' := fun lost' split =>
    ⟨listed, split, low, fun allocation member => shape.owned allocation (fewer allocation member), nodes,
      by rwa [moved], by rwa [moved]⟩
  have given := shape.pending
  by_cases null : block.start = 0
  · refine ⟨_, after.pending, made _ ?_, ?_⟩
    · rw [listedAt, if_pos null]
      exact (Multiset.zero_add _).symm
    · rw [pending]
      exact ⟨fun empty => absurd empty (Multiset.cons_ne_zero), fun ⟨_, _, proper⟩ => absurd null proper⟩
  · refine ⟨_, heap.allocator.pending, made _ ?_, ?_⟩
    · rw [listedAt, if_neg null, pending]
      exact (Multiset.singleton_add _ _).symm
    · rw [given]
      cases free with
      | none => simp [null]
      | some listedBlock => simp

theorem Shape.initializeHeap (shape : Shape heap free lost) {region : Block} (bounds : Bounds region)
    (apart : ∀ other ∈ heap.heaps, region.Apart other) : ∃ after, heap.perform (.initializeHeap region) = .ok after ∧
      ∃ free' lost', Shape after free' lost' ∧ (lost' = 0 ↔ lost = 0 ∧ free = none ∧ region.start ≠ 0) := by
  obtain ⟨allocator, bytes, added, listed, pending, _⟩ :=
    addFreeBlock_listed heap.allocator heap.memory region bounds.aligned bounds.room bounds.low
  refine ⟨⟨allocator, bytes, heap.live, region ::ₘ heap.heaps⟩, ?_, ?_⟩
  · simp only [LinkedHeap.perform, LinkedListAllocator.initializeHeap, added, Except.mapError, bind, Except.bind]
    rfl
  refine shape.add heap.live listed pending ⟨bounds.aligned, bounds.room⟩ (Multiset.forall_mem_cons.mpr ⟨bounds.low, shape.low⟩)
    (fun _ member => member) (Multiset.forall_mem_cons.mpr ⟨?_, fun one member => ?_⟩) (pairwise_cons.mpr ⟨?_, shape.apart⟩)
  · exact ⟨region, Multiset.mem_cons_self _ _, Nat.le_refl _, Nat.le_refl _⟩
  · obtain ⟨other, known, within⟩ := shape.placed one member
    exact ⟨other, Multiset.mem_cons_of_mem known, within⟩
  · intro one member
    obtain ⟨other, known, within⟩ := shape.placed one member
    exact Disjoint.mono_right within.span (apart other known)

theorem Shape.dealloc (shape : Shape heap free lost) {node : NonNull} (member : ⟨node, layout⟩ ∈ heap.live) :
    ∃ after, heap.perform (.dealloc node.ptr layout) = .ok after ∧
      ∃ free' lost', Shape after free' lost' ∧ (lost' = 0 ↔ lost = 0 ∧ free = none) := by
  obtain ⟨others, live⟩ := Multiset.exists_cons_of_mem member
  obtain ⟨size, align, adjusted, aligned⟩ := shape.owned _ member
  have block : (⟨node, layout⟩ : Allocation).adjusted = ⟨node.addr, size⟩ := adjusted_eq adjusted
  have spec := adjustLayout_spec adjusted
  have pooled : heap.pool = ⟨node.addr, size⟩ ::ₘ (others.map Allocation.adjusted + heap.allocator.pending) := by
    rw [pool, live, Multiset.map_cons, block, Multiset.cons_add]
  have low := shape.below (pooled ▸ Multiset.mem_cons_self _ _)
  have word : ListNode.alignOf ∣ node.addr := spec.wordAligned.trans aligned
  obtain ⟨allocator, bytes, added, listed, pending, _⟩ :=
    addFreeBlock_listed heap.allocator heap.memory ⟨node.addr, size⟩ word spec.node low
  have rest : heap.live - Allocation.issued node.ptr layout = others := by
    rw [Allocation.issued_ptr, live, Multiset.sub_singleton, Multiset.erase_cons_head]
  have proper : node.addr ≠ 0 := fun null => node.nonNull (BitVec.eq_of_toNat_eq null)
  refine ⟨⟨allocator, bytes, others, heap.heaps⟩, ?_, ?_⟩
  · have returned : heap.allocator.dealloc heap.memory node.ptr layout = .ok (allocator, bytes) := by
      simp only [LinkedListAllocator.dealloc, adjusted, bind, Except.bind]
      exact added
    simp only [LinkedHeap.perform, returned, Except.mapError, bind, Except.bind, rest]
    rfl
  obtain ⟨free', lost', kept, losing⟩ := shape.add others listed pending ⟨word, spec.node⟩ shape.low
    (fun _ other => live ▸ Multiset.mem_cons_of_mem other) (pooled ▸ shape.placed) (pooled ▸ shape.apart)
  refine ⟨free', lost', kept, losing.trans ?_⟩
  exact ⟨fun ⟨zero, empty, _⟩ => ⟨zero, empty⟩, fun ⟨zero, empty⟩ => ⟨zero, empty, proper⟩⟩

/-- A write outside the listed region. -/
theorem Shape.store (shape : Shape heap free lost) {addr : Nat} (value : BitVec 8)
    (legal : heap.Legal (.store addr value)) :
    Shape { heap with memory := Function.update heap.memory addr value } free lost := by
  refine ⟨?_, shape.pending, shape.low, shape.owned, shape.nodes, shape.placed, shape.apart⟩
  cases free with
  | none => exact shape.listed
  | some block =>
    have pending := shape.free_pending
    have room := (shape.nodes block pending).2
    have away : addr ∉ block.span := by
      intro inside
      obtain ⟨region, known, within⟩ := shape.placed block (Multiset.mem_add.mpr (.inr pending))
      obtain ⟨owner, member, owned⟩ := legal ⟨region, known, within.span inside⟩
      obtain ⟨size, align, adjusted, _⟩ := shape.owned owner member
      have apart := (pairwise_add.mp shape.apart).2.2 _ (Multiset.mem_map_of_mem _ member) block pending
      rw [adjusted_eq adjusted] at apart
      exact Set.disjoint_left.mp apart (Block.span_mono (adjustLayout_spec adjusted).covers owned) inside
    obtain ⟨node, head, start, small, read⟩ := shape.listed
    refine ⟨node, head, start, small, ?_⟩
    rw [← read]
    refine ListNode.read_congr fun byte inside => Function.update_of_ne (fun same => ?_) _ _
    subst same
    rw [start] at inside
    exact away (Block.span_mono room inside)

/-- No block of a listed region is at the null address. -/
theorem Shape.proper {block : Block} (shape : Shape heap (some block) lost) {start : Nat}
    (fits : Fits block size align start) : BitVec.ofNat 64 start ≠ 0 := by
  have low := shape.below (Multiset.mem_add.mpr (.inr shape.free_pending))
  have inside := fits.inside
  have above := fits.aligned.le
  have value : (BitVec.ofNat 64 start).toNat = start := by
    rw [BitVec.toNat_ofNat, Nat.mod_eq_of_lt (by omega)]
  obtain ⟨first, _, addr, _⟩ := shape.listed
  have nonzero : first.addr ≠ 0 := fun null => first.nonNull (BitVec.eq_of_toNat_eq null)
  intro null
  rw [null] at value
  change 0 = start at value
  omega

/-- A block is cut out of the listed region. -/
theorem Shape.take {block : Block} (shape : Shape heap (some block) lost)
    (adjusted : adjustLayout layout = .ok (size, align)) {start : Nat}
    (taken : allocateFromBlock block size align = .ok (some start)) (fits : Fits block size align start) :
    ∃ after, heap.perform (.alloc layout) = .ok after ∧ Shape after (remainder block (start + size)) lost := by
  have pending := shape.free_pending
  have low := shape.below (Multiset.mem_add.mpr (.inr pending))
  have room := (shape.nodes block pending).2
  have spec := adjustLayout_spec adjusted
  have inside := fits.inside
  have above := fits.aligned.le
  obtain ⟨allocator, bytes, returned, listed, given, _⟩ := alloc_taken adjusted shape.listed room low taken fits
  have value : (BitVec.ofNat 64 start).toNat = start := by
    rw [BitVec.toNat_ofNat, Nat.mod_eq_of_lt (by omega)]
  have proper := shape.proper fits
  have block_new : (⟨⟨_, proper⟩, layout⟩ : Allocation).adjusted = ⟨start, size⟩ := by
    rw [adjusted_eq adjusted, NonNull.addr, value]
  have others : heap.allocator.pending = block ::ₘ lost := shape.pending.trans (Multiset.singleton_add _ _)
  have before : heap.pool = block ::ₘ (heap.live.map Allocation.adjusted + lost) := by
    rw [pool, others, Multiset.add_cons]
  rw [others, Multiset.erase_cons_head] at given
  have after : (⟨allocator, bytes, ⟨⟨_, proper⟩, layout⟩ ::ₘ heap.live, heap.heaps⟩ : LinkedHeap).pool =
      (⟨start, size⟩ ::ₘ (remainder block (start + size)).toList) + (heap.live.map Allocation.adjusted + lost) := by
    rw [pool, given, Multiset.map_cons, block_new, Multiset.cons_add, Multiset.cons_add]
    exact congrArg _ (add_left_comm _ _ _)
  have word : ListNode.alignOf ∣ start + size := Nat.dvd_add (spec.wordAligned.trans fits.aligned.dvd) spec.words
  obtain ⟨front, rest⟩ := remainder_spec word fits
  have pieces : ∀ one ∈ ((⟨start, size⟩ : Block) ::ₘ (remainder block (start + size)).toList : Multiset Block),
      one.Within block :=
    Multiset.forall_mem_cons.mpr ⟨front, fun one member => (rest one (Option.mem_toList.mp (Multiset.mem_coe.mp member))).1⟩
  refine ⟨⟨allocator, bytes, ⟨⟨_, proper⟩, layout⟩ ::ₘ heap.live, heap.heaps⟩, ?_, listed, given, shape.low, ?_, ?_, ?_, ?_⟩
  · simp only [LinkedHeap.perform, returned, bind, Except.bind, Allocation.issued_ptr ⟨_, proper⟩, Multiset.singleton_add]
    rfl
  · refine Multiset.forall_mem_cons.mpr ⟨⟨size, align, adjusted, ?_⟩, shape.owned⟩
    rw [NonNull.addr, value]
    exact fits.aligned.dvd
  · rw [given]
    refine fun one member => (Multiset.mem_add.mp member).elim (fun left => ?_) fun old => ?_
    · exact (rest one (Option.mem_toList.mp (Multiset.mem_coe.mp left))).2.2
    · exact shape.nodes one (others ▸ Multiset.mem_cons_of_mem old)
  · rw [after]
    obtain ⟨region, known, home⟩ := shape.placed block (before ▸ Multiset.mem_cons_self _ _)
    refine fun one member => (Multiset.mem_add.mp member).elim (fun piece => ?_) fun old => ?_
    · exact ⟨region, known, (pieces one piece).trans home⟩
    · exact shape.placed one (before ▸ Multiset.mem_cons_of_mem old)
  · rw [after]
    refine Block.pairwise_cut (before ▸ shape.apart) pieces (pairwise_cons.mpr ⟨fun one member => ?_, ?_⟩)
    · exact (rest one (Option.mem_toList.mp (Multiset.mem_coe.mp member))).2.1
    · cases remainder block (start + size) with
      | none => exact Multiset.pairwise_zero _
      | some left => exact Multiset.pairwise_coe_iff_pairwise.mpr (List.pairwise_singleton _ _)

/-- `alloc` returns null, or cuts a block out of the listed region. -/
theorem Shape.alloc (shape : Shape heap free lost) (adjusted : adjustLayout layout = .ok (size, align)) :
    ∃ after, heap.perform (.alloc layout) = .ok after ∧ ∃ free', Shape after free' lost := by
  have refused : heap.allocator.alloc heap.memory layout = .ok (0, heap.allocator, heap.memory) →
      heap.perform (.alloc layout) = .ok heap := by
    intro returned
    simp only [LinkedHeap.perform, returned, bind, Except.bind, Allocation.issued_null, Multiset.zero_add]
    rfl
  cases free with
  | none => exact ⟨heap, refused (alloc_empty adjusted shape.listed), none, shape⟩
  | some block =>
    have spec := adjustLayout_spec adjusted
    have low := shape.below (Multiset.mem_add.mpr (.inr shape.free_pending))
    obtain ⟨found, returned, fits⟩ := allocateFromBlock_spec size low spec.powerOfTwo spec.bounded
    cases found with
    | none => exact ⟨heap, refused (alloc_refused adjusted shape.listed returned), some block, shape⟩
    | some start =>
      obtain ⟨after, performed, kept⟩ := shape.take adjusted returned (fits start rfl)
      exact ⟨after, performed, _, kept⟩

/-- Every legal call with a layout that can be adjusted returns. It loses a region when it
puts one on a list that is not empty. -/
theorem Shape.perform (shape : Shape heap free lost) {call : ListCall} (legal : heap.Legal call)
    (adjustable : ∀ layout, call = .alloc layout → ∃ size align, adjustLayout layout = .ok (size, align)) :
    ∃ after, heap.perform call = .ok after ∧ ∃ free' lost', Shape after free' lost' ∧
      (lost' = 0 ↔ lost = 0 ∧ heap.Spares call) := by
  cases call with
  | initializeHeap region =>
    obtain ⟨after, performed, free', lost', kept, losing⟩ := shape.initializeHeap legal.1 legal.2
    refine ⟨after, performed, free', lost', kept, losing.trans ?_⟩
    rw [Spares, shape.empty_iff]
  | alloc layout =>
    obtain ⟨size, align, adjusted⟩ := adjustable layout rfl
    obtain ⟨after, performed, free', kept⟩ := shape.alloc adjusted
    exact ⟨after, performed, free', lost, kept, (and_iff_left trivial).symm⟩
  | dealloc ptr layout =>
    obtain ⟨node, pointer, member⟩ := legal
    obtain rfl := NonNull.ptr_of_new pointer
    obtain ⟨after, performed, free', lost', kept, losing⟩ := shape.dealloc member
    refine ⟨after, performed, free', lost', kept, losing.trans ?_⟩
    rw [Spares, shape.empty_iff]
  | store addr value => exact ⟨_, rfl, free, lost, shape.store value legal, (and_iff_left trivial).symm⟩

theorem adjustable_of_perform {call : ListCall} {after : LinkedHeap} (performed : heap.perform call = .ok after)
    (layout : Layout) (allocates : call = .alloc layout) : ∃ size align, adjustLayout layout = .ok (size, align) := by
  subst allocates
  cases adjusted : adjustLayout layout with
  | ok value => exact ⟨value.1, value.2, rfl⟩
  | error panic =>
    simp only [LinkedHeap.perform, LinkedListAllocator.alloc, adjusted, Except.mapError, bind, Except.bind] at performed
    cases performed

end Steps

section Runs

variable {memory : Nat → BitVec 8} {calls : List ListCall} {heap : LinkedHeap} {free : Option Block} {lost : Multiset Block}

/-- Every call of the run finds an empty list if it puts a region there. -/
def Sparing (memory : Nat → BitVec 8) (calls : List ListCall) : Prop :=
  ∀ earlier call middle, earlier ++ [call] <+: calls → Run Step (start memory) earlier middle → middle.Spares call

theorem step_deterministic {before after other : LinkedHeap} {call : ListCall} (step : Step before call after)
    (again : Step before call other) : after = other :=
  Except.ok.inj (step.2.symm.trans again.2)

theorem sparing_nil (memory : Nat → BitVec 8) : Sparing memory [] := by
  intro earlier call _ split
  exact absurd (List.prefix_nil.mp split) (List.concat_ne_nil call earlier)

theorem sparing_snoc {middle : LinkedHeap} {call : ListCall} (run : Run Step (start memory) calls middle) :
    Sparing memory (calls ++ [call]) ↔ Sparing memory calls ∧ middle.Spares call := by
  constructor
  · intro sparing
    refine ⟨fun earlier call middle split => sparing earlier call middle (split.trans (List.prefix_append _ _)), ?_⟩
    exact sparing calls call middle (List.prefix_refl _) run
  · rintro ⟨sparing, now⟩ earlier label other split again
    rcases List.prefix_concat_iff.mp split with whole | inside
    · obtain ⟨rfl, same⟩ := List.append_inj' whole rfl
      obtain rfl := List.singleton_inj.mp same
      rwa [again.unique run fun step other => step_deterministic step other]
    · exact sparing earlier label other inside again

theorem shape_of_run (run : Run Step (start memory) calls heap) :
    ∃ free lost, Shape heap free lost ∧ (lost = 0 ↔ Sparing memory calls) := by
  induction run with
  | nil =>
    exact ⟨none, 0, shape_start memory, iff_of_true rfl (sparing_nil memory)⟩
  | snoc earlier last ih =>
    obtain ⟨free, lost, shape, losing⟩ := ih
    obtain ⟨after, performed, free', lost', kept, more⟩ := shape.perform last.1 (adjustable_of_perform last.2)
    obtain rfl := Except.ok.inj (last.2.symm.trans performed)
    refine ⟨free', lost', kept, more.trans ?_⟩
    rw [sparing_snoc earlier, losing]

def FreeList (heap : LinkedHeap) (nodes : List NonNull) : Prop :=
  Chain (fun node => (ListNode.read heap.memory node.addr).nextNode) heap.allocator.headNode.nextNode nodes

theorem Shape.freeList (shape : Shape heap free lost) :
    ∃ nodes, heap.FreeList nodes ∧ nodes.map (ListNode.block heap.memory) = free.toList := by
  have listed := shape.listed
  cases free with
  | none => exact ⟨[], listed, rfl⟩
  | some block =>
    have region : ∀ {node}, heap.allocator.headNode.nextNode = some node → ListNode.block heap.memory node = block :=
      fun head => listed.block_eq head
    obtain ⟨node, head, _, _, read⟩ := listed
    refine ⟨[node], ⟨head, ?_⟩, ?_⟩
    · change (ListNode.read heap.memory node.addr).nextNode = none
      rw [read]
      rfl
    · rw [List.map_singleton, region head]
      rfl

/-- Only the listed region is in the pool with the blocks in use. -/
theorem Shape.separated (shape : Shape heap free lost) :
    (heap.live.map Allocation.adjusted + free.toList).Pairwise Block.Apart := by
  have apart := shape.apart
  rw [pool, shape.pending, ← add_assoc] at apart
  exact (pairwise_add.mp apart).1

theorem adjustLayout_error {layout : Layout} {panic : Panic} (failed : adjustLayout layout = .error panic) :
    panic = .unwrapErr := by
  unfold adjustLayout at failed
  split at failed
  · exact (Except.error.inj failed).symm
  · cases failed

private def fourNodes : Block := ⟨0x1000, 64⟩

private theorem oneNode_fits : 16 + 8 ≤ 2 ^ 63 := by decide

private def oneNode : Layout := ⟨16, 8, Layout.powerOfTwo_eight, oneNode_fits⟩

private def twoNodes : Layout := ⟨32, 8, Layout.powerOfTwo_eight, by decide⟩

private def allNodes : Layout := ⟨64, 8, Layout.powerOfTwo_eight, by decide⟩

private def freshHeap : LinkedHeap :=
  ⟨⟨⟨0, some ⟨0x1000, by decide⟩⟩, {fourNodes}⟩, ListNode.write (fun _ => 0) 0x1000 (.new 64), 0, {fourNodes}⟩

private theorem run_freshHeap : Run Step (start fun _ => 0) [.initializeHeap fourNodes] freshHeap :=
  Run.cons ⟨⟨⟨by decide, by decide, by decide⟩, nofun⟩, rfl⟩ .nil

/-- The only region is handed out as one block. -/
private def emptyList (memory : Nat → BitVec 8) : LinkedHeap :=
  ⟨⟨⟨0, none⟩, 0⟩, memory, {⟨⟨0x1000, by decide⟩, allNodes⟩}, {fourNodes}⟩

/-- A block is handed out, and what is left behind it is listed. -/
private def splitHeap (memory : Nat → BitVec 8) : LinkedHeap :=
  ⟨⟨⟨0, some ⟨0x1010, by decide⟩⟩, {⟨0x1010, 48⟩}⟩, memory, {⟨⟨0x1000, by decide⟩, oneNode⟩}, {fourNodes}⟩

private theorem run_splitHeap : ∃ memory,
    Run Step (start fun _ => 0) ([.initializeHeap fourNodes] ++ [.alloc oneNode]) (splitHeap memory) := by
  have performed : ∃ memory, freshHeap.perform (.alloc oneNode) = .ok (splitHeap memory) := ⟨_, rfl⟩
  obtain ⟨memory, split⟩ := performed
  have legal : freshHeap.Legal (.alloc oneNode) := (by decide : 0 < 16)
  exact ⟨memory, run_freshHeap.snoc ⟨legal, split⟩⟩

/-- Whatever was allocated, freed and written before: blocks in use are aligned and inside
a heap, they overlap neither each other nor a region on the list, and a legal call returns
unless its layout cannot be adjusted. -/
theorem list_blocks_never_overlap (run : Run Step (start memory) calls heap) :
    (∀ allocation ∈ heap.live, ∃ size align, adjustLayout allocation.layout = .ok (size, align) ∧
      allocation.layout.align ∣ allocation.ptr.addr ∧ allocation.layout.size ≤ size ∧
      ∃ region ∈ heap.heaps, (⟨allocation.ptr.addr, size⟩ : Block).span ⊆ region.span) ∧
    (∃! nodes, heap.FreeList nodes ∧
      (heap.live.map Allocation.adjusted + nodes.map (ListNode.block heap.memory)).Pairwise Block.Apart) ∧
    ∀ call, heap.Legal call → (∃ after, heap.perform call = .ok after) ∨
      ∃ layout, call = .alloc layout ∧ adjustLayout layout = .error .unwrapErr := by
  obtain ⟨free, lost, shape, _⟩ := shape_of_run run
  obtain ⟨nodes, list, regions⟩ := shape.freeList
  refine ⟨fun allocation member => ?_, ⟨nodes, ⟨list, ?_⟩, fun other also => also.1.unique list⟩, fun call legal => ?_⟩
  · obtain ⟨size, align, adjusted, aligned⟩ := shape.owned allocation member
    have spec := adjustLayout_spec adjusted
    obtain ⟨region, known, within⟩ := shape.placed _ (Multiset.mem_add.mpr (.inl (Multiset.mem_map_of_mem _ member)))
    rw [adjusted_eq adjusted] at within
    exact ⟨size, align, adjusted, spec.coarser.trans aligned, spec.covers, region, known, within.span⟩
  · rw [regions]
    exact shape.separated
  · by_cases adjustable : ∀ layout, call = .alloc layout → ∃ size align, adjustLayout layout = .ok (size, align)
    · obtain ⟨after, performed, _⟩ := shape.perform legal adjustable
      exact .inl ⟨after, performed⟩
    · push Not at adjustable
      obtain ⟨layout, same, fails⟩ := adjustable
      refine .inr ⟨layout, same, ?_⟩
      cases adjusted : adjustLayout layout with
      | ok value => exact absurd adjusted (fails value.1 value.2)
      | error panic => rw [adjustLayout_error adjusted]

/-- A block of a fresh heap. -/
theorem list_blocks_never_overlap_split : ∃ heap : LinkedHeap,
    Run Step (start fun _ => 0) ([.initializeHeap fourNodes] ++ [.alloc oneNode]) heap ∧
    heap.live = {⟨⟨0x1000, by decide⟩, oneNode⟩} ∧
    ∃! nodes, heap.FreeList nodes ∧
      (heap.live.map Allocation.adjusted + nodes.map (ListNode.block heap.memory)).Pairwise Block.Apart := by
  obtain ⟨memory, run⟩ := run_splitHeap
  exact ⟨_, run, rfl, (list_blocks_never_overlap run).2.1⟩

/-- Every region that was added and not removed is on the list, and a request is refused
only if none of them can hold it. -/
structure Keeps (heap : LinkedHeap) : Prop where
  reaches : ∃ nodes, heap.FreeList nodes ∧
    ∀ region ∈ heap.allocator.pending, region ∈ nodes.map (ListNode.block heap.memory)
  refuses : ∀ layout size align after, adjustLayout layout = .ok (size, align) →
    heap.allocator.alloc heap.memory layout = .ok (0, after) →
    ∀ region ∈ heap.allocator.pending, allocateFromBlock region size align = .ok none

/-- The regions are kept exactly when none is lost. -/
theorem Shape.keeps_iff (shape : Shape heap free lost) : heap.Keeps ↔ lost = 0 := by
  have pending := shape.pending
  obtain ⟨nodes, list, regions⟩ := shape.freeList
  constructor
  · rintro ⟨⟨others, also, reaches⟩, _⟩
    obtain rfl := list.unique also
    refine Multiset.eq_zero_of_forall_notMem fun region member => ?_
    have given : region ∈ heap.allocator.pending := pending ▸ Multiset.mem_add.mpr (.inr member)
    have listed := reaches region given
    rw [regions] at listed
    -- The listed region is apart from every lost one, so it is none of them.
    have apart := (pairwise_add.mp shape.apart).2.1
    rw [pending] at apart
    have away := (pairwise_add.mp apart).2.2 region (Multiset.mem_coe.mpr listed) region member
    have room := (shape.nodes region given).2
    exact away.ne (Nat.lt_of_lt_of_le (by decide) room) rfl
  · intro none_lost
    rw [none_lost, add_zero] at pending
    refine ⟨⟨nodes, list, fun region member => ?_⟩, fun layout size align after adjusted null region member => ?_⟩
    · rw [pending] at member
      exact regions ▸ member
    · rw [pending] at member
      have listed := Option.mem_toList.mp (Multiset.mem_coe.mp member)
      obtain rfl : free = some region := listed
      have spec := adjustLayout_spec adjusted
      have known := shape.free_pending
      have low := shape.below (Multiset.mem_add.mpr (.inr known))
      have room := (shape.nodes region known).2
      obtain ⟨found, returned, fits⟩ := allocateFromBlock_spec size low spec.powerOfTwo spec.bounded
      cases found with
      | none => exact returned
      | some start =>
        obtain ⟨_, _, taken, _⟩ := alloc_taken adjusted shape.listed room low returned (fits start rfl)
        exact absurd (congrArg Prod.fst (Except.ok.inj (taken.symm.trans null))) (shape.proper (fits start rfl))

/-- The free regions are kept exactly along the runs whose every `initialize` and `dealloc`
finds an empty list, at an address that is not null. -/
theorem keeps_regions_iff (run : Run Step (start memory) calls heap) : heap.Keeps ↔ Sparing memory calls := by
  obtain ⟨free, lost, shape, losing⟩ := shape_of_run run
  rw [shape.keeps_iff, losing]

/-- The whole heap is handed out, and the list is empty when it comes back. -/
theorem keeps_regions_returned : ∃ heap : LinkedHeap,
    Run Step (start fun _ => 0) ([.initializeHeap fourNodes] ++ [.alloc allNodes] ++ [.dealloc 0x1000 allNodes]) heap ∧
    heap.live = 0 ∧ heap.Keeps := by
  have performed : ∃ memory, freshHeap.perform (.alloc allNodes) = .ok (emptyList memory) := ⟨_, rfl⟩
  obtain ⟨memory, taken⟩ := performed
  have handed : Run Step (start fun _ => 0) ([.initializeHeap fourNodes] ++ [.alloc allNodes]) (emptyList memory) :=
    run_freshHeap.snoc ⟨(by decide : 0 < 64), taken⟩
  have given : Step (emptyList memory) (.dealloc 0x1000 allNodes)
      ⟨⟨⟨0, some ⟨0x1000, by decide⟩⟩, {fourNodes}⟩, ListNode.write memory 0x1000 (.new 64), 0, {fourNodes}⟩ :=
    ⟨⟨⟨0x1000, by decide⟩, rfl, Multiset.mem_singleton_self _⟩, rfl⟩
  refine ⟨_, handed.snoc given, rfl, (keeps_regions_iff (handed.snoc given)).mpr ?_⟩
  refine (sparing_snoc handed).mpr ⟨(sparing_snoc run_freshHeap).mpr ⟨?_, trivial⟩, rfl⟩
  exact (sparing_snoc Run.nil).mpr ⟨sparing_nil _, rfl, by decide⟩

/-- The block is given back while the rest of the heap is listed: the rest is lost, and a
request it could hold is refused. -/
theorem keeps_regions_dropped : ∃ heap : LinkedHeap, ∃ after,
    Run Step (start fun _ => 0) ([.initializeHeap fourNodes] ++ [.alloc oneNode] ++ [.dealloc 0x1000 oneNode]) heap ∧
    heap.FreeList [⟨0x1000, by decide⟩] ∧ ⟨0x1010, 48⟩ ∈ heap.allocator.pending ∧
    heap.allocator.alloc heap.memory twoNodes = .ok (0, after) ∧
    allocateFromBlock ⟨0x1010, 48⟩ 32 8 = .ok (some 0x1010) ∧ ¬ heap.Keeps := by
  obtain ⟨memory, run⟩ := run_splitHeap
  let dropped : LinkedHeap :=
    ⟨⟨⟨0, some ⟨0x1000, by decide⟩⟩, {⟨0x1000, 16⟩} + {⟨0x1010, 48⟩}⟩, ListNode.write memory 0x1000 (.new 16), 0, {fourNodes}⟩
  have given : Step (splitHeap memory) (.dealloc 0x1000 oneNode) dropped :=
    ⟨⟨⟨0x1000, by decide⟩, rfl, Multiset.mem_singleton_self _⟩, rfl⟩
  have listed : dropped.allocator.Listed dropped.memory (some ⟨0x1000, 16⟩) :=
    ⟨⟨0x1000, by decide⟩, rfl, rfl, by decide, ListNode.read_write⟩
  have null : dropped.allocator.alloc dropped.memory twoNodes = .ok (0, dropped.allocator, dropped.memory) :=
    alloc_refused (rfl : adjustLayout twoNodes = .ok (32, 8)) listed rfl
  have member : (⟨0x1010, 48⟩ : Block) ∈ dropped.allocator.pending :=
    Multiset.mem_add.mpr (.inr (Multiset.mem_singleton_self _))
  have fits : allocateFromBlock ⟨0x1010, 48⟩ 32 8 = .ok (some 0x1010) := rfl
  refine ⟨dropped, _, run.snoc given, ⟨rfl, ?_⟩, member, null, fits, fun keeps => ?_⟩
  · change (ListNode.read dropped.memory 0x1000).nextNode = none
    rw [show ListNode.read dropped.memory 0x1000 = .new 16 from ListNode.read_write]
    rfl
  · exact nomatch fits.symm.trans (keeps.refuses twoNodes 32 8 _ rfl null _ member)

end Runs

end LinkedHeap

end Zephyr
