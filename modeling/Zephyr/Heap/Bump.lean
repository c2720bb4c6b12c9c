import Zephyr.Heap.Align
import Zephyr.Heap.Partition

/-! `BumpAllocator`: blocks are handed out upwards, and all of them are taken back at once
when the last one is given back. -/

namespace Zephyr

open Region Transition

structure BumpAllocator where
  heapStart : Nat
  heapEnd : Nat
  nextFree : Nat
  allocationCount : Nat
  deriving DecidableEq

namespace BumpAllocator

def new : BumpAllocator := ⟨0, 0, 0, 0⟩

/-- `saturating_add` stops at the largest `usize`. -/
def init (bump : BumpAllocator) (heapStart heapSize : Nat) : BumpAllocator :=
  { bump with heapStart, heapEnd := min (heapStart + heapSize) (2 ^ 64 - 1), nextFree := heapStart }

def alloc (bump : BumpAllocator) (layout : Layout) : Except Panic (BitVec 64 × BumpAllocator) := do
  let allocStart ← alignUp bump.nextFree layout.align
  match checkedAdd allocStart layout.size with
  | none => return (0, bump)
  | some allocEnd =>
    if allocEnd > bump.heapEnd then return (0, bump)
    else
      let allocationCount ← usizeAdd bump.allocationCount 1
      return (BitVec.ofNat 64 allocStart, { bump with nextFree := allocEnd, allocationCount })

def dealloc (bump : BumpAllocator) (_ptr : BitVec 64) (_layout : Layout) : Except Panic BumpAllocator := do
  let allocationCount ← usizeSub bump.allocationCount 1
  if allocationCount = 0 then return { bump with allocationCount, nextFree := bump.heapStart }
  else return { bump with allocationCount }

end BumpAllocator

/-- The allocator and, as a ghost, the blocks in use. -/
structure BumpHeap where
  bump : BumpAllocator
  live : Multiset Allocation
  deriving DecidableEq

inductive BumpCall where
  | alloc (layout : Layout)
  | dealloc (ptr : BitVec 64) (layout : Layout)

namespace BumpHeap

def start (region : Block) : BumpHeap := ⟨BumpAllocator.new.init region.start region.size, 0⟩

/-- Layouts are not empty, and blocks are given back once and with their layout. -/
def Legal (heap : BumpHeap) : BumpCall → Prop
  | .alloc layout => 0 < layout.size
  | .dealloc ptr layout => ∃ node, NonNull.new ptr = some node ∧ ⟨node, layout⟩ ∈ heap.live

def perform (heap : BumpHeap) : BumpCall → Except Panic BumpHeap
  | .alloc layout => do
    let (ptr, bump) ← heap.bump.alloc layout
    return ⟨bump, Allocation.issued ptr layout + heap.live⟩
  | .dealloc ptr layout => do
    let bump ← heap.bump.dealloc ptr layout
    return ⟨bump, heap.live - Allocation.issued ptr layout⟩

def Step (before : BumpHeap) (call : BumpCall) (after : BumpHeap) : Prop :=
  before.Legal call ∧ before.perform call = .ok after

/-- A heap away from the null page and in the lower half of the address space. -/
structure Bounds (region : Block) : Prop where
  nonzero : 0 < region.start
  low : region.start + region.size < 2 ^ 47

/-- The blocks in use are counted, and lie below `next_free`. -/
structure Bumped (region : Block) (heap : BumpHeap) : Prop where
  start : heap.bump.heapStart = region.start
  limit : heap.bump.heapEnd = region.start + region.size
  counted : heap.bump.allocationCount = heap.live.card
  room : region.start + heap.live.card ≤ heap.bump.nextFree
  below : heap.bump.nextFree ≤ region.start + region.size
  placed : ∀ allocation ∈ heap.live, allocation.Placed region
  passed : ∀ allocation ∈ heap.live, allocation.ptr.addr + allocation.layout.size ≤ heap.bump.nextFree
  apart : heap.live.Pairwise Allocation.Apart

section Steps

variable {region : Block} {heap : BumpHeap} {layout : Layout}

theorem bumped_start (bounds : Bounds region) : Bumped region (start region) where
  start := rfl
  limit := Nat.min_eq_left (by have low := bounds.low; omega)
  counted := rfl
  room := Nat.le_refl _
  below := Nat.le_add_right _ _
  placed := nofun
  passed := nofun
  apart := Multiset.pairwise_zero _

theorem Bumped.issue (bumped : Bumped region heap) (ptr : NonNull) (sized : 0 < layout.size)
    (aligned : layout.align ∣ ptr.addr) (above : heap.bump.nextFree ≤ ptr.addr)
    (fits : ptr.addr + layout.size ≤ region.start + region.size) :
    Bumped region ⟨{ heap.bump with
      nextFree := ptr.addr + layout.size, allocationCount := heap.bump.allocationCount + 1 },
      ⟨ptr, layout⟩ ::ₘ heap.live⟩ := by
  have room := bumped.room
  refine ⟨bumped.start, bumped.limit, ?_, ?_, fits, ?_, ?_, ?_⟩
  · rw [Multiset.card_cons, bumped.counted]
  · rw [Multiset.card_cons]
    dsimp only
    omega
  · refine Multiset.forall_mem_cons.mpr ⟨⟨aligned, ?_⟩, bumped.placed⟩
    exact Set.Ico_subset_Ico (show region.start ≤ ptr.addr by omega) fits
  · refine Multiset.forall_mem_cons.mpr ⟨Nat.le_refl _, fun other member => ?_⟩
    exact (bumped.passed other member).trans (above.trans (Nat.le_add_right _ _))
  · refine pairwise_cons.mpr ⟨fun other member => ?_, bumped.apart⟩
    refine Set.disjoint_left.mpr fun byte inside within => ?_
    exact absurd (within.2.trans_le ((bumped.passed other member).trans above)) (Nat.not_lt.mpr inside.1)

/-- `alloc` returns null and changes nothing, or a block above the others. -/
theorem Bumped.alloc (bounds : Bounds region) (bumped : Bumped region heap) (sized : 0 < layout.size) :
    ∃ ptr bump, heap.bump.alloc layout = .ok (ptr, bump) ∧ (ptr = 0 → bump = heap.bump) ∧
      Bumped region ⟨bump, Allocation.issued ptr layout + heap.live⟩ := by
  obtain ⟨nonzero, low⟩ := bounds
  have below := bumped.below
  have room := bumped.room
  have fits := layout.fits
  obtain ⟨addr, returned, dvd, above, near⟩ := alignUp_ok heap.bump.nextFree layout.powerOfTwo (by omega)
  by_cases outside : region.start + region.size < addr + layout.size
  · refine ⟨0, heap.bump, ?_, fun _ => rfl, ?_⟩
    · simp only [BumpAllocator.alloc, returned, bind, Except.bind]
      split
      · rfl
      · rename_i allocEnd sum
        obtain rfl : addr + layout.size = allocEnd := by
          unfold checkedAdd at sum
          split at sum
          · exact Option.some.inj sum
          · cases sum
        rw [if_pos (bumped.limit ▸ outside)]
        rfl
    · rw [Allocation.issued_null, Multiset.zero_add]
      exact bumped
  · have inside : addr + layout.size ≤ region.start + region.size := Nat.not_lt.mp outside
    have value : (BitVec.ofNat 64 addr).toNat = addr := by
      rw [BitVec.toNat_ofNat, Nat.mod_eq_of_lt (by omega)]
    have proper : BitVec.ofNat 64 addr ≠ 0 := by
      intro null
      rw [null] at value
      change 0 = addr at value
      omega
    have count : heap.bump.allocationCount + 1 < 2 ^ 64 := by
      rw [bumped.counted]
      omega
    have issued := bumped.issue ⟨BitVec.ofNat 64 addr, proper⟩ sized (by rwa [NonNull.addr, value])
      (by rwa [NonNull.addr, value]) (by rwa [NonNull.addr, value])
    rw [NonNull.addr, value] at issued
    refine ⟨BitVec.ofNat 64 addr, { heap.bump with
      nextFree := addr + layout.size, allocationCount := heap.bump.allocationCount + 1 }, ?_,
      fun null => absurd null proper, ?_⟩
    · simp only [BumpAllocator.alloc, returned, bind, Except.bind, checkedAdd_some (show addr + layout.size < 2 ^ 64 by omega),
        bumped.limit, if_neg outside, usizeAdd_ok count, gt_iff_lt]
      rfl
    · rw [Allocation.issued_ptr ⟨_, proper⟩, Multiset.singleton_add]
      exact issued

/-- `dealloc` of a block in use returns; with the last one, the heap is empty again. -/
theorem Bumped.dealloc (bumped : Bumped region heap) {ptr : NonNull} (member : ⟨ptr, layout⟩ ∈ heap.live) :
    ∃ bump, heap.bump.dealloc ptr.ptr layout = .ok bump ∧
      Bumped region ⟨bump, heap.live - Allocation.issued ptr.ptr layout⟩ := by
  obtain ⟨others, live⟩ := Multiset.exists_cons_of_mem member
  obtain ⟨start, limit, counted, room, below, placed, passed, apart⟩ := bumped
  have rest : heap.live - Allocation.issued ptr.ptr layout = others := by
    rw [Allocation.issued_ptr, live, Multiset.sub_singleton, Multiset.erase_cons_head]
  rw [live] at counted room placed passed apart
  rw [Multiset.card_cons] at counted room
  rw [rest]
  have left : usizeSub heap.bump.allocationCount 1 = .ok others.card := by
    rw [usizeSub_ok (by omega), counted, Nat.add_sub_cancel]
  by_cases last : others.card = 0
  · refine ⟨{ heap.bump with allocationCount := 0, nextFree := heap.bump.heapStart }, ?_, ?_⟩
    · simp only [BumpAllocator.dealloc, left, last, bind, Except.bind, if_true]
      rfl
    · obtain rfl := Multiset.card_eq_zero.mp last
      exact ⟨start, limit, rfl, Nat.le_of_eq start.symm, start.le.trans (Nat.le_add_right _ _), nofun, nofun,
        Multiset.pairwise_zero _⟩
  · refine ⟨{ heap.bump with allocationCount := others.card }, ?_, ?_⟩
    · simp only [BumpAllocator.dealloc, left, bind, Except.bind, if_neg last]
      rfl
    · exact ⟨start, limit, rfl, by dsimp only; omega, below, (Multiset.forall_mem_cons.mp placed).2,
        (Multiset.forall_mem_cons.mp passed).2, (pairwise_cons.mp apart).2⟩

/-- Every legal call returns, and keeps the blocks below `next_free`. -/
theorem Bumped.perform (bounds : Bounds region) (bumped : Bumped region heap) {call : BumpCall} (legal : heap.Legal call) :
    ∃ after, heap.perform call = .ok after ∧ Bumped region after := by
  cases call with
  | alloc layout =>
    obtain ⟨ptr, bump, returned, _, kept⟩ := bumped.alloc bounds legal
    exact ⟨_, by simp only [BumpHeap.perform, returned, bind, Except.bind]; rfl, kept⟩
  | dealloc ptr layout =>
    obtain ⟨node, pointer, member⟩ := legal
    obtain rfl := NonNull.ptr_of_new pointer
    obtain ⟨bump, returned, kept⟩ := bumped.dealloc member
    exact ⟨_, by simp only [BumpHeap.perform, returned, bind, Except.bind]; rfl, kept⟩

theorem bumped_of_run (bounds : Bounds region) {calls : List BumpCall} (run : Run Step (BumpHeap.start region) calls heap) :
    Bumped region heap :=
  run.invariant (bumped_start bounds) fun {before call after} bumped step => by
    obtain ⟨next, returned, kept⟩ := bumped.perform bounds step.1
    obtain rfl := Except.ok.inj (step.2.symm.trans returned)
    exact kept

end Steps

private def kernelPages : Block := ⟨0x1000, 0x2000⟩

private def oneWord : Layout := ⟨8, 8, Layout.powerOfTwo_eight, by decide⟩

/-- Whatever was allocated and freed before: the counter is the number of blocks in use,
they are in place and apart, a failed `alloc` changes nothing, and no legal call leaves
`usize`. -/
theorem reset_is_safe {region : Block} (bounds : Bounds region) {calls : List BumpCall} {heap : BumpHeap}
    (run : Run Step (start region) calls heap) :
    heap.bump.allocationCount = heap.live.card ∧ (∀ allocation ∈ heap.live, allocation.Placed region) ∧
    heap.live.Pairwise Allocation.Apart ∧
    (∀ layout, 0 < layout.size → ∃ ptr bump, heap.bump.alloc layout = .ok (ptr, bump) ∧ (ptr = 0 → bump = heap.bump) ∧
      ∀ node, NonNull.new ptr = some node → (⟨node, layout⟩ : Allocation).Placed region ∧
        ∀ other ∈ heap.live, (⟨node, layout⟩ : Allocation).Apart other) ∧
    ∀ call, heap.Legal call → ∃ after, heap.perform call = .ok after := by
  have bumped := bumped_of_run bounds run
  refine ⟨bumped.counted, bumped.placed, bumped.apart, fun layout sized => ?_, fun call legal => ?_⟩
  · obtain ⟨ptr, bump, returned, failed, kept⟩ := bumped.alloc bounds sized
    refine ⟨ptr, bump, returned, failed, fun node pointer => ?_⟩
    obtain ⟨_, _, _, _, _, placed, _, apart⟩ := kept
    simp only [Allocation.issued, pointer, Multiset.singleton_add] at placed apart
    exact ⟨(Multiset.forall_mem_cons.mp placed).1, (pairwise_cons.mp apart).1⟩
  · obtain ⟨after, returned, _⟩ := bumped.perform bounds legal
    exact ⟨after, returned⟩

/-- Two blocks are handed out and given back; the next one is the first again. -/
theorem reset_is_safe_reused : ∃ heap : BumpHeap,
    Run Step (start kernelPages) [.alloc oneWord, .alloc oneWord, .dealloc 0x1000 oneWord, .dealloc 0x1008 oneWord,
      .alloc oneWord] heap ∧ heap.live = {⟨⟨0x1000, by decide⟩, oneWord⟩} ∧ heap.bump.allocationCount = heap.live.card := by
  let lower : Allocation := ⟨⟨0x1000, by decide⟩, oneWord⟩
  let upper : Allocation := ⟨⟨0x1008, by decide⟩, oneWord⟩
  have one : Step (start kernelPages) (.alloc oneWord) ⟨⟨0x1000, 0x3000, 0x1008, 1⟩, {lower}⟩ := ⟨(by decide : 0 < 8), rfl⟩
  have two : Step ⟨⟨0x1000, 0x3000, 0x1008, 1⟩, {lower}⟩ (.alloc oneWord)
      ⟨⟨0x1000, 0x3000, 0x1010, 2⟩, {upper} + {lower}⟩ := ⟨(by decide : 0 < 8), by decide +kernel⟩
  have three : Step ⟨⟨0x1000, 0x3000, 0x1010, 2⟩, {upper} + {lower}⟩ (.dealloc 0x1000 oneWord)
      ⟨⟨0x1000, 0x3000, 0x1010, 1⟩, {upper}⟩ := ⟨⟨lower.ptr, rfl, by decide⟩, by decide +kernel⟩
  have four : Step ⟨⟨0x1000, 0x3000, 0x1010, 1⟩, {upper}⟩ (.dealloc 0x1008 oneWord)
      ⟨⟨0x1000, 0x3000, 0x1000, 0⟩, 0⟩ := ⟨⟨upper.ptr, rfl, by decide⟩, by decide +kernel⟩
  have five : Step ⟨⟨0x1000, 0x3000, 0x1000, 0⟩, 0⟩ (.alloc oneWord) ⟨⟨0x1000, 0x3000, 0x1008, 1⟩, {lower}⟩ :=
    ⟨(by decide : 0 < 8), rfl⟩
  have run := Run.cons one (.cons two (.cons three (.cons four (.cons five .nil))))
  exact ⟨_, run, rfl, (reset_is_safe ⟨by decide, by decide⟩ run).1⟩

end BumpHeap

end Zephyr
