import Zephyr.Mem.Mapper

/-! The functions of `mem/memory.rs` that change a user page table: mapped ranges,
on-demand pages, user stacks, and the recursive release of a tree. A level-4 table is
named by its frame, and `active` is the table in CR3. -/

namespace Zephyr

open Radix PageTableFlags

/-- Bits 47 to 63 are all equal, as the processor wants them. -/
def Canonical (addr : Nat) : Prop := addr / 2 ^ 47 = 0 ∨ addr / 2 ^ 47 = 2 ^ 17 - 1

instance (addr : Nat) : Decidable (Canonical addr) := inferInstanceAs (Decidable (_ ∨ _))

namespace VirtAddr

/-- `VirtAddr::new_truncate`: bit 47 is copied to the bits above it. -/
def newTruncate (addr : Nat) : Nat :=
  if addr % 2 ^ 48 < 2 ^ 47 then addr % 2 ^ 48 else addr % 2 ^ 48 + (2 ^ 64 - 2 ^ 48)

/-- `VirtAddr::new`: an address with bit 47 alone set is sign extended. -/
def new (addr : Nat) : Except Panic VirtAddr :=
  if Canonical addr then .ok addr
  else if addr / 2 ^ 47 = 1 then .ok (newTruncate addr)
  else .error .virtAddrNotValid

/-- Addition wraps in a release build. -/
def add (addr : VirtAddr) (rhs : Nat) : Except Panic VirtAddr := new ((addr + rhs) % 2 ^ 64)

def sub (addr : VirtAddr) (rhs : Nat) : Except Panic VirtAddr :=
  if rhs ≤ addr then new (addr - rhs) else .error .unwrapNone

/-- The addresses that `VirtAddr::new` takes. -/
def Addressable (addr : Nat) : Prop := Canonical addr ∨ addr / 2 ^ 47 = 1

instance (addr : Nat) : Decidable (Addressable addr) := inferInstanceAs (Decidable (_ ∨ _))

section New

variable {addr : Nat}

theorem new_canonical (canonical : Canonical addr) : new addr = .ok addr := if_pos canonical

theorem new_of_lt (low : addr < 2 ^ 47) : new addr = .ok addr :=
  new_canonical (.inl (Nat.div_eq_of_lt low))

theorem newTruncate_canonical (canonical : Canonical addr) : newTruncate addr = addr := by
  unfold Canonical at canonical
  unfold newTruncate
  split
  · omega
  · omega

theorem new_addressable (addressable : Addressable addr) : new addr = .ok (newTruncate addr) := by
  by_cases canonical : Canonical addr
  · rw [new_canonical canonical, newTruncate_canonical canonical]
  · rw [new, if_neg canonical, if_pos (addressable.resolve_left canonical)]

theorem new_not_addressable (wild : ¬ Addressable addr) : new addr = .error .virtAddrNotValid := by
  rw [Addressable, not_or] at wild
  rw [new, if_neg wild.1, if_neg wild.2]

/-- What comes out in the lower half was there before. -/
theorem eq_of_newTruncate_lt (addressable : Addressable addr) (low : newTruncate addr < 2 ^ 47) :
    newTruncate addr = addr := by
  refine newTruncate_canonical (addressable.resolve_right fun extended => ?_)
  unfold newTruncate at low
  split at low
  · omega
  · omega

/-- The bits that are copied take no part in translation. -/
theorem newTruncate_mod (addr : Nat) : newTruncate addr % 2 ^ 48 = addr % 2 ^ 48 := by
  unfold newTruncate
  split
  · exact Nat.mod_mod addr (2 ^ 48)
  · omega

theorem path_congr {other : Nat} (same : addr % 2 ^ 48 = other % 2 ^ 48) :
    path addr = path other ∧ p1Index addr = p1Index other := by
  have first : addr / 2 ^ 12 % 512 = other / 2 ^ 12 % 512 := by omega
  have second : addr / 2 ^ 21 % 512 = other / 2 ^ 21 % 512 := by omega
  have third : addr / 2 ^ 30 % 512 = other / 2 ^ 30 % 512 := by omega
  have fourth : addr / 2 ^ 39 % 512 = other / 2 ^ 39 % 512 := by omega
  simp only [path, p1Index, p2Index, p3Index, p4Index, Fin.ofNat, first, second, third, fourth, and_self]

@[simp] theorem path_newTruncate (addr : Nat) : path (newTruncate addr) = path addr :=
  (path_congr (newTruncate_mod addr)).1

@[simp] theorem p1Index_newTruncate (addr : Nat) : p1Index (newTruncate addr) = p1Index addr :=
  (path_congr (newTruncate_mod addr)).2

theorem newTruncate_page (number : Nat) : newTruncate (number * 4096) / 4096 * 4096 = newTruncate (number * 4096) := by
  unfold newTruncate
  split
  · omega
  · omega

end New

end VirtAddr

/-- `Page::range_inclusive` from and to a page number, as page addresses. Pages are in the
order of their 48 address bits, and the page after the last one of the lower half is the
first of the upper half. -/
def rangeInclusive (start last : Nat) : List VirtAddr :=
  (List.range (last % 2 ^ 36 + 1 - start % 2 ^ 36)).map fun page => VirtAddr.newTruncate ((start + page) * 4096)

/-- The pages of `start_addr .. start_addr + size - 1`. -/
def pagesOf (startAddr : VirtAddr) (size : Nat) : Except Panic (List VirtAddr) := do
  let sum ← startAddr.add size
  let endAddr ← sum.sub 1
  .ok (rangeInclusive (startAddr / 4096) (endAddr / 4096))

section Ranges

variable {start size last finish : Nat} {pages : List VirtAddr}

theorem rangeInclusive_lower (canonical : Canonical start) (low : last < 2 ^ 47) :
    rangeInclusive (start / 4096) (last / 4096) =
      (List.range (last / 4096 + 1 - start / 4096)).map fun page => (start / 4096 + page) * 4096 := by
  have count : last / 4096 % 2 ^ 36 + 1 - start / 4096 % 2 ^ 36 = last / 4096 + 1 - start / 4096 := by
    unfold Canonical at canonical
    omega
  rw [rangeInclusive, count]
  refine List.map_congr_left fun page listed => ?_
  rw [List.mem_range] at listed
  exact VirtAddr.newTruncate_canonical (.inl (by omega))

/-- The pages of a range whose end, wrapped or not, comes out in the lower half. -/
theorem pagesOf_finish (canonical : Canonical start) (sum : (start + size) % 2 ^ 64 = finish) (positive : 0 < finish)
    (low : finish < 2 ^ 47) : pagesOf start size =
      .ok ((List.range ((finish - 1) / 4096 + 1 - start / 4096)).map fun page => (start / 4096 + page) * 4096) := by
  have total : VirtAddr.add start size = .ok finish := by
    rw [VirtAddr.add, sum, VirtAddr.new_of_lt low]
  have less : VirtAddr.sub finish 1 = .ok (finish - 1) := by
    rw [VirtAddr.sub, if_pos (by omega), VirtAddr.new_of_lt (by omega)]
  simp only [pagesOf, total, less, bind, Except.bind]
  rw [rangeInclusive_lower canonical (by omega)]

theorem pagesOf_ok (listed : pagesOf start size = .ok pages) :
    ∃ count, pages = (List.range' (start / 4096) count).map fun number => VirtAddr.newTruncate (number * 4096) := by
  unfold pagesOf at listed
  cases sum : VirtAddr.add start size with
  | error panic => simp [sum, bind, Except.bind] at listed
  | ok total =>
    cases less : VirtAddr.sub total 1 with
    | error panic => simp [sum, less, bind, Except.bind] at listed
    | ok endAddr =>
      simp only [sum, less, bind, Except.bind, rangeInclusive] at listed
      cases listed
      exact ⟨_, by rw [List.range'_eq_map_range, List.map_map]; rfl⟩

end Ranges

/-- `HEAP_START` and `HEAP_SIZE` of the kernel heap. -/
def heapStart : Nat := 0x444444440000
def heapSize : Nat := 300 * 1024

namespace MemoryInfo

section Ranges

variable (mapper : Mapper)

/-- The loop of `allocate_pages_mapper`. -/
def allocateEach (root : Nat) (flags : PageTableFlags) :
    List VirtAddr → MemoryInfo → Except Panic (Except MapToError Unit × MemoryInfo)
  | [], self => .ok (.ok (), self)
  | page :: pages, self =>
    match self.frameAllocator.allocateFrame with
    | .error panic => .error panic
    | .ok (none, frameAllocator) => .ok (.error .frameAllocationFailed, { self with frameAllocator })
    | .ok (some frame, frameAllocator) =>
      match mapper.mapTo { self with frameAllocator } root page frame flags with
      | .error panic => .error panic
      | .ok (.error error, info) => .ok (.error error, info)
      | .ok (.ok (), info) => allocateEach root flags pages info

/-- `allocate_pages`, through `allocate_pages_mapper`. -/
def allocatePages (self : MemoryInfo) (root : Nat) (startAddr : VirtAddr) (size : Nat)
    (flags : PageTableFlags) : Except Panic (Except MapToError Unit × MemoryInfo) :=
  match pagesOf startAddr size with
  | .error panic => .error panic
  | .ok pages => allocateEach mapper root flags pages self

/-- The loop of `create_user_ondemand_pages`: one frame under every page. -/
def mapEach (root frame : Nat) :
    List VirtAddr → MemoryInfo → Except Panic (Except MapToError Unit × MemoryInfo)
  | [], self => .ok (.ok (), self)
  | page :: pages, self =>
    match mapper.mapToWithTableFlags self root page frame userPage userPage with
    | .error panic => .error panic
    | .ok (.error error, info) => .ok (.error error, info)
    | .ok (.ok (), info) => mapEach root frame pages info

def createUserOndemandPages (self : MemoryInfo) (root : Nat) (startAddr : VirtAddr) (size : Nat) :
    Except Panic (Except MapToError Unit × MemoryInfo) :=
  match pagesOf startAddr size with
  | .error panic => .error panic
  | .ok pages =>
    match self.frameAllocator.allocateFrame with
    | .error panic => .error panic
    | .ok (none, frameAllocator) => .ok (.error .frameAllocationFailed, { self with frameAllocator })
    | .ok (some frame, frameAllocator) =>
      match mapEach mapper root frame pages { self with frameAllocator } with
      | .error panic => .error panic
      | .ok (.error error, info) => .ok (.error error, info)
      | .ok (.ok (), info) =>
        match mapper.updateFlags info root (startAddr / 4096 * 4096) userPage with
        | .error panic => .error panic
        | .ok (.error _, info) => .ok (.error .frameAllocationFailed, info)
        | .ok (.ok (), info) => .ok (.ok (), info)

end Ranges

/-- `USER_STACK_PAGE_INDEX` -/
def userStackPageIndex : List (Fin 512) := [6, 0, 0]

/-- The level-1 table of the user stacks, with the tables above it made where they
are missing. -/
def stackTable (self : MemoryInfo) (table : Nat) : List (Fin 512) → Except Panic (Nat × MemoryInfo)
  | [] => .ok (table, self)
  | index :: rest =>
    if (self.memory table index).isUnused then
      match self.createPagetable with
      | .error panic => .error panic
      | .ok (newTable, info) =>
        (info.write table index (.setAddr newTable userPage)).stackTable newTable rest
    else self.stackTable (self.memory table index).addr rest

/-- `all(|index| table[index].is_unused())`, which stops at the first used entry. -/
def allUnused (self : MemoryInfo) (table : Nat) : List Nat → Except Panic Bool
  | [] => .ok true
  | index :: rest =>
    if inside : index < 512 then
      if (self.memory table ⟨index, inside⟩).isUnused then self.allUnused table rest else .ok false
    else .error .indexOutOfBounds

def fillSlot (self : MemoryInfo) (table : Nat) : List Nat → Except Panic (Except String Unit × MemoryInfo)
  | [] => .ok (.ok (), self)
  | index :: rest =>
    if inside : index < 512 then
      match self.frameAllocator.allocateFrame with
      | .error panic => .error panic
      | .ok (none, frameAllocator) => .ok (.error "Failed to allocate frame", { self with frameAllocator })
      | .ok (some frame, frameAllocator) =>
        ({ self with frameAllocator }.write table ⟨index, inside⟩ (.setAddr frame userPage)).fillSlot table rest
    else .error .indexOutOfBounds

/-- The pages `n * 8 + 1 ..= n * 8 + 10` of a slot. -/
def slotPages (n : Nat) : List Nat := (List.range 10).map (n * 8 + 1 + ·)

/-- `slot_address` -/
def slotAddress (n : Nat) : Nat := 6 * 2 ^ 39 + n * 8 * 4096

/-- The search for an empty slot, over the rounds that are left. -/
def findSlot (self : MemoryInfo) (table nStart : Nat) :
    List Nat → Except Panic (Except String (VirtAddr × VirtAddr) × MemoryInfo)
  | [] => .ok (.error "All thread stack slots full", self)
  | i :: rest =>
    let n := (nStart + i) % 64
    match self.allUnused table (slotPages n) with
    | .error panic => .error panic
    | .ok false => self.findSlot table nStart rest
    | .ok true =>
      match self.fillSlot table (slotPages n) with
      | .error panic => .error panic
      | .ok (.error error, info) => .ok (.error error, info)
      | .ok (.ok (), info) => .ok (.ok (slotAddress n + 4096, slotAddress n + 11 * 4096), info)

/-- `allocate_user_stack`; `nStart` is the value `unique_id()` gives. -/
def allocateUserStack (self : MemoryInfo) (level4Table nStart : Nat) :
    Except Panic (Except String (VirtAddr × VirtAddr) × MemoryInfo) :=
  match self.stackTable level4Table userStackPageIndex with
  | .error panic => .error panic
  | .ok (table, info) => info.findSlot table nStart (List.range 64)

/-- `active_level_1_table_containing`: the addresses in the entries are followed
whatever their flags. -/
def activeLevel1TableContaining (self : MemoryInfo) (active : Nat) (addr : VirtAddr) : Nat :=
  addr.path.foldl (fun table index => (self.memory table index).addr) active

/-- One round of the loop of `free_user_stack`. -/
def freeStackEntry (table : Nat) (self : MemoryInfo) (index : Fin 512) : Except Panic MemoryInfo :=
  let entry := self.memory table index
  if entry.flags.contains writable then
    match entry.frame with
    | .error _ => .error .unwrapErr
    | .ok frame =>
      .ok ({ self with frameAllocator := self.frameAllocator.deallocateFrame frame }.write table index
        (entry.setFlags 0))
  else .ok (self.write table index (entry.setFlags 0))

/-- `((iend - 10)..=iend).rev()`; the subtraction wraps below 10 and the range is
then empty. -/
def stackEntries (iend : Fin 512) : List (Fin 512) :=
  if iend.1 < 10 then [] else ((List.range 11).map fun step => Fin.ofNat 512 (iend.1 - step))

def freeUserStack (self : MemoryInfo) (active : Nat) (stackEnd : VirtAddr) : Except Panic MemoryInfo := do
  let addr ← stackEnd.sub 1
  (stackEntries addr.p1Index).foldlM (freeStackEntry (self.activeLevel1TableContaining active addr)) self

def allocateMissingOndemandFrame (self : MemoryInfo) (active : Nat) (addr : VirtAddr) :
    Except Panic (Except String Unit × MemoryInfo) :=
  let table := self.activeLevel1TableContaining active addr
  if (self.memory table addr.p1Index).flags ≠ present ||| userAccessible then
    .ok (.error "Error: Unexpected table flags", self)
  else
    match self.frameAllocator.allocateFrame with
    | .error panic => .error panic
    | .ok (none, frameAllocator) => .ok (.error "Could not allocate frame", { self with frameAllocator })
    | .ok (some frame, frameAllocator) =>
      .ok (.ok (), { self with frameAllocator }.write table addr.p1Index (.setAddr frame userPage))

/-- One round of the loop of `free_pages_rec`. -/
def freeEntry (level : Nat) (freeTable : PageFrameAllocator → Nat → Except Panic PageFrameAllocator)
    (memory : Memory Nat 512 PageTableEntry) (table : Nat) (frameAllocator : PageFrameAllocator)
    (index : Fin 512) : Except Panic PageFrameAllocator :=
  let entry := memory table index
  if entry.isUnused then .ok frameAllocator
  else if level = 1 ∨ entry.flags.contains hugePage then
    if entry.flags.contains userPage then
      match entry.frame with
      | .error _ => .error .unwrapErr
      | .ok frame => .ok (frameAllocator.deallocateFrame frame)
    else .ok frameAllocator
  else freeTable frameAllocator entry.addr

def freePagesRec (memory : Memory Nat 512 PageTableEntry) :
    Nat → PageFrameAllocator → Nat → Except Panic PageFrameAllocator
  | 0, frameAllocator, frame => .ok (frameAllocator.deallocateFrame frame)
  | level + 1, frameAllocator, table => do
    let frameAllocator ←
      (List.finRange 512).foldlM (freeEntry (level + 1) (freePagesRec memory level) memory table) frameAllocator
    return frameAllocator.deallocateFrame table

def freeUserPagetables (self : MemoryInfo) (level4Physaddr : Nat) : Except Panic MemoryInfo := do
  let frameAllocator ← freePagesRec self.memory 4 self.frameAllocator level4Physaddr
  return { self with frameAllocator }

end MemoryInfo

end Zephyr
