import Zephyr.Mem.Statistics
import Zephyr.Space.KernelView
import Zephyr.Space.Processes

/-! `memory::init` on what the bootloader hands over: the kernel heap is mapped in the
bootloader's own tables, and what is stored in `MEMORY_INFO` is the memory every run starts
from. -/

namespace Zephyr

open Radix PageTableFlags Transition MemoryInfo
open PageFrameAllocator (CursorReady Grabs)

namespace MemoryInfo

/-- A frame taken for a page: free before, used after, and no table. -/
structure NewFrame (root : Nat) (before after : MemoryInfo) (frame : Nat) : Prop where
  available : before.frameAllocator.Available frame
  used : after.frameAllocator.frameUsage frame = true
  bounded : frame < frameUsageLen
  outside : frame ∉ tableSet 4 after.memory root

/-- What mapping pages does to a tree, seen entry by entry. -/
structure EntersPages (root : Nat) (flags : PageTableFlags) (pages : List VirtAddr) (before after : MemoryInfo) :
    Prop where
  sound : after.Sound root
  keeps : Keeps root before after
  grabs : ∃ frames, Grabs before.frameAllocator frames after.frameAllocator
  kernel : after.kernelPageTables = before.kernelPageTables
  tables : ∀ table ∈ tableSet 4 after.memory root,
    table ∈ tableSet 4 before.memory root ∨ before.frameAllocator.Available table
  aside : ∀ path index, path.length < 4 → (∀ page ∈ pages, ¬ path ++ [index] <+: VirtAddr.indices page) →
    entryAt after.memory root path index = entryAt before.memory root path index
  upper : ∀ path index, path.length < 3 → entryAt after.memory root path index = entryAt before.memory root path index ∨
    (entryAt after.memory root path index).flags.contains flags = true ∧
      ∃ child, next (entryAt after.memory root path index) = some child
  lower : ∀ path index, path.length = 3 → entryAt after.memory root path index = entryAt before.memory root path index ∨
    ∃ frame, NewFrame root before after frame ∧ entryAt after.memory root path index = .setAddr frame flags
  way : ∀ page ∈ pages, ∀ stem index, stem ++ [index] <+: VirtAddr.path page →
    (entryAt after.memory root stem index).flags.contains flags = true ∧
      ∃ child, next (entryAt after.memory root stem index) = some child
  entered : ∀ page ∈ pages, ∃ frame, NewFrame root before after frame ∧
    entryAt after.memory root (VirtAddr.path page) (VirtAddr.p1Index page) = .setAddr frame flags
  distinct : ∀ page ∈ pages, ∀ other ∈ pages, VirtAddr.indices page ≠ VirtAddr.indices other →
    (entryAt after.memory root (VirtAddr.path page) (VirtAddr.p1Index page)).addr ≠
      (entryAt after.memory root (VirtAddr.path other) (VirtAddr.p1Index other)).addr

namespace EntersPages

variable {root : Nat} {flags : PageTableFlags} {pages more : List VirtAddr} {before middle after : MemoryInfo}
variable {mapper : CompleteMapper} {page : VirtAddr} {frame : Nat}

theorem nil (sound : before.Sound root) : EntersPages root flags [] before before where
  sound := sound
  keeps := .refl
  grabs := ⟨[], .nil⟩
  kernel := rfl
  tables _ listed := .inl listed
  aside _ _ _ _ := rfl
  upper _ _ _ := .inl rfl
  lower _ _ _ := .inl rfl
  way _ listed := absurd listed List.not_mem_nil
  entered _ listed := absurd listed List.not_mem_nil
  distinct _ listed := absurd listed List.not_mem_nil

/-- Frames taken earlier stay apart from what is taken later. -/
theorem fresh_kept (second : EntersPages root flags more middle after) (fresh : NewFrame root before middle frame) :
    NewFrame root before after frame ∧ ¬ middle.frameAllocator.Available frame := by
  have shut : ¬ middle.frameAllocator.Available frame := fun available => by cases fresh.used.symm.trans available.2
  obtain ⟨frames, grabs⟩ := second.grabs
  refine ⟨⟨fresh.available, (grabs.frameUsage frame).mpr (.inr fresh.used), fresh.bounded, fun listed => ?_⟩, shut⟩
  exact (second.tables frame listed).elim fresh.outside shut

theorem fresh_before (first : EntersPages root flags pages before middle) (fresh : NewFrame root middle after frame) :
    NewFrame root before after frame := by
  obtain ⟨frames, grabs⟩ := first.grabs
  refine ⟨?_, fresh.used, fresh.bounded, fresh.outside⟩
  by_contra taken
  exact grabs.not_available taken fresh.available

theorem trans (clean : PageTableEntry.Clean flags) (first : EntersPages root flags pages before middle)
    (second : EntersPages root flags more middle after)
    (apart : ∀ page ∈ pages, ∀ other ∈ more, VirtAddr.indices page ≠ VirtAddr.indices other) :
    EntersPages root flags (pages ++ more) before after := by
  have later : ∀ page ∈ pages, entryAt after.memory root (VirtAddr.path page) (VirtAddr.p1Index page) =
      entryAt middle.memory root (VirtAddr.path page) (VirtAddr.p1Index page) := by
    intro page listed
    refine second.aside _ _ (VirtAddr.path_lt page) fun other member before => ?_
    exact apart page listed other member (before.eq_of_length rfl)
  have addr : ∀ {frame : Nat} {entry : PageTableEntry}, frame < frameUsageLen → entry = .setAddr frame flags →
      entry.addr = frame := by
    rintro frame entry bounded rfl
    exact PageTableEntry.addr_setAddr (lt_of_frameUsageLen bounded) clean
  -- a frame entered by the first stretch was not free for the second
  have cross : ∀ page ∈ pages, ∀ other ∈ more,
      (entryAt after.memory root (VirtAddr.path page) (VirtAddr.p1Index page)).addr ≠
        (entryAt after.memory root (VirtAddr.path other) (VirtAddr.p1Index other)).addr := by
    intro page listed other member same
    obtain ⟨one, fresh, entry⟩ := first.entered page listed
    obtain ⟨two, newer, another⟩ := second.entered other member
    rw [later page listed, addr fresh.bounded entry, addr newer.bounded another] at same
    exact (second.fresh_kept fresh).2 (same ▸ newer.available)
  refine ⟨second.sound, Carries.trans first.keeps second.keeps, ?_, second.kernel.trans first.kernel,
    fun table listed => ?_, fun path index short away => ?_, fun path index short => ?_, fun path index last => ?_,
    fun page listed stem index prefixed => ?_, fun page listed => ?_, fun page listed other member differs => ?_⟩
  · obtain ⟨frames, one⟩ := first.grabs
    obtain ⟨others, two⟩ := second.grabs
    exact ⟨frames ++ others, one.append two⟩
  · rcases second.tables table listed with old | free
    · exact first.tables table old
    · obtain ⟨frames, grabs⟩ := first.grabs
      right
      by_contra taken
      exact grabs.not_available taken free
  · rw [second.aside path index short fun page listed => away page (List.mem_append_right _ listed)]
    exact first.aside path index short fun page listed => away page (List.mem_append_left _ listed)
  · rcases second.upper path index short with same | wide
    · rw [same]
      exact first.upper path index short
    · exact .inr wide
  · rcases second.lower path index last with same | ⟨frame, fresh, entry⟩
    · rcases first.lower path index last with old | ⟨frame, fresh, entry⟩
      · exact .inl (same.trans old)
      · exact .inr ⟨frame, (second.fresh_kept fresh).1, same.trans entry⟩
    · exact .inr ⟨frame, first.fresh_before fresh, entry⟩
  · rcases List.mem_append.mp listed with listed | listed
    · obtain ⟨wide, child, leads⟩ := first.way page listed stem index prefixed
      have bound := prefixed.length_le
      rw [List.length_append, List.length_singleton] at bound
      change stem.length + 1 ≤ 3 at bound
      obtain ⟨twin, onward, grows⟩ := second.keeps.tables stem index child (by omega) leads
      exact ⟨grows flags wide, twin, onward⟩
    · exact second.way page listed stem index prefixed
  · rcases List.mem_append.mp listed with listed | listed
    · obtain ⟨frame, fresh, entry⟩ := first.entered page listed
      exact ⟨frame, (second.fresh_kept fresh).1, (later page listed).trans entry⟩
    · obtain ⟨frame, fresh, entry⟩ := second.entered page listed
      exact ⟨frame, first.fresh_before fresh, entry⟩
  · rcases List.mem_append.mp listed with listed | listed
    · rcases List.mem_append.mp member with member | member
      · rw [later page listed, later other member]
        exact first.distinct page listed other member differs
      · exact cross page listed other member
    · rcases List.mem_append.mp member with member | member
      · exact (cross other member page listed).symm
      · exact second.distinct page listed other member differs

theorem single {allocator : PageFrameAllocator} (sound : before.Sound root) (valid : TableFlags flags)
    (takes : before.frameAllocator.Takes frame allocator)
    (mapped : mapper.mapToWithTableFlags { before with frameAllocator := allocator } root page frame flags flags =
      .ok (.ok (), after)) :
    EntersPages root flags [page] before after := by
  have taken := sound.takes takes
  have maps := mapper.mapped taken valid mapped
  obtain ⟨middle, edits, empty, way, edited⟩ := maps.enters taken valid
  obtain ⟨new, extended, still⟩ := TableEdits.extends taken valid edits
  have fresh : NewFrame root before after frame := by
    refine ⟨takes.available, ?_, takes.bounded, fun listed => ?_⟩
    · rw [edited.sameAllocator, extended.grabs.frameUsage]
      exact .inr ((takes.frameUsage frame).mpr (.inl rfl))
    · rcases (edited.tables frame).mp listed with made | listed
      · cases made
      · rcases (extended.tables frame).mp listed with made | listed
        · exact takes.not_available_self (extended.grabs.available made)
        · exact sound.fresh takes listed
  have entry : entryAt after.memory root page.path page.p1Index = .setAddr frame flags := by
    rw [edited.rewrites page.p1Index page.path_lt, if_pos ⟨rfl, rfl⟩]
  have upper : ∀ path index, path.length < 3 →
      entryAt middle.memory root path index = entryAt before.memory root path index ∨
        (entryAt middle.memory root path index).flags.contains flags = true ∧
          ∃ child, next (entryAt middle.memory root path index) = some child := by
    intro path index short
    refine TableEdits.keeps (fun info => entryAt info.memory root path index = entryAt before.memory root path index ∨
      (entryAt info.memory root path index).flags.contains flags = true ∧
        ∃ child, next (entryAt info.memory root path index) = some child) taken valid edits (.inl rfl)
      fun here widens => ?_
    rw [widens.edited.rewrites index (by omega)]
    split
    · exact .inr ⟨widens.wide, _, widens.leads⟩
    · exact here
  have lower : ∀ path index, path.length = 3 →
      entryAt middle.memory root path index = entryAt before.memory root path index := by
    intro path index last
    refine TableEdits.keeps (fun info => entryAt info.memory root path index = entryAt before.memory root path index)
      taken valid edits rfl fun same widens => ?_
    rw [widens.edited.rewrites index (by omega), if_neg, same]
    rintro ⟨rfl, _⟩
    have above := widens.upper
    omega
  refine ⟨edited.sound, (maps.keeps taken valid).1, ⟨frame :: new, .cons takes ?_⟩,
    edited.kernel.trans extended.kernel, fun table listed => ?_, fun path index short away => ?_,
    fun path index short => ?_, fun path index last => ?_, fun other listed stem index prefixed => ?_,
    fun other listed => ?_, fun one first two second differs => ?_⟩
  · rw [edited.sameAllocator]
    exact extended.grabs
  · rcases (edited.tables table).mp listed with made | listed
    · cases made
    · rcases (extended.tables table).mp listed with made | listed
      · right
        by_contra shut
        exact takes.not_available shut (extended.grabs.available made)
      · exact .inl listed
  · exact mapper.aside taken valid mapped path index short (away page (List.mem_singleton_self page))
  · rw [edited.rewrites index (by omega), if_neg]
    · exact upper path index short
    · rintro ⟨rfl, _⟩
      exact Nat.lt_irrefl 3 short
  · rw [edited.rewrites index (by omega)]
    split
    · exact .inr ⟨frame, fresh, rfl⟩
    · exact .inl (lower path index last)
  · rw [List.mem_singleton.mp listed] at prefixed
    have bound := prefixed.length_le
    rw [List.length_append, List.length_singleton] at bound
    change stem.length + 1 ≤ 3 at bound
    rw [edited.rewrites index (by omega), if_neg]
    · exact way stem index prefixed
    · rintro ⟨rfl, _⟩
      exact Nat.lt_irrefl 3 bound
  · rw [List.mem_singleton.mp listed]
    exact ⟨frame, fresh, entry⟩
  · rw [List.mem_singleton.mp first, List.mem_singleton.mp second] at differs
    exact absurd rfl differs

/-- The loop of `init_heap`. -/
theorem of_allocateEach (sound : before.Sound root) (valid : TableFlags flags) (within : flags &&& userPage = flags)
    (spread : pages.Pairwise fun page other => VirtAddr.indices page ≠ VirtAddr.indices other)
    (returned : allocateEach mapper root flags pages before = .ok (.ok (), after)) :
    EntersPages root flags pages before after := by
  induction pages generalizing before with
  | nil =>
    cases returned
    exact .nil sound
  | cons page pages ih =>
    obtain ⟨apart, spread⟩ := List.pairwise_cons.mp spread
    rw [allocateEach] at returned
    split at returned
    · cases returned
    · cases returned
    · rename_i frame allocator allocated
      split at returned
      · cases returned
      · cases returned
      · rename_i middle mapped
        rw [Mapper.mapTo, within] at mapped
        have first := single sound valid allocated mapped
        exact first.trans valid.clean (ih first.sound spread returned) fun one listed other member => by
          rw [List.mem_singleton.mp listed]
          exact apart other member

/-- What one page puts in the way of another. -/
theorem unmapped (enters : EntersPages root flags pages before after) (visible : flags.contains present = true)
    {other : VirtAddr} (unmapped : Unmapped root before other)
    (apart : ∀ page ∈ pages, VirtAddr.indices page ≠ VirtAddr.indices other) : Unmapped root after other where
  passable above index prefixed := by
    have bound : (above ++ [index]).length ≤ 3 := prefixed.length_le
    rw [List.length_append, List.length_singleton] at bound
    rcases enters.upper above index (by omega) with same | ⟨wide, child, leads⟩
    · rw [same]
      exact unmapped.passable above index prefixed
    · refine .inr ⟨child, frame_of_next leads ?_⟩
      rw [contains, beq_iff_eq] at wide visible ⊢
      rw [← visible, ← BitVec.and_assoc, wide]
  unused := by
    rw [enters.aside _ _ other.path_lt fun page listed before => apart page listed (before.eq_of_length rfl).symm]
    exact unmapped.unused

variable (mapper) in
theorem allocateEach_succeeds {count : Nat} (sound : before.Sound root) (valid : TableFlags flags)
    (visible : flags.contains present = true) (within : flags &&& userPage = flags)
    (spread : pages.Pairwise fun page other => VirtAddr.indices page ≠ VirtAddr.indices other)
    (clear : ∀ page ∈ pages, Unmapped root before page)
    (ready : before.frameAllocator.CursorReady (4 * pages.length + count)) :
    ∃ after, allocateEach mapper root flags pages before = .ok (.ok (), after) ∧
      after.frameAllocator.CursorReady count := by
  induction pages generalizing before with
  | nil => exact ⟨before, rfl, by simpa using ready⟩
  | cons page pages ih =>
    obtain ⟨apart, spread⟩ := List.pairwise_cons.mp spread
    have enough : before.frameAllocator.CursorReady (3 + (4 * pages.length + count) + 1) :=
      ready.le (by rw [List.length_cons]; omega)
    obtain ⟨frame, allocator, takes, onward⟩ := enough.takes
    have free := clear page (List.mem_cons_self ..)
    obtain ⟨middle, mapped, left⟩ := mapper.succeeds valid visible (sound.takes takes)
      ⟨free.passable, free.unused⟩ onward frame
    have first := single sound valid takes mapped
    obtain ⟨after, finished, last⟩ := ih first.sound spread (fun other listed => first.unmapped visible
      (clear other (List.mem_cons_of_mem _ listed)) fun one member => by
        rw [List.mem_singleton.mp member]
        exact apart other listed) left
    have allocated : before.frameAllocator.allocateFrame = .ok (some frame, allocator) := takes
    have stepped : mapper.mapTo { before with frameAllocator := allocator } root page frame flags =
        .ok (.ok (), middle) := by
      rw [Mapper.mapTo, within]
      exact mapped
    exact ⟨after, by simp only [allocateEach, allocated, stepped, finished], last⟩

end EntersPages

/-- What the bootloader hands over: a tree of tables outside usable memory, with no user
page in it and level-4 slot 6 unused. -/
structure Handover (memory : Memory Nat 512 PageTableEntry) (level4Table : Nat) (memoryMap : List MemoryRegion) :
    Prop where
  unshared : Unshared 4 memory level4Table
  reserved : ∀ table ∈ tableSet 4 memory level4Table, table ∉ (PageFrameAllocator.init memoryMap).usableFrames
  points : ∀ (path : List (Fin 512)) (index : Fin 512), path.length < 3 →
    ∀ child, next (entryAt memory level4Table path index) = some child →
      (entryAt memory level4Table path index).flags.contains present = true
  table : KernelTable memory level4Table
  zero : 0 ∉ (PageFrameAllocator.init memoryMap).usableFrames

section Init

variable {mapper : CompleteMapper} {memory : Memory Nat 512 PageTableEntry} {level4Table : Nat}
variable {memoryMap : List MemoryRegion} {info : MemoryInfo}

theorem mem_heapPages {page : Nat} : page ∈ heapPages ↔
    ∃ addr : Nat, heapStart ≤ addr ∧ addr < heapStart + heapSize ∧ page = addr / 4096 * 4096 := by
  unfold heapStart heapSize
  constructor
  · intro listed
    obtain ⟨number, small, rfl⟩ := List.mem_map.mp listed
    rw [List.mem_range] at small
    exact ⟨(0x444444440 + number) * 4096, by omega, by omega, by omega⟩
  · rintro ⟨addr, least, most, rfl⟩
    refine List.mem_map.mpr ⟨addr / 4096 - 0x444444440, List.mem_range.mpr (by omega), ?_⟩
    omega

/-- All of them lie under entry 136 of the level-4 table. -/
theorem heapPages_top {page : VirtAddr} (listed : page ∈ heapPages) : page.p4Index = 136 := by
  obtain ⟨addr, least, most, rfl⟩ := mem_heapPages.mp listed
  unfold heapStart heapSize at *
  have top : (addr / 4096 * 4096 : Nat) / 2 ^ 39 = 136 := by omega
  change Fin.ofNat 512 ((addr / 4096 * 4096 : Nat) / 2 ^ 39) = 136
  rw [top]
  rfl

theorem page_of_indices {addr other : Nat} (same : VirtAddr.indices addr = VirtAddr.indices other) :
    addr % 2 ^ 48 / 4096 = other % 2 ^ 48 / 4096 := by
  obtain ⟨path, index⟩ := List.append_inj' same rfl
  have equal : other % 2 ^ 48 / 4096 * 4096 = addr % 2 ^ 48 / 4096 * 4096 := by
    rw [← pageAddress_eq, ← pageAddress_eq, path, List.singleton_inj.mp index]
  omega

theorem heapPages_spread : heapPages.Pairwise fun page other => VirtAddr.indices page ≠ VirtAddr.indices other := by
  refine List.pairwise_map.mpr (List.pairwise_lt_range.imp_of_mem fun {first second} member later less same => ?_)
  rw [List.mem_range] at member later
  have equal : (0x444444440 + first) * 4096 % 2 ^ 48 / 4096 = (0x444444440 + second) * 4096 % 2 ^ 48 / 4096 :=
    page_of_indices same
  omega

theorem Handover.sound (handover : Handover memory level4Table memoryMap) :
    Sound ⟨memory, .init memoryMap, level4Table⟩ level4Table :=
  ⟨handover.unshared, fun table listed available => handover.reserved table listed available.1⟩

/-- Four usable frames for each page of the heap are enough for `init`. -/
theorem Handover.returns {count : Nat} (handover : Handover memory level4Table memoryMap)
    (unused : memory level4Table 136 = 0) (ready : (PageFrameAllocator.init memoryMap).CursorReady (300 + count)) :
    ∃ info, init mapper memory level4Table memoryMap = .ok info ∧ info.frameAllocator.CursorReady count := by
  have clear : ∀ page ∈ heapPages, Unmapped level4Table ⟨memory, .init memoryMap, level4Table⟩ page := by
    intro page listed
    refine .of_slot ?_
    rw [heapPages_top listed]
    exact unused
  have enough : (PageFrameAllocator.init memoryMap).CursorReady (4 * heapPages.length + count) := ready
  obtain ⟨info, finished, left⟩ := EntersPages.allocateEach_succeeds mapper handover.sound
    (by constructor <;> decide : TableFlags (present ||| writable)) (by decide) (by decide) heapPages_spread clear enough
  exact ⟨info, by simp only [init, initHeap, allocatePages, pagesOf_kernelHeap, finished], left⟩

theorem Handover.enters (handover : Handover memory level4Table memoryMap)
    (returned : init mapper memory level4Table memoryMap = .ok info) :
    EntersPages level4Table (present ||| writable) heapPages ⟨memory, .init memoryMap, level4Table⟩ info := by
  unfold init at returned
  split at returned
  · cases returned
  · cases returned
  · rename_i initialised
    cases returned
    rw [initHeap, allocatePages, pagesOf_kernelHeap] at initialised
    exact .of_allocateEach handover.sound (by constructor <;> decide) (by decide) heapPages_spread initialised

theorem Handover.booted (handover : Handover memory level4Table memoryMap)
    (returned : init mapper memory level4Table memoryMap = .ok info) : Booted info := by
  have enters := handover.enters returned
  have root : info.kernelPageTables = level4Table := enters.kernel
  have writes : ∀ {flags : PageTableFlags}, flags.contains (present ||| writable) = true →
      flags.contains present = true ∧ flags ≠ present ||| userAccessible := by
    intro flags wide
    refine ⟨(contains_or.mp wide).1, ?_⟩
    rintro rfl
    exact absurd wide (by decide)
  constructor
  · rw [root]
    refine ⟨enters.sound.taken, fun path index upper child leads => ?_⟩
    rcases enters.upper path index upper with same | ⟨wide, _⟩
    · rw [same] at leads ⊢
      exact handover.points path index upper child leads
    · exact (writes wide).1
  · rw [root]
    refine ⟨?_, ?_, fun path index upper => ?_⟩
    · rw [enters.aside [] 6 (by decide)]
      · exact handover.table.slot
      · rintro page listed ⟨rest, whole⟩
        have head : some (6 : Fin 512) = some page.p4Index := congrArg List.head? whole
        rw [heapPages_top listed] at head
        exact absurd head (by decide)
    · rintro ⟨path, index, short, leaf⟩
      by_cases upper : path.length < 3
      · rcases enters.upper path index upper with same | ⟨_, child, leads⟩
        · rw [same] at leaf
          exact handover.table.leaves ⟨path, index, short, leaf⟩
        · rcases leaf.1 with bottom | empty
          · omega
          · cases leads.symm.trans empty
      · rcases enters.lower path index (by omega) with same | ⟨frame, fresh, entry⟩
        · rw [same] at leaf
          exact handover.table.leaves ⟨path, index, short, leaf⟩
        · have user := leaf.2
          rw [entry, PageTableEntry.flags_setAddr (lt_of_frameUsageLen fresh.bounded) (by decide)] at user
          exact absurd user (by decide)
    · rcases enters.upper path index upper with same | ⟨wide, _⟩
      · rw [same]
        exact handover.table.unmarked path index upper
      · exact (writes wide).2
  · rintro frame ⟨addr, least, most, _, rfl⟩
    obtain ⟨path, last⟩ := List.append_inj' (VirtAddr.indices_page addr) rfl
    obtain ⟨frame, fresh, entry⟩ := enters.entered _ (mem_heapPages.mpr ⟨addr, least, most, rfl⟩)
    rw [path, List.singleton_inj.mp last] at entry
    rw [root, entry, PageTableEntry.addr_setAddr (lt_of_frameUsageLen fresh.bounded) (by decide)]
    exact fresh.used
  · obtain ⟨frames, grabs⟩ := enters.grabs
    exact grabs.not_available fun available => handover.zero available.1

def InHeap (addr : Nat) : Prop := heapStart ≤ addr ∧ addr < heapStart + heapSize

theorem Handover.backing (handover : Handover memory level4Table memoryMap)
    (returned : init mapper memory level4Table memoryMap = .ok info) :
    ∃ backing : Nat → Nat,
      (∀ addr, InHeap addr → ∀ access, reachSupervisor info.memory info.kernelPageTables access addr =
        some (backing (addr / 4096))) ∧
      (∀ addr, InHeap addr → info.HeapFrame (backing (addr / 4096))) ∧
      ∀ addr other, InHeap addr → InHeap other → backing (addr / 4096) = backing (other / 4096) →
        addr / 4096 = other / 4096 := by
  have enters := handover.enters returned
  have root : info.kernelPageTables = level4Table := enters.kernel
  have clean : PageTableEntry.Clean (present ||| writable) := by decide
  have entry : ∀ addr, InHeap addr → ∃ frame, NewFrame level4Table ⟨memory, .init memoryMap, level4Table⟩ info frame ∧
      entryAt info.memory level4Table (VirtAddr.path addr) (VirtAddr.p1Index addr) = .setAddr frame (present ||| writable) := by
    intro addr inside
    obtain ⟨path, last⟩ := List.append_inj' (VirtAddr.indices_page addr) rfl
    have entered := enters.entered _ (mem_heapPages.mpr ⟨addr, inside.1, inside.2, rfl⟩)
    rwa [path, List.singleton_inj.mp last] at entered
  have same : ∀ addr : Nat, entryAt info.memory level4Table (VirtAddr.path (addr / 4096 * 4096 : Nat))
      (VirtAddr.p1Index (addr / 4096 * 4096 : Nat)) =
        entryAt info.memory level4Table (VirtAddr.path addr) (VirtAddr.p1Index addr) := by
    intro addr
    obtain ⟨path, last⟩ := List.append_inj' (VirtAddr.indices_page addr) rfl
    rw [path, List.singleton_inj.mp last]
  refine ⟨fun page => (entryAt info.memory level4Table (VirtAddr.path (page * 4096 : Nat))
    (VirtAddr.p1Index (page * 4096 : Nat))).addr, fun addr inside access => ?_, fun addr inside => ?_,
    fun addr other inside also shared => ?_⟩
  · obtain ⟨frame, fresh, here⟩ := entry addr inside
    have flags := PageTableEntry.flags_setAddr (lt_of_frameUsageLen fresh.bounded) clean
    have used : entryAt info.memory level4Table (VirtAddr.path addr) (VirtAddr.p1Index addr) ≠ 0 := by
      rw [here]
      exact PageTableEntry.setAddr_ne_zero (lt_of_frameUsageLen fresh.bounded) clean (by decide)
    obtain ⟨table, above, leaf⟩ := tableAt_of_entryAt_ne used
    obtain ⟨path, _⟩ := List.append_inj' (VirtAddr.indices_page addr) rfl
    have way := enters.way _ (mem_heapPages.mpr ⟨addr, inside.1, inside.2, rfl⟩)
    rw [path] at way
    rw [root, reachSupervisor_of_writable above (fun stem index prefixed => (way stem index prefixed).1)
      (by rw [← leaf, here, flags]; decide), ← leaf, ← same addr]
  · obtain ⟨frame, fresh, here⟩ := entry addr inside
    refine ⟨addr, inside.1, inside.2, ?_, ?_⟩
    · rw [root, here, PageTableEntry.flags_setAddr (lt_of_frameUsageLen fresh.bounded) clean]
      decide
    · rw [root, ← same addr]
  · by_contra differs
    refine enters.distinct _ (mem_heapPages.mpr ⟨addr, inside.1, inside.2, rfl⟩) _
      (mem_heapPages.mpr ⟨other, also.1, also.2, rfl⟩) (fun equal => differs ?_) shared
    have pages : addr / 4096 * 4096 % 2 ^ 48 / 4096 = other / 4096 * 4096 % 2 ^ 48 / 4096 := page_of_indices equal
    obtain ⟨_, small⟩ := inside
    obtain ⟨_, tiny⟩ := also
    unfold heapStart heapSize at *
    omega

end Init

end MemoryInfo

variable {σ : Type} [DecidableEq σ] [Fintype σ]

/-- `init` returns where memory for the heap is there, and the heap it sets up is memory in
every address space: each of its pages has a frame of its own, the same in every table in
use after any careful run, and this frame is never free again nor in the hands of a
process. -/
theorem kernel_heap_is_memory (loader : CompleteMapper) {memory : Memory Nat 512 PageTableEntry} {level4Table : Nat}
    {memoryMap : List MemoryRegion} (handover : Handover memory level4Table memoryMap) (keyboardSocket : σ) :
    (memory level4Table 136 = 0 → (PageFrameAllocator.init memoryMap).CursorReady 300 →
      ∃ info, MemoryInfo.init loader memory level4Table memoryMap = .ok info) ∧
    ∀ info, MemoryInfo.init loader memory level4Table memoryMap = .ok info → ∃ backing : Nat → Nat,
      (∀ addr other, InHeap addr → InHeap other → backing (addr / 4096) = backing (other / 4096) →
        addr / 4096 = other / 4096) ∧
      ∀ (mapper : Mapper) (events : List (Event σ)) (system : System σ),
        Run (System.CarefulStep mapper) (System.boot keyboardSocket info) events system → ∀ addr, InHeap addr →
          ¬ system.info.frameAllocator.Available (backing (addr / 4096)) ∧
          (∀ index process, system.LiveProcess index process →
            ¬ system.info.Uses process.pageTablePhysaddr (backing (addr / 4096))) ∧
          ∀ root, system.InUse root → ∀ access,
            reachSupervisor system.info.memory root access addr = some (backing (addr / 4096)) := by
  refine ⟨fun unused ready => ?_, fun info returned => ?_⟩
  · obtain ⟨info, returned, _⟩ := handover.returns unused (by exact ready : CursorReady _ (300 + 0))
    exact ⟨info, returned⟩
  have booted := handover.booted returned
  obtain ⟨backing, reached, heap, apart⟩ := handover.backing returned
  refine ⟨backing, apart, fun mapper events system run addr inside => ?_⟩
  obtain ⟨⟨trees, tenancy⟩, viewed⟩ := Tenancy.viewed_of_run booted run
  have taken : info.Taken (backing (addr / 4096)) := fun available => by
    cases (booted.heap _ (heap addr inside)).symm.trans available.2
  refine ⟨tenancy.isolated.shut _ taken, fun index process live uses => ?_,
    fun root inUse access => tenancy.reaches_kernel booted viewed inUse (reached addr inside access)⟩
  obtain ⟨tree, found, root⟩ := tenancy.process_tree live
  have own := tenancy.isolated.tree _ tree found
  exact (own.holds (own.holds_of_uses (root ▸ uses))).2.1 taken

section Examples

/-- A bootloader's tables in frames 1 and 2: physical memory in level-4 slot 8. -/
private def loaderMemory : Memory Nat 512 PageTableEntry := fun frame index =>
  if frame = 1 ∧ index = 8 then .setAddr 2 (present ||| writable)
  else if frame = 2 ∧ index = 0 then physicalMap
  else 0

private def loaderMap : List MemoryRegion := [⟨16 * 4096, 400 * 4096, .usable⟩]

private theorem loaderMemory_cases (path : List (Fin 512)) (index : Fin 512) : entryAt loaderMemory 1 path index = 0 ∨
    (entryAt loaderMemory 1 path index).flags.contains present = true ∧
      (entryAt loaderMemory 1 path index).flags.contains userAccessible = false := by
  cases found : tableAt loaderMemory 1 path with
  | none => exact .inl (entryAt_of_none found)
  | some table =>
    rw [entryAt_of_tableAt found]
    unfold loaderMemory
    split
    · exact .inr (by decide)
    · split
      · exact .inr (by decide)
      · exact .inl rfl

private theorem tables_loaderMemory : tables loaderMemory 4 1 = [1, 2] := by decide +kernel

private theorem handover_loader : Handover loaderMemory 1 loaderMap where
  unshared := unshared_of_nodup (by rw [tables_loaderMemory]; decide)
  reserved table listed := by
    rw [← mem_tables, tables_loaderMemory] at listed
    rcases List.mem_cons.mp listed with rfl | listed
    · decide
    · rw [List.mem_singleton.mp listed]
      decide
  points path index _ child leads :=
    ((loaderMemory_cases path index).resolve_left (PageTableEntry.next_eq_some_iff.mp leads).1).1
  table := by
    have closed : ∀ path index, (entryAt loaderMemory 1 path index).flags.contains userAccessible = false := by
      intro path index
      rcases loaderMemory_cases path index with unused | ⟨_, closed⟩
      · rw [unused]
        decide
      · exact closed
    refine ⟨by decide, ?_, fun path index _ marked => ?_⟩
    · rintro ⟨path, index, _, _, user⟩
      cases (contains_or.mp user).2.symm.trans (closed path index)
    · have wide := closed path index
      rw [marked] at wide
      exact absurd wide (by decide)
  zero := by decide

private theorem ready_loaderMap : (PageFrameAllocator.init loaderMap).CursorReady (300 + 1) :=
  PageFrameAllocator.cursorReady_region rfl (by decide : 16 + 0 + (300 + 1) ≤ 400) (by decide) fun _ _ _ => rfl

/-- The heap of a kernel started on 384 usable frames. -/
theorem kernel_heap_is_memory_loader : ∃ info, MemoryInfo.init completeOffsetPageTable loaderMemory 1 loaderMap = .ok info ∧
    ∃ backing : Nat → Nat, ∀ addr, InHeap addr → ∀ access,
      reachSupervisor info.memory info.kernelPageTables access addr = some (backing (addr / 4096)) := by
  obtain ⟨returns, heap⟩ := kernel_heap_is_memory completeOffsetPageTable handover_loader ()
  obtain ⟨info, returned⟩ := returns rfl (ready_loaderMap.le (by decide))
  obtain ⟨backing, _, all⟩ := heap info returned
  refine ⟨info, returned, backing, fun addr inside access => ?_⟩
  exact (all offsetPageTable [] _ .nil addr inside).2.2 _ .kernel access

end Examples

namespace Logged

/-- Once the kernel has booted, the statistics are wrong in every run, after every step of
it: the report of the first heap frame has subtracted from a free memory of zero, and used
and free memory do not add up to the total. -/
theorem statistics_never_consistent (mapper : Mapper) {memory : Memory Nat 512 PageTableEntry} {level4Table : Nat}
    {memoryMap : List MemoryRegion} {info after : MemoryInfo} {calls : List ReportedCall}
    (booted : MemoryInfo.init mapper memory level4Table memoryMap = .ok info)
    (run : Run (MemoryInfo.Calls mapper) info calls after) :
    ∃ frames reported memoryLogger, Grabs (.init memoryMap) frames info.frameAllocator ∧
      MemoryInfo.ReportedRun mapper info reported after ∧
      (history frames.length (memorySize memoryMap) reported).foldlM perform (Logged.init memoryMap) =
        .ok ⟨after.frameAllocator, memoryLogger⟩ ∧
      ¬ Consistent 0 (Logged.init memoryMap) (history frames.length (memorySize memoryMap) reported) ∧
      ∀ highest, ¬ Accurate ⟨after.frameAllocator, memoryLogger⟩ highest := by
  obtain ⟨frames, heap, enough⟩ := MemoryInfo.init_grabs booted
  obtain ⟨reported, memoryLogger, made, performed, exceeds⟩ := perform_history heap run (memorySize memoryMap)
  exact ⟨frames, reported, memoryLogger, heap, made, performed, not_consistent_history heap (by omega),
    fun _ => exceeds.not_accurate heap (by omega)⟩

private theorem loader_boots : ∃ info, MemoryInfo.init completeOffsetPageTable loaderMemory 1 loaderMap = .ok info ∧
    info.frameAllocator.CursorReady 1 :=
  handover_loader.returns rfl ready_loaderMap

/-- A boot on 384 usable frames; then a frame is taken and given back. -/
theorem statistics_never_consistent_loader : ∃ info after frame frames reported memoryLogger,
    MemoryInfo.init completeOffsetPageTable loaderMemory 1 loaderMap = .ok info ∧
    Run (MemoryInfo.Calls completeOffsetPageTable) info [.frame .allocate, .frame (.deallocate frame)] after ∧
    Grabs (.init loaderMap) frames info.frameAllocator ∧
    MemoryInfo.ReportedRun completeOffsetPageTable info reported after ∧
    (history frames.length (memorySize loaderMap) reported).foldlM perform (Logged.init loaderMap) =
      .ok ⟨after.frameAllocator, memoryLogger⟩ ∧
    ∀ highest, ¬ Accurate ⟨after.frameAllocator, memoryLogger⟩ highest := by
  obtain ⟨info, returned, left⟩ := loader_boots
  obtain ⟨frame, frameAllocator, takes, _⟩ := left.takes
  have used : frameAllocator.frameUsage frame = true := (takes.frameUsage frame).mpr (.inl rfl)
  have run : Run (MemoryInfo.Calls completeOffsetPageTable) info [.frame .allocate, .frame (.deallocate frame)] _ :=
    (Run.nil.snoc (.allocate takes)).snoc (.deallocate used)
  obtain ⟨frames, reported, memoryLogger, heap, made, performed, _, wrong⟩ :=
    statistics_never_consistent completeOffsetPageTable returned run
  exact ⟨info, _, frame, frames, reported, memoryLogger, returned, run, heap, made, performed, wrong⟩

/-- The same boot alone. The first report goes below zero, and when the total is set the
frames of the heap are missing from neither counter. -/
theorem inconsistent_after_init : ∃ info frames memoryLogger,
    MemoryInfo.init completeOffsetPageTable loaderMemory 1 loaderMap = .ok info ∧
    Grabs (.init loaderMap) frames info.frameAllocator ∧
    (history frames.length (memorySize loaderMap) []).foldlM perform (Logged.init loaderMap) =
      .ok ⟨info.frameAllocator, memoryLogger⟩ ∧
    ¬ Consistent 0 (Logged.init loaderMap) (history frames.length (memorySize loaderMap) []) ∧
    ∀ highest, ¬ Accurate ⟨info.frameAllocator, memoryLogger⟩ highest := by
  obtain ⟨info, returned, _⟩ := loader_boots
  obtain ⟨frames, heap, enough⟩ := MemoryInfo.init_grabs returned
  obtain ⟨memoryLogger, performed, exceeds⟩ := perform_boot heap (memorySize loaderMap)
  exact ⟨info, frames, memoryLogger, returned, heap, performed, not_consistent_history heap (by omega),
    fun _ => exceeds.not_accurate heap (by omega)⟩

end Logged

end Zephyr
