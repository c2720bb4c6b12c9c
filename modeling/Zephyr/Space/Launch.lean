import Zephyr.Mem.LiveStacks
import Zephyr.Mem.Supply
import Zephyr.Space.Runs

/-! A process launched from a booted kernel: the calls of `spawn_user_thread` succeed
while frames last, also on an image whose one segment wraps around the address space and
so writes into the tables of the new process. -/

namespace Zephyr

open Radix PageTableFlags Transition MemoryInfo
open PageFrameAllocator (CursorReady)

namespace MemoryInfo

section Heap

variable {root count : Nat} {info : MemoryInfo} {page : VirtAddr}

theorem Unmapped.of_slot (empty : info.memory root page.p4Index = 0) : Unmapped root info page := by
  have blank : ∀ (rest : List (Fin 512)) (index : Fin 512),
      entryAt info.memory root (page.p4Index :: rest) index = 0 := by
    intro rest index
    refine entryAt_cons_none ?_
    rw [empty]
    rfl
  refine ⟨fun above index before => .inl ?_, blank _ _⟩
  cases above with
  | nil =>
    obtain ⟨rfl, _⟩ := List.cons_prefix_cons.mp before
    exact empty
  | cons head rest =>
    obtain ⟨rfl, _⟩ := List.cons_prefix_cons.mp before
    exact blank rest index

theorem pagesOf_heap : pagesOf userHeapStart userHeapSize =
    .ok ((List.range 1024).map fun page => (0x28000600 + page) * 4096) := by
  have count : ((userHeapStart + userHeapSize) % 2 ^ 64 - 1) / 4096 + 1 - userHeapStart / 4096 = 1024 := by decide
  rw [pagesOf_finish (.inl (by decide)) rfl (by decide) (by decide), count]
  rfl

theorem allocateUserHeap_succeeds (sound : info.Sound root) (empty : info.memory root 5 = 0)
    (ready : info.frameAllocator.CursorReady (3 * 1024 + count + 1)) :
    ∃ after, info.allocateUserHeap offsetPageTable root = .ok (.ok (), after) ∧ after.Sound root ∧
      after.frameAllocator.CursorReady count ∧
      ∀ path index, path.length < 4 → (path ++ [index]).head? ≠ some 5 →
        entryAt after.memory root path index = entryAt info.memory root path index := by
  have slot : ∀ page ∈ (List.range 1024).map fun page => ((0x28000600 + page) * 4096 : Nat),
      VirtAddr.p4Index page = 5 := by
    intro page member
    obtain ⟨number, small, rfl⟩ := List.mem_map.mp member
    rw [List.mem_range] at small
    have head : ((0x28000600 + number) * 4096 : Nat) / 2 ^ 39 = 5 := by omega
    rw [VirtAddr.p4Index, head]
    rfl
  have created : ∃ after, info.allocateUserHeap offsetPageTable root = .ok (.ok (), after) ∧ after.Sound root ∧
      after.frameAllocator.CursorReady count ∧ ∀ path index, path.length < 4 →
        (∀ page ∈ (List.range 1024).map fun page => ((0x28000600 + page) * 4096 : Nat),
          ¬ path ++ [index] <+: VirtAddr.indices page) →
        entryAt after.memory root path index = entryAt info.memory root path index := by
    refine createUserOndemandPages_succeeds completeOffsetPageTable sound pagesOf_heap ?_ ?_ ?_ ?_
    · exact List.mem_map.mpr ⟨0, List.mem_range.mpr (by decide), rfl⟩
    · refine List.pairwise_map.mpr (List.pairwise_lt_range.imp_of_mem fun {first second} member later less same => ?_)
      rw [List.mem_range] at member later
      have equal := pageAddress_eq ((0x28000600 + first) * 4096)
      rw [← same.1, ← same.2, pageAddress_eq] at equal
      change (((0x28000600 + second) * 4096) % 2 ^ 48 / 4096 * 4096 : Nat) =
        ((0x28000600 + first) * 4096) % 2 ^ 48 / 4096 * 4096 at equal
      omega
    · intro page member
      refine .of_slot ?_
      rw [slot page member]
      exact empty
    · rwa [List.length_map, List.length_range]
  obtain ⟨after, created, still, left, kept⟩ := created
  refine ⟨after, created, still, left, fun path index short away => kept path index short fun page member before => ?_⟩
  have head : (path ++ [index]).head? = some (VirtAddr.p4Index page) := by
    obtain ⟨rest, whole⟩ := before
    cases path with
    | nil => exact congrArg List.head? whole
    | cons first others => exact congrArg List.head? whole
  rw [slot page member] at head
  exact away head

end Heap

end MemoryInfo

section Window

variable {memory : Memory Nat 512 PageTableEntry} {root : Nat} {index : Fin 512}

/-- The first gigabyte of physical memory, as a huge page of the kernel. -/
def physicalMap : PageTableEntry := .setAddr 0 (present ||| writable ||| hugePage)

/-- Level-4 slot 8 maps physical memory for the kernel. -/
structure Window (memory : Memory Nat 512 PageTableEntry) (root : Nat) : Prop where
  leads : ∃ child, (memory root 8).frame = .ok child ∧ child ≠ root ∧ memory child 0 = physicalMap
  wide : (memory root 8).flags.contains writable = true

theorem Window.storeSupervisor (window : Window memory root) {frame offset : Nat} (small : frame < 2 ^ 18)
    (inside : offset < 4096) (value : BitVec 8) :
    storeSupervisor memory root (2 ^ 42 + frame * 4096 + offset : Nat) value =
      .ok (storeByte memory frame (2 ^ 42 + frame * 4096 + offset : Nat) value) := by
  obtain ⟨⟨child, reached, _, mapped⟩, above⟩ := window
  obtain ⟨leads, held⟩ := frame_ok reached
  obtain ⟨_, plain, rfl⟩ := PageTableEntry.next_eq_some_iff.mp leads
  have canonical : Canonical (2 ^ 42 + frame * 4096 + offset) := .inl (by omega)
  have indices : VirtAddr.indices (2 ^ 42 + frame * 4096 + offset : Nat) =
      [8, 0, Fin.ofNat 512 (frame / 512), Fin.ofNat 512 frame] := by
    have fourth : (2 ^ 42 + frame * 4096 + offset) / 2 ^ 39 = 8 := by omega
    have third : (2 ^ 42 + frame * 4096 + offset) / 2 ^ 30 = 8 * 512 := by omega
    have second : (2 ^ 42 + frame * 4096 + offset) / 2 ^ 21 = 8 * 512 * 512 + frame / 512 := by omega
    have first : (2 ^ 42 + frame * 4096 + offset) / 2 ^ 12 = 8 * 512 * 512 * 512 + frame := by omega
    simp only [VirtAddr.indices, VirtAddr.path, VirtAddr.p1Index, VirtAddr.p2Index, VirtAddr.p3Index,
      VirtAddr.p4Index, first, second, third, fourth, List.cons_append, List.nil_append]
    congr 1
    refine List.cons_eq_cons.mpr ⟨rfl, List.cons_eq_cons.mpr ⟨?_, List.cons_eq_cons.mpr ⟨?_, rfl⟩⟩⟩
    · exact Fin.ext (by rw [Fin.val_ofNat, Fin.val_ofNat]; omega)
    · exact Fin.ext (by rw [Fin.val_ofNat, Fin.val_ofNat]; omega)
  have number : (frame / 512 % 512) * 512 + frame % 512 = frame := by omega
  have walked : lookup memory root [8, 0, Fin.ofNat 512 (frame / 512), Fin.ofNat 512 frame] =
      some ⟨[(root, 8), ((memory root 8).addr, 0)], frame⟩ := by
    have huge : physicalMap.flags.contains present = true ∧ physicalMap.flags.contains hugePage = true ∧
        physicalMap.addr = 0 := by decide
    simp [lookup, held, plain, mapped, huge, number]
  have allowed : (memory (memory root 8).addr 0).flags.contains writable = true := by
    rw [mapped]
    decide
  simp only [Zephyr.storeSupervisor, if_pos canonical, indices, walked, List.all_cons, List.all_nil, above, allowed, Bool.and_true,
    if_true]

def PageTableEntry.setBytes (entry : PageTableEntry) : Nat → List (BitVec 8) → PageTableEntry
  | _, [] => entry
  | lane, value :: rest => (entry.setByte lane value).setBytes (lane + 1) rest

theorem Window.storeData {data : List (BitVec 8)} {lane : Nat} (window : Window memory root) (small : root < 2 ^ 18)
    (aside : index ≠ 8) (fits : lane + data.length ≤ 8) :
    ∃ after, storeData root (2 ^ 42 + root * 4096 + (index.1 * 8 + lane)) data memory = .ok after ∧
      after root index = (memory root index).setBytes lane data ∧
      ∀ table position, ¬ (table = root ∧ position = index) → after table position = memory table position := by
  induction data generalizing memory lane with
  | nil => exact ⟨memory, rfl, rfl, fun _ _ _ => rfl⟩
  | cons value rest ih =>
    rw [List.length_cons] at fits
    have bound := index.2
    have stored := window.storeSupervisor small (by omega : index.1 * 8 + lane < 4096) value
    have word : Fin.ofNat 512 ((2 ^ 42 + root * 4096 + (index.1 * 8 + lane)) / 8) = index := by
      refine Fin.ext ?_
      rw [Fin.val_ofNat]
      omega
    have place : (2 ^ 42 + root * 4096 + (index.1 * 8 + lane)) % 8 = lane := by omega
    have written : storeByte memory root (2 ^ 42 + root * 4096 + (index.1 * 8 + lane) : Nat) value =
        memory.write root index ((memory root index).setByte lane value) := by
      rw [storeByte]
      change memory.write root (Fin.ofNat 512 ((2 ^ 42 + root * 4096 + (index.1 * 8 + lane)) / 8))
        ((memory root (Fin.ofNat 512 ((2 ^ 42 + root * 4096 + (index.1 * 8 + lane)) / 8))).setByte
          ((2 ^ 42 + root * 4096 + (index.1 * 8 + lane)) % 8) value) = _
      rw [word, place]
    have still : Window (memory.write root index ((memory root index).setByte lane value)) root := by
      obtain ⟨⟨child, reached, apart, mapped⟩, above⟩ := window
      have same : memory.write root index ((memory root index).setByte lane value) root 8 = memory root 8 :=
        write_index _ _ _ _ aside.symm
      refine ⟨⟨child, same ▸ reached, apart, ?_⟩, same ▸ above⟩
      rw [write_table _ _ _ apart, mapped]
    obtain ⟨after, finished, here, others⟩ := ih still (by omega : lane + 1 + rest.length ≤ 8)
    refine ⟨after, ?_, ?_, fun table position away => ?_⟩
    · have whole : (2 ^ 42 + root * 4096 + (index.1 * 8 + lane)) % 2 ^ 64 =
          2 ^ 42 + root * 4096 + (index.1 * 8 + lane) := Nat.mod_eq_of_lt (by omega)
      rw [Zephyr.storeData, whole, stored, written]
      exact finished
    · rw [here, write_same]
      rfl
    · rw [others table position away]
      by_cases at_root : table = root
      · subst at_root
        exact write_index _ _ _ _ fun same => away ⟨rfl, same⟩
      · rw [write_table _ _ _ at_root]

/-- A segment over an entry of the root table, as the window shows it, of a size that
takes its end around to 0x1000. -/
def wrappedSegment (root : Nat) (index : Fin 512) (data : List (BitVec 8)) : Segment where
  address := UInt64.ofNat (2 ^ 42 + root * 4096 + index.1 * 8)
  size := UInt64.ofNat (2 ^ 64 + 4096 - (2 ^ 42 + root * 4096 + index.1 * 8))
  data := some data

/-- The segment passes the range check, no page is mapped for it, and its data lands in
the root table. -/
theorem Window.loadSegment {info : MemoryInfo} {data : List (BitVec 8)} (mapper : Mapper)
    (window : Window info.memory root) (small : root < 2 ^ 18) (aside : index ≠ 8) (fits : data.length ≤ 8) :
    ∃ memory, info.loadSegment mapper root (wrappedSegment root index data) = .ok (.ok (), { info with memory }) ∧
      memory root index = (info.memory root index).setBytes 0 data ∧
      ∀ table position, ¬ (table = root ∧ position = index) → memory table position = info.memory table position := by
  have bound := index.2
  obtain ⟨memory, stored, here, others⟩ := window.storeData small aside (by omega : 0 + data.length ≤ 8)
  refine ⟨memory, ?_, here, others⟩
  have address : (wrappedSegment root index data).address.toNat = 2 ^ 42 + root * 4096 + index.1 * 8 :=
    UInt64.toNat_ofNat_of_lt' (by rw [UInt64.size]; omega)
  have size : (wrappedSegment root index data).size.toNat = 2 ^ 64 + 4096 - (2 ^ 42 + root * 4096 + index.1 * 8) :=
    UInt64.toNat_ofNat_of_lt' (by rw [UInt64.size]; omega)
  have start : VirtAddr.new (2 ^ 42 + root * 4096 + index.1 * 8) = .ok (2 ^ 42 + root * 4096 + index.1 * 8 : Nat) :=
    VirtAddr.new_of_lt (by omega)
  have sum : (2 ^ 42 + root * 4096 + index.1 * 8 + (2 ^ 64 + 4096 - (2 ^ 42 + root * 4096 + index.1 * 8))) % 2 ^ 64 =
      4096 := by omega
  have wraps : VirtAddr.add (2 ^ 42 + root * 4096 + index.1 * 8 : Nat)
      (2 ^ 64 + 4096 - (2 ^ 42 + root * 4096 + index.1 * 8)) = .ok (4096 : Nat) := by
    rw [VirtAddr.add, sum]
    rfl
  have pageless : pagesOf (2 ^ 42 + root * 4096 + index.1 * 8 : Nat)
      (2 ^ 64 + 4096 - (2 ^ 42 + root * 4096 + index.1 * 8)) = .ok [] := by
    have empty : (4096 - 1) / 4096 + 1 - (2 ^ 42 + root * 4096 + index.1 * 8) / 4096 = 0 := by omega
    rw [pagesOf_finish (.inl (by omega)) sum (by decide) (by decide), empty]
    rfl
  have checked : ¬ ((2 ^ 42 + root * 4096 + index.1 * 8 : Nat) < userCodeStart ∨ userCodeEnd ≤ (4096 : Nat)) := by
    change ¬ (2 ^ 42 + root * 4096 + index.1 * 8 < 0x5000000 ∨ 0x90000000 ≤ 4096)
    omega
  have long : ¬ 2 ^ 64 + 4096 - (2 ^ 42 + root * 4096 + index.1 * 8) < data.length := by omega
  have mapped : info.allocatePages mapper root (2 ^ 42 + root * 4096 + index.1 * 8 : Nat)
      (2 ^ 64 + 4096 - (2 ^ 42 + root * 4096 + index.1 * 8)) userPage = .ok (.ok (), info) := by
    rw [allocatePages, pageless]
    rfl
  rw [Nat.add_zero] at stored
  rw [MemoryInfo.loadSegment, address, size, start]
  dsimp only
  rw [wraps]
  dsimp only
  rw [if_neg checked, mapped]
  dsimp only [wrappedSegment]
  rw [if_neg long, stored]

end Window

section Boot

/-- The kernel's tables in frames 1 to 5: physical memory in level-4 slot 8, and the heap
in frames 16 to 90. -/
def kernelMemory : Memory Nat 512 PageTableEntry := fun frame index =>
  if frame = 1 ∧ index = 8 then .setAddr 2 (present ||| writable)
  else if frame = 1 ∧ index = 136 then .setAddr 3 (present ||| writable)
  else if frame = 2 ∧ index = 0 then physicalMap
  else if frame = 3 ∧ index = 273 then .setAddr 4 (present ||| writable)
  else if frame = 4 ∧ index = 34 then .setAddr 5 (present ||| writable)
  else if frame = 5 ∧ 64 ≤ index.1 ∧ index.1 < 139 then .setAddr (index.1 - 48) (present ||| writable)
  else 0

/-- 8192 usable frames, the first 75 of them behind the kernel heap. -/
def kernelAllocator : PageFrameAllocator :=
  ⟨[⟨16 * 4096, 8208 * 4096, .usable⟩], 75, fun frame => 16 ≤ frame && frame < 91⟩

def kernelInfo : MemoryInfo := ⟨kernelMemory, kernelAllocator, 1⟩

theorem kernelMemory_cases (frame : Nat) (index : Fin 512) : kernelMemory frame index = 0 ∨
    (kernelMemory frame index).flags.contains present = true ∧
      (kernelMemory frame index).flags.contains userAccessible = false ∧ (kernelMemory frame index).addr < 91 := by
  unfold kernelMemory
  split
  · exact .inr (by decide)
  split
  · exact .inr (by decide)
  split
  · exact .inr (by decide)
  split
  · exact .inr (by decide)
  split
  · exact .inr (by decide)
  split
  · rename_i heap
    have bound : index.1 - 48 < 2 ^ 40 := by omega
    have clean : PageTableEntry.Clean (present ||| writable) := by decide
    rw [PageTableEntry.flags_setAddr bound clean, PageTableEntry.addr_setAddr bound clean]
    exact .inr ⟨by decide, by decide, by omega⟩
  · exact .inl rfl

theorem entryAt_kernelMemory (path : List (Fin 512)) (index : Fin 512) :
    entryAt kernelMemory 1 path index = 0 ∨ (entryAt kernelMemory 1 path index).flags.contains present = true ∧
      (entryAt kernelMemory 1 path index).flags.contains userAccessible = false ∧
      (entryAt kernelMemory 1 path index).addr < 91 := by
  cases found : tableAt kernelMemory 1 path with
  | none => exact .inl (entryAt_of_none found)
  | some table =>
    rw [entryAt_of_tableAt found]
    exact kernelMemory_cases table index

theorem available_kernelAllocator {frame : Nat} (available : kernelAllocator.Available frame) : 91 ≤ frame := by
  obtain ⟨usable, free⟩ := available
  have least : 16 ≤ frame := by
    simp only [kernelAllocator, PageFrameAllocator.usableFrames, List.filter_cons, decide_true, if_true,
      List.filter_nil, List.flatMap_cons, List.flatMap_nil, List.append_nil, MemoryRegion.frames] at usable
    obtain ⟨step, _, rfl⟩ := List.mem_map.mp usable
    omega
  have unused : ¬ (16 ≤ frame ∧ frame < 91) := by
    simpa [kernelAllocator] using free
  omega

theorem cursorReady_kernelAllocator : kernelAllocator.CursorReady 8117 := by
  refine PageFrameAllocator.cursorReady_region rfl (Nat.le_refl 8208) (by decide) fun frame least _ => ?_
  have past : ¬ frame < 91 := Nat.not_lt.mpr least
  simp [kernelAllocator, past]

theorem entryAt_heap {addr : Nat} (least : heapStart ≤ addr) (most : addr < heapStart + heapSize) :
    entryAt kernelMemory 1 (VirtAddr.path addr) (VirtAddr.p1Index addr) =
      .setAddr (16 + (addr - heapStart) / 4096) (present ||| writable) := by
  unfold heapStart heapSize at *
  have path : VirtAddr.path addr = [136, 273, 34] := by
    have second : addr / 2 ^ 21 = 136 * 2 ^ 18 + 273 * 2 ^ 9 + 34 := by omega
    have third : addr / 2 ^ 30 = 136 * 2 ^ 9 + 273 := by omega
    have fourth : addr / 2 ^ 39 = 136 := by omega
    simp only [VirtAddr.path, VirtAddr.p2Index, VirtAddr.p3Index, VirtAddr.p4Index, second, third, fourth]
    decide
  have index : (VirtAddr.p1Index addr).1 = 64 + (addr - 0x444444440000) / 4096 := by
    rw [VirtAddr.p1Index, Fin.val_ofNat]
    omega
  have found : tableAt kernelMemory 1 [136, 273, 34] = some 5 := by decide
  have shift : (VirtAddr.p1Index addr).1 - 48 = 16 + (addr - 0x444444440000) / 4096 := by omega
  rw [path, entryAt_of_tableAt found, ← shift]
  have inside : 64 ≤ (VirtAddr.p1Index addr).1 ∧ (VirtAddr.p1Index addr).1 < 139 := by omega
  simp [kernelMemory, inside]

theorem booted_kernelInfo : Booted kernelInfo where
  wellFormed := by
    refine ⟨fun table listed available => ?_, fun path index upper child leads => ?_⟩
    · have least := available_kernelAllocator available
      obtain ⟨path, short, found⟩ := listed
      rcases List.eq_nil_or_concat path with rfl | ⟨stem, index, rfl⟩
      · cases found
        exact absurd least (by decide)
      · rw [List.concat_eq_append, tableAt_concat_eq] at found
        obtain ⟨used, _, rfl⟩ := PageTableEntry.next_eq_some_iff.mp found
        have small := ((entryAt_kernelMemory stem index).resolve_left used).2.2
        exact absurd small (Nat.not_lt.mpr least)
    · have used := (PageTableEntry.next_eq_some_iff.mp leads).1
      exact ((entryAt_kernelMemory path index).resolve_left used).1
  table := by
    have closed : ∀ path index, (entryAt kernelMemory 1 path index).flags.contains userAccessible = false := by
      intro path index
      rcases entryAt_kernelMemory path index with unused | ⟨_, closed, _⟩
      · rw [unused]
        decide
      · exact closed
    refine ⟨by decide, ?_, fun path index _ marked => ?_⟩
    · rintro ⟨path, index, _, _, user⟩
      have wide := (contains_or.mp user).2
      cases wide.symm.trans (closed path index)
    · have wide : (entryAt kernelMemory 1 path index).flags.contains userAccessible = true := by
        have same : (entryAt kernelMemory 1 path index).flags = present ||| userAccessible := marked
        rw [same]
        decide
      cases wide.symm.trans (closed path index)
  heap := by
    rintro frame ⟨addr, least, most, _, rfl⟩
    have small : (addr - heapStart) / 4096 < 75 := by
      unfold heapStart heapSize at *
      omega
    have entry : entryAt kernelInfo.memory kernelInfo.kernelPageTables (VirtAddr.path addr) (VirtAddr.p1Index addr) =
        .setAddr (16 + (addr - heapStart) / 4096) (present ||| writable) := entryAt_heap least most
    rw [entry, PageTableEntry.addr_setAddr (by omega) (by decide)]
    have used : 16 ≤ 16 + (addr - heapStart) / 4096 ∧ 16 + (addr - heapStart) / 4096 < 91 := by omega
    simpa [kernelInfo, kernelAllocator] using used
  zero available := absurd (available_kernelAllocator available) (by decide)

theorem tables_kernelMemory : tables kernelMemory 4 1 = [1, 2, 3, 4, 5] := by decide +kernel

/-- What a run needs to know of memory once the heap of the process with the given level-4
table is mapped. -/
structure Prepared (table count : Nat) (info : MemoryInfo) : Prop where
  sound : info.Sound table
  window : Window info.memory table
  ready : info.frameAllocator.CursorReady (13 + count)
  unused : ∀ index : Fin 512, index ≠ 5 → index ≠ 8 → index ≠ 136 → info.memory table index = 0
  kernel : info.kernelPageTables = 1

theorem Prepared.taken {table count : Nat} {info : MemoryInfo} (prepared : Prepared table count info) :
    ¬ info.frameAllocator.Available table := prepared.sound.taken table (root_mem_tableSet (by decide))

section Intact

variable {info : MemoryInfo} {count : Nat}

theorem MemoryInfo.Copied.first {created : MemoryInfo} {root table : Nat} (copied : Copied info created root table) :
    info.frameAllocator.usableFrames[info.frameAllocator.next]? = some table := by
  have grabs := copied.grabs
  rw [tables_succ] at grabs
  cases grabs with
  | cons takes _ => exact (PageFrameAllocator.takes_iff.mp takes).1

theorem createKernelOnlyPagetable_intact (intact : KernelIntact kernelInfo info)
    (shut : ∀ frame, ¬ kernelInfo.frameAllocator.Available frame → ¬ info.frameAllocator.Available frame)
    (ready : info.frameAllocator.CursorReady (5 + count)) :
    ∃ table created, info.createKernelOnlyPagetable = .ok (table, created) ∧
      Copied info created info.kernelPageTables table ∧ created.frameAllocator.CursorReady count := by
  have count : (tables info.memory 4 info.kernelPageTables).length = 5 := by
    have same : tables info.memory 4 1 = tables kernelMemory 4 1 :=
      tables_congr fun table listed => intact.tables table (mem_tables.mp listed)
    rw [intact.root]
    exact congrArg List.length (same.trans tables_kernelMemory)
  cases copyPagetables_spec (intact.wellFormed booted_kernelInfo shut) with
  | short panic stopped frames after grabs fewer stuck =>
    obtain ⟨all, last, whole, enough⟩ := ready.grabs
    have less : frames.length < 5 := count ▸ fewer
    exact absurd stuck (grabs.not_stuck whole (by omega))
  | done pair returned copied =>
    obtain ⟨table, created⟩ := pair
    have copied : Copied info created info.kernelPageTables table := copied
    refine ⟨table, created, returned, copied, copied.grabs.ready ?_⟩
    rw [copied.count, count]
    exact ready

/-- The copy leads where the kernel's table leads, and the heap comes beside it. -/
theorem prepared_intact (count : Nat) (intact : KernelIntact kernelInfo info)
    (shut : ∀ frame, ¬ kernelInfo.frameAllocator.Available frame → ¬ info.frameAllocator.Available frame)
    (ready : info.frameAllocator.CursorReady (5 + (3 * 1024 + (13 + count) + 1))) :
    ∃ table created after, info.createKernelOnlyPagetable = .ok (table, created) ∧
      created.allocateUserHeap offsetPageTable table = .ok (.ok (), after) ∧ Prepared table count after ∧
      info.frameAllocator.usableFrames[info.frameAllocator.next]? = some table := by
  obtain ⟨table, created, returned, copied, ready⟩ := createKernelOnlyPagetable_intact intact shut ready
  have tree : UserTree (fun _ => False) table [] [] created :=
    copied.userTree (intact.table booted_kernelInfo) (fun _ => False.elim)
  have sound := tree.owns.sound
  have mirrored : ∀ {path : List (Fin 512)} (short : path.length < 4) (index : Fin 512),
      next (entryAt kernelMemory 1 path index) = none →
        entryAt created.memory table path index = entryAt kernelMemory 1 path index := by
    intro path short index stops
    have same := intact.entryAt short index
    exact ((copied.mirrors.entryAt short index).1 (.inr (by rw [same]; exact stops))).trans same
  have blank : ∀ index : Fin 512, index ≠ 8 → index ≠ 136 → created.memory table index = 0 := by
    intro index eighth heap
    have unused : kernelMemory 1 index = 0 := by simp [kernelMemory, eighth, heap]
    refine (mirrored (by decide : ([] : List (Fin 512)).length < 4) index ?_).trans unused
    rw [show entryAt kernelMemory 1 [] index = 0 from unused]
    rfl
  obtain ⟨after, mapped, still, left, kept⟩ := allocateUserHeap_succeeds sound (blank 5 (by decide) (by decide)) ready
  have root : ∀ index : Fin 512, index ≠ 5 → after.memory table index = created.memory table index :=
    fun index differs => kept [] index (by decide) (fun same => differs (Option.some.inj same))
  have eighth := intact.entryAt (by decide : ([] : List (Fin 512)).length < 4) 8
  obtain ⟨twin, leads, alike, _⟩ := (copied.mirrors.entryAt (by decide : ([] : List (Fin 512)).length < 4) 8).2 2
    (by decide) (by rw [eighth]; decide)
  have flags : (after.memory table 8).flags = present ||| writable := by
    rw [root 8 (by decide)]
    refine alike.trans ?_
    rw [eighth]
    decide
  have below : next (after.memory table 8) = some twin := by
    rw [root 8 (by decide)]
    exact leads
  have found : tableAt after.memory table [8] = some twin := by rw [tableAt, below]; rfl
  have apart : twin ≠ table := by
    rintro rfl
    have same : [(8 : Fin 512)] = [] := still.unshared (by decide) (by decide) found tableAt_nil
    cases same
  have huge : after.memory twin 0 = physicalMap := by
    rw [← entryAt_of_tableAt found, kept [8] 0 (by decide) (by decide)]
    exact (mirrored (by decide : ([8] : List (Fin 512)).length < 4) 0 (by decide)).trans (by decide)
  have window : Window after.memory table :=
    ⟨⟨twin, frame_of_next below (by rw [flags]; decide), apart, huge⟩, by rw [flags]; decide⟩
  refine ⟨table, created, after, returned, mapped, ⟨still, window, left,
    fun index fifth eighth heap => (root index fifth).trans (blank index eighth heap), ?_⟩, copied.first⟩
  exact ((tree.allocateUserHeap mapped).1.kernel.trans copied.kernel).trans intact.root

end Intact

theorem prepared_kernelInfo : ∃ created info, kernelInfo.createKernelOnlyPagetable = .ok (91, created) ∧
    created.allocateUserHeap offsetPageTable 91 = .ok (.ok (), info) ∧ Prepared 91 5000 info := by
  have ready : kernelInfo.frameAllocator.CursorReady (5 + (3 * 1024 + (13 + 5000) + 1)) :=
    cursorReady_kernelAllocator.le (by omega)
  have intact : KernelIntact kernelInfo kernelInfo := ⟨fun _ _ => rfl, rfl⟩
  obtain ⟨table, created, info, returned, mapped, prepared, first⟩ := prepared_intact 5000 intact (fun _ taken => taken) ready
  have there : kernelAllocator.usableFrames[kernelAllocator.next]? = some 91 := by decide +kernel
  obtain rfl : table = 91 := Option.some.inj (first.symm.trans there)
  exact ⟨created, info, returned, mapped, prepared⟩

end Boot

namespace System

section Perform

variable {σ : Type} [DecidableEq σ] [Fintype σ] {mapper : Mapper} {system : System σ} {thread : Thread}
variable {table original : Nat} {info : MemoryInfo}

theorem perform_createKernelOnlyPagetable (running : system.kernel.runningThread = some thread)
    (idle : thread.threadType = .kernel ∧ system.kernel.spawning thread.threadId = none)
    (created : system.info.createKernelOnlyPagetable = .ok (table, info)) :
    system.perform mapper .createKernelOnlyPagetable =
      .ok ⟨system.kernel.createKernelOnlyPagetable table, info, system.selectors⟩ := by
  simp only [perform, running, if_pos idle, created]

theorem perform_allocateUserHeap (standing : system.kernel.stage = some (thread, .created table))
    (mapped : system.info.allocateUserHeap mapper table = .ok (.ok (), info)) :
    system.perform mapper .allocateUserHeap = .ok ⟨system.kernel.enterUserPagetable, info, system.selectors⟩ := by
  simp only [perform, standing, mapped]

theorem perform_loadSegment {segment : Segment} (standing : system.kernel.stage = some (thread, .inside table original))
    (loaded : system.info.loadSegment mapper table segment = .ok (.ok (), info)) :
    system.perform mapper (.loadSegment segment) = .ok ⟨system.kernel.loadSegment, info, system.selectors⟩ := by
  simp only [perform, standing, loaded]

theorem perform_initialiseThread {entryPoint : UInt64} {sockets : List σ} {kernelStackStart : Nat} {garbage : ISF}
    {bottom top : VirtAddr} (standing : system.kernel.stage = some (thread, .inside table original))
    (allocated : system.info.allocateUserStack table (system.kernel.counter + 2) = .ok (.ok (bottom, top), info)) :
    system.perform mapper (.initialiseThread entryPoint sockets kernelStackStart garbage) =
      .ok ⟨system.kernel.initialiseThread entryPoint sockets top kernelStackStart garbage, info, system.selectors⟩ := by
  simp only [perform, standing, allocated]

end Perform

end System

section Launch

def kernelContext : Context :=
  let frame : ISF := {
    instructionPointer := 0x200100
    flags := 0x200
    codeSegment := kernelSegments.1
    stackSegment := kernelSegments.2 }
  ⟨heapStart + 0x2f60, frame⟩

def LaunchStep (before : System Unit) (event : Event Unit) (after : System Unit) : Prop :=
  before.Careful event ∧ System.PossibleStep offsetPageTable before event after

theorem LaunchStep.careful {before after : System Unit} {event : Event Unit} (step : LaunchStep before event after) :
    System.CarefulStep offsetPageTable before event after := ⟨step.1, step.2.2⟩

/-- A kernel thread inside `spawn_user_thread`, with the heap of the new process mapped. -/
def spawnEvents : List (Event Unit) :=
  [.spawnKernelThread 0x200000 [] heapStart {}, .timer kernelContext, .createKernelOnlyPagetable, .allocateUserHeap]

/-- The kernel thread's first turn. -/
def spawnerKernel : Kernel Unit :=
  (((Kernel.boot () 1).spawnKernelThread 0x200000 [] heapStart {}).timerHandler kernelContext).1

def spawnKernel : Kernel Unit := (spawnerKernel.createKernelOnlyPagetable 91).enterUserPagetable

theorem run_spawnEvents : ∃ info, Prepared 91 5000 info ∧
    Run LaunchStep (System.boot () kernelInfo) spawnEvents
      ⟨spawnKernel, info, kernelSegments⟩ := by
  obtain ⟨created, info, returned, mapped, prepared⟩ := prepared_kernelInfo
  let spawner : System Unit := ⟨spawnerKernel, kernelInfo, kernelSegments⟩
  let builder : System Unit := ⟨spawnerKernel.createKernelOnlyPagetable 91, created, kernelSegments⟩
  have third : spawner.perform offsetPageTable .createKernelOnlyPagetable = .ok builder :=
    System.perform_createKernelOnlyPagetable rfl ⟨rfl, rfl⟩ returned
  have fourth : builder.perform offsetPageTable .allocateUserHeap = .ok ⟨spawnKernel, info, kernelSegments⟩ :=
    System.perform_allocateUserHeap rfl mapped
  exact ⟨info, prepared, .cons ⟨trivial, trivial, rfl⟩ (.cons ⟨trivial, nofun, rfl⟩ (.cons ⟨trivial, trivial, third⟩
    (.cons ⟨trivial, trivial, fourth⟩ .nil)))⟩

/-- The new thread is queued and takes its first turn. -/
def launchEvents : List (Event Unit) :=
  [.initialiseThread 0x5000000 [] (heapStart + 0x10000) {}, .leaveUserPagetable, .timer kernelContext]

/-- The user thread runs, on the stack in slot 3. -/
def launchKernel : Kernel Unit :=
  ((spawnKernel.initialiseThread 0x5000000 [] (slotAddress 3 + 11 * 4096) (heapStart + 0x10000) {}).leaveUserPagetable
    |>.timerHandler kernelContext).1

theorem run_launchEvents {count : Nat} (info : MemoryInfo) (unused : info.memory 91 6 = 0)
    (taken : ¬ info.frameAllocator.Available 91) (ready : info.frameAllocator.CursorReady (13 + count)) :
    ∃ after : MemoryInfo,
      info.allocateUserStack 91 3 = .ok (.ok (slotAddress 3 + 4096, slotAddress 3 + 11 * 4096), after) ∧
      after.frameAllocator.CursorReady count ∧ after.kernelPageTables = info.kernelPageTables ∧
      (∀ frame, ¬ info.frameAllocator.Available frame →
        ∀ position, ¬ (frame = 91 ∧ position = 6) → after.memory frame position = info.memory frame position) ∧
      Run LaunchStep ⟨spawnKernel, info, kernelSegments⟩ launchEvents
        ⟨launchKernel, after, userSegments⟩ := by
  obtain ⟨after, allocated, left, kernel, kept⟩ :=
    allocateUserStack_succeeds unused taken (by decide : 3 % 64 * 8 + 10 < 512) ready
  let spawner : System Unit := ⟨spawnKernel, info, kernelSegments⟩
  have first : spawner.perform offsetPageTable (.initialiseThread 0x5000000 [] (heapStart + 0x10000) {}) =
      .ok ⟨spawnKernel.initialiseThread 0x5000000 [] (slotAddress 3 + 11 * 4096) (heapStart + 0x10000) {}, after,
        kernelSegments⟩ := System.perform_initialiseThread rfl allocated
  exact ⟨after, allocated, left, kernel, kept, .cons ⟨trivial, trivial, first⟩ (.cons ⟨trivial, trivial, rfl⟩
    (.cons ⟨trivial, nofun, rfl⟩ .nil))⟩

/-- Of the stack pages of the launched process only those of slot 3 are mapped. -/
structure Launched (info : MemoryInfo) : Prop where
  ready : info.frameAllocator.CursorReady 5000
  unused : ∀ k : Fin 512, k.1 ∉ slotPages 3 → info.stackEntry 91 k = 0

theorem run_launch : ∃ info, Launched info ∧ Run LaunchStep (System.boot () kernelInfo)
    (spawnEvents ++ launchEvents) ⟨launchKernel, info, userSegments⟩ := by
  obtain ⟨info, prepared, first⟩ := run_spawnEvents
  have unused := prepared.unused 6 (by decide) (by decide) (by decide)
  obtain ⟨after, allocated, ready, _, _, second⟩ := run_launchEvents info unused prepared.taken prepared.ready
  have tended := tended_of_unused prepared.sound unused
  refine ⟨after, ⟨ready, fun k aside => ?_⟩, first.trans second⟩
  have blank : info.stackEntry 91 k = 0 := entryAt_cons_none (by rw [unused]; rfl)
  obtain ⟨n, _, _, _, gained, outcome⟩ := tended.allocateUserStack allocated
  rcases gained k with same | ⟨inside, _⟩
  · exact same.trans blank
  · obtain ⟨same, _⟩ := outcome.resolve_left fun failed => by
      obtain ⟨⟨_, failed⟩, _⟩ := failed
      cases failed
    obtain rfl : 3 = n := StackMemory.slotStack_injective (Except.ok.inj same)
    exact absurd inside aside

/-- The user thread is interrupted, and the kernel thread spawns a second process. -/
def secondEvents (userContext : Context) : List (Event Unit) :=
  [.timer userContext, .createKernelOnlyPagetable, .allocateUserHeap,
    .initialiseThread 0x5000000 [] (heapStart + 0x20000) {}, .leaveUserPagetable]

def userContext : Context :=
  let frame : ISF := {
    instructionPointer := 0x5000100
    flags := 0x200
    codeSegment := userSegments.1
    stackSegment := userSegments.2 }
  ⟨heapStart + 0x12f60, frame⟩

/-- Two processes wait, the one with the table in frame 91 and one with the given table. -/
def secondKernel (table : Nat) : Kernel Unit :=
  (((launchKernel.timerHandler userContext).1.createKernelOnlyPagetable table).enterUserPagetable.initialiseThread
    0x5000000 [] (slotAddress 5 + 11 * 4096) (heapStart + 0x20000) {}).leaveUserPagetable

theorem run_second : ∃ table info, Run LaunchStep (System.boot () kernelInfo)
    (spawnEvents ++ launchEvents ++ secondEvents userContext) ⟨secondKernel table, info, kernelSegments⟩ := by
  obtain ⟨info, launched, run⟩ := run_launch
  obtain ⟨trees, tenancy⟩ := Tenancy.of_run booted_kernelInfo (run.mono LaunchStep.careful)
  have ready : info.frameAllocator.CursorReady (5 + (3 * 1024 + (13 + 0) + 1)) := launched.ready.le (by omega)
  obtain ⟨table, created, heaped, returned, mapped, prepared, _⟩ :=
    prepared_intact 0 tenancy.intact tenancy.isolated.shut ready
  have unused := prepared.unused 6 (by decide) (by decide) (by decide)
  obtain ⟨after, allocated, _⟩ :=
    allocateUserStack_succeeds unused prepared.taken (by decide : 5 % 64 * 8 + 10 < 512) prepared.ready
  let kernel := (launchKernel.timerHandler userContext).1
  let spawner : System Unit := ⟨kernel, info, kernelSegments⟩
  let builder : System Unit := ⟨kernel.createKernelOnlyPagetable table, created, kernelSegments⟩
  let loader : System Unit := ⟨(kernel.createKernelOnlyPagetable table).enterUserPagetable, heaped, kernelSegments⟩
  have second : spawner.perform offsetPageTable .createKernelOnlyPagetable = .ok builder :=
    System.perform_createKernelOnlyPagetable rfl ⟨rfl, rfl⟩ returned
  have third : builder.perform offsetPageTable .allocateUserHeap = .ok loader :=
    System.perform_allocateUserHeap rfl mapped
  have fourth : loader.perform offsetPageTable (.initialiseThread 0x5000000 [] (heapStart + 0x20000) {}) =
      .ok ⟨loader.kernel.initialiseThread 0x5000000 [] (slotAddress 5 + 11 * 4096) (heapStart + 0x20000) {}, after,
        kernelSegments⟩ := System.perform_initialiseThread rfl allocated
  refine ⟨table, after, run.trans ?_⟩
  exact .cons ⟨trivial, fun _ _ => rfl, rfl⟩ (.cons ⟨trivial, trivial, second⟩ (.cons ⟨trivial, trivial, third⟩
    (.cons ⟨trivial, trivial, fourth⟩ (.cons ⟨trivial, trivial, rfl⟩ .nil))))

/-- A process launched from an image whose one segment wraps: its data is an entry of the
new level-4 table. -/
theorem run_wrapped {index : Fin 512} {data : List (BitVec 8)} (unused : index ≠ 5 ∧ index ≠ 6 ∧ index ≠ 8 ∧ index ≠ 136)
    (fits : data.length ≤ 8) : ∃ info, info.kernelPageTables = 1 ∧ info.memory 91 index = (0 : PageTableEntry).setBytes 0 data ∧
    Run (System.PossibleStep offsetPageTable) (System.boot () kernelInfo)
      (spawnEvents ++ .loadSegment (wrappedSegment 91 index data) :: launchEvents)
      ⟨launchKernel, info, userSegments⟩ := by
  obtain ⟨fifth, stack, eighth, heap⟩ := unused
  obtain ⟨info, prepared, first⟩ := run_spawnEvents
  obtain ⟨memory, loaded, here, others⟩ := prepared.window.loadSegment offsetPageTable (by decide) eighth fits
  rw [prepared.unused index fifth eighth heap] at here
  let spawner : System Unit := ⟨spawnKernel, info, kernelSegments⟩
  have second : spawner.perform offsetPageTable (.loadSegment (wrappedSegment 91 index data)) =
      .ok ⟨spawnKernel, { info with memory }, kernelSegments⟩ := System.perform_loadSegment rfl loaded
  have free : memory 91 6 = 0 := by
    rw [others 91 6 fun same => stack same.2.symm]
    exact prepared.unused 6 (by decide) (by decide) (by decide)
  obtain ⟨after, _, _, kernel, kept, third⟩ := run_launchEvents { info with memory } free prepared.taken prepared.ready
  refine ⟨after, kernel.trans prepared.kernel, ?_, (first.mono And.right).trans (.cons ⟨trivial, second⟩ (third.mono And.right))⟩
  exact (kept 91 prepared.taken index fun same => stack same.2).trans here

end Launch

end Zephyr
