import Zephyr.Mem.Draws
import Zephyr.Mem.TableBound
import Zephyr.Mem.MemoryLogger
import Mathlib.Data.Finset.Card
import Mathlib.Order.Interval.Finset.Nat

/-! The statistics of `MEMORYLOGGER` beside the frame allocator that reports to it. -/

namespace Zephyr

open Transition

namespace PageFrameAllocator

/-- How many frames of the usage table are marked used. -/
def usedFrames (self : PageFrameAllocator) : Nat := {frame ∈ Finset.range frameUsageLen | self.frameUsage frame = true}.card

end PageFrameAllocator

/-- `memory_size` of `memory::init`. -/
def memorySize (memoryMap : List MemoryRegion) : Nat :=
  memoryMap.foldl (fun size region => size + (region.endAddr - region.startAddr)) 0

/-! ### Calls on page tables -/

namespace MemoryInfo

open Radix PageTableFlags
open PageFrameAllocator (Grabs)

/-- The frames a round of the loop of `free_pages_rec` deallocates. -/
def freedEntry (level : Nat) (freedTable : Nat → List Nat) (memory : Memory Nat 512 PageTableEntry) (table : Nat)
    (index : Fin 512) : List Nat :=
  let entry := memory table index
  if entry.isUnused then []
  else if level = 1 ∨ entry.flags.contains hugePage then
    if entry.flags.contains userPage then
      match entry.frame with
      | .error _ => []
      | .ok frame => [frame]
    else []
  else freedTable entry.addr

/-- The frames `free_pages_rec` deallocates, in their order. -/
def freedFrames (memory : Memory Nat 512 PageTableEntry) : Nat → Nat → List Nat
  | 0, frame => [frame]
  | level + 1, table =>
    (List.finRange 512).flatMap (freedEntry (level + 1) (freedFrames memory level) memory table) ++ [table]

theorem freeEntry_eq {level table : Nat} {memory : Memory Nat 512 PageTableEntry} {index : Fin 512}
    {freeTable : PageFrameAllocator → Nat → Except Panic PageFrameAllocator} {freedTable : Nat → List Nat}
    {before after : PageFrameAllocator}
    (below : ∀ before after table, freeTable before table = .ok after →
      after = (freedTable table).foldl PageFrameAllocator.deallocateFrame before)
    (freed : freeEntry level freeTable memory table before index = .ok after) :
    after = (freedEntry level freedTable memory table index).foldl PageFrameAllocator.deallocateFrame before := by
  unfold freeEntry at freed
  unfold freedEntry
  dsimp only at freed ⊢
  split at freed
  · rename_i unused
    cases freed
    rw [if_pos unused]
    rfl
  · rename_i used
    rw [if_neg used]
    split at freed
    · rename_i leaf
      rw [if_pos leaf]
      split at freed
      · rename_i user
        rw [if_pos user]
        cases found : (memory table index).frame with
        | error _ =>
          rw [found] at freed
          cases freed
        | ok frame =>
          rw [found] at freed
          cases freed
          rfl
      · rename_i other
        cases freed
        rw [if_neg other]
        rfl
    · rename_i inner
      rw [if_neg inner]
      exact below _ _ _ freed

theorem freePagesRec_eq {memory : Memory Nat 512 PageTableEntry} {level table : Nat} {before after : PageFrameAllocator}
    (freed : freePagesRec memory level before table = .ok after) :
    after = (freedFrames memory level table).foldl PageFrameAllocator.deallocateFrame before := by
  induction level generalizing before table after with
  | zero =>
    cases freed
    rfl
  | succ level ih =>
    rw [freePagesRec] at freed
    rw [freedFrames]
    generalize List.finRange 512 = indices at freed ⊢
    induction indices generalizing before with
    | nil =>
      cases freed
      rfl
    | cons index indices next =>
      rw [List.foldlM_cons] at freed
      cases round : freeEntry (level + 1) (freePagesRec memory level) memory table before index with
      | error panic =>
        rw [round] at freed
        cases freed
      | ok middle =>
        rw [round] at freed
        rw [List.flatMap_cons, List.append_assoc, List.foldl_append,
          ← freeEntry_eq (fun _ _ _ below => ih below) round]
        exact next freed

/-- `allocator::init_heap`. -/
def initHeap (mapper : Mapper) (self : MemoryInfo) (root : Nat) : Except Panic (Except MapToError Unit × MemoryInfo) :=
  self.allocatePages mapper root heapStart heapSize (present ||| writable)

/-- `memory::init`, from the active table and the memory map of the boot information. -/
def init (mapper : Mapper) (memory : Memory Nat 512 PageTableEntry) (level4Table : Nat)
    (memoryMap : List MemoryRegion) : Except Panic MemoryInfo :=
  match initHeap mapper ⟨memory, .init memoryMap, level4Table⟩ level4Table with
  | .error panic => .error panic
  | .ok (.error _, _) => .error .unwrapErr
  | .ok (.ok (), info) => .ok info

def heapPages : List VirtAddr := (List.range 75).map fun page => ((0x444444440 + page) * 4096 : Nat)

theorem pagesOf_kernelHeap : pagesOf heapStart heapSize = .ok heapPages := by
  have count : ((heapStart + heapSize) % 2 ^ 64 - 1) / 4096 + 1 - heapStart / 4096 = 75 := by decide
  rw [pagesOf_finish (.inl (by decide)) rfl (by decide) (by decide), count]
  rfl

variable {mapper : Mapper} {root : Nat} {info before after : MemoryInfo}

theorem allocateEach_grabs {flags : PageTableFlags} {pages : List VirtAddr}
    (returned : allocateEach mapper root flags pages info = .ok (.ok (), after)) :
    ∃ frames, Grabs info.frameAllocator frames after.frameAllocator ∧ pages.length ≤ frames.length := by
  induction pages generalizing info with
  | nil =>
    cases returned
    exact ⟨[], .nil, Nat.le_refl 0⟩
  | cons page pages ih =>
    rw [allocateEach] at returned
    split at returned
    · cases returned
    · cases returned
    · rename_i frame frameAllocator allocated
      split at returned
      · cases returned
      · cases returned
      · rename_i mapped
        obtain ⟨tables, linked⟩ := mapper.draws mapped
        obtain ⟨frames, grabs, enough⟩ := ih returned
        refine ⟨frame :: (tables ++ frames), .cons allocated (linked.append grabs), ?_⟩
        rw [List.length_cons, List.length_cons, List.length_append]
        omega

/-- A kernel that has booted has taken a frame for each page of its heap. -/
theorem init_grabs {memory : Memory Nat 512 PageTableEntry} {level4Table : Nat} {memoryMap : List MemoryRegion}
    (booted : init mapper memory level4Table memoryMap = .ok info) :
    ∃ frames, Grabs (.init memoryMap) frames info.frameAllocator ∧ 75 ≤ frames.length := by
  unfold init at booted
  split at booted
  · cases booted
  · cases booted
  · rename_i initialised
    cases booted
    rw [initHeap, allocatePages, pagesOf_kernelHeap] at initialised
    exact allocateEach_grabs initialised

end MemoryInfo

/-! ### The logger -/

structure Logged where
  frameAllocator : PageFrameAllocator
  memoryLogger : MemoryLogger

inductive LoggedCall where
  | frame (call : FrameCall)
  | setTotalMemory (totalMemory : UInt64)

def LogRegion.ofFrame (frame : Nat) : LogRegion := ⟨UInt64.ofNat (frame * 4096), UInt64.ofNat (frame * 4096 + 4096)⟩

namespace Logged

def init (memoryMap : List MemoryRegion) : Logged := ⟨.init memoryMap, .new⟩

/-- `allocate_frame` and `deallocate_frame` with their reports, and `setTotalMemory`. -/
def perform (self : Logged) : LoggedCall → Except Panic Logged
  | .frame .allocate =>
    match self.frameAllocator.allocateFrame with
    | .error panic => .error panic
    | .ok (none, frameAllocator) => .ok { self with frameAllocator }
    | .ok (some frame, frameAllocator) =>
      .ok ⟨frameAllocator, (self.memoryLogger.logAllocation (.ofFrame frame) 4096 true).1⟩
  | .frame (.deallocate frame) =>
    .ok ⟨self.frameAllocator.deallocateFrame frame, (self.memoryLogger.logDeallocation (.ofFrame frame) 4096 true).1⟩
  | .setTotalMemory totalMemory => .ok { self with memoryLogger := self.memoryLogger.setTotalMemory totalMemory }

/-- The counters are right, with the most memory in use so far. -/
structure Accurate (logged : Logged) (highest : Nat) : Prop where
  used : logged.memoryLogger.usedMemory.toNat = 4096 * logged.frameAllocator.usedFrames
  total : logged.memoryLogger.usedMemory.toNat + logged.memoryLogger.freeMemory.toNat =
    logged.memoryLogger.totalMemory.toNat
  peak : logged.memoryLogger.peakMemoryUsage.toNat = highest

/-- No subtraction of the call goes below zero. -/
def InRange (logged : Logged) : LoggedCall → Prop
  | .frame .allocate => ∀ frame after, logged.frameAllocator.Takes frame after → 4096 ≤ logged.memoryLogger.freeMemory.toNat
  | .frame (.deallocate _) => 4096 ≤ logged.memoryLogger.usedMemory.toNat
  | .setTotalMemory _ => True

/-- Every call of a sequence is in range, and leaves the counters right. -/
def Consistent (highest : Nat) (logged : Logged) : List LoggedCall → Prop
  | [] => True
  | call :: calls => logged.InRange call ∧ ∀ after, logged.perform call = .ok after →
      after.Accurate (max highest after.memoryLogger.usedMemory.toNat) ∧
        Consistent (max highest after.memoryLogger.usedMemory.toNat) after calls

/-- The calls of `memory::init`, with the number of frames its heap takes, and calls after it. -/
def history (heap total : Nat) (calls : List FrameCall) : List LoggedCall :=
  List.replicate heap (.frame .allocate) ++ .setTotalMemory (UInt64.ofNat total) :: calls.map .frame

/-! ### What is used and what is free -/

/-- Used and free memory add up to the total and what was used when the total was set. -/
def Exceeds (excess : UInt64) (memoryLogger : MemoryLogger) : Prop :=
  memoryLogger.usedMemory + memoryLogger.freeMemory = memoryLogger.totalMemory + excess

variable {memoryMap : List MemoryRegion} {logged after : Logged} {excess : UInt64}

/-- Every report moves as much from one counter to the other. -/
theorem Exceeds.perform {call : FrameCall} (exceeds : Exceeds excess logged.memoryLogger)
    (performed : logged.perform (.frame call) = .ok after) : Exceeds excess after.memoryLogger := by
  unfold Exceeds at exceeds ⊢
  cases call with
  | allocate =>
    rw [Logged.perform] at performed
    split at performed
    · cases performed
    · cases performed
      exact exceeds
    · cases performed
      rw [MemoryLogger.logAllocation_success]
      grind
  | deallocate frame =>
    cases performed
    rw [MemoryLogger.logDeallocation_success]
    grind

theorem Exceeds.run {calls : List FrameCall} (exceeds : Exceeds excess logged.memoryLogger)
    (performed : (calls.map LoggedCall.frame).foldlM Logged.perform logged = .ok after) :
    Exceeds excess after.memoryLogger := by
  induction calls generalizing logged with
  | nil =>
    cases performed
    exact exceeds
  | cons call calls ih =>
    rw [List.map_cons, List.foldlM_cons] at performed
    cases turn : logged.perform (.frame call) with
    | error panic =>
      rw [turn] at performed
      cases performed
    | ok middle =>
      rw [turn] at performed
      exact ih (exceeds.perform turn) performed

/-- A heap of that many frames leaves the sum off. -/
theorem Exceeds.not_accurate {frames : List Nat} {highest : Nat} {before booted : PageFrameAllocator}
    (heap : PageFrameAllocator.Grabs before frames booted) (taken : 0 < frames.length)
    (exceeds : Exceeds (UInt64.ofNat (4096 * frames.length)) logged.memoryLogger) : ¬ logged.Accurate highest := by
  intro accurate
  have inside : frames ⊆ List.range frameUsageLen :=
    fun frame listed => List.mem_range.mpr (heap.bounded listed)
  have few := (heap.nodup.subperm inside).length_le
  rw [List.length_range, frameUsageLen] at few
  have equal := congrArg UInt64.toNat exceeds
  rw [UInt64.toNat_add, UInt64.toNat_add, accurate.total, UInt64.toNat_ofNat_of_lt' (by rw [UInt64.size]; omega)] at equal
  have bound := logged.memoryLogger.totalMemory.toNat_lt
  omega

/-! ### Whole histories -/

/-- A run of successful allocations, reported one by one. -/
theorem perform_grabs {before after : PageFrameAllocator} {frames : List Nat}
    (grabs : PageFrameAllocator.Grabs before frames after) (memoryLogger : MemoryLogger) :
    ∃ later, (frames.map fun _ => LoggedCall.frame .allocate).foldlM perform ⟨before, memoryLogger⟩ = .ok ⟨after, later⟩ ∧
      later.usedMemory = memoryLogger.usedMemory + UInt64.ofNat (4096 * frames.length) := by
  induction grabs generalizing memoryLogger with
  | nil => exact ⟨memoryLogger, rfl, (UInt64.add_zero _).symm⟩
  | @cons _ _ _ frame frames takes _ ih =>
    obtain ⟨later, rest, used⟩ := ih (memoryLogger.logAllocation (.ofFrame frame) 4096 true).1
    refine ⟨later, ?_, ?_⟩
    · rw [List.map_cons, List.foldlM_cons, perform, takes]
      exact rest
    · rw [used, MemoryLogger.logAllocation_success, List.length_cons, Nat.mul_succ, UInt64.ofNat_add]
      have page : UInt64.ofNat 4096 = 4096 := rfl
      grind

theorem perform_deallocations (frames : List Nat) (before : PageFrameAllocator) (memoryLogger : MemoryLogger) :
    ∃ later, ((frames.map FrameCall.deallocate).map LoggedCall.frame).foldlM perform ⟨before, memoryLogger⟩ =
      .ok ⟨frames.foldl PageFrameAllocator.deallocateFrame before, later⟩ := by
  induction frames generalizing before memoryLogger with
  | nil => exact ⟨memoryLogger, rfl⟩
  | cons frame frames ih => exact ih _ _

end Logged

/-! ### Runs on page tables -/

inductive ReportedCall where
  | frame (call : FrameCall)
  | createKernelOnlyPagetable
  | createUserOndemandPages (root : Nat) (startAddr : VirtAddr) (size : Nat)
  | freeUserPagetables (level4Physaddr : Nat)

namespace MemoryInfo

open PageFrameAllocator (Grabs)

variable {mapper : Mapper} {root : Nat} {before after : MemoryInfo}

/-- A call that returns. -/
inductive Calls (mapper : Mapper) : MemoryInfo → ReportedCall → MemoryInfo → Prop where
  | allocate {before : MemoryInfo} {result : Option Nat} {frameAllocator : PageFrameAllocator}
      (allocated : before.frameAllocator.allocateFrame = .ok (result, frameAllocator)) :
      Calls mapper before (.frame .allocate) { before with frameAllocator }
  | deallocate {before : MemoryInfo} {frame : Nat} (allocated : before.frameAllocator.frameUsage frame = true) :
      Calls mapper before (.frame (.deallocate frame))
        { before with frameAllocator := before.frameAllocator.deallocateFrame frame }
  | created {before after : MemoryInfo} {table : Nat}
      (created : before.createKernelOnlyPagetable = .ok (table, after)) :
      Calls mapper before .createKernelOnlyPagetable after
  | mapped {before after : MemoryInfo} {root size : Nat} {startAddr : VirtAddr} {result : Except MapToError Unit}
      (mapped : before.createUserOndemandPages mapper root startAddr size = .ok (result, after)) :
      Calls mapper before (.createUserOndemandPages root startAddr size) after
  | freed {before after : MemoryInfo} {level4Physaddr : Nat}
      (freed : before.freeUserPagetables level4Physaddr = .ok after) :
      Calls mapper before (.freeUserPagetables level4Physaddr) after

/-- The calls on the frame allocator that a call makes and reports. -/
def Reports (before : MemoryInfo) (call : ReportedCall) (after : MemoryInfo) (reported : List FrameCall) : Prop :=
  match call with
  | .frame call => reported = [call]
  | .createKernelOnlyPagetable | .createUserOndemandPages _ _ _ =>
    ∃ frames, Grabs before.frameAllocator frames after.frameAllocator ∧ reported = frames.map fun _ => .allocate
  | .freeUserPagetables level4Physaddr =>
    reported = (freedFrames before.memory 4 level4Physaddr).map .deallocate

theorem Calls.logged {call : ReportedCall} (calls : Calls mapper before call after) (memoryLogger : MemoryLogger) :
    ∃ reported later, Reports before call after reported ∧
      (reported.map LoggedCall.frame).foldlM Logged.perform ⟨before.frameAllocator, memoryLogger⟩ =
        .ok ⟨after.frameAllocator, later⟩ := by
  cases calls with
  | @allocate result frameAllocator allocated =>
    have performed : ∃ later, ([FrameCall.allocate].map LoggedCall.frame).foldlM Logged.perform
        ⟨before.frameAllocator, memoryLogger⟩ = .ok ⟨frameAllocator, later⟩ := by
      rw [List.map_singleton, List.foldlM_cons, Logged.perform, allocated]
      cases result <;> exact ⟨_, rfl⟩
    obtain ⟨later, performed⟩ := performed
    exact ⟨_, later, rfl, performed⟩
  | deallocate => exact ⟨_, _, rfl, rfl⟩
  | created created =>
    obtain ⟨frames, grabs⟩ := draws_createKernelOnlyPagetable created
    obtain ⟨later, performed, _⟩ := Logged.perform_grabs grabs memoryLogger
    exact ⟨_, later, ⟨frames, grabs, rfl⟩, by rw [List.map_map]; exact performed⟩
  | mapped mapped =>
    obtain ⟨frames, grabs⟩ := draws_createUserOndemandPages mapped
    obtain ⟨later, performed, _⟩ := Logged.perform_grabs grabs memoryLogger
    exact ⟨_, later, ⟨frames, grabs, rfl⟩, by rw [List.map_map]; exact performed⟩
  | freed returned =>
    rename_i level4Physaddr
    unfold freeUserPagetables at returned
    cases released : freePagesRec before.memory 4 before.frameAllocator level4Physaddr with
    | error panic =>
      rw [released] at returned
      cases returned
    | ok frameAllocator =>
      rw [released] at returned
      cases returned
      obtain ⟨later, performed⟩ := Logged.perform_deallocations (freedFrames before.memory 4 level4Physaddr)
        before.frameAllocator memoryLogger
      rw [← freePagesRec_eq released] at performed
      exact ⟨_, later, rfl, performed⟩

/-- A run of calls with what each of them reports. -/
inductive ReportedRun (mapper : Mapper) (start : MemoryInfo) : List FrameCall → MemoryInfo → Prop where
  | nil : ReportedRun mapper start [] start
  | snoc {earlier reported : List FrameCall} {call : ReportedCall} {middle last : MemoryInfo}
      (run : ReportedRun mapper start earlier middle) (calls : Calls mapper middle call last)
      (reports : Reports middle call last reported) : ReportedRun mapper start (earlier ++ reported) last

theorem logged_of_run {calls : List ReportedCall} (run : Run (Calls mapper) before calls after)
    (memoryLogger : MemoryLogger) : ∃ reported later, ReportedRun mapper before reported after ∧
      (reported.map LoggedCall.frame).foldlM Logged.perform ⟨before.frameAllocator, memoryLogger⟩ =
        .ok ⟨after.frameAllocator, later⟩ := by
  induction run with
  | nil => exact ⟨[], memoryLogger, .nil, rfl⟩
  | snoc earlier last ih =>
    obtain ⟨reported, middle, made, first⟩ := ih
    obtain ⟨more, later, reports, rest⟩ := last.logged middle
    refine ⟨reported ++ more, later, made.snoc last reports, ?_⟩
    rw [List.map_append, List.foldlM_append, first]
    exact rest

end MemoryInfo

namespace Logged

open Radix
open MemoryInfo (Calls ReportedRun)

variable {mapper : Mapper} {memoryMap : List MemoryRegion}

/-- The calls of a boot, reported in their order. -/
theorem perform_boot {frames : List Nat} {booted : PageFrameAllocator}
    (heap : PageFrameAllocator.Grabs (.init memoryMap) frames booted) (total : Nat) :
    ∃ memoryLogger, (history frames.length total []).foldlM perform (Logged.init memoryMap) = .ok ⟨booted, memoryLogger⟩ ∧
      Exceeds (UInt64.ofNat (4096 * frames.length)) memoryLogger := by
  obtain ⟨filled, first, used⟩ := perform_grabs heap .new
  refine ⟨filled.setTotalMemory (UInt64.ofNat total), ?_, ?_⟩
  · rw [history, ← List.map_const', List.foldlM_append]
    exact congrArg (· >>= _) first
  · have zero : MemoryLogger.new.usedMemory = 0 := rfl
    rw [Exceeds, MemoryLogger.setTotalMemory, used, zero]
    grind

/-- The same with a run after the boot. -/
theorem perform_history {frames : List Nat} {booted after : MemoryInfo} {calls : List ReportedCall}
    (heap : PageFrameAllocator.Grabs (.init memoryMap) frames booted.frameAllocator)
    (run : Run (Calls mapper) booted calls after) (total : Nat) :
    ∃ reported memoryLogger, ReportedRun mapper booted reported after ∧
      (history frames.length total reported).foldlM perform (Logged.init memoryMap) =
        .ok ⟨after.frameAllocator, memoryLogger⟩ ∧
      Exceeds (UInt64.ofNat (4096 * frames.length)) memoryLogger := by
  obtain ⟨filled, first, exceeds⟩ := perform_boot heap total
  obtain ⟨reported, later, made, rest⟩ := MemoryInfo.logged_of_run run filled
  have joined : history frames.length total reported = history frames.length total [] ++ reported.map .frame := by
    rw [history, history, List.append_assoc]
    rfl
  refine ⟨reported, later, made, ?_, Exceeds.run exceeds rest⟩
  rw [joined, List.foldlM_append, first]
  exact rest

/-- The report of the first frame subtracts from a free memory of zero. -/
theorem not_consistent_history {frames : List Nat} {booted : PageFrameAllocator} {total : Nat} {calls : List FrameCall}
    (heap : PageFrameAllocator.Grabs (.init memoryMap) frames booted) (taken : 0 < frames.length) :
    ¬ Consistent 0 (Logged.init memoryMap) (history frames.length total calls) := by
  cases heap with
  | nil => exact absurd taken (Nat.lt_irrefl 0)
  | cons takes rest =>
    have nothing : ¬ 4096 ≤ MemoryLogger.new.freeMemory.toNat := by decide
    exact fun consistent => nothing (consistent.1 _ _ takes)

end Logged

end Zephyr
