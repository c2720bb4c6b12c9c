import Zephyr.Space.Processes

/-! What the exit of a thread takes away. `free_user_stack` clears one entry more than
`allocate_user_stack` filled, and it runs for kernel threads too, whose stacks lie in the
kernel heap. -/

namespace Zephyr

open Radix PageTableFlags Transition MemoryInfo

variable {σ : Type} [DecidableEq σ] [Fintype σ]

/-- The address is in the ten pages of the thread's user stack. -/
def Thread.OnStack (thread : Thread) (addr : Nat) : Prop :=
  addr < thread.userStackEnd ∧ thread.userStackEnd ≤ addr + userStackSize

def Thread.guardPage (thread : Thread) : Nat := thread.userStackEnd - userStackSize - 4096

namespace System

/-- Drops that give back only what the thread and its process acquired, and unmap only
the thread's stack. -/
structure OwnTeardown (system : System σ) (thread : Thread) (after : MemoryInfo) : Prop where
  frames : ∀ frame, system.info.frameAllocator.frameUsage frame = true →
    after.frameAllocator.frameUsage frame = false →
      (∃ addr, thread.OnStack addr ∧
        PageAt system.info.memory system.kernel.cr3 (VirtAddr.path addr) (VirtAddr.p1Index addr) frame) ∨
      ¬ (system.kernel.retire thread).HasThread thread.process ∧
        ∃ process, system.kernel.processes[thread.process]? = some process ∧
          system.info.Uses process.pageTablePhysaddr frame
  entries : ∀ table index, after.memory table index ≠ system.info.memory table index → ∃ addr, thread.OnStack addr ∧
    tableAt system.info.memory system.kernel.cr3 (VirtAddr.path addr) = some table ∧ VirtAddr.p1Index addr = index
  mappings : ∀ path index, path.length < 4 →
    (∀ addr, thread.OnStack addr → ¬ (VirtAddr.path addr = path ∧ VirtAddr.p1Index addr = index)) →
    entryAt after.memory system.kernel.cr3 path index = entryAt system.info.memory system.kernel.cr3 path index
  heap : ∀ addr, heapStart ≤ addr → addr < heapStart + heapSize →
    entryAt after.memory system.kernel.cr3 (VirtAddr.path addr) (VirtAddr.p1Index addr) =
      entryAt system.info.memory system.kernel.cr3 (VirtAddr.path addr) (VirtAddr.p1Index addr)

/-- A page is mapped right below the thread's stack. -/
def GuardMapped (system : System σ) (thread : Thread) : Prop :=
  (entryAt system.info.memory system.kernel.cr3 (VirtAddr.path thread.guardPage)
    (VirtAddr.p1Index thread.guardPage)).flags.contains present = true

end System

section Slot

variable {thread : Thread} {n addr : Nat}

theorem Thread.OnStack.path (onStack : thread.OnStack addr) (top : thread.userStackEnd = slotAddress n + 11 * 4096)
    (bounded : n * 8 + 10 < 512) : VirtAddr.path addr = userStackPageIndex ∧
      n * 8 + 1 ≤ (VirtAddr.p1Index addr).1 ∧ (VirtAddr.p1Index addr).1 ≤ n * 8 + 10 := by
  obtain ⟨below, above⟩ := onStack
  have size : userStackSize = 10 * 4096 := rfl
  obtain ⟨path, index⟩ := slot_path bounded (by omega : slotAddress n ≤ addr) (by omega)
  exact ⟨path, by omega, by omega⟩

theorem Thread.exists_onStack (top : thread.userStackEnd = slotAddress n + 11 * 4096) (bounded : n * 8 + 10 < 512)
    {index : Fin 512} (least : n * 8 + 1 ≤ index.1) (most : index.1 ≤ n * 8 + 10) :
    ∃ addr, thread.OnStack addr ∧ VirtAddr.path addr = userStackPageIndex ∧ VirtAddr.p1Index addr = index := by
  have size : userStackSize = 10 * 4096 := rfl
  obtain ⟨path, found⟩ := slot_path bounded (by omega : slotAddress n ≤ slotAddress n + (index.1 - n * 8) * 4096)
    (by omega)
  exact ⟨_, ⟨by omega, by omega⟩, path, Fin.ext (by omega)⟩

theorem Thread.guardPage_path (top : thread.userStackEnd = slotAddress n + 11 * 4096) (bounded : n * 8 + 10 < 512) :
    VirtAddr.path thread.guardPage = userStackPageIndex ∧ (VirtAddr.p1Index thread.guardPage).1 = n * 8 := by
  have page : thread.guardPage = slotAddress n := by
    have size : userStackSize = 10 * 4096 := rfl
    unfold Thread.guardPage
    omega
  have within : slotAddress n < slotAddress n + 11 * 4096 := by omega
  obtain ⟨path, index⟩ := slot_path bounded (Nat.le_refl _) within
  rw [page]
  exact ⟨path, by omega⟩

end Slot

section Teardown

variable {root n : Nat} {last : Prop} {before after : MemoryInfo}

theorem Teardown.unmapped (teardown : Teardown root n last before after) {index : Fin 512}
    (absent : ∀ frame, ¬ PageAt before.memory root userStackPageIndex index frame) :
    after.stackEntry root index = before.stackEntry root index := by
  have same : tableAt after.memory root userStackPageIndex = tableAt before.memory root userStackPageIndex := by
    change tableAt after.memory root ([6, 0] ++ [0]) = tableAt before.memory root ([6, 0] ++ [0])
    rw [tableAt_concat_eq, tableAt_concat_eq, teardown.kept _ _ (by decide) fun here => absurd here.1 (by decide)]
  cases found : tableAt before.memory root userStackPageIndex with
  | none => rw [stackEntry, stackEntry, entryAt_of_none found, entryAt_of_none (same.trans found)]
  | some table =>
    rw [stackEntry, stackEntry, entryAt_of_tableAt found, entryAt_of_tableAt (same.trans found)]
    by_contra changed
    obtain ⟨_, _, frame, page⟩ := teardown.entries table index changed
    exact absent frame page

end Teardown

omit [DecidableEq σ] in
/-- The drops of a user thread spare everything else if and only if the page below its
stack is not mapped. -/
theorem Tenancy.ownTeardown_iff {boot after : MemoryInfo} {trees : Owner → Option Tree} {system : System σ}
    {thread : Thread} {n : Nat} (tenancy : Tenancy boot trees system)
    (running : system.kernel.runningThread = some thread) (user : thread.threadType = .user)
    (top : thread.userStackEnd = slotAddress n + 11 * 4096) (bounded : n * 8 + 10 < 512)
    (teardown : Teardown system.kernel.cr3 n (¬ (system.kernel.retire thread).HasThread thread.process)
      system.info after) :
    system.OwnTeardown thread after ↔ ¬ system.GuardMapped thread := by
  obtain ⟨guarded, at_guard⟩ := Thread.guardPage_path top bounded
  have guard : ∀ {index : Fin 512}, index.1 = n * 8 → VirtAddr.p1Index thread.guardPage = index :=
    fun same => Fin.ext (at_guard.trans same.symm)
  constructor
  · intro own mapped
    rw [System.GuardMapped, guarded, ← stackEntry] at mapped
    have lost := teardown.cleared (VirtAddr.p1Index thread.guardPage) (by omega)
    have same := own.mappings userStackPageIndex (VirtAddr.p1Index thread.guardPage) (by decide) fun addr onStack here => by
      have range := (onStack.path top bounded).2
      rw [here.2] at range
      omega
    rw [stackEntry] at lost mapped
    rw [← same, lost] at mapped
    exact absurd mapped (by decide)
  · intro unmapped
    -- a page of slot `n` or below it is a page of the stack
    have onStack : ∀ index : Fin 512, n * 8 ≤ index.1 ∧ index.1 ≤ n * 8 + 10 →
        (∃ frame, PageAt system.info.memory system.kernel.cr3 userStackPageIndex index frame) →
        ∃ addr, thread.OnStack addr ∧ VirtAddr.path addr = userStackPageIndex ∧ VirtAddr.p1Index addr = index := by
      rintro index ⟨least, most⟩ ⟨frame, page⟩
      refine Thread.exists_onStack top bounded ?_ most
      by_contra below
      refine unmapped ?_
      rw [System.GuardMapped, guarded, guard (by omega : index.1 = n * 8)]
      have flags := page.user
      rw [userPage, contains_or, contains_or] at flags
      exact flags.1.1
    have mappings : ∀ path index, path.length < 4 →
        (∀ addr, thread.OnStack addr → ¬ (VirtAddr.path addr = path ∧ VirtAddr.p1Index addr = index)) →
        entryAt after.memory system.kernel.cr3 path index =
          entryAt system.info.memory system.kernel.cr3 path index := by
      intro path index short aside
      by_cases range : path = userStackPageIndex ∧ n * 8 ≤ index.1 ∧ index.1 ≤ n * 8 + 10
      · obtain ⟨rfl, range⟩ := range
        refine teardown.unmapped fun frame page => ?_
        obtain ⟨addr, here, same, equal⟩ := onStack index range ⟨frame, page⟩
        exact aside addr here ⟨same, equal⟩
      · exact teardown.kept path index short range
    refine ⟨fun frame used free => ?_, fun table index changed => ?_, mappings, fun addr least most => ?_⟩
    · rcases teardown.frames frame used free with ⟨index, range, page⟩ | ⟨gone, held⟩
      · obtain ⟨addr, here, same, equal⟩ := onStack index range ⟨frame, page⟩
        exact .inl ⟨addr, here, by rw [same, equal]; exact page⟩
      · obtain ⟨process, at_index, table, _⟩ := tenancy.housed.user (system.kernel.badge_mem_of_running running) user
        have own : system.kernel.cr3 = process.pageTablePhysaddr :=
          (tenancy.housed.active thread running user).trans table
        exact .inr ⟨gone, process, at_index, own ▸ held.uses⟩
    · obtain ⟨found, range, page⟩ := teardown.entries table index changed
      obtain ⟨addr, here, same, equal⟩ := onStack index range page
      exact ⟨addr, here, same ▸ found, equal⟩
    · refine mappings _ _ (VirtAddr.path_lt addr) fun other here equal => ?_
      have head := congrArg List.head? (equal.1.symm.trans (here.path top bounded).1)
      have slot : addr / 2 ^ 39 = 136 := by
        unfold heapStart heapSize at *
        omega
      rw [VirtAddr.path, List.head?_cons, VirtAddr.p4Index, slot] at head
      exact absurd head (by decide)

/-- In a careful run, the exit of a user thread gives up what is its own if and only if
the page below its stack is not mapped. -/
theorem exit_gives_up_own_iff (mapper : Mapper) {boot : MemoryInfo} (booted : Booted boot) (keyboardSocket : σ)
    {events : List (Event σ)} {system : System σ}
    (run : Run (System.CarefulStep mapper) (System.boot keyboardSocket boot) events system) {thread : Thread}
    (running : system.kernel.runningThread = some thread) (user : thread.threadType = .user) (context : Context)
    {syscallId : UInt64} (exits : (syscallId &&& 0xFF).toNat = 1) (arg1 arg2 arg3 : UInt64)
    (kernelStackStart : Option Nat) :
    ∃ after, system.perform mapper (.syscall context syscallId arg1 arg2 arg3 kernelStackStart) = .ok after ∧
      (system.OwnTeardown thread after.info ↔ ¬ system.GuardMapped thread) := by
  obtain ⟨trees, tenancy⟩ := Tenancy.of_run booted run
  obtain ⟨info, n, _, dropped, top, bounded, teardown, _⟩ := tenancy.dropThread running user
  have memory : system.syscallMemory 1 kernelStackStart = .ok (none, info) := by
    simp only [System.syscallMemory, running, dropped]
    rfl
  have performed : ∃ after, system.perform mapper (.syscall context syscallId arg1 arg2 arg3 kernelStackStart) =
      .ok after ∧ after.info = info := by
    simp only [System.perform, exits, memory]
    exact ⟨_, rfl, rfl⟩
  obtain ⟨after, performed, rfl⟩ := performed
  exact ⟨after, performed, tenancy.ownTeardown_iff running user top bounded teardown⟩

/-- The one thread of a launched process exits: the page below its stack is not mapped. -/
theorem exit_gives_up_own_iff_launch : ∃ (system after : System Unit) (thread : Thread),
    system.kernel.runningThread = some thread ∧ thread.threadType = .user ∧
    system.perform offsetPageTable (.syscall userContext 1 0 0 0 none) = .ok after ∧
      ¬ system.GuardMapped thread ∧ system.OwnTeardown thread after.info := by
  obtain ⟨info, launched, run⟩ := run_launch
  obtain ⟨thread, running, user, top⟩ : ∃ thread, launchKernel.runningThread = some thread ∧
      thread.threadType = .user ∧ thread.userStackEnd = slotAddress 3 + 11 * 4096 := ⟨_, rfl, rfl, rfl⟩
  obtain ⟨after, performed, own⟩ := exit_gives_up_own_iff offsetPageTable booted_kernelInfo ()
    (run.mono LaunchStep.careful) running user userContext
    (by decide : ((1 : UInt64) &&& 0xFF).toNat = 1) 0 0 0 none
  obtain ⟨guarded, at_guard⟩ := Thread.guardPage_path top (by decide)
  have unmapped : ¬ System.GuardMapped ⟨launchKernel, info, userSegments⟩ thread := by
    intro mapped
    rw [System.GuardMapped, guarded] at mapped
    change (info.stackEntry 91 (VirtAddr.p1Index thread.guardPage)).flags.contains present = true at mapped
    rw [launched.unused _ (by rw [at_guard]; decide)] at mapped
    exact absurd mapped (by decide)
  exact ⟨_, after, thread, running, user, performed, unmapped, own.mpr unmapped⟩

private def kernelThread : System Unit := ⟨spawnerKernel, kernelInfo, kernelSegments⟩

private def unmapsHeap : Bool :=
  match kernelThread.perform offsetPageTable (.syscall kernelContext 1 0 0 0 none) with
  | .ok after => entryAt after.info.memory 1 [136, 273, 34] 66 != entryAt kernelMemory 1 [136, 273, 34] 66
  | .error _ => false

/-- The exit of a kernel thread unmaps pages of the kernel heap. -/
theorem kernel_thread_exit_unmaps_heap : ∃ (boot : MemoryInfo) (events : List (Event Unit)) (system after : System Unit)
    (thread : Thread), Booted boot ∧ Run (System.Step offsetPageTable) (System.boot () boot) events system ∧
      system.kernel.runningThread = some thread ∧
      system.perform offsetPageTable (.syscall kernelContext 1 0 0 0 none) = .ok after ∧
      ¬ system.OwnTeardown thread after.info := by
  have unmaps : unmapsHeap = true := by decide +kernel
  unfold unmapsHeap at unmaps
  split at unmaps
  · rename_i after performed
    refine ⟨kernelInfo, [.spawnKernelThread 0x200000 [] heapStart {}, .timer kernelContext], kernelThread, after, _,
      booted_kernelInfo, .cons rfl (.cons rfl .nil), rfl, performed, fun own => ?_⟩
    have same := own.heap (heapStart + 2 * 4096) (by decide) (by decide)
    exact bne_iff_ne.mp unmaps same
  · cases unmaps

end Zephyr
