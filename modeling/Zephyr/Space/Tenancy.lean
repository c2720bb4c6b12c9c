import Zephyr.Proc.AddressSpace
import Zephyr.Space.System

/-! Which threads and processes the user trees belong to, over whole runs. A spawn in
progress has the tree it builds, a process the tree its threads run in, and every user
thread a stack slot of its own there. -/

namespace Zephyr

open Radix PageTableFlags Transition MemoryInfo

variable {σ : Type}

/-- Who has a user tree: a thread inside `spawn_user_thread`, or a process. -/
inductive Owner where
  | spawner (threadId : Nat)
  | process (index : Nat)
  deriving DecidableEq

/-- A user thread runs in its process's tree, on a stack of that tree. -/
def Tenant (trees : Owner → Option Tree) (thread : Thread) : Prop :=
  thread.threadType = .user → ∃ tree n, trees (.process thread.process) = some tree ∧
    tree.root = thread.pageTablePhys ∧ (thread.threadId, n) ∈ tree.threads ∧
    thread.userStackEnd = slotAddress n + 11 * 4096

namespace MemoryInfo

def HeapFrame (info : MemoryInfo) (frame : Nat) : Prop :=
  ∃ addr : Nat, heapStart ≤ addr ∧ addr < heapStart + heapSize ∧
    (entryAt info.memory info.kernelPageTables (VirtAddr.path addr) (VirtAddr.p1Index addr)).flags.contains present = true ∧
    (entryAt info.memory info.kernelPageTables (VirtAddr.path addr) (VirtAddr.p1Index addr)).addr = frame

/-- Memory as the bootloader and `init` leave it. -/
structure Booted (info : MemoryInfo) : Prop where
  wellFormed : info.WellFormed info.kernelPageTables
  table : KernelTable info.memory info.kernelPageTables
  heap : ∀ frame, info.HeapFrame frame → info.frameAllocator.frameUsage frame = true
  zero : ¬ info.frameAllocator.Available 0

structure KernelIntact (boot info : MemoryInfo) : Prop where
  tables : ∀ table ∈ tableSet 4 boot.memory boot.kernelPageTables, info.memory table = boot.memory table
  root : info.kernelPageTables = boot.kernelPageTables

section Boot

variable {boot before after info : MemoryInfo} {kept : Nat → Prop}

theorem KernelIntact.spares (intact : KernelIntact boot before) (spares : Spares kept before after)
    (listed : ∀ table ∈ tableSet 4 boot.memory boot.kernelPageTables, kept table) : KernelIntact boot after where
  tables table member := (spares.memory table (listed table member)).trans (intact.tables table member)
  root := spares.kernel.trans intact.root

theorem KernelIntact.entryAt (intact : KernelIntact boot info) {path : List (Fin 512)} (short : path.length < 4)
    (index : Fin 512) : Radix.entryAt info.memory info.kernelPageTables path index =
      Radix.entryAt boot.memory boot.kernelPageTables path index := by
  rw [intact.root]
  exact entryAt_frame intact.tables short

theorem KernelIntact.tableSet (intact : KernelIntact boot info) : Radix.tableSet 4 info.memory info.kernelPageTables =
    Radix.tableSet 4 boot.memory boot.kernelPageTables := by
  rw [intact.root]
  exact tableSet_congr fun path short => tableAt_frame intact.tables (Nat.le_of_lt short)

theorem KernelIntact.table (intact : KernelIntact boot info) (booted : Booted boot) :
    KernelTable info.memory info.kernelPageTables := by
  refine ⟨(intact.entryAt (by decide) 6).trans booted.table.slot, ?_, fun path index upper => ?_⟩
  · rintro ⟨path, index, short, leaf⟩
    rw [intact.entryAt short] at leaf
    exact booted.table.leaves ⟨path, index, short, leaf⟩
  · rw [intact.entryAt (by omega)]
    exact booted.table.unmarked path index upper

theorem KernelIntact.wellFormed (intact : KernelIntact boot info) (booted : Booted boot)
    (shut : ∀ frame, ¬ boot.frameAllocator.Available frame → ¬ info.frameAllocator.Available frame) :
    info.WellFormed info.kernelPageTables := by
  refine ⟨fun table listed => ?_, fun path index upper child leads => ?_⟩
  · rw [intact.tableSet] at listed
    exact shut table (booted.wellFormed.taken table listed)
  · rw [intact.entryAt (by omega)] at leads ⊢
    exact booted.wellFormed.points path index upper child leads

theorem KernelIntact.heapFrame (intact : KernelIntact boot info) {frame : Nat} (held : info.HeapFrame frame) :
    boot.HeapFrame frame := by
  obtain ⟨addr, least, most, present, same⟩ := held
  rw [intact.entryAt (VirtAddr.path_lt addr)] at present same
  exact ⟨addr, least, most, present, same⟩

theorem KernelTable.entries {memory : Memory Nat 512 PageTableEntry} {root table : Nat}
    (kernel : KernelTable memory root) (listed : table ∈ Radix.tableSet 4 memory root) (index : Fin 512) :
    (memory table index).flags ≠ present ||| userAccessible := by
  obtain ⟨path, short, found⟩ := listed
  rw [← entryAt_of_tableAt found]
  by_cases upper : path.length < 3
  · exact kernel.unmarked path index upper
  · intro marked
    have bottom : 4 - 1 - path.length = 0 := by omega
    exact kernel.leaves ⟨path, index, short, .inl bottom, by rw [marked]; decide⟩

end Boot

end MemoryInfo

namespace Kernel

variable [DecidableEq σ] [Fintype σ] {kernel : Kernel σ} {action : Action σ} {trees : Owner → Option Tree}

/-- Interrupts and system calls leave the spawn stages and the processes alone. -/
theorem perform_fixed (kernel : Kernel σ) (action : Action σ) (schedules : action.Schedules) :
    (kernel.perform action).spawning = kernel.spawning ∧ (kernel.perform action).processes = kernel.processes := by
  have moved : ∀ {after : Kernel σ}, after.fixed = kernel.fixed →
      after.spawning = kernel.spawning ∧ after.processes = kernel.processes :=
    fun same => ⟨(congrArg Kernel.spawning same :), (congrArg Kernel.processes same :)⟩
  cases action with
  | syscall context syscallId arg1 arg2 arg3 memory =>
    simp only [perform, dispatchSyscall]
    split
    · unfold forkCurrentThread
      cases kernel.runningThread with
      | none => exact ⟨rfl, rfl⟩
      | some current => cases memory.stack <;> exact ⟨rfl, rfl⟩
    · unfold exitCurrentThread
      split
      · rename_i thread _
        obtain ⟨released, fixed⟩ := (kernel.retire thread).dropThread_fixed thread
        exact ⟨(congrArg Kernel.spawning fixed :), (congrArg Kernel.processes fixed :)⟩
      · exact ⟨rfl, rfl⟩
    · exact moved (sysReceive_move _ _ rfl).1.fixed
    · exact moved (sysSend_move _ _ _ _ _ rfl).1.fixed
    · exact moved (sysSend_move _ _ _ _ _ rfl).1.fixed
    · exact moved (schedule_move _).fixed
    · exact ⟨rfl, rfl⟩
  | timer context => exact moved (schedule_move _).fixed
  | keyboard context key => exact moved (keyboardHandlerInner_move _ _).fixed
  | spawnKernelThread | initialiseThread | failClosure | createKernelOnlyPagetable | failHeap
  | enterUserPagetable | loadSegment | leaveUserPagetable => exact schedules.elim

omit [DecidableEq σ] [Fintype σ] in
theorem stable_tenant : Stable (Tenant trees) where
  error _ tenant := tenant
  message message tenant := by
    cases message
    exact tenant

/-- A user thread stays a tenant while it is moved about, and new threads are checked. -/
theorem Every.tenants (every : kernel.Every (Tenant trees)) (housed : kernel.Housed) (action : Action σ)
    (born : ∀ thread, Newborn kernel action thread → Tenant trees thread) :
    (kernel.perform action).Every (Tenant trees) := by
  refine every.perform stable_tenant action (fun current context running _ => every.running current running)
    (fun context _ thread stamped => ?_) born
  obtain ⟨current, running, rfl⟩ := Option.map_eq_some_iff.mp stamped
  intro user
  obtain ⟨tree, n, found, root, listed, top⟩ := every.running current running user
  exact ⟨tree, n, found, root.trans (housed.active current running user).symm, listed, top⟩

end Kernel

/-- The invariant of the system: every tree has its owner, and every user thread is a
tenant of its process's tree. -/
structure Tenancy [Fintype σ] (boot : MemoryInfo) (trees : Owner → Option Tree) (system : System σ) : Prop where
  housed : system.kernel.Housed
  isolated : Isolated (fun frame => ¬ boot.frameAllocator.Available frame) trees system.info
  intact : KernelIntact boot system.info
  spawning : ∀ id stage, system.kernel.spawning id = some stage → ∀ table ∈ stage.table,
    trees (.spawner id) = some ⟨table, []⟩
  tenants : system.kernel.Every (Tenant trees)
  unborn : ∀ index, system.kernel.processes.length ≤ index → trees (.process index) = none

end Zephyr
