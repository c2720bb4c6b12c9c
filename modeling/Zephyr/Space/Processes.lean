import Zephyr.Space.Launch

/-! Isolation of processes in physical memory: in careful runs the frames of a live
process are its own, and an image with a segment that wraps breaks this. -/

namespace Zephyr

open Radix PageTableFlags Transition MemoryInfo

variable {σ : Type} [DecidableEq σ] [Fintype σ]

namespace MemoryInfo

/-- The frame is one of those a leaf entry makes available to user mode. -/
def UserFrame (frame below : Nat) (entry : PageTableEntry) : Prop :=
  UserLeaf below entry ∧ entry.addr ≤ frame ∧ frame < entry.addr + 512 ^ below

/-- The frames of a page-table tree: its tables, and what its leaves give to user mode. -/
def Uses (info : MemoryInfo) (root frame : Nat) : Prop :=
  frame ∈ tableSet 4 info.memory root ∨ SomeEntry (UserFrame frame) info.memory 4 root

theorem UserTree.holds_of_uses {foreign : Nat → Prop} {root frame : Nat} {slots : List Nat} {info : MemoryInfo}
    (tree : UserTree foreign root slots [] info) (uses : info.Uses root frame) : Holds info.memory root frame := by
  rcases uses with table | ⟨path, index, short, leaf, least, most⟩
  · exact .inl table
  · obtain ⟨user, last, _⟩ := tree.leaves path index short leaf
    rw [last] at most
    exact .inr ⟨path, index, last, user, by omega⟩

theorem Holds.uses {info : MemoryInfo} {root frame : Nat} (holds : Holds info.memory root frame) :
    info.Uses root frame := by
  rcases holds with table | ⟨path, index, last, user, rfl⟩
  · exact .inl table
  · rw [userPage, contains_or, contains_or] at user
    have bottom : 4 - 1 - path.length = 0 := by omega
    refine .inr ⟨path, index, by omega, ⟨.inl bottom, contains_or.mpr ⟨user.1.1, user.2⟩⟩, Nat.le_refl _, ?_⟩
    rw [bottom]
    omega

end MemoryInfo

namespace System

omit [DecidableEq σ] [Fintype σ]

def LiveProcess (system : System σ) (index : Nat) (process : Process σ) : Prop :=
  system.kernel.processes[index]? = some process ∧
    ∃ thread, system.kernel.Held thread ∧ thread.threadType = .user ∧ thread.process = index

/-- The frames of a live process are in use, none of them is the kernel's, and no other
live process has one of them. -/
structure Isolation (system : System σ) : Prop where
  used : ∀ index process frame, system.LiveProcess index process →
    system.info.Uses process.pageTablePhysaddr frame → system.info.frameAllocator.frameUsage frame = true
  kernel : ∀ index process frame, system.LiveProcess index process →
    system.info.Uses process.pageTablePhysaddr frame →
      frame ∉ tableSet 4 system.info.memory system.info.kernelPageTables ∧ ¬ system.info.HeapFrame frame
  apart : ∀ index process other another frame, system.LiveProcess index process →
    system.LiveProcess other another → index ≠ other →
    system.info.Uses process.pageTablePhysaddr frame → ¬ system.info.Uses another.pageTablePhysaddr frame

end System

omit [DecidableEq σ] in
theorem Tenancy.process_tree {boot : MemoryInfo} {trees : Owner → Option Tree} {system : System σ} {index : Nat}
    {process : Process σ} (tenancy : Tenancy boot trees system) (live : system.LiveProcess index process) :
    ∃ tree, trees (.process index) = some tree ∧ tree.root = process.pageTablePhysaddr := by
  obtain ⟨at_index, thread, held, user, rfl⟩ := live
  obtain ⟨tree, _, found, root, _⟩ := Kernel.every_iff.mp tenancy.tenants thread held user
  have member := Multiset.mem_map_of_mem Thread.badge (Kernel.mem_objects.mpr held)
  rw [← Kernel.occupants_eq_map] at member
  obtain ⟨own, there, table, _⟩ := tenancy.housed.user member user
  have same : own = process := Option.some.inj (there.symm.trans at_index)
  exact ⟨tree, found, root.trans (same ▸ table)⟩

/-- Live processes are isolated in every state a careful run reaches. -/
theorem processes_isolated (mapper : Mapper) {boot : MemoryInfo} (booted : Booted boot) (keyboardSocket : σ)
    {events : List (Event σ)} {system : System σ}
    (run : Run (System.CarefulStep mapper) (System.boot keyboardSocket boot) events system) : system.Isolation := by
  obtain ⟨trees, tenancy⟩ := Tenancy.of_run booted run
  have holds : ∀ {index process frame}, system.LiveProcess index process →
      system.info.Uses process.pageTablePhysaddr frame → ∃ tree, trees (.process index) = some tree ∧
        Holds system.info.memory tree.root frame := by
    intro index process frame live uses
    obtain ⟨tree, found, root⟩ := tenancy.process_tree live
    exact ⟨tree, found, (tenancy.isolated.tree _ tree found).holds_of_uses (root ▸ uses)⟩
  refine ⟨fun index process frame live uses => ?_, fun index process frame live uses => ?_,
    fun index process other another frame live second differs uses also => ?_⟩
  · obtain ⟨tree, found, held⟩ := holds live uses
    exact ((tenancy.isolated.tree _ tree found).holds held).1
  · obtain ⟨tree, found, held⟩ := holds live uses
    have own : ¬ boot.Taken frame := ((tenancy.isolated.tree _ tree found).holds held).2.1
    constructor
    · intro listed
      rw [tenancy.intact.tableSet] at listed
      exact own (booted.wellFormed.taken frame listed)
    · intro heap
      have used := booted.heap frame (tenancy.intact.heapFrame heap)
      exact own fun available => by cases used.symm.trans available.2
  · obtain ⟨tree, found, held⟩ := holds live uses
    obtain ⟨rival, there, twice⟩ := holds second also
    exact tenancy.isolated.apart _ _ tree rival found there (fun same => differs (Owner.process.inj same)) frame
      held twice

/-- Two launched processes have their frames to themselves. -/
theorem processes_isolated_launch : ∃ (system : System Unit) (first second : Process Unit),
    system.LiveProcess 1 first ∧ system.LiveProcess 2 second ∧ system.Isolation := by
  obtain ⟨table, info, run⟩ := run_second
  obtain ⟨child, parent, waiting, processes⟩ : ∃ child parent, (secondKernel table).waitQueue = [child, parent] ∧
      (child.process = 2 ∧ child.threadType = .user) ∧ parent.process = 1 ∧ parent.threadType = .user :=
    ⟨_, _, rfl, ⟨rfl, rfl⟩, rfl, rfl⟩
  refine ⟨⟨secondKernel table, info, kernelSegments⟩, ⟨91, []⟩, ⟨table, []⟩,
    ⟨rfl, parent, .inr (.inl (by simp [waiting])), processes.2.2, processes.2.1⟩,
    ⟨rfl, child, .inr (.inl (by simp [waiting])), processes.1.2, processes.1.1⟩, ?_⟩
  exact processes_isolated offsetPageTable booted_kernelInfo () (run.mono LaunchStep.careful)

/-- With the data of a wrapped segment, entry 7 of a live process's level-4 table leads to
the kernel's level-4 table. -/
theorem wrapped_segment_breaks_isolation : ∃ (boot : MemoryInfo) (events : List (Event Unit)) (system : System Unit),
    Booted boot ∧ Run (System.Step offsetPageTable) (System.boot () boot) events system ∧ ¬ system.Isolation := by
  have data : ([0x07, 0x10] : List (BitVec 8)).length ≤ 8 := by decide
  have free : (7 : Fin 512) ≠ 5 ∧ (7 : Fin 512) ≠ 6 ∧ (7 : Fin 512) ≠ 8 ∧ (7 : Fin 512) ≠ 136 := by decide
  obtain ⟨info, kernel, entry, run⟩ := run_wrapped free data
  refine ⟨kernelInfo, _, _, booted_kernelInfo, run.mono And.right, fun isolation => ?_⟩
  have leads : tableAt info.memory 91 [7] = some 1 := by
    have below : next ((0 : PageTableEntry).setBytes 0 [0x07, 0x10]) = some 1 := by decide
    rw [tableAt, entry, below]
    rfl
  have listed : info.Uses 91 1 := .inl (mem_tableSet (by decide) leads)
  refine (isolation.kernel 1 ⟨91, []⟩ 1 ⟨rfl, _, .inl rfl, rfl, rfl⟩ listed).1 ?_
  change 1 ∈ tableSet 4 info.memory info.kernelPageTables
  rw [kernel]
  exact root_mem_tableSet (by decide)

end Zephyr
