import Zephyr.Space.Teardown

/-! Careful runs of the system from boot keep the invariant of `Tenancy`. -/

namespace Zephyr

open Radix PageTableFlags Transition MemoryInfo

variable {σ : Type} [DecidableEq σ] [Fintype σ]

/-- The condition on a step: only user threads fork and exit, and the segments of an
image end before the address space does. -/
def System.Careful (system : System σ) : Event σ → Prop
  | .syscall _ syscallId _ _ _ _ => (syscallId &&& 0xFF).toNat ≤ 1 →
      ∀ thread, system.kernel.runningThread = some thread → thread.threadType = .user
  | .loadSegment segment => segment.Ends
  | _ => True

def System.CarefulStep (mapper : Mapper) (before : System σ) (event : Event σ) (after : System σ) : Prop :=
  before.Careful event ∧ System.Step mapper before event after

/-- User mode reads a byte. -/
def Fetches (memory : Memory Nat 512 PageTableEntry) (root addr : Nat) (value : BitVec 8) : Prop :=
  Canonical addr ∧
    ∃ walked, translate memory root .read addr = .ok walked ∧ loadByte memory walked.frame addr = value

/-- User mode has executed `syscall`: its two bytes were fetched, and the address of the
next instruction is in RCX. -/
structure System.Calls (system : System σ) (frame : ISF) : Prop where
  address : frame.rcx = frame.instructionPointer
  opcode : Fetches system.info.memory system.kernel.cr3 (frame.instructionPointer - 2).toNat 0x0F
  second : Fetches system.info.memory system.kernel.cr3 (frame.instructionPointer - 1).toNat 0x05

/-- What the hardware does while a user thread runs: it calls the kernel from pages user
mode can read, and an interrupt pushes the selectors of the code it interrupts. -/
def System.Possible (system : System σ) : Event σ → Prop
  | .syscall context _ _ _ _ _ => ∀ thread, system.userThread = some thread → system.Calls context.frame
  | .timer context | .keyboard context _ => ∀ thread, system.userThread = some thread →
      (context.frame.codeSegment, context.frame.stackSegment) = system.selectors
  | _ => True

def System.PossibleStep (mapper : Mapper) (before : System σ) (event : Event σ) (after : System σ) : Prop :=
  before.Possible event ∧ System.Step mapper before event after

namespace Tenancy

variable {boot : MemoryInfo} {trees : Owner → Option Tree} {system after : System σ} {thread : Thread}
variable {selectors : UInt64 × UInt64} {mapper : Mapper} {event : Event σ}

omit [DecidableEq σ] in
theorem of_boot (boot : MemoryInfo) (keyboardSocket : σ) :
    Tenancy boot (fun _ => none) (System.boot keyboardSocket boot) where
  housed := Kernel.Housed.of_boot keyboardSocket boot.kernelPageTables
  isolated := ⟨nofun, nofun, fun _ taken => taken⟩
  intact := ⟨fun _ _ => rfl, rfl⟩
  spawning := nofun
  tenants := Kernel.every_boot _ keyboardSocket boot.kernelPageTables
  unborn _ _ := rfl

omit [DecidableEq σ] [Fintype σ] in
theorem userThread_eq_some (found : system.userThread = some thread) :
    system.kernel.runningThread = some thread ∧ thread.threadType = .user := by
  obtain ⟨running, user⟩ := Option.filter_eq_some_iff.mp found
  exact ⟨running, by simpa using user⟩

omit [DecidableEq σ] in
theorem store {addr : VirtAddr} {value : BitVec 8} {walked : Walked} (booted : Booted boot)
    (tenancy : Tenancy boot trees system) (running : system.kernel.runningThread = some thread)
    (user : thread.threadType = .user)
    (translated : translate system.info.memory system.kernel.cr3 .write addr = .ok walked) :
    Tenancy boot trees { system with
      info := { system.info with memory := storeByte system.info.memory walked.frame addr value } } := by
  obtain ⟨tree, _, found, root, _⟩ := tenancy.running_tree running user
  have focused := tenancy.isolated.focus found
  rw [← root] at translated
  obtain ⟨kept, spares, _⟩ := focused.stores (focused.reaches translated).1 (Fin.ofNat 512 (addr / 8))
    ((system.info.memory walked.frame (Fin.ofNat 512 (addr / 8))).setByte (addr % 8) value)
  obtain ⟨isolated, intact⟩ := tenancy.update booted (.process thread.process) (some tree) spares fun _ same => by
    cases same
    exact kept
  rw [← found, Function.update_eq_self] at isolated
  exact { tenancy with isolated, intact }

omit [DecidableEq σ] in
/-- A serviced fault fills no entry of any table: none looks like an on-demand page. -/
theorem fault {addr : VirtAddr} {errorCode : PageFaultErrorCode} {info : MemoryInfo} (booted : Booted boot)
    (tenancy : Tenancy boot trees system)
    (returned : system.info.pageFaultHandler system.kernel.cr3 addr errorCode = .ok (.returned, info)) :
    Tenancy boot trees { system with info } := by
  unfold pageFaultHandler at returned
  split at returned
  · split at returned
    · cases returned
    · rename_i result last allocated
      cases returned
      rcases allocateMissingOndemandFrame_cases allocated with rfl | ⟨table, frame, frameAllocator, takes, marked, rfl⟩
      · exact tenancy
      · have aside : ∀ other : Nat, (∀ index, (system.info.memory other index).flags ≠ present ||| userAccessible) →
            (({ system.info with frameAllocator }.write table addr.p1Index (.setAddr frame userPage)).memory other =
              system.info.memory other) := by
          intro other unmarked
          refine write_table _ _ _ ?_
          rintro rfl
          exact unmarked _ marked
        refine ⟨tenancy.housed, ?_, ⟨fun other listed => ?_, tenancy.intact.root⟩, tenancy.spawning,
          tenancy.tenants, tenancy.unborn⟩
        · exact tenancy.isolated.keep
            (fun owner tree found other listed => aside other ((tenancy.isolated.tree owner tree found).entries listed))
            (fun other used => (takes.frameUsage other).mpr (.inr used))
            (fun other taken => takes.not_available (tenancy.isolated.shut other taken))
        · rw [← tenancy.intact.tables other listed]
          rw [← tenancy.intact.tableSet] at listed
          exact aside other ((tenancy.intact.table booted).entries listed)
  · simp at returned

theorem syscall {context : Context} {syscallId arg1 arg2 arg3 : UInt64} {kernelStackStart : Option Nat}
    {stack : Option (Nat × Nat)} {info : MemoryInfo} (booted : Booted boot) (tenancy : Tenancy boot trees system)
    (careful : (syscallId &&& 0xFF).toNat ≤ 1 →
      ∀ thread, system.kernel.runningThread = some thread → thread.threadType = .user)
    (answered : system.syscallMemory (syscallId &&& 0xFF).toNat kernelStackStart = .ok (stack, info)) :
    ∃ more, Tenancy boot more ⟨system.kernel.perform (.syscall context syscallId arg1 arg2 arg3
      ⟨stack⟩), info, selectors⟩ := by
  unfold System.syscallMemory at answered
  split at answered
  · rename_i thread number running
    have user := careful (by omega) thread running
    split at answered
    · cases answered
    · rename_i allocated
      split at answered
      · rename_i kernelStackStart
        cases answered
        exact tenancy.fork kernelStackStart booted running user allocated
      · cases answered
    · rename_i allocated
      cases answered
      exact tenancy.fork 0 booted running user allocated
  · rename_i thread number running
    have user := careful (by omega) thread running
    cases dropped : system.dropThread thread with
    | error panic =>
      rw [dropped] at answered
      cases answered
    | ok after =>
      rw [dropped] at answered
      cases answered
      exact tenancy.exit booted running user number dropped
  · cases answered
    exact ⟨trees, tenancy.quiet _ trivial nofun⟩

theorem step (booted : Booted boot) (tenancy : Tenancy boot trees system)
    (step : System.CarefulStep mapper system event after) : ∃ more, Tenancy boot more after := by
  obtain ⟨careful, step⟩ := step
  cases step.effect with
  | stutter => exact ⟨trees, tenancy⟩
  | spawnKernelThread function sockets kernelStackStart garbage =>
    exact ⟨trees, tenancy.kernelThread function sockets kernelStackStart garbage⟩
  | syscall answered called =>
    subst called
    exact tenancy.syscall booted careful answered
  | timer context => exact ⟨trees, tenancy.quiet (.timer context) trivial fun _ born => by cases born⟩
  | keyboard context key => exact ⟨trees, tenancy.quiet (.keyboard context key) trivial fun _ born => by cases born⟩
  | create running allowed created => exact tenancy.create booted running allowed.1 allowed.2 created
  | failHeap standing refused => exact tenancy.heap booted standing refused
  | heap standing mapped => exact tenancy.heap booted standing mapped
  | failSegment standing refused =>
    have tree := tenancy.spawn_tree (Kernel.stage_eq_some standing).2 rfl
    exact tenancy.failClosure booted 0 standing (tree.loadSegment careful refused).1
  | segment standing loaded => exact tenancy.segment booted standing careful loaded
  | failStack standing refused =>
    have tree := tenancy.spawn_tree (Kernel.stage_eq_some standing).2 rfl
    exact tenancy.failClosure booted 2 standing (tree.allocateUserStack refused).1
  | initialise standing allocated => exact tenancy.initialise booted standing allocated
  | leave => exact tenancy.leave booted
  | fault returned => exact ⟨trees, tenancy.fault booted returned⟩
  | store found translated =>
    obtain ⟨running, user⟩ := userThread_eq_some found
    exact ⟨trees, tenancy.store booted running user translated⟩

theorem of_run {boot : MemoryInfo} (booted : Booted boot) {keyboardSocket : σ} {events : List (Event σ)}
    (run : Run (System.CarefulStep mapper) (System.boot keyboardSocket boot) events system) :
    ∃ trees, Tenancy boot trees system := by
  apply run.invariant
  · exact ⟨_, of_boot boot keyboardSocket⟩
  · rintro before event after ⟨trees, tenancy⟩ step
    exact tenancy.step booted step

end Tenancy

end Zephyr
