import Zephyr.Space.Isolation
import Zephyr.Space.Loader
import Zephyr.Proc.Entry
import Zephyr.Proc.Holdings

/-! The scheduler of `proc/process.rs` over the memory of `mem/memory.rs`. What a kernel
run takes as an input (a new stack, a new table, the outcome of a load) is computed here,
and what a kernel run leaves out (the drops' work in memory, faults, user stores) is done
here. A step that ends in an error has stopped the kernel. Walks set no accessed and dirty bits
here, and fewer than `2 ^ 64` ids are drawn. -/

namespace Zephyr

open Radix PageTableFlags

variable {σ : Type}

/-- `selectors` are those of the code that runs between two handlers. -/
structure System (σ : Type) where
  kernel : Kernel σ
  info : MemoryInfo
  selectors : UInt64 × UInt64

/-- The steps of a run of the system. -/
inductive Event (σ : Type) where
  | spawnKernelThread (function : UInt64) (sockets : List σ) (kernelStackStart : Nat) (garbage : ISF)
  | syscall (context : Context) (syscallId arg1 arg2 arg3 : UInt64) (kernelStackStart : Option Nat)
  | timer (context : Context)
  | keyboard (context : Context) (key : Option UInt64)
  | createKernelOnlyPagetable
  | allocateUserHeap
  | loadSegment (segment : Segment)
  | initialiseThread (entryPoint : UInt64) (sockets : List σ) (kernelStackStart : Nat) (garbage : ISF)
  | leaveUserPagetable
  | pageFault (access : Access) (addr : VirtAddr)
  | store (addr : VirtAddr) (value : BitVec 8)

/-- Interrupts and system calls may switch to another thread. -/
def Event.Schedules : Event σ → Prop
  | .syscall _ _ _ _ _ _ => True
  | .timer _ => True
  | .keyboard _ _ => True
  | _ => False

namespace MemoryInfo

theorem inUserSpace_heap {page : Nat} (least : userHeapStart / 4096 * 4096 ≤ page)
    (most : page ≤ userHeapStart + userHeapSize) :
    InUserSpace (pageAddress (VirtAddr.path page) (VirtAddr.p1Index page)) ∧
      VirtAddr.path page ≠ userStackPageIndex := by
  change (0x28000600000 : Nat) ≤ page at least
  change page ≤ (0x28000A00000 : Nat) at most
  have top : page / 2 ^ 39 = 5 := by omega
  constructor
  · rw [pageAddress_eq, Nat.mod_eq_of_lt (by omega)]
    change (0x5000000 : Nat) ≤ page / 4096 * 4096 ∧ (page / 4096 * 4096 : Nat) < 2 ^ 47
    omega
  · intro same
    have head := congrArg List.head? same
    rw [VirtAddr.path, List.head?_cons, VirtAddr.p4Index, top] at head
    exact absurd head (by decide)

def allocateUserHeap (mapper : Mapper) (self : MemoryInfo) (userPageTable : Nat) :
    Except Panic (Except MapToError Unit × MemoryInfo) :=
  self.createUserOndemandPages mapper userPageTable userHeapStart userHeapSize

/-- The heap of a process lies in level-4 slot 5, away from the stacks. -/
theorem UserTree.allocateUserHeap {foreign : Nat → Prop} {root : Nat} {slots : List Nat} {mapper : Mapper}
    {before after : MemoryInfo} {result : Except MapToError Unit} (tree : UserTree foreign root slots [] before)
    (returned : before.allocateUserHeap mapper root = .ok (result, after)) :
    Spares foreign before after ∧ (result = .ok () → UserTree foreign root slots [] after) := by
  unfold MemoryInfo.allocateUserHeap at returned
  cases listed : pagesOf userHeapStart userHeapSize with
  | error panic =>
    rw [MemoryInfo.createUserOndemandPages, listed] at returned
    cases returned
  | ok pages =>
    obtain ⟨range, covered⟩ := mem_pagesOf (by decide) listed
    have first := covered userHeapStart (Nat.le_refl _) (by decide)
    have space : ∀ page ∈ pages, InUserSpace (pageAddress page.path page.p1Index) ∧ page.path ≠ userStackPageIndex :=
      fun page member => inUserSpace_heap (range page member).1 (range page member).2.1
    obtain ⟨spares, success⟩ := tree.createUserOndemandPages listed first space returned
    exact ⟨spares, fun succeeded => (success succeeded).1⟩

end MemoryInfo

namespace System

variable [DecidableEq σ] [Fintype σ]

/-- `Drop for Thread`, then `Drop for Process` with the last thread, as they act on
memory. -/
def dropThread (system : System σ) (thread : Thread) : Except Panic MemoryInfo :=
  match VirtAddr.new thread.userStackEnd with
  | .error panic => .error panic
  | .ok userStackEnd =>
    match system.info.freeUserStack system.kernel.cr3 userStackEnd with
    | .error panic => .error panic
    | .ok info =>
      if (system.kernel.retire thread).HasThread thread.process then .ok info
      else
        match system.kernel.processes[thread.process]? with
        | some process => info.freeUserPagetables process.pageTablePhysaddr
        | none => .ok info

/-- What a system call asks of memory: a fork a new stack in the active tables, an exit
the drops of its thread. `kernelStackStart` is the heap's answer to a fork, after its user
stack is mapped. -/
def syscallMemory (system : System σ) (number : Nat) (kernelStackStart : Option Nat) :
    Except Panic (Option (Nat × Nat) × MemoryInfo) :=
  match number, system.kernel.runningThread with
  | 0, some _ =>
    match system.info.allocateUserStack system.kernel.cr3 (system.kernel.counter + 1) with
    | .error panic => .error panic
    | .ok (.ok (_, userStackEnd), info) =>
      match kernelStackStart with
      | some kernelStackStart => .ok (some (userStackEnd, kernelStackStart), info)
      -- `Vec::with_capacity` on a full heap
      | none => .error .allocError
    | .ok (.error _, info) => .ok (none, info)
  | 1, some thread => (system.dropThread thread).map fun info => (none, info)
  | _, _ => .ok (none, system.info)

/-- The selectors of the thread that runs, from its saved frame. -/
def launchSelectors (kernel : Kernel σ) : UInt64 × UInt64 :=
  match kernel.runningThread with
  | some thread => (thread.frame.codeSegment, thread.frame.stackSegment)
  | none => kernelSegments

/-- How `handle_syscall` is left: by `jmp rcx` or `sysretq`, as `rcx` compares, or by
`launch_thread`. -/
def syscallSelectors (kernel : Kernel σ) : Control → UInt64 × UInt64
  | .returned frame =>
    if frame.rcx.toBitVec.slt (UInt64.ofNat userCodeStart).toBitVec then kernelSegments else userSegments
  | .launched _ => launchSelectors kernel
  | .halted => kernelSegments

/-- An interrupt goes back to the frame it pushed, or to that of another thread. -/
def interruptSelectors (before after : Kernel σ) (context : Context) : UInt64 × UInt64 :=
  if after.runningThread.map Thread.threadId = before.runningThread.map Thread.threadId then
    (context.frame.codeSegment, context.frame.stackSegment)
  else launchSelectors after

def userThread (system : System σ) : Option Thread :=
  system.kernel.runningThread.filter fun thread => thread.threadType = .user

variable (mapper : Mapper)

def perform (system : System σ) : Event σ → Except Halt (System σ)
  | .spawnKernelThread function sockets kernelStackStart garbage =>
    .ok { system with kernel := system.kernel.spawnKernelThread function sockets kernelStackStart garbage }
  | .syscall context syscallId arg1 arg2 arg3 kernelStackStart =>
    match system.syscallMemory (syscallId &&& 0xFF).toNat kernelStackStart with
    | .error panic => .error (.panic panic)
    | .ok (stack, info) =>
      let result := system.kernel.dispatchSyscall context syscallId arg1 arg2 arg3 ⟨stack⟩
      .ok ⟨result.1, info, syscallSelectors result.1 result.2⟩
  | .timer context =>
    let kernel := (system.kernel.timerHandler context).1
    .ok { system with kernel, selectors := interruptSelectors system.kernel kernel context }
  | .keyboard context key =>
    let kernel := (system.kernel.keyboardHandlerInner context key).1
    .ok { system with kernel, selectors := interruptSelectors system.kernel kernel context }
  | .createKernelOnlyPagetable =>
    match system.kernel.runningThread with
    | none => .ok system
    | some thread =>
      if thread.threadType = .kernel ∧ system.kernel.spawning thread.threadId = none then
        match system.info.createKernelOnlyPagetable with
        | .error panic => .error (.panic panic)
        | .ok (table, info) => .ok { system with kernel := system.kernel.createKernelOnlyPagetable table, info }
      else .ok system
  | .allocateUserHeap =>
    match system.kernel.stage with
    | some (_, .created table) =>
      match system.info.allocateUserHeap mapper table with
      | .error panic => .error (.panic panic)
      | .ok (.error _, info) => .ok { system with kernel := system.kernel.failHeap, info }
      | .ok (.ok (), info) => .ok { system with kernel := system.kernel.enterUserPagetable, info }
    | _ => .ok system
  | .loadSegment segment =>
    match system.kernel.stage with
    | some (_, .inside table _) =>
      match system.info.loadSegment mapper table segment with
      | .error halt => .error halt
      | .ok (.error _, info) => .ok { system with kernel := system.kernel.failClosure 0, info }
      | .ok (.ok (), info) => .ok { system with kernel := system.kernel.loadSegment, info }
    | _ => .ok system
  | .initialiseThread entryPoint sockets kernelStackStart garbage =>
    match system.kernel.stage with
    | some (_, .inside table _) =>
      match system.info.allocateUserStack table (system.kernel.counter + 2) with
      | .error panic => .error (.panic panic)
      | .ok (.error _, info) => .ok { system with kernel := system.kernel.failClosure 2, info }
      | .ok (.ok (_, userStackEnd), info) =>
        .ok { system with
          kernel := system.kernel.initialiseThread entryPoint sockets userStackEnd kernelStackStart garbage, info }
    | _ => .ok system
  | .leaveUserPagetable => .ok { system with kernel := system.kernel.leaveUserPagetable }
  | .pageFault access addr =>
    match system.userThread, translate system.info.memory system.kernel.cr3 access addr with
    | some _, .error errorCode =>
      match system.info.pageFaultHandler system.kernel.cr3 addr errorCode with
      | .error panic => .error (.panic panic)
      | .ok (.exited, _) => .error (.fault addr)
      | .ok (.returned, info) => .ok { system with info }
    | _, _ => .ok system
  | .store addr value =>
    match system.userThread, translate system.info.memory system.kernel.cr3 .write addr with
    | some _, .ok walked =>
      .ok { system with info := { system.info with memory := storeByte system.info.memory walked.frame addr value } }
    | _, _ => .ok system

/-- The system before its first thread. -/
def boot (keyboardSocket : σ) (info : MemoryInfo) : System σ :=
  ⟨.boot keyboardSocket info.kernelPageTables, info, kernelSegments⟩

def Step (before : System σ) (event : Event σ) (after : System σ) : Prop := before.perform mapper event = .ok after

variable {mapper} {before after : System σ} {event : Event σ}

/-- What each event that returns has done, and what it found. -/
inductive Effect (mapper : Mapper) (system : System σ) : Event σ → System σ → Prop where
  | stutter {event : Event σ} (other : ¬ event.Schedules) : Effect mapper system event system
  | spawnKernelThread (function : UInt64) (sockets : List σ) (kernelStackStart : Nat) (garbage : ISF) :
      Effect mapper system (.spawnKernelThread function sockets kernelStackStart garbage)
        { system with kernel := system.kernel.perform (.spawnKernelThread function sockets kernelStackStart garbage) }
  | syscall {context : Context} {syscallId arg1 arg2 arg3 : UInt64} {kernelStackStart : Option Nat}
      {stack : Option (Nat × Nat)} {info : MemoryInfo}
      (answered : system.syscallMemory (syscallId &&& 0xFF).toNat kernelStackStart = .ok (stack, info))
      {result : Kernel σ × Control}
      (called : system.kernel.dispatchSyscall context syscallId arg1 arg2 arg3 ⟨stack⟩ = result) :
      Effect mapper system (.syscall context syscallId arg1 arg2 arg3 kernelStackStart)
        ⟨result.1, info, syscallSelectors result.1 result.2⟩
  | timer (context : Context) : Effect mapper system (.timer context)
      ⟨system.kernel.perform (.timer context), system.info,
        interruptSelectors system.kernel (system.kernel.perform (.timer context)) context⟩
  | keyboard (context : Context) (key : Option UInt64) : Effect mapper system (.keyboard context key)
      ⟨system.kernel.perform (.keyboard context key), system.info,
        interruptSelectors system.kernel (system.kernel.perform (.keyboard context key)) context⟩
  | create {thread : Thread} {table : Nat} {info : MemoryInfo} (running : system.kernel.runningThread = some thread)
      (allowed : thread.threadType = .kernel ∧ system.kernel.spawning thread.threadId = none)
      (created : system.info.createKernelOnlyPagetable = .ok (table, info)) :
      Effect mapper system .createKernelOnlyPagetable
        { system with kernel := system.kernel.perform (.createKernelOnlyPagetable table), info }
  | failHeap {thread : Thread} {table : Nat} {error : MapToError} {info : MemoryInfo}
      (standing : system.kernel.stage = some (thread, .created table))
      (refused : system.info.allocateUserHeap mapper table = .ok (.error error, info)) :
      Effect mapper system .allocateUserHeap { system with kernel := system.kernel.perform .failHeap, info }
  | heap {thread : Thread} {table : Nat} {info : MemoryInfo}
      (standing : system.kernel.stage = some (thread, .created table))
      (mapped : system.info.allocateUserHeap mapper table = .ok (.ok (), info)) :
      Effect mapper system .allocateUserHeap { system with kernel := system.kernel.perform .enterUserPagetable, info }
  | failSegment {segment : Segment} {thread : Thread} {table original : Nat} {error : String} {info : MemoryInfo}
      (standing : system.kernel.stage = some (thread, .inside table original))
      (refused : system.info.loadSegment mapper table segment = .ok (.error error, info)) :
      Effect mapper system (.loadSegment segment)
        { system with kernel := system.kernel.perform (.failClosure 0), info }
  | segment {segment : Segment} {thread : Thread} {table original : Nat} {info : MemoryInfo}
      (standing : system.kernel.stage = some (thread, .inside table original))
      (loaded : system.info.loadSegment mapper table segment = .ok (.ok (), info)) :
      Effect mapper system (.loadSegment segment) { system with kernel := system.kernel.perform .loadSegment, info }
  | failStack {entryPoint : UInt64} {sockets : List σ} {kernelStackStart : Nat} {garbage : ISF} {thread : Thread}
      {table original : Nat} {error : String} {info : MemoryInfo}
      (standing : system.kernel.stage = some (thread, .inside table original))
      (refused : system.info.allocateUserStack table (system.kernel.counter + 2) = .ok (.error error, info)) :
      Effect mapper system (.initialiseThread entryPoint sockets kernelStackStart garbage)
        { system with kernel := system.kernel.perform (.failClosure 2), info }
  | initialise {entryPoint : UInt64} {sockets : List σ} {kernelStackStart : Nat} {garbage : ISF} {thread : Thread}
      {table original : Nat} {bottom top : VirtAddr} {info : MemoryInfo}
      (standing : system.kernel.stage = some (thread, .inside table original))
      (allocated : system.info.allocateUserStack table (system.kernel.counter + 2) = .ok (.ok (bottom, top), info)) :
      Effect mapper system (.initialiseThread entryPoint sockets kernelStackStart garbage)
        { system with
          kernel := system.kernel.perform (.initialiseThread entryPoint sockets top kernelStackStart garbage), info }
  | leave : Effect mapper system .leaveUserPagetable { system with kernel := system.kernel.perform .leaveUserPagetable }
  | fault {access : Access} {addr : VirtAddr} {errorCode : PageFaultErrorCode} {info : MemoryInfo}
      (returned : system.info.pageFaultHandler system.kernel.cr3 addr errorCode = .ok (.returned, info)) :
      Effect mapper system (.pageFault access addr) { system with info }
  | store {addr : VirtAddr} {value : BitVec 8} {thread : Thread} {walked : Walked}
      (found : system.userThread = some thread)
      (translated : translate system.info.memory system.kernel.cr3 .write addr = .ok walked) :
      Effect mapper system (.store addr value)
        { system with info := { system.info with memory := storeByte system.info.memory walked.frame addr value } }

theorem Step.effect (step : Step mapper before event after) : Effect mapper before event after := by
  unfold Step at step
  cases event with
  | spawnKernelThread function sockets kernelStackStart garbage =>
    cases step
    exact .spawnKernelThread function sockets kernelStackStart garbage
  | timer context =>
    cases step
    exact .timer context
  | keyboard context key =>
    cases step
    exact .keyboard context key
  | leaveUserPagetable =>
    cases step
    exact .leave
  | syscall context syscallId arg1 arg2 arg3 kernelStackStart =>
    simp only [perform] at step
    split at step
    · cases step
    · rename_i answered
      cases step
      exact .syscall answered rfl
  | createKernelOnlyPagetable =>
    simp only [perform] at step
    split at step
    · cases step
      exact .stutter id
    · rename_i running
      split at step
      · rename_i allowed
        split at step
        · cases step
        · rename_i created
          cases step
          exact .create running allowed created
      · cases step
        exact .stutter id
  | allocateUserHeap =>
    simp only [perform] at step
    split at step
    · rename_i standing
      split at step
      · cases step
      · rename_i refused
        cases step
        exact .failHeap standing refused
      · rename_i mapped
        cases step
        exact .heap standing mapped
    · cases step
      exact .stutter id
  | loadSegment segment =>
    simp only [perform] at step
    split at step
    · rename_i standing
      split at step
      · cases step
      · rename_i refused
        cases step
        exact .failSegment standing refused
      · rename_i loaded
        cases step
        exact .segment standing loaded
    · cases step
      exact .stutter id
  | initialiseThread entryPoint sockets kernelStackStart garbage =>
    simp only [perform] at step
    split at step
    · rename_i standing
      split at step
      · cases step
      · rename_i refused
        cases step
        exact .failStack standing refused
      · rename_i allocated
        cases step
        exact .initialise standing allocated
    · cases step
      exact .stutter id
  | pageFault access addr =>
    simp only [perform] at step
    split at step
    · split at step
      · cases step
      · cases step
      · rename_i returned
        cases step
        exact .fault returned
    · cases step
      exact .stutter id
  | store addr value =>
    simp only [perform] at step
    split at step
    · rename_i found translated
      cases step
      exact .store found translated
    · cases step
      exact .stutter id

/-- Events that are not interrupts or system calls go on with the code that runs, and the
kernel takes a step of its own or none. -/
theorem Step.goes_on (step : Step mapper before event after) (other : ¬ event.Schedules) :
    after.selectors = before.selectors ∧ (after.kernel = before.kernel ∨
      ∃ action : Action σ, ¬ action.Schedules ∧ after.kernel = before.kernel.perform action) := by
  cases step.effect with
  | syscall | timer | keyboard => exact absurd trivial other
  | stutter | fault | store => exact ⟨rfl, .inl rfl⟩
  | spawnKernelThread | create | failHeap | heap | failSegment | segment | failStack | initialise | leave =>
    refine ⟨rfl, .inr ?_⟩
    dsimp only
    refine ⟨_, ?_, rfl⟩
    exact id

end System

end Zephyr
