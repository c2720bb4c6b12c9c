import Zephyr.Sync.Socket
import Mathlib.Data.Fintype.Basic
import Mathlib.Logic.Function.Basic

/-! The scheduler of `proc/process.rs`, the IPC system calls of `syscall.rs` and
the interrupt handlers of `boot/interrupts.rs`, over one explicit kernel state.

What the memory and device layers answer (a fresh stack, a page table frame, a
decoded key, the interrupted registers) is an input of each operation, so a
result about every run holds for whatever those layers answer. -/

namespace Zephyr

def kernelStackSize : Nat := 4096 * 3
def userStackSize : Nat := 4096 * 10
def userCodeStart : Nat := 0x5000000
def userCodeEnd : Nat := 0x90000000
def userHeapStart : Nat := 0x28000600000
def userHeapSize : Nat := 4194304
def interruptContextSize : Nat := 20 * 8
def messageTypeKey : UInt64 := 0

/-- Selectors of the descriptors `gdt.rs` adds, code and data, as loaded through
`MSR_STAR` in `syscall::init`. -/
def kernelSegments : UInt64 × UInt64 := (0x08, 0x10)
def userSegments : UInt64 × UInt64 := (0x33, 0x2b)

structure Process (σ : Type) where
  pageTablePhysaddr : Nat
  sockets : List (Option σ)

/-- A saved context: its address and the frame pushed there. -/
structure Context where
  addr : Nat
  frame : ISF
  deriving DecidableEq, Repr

/-- Where a kernel thread stands inside `spawn_user_thread`, with the local
variables it still needs: the new table, and `original_page_table` from the
moment `switch_pagetable_and_execute` has read it. -/
inductive SpawnStage where
  | created (table : Nat)
  | inside (table original : Nat)
  | leaving (original : Nat)
  deriving DecidableEq, Repr

/-- Thread ids and page table frames are natural numbers; `socket` and
`processes` stand for the shared `Arc`s, named by their identity. -/
structure Kernel (σ : Type) where
  runningThread : Option Thread := none
  waitQueue : List Thread := []
  counter : Nat := 0
  processes : List (Process σ) := []
  socket : σ → Socket := fun _ => .empty
  keyboardSocket : σ
  kernelPageTable : Nat
  cr3 : Nat
  interruptStack : Nat := 0
  spawning : Nat → Option SpawnStage := fun _ => none
  /-- Ghost: page tables handed to `free_user_pagetables`. -/
  released : List Nat := []
  /-- Ghost: ids returned by spawn and fork. -/
  created : List Nat := []
  /-- Ghost: ids of threads that executed system call 1. -/
  exited : List Nat := []

/-- How a handler hands control back: to its caller with a frame to pop, to
another thread through `launch_thread`, or to the idle `hlt` loop. -/
inductive Control where
  | returned (frame : ISF)
  | launched (contextAddr : Nat)
  | halted
  deriving DecidableEq, Repr

namespace Kernel

variable {σ : Type} [DecidableEq σ]

/-- `COUNTER` is a `u64` in the source: a run stands for one that draws fewer than `2 ^ 64` ids. -/
def uniqueId (kernel : Kernel σ) : Nat × Kernel σ :=
  (kernel.counter + 1, { kernel with counter := kernel.counter + 1 })

def getSockets (kernel : Kernel σ) (thread : Thread) (id : Nat) : Option σ :=
  kernel.processes[thread.process]?.bind fun process => process.sockets[id]?.getD none

def scheduleThread (kernel : Kernel σ) (thread : Thread) : Kernel σ :=
  { kernel with waitQueue := thread :: kernel.waitQueue }

/-- What `take_current_thread` leaves behind. -/
def clearCurrentThread (kernel : Kernel σ) : Kernel σ :=
  { kernel with runningThread := none }

def setSocket (kernel : Kernel σ) (name : σ) (socket : Socket) : Kernel σ :=
  { kernel with socket := Function.update kernel.socket name socket }

def setCurrentThread (kernel : Kernel σ) (thread : Thread) : Kernel σ :=
  let oldCurrent := kernel.runningThread
  let kernel := { kernel with runningThread := some thread }
  match oldCurrent with
  | some t => kernel.scheduleThread t
  | none => kernel

/-- The thread switched out goes to the back of the queue and records whatever
page table is active. -/
def updateCurrentThread (kernel : Kernel σ) (context : Context) : Kernel σ :=
  match kernel.runningThread with
  | some thread =>
    let updated := { thread with
      context := context.addr, frame := context.frame, pageTablePhys := kernel.cr3 }
    { kernel with runningThread := none, waitQueue := kernel.waitQueue ++ [updated] }
  | none => kernel

/-- Make the popped thread current: its kernel stack goes into the TSS, and its
page table into CR3 unless it has none of its own yet. -/
def dispatch (kernel : Kernel σ) (thread : Thread) (rest : List Thread) : Kernel σ :=
  { kernel with
    runningThread := some thread
    waitQueue := rest
    interruptStack := thread.kernelStackEnd
    cr3 := if thread.pageTablePhys ≠ 0 then thread.pageTablePhys else kernel.cr3 }

def schedule (kernel : Kernel σ) (context : Context) : Kernel σ × Nat :=
  let kernel := kernel.updateCurrentThread context
  match kernel.waitQueue with
  | [] => (kernel.clearCurrentThread, 0)
  | thread :: rest => (kernel.dispatch thread rest, thread.context)

/-- `spawn_kernel_thread`; `garbage` is what the recycled heap memory under the
new stack holds. -/
def spawnKernelThread (kernel : Kernel σ) (function : UInt64) (sockets : List σ)
    (kernelStackStart : Nat) (garbage : ISF) : Kernel σ :=
  let (uid, kernel) := kernel.uniqueId
  let kernelStackEnd := kernelStackStart + kernelStackSize
  let userStackEnd := kernelStackEnd + userStackSize
  let thread : Thread := {
    threadId := uid
    process := kernel.processes.length
    kernelStackEnd := kernelStackEnd
    context := kernelStackEnd - interruptContextSize
    frame := { garbage with
      instructionPointer := function, flags := 0x200, codeSegment := kernelSegments.1,
      stackSegment := kernelSegments.2, stackPointer := UInt64.ofNat userStackEnd }
    userStackEnd := userStackEnd
    pageTablePhys := 0
    threadType := .kernel }
  let kernel := { kernel with
    processes := kernel.processes ++ [(⟨0, sockets.map some⟩ : Process σ)]
    created := kernel.created ++ [uid] }
  kernel.scheduleThread thread

/-- `fork_current_thread`; `stack` is the answer of `allocate_user_stack`, which
draws an id of its own first, with the kernel stack that is taken from the heap next. A
fork without room for that one panics and does not come here. -/
def forkCurrentThread (kernel : Kernel σ) (context : Context) (stack : Option (Nat × Nat)) : Kernel σ × ISF :=
  match kernel.runningThread with
  | some current =>
    let (_, kernel) := kernel.uniqueId
    match stack with
    | some (userStackEnd, kernelStackStart) =>
      let (uid, kernel) := kernel.uniqueId
      let kernelStackEnd := kernelStackStart + kernelStackSize
      let thread : Thread := {
        threadId := uid
        process := current.process
        kernelStackEnd := kernelStackEnd
        context := kernelStackEnd - interruptContextSize
        frame := { context.frame with
          stackPointer := UInt64.ofNat userStackEnd, rax := 0, rdi := 0 }
        userStackEnd := userStackEnd
        pageTablePhys := current.pageTablePhys
        threadType := current.threadType }
      ({ kernel with
          waitQueue := kernel.waitQueue ++ [thread]
          created := kernel.created ++ [uid] },
        { context.frame with rax := 0, rdi := UInt64.ofNat uid })
    | none => (kernel, { context.frame with rax := syscallErrorMemalloc })
  | none => (kernel, { context.frame with rax := 2 })

section Drop

variable [Fintype σ]

/-- Some thread of the process is queued, parked or running. -/
def HasThread (kernel : Kernel σ) (process : Nat) : Prop :=
  (∃ thread ∈ kernel.runningThread, thread.process = process) ∨
  (∃ thread ∈ kernel.waitQueue, thread.process = process) ∨
  (∃ name, ∃ thread ∈ (kernel.socket name).threads, thread.process = process)

instance (kernel : Kernel σ) (process : Nat) : Decidable (kernel.HasThread process) :=
  inferInstanceAs (Decidable ((∃ thread ∈ kernel.runningThread, thread.process = process) ∨
    (∃ thread ∈ kernel.waitQueue, thread.process = process) ∨
    (∃ name, ∃ thread ∈ (kernel.socket name).threads, thread.process = process)))

/-- `Drop for Process`. -/
def dropProcess (kernel : Kernel σ) (process : Process σ) : Kernel σ :=
  { kernel with
    cr3 := if process.pageTablePhysaddr = kernel.cr3 then kernel.kernelPageTable else kernel.cr3
    released := kernel.released ++ [process.pageTablePhysaddr] }

/-- `Drop for Thread` as the scheduler sees it: the process goes with its last
thread. A socket outlives every thread parked in it, since that thread's own
process holds a handle to it. -/
def dropThread (kernel : Kernel σ) (thread : Thread) : Kernel σ :=
  if kernel.HasThread thread.process then kernel
  else match kernel.processes[thread.process]? with
    | some process => kernel.dropProcess process
    | none => kernel

/-- Remove the current thread from the global state. -/
def retire (kernel : Kernel σ) (thread : Thread) : Kernel σ :=
  { kernel with
    runningThread := none
    waitQueue := kernel.waitQueue.filter (·.threadId ≠ thread.threadId)
    exited := kernel.exited ++ [thread.threadId] }

def exitCurrentThread (kernel : Kernel σ) : Kernel σ :=
  match kernel.runningThread with
  | some thread => (kernel.retire thread).dropThread thread
  | none => kernel

end Drop

/-- One turn of the loop over `[thread2, thread1]` after a socket call. -/
def handBack (currentThreadId : Nat) (state : Kernel σ × Bool) (newThread : Option Thread) :
    Kernel σ × Bool :=
  match newThread with
  | some t =>
    if t.threadId = currentThreadId then (state.1.setCurrentThread t, true)
    else (state.1.scheduleThread t, state.2)
  | none => state

def handBackPair (kernel : Kernel σ) (currentThreadId : Nat) (exchange : Exchange) : Kernel σ × Bool :=
  [exchange.second, exchange.first].foldl (handBack currentThreadId) (kernel, false)

/-- The common tail of `sys_receive` and `sys_send`. -/
def completeExchange (kernel : Kernel σ) (name : σ) (exchange : Exchange) (currentThreadId : Nat)
    (context : Context) : Kernel σ × Control :=
  let state := (kernel.setSocket name exchange.socket).handBackPair currentThreadId exchange
  if state.2 then
    (state.1, .returned ((state.1.runningThread.map Thread.frame).getD context.frame))
  else
    ((state.1.schedule context).1, .launched (state.1.schedule context).2)

/-- `sys_receive` and `sys_send` differ only in the socket call they make. A
handler that finds no running thread leaves everything as it is. -/
def ipcSyscall (kernel : Kernel σ) (context : Context) (handle : Nat)
    (call : Socket → Thread → Exchange) : Kernel σ × Control :=
  match kernel.runningThread with
  | some current =>
    let kernel := kernel.clearCurrentThread
    let thread := current.setContext context.addr context.frame
    match kernel.getSockets thread handle with
    | some name =>
      kernel.completeExchange name (call (kernel.socket name) thread) current.threadId context
    | none =>
      (kernel.setCurrentThread (thread.returnError syscallErrorInvalidHandle),
        .returned (thread.returnError syscallErrorInvalidHandle).frame)
  | none => (kernel, .returned context.frame)

def sysReceive (kernel : Kernel σ) (context : Context) (handle : UInt64) : Kernel σ × Control :=
  kernel.ipcSyscall context handle.toNat Socket.receive

/-- Only operations 4 and 5 are dispatched here. -/
def sysSend (kernel : Kernel σ) (context : Context) (syscallId data1 data2 data3 : UInt64) :
    Kernel σ × Control :=
  kernel.ipcSyscall context (syscallId >>> 32).toNat fun socket thread =>
    if syscallId &&& 0xFF = 4 then socket.sendMessage (some thread) (.packet data1 data2 data3)
    else socket.sendReceive thread (.packet data1 data2 data3)

def sysYield (kernel : Kernel σ) (context : Context) : Kernel σ × Control :=
  ((kernel.schedule context).1, .launched (kernel.schedule context).2)

/-- The part of a system call's environment that the memory layer decides: the end of a
forked thread's user stack and the start of its kernel stack. -/
structure ForkMemory where
  stack : Option (Nat × Nat)
  deriving DecidableEq, Repr

/-- The frame with the selectors `dispatch_syscall` infers from the caller's
instruction pointer. -/
def withSegments (frame : ISF) : ISF :=
  let (code, data) :=
    if frame.instructionPointer.toNat < userCodeStart then kernelSegments else userSegments
  { frame with codeSegment := code, stackSegment := data }

/-- `dispatch_syscall`. `sys_write` and unknown numbers only print. -/
def dispatchSyscall [Fintype σ] (kernel : Kernel σ) (context : Context)
    (syscallId arg1 arg2 arg3 : UInt64) (memory : ForkMemory) : Kernel σ × Control :=
  let context := { context with frame := withSegments context.frame }
  match (syscallId &&& 0xFF).toNat with
  | 0 =>
    let (kernel, frame) := kernel.forkCurrentThread context memory.stack
    (kernel, .returned frame)
  | 1 => (kernel.exitCurrentThread, .halted)
  | 3 => kernel.sysReceive context arg1
  | 4 => kernel.sysSend context syscallId arg1 arg2 arg3
  | 5 => kernel.sysSend context syscallId arg1 arg2 arg3
  | 9 => kernel.sysYield context
  | _ => (kernel, .returned context.frame)

def timerHandler (kernel : Kernel σ) (context : Context) : Kernel σ × Nat :=
  kernel.schedule context

def scheduleSome (kernel : Kernel σ) : Option Thread → Kernel σ
  | some thread => kernel.scheduleThread thread
  | none => kernel

/-- `keyboard_handler_inner`; `key` is the decoded character, if any. A woken
receiver is queued and the interrupted thread gives way to it. -/
def keyboardHandlerInner (kernel : Kernel σ) (context : Context) (key : Option UInt64) :
    Kernel σ × Nat :=
  match key with
  | some character =>
    let exchange := (kernel.socket kernel.keyboardSocket).sendMessage none
      (.packet messageTypeKey character 0)
    let kernel := kernel.setSocket kernel.keyboardSocket exchange.socket
    let kernel := (kernel.scheduleSome exchange.second).scheduleSome exchange.first
    if exchange.first.isSome then kernel.schedule context else (kernel, context.addr)
  | none => (kernel, context.addr)

section SpawnUser

/-- The running kernel thread, when it stands at some stage of
`spawn_user_thread`. -/
def stage (kernel : Kernel σ) : Option (Thread × SpawnStage) :=
  kernel.runningThread.bind fun thread =>
    (kernel.spawning thread.threadId).map fun stage => (thread, stage)

def setStage (kernel : Kernel σ) (thread : Thread) (stage : Option SpawnStage) : Kernel σ :=
  { kernel with spawning := Function.update kernel.spawning thread.threadId stage }

/-- `create_kernel_only_pagetable` has returned the table at `table`. A frame
that is handed out again is no longer a released one. -/
def createKernelOnlyPagetable (kernel : Kernel σ) (table : Nat) : Kernel σ :=
  match kernel.runningThread with
  | some thread =>
    if thread.threadType = .kernel ∧ kernel.spawning thread.threadId = none then
      let kernel := { kernel with released := kernel.released.filter (· ≠ table) }
      kernel.setStage thread (some (.created table))
    else kernel
  | none => kernel

/-- `allocate_user_heap` failed: the call returns with its error before it has
switched page tables. -/
def failHeap (kernel : Kernel σ) : Kernel σ :=
  match kernel.stage with
  | some (thread, .created _) => kernel.setStage thread none
  | _ => kernel

/-- `switch_pagetable_and_execute` up to the call of its closure. -/
def enterUserPagetable (kernel : Kernel σ) : Kernel σ :=
  match kernel.stage with
  | some (thread, .created table) =>
    { kernel.setStage thread (some (.inside table kernel.cr3)) with cr3 := table }
  | _ => kernel

/-- One turn of the segment loop of `load_binary_into_memory`, which loads the
table again before it copies. -/
def loadSegment (kernel : Kernel σ) : Kernel σ :=
  match kernel.stage with
  | some (_, .inside table _) => { kernel with cr3 := table }
  | _ => kernel

/-- The closure returned an error: loading failed, or no stack was found. -/
def failClosure (kernel : Kernel σ) (draws : Nat) : Kernel σ :=
  match kernel.stage with
  | some (thread, .inside _ original) =>
    { kernel.setStage thread (some (.leaving original)) with counter := kernel.counter + draws }
  | _ => kernel

/-- `initialise_thread`, ending with the new thread in the queue. The stack
search draws the id after the thread's own. -/
def initialiseThread (kernel : Kernel σ) (entryPoint : UInt64) (sockets : List σ)
    (userStackEnd kernelStackStart : Nat) (garbage : ISF) : Kernel σ :=
  match kernel.stage with
  | some (parent, .inside table original) =>
    let (uid, kernel) := kernel.uniqueId
    let (_, kernel) := kernel.uniqueId
    let kernelStackEnd := kernelStackStart + kernelStackSize
    let thread : Thread := {
      threadId := uid
      process := kernel.processes.length
      kernelStackEnd := kernelStackEnd
      context := kernelStackEnd - interruptContextSize
      frame := { garbage with
        instructionPointer := entryPoint, flags := 0x200, codeSegment := userSegments.1,
        stackSegment := userSegments.2, stackPointer := UInt64.ofNat userStackEnd,
        rax := UInt64.ofNat userHeapStart, rcx := UInt64.ofNat userHeapSize }
      userStackEnd := userStackEnd
      pageTablePhys := table
      threadType := .user }
    let kernel := { kernel with
      processes := kernel.processes ++ [(⟨table, sockets.map some⟩ : Process σ)]
      created := kernel.created ++ [uid] }
    (kernel.scheduleThread thread).setStage parent (some (.leaving original))
  | _ => kernel

/-- `switch_pagetable_and_execute` after its closure. -/
def leaveUserPagetable (kernel : Kernel σ) : Kernel σ :=
  match kernel.stage with
  | some (thread, .leaving original) => { kernel.setStage thread none with cr3 := original }
  | _ => kernel

end SpawnUser

end Kernel

/-- The steps of a kernel run. `spawn_user_thread` is cut at the points where an
interrupt can separate its effects on the scheduler. -/
inductive Action (σ : Type) where
  | spawnKernelThread (function : UInt64) (sockets : List σ) (kernelStackStart : Nat)
      (garbage : ISF)
  | syscall (context : Context) (syscallId arg1 arg2 arg3 : UInt64) (memory : Kernel.ForkMemory)
  | timer (context : Context)
  | keyboard (context : Context) (key : Option UInt64)
  | createKernelOnlyPagetable (table : Nat)
  | failHeap
  | enterUserPagetable
  | loadSegment
  | failClosure (draws : Nat)
  | initialiseThread (entryPoint : UInt64) (sockets : List σ)
      (userStackEnd kernelStackStart : Nat) (garbage : ISF)
  | leaveUserPagetable

/-- Interrupts and system calls are the actions that may call `schedule`. -/
def Action.Schedules {σ : Type} : Action σ → Prop
  | .syscall _ _ _ _ _ _ => True
  | .timer _ => True
  | .keyboard _ _ => True
  | _ => False

namespace Kernel

variable {σ : Type} [DecidableEq σ] [Fintype σ]

def perform (kernel : Kernel σ) : Action σ → Kernel σ
  | .spawnKernelThread function sockets kernelStackStart garbage =>
    kernel.spawnKernelThread function sockets kernelStackStart garbage
  | .syscall context syscallId arg1 arg2 arg3 memory =>
    (kernel.dispatchSyscall context syscallId arg1 arg2 arg3 memory).1
  | .timer context => (kernel.timerHandler context).1
  | .keyboard context key => (kernel.keyboardHandlerInner context key).1
  | .createKernelOnlyPagetable table => kernel.createKernelOnlyPagetable table
  | .failHeap => kernel.failHeap
  | .enterUserPagetable => kernel.enterUserPagetable
  | .loadSegment => kernel.loadSegment
  | .failClosure draws => kernel.failClosure draws
  | .initialiseThread entryPoint sockets userStackEnd kernelStackStart garbage =>
    kernel.initialiseThread entryPoint sockets userStackEnd kernelStackStart garbage
  | .leaveUserPagetable => kernel.leaveUserPagetable

/-- The kernel before its first thread. -/
def boot (keyboardSocket : σ) (kernelPageTable : Nat) : Kernel σ :=
  { keyboardSocket, kernelPageTable, cr3 := kernelPageTable }

def Step (before : Kernel σ) (action : Action σ) (after : Kernel σ) : Prop :=
  after = before.perform action

end Kernel
end Zephyr
