import Zephyr.Locks.Preemption
import Zephyr.Proc.Kernel

/-! The spin locks each kernel function takes, in program order, with the
sections it runs under `without_interrupts`. What a function's data decide (how
often a collection grows, how many frames it asks for and whether they are
found) is a parameter of its trace. -/

namespace Zephyr

open Locks

inductive KernelLock (σ : Type) where
  | waitQueue
  | runningThread
  | counter
  | socket (name : σ)
  | process (index : Nat)
  | allocator
  | writer
  | serial1
  | memoryLogger
  | pics
  | keyboard
  | tss
  deriving DecidableEq, Repr

namespace LockUse

variable {σ : Type}

/-- `GlobalAlloc::alloc` and `dealloc` of `Locked<FixedSizeBlockAllocator>`. -/
def heapCalls (count : Nat) : Trace (KernelLock σ) := times count (locked .allocator .write [])

/-- `serial::_print`. -/
def serialPrint : Trace (KernelLock σ) := withoutInterrupts (locked .serial1 .write [])

/-- `vga_buffer::_print`. -/
def print : Trace (KernelLock σ) := withoutInterrupts (locked .writer .write [])

def uniqueId : Trace (KernelLock σ) := withoutInterrupts (locked .counter .write [])

def scheduleThread (growth : Nat) : Trace (KernelLock σ) :=
  withoutInterrupts (locked .waitQueue .write (heapCalls growth))

def monitor (reported : Bool) : Trace (KernelLock σ) := if reported then serialPrint else []

def printDetails : Trace (KernelLock σ) := times 9 serialPrint

/-- The log entry is printed while the logger is locked. -/
def allocateFrame (found : Bool) : Trace (KernelLock σ) :=
  if found then locked .memoryLogger .write serialPrint else serialPrint

def deallocateFrame (inBounds : Bool) : Trace (KernelLock σ) :=
  (if inBounds then [] else serialPrint) ++ locked .memoryLogger .write serialPrint

def allocateFrames (found : List Bool) : Trace (KernelLock σ) := (found.map allocateFrame).flatten

def deallocateFrames (inBounds : List Bool) : Trace (KernelLock σ) :=
  (inBounds.map deallocateFrame).flatten

def allocateUserStack (tables frames : List Bool) : Trace (KernelLock σ) :=
  allocateFrames tables ++ uniqueId ++ allocateFrames frames

/-- `Drop for Process`, then its sockets and the shared object. -/
def dropProcess (frames : List Bool) (handles : Nat) : Trace (KernelLock σ) :=
  deallocateFrames frames ++ print ++ heapCalls handles

/-- The stack frames of a dropped thread, whether it is reported, and what its
process gives back when it goes with its last thread. -/
structure DropCalls where
  frames : List Bool
  reported : Bool
  last : Option (List Bool × Nat)
  deriving DecidableEq, Repr

/-- `Drop for Thread`, then its fields: the process, the kernel stack and the box. -/
def dropThread (calls : DropCalls) : Trace (KernelLock σ) :=
  deallocateFrames calls.frames ++ monitor calls.reported ++ print ++ serialPrint ++
    ((calls.last.map fun process => dropProcess process.1 process.2).getD []) ++ heapCalls 2

/-- `objects` counts the heap calls for the sockets, the process and the thread. -/
def spawnKernelThread (objects growth emptied : Nat) (reported : Bool) : Trace (KernelLock σ) :=
  heapCalls 1 ++ uniqueId ++ heapCalls objects ++ monitor reported ++ printDetails ++
    scheduleThread growth ++ heapCalls emptied

/-- How far `initialise_thread` comes: without a stack it drops what it has. -/
inductive InitialiseCalls where
  | failed (tables frames : List Bool) (dropped : Nat)
  | completed (tables frames : List Bool) (objects growth emptied : Nat)
  deriving DecidableEq, Repr

def initialiseThread : InitialiseCalls → Trace (KernelLock σ)
  | .failed tables frames dropped =>
    uniqueId ++ heapCalls 1 ++ allocateUserStack tables frames ++ heapCalls dropped
  | .completed tables frames objects growth emptied =>
    uniqueId ++ heapCalls 1 ++ allocateUserStack tables frames ++ print ++ serialPrint ++
      heapCalls objects ++ monitor true ++ printDetails ++ scheduleThread growth ++ heapCalls emptied

/-- The frames are those of the page table copy, the heap and the segments; the
call may fail before `initialise_thread`. -/
def spawnUserThread (frames : List Bool) (initialise : Option InitialiseCalls) : Trace (KernelLock σ) :=
  allocateFrames frames ++ (initialise.map initialiseThread).getD []

/-- `ID_SOCKET.write().send_message(None, ..)`: the returned pair is dropped
before the guard. -/
def sendId (idSocket : σ) (dropped : Option DropCalls) : Trace (KernelLock σ) :=
  locked (.socket idSocket) .write ((dropped.map dropThread).getD [])

/-- `vga_buffer::start_listener`. -/
def startListener (objects growth emptied : Nat) (reported : Bool) : Trace (KernelLock σ) :=
  heapCalls 2 ++ spawnKernelThread objects growth emptied reported

/-- What the data of one run of `kernel_thread_main` decide. -/
structure MainCalls where
  statics : Nat
  objects : Nat
  growth : Nat
  emptied : Nat
  reported : Bool
  frames : List Bool
  initialise : Option InitialiseCalls
  dropped : Option DropCalls
  deriving DecidableEq, Repr

/-- `kernel_thread_main` up to its `hlt_loop`, or its return when no user thread
could be spawned. -/
def kernelThreadMain (idSocket : σ) (calls : MainCalls) : Trace (KernelLock σ) :=
  heapCalls calls.statics ++ startListener calls.objects calls.growth calls.emptied calls.reported ++
    heapCalls 1 ++ spawnUserThread calls.frames calls.initialise ++
    match calls.initialise with
    | some (.completed _ _ _ _ _) => sendId idSocket calls.dropped
    | _ => print

/-- What `kernel_thread_main`, `spawn_kernel_thread`, `spawn_user_thread` and the
operations they perform run with interrupts enabled. -/
inductive Operation (σ : Type) where
  | heap (count : Nat)
  | print
  | serialPrint
  | uniqueId
  | scheduleThread (growth : Nat)
  | allocateFrames (found : List Bool)
  | deallocateFrames (inBounds : List Bool)
  | spawnKernelThread (objects growth emptied : Nat) (reported : Bool)
  | spawnUserThread (frames : List Bool) (initialise : Option InitialiseCalls)
  | sendId (idSocket : σ) (dropped : Option DropCalls)
  | kernelThreadMain (idSocket : σ) (calls : MainCalls)
  deriving DecidableEq, Repr

def Operation.trace : Operation σ → Trace (KernelLock σ)
  | .heap count => heapCalls count
  | .print => LockUse.print
  | .serialPrint => LockUse.serialPrint
  | .uniqueId => LockUse.uniqueId
  | .scheduleThread growth => LockUse.scheduleThread growth
  | .allocateFrames found => LockUse.allocateFrames found
  | .deallocateFrames inBounds => LockUse.deallocateFrames inBounds
  | .spawnKernelThread objects growth emptied reported =>
    LockUse.spawnKernelThread objects growth emptied reported
  | .spawnUserThread frames initialise => LockUse.spawnUserThread frames initialise
  | .sendId idSocket dropped => LockUse.sendId idSocket dropped
  | .kernelThreadMain idSocket calls => LockUse.kernelThreadMain idSocket calls

section Handlers

/-- The thread `schedule` switches out (reported, of type User), the growth of
the queue, and whether a thread is picked. -/
structure SwitchCalls where
  current : Option (Bool × Bool)
  growth : Nat
  next : Bool
  deriving DecidableEq, Repr

def updateCurrentThread (calls : SwitchCalls) : Trace (KernelLock σ) :=
  match calls.current with
  | some (reported, user) =>
    monitor reported ++ (if user then serialPrint else []) ++ heapCalls calls.growth
  | none => []

def schedule (calls : SwitchCalls) : Trace (KernelLock σ) :=
  locked .waitQueue .write (locked .runningThread .write
    (updateCurrentThread calls ++ if calls.next then locked .tss .write [] else []))

def timerHandler (calls : SwitchCalls) (reported : Bool) : Trace (KernelLock σ) :=
  schedule calls ++ locked .runningThread .read (if calls.next then monitor reported else []) ++
    locked .pics .write []

inductive KeyboardCalls where
  | ignored
  | rawKey
  | character (woken : Option (Nat × SwitchCalls))
  deriving DecidableEq, Repr

/-- The scancode decoder stays locked to the end of the handler. -/
def keyboardHandlerInner (keyboardSocket : σ) (calls : KeyboardCalls) : Trace (KernelLock σ) :=
  locked .keyboard .write
    ((match calls with
      | .ignored => []
      | .rawKey => print
      | .character woken => print ++ locked (.socket keyboardSocket) .write [] ++
          (woken.map fun thread => scheduleThread thread.1 ++ schedule thread.2).getD []) ++
      locked .pics .write [])

def takeCurrentThread : Trace (KernelLock σ) := locked .runningThread .write []

/-- `set_current_thread` after `take_current_thread`: nobody is replaced. -/
def setCurrentThread : Trace (KernelLock σ) := locked .runningThread .write []

def getSockets (process : Nat) : Trace (KernelLock σ) := locked (.process process) .read []

/-- A thread handed back by a socket call: the caller, or one to queue. -/
inductive HandBack where
  | caller
  | other (growth : Nat)
  deriving DecidableEq, Repr

def handBack : HandBack → Trace (KernelLock σ)
  | .caller => setCurrentThread
  | .other growth => scheduleThread growth

/-- `sys_receive` and `sys_send`, which take the same locks. -/
inductive IpcCalls (σ : Type) where
  | noThread
  | invalidHandle (process : Nat)
  | exchange (process : Nat) (socket : σ) (handed : List HandBack) (switch : Option SwitchCalls)
  deriving DecidableEq, Repr

def ipcSyscall : IpcCalls σ → Trace (KernelLock σ)
  | .noThread => takeCurrentThread
  | .invalidHandle process => takeCurrentThread ++ getSockets process ++ setCurrentThread
  | .exchange process socket handed switch =>
    takeCurrentThread ++ getSockets process ++ locked (.socket socket) .write [] ++
      (handed.map handBack).flatten ++ (switch.map schedule).getD []

inductive ForkCalls where
  | noThread
  | noStack (tables frames : List Bool)
  | forked (tables frames : List Bool) (reported : Bool) (growth : Nat)
  deriving DecidableEq, Repr

/-- The read guard on the running thread lives to the end of the call. -/
def forkCurrentThread (calls : ForkCalls) : Trace (KernelLock σ) :=
  locked .runningThread .read
    (match calls with
    | .noThread => print
    | .noStack tables frames => allocateUserStack tables frames ++ print
    | .forked tables frames reported growth =>
      allocateUserStack tables frames ++ heapCalls 1 ++ uniqueId ++ heapCalls 1 ++ printDetails ++
        monitor reported ++ locked .waitQueue .write (heapCalls growth))

/-- The taken thread is dropped while `RUNNING_THREAD` is still locked. -/
def exitCurrentThread (taken : Option DropCalls) : Trace (KernelLock σ) :=
  locked .runningThread .write
    ((taken.map fun calls => locked .waitQueue .write [] ++ dropThread calls).getD [])

inductive OndemandCalls where
  | served
  | exhausted
  | unexpectedFlags
  deriving DecidableEq, Repr

/-- `allocate_missing_ondemand_frame` and the messages about its failure. -/
def allocateMissingOndemandFrame : OndemandCalls → Trace (KernelLock σ)
  | .served => allocateFrame true
  | .exhausted => allocateFrame false ++ print ++ serialPrint
  | .unexpectedFlags => print ++ print ++ serialPrint

/-- The two ways through `page_fault_handler`: a user write to a protected page,
and every other fault, with the thread that runs then. -/
inductive FaultCalls where
  | ondemand (calls : OndemandCalls)
  | fatal (running : Option DropCalls)
  deriving DecidableEq, Repr

/-- The read guard of the `if let` lives through its body, which calls
`exit_current_thread`. -/
def pageFaultHandler : FaultCalls → Trace (KernelLock σ)
  | .ondemand calls => times 4 serialPrint ++ allocateMissingOndemandFrame calls
  | .fatal running =>
    times 4 serialPrint ++ times 4 print ++ locked .runningThread .read
      ((running.map fun calls => serialPrint ++ exitCurrentThread (some calls)).getD [])

inductive Interrupt (σ : Type) where
  | timer (calls : SwitchCalls) (reported : Bool)
  | keyboard (keyboardSocket : σ) (calls : KeyboardCalls)
  deriving DecidableEq, Repr

def Interrupt.trace : Interrupt σ → Trace (KernelLock σ)
  | .timer calls reported => timerHandler calls reported
  | .keyboard keyboardSocket calls => keyboardHandlerInner keyboardSocket calls

/-- System calls by number, and page faults. -/
inductive Trap (σ : Type) where
  | fork (calls : ForkCalls)
  | exit (taken : Option DropCalls)
  | write (prints : Bool)
  | receive (calls : IpcCalls σ)
  | send (calls : IpcCalls σ)
  | yield (calls : SwitchCalls)
  | unknown
  | pageFault (calls : FaultCalls)
  deriving DecidableEq, Repr

def Trap.trace : Trap σ → Trace (KernelLock σ)
  | .fork calls => forkCurrentThread calls
  | .exit taken => exitCurrentThread taken
  | .write prints => if prints then print else []
  | .receive calls => ipcSyscall calls
  | .send calls => ipcSyscall calls
  | .yield calls => schedule calls
  | .unknown => print
  | .pageFault calls => pageFaultHandler calls

end Handlers

section Preemption

/-- The locks that are also taken with interrupts enabled. -/
def Preemptible : KernelLock σ → Prop
  | .allocator => True
  | .memoryLogger => True
  | .socket _ => True
  | _ => False

variable [DecidableEq σ]

theorem preemptive_section (lock : KernelLock σ) :
    Preemptive Preemptible (withoutInterrupts (locked lock .write [])) :=
  (preemptive_nil.shielded.locked lock .write).withoutInterrupts

theorem preemptive_heapCalls (count : Nat) : Preemptive Preemptible (heapCalls count : Trace (KernelLock σ)) :=
  (preemptive_nil.locked .write trivial).times count

theorem preemptive_serialPrint : Preemptive Preemptible (serialPrint : Trace (KernelLock σ)) :=
  preemptive_section .serial1

theorem preemptive_print : Preemptive Preemptible (print : Trace (KernelLock σ)) :=
  preemptive_section .writer

theorem preemptive_uniqueId : Preemptive Preemptible (uniqueId : Trace (KernelLock σ)) :=
  preemptive_section .counter

theorem preemptive_scheduleThread (growth : Nat) :
    Preemptive Preemptible (scheduleThread growth : Trace (KernelLock σ)) :=
  ((preemptive_heapCalls growth).shielded.locked .waitQueue .write).withoutInterrupts

theorem preemptive_monitor (reported : Bool) :
    Preemptive Preemptible (monitor reported : Trace (KernelLock σ)) := by
  cases reported with
  | true => exact preemptive_serialPrint
  | false => exact preemptive_nil

theorem preemptive_printDetails : Preemptive Preemptible (printDetails : Trace (KernelLock σ)) :=
  preemptive_serialPrint.times 9

theorem preemptive_flatten {α : Type} {trace : α → Trace (KernelLock σ)}
    (each : ∀ item, Preemptive Preemptible (trace item)) (items : List α) :
    Preemptive Preemptible (items.map trace).flatten := by
  induction items with
  | nil => exact preemptive_nil
  | cons item items ih => exact (each item).append ih

theorem preemptive_getD {α : Type} {trace : α → Trace (KernelLock σ)}
    (each : ∀ item, Preemptive Preemptible (trace item)) (item : Option α) :
    Preemptive Preemptible ((item.map trace).getD []) := by
  cases item with
  | none => exact preemptive_nil
  | some item => exact each item

theorem preemptive_allocateFrames (found : List Bool) :
    Preemptive Preemptible (allocateFrames found : Trace (KernelLock σ)) := by
  apply preemptive_flatten
  intro found
  cases found with
  | true => exact preemptive_serialPrint.locked .write trivial
  | false => exact preemptive_serialPrint

theorem preemptive_deallocateFrames (inBounds : List Bool) :
    Preemptive Preemptible (deallocateFrames inBounds : Trace (KernelLock σ)) := by
  apply preemptive_flatten
  intro inBounds
  refine Preemptive.append ?_ (preemptive_serialPrint.locked .write trivial)
  cases inBounds with
  | true => exact preemptive_nil
  | false => exact preemptive_serialPrint

theorem preemptive_dropThread (calls : DropCalls) :
    Preemptive Preemptible (dropThread calls : Trace (KernelLock σ)) := by
  have process (given : List Bool × Nat) :
      Preemptive Preemptible (dropProcess given.1 given.2 : Trace (KernelLock σ)) :=
    ((preemptive_deallocateFrames _).append preemptive_print).append (preemptive_heapCalls _)
  exact (((((preemptive_deallocateFrames _).append (preemptive_monitor _)).append
    preemptive_print).append preemptive_serialPrint).append (preemptive_getD process _)).append
      (preemptive_heapCalls 2)

theorem preemptive_spawnKernelThread (objects growth emptied : Nat) (reported : Bool) :
    Preemptive Preemptible (spawnKernelThread objects growth emptied reported : Trace (KernelLock σ)) :=
  ((((((preemptive_heapCalls 1).append preemptive_uniqueId).append (preemptive_heapCalls _)).append
    (preemptive_monitor _)).append preemptive_printDetails).append
      (preemptive_scheduleThread _)).append (preemptive_heapCalls _)

theorem preemptive_allocateUserStack (tables frames : List Bool) :
    Preemptive Preemptible (allocateUserStack tables frames : Trace (KernelLock σ)) :=
  ((preemptive_allocateFrames _).append preemptive_uniqueId).append (preemptive_allocateFrames _)

theorem preemptive_initialiseThread (calls : InitialiseCalls) :
    Preemptive Preemptible (initialiseThread calls : Trace (KernelLock σ)) := by
  have begins (tables frames : List Bool) : Preemptive Preemptible
      (uniqueId ++ heapCalls 1 ++ allocateUserStack tables frames : Trace (KernelLock σ)) :=
    (preemptive_uniqueId.append (preemptive_heapCalls 1)).append (preemptive_allocateUserStack _ _)
  cases calls with
  | failed tables frames dropped => exact (begins _ _).append (preemptive_heapCalls _)
  | completed tables frames objects growth emptied =>
    exact (((((((begins _ _).append preemptive_print).append preemptive_serialPrint).append
      (preemptive_heapCalls _)).append (preemptive_monitor true)).append
        preemptive_printDetails).append (preemptive_scheduleThread _)).append (preemptive_heapCalls _)

theorem preemptive_spawnUserThread (frames : List Bool) (initialise : Option InitialiseCalls) :
    Preemptive Preemptible (spawnUserThread frames initialise : Trace (KernelLock σ)) :=
  (preemptive_allocateFrames _).append (preemptive_getD preemptive_initialiseThread _)

theorem preemptive_sendId (idSocket : σ) (dropped : Option DropCalls) :
    Preemptive Preemptible (sendId idSocket dropped) :=
  (preemptive_getD preemptive_dropThread _).locked .write trivial

theorem preemptive_kernelThreadMain (idSocket : σ) (calls : MainCalls) :
    Preemptive Preemptible (kernelThreadMain idSocket calls) := by
  refine Preemptive.append ?_ ?_
  · exact (((preemptive_heapCalls _).append ((preemptive_heapCalls 2).append
      (preemptive_spawnKernelThread _ _ _ _))).append (preemptive_heapCalls 1)).append
        (preemptive_spawnUserThread _ _)
  · split
    · exact preemptive_sendId _ _
    · exact preemptive_print

/-- With interrupts enabled the kernel holds heap, logger and socket locks only. -/
theorem Operation.preemptive (operation : Operation σ) : Preemptive Preemptible operation.trace := by
  cases operation with
  | heap => exact preemptive_heapCalls _
  | print => exact preemptive_print
  | serialPrint => exact preemptive_serialPrint
  | uniqueId => exact preemptive_uniqueId
  | scheduleThread => exact preemptive_scheduleThread _
  | allocateFrames => exact preemptive_allocateFrames _
  | deallocateFrames => exact preemptive_deallocateFrames _
  | spawnKernelThread => exact preemptive_spawnKernelThread _ _ _ _
  | spawnUserThread => exact preemptive_spawnUserThread _ _
  | sendId => exact preemptive_sendId _ _
  | kernelThreadMain => exact preemptive_kernelThreadMain _ _

end Preemption

section Runs

open Transition

/-- What happens on the processor, in the kernel's own terms. -/
inductive Activity (σ : Type) where
  | start (operation : Operation σ)
  | advance
  | interrupt (cause : Interrupt σ) (next : Option Nat)
  | trap (cause : Trap σ) (next : Option Nat)
  deriving DecidableEq, Repr

def Activity.event : Activity σ → Event (KernelLock σ)
  | .start operation => .start operation.trace
  | .advance => .advance
  | .interrupt cause next => .interrupt cause.trace next
  | .trap cause next => .trap cause.trace next

variable [DecidableEq σ] {before after : Machine (KernelLock σ)}

def Step (before : Machine (KernelLock σ)) (activity : Activity σ) (after : Machine (KernelLock σ)) : Prop :=
  Machine.Step before activity.event after

theorem Activity.admissible (activity : Activity σ) : Machine.Admissible Preemptible activity.event := by
  cases activity with
  | start operation => exact operation.preemptive
  | advance | interrupt | trap => trivial

theorem orderly_of_run {activities : List (Activity σ)} (run : Run Step {} activities before) :
    before.Orderly Preemptible := by
  apply run.invariant (Machine.orderly_initial Preemptible)
  intro before activity after orderly step
  exact orderly.step activity.admissible step

/-- However interrupts arrive, `WAIT_QUEUE`, `RUNNING_THREAD`, `COUNTER`, `WRITER`
and `SERIAL1` are never stranded. -/
theorem stranded_lock_preemptible {activities : List (Activity σ)} (run : Run Step {} activities before)
    {activity : Activity σ} (step : Step before activity after) {lock : KernelLock σ}
    (strands : before.Strands activity.event.handler lock) : Preemptible lock :=
  (orderly_of_run run).strands step strands

/-- No handler asks for the lock of a preempted thread, in every run whose
interrupts find the running thread outside heap, logger and socket sections. -/
theorem careful_preemption_strands_nothing {activities : List (Activity σ)}
    (run : Run (fun before activity after => before.Careful Preemptible activity.event ∧
      Step before activity after) {} activities before)
    (activity : Activity σ) (careful : before.Careful Preemptible activity.event)
    (step : Step before activity after) (lock : KernelLock σ) :
    ¬ before.Strands activity.event.handler lock := by
  have settled : before.Orderly Preemptible ∧ before.Settled := by
    apply run.invariant ⟨Machine.orderly_initial Preemptible, fun _ _ => rfl⟩
    rintro before activity after ⟨orderly, settled⟩ ⟨careful, step⟩
    exact ⟨orderly.step activity.admissible step, settled.step orderly careful step⟩
  exact settled.2.strands settled.1 careful step lock

/-- The tick that switches to a thread when nobody ran before. -/
private def firstTick : Interrupt Unit := .timer ⟨none, 0, true⟩ false

/-- The tick that preempts `kernel_thread_main`. -/
private def preemptingTick : Interrupt Unit := .timer ⟨some (false, false), 0, true⟩ true

/-- `sys_receive` on the id socket, which blocks the caller. -/
private def receiveId : Trap Unit := .receive (.exchange 1 () [] (some ⟨none, 0, true⟩))

private def started : Machine (KernelLock Unit) :=
  ({ running := some 1 } : Machine (KernelLock Unit)).setThread 1 { code := sendId () none }

private def sending : Machine (KernelLock Unit) :=
  started.setThread 1
    { guards := [(.socket (), .write)], code := [.release (.socket ()) .write] }

private def sent : Machine (KernelLock Unit) := sending.setThread 1 {}

private theorem run_sending :
    Run (fun before activity after => before.Careful Preemptible activity.event ∧
      Step before activity after) {} [.interrupt firstTick (some 1), .start (.sendId () none), .advance]
      sending := by
  have nobody : ∀ thread, ({} : Machine (KernelLock Unit)).running ≠ some thread := fun _ => nofun
  have tick : Step {} (.interrupt firstTick (some 1)) ({ running := some 1 } : Machine (KernelLock Unit)) := by
    refine Machine.Step.interrupt ?_ _ _
    exact fun thread running => absurd running (nobody thread)
  have start : Step ({ running := some 1 } : Machine (KernelLock Unit)) (.start (.sendId () none)) started :=
    Machine.Step.start 1 rfl rfl _
  have acquire : Step started .advance sending := by
    refine Machine.Step.advance 1 rfl (.acquire (KernelLock.socket ()) .write) _ rfl ?_
    intro lock mode _ owner
    have free : (started.threads owner).guards = [] := by
      by_cases same : owner = 1
      · rw [same]
        rfl
      · rw [started, Machine.threads_setThread_of_ne _ same]
    rw [free]
    rintro ⟨guard, alive, _⟩
    exact absurd alive List.not_mem_nil
  exact .cons ⟨fun thread running => absurd running (nobody thread), tick⟩
    (.cons ⟨trivial, start⟩ (.cons ⟨trivial, acquire⟩ .nil))

/-- The tick comes after the message statement: nothing is stranded. -/
theorem careful_preemption_strands_nothing_after_send :
    (KernelLock.socket (), Mode.write) ∈ requests receiveId.trace ∧
      ¬ ({ sent with running := some 2 } : Machine (KernelLock Unit)).Strands receiveId.trace
        (.socket ()) := by
  have release : Step sending .advance sent := by
    refine Machine.Step.advance 1 rfl (.release (KernelLock.socket ()) .write) _ rfl ?_
    exact fun _ _ => nofun
  have tick : Step sent (.interrupt preemptingTick (some 2)) { sent with running := some 2 } := by
    refine Machine.Step.interrupt ?_ _ _
    rintro thread ⟨⟩
    rfl
  have calm : sent.Careful Preemptible (Activity.interrupt preemptingTick (some 2)).event := by
    rintro thread ⟨⟩ guard alive
    exact absurd alive List.not_mem_nil
  have receive : Step { sent with running := some 2 } (.trap receiveId (some 1))
      { sent with running := some 1 } := Machine.Step.trap 2 rfl rfl _ _
  have released : sending.Careful Preemptible (Activity.advance : Activity Unit).event ∧
      Step sending .advance sent := ⟨trivial, release⟩
  have switched : sent.Careful Preemptible (Activity.interrupt preemptingTick (some 2)).event ∧
      Step sent (.interrupt preemptingTick (some 2)) { sent with running := some 2 } := ⟨calm, tick⟩
  refine ⟨by decide, ?_⟩
  exact careful_preemption_strands_nothing (.snoc (.snoc run_sending released) switched)
    (.trap receiveId (some 1)) trivial receive (.socket ())

/-- The tick comes inside `ID_SOCKET.write().send_message(..)`: the user thread's
receive asks for the lock that the preempted `kernel_thread_main` holds. -/
theorem tick_in_send_strands_socket :
    ∃ before after : Machine (KernelLock Unit),
      Run Step {} [.interrupt firstTick (some 1), .start (.sendId () none), .advance,
        .interrupt preemptingTick (some 2)] before ∧
      Step before (.trap receiveId (some 1)) after ∧
      before.Strands receiveId.trace (.socket ()) := by
  have tick : Step sending (.interrupt preemptingTick (some 2)) { sending with running := some 2 } := by
    refine Machine.Step.interrupt ?_ _ _
    rintro thread ⟨⟩
    rfl
  have receive : Step { sending with running := some 2 } (.trap receiveId (some 1))
      { sending with running := some 1 } := Machine.Step.trap 2 rfl rfl _ _
  refine ⟨_, _, .snoc (run_sending.mono And.right) tick, receive, .write, by decide, 1, ?_⟩
  decide

end Runs

end LockUse

end Zephyr
