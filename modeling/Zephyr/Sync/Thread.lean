/-! Threads and their saved CPU state: `boot/interrupts.rs` (`ISF`) and the
`Thread` object of `proc/process.rs`. The frame a thread's `context` pointer
designates lies inside the kernel stack the thread owns, so it travels with
the thread value. -/

namespace Zephyr

/-- The interrupt stack frame, in the field order of the `repr(C)` struct. -/
structure ISF where
  r15 : UInt64 := 0
  r14 : UInt64 := 0
  r13 : UInt64 := 0
  r12 : UInt64 := 0
  r11 : UInt64 := 0
  r10 : UInt64 := 0
  r9 : UInt64 := 0
  r8 : UInt64 := 0
  rbp : UInt64 := 0
  rsi : UInt64 := 0
  rdi : UInt64 := 0
  rdx : UInt64 := 0
  rcx : UInt64 := 0
  rbx : UInt64 := 0
  rax : UInt64 := 0
  instructionPointer : UInt64 := 0
  codeSegment : UInt64 := 0
  flags : UInt64 := 0
  stackPointer : UInt64 := 0
  stackSegment : UInt64 := 0
  deriving DecidableEq, Repr

inductive Message where
  | packet (data1 data2 data3 : UInt64)
  deriving DecidableEq, Repr

inductive ThreadType where
  | kernel
  | user
  deriving DecidableEq, Repr

/-- `process` names the shared `Arc<RwLock<Process>>`; `context` is the address
of the saved frame and `frame` the registers stored there. -/
structure Thread where
  threadId : Nat
  process : Nat
  kernelStackEnd : Nat
  context : Nat
  frame : ISF
  userStackEnd : Nat
  pageTablePhys : Nat
  threadType : ThreadType
  deriving DecidableEq, Repr

namespace Thread

def setContext (thread : Thread) (contextPtr : Nat) (frame : ISF) : Thread :=
  { thread with context := contextPtr, frame := frame }

def returnError (thread : Thread) (errorCode : UInt64) : Thread :=
  { thread with frame := { thread.frame with rax := errorCode } }

def returnMessage (thread : Thread) : Message → Thread
  | .packet data1 data2 data3 =>
    { thread with frame :=
        { thread.frame with rax := 0, rdi := data1, rsi := data2, rdx := data3 } }

/-- The packet a receiver reads back from its registers. -/
def packet (thread : Thread) : Message :=
  .packet thread.frame.rdi thread.frame.rsi thread.frame.rdx

variable (thread : Thread) (code : UInt64) (message : Message) (contextPtr : Nat) (frame : ISF)

@[simp] theorem setContext_threadId : (thread.setContext contextPtr frame).threadId = thread.threadId := rfl
@[simp] theorem returnError_threadId : (thread.returnError code).threadId = thread.threadId := rfl
@[simp] theorem returnError_rax : (thread.returnError code).frame.rax = code := rfl

@[simp] theorem returnMessage_threadId : (thread.returnMessage message).threadId = thread.threadId := by
  cases message; rfl

@[simp] theorem returnMessage_rax : (thread.returnMessage message).frame.rax = 0 := by
  cases message; rfl

@[simp] theorem returnMessage_packet : (thread.returnMessage message).packet = message := by
  cases message; rfl

end Thread

end Zephyr
