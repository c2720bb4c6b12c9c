import Zephyr.Asm.Stack
import Zephyr.Proc.Kernel

/-! The hand-written assembly: `handle_syscall` of `syscall.rs`, `launch_thread`
and the `interrupt_wrap!` wrapper of `boot/interrupts.rs`. Each program is cut at
the `call` of its Rust handler, which by the calling convention returns with the
stack pointer it was given. -/

namespace Zephyr

open Asm

namespace ISF

/-- The frame as it lies in memory, from its address upwards. -/
def slots (frame : ISF) : List UInt64 :=
  [frame.r15, frame.r14, frame.r13, frame.r12, frame.r11, frame.r10, frame.r9, frame.r8, frame.rbp,
    frame.rsi, frame.rdi, frame.rdx, frame.rcx, frame.rbx, frame.rax, frame.instructionPointer,
    frame.codeSegment, frame.flags, frame.stackPointer, frame.stackSegment]

/-- The register file the frame describes. -/
def reg (frame : ISF) : Reg → UInt64
  | .rax => frame.rax
  | .rbx => frame.rbx
  | .rcx => frame.rcx
  | .rdx => frame.rdx
  | .rdi => frame.rdi
  | .rsi => frame.rsi
  | .rbp => frame.rbp
  | .rsp => frame.stackPointer
  | .r8 => frame.r8
  | .r9 => frame.r9
  | .r10 => frame.r10
  | .r11 => frame.r11
  | .r12 => frame.r12
  | .r13 => frame.r13
  | .r14 => frame.r14
  | .r15 => frame.r15

/-- The processor runs with the registers, instruction pointer and flags of the
frame. -/
structure Loaded (frame : ISF) (cpu : Cpu) : Prop where
  reg : cpu.reg = frame.reg
  rip : cpu.rip = frame.instructionPointer
  flags : cpu.flags = frame.flags

end ISF

/-- Offsets into the TSS, whose interrupt stack table starts at 0x24. -/
def tssTimer : UInt64 := 0x24 + 1 * 8
def tssTemp : UInt64 := 0x24 + 2 * 8

def syscallKernelStackOffset : UInt64 := 1024

/-- `IA32_FMASK`, set in `syscall::init`: interrupts and traps are off inside a
system call. -/
def syscallMask : UInt64 := 0x300

def userSelectors : Selectors := ⟨userSegments.1, userSegments.2⟩

def pushOrder : List Reg :=
  [.rax, .rbx, .rcx, .rdx, .rdi, .rsi, .rbp, .r8, .r9, .r10, .r11, .r12, .r13, .r14, .r15]

def popOrder : List Reg :=
  [.r15, .r14, .r13, .r12, .r11, .r10, .r9, .r8, .rbp, .rsi, .rdi, .rdx, .rcx, .rbx, .rax]

/-- The exception stack frame of `handle_syscall`: two slots are only reserved. -/
def syscallFrameCode : List Instr :=
  [.swapgs, .storeGs tssTemp .rsp, .loadGs .rsp tssTimer, .sub .rsp syscallKernelStackOffset,
    .sub .rsp 8, .pushGs tssTemp, .swapgs, .push .r11, .sub .rsp 8, .push .rcx]

/-- The arguments of `dispatch_syscall`, in the registers of the C convention. -/
def syscallArgumentCode : List Instr :=
  [.mov .r8 .rdx, .mov .rcx .rsi, .mov .rdx .rdi, .mov .rsi .rax, .mov .rdi .rsp]

def handleSyscallEntry : List Instr :=
  syscallFrameCode ++ pushOrder.map .push ++ syscallArgumentCode

def handleSyscallExit : Code :=
  .block (popOrder.map .pop ++ [.add .rsp 24, .pop .rsp])
    (.jl .rcx (UInt64.ofNat userCodeStart)
      (.block [.push .r11, .popf] (.jmp .rcx))
      .sysretq)

def restoreContext : Code := .block (popOrder.map .pop ++ [.sti]) .iretq

def launchThread : Code := .block [.mov .rsp .rdi] restoreContext

def interruptWrapEntry : List Instr := .cli :: pushOrder.map .push ++ [.mov .rdi .rsp]

def interruptWrapExit : Code :=
  .je .rax 0 restoreContext (.block [.mov .rsp .rax] restoreContext)

namespace ISF

/-- What the processor popped or pushed itself, above the registers. -/
def tail (frame : ISF) : List UInt64 :=
  [frame.instructionPointer, frame.codeSegment, frame.flags, frame.stackPointer, frame.stackSegment]

theorem slots_eq (frame : ISF) : frame.slots = popOrder.map frame.reg ++ frame.tail := rfl

end ISF

section Programs

variable (status : UInt64 → UInt64 → UInt64 → UInt64) {cpu : Cpu} {frame : ISF}

/-- Every restoring sequence begins by popping the fifteen registers. -/
theorem run_popOrder (held : StoredAt cpu.memory (cpu.reg .rsp) frame.slots) :
    run status (popOrder.map .pop) cpu =
      { cpu with reg := Function.update frame.reg .rsp (cpu.reg .rsp + 120) } := by
  rw [ISF.slots_eq] at held
  rw [run_pops (by decide) held.left]
  congr 1
  funext register
  cases register <;> rfl

theorem storedAt_tail (held : StoredAt cpu.memory (cpu.reg .rsp) frame.slots) :
    cpu.memory (cpu.reg .rsp + 120) = frame.instructionPointer ∧
      cpu.memory (cpu.reg .rsp + 120 + 8) = frame.codeSegment ∧
      cpu.memory (cpu.reg .rsp + 120 + 16) = frame.flags ∧
      cpu.memory (cpu.reg .rsp + 120 + 24) = frame.stackPointer ∧
      cpu.memory (cpu.reg .rsp + 120 + 32) = frame.stackSegment := by
  rw [ISF.slots_eq] at held
  obtain ⟨rip, code, flags, pointer, stack, _⟩ := held.right
  simp only [UInt64.add_assoc] at code flags pointer stack ⊢
  exact ⟨rip, code, flags, pointer, stack⟩

theorem execute_restoreContext (held : StoredAt cpu.memory (cpu.reg .rsp) frame.slots)
    (valid : ValidFlags frame.flags) (canonical : Canonical frame.instructionPointer) :
    ∃ after, execute status userSelectors restoreContext cpu = some after ∧ frame.Loaded after ∧
      after.cs = frame.codeSegment ∧ after.ss = frame.stackSegment := by
  obtain ⟨rip, code, flags, pointer, stack⟩ := storedAt_tail held
  have loaded : loadFlags iretMask frame.flags = frame.flags := loadFlags_of_valid valid (by decide)
  rw [restoreContext, execute, run_append, run_popOrder status held]
  simp only [run, List.foldl_cons, List.foldl_nil, step, execute, Cpu.setReg, Cpu.goto,
    Function.update_self, rip, code, flags, pointer, stack, if_pos canonical, Option.some.injEq,
    exists_eq_left', and_true]
  refine ⟨?_, rfl, loaded⟩
  funext register
  cases register <;> rfl

theorem execute_launchThread (held : StoredAt cpu.memory (cpu.reg .rdi) frame.slots)
    (valid : ValidFlags frame.flags) (canonical : Canonical frame.instructionPointer) :
    ∃ after, execute status userSelectors launchThread cpu = some after ∧ frame.Loaded after ∧
      after.cs = frame.codeSegment ∧ after.ss = frame.stackSegment := by
  have switched : StoredAt (cpu.setReg .rsp (cpu.reg .rdi)).memory
      ((cpu.setReg .rsp (cpu.reg .rdi)).reg .rsp) frame.slots := held
  rw [launchThread, execute]
  exact execute_restoreContext status switched valid canonical

/-- The wrapper continues the thread whose frame its handler returned, if it
returned one. -/
theorem execute_interruptWrapExit (returned : cpu.reg .rax ≠ 0)
    (held : StoredAt cpu.memory (cpu.reg .rax) frame.slots)
    (valid : ValidFlags frame.flags) (canonical : Canonical frame.instructionPointer) :
    ∃ after, execute status userSelectors interruptWrapExit cpu = some after ∧ frame.Loaded after ∧
      after.cs = frame.codeSegment ∧ after.ss = frame.stackSegment := by
  have switched : StoredAt (cpu.setReg .rsp (cpu.reg .rax)).memory
      ((cpu.setReg .rsp (cpu.reg .rax)).reg .rsp) frame.slots := held
  rw [interruptWrapExit, execute, if_neg returned]
  exact execute_restoreContext status switched valid canonical

/-- The caller is told apart by the sign of its address relative to
`USER_CODE_START`. -/
def TakesSysret (rip : UInt64) : Prop := ¬ rip.toBitVec.slt (UInt64.ofNat userCodeStart).toBitVec

/-- A caller at or above `USER_CODE_START` gets its flags and segments from
`sysretq`. -/
theorem execute_sysretq (regs : cpu.reg = frame.reg) (address : frame.rcx = frame.instructionPointer)
    (copy : frame.r11 = frame.flags) (valid : ValidFlags frame.flags)
    (canonical : Canonical frame.instructionPointer) :
    execute status userSelectors .sysretq cpu = some { cpu with
      rip := frame.instructionPointer, flags := frame.flags, cs := userSegments.1, ss := userSegments.2 } := by
  have saved : cpu.reg .rcx = frame.instructionPointer := (congrFun regs .rcx).trans address
  have flags : cpu.reg .r11 = frame.flags := (congrFun regs .r11).trans copy
  rw [execute, saved, flags, loadFlags_of_valid valid (by decide), Cpu.goto, if_pos canonical]
  rfl

/-- A kernel caller gets its flags over its own stack, whose pointer comes back. -/
theorem execute_kernelReturn (regs : cpu.reg = frame.reg) (address : frame.rcx = frame.instructionPointer)
    (copy : frame.r11 = frame.flags) (valid : ValidFlags frame.flags)
    (canonical : Canonical frame.instructionPointer) :
    execute status userSelectors (.block [.push .r11, .popf] (.jmp .rcx)) cpu = some { cpu with
      rip := frame.instructionPointer
      flags := frame.flags
      memory := Function.update cpu.memory (cpu.reg .rsp - 8) (cpu.reg .r11) } := by
  have saved : cpu.reg .rcx = frame.instructionPointer := (congrFun regs .rcx).trans address
  have flags : cpu.reg .r11 = frame.flags := (congrFun regs .r11).trans copy
  have loaded : loadFlags popfMask frame.flags = frame.flags := valid
  simp only [execute, run, List.foldl_cons, List.foldl_nil, step, Cpu.push, Cpu.setReg, Cpu.store,
    Function.update_self, Function.update_idem, UInt64.sub_add_cancel, Function.update_eq_self, flags,
    loaded, saved, Cpu.goto, if_pos canonical]

/-- The exit of `handle_syscall` continues the caller from the frame, as long as
its copies of the return address and the flags agree. -/
theorem execute_handleSyscallExit (held : StoredAt cpu.memory (cpu.reg .rsp) frame.slots)
    (address : frame.rcx = frame.instructionPointer) (copy : frame.r11 = frame.flags)
    (valid : ValidFlags frame.flags) (canonical : Canonical frame.instructionPointer) :
    ∃ after, execute status userSelectors handleSyscallExit cpu = some after ∧ frame.Loaded after ∧
      (TakesSysret frame.instructionPointer → after.cs = userSegments.1 ∧ after.ss = userSegments.2) ∧
      (¬ TakesSysret frame.instructionPointer → after.cs = cpu.cs ∧ after.ss = cpu.ss) := by
  obtain ⟨_, _, _, pointer, _⟩ := storedAt_tail held
  have popped : run status [.add .rsp 24, .pop .rsp]
      { cpu with reg := Function.update frame.reg .rsp (cpu.reg .rsp + 120) } =
      { cpu with reg := frame.reg, flags := status cpu.flags (cpu.reg .rsp + 120) 24 } := by
    simp only [run, List.foldl_cons, List.foldl_nil, step, Cpu.setReg, Cpu.pop, Function.update_self,
      pointer]
    congr 1
    funext register
    cases register <;> rfl
  rw [handleSyscallExit, execute, run_append, run_popOrder status held, popped, execute]
  by_cases user : TakesSysret frame.instructionPointer
  · rw [if_neg (by rw [← address] at user; exact user)]
    refine ⟨_, execute_sysretq status rfl address copy valid canonical, ⟨rfl, rfl, rfl⟩,
      fun _ => ⟨rfl, rfl⟩, fun kernel => absurd user kernel⟩
  · rw [if_pos (by rw [← address] at user; exact not_not.mp user)]
    refine ⟨_, execute_kernelReturn status rfl address copy valid canonical, ⟨rfl, rfl, rfl⟩,
      fun taken => absurd taken user, fun _ => ⟨rfl, rfl⟩⟩

/-- The frame of a system call. The two segment slots hold whatever the stack
held before. -/
def syscallFrame (cpu : Cpu) (codeSegment stackSegment : UInt64) : ISF where
  r15 := cpu.reg .r15
  r14 := cpu.reg .r14
  r13 := cpu.reg .r13
  r12 := cpu.reg .r12
  r11 := cpu.flags
  r10 := cpu.reg .r10
  r9 := cpu.reg .r9
  r8 := cpu.reg .r8
  rbp := cpu.reg .rbp
  rsi := cpu.reg .rsi
  rdi := cpu.reg .rdi
  rdx := cpu.reg .rdx
  rcx := cpu.rip
  rbx := cpu.reg .rbx
  rax := cpu.reg .rax
  instructionPointer := cpu.rip
  codeSegment := codeSegment
  flags := cpu.flags
  stackPointer := cpu.reg .rsp
  stackSegment := stackSegment

/-- The frame lies below the part of the interrupt stack that the timer gate
uses. -/
def syscallTop (cpu : Cpu) : UInt64 :=
  cpu.memory (cpu.kernelGsBase + tssTimer) - syscallKernelStackOffset

def syscallContext (cpu : Cpu) : UInt64 := syscallTop cpu - 160

theorem building_syscallFrameCode (handler : UInt64) {start : Cpu}
    (called : cpu.syscall syscallMask kernelSegments.1 handler = start) :
    ∃ codeSegment stackSegment, Building start (syscallTop cpu)
      (syscallFrame cpu codeSegment stackSegment).tail (run status syscallFrameCode start) := by
  have timer : Function.update cpu.memory (cpu.kernelGsBase + tssTemp) (cpu.reg .rsp)
      (cpu.kernelGsBase + tssTimer) = cpu.memory (cpu.kernelGsBase + tssTimer) := by
    apply Function.update_of_ne
    intro same
    have offsets : tssTimer = tssTemp := by grind
    exact absurd offsets (by decide)
  generalize switched : run status [.swapgs, .storeGs tssTemp .rsp, .loadGs .rsp tssTimer,
    .sub .rsp syscallKernelStackOffset] start = stack
  have empty : Building start (syscallTop cpu) [] stack := by
    refine ⟨trivial, ?_, ?_⟩
    · subst switched called
      simpa [run, step, Cpu.setReg, Cpu.store, Cpu.syscall, syscallTop] using timer
    · intro register other
      subst switched
      simp [run, step, Cpu.setReg, Cpu.store, Function.update_of_ne other]
  have saved : stack.memory (stack.gsBase + tssTemp) = cpu.reg .rsp := by
    subst switched called
    simp [run, step, Cpu.setReg, Cpu.store, Cpu.syscall]
  have address : start.reg .rcx = cpu.rip := by
    subst called
    rfl
  have flags : start.reg .r11 = cpu.flags := by
    subst called
    rfl
  obtain ⟨stackSegment, reserved⟩ := empty.reserve status
  have pushed := reserved.push (by simp) (cpu.reg .rsp)
  rw [← saved] at pushed
  have swapped : Building start (syscallTop cpu) [stack.memory (stack.gsBase + tssTemp), stackSegment]
      (run status [.sub .rsp 8, .pushGs tssTemp, .swapgs] stack) :=
    ⟨pushed.held, pushed.place, pushed.kept⟩
  obtain ⟨codeSegment, frame⟩ := (swapped.pushReg (by simp) status .r11 (by decide)).reserve status
  have complete := frame.pushReg (by simp) status .rcx (by decide)
  rw [address, flags, saved, ← switched] at complete
  exact ⟨codeSegment, stackSegment, complete⟩

/-- `handle_syscall` up to its `call`: the frame is built and handed to
`dispatch_syscall` together with the caller's arguments. -/
theorem run_handleSyscallEntry (handler : UInt64) {start after : Cpu}
    (called : cpu.syscall syscallMask kernelSegments.1 handler = start)
    (ran : run status handleSyscallEntry start = after) :
    (∃ codeSegment stackSegment,
      StoredAt after.memory (after.reg .rsp) (syscallFrame cpu codeSegment stackSegment).slots) ∧
    after.reg .rsp = syscallContext cpu ∧ after.reg .rdi = syscallContext cpu ∧
    after.reg .rsi = cpu.reg .rax ∧ after.reg .rdx = cpu.reg .rdi ∧ after.reg .rcx = cpu.reg .rsi ∧
    after.reg .r8 = cpu.reg .rdx := by
  obtain ⟨codeSegment, stackSegment, tail⟩ := building_syscallFrameCode status handler called
  have whole := tail.pushes status pushOrder (by decide) (by simp [pushOrder, ISF.tail])
  rw [handleSyscallEntry, run_append, run_append] at ran
  generalize run status (pushOrder.map .push) (run status syscallFrameCode start) = pushed at whole ran
  have registers : (pushOrder.map start.reg).reverse =
      popOrder.map (syscallFrame cpu codeSegment stackSegment).reg := by
    subst called
    rfl
  rw [registers] at whole
  have place : pushed.reg .rsp = syscallContext cpu := whole.place
  subst ran called
  exact ⟨⟨codeSegment, stackSegment, whole.held⟩, place, place, whole.kept .rax (by decide),
    whole.kept .rdi (by decide), whole.kept .rsi (by decide), whole.kept .rdx (by decide)⟩

end Programs

end Zephyr
