import Mathlib.Algebra.Group.Nat.Defs
import Mathlib.Logic.Function.Basic
import Mathlib.Data.List.Basic

/-! The part of x86-64 that hand-written entry and exit code uses: registers, a
quadword memory and the privileged ways to leave. Memory is addressed by the
first byte of a quadword; the code here only touches quadwords whose addresses
differ by multiples of eight. -/

namespace Zephyr.Asm

inductive Reg where
  | rax | rbx | rcx | rdx | rdi | rsi | rbp | rsp
  | r8 | r9 | r10 | r11 | r12 | r13 | r14 | r15
  deriving DecidableEq, Repr

/-- `rip` is the address control goes to next; inside a program it is not
tracked. -/
structure Cpu where
  reg : Reg → UInt64
  rip : UInt64
  flags : UInt64
  cs : UInt64
  ss : UInt64
  gsBase : UInt64
  kernelGsBase : UInt64
  memory : UInt64 → UInt64

inductive Instr where
  | push (source : Reg)
  | pushGs (offset : UInt64)
  | pop (target : Reg)
  | mov (target source : Reg)
  | loadGs (target : Reg) (offset : UInt64)
  | storeGs (offset : UInt64) (source : Reg)
  | add (target : Reg) (value : UInt64)
  | sub (target : Reg) (value : UInt64)
  | swapgs
  | cli
  | sti
  | popf

/-- A program ends by handing control on; a comparison and the branch on it are
one construct. -/
inductive Code where
  | block (instrs : List Instr) (rest : Code)
  | jl (left : Reg) (right : UInt64) (taken otherwise : Code)
  | je (left : Reg) (right : UInt64) (taken otherwise : Code)
  | jmp (target : Reg)
  | sysretq
  | iretq

def interruptFlag : UInt64 := 0x200

/-- What `popf` loads in ring 0. The virtual-8086 bits, which it leaves alone,
are clear. -/
def popfMask : UInt64 := 0x247FD7
def sysretMask : UInt64 := 0x3C7FD7
def iretMask : UInt64 := 0x3D7FD7

def loadFlags (mask value : UInt64) : UInt64 := value &&& mask ||| 2

/-- RFLAGS of a running program: the reserved bits have their fixed values, and
the resume and virtual-8086 bits are clear. -/
def ValidFlags (flags : UInt64) : Prop := loadFlags popfMask flags = flags

instance (flags : UInt64) : Decidable (ValidFlags flags) := inferInstanceAs (Decidable (_ = _))

theorem loadFlags_of_valid {flags mask : UInt64} (valid : ValidFlags flags)
    (wider : popfMask &&& mask = popfMask) : loadFlags mask flags = flags := by
  unfold ValidFlags loadFlags at *
  rw [← valid]
  apply UInt64.eq_of_toBitVec_eq
  apply BitVec.eq_of_getLsbD_eq
  intro place small
  have bit := congrArg (fun word : UInt64 => word.toBitVec.getLsbD place) wider
  simp at bit ⊢
  grind

/-- Bits 47 to 63 agree. A transfer of control to any other address faults. -/
def Canonical (address : UInt64) : Prop := address < 0x800000000000 ∨ 0xFFFF800000000000 ≤ address

instance (address : UInt64) : Decidable (Canonical address) := inferInstanceAs (Decidable (_ ∨ _))

namespace Cpu

def setReg (cpu : Cpu) (target : Reg) (value : UInt64) : Cpu :=
  { cpu with reg := Function.update cpu.reg target value }

def store (cpu : Cpu) (address value : UInt64) : Cpu :=
  { cpu with memory := Function.update cpu.memory address value }

def push (cpu : Cpu) (value : UInt64) : Cpu :=
  (cpu.store (cpu.reg .rsp - 8) value).setReg .rsp (cpu.reg .rsp - 8)

/-- The target is written last, which matters for `pop rsp`. -/
def pop (cpu : Cpu) (target : Reg) : Cpu :=
  (cpu.setReg .rsp (cpu.reg .rsp + 8)).setReg target (cpu.memory (cpu.reg .rsp))

/-- The `syscall` instruction; `rip` already points behind it. `mask` is
`IA32_FMASK`, `star` the selector of the kernel code segment and `target` the
handler. -/
def syscall (cpu : Cpu) (mask star target : UInt64) : Cpu :=
  { (cpu.setReg .rcx cpu.rip).setReg .r11 cpu.flags with
    rip := target, flags := cpu.flags &&& ~~~ mask, cs := star, ss := star + 8 }

/-- What the processor does on an interrupt: switch to the stack of the gate,
aligned, and push the interrupted state. -/
def interrupt (cpu : Cpu) (stack star target : UInt64) : Cpu :=
  let entered := cpu.setReg .rsp (stack &&& ~~~ 15)
  let saved := ((((entered.push cpu.ss).push (cpu.reg .rsp)).push cpu.flags).push cpu.cs).push cpu.rip
  { saved with
    rip := target
    flags := cpu.flags &&& ~~~ 0x34300
    cs := star
    ss := if cpu.cs = star then cpu.ss else 0 }

def goto (cpu : Cpu) (target : UInt64) : Option Cpu :=
  if Canonical target then some { cpu with rip := target } else none

end Cpu

section Execution

-- The status flags arithmetic leaves, from the old flags and the operands; no
-- result depends on them.
variable (status : UInt64 → UInt64 → UInt64 → UInt64)

def step (cpu : Cpu) : Instr → Cpu
  | .push source => cpu.push (cpu.reg source)
  | .pushGs offset => cpu.push (cpu.memory (cpu.gsBase + offset))
  | .pop target => cpu.pop target
  | .mov target source => cpu.setReg target (cpu.reg source)
  | .loadGs target offset => cpu.setReg target (cpu.memory (cpu.gsBase + offset))
  | .storeGs offset source => cpu.store (cpu.gsBase + offset) (cpu.reg source)
  | .add target value =>
    { cpu.setReg target (cpu.reg target + value) with flags := status cpu.flags (cpu.reg target) value }
  | .sub target value =>
    { cpu.setReg target (cpu.reg target - value) with flags := status cpu.flags (cpu.reg target) value }
  | .swapgs => { cpu with gsBase := cpu.kernelGsBase, kernelGsBase := cpu.gsBase }
  | .cli => { cpu with flags := cpu.flags &&& ~~~ interruptFlag }
  | .sti => { cpu with flags := cpu.flags ||| interruptFlag }
  | .popf =>
    { cpu.setReg .rsp (cpu.reg .rsp + 8) with flags := loadFlags popfMask (cpu.memory (cpu.reg .rsp)) }

def run (instrs : List Instr) (cpu : Cpu) : Cpu := instrs.foldl (step status) cpu

/-- Selectors `sysretq` loads, code and stack, from `IA32_STAR`. -/
structure Selectors where
  code : UInt64
  stack : UInt64

variable (user : Selectors)

/-- The state in which a program hands control on; `none` is a fault. -/
def execute : Code → Cpu → Option Cpu
  | .block instrs rest, cpu => execute rest (run status instrs cpu)
  | .jl left right taken otherwise, cpu =>
    if (cpu.reg left).toBitVec.slt right.toBitVec then execute taken cpu else execute otherwise cpu
  | .je left right taken otherwise, cpu =>
    if cpu.reg left = right then execute taken cpu else execute otherwise cpu
  | .jmp target, cpu => cpu.goto (cpu.reg target)
  | .sysretq, cpu =>
    { cpu with flags := loadFlags sysretMask (cpu.reg .r11), cs := user.code, ss := user.stack }.goto
      (cpu.reg .rcx)
  | .iretq, cpu =>
    let top := cpu.reg .rsp
    { cpu.setReg .rsp (cpu.memory (top + 24)) with
      cs := cpu.memory (top + 8)
      flags := loadFlags iretMask (cpu.memory (top + 16))
      ss := cpu.memory (top + 32) }.goto (cpu.memory top)

end Execution

end Zephyr.Asm
