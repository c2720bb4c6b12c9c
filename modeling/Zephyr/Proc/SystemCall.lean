import Zephyr.Proc.Entry
import Zephyr.Proc.Idle
import Zephyr.Proc.InterruptStack

/-! A system call from its caller's side. The kernel writes at most a reply into
the frame it saved; whichever way the caller comes back, it finds its registers
as they were, but for that reply. -/

namespace Zephyr

open Transition Asm

/-- What a system call leaves in the frame of its caller. -/
inductive Reply where
  | silent
  | error (code : UInt64)
  | packet (message : Message)
  | forked (child : UInt64)

namespace Reply

def write : Reply → ISF → ISF
  | .silent, frame => frame
  | .error code, frame => { frame with rax := code }
  | .packet (.packet data1 data2 data3), frame =>
    { frame with rax := 0, rdi := data1, rsi := data2, rdx := data3 }
  | .forked child, frame => { frame with rax := 0, rdi := child }

/-- The same on the register file. -/
def registers : Reply → (Reg → UInt64) → Reg → UInt64
  | .silent, reg => reg
  | .error code, reg => Function.update reg .rax code
  | .packet (.packet data1 data2 data3), reg =>
    Function.update (Function.update (Function.update (Function.update reg .rax 0) .rdi data1) .rsi data2)
      .rdx data3
  | .forked child, reg => Function.update (Function.update reg .rax 0) .rdi child

/-- The replies to the system call of a number: only a call that receives is
given a packet, and only `fork` a child. -/
def Fits (number : Nat) : Reply → Prop
  | .silent => number ≠ 0 ∧ number ≠ 3 ∧ number ≠ 4 ∧ number ≠ 5
  | .error _ => number = 0 ∨ number = 3 ∨ number = 4 ∨ number = 5
  | .packet _ => number = 3 ∨ number = 5
  | .forked _ => number = 0

theorem write_reg (reply : Reply) (frame : ISF) : (reply.write frame).reg = reply.registers frame.reg := by
  funext register
  cases reply with
  | silent => rfl
  | error code => cases register <;> rfl
  | packet message => cases message; cases register <;> rfl
  | forked child => cases register <;> rfl

theorem write_kept (reply : Reply) (frame : ISF) :
    (reply.write frame).instructionPointer = frame.instructionPointer ∧
      (reply.write frame).flags = frame.flags ∧ (reply.write frame).rcx = frame.rcx ∧
      (reply.write frame).r11 = frame.r11 := by
  rcases reply with _ | code | ⟨data1, data2, data3⟩ | child <;> exact ⟨rfl, rfl, rfl, rfl⟩

end Reply

namespace Kernel

variable {σ : Type} {kernel : Kernel σ} {caller : Thread} {context : Context} {number : Nat}

/-- The caller of a system call, by where it is: parked with the frame that was
saved, and ready with a reply in it. -/
def callRoles (id : Nat) (saved : Context) (number : Nat) : Roles where
  ready thread := thread.threadId = id → thread.context = saved.addr ∧
    ∃ reply : Reply, reply.Fits number ∧ thread.frame = reply.write saved.frame
  sends thread := thread.threadId = id → number = 4 ∧ thread.context = saved.addr ∧
    thread.frame = saved.frame
  receives thread := thread.threadId = id → (number = 3 ∨ number = 5) ∧ thread.context = saved.addr ∧
    thread.frame = saved.frame

theorem answered_callRoles (id : Nat) (saved : Context) (number : Nat) :
    (callRoles id saved number).Answered := by
  refine ⟨?_, ?_, ?_⟩
  · intro thread code sends own
    obtain ⟨send, context, frame⟩ := sends own
    exact ⟨context, .error code, .inr (.inr (.inl send)), by rw [← frame]; rfl⟩
  · intro thread code receives own
    obtain ⟨receive, context, frame⟩ := receives own
    refine ⟨context, .error code, ?_, by rw [← frame]; rfl⟩
    rcases receive with three | five
    · exact .inr (.inl three)
    · exact .inr (.inr (.inr five))
  · rintro thread ⟨data1, data2, data3⟩ receives own
    obtain ⟨receive, context, frame⟩ := receives own
    exact ⟨context, .packet (.packet data1 data2 data3), receive, by rw [← frame]; rfl⟩

/-- While the caller runs, nothing is asked of the other threads. -/
theorem Conserved.offCpu [Fintype σ] (conserved : kernel.Conserved)
    (running : kernel.runningThread = some caller) (saved : Context) (number : Nat) :
    kernel.OffCpu (callRoles caller.threadId saved number) := by
  refine ⟨?_, ?_⟩
  · intro thread queued own
    exact absurd own (conserved.not_queued running queued)
  · intro name
    have apart (thread : Thread) (parked : thread ∈ (kernel.socket name).threads) :
        thread.threadId ≠ caller.threadId := conserved.not_parked running parked
    cases found : kernel.socket name with
    | empty => trivial
    | sending thread message =>
      intro sender same own
      exact absurd own (apart sender (by rw [found]; simpa [Socket.threads] using same))
    | receiving thread someTid =>
      intro own
      exact absurd own (apart thread (by rw [found]; exact List.mem_cons_self))
    | sendReceiving thread message =>
      intro own
      exact absurd own (apart thread (by rw [found]; exact List.mem_cons_self))

variable [DecidableEq σ] [Fintype σ]

omit [DecidableEq σ] [Fintype σ] in
theorem Placed.returned {result : Kernel σ × Control} {saved : Context}
    (running : kernel.runningThread = some caller)
    (placed : result.1.Placed (callRoles caller.threadId saved number))
    (frames : ∀ frame, result.2 = .returned frame →
      ∃ thread, result.1.runningThread = some thread ∧ thread.frame = frame)
    (switch : (∃ front frame, result.2 = .returned frame ∧ result.1.waitQueue = front ++ kernel.waitQueue ∧
        result.1.runningThread.map Thread.threadId = kernel.runningThread.map Thread.threadId ∧
        result.1.interruptStack = kernel.interruptStack) ∨
      ∃ front addr, result.2 = .launched addr ∧ Picks kernel (front ++ kernel.waitQueue) result.1 addr ∧
        ∀ caller ∈ kernel.runningThread, ∀ thread ∈ front, thread.threadId ≠ caller.threadId)
    {frame : ISF} (returned : result.2 = .returned frame) :
    ∃ reply : Reply, reply.Fits number ∧ frame = reply.write saved.frame := by
  obtain ⟨thread, again, rfl⟩ := frames frame returned
  rcases switch with ⟨front, frame, _, _, same, _⟩ | ⟨front, addr, launched, _⟩
  · rw [again, running] at same
    exact (placed.running thread again (Option.some.inj same)).2
  · rw [returned] at launched
    cases launched

omit [DecidableEq σ] [Fintype σ] in
/-- `fork` goes back to its caller with the child's id or an error. -/
theorem forkCurrentThread_reply (running : kernel.runningThread = some caller) (context : Context)
    (stack : Option (Nat × Nat)) :
    ∃ reply : Reply, reply.Fits 0 ∧
      (kernel.forkCurrentThread context stack).2 = reply.write context.frame := by
  unfold forkCurrentThread
  rw [running]
  cases stack with
  | none => exact ⟨.error syscallErrorMemalloc, .inl rfl, rfl⟩
  | some userStackEnd => exact ⟨.forked _, rfl, rfl⟩

/-- What a system call of the running thread does about its caller: it returns
with the caller's frame and a fitting reply, or it leaves the caller ready or
parked with what it needs to come back. -/
theorem dispatchSyscall_reply (conserved : kernel.Conserved)
    (running : kernel.runningThread = some caller) {syscallId arg1 arg2 arg3 : UInt64}
    {memory : ForkMemory} {result : Kernel σ × Control}
    (performed : kernel.dispatchSyscall context syscallId arg1 arg2 arg3 memory = result) :
    (∀ saved, result.2 = .returned saved → ∃ reply : Reply, reply.Fits (syscallId &&& 0xFF).toNat ∧
      saved = reply.write (withSegments context.frame)) ∧
    ∀ addr, result.2 = .launched addr → result.1.Placed
      (callRoles caller.threadId ⟨context.addr, withSegments context.frame⟩ (syscallId &&& 0xFF).toNat) := by
  have off := conserved.offCpu running ⟨context.addr, withSegments context.frame⟩ (syscallId &&& 0xFF).toNat
  have answered := answered_callRoles caller.threadId ⟨context.addr, withSegments context.frame⟩
    (syscallId &&& 0xFF).toNat
  unfold dispatchSyscall at performed
  dsimp only at performed
  split at performed
  · rename_i fork
    subst performed
    refine ⟨?_, fun addr launched => nomatch launched⟩
    rintro saved ⟨⟩
    rw [fork]
    exact forkCurrentThread_reply running _ _
  · subst performed
    exact ⟨(fun _ returned => nomatch returned), fun _ launched => nomatch launched⟩
  · rename_i receive
    obtain ⟨placed, frames⟩ := off.sysReceive answered
      ⟨context.addr, withSegments context.frame⟩ arg1 running
      (fun _ => ⟨.inl receive, rfl, rfl⟩) performed
    exact ⟨fun saved => placed.returned running frames (kernel.ipcSyscall_cases _ _ _ performed),
      fun _ _ => placed⟩
  · rename_i send
    have plain : syscallId &&& 0xFF = 4 := UInt64.toNat_inj.mp send
    obtain ⟨placed, frames⟩ := off.sysSend answered
      ⟨context.addr, withSegments context.frame⟩ syscallId arg1 arg2 arg3 running
      (by rw [if_pos plain]; exact fun _ => ⟨send, rfl, rfl⟩) performed
    exact ⟨fun saved => placed.returned running frames (kernel.ipcSyscall_cases _ _ _ performed),
      fun _ _ => placed⟩
  · rename_i request
    have other : ¬ syscallId &&& 0xFF = 4 := by
      intro plain
      rw [plain] at request
      exact absurd request (by decide)
    obtain ⟨placed, frames⟩ := off.sysSend answered
      ⟨context.addr, withSegments context.frame⟩ syscallId arg1 arg2 arg3 running
      (by rw [if_neg other]; exact fun _ => ⟨.inr request, rfl, rfl⟩) performed
    exact ⟨fun saved => placed.returned running frames (kernel.ipcSyscall_cases _ _ _ performed),
      fun _ _ => placed⟩
  · rename_i yields
    subst performed
    refine ⟨(fun _ returned => nomatch returned), fun _ _ => ?_⟩
    apply off.schedule
    intro thread stamped own
    obtain ⟨current, _, rfl⟩ := Option.map_eq_some_iff.mp stamped
    exact ⟨rfl, .silent, ⟨by omega, by omega, by omega, by omega⟩, rfl⟩
  · rename_i zero one three four five nine
    subst performed
    refine ⟨?_, fun addr launched => nomatch launched⟩
    rintro saved ⟨⟩
    exact ⟨.silent, ⟨zero, three, four, five⟩, rfl⟩

/-- The thread does not run. -/
def Absent (id : Nat) (kernel : Kernel σ) : Prop := kernel.runningThread.map Thread.threadId ≠ some id

/-- Nobody else touches the frame of a caller that is off the processor, but to
answer it. -/
theorem Placed.of_absent {id : Nat} {saved : Context}
    (placed : kernel.Placed (callRoles id saved number)) (absent : kernel.Absent id)
    (old : id ≤ kernel.counter) (action : Action σ) :
    (kernel.perform action).Placed (callRoles id saved number) := by
  have other (current : Thread) (running : kernel.runningThread = some current) :
      current.threadId ≠ id := by
    intro own
    apply absent
    rw [running, Option.map_some, own]
  apply placed.perform (answered_callRoles id saved number) action
  · intro current context running _
    exact ⟨fun own => absurd own (other current running), fun own => absurd own (other current running)⟩
  · intro context _ thread stamped own
    obtain ⟨current, running, rfl⟩ := Option.map_eq_some_iff.mp stamped
    exact absurd own (other current running)
  · intro thread born own
    have fresh := born.fresh
    omega

theorem placed_of_absent {id : Nat} {saved : Context} {start final : Kernel σ} {later : List (Action σ)}
    (run : Run (fun before action after => before.Absent id ∧ Step before action after) start later final)
    (conserved : start.Conserved) (created : id ∈ start.created)
    (placed : start.Placed (callRoles id saved number)) :
    final.Placed (callRoles id saved number) ∧ final.Conserved ∧ id ∈ final.created := by
  apply run.invariant ⟨placed, conserved, created⟩
  rintro before action after ⟨placed, conserved, created⟩ ⟨absent, rfl⟩
  have outcome := perform_outcome conserved action
  exact ⟨placed.of_absent absent (conserved.bounded id created) action,
    conserved.of_outcome outcome, outcome.grows.2.1 id created⟩

/-- The address of the frame that a handler hands to the assembly: in `rdi` of
`launch_thread`, or in `rax` at the end of `interrupt_wrap`. -/
def resumption (kernel : Kernel σ) : Action σ → Option Nat
  | .syscall context syscallId arg1 arg2 arg3 memory =>
    match (kernel.dispatchSyscall context syscallId arg1 arg2 arg3 memory).2 with
    | .launched addr => some addr
    | _ => none
  | .timer context => some (kernel.timerHandler context).2
  | .keyboard context key => some (kernel.keyboardHandlerInner context key).2
  | _ => none

omit [DecidableEq σ] [Fintype σ] in
theorem Picks.resumes {before after : Kernel σ} {ready : List Thread} {addr : Nat} {thread : Thread}
    (picks : Picks before ready after addr) (running : after.runningThread = some thread) :
    addr = thread.context := by
  cases picks with
  | next picked queue now stack =>
    rw [now] at running
    cases running
    rfl
  | nobody queue empty idle stack =>
    rw [idle] at running
    cases running

theorem runningThread_of_not_schedules {action : Action σ} (other : ¬ action.Schedules) :
    (kernel.perform action).runningThread = kernel.runningThread := by
  have stages {after : Kernel σ} (spawn : Stage kernel action after) :
      after.runningThread = kernel.runningThread := by
    cases spawn <;> rfl
  cases action with
  | spawnKernelThread => rfl
  | syscall => exact absurd trivial other
  | timer => exact absurd trivial other
  | keyboard => exact absurd trivial other
  | initialiseThread =>
    simp only [perform, initialiseThread]
    split <;> rfl
  | failClosure draws => exact stages (failClosure_stage draws)
  | createKernelOnlyPagetable table => exact stages (createKernelOnlyPagetable_stage table)
  | failHeap => exact stages failHeap_stage
  | enterUserPagetable => exact stages enterUserPagetable_stage
  | loadSegment => exact stages loadSegment_stage
  | leaveUserPagetable => exact stages leaveUserPagetable_stage

omit [DecidableEq σ] [Fintype σ] in
theorem runningThread_forkCurrentThread (context : Context) (stack : Option (Nat × Nat)) :
    (kernel.forkCurrentThread context stack).1.runningThread = kernel.runningThread := by
  unfold forkCurrentThread
  split
  · dsimp only
    split <;> rfl
  · rfl

/-- A system call that does not launch a thread goes on with its caller or leaves
nobody running. -/
theorem runningThread_of_not_launched {syscallId arg1 arg2 arg3 : UInt64} {memory : ForkMemory}
    (stays : ∀ addr, (kernel.dispatchSyscall context syscallId arg1 arg2 arg3 memory).2 ≠ .launched addr) :
    (kernel.dispatchSyscall context syscallId arg1 arg2 arg3 memory).1.runningThread = none ∨
      (kernel.dispatchSyscall context syscallId arg1 arg2 arg3 memory).1.runningThread.map Thread.threadId =
        kernel.runningThread.map Thread.threadId := by
  have ipc (saved : Context) (handle : Nat) (call : Socket → Thread → Exchange)
      (stays : ∀ addr, (kernel.ipcSyscall saved handle call).2 ≠ .launched addr) :
      (kernel.ipcSyscall saved handle call).1.runningThread.map Thread.threadId =
        kernel.runningThread.map Thread.threadId := by
    rcases kernel.ipcSyscall_cases saved handle call rfl with
      ⟨_, _, _, _, same, _⟩ | ⟨_, addr, launched, _⟩
    · exact same
    · exact absurd launched (stays addr)
  unfold dispatchSyscall at stays ⊢
  dsimp only at stays ⊢
  split at stays
  · exact .inr (congrArg _ (runningThread_forkCurrentThread _ _))
  · left
    unfold exitCurrentThread
    cases running : kernel.runningThread with
    | none => exact running
    | some current => exact ((kernel.retire current).dropThread_kept current).2.1
  · exact .inr (ipc _ _ _ stays)
  · exact .inr (ipc _ _ _ stays)
  · exact .inr (ipc _ _ _ stays)
  · exact absurd rfl (stays _)
  · exact .inr rfl

omit [Fintype σ] in
theorem keyboardHandlerInner_resumes {key : Option UInt64} {resumed : Thread}
    (running : (kernel.keyboardHandlerInner context key).1.runningThread = some resumed)
    (moved : (kernel.keyboardHandlerInner context key).1.runningThread.map Thread.threadId ≠
      kernel.runningThread.map Thread.threadId) :
    (kernel.keyboardHandlerInner context key).2 = resumed.context := by
  unfold keyboardHandlerInner at running moved ⊢
  cases key with
  | none => exact absurd rfl moved
  | some character =>
    dsimp only at running moved ⊢
    split at running
    · rename_i woken
      rw [if_pos woken]
      exact (schedule_picks _ context).resumes running
    · rename_i nobody
      rw [if_neg nobody, runningThread_scheduleSome, runningThread_scheduleSome] at moved
      exact absurd rfl moved

theorem resumption_eq {action : Action σ} {resumed : Thread}
    (absent : kernel.Absent resumed.threadId)
    (running : (kernel.perform action).runningThread = some resumed) :
    kernel.resumption action = some resumed.context := by
  have moved : (kernel.perform action).runningThread.map Thread.threadId ≠
      kernel.runningThread.map Thread.threadId := by
    rw [running, Option.map_some]
    exact Ne.symm absent
  by_cases schedules : action.Schedules
  · cases action with
    | syscall context syscallId arg1 arg2 arg3 memory =>
      by_cases launches : ∃ addr,
          (kernel.dispatchSyscall context syscallId arg1 arg2 arg3 memory).2 = .launched addr
      · obtain ⟨addr, launched⟩ := launches
        obtain ⟨front, back, picks, _⟩ := dispatchSyscall_launched launched
        rw [resumption, launched, ← picks.resumes running]
      · rcases runningThread_of_not_launched (not_exists.mp launches) with idle | same
        · exact absurd (running.symm.trans idle) (Option.some_ne_none _)
        · exact absurd same moved
    | timer context => exact congrArg some ((kernel.schedule_picks context).resumes running)
    | keyboard context key => exact congrArg some (keyboardHandlerInner_resumes running moved)
    | _ => exact schedules.elim
  · exact absurd (congrArg _ (runningThread_of_not_schedules schedules)) moved

end Kernel

section Registers

variable {status : UInt64 → UInt64 → UInt64 → UInt64} {cpu : Cpu} {codeSegment stackSegment : UInt64}

/-- The caller goes on behind its `syscall` instruction. Stack pointer, flags and
registers are as they were, except that `rcx` and `r11` hold what the instruction
put there and that the reply is written. -/
structure Continues (caller : Cpu) (reply : Reply) (cpu : Cpu) : Prop where
  rip : cpu.rip = caller.rip
  flags : cpu.flags = caller.flags
  reg : cpu.reg = reply.registers
    (Function.update (Function.update caller.reg .rcx caller.rip) .r11 caller.flags)

/-- Entered with the frame's address in the register and the frame in memory
there, the code continues the caller. -/
def Restores (status : UInt64 → UInt64 → UInt64 → UInt64) (code : Code) (register : Reg) (address : Nat)
    (frame : ISF) (caller : Cpu) (reply : Reply) : Prop :=
  ∀ cpu : Cpu, (cpu.reg register).toNat = address → StoredAt cpu.memory (cpu.reg register) frame.slots →
    ∃ after, execute status userSelectors code cpu = some after ∧ Continues caller reply after

/-- Both ways of resuming a thread from its saved context continue the caller. -/
def ComesBack (status : UInt64 → UInt64 → UInt64 → UInt64) (caller : Cpu) (number : Nat)
    (thread : Thread) : Prop :=
  ∃ reply : Reply, reply.Fits number ∧
    Restores status launchThread .rdi thread.context thread.frame caller reply ∧
    Restores status interruptWrapExit .rax thread.context thread.frame caller reply

theorem withSegments_kept (frame : ISF) :
    (Kernel.withSegments frame).reg = frame.reg ∧
      (Kernel.withSegments frame).instructionPointer = frame.instructionPointer ∧
      (Kernel.withSegments frame).flags = frame.flags := by
  unfold Kernel.withSegments
  split
  exact ⟨funext fun register => by cases register <;> rfl, rfl, rfl⟩

/-- The frame a caller comes back with: the one of its entry, with a reply. -/
def repliedFrame (cpu : Cpu) (codeSegment stackSegment : UInt64) (reply : Reply) : ISF :=
  reply.write (Kernel.withSegments (syscallFrame cpu codeSegment stackSegment))

theorem repliedFrame_kept (cpu : Cpu) (codeSegment stackSegment : UInt64) (reply : Reply) :
    (repliedFrame cpu codeSegment stackSegment reply).reg = reply.registers
        (Function.update (Function.update cpu.reg .rcx cpu.rip) .r11 cpu.flags) ∧
      (repliedFrame cpu codeSegment stackSegment reply).instructionPointer = cpu.rip ∧
      (repliedFrame cpu codeSegment stackSegment reply).flags = cpu.flags ∧
      (repliedFrame cpu codeSegment stackSegment reply).rcx = cpu.rip ∧
      (repliedFrame cpu codeSegment stackSegment reply).r11 = cpu.flags := by
  obtain ⟨pointer, flags, address, copy⟩ :=
    reply.write_kept (Kernel.withSegments (syscallFrame cpu codeSegment stackSegment))
  obtain ⟨segments, entry, entryFlags⟩ := withSegments_kept (syscallFrame cpu codeSegment stackSegment)
  refine ⟨?_, pointer.trans entry, flags.trans entryFlags, address.trans (congrFun segments .rcx),
    copy.trans (congrFun segments .r11)⟩
  rw [repliedFrame, Reply.write_reg, segments]
  congr 1
  funext register
  cases register <;> rfl

theorem continues_of_loaded {reply : Reply} {after : Cpu}
    (loaded : (repliedFrame cpu codeSegment stackSegment reply).Loaded after) : Continues cpu reply after := by
  obtain ⟨reg, pointer, flags, _⟩ := repliedFrame_kept cpu codeSegment stackSegment reply
  exact ⟨loaded.rip.trans pointer, loaded.flags.trans flags, loaded.reg.trans reg⟩

variable {reply : Reply} {address : Nat}

theorem restores_exit (valid : ValidFlags cpu.flags) (canonical : Asm.Canonical cpu.rip) :
    Restores status handleSyscallExit .rsp address (repliedFrame cpu codeSegment stackSegment reply) cpu
      reply := by
  intro back _ held
  obtain ⟨_, pointer, flags, rcx, copy⟩ := repliedFrame_kept cpu codeSegment stackSegment reply
  obtain ⟨after, executed, loaded, _⟩ := execute_handleSyscallExit status held
    (rcx.trans pointer.symm) (copy.trans flags.symm) (flags ▸ valid) (pointer ▸ canonical)
  exact ⟨after, executed, continues_of_loaded loaded⟩

theorem restores_launch (valid : ValidFlags cpu.flags) (canonical : Asm.Canonical cpu.rip) :
    Restores status launchThread .rdi address (repliedFrame cpu codeSegment stackSegment reply) cpu
      reply := by
  intro back _ held
  obtain ⟨_, pointer, flags, _⟩ := repliedFrame_kept cpu codeSegment stackSegment reply
  obtain ⟨after, executed, loaded, _⟩ := execute_launchThread status held (flags ▸ valid)
    (pointer ▸ canonical)
  exact ⟨after, executed, continues_of_loaded loaded⟩

theorem restores_interrupt (valid : ValidFlags cpu.flags) (canonical : Asm.Canonical cpu.rip)
    (onStack : address ≠ 0) :
    Restores status interruptWrapExit .rax address (repliedFrame cpu codeSegment stackSegment reply) cpu
      reply := by
  intro back place held
  have returned : back.reg .rax ≠ 0 := by
    intro zero
    rw [zero] at place
    exact onStack place.symm
  obtain ⟨_, pointer, flags, _⟩ := repliedFrame_kept cpu codeSegment stackSegment reply
  obtain ⟨after, executed, loaded, _⟩ := execute_interruptWrapExit status returned held (flags ▸ valid)
    (pointer ▸ canonical)
  exact ⟨after, executed, continues_of_loaded loaded⟩

/-- The frame of a system call lies inside the caller's kernel stack, hence not
at address zero. -/
theorem syscallContext_ne_zero {stack : Nat} (room : kernelStackSize ≤ stack)
    (timer : (cpu.memory (cpu.kernelGsBase + tssTimer)).toNat = stack) : (syscallContext cpu).toNat ≠ 0 := by
  have size : kernelStackSize = 12288 := rfl
  have bound := (cpu.memory (cpu.kernelGsBase + tssTimer)).toNat_lt
  rw [syscallContext, syscallTop, syscallKernelStackOffset]
  intro zero
  have same : cpu.memory (cpu.kernelGsBase + tssTimer) = 1184 := by
    have empty : cpu.memory (cpu.kernelGsBase + tssTimer) - 1024 - 160 = 0 := UInt64.toNat_inj.mp zero
    grind
  rw [same] at timer
  have small : stack = 1184 := timer.symm
  omega

end Registers

namespace Kernel

variable {σ : Type} [DecidableEq σ] [Fintype σ] {kernel : Kernel σ} {keyboardSocket : σ}
  {kernelPageTable : Nat} {actions : List (Action σ)} {caller : Thread}

/-- A system call of the running thread, from the `syscall` instruction on. The
frame built on entry reaches `dispatch_syscall`. If that returns, the exit code
continues the caller. If it launches a thread, then whenever the caller comes to
run again it is resumed from its own saved context, and either way of resuming
continues it. For one and the same frame the exit code and `launch_thread` give
the same registers. -/
theorem registers_survive_syscall
    (reached : Run Step (boot keyboardSocket kernelPageTable) actions kernel)
    (running : kernel.runningThread = some caller) (cpu : Cpu)
    (timer : (cpu.memory (cpu.kernelGsBase + tssTimer)).toNat = kernel.interruptStack)
    (valid : ValidFlags cpu.flags) (canonical : Asm.Canonical cpu.rip)
    (status : UInt64 → UInt64 → UInt64 → UInt64) (handler : UInt64) (memory : ForkMemory) {entered : Cpu}
    (entry : Asm.run status handleSyscallEntry (cpu.syscall syscallMask kernelSegments.1 handler) = entered) :
    ∃ frame : ISF, StoredAt entered.memory (entered.reg .rdi) frame.slots ∧ ∀ result,
      kernel.dispatchSyscall ⟨(entered.reg .rdi).toNat, frame⟩ (entered.reg .rsi) (entered.reg .rdx)
        (entered.reg .rcx) (entered.reg .r8) memory = result →
      (∀ saved, result.2 = .returned saved → ∃ reply : Reply,
        reply.Fits (cpu.reg .rax &&& 0xFF).toNat ∧
        Restores status handleSyscallExit .rsp (entered.reg .rsp).toNat saved cpu reply) ∧
      (∀ addr resumed, result.2 = .launched addr → result.1.runningThread = some resumed →
        resumed.threadId = caller.threadId →
        addr = resumed.context ∧ ComesBack status cpu (cpu.reg .rax &&& 0xFF).toNat resumed) ∧
      (∀ addr later middle action resumed, result.2 = .launched addr →
        Run (fun before action after => before.Absent caller.threadId ∧ Step before action after)
          result.1 later middle →
        middle.Absent caller.threadId → (middle.perform action).runningThread = some resumed →
        resumed.threadId = caller.threadId →
        middle.resumption action = some resumed.context ∧
          ComesBack status cpu (cpu.reg .rax &&& 0xFF).toNat resumed) ∧
      ∀ (reply : Reply) (direct resumed : Cpu),
        StoredAt direct.memory (direct.reg .rsp) (reply.write (withSegments frame)).slots →
        StoredAt resumed.memory (resumed.reg .rdi) (reply.write (withSegments frame)).slots →
        ∃ first second, execute status userSelectors handleSyscallExit direct = some first ∧
          execute status userSelectors launchThread resumed = some second ∧
          first.reg = second.reg ∧ first.rip = second.rip ∧ first.flags = second.flags := by
  have conserved := conserved_of_run reached
  have onStack := syscallContext_ne_zero (kernelStackSize_le_of_run reached running) timer
  obtain ⟨⟨codeSegment, stackSegment, built⟩, pointer, context, number, arg1, arg2, arg3⟩ :=
    run_handleSyscallEntry status handler rfl entry
  have back (resumed : Thread) (ready : resumed.context = (entered.reg .rdi).toNat ∧
      ∃ reply : Reply, reply.Fits (cpu.reg .rax &&& 0xFF).toNat ∧ resumed.frame =
        repliedFrame cpu codeSegment stackSegment reply) :
      ComesBack status cpu (cpu.reg .rax &&& 0xFF).toNat resumed := by
    obtain ⟨place, reply, fits, frame⟩ := ready
    rw [context] at place
    refine ⟨reply, fits, ?_, ?_⟩
    · rw [frame]
      exact restores_launch valid canonical
    · rw [frame]
      exact restores_interrupt valid canonical (place ▸ onStack)
  refine ⟨syscallFrame cpu codeSegment stackSegment, by rw [context, ← pointer]; exact built, ?_⟩
  intro result performed
  obtain ⟨returns, launches⟩ := dispatchSyscall_reply conserved running performed
  rw [number] at returns launches
  refine ⟨?_, ?_, ?_, ?_⟩
  · intro saved returned
    obtain ⟨reply, fits, rfl⟩ := returns saved returned
    exact ⟨reply, fits, restores_exit valid canonical⟩
  · intro addr resumed launched again own
    refine ⟨?_, back resumed ((launches addr launched).running resumed again own)⟩
    subst performed
    obtain ⟨front, waiting, picks, _⟩ := dispatchSyscall_launched launched
    exact picks.resumes again
  · intro addr later middle action resumed launched meanwhile absent again own
    have outcome := perform_outcome conserved (.syscall
      ⟨(entered.reg .rdi).toNat, syscallFrame cpu codeSegment stackSegment⟩ (entered.reg .rsi)
      (entered.reg .rdx) (entered.reg .rcx) (entered.reg .r8) memory)
    rw [perform, performed] at outcome
    obtain ⟨placed, kept, created⟩ := placed_of_absent meanwhile (conserved.of_outcome outcome)
      (outcome.grows.2.1 _ (conserved.live_of_held (.inl running)).1) (launches addr launched)
    have after := placed.of_absent absent (kept.bounded _ created) action
    exact ⟨resumption_eq (own ▸ absent) again, back resumed (after.running resumed again own)⟩
  · intro reply direct resumed held second
    obtain ⟨first, executed, one⟩ := restores_exit valid canonical direct rfl held
    obtain ⟨last, launched, two⟩ := restores_launch valid canonical resumed rfl second
    exact ⟨first, last, executed, launched, one.reg.trans two.reg.symm, one.rip.trans two.rip.symm,
      one.flags.trans two.flags.symm⟩

/-- A kernel thread about to yield: every register holds nine. -/
private def yielding : Cpu where
  reg _ := 9
  rip := 0x201000
  flags := 0x202
  cs := 0x08
  ss := 0x10
  gsBase := 0
  kernelGsBase := 0x4000
  memory _ := 0x13000

/-- The only thread yields to itself and finds its registers again. -/
theorem registers_survive_syscall_yield :
    ∃ resumed : Thread, resumed.threadId = 1 ∧ ComesBack (fun _ _ _ => 0) yielding 9 resumed := by
  have reached := Run.foldl perform (boot () 1)
    [.spawnKernelThread 0x1000 [] 0x10000 {}, .timer ⟨0x8000, {}⟩]
  obtain ⟨_, _, calls⟩ := registers_survive_syscall reached rfl yielding rfl (by decide) (by decide)
    (fun _ _ _ => 0) 0 ⟨none⟩ rfl
  obtain ⟨_, again, _⟩ := calls _ rfl
  exact ⟨_, rfl, (again _ _ rfl rfl rfl).2⟩

end Kernel
end Zephyr
