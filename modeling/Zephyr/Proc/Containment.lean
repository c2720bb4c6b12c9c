import Zephyr.Mem.Hardware
import Zephyr.Proc.Holdings
import Zephyr.Proc.LockUse

/-! What `page_fault_handler` does to the scheduler when it is to end the faulting
thread: it reaches `exit_current_thread` with its own read guard on
`RUNNING_THREAD` still alive. -/

namespace Zephyr

open Locks PageFaultErrorCode

variable {σ : Type} [DecidableEq σ]

namespace Kernel

variable [Fintype σ] {kernel : Kernel σ}

open LockUse

/-- How `page_fault_handler` ends: it returns, it waits for the next timer interrupt inside
`exit_current_thread`, it stays in `hlt_loop` with interrupts masked, or it spins on a lock. -/
inductive FaultEnd (σ : Type) where
  | returns (kernel : Kernel σ)
  | waits (kernel : Kernel σ)
  | halts (kernel : Kernel σ)
  | spins

def pageFaultHandler (kernel : Kernel σ) (errorCode : PageFaultErrorCode) (ondemand : OndemandCalls)
    (drop : DropCalls) : FaultEnd σ :=
  if errorCode = protectionViolation ||| causedByWrite ||| userMode then
    match execute [] (LockUse.pageFaultHandler (.ondemand ondemand) : Trace (KernelLock σ)) with
    | some _ => .returns kernel
    | none => .spins
  else
    match execute [] (LockUse.pageFaultHandler (.fatal (kernel.runningThread.map fun _ => drop)) :
      Trace (KernelLock σ)) with
    | some _ => if kernel.runningThread.isSome then .waits kernel.exitCurrentThread else .halts kernel
    | none => .spins

/-- The running thread is gone and nobody else was touched. -/
structure Contained (kernel after : Kernel σ) : Prop where
  empty : after.runningThread = none
  gone : ∀ faulting, kernel.runningThread = some faulting →
    ∀ thread, after.Held thread → thread.threadId ≠ faulting.threadId
  queue : after.waitQueue = kernel.waitQueue
  sockets : after.socket = kernel.socket

/-- The handler gets through, and leaves the fault contained. -/
def ContainsFault (kernel : Kernel σ) (errorCode : PageFaultErrorCode) (ondemand : OndemandCalls) (drop : DropCalls) :
    Prop :=
  match kernel.pageFaultHandler errorCode ondemand drop with
  | .returns after | .waits after | .halts after => kernel.Contained after
  | .spins => False

/-- A fault of a running thread never gets past the write lock its handler asks
for under its own read guard. -/
theorem pageFaultHandler_spins {errorCode : PageFaultErrorCode}
    (fatal : errorCode ≠ protectionViolation ||| causedByWrite ||| userMode) {faulting : Thread}
    (running : kernel.runningThread = some faulting) (ondemand : OndemandCalls) (drop : DropCalls) :
    kernel.pageFaultHandler errorCode ondemand drop = .spins := by
  rw [pageFaultHandler, if_neg fatal, running]
  rfl

omit [DecidableEq σ] in
theorem exitCurrentThread_contained (conserved : kernel.Conserved) :
    kernel.Contained kernel.exitCurrentThread := by
  unfold exitCurrentThread
  cases running : kernel.runningThread with
  | none =>
    refine ⟨running, ?_, rfl, rfl⟩
    intro faulting present
    rw [running] at present
    cases present
  | some faulting =>
    obtain ⟨queue, idle, _, _⟩ := (kernel.retire faulting).dropThread_kept faulting
    have sockets : ((kernel.retire faulting).dropThread faulting).socket = kernel.socket := by
      unfold dropThread
      split
      · rfl
      · split <;> rfl
    have kept := queue.trans (conserved.retire_waitQueue running)
    refine ⟨idle, ?_, kept, sockets⟩
    intro other present thread held
    rw [running] at present
    cases present
    rcases held with again | queued | ⟨name, parked⟩
    · rw [idle] at again
      cases again
    · exact conserved.not_queued running (kept ▸ queued)
    · rw [sockets] at parked
      exact conserved.not_parked running parked

/-- No fault that is to end a running thread is contained, although the exit that the
handler asks for would contain it. -/
theorem fault_never_contained (kernel : Kernel σ) {errorCode : PageFaultErrorCode}
    (fatal : errorCode ≠ protectionViolation ||| causedByWrite ||| userMode) {faulting : Thread}
    (running : kernel.runningThread = some faulting) (ondemand : OndemandCalls) (drop : DropCalls) :
    kernel.pageFaultHandler errorCode ondemand drop = .spins ∧ ¬ kernel.ContainsFault errorCode ondemand drop ∧
      (kernel.Conserved → kernel.Contained kernel.exitCurrentThread) := by
  have spins := pageFaultHandler_spins fatal running ondemand drop
  refine ⟨spins, ?_, exitCurrentThread_contained⟩
  rw [ContainsFault, spins]
  exact id

/-- Two threads, the first of them running. -/
private def busyKernel : Kernel Unit :=
  ([.spawnKernelThread 0x1000 [] 0x10000 {}, .spawnKernelThread 0x2000 [] 0x20000 {}, .timer ⟨0, {}⟩] :
    List (Action Unit)).foldl perform (boot () 1)

/-- A write of the running thread to an unmapped page. -/
theorem fault_never_contained_write : busyKernel.waitQueue.length = 1 ∧
    ¬ busyKernel.ContainsFault (causedByWrite ||| userMode) .served ⟨[], false, none⟩ :=
  ⟨by decide, (fault_never_contained busyKernel (by decide) rfl .served ⟨[], false, none⟩).2.1⟩

/-- A read of an unmapped page by the running thread hangs the machine. -/
theorem fault_of_running_thread_spins : busyKernel.runningThread ≠ none ∧
    ∀ ondemand drop, busyKernel.pageFaultHandler userMode ondemand drop = .spins ∧
      ¬ busyKernel.ContainsFault userMode ondemand drop := by
  refine ⟨by decide, fun ondemand drop => ?_⟩
  have spins : busyKernel.pageFaultHandler userMode ondemand drop = .spins :=
    pageFaultHandler_spins (by decide) rfl ondemand drop
  refine ⟨spins, ?_⟩
  rw [ContainsFault, spins]
  exact id

end Kernel
end Zephyr
