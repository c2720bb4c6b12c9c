import Zephyr.Proc.Holdings

/-! The idle thread. `kernel_thread_main` ends in `hlt_loop` and makes no system
call from there, so it is never parked in a socket and never exits: whenever
another thread runs it is in the queue, and `schedule` has a thread to return. -/

namespace Zephyr

open Transition

variable {σ : Type}

/-- The frame an entry point hands to its handler lies at a nonzero address. -/
def Action.FrameOnStack (action : Action σ) : Prop :=
  ∀ context ∈ action.savedContext, context.addr ≠ 0

instance (action : Action σ) : Decidable action.FrameOnStack :=
  inferInstanceAs (Decidable (∀ context ∈ action.savedContext, context.addr ≠ 0))

namespace Kernel

variable {kernel before after : Kernel σ} {action : Action σ} {idle addr : Nat}

def Sleeps (idle : Nat) (kernel : Kernel σ) : Action σ → Prop
  | .syscall _ _ _ _ _ _ => kernel.runningThread.map Thread.threadId ≠ some idle
  | _ => True

/-- The idle thread runs or is queued. -/
def Ready (idle : Nat) (kernel : Kernel σ) : Prop :=
  kernel.runningThread.map Thread.threadId = some idle ∨ idle ∈ kernel.queuedIds

theorem Picks.ready {queue : List Thread} (picks : Picks before queue after addr)
    (member : idle ∈ queue.map Thread.threadId) : after.Ready idle := by
  cases picks with
  | next thread first running stack =>
    rw [first, List.map_cons, List.mem_cons] at member
    rcases member with rfl | behind
    · exact .inl (by rw [running, Option.map_some])
    · exact .inr behind
  | nobody empty =>
    rw [empty] at member
    exact absurd member List.not_mem_nil

theorem Turn.ready {label : Option Nat} (turn : Turn before action label after)
    (sleeps : before.Sleeps idle action) (ready : before.Ready idle) : after.Ready idle := by
  cases turn with
  | goesOn front back queue same stack =>
    rcases ready with running | queued
    · exact .inl (same.trans running)
    · right
      rw [queuedIds, queue, List.map_append, List.map_append]
      exact List.mem_append_left _ (List.mem_append_right _ queued)
  | preempts front pushed same addr picks =>
    apply picks.ready
    rw [List.map_append, List.map_append]
    rcases ready with running | queued
    · obtain ⟨thread, rfl, rfl⟩ := Option.map_eq_some_iff.mp (same.trans running)
      exact List.mem_append_right _ List.mem_cons_self
    · exact List.mem_append_left _ (List.mem_append_right _ queued)
  | blocks front addr picks =>
    apply picks.ready
    rw [List.map_append]
    exact List.mem_append_right _ (ready.resolve_left sleeps)
  | exits thread running exit queue nobody stack =>
    right
    rw [queuedIds, queue]
    exact ready.resolve_left sleeps

variable [DecidableEq σ] [Fintype σ]

/-- What every call of `launch_thread` is given: the address `schedule` returned
for the queue with the woken threads in front. -/
theorem dispatchSyscall_launched {context : Context} {syscallId arg1 arg2 arg3 : UInt64}
    {memory : ForkMemory}
    (launched : (kernel.dispatchSyscall context syscallId arg1 arg2 arg3 memory).2 = .launched addr) :
    ∃ front back, Picks kernel (front ++ kernel.waitQueue ++ back)
        (kernel.dispatchSyscall context syscallId arg1 arg2 arg3 memory).1 addr ∧
      ∀ caller ∈ kernel.runningThread, ∀ thread ∈ front, thread.threadId ≠ caller.threadId := by
  have blocked (saved : Context) (handle : Nat) (call : Socket → Thread → Exchange)
      (launched : (kernel.ipcSyscall saved handle call).2 = .launched addr) :
      ∃ front back, Picks kernel (front ++ kernel.waitQueue ++ back)
          (kernel.ipcSyscall saved handle call).1 addr ∧
        ∀ caller ∈ kernel.runningThread, ∀ thread ∈ front, thread.threadId ≠ caller.threadId := by
    rcases kernel.ipcSyscall_cases saved handle call rfl with
      ⟨_, frame, returned, _⟩ | ⟨front, next, launches, picks, others⟩
    · rw [launched] at returned
      cases returned
    · rw [launched] at launches
      cases launches
      exact ⟨front, [], by rwa [List.append_nil], others⟩
  unfold dispatchSyscall at launched ⊢
  dsimp only at launched ⊢
  split at launched
  · cases launched
  · cases launched
  · exact blocked _ _ _ launched
  · exact blocked _ _ _ launched
  · exact blocked _ _ _ launched
  · cases launched
    exact ⟨[], _, kernel.schedule_picks _, by simp⟩
  · cases launched

/-- Saved contexts are nonzero: a frame was pushed there, or a new thread's first
frame lies inside its kernel stack. -/
theorem Every.context_perform (every : kernel.Every fun thread => thread.context ≠ 0)
    (onStack : action.FrameOnStack) : (kernel.perform action).Every fun thread => thread.context ≠ 0 := by
  refine every.perform ⟨fun _ known => known, ?_⟩ action ?_ ?_ ?_
  · rintro thread ⟨data1, data2, data3⟩ known
    exact known
  · intro current context _ saved
    exact onStack context saved
  · intro context saved thread stamped
    obtain ⟨current, _, rfl⟩ := Option.map_eq_some_iff.mp stamped
    exact onStack context saved
  · intro thread born
    have room : interruptContextSize < kernelStackSize := by decide
    cases born with
    | kernel function sockets kernelStackStart garbage => dsimp only; omega
    | fork context syscallId arg1 arg2 arg3 kernelStackStart => dsimp only; omega
    | user entryPoint sockets userStackEnd kernelStackStart => dsimp only; omega

theorem launched_of_ready (conserved : kernel.Conserved) (ready : kernel.Ready idle)
    {context : Context} {syscallId arg1 arg2 arg3 : UInt64} {memory : ForkMemory}
    (awake : kernel.runningThread.map Thread.threadId ≠ some idle)
    (launched : (kernel.dispatchSyscall context syscallId arg1 arg2 arg3 memory).2 = .launched addr) :
    ∃ thread, (kernel.dispatchSyscall context syscallId arg1 arg2 arg3 memory).1.runningThread =
        some thread ∧ thread.context = addr ∧
      ∀ caller, kernel.runningThread = some caller → thread.threadId ≠ caller.threadId := by
  obtain ⟨front, back, picks, others⟩ := dispatchSyscall_launched launched
  have queued : front ++ kernel.waitQueue ≠ [] := by
    intro empty
    obtain ⟨thread, member, _⟩ := List.mem_map.mp (ready.resolve_left awake)
    rw [(List.append_eq_nil_iff.mp empty).2] at member
    exact absurd member List.not_mem_nil
  obtain ⟨head, rest, first⟩ := List.exists_cons_of_ne_nil queued
  rw [first] at picks
  cases picks with
  | next thread queue running stack =>
    obtain ⟨rfl, _⟩ := List.cons.inj queue
    refine ⟨_, running, rfl, ?_⟩
    intro caller calls
    have member : head ∈ front ++ kernel.waitQueue := first ▸ List.mem_cons_self
    rcases List.mem_append.mp member with woken | waiting
    · exact others caller calls head woken
    · exact conserved.not_queued calls waiting
  | nobody queue => cases queue

section Runs

variable {keyboardSocket : σ} {kernelPageTable : Nat} {earlier later : List (Action σ)}
  {start final : Kernel σ}

/-- From the moment the idle thread enters `hlt_loop`, every `launch_thread` of a
system call gets the saved context of the thread now running, which is nonzero
and belongs to another thread than the caller. -/
theorem blocking_call_switches
    (reached : Run (fun before action after => action.FrameOnStack ∧ Step before action after)
      (boot keyboardSocket kernelPageTable) earlier start)
    (halted : start.runningThread.map Thread.threadId = some idle)
    (run : Run (fun before action after => before.Sleeps idle action ∧ action.FrameOnStack ∧
      Step before action after) start later final)
    {context : Context} {syscallId arg1 arg2 arg3 : UInt64} {memory : ForkMemory}
    (sleeps : final.Sleeps idle (.syscall context syscallId arg1 arg2 arg3 memory))
    (onStack : (Action.syscall context syscallId arg1 arg2 arg3 memory : Action σ).FrameOnStack)
    (launched : (final.dispatchSyscall context syscallId arg1 arg2 arg3 memory).2 = .launched addr) :
    addr ≠ 0 ∧ ∃ thread,
      (final.dispatchSyscall context syscallId arg1 arg2 arg3 memory).1.runningThread = some thread ∧
      thread.context = addr ∧
      ∀ caller, final.runningThread = some caller → thread.threadId ≠ caller.threadId := by
  have saved : start.Every fun thread => thread.context ≠ 0 := by
    apply reached.invariant (every_boot _ keyboardSocket kernelPageTable)
    rintro before action after every ⟨onStack, rfl⟩
    exact every.context_perform onStack
  have conserved : start.Conserved := by
    apply conserved_of_run (reached.mono ?_)
    intro before action after step
    exact step.2
  have kept : final.Conserved ∧ final.Ready idle ∧ final.Every fun thread => thread.context ≠ 0 := by
    apply run.invariant ⟨conserved, .inl halted, saved⟩
    rintro before action after ⟨conserved, ready, every⟩ ⟨sleeps, onStack, rfl⟩
    exact ⟨conserved.of_outcome (perform_outcome conserved action),
      (perform_turn conserved action).ready sleeps ready, every.context_perform onStack⟩
  obtain ⟨conserved, ready, every⟩ := kept
  obtain ⟨thread, running, same, others⟩ := launched_of_ready conserved ready sleeps launched
  refine ⟨?_, thread, running, same, others⟩
  rw [← same]
  exact (every.context_perform onStack).running thread running

/-- The idle thread runs, with a second thread queued. -/
private def settled : List (Action Unit) :=
  [.spawnKernelThread 0x1000 [] 0x10000 {}, .timer ⟨0x8000, {}⟩,
    .spawnKernelThread 0x2000 [()] 0x20000 {}]

private def tick : Action Unit := .timer ⟨0x12f00, {}⟩

/-- The second thread is scheduled and blocks in a receive: the idle thread is
launched from the context its tick saved. -/
theorem blocking_call_switches_receive :
    (((settled.foldl perform (boot () 1)).perform tick).dispatchSyscall
      ⟨0x22b00, {}⟩ 3 0 0 0 ⟨none⟩).2 = .launched 0x12f00 ∧
    ∃ thread, (((settled.foldl perform (boot () 1)).perform tick).dispatchSyscall
      ⟨0x22b00, {}⟩ 3 0 0 0 ⟨none⟩).1.runningThread = some thread ∧ thread.context = 0x12f00 := by
  have onStack : Guarded (fun (_ : Kernel Unit) (action : Action Unit) => action.FrameOnStack) perform
      (boot () 1) settled := ⟨by decide, by decide, by decide, trivial⟩
  have run : Run (fun (before : Kernel Unit) action after => before.Sleeps 1 action ∧
      action.FrameOnStack ∧ Step before action after) (settled.foldl perform (boot () 1)) [tick]
      ((settled.foldl perform (boot () 1)).perform tick) :=
    .cons ⟨trivial, by decide, rfl⟩ .nil
  have sleeps : ((settled.foldl perform (boot () 1)).perform tick).Sleeps 1
      (.syscall ⟨0x22b00, {}⟩ 3 0 0 0 ⟨none⟩) := by
    rw [Sleeps]
    decide
  have launched : (((settled.foldl perform (boot () 1)).perform tick).dispatchSyscall
      ⟨0x22b00, {}⟩ 3 0 0 0 ⟨none⟩).2 = .launched 0x12f00 := by
    decide
  obtain ⟨_, thread, running, same, _⟩ := blocking_call_switches (Run.of_guarded onStack)
    (by decide) run sleeps (by decide) launched
  exact ⟨launched, thread, running, same⟩

end Runs

end Kernel
end Zephyr
