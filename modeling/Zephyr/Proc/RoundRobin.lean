import Zephyr.Proc.ReadyQueue
import Zephyr.Transition.Rotation

/-! How `schedule` shares the processor. As long as no thread wakes, blocks, starts or ends, the
running thread and `WAIT_QUEUE` together rotate by one place with each tick and each yield. -/

namespace Zephyr

open Transition

/-- The timer, and `thread_yield`. -/
def Action.takesTurn {σ : Type} : Action σ → Bool
  | .timer _ => true
  | .syscall _ syscallId _ _ _ _ => (syscallId &&& 0xFF).toNat = 9
  | _ => false

/-- What leaves every thread where it is: keys without a character, `sys_write` and the numbers
that are no system call. -/
def Action.Inert {σ : Type} : Action σ → Prop
  | .syscall _ syscallId _ _ _ _ => (syscallId &&& 0xFF).toNat ∉ [0, 1, 3, 4, 5, 9]
  | .keyboard _ key => key = none
  | _ => False

namespace Kernel

variable {σ : Type} [DecidableEq σ] [Fintype σ] {kernel : Kernel σ} {current : Thread} {action : Action σ}
  {actions : List (Action σ)}

omit [DecidableEq σ] [Fintype σ] in
/-- The threads that share the processor, the running one first. -/
def roster (kernel : Kernel σ) : List Nat :=
  (kernel.runningThread.toList ++ kernel.waitQueue).map Thread.threadId

/-- The threads that run after the turns among the actions. -/
def served (kernel : Kernel σ) : List (Action σ) → List Nat
  | [] => []
  | action :: rest =>
    (if action.takesTurn then ((kernel.perform action).runningThread.map Thread.threadId).toList else []) ++
      (kernel.perform action).served rest

omit [DecidableEq σ] in
theorem Conserved.nodup_roster (conserved : kernel.Conserved) : kernel.roster.Nodup := by
  refine List.nodup_iff_count_le_one.mpr fun id => Nat.le_trans ?_ (conserved.count_le_one id)
  have ids : (kernel.roster : Multiset Nat) =
      (badges kernel.runningThread.toList + badges kernel.waitQueue).map Badge.threadId := by
    rw [roster, List.map_append, ← Multiset.coe_add, Multiset.map_add, badges, badges, Multiset.map_coe,
      Multiset.map_coe, List.map_map, List.map_map]
    rfl
  rw [← Multiset.coe_count, ids]
  exact Multiset.count_le_of_le id (Multiset.map_le_map (Multiset.le_add_right _ _))

omit [DecidableEq σ] [Fintype σ] in
theorem roster_schedule (running : kernel.runningThread = some current) (context : Context) :
    (kernel.schedule context).1.roster = kernel.roster.rotate 1 ∧
      ((kernel.schedule context).1.runningThread.map Thread.threadId).toList = (kernel.roster.rotate 1).take 1 := by
  have before : kernel.roster.rotate 1 =
      (kernel.waitQueue ++ (kernel.preempted context).toList).map Thread.threadId := by
    simp [roster, preempted, running]
  have picks := kernel.schedule_picks context
  rw [before]
  generalize (kernel.schedule context).2 = addr at picks
  cases picks with
  | next thread queue runs stack => simp [roster, runs, queue]
  | nobody queue => simp [preempted, running] at queue

theorem perform_takesTurn (kernel : Kernel σ) (turn : action.takesTurn) :
    ∃ context, kernel.perform action = (kernel.schedule context).1 := by
  cases action with
  | timer context => exact ⟨context, rfl⟩
  | syscall context syscallId arg1 arg2 arg3 memory =>
    refine ⟨{ context with frame := withSegments context.frame }, ?_⟩
    simp only [perform, dispatchSyscall, of_decide_eq_true turn, sysYield]
  | _ => cases turn

theorem perform_inert (kernel : Kernel σ) (inert : action.Inert) : kernel.perform action = kernel := by
  cases action with
  | keyboard context key =>
    cases inert
    rfl
  | syscall context syscallId arg1 arg2 arg3 memory =>
    simp only [Action.Inert, List.mem_cons, List.not_mem_nil, or_false, not_or] at inert
    simp only [perform, dispatchSyscall]
    split <;> simp_all
  | _ => exact inert.elim

omit [DecidableEq σ] [Fintype σ] in
theorem isSome_of_roster (running : kernel.runningThread.isSome) (context : Context) :
    (kernel.schedule context).1.runningThread.isSome := by
  obtain ⟨current, runs⟩ := Option.isSome_iff_exists.mp running
  have front := (roster_schedule runs context).2
  have first : ((kernel.roster.rotate 1).take 1).length = 1 := by
    simp [roster, runs]
  cases picked : (kernel.schedule context).1.runningThread with
  | none => simp [picked, ← front] at first
  | some thread => rfl

theorem roster_perform (running : kernel.runningThread.isSome)
    (each : ∀ action ∈ actions, action.takesTurn ∨ action.Inert) :
    (actions.foldl perform kernel).roster = kernel.roster.rotate (actions.countP Action.takesTurn) ∧
      kernel.served actions = turns kernel.roster (actions.countP Action.takesTurn) := by
  induction actions generalizing kernel with
  | nil => exact ⟨(List.rotate_zero _).symm, rfl⟩
  | cons action rest ih =>
    obtain ⟨first, others⟩ := List.forall_mem_cons.mp each
    rw [List.foldl_cons, served]
    by_cases turn : action.takesTurn
    · obtain ⟨context, performed⟩ := kernel.perform_takesTurn turn
      obtain ⟨current, runs⟩ := Option.isSome_iff_exists.mp running
      obtain ⟨rotated, front⟩ := roster_schedule runs context
      rw [performed, List.countP_cons_of_pos turn, turns, if_pos turn, front, ← rotated]
      obtain ⟨roster, served⟩ := ih (isSome_of_roster running context) others
      refine ⟨?_, by rw [served]⟩
      rw [roster, rotated, List.rotate_rotate, Nat.add_comm]
    · rw [kernel.perform_inert (first.resolve_left turn), List.countP_cons_of_neg turn, if_neg turn, List.nil_append]
      exact ih running others

/-- Equal shares: from any reachable state with a running thread, whatever ticks and yields
follow while no thread wakes, blocks, starts or ends, each of the ready threads has run after as
many of them as any other, but for one turn. After a whole number of rounds the queue is as it
was. -/
theorem processor_is_shared_equally {keyboardSocket : σ} {kernelPageTable : Nat} {earlier : List (Action σ)}
    (reached : Run Step (boot keyboardSocket kernelPageTable) earlier kernel) (running : kernel.runningThread.isSome)
    (each : ∀ action ∈ actions, action.takesTurn ∨ action.Inert) :
    (∀ id ∈ kernel.roster,
      actions.countP Action.takesTurn / kernel.roster.length ≤ (kernel.served actions).count id ∧
        (kernel.served actions).count id ≤ actions.countP Action.takesTurn / kernel.roster.length + 1) ∧
    (actions.foldl perform kernel).roster = kernel.roster.rotate (actions.countP Action.takesTurn) := by
  obtain ⟨rotated, served⟩ := roster_perform running each
  refine ⟨fun id member => ?_, rotated⟩
  rw [served]
  exact count_turns _ (conserved_of_run reached).nodup_roster member _

/-- Three kernel threads, and five ticks. -/
theorem processor_is_shared_equally_ticks :
    ([.spawnKernelThread 0x1000 [] 0x10000 {}, .spawnKernelThread 0x2000 [] 0x20000 {},
      .spawnKernelThread 0x3000 [] 0x30000 {}, .timer ⟨0, {}⟩].foldl perform (boot () 1)).roster = [3, 2, 1] ∧
    ((List.replicate 5 (.timer ⟨0x1f000, {}⟩)).foldl perform
      ([.spawnKernelThread 0x1000 [] 0x10000 {}, .spawnKernelThread 0x2000 [] 0x20000 {},
        .spawnKernelThread 0x3000 [] 0x30000 {}, .timer ⟨0, {}⟩].foldl perform (boot () 1))).roster = [1, 3, 2] := by
  refine ⟨by decide, ?_⟩
  have reached := Run.foldl perform (boot () 1) [.spawnKernelThread 0x1000 [] 0x10000 {},
    .spawnKernelThread 0x2000 [] 0x20000 {}, .spawnKernelThread 0x3000 [] 0x30000 {}, .timer ⟨0, {}⟩]
  rw [(processor_is_shared_equally reached rfl fun action member => .inl (by
    rw [List.eq_of_mem_replicate member]
    rfl)).2]
  decide

end Kernel

end Zephyr
