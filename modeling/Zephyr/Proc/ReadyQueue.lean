import Zephyr.Proc.Conservation
import Mathlib.Data.Finset.Dedup

/-! The order of `WAIT_QUEUE`. Woken and spawned threads enter at the front,
preempted and forked ones at the back, and only the front leaves; so a thread
that `schedule` has put behind another one stays behind it until the other is
picked. -/

namespace Zephyr

open Transition

section Precedence

variable {α : Type} {queue : List α} {first second head : α}

/-- `first` stands somewhere ahead of `second`. -/
def Precedes (queue : List α) (first second : α) : Prop := [first, second].Sublist queue

theorem Precedes.mem (ahead : Precedes queue first second) : second ∈ queue :=
  ahead.subset (List.mem_cons_of_mem _ List.mem_cons_self)

theorem Precedes.extend (ahead : Precedes queue first second) (front back : List α) :
    Precedes (front ++ queue ++ back) first second :=
  (ahead.trans (List.sublist_append_right front queue)).trans (List.sublist_append_left _ back)

theorem Precedes.tail (ahead : Precedes (head :: queue) first second) (different : head ≠ first) :
    Precedes queue first second := by
  cases ahead with
  | cons _ rest => exact rest
  | cons_cons _ _ => exact absurd rfl different

theorem precedes_append (member : first ∈ queue) : Precedes (queue ++ [second]) first second :=
  (List.singleton_sublist.mpr member).append (List.Sublist.refl [second])

end Precedence

namespace Kernel

variable {σ : Type}

section Picking

variable {kernel before after : Kernel σ}

/-- `schedule` on the queue `ready`, with the address it returns: the first
thread runs, on its own interrupt stack, or the queue is empty and nobody does. -/
inductive Picks (before : Kernel σ) (ready : List Thread) : Kernel σ → Nat → Prop where
  | next {after : Kernel σ} (thread : Thread) (queue : ready = thread :: after.waitQueue)
      (running : after.runningThread = some thread)
      (stack : after.interruptStack = thread.kernelStackEnd) : Picks before ready after thread.context
  | nobody {after : Kernel σ} (queue : ready = []) (empty : after.waitQueue = [])
      (idle : after.runningThread = none) (stack : after.interruptStack = before.interruptStack) :
      Picks before ready after 0

theorem Picks.of_stack {middle : Kernel σ} {ready : List Thread} {addr : Nat}
    (picks : Picks middle ready after addr) (same : middle.interruptStack = before.interruptStack) :
    Picks before ready after addr := by
  cases picks with
  | next thread queue running stack => exact .next thread queue running stack
  | nobody queue empty idle stack => exact .nobody queue empty idle (stack.trans same)

/-- The running thread as `update_current_thread` queues it. -/
def preempted (kernel : Kernel σ) (context : Context) : Option Thread :=
  kernel.runningThread.map fun thread =>
    { thread with context := context.addr, frame := context.frame, pageTablePhys := kernel.cr3 }

theorem updateCurrentThread_eq (context : Context) :
    kernel.updateCurrentThread context =
      { kernel with
        runningThread := none, waitQueue := kernel.waitQueue ++ (kernel.preempted context).toList } := by
  cases kernel with
  | mk running => cases running <;> simp [updateCurrentThread, preempted]

theorem schedule_picks (kernel : Kernel σ) (context : Context) :
    Picks kernel (kernel.waitQueue ++ (kernel.preempted context).toList) (kernel.schedule context).1
      (kernel.schedule context).2 := by
  unfold schedule
  rw [updateCurrentThread_eq]
  dsimp only
  split
  · rename_i empty
    exact .nobody empty empty rfl rfl
  · rename_i thread rest queue
    exact .next thread queue rfl rfl

/-- The loop after a socket call only pushes threads to the front, and not its
caller unless it returns to it. -/
theorem waitQueue_handBackPair (kernel : Kernel σ) (callerId : Nat) (exchange : Exchange) :
    (∃ woken, (kernel.handBackPair callerId exchange).1.waitQueue = woken ++ kernel.waitQueue ∧
      ((kernel.handBackPair callerId exchange).2 = false → ∀ thread ∈ woken, thread.threadId ≠ callerId)) ∧
      (kernel.handBackPair callerId exchange).1.interruptStack = kernel.interruptStack := by
  have step (state : Kernel σ × Bool) (newThread : Option Thread) :
      (∃ woken, (handBack callerId state newThread).1.waitQueue = woken ++ state.1.waitQueue ∧
        ((handBack callerId state newThread).2 = false →
          state.2 = false ∧ ∀ thread ∈ woken, thread.threadId ≠ callerId)) ∧
        (handBack callerId state newThread).1.interruptStack = state.1.interruptStack := by
    unfold handBack
    cases newThread with
    | none => exact ⟨⟨[], rfl, fun off => ⟨off, by simp⟩⟩, rfl⟩
    | some thread =>
      dsimp only
      split
      · unfold setCurrentThread
        cases state.1.runningThread with
        | none => exact ⟨⟨[], rfl, fun off => nomatch off⟩, rfl⟩
        | some old => exact ⟨⟨[old], rfl, fun off => nomatch off⟩, rfl⟩
      · rename_i other
        exact ⟨⟨[thread], rfl, fun off => ⟨off, by simpa using other⟩⟩, rfl⟩
  simp only [handBackPair, List.foldl_cons, List.foldl_nil]
  obtain ⟨⟨woken, queue, others⟩, stack⟩ := step (kernel, false) exchange.second
  obtain ⟨⟨more, last, rest⟩, same⟩ :=
    step (handBack callerId (kernel, false) exchange.second) exchange.first
  refine ⟨⟨more ++ woken, by rw [last, queue, List.append_assoc], ?_⟩, same.trans stack⟩
  intro off
  exact List.forall_mem_append.mpr ⟨(rest off).2, (others (rest off).1).2⟩

end Picking

section Turns

variable {kernel before after : Kernel σ}

/-- The thread an action sends to the back of the queue through `schedule`. A
blocking call reaches `schedule` after its caller has left `RUNNING_THREAD`. -/
def rescheduled (kernel : Kernel σ) : Action σ → Option Nat
  | .timer _ => kernel.runningThread.map Thread.threadId
  | .keyboard _ (some character) =>
    let exchange := (kernel.socket kernel.keyboardSocket).sendMessage none
      (.packet messageTypeKey character 0)
    if exchange.first.isSome then kernel.runningThread.map Thread.threadId else none
  | .syscall _ syscallId _ _ _ _ =>
    if (syscallId &&& 0xFF).toNat = 9 then kernel.runningThread.map Thread.threadId else none
  | _ => none

/-- What an action does to the queue, the running thread and the interrupt
stack; the label is the thread it sends to the back. -/
inductive Turn (before : Kernel σ) : Action σ → Option Nat → Kernel σ → Prop where
  | goesOn {action : Action σ} {after : Kernel σ} (front back : List Thread)
      (queue : after.waitQueue = front ++ before.waitQueue ++ back)
      (same : after.runningThread.map Thread.threadId = before.runningThread.map Thread.threadId)
      (stack : after.interruptStack = before.interruptStack) : Turn before action none after
  | preempts {action : Action σ} {after : Kernel σ} (front : List Thread) (pushed : Option Thread)
      (same : pushed.map Thread.threadId = before.runningThread.map Thread.threadId) (addr : Nat)
      (picks : Picks before (front ++ before.waitQueue ++ pushed.toList) after addr) :
      Turn before action (before.runningThread.map Thread.threadId) after
  | blocks {context : Context} {syscallId arg1 arg2 arg3 : UInt64} {memory : ForkMemory}
      {after : Kernel σ} (front : List Thread) (addr : Nat)
      (picks : Picks before (front ++ before.waitQueue) after addr) :
      Turn before (.syscall context syscallId arg1 arg2 arg3 memory) none after
  | exits {context : Context} {syscallId arg1 arg2 arg3 : UInt64} {memory : ForkMemory}
      {after : Kernel σ} (thread : Thread) (running : before.runningThread = some thread)
      (exit : (syscallId &&& 0xFF).toNat = 1) (queue : after.waitQueue = before.waitQueue)
      (idle : after.runningThread = none) (stack : after.interruptStack = before.interruptStack) :
      Turn before (.syscall context syscallId arg1 arg2 arg3 memory) none after

theorem Turn.stutter {action : Action σ} (kernel : Kernel σ) : Turn kernel action none kernel :=
  .goesOn [] [] (by simp) rfl rfl

theorem schedule_turn {action : Action σ} (context : Context) :
    Turn kernel action (kernel.runningThread.map Thread.threadId) (kernel.schedule context).1 := by
  refine .preempts [] (kernel.preempted context) ?_ _ (kernel.schedule_picks context)
  simp [preempted, Function.comp_def]

theorem forkCurrentThread_turn {action : Action σ} (context : Context) (stack : Option (Nat × Nat)) :
    Turn kernel action none (kernel.forkCurrentThread context stack).1 := by
  unfold forkCurrentThread
  cases running : kernel.runningThread with
  | none => exact .stutter kernel
  | some current =>
    cases stack with
    | none => exact .goesOn [] [] (by simp [uniqueId]) rfl rfl
    | some userStackEnd => exact .goesOn [] [_] rfl rfl rfl

theorem initialiseThread_turn {action : Action σ} (entryPoint : UInt64) (sockets : List σ)
    (userStackEnd kernelStackStart : Nat) (garbage : ISF) :
    Turn kernel action none
      (kernel.initialiseThread entryPoint sockets userStackEnd kernelStackStart garbage) := by
  unfold initialiseThread
  split
  · exact .goesOn [_] [] (List.append_nil _).symm rfl rfl
  · exact .stutter kernel

theorem stage_turn {action : Action σ} (spawn : Stage before action after) :
    Turn before action none after := by
  cases spawn <;> exact .goesOn [] [] (by simp [setStage]) rfl rfl

variable [DecidableEq σ]

theorem ipcSyscall_cases (kernel : Kernel σ) (context : Context) (handle : Nat) (call : Socket → Thread → Exchange)
    {result : Kernel σ × Control} (performed : kernel.ipcSyscall context handle call = result) :
    (∃ front frame, result.2 = .returned frame ∧ result.1.waitQueue = front ++ kernel.waitQueue ∧
      result.1.runningThread.map Thread.threadId = kernel.runningThread.map Thread.threadId ∧
      result.1.interruptStack = kernel.interruptStack) ∨
    ∃ front addr, result.2 = .launched addr ∧ Picks kernel (front ++ kernel.waitQueue) result.1 addr ∧
      ∀ caller ∈ kernel.runningThread, ∀ thread ∈ front, thread.threadId ≠ caller.threadId := by
  unfold ipcSyscall at performed
  cases running : kernel.runningThread with
  | none =>
    simp only [running] at performed
    subst performed
    exact .inl ⟨[], _, rfl, rfl, congrArg _ running, rfl⟩
  | some current =>
    simp only [running] at performed
    split at performed
    · rename_i name found
      generalize call _ _ = exchange at performed
      generalize moved : kernel.clearCurrentThread.setSocket name exchange.socket = parked
      have idle : parked.runningThread = none := moved ▸ rfl
      have queue : parked.waitQueue = kernel.waitQueue := moved ▸ rfl
      have stack : parked.interruptStack = kernel.interruptStack := moved ▸ rfl
      have resumed := parked.resumed_handBackPair idle current.threadId exchange
      obtain ⟨⟨woken, front, others⟩, same⟩ := parked.waitQueue_handBackPair current.threadId exchange
      rw [queue] at front
      rw [stack] at same
      unfold completeExchange at performed
      rw [moved] at performed
      unfold Resumed at resumed
      generalize parked.handBackPair current.threadId exchange = state
        at performed resumed front others same
      cases returning : state.2 with
      | true =>
        simp only [returning, if_true] at performed resumed
        subst performed
        obtain ⟨thread, again, caller⟩ := resumed
        exact .inl ⟨woken, _, rfl, front, by rw [again, Option.map_some, caller]; rfl, same⟩
      | false =>
        simp only [returning, Bool.false_eq_true, if_false] at performed resumed
        subst performed
        have picks := state.1.schedule_picks context
        rw [preempted, resumed, front, Option.map_none, Option.toList_none, List.append_nil] at picks
        refine .inr ⟨woken, _, rfl, picks.of_stack same, ?_⟩
        rintro caller ⟨⟩
        exact others returning
    · subst performed
      exact .inl ⟨[], _, rfl, rfl, rfl, rfl⟩

theorem ipcSyscall_turn {context : Context} {syscallId arg1 arg2 arg3 : UInt64} {memory : ForkMemory}
    (saved : Context) (handle : Nat) (call : Socket → Thread → Exchange) :
    Turn kernel (.syscall context syscallId arg1 arg2 arg3 memory) none
      (kernel.ipcSyscall saved handle call).1 := by
  rcases kernel.ipcSyscall_cases saved handle call rfl with
    ⟨front, frame, _, queue, same, stack⟩ | ⟨front, addr, _, picks, _⟩
  · exact .goesOn front [] (by rw [queue, List.append_nil]) same stack
  · exact .blocks front addr picks

theorem keyboardHandlerInner_turn (context : Context) (key : Option UInt64) :
    Turn kernel (.keyboard context key) (kernel.rescheduled (.keyboard context key))
      (kernel.keyboardHandlerInner context key).1 := by
  unfold keyboardHandlerInner rescheduled
  cases key with
  | none => exact .stutter kernel
  | some character =>
    dsimp only
    generalize (kernel.socket kernel.keyboardSocket).sendMessage none
      (.packet messageTypeKey character 0) = exchange
    generalize woken : ((kernel.setSocket kernel.keyboardSocket exchange.socket).scheduleSome
      exchange.second).scheduleSome exchange.first = queued
    have front : queued.waitQueue =
        exchange.first.toList ++ exchange.second.toList ++ kernel.waitQueue := by
      rw [← woken]
      cases exchange.first <;> cases exchange.second <;> rfl
    have running : queued.runningThread = kernel.runningThread := by
      rw [← woken, runningThread_scheduleSome, runningThread_scheduleSome]
      rfl
    have stack : queued.interruptStack = kernel.interruptStack := by
      rw [← woken]
      cases exchange.first <;> cases exchange.second <;> rfl
    split
    · have picks := queued.schedule_picks context
      rw [front] at picks
      refine .preempts _ (queued.preempted context) ?_ _ (picks.of_stack stack)
      simp [preempted, running, Function.comp_def]
    · exact .goesOn _ [] (by rw [front, List.append_nil]) (congrArg _ running) stack

variable [Fintype σ]

omit [DecidableEq σ] in
/-- Dropping a thread touches at most CR3 and the released tables. -/
theorem dropThread_kept (kernel : Kernel σ) (thread : Thread) :
    (kernel.dropThread thread).waitQueue = kernel.waitQueue ∧
      (kernel.dropThread thread).runningThread = kernel.runningThread ∧
      (kernel.dropThread thread).interruptStack = kernel.interruptStack ∧
      (kernel.dropThread thread).exited = kernel.exited := by
  unfold dropThread
  split
  · exact ⟨rfl, rfl, rfl, rfl⟩
  · split <;> exact ⟨rfl, rfl, rfl, rfl⟩

omit [DecidableEq σ] in
theorem exitCurrentThread_turn (conserved : kernel.Conserved) {context : Context}
    {syscallId arg1 arg2 arg3 : UInt64} {memory : ForkMemory} (exit : (syscallId &&& 0xFF).toNat = 1) :
    Turn kernel (.syscall context syscallId arg1 arg2 arg3 memory) none kernel.exitCurrentThread := by
  unfold exitCurrentThread
  cases running : kernel.runningThread with
  | none => exact .stutter kernel
  | some thread =>
    obtain ⟨queue, idle, stack, _⟩ := (kernel.retire thread).dropThread_kept thread
    exact .exits thread running exit (queue.trans (conserved.retire_waitQueue running)) idle stack

omit [DecidableEq σ] [Fintype σ] in
theorem rescheduled_syscall {context : Context} {syscallId arg1 arg2 arg3 : UInt64} {memory : ForkMemory}
    (other : (syscallId &&& 0xFF).toNat ≠ 9) :
    kernel.rescheduled (.syscall context syscallId arg1 arg2 arg3 memory) = none :=
  if_neg other

theorem dispatchSyscall_turn (conserved : kernel.Conserved) (context : Context)
    (syscallId arg1 arg2 arg3 : UInt64) (memory : ForkMemory) :
    Turn kernel (.syscall context syscallId arg1 arg2 arg3 memory)
      (kernel.rescheduled (.syscall context syscallId arg1 arg2 arg3 memory))
      (kernel.dispatchSyscall context syscallId arg1 arg2 arg3 memory).1 := by
  unfold dispatchSyscall
  dsimp only
  split
  · rw [rescheduled_syscall (by omega)]
    exact forkCurrentThread_turn _ _
  · rename_i exit
    rw [rescheduled_syscall (by omega)]
    exact exitCurrentThread_turn conserved exit
  · rw [rescheduled_syscall (by omega)]
    exact ipcSyscall_turn _ _ _
  · rw [rescheduled_syscall (by omega)]
    exact ipcSyscall_turn _ _ _
  · rw [rescheduled_syscall (by omega)]
    exact ipcSyscall_turn _ _ _
  · rename_i yields
    rw [rescheduled, if_pos yields]
    exact schedule_turn _
  · rw [rescheduled_syscall ‹_›]
    exact .stutter kernel

/-- Everything an action can do to the order of the queue. -/
theorem perform_turn (conserved : kernel.Conserved) (action : Action σ) :
    Turn kernel action (kernel.rescheduled action) (kernel.perform action) := by
  cases action with
  | spawnKernelThread => exact .goesOn [_] [] (List.append_nil _).symm rfl rfl
  | syscall => exact dispatchSyscall_turn conserved _ _ _ _ _ _
  | timer => exact schedule_turn _
  | keyboard => exact keyboardHandlerInner_turn _ _
  | initialiseThread => exact initialiseThread_turn _ _ _ _ _
  | failClosure draws => exact stage_turn (failClosure_stage draws)
  | createKernelOnlyPagetable table => exact stage_turn (createKernelOnlyPagetable_stage table)
  | failHeap => exact stage_turn failHeap_stage
  | enterUserPagetable => exact stage_turn enterUserPagetable_stage
  | loadSegment => exact stage_turn loadSegment_stage
  | leaveUserPagetable => exact stage_turn leaveUserPagetable_stage

end Turns

section Waiting

variable {kernel before after : Kernel σ} {action : Action σ} {waiting id addr : Nat}

def queuedIds (kernel : Kernel σ) : List Nat := kernel.waitQueue.map Thread.threadId

variable [Fintype σ]

/-- Picking the front keeps the order of those who stay. -/
theorem Picks.precedes {ready : List Thread} (picks : Picks before ready after addr)
    (conserved : after.Conserved) (waits : waiting ∈ after.queuedIds)
    (ahead : Precedes (ready.map Thread.threadId) waiting id) :
    Precedes after.queuedIds waiting id := by
  cases picks with
  | next thread queue running stack =>
    rw [queue] at ahead
    apply Precedes.tail ahead
    rintro rfl
    obtain ⟨queued, member, same⟩ := List.mem_map.mp waits
    exact conserved.not_queued running member same
  | nobody queue empty idle stack =>
    rw [queuedIds, empty] at waits
    exact absurd waits List.not_mem_nil

/-- Nobody overtakes: a thread behind `waiting` stays behind it while it waits. -/
theorem Turn.precedes {label : Option Nat} (turn : Turn before action label after)
    (conserved : after.Conserved) (waits : waiting ∈ after.queuedIds)
    (ahead : Precedes before.queuedIds waiting id) : Precedes after.queuedIds waiting id := by
  cases turn with
  | goesOn front back queue same stack =>
    rw [queuedIds, queue, List.map_append, List.map_append]
    exact ahead.extend _ _
  | preempts front pushed same addr picks =>
    apply picks.precedes conserved waits
    rw [List.map_append, List.map_append]
    exact ahead.extend _ _
  | blocks front addr picks =>
    apply picks.precedes conserved waits
    simpa [queuedIds] using ahead.extend (front.map Thread.threadId) []
  | exits thread running exit queue idle stack =>
    rw [queuedIds, queue]
    exact ahead

omit [Fintype σ] in
theorem Turn.running_of_label (turn : Turn before action (some id) after) :
    before.runningThread.map Thread.threadId = some id := by
  generalize labelled : some id = label at turn
  cases turn with
  | preempts => rfl
  | goesOn | blocks | exits => cases labelled

/-- The thread sent to the back stands behind everyone who still waits. -/
theorem Turn.behind (turn : Turn before action (some id) after) (conserved : after.Conserved)
    (waited : waiting ∈ before.queuedIds) (waits : waiting ∈ after.queuedIds) :
    Precedes after.queuedIds waiting id := by
  generalize labelled : some id = label at turn
  cases turn with
  | preempts front pushed same addr picks =>
    rw [← labelled] at same
    obtain ⟨thread, rfl, rfl⟩ := Option.map_eq_some_iff.mp same
    apply picks.precedes conserved waits
    rw [List.map_append, List.map_append]
    exact precedes_append (List.mem_append_right _ waited)
  | goesOn | blocks | exits => cases labelled

variable [DecidableEq σ]

/-- The threads sent to the back by `schedule` along a sequence of actions. -/
def rescheduledIn (kernel : Kernel σ) : List (Action σ) → List Nat
  | [] => []
  | action :: actions =>
    (kernel.rescheduled action).toList ++ (kernel.perform action).rescheduledIn actions

def liveIds (kernel : Kernel σ) : Finset Nat := kernel.created.toFinset \ kernel.exited.toFinset

/-- The threads alive at some time along a sequence of actions. -/
def aliveIn (kernel : Kernel σ) : List (Action σ) → Finset Nat
  | [] => kernel.liveIds
  | action :: actions => kernel.liveIds ∪ (kernel.perform action).aliveIn actions

/-- Each action of the stretch starts with the thread in the queue; the last one
may pick it. -/
def Waits (waiting : Nat) (kernel : Kernel σ) (actions : List (Action σ)) : Prop :=
  Guarded (fun kernel _ => waiting ∈ kernel.queuedIds) perform kernel actions

/-- A thread behind the waiting one does not run, so it is not sent to the back. -/
theorem not_rescheduled {actions : List (Action σ)} (conserved : kernel.Conserved)
    (waits : Waits waiting kernel actions) (ahead : Precedes kernel.queuedIds waiting id) :
    id ∉ kernel.rescheduledIn actions := by
  induction actions generalizing kernel with
  | nil => exact List.not_mem_nil
  | cons action actions ih =>
    have turn := perform_turn conserved action
    have kept := conserved.of_outcome (perform_outcome conserved action)
    intro listed
    rcases List.mem_append.mp listed with now | later
    · rw [Option.mem_toList.mp now] at turn
      obtain ⟨thread, running, rfl⟩ := Option.map_eq_some_iff.mp turn.running_of_label
      obtain ⟨queued, member, same⟩ := List.mem_map.mp ahead.mem
      exact conserved.not_queued running member same
    · cases actions with
      | nil => exact absurd later List.not_mem_nil
      | cons next rest => exact ih kept waits.2 (turn.precedes kept waits.2.1 ahead) later

theorem nodup_rescheduledIn {actions : List (Action σ)} (conserved : kernel.Conserved)
    (waits : Waits waiting kernel actions) : (kernel.rescheduledIn actions).Nodup := by
  induction actions generalizing kernel with
  | nil => exact List.nodup_nil
  | cons action actions ih =>
    have turn := perform_turn conserved action
    have kept := conserved.of_outcome (perform_outcome conserved action)
    have rest := ih kept waits.2
    rw [rescheduledIn]
    cases label : kernel.rescheduled action with
    | none => exact rest
    | some sent =>
      rw [label] at turn
      refine List.nodup_cons.mpr ⟨?_, rest⟩
      cases actions with
      | nil => exact List.not_mem_nil
      | cons next more =>
        exact not_rescheduled kept waits.2 (turn.behind kept waits.1 waits.2.1)

theorem rescheduledIn_alive {actions : List (Action σ)} (conserved : kernel.Conserved)
    (waits : Waits waiting kernel actions) {sent : Nat} (listed : sent ∈ kernel.rescheduledIn actions) :
    sent ∈ (kernel.aliveIn actions).erase waiting := by
  induction actions generalizing kernel with
  | nil => exact absurd listed List.not_mem_nil
  | cons action actions ih =>
    have kept := conserved.of_outcome (perform_outcome conserved action)
    rw [aliveIn, Finset.mem_erase, Finset.mem_union]
    rcases List.mem_append.mp listed with now | later
    · have turn := perform_turn conserved action
      rw [Option.mem_toList.mp now] at turn
      obtain ⟨thread, running, rfl⟩ := Option.map_eq_some_iff.mp turn.running_of_label
      have live := conserved.held (kernel.badge_mem_of_running running)
      refine ⟨?_, .inl ?_⟩
      · rintro rfl
        obtain ⟨queued, member, same⟩ := List.mem_map.mp waits.1
        exact conserved.not_queued running member same
      · rw [liveIds, Finset.mem_sdiff, List.mem_toFinset, List.mem_toFinset]
        exact live
    · obtain ⟨other, alive⟩ := Finset.mem_erase.mp (ih kept waits.2 later)
      exact ⟨other, .inr alive⟩

/-- While a thread waits in the queue, `schedule` sends every other thread to the
back at most once, so it is bypassed at most as often as there are others alive. -/
theorem bounded_bypass {keyboardSocket : σ} {kernelPageTable : Nat} {earlier stretch : List (Action σ)}
    {start : Kernel σ} (reached : Run Step (boot keyboardSocket kernelPageTable) earlier start)
    (waiting : Nat) (waits : Waits waiting start stretch) :
    (∀ other, (start.rescheduledIn stretch).count other ≤ 1) ∧
      (start.rescheduledIn stretch).length ≤ ((start.aliveIn stretch).erase waiting).card := by
  have conserved := conserved_of_run reached
  have once := nodup_rescheduledIn conserved waits
  refine ⟨List.nodup_iff_count_le_one.mp once, ?_⟩
  rw [← List.toFinset_card_of_nodup once]
  apply Finset.card_le_card
  intro sent listed
  exact rescheduledIn_alive conserved waits (List.mem_toFinset.mp listed)

/-- Three kernel threads, the last of which runs. -/
private def crowd : List (Action Unit) :=
  [.spawnKernelThread 0x1000 [] 0x10000 {}, .spawnKernelThread 0x2000 [] 0x20000 {},
    .spawnKernelThread 0x3000 [] 0x30000 {}, .timer ⟨0, {}⟩]

/-- Two ticks later the first thread is picked, after both others went to the back. -/
theorem bounded_bypass_ticks :
    (crowd.foldl perform (boot () 1)).rescheduledIn [.timer ⟨0x3f000, {}⟩, .timer ⟨0x2f000, {}⟩] =
      [3, 2] ∧
    ((crowd.foldl perform (boot () 1)).rescheduledIn
        [.timer ⟨0x3f000, {}⟩, .timer ⟨0x2f000, {}⟩]).length ≤
      (((crowd.foldl perform (boot () 1)).aliveIn
        [.timer ⟨0x3f000, {}⟩, .timer ⟨0x2f000, {}⟩]).erase 1).card := by
  have waits : Waits 1 (crowd.foldl perform (boot () 1))
      [.timer ⟨0x3f000, {}⟩, .timer ⟨0x2f000, {}⟩] := ⟨by decide, by decide, trivial⟩
  exact ⟨by decide, (bounded_bypass (Run.foldl perform (boot () 1) crowd) 1 waits).2⟩

end Waiting

end Kernel
end Zephyr
