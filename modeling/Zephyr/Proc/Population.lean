import Zephyr.Proc.Kernel
import Mathlib.Algebra.BigOperators.Group.Finset.Basic
import Mathlib.Tactic.Abel

/-! What each kernel operation does to the threads the kernel holds: operations
move thread objects between `RUNNING_THREAD`, `WAIT_QUEUE` and the sockets, and
only preemption rewrites one, by recording the active page table in it. -/

namespace Zephyr

/-- The part of a thread that socket calls and queue moves leave alone. -/
structure Badge where
  threadId : Nat
  process : Nat
  pageTablePhys : Nat
  threadType : ThreadType
  deriving DecidableEq, Repr

namespace Thread

variable (thread : Thread)

def badge (thread : Thread) : Badge :=
  ⟨thread.threadId, thread.process, thread.pageTablePhys, thread.threadType⟩

@[simp] theorem badge_setContext (contextPtr : Nat) (frame : ISF) :
    (thread.setContext contextPtr frame).badge = thread.badge := rfl

@[simp] theorem badge_returnError (code : UInt64) : (thread.returnError code).badge = thread.badge := rfl

@[simp] theorem badge_returnMessage (message : Message) :
    (thread.returnMessage message).badge = thread.badge := by
  cases message; rfl

end Thread

def badges (threads : List Thread) : Multiset Badge := threads.map Thread.badge

@[simp] theorem badges_nil : badges [] = 0 := rfl

@[simp] theorem badges_cons (thread : Thread) (threads : List Thread) :
    badges (thread :: threads) = thread.badge ::ₘ badges threads := rfl

@[simp] theorem badges_append (threads more : List Thread) :
    badges (threads ++ more) = badges threads + badges more := by
  simp [badges]

theorem mem_badges {badge : Badge} {threads : List Thread} :
    badge ∈ badges threads ↔ ∃ thread ∈ threads, thread.badge = badge := by
  simp [badges]

/-- A socket call leaves every thread it was given or found in exactly one of
the socket and the returned pair. -/
theorem Effect.conserves {socket : Socket} {call : Call} {exchange : Exchange}
    (effect : Effect socket call exchange) :
    badges exchange.socket.threads + badges exchange.returned =
      badges socket.threads + badges call.caller.toList := by
  cases effect with
  | @refused call code nonzero =>
    cases same : call.caller <;> simp [Exchange.returned]
  | @parkSender thread message => cases thread <;> simp [Socket.threads, Exchange.returned, Call.caller]
  | parkReceiver => simp [Socket.threads, Exchange.returned, Call.caller]
  | parkRequest => simp [Socket.threads, Exchange.returned, Call.caller]
  | @meetReceiver _ _ thread _ _ =>
    cases thread <;> simp [Socket.threads, Exchange.returned, Call.caller]
  | @meetSender sender thread message =>
    cases sender <;> simp [Socket.threads, Exchange.returned, Call.caller]
    rename_i parked
    exact Multiset.cons_swap thread.badge parked.badge 0
  | @meetRequest sender thread message =>
    simp [Socket.threads, Exchange.returned, Call.caller]
  | @reply recThread thread someTid message permitted =>
    simp [Socket.threads, Exchange.returned, Call.caller, add_comm]

namespace Kernel

/-- The part of the state that moving threads leaves alone. -/
def fixed {σ : Type} (kernel : Kernel σ) : Kernel σ :=
  { kernel with
    runningThread := none, waitQueue := [], socket := fun _ => .empty, cr3 := 0, interruptStack := 0 }

/-- The running thread records the active page table, as it does on preemption. -/
def restamp {σ : Type} (kernel : Kernel σ) : Kernel σ :=
  { kernel with
    runningThread := kernel.runningThread.map fun thread => { thread with pageTablePhys := kernel.cr3 } }

section Occupants

variable {σ : Type} [Fintype σ] (kernel : Kernel σ)

/-- All threads the kernel holds, with multiplicity. -/
def occupants (kernel : Kernel σ) : Multiset Badge :=
  badges kernel.runningThread.toList + badges kernel.waitQueue +
    ∑ name, badges (kernel.socket name).threads

theorem mem_occupants {badge : Badge} :
    badge ∈ kernel.occupants ↔ (∃ thread ∈ kernel.runningThread, thread.badge = badge) ∨
      (∃ thread ∈ kernel.waitQueue, thread.badge = badge) ∨
      ∃ name, ∃ thread ∈ (kernel.socket name).threads, thread.badge = badge := by
  simp only [occupants, Multiset.mem_add, Multiset.mem_sum, Finset.mem_univ, true_and, mem_badges,
    Option.mem_toList, Option.mem_def, or_assoc]

theorem badge_mem_of_running {thread : Thread} (running : kernel.runningThread = some thread) :
    thread.badge ∈ kernel.occupants :=
  kernel.mem_occupants.mpr (.inl ⟨thread, running, rfl⟩)

@[simp] theorem occupants_scheduleThread (thread : Thread) :
    (kernel.scheduleThread thread).occupants = thread.badge ::ₘ kernel.occupants := by
  simp [occupants, scheduleThread]

theorem occupants_scheduleSome (thread : Option Thread) :
    (kernel.scheduleSome thread).occupants = badges thread.toList + kernel.occupants := by
  cases thread <;> simp [scheduleSome]

@[simp] theorem occupants_setCurrentThread (thread : Thread) :
    (kernel.setCurrentThread thread).occupants = thread.badge ::ₘ kernel.occupants := by
  unfold setCurrentThread
  cases running : kernel.runningThread with
  | none => simp [occupants, running]
  | some old =>
    simp only [occupants, scheduleThread, running, Option.toList_some, badges_cons, badges_nil]
    simp only [← Multiset.singleton_add]
    abel

theorem occupants_updateCurrentThread (context : Context) :
    (kernel.updateCurrentThread context).occupants = kernel.restamp.occupants := by
  unfold updateCurrentThread restamp
  cases running : kernel.runningThread with
  | none => simp [occupants, running]
  | some thread =>
    simp only [occupants, Option.map_some, Option.toList_some, Option.toList_none, badges_append,
      badges_cons, badges_nil, Multiset.cons_zero, Thread.badge]
    abel

omit [Fintype σ] in
theorem runningThread_updateCurrentThread (context : Context) :
    (kernel.updateCurrentThread context).runningThread = none := by
  unfold updateCurrentThread
  cases running : kernel.runningThread <;> simp [running]

theorem occupants_schedule (context : Context) :
    (kernel.schedule context).1.occupants = kernel.restamp.occupants := by
  have idle := kernel.runningThread_updateCurrentThread context
  rw [← occupants_updateCurrentThread kernel context]
  unfold schedule
  cases queue : (kernel.updateCurrentThread context).waitQueue with
  | nil => simp [occupants, queue, idle, clearCurrentThread]
  | cons thread rest => simp [occupants, queue, idle, dispatch]

omit [Fintype σ] in
theorem restamp_of_idle (idle : kernel.runningThread = none) : kernel.restamp = kernel := by
  cases kernel
  simp_all [restamp]

theorem occupants_restamp :
    kernel.restamp.occupants + badges kernel.runningThread.toList =
      kernel.occupants + badges kernel.restamp.runningThread.toList := by
  simp only [occupants, restamp]
  abel

theorem mem_occupants_restamp {badge : Badge} (member : badge ∈ kernel.restamp.occupants) :
    badge ∈ kernel.occupants ∨ ∃ thread, kernel.runningThread = some thread ∧
      badge = { thread.badge with pageTablePhys := kernel.cr3 } := by
  rcases kernel.restamp.mem_occupants.mp member with ⟨thread, running, rfl⟩ | others
  · obtain ⟨old, before, rfl⟩ := Option.map_eq_some_iff.mp running
    exact .inr ⟨old, before, rfl⟩
  · exact .inl (kernel.mem_occupants.mpr (.inr others))

theorem threadIds_restamp :
    kernel.restamp.occupants.map Badge.threadId = kernel.occupants.map Badge.threadId := by
  simp only [occupants, restamp, Multiset.map_add]
  cases kernel.runningThread <;> rfl

theorem occupants_handBack (currentThreadId : Nat) (returning : Bool) (newThread : Option Thread) :
    (handBack currentThreadId (kernel, returning) newThread).1.occupants =
      badges newThread.toList + kernel.occupants := by
  unfold handBack
  cases newThread with
  | none => simp
  | some thread =>
    simp only [Option.toList_some, badges_cons, badges_nil]
    split <;> simp

/-- The loop after a socket call puts the returned pair back under the
scheduler, whichever of the two is the caller. -/
theorem occupants_handBackPair (currentThreadId : Nat) (exchange : Exchange) :
    (kernel.handBackPair currentThreadId exchange).1.occupants =
      badges exchange.returned + kernel.occupants := by
  unfold handBackPair
  simp only [List.foldl_cons, List.foldl_nil]
  rw [← Prod.mk.eta (p := handBack _ _ exchange.second), occupants_handBack, occupants_handBack,
    Exchange.returned, badges_append, add_assoc]

@[simp] theorem occupants_setStage (thread : Thread) (stage : Option SpawnStage) :
    (kernel.setStage thread stage).occupants = kernel.occupants := rfl

@[simp] theorem occupants_dropThread (thread : Thread) :
    (kernel.dropThread thread).occupants = kernel.occupants := by
  unfold dropThread
  split
  · rfl
  · split <;> rfl

end Occupants

section Returning

variable {σ : Type} (kernel : Kernel σ)

/-- The loop over the returned pair sets `returning` exactly when it makes the
caller the running thread again. -/
def Resumed (callerId : Nat) (state : Kernel σ × Bool) : Prop :=
  if state.2 then ∃ thread, state.1.runningThread = some thread ∧ thread.threadId = callerId
  else state.1.runningThread = none

theorem runningThread_setCurrentThread (thread : Thread) :
    (kernel.setCurrentThread thread).runningThread = some thread := by
  unfold setCurrentThread
  cases running : kernel.runningThread <;> rfl

theorem Resumed.handBack {callerId : Nat} {state : Kernel σ × Bool} (resumed : Resumed callerId state)
    (newThread : Option Thread) : Resumed callerId (handBack callerId state newThread) := by
  unfold Kernel.handBack
  cases newThread with
  | none => exact resumed
  | some thread =>
    dsimp only
    split
    · rename_i caller
      exact ⟨thread, runningThread_setCurrentThread _ thread, caller⟩
    · exact resumed

theorem resumed_handBackPair (idle : kernel.runningThread = none) (callerId : Nat)
    (exchange : Exchange) : Resumed callerId (kernel.handBackPair callerId exchange) := by
  have initial : Resumed callerId (kernel, false) := idle
  exact (initial.handBack exchange.second).handBack exchange.first

end Returning

/-- Who runs after a move, and under which page table: the thread that ran
before, or the one `schedule` picked. -/
inductive Switch {σ : Type} (before after : Kernel σ) : Prop where
  | stay (caller : after.runningThread.map Thread.threadId = before.runningThread.map Thread.threadId)
      (cr3 : after.cr3 = before.cr3)
  | pick (thread : Thread) (running : after.runningThread = some thread)
      (cr3 : after.cr3 = if thread.pageTablePhys ≠ 0 then thread.pageTablePhys else before.cr3)
  | idle (running : after.runningThread = none) (cr3 : after.cr3 = before.cr3)

section Fixed

variable {σ : Type} (kernel : Kernel σ)

@[simp] theorem fixed_clearCurrentThread : kernel.clearCurrentThread.fixed = kernel.fixed := rfl

@[simp] theorem fixed_setSocket [DecidableEq σ] (name : σ) (socket : Socket) :
    (kernel.setSocket name socket).fixed = kernel.fixed := rfl

@[simp] theorem socket_setSocket [DecidableEq σ] (name : σ) (socket : Socket) :
    (kernel.setSocket name socket).socket = Function.update kernel.socket name socket := rfl

@[simp] theorem fixed_scheduleSome (thread : Option Thread) :
    (kernel.scheduleSome thread).fixed = kernel.fixed := by
  cases thread <;> rfl

@[simp] theorem fixed_setCurrentThread (thread : Thread) :
    (kernel.setCurrentThread thread).fixed = kernel.fixed := by
  unfold setCurrentThread
  cases running : kernel.runningThread <;> rfl

@[simp] theorem cr3_setCurrentThread (thread : Thread) :
    (kernel.setCurrentThread thread).cr3 = kernel.cr3 := by
  unfold setCurrentThread
  cases running : kernel.runningThread <;> rfl

@[simp] theorem cr3_scheduleSome (thread : Option Thread) :
    (kernel.scheduleSome thread).cr3 = kernel.cr3 := by
  cases thread <;> rfl

@[simp] theorem runningThread_scheduleSome (thread : Option Thread) :
    (kernel.scheduleSome thread).runningThread = kernel.runningThread := by
  cases thread <;> rfl

@[simp] theorem fixed_schedule (context : Context) :
    (kernel.schedule context).1.fixed = kernel.fixed := by
  unfold schedule updateCurrentThread
  cases running : kernel.runningThread <;> dsimp only <;> split <;> rfl

theorem cr3_updateCurrentThread (context : Context) :
    (kernel.updateCurrentThread context).cr3 = kernel.cr3 := by
  unfold updateCurrentThread
  cases running : kernel.runningThread <;> rfl

theorem schedule_switch (context : Context) : Switch kernel (kernel.schedule context).1 := by
  have cr3 := kernel.cr3_updateCurrentThread context
  unfold schedule
  dsimp only
  split
  · exact .idle rfl cr3
  · rename_i thread rest queue
    refine .pick thread rfl ?_
    simp only [dispatch, cr3]

theorem fixed_handBackPair (callerId : Nat) (exchange : Exchange) :
    (kernel.handBackPair callerId exchange).1.fixed = kernel.fixed ∧
      (kernel.handBackPair callerId exchange).1.cr3 = kernel.cr3 := by
  have step (state : Kernel σ × Bool) (newThread : Option Thread) :
      (handBack callerId state newThread).1.fixed = state.1.fixed ∧
        (handBack callerId state newThread).1.cr3 = state.1.cr3 := by
    unfold handBack
    cases newThread with
    | none => exact ⟨rfl, rfl⟩
    | some thread =>
      dsimp only
      split
      · exact ⟨fixed_setCurrentThread _ _, cr3_setCurrentThread _ _⟩
      · exact ⟨rfl, rfl⟩
  simp only [handBackPair, List.foldl_cons, List.foldl_nil, step, and_self]

end Fixed

section Moves

variable {σ : Type} [Fintype σ] {kernel before after : Kernel σ}

/-- An operation that only moves threads about. -/
structure Move (before after : Kernel σ) : Prop where
  population : after.occupants = before.occupants ∨ after.occupants = before.restamp.occupants
  fixed : after.fixed = before.fixed
  switch : Switch before after

theorem Move.refl (kernel : Kernel σ) : Move kernel kernel :=
  ⟨.inl rfl, rfl, .stay rfl rfl⟩

theorem schedule_move (context : Context) : Move kernel (kernel.schedule context).1 :=
  ⟨.inr (kernel.occupants_schedule context), kernel.fixed_schedule context,
    kernel.schedule_switch context⟩

variable [DecidableEq σ]

theorem occupants_setSocket (name : σ) (socket : Socket) :
    (kernel.setSocket name socket).occupants + badges (kernel.socket name).threads =
      kernel.occupants + badges socket.threads := by
  have split (sockets : σ → Socket) : ∑ other, badges (sockets other).threads =
      badges (sockets name).threads + ∑ other ∈ Finset.univ.erase name, badges (sockets other).threads :=
    (Finset.add_sum_erase _ _ (Finset.mem_univ name)).symm
  have rest : ∑ other ∈ Finset.univ.erase name,
        badges (Function.update kernel.socket name socket other).threads =
      ∑ other ∈ Finset.univ.erase name, badges (kernel.socket other).threads := by
    apply Finset.sum_congr rfl
    intro other member
    rw [Function.update_of_ne (Finset.ne_of_mem_erase member)]
  simp only [occupants, setSocket]
  rw [split, split kernel.socket, rest, Function.update_self]
  abel

/-- After a socket call the handler either goes on with its caller, current
again, or schedules with nobody current. -/
theorem completeExchange_cases (idle : kernel.runningThread = none) (name : σ) (exchange : Exchange)
    (callerId : Nat) (context : Context) {result : Kernel σ × Control}
    (completed : kernel.completeExchange name exchange callerId context = result) :
    ((∃ thread, result.1.runningThread = some thread ∧ thread.threadId = callerId) ∧
        result.1.cr3 = kernel.cr3 ∨
      (∃ addr, result.2 = .launched addr) ∧ Switch kernel result.1) ∧
    result.1.fixed = kernel.fixed ∧
    result.1.occupants = badges exchange.returned + (kernel.setSocket name exchange.socket).occupants := by
  have resumed := (kernel.setSocket name exchange.socket).resumed_handBackPair idle callerId exchange
  have population := (kernel.setSocket name exchange.socket).occupants_handBackPair callerId exchange
  have kept := (kernel.setSocket name exchange.socket).fixed_handBackPair callerId exchange
  unfold completeExchange at completed
  unfold Resumed at resumed
  generalize (kernel.setSocket name exchange.socket).handBackPair callerId exchange = state
    at completed resumed population kept
  cases returning : state.2 with
  | true =>
    simp only [returning, if_true] at completed resumed
    subst completed
    exact ⟨.inl ⟨resumed, kept.2⟩, kept.1, population⟩
  | false =>
    simp only [returning, Bool.false_eq_true, if_false] at completed resumed
    subst completed
    refine ⟨.inr ⟨⟨_, rfl⟩, ?_⟩, (fixed_schedule _ _).trans kept.1, ?_⟩
    · cases schedule_switch state.1 context with
      | stay caller cr3 => exact .idle (by simpa [resumed] using caller) (cr3.trans kept.2)
      | pick thread running cr3 => exact .pick thread running (by rw [cr3, kept.2]; rfl)
      | idle running cr3 => exact .idle running (cr3.trans kept.2)
    · rw [occupants_schedule, restamp_of_idle _ resumed, population]

/-- The move of an IPC call, with the fact that a handler that goes back to its
caller has made the caller current again. -/
theorem ipcSyscall_move (context : Context) (handle : Nat) {call : Socket → Thread → Exchange}
    (conserves : ∀ socket thread, badges (call socket thread).socket.threads +
      badges (call socket thread).returned = badges socket.threads + badges [thread])
    {result : Kernel σ × Control} (performed : kernel.ipcSyscall context handle call = result) :
    Move kernel result.1 ∧ ∀ caller frame, kernel.runningThread = some caller →
      result.2 = .returned frame →
        ∃ thread, result.1.runningThread = some thread ∧ thread.threadId = caller.threadId := by
  unfold ipcSyscall at performed
  cases running : kernel.runningThread with
  | none =>
    simp only [running] at performed
    subst performed
    refine ⟨Move.refl kernel, ?_⟩
    rintro caller frame ⟨⟩
  | some current =>
    have taken : kernel.occupants = current.badge ::ₘ kernel.clearCurrentThread.occupants := by
      simp [occupants, running, clearCurrentThread]
    simp only [running] at performed
    split at performed
    · rename_i name found
      obtain ⟨control, fixed, population⟩ := completeExchange_cases rfl _ _ _ _ performed
      have conserved : result.1.occupants = kernel.occupants := by
        apply add_right_cancel (b := badges (kernel.clearCurrentThread.socket name).threads)
        rw [population, add_assoc, occupants_setSocket, taken, ← Multiset.singleton_add,
          add_comm (badges _), add_assoc, conserves]
        simp only [badges_cons, badges_nil, Thread.badge_setContext, Multiset.cons_zero]
        abel
      rcases control with ⟨⟨thread, again, same⟩, cr3⟩ | ⟨⟨addr, launched⟩, switch⟩
      · refine ⟨⟨.inl conserved, fixed, .stay ?_ cr3⟩, ?_⟩
        · rw [again, running, Option.map_some, Option.map_some, same]
        · rintro caller frame ⟨⟩ _
          exact ⟨thread, again, same⟩
      · refine ⟨⟨.inl conserved, fixed, ?_⟩, ?_⟩
        · cases switch with
          | stay caller cr3 => exact .idle (by simpa [clearCurrentThread] using caller) cr3
          | pick thread picked cr3 => exact .pick thread picked cr3
          | idle nobody cr3 => exact .idle nobody cr3
        · intro caller frame _ returned
          rw [launched] at returned
          cases returned
    · subst performed
      have again := runningThread_setCurrentThread kernel.clearCurrentThread
        ((current.setContext context.addr context.frame).returnError syscallErrorInvalidHandle)
      refine ⟨⟨.inl ?_, fixed_setCurrentThread _ _, .stay ?_ (cr3_setCurrentThread _ _)⟩, ?_⟩
      · rw [occupants_setCurrentThread, taken]
        rfl
      · rw [again, running]
        rfl
      · rintro caller frame ⟨⟩ _
        exact ⟨_, again, rfl⟩

theorem keyboardHandlerInner_move (context : Context) (key : Option UInt64) :
    Move kernel (kernel.keyboardHandlerInner context key).1 := by
  unfold keyboardHandlerInner
  cases key with
  | none => exact Move.refl kernel
  | some character =>
    dsimp only
    generalize sent : (kernel.socket kernel.keyboardSocket).sendMessage none
      (.packet messageTypeKey character 0) = exchange
    have effect : Effect (kernel.socket kernel.keyboardSocket)
        (.send none (.packet messageTypeKey character 0)) exchange := sent ▸ Call.effect _ _
    generalize woken : ((kernel.setSocket kernel.keyboardSocket exchange.socket).scheduleSome
      exchange.second).scheduleSome exchange.first = queued
    have fixed : queued.fixed = kernel.fixed := by
      rw [← woken, fixed_scheduleSome, fixed_scheduleSome, fixed_setSocket]
    have cr3 : queued.cr3 = kernel.cr3 := by
      rw [← woken, cr3_scheduleSome, cr3_scheduleSome]
      rfl
    have running : queued.runningThread = kernel.runningThread := by
      rw [← woken, runningThread_scheduleSome, runningThread_scheduleSome]
      rfl
    have population : queued.occupants = kernel.occupants := by
      apply add_right_cancel (b := badges (kernel.socket kernel.keyboardSocket).threads)
      rw [← woken, occupants_scheduleSome, occupants_scheduleSome, add_assoc, add_assoc,
        occupants_setSocket]
      have conserves := effect.conserves
      simp only [Call.caller, Option.toList_none, badges_nil, add_zero, Exchange.returned,
        badges_append] at conserves
      rw [← conserves]
      abel
    split
    · refine ⟨.inr ?_, (fixed_schedule _ _).trans fixed, ?_⟩
      · rw [occupants_schedule]
        have same : queued.restamp.runningThread = kernel.restamp.runningThread := by
          simp only [restamp, running, cr3]
        apply add_right_cancel (b := badges kernel.runningThread.toList)
        rw [occupants_restamp, ← running, occupants_restamp, population, same]
      · cases schedule_switch queued context with
        | stay caller kept => exact .stay (by rw [caller, running]) (kept.trans cr3)
        | pick thread picked kept => exact .pick thread picked (by rw [kept, cr3])
        | idle nobody kept => exact .idle nobody (kept.trans cr3)
    · exact ⟨.inl population, fixed, .stay (by rw [running]) cr3⟩

end Moves

end Kernel
end Zephyr
