import Zephyr.Proc.ReadyQueue

/-! Facts about every thread object the kernel holds. An action rewrites the
saved state of the running thread, writes replies into registers and adds new
threads; a predicate that survives these survives every run. -/

namespace Zephyr

open Transition

variable {σ : Type}

/-- Writing a reply into a thread's registers keeps the predicate. -/
structure Stable (holds : Thread → Prop) : Prop where
  error : ∀ {thread : Thread} (code : UInt64), holds thread → holds (thread.returnError code)
  message : ∀ {thread : Thread} (message : Message), holds thread → holds (thread.returnMessage message)

/-- What is known of a thread that is ready, parked with a message to send, or
parked for a message to come. -/
structure Roles where
  ready : Thread → Prop
  sends : Thread → Prop
  receives : Thread → Prop

def Roles.all (holds : Thread → Prop) : Roles := ⟨holds, holds, holds⟩

/-- An error code or a message makes a thread ready; only a receiver is given a
message. -/
structure Roles.Answered (roles : Roles) : Prop where
  sent : ∀ {thread : Thread} (code : UInt64), roles.sends thread → roles.ready (thread.returnError code)
  refused : ∀ {thread : Thread} (code : UInt64),
    roles.receives thread → roles.ready (thread.returnError code)
  received : ∀ {thread : Thread} (message : Message),
    roles.receives thread → roles.ready (thread.returnMessage message)

theorem Stable.answered {holds : Thread → Prop} (stable : Stable holds) : (Roles.all holds).Answered :=
  ⟨stable.error, stable.error, stable.message⟩

def Socket.Parks (roles : Roles) : Socket → Prop
  | .empty => True
  | .sending thread _ => ∀ sender ∈ thread, roles.sends sender
  | .receiving thread _ => roles.receives thread
  | .sendReceiving thread _ => roles.receives thread

def Call.Saves (roles : Roles) : Call → Prop
  | .send thread _ => ∀ sender ∈ thread, roles.sends sender
  | .receive thread => roles.receives thread
  | .sendReceive thread _ => roles.receives thread

theorem Socket.parks_all {holds : Thread → Prop} {socket : Socket} :
    socket.Parks (.all holds) ↔ ∀ thread ∈ socket.threads, holds thread := by
  cases socket <;> simp [Parks, Roles.all, threads]

theorem Roles.Answered.error {roles : Roles} (answered : roles.Answered) {call : Call}
    (saves : call.Saves roles) (code : UInt64) {thread : Thread} (caller : thread ∈ call.caller) :
    roles.ready (thread.returnError code) := by
  cases call with
  | send sender message => exact answered.sent code (saves thread caller)
  | receive receiver => exact Option.some.inj caller ▸ answered.refused code saves
  | sendReceive requester message => exact Option.some.inj caller ▸ answered.refused code saves

theorem Effect.placed {roles : Roles} (answered : roles.Answered) {socket : Socket} {call : Call}
    {exchange : Exchange} (effect : Effect socket call exchange) (parked : socket.Parks roles)
    (caller : call.Saves roles) :
    exchange.socket.Parks roles ∧ ∀ thread ∈ exchange.returned, roles.ready thread := by
  cases effect with
  | refused code nonzero =>
    refine ⟨parked, ?_⟩
    simpa [Exchange.returned] using fun thread given => answered.error caller code given
  | parkSender => exact ⟨caller, by simp [Exchange.returned]⟩
  | parkReceiver => exact ⟨caller, by simp [Exchange.returned]⟩
  | parkRequest => exact ⟨caller, by simp [Exchange.returned]⟩
  | @meetReceiver recThread someTid thread message permitted =>
    have woken := answered.received message parked
    refine ⟨trivial, ?_⟩
    simpa [Exchange.returned, woken] using fun sender given => answered.sent 0 (caller sender given)
  | @meetSender sender thread message =>
    have received := answered.received message caller
    refine ⟨trivial, ?_⟩
    simpa [Exchange.returned, received] using fun thread given => answered.sent 0 (parked thread given)
  | @meetRequest sender thread message =>
    exact ⟨parked, by simpa [Exchange.returned] using answered.received message caller⟩
  | @reply recThread thread someTid message permitted =>
    exact ⟨caller, by simpa [Exchange.returned] using answered.received message parked⟩

/-- The context an interrupt or system call saves for the running thread. -/
def Action.savedContext : Action σ → Option Context
  | .syscall context _ _ _ _ _ => some { context with frame := Kernel.withSegments context.frame }
  | .timer context => some context
  | .keyboard context _ => some context
  | _ => none

namespace Kernel

variable {holds : Thread → Prop} {kernel : Kernel σ}

/-- The thread is running, queued or parked in a socket. -/
def Held (kernel : Kernel σ) (thread : Thread) : Prop :=
  kernel.runningThread = some thread ∨ thread ∈ kernel.waitQueue ∨
    ∃ name, thread ∈ (kernel.socket name).threads

structure Every (holds : Thread → Prop) (kernel : Kernel σ) : Prop where
  running : ∀ thread, kernel.runningThread = some thread → holds thread
  queued : ∀ thread ∈ kernel.waitQueue, holds thread
  parked : ∀ name, ∀ thread ∈ (kernel.socket name).threads, holds thread

theorem every_iff : kernel.Every holds ↔ ∀ thread, kernel.Held thread → holds thread := by
  constructor
  · rintro every thread (running | queued | ⟨name, parked⟩)
    · exact every.running thread running
    · exact every.queued thread queued
    · exact every.parked name thread parked
  · intro all
    exact ⟨fun thread running => all thread (.inl running),
      fun thread queued => all thread (.inr (.inl queued)),
      fun name thread parked => all thread (.inr (.inr ⟨name, parked⟩))⟩

inductive Newborn (kernel : Kernel σ) : Action σ → Thread → Prop where
  | kernel (function : UInt64) (sockets : List σ) (kernelStackStart : Nat) (garbage : ISF) :
      Newborn kernel (.spawnKernelThread function sockets kernelStackStart garbage)
        { threadId := kernel.counter + 1
          process := kernel.processes.length
          kernelStackEnd := kernelStackStart + kernelStackSize
          context := kernelStackStart + kernelStackSize - interruptContextSize
          frame := { garbage with
            instructionPointer := function, flags := 0x200, codeSegment := kernelSegments.1,
            stackSegment := kernelSegments.2,
            stackPointer := UInt64.ofNat (kernelStackStart + kernelStackSize + userStackSize) }
          userStackEnd := kernelStackStart + kernelStackSize + userStackSize
          pageTablePhys := 0
          threadType := .kernel }
  | fork (context : Context) (syscallId arg1 arg2 arg3 : UInt64) (kernelStackStart userStackEnd : Nat)
      (current : Thread) (number : (syscallId &&& 0xFF).toNat = 0)
      (running : kernel.runningThread = some current) :
      Newborn kernel (.syscall context syscallId arg1 arg2 arg3 ⟨some (userStackEnd, kernelStackStart)⟩)
        { threadId := kernel.counter + 2
          process := current.process
          kernelStackEnd := kernelStackStart + kernelStackSize
          context := kernelStackStart + kernelStackSize - interruptContextSize
          frame := { withSegments context.frame with
            stackPointer := UInt64.ofNat userStackEnd, rax := 0, rdi := 0 }
          userStackEnd := userStackEnd
          pageTablePhys := current.pageTablePhys
          threadType := current.threadType }
  | user (entryPoint : UInt64) (sockets : List σ) (userStackEnd kernelStackStart : Nat) (garbage : ISF)
      (parent : Thread) (table original : Nat) (running : kernel.runningThread = some parent)
      (inside : kernel.spawning parent.threadId = some (.inside table original)) :
      Newborn kernel (.initialiseThread entryPoint sockets userStackEnd kernelStackStart garbage)
        { threadId := kernel.counter + 1
          process := kernel.processes.length
          kernelStackEnd := kernelStackStart + kernelStackSize
          context := kernelStackStart + kernelStackSize - interruptContextSize
          frame := { garbage with
            instructionPointer := entryPoint, flags := 0x200, codeSegment := userSegments.1,
            stackSegment := userSegments.2, stackPointer := UInt64.ofNat userStackEnd,
            rax := UInt64.ofNat userHeapStart, rcx := UInt64.ofNat userHeapSize }
          userStackEnd := userStackEnd
          pageTablePhys := table
          threadType := .user }

theorem Newborn.fresh {action : Action σ} {thread : Thread} (born : Newborn kernel action thread) :
    kernel.counter < thread.threadId := by
  cases born with
  | kernel | user => exact Nat.lt_succ_self _
  | fork => exact Nat.lt_add_of_pos_right (Nat.succ_pos 1)

section Identity

variable [Fintype σ]

def objects (kernel : Kernel σ) : Multiset Thread :=
  kernel.runningThread.toList + kernel.waitQueue + ∑ name, ((kernel.socket name).threads : Multiset Thread)

theorem mem_objects {thread : Thread} : thread ∈ kernel.objects ↔ kernel.Held thread := by
  simp [objects, Held, Multiset.mem_sum, or_assoc]

theorem occupants_eq_map : kernel.occupants = kernel.objects.map Thread.badge := by
  have sockets := map_sum (Multiset.mapAddMonoidHom Thread.badge)
    (fun name => ((kernel.socket name).threads : Multiset Thread)) Finset.univ
  simp only [Multiset.coe_mapAddMonoidHom, Multiset.map_coe] at sockets
  simp [occupants, objects, badges, sockets]

theorem Conserved.eq_of_held (conserved : kernel.Conserved) {thread other : Thread}
    (held : kernel.Held thread) (second : kernel.Held other)
    (same : other.threadId = thread.threadId) : other = thread := by
  obtain ⟨rest, split⟩ := Multiset.exists_cons_of_mem (mem_objects.mpr held)
  have member := mem_objects.mpr second
  rw [split, Multiset.mem_cons] at member
  rcases member with equal | elsewhere
  · exact equal
  · have occupants : kernel.occupants = thread.badge ::ₘ rest.map Thread.badge := by
      rw [occupants_eq_map, split, Multiset.map_cons]
    exact absurd same (conserved.alone occupants (Multiset.mem_map_of_mem _ elsewhere))

theorem Conserved.live_of_held (conserved : kernel.Conserved) {thread : Thread}
    (held : kernel.Held thread) : thread.threadId ∈ kernel.created ∧ thread.threadId ∉ kernel.exited := by
  have member := Multiset.mem_map_of_mem Thread.badge (mem_objects.mpr held)
  rw [← occupants_eq_map] at member
  exact conserved.held member

theorem Conserved.exists_held (conserved : kernel.Conserved) {id : Nat}
    (live : id ∈ kernel.created ∧ id ∉ kernel.exited) :
    ∃ thread, kernel.Held thread ∧ thread.threadId = id := by
  have once := conserved.exact id
  rw [if_pos live, threadIds, occupants_eq_map, Multiset.map_map] at once
  have member := Multiset.count_pos.mp (by rw [once]; exact Nat.one_pos)
  obtain ⟨thread, held, same⟩ := Multiset.mem_map.mp member
  exact ⟨thread, mem_objects.mp held, same⟩

theorem Conserved.stays_held [DecidableEq σ] (conserved : kernel.Conserved) (action : Action σ) {thread : Thread}
    (held : kernel.Held thread)
    (absent : ∀ current, kernel.runningThread = some current → current.threadId ≠ thread.threadId) :
    ∃ later, (kernel.perform action).Held later ∧ later.threadId = thread.threadId := by
  have outcome := perform_outcome conserved action
  have live := conserved.live_of_held held
  refine (conserved.of_outcome outcome).exists_held ⟨outcome.grows.2.1 _ live.1, fun gone => ?_⟩
  rcases outcome.exits gone with old | ⟨_, _, _, _, _, _, current, _, _, running, own⟩
  · exact live.2 old
  · exact absent current running own

end Identity

section Places

variable {roles : Roles}

structure OffCpu (roles : Roles) (kernel : Kernel σ) : Prop where
  queued : ∀ thread ∈ kernel.waitQueue, roles.ready thread
  parked : ∀ name, (kernel.socket name).Parks roles

/-- The running thread is ready as well. -/
structure Placed (roles : Roles) (kernel : Kernel σ) : Prop extends kernel.OffCpu roles where
  running : ∀ thread, kernel.runningThread = some thread → roles.ready thread

theorem every_iff_placed : kernel.Every holds ↔ kernel.Placed (.all holds) := by
  constructor
  · intro every
    exact ⟨⟨every.queued, fun name => Socket.parks_all.mpr (every.parked name)⟩, every.running⟩
  · intro placed
    exact ⟨placed.running, placed.queued, fun name => Socket.parks_all.mp (placed.parked name)⟩

theorem every_boot (holds : Thread → Prop) (keyboardSocket : σ) (kernelPageTable : Nat) :
    (boot keyboardSocket kernelPageTable).Every holds :=
  ⟨(fun _ running => nomatch running), fun _ queued => absurd queued List.not_mem_nil,
    fun _ _ parked => absurd parked List.not_mem_nil⟩

theorem OffCpu.scheduleThread (off : kernel.OffCpu roles) {thread : Thread} (new : roles.ready thread) :
    (kernel.scheduleThread thread).OffCpu roles :=
  ⟨List.forall_mem_cons.mpr ⟨new, off.queued⟩, off.parked⟩

theorem Placed.scheduleThread (placed : kernel.Placed roles) {thread : Thread}
    (new : roles.ready thread) : (kernel.scheduleThread thread).Placed roles :=
  ⟨placed.toOffCpu.scheduleThread new, placed.running⟩

theorem Placed.scheduleSome (placed : kernel.Placed roles) {thread : Option Thread}
    (new : ∀ given ∈ thread, roles.ready given) : (kernel.scheduleSome thread).Placed roles := by
  cases thread with
  | none => exact placed
  | some given => exact placed.scheduleThread (new given rfl)

theorem OffCpu.clearCurrentThread (off : kernel.OffCpu roles) :
    kernel.clearCurrentThread.Placed roles :=
  ⟨⟨off.queued, off.parked⟩, fun _ running => nomatch running⟩

theorem Placed.setCurrentThread (placed : kernel.Placed roles) {thread : Thread}
    (new : roles.ready thread) : (kernel.setCurrentThread thread).Placed roles := by
  have set : ({ kernel with runningThread := some thread } : Kernel σ).Placed roles :=
    ⟨⟨placed.queued, placed.parked⟩, fun _ running => Option.some.inj running ▸ new⟩
  unfold Kernel.setCurrentThread
  cases running : kernel.runningThread with
  | none => exact set
  | some old => exact set.scheduleThread (placed.running old running)

theorem Placed.setSocket [DecidableEq σ] (placed : kernel.Placed roles) (name : σ)
    {socket : Socket} (new : socket.Parks roles) :
    (kernel.setSocket name socket).Placed roles := by
  refine ⟨⟨placed.queued, ?_⟩, placed.running⟩
  intro other
  rw [socket_setSocket]
  by_cases same : other = name
  · subst same
    rwa [Function.update_self]
  · rw [Function.update_of_ne same]
    exact placed.parked other

theorem OffCpu.schedule (off : kernel.OffCpu roles) (context : Context)
    (stamped : ∀ thread ∈ kernel.preempted context, roles.ready thread) :
    (kernel.schedule context).1.Placed roles := by
  have queued : ∀ thread ∈ kernel.waitQueue ++ (kernel.preempted context).toList, roles.ready thread := by
    intro thread member
    rcases List.mem_append.mp member with old | back
    · exact off.queued thread old
    · exact stamped thread (Option.mem_toList.mp back)
  unfold Kernel.schedule
  rw [updateCurrentThread_eq]
  dsimp only
  split
  · exact ⟨⟨queued, off.parked⟩, fun _ running => nomatch running⟩
  · rename_i thread rest queue
    rw [queue] at queued
    obtain ⟨first, others⟩ := List.forall_mem_cons.mp queued
    exact ⟨⟨others, off.parked⟩, fun _ running => Option.some.inj running ▸ first⟩

theorem Placed.handBackPair (placed : kernel.Placed roles) (callerId : Nat)
    {exchange : Exchange} (new : ∀ thread ∈ exchange.returned, roles.ready thread) :
    (kernel.handBackPair callerId exchange).1.Placed roles := by
  have step (state : Kernel σ × Bool) (newThread : Option Thread) (before : state.1.Placed roles)
      (given : ∀ thread ∈ newThread, roles.ready thread) :
      (handBack callerId state newThread).1.Placed roles := by
    unfold handBack
    cases newThread with
    | none => exact before
    | some thread =>
      dsimp only
      split
      · exact before.setCurrentThread (given thread rfl)
      · exact before.scheduleThread (given thread rfl)
  simp only [Kernel.handBackPair, List.foldl_cons, List.foldl_nil]
  simp only [Exchange.returned, List.forall_mem_append, Option.mem_toList] at new
  exact step _ _ (step _ _ placed new.2) new.1

theorem Placed.forkCurrentThread (placed : kernel.Placed roles) (context : Context)
    (syscallId arg1 arg2 arg3 : UInt64) (memory : ForkMemory) (number : (syscallId &&& 0xFF).toNat = 0)
    (born : ∀ thread, Newborn kernel (.syscall context syscallId arg1 arg2 arg3 memory) thread →
      roles.ready thread) :
    (kernel.forkCurrentThread { context with frame := withSegments context.frame } memory.stack).1.Placed roles := by
  obtain ⟨stack⟩ := memory
  unfold Kernel.forkCurrentThread
  cases running : kernel.runningThread with
  | none => exact placed
  | some current =>
    cases stack with
    | none => exact ⟨⟨placed.queued, placed.parked⟩, placed.running⟩
    | some pair =>
      obtain ⟨userStackEnd, kernelStackStart⟩ := pair
      have child := born _ (.fork context syscallId arg1 arg2 arg3 kernelStackStart userStackEnd current
        number running)
      refine ⟨⟨?_, placed.parked⟩, placed.running⟩
      exact List.forall_mem_append.mpr ⟨placed.queued, List.forall_mem_singleton.mpr child⟩

theorem Placed.initialiseThread (placed : kernel.Placed roles) (entryPoint : UInt64)
    (sockets : List σ) (userStackEnd kernelStackStart : Nat) (garbage : ISF)
    (born : ∀ thread, Newborn kernel
      (.initialiseThread entryPoint sockets userStackEnd kernelStackStart garbage) thread → roles.ready thread) :
    (kernel.initialiseThread entryPoint sockets userStackEnd kernelStackStart garbage).Placed roles := by
  unfold Kernel.initialiseThread
  split
  · rename_i parent table original standing
    obtain ⟨running, inside⟩ := stage_eq_some standing
    have child := born _ (.user entryPoint sockets userStackEnd kernelStackStart garbage parent table
      original running inside)
    exact ⟨⟨List.forall_mem_cons.mpr ⟨child, placed.queued⟩, placed.parked⟩, placed.running⟩
  · exact placed

theorem Placed.of_stage {after : Kernel σ} {action : Action σ} (placed : kernel.Placed roles)
    (spawn : Stage kernel action after) : after.Placed roles := by
  cases spawn <;> exact ⟨⟨placed.queued, placed.parked⟩, placed.running⟩

theorem Placed.exitCurrentThread [Fintype σ] (placed : kernel.Placed roles) :
    kernel.exitCurrentThread.Placed roles := by
  unfold Kernel.exitCurrentThread
  cases running : kernel.runningThread with
  | none => exact placed
  | some thread =>
    have retired : (kernel.retire thread).Placed roles :=
      ⟨⟨fun queued member => placed.queued queued (List.mem_of_mem_filter member), placed.parked⟩,
        fun _ running => nomatch running⟩
    dsimp only [dropThread]
    split
    · exact retired
    · split <;> exact ⟨⟨retired.queued, retired.parked⟩, retired.running⟩

variable [DecidableEq σ]

/-- An IPC call parks its caller or answers it, and the frame it returns with is
the one it has left in the caller's thread object. -/
theorem OffCpu.ipcSyscall (off : kernel.OffCpu roles) (answered : roles.Answered)
    (context : Context) (handle : Nat) {call : Socket → Thread → Exchange} {offer : Thread → Call}
    (effect : ∀ socket thread, Effect socket (offer thread) (call socket thread))
    (caller : ∀ thread, (offer thread).caller = some thread) {current : Thread}
    (running : kernel.runningThread = some current)
    (saved : (offer (current.setContext context.addr context.frame)).Saves roles) {result : Kernel σ × Control}
    (performed : kernel.ipcSyscall context handle call = result) :
    result.1.Placed roles ∧ ∀ frame, result.2 = .returned frame →
      ∃ thread, result.1.runningThread = some thread ∧ thread.frame = frame := by
  unfold Kernel.ipcSyscall at performed
  simp only [running] at performed
  split at performed
  · rename_i name found
    obtain ⟨parked, returned⟩ := (effect (kernel.clearCurrentThread.socket name)
      (current.setContext context.addr context.frame)).placed answered
        (off.clearCurrentThread.parked name) saved
    generalize call _ _ = exchange at parked returned performed
    have handed := (off.clearCurrentThread.setSocket name parked).handBackPair
      current.threadId returned
    have resumed := (kernel.clearCurrentThread.setSocket name exchange.socket).resumed_handBackPair rfl
      current.threadId exchange
    unfold completeExchange at performed
    unfold Resumed at resumed
    generalize (kernel.clearCurrentThread.setSocket name exchange.socket).handBackPair
      current.threadId exchange = state at handed resumed performed
    cases returning : state.2 with
    | true =>
      simp only [returning, if_true] at performed resumed
      subst performed
      obtain ⟨thread, again, _⟩ := resumed
      refine ⟨handed, ?_⟩
      rintro frame ⟨⟩
      exact ⟨thread, again, by simp [again]⟩
    | false =>
      simp only [returning, Bool.false_eq_true, if_false] at performed resumed
      subst performed
      exact ⟨handed.toOffCpu.schedule _ (by simp [preempted, resumed]), fun _ returned => nomatch returned⟩
  · subst performed
    refine ⟨off.clearCurrentThread.setCurrentThread (answered.error saved _ (caller _)), ?_⟩
    rintro frame ⟨⟩
    exact ⟨_, runningThread_setCurrentThread _ _, rfl⟩

theorem ipcSyscall_idle (idle : kernel.runningThread = none) (context : Context) (handle : Nat)
    (call : Socket → Thread → Exchange) :
    kernel.ipcSyscall context handle call = (kernel, .returned context.frame) := by
  rw [Kernel.ipcSyscall, idle]

theorem OffCpu.sysReceive (off : kernel.OffCpu roles) (answered : roles.Answered)
    (context : Context) (handle : UInt64) {current : Thread} (running : kernel.runningThread = some current)
    (saved : roles.receives (current.setContext context.addr context.frame))
    {result : Kernel σ × Control}
    (performed : kernel.sysReceive context handle = result) :
    result.1.Placed roles ∧ ∀ frame, result.2 = .returned frame →
      ∃ thread, result.1.runningThread = some thread ∧ thread.frame = frame :=
  off.ipcSyscall answered context _ (fun socket thread => Call.effect socket (.receive thread))
    (fun _ => rfl) running saved performed

theorem OffCpu.sysSend (off : kernel.OffCpu roles) (answered : roles.Answered)
    (context : Context) (syscallId data1 data2 data3 : UInt64) {current : Thread}
    (running : kernel.runningThread = some current)
    (saved : (if syscallId &&& 0xFF = 4 then roles.sends else roles.receives)
      (current.setContext context.addr context.frame)) {result : Kernel σ × Control}
    (performed : kernel.sysSend context syscallId data1 data2 data3 = result) :
    result.1.Placed roles ∧ ∀ frame, result.2 = .returned frame →
      ∃ thread, result.1.runningThread = some thread ∧ thread.frame = frame := by
  unfold Kernel.sysSend at performed
  by_cases plain : syscallId &&& 0xFF = 4
  · simp only [plain, if_true] at performed saved
    exact off.ipcSyscall answered context _
      (fun socket thread => Call.effect socket (.send (some thread) (.packet data1 data2 data3)))
      (fun _ => rfl) running (fun sender same => Option.some.inj same ▸ saved) performed
  · simp only [plain, if_false] at performed saved
    exact off.ipcSyscall answered context _
      (fun socket thread => Call.effect socket (.sendReceive thread (.packet data1 data2 data3)))
      (fun _ => rfl) running saved performed

theorem Placed.keyboardHandlerInner (placed : kernel.Placed roles)
    (answered : roles.Answered) (context : Context) (key : Option UInt64)
    (stamped : ∀ thread ∈ kernel.preempted context, roles.ready thread) :
    (kernel.keyboardHandlerInner context key).1.Placed roles := by
  unfold Kernel.keyboardHandlerInner
  cases key with
  | none => exact placed
  | some character =>
    dsimp only
    have effect := Call.effect (kernel.socket kernel.keyboardSocket)
      (.send none (.packet messageTypeKey character 0))
    obtain ⟨parked, returned⟩ := effect.placed answered (placed.parked _) (fun _ given => nomatch given)
    simp only [Call.perform] at parked returned
    generalize (kernel.socket kernel.keyboardSocket).sendMessage none
      (.packet messageTypeKey character 0) = exchange at parked returned ⊢
    simp only [Exchange.returned, List.forall_mem_append, Option.mem_toList] at returned
    have woken := ((placed.setSocket kernel.keyboardSocket parked).scheduleSome
      returned.2).scheduleSome returned.1
    split
    · apply woken.toOffCpu.schedule
      rw [preempted, runningThread_scheduleSome, runningThread_scheduleSome, cr3_scheduleSome,
        cr3_scheduleSome]
      exact stamped
    · exact woken

variable [Fintype σ]

/-- The rule for thread objects: new threads are ready, a saved thread waits, a
preempted one is ready, and answers make parked threads ready. -/
theorem Placed.perform (placed : kernel.Placed roles) (answered : roles.Answered)
    (action : Action σ)
    (saved : ∀ current context, kernel.runningThread = some current →
      action.savedContext = some context → roles.sends (current.setContext context.addr context.frame) ∧
        roles.receives (current.setContext context.addr context.frame))
    (stamped : ∀ context, action.savedContext = some context →
      ∀ thread ∈ kernel.preempted context, roles.ready thread)
    (born : ∀ thread, Newborn kernel action thread → roles.ready thread) :
    (kernel.perform action).Placed roles := by
  cases action with
  | spawnKernelThread function sockets kernelStackStart garbage =>
    have child := born _ (.kernel function sockets kernelStackStart garbage)
    exact ⟨⟨List.forall_mem_cons.mpr ⟨child, placed.queued⟩, placed.parked⟩, placed.running⟩
  | syscall context syscallId arg1 arg2 arg3 memory =>
    cases running : kernel.runningThread with
    | none =>
      unfold Kernel.perform dispatchSyscall
      simp only [sysReceive, sysSend, ipcSyscall_idle running]
      split
      · exact placed.forkCurrentThread context syscallId arg1 arg2 arg3 memory ‹_› born
      · exact placed.exitCurrentThread
      · exact placed
      · exact placed
      · exact placed
      · exact placed.toOffCpu.schedule _ (stamped _ rfl)
      · exact placed
    | some current =>
      obtain ⟨sends, receives⟩ := saved current _ running rfl
      have either : (if syscallId &&& 0xFF = 4 then roles.sends else roles.receives)
          (current.setContext context.addr (withSegments context.frame)) := by
        split
        · exact sends
        · exact receives
      unfold Kernel.perform dispatchSyscall
      dsimp only
      split
      · exact placed.forkCurrentThread context syscallId arg1 arg2 arg3 memory ‹_› born
      · exact placed.exitCurrentThread
      · exact (placed.toOffCpu.sysReceive answered _ _ running receives rfl).1
      · exact (placed.toOffCpu.sysSend answered _ _ _ _ _ running either rfl).1
      · exact (placed.toOffCpu.sysSend answered _ _ _ _ _ running either rfl).1
      · exact placed.toOffCpu.schedule _ (stamped _ rfl)
      · exact placed
  | timer context => exact placed.toOffCpu.schedule context (stamped context rfl)
  | keyboard context key => exact placed.keyboardHandlerInner answered context key (stamped context rfl)
  | initialiseThread => exact placed.initialiseThread _ _ _ _ _ born
  | failClosure draws => exact placed.of_stage (failClosure_stage draws)
  | createKernelOnlyPagetable table => exact placed.of_stage (createKernelOnlyPagetable_stage table)
  | failHeap => exact placed.of_stage failHeap_stage
  | enterUserPagetable => exact placed.of_stage enterUserPagetable_stage
  | loadSegment => exact placed.of_stage loadSegment_stage
  | leaveUserPagetable => exact placed.of_stage leaveUserPagetable_stage

end Places

/-- A stable predicate that survives the saving of the running thread's state and
holds of new threads holds after the action. -/
theorem Every.perform [DecidableEq σ] [Fintype σ] (every : kernel.Every holds) (stable : Stable holds)
    (action : Action σ)
    (saved : ∀ current context, kernel.runningThread = some current →
      action.savedContext = some context → holds (current.setContext context.addr context.frame))
    (stamped : ∀ context, action.savedContext = some context →
      ∀ thread ∈ kernel.preempted context, holds thread)
    (born : ∀ thread, Newborn kernel action thread → holds thread) :
    (kernel.perform action).Every holds :=
  every_iff_placed.mpr
    ((every_iff_placed.mp every).perform stable.answered action
      (fun current context running same =>
        ⟨saved current context running same, saved current context running same⟩) stamped born)

end Kernel
end Zephyr
