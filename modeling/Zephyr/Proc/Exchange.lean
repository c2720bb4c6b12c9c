import Zephyr.Proc.HandOff
import Zephyr.Proc.Holdings

/-! The socket call behind an action: which call is made at which socket, whom it hands back,
and that nothing else reaches a socket or answers a thread. -/

namespace Zephyr

variable {σ : Type}

def Roles.readyOnly (holds : Thread → Prop) : Roles := ⟨holds, fun _ => True, fun _ => True⟩

theorem Socket.parks_readyOnly (holds : Thread → Prop) (socket : Socket) : socket.Parks (.readyOnly holds) := by
  cases socket with
  | sending sender _ => exact fun _ _ => trivial
  | _ => trivial

namespace Kernel

/-- The socket an action reaches, if the handle names one, and the call it makes there. -/
def socketCall (kernel : Kernel σ) : Action σ → Option (Option σ × Call)
  | .syscall context syscallId arg1 arg2 arg3 _ =>
    kernel.runningThread.bind fun current =>
      let thread := current.setContext context.addr (withSegments context.frame)
      match (syscallId &&& 0xFF).toNat with
      | 3 => some (kernel.getSockets current arg1.toNat, .receive thread)
      | 4 => some (kernel.getSockets current (syscallId >>> 32).toNat, .send (some thread) (.packet arg1 arg2 arg3))
      | 5 => some (kernel.getSockets current (syscallId >>> 32).toNat, .sendReceive thread (.packet arg1 arg2 arg3))
      | _ => none
  | .keyboard _ (some character) =>
    some (some kernel.keyboardSocket, .send none (.packet messageTypeKey character 0))
  | _ => none

def handedBack (kernel : Kernel σ) : Option σ × Call → List Thread
  | (some name, call) => (call.perform (kernel.socket name)).returned
  | (none, call) => call.caller.toList.map (·.returnError syscallErrorInvalidHandle)

variable [DecidableEq σ]

def socketsAfter (kernel : Kernel σ) : Option σ × Call → σ → Socket
  | (some name, call) => Function.update kernel.socket name (call.perform (kernel.socket name)).socket
  | (none, _) => kernel.socket

section Ipc

variable {holds : Thread → Prop} {kernel : Kernel σ} {call : Socket → Thread → Exchange} {offer : Thread → Call}
variable {current : Thread} (context : Context) (handle : Nat)

omit [DecidableEq σ] in
theorem socket_setCurrentThread (kernel : Kernel σ) (thread : Thread) :
    (kernel.setCurrentThread thread).socket = kernel.socket := by
  unfold setCurrentThread
  cases kernel.runningThread <;> rfl

theorem socket_ipcSyscall_eq (offers : ∀ socket thread, call socket thread = (offer thread).perform socket)
    (running : kernel.runningThread = some current) : (kernel.ipcSyscall context handle call).1.socket =
      kernel.socketsAfter (kernel.getSockets current handle, offer (current.setContext context.addr context.frame)) := by
  unfold ipcSyscall
  simp only [running]
  have same : kernel.clearCurrentThread.getSockets (current.setContext context.addr context.frame) handle =
      kernel.getSockets current handle := rfl
  rw [same]
  cases kernel.getSockets current handle with
  | none => exact socket_setCurrentThread _ _
  | some name =>
    dsimp only
    rw [socket_completeExchange, offers]
    rfl

theorem placed_ipcSyscall (offers : ∀ socket thread, call socket thread = (offer thread).perform socket)
    (caller : ∀ thread, (offer thread).caller = some thread) (running : kernel.runningThread = some current)
    (queued : ∀ thread ∈ kernel.waitQueue, holds thread)
    (answered : ∀ thread ∈ kernel.handedBack
      (kernel.getSockets current handle, offer (current.setContext context.addr context.frame)), holds thread) :
    (kernel.ipcSyscall context handle call).1.Placed (.readyOnly holds) := by
  have off : kernel.OffCpu (.readyOnly holds) := ⟨queued, fun name => Socket.parks_readyOnly holds _⟩
  unfold ipcSyscall
  simp only [running]
  have same : kernel.clearCurrentThread.getSockets (current.setContext context.addr context.frame) handle =
      kernel.getSockets current handle := rfl
  rw [same]
  generalize kernel.getSockets current handle = place at answered ⊢
  cases place with
  | none =>
    refine off.clearCurrentThread.setCurrentThread (answered _ ?_)
    rw [handedBack, caller]
    exact List.mem_singleton_self _
  | some name =>
    dsimp only
    rw [offers]
    generalize performed : (offer _).perform _ = exchange
    have returned : ∀ thread ∈ exchange.returned, holds thread := by
      rw [← performed]
      exact answered
    have handed := (off.clearCurrentThread.setSocket name (Socket.parks_readyOnly holds exchange.socket)).handBackPair
      current.threadId returned
    have resumed := (kernel.clearCurrentThread.setSocket name exchange.socket).resumed_handBackPair rfl
      current.threadId exchange
    unfold completeExchange
    unfold Resumed at resumed
    generalize (kernel.clearCurrentThread.setSocket name exchange.socket).handBackPair
      current.threadId exchange = state at handed resumed
    cases returning : state.2 with
    | true =>
      simp only [returning, if_true]
      exact handed
    | false =>
      simp only [returning, Bool.false_eq_true, if_false] at resumed ⊢
      exact handed.toOffCpu.schedule _ (by simp [preempted, resumed])

end Ipc

section Dispatch

variable [Fintype σ] {kernel : Kernel σ} {context : Context} {syscallId arg1 arg2 arg3 : UInt64} {memory : ForkMemory}

/-- What a system call is, by its number. -/
inductive Dispatched (kernel : Kernel σ) (context : Context) (syscallId arg1 arg2 arg3 : UInt64) (memory : ForkMemory) :
    Prop where
  | ipc (handle : Nat) (call : Socket → Thread → Exchange) (offer : Thread → Call)
      (offers : ∀ socket thread, call socket thread = (offer thread).perform socket)
      (caller : ∀ thread, (offer thread).caller = some thread)
      (named : kernel.socketCall (.syscall context syscallId arg1 arg2 arg3 memory) = kernel.runningThread.map fun current =>
        (kernel.getSockets current handle, offer (current.setContext context.addr (withSegments context.frame))))
      (performed : kernel.perform (.syscall context syscallId arg1 arg2 arg3 memory) =
        (kernel.ipcSyscall { context with frame := withSegments context.frame } handle call).1)
  | fork (number : (syscallId &&& 0xFF).toNat = 0)
      (silent : kernel.socketCall (.syscall context syscallId arg1 arg2 arg3 memory) = none)
      (performed : kernel.perform (.syscall context syscallId arg1 arg2 arg3 memory) = (kernel.forkCurrentThread
        { context with frame := withSegments context.frame } memory.stack).1)
  | exit (silent : kernel.socketCall (.syscall context syscallId arg1 arg2 arg3 memory) = none)
      (performed : kernel.perform (.syscall context syscallId arg1 arg2 arg3 memory) = kernel.exitCurrentThread)
  | yield (silent : kernel.socketCall (.syscall context syscallId arg1 arg2 arg3 memory) = none)
      (performed : kernel.perform (.syscall context syscallId arg1 arg2 arg3 memory) =
        (kernel.schedule { context with frame := withSegments context.frame }).1)
  | ignored (silent : kernel.socketCall (.syscall context syscallId arg1 arg2 arg3 memory) = none)
      (performed : kernel.perform (.syscall context syscallId arg1 arg2 arg3 memory) = kernel)

theorem dispatched (kernel : Kernel σ) (context : Context) (syscallId arg1 arg2 arg3 : UInt64) (memory : ForkMemory) :
    Dispatched kernel context syscallId arg1 arg2 arg3 memory := by
  have silent (receive : (syscallId &&& 0xFF).toNat ≠ 3) (send : (syscallId &&& 0xFF).toNat ≠ 4)
      (sendReceive : (syscallId &&& 0xFF).toNat ≠ 5) :
      kernel.socketCall (.syscall context syscallId arg1 arg2 arg3 memory) = none := by
    unfold socketCall
    cases kernel.runningThread with
    | none => rfl
    | some current =>
      dsimp only [Option.bind_some]
      split <;> first | rfl | contradiction
  by_cases fork : (syscallId &&& 0xFF).toNat = 0
  · exact .fork fork (silent (by omega) (by omega) (by omega)) (by simp only [perform, dispatchSyscall, fork])
  by_cases exit : (syscallId &&& 0xFF).toNat = 1
  · exact .exit (silent (by omega) (by omega) (by omega)) (by simp only [perform, dispatchSyscall, exit])
  by_cases receive : (syscallId &&& 0xFF).toNat = 3
  · refine .ipc arg1.toNat Socket.receive Call.receive (fun _ _ => rfl) (fun _ => rfl) ?_ ?_
    · simp only [socketCall, receive]
      cases kernel.runningThread <;> rfl
    · simp only [perform, dispatchSyscall, receive]
      rfl
  by_cases send : (syscallId &&& 0xFF).toNat = 4
  · have number : syscallId &&& 0xFF = 4 := UInt64.toNat_inj.mp send
    refine .ipc (syscallId >>> 32).toNat
      (fun socket thread => if syscallId &&& 0xFF = 4
        then socket.sendMessage (some thread) (.packet arg1 arg2 arg3)
        else socket.sendReceive thread (.packet arg1 arg2 arg3))
      (fun thread => .send (some thread) (.packet arg1 arg2 arg3))
      (fun socket thread => if_pos number) (fun _ => rfl) ?_ ?_
    · simp only [socketCall, send]
      cases kernel.runningThread <;> rfl
    · simp only [perform, dispatchSyscall, send]
      rfl
  by_cases sendReceive : (syscallId &&& 0xFF).toNat = 5
  · have number : syscallId &&& 0xFF ≠ 4 := fun same => send (congrArg UInt64.toNat same)
    refine .ipc (syscallId >>> 32).toNat
      (fun socket thread => if syscallId &&& 0xFF = 4
        then socket.sendMessage (some thread) (.packet arg1 arg2 arg3)
        else socket.sendReceive thread (.packet arg1 arg2 arg3))
      (fun thread => .sendReceive thread (.packet arg1 arg2 arg3))
      (fun socket thread => if_neg number) (fun _ => rfl) ?_ ?_
    · simp only [socketCall, sendReceive]
      cases kernel.runningThread <;> rfl
    · simp only [perform, dispatchSyscall, sendReceive]
      rfl
  by_cases yields : (syscallId &&& 0xFF).toNat = 9
  · exact .yield (silent receive send sendReceive) (by simp only [perform, dispatchSyscall, yields, sysYield])
  · refine .ignored (silent receive send sendReceive) ?_
    simp only [perform, dispatchSyscall]

end Dispatch

section Perform

variable {kernel : Kernel σ}

omit [DecidableEq σ] in
theorem socket_forkCurrentThread (context : Context) (stack : Option (Nat × Nat)) :
    (kernel.forkCurrentThread context stack).1.socket = kernel.socket := by
  unfold forkCurrentThread
  cases kernel.runningThread with
  | none => rfl
  | some current => cases stack <;> rfl

omit [DecidableEq σ] in
theorem socket_scheduleSome (kernel : Kernel σ) (thread : Option Thread) :
    (kernel.scheduleSome thread).socket = kernel.socket := by
  cases thread <;> rfl

theorem socket_keyboardHandlerInner_eq (context : Context) (key : Option UInt64) :
    (kernel.keyboardHandlerInner context key).1.socket =
      ((kernel.socketCall (.keyboard context key)).map kernel.socketsAfter).getD kernel.socket := by
  cases key with
  | none => rfl
  | some character =>
    unfold keyboardHandlerInner
    dsimp only
    split
    · rw [socket_schedule, socket_scheduleSome, socket_scheduleSome, socket_setSocket]
      rfl
    · rw [socket_scheduleSome, socket_scheduleSome, socket_setSocket]
      rfl

omit [DecidableEq σ] in
theorem socket_of_stage {action : Action σ} {after : Kernel σ} (spawn : Stage kernel action after) :
    after.socket = kernel.socket := by
  cases spawn <;> rfl

variable [Fintype σ]

omit [DecidableEq σ] in
theorem socket_exitCurrentThread : kernel.exitCurrentThread.socket = kernel.socket := by
  unfold exitCurrentThread dropThread
  cases kernel.runningThread with
  | none => rfl
  | some current =>
    dsimp only
    split
    · rfl
    · split <;> rfl

theorem socket_perform (kernel : Kernel σ) (action : Action σ) : (kernel.perform action).socket =
    ((kernel.socketCall action).map kernel.socketsAfter).getD kernel.socket := by
  cases action with
  | spawnKernelThread => rfl
  | syscall context syscallId arg1 arg2 arg3 memory =>
    cases kernel.dispatched context syscallId arg1 arg2 arg3 memory with
    | ipc handle call offer offers caller named performed =>
      rw [named, performed]
      cases running : kernel.runningThread with
      | none =>
        rw [ipcSyscall_idle running]
        rfl
      | some current => exact socket_ipcSyscall_eq _ handle offers running
    | fork _ silent performed =>
      rw [silent, performed]
      exact socket_forkCurrentThread _ _
    | exit silent performed =>
      rw [silent, performed]
      exact socket_exitCurrentThread
    | yield silent performed =>
      rw [silent, performed]
      exact socket_schedule _ _
    | ignored silent performed =>
      rw [silent, performed]
      rfl
  | timer context => exact socket_schedule _ _
  | keyboard context key => exact socket_keyboardHandlerInner_eq context key
  | initialiseThread =>
    simp only [perform, initialiseThread]
    split <;> rfl
  | failClosure draws => exact socket_of_stage (failClosure_stage draws)
  | createKernelOnlyPagetable table => exact socket_of_stage (createKernelOnlyPagetable_stage table)
  | failHeap => exact socket_of_stage failHeap_stage
  | enterUserPagetable => exact socket_of_stage enterUserPagetable_stage
  | loadSegment => exact socket_of_stage loadSegment_stage
  | leaveUserPagetable => exact socket_of_stage leaveUserPagetable_stage

end Perform

section Ready

variable {holds : Thread → Prop} {kernel : Kernel σ}

/-- The action makes no socket call for the running thread. -/
def Silent (kernel : Kernel σ) (action : Action σ) : Prop :=
  ∀ label, kernel.socketCall action = some label → label.2.caller = none

theorem placed_keyboardHandlerInner (context : Context) (key : Option UInt64)
    (placed : kernel.Placed (.readyOnly holds)) (stamped : ∀ thread ∈ kernel.preempted context, holds thread)
    (answered : ∀ label, kernel.socketCall (.keyboard context key) = some label →
      ∀ thread ∈ kernel.handedBack label, holds thread) :
    (kernel.keyboardHandlerInner context key).1.Placed (.readyOnly holds) := by
  cases key with
  | none => exact placed
  | some character =>
    have returned := answered _ rfl
    unfold keyboardHandlerInner
    simp only [handedBack, Call.perform, Exchange.returned, List.forall_mem_append, Option.mem_toList] at returned ⊢
    generalize (kernel.socket kernel.keyboardSocket).sendMessage none
      (.packet messageTypeKey character 0) = exchange at returned ⊢
    have woken := ((placed.setSocket kernel.keyboardSocket (Socket.parks_readyOnly holds exchange.socket)).scheduleSome
      returned.2).scheduleSome returned.1
    split
    · apply woken.toOffCpu.schedule
      rw [preempted, runningThread_scheduleSome, runningThread_scheduleSome, cr3_scheduleSome, cr3_scheduleSome]
      exact stamped
    · exact woken

/-- The ready threads after an action: those that were queued, the running thread unless it has
made a socket call, new threads, and those the socket call hands back. -/
theorem placed_perform [Fintype σ] (action : Action σ) (queued : ∀ thread ∈ kernel.waitQueue, holds thread)
    (running : kernel.Silent action → ∀ thread, kernel.runningThread = some thread → holds thread)
    (stamped : kernel.Silent action → ∀ context, action.savedContext = some context →
      ∀ thread ∈ kernel.preempted context, holds thread)
    (born : ∀ thread, Newborn kernel action thread → holds thread)
    (answered : ∀ label, kernel.socketCall action = some label → ∀ thread ∈ kernel.handedBack label, holds thread) :
    (kernel.perform action).Placed (.readyOnly holds) := by
  have off : kernel.OffCpu (.readyOnly holds) := ⟨queued, fun name => Socket.parks_readyOnly holds _⟩
  have quiet (silent : kernel.socketCall action = none) : kernel.Silent action :=
    fun label found => nomatch silent.symm.trans found
  have whole (silent : kernel.Silent action) : kernel.Placed (.readyOnly holds) := ⟨off, running silent⟩
  cases action with
  | spawnKernelThread function sockets kernelStackStart garbage =>
    have child := born _ (.kernel function sockets kernelStackStart garbage)
    have placed := whole (quiet rfl)
    exact ⟨⟨List.forall_mem_cons.mpr ⟨child, placed.queued⟩, placed.parked⟩, placed.running⟩
  | syscall context syscallId arg1 arg2 arg3 memory =>
    cases kernel.dispatched context syscallId arg1 arg2 arg3 memory with
    | ipc handle call offer offers caller named performed =>
      rw [performed]
      cases current : kernel.runningThread with
      | none =>
        rw [ipcSyscall_idle current]
        exact ⟨off, fun thread some_thread => nomatch current.symm.trans some_thread⟩
      | some thread =>
        rw [current] at named
        exact placed_ipcSyscall _ handle offers caller current queued (answered _ named)
    | fork number silent performed =>
      rw [performed]
      exact (whole (quiet silent)).forkCurrentThread context syscallId arg1 arg2 arg3 memory number born
    | exit silent performed =>
      rw [performed]
      exact (whole (quiet silent)).exitCurrentThread
    | yield silent performed =>
      rw [performed]
      exact off.schedule _ (stamped (quiet silent) _ rfl)
    | ignored silent performed =>
      rw [performed]
      exact whole (quiet silent)
  | timer context => exact off.schedule context (stamped (quiet rfl) context rfl)
  | keyboard context key =>
    have silent : kernel.Silent (.keyboard context key) := by
      cases key with
      | none => exact quiet rfl
      | some character =>
        intro label found
        cases found
        rfl
    exact placed_keyboardHandlerInner context key (whole silent) (stamped silent context rfl) answered
  | initialiseThread => exact (whole (quiet rfl)).initialiseThread _ _ _ _ _ born
  | failClosure draws => exact (whole (quiet rfl)).of_stage (failClosure_stage draws)
  | createKernelOnlyPagetable table => exact (whole (quiet rfl)).of_stage (createKernelOnlyPagetable_stage table)
  | failHeap => exact (whole (quiet rfl)).of_stage failHeap_stage
  | enterUserPagetable => exact (whole (quiet rfl)).of_stage enterUserPagetable_stage
  | loadSegment => exact (whole (quiet rfl)).of_stage loadSegment_stage
  | leaveUserPagetable => exact (whole (quiet rfl)).of_stage leaveUserPagetable_stage

end Ready

end Kernel

end Zephyr
