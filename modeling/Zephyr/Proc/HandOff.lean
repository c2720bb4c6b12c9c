import Zephyr.Proc.Conservation

/-! The hand-off of `kernel_thread_main` in `main.rs`: after `spawn_user_thread`
has queued the user thread, the main thread sends the thread's id on `ID_SOCKET`,
where the user program's first act is to receive it. -/

namespace Zephyr

open Transition

/-- The sockets of the system: the keyboard's, the screen listener's and the
three statics of `lib.rs`. -/
inductive BootSocket where
  | keyboard
  | vga
  | id
  | fin
  | procFin
  deriving DecidableEq, Repr

instance : Fintype BootSocket where
  elems := {.keyboard, .vga, .id, .fin, .procFin}
  complete := by
    intro socket
    cases socket <;> decide

/-- The handles `kernel_thread_main` gives the user process. -/
def resources : List BootSocket := [.keyboard, .vga, .id, .fin, .procFin]

namespace Kernel

/-- `ID_SOCKET.write().send_message(None, Message::Packet(proc_id, 0, 0));` The
statement ignores the pair of threads it gets back, so both are dropped. -/
def sendProcId (kernel : Kernel BootSocket) (procId : Nat) : Kernel BootSocket :=
  let exchange := (kernel.socket .id).sendMessage none (.packet (UInt64.ofNat procId) 0 0)
  exchange.returned.foldl dropThread (kernel.setSocket .id exchange.socket)

end Kernel

/-- The main thread and the thread it spawned. -/
structure HandOff where
  main : Nat
  user : Nat

structure HandOffState where
  kernel : Kernel BootSocket
  sent : Bool := false
  received : Bool := false

inductive HandOffLabel where
  | send
  | receive (context : Context)
  | other (action : Action BootSocket)

namespace HandOff

/-- Steps of the rest of the system: interrupts, the main thread leaving
`spawn_user_thread`, and system calls of threads that hold no `ID_SOCKET` handle. -/
def Elsewhere (handOff : HandOff) (kernel : Kernel BootSocket) : Action BootSocket → Prop
  | .syscall _ _ _ _ _ _ => ∀ thread, kernel.runningThread = some thread →
      thread.threadId ≠ handOff.user ∧ ∀ handle, kernel.getSockets thread handle ≠ some .id
  | _ => True

/-- `syscall::receive(2)`, the first call of the user program. -/
def firstReceive (context : Context) : Action BootSocket :=
  .syscall context 3 2 0 0 ⟨none⟩

inductive Step (handOff : HandOff) : HandOffState → HandOffLabel → HandOffState → Prop where
  | send {state : HandOffState} {thread : Thread} (pending : state.sent = false)
      (running : state.kernel.runningThread = some thread) (main : thread.threadId = handOff.main) :
      Step handOff state .send
        { state with kernel := state.kernel.sendProcId handOff.user, sent := true }
  | receive {state : HandOffState} {thread : Thread} (context : Context)
      (pending : state.received = false) (running : state.kernel.runningThread = some thread)
      (user : thread.threadId = handOff.user) :
      Step handOff state (.receive context)
        { state with kernel := state.kernel.perform (firstReceive context), received := true }
  | other {state : HandOffState} (action : Action BootSocket)
      (elsewhere : handOff.Elsewhere state.kernel action) :
      Step handOff state (.other action) { state with kernel := state.kernel.perform action }

/-- The user thread is held, with the registers of a completed receive. -/
def Answered (handOff : HandOff) (kernel : Kernel BootSocket) : Prop :=
  ∃ thread : Thread, (thread ∈ kernel.runningThread ∨ thread ∈ kernel.waitQueue ∨
      ∃ name, thread ∈ (kernel.socket name).threads) ∧
    thread.threadId = handOff.user ∧ thread.frame.rax = 0 ∧
    thread.frame.rdi = UInt64.ofNat handOff.user

/-- From here on the user thread is held once until it exits. -/
def Kept (handOff : HandOff) (kernel : Kernel BootSocket) : Prop :=
  ∀ actions later, Run Kernel.Step kernel actions later → handOff.user ∉ later.exited →
    later.threadIds.count handOff.user = 1

end HandOff

namespace Kernel

section Frames

variable {σ : Type} (kernel : Kernel σ)

theorem socket_schedule (context : Context) : (kernel.schedule context).1.socket = kernel.socket := by
  unfold schedule updateCurrentThread
  cases running : kernel.runningThread <;> dsimp only <;> split <;> rfl

theorem socket_handBackPair (callerId : Nat) (exchange : Exchange) :
    (kernel.handBackPair callerId exchange).1.socket = kernel.socket := by
  have current (kernel : Kernel σ) (thread : Thread) :
      (kernel.setCurrentThread thread).socket = kernel.socket := by
    unfold setCurrentThread
    cases running : kernel.runningThread <;> rfl
  have step (state : Kernel σ × Bool) (newThread : Option Thread) :
      (handBack callerId state newThread).1.socket = state.1.socket := by
    unfold handBack
    cases newThread with
    | none => rfl
    | some thread =>
      dsimp only
      split
      · exact current _ _
      · rfl
  simp only [handBackPair, List.foldl_cons, List.foldl_nil, step]

variable [DecidableEq σ]

theorem socket_completeExchange (name : σ) (exchange : Exchange) (callerId : Nat) (context : Context) :
    (kernel.completeExchange name exchange callerId context).1.socket =
      Function.update kernel.socket name exchange.socket := by
  unfold completeExchange
  dsimp only
  split
  · rw [socket_handBackPair]
    rfl
  · rw [socket_schedule, socket_handBackPair]
    rfl

theorem socket_ipcSyscall (context : Context) (handle : Nat) (call : Socket → Thread → Exchange)
    {other : σ} (elsewhere : ∀ thread, kernel.runningThread = some thread →
      kernel.getSockets thread handle ≠ some other) :
    (kernel.ipcSyscall context handle call).1.socket other = kernel.socket other := by
  unfold ipcSyscall
  cases running : kernel.runningThread with
  | none => rfl
  | some thread =>
    dsimp only
    split
    · rename_i name found
      have different : other ≠ name := by
        rintro rfl
        exact elsewhere thread running found
      rw [socket_completeExchange, Function.update_of_ne different]
      rfl
    · unfold setCurrentThread
      rfl

end Frames

section Elsewhere

variable {kernel : Kernel BootSocket}

theorem socket_keyboardHandlerInner (keyboard : kernel.keyboardSocket = .keyboard) (context : Context)
    (key : Option UInt64) :
    (kernel.keyboardHandlerInner context key).1.socket .id = kernel.socket .id := by
  have woken (kernel : Kernel BootSocket) (thread : Option Thread) :
      (kernel.scheduleSome thread).socket = kernel.socket := by
    cases thread <;> rfl
  unfold keyboardHandlerInner
  cases key with
  | none => rfl
  | some character =>
    have different : BootSocket.id ≠ kernel.keyboardSocket := by
      rw [keyboard]
      decide
    dsimp only
    split
    · rw [socket_schedule, woken, woken, socket_setSocket, Function.update_of_ne different]
    · rw [woken, woken, socket_setSocket, Function.update_of_ne different]

theorem socket_id_elsewhere {handOff : HandOff} (keyboard : kernel.keyboardSocket = .keyboard)
    {action : Action BootSocket} (elsewhere : handOff.Elsewhere kernel action) :
    (kernel.perform action).socket .id = kernel.socket .id := by
  cases action with
  | spawnKernelThread => rfl
  | timer context => exact congrFun (kernel.socket_schedule context) .id
  | keyboard context key => exact socket_keyboardHandlerInner keyboard context key
  | syscall context syscallId arg1 arg2 arg3 memory =>
    have apart (handle : Nat) : ∀ thread, kernel.runningThread = some thread →
        kernel.getSockets thread handle ≠ some .id :=
      fun thread running => (elsewhere thread running).2 handle
    simp only [perform, dispatchSyscall]
    split
    · unfold forkCurrentThread
      cases kernel.runningThread with
      | none => rfl
      | some current => cases memory.stack <;> rfl
    · unfold exitCurrentThread dropThread
      cases kernel.runningThread with
      | none => rfl
      | some current =>
        dsimp only
        split
        · rfl
        · split <;> rfl
    · exact kernel.socket_ipcSyscall _ _ _ (apart _)
    · exact kernel.socket_ipcSyscall _ _ _ (apart _)
    · exact kernel.socket_ipcSyscall _ _ _ (apart _)
    · exact congrFun (kernel.socket_schedule _) .id
    · rfl
  | createKernelOnlyPagetable table =>
    simp only [perform, createKernelOnlyPagetable]
    split
    · split <;> rfl
    · rfl
  | failHeap =>
    simp only [perform, failHeap]
    split <;> rfl
  | enterUserPagetable =>
    simp only [perform, enterUserPagetable]
    split <;> rfl
  | loadSegment =>
    simp only [perform, loadSegment]
    split <;> rfl
  | failClosure draws =>
    simp only [perform, failClosure]
    split <;> rfl
  | initialiseThread =>
    simp only [perform, initialiseThread]
    split <;> rfl
  | leaveUserPagetable =>
    simp only [perform, leaveUserPagetable]
    split <;> rfl

end Elsewhere

end Kernel
namespace HandOff

variable {handOff : HandOff} {state before after : HandOffState} {kernel : Kernel BootSocket}

/-- The id packet the main thread sends. -/
def packet (handOff : HandOff) : Message := .packet (UInt64.ofNat handOff.user) 0 0

/-- The user thread is alive and its process has `ID_SOCKET` as handle 2. -/
structure Ready (handOff : HandOff) (kernel : Kernel BootSocket) : Prop where
  conserved : kernel.Conserved
  keyboard : kernel.keyboardSocket = .keyboard
  alive : handOff.user ∈ kernel.created ∧ handOff.user ∉ kernel.exited
  handle : ∀ badge ∈ kernel.occupants, badge.threadId = handOff.user → ∃ process,
    kernel.processes[badge.process]? = some process ∧ process.sockets[2]? = some (some .id)

/-- What `ID_SOCKET` holds while at most one of the two steps has happened. -/
def Rendezvous (handOff : HandOff) (state : HandOffState) : Prop :=
  match state.sent, state.received with
  | false, false => state.kernel.socket .id = .empty
  | true, false => state.kernel.socket .id = .sending none handOff.packet
  | false, true => ∃ thread, thread.threadId = handOff.user ∧
      state.kernel.socket .id = .receiving thread none
  | true, true => True

theorem Ready.of_outcome (ready : handOff.Ready kernel) {action : Action BootSocket}
    {later : Kernel BootSocket} (outcome : Outcome kernel action later)
    (stays : ∀ context syscallId arg1 arg2 arg3 memory,
      action = .syscall context syscallId arg1 arg2 arg3 memory → (syscallId &&& 0xFF).toNat = 1 →
        ∀ thread, kernel.runningThread = some thread → thread.threadId ≠ handOff.user) :
    handOff.Ready later := by
  obtain ⟨processes, created, keyboard⟩ := outcome.grows
  refine ⟨ready.conserved.of_outcome outcome, keyboard.trans ready.keyboard, ⟨?_, ?_⟩, ?_⟩
  · exact created _ ready.alive.1
  · intro member
    rcases outcome.exits member with old | ⟨_, _, _, _, _, _, thread, called, exit, running, own⟩
    · exact ready.alive.2 old
    · exact stays _ _ _ _ _ _ called exit thread running own
  · intro badge held own
    rcases outcome.origin held with fresh | ⟨old, member, id, process⟩
    · have bounded := ready.conserved.bounded _ ready.alive.1
      omega
    · obtain ⟨owner, found, granted⟩ := ready.handle old member (id.trans own)
      exact ⟨owner, process ▸ processes _ _ found, granted⟩

theorem Ready.getSockets (ready : handOff.Ready kernel) {thread : Thread}
    (running : kernel.runningThread = some thread) (user : thread.threadId = handOff.user) :
    kernel.getSockets thread 2 = some .id := by
  obtain ⟨process, found, granted⟩ := ready.handle _ (kernel.badge_mem_of_running running) user
  have listed : kernel.processes[thread.process]? = some process := found
  rw [Kernel.getSockets, listed, Option.bind_some, granted]
  rfl

theorem Ready.firstReceive (ready : handOff.Ready kernel) (context : Context) :
    handOff.Ready (kernel.perform (firstReceive context)) := by
  refine ready.of_outcome (Kernel.perform_outcome ready.conserved _) ?_
  rintro _ _ _ _ _ _ ⟨⟩ exit
  cases exit

theorem perform_firstReceive (ready : handOff.Ready kernel) {thread : Thread}
    (running : kernel.runningThread = some thread) (user : thread.threadId = handOff.user)
    (context : Context) : ∃ caller : Thread, caller.threadId = handOff.user ∧
      kernel.perform (firstReceive context) = (kernel.clearCurrentThread.completeExchange .id
        ((kernel.socket .id).receive caller) handOff.user
        { context with frame := Kernel.withSegments context.frame }).1 := by
  have named : kernel.clearCurrentThread.getSockets
      (thread.setContext context.addr (Kernel.withSegments context.frame)) 2 = some .id :=
    (ready.getSockets running user :)
  refine ⟨thread.setContext context.addr (Kernel.withSegments context.frame), user, ?_⟩
  change (kernel.ipcSyscall _ 2 Socket.receive).1 = _
  simp only [Kernel.ipcSyscall, running, named, user]
  rfl

/-- A packet without a sender moves no thread. -/
theorem Ready.park (ready : handOff.Ready kernel) (empty : kernel.socket .id = .empty)
    (message : Message) : handOff.Ready (kernel.setSocket .id (.sending none message)) := by
  have population : (kernel.setSocket .id (.sending none message)).occupants = kernel.occupants := by
    have stored : (kernel.setSocket .id (.sending none message)).occupants +
        badges (kernel.socket .id).threads = kernel.occupants + badges [] :=
      Kernel.occupants_setSocket _ _
    rw [empty] at stored
    simpa [Socket.threads] using stored
  have conserved := ready.conserved
  refine ⟨⟨?_, conserved.distinct, conserved.bounded, conserved.left⟩, ready.keyboard, ready.alive, ?_⟩
  · rw [Kernel.threadIds, population]
    exact conserved.exact
  · rw [population]
    exact ready.handle

theorem Step.ready (ready : handOff.Ready before.kernel) (rendezvous : handOff.Rendezvous before)
    {label : HandOffLabel} (step : handOff.Step before label after)
    (pending : ¬ (after.sent = true ∧ after.received = true)) :
    handOff.Ready after.kernel ∧ handOff.Rendezvous after := by
  obtain ⟨kernel, sent, received⟩ := before
  cases step with
  | send unsent running main =>
    dsimp only at unsent pending ready
    subst unsent
    obtain rfl : received = false := by simpa using pending
    have empty : kernel.socket .id = .empty := rendezvous
    have parked : kernel.sendProcId handOff.user = kernel.setSocket .id (.sending none handOff.packet) := by
      simp only [Kernel.sendProcId, empty]
      rfl
    refine ⟨?_, ?_⟩
    · rw [parked]
      exact ready.park empty handOff.packet
    · change (kernel.sendProcId handOff.user).socket .id = _
      rw [parked, Kernel.socket_setSocket, Function.update_self]
  | receive context unreceived running user =>
    dsimp only at unreceived pending ready
    subst unreceived
    obtain rfl : sent = false := by simpa using pending
    have empty : kernel.socket .id = .empty := rendezvous
    refine ⟨ready.firstReceive context, ?_⟩
    obtain ⟨caller, own, performed⟩ := perform_firstReceive ready running user context
    refine ⟨caller, own, ?_⟩
    dsimp only
    rw [performed, Kernel.socket_completeExchange, Function.update_self, empty]
    rfl
  | other action elsewhere =>
    dsimp only at ready elsewhere
    have outcome := Kernel.perform_outcome ready.conserved action
    have kept := Kernel.socket_id_elsewhere ready.keyboard elsewhere
    constructor
    · refine ready.of_outcome outcome ?_
      rintro context syscallId arg1 arg2 arg3 memory rfl exit thread running
      exact (elsewhere thread running).1
    · simpa only [Rendezvous, kept] using rendezvous

theorem ready_of_run (ready : handOff.Ready kernel) (empty : kernel.socket .id = .empty)
    {labels : List HandOffLabel} (run : Run handOff.Step { kernel := kernel } labels state)
    (pending : ¬ (state.sent = true ∧ state.received = true)) :
    handOff.Ready state.kernel ∧ handOff.Rendezvous state := by
  induction run with
  | nil => exact ⟨ready, empty⟩
  | @snoc labels middle final label earlier last ih =>
    have before : ¬ (middle.sent = true ∧ middle.received = true) := by
      rintro ⟨sent, received⟩
      cases last with
      | send => exact pending ⟨rfl, received⟩
      | receive => exact pending ⟨sent, rfl⟩
      | other => exact pending ⟨sent, received⟩
    obtain ⟨readyBefore, rendezvous⟩ := ih before
    exact last.ready readyBefore rendezvous pending

theorem sent_iff_mem {labels : List HandOffLabel}
    (run : Run handOff.Step { kernel := kernel } labels state) :
    state.sent = true ↔ .send ∈ labels := by
  induction run with
  | nil => simp
  | snoc earlier last ih => cases last <;> simp_all

theorem Answered.held (answered : handOff.Answered kernel) :
    ∃ badge ∈ kernel.occupants, badge.threadId = handOff.user := by
  obtain ⟨thread, held, own, _⟩ := answered
  refine ⟨thread.badge, kernel.mem_occupants.mpr ?_, own⟩
  rcases held with running | queued | ⟨name, inside⟩
  · exact .inl ⟨thread, running, rfl⟩
  · exact .inr (.inl ⟨thread, queued, rfl⟩)
  · exact .inr (.inr ⟨name, thread, inside, rfl⟩)

theorem sendProcId_drops (ready : handOff.Ready kernel) {parked : Thread}
    (user : parked.threadId = handOff.user) (waiting : kernel.socket .id = .receiving parked none) :
    ¬ handOff.Answered (kernel.sendProcId handOff.user) := by
  have dropped : kernel.sendProcId handOff.user =
      (kernel.setSocket .id .empty).dropThread (parked.returnMessage handOff.packet) := by
    simp only [Kernel.sendProcId, waiting]
    rfl
  have population : kernel.occupants = parked.badge ::ₘ (kernel.sendProcId handOff.user).occupants := by
    have stored : (kernel.setSocket .id .empty).occupants + badges (kernel.socket .id).threads =
        kernel.occupants + badges [] := Kernel.occupants_setSocket _ _
    rw [waiting] at stored
    rw [dropped, Kernel.occupants_dropThread, ← Multiset.singleton_add, add_comm]
    simpa [Socket.threads] using stored.symm
  intro answered
  obtain ⟨badge, member, own⟩ := answered.held
  exact ready.conserved.alone population member (own.trans user.symm)

theorem firstReceive_answers (ready : handOff.Ready kernel) {thread : Thread}
    (running : kernel.runningThread = some thread) (user : thread.threadId = handOff.user)
    (waiting : kernel.socket .id = .sending none handOff.packet) (context : Context) :
    handOff.Answered (kernel.perform (firstReceive context)) := by
  obtain ⟨caller, own, performed⟩ := perform_firstReceive ready running user context
  refine ⟨caller.returnMessage handOff.packet, .inl ?_, by simpa using own, rfl, rfl⟩
  rw [performed, waiting]
  simp only [Socket.receive, Kernel.completeExchange, Kernel.handBackPair, List.foldl_cons,
    List.foldl_nil, Kernel.handBack, Option.map_none, Thread.returnMessage_threadId, own, if_true]
  exact Kernel.runningThread_setCurrentThread _ _

/-- A live user thread stays held until it exits. -/
theorem Ready.kept (ready : handOff.Ready kernel) : handOff.Kept kernel := by
  intro actions later run alive
  obtain ⟨conserved, created, _⟩ := Kernel.conserved_run ready.conserved run
  rw [conserved.exact, if_pos ⟨created _ ready.alive.1, alive⟩]

theorem ready_initialiseThread {kernelPageTable : Nat} {booted : List (Action BootSocket)}
    (boot : Run Kernel.Step (Kernel.boot .keyboard kernelPageTable) booted kernel) {main : Thread}
    {table original : Nat} (standing : kernel.stage = some (main, .inside table original))
    (entryPoint : UInt64) (userStackEnd kernelStackStart : Nat) (garbage : ISF) :
    Ready ⟨main.threadId, kernel.counter + 1⟩
      (kernel.initialiseThread entryPoint resources userStackEnd kernelStackStart garbage) := by
  obtain ⟨conserved, _, keyboard⟩ := Kernel.conserved_run (Kernel.conserved_boot _ _) boot
  have outcome : Outcome kernel (.initialiseThread entryPoint resources userStackEnd kernelStackStart garbage)
      (kernel.initialiseThread entryPoint resources userStackEnd kernelStackStart garbage) :=
    Kernel.initialiseThread_outcome _ _ _ _ _
  have after := conserved.of_outcome outcome
  have unfolded : (kernel.initialiseThread entryPoint resources userStackEnd kernelStackStart
      garbage).occupants = ⟨kernel.counter + 1, kernel.processes.length, table, .user⟩ ::ₘ
        kernel.occupants := by
    simp only [Kernel.initialiseThread, standing, Kernel.occupants_setStage,
      Kernel.occupants_scheduleThread]
    rfl
  have processes : (kernel.initialiseThread entryPoint resources userStackEnd kernelStackStart
      garbage).processes = kernel.processes ++ [⟨table, resources.map some⟩] := by
    simp only [Kernel.initialiseThread, standing]
    rfl
  have held := unfolded ▸ Multiset.mem_cons_self _ _
  refine ⟨after, outcome.grows.2.2.trans keyboard, after.held held, ?_⟩
  intro badge member same
  rw [after.eq_of_threadId member held same, processes]
  exact ⟨_, List.getElem?_concat_length, rfl⟩

/-- When both steps of the hand-off have happened, the user thread has its id and
is kept exactly when the main thread's send came before the user thread's receive. -/
theorem boot_handoff_iff_send_first {kernelPageTable : Nat} {booted : List (Action BootSocket)}
    {kernel : Kernel BootSocket}
    (boot : Run Kernel.Step (Kernel.boot .keyboard kernelPageTable) booted kernel) {main : Thread}
    {table original : Nat} (standing : kernel.stage = some (main, .inside table original))
    (unused : kernel.socket .id = .empty) (entryPoint : UInt64) (userStackEnd kernelStackStart : Nat)
    (garbage : ISF) {labels : List HandOffLabel} {last : HandOffLabel} {state : HandOffState}
    (run : Run (Step ⟨main.threadId, kernel.counter + 1⟩)
      { kernel := kernel.initialiseThread entryPoint resources userStackEnd kernelStackStart garbage }
      (labels ++ [last]) state)
    (both : state.sent = true ∧ state.received = true)
    (completing : last = .send ∨ ∃ context, last = .receive context) :
    Answered ⟨main.threadId, kernel.counter + 1⟩ state.kernel ∧
        Kept ⟨main.threadId, kernel.counter + 1⟩ state.kernel ↔
      .send ∈ labels := by
  have ready := ready_initialiseThread boot standing entryPoint userStackEnd kernelStackStart garbage
  have empty : (kernel.initialiseThread entryPoint resources userStackEnd kernelStackStart
      garbage).socket .id = .empty := by
    simp only [Kernel.initialiseThread, standing]
    exact unused
  obtain ⟨⟨before, sent, received⟩, earlier, step⟩ := run.last
  have order := sent_iff_mem earlier
  have reached := ready_of_run ready empty earlier
  dsimp only at order reached
  rcases completing with rfl | ⟨context, rfl⟩
  · cases step with
    | send unsent running own =>
      dsimp only at unsent both
      subst unsent
      obtain ⟨_, rfl⟩ := both
      obtain ⟨waitingReady, parked, user, waiting⟩ := reached (by simp)
      rw [← order]
      simp only [Bool.false_eq_true, iff_false, not_and]
      intro answered
      exact absurd answered (sendProcId_drops waitingReady user waiting)
  · cases step with
    | receive _ unreceived running user =>
      dsimp only at unreceived both
      subst unreceived
      obtain ⟨rfl, _⟩ := both
      obtain ⟨sendingReady, waiting⟩ := reached (by simp)
      rw [← order]
      simp only [iff_true]
      exact ⟨firstReceive_answers sendingReady running user waiting context,
        (sendingReady.firstReceive context).kept⟩

section Examples

/-- The main thread runs up to the point where `initialise_thread` is called. -/
private def bootActions : List (Action BootSocket) :=
  [.spawnKernelThread 0x1000 [] 0x10000 {}, .timer ⟨0, {}⟩, .createKernelOnlyPagetable 5,
    .enterUserPagetable]

private def booted : Kernel BootSocket := bootActions.foldl Kernel.perform (Kernel.boot .keyboard 1)

private def queued : HandOffState :=
  { kernel := booted.initialiseThread 0x5000000 resources 0x30000000000 0x20000 {} }

private def advance (state : HandOffState) : HandOffLabel → HandOffState
  | .send => { state with kernel := state.kernel.sendProcId 2, sent := true }
  | .receive context =>
    { state with kernel := state.kernel.perform (firstReceive context), received := true }
  | .other action => { state with kernel := state.kernel.perform action }

private def sendFirst : List HandOffLabel :=
  [.other .leaveUserPagetable, .send, .other (.timer ⟨0xf000, {}⟩)]

private def receiveFirst : List HandOffLabel :=
  [.other .leaveUserPagetable, .other (.timer ⟨0xf000, {}⟩), .receive ⟨0x1f000, {}⟩]

private def answeredState : HandOffState :=
  (sendFirst ++ [HandOffLabel.receive ⟨0x1f000, {}⟩]).foldl advance queued

private def droppedState : HandOffState := (receiveFirst ++ [HandOffLabel.send]).foldl advance queued

private theorem sendFirst_run :
    Run (Step ⟨1, 2⟩) queued (sendFirst ++ [.receive ⟨0x1f000, {}⟩]) answeredState :=
  .cons (.other _ trivial) <| .cons (.send rfl rfl rfl) <| .cons (.other _ trivial) <|
    .cons (.receive _ rfl rfl rfl) .nil

private theorem receiveFirst_run :
    Run (Step ⟨1, 2⟩) queued (receiveFirst ++ [.send]) droppedState :=
  .cons (.other _ trivial) <| .cons (.other _ trivial) <| .cons (.receive _ rfl rfl rfl) <|
    .cons (.send rfl rfl rfl) .nil

/-- The send comes first: the user thread has its id. -/
theorem boot_handoff_iff_send_first_ordinary :
    booted.stage.map Prod.snd = some (.inside 5 1) ∧ Answered ⟨1, 2⟩ answeredState.kernel := by
  have boot : Run Kernel.Step (Kernel.boot .keyboard 1) bootActions booted := Run.foldl _ _ _
  have settled := boot_handoff_iff_send_first boot rfl rfl 0x5000000 0x30000000000 0x20000 {}
    sendFirst_run ⟨rfl, rfl⟩ (.inr ⟨_, rfl⟩)
  exact ⟨rfl, (settled.mpr (.tail _ (.head _))).1⟩

/-- A timer interrupt lets the user thread receive first: the send then drops it,
though it never exited. -/
theorem receive_before_send_drops_user :
    Run (Step ⟨1, 2⟩) queued (receiveFirst ++ [.send]) droppedState ∧
      droppedState.sent = true ∧ droppedState.received = true ∧ 2 ∈ droppedState.kernel.created ∧
      2 ∉ droppedState.kernel.exited ∧ ¬ Answered ⟨1, 2⟩ droppedState.kernel := by
  have missing : ∀ badge ∈ droppedState.kernel.occupants, badge.threadId ≠ 2 := by decide
  refine ⟨receiveFirst_run, rfl, rfl, by decide, by decide, ?_⟩
  intro answered
  obtain ⟨badge, held, own⟩ := answered.held
  exact missing badge held own

end Examples

end HandOff

end Zephyr
