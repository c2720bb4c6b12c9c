import Zephyr.Api.Syscall
import Zephyr.Proc.Exchange
import Zephyr.Sync.Progress

/-! The IPC interface of user threads refines rendezvous channels: from the registers of the
caller through the handle table and the sockets back to the registers it goes on with. -/

namespace Zephyr

open Transition Rendezvous

/-! ### Sockets are channels -/

def Socket.channel : Socket → Channel Message
  | .empty => .empty
  | .sending thread message => .sending (thread.map Thread.threadId) message
  | .receiving thread someTid => .receiving thread.threadId someTid
  | .sendReceiving thread message => .sendReceiving thread.threadId message

def Call.visit : Call → Visit Message
  | .send thread message => .send (thread.map Thread.threadId) message
  | .receive thread => .receive thread.threadId
  | .sendReceive thread message => .sendReceive thread.threadId message

/-- The registers of a thread that has been told an answer. -/
def Told : Answer Message → ISF → Prop
  | .sent, frame => frame.rax = 0
  | .packet (.packet data1 data2 data3), frame =>
    frame.rax = 0 ∧ frame.rdi = data1 ∧ frame.rsi = data2 ∧ frame.rdx = data3
  | .error code, frame => frame.rax = code

theorem told_returnMessage (thread : Thread) (message : Message) :
    Told (.packet message) (thread.returnMessage message).frame := by
  cases message
  exact ⟨rfl, rfl, rfl, rfl⟩

namespace Call

variable {socket : Socket} {call : Call}

theorem visitor_visit (call : Call) : call.visit.visitor = call.caller.map Thread.threadId := by
  cases call <;> rfl

theorem parties_channel (socket : Socket) : socket.channel.parties = socket.threads.map Thread.threadId := by
  cases socket with
  | sending thread message => cases thread <;> rfl
  | _ => rfl

theorem channel_perform (socket : Socket) (call : Call) :
    (call.perform socket).socket.channel = (socket.channel.visit call.visit).channel := by
  cases call with
  | receive thread => cases socket <;> rfl
  | send thread message =>
    cases socket with
    | receiving recThread someTid =>
      cases someTid with
      | none => rfl
      | some tid =>
        cases thread with
        | none => rfl
        | some own =>
          by_cases same : own.threadId = tid
          · subst same
            simp [perform, Socket.sendMessage, Socket.channel, visit, Channel.visit, complete]
          · simp [perform, Socket.sendMessage, Socket.channel, visit, Channel.visit, refuse, same, Ne.symm same]
    | _ => rfl
  | sendReceive thread message =>
    cases socket with
    | receiving recThread someTid =>
      cases someTid with
      | none => rfl
      | some tid =>
        by_cases same : thread.threadId = tid
        · subst same
          simp [perform, Socket.sendReceive, Socket.channel, visit, Channel.visit, await]
        · simp [perform, Socket.sendReceive, Socket.channel, visit, Channel.visit, refuse, same, Ne.symm same]
    | _ => rfl

/-- The thread has been told what a meeting answers it. -/
def Informs (meeting : Meeting Message) (thread : Thread) : Prop :=
  ∃ answer, meeting.answers.lookup thread.threadId = some answer ∧ Told answer thread.frame

section Informs

variable {thread receiver : Thread} {sender : Option Thread} {message : Message}

theorem informs_refuse (caller : Option Thread) {channel : Channel Message} {visit : Visit Message} {code : UInt64}
    (own : visit.visitor = caller.map Thread.threadId) (returned : thread ∈ caller.map (·.returnError code)) :
    Informs (refuse channel visit code) thread := by
  cases caller with
  | none => cases returned
  | some caller =>
    obtain rfl := Option.some.inj returned
    refine ⟨.error code, ?_, rfl⟩
    rw [refuse, lookup_told, own]
    exact if_pos rfl

theorem informs_complete (apart : ∀ given ∈ sender, given.threadId ≠ receiver.threadId)
    (returned : thread = receiver.returnMessage message ∨ thread ∈ sender.map (·.returnError 0)) :
    Informs (complete (sender.map Thread.threadId) message receiver.threadId) thread := by
  rcases returned with rfl | given
  · refine ⟨.packet message, ?_, told_returnMessage _ _⟩
    rw [lookup_complete]
    exact if_pos (Thread.returnMessage_threadId _ _).symm
  · obtain ⟨own, found, rfl⟩ := Option.map_eq_some_iff.mp given
    subst found
    refine ⟨.sent, ?_, rfl⟩
    rw [lookup_complete]
    exact (if_neg (Ne.symm (apart own rfl))).trans (if_pos rfl)

theorem informs_await {party : Nat} (returned : thread = receiver.returnMessage message) :
    Informs (await party message receiver.threadId) thread := by
  subst returned
  refine ⟨.packet message, ?_, told_returnMessage _ _⟩
  rw [lookup_await]
  exact if_pos (Thread.returnMessage_threadId _ _).symm

end Informs

/-- Whom a socket call hands back has been told what the visit answers. -/
theorem informs_perform (allowed : call.Allowed socket) {thread : Thread}
    (returned : thread ∈ (call.perform socket).returned) : Informs (socket.channel.visit call.visit) thread := by
  rw [Exchange.returned, List.mem_append, Option.mem_toList, Option.mem_toList] at returned
  cases call with
  | receive own =>
    cases socket with
    | empty => rcases returned with given | given <;> cases given
    | sending sender message =>
      refine informs_complete (fun given found => ?_) (returned.imp (fun first => (Option.some.inj first).symm) id)
      exact allowed own rfl given (Option.mem_toList.mpr found)
    | receiving parked someTid =>
      rcases returned with given | given
      · exact informs_refuse (some own) rfl given
      · cases given
    | sendReceiving sender message =>
      rcases returned with given | given
      · exact informs_await (Option.some.inj given).symm
      · cases given
  | send own message =>
    cases socket with
    | empty => rcases returned with given | given <;> cases given
    | sending parked offer =>
      rcases returned with given | given
      · exact informs_refuse own rfl given
      · cases given
    | sendReceiving parked offer =>
      rcases returned with given | given
      · exact informs_refuse own rfl given
      · cases given
    | receiving parked someTid =>
      have apart : ∀ given ∈ own, given.threadId ≠ parked.threadId :=
        fun given found => Ne.symm (allowed given found parked (List.mem_singleton_self _))
      cases someTid with
      | none => exact informs_complete apart (returned.imp (fun first => (Option.some.inj first).symm) id)
      | some tid =>
        cases own with
        | none => rcases returned with given | given <;> cases given
        | some own =>
          by_cases same : own.threadId = tid
          · subst same
            simp only [perform, Socket.sendMessage, ne_eq, not_true, if_false] at returned
            simp only [Socket.channel, visit, Option.map_some, Channel.visit, or_true, if_true]
            exact informs_complete apart (returned.imp (fun first => (Option.some.inj first).symm) id)
          · simp only [perform, Socket.sendMessage, ne_eq, same, not_false_eq_true, if_true] at returned
            simp only [Socket.channel, visit, Option.map_some, Channel.visit, reduceCtorEq, false_or,
              Option.some.injEq, Ne.symm same, if_false]
            rcases returned with given | given
            · exact informs_refuse (some own) rfl given
            · cases given
  | sendReceive own message =>
    cases socket with
    | empty => rcases returned with given | given <;> cases given
    | sending parked offer =>
      rcases returned with given | given
      · exact informs_refuse (some own) rfl given
      · cases given
    | sendReceiving parked offer =>
      rcases returned with given | given
      · exact informs_refuse (some own) rfl given
      · cases given
    | receiving parked someTid =>
      cases someTid with
      | none =>
        rcases returned with given | given
        · exact informs_await (Option.some.inj given).symm
        · cases given
      | some tid =>
        by_cases same : own.threadId = tid
        · subst same
          simp only [perform, Socket.sendReceive, ne_eq, not_true, if_false] at returned
          simp only [Socket.channel, visit, Channel.visit, or_true, if_true]
          rcases returned with given | given
          · exact informs_await (Option.some.inj given).symm
          · cases given
        · simp only [perform, Socket.sendReceive, ne_eq, same, not_false_eq_true, if_true] at returned
          simp only [Socket.channel, visit, Channel.visit, reduceCtorEq, false_or, Option.some.injEq, Ne.symm same,
            if_false]
          rcases returned with given | given
          · exact informs_refuse (some own) rfl given
          · cases given

end Call

/-! ### Calls of user threads -/

variable {σ : Type}

/-- The `syscall` instruction of an API call, with the address its registers are saved at. -/
def ApiCall.action (address : Nat) (registers : ISF) (call : ApiCall) : Action σ :=
  .syscall ⟨address, call.load registers⟩ (call.load registers).rax (call.load registers).rdi
    (call.load registers).rsi (call.load registers).rdx ⟨none⟩

/-- The running thread makes an API call, or anything else happens. -/
inductive IpcEvent (σ : Type) where
  | api (address : Nat) (registers : ISF) (call : ApiCall)
  | other (action : Action σ)

namespace IpcEvent

def action : IpcEvent σ → Action σ
  | .api address registers call => call.action address registers
  | .other action => action

def asked (kernel : Kernel σ) (current : Thread) : IpcEvent σ → Option (ApiCall × Option σ)
  | .api _ _ call => some (call, kernel.getSockets current call.handle)
  | .other _ => none

end IpcEvent

/-- The kernel, the channels its sockets stand for, and the API call each thread is in. A call
ends when its thread runs again: what the registers then hold is its result. -/
structure IpcState (σ : Type) where
  kernel : Kernel σ
  channels : Rendezvous.State σ Message := {}
  pending : Nat → Option (ApiCall × Option σ) := fun _ => none

theorem socketCall_api (kernel : Kernel σ) {current : Thread} (running : kernel.runningThread = some current)
    (address : Nat) (registers : ISF) (call : ApiCall) : ∃ made : Call,
      kernel.socketCall (call.action address registers) = some (kernel.getSockets current call.handle, made) ∧
      made.visit = call.visit current.threadId ∧ made.caller.map Thread.threadId = some current.threadId := by
  cases call with
  | receive socket =>
    refine ⟨.receive (current.setContext address (Kernel.withSegments (ApiCall.load (.receive socket) registers))), ?_,
      rfl, rfl⟩
    simp only [ApiCall.action, ApiCall.load, Kernel.socketCall, running, Option.bind_some]
    rfl
  | send socket message =>
    obtain ⟨data1, data2, data3⟩ := message
    have number := number_of_rax 4 (by decide) socket
    have handle := handle_of_rax 4 (by decide) socket
    refine ⟨.send (some (current.setContext address (Kernel.withSegments
      (ApiCall.load (.send socket (.packet data1 data2 data3)) registers)))) (.packet data1 data2 data3), ?_, rfl, rfl⟩
    simp only [ApiCall.action, ApiCall.load, Kernel.socketCall, running, Option.bind_some, number, handle]
    rfl
  | sendReceive fileDescriptor message =>
    obtain ⟨data1, data2, data3⟩ := message
    have number := number_of_rax 5 (by decide) fileDescriptor
    have handle := handle_of_rax 5 (by decide) fileDescriptor
    have register := or_handle 5 (by decide) fileDescriptor
    refine ⟨.sendReceive (current.setContext address (Kernel.withSegments
      (ApiCall.load (.sendReceive fileDescriptor (.packet data1 data2 data3)) registers)))
      (.packet data1 data2 data3), ?_, rfl, rfl⟩
    simp only [ApiCall.action, ApiCall.load, Message.toValues, UInt64.or_zero, register, Kernel.socketCall, running,
      Option.bind_some, number, handle]
    rfl

theorem caller_socketCall {kernel : Kernel σ} {action : Action σ} {place : Option σ} {call : Call}
    (made : kernel.socketCall action = some (place, call)) {thread : Thread} (caller : call.caller = some thread) :
    ∃ current, kernel.runningThread = some current ∧ thread.threadId = current.threadId := by
  unfold Kernel.socketCall at made
  split at made
  · obtain ⟨current, running, found⟩ := Option.bind_eq_some_iff.mp made
    refine ⟨current, running, ?_⟩
    dsimp only at found
    split at found
    · cases found
      cases caller
      rfl
    · cases found
      cases caller
      rfl
    · cases found
      cases caller
      rfl
    · cases found
  · cases made
    cases caller
  · cases made

namespace IpcState

variable [DecidableEq σ] [Fintype σ]

def after (state : IpcState σ) (event : IpcEvent σ) : IpcState σ where
  kernel := state.kernel.perform event.action
  channels :=
    match state.kernel.socketCall event.action with
    | some (place, call) => state.channels.after (place, call.visit)
    | none => state.channels
  pending :=
    match state.kernel.runningThread with
    | some current => Function.update state.pending current.threadId (event.asked state.kernel current)
    | none => state.pending

def Step (before : IpcState σ) (event : IpcEvent σ) (after : IpcState σ) : Prop := after = before.after event

omit [DecidableEq σ] [Fintype σ] in
/-- A thread that has made a call and is not waiting in it has its answer in its registers. -/
def Reads (state : IpcState σ) (thread : Thread) : Prop :=
  ∀ call place, state.pending thread.threadId = some (call, place) → ∃ since answer,
    state.channels.ticket thread.threadId = some ⟨place, call.visit thread.threadId, since, some answer⟩ ∧
      Told answer thread.frame

omit [DecidableEq σ] in
structure Refines (state : IpcState σ) : Prop where
  conserved : state.kernel.Conserved
  channels : ∀ name, (state.kernel.socket name).channel = state.channels.channel name
  coherent : state.channels.Coherent
  created : ∀ id asked, state.pending id = some asked → id ∈ state.kernel.created
  tracked : ∀ id call place, state.pending id = some (call, place) → ∃ since answer,
    state.channels.ticket id = some ⟨place, call.visit id, since, answer⟩
  reads : state.kernel.Placed (.readyOnly state.Reads)

section After

variable {state : IpcState σ} {event : IpcEvent σ} {place : Option σ} {call : Call} {id : Nat} {thread current : Thread}

theorem pending_running (running : state.kernel.runningThread = some current) :
    (state.after event).pending current.threadId = event.asked state.kernel current := by
  simp only [after, running, Function.update_self]

theorem pending_of_ne (apart : ∀ current, state.kernel.runningThread = some current → id ≠ current.threadId) :
    (state.after event).pending id = state.pending id := by
  unfold after
  cases running : state.kernel.runningThread with
  | none => rfl
  | some current => exact Function.update_of_ne (apart current running) _ _

theorem channels_of_call (made : state.kernel.socketCall event.action = some (place, call)) :
    (state.after event).channels = state.channels.after (place, call.visit) := by
  simp only [after, made]

theorem channels_of_silent (silent : state.kernel.socketCall event.action = none) :
    (state.after event).channels = state.channels := by
  simp only [after, silent]

omit [DecidableEq σ] [Fintype σ] in
theorem asked_of_silent (running : state.kernel.runningThread = some current)
    (silent : state.kernel.Silent event.action) : event.asked state.kernel current = none := by
  cases event with
  | other action => rfl
  | api address registers call =>
    obtain ⟨made, found, _, caller⟩ := socketCall_api state.kernel running address registers call
    rw [silent _ found] at caller
    cases caller

omit [DecidableEq σ] [Fintype σ] in
theorem visit_of_asked {asked : ApiCall} {handle : Option σ} (running : state.kernel.runningThread = some current)
    (made : state.kernel.socketCall event.action = some (place, call))
    (own : event.asked state.kernel current = some (asked, handle)) :
    handle = place ∧ call.visit = asked.visit current.threadId := by
  cases event with
  | other action => cases own
  | api address registers api =>
    obtain ⟨same, found, visit, _⟩ := socketCall_api state.kernel running address registers api
    cases own
    cases found.symm.trans made
    exact ⟨rfl, visit⟩

omit [DecidableEq σ] [Fintype σ] in
theorem visitor_ne (apart : ∀ current, state.kernel.runningThread = some current → id ≠ current.threadId)
    (made : state.kernel.socketCall event.action = some (place, call)) : call.visit.visitor ≠ some id := by
  intro own
  rw [Call.visitor_visit] at own
  obtain ⟨caller, calls, same⟩ := Option.map_eq_some_iff.mp own
  obtain ⟨current, running, equal⟩ := caller_socketCall made calls
  exact apart current running (same.symm.trans equal)

theorem ticket_of_ne {ticket : Ticket σ Message}
    (apart : ∀ current, state.kernel.runningThread = some current → id ≠ current.threadId)
    (found : state.channels.ticket id = some ticket) :
    ∃ answer, (state.after event).channels.ticket id = some { ticket with answer } := by
  cases made : state.kernel.socketCall event.action with
  | none =>
    rw [channels_of_silent made]
    exact ⟨ticket.answer, found⟩
  | some label =>
    rw [channels_of_call made]
    exact State.bystander_ticket (visitor_ne apart made) found

theorem ticket_of_asked {asked : ApiCall} (running : state.kernel.runningThread = some current)
    (own : event.asked state.kernel current = some (asked, place)) : ∃ answer,
      (state.after event).channels.ticket current.threadId =
        some ⟨place, asked.visit current.threadId, state.channels.transfers.length, answer⟩ := by
  cases made : state.kernel.socketCall event.action with
  | none =>
    have silent : state.kernel.Silent event.action := fun label found => nomatch made.symm.trans found
    rw [asked_of_silent running silent] at own
    cases own
  | some label =>
    obtain ⟨label, call⟩ := label
    obtain ⟨rfl, visit⟩ := visit_of_asked running made own
    have visitor : call.visit.visitor = some current.threadId := by rw [visit, ApiCall.visitor_visit]
    rw [channels_of_call made, ← visit]
    cases place with
    | none => exact ⟨_, State.nowhere_ticket visitor⟩
    | some name => exact ⟨_, State.visitor_ticket visitor⟩

namespace Refines

omit [DecidableEq σ] in
theorem parked (refines : state.Refines) {name : σ} (waits : id ∈ (state.channels.channel name).parties) :
    ∃ thread ∈ (state.kernel.socket name).threads, thread.threadId = id := by
  rw [← refines.channels, Call.parties_channel] at waits
  exact List.mem_map.mp waits

omit [DecidableEq σ] in
theorem away (refines : state.Refines) (running : state.kernel.runningThread = some current) :
    state.channels.Away current.threadId := by
  intro name waits
  obtain ⟨parked, inside, same⟩ := refines.parked waits
  exact refines.conserved.not_parked running inside same

omit [DecidableEq σ] in
theorem free (refines : state.Refines) (made : state.kernel.socketCall event.action = some (place, call)) :
    state.channels.Free call.visit := by
  intro id own name
  rw [Call.visitor_visit] at own
  obtain ⟨caller, found, rfl⟩ := Option.map_eq_some_iff.mp own
  obtain ⟨current, running, same⟩ := caller_socketCall made found
  rw [same]
  exact refines.away running name

omit [DecidableEq σ] in
theorem allowed (refines : state.Refines) {name : σ}
    (made : state.kernel.socketCall event.action = some (some name, call)) : call.Allowed (state.kernel.socket name) := by
  intro caller found parked inside same
  obtain ⟨current, running, own⟩ := caller_socketCall made found
  exact refines.conserved.not_parked running inside (same.trans own)

theorem channels_after (refines : state.Refines) (event : IpcEvent σ) (name : σ) :
    ((state.after event).kernel.socket name).channel = (state.after event).channels.channel name := by
  have sockets : (state.after event).kernel.socket =
      ((state.kernel.socketCall event.action).map state.kernel.socketsAfter).getD state.kernel.socket :=
    state.kernel.socket_perform event.action
  cases made : state.kernel.socketCall event.action with
  | none =>
    rw [channels_of_silent made, sockets, made]
    exact refines.channels name
  | some label =>
    obtain ⟨_ | place, call⟩ := label
    · rw [channels_of_call made, sockets, made]
      exact refines.channels name
    · rw [channels_of_call made, sockets, made]
      change (Function.update state.kernel.socket place (call.perform (state.kernel.socket place)).socket name).channel =
        Function.update state.channels.channel place ((state.channels.channel place).visit call.visit).channel name
      by_cases same : name = place
      · subst same
        rw [Function.update_self, Function.update_self, Call.channel_perform, refines.channels]
      · rw [Function.update_of_ne same, Function.update_of_ne same]
        exact refines.channels name

theorem coherent_after (refines : state.Refines) (event : IpcEvent σ) : (state.after event).channels.Coherent := by
  cases made : state.kernel.socketCall event.action with
  | none =>
    rw [channels_of_silent made]
    exact refines.coherent
  | some label =>
    rw [channels_of_call made]
    exact refines.coherent.after _ (refines.free made)

theorem tracked_after (refines : state.Refines) {asked : ApiCall}
    (pending : (state.after event).pending id = some (asked, place)) : ∃ since answer,
      (state.after event).channels.ticket id = some ⟨place, asked.visit id, since, answer⟩ := by
  by_cases own : ∃ current, state.kernel.runningThread = some current ∧ id = current.threadId
  · obtain ⟨current, running, rfl⟩ := own
    rw [pending_running running] at pending
    obtain ⟨answer, found⟩ := ticket_of_asked running pending
    exact ⟨_, answer, found⟩
  · have apart : ∀ current, state.kernel.runningThread = some current → id ≠ current.threadId :=
      fun current running same => own ⟨current, running, same⟩
    rw [pending_of_ne apart] at pending
    obtain ⟨since, answer, found⟩ := refines.tracked id asked place pending
    obtain ⟨later, settled⟩ := ticket_of_ne apart found
    exact ⟨since, later, settled⟩

theorem created_after (refines : state.Refines) {asked : ApiCall × Option σ}
    (pending : (state.after event).pending id = some asked) : id ∈ (state.after event).kernel.created := by
  have more := (Kernel.perform_outcome refines.conserved event.action).grows.2.1
  by_cases own : ∃ current, state.kernel.runningThread = some current ∧ id = current.threadId
  · obtain ⟨current, running, rfl⟩ := own
    exact more _ (refines.conserved.live_of_held (.inl running)).1
  · rw [pending_of_ne fun current running same => own ⟨current, running, same⟩] at pending
    exact more _ (refines.created id asked pending)

theorem reads_queued (refines : state.Refines) (queued : thread ∈ state.kernel.waitQueue) :
    (state.after event).Reads thread := by
  have apart : ∀ current, state.kernel.runningThread = some current → thread.threadId ≠ current.threadId :=
    fun current running => refines.conserved.not_queued running queued
  intro asked place pending
  rw [pending_of_ne apart] at pending
  obtain ⟨since, answer, found, told⟩ := refines.reads.queued thread queued asked place pending
  refine ⟨since, answer, ?_, told⟩
  cases made : state.kernel.socketCall event.action with
  | none => rwa [channels_of_silent made]
  | some label =>
    obtain ⟨place, call⟩ := label
    have visitor := visitor_ne apart made
    rw [channels_of_call made]
    cases place with
    | none => exact (State.aside_nowhere visitor).ticket.trans found
    | some name =>
      refine (State.aside visitor fun waits => ?_).ticket.trans found
      obtain ⟨ticket, held, _, silent⟩ := refines.coherent.waits waits
      cases held.symm.trans found
      cases silent

theorem reads_handedBack (refines : state.Refines)
    (made : state.kernel.socketCall event.action = some (place, call))
    (returned : thread ∈ state.kernel.handedBack (place, call)) : (state.after event).Reads thread := by
  intro asked handle pending
  rw [channels_of_call made]
  cases place with
  | none =>
    obtain ⟨caller, calls, rfl⟩ := List.mem_map.mp returned
    obtain ⟨current, running, same⟩ := caller_socketCall made (Option.mem_toList.mp calls)
    have pending : (state.after event).pending current.threadId = some (asked, handle) := same ▸ pending
    rw [pending_running running] at pending
    obtain ⟨rfl, visit⟩ := visit_of_asked running made pending
    have visitor : call.visit.visitor = some current.threadId := by rw [visit, ApiCall.visitor_visit]
    refine ⟨state.channels.transfers.length, .error noChannel, ?_, rfl⟩
    rw [Thread.returnError_threadId, same, State.nowhere_ticket visitor, visit]
  | some name =>
    obtain ⟨answer, told, frame⟩ := Call.informs_perform (refines.allowed made) returned
    rw [refines.channels] at told
    by_cases own : ∃ current, state.kernel.runningThread = some current ∧ thread.threadId = current.threadId
    · obtain ⟨current, running, same⟩ := own
      rw [same] at pending told ⊢
      rw [pending_running running] at pending
      obtain ⟨rfl, visit⟩ := visit_of_asked running made pending
      have visitor : call.visit.visitor = some current.threadId := by rw [visit, ApiCall.visitor_visit]
      refine ⟨state.channels.transfers.length, answer, ?_, frame⟩
      rw [State.visitor_ticket visitor, told, visit]
    · have apart : ∀ current, state.kernel.runningThread = some current → thread.threadId ≠ current.threadId :=
        fun current running same => own ⟨current, running, same⟩
      rw [pending_of_ne apart] at pending
      obtain ⟨since, earlier, found⟩ := refines.tracked thread.threadId asked handle pending
      refine ⟨since, answer, ?_, frame⟩
      rw [State.partner_ticket (visitor_ne apart made) found, told]
      rfl

theorem reads_after (refines : state.Refines) (event : IpcEvent σ) :
    (state.after event).kernel.Placed (.readyOnly (state.after event).Reads) := by
  refine Kernel.placed_perform event.action (fun thread queued => refines.reads_queued queued)
    (fun silent thread running asked place pending => ?_) (fun silent context _ thread preempted asked place pending => ?_)
    (fun thread born asked place pending => ?_) fun label made thread returned => refines.reads_handedBack made returned
  · rw [pending_running running, asked_of_silent running silent] at pending
    cases pending
  · obtain ⟨current, running, rfl⟩ := Option.map_eq_some_iff.mp preempted
    have same : (state.after event).pending current.threadId = some (asked, place) := pending
    rw [pending_running running, asked_of_silent running silent] at same
    cases same
  · have known : thread.threadId ∈ state.kernel.created := by
      by_cases own : ∃ current, state.kernel.runningThread = some current ∧ thread.threadId = current.threadId
      · obtain ⟨current, running, same⟩ := own
        exact same ▸ (refines.conserved.live_of_held (.inl running)).1
      · rw [pending_of_ne fun current running same => own ⟨current, running, same⟩] at pending
        exact refines.created _ _ pending
    exact absurd born.fresh (Nat.not_lt.mpr (refines.conserved.bounded _ known))

/-- Every event keeps the kernel a refinement of the channels. -/
theorem after (refines : state.Refines) (event : IpcEvent σ) : (state.after event).Refines :=
  ⟨refines.conserved.of_outcome (Kernel.perform_outcome refines.conserved event.action), refines.channels_after event,
    refines.coherent_after event, fun _ _ => refines.created_after, fun _ _ _ => refines.tracked_after,
    refines.reads_after event⟩

end Refines

end After

omit [DecidableEq σ] [Fintype σ] in
/-- The kernel before its first thread. -/
def boot (keyboardSocket : σ) (kernelPageTable : Nat) : IpcState σ := { kernel := .boot keyboardSocket kernelPageTable }

omit [DecidableEq σ] in
theorem refines_boot (keyboardSocket : σ) (kernelPageTable : Nat) : (boot keyboardSocket kernelPageTable).Refines :=
  ⟨Kernel.conserved_boot _ _, fun _ => rfl, State.coherent_start, nofun, nofun,
    ⟨fun _ queued => absurd queued List.not_mem_nil, fun _ => Socket.parks_readyOnly _ _⟩, nofun⟩

theorem refines_of_run {keyboardSocket : σ} {kernelPageTable : Nat} {events : List (IpcEvent σ)} {state : IpcState σ}
    (run : Run Step (boot keyboardSocket kernelPageTable) events state) : state.Refines := by
  induction run with
  | nil => exact refines_boot _ _
  | snoc _ last ih =>
    obtain rfl := last
    exact ih.after _

theorem exists_visits {keyboardSocket : σ} {kernelPageTable : Nat} {events : List (IpcEvent σ)} {state : IpcState σ}
    (run : Run Step (boot keyboardSocket kernelPageTable) events state) :
    ∃ visits, Run (Rendezvous.State.Step : Rendezvous.State σ Message → _ → _ → Prop) {} visits state.channels := by
  induction run with
  | nil => exact ⟨[], .nil⟩
  | @snoc events middle final event earlier last ih =>
    obtain rfl := last
    obtain ⟨visits, before⟩ := ih
    cases made : middle.kernel.socketCall event.action with
    | none => exact ⟨visits, (channels_of_silent made).symm ▸ before⟩
    | some label => exact ⟨_, before.snoc ⟨(refines_of_run earlier).free made, channels_of_call made⟩⟩

end IpcState

/-! ### Results -/

def Rendezvous.Answer.result : Answer Message → Except UInt64 (Option Message)
  | .sent => .ok none
  | .packet message => .ok (some message)
  | .error code => .error code

theorem result_of_error {call : ApiCall} {frame : ISF} {code : UInt64} (small : code ≠ 0 ∧ code.toNat < 256)
    (register : frame.rax = code) : call.result frame = .error code := by
  have low : code &&& 0xFF = code := by
    have mask : (0xFF : UInt64).toNat = 2 ^ 8 - 1 := rfl
    apply UInt64.toNat_inj.mp
    rw [UInt64.toNat_and, mask, Nat.and_two_pow_sub_one_eq_mod]
    exact Nat.mod_eq_of_lt small.2
  cases call with
  | receive socket => simp only [ApiCall.result, register, small.1, if_false]
  | send socket message => simp only [ApiCall.result, register, small.1, if_false]
  | sendReceive socket message => simp only [ApiCall.result, register, low, small.1, if_false]

theorem result_eq {id : Nat} {place : Option σ} {call : ApiCall} {answer : Answer Message}
    {sent got : List (Transfer σ Message)} {frame : ISF}
    (progress : Progress id place (call.visit id) (some answer) sent got) (told : Told answer frame) :
    call.result frame = answer.result := by
  generalize made : call.visit id = visit at progress
  generalize known : some answer = known at progress
  cases progress with
  | refused code small =>
    cases known
    have register : frame.rax = code := told
    exact result_of_error small register
  | sent receiver =>
    cases known
    have register : frame.rax = 0 := told
    cases call with
    | send socket message => simp only [ApiCall.result, register, if_true, Answer.result]
    | _ => cases made
  | @received place message sender =>
    cases known
    obtain ⟨data1, data2, data3⟩ := message
    obtain ⟨register, rfl, rfl, rfl⟩ := told
    cases call with
    | receive socket => simp only [ApiCall.result, register, if_true, Answer.result]
    | _ => cases made
  | @replied place message reply receiver =>
    cases known
    obtain ⟨data1, data2, data3⟩ := reply
    obtain ⟨register, rfl, rfl, rfl⟩ := told
    cases call with
    | sendReceive socket message =>
      simp only [ApiCall.result, register, Message.fromValues, Answer.result]
      rfl
    | _ => cases made
  | offered => cases known
  | waiting => cases known
  | requested => cases known
  | taken => cases known

/-- What the result of a call of a thread says about the messages that have passed since it was
made: a send returns `Ok` exactly if its message was delivered, and a message that is returned
was taken from the channel behind the handle, for a request from the party that got it. -/
def Behaves (transfers : List (Transfer σ Message)) (id since : Nat) (place : Option σ)
    (result : Except UInt64 (Option Message)) : ApiCall → Prop
  | .send _ message => result = .ok none ↔ ∃ name receiver, place = some name ∧
      sentSince transfers id since = [⟨name, some id, message, receiver⟩]
  | .receive _ => ∀ returned, result = .ok returned → ∃ name sender message, place = some name ∧
      returned = some message ∧ gotSince transfers id since = [⟨name, sender, message, id⟩]
  | .sendReceive _ message => ∀ returned, result = .ok returned → ∃ name receiver reply, place = some name ∧
      returned = some reply ∧ sentSince transfers id since = [⟨name, some id, message, receiver⟩] ∧
        gotSince transfers id since = [⟨name, some receiver, reply, id⟩]

/-- A call that is refused passes nothing. -/
def Refused (transfers : List (Transfer σ Message)) (id since : Nat) (result : Except UInt64 (Option Message)) : Prop :=
  ∀ code, result = .error code → sentSince transfers id since = [] ∧ gotSince transfers id since = []

section Results

variable {id since : Nat} {place : Option σ} {call : ApiCall} {answer : Answer Message}
variable {transfers : List (Transfer σ Message)}

theorem behaves_of_progress (progress : Progress id place (call.visit id) (some answer) (sentSince transfers id since)
    (gotSince transfers id since)) : Behaves transfers id since place answer.result call := by
  generalize made : call.visit id = visit at progress
  generalize known : some answer = known at progress
  generalize sending : sentSince transfers id since = sent at progress
  generalize getting : gotSince transfers id since = got at progress
  cases progress with
  | refused code small =>
    cases known
    cases call with
    | receive socket => exact nofun
    | sendReceive socket message => exact nofun
    | send socket message =>
      refine ⟨nofun, fun ⟨_, _, _, one⟩ => ?_⟩
      rw [sending] at one
      cases one
  | sent receiver =>
    cases known
    cases call with
    | send socket message =>
      cases made
      exact ⟨fun _ => ⟨_, _, rfl, sending⟩, fun _ => rfl⟩
    | _ => cases made
  | received sender =>
    cases known
    cases call with
    | receive socket =>
      intro returned ok
      cases ok
      exact ⟨_, _, _, rfl, rfl, getting⟩
    | _ => cases made
  | replied receiver =>
    cases known
    cases call with
    | sendReceive socket message =>
      cases made
      intro returned ok
      cases ok
      exact ⟨_, _, _, rfl, rfl, sending, getting⟩
    | _ => cases made
  | offered => cases known
  | waiting => cases known
  | requested => cases known
  | taken => cases known

theorem refused_of_progress (progress : Progress id place (call.visit id) (some answer) (sentSince transfers id since)
    (gotSince transfers id since)) : Refused transfers id since answer.result := by
  intro code failed
  generalize call.visit id = visit at progress
  generalize known : some answer = known at progress
  generalize sentSince transfers id since = sent at progress ⊢
  generalize gotSince transfers id since = got at progress ⊢
  cases progress with
  | refused code small => exact ⟨rfl, rfl⟩
  | sent receiver | received sender | replied receiver =>
    cases known
    cases failed
  | offered | waiting | requested | taken => cases known

end Results

namespace IpcState

variable [DecidableEq σ] [Fintype σ] {state : IpcState σ} {current : Thread}

omit [DecidableEq σ] in
theorem Refines.behaves (refines : state.Refines) (running : state.kernel.runningThread = some current) {call : ApiCall}
    {place : Option σ} (pending : state.pending current.threadId = some (call, place)) : ∃ since answer,
      state.channels.ticket current.threadId = some ⟨place, call.visit current.threadId, since, some answer⟩ ∧
      Behaves state.channels.transfers current.threadId since place (call.result current.frame) call ∧
      Refused state.channels.transfers current.threadId since (call.result current.frame) := by
  obtain ⟨since, answer, found, told⟩ := refines.reads.running current running call place pending
  have progress := (refines.coherent.progress _ _ found).2
  rw [result_eq progress told]
  exact ⟨since, answer, found, behaves_of_progress progress, refused_of_progress progress⟩

theorem perform_of_no_socket {kernel : Kernel σ} (running : kernel.runningThread = some current) {call : ApiCall}
    (nowhere : kernel.getSockets current call.handle = none) (address : Nat) (registers : ISF) :
    kernel.perform (call.action address registers) = { kernel with
      runningThread := some ((current.setContext address
        (Kernel.withSegments (call.load registers))).returnError syscallErrorInvalidHandle) } := by
  obtain ⟨made, found, _, _⟩ := socketCall_api kernel running address registers call
  rw [nowhere] at found
  cases kernel.dispatched ⟨address, call.load registers⟩ (call.load registers).rax (call.load registers).rdi
    (call.load registers).rsi (call.load registers).rdx ⟨none⟩ with
  | ipc handle body offer offers caller named performed =>
    have away : kernel.getSockets current handle = none := by
      have same := named.symm.trans found
      rw [running] at same
      exact congrArg Prod.fst (Option.some.inj same)
    refine performed.trans ?_
    unfold Kernel.ipcSyscall
    simp only [running]
    have same : kernel.clearCurrentThread.getSockets (current.setContext address
      (Kernel.withSegments (call.load registers))) handle = none := away
    rw [same]
    rfl
  | fork _ silent _ | exit silent _ | yield silent _ | ignored silent _ => cases silent.symm.trans found

/-- User IPC refines the rendezvous channels. In every run the channels take a run of visits of
their own, the sockets are their states, whatever passed was offered, the result of each API call
tells what has passed for it, and a call without a socket fails with 3 and changes the caller
only. -/
theorem user_ipc_refines_channels {keyboardSocket : σ} {kernelPageTable : Nat} {events : List (IpcEvent σ)}
    (run : Run Step (boot keyboardSocket kernelPageTable) events state) :
    (∃ visits, Run (State.Step : Rendezvous.State σ Message → _ → _ → Prop) {} visits state.channels) ∧
    (∀ name, (state.kernel.socket name).channel = state.channels.channel name) ∧
    (∀ passed ∈ state.channels.transfers, state.channels.Offered passed) ∧
    (∀ thread call place, state.kernel.runningThread = some thread →
      state.pending thread.threadId = some (call, place) → ∃ since answer,
        state.channels.ticket thread.threadId = some ⟨place, call.visit thread.threadId, since, some answer⟩ ∧
        Behaves state.channels.transfers thread.threadId since place (call.result thread.frame) call ∧
        Refused state.channels.transfers thread.threadId since (call.result thread.frame)) ∧
    ∀ thread call address registers, state.kernel.runningThread = some thread →
      state.kernel.getSockets thread call.handle = none → ∃ told : Thread,
        (state.after (.api address registers call)).kernel = { state.kernel with runningThread := some told } ∧
        told.threadId = thread.threadId ∧ call.result told.frame = .error 3 := by
  have refines := refines_of_run run
  refine ⟨exists_visits run, refines.channels, refines.coherent.offered, fun thread call place running pending =>
    refines.behaves running pending, fun thread call address registers running nowhere =>
    ⟨_, perform_of_no_socket running nowhere address registers, rfl, result_of_error (by decide) rfl⟩⟩

section Examples

/-- The first kernel thread takes its turn. -/
def kernelEvents : List (IpcEvent σ) :=
  [.other (.spawnKernelThread 0x200000 [] 0x444444440000 {}), .other (.timer ⟨0x444444442f60, {}⟩)]

/-- The steps of `spawn_user_thread` in the kernel thread that runs. -/
def spawnUserEvents (table userStackEnd kernelStackStart : Nat) (sockets : List σ) : List (IpcEvent σ) :=
  [.other (.createKernelOnlyPagetable table), .other .enterUserPagetable,
    .other (.initialiseThread 0x5000000 sockets userStackEnd kernelStackStart {}), .other .leaveUserPagetable]

/-- The registers of a thread in user code. -/
def userRegisters : ISF where
  instructionPointer := 0x5000100
  flags := 0x200
  codeSegment := userSegments.1
  stackSegment := userSegments.2

/-- The user threads 2 and 4 of two processes share a socket, and thread 4 runs. -/
def sharedSocket : List (IpcEvent Unit) :=
  kernelEvents ++ spawnUserEvents 91 0x30000023000 0x444444450000 [()] ++
    spawnUserEvents 92 0x30000033000 0x444444460000 [()] ++ [.other (.timer ⟨0x444444442f60, {}⟩)]

/-- One user thread waits at the socket, the other sends there, and the first goes on. -/
private def relay : List (IpcEvent Unit) :=
  [.api 0x444444462f60 userRegisters (.receive 0), .api 0x444444452f60 userRegisters (.send 0 (.packet 7 8 9)),
    .other (.timer ⟨0x444444452f60, userRegisters⟩)]

private def relayed : IpcState Unit := (sharedSocket ++ relay).foldl after (boot () 1)

theorem user_ipc_refines_channels_relayed : ∃ thread, relayed.kernel.runningThread = some thread ∧
    thread.threadType = .user ∧ ∃ since,
      Behaves relayed.channels.transfers thread.threadId since (some ()) (.ok (some (.packet 7 8 9))) (.receive 0) := by
  have run : Run Step (boot () 1) _ relayed := Run.foldl after (boot () 1) _
  obtain ⟨since, _, _, behaves, _⟩ := (user_ipc_refines_channels run).2.2.2.1
    (relayed.kernel.runningThread.get rfl) (.receive 0) (some ()) rfl rfl
  exact ⟨relayed.kernel.runningThread.get rfl, rfl, rfl, since, behaves⟩

end Examples

end IpcState

end Zephyr
