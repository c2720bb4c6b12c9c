import Zephyr.Sync.Socket
import Zephyr.Transition.Run

/-! Requests and replies over one socket: a thread parked by `send_receive` comes back
with a packet of the thread its request went to, and of no other. -/

namespace Zephyr

open Transition

namespace Socket

/-- Calls on a socket, by threads that are not parked in it. -/
def Step (before : Socket) (call : Call) (after : Socket) : Prop :=
  call.Allowed before ∧ after = (call.perform before).socket

end Socket

/-- Nothing changes and the calling thread, if there is one, gets an error. -/
structure Exchange.Refuses (exchange : Exchange) (socket : Socket) (call : Call) : Prop where
  unchanged : exchange.socket = socket
  silent : exchange.delivered = []
  error : ∃ code, code ≠ 0 ∧ exchange.returned = (call.caller.map (·.returnError code)).toList

def Exchange.HandsBack (exchange : Exchange) (threadId : Nat) : Prop :=
  ∃ thread ∈ exchange.returned, thread.threadId = threadId

instance (exchange : Exchange) (threadId : Nat) : Decidable (exchange.HandsBack threadId) :=
  inferInstanceAs (Decidable (∃ thread ∈ exchange.returned, thread.threadId = threadId))

namespace Effect

variable {socket : Socket} {call : Call} {exchange : Exchange}
variable {requester : Thread} {message : Message} {replier : Nat}

theorem refuses {code : UInt64} (nonzero : code ≠ 0) :
    Exchange.Refuses ⟨socket, call.caller.map (·.returnError code), none, []⟩ socket call :=
  ⟨rfl, rfl, code, nonzero, by simp [Exchange.returned]⟩

/-- A request that waits is refused to everyone but a receiver, who gets it and becomes
the only one to reply. -/
theorem waiting_request (effect : Effect (.sendReceiving requester message) call exchange) :
    exchange.Refuses (.sendReceiving requester message) call ∨ ∃ receiver : Thread,
      exchange = ⟨.receiving requester (some receiver.threadId), some (receiver.returnMessage message), none,
        [(receiver.threadId, message)]⟩ ∧ call = .receive receiver := by
  cases effect with
  | refused code nonzero => exact .inl (refuses nonzero)
  | @meetRequest _ thread _ => exact .inr ⟨thread, rfl, rfl⟩

/-- While a reply is awaited from one thread, everyone else is refused, and what that
thread sends goes to the requester. -/
theorem awaited_reply (effect : Effect (.receiving requester (some replier)) call exchange) :
    exchange.Refuses (.receiving requester (some replier)) call ∨ ∃ reply,
      call.offer = [(some replier, reply)] ∧ exchange.first = some (requester.returnMessage reply) ∧
        call.caller.map Thread.threadId = some replier ∧
        ∀ thread ∈ exchange.second, thread.threadId = replier := by
  cases effect with
  | refused code nonzero => exact .inl (refuses nonzero)
  | @meetReceiver _ _ thread reply permitted =>
    have own := permitted replier rfl
    refine .inr ⟨reply, by rw [Call.offer, own], rfl, own, fun other listed => ?_⟩
    obtain ⟨sender, sent, rfl⟩ := Option.map_eq_some_iff.mp listed
    rw [sent] at own
    exact Option.some.inj own
  | @reply _ thread _ answer permitted =>
    obtain rfl := permitted replier rfl
    exact .inr ⟨answer, rfl, rfl, rfl, fun _ listed => by cases listed⟩

theorem accepted_request (effect : Effect socket (.sendReceive requester message) exchange)
    (accepted : exchange.socket ≠ socket) :
    (exchange.socket = .sendReceiving requester message ∧ exchange.delivered = []) ∨
      ∃ receiver, exchange.socket = .receiving requester (some receiver) ∧
        exchange.delivered = [(receiver, message)] := by
  cases effect with
  | refused code nonzero => exact absurd rfl accepted
  | parkRequest => exact .inl ⟨rfl, rfl⟩
  | @reply recThread _ _ _ permitted => exact .inr ⟨recThread.threadId, rfl, rfl⟩

end Effect

theorem Exchange.Refuses.not_handsBack {exchange : Exchange} {socket : Socket} {call : Call} {parked : Thread}
    (refuses : exchange.Refuses socket call) (allowed : call.Allowed socket)
    (inside : parked ∈ socket.threads) : ¬ exchange.HandsBack parked.threadId := by
  rintro ⟨thread, returned, same⟩
  obtain ⟨code, _, only⟩ := refuses.error
  rw [only] at returned
  obtain ⟨caller, called, rfl⟩ := Option.map_eq_some_iff.mp (Option.mem_toList.mp returned)
  exact allowed caller called parked inside same.symm

/-- The calls made while a thread stays parked. -/
def Socket.WaitStep (threadId : Nat) (before : Socket) (call : Call) (after : Socket) : Prop :=
  before.Step call after ∧ ¬ (call.perform before).HandsBack threadId

def Socket.after (socket : Socket) (calls : List Call) : Socket :=
  calls.foldl (fun socket call => (call.perform socket).socket) socket

/-- What the calls deliver, oldest first. -/
def Socket.deliveries : Socket → List Call → List (Nat × Message)
  | _, [] => []
  | socket, call :: calls =>
    (call.perform socket).delivered ++ deliveries (call.perform socket).socket calls

section Runs

variable {socket last : Socket} {call : Call} {calls more : List Call}
variable {requester : Thread} {message : Message} {replier : Nat}

theorem Socket.after_append : socket.after (calls ++ more) = (socket.after calls).after more :=
  List.foldl_append ..

theorem Socket.deliveries_append : socket.deliveries (calls ++ more) =
    socket.deliveries calls ++ (socket.after calls).deliveries more := by
  induction calls generalizing socket with
  | nil => rfl
  | cons call calls ih =>
    rw [List.cons_append, deliveries, deliveries, ih, List.append_assoc]
    rfl

theorem refused_calls (refused : ∀ call ∈ calls, (call.perform socket).Refuses socket call) :
    socket.after calls = socket ∧ socket.deliveries calls = [] := by
  induction calls with
  | nil => exact ⟨rfl, rfl⟩
  | cons call calls ih =>
    have first := refused call (List.mem_cons_self ..)
    obtain ⟨still, silent⟩ := ih fun other listed => refused other (List.mem_cons_of_mem _ listed)
    rw [Socket.deliveries, Socket.after, List.foldl_cons, first.unchanged, first.silent]
    exact ⟨still, silent⟩

theorem awaited_step (step : Socket.WaitStep requester.threadId (.receiving requester (some replier)) call last) :
    (call.perform (.receiving requester (some replier))).Refuses (.receiving requester (some replier)) call := by
  refine (call.effect (.receiving requester (some replier))).awaited_reply.resolve_right ?_
  rintro ⟨reply, _, first, _⟩
  refine step.2 ⟨requester.returnMessage reply, ?_, by simp⟩
  simp [Exchange.returned, first]

theorem awaited_run (run : Run (Socket.WaitStep requester.threadId) (.receiving requester (some replier)) calls last) :
    last = .receiving requester (some replier) ∧ ∀ call ∈ calls,
      (call.perform (.receiving requester (some replier))).Refuses (.receiving requester (some replier)) call := by
  induction run with
  | nil => exact ⟨rfl, fun _ listed => absurd listed List.not_mem_nil⟩
  | @snoc calls middle last call _ step ih =>
    obtain ⟨rfl, refused⟩ := ih
    have refuses := awaited_step step
    obtain ⟨⟨_, rfl⟩, _⟩ := step
    exact ⟨refuses.unchanged, List.forall_mem_append.mpr ⟨refused, List.forall_mem_singleton.mpr refuses⟩⟩

theorem waiting_run (run : Run (Socket.WaitStep requester.threadId) (.sendReceiving requester message) calls last) :
    last = .sendReceiving requester message ∧ (∀ call ∈ calls,
      (call.perform (.sendReceiving requester message)).Refuses (.sendReceiving requester message) call) ∨
    ∃ (wait turn : List Call) (receiver : Thread), calls = wait ++ .receive receiver :: turn ∧
      last = .receiving requester (some receiver.threadId) ∧ (∀ call ∈ wait,
        (call.perform (.sendReceiving requester message)).Refuses (.sendReceiving requester message) call) ∧
      ∀ call ∈ turn, (call.perform (.receiving requester (some receiver.threadId))).Refuses
        (.receiving requester (some receiver.threadId)) call := by
  induction run with
  | nil => exact .inl ⟨rfl, fun _ listed => absurd listed List.not_mem_nil⟩
  | @snoc calls middle last call _ step ih =>
    rcases ih with ⟨rfl, refused⟩ | ⟨wait, turn, receiver, rfl, rfl, early, late⟩
    · obtain ⟨⟨_, rfl⟩, _⟩ := step
      rcases (call.effect (.sendReceiving requester message)).waiting_request with refuses | ⟨receiver, done, rfl⟩
      · exact .inl ⟨refuses.unchanged, List.forall_mem_append.mpr ⟨refused, List.forall_mem_singleton.mpr refuses⟩⟩
      · refine .inr ⟨calls, [], receiver, rfl, ?_, refused, fun _ listed => absurd listed List.not_mem_nil⟩
        rw [done]
    · have refuses := awaited_step step
      obtain ⟨⟨_, rfl⟩, _⟩ := step
      exact .inr ⟨wait, turn ++ [call], receiver, by simp, refuses.unchanged, early,
        List.forall_mem_append.mpr ⟨late, List.forall_mem_singleton.mpr refuses⟩⟩

theorem awaited_back {back : Thread} (allowed : call.Allowed (.receiving requester (some replier)))
    (handed : back ∈ (call.perform (.receiving requester (some replier))).returned)
    (same : back.threadId = requester.threadId) :
    call.offer = [(some replier, back.packet)] ∧ back.frame.rax = 0 := by
  have parked : requester ∈ (Socket.receiving requester (some replier)).threads := List.mem_singleton_self _
  rcases (call.effect (.receiving requester (some replier))).awaited_reply with
    refuses | ⟨reply, offered, first, caller, second⟩
  · exact absurd ⟨back, handed, same⟩ (refuses.not_handsBack allowed parked)
  · rcases List.mem_append.mp handed with member | member
    · rw [first, Option.toList_some, List.mem_singleton] at member
      subst member
      exact ⟨by simpa using offered, by simp⟩
    · -- the other thread handed back is the caller, which is not parked
      have own := second back (Option.mem_toList.mp member)
      obtain ⟨thread, called, isReplier⟩ := Option.map_eq_some_iff.mp caller
      exact absurd (same.symm.trans (own.trans isReplier.symm)) (allowed thread called requester parked)

end Runs

/-- A request delivered once, to `replier`, by the call between `before` and `turn`; from
then on nobody else can use the socket. -/
structure Served (socket : Socket) (message : Message) (before : List Call) (delivery : Call)
    (turn : List Call) (replier : Nat) : Prop where
  quiet : socket.deliveries before = []
  delivered : socket.deliveries (before ++ [delivery]) = [(replier, message)]
  once : socket.deliveries (before ++ delivery :: turn) = [(replier, message)]
  exclusive : ∀ stretch, stretch <+: turn → ∀ call : Call, call.caller.map Thread.threadId ≠ some replier →
    (call.perform (socket.after (before ++ delivery :: stretch))).Refuses
      (socket.after (before ++ delivery :: stretch)) call

theorem served_of_delivery {socket : Socket} {requester : Thread} {message : Message} {replier : Nat}
    {before turn : List Call} {delivery : Call} (quiet : socket.deliveries before = [])
    (delivers : (delivery.perform (socket.after before)).delivered = [(replier, message)])
    (leaves : (delivery.perform (socket.after before)).socket = .receiving requester (some replier))
    (refused : ∀ call ∈ turn,
      (call.perform (.receiving requester (some replier))).Refuses (.receiving requester (some replier)) call) :
    Served socket message before delivery turn replier := by
  have reached : ∀ stretch, stretch <+: turn →
      socket.after (before ++ delivery :: stretch) = .receiving requester (some replier) ∧
        socket.deliveries (before ++ delivery :: stretch) = [(replier, message)] := by
    intro stretch part
    obtain ⟨still, silent⟩ := refused_calls fun call listed => refused call (part.subset listed)
    rw [Socket.after_append, Socket.deliveries_append, Socket.deliveries, leaves, silent, quiet, delivers]
    refine ⟨?_, rfl⟩
    rw [Socket.after, List.foldl_cons, leaves]
    exact still
  refine ⟨quiet, (reached [] List.nil_prefix).2, (reached turn (List.prefix_refl turn)).2, ?_⟩
  intro stretch part call other
  rw [(reached stretch part).1]
  refine (call.effect _).awaited_reply.resolve_right ?_
  rintro ⟨_, _, _, own, _⟩
  exact other own

/-- A thread parked by an accepted `send_receive` that is handed back: its request was
delivered once, to the thread whose packet it now gets, and between the two that thread
alone could use the socket. -/
theorem request_reply_pairing {socket last : Socket} {requester back : Thread} {message : Message}
    {middle : List Call} {reply : Call} (accepted : Call.Accepted socket (.sendReceive requester message))
    (waits : Run (Socket.WaitStep requester.threadId) ((Call.sendReceive requester message).perform socket).socket
      middle last)
    (allowed : reply.Allowed last) (handed : back ∈ (reply.perform last).returned)
    (same : back.threadId = requester.threadId) :
    ∃ (before turn : List Call) (delivery : Call) (replier : Nat),
      .sendReceive requester message :: middle = before ++ delivery :: turn ∧
      Served socket message before delivery turn replier ∧
      reply.offer = [(some replier, back.packet)] ∧ back.frame.rax = 0 := by
  rcases ((Call.sendReceive requester message).effect socket).accepted_request accepted with
    ⟨parked, silent⟩ | ⟨receiver, leaves, delivered⟩
  · rw [parked] at waits
    rcases waiting_run waits with ⟨rfl, _⟩ | ⟨wait, turn, receiver, rfl, rfl, early, late⟩
    · -- a request that still waits is not answered
      rcases (reply.effect (.sendReceiving requester message)).waiting_request with refuses | ⟨receiver, done, rfl⟩
      · exact absurd ⟨back, handed, same⟩ (refuses.not_handsBack allowed (List.mem_singleton_self _))
      · rw [done] at handed
        obtain rfl := List.mem_singleton.mp handed
        exact absurd same.symm (allowed receiver rfl requester (List.mem_singleton_self _))
    · obtain ⟨still, quiet⟩ := refused_calls early
      have reached : socket.after (.sendReceive requester message :: wait) = .sendReceiving requester message := by
        rw [Socket.after, List.foldl_cons, parked]
        exact still
      refine ⟨.sendReceive requester message :: wait, turn, .receive receiver, receiver.threadId, rfl, ?_,
        awaited_back allowed handed same⟩
      refine served_of_delivery ?_ (by rw [reached]; rfl) (by rw [reached]; rfl) late
      rw [Socket.deliveries, parked, silent, quiet]
      rfl
  · rw [leaves] at waits
    obtain ⟨rfl, refused⟩ := awaited_run waits
    exact ⟨[], middle, .sendReceive requester message, receiver, rfl,
      served_of_delivery rfl delivered leaves refused, awaited_back allowed handed same⟩

section Examples

private def client : Thread := ⟨1, 0, 0x2000, 0, {}, 0, 0, .user⟩
private def server : Thread := { client with threadId := 2 }
private def stranger : Thread := { client with threadId := 3 }

/-- A server takes a request, a stranger is turned away, and the server answers. -/
theorem request_reply_pairing_exchange : ∃ (before turn : List Call) (delivery : Call) (replier : Nat),
    [.sendReceive client (.packet 7 8 9), .receive server, .send (some stranger) (.packet 0 0 0)] =
      before ++ delivery :: turn ∧
    Served .empty (.packet 7 8 9) before delivery turn replier ∧
    (Call.send (some server) (.packet 4 5 6)).offer = [(some replier, .packet 4 5 6)] := by
  have accepted : Call.Accepted .empty (.sendReceive client (.packet 7 8 9)) := by decide
  have waits : Run (Socket.WaitStep client.threadId) (.sendReceiving client (.packet 7 8 9))
      [.receive server, .send (some stranger) (.packet 0 0 0)] (.receiving client (some 2)) :=
    .cons ⟨⟨by decide, rfl⟩, by decide⟩ (.cons ⟨⟨by decide, rfl⟩, by decide⟩ .nil)
  have allowed : Call.Allowed (.receiving client (some 2)) (.send (some server) (.packet 4 5 6)) := by decide
  have handed : client.returnMessage (.packet 4 5 6) ∈
      ((Call.send (some server) (.packet 4 5 6)).perform (.receiving client (some 2))).returned := by decide
  obtain ⟨before, turn, delivery, replier, split, served, offered, _⟩ :=
    request_reply_pairing accepted waits allowed handed rfl
  exact ⟨before, turn, delivery, replier, split, served, offered⟩

end Examples

end Zephyr
