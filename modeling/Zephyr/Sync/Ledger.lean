import Zephyr.Sync.Socket
import Zephyr.Transition.Run

/-! The ledger of one socket: every accepted send is delivered exactly once and
in order, and a refused call has no effect but the error code it returns. -/

namespace Zephyr

open Transition

/-- The socket together with the offers accepted and the packets delivered so
far, both oldest first. -/
structure Ledger where
  socket : Socket := .empty
  accepted : List (Option Nat × Message) := []
  delivered : List (Nat × Message) := []
  deriving DecidableEq, Repr

namespace Ledger

def after (ledger : Ledger) (call : Call) : Ledger where
  socket := (call.perform ledger.socket).socket
  accepted := ledger.accepted ++ if call.Accepted ledger.socket then call.offer else []
  delivered := ledger.delivered ++ (call.perform ledger.socket).delivered

def Step (before : Ledger) (call : Call) (next : Ledger) : Prop :=
  call.Allowed before.socket ∧ next = before.after call

/-- Delivered packets followed by the waiting one are the accepted packets, and
a waiting packet is the latest accepted offer, made by the parked sender. -/
structure Balanced (ledger : Ledger) : Prop where
  packets : ledger.delivered.map Prod.snd ++ ledger.socket.pending = ledger.accepted.map Prod.snd
  owner : ∀ sender message, ledger.socket = .sending sender message →
    ledger.accepted.getLast? = some (sender.map Thread.threadId, message)

end Ledger

namespace Effect

variable {socket : Socket} {call : Call} {exchange : Exchange}

/-- One call moves packets from the offer through the waiting slot to a
receiver, in that order. -/
theorem balance (effect : Effect socket call exchange) (allowed : call.Allowed socket) :
    exchange.delivered.map Prod.snd ++ exchange.socket.pending =
      socket.pending ++ (if exchange.socket ≠ socket then call.offer else []).map Prod.snd := by
  cases effect with
  | refused code nonzero => simp
  | parkSender | parkReceiver | parkRequest | meetReceiver _ | meetSender =>
    simp [Socket.pending, Call.offer]
  | meetRequest => simp [Socket.pending, Call.offer]
  | @reply recThread thread someTid message permitted =>
    -- The parked receiver is not the caller, so the reply slot changes hands.
    have other : thread ≠ recThread := by
      intro same
      subst same
      exact allowed thread rfl thread (by simp [Socket.threads]) rfl
    simp [Socket.pending, Call.offer, other]

theorem waiting {sender : Option Thread} {message : Message}
    (effect : Effect socket call exchange) (waits : exchange.socket = .sending sender message) :
    (socket = .sending sender message ∧ exchange.socket = socket) ∨
      (exchange.socket ≠ socket ∧ call.offer = [(sender.map Thread.threadId, message)]) := by
  cases effect with
  | refused code nonzero => exact .inl ⟨waits, rfl⟩
  | parkSender =>
    obtain ⟨rfl, rfl⟩ := Socket.sending.inj waits
    exact .inr ⟨by simp, rfl⟩
  | parkReceiver | parkRequest | meetReceiver _ | meetSender | meetRequest | reply _ =>
    simp at waits

theorem of_refused (effect : Effect socket call exchange) (allowed : call.Allowed socket)
    (unchanged : exchange.socket = socket) :
    exchange.delivered = [] ∧ ∃ code, code ≠ 0 ∧
      exchange.returned = (call.caller.map (·.returnError code)).toList := by
  cases effect with
  | refused code nonzero => exact ⟨rfl, code, nonzero, by simp [Exchange.returned]⟩
  | @reply recThread thread someTid message permitted =>
    obtain ⟨rfl, _⟩ := Socket.receiving.inj unchanged
    exact absurd rfl (allowed thread rfl thread (by simp [Socket.threads]))
  | parkSender | parkReceiver | parkRequest | meetReceiver _ | meetSender | meetRequest =>
    simp at unchanged

/-- Every delivery is read back by a thread the call hands out, with `rax = 0`. -/
theorem delivered_returned {receiver : Nat} {message : Message}
    (effect : Effect socket call exchange) (delivery : (receiver, message) ∈ exchange.delivered) :
    ∃ thread ∈ exchange.returned, thread.threadId = receiver ∧
      thread.frame.rax = 0 ∧ thread.packet = message := by
  cases effect with
  | refused _ _ | parkSender | parkReceiver | parkRequest => simp at delivery
  | meetReceiver _ | meetSender | meetRequest | reply _ =>
    simp only [List.mem_singleton, Prod.mk.injEq] at delivery
    obtain ⟨rfl, rfl⟩ := delivery
    exact ⟨_, List.mem_append_left _ (Option.mem_toList.mpr rfl), by simp⟩

/-- A parked sender comes back exactly when its packet is delivered, and then
with `rax = 0`. -/
theorem sender_returned {sender : Thread} {message : Message}
    (effect : Effect (.sending (some sender) message) call exchange)
    (allowed : call.Allowed (.sending (some sender) message)) :
    ((∃ thread ∈ exchange.returned, thread.threadId = sender.threadId) ↔
      exchange.delivered.map Prod.snd = [message]) ∧
    ∀ thread ∈ exchange.returned, thread.threadId = sender.threadId → thread.frame.rax = 0 := by
  have other : ∀ thread ∈ call.caller, sender.threadId ≠ thread.threadId :=
    fun thread member => allowed thread member sender (by simp [Socket.threads])
  cases effect with
  | refused code nonzero =>
    have absent : ∀ thread ∈ (call.caller.map (·.returnError code)).toList,
        thread.threadId ≠ sender.threadId := by
      intro thread member same
      obtain ⟨origin, called, rfl⟩ := Option.map_eq_some_iff.mp (Option.mem_toList.mp member)
      exact other origin called same.symm
    simp only [Exchange.returned, Option.toList_none, List.append_nil]
    refine ⟨⟨fun ⟨thread, member, same⟩ => absurd same (absent thread member), by simp⟩, ?_⟩
    exact fun thread member same => absurd same (absent thread member)
  | @meetSender _ thread _ =>
    have apart : thread.threadId ≠ sender.threadId := (other thread rfl).symm
    simp [Exchange.returned, apart]

end Effect

namespace Ledger

variable {ledger next : Ledger} {call : Call} {calls : List Call}

theorem Balanced.after (balanced : ledger.Balanced) (allowed : call.Allowed ledger.socket) :
    (ledger.after call).Balanced where
  packets := by
    have moved := (call.effect ledger.socket).balance allowed
    simp only [Ledger.after, List.map_append, List.append_assoc, Call.Accepted, moved]
    rw [← List.append_assoc, balanced.packets]
    rfl
  owner := by
    intro sender message waits
    rcases (call.effect ledger.socket).waiting waits with ⟨before, unchanged⟩ | ⟨accepted, offered⟩
    · simpa [Ledger.after, Call.Accepted, unchanged] using balanced.owner sender message before
    · simp [Ledger.after, Call.Accepted, accepted, offered]

theorem balanced_of_run (run : Run Step {} calls ledger) : ledger.Balanced :=
  run.invariant ⟨rfl, by simp⟩ fun {before call after} balanced step => by
    obtain ⟨allowed, rfl⟩ := step
    exact balanced.after allowed

/-- Two threads for the concrete ledger below. -/
private def sender : Thread := ⟨1, 0, 0x2000, 0, {}, 0, 0, .user⟩
private def receiver : Thread := { sender with threadId := 2 }

private def met : Ledger :=
  ((({} : Ledger).after (.send (some sender) (.packet 7 8 9))).after (.receive receiver))

/-- Over every sequence of calls on one socket: packets leave in the order they
were accepted and each exactly once; each is read back from the registers of a
thread handed out with `rax = 0`; a thread parked by `send_message` returns
exactly when its own packet does; and a refused call only hands back its caller
with a nonzero code. -/
theorem rendezvous_ledger (run : Run Step {} calls ledger) :
    ledger.delivered.map Prod.snd ++ ledger.socket.pending = ledger.accepted.map Prod.snd ∧
    ∀ call : Call, call.Allowed ledger.socket →
      (∀ receiver message, (receiver, message) ∈ (call.perform ledger.socket).delivered →
        ∃ thread ∈ (call.perform ledger.socket).returned, thread.threadId = receiver ∧
          thread.frame.rax = 0 ∧ thread.packet = message) ∧
      (∀ sender message, ledger.socket = .sending (some sender) message →
        ledger.accepted.getLast? = some (some sender.threadId, message) ∧
        ((∃ thread ∈ (call.perform ledger.socket).returned,
            thread.threadId = sender.threadId) ↔
          (call.perform ledger.socket).delivered.map Prod.snd = [message]) ∧
        ∀ thread ∈ (call.perform ledger.socket).returned,
          thread.threadId = sender.threadId → thread.frame.rax = 0) ∧
      (¬ call.Accepted ledger.socket →
        (call.perform ledger.socket).socket = ledger.socket ∧
        (call.perform ledger.socket).delivered = [] ∧ ∃ code, code ≠ 0 ∧
          (call.perform ledger.socket).returned =
            (call.caller.map (·.returnError code)).toList) := by
  have balanced := balanced_of_run run
  refine ⟨balanced.packets, fun call allowed => ⟨?_, ?_, ?_⟩⟩
  · intro receiver message delivery
    exact (call.effect ledger.socket).delivered_returned delivery
  · intro sender message parked
    refine ⟨balanced.owner _ _ parked, ?_⟩
    rw [parked] at allowed ⊢
    exact (call.effect _).sender_returned allowed
  · intro unchanged
    have same : (call.perform ledger.socket).socket = ledger.socket := Decidable.not_not.mp unchanged
    exact ⟨same, (call.effect ledger.socket).of_refused allowed same⟩

/-- A receiver meets a parked sender: its packet is next in the ledger. -/
theorem rendezvous_ledger_meeting :
    Run Step {} [.send (some sender) (.packet 7 8 9), .receive receiver] met ∧
      met.delivered = [(2, .packet 7 8 9)] ∧
      met.delivered.map Prod.snd ++ met.socket.pending = met.accepted.map Prod.snd := by
  have run : Run Step {} [.send (some sender) (.packet 7 8 9), .receive receiver] met :=
    .snoc (.snoc .nil ⟨by decide, rfl⟩) ⟨by decide, rfl⟩
  exact ⟨run, by decide, (rendezvous_ledger run).1⟩

end Ledger
end Zephyr
