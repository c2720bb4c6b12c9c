import Zephyr.Sync.Thread

/-! The rendezvous socket of `sync.rs`. -/

namespace Zephyr

def syscallErrorSendBlocking : UInt64 := 1
def syscallErrorRecvBlocking : UInt64 := 2
def syscallErrorInvalidHandle : UInt64 := 3
def syscallErrorMemalloc : UInt64 := 9

/-- `receiving` optionally names the only thread allowed to send. -/
inductive Socket where
  | empty
  | sending (thread : Option Thread) (message : Message)
  | receiving (thread : Thread) (someTid : Option Nat)
  | sendReceiving (thread : Thread) (message : Message)
  deriving DecidableEq, Repr

/-- What one socket call does: the state it leaves, the pair of threads it
returns (receiving thread first), and a ghost record of the `return_message`
calls it made, as receiver and packet. -/
structure Exchange where
  socket : Socket
  first : Option Thread
  second : Option Thread
  delivered : List (Nat × Message)
  deriving DecidableEq, Repr

namespace Socket

def sendMessage (self : Socket) (thread : Option Thread) (message : Message) : Exchange :=
  match self with
  | .empty => ⟨.sending thread message, none, none, []⟩
  | .sending _ _ => ⟨self, thread.map (·.returnError 1), none, []⟩
  | .receiving recThread someTid =>
    let complete : Exchange :=
      ⟨.empty, some (recThread.returnMessage message), thread.map (·.returnError 0),
        [(recThread.threadId, message)]⟩
    match someTid, thread with
    | some tid, some t =>
      if t.threadId ≠ tid then ⟨self, some (t.returnError 7), none, []⟩ else complete
    | some _, none => ⟨self, none, none, []⟩
    | none, _ => complete
  | .sendReceiving _ _ => ⟨self, thread.map (·.returnError 8), none, []⟩

def receive (self : Socket) (thread : Thread) : Exchange :=
  match self with
  | .empty => ⟨.receiving thread none, none, none, []⟩
  | .sending sndThread message =>
    ⟨.empty, some (thread.returnMessage message), sndThread.map (·.returnError 0),
      [(thread.threadId, message)]⟩
  | .receiving _ _ => ⟨self, some (thread.returnError syscallErrorRecvBlocking), none, []⟩
  | .sendReceiving sndThread message =>
    ⟨.receiving sndThread (some thread.threadId), some (thread.returnMessage message), none,
      [(thread.threadId, message)]⟩

def sendReceive (self : Socket) (thread : Thread) (message : Message) : Exchange :=
  match self with
  | .empty => ⟨.sendReceiving thread message, none, none, []⟩
  | .sending _ _ => ⟨self, some (thread.returnError syscallErrorSendBlocking), none, []⟩
  | .receiving recThread someTid =>
    let complete : Exchange :=
      ⟨.receiving thread (some recThread.threadId), some (recThread.returnMessage message), none,
        [(recThread.threadId, message)]⟩
    match someTid with
    | some tid =>
      if thread.threadId ≠ tid then
        ⟨self, some (thread.returnError syscallErrorRecvBlocking), none, []⟩
      else complete
    | none => complete
  | .sendReceiving _ _ => ⟨self, some (thread.returnError syscallErrorSendBlocking), none, []⟩

def threads : Socket → List Thread
  | .empty => []
  | .sending thread _ => thread.toList
  | .receiving thread _ => [thread]
  | .sendReceiving thread _ => [thread]

/-- The packet waiting for a receiver. -/
def pending : Socket → List Message
  | .empty => []
  | .sending _ message => [message]
  | .receiving _ _ => []
  | .sendReceiving _ message => [message]

end Socket

def Exchange.returned (exchange : Exchange) : List Thread :=
  exchange.first.toList ++ exchange.second.toList

inductive Call where
  | send (thread : Option Thread) (message : Message)
  | receive (thread : Thread)
  | sendReceive (thread : Thread) (message : Message)
  deriving DecidableEq, Repr

namespace Call

def perform (socket : Socket) : Call → Exchange
  | .send thread message => socket.sendMessage thread message
  | .receive thread => socket.receive thread
  | .sendReceive thread message => socket.sendReceive thread message

def caller : Call → Option Thread
  | .send thread _ => thread
  | .receive thread => some thread
  | .sendReceive thread _ => some thread

/-- The packet a call offers, with the thread that offers it. -/
def offer : Call → List (Option Nat × Message)
  | .send thread message => [(thread.map Thread.threadId, message)]
  | .receive _ => []
  | .sendReceive thread message => [(some thread.threadId, message)]

/-- A thread parked in the socket makes no call until it is handed back. -/
def Allowed (socket : Socket) (call : Call) : Prop :=
  ∀ thread ∈ call.caller, ∀ parked ∈ socket.threads, parked.threadId ≠ thread.threadId

instance (socket : Socket) (call : Call) : Decidable (call.Allowed socket) :=
  inferInstanceAs (Decidable (∀ thread ∈ call.caller, ∀ parked ∈ socket.threads,
    parked.threadId ≠ thread.threadId))

def Accepted (socket : Socket) (call : Call) : Prop :=
  (call.perform socket).socket ≠ socket

instance (socket : Socket) (call : Call) : Decidable (call.Accepted socket) :=
  inferInstanceAs (Decidable ((call.perform socket).socket ≠ socket))

end Call

/-- Everything a call can do: park its thread in an empty socket, complete an
exchange with the parked thread, or be refused. -/
inductive Effect : Socket → Call → Exchange → Prop where
  | refused {socket : Socket} {call : Call} (code : UInt64) (nonzero : code ≠ 0) :
      Effect socket call ⟨socket, call.caller.map (·.returnError code), none, []⟩
  | parkSender {thread : Option Thread} {message : Message} :
      Effect .empty (.send thread message) ⟨.sending thread message, none, none, []⟩
  | parkReceiver {thread : Thread} :
      Effect .empty (.receive thread) ⟨.receiving thread none, none, none, []⟩
  | parkRequest {thread : Thread} {message : Message} :
      Effect .empty (.sendReceive thread message) ⟨.sendReceiving thread message, none, none, []⟩
  | meetReceiver {recThread : Thread} {someTid : Option Nat} {thread : Option Thread}
      {message : Message} (permitted : ∀ tid ∈ someTid, thread.map Thread.threadId = some tid) :
      Effect (.receiving recThread someTid) (.send thread message)
        ⟨.empty, some (recThread.returnMessage message), thread.map (·.returnError 0),
          [(recThread.threadId, message)]⟩
  | meetSender {sender : Option Thread} {thread : Thread} {message : Message} :
      Effect (.sending sender message) (.receive thread)
        ⟨.empty, some (thread.returnMessage message), sender.map (·.returnError 0),
          [(thread.threadId, message)]⟩
  | meetRequest {sender thread : Thread} {message : Message} :
      Effect (.sendReceiving sender message) (.receive thread)
        ⟨.receiving sender (some thread.threadId), some (thread.returnMessage message), none,
          [(thread.threadId, message)]⟩
  | reply {recThread thread : Thread} {someTid : Option Nat} {message : Message}
      (permitted : ∀ tid ∈ someTid, thread.threadId = tid) :
      Effect (.receiving recThread someTid) (.sendReceive thread message)
        ⟨.receiving thread (some recThread.threadId), some (recThread.returnMessage message), none,
          [(recThread.threadId, message)]⟩

namespace Call

variable {socket : Socket} {call : Call} {exchange : Exchange}

private theorem send_effect (thread : Option Thread) (message : Message) :
    Effect socket (.send thread message) (socket.sendMessage thread message) := by
  cases socket with
  | empty => exact .parkSender
  | sending _ _ => exact .refused 1 (by decide)
  | sendReceiving _ _ => exact .refused 8 (by decide)
  | receiving recThread someTid =>
    cases someTid with
    | none => exact .meetReceiver (by simp)
    | some tid =>
      cases thread with
      | none => exact .refused 7 (by decide)
      | some t =>
        simp only [Socket.sendMessage]
        split
        · exact .refused 7 (by decide)
        · rename_i own
          exact .meetReceiver (by simpa using own)

private theorem sendReceive_effect (thread : Thread) (message : Message) :
    Effect socket (.sendReceive thread message) (socket.sendReceive thread message) := by
  cases socket with
  | empty => exact .parkRequest
  | sending _ _ => exact .refused syscallErrorSendBlocking (by decide)
  | sendReceiving _ _ => exact .refused syscallErrorSendBlocking (by decide)
  | receiving recThread someTid =>
    cases someTid with
    | none => exact .reply (by simp)
    | some tid =>
      simp only [Socket.sendReceive]
      split
      · exact .refused syscallErrorRecvBlocking (by decide)
      · rename_i own
        exact .reply (by simpa using own)

theorem effect (socket : Socket) (call : Call) : Effect socket call (call.perform socket) := by
  cases call with
  | send thread message => exact send_effect thread message
  | sendReceive thread message => exact sendReceive_effect thread message
  | receive thread =>
    cases socket with
    | empty => exact .parkReceiver
    | sending _ _ => exact .meetSender
    | receiving _ _ => exact .refused syscallErrorRecvBlocking (by decide)
    | sendReceiving _ _ => exact .meetRequest

end Call
end Zephyr
