import Mathlib.Algebra.Group.Nat.Defs
import Mathlib.Data.Nat.Bitwise
import Zephyr.Sync.Rendezvous
import Zephyr.Sync.Thread

/-! The user side of IPC, `api/src/syscall.rs`: how a call goes into the registers and how
its result comes out of them. -/

namespace Zephyr

open Rendezvous

namespace Message

/-- `to_values`, which only fails on messages that do not exist. -/
def toValues : Message → UInt64 × UInt64 × UInt64 × UInt64
  | .packet data1 data2 data3 => (0, data1, data2, data3)

def fromValues (_ctrl data1 data2 data3 : UInt64) : Message := .packet data1 data2 data3

end Message

inductive ApiCall where
  | receive (socket : UInt64)
  | send (socket : UInt32) (message : Message)
  | sendReceive (fileDescriptor : UInt32) (message : Message)

namespace ApiCall

/-- The registers at the `syscall` instruction, over what they held before. -/
def load : ApiCall → ISF → ISF
  | .receive socket, frame => { frame with rax := 3, rdi := socket }
  | .send socket (.packet data1 data2 data3), frame =>
    { frame with rax := (4 : UInt64) + (socket.toUInt64 <<< 32), rdi := data1, rsi := data2, rdx := data3 }
  | .sendReceive fileDescriptor message, frame =>
    let (controlValue, data1, data2, data3) := message.toValues
    { frame with
      rax := (5 : UInt64) ||| controlValue ||| (fileDescriptor.toUInt64 <<< 32), rdi := data1, rsi := data2, rdx := data3 }

/-- What the call makes of the registers behind the `syscall` instruction. A `send` has no
message to return. -/
def result : ApiCall → ISF → Except UInt64 (Option Message)
  | .receive _, frame =>
    if frame.rax = 0 then .ok (some (.packet frame.rdi frame.rsi frame.rdx)) else .error frame.rax
  | .send _ _, frame => if frame.rax = 0 then .ok none else .error frame.rax
  | .sendReceive _ _, frame =>
    let errorCode := frame.rax &&& 0xFF
    if errorCode = 0 then .ok (some (Message.fromValues frame.rax frame.rdi frame.rsi frame.rdx)) else .error errorCode

def handle : ApiCall → Nat
  | .receive socket => socket.toNat
  | .send socket _ => socket.toNat
  | .sendReceive fileDescriptor _ => fileDescriptor.toNat

/-- The call as a visit of the thread at the channel behind its handle. -/
def visit (threadId : Nat) : ApiCall → Visit Message
  | .receive _ => .receive threadId
  | .send _ message => .send (some threadId) message
  | .sendReceive _ message => .sendReceive threadId message

@[simp] theorem visitor_visit (threadId : Nat) (call : ApiCall) : (call.visit threadId).visitor = some threadId := by
  cases call <;> rfl

end ApiCall

section Encoding

variable (number : UInt64) (small : number.toNat < 256) (socket : UInt32)

theorem toNat_handle : (socket.toUInt64 <<< 32).toNat = 2 ^ 32 * socket.toNat := by
  have bound := socket.toNat_lt
  simp [UInt64.toNat_shiftLeft, Nat.shiftLeft_eq]
  omega

include small

/-- With a control value of zero, `|` and `+` make the same register. -/
theorem or_handle : number ||| (socket.toUInt64 <<< 32) = number + (socket.toUInt64 <<< 32) := by
  have bound := socket.toNat_lt
  apply UInt64.toNat_inj.mp
  rw [UInt64.toNat_or, UInt64.toNat_add, toNat_handle, Nat.or_comm, ← Nat.two_pow_add_eq_or_of_lt (by omega)]
  omega

theorem number_of_rax : (number + (socket.toUInt64 <<< 32)) &&& 0xFF = number := by
  have bound := socket.toNat_lt
  have mask : (0xFF : UInt64).toNat = 2 ^ 8 - 1 := rfl
  apply UInt64.toNat_inj.mp
  rw [UInt64.toNat_and, UInt64.toNat_add, toNat_handle, mask, Nat.and_two_pow_sub_one_eq_mod]
  omega

theorem handle_of_rax : ((number + (socket.toUInt64 <<< 32)) >>> 32).toNat = socket.toNat := by
  have bound := socket.toNat_lt
  have amount : (32 : UInt64).toNat % 64 = 32 := rfl
  rw [UInt64.toNat_shiftRight, UInt64.toNat_add, toNat_handle, amount, Nat.shiftRight_eq_div_pow]
  omega

end Encoding

end Zephyr
