import Mathlib.Data.List.Basic
import Mathlib.Logic.Function.Basic
import Zephyr.Transition.Run

/-! Rendezvous channels as their users see them: who waits where, what passed from whom to
whom, and the answer each caller gets. No thread, register or socket appears here. -/

namespace Zephyr.Rendezvous

open Transition

variable {σ μ : Type}

/-- A call at a channel. A sender without an identity does not wait for an answer. -/
inductive Visit (μ : Type) where
  | send (sender : Option Nat) (message : μ)
  | receive (receiver : Nat)
  | sendReceive (sender : Nat) (message : μ)

def Visit.visitor : Visit μ → Option Nat
  | .send sender _ => sender
  | .receive receiver => some receiver
  | .sendReceive sender _ => some sender

inductive Answer (μ : Type) where
  | sent
  | packet (message : μ)
  | error (code : UInt64)

/-- Who waits at a channel. A receiver may wait for one party only. -/
inductive Channel (μ : Type) where
  | empty
  | sending (sender : Option Nat) (message : μ)
  | receiving (receiver : Nat) (only : Option Nat)
  | sendReceiving (sender : Nat) (message : μ)

def Channel.parties : Channel μ → List Nat
  | .empty => []
  | .sending sender _ => sender.toList
  | .receiving receiver _ => [receiver]
  | .sendReceiving sender _ => [sender]

/-- What a visit leads to: at most one message passes, as sender, message and receiver. -/
structure Meeting (μ : Type) where
  channel : Channel μ
  transfer : Option (Option Nat × μ × Nat) := none
  answers : List (Nat × Answer μ) := []

/-- Nothing happens, and the visitor is told so. -/
def refuse (channel : Channel μ) (visit : Visit μ) (code : UInt64) : Meeting μ :=
  { channel, answers := visit.visitor.toList.map (·, .error code) }

/-- A message passes and both sides are done. -/
def complete (sender : Option Nat) (message : μ) (receiver : Nat) : Meeting μ where
  channel := .empty
  transfer := some (sender, message, receiver)
  answers := (receiver, .packet message) :: sender.toList.map (·, .sent)

/-- A message passes and its sender waits for the receiver's reply. -/
def await (sender : Nat) (message : μ) (receiver : Nat) : Meeting μ where
  channel := .receiving sender (some receiver)
  transfer := some (some sender, message, receiver)
  answers := [(receiver, .packet message)]

namespace Channel

def visit : Channel μ → Visit μ → Meeting μ
  | .empty, .send sender message => { channel := .sending sender message }
  | .empty, .receive receiver => { channel := .receiving receiver none }
  | .empty, .sendReceive sender message => { channel := .sendReceiving sender message }
  | .sending sender message, .receive receiver => complete sender message receiver
  | .sendReceiving sender message, .receive receiver => await sender message receiver
  | .receiving receiver only, .send sender message =>
    if only = none ∨ only = sender then complete sender message receiver
    else refuse (.receiving receiver only) (.send sender message) 7
  | .receiving receiver only, .sendReceive sender message =>
    if only = none ∨ only = some sender then await sender message receiver
    else refuse (.receiving receiver only) (.sendReceive sender message) 2
  | .receiving receiver only, .receive visitor => refuse (.receiving receiver only) (.receive visitor) 2
  | .sending sender message, visit => refuse (.sending sender message) visit 1
  | .sendReceiving sender message, .send other offer => refuse (.sendReceiving sender message) (.send other offer) 8
  | .sendReceiving sender message, .sendReceive other offer =>
    refuse (.sendReceiving sender message) (.sendReceive other offer) 1

end Channel

/-- Everything a visit can lead to. -/
inductive Meets : Channel μ → Visit μ → Meeting μ → Prop where
  | refused {channel : Channel μ} {visit : Visit μ} (code : UInt64) (small : code ≠ 0 ∧ code.toNat < 256) :
      Meets channel visit (refuse channel visit code)
  | parkSender {sender : Option Nat} {message : μ} :
      Meets .empty (.send sender message) { channel := .sending sender message }
  | parkReceiver {receiver : Nat} : Meets .empty (.receive receiver) { channel := .receiving receiver none }
  | parkRequest {sender : Nat} {message : μ} :
      Meets .empty (.sendReceive sender message) { channel := .sendReceiving sender message }
  | meetSender {sender : Option Nat} {message : μ} {receiver : Nat} :
      Meets (.sending sender message) (.receive receiver) (complete sender message receiver)
  | meetRequest {sender : Nat} {message : μ} {receiver : Nat} :
      Meets (.sendReceiving sender message) (.receive receiver) (await sender message receiver)
  | meetReceiver {sender : Option Nat} {message : μ} {receiver : Nat} {only : Option Nat}
      (permitted : ∀ party ∈ only, sender = some party) :
      Meets (.receiving receiver only) (.send sender message) (complete sender message receiver)
  | reply {sender : Nat} {message : μ} {receiver : Nat} {only : Option Nat}
      (permitted : ∀ party ∈ only, sender = party) :
      Meets (.receiving receiver only) (.sendReceive sender message) (await sender message receiver)

theorem Channel.meets (channel : Channel μ) (visit : Visit μ) : Meets channel visit (channel.visit visit) := by
  cases channel with
  | empty =>
    cases visit with
    | send => exact .parkSender
    | receive => exact .parkReceiver
    | sendReceive => exact .parkRequest
  | sending sender message =>
    cases visit with
    | send | sendReceive => exact .refused 1 (by decide)
    | receive => exact .meetSender
  | sendReceiving sender message =>
    cases visit with
    | send => exact .refused 8 (by decide)
    | sendReceive => exact .refused 1 (by decide)
    | receive => exact .meetRequest
  | receiving receiver only =>
    cases visit with
    | receive => exact .refused 2 (by decide)
    | send sender message =>
      simp only [visit]
      split
      · rename_i permitted
        exact .meetReceiver fun party listed => by rcases permitted with rfl | rfl <;> simp_all
      · exact .refused 7 (by decide)
    | sendReceive sender message =>
      simp only [visit]
      split
      · rename_i permitted
        exact .reply fun party listed => by rcases permitted with rfl | rfl <;> simp_all
      · exact .refused 2 (by decide)

/-! ### Calls over time -/

/-- A message that passed at a channel. -/
structure Transfer (σ μ : Type) where
  place : σ
  sender : Option Nat
  message : μ
  receiver : Nat

def Meeting.passed (meeting : Meeting μ) (place : σ) : List (Transfer σ μ) :=
  meeting.transfer.toList.map fun pass => ⟨place, pass.1, pass.2.1, pass.2.2⟩

/-- A party's latest call: where, what, how many messages had passed before it, and the
answer, once there is one. -/
structure Ticket (σ μ : Type) where
  place : Option σ
  visit : Visit μ
  since : Nat
  answer : Option (Answer μ) := none

structure State (σ μ : Type) where
  channel : σ → Channel μ := fun _ => .empty
  ticket : Nat → Option (Ticket σ μ) := fun _ => none
  transfers : List (Transfer σ μ) := []
  visits : List (Option σ × Visit μ) := []

/-- Calls at a place that has no channel get this answer. -/
def noChannel : UInt64 := 3

namespace State

/-- The visitor's ticket, still without an answer. -/
def issue (state : State σ μ) (place : Option σ) (visit : Visit μ) : Nat → Option (Ticket σ μ) :=
  match visit.visitor with
  | none => state.ticket
  | some id => Function.update state.ticket id (some { place, visit, since := state.transfers.length })

def settle (answers : List (Nat × Answer μ)) (ticket : Nat → Option (Ticket σ μ)) (id : Nat) : Option (Ticket σ μ) :=
  (ticket id).map fun own => { own with answer := (answers.lookup id).or own.answer }

/-- Who waits at a channel makes no call. -/
def Free (state : State σ μ) (visit : Visit μ) : Prop :=
  ∀ id ∈ visit.visitor, ∀ place, id ∉ (state.channel place).parties

variable [DecidableEq σ]

def after (state : State σ μ) : Option σ × Visit μ → State σ μ
  | (none, visit) =>
    { state with
      ticket := settle (visit.visitor.toList.map (·, .error noChannel)) (state.issue none visit)
      visits := state.visits ++ [(none, visit)] }
  | (some place, visit) =>
    let meeting := (state.channel place).visit visit
    { channel := Function.update state.channel place meeting.channel
      ticket := settle meeting.answers (state.issue (some place) visit)
      transfers := state.transfers ++ meeting.passed place
      visits := state.visits ++ [(some place, visit)] }

def Step (before : State σ μ) (label : Option σ × Visit μ) (after : State σ μ) : Prop :=
  before.Free label.2 ∧ after = before.after label

end State

end Zephyr.Rendezvous
