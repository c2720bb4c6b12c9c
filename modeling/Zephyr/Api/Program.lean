import Zephyr.Api.Syscall

/-! User programs between their system calls: a tree of calls, each continued by what it
returns. What a program prints is left out. -/

namespace Zephyr

/-- A program that may start the functions `ε` as threads. -/
inductive Program (ε α : Type) where
  | done (value : α)
  | call (call : ApiCall) (next : Except UInt64 (Option Message) → Program ε α)
  | threadSpawn (func : ε) (next : Except UInt64 UInt64 → Program ε α)
  | threadYield (next : Program ε α)
  | threadExit
  | panicked

namespace Program

variable {ε α β : Type}

def bind : Program ε α → (α → Program ε β) → Program ε β
  | .done value, rest => rest value
  | .call asked next, rest => .call asked fun result => (next result).bind rest
  | .threadSpawn func next, rest => .threadSpawn func fun result => (next result).bind rest
  | .threadYield next, rest => .threadYield (next.bind rest)
  | .threadExit, _ => .threadExit
  | .panicked, _ => .panicked

instance : Monad (Program ε) where
  pure := .done
  bind := bind

/-- `Result::unwrap`. -/
def unwrap : Except UInt64 α → Program ε α
  | .ok value => .done value
  | .error _ => .panicked

def receive (socket : UInt64) : Program ε (Except UInt64 Message) :=
  .call (.receive socket) fun result => .done (result.map fun message => message.getD (.packet 0 0 0))

def send (socket : UInt32) (message : Message) : Program ε (Except UInt64 Unit) :=
  .call (.send socket message) fun result => .done (result.map fun _ => ())

end Program

/-- How many times `send_and_wait_for_receive` tries again. -/
def maxRetries : Nat := 100

section SendAndWaitForReceive

variable {ε : Type} (expectedData1 : Option UInt64)

/-- The match on the result of one attempt; `again` is what follows a refusal. -/
def afterAttempt (again : Program ε (Except UInt64 (UInt64 × UInt64 × UInt64))) :
    Except UInt64 (Option Message) → Program ε (Except UInt64 (UInt64 × UInt64 × UInt64))
  | .error 1 => again
  | .error 2 => again
  | .ok (some (.packet receivedData1 receivedData2 receivedData3)) =>
    match expectedData1 with
    | some expectedRd1 =>
      if receivedData1 ≠ expectedRd1 then .done (.error receivedData1)
      else .done (.ok (receivedData1, receivedData2, receivedData3))
    | none => .done (.ok (receivedData1, receivedData2, receivedData3))
  | _ => .done (.error 0)

/-- The loop, by the number of retries that are left. -/
def attempts (fileDescriptor : UInt32) (message : Message) :
    Nat → Program ε (Except UInt64 (UInt64 × UInt64 × UInt64))
  | 0 => .call (.sendReceive fileDescriptor message) (afterAttempt expectedData1 (.done (.error 2)))
  | retries + 1 =>
    .call (.sendReceive fileDescriptor message)
      (afterAttempt expectedData1 (attempts fileDescriptor message retries))

def sendAndWaitForReceive (fileDescriptor : UInt32) (data1 data2 data3 : UInt64) :
    Program ε (Except UInt64 (UInt64 × UInt64 × UInt64)) :=
  attempts expectedData1 fileDescriptor (.packet data1 data2 data3) maxRetries

end SendAndWaitForReceive

end Zephyr
