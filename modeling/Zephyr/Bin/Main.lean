import Zephyr.Api.Program

/-! The user program, `bin/src/main.rs`: the shell and the functions it starts as threads.
What they print, the box on the heap and the write to the kernel stack are left out; a fault or
a failed allocation ends the thread like `thread_exit`. -/

namespace Zephyr.Bin

open Program

inductive ThreadFunction where
  | tester
  | recursiveThread
  | recursiveTooDeepThread
  | writeToKernelStack
  | heapAlloc
  deriving DecidableEq, Repr

abbrev Code := Program ThreadFunction

def recvId : Code UInt64 := do
  match ← unwrap (← receive 2) with
  | .packet value _ _ => return value

/-- A loop around `thread_yield`. -/
def yields : Nat → Code Unit
  | 0 => .done ()
  | times + 1 => .threadYield (yields times)

/-- `recursive_function` and `recursive_too_deep_function`, which go down by 10 and by 1. -/
def recursion (increment : Nat) (positive : 0 < increment) (depth : Nat) : Code Unit :=
  .threadYield (if depth < 500 then recursion increment positive (depth + increment) else .done ())
  termination_by 500 - depth

def recursiveFunction (depth : Nat) : Code Unit := recursion 10 (by decide) depth

def recursiveTooDeepFunction (depth : Nat) : Code Unit := recursion 1 (by decide) depth

/-- The last message of a worker, on the socket the shell waits at. -/
def sendFin (threadId : UInt64) : Code Unit := do
  unwrap (← send 3 (.packet threadId 0 0))

def tester : Code Unit := do
  let threadId ← recvId
  yields 10
  sendFin threadId

def recursiveThread : Code Unit := do
  let threadId ← recvId
  recursiveFunction 0
  sendFin threadId
  .threadExit

def recursiveTooDeepThread : Code Unit := do
  let threadId ← recvId
  recursiveTooDeepFunction 0
  sendFin threadId
  .threadExit

def writeToKernelStack : Code Unit := do
  let threadId ← recvId
  yields 5
  sendFin threadId

def heapAlloc : Code Unit := do
  let _ ← recvId
  return ()

def body : ThreadFunction → Code Unit
  | .tester => tester
  | .recursiveThread => recursiveThread
  | .recursiveTooDeepThread => recursiveTooDeepThread
  | .writeToKernelStack => writeToKernelStack
  | .heapAlloc => heapAlloc

/-- Start a thread and send it its id; without a thread the command ends. -/
def startThread (func : ThreadFunction) (rest : Code Unit) : Code Unit :=
  .threadSpawn func fun
    | .ok threadId => .call (.send 2 (.packet threadId 0 0)) fun _ => rest
    | .error _ => .done ()

/-- Wait for so many workers; what is received is only printed. -/
def receiveFin : Nat → Code Unit
  | 0 => .done ()
  | workers + 1 => .call (.receive 3) fun _ => receiveFin workers

def startTesters : Nat → Code Unit → Code Unit
  | 0, rest => rest
  | workers + 1, rest => startThread .tester (startTesters workers rest)

def callHeapAlloc : Code Unit := startThread .heapAlloc (.done ())

def callMaliciousThread : Code Unit := startThread .writeToKernelStack (.done ())

def callRecursiveTooDeepThreads : Code Unit := startThread .recursiveTooDeepThread (receiveFin 1)

def callRecursiveThreads : Code Unit := startThread .recursiveThread (receiveFin 1)

def callBasicThreads (num : Nat) : Code Unit := startTesters num (receiveFin num)

/-- What the shell does about a key. -/
inductive Reaction where
  | leave
  | panic
  | basicThreads (num : Nat)
  | recursiveThreads
  | recursiveTooDeepThreads
  | maliciousThread
  | heapAlloc
  | print

def react : Message → Reaction
  | .packet _ value _ =>
    if valid : value.toUInt32.isValidChar then
      match Char.mk value.toUInt32 valid with
      | 'x' => .leave
      | 'b' => .basicThreads 3
      | 'r' => .recursiveThreads
      | 't' => .recursiveTooDeepThreads
      | 'm' => .maliciousThread
      | 'e' => .heapAlloc
      | '1' => .basicThreads 1
      | '2' => .basicThreads 2
      | '3' => .basicThreads 3
      | '4' => .basicThreads 4
      | _ => .print
    else .panic

/-- The body of the loop, after the key has been received. -/
def command : Reaction → Code Unit → Code Unit
  | .leave, _ => .done ()
  | .panic, _ => .panicked
  | .basicThreads num, again => do callBasicThreads num; again
  | .recursiveThreads, again => do callRecursiveThreads; again
  | .recursiveTooDeepThreads, again => do callRecursiveTooDeepThreads; again
  | .maliciousThread, again => do callMaliciousThread; again
  | .heapAlloc, again => do callHeapAlloc; again
  | .print, again => again

/-- So many rounds of the loop of `main`, with the reaction to the key as a parameter. -/
def shell (reaction : Nat → Message → Reaction) : Nat → Code Unit
  | 0 => .done ()
  | rounds + 1 => do
    let message ← unwrap (← receive 0)
    command (reaction rounds message) do
      unwrap (← send 1 message)
      shell reaction rounds

def main (rounds : Nat) : Code Unit := do
  let _ ← recvId
  shell (fun _ => react) rounds

end Zephyr.Bin
