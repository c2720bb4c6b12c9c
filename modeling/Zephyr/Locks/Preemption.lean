import Zephyr.Locks.Trace
import Zephyr.Transition.Run
import Mathlib.Logic.Function.Basic

/-! Threads on one processor that take spin locks and may be preempted wherever
they run with interrupts enabled. Handlers run with interrupts disabled, so a
handler that asks for a lock of a preempted thread never gets it. -/

namespace Zephyr.Locks

open Transition

variable {Lock : Type}

/-- One thread: its live guards, the depth of `without_interrupts` it is in, and
what is left of the operation it executes. -/
structure Progress (Lock : Type) where
  guards : List (Guard Lock) := []
  masks : Nat := 0
  code : Trace Lock := []
  deriving DecidableEq, Repr

structure Machine (Lock : Type) where
  running : Option Nat := none
  threads : Nat → Progress Lock := fun _ => {}

/-- A handler asks for a lock while a thread that does not execute holds it. -/
def Machine.Strands (machine : Machine Lock) (handler : Trace Lock) (lock : Lock) : Prop :=
  ∃ mode, (lock, mode) ∈ requests handler ∧
    ∃ owner, Blocked (machine.threads owner).guards lock mode

section Discipline

def LockStep.guards [DecidableEq Lock] (alive : List (Guard Lock)) : LockStep Lock → List (Guard Lock)
  | .acquire lock mode => (lock, mode) :: alive
  | .release lock mode => alive.erase (lock, mode)
  | .mask => alive
  | .unmask => alive

@[simp] theorem guards_release_acquire [DecidableEq Lock] (alive : List (Guard Lock)) (lock : Lock)
    (mode : Mode) : (LockStep.release lock mode).guards ((LockStep.acquire lock mode).guards alive) = alive :=
  List.erase_cons_head _ _

/-- The depth of `without_interrupts` after a step. -/
def LockStep.masks (depth : Nat) : LockStep Lock → Nat
  | .acquire _ _ => depth
  | .release _ _ => depth
  | .mask => depth + 1
  | .unmask => depth - 1

variable [DecidableEq Lock] (preemptible : Lock → Prop)

/-- Code that holds only preemptible locks while interrupts are enabled, and
nothing at its end. -/
def Disciplined : List (Guard Lock) → Nat → Trace Lock → Prop
  | guards, masks, [] => guards = [] ∧ masks = 0
  | guards, masks, step :: rest => (masks = 0 → ∀ guard ∈ guards, preemptible guard.1) ∧
    Disciplined (step.guards guards) (step.masks masks) rest

/-- A piece of code that may run with interrupts enabled. -/
def Preemptive (trace : Trace Lock) : Prop :=
  ∀ guards masks rest, (masks = 0 → ∀ guard ∈ guards, preemptible guard.1) →
    Disciplined preemptible guards masks rest → Disciplined preemptible guards masks (trace ++ rest)

/-- A piece of code for use under `without_interrupts`. -/
def Shielded (trace : Trace Lock) : Prop :=
  ∀ guards masks rest, 0 < masks →
    Disciplined preemptible guards masks rest → Disciplined preemptible guards masks (trace ++ rest)

variable {preemptible} {first second body : Trace Lock} {lock : Lock}

theorem preemptive_nil : Preemptive preemptible ([] : Trace Lock) := fun _ _ _ _ rest => rest

theorem Preemptive.append (before : Preemptive preemptible first) (after : Preemptive preemptible second) :
    Preemptive preemptible (first ++ second) := by
  intro guards masks rest held disciplined
  rw [List.append_assoc]
  exact before _ _ _ held (after _ _ _ held disciplined)

theorem Preemptive.times (once : Preemptive preemptible body) (count : Nat) :
    Preemptive preemptible (times count body) := by
  induction count with
  | zero => exact preemptive_nil
  | succ count ih => exact once.append ih

theorem Preemptive.shielded (inner : Preemptive preemptible body) : Shielded preemptible body := by
  intro guards masks rest masked disciplined
  exact inner guards masks rest (fun open' => absurd open' (Nat.ne_of_gt masked)) disciplined

theorem Preemptive.locked (inner : Preemptive preemptible body) (mode : Mode)
    (allowed : preemptible lock) : Preemptive preemptible (locked lock mode body) := by
  intro guards masks rest held disciplined
  have deeper : masks = 0 → ∀ guard ∈ (lock, mode) :: guards, preemptible guard.1 := fun enabled =>
    List.forall_mem_cons.mpr ⟨allowed, held enabled⟩
  rw [Locks.locked, List.cons_append, List.append_assoc]
  refine ⟨held, inner _ _ _ deeper ⟨deeper, ?_⟩⟩
  rw [guards_release_acquire]
  exact disciplined

theorem Shielded.locked (inner : Shielded preemptible body) (lock : Lock) (mode : Mode) :
    Shielded preemptible (locked lock mode body) := by
  intro guards masks rest masked disciplined
  have enabled (deeper : List (Guard Lock)) :
      masks = 0 → ∀ guard ∈ deeper, preemptible guard.1 := fun none => absurd none (Nat.ne_of_gt masked)
  rw [Locks.locked, List.cons_append, List.append_assoc]
  refine ⟨enabled _, inner _ _ _ masked ⟨enabled _, ?_⟩⟩
  rw [guards_release_acquire]
  exact disciplined

theorem Shielded.withoutInterrupts (inner : Shielded preemptible body) :
    Preemptive preemptible (withoutInterrupts body) := by
  intro guards masks rest held disciplined
  rw [Locks.withoutInterrupts, List.cons_append, List.append_assoc]
  exact ⟨held, inner _ _ _ (Nat.succ_pos masks)
    ⟨fun none => absurd none (Nat.succ_ne_zero masks), disciplined⟩⟩

theorem Preemptive.disciplined (whole : Preemptive preemptible body) :
    Disciplined preemptible [] 0 body := by
  have closed := whole [] 0 [] (fun _ _ listed => absurd listed List.not_mem_nil) ⟨rfl, rfl⟩
  rwa [List.append_nil] at closed

end Discipline

/-- What happens to the machine: the running thread starts an operation or takes
its next step; an interrupt arrives, or the running thread traps into the kernel
between operations. A handler ends by resuming some thread, if there is one. -/
inductive Event (Lock : Type) where
  | start (operation : Trace Lock)
  | advance
  | interrupt (handler : Trace Lock) (next : Option Nat)
  | trap (handler : Trace Lock) (next : Option Nat)

def Event.handler : Event Lock → Trace Lock
  | .interrupt handler _ => handler
  | .trap handler _ => handler
  | _ => []

def Event.Handles : Event Lock → Prop
  | .interrupt _ _ => True
  | .trap _ _ => True
  | _ => False

theorem Event.handles_of_request {event : Event Lock} {request : Guard Lock}
    (asked : request ∈ requests event.handler) : event.Handles := by
  cases event with
  | start | advance => exact absurd asked List.not_mem_nil
  | interrupt | trap => trivial

namespace Machine

section Threads

variable (machine : Machine Lock)

def setThread (thread : Nat) (progress : Progress Lock) : Machine Lock :=
  { machine with threads := Function.update machine.threads thread progress }

theorem threads_setThread_self (thread : Nat) (progress : Progress Lock) :
    (machine.setThread thread progress).threads thread = progress :=
  Function.update_self _ _ _

theorem threads_setThread_of_ne {thread other : Nat} (different : other ≠ thread)
    (progress : Progress Lock) :
    (machine.setThread thread progress).threads other = machine.threads other :=
  Function.update_of_ne different _ _

end Threads

variable [DecidableEq Lock]

/-- A running thread whose request is blocked by somebody else's guard spins and
takes no step. -/
inductive Step : Machine Lock → Event Lock → Machine Lock → Prop where
  | start {machine : Machine Lock} (thread : Nat) (running : machine.running = some thread)
      (between : (machine.threads thread).code = []) (operation : Trace Lock) :
      Step machine (.start operation)
        (machine.setThread thread { machine.threads thread with code := operation })
  | advance {machine : Machine Lock} (thread : Nat) (running : machine.running = some thread)
      (step : LockStep Lock) (rest : Trace Lock) (code : (machine.threads thread).code = step :: rest)
      (granted : ∀ lock mode, step = .acquire lock mode →
        ∀ owner, ¬ Blocked (machine.threads owner).guards lock mode) :
      Step machine .advance (machine.setThread thread
        { guards := step.guards (machine.threads thread).guards
          masks := step.masks (machine.threads thread).masks
          code := rest })
  | interrupt {machine : Machine Lock}
      (enabled : ∀ thread ∈ machine.running, (machine.threads thread).masks = 0)
      (handler : Trace Lock) (next : Option Nat) :
      Step machine (.interrupt handler next) { machine with running := next }
  | trap {machine : Machine Lock} (thread : Nat) (running : machine.running = some thread)
      (between : (machine.threads thread).code = []) (handler : Trace Lock) (next : Option Nat) :
      Step machine (.trap handler next) { machine with running := next }

variable {machine before after : Machine Lock} {event : Event Lock} {preemptible : Lock → Prop}

def Admissible (preemptible : Lock → Prop) : Event Lock → Prop
  | .start operation => Preemptive preemptible operation
  | _ => True

/-- An interrupt does not find the running thread inside a preemptible section. -/
def Careful (preemptible : Lock → Prop) (machine : Machine Lock) : Event Lock → Prop
  | .interrupt _ _ => ∀ thread ∈ machine.running, ∀ guard ∈ (machine.threads thread).guards,
      ¬ preemptible guard.1
  | _ => True

/-- Every thread executes disciplined code, and a thread that does not run was
left with interrupts enabled. -/
structure Orderly (preemptible : Lock → Prop) (machine : Machine Lock) : Prop where
  code : ∀ thread, Disciplined preemptible (machine.threads thread).guards
    (machine.threads thread).masks (machine.threads thread).code
  suspended : ∀ thread, machine.running ≠ some thread → (machine.threads thread).masks = 0

theorem orderly_initial (preemptible : Lock → Prop) :
    (({} : Machine Lock)).Orderly preemptible :=
  ⟨fun _ => ⟨rfl, rfl⟩, fun _ _ => rfl⟩

theorem Orderly.held (orderly : machine.Orderly preemptible) {thread : Nat}
    (enabled : (machine.threads thread).masks = 0) {guard : Guard Lock}
    (alive : guard ∈ (machine.threads thread).guards) : preemptible guard.1 := by
  have disciplined := orderly.code thread
  cases code : (machine.threads thread).code with
  | nil =>
    rw [code] at disciplined
    rw [disciplined.1] at alive
    exact absurd alive List.not_mem_nil
  | cons step rest =>
    rw [code] at disciplined
    exact disciplined.1 enabled guard alive

theorem Orderly.between (orderly : machine.Orderly preemptible) {thread : Nat}
    (between : (machine.threads thread).code = []) :
    (machine.threads thread).guards = [] ∧ (machine.threads thread).masks = 0 := by
  have disciplined := orderly.code thread
  rwa [between] at disciplined

theorem Orderly.setThread (orderly : machine.Orderly preemptible) {thread : Nat}
    (running : machine.running = some thread) {progress : Progress Lock}
    (disciplined : Disciplined preemptible progress.guards progress.masks progress.code) :
    (machine.setThread thread progress).Orderly preemptible := by
  refine ⟨?_, ?_⟩
  · intro other
    by_cases same : other = thread
    · subst same
      rw [threads_setThread_self]
      exact disciplined
    · rw [threads_setThread_of_ne _ same]
      exact orderly.code other
  · intro other waits
    have different : other ≠ thread := fun same => waits (same ▸ running)
    rw [threads_setThread_of_ne _ different]
    exact orderly.suspended other waits

theorem Orderly.step (orderly : before.Orderly preemptible) (admissible : Admissible preemptible event)
    (step : Step before event after) : after.Orderly preemptible := by
  cases step with
  | start thread running between operation =>
    obtain ⟨none, open'⟩ := orderly.between between
    refine orderly.setThread running ?_
    dsimp only
    rw [none, open']
    exact admissible.disciplined
  | advance thread running step rest code granted =>
    have disciplined := orderly.code thread
    rw [code] at disciplined
    exact orderly.setThread running disciplined.2
  | interrupt enabled handler next =>
    refine ⟨orderly.code, ?_⟩
    intro thread _
    by_cases running : before.running = some thread
    · exact enabled thread running
    · exact orderly.suspended thread running
  | trap current running between handler next =>
    refine ⟨orderly.code, ?_⟩
    intro thread _
    by_cases same : before.running = some thread
    · rw [running] at same
      cases same
      exact (orderly.between between).2
    · exact orderly.suspended thread same

theorem Orderly.masks_of_handles (orderly : before.Orderly preemptible) (step : Step before event after)
    (handles : event.Handles) (thread : Nat) : (before.threads thread).masks = 0 := by
  by_cases running : before.running = some thread
  · cases step with
    | start | advance => exact handles.elim
    | interrupt enabled => exact enabled thread running
    | trap current now between =>
      rw [now] at running
      cases running
      exact (orderly.between between).2
  · exact orderly.suspended thread running

theorem Orderly.strands (orderly : before.Orderly preemptible) (step : Step before event after)
    {lock : Lock} (strands : before.Strands event.handler lock) : preemptible lock := by
  obtain ⟨mode, asked, owner, guard, alive, rfl, _⟩ := strands
  exact orderly.held (orderly.masks_of_handles step (Event.handles_of_request asked) owner) alive

/-- The threads that do not run hold nothing. -/
def Settled (machine : Machine Lock) : Prop :=
  ∀ thread, machine.running ≠ some thread → (machine.threads thread).guards = []

/-- When a handler starts in a careful run, nobody holds anything. -/
theorem Settled.released (settled : before.Settled) (orderly : before.Orderly preemptible)
    (careful : before.Careful preemptible event) (step : Step before event after)
    (handles : event.Handles) (thread : Nat) : (before.threads thread).guards = [] := by
  by_cases running : before.running = some thread
  · cases step with
    | start | advance => exact handles.elim
    | interrupt enabled =>
      apply List.eq_nil_iff_forall_not_mem.mpr
      intro guard alive
      exact careful thread running guard alive (orderly.held (enabled thread running) alive)
    | trap current now between =>
      rw [now] at running
      cases running
      exact (orderly.between between).1
  · exact settled thread running

theorem Settled.step (settled : before.Settled) (orderly : before.Orderly preemptible)
    (careful : before.Careful preemptible event) (step : Step before event after) : after.Settled := by
  have released := settled.released orderly careful step
  cases step with
  | start thread running between operation =>
    intro other waits
    have different : other ≠ thread := fun same => waits (same ▸ running)
    rw [threads_setThread_of_ne _ different]
    exact settled other waits
  | advance thread running step rest code granted =>
    intro other waits
    have different : other ≠ thread := fun same => waits (same ▸ running)
    rw [threads_setThread_of_ne _ different]
    exact settled other waits
  | interrupt enabled handler next => exact fun thread _ => released trivial thread
  | trap thread running between handler next => exact fun thread _ => released trivial thread

theorem Settled.strands (settled : before.Settled) (orderly : before.Orderly preemptible)
    (careful : before.Careful preemptible event) (step : Step before event after) (lock : Lock) :
    ¬ before.Strands event.handler lock := by
  rintro ⟨mode, asked, owner, guard, alive, _⟩
  rw [settled.released orderly careful step (Event.handles_of_request asked) owner] at alive
  exact absurd alive List.not_mem_nil

end Machine

end Zephyr.Locks
