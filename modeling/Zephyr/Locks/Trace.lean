import Mathlib.Data.List.Basic

/-! Code seen as the locks it takes: traces of spin lock acquisitions and
releases, with the sections that run under masked interrupts. -/

namespace Zephyr.Locks

/-- A mutex is a lock that is only ever taken for writing. -/
inductive Mode where
  | read
  | write
  deriving DecidableEq, Repr

inductive LockStep (Lock : Type) where
  | acquire (lock : Lock) (mode : Mode)
  | release (lock : Lock) (mode : Mode)
  | mask
  | unmask
  deriving DecidableEq, Repr

abbrev Guard (Lock : Type) := Lock × Mode

abbrev Trace (Lock : Type) := List (LockStep Lock)

variable {Lock : Type}

/-- Readers share a lock, a writer excludes everybody. -/
def Mode.Excludes (mode other : Mode) : Prop := mode = .write ∨ other = .write

instance (mode other : Mode) : Decidable (mode.Excludes other) :=
  inferInstanceAs (Decidable (mode = .write ∨ other = .write))

/-- A request spins while one of these guards is alive. -/
def Blocked (guards : List (Guard Lock)) (lock : Lock) (mode : Mode) : Prop :=
  ∃ guard ∈ guards, guard.1 = lock ∧ mode.Excludes guard.2

instance [DecidableEq Lock] (guards : List (Guard Lock)) (lock : Lock) (mode : Mode) :
    Decidable (Blocked guards lock mode) :=
  inferInstanceAs (Decidable (∃ guard ∈ guards, guard.1 = lock ∧ mode.Excludes guard.2))

def requests : Trace Lock → List (Guard Lock)
  | [] => []
  | .acquire lock mode :: rest => (lock, mode) :: requests rest
  | _ :: rest => requests rest

/-- `interrupts::without_interrupts`. -/
def withoutInterrupts (body : Trace Lock) : Trace Lock := .mask :: (body ++ [.unmask])

/-- A guard that lives as long as `body`. -/
def locked (lock : Lock) (mode : Mode) (body : Trace Lock) : Trace Lock :=
  .acquire lock mode :: (body ++ [.release lock mode])

def times (count : Nat) (body : Trace Lock) : Trace Lock := (List.replicate count body).flatten

section Execution

variable [DecidableEq Lock]

/-- The guards alive after a trace that runs alone; `none` when it spins forever
on a guard of its own. -/
def execute : List (Guard Lock) → Trace Lock → Option (List (Guard Lock))
  | guards, [] => some guards
  | guards, .acquire lock mode :: rest =>
    if Blocked guards lock mode then none else execute ((lock, mode) :: guards) rest
  | guards, .release lock mode :: rest => execute (guards.erase (lock, mode)) rest
  | guards, .mask :: rest => execute guards rest
  | guards, .unmask :: rest => execute guards rest

end Execution

end Zephyr.Locks
