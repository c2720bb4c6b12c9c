import Zephyr.Proc.Holdings

/-! The interrupt stack in the TSS. Only `schedule` installs one, while a thread
takes its kernel stack with it wherever it is moved; an exit drops the stack
that is installed. -/

namespace Zephyr

open Transition

namespace Kernel

variable {σ : Type} {kernel : Kernel σ} {action : Action σ} {thread : Thread}

def InterruptStackLive (kernel : Kernel σ) : Prop :=
  ∃ thread, kernel.Held thread ∧ thread.kernelStackEnd = kernel.interruptStack

/-- The heap does not hand out the kernel stack of a live thread again. -/
def FreshStack (kernel : Kernel σ) (action : Action σ) : Prop :=
  ∀ new, Newborn kernel action new →
    ∀ thread, kernel.Held thread → thread.kernelStackEnd ≠ new.kernelStackEnd

/-- The action is the running thread's `exit` system call. -/
def Exits (kernel : Kernel σ) : Action σ → Prop
  | .syscall _ syscallId _ _ _ _ => (syscallId &&& 0xFF).toNat = 1 ∧ kernel.runningThread ≠ none
  | _ => False

/-- Two values of one thread, at different times. -/
def SameStack (thread other : Thread) : Prop :=
  thread.threadId = other.threadId ∧ thread.kernelStackEnd = other.kernelStackEnd

theorem Newborn.unique {other : Thread} (born : Newborn kernel action thread)
    (twin : Newborn kernel action other) : SameStack thread other := by
  cases born with
  | kernel => cases twin; exact ⟨rfl, rfl⟩
  | fork => cases twin; exact ⟨rfl, rfl⟩
  | user => cases twin; exact ⟨rfl, rfl⟩

theorem Exits.not_newborn (exits : kernel.Exits action) : ¬ Newborn kernel action thread := by
  intro born
  cases born with
  | kernel | user => exact exits
  | fork context syscallId arg1 arg2 arg3 kernelStackStart userStackEnd current number running =>
    have exit := exits.1
    omega

theorem Picks.installed {before after : Kernel σ} {ready : List Thread} {addr : Nat}
    (picks : Picks before ready after addr) (running : after.runningThread = some thread) :
    after.interruptStack = thread.kernelStackEnd := by
  cases picks with
  | next picked queue now stack =>
    rw [now] at running
    cases running
    exact stack
  | nobody queue empty idle stack =>
    rw [idle] at running
    cases running

variable [DecidableEq σ] [Fintype σ]

/-- Some state along the actions, the first and last included, has a running thread. -/
def HasRun (kernel : Kernel σ) (actions : List (Action σ)) : Prop :=
  ∃ earlier, earlier <+: actions ∧ (earlier.foldl perform kernel).runningThread ≠ none

theorem held_origin (held : (kernel.perform action).Held thread) :
    (∃ old, kernel.Held old ∧ SameStack old thread) ∨
      ∃ new, Newborn kernel action new ∧ SameStack new thread := by
  let holds (thread : Thread) : Prop := (∃ old, kernel.Held old ∧ SameStack old thread) ∨
    ∃ new, Newborn kernel action new ∧ SameStack new thread
  have stable : Stable holds := by
    refine ⟨fun _ known => known, ?_⟩
    rintro thread ⟨data1, data2, data3⟩ known
    exact known
  have every : kernel.Every holds := every_iff.mpr fun thread old => .inl ⟨thread, old, rfl, rfl⟩
  have after := every.perform stable action (fun current _ running _ => .inl ⟨current, .inl running, rfl, rfl⟩)
    (by
      intro context _ thread stamped
      obtain ⟨current, running, rfl⟩ := Option.map_eq_some_iff.mp stamped
      exact .inl ⟨current, .inl running, rfl, rfl⟩)
    (fun thread born => .inr ⟨thread, born, rfl, rfl⟩)
  exact every_iff.mp after thread held

theorem Conserved.sameStack (conserved : kernel.Conserved) {old : Thread} (before : kernel.Held old)
    (held : (kernel.perform action).Held thread) (same : old.threadId = thread.threadId) :
    SameStack old thread := by
  rcases held_origin held with ⟨origin, known, stack⟩ | ⟨new, born, stack⟩
  · rw [← conserved.eq_of_held before known (stack.1.trans same.symm)]
    exact stack
  · have bounded := conserved.bounded _ (conserved.live_of_held before).1
    have fresh := born.fresh
    rw [stack.1, ← same] at fresh
    omega

theorem Conserved.persists (conserved : kernel.Conserved) (stays : ¬ kernel.Exits action)
    (held : kernel.Held thread) : ∃ later, (kernel.perform action).Held later ∧ SameStack thread later := by
  have outcome := perform_outcome conserved action
  have live := conserved.live_of_held held
  have kept : thread.threadId ∉ (kernel.perform action).exited := by
    intro gone
    rcases outcome.exits gone with old | ⟨context, syscallId, arg1, arg2, arg3, memory, current, rfl, exit, running, _⟩
    · exact live.2 old
    · exact stays ⟨exit, by rw [running]; exact Option.some_ne_none _⟩
  obtain ⟨later, after, same⟩ := (conserved.of_outcome outcome).exists_held
    ⟨outcome.grows.2.1 _ live.1, kept⟩
  exact ⟨later, after, conserved.sameStack held after same.symm⟩

/-- Whenever a thread runs, its kernel stack is the interrupt stack. -/
def Installed (kernel : Kernel σ) : Prop :=
  ∀ thread, kernel.runningThread = some thread → kernel.interruptStack = thread.kernelStackEnd

theorem Installed.perform (installed : kernel.Installed) (conserved : kernel.Conserved) :
    (kernel.perform action).Installed := by
  intro thread running
  have turn := perform_turn conserved action
  generalize kernel.rescheduled action = label at turn
  cases turn with
  | goesOn front back queue same stack =>
    rw [running] at same
    obtain ⟨current, before, same⟩ := Option.map_eq_some_iff.mp same.symm
    rw [stack, installed current before]
    exact (conserved.sameStack (.inl before) (.inl running) same).2
  | preempts front pushed same addr picks => exact picks.installed running
  | blocks front addr picks => exact picks.installed running
  | exits current before exit queue idle stack =>
    rw [idle] at running
    cases running

/-- The running thread's stack is installed, and no two threads share one. -/
structure Stacked (kernel : Kernel σ) : Prop where
  conserved : kernel.Conserved
  installed : ∀ thread, kernel.runningThread = some thread → kernel.interruptStack = thread.kernelStackEnd
  distinct : ∀ thread other, kernel.Held thread → kernel.Held other →
    thread.kernelStackEnd = other.kernelStackEnd → thread.threadId = other.threadId

theorem Stacked.perform (stacked : kernel.Stacked) (fresh : kernel.FreshStack action) :
    (kernel.perform action).Stacked := by
  have conserved := stacked.conserved
  refine ⟨conserved.of_outcome (perform_outcome conserved action),
    Installed.perform stacked.installed conserved, ?_⟩
  intro thread other held second same
  rcases held_origin held with ⟨old, known, stack⟩ | ⟨new, born, stack⟩ <;>
    rcases held_origin second with ⟨first, before, origin⟩ | ⟨twin, sibling, origin⟩
  · rw [← stack.1, ← origin.1]
    exact stacked.distinct old first known before (by rw [stack.2, same, origin.2])
  · exact absurd (by rw [stack.2, same, origin.2]) (fresh twin sibling old known)
  · exact absurd (by rw [stack.2, same, origin.2]) (fresh new born first before)
  · rw [← stack.1, ← origin.1]
    exact (born.unique sibling).1

omit [DecidableEq σ] in
theorem stacked_boot (keyboardSocket : σ) (kernelPageTable : Nat) :
    (boot keyboardSocket kernelPageTable).Stacked := by
  have nobody (thread : Thread) : ¬ (boot keyboardSocket kernelPageTable).Held thread :=
    every_iff.mp (every_boot (fun _ => False) keyboardSocket kernelPageTable) thread
  exact ⟨conserved_boot keyboardSocket kernelPageTable, (fun _ running => nomatch running),
    fun thread _ held => absurd held (nobody thread)⟩

theorem InterruptStackLive.perform (live : kernel.InterruptStackLive) (conserved : kernel.Conserved)
    (stays : ¬ kernel.Exits action) : (kernel.perform action).InterruptStackLive := by
  obtain ⟨owner, held, stack⟩ := live
  obtain ⟨later, after, same⟩ := conserved.persists stays held
  have turn := perform_turn conserved action
  generalize kernel.rescheduled action = label at turn
  have picked {ready : List Thread} {addr : Nat} (picks : Picks kernel ready (kernel.perform action) addr) :
      (kernel.perform action).InterruptStackLive := by
    cases picks with
    | next thread queue running installed => exact ⟨thread, .inl running, installed.symm⟩
    | nobody queue empty idle unchanged => exact ⟨later, after, by rw [← same.2, stack, unchanged]⟩
  cases turn with
  | goesOn front back queue caller unchanged => exact ⟨later, after, by rw [← same.2, stack, unchanged]⟩
  | preempts front pushed caller addr picks => exact picked picks
  | blocks front addr picks => exact picked picks
  | exits current running exit =>
    exact absurd ⟨exit, by rw [running]; exact Option.some_ne_none _⟩ stays

theorem Exits.perform (exits : kernel.Exits action) : ∃ current, kernel.runningThread = some current ∧
    kernel.perform action = (kernel.retire current).dropThread current := by
  cases action with
  | syscall context syscallId arg1 arg2 arg3 memory =>
    obtain ⟨exit, occupied⟩ := exits
    obtain ⟨current, running⟩ := Option.ne_none_iff_exists'.mp occupied
    refine ⟨current, running, ?_⟩
    simp [Kernel.perform, dispatchSyscall, exit, exitCurrentThread, running]
  | _ => exact exits.elim

theorem Stacked.dead_of_exits (stacked : kernel.Stacked) (exits : kernel.Exits action) :
    ¬ (kernel.perform action).InterruptStackLive := by
  obtain ⟨current, running, performed⟩ := exits.perform
  obtain ⟨_, _, stack, exited⟩ := (kernel.retire current).dropThread_kept current
  rintro ⟨owner, held, same⟩
  have conserved := stacked.conserved
  have live := (conserved.of_outcome (perform_outcome conserved action)).live_of_held held
  rcases held_origin held with ⟨old, known, origin⟩ | ⟨new, born, _⟩
  · have shared : old.kernelStackEnd = current.kernelStackEnd := by
      rw [origin.2, same, performed, stack]
      exact stacked.installed current running
    have gone := stacked.distinct old current known (.inl running) shared
    apply live.2
    rw [performed, exited, ← origin.1, gone]
    exact List.mem_append_right _ List.mem_cons_self
  · exact exits.not_newborn born

section Runs

variable {keyboardSocket : σ} {kernelPageTable : Nat} {actions : List (Action σ)}

theorem kernelStackSize_le_of_run (run : Run Step (boot keyboardSocket kernelPageTable) actions kernel)
    (running : kernel.runningThread = some thread) : kernelStackSize ≤ kernel.interruptStack := by
  have kept : kernel.Conserved ∧ kernel.Installed ∧
      kernel.Every fun thread => kernelStackSize ≤ thread.kernelStackEnd := by
    apply run.invariant ⟨conserved_boot keyboardSocket kernelPageTable, (fun _ running => nomatch running),
      every_boot _ keyboardSocket kernelPageTable⟩
    rintro before action after ⟨conserved, installed, every⟩ rfl
    refine ⟨conserved.of_outcome (perform_outcome conserved action), installed.perform conserved,
      every.perform ⟨fun _ known => known, ?_⟩ action ?_ ?_ ?_⟩
    · rintro thread ⟨data1, data2, data3⟩ known
      exact known
    · intro current _ running _
      exact every.running current running
    · intro context _ thread stamped
      obtain ⟨current, running, rfl⟩ := Option.map_eq_some_iff.mp stamped
      exact every.running current running
    · intro thread born
      cases born <;> exact Nat.le_add_left _ _
  rw [kept.2.1 thread running]
  exact kept.2.2.running thread running

theorem stacked_of_run
    (fresh : Guarded FreshStack perform (boot keyboardSocket kernelPageTable) actions) :
    (actions.foldl perform (boot keyboardSocket kernelPageTable)).Stacked := by
  induction actions using List.reverseRecOn with
  | nil => exact stacked_boot keyboardSocket kernelPageTable
  | append_singleton actions action ih =>
    have last := guarded_iff.mp fresh actions action (List.prefix_refl _)
    rw [List.foldl_append]
    exact (ih (fresh.of_prefix (List.prefix_append _ _))).perform last

/-- Once a thread has run, the installed stack stays alive up to the first exit. -/
theorem live_of_run
    (fresh : Guarded FreshStack perform (boot keyboardSocket kernelPageTable) actions)
    (stays : Guarded (fun kernel action => ¬ kernel.Exits action) perform
      (boot keyboardSocket kernelPageTable) actions)
    (hasRun : (boot keyboardSocket kernelPageTable).HasRun actions) :
    (actions.foldl perform (boot keyboardSocket kernelPageTable)).InterruptStackLive := by
  have running {kernel : Kernel σ} (stacked : kernel.Stacked) (occupied : kernel.runningThread ≠ none) :
      kernel.InterruptStackLive := by
    obtain ⟨current, now⟩ := Option.ne_none_iff_exists'.mp occupied
    exact ⟨current, .inl now, (stacked.installed current now).symm⟩
  induction actions using List.reverseRecOn with
  | nil =>
    obtain ⟨earlier, start, occupied⟩ := hasRun
    rw [List.prefix_nil.mp start] at occupied
    exact absurd rfl occupied
  | append_singleton actions action ih =>
    obtain ⟨earlier, start, occupied⟩ := hasRun
    rcases List.prefix_concat_iff.mp start with whole | before
    · rw [whole] at occupied
      exact running (stacked_of_run fresh) occupied
    · have old := List.prefix_append actions [action]
      have live := ih (fresh.of_prefix old) (stays.of_prefix old) ⟨earlier, before, occupied⟩
      have last := guarded_iff.mp stays actions action (List.prefix_refl _)
      rw [List.foldl_append]
      exact live.perform (stacked_of_run (fresh.of_prefix old)).conserved last

/-- From the first scheduled thread on the installed interrupt stack belongs to
a live thread in every state of a run exactly when no thread of the run exits. -/
theorem interrupt_stack_live_iff_no_exit (keyboardSocket : σ) (kernelPageTable : Nat)
    (actions : List (Action σ))
    (fresh : Guarded FreshStack perform (boot keyboardSocket kernelPageTable) actions) :
    (∀ earlier, earlier <+: actions → (boot keyboardSocket kernelPageTable).HasRun earlier →
      (earlier.foldl perform (boot keyboardSocket kernelPageTable)).InterruptStackLive) ↔
    Guarded (fun kernel action => ¬ kernel.Exits action) perform
      (boot keyboardSocket kernelPageTable) actions := by
  constructor
  · intro live
    apply guarded_iff.mpr
    intro earlier action split exits
    have before := (List.prefix_append earlier [action]).trans split
    have dead := (stacked_of_run (fresh.of_prefix before)).dead_of_exits exits
    obtain ⟨current, running, _⟩ := exits.perform
    have after := live (earlier ++ [action]) split
      ⟨earlier, List.prefix_append _ _, by rw [running]; exact Option.some_ne_none _⟩
    rw [List.foldl_append] at after
    exact dead after
  · intro stays earlier split hasRun
    exact live_of_run (fresh.of_prefix split) (stays.of_prefix split) hasRun

/-- Two kernel threads are spawned, and both take a turn. -/
private def bothRun : List (Action Unit) :=
  [.spawnKernelThread 0x1000 [] 0x10000 {}, .spawnKernelThread 0x2000 [] 0x20000 {}, .timer ⟨0, {}⟩,
    .timer ⟨0x22f60, {}⟩]

private def quits : Action Unit := .syscall ⟨0x12f00, {}⟩ 1 0 0 0 ⟨none⟩

private theorem freshStack_bothRun : Guarded FreshStack perform (boot () 1) bothRun := by
  have nobody (thread : Thread) : ¬ (boot () 1).Held thread :=
    every_iff.mp (every_boot (fun _ => False) () 1) thread
  refine ⟨fun new _ thread held => absurd held (nobody thread), fun new born thread held => ?_, nofun, nofun, trivial⟩
  cases born
  rcases held with running | queued | ⟨_, parked⟩
  · cases running
  · obtain rfl := List.mem_singleton.mp queued
    decide
  · cases parked

/-- The switch has installed the stack of the thread that runs now. -/
theorem interrupt_stack_live_iff_no_exit_switch :
    (bothRun.foldl perform (boot () 1)).interruptStack = 0x13000 ∧
    (bothRun.foldl perform (boot () 1)).InterruptStackLive := by
  have stays : Guarded (fun kernel action => ¬ kernel.Exits action) perform (boot () 1) bothRun :=
    ⟨id, id, id, id, trivial⟩
  have live := (interrupt_stack_live_iff_no_exit () 1 bothRun freshStack_bothRun).mpr stays
  exact ⟨by decide, live bothRun (List.prefix_refl _) ⟨bothRun, List.prefix_refl _, by decide⟩⟩

/-- That thread exits: the stack that ends at `0x13000` is dropped and stays installed. -/
theorem exit_leaves_dropped_stack :
    (boot () 1).HasRun (bothRun ++ [quits]) ∧
    ((bothRun ++ [quits]).foldl perform (boot () 1)).interruptStack = 0x13000 ∧
    ¬ ((bothRun ++ [quits]).foldl perform (boot () 1)).InterruptStackLive := by
  have exits : (bothRun.foldl perform (boot () 1)).Exits quits := ⟨by decide, by decide⟩
  refine ⟨⟨bothRun, List.prefix_append _ _, by decide⟩, by decide, ?_⟩
  rw [List.foldl_append]
  exact (stacked_of_run freshStack_bothRun).dead_of_exits exits

end Runs

end Kernel
end Zephyr
