import Zephyr.Proc.Conservation

/-! Which page table a thread runs under. A user thread always runs under the
table of its own process; a kernel thread runs under whatever table is active,
and records it when it is switched out. -/

namespace Zephyr

open Transition

variable {σ : Type}

def SpawnStage.table : SpawnStage → Option Nat
  | .created table => some table
  | .inside table _ => some table
  | .leaving _ => none

/-- Frame zero is never handed out: the bootloader keeps it out of the usable
regions, and `schedule` reads a zero `page_table_phys` as "none". -/
def Action.NonzeroTable : Action σ → Prop
  | .createKernelOnlyPagetable table => table ≠ 0
  | _ => True

/-- A user thread carries its process's table; a kernel thread's process has none. -/
def Badge.BelongsTo (badge : Badge) (process : Process σ) : Prop :=
  match badge.threadType with
  | .user => badge.pageTablePhys = process.pageTablePhysaddr ∧ badge.pageTablePhys ≠ 0
  | .kernel => process.pageTablePhysaddr = 0

theorem Badge.belongsTo_user {badge : Badge} {process : Process σ} (type : badge.threadType = .user) :
    badge.BelongsTo process ↔
      badge.pageTablePhys = process.pageTablePhysaddr ∧ badge.pageTablePhys ≠ 0 := by
  simp only [BelongsTo, type]

theorem Badge.belongsTo_kernel {badge : Badge} {process : Process σ}
    (type : badge.threadType = .kernel) : badge.BelongsTo process ↔ process.pageTablePhysaddr = 0 := by
  simp only [BelongsTo, type]

/-- A new thread changes the spawn stages of its parent only, a kernel thread
that stood inside the spawn. -/
theorem Lineage.stages {before : Kernel σ} {badge : Badge} {added : List (Process σ)}
    {stages : Nat → Option SpawnStage} (lineage : Lineage before badge added stages) (id : Nat) :
    stages id = before.spawning id ∨ before.spawning id ≠ none ∧ ∃ original,
      stages id = some (.leaving original) := by
  cases lineage with
  | kernel | fork => exact .inl rfl
  | user uid sockets parent table original running inside =>
    by_cases same : id = parent.threadId
    · subst same
      exact .inr ⟨by simp [inside], original, Function.update_self _ _ _⟩
    · exact .inl (Function.update_of_ne same _ _)

namespace Kernel

variable [Fintype σ] {kernel before after : Kernel σ} {action : Action σ}

/-- Threads are held once and belong to their processes, a running user thread's
table is active, and only kernel threads stand inside `spawn_user_thread`. -/
structure Housed (kernel : Kernel σ) : Prop where
  conserved : kernel.Conserved
  process : ∀ badge ∈ kernel.occupants, ∃ process,
    kernel.processes[badge.process]? = some process ∧ badge.BelongsTo process
  active : ∀ thread, kernel.runningThread = some thread → thread.threadType = .user →
    kernel.cr3 = thread.pageTablePhys
  spawner : ∀ badge ∈ kernel.occupants, kernel.spawning badge.threadId ≠ none →
    badge.threadType = .kernel
  unborn : ∀ id, kernel.counter < id → kernel.spawning id = none
  nonzero : ∀ id stage, kernel.spawning id = some stage → ∀ table ∈ stage.table, table ≠ 0

namespace Housed

theorem user (housed : kernel.Housed) {badge : Badge} (held : badge ∈ kernel.occupants)
    (type : badge.threadType = .user) :
    ∃ process, kernel.processes[badge.process]? = some process ∧
      badge.pageTablePhys = process.pageTablePhysaddr ∧ badge.pageTablePhys ≠ 0 := by
  obtain ⟨process, found, belongs⟩ := housed.process badge held
  exact ⟨process, found, (Badge.belongsTo_user type).mp belongs⟩

theorem of_boot (keyboardSocket : σ) (kernelPageTable : Nat) :
    (boot keyboardSocket kernelPageTable).Housed where
  conserved := conserved_boot keyboardSocket kernelPageTable
  process := by simp [boot, occupants, Socket.threads]
  active := by simp [boot]
  spawner := by simp [boot]
  unborn := by simp [boot]
  nonzero := by simp [boot]

/-- A move changes at most the record of a preempted kernel thread: a user
thread's table is the active one already. -/
theorem population (housed : before.Housed) (moved : Move before after) :
    after.occupants = before.occupants ∨ ∃ thread rest, before.runningThread = some thread ∧
      thread.threadType = .kernel ∧ before.occupants = thread.badge ::ₘ rest ∧
      after.occupants = { thread.badge with pageTablePhys := before.cr3 } ::ₘ rest := by
  rcases moved.population with same | stamped
  · exact .inl same
  · cases running : before.runningThread with
    | none =>
      rw [restamp_of_idle _ running] at stamped
      exact .inl stamped
    | some thread =>
      have split (stamp : Thread) : ({ before with runningThread := some stamp } : Kernel σ).occupants =
          stamp.badge ::ₘ before.clearCurrentThread.occupants := by
        simp [occupants, clearCurrentThread]
      have old : before.occupants = thread.badge ::ₘ before.clearCurrentThread.occupants := by
        rw [← split, ← running]
      have new : after.occupants =
          { thread.badge with pageTablePhys := before.cr3 } ::ₘ before.clearCurrentThread.occupants := by
        rw [stamped, restamp, running]
        exact split _
      cases type : thread.threadType with
      | kernel => exact .inr ⟨thread, _, rfl, type, old, new⟩
      | user =>
        left
        rw [new, old, housed.active thread running type]
        rfl

/-- Every thread held after a move was held before it, up to the table a
preempted kernel thread recorded. -/
theorem origin (housed : before.Housed) (moved : Move before after) {badge : Badge}
    (held : badge ∈ after.occupants) : ∃ old ∈ before.occupants, badge = old ∨
      old.threadType = .kernel ∧ badge = { old with pageTablePhys := before.cr3 } := by
  rcases housed.population moved with same | ⟨thread, rest, running, type, old, new⟩
  · exact ⟨badge, same ▸ held, .inl rfl⟩
  · rw [new, Multiset.mem_cons] at held
    rcases held with rfl | member
    · exact ⟨thread.badge, before.badge_mem_of_running running, .inr ⟨type, rfl⟩⟩
    · exact ⟨badge, old ▸ Multiset.mem_cons_of_mem member, .inl rfl⟩

theorem of_move (housed : before.Housed) (moved : Move before after) : after.Housed := by
  have processes : after.processes = before.processes := (congrArg Kernel.processes moved.fixed :)
  have spawning : after.spawning = before.spawning := (congrArg Kernel.spawning moved.fixed :)
  have counter : after.counter = before.counter := (congrArg Kernel.counter moved.fixed :)
  have conserved := housed.conserved.of_move moved
  have process : ∀ badge ∈ after.occupants, ∃ process,
      after.processes[badge.process]? = some process ∧ badge.BelongsTo process := by
    intro badge held
    rw [processes]
    obtain ⟨old, member, rfl | ⟨type, rfl⟩⟩ := housed.origin moved held
    · exact housed.process _ member
    · obtain ⟨process, found, belongs⟩ := housed.process old member
      have stamped : ({ old with pageTablePhys := before.cr3 } : Badge).threadType = .kernel := type
      have empty := (Badge.belongsTo_kernel type).mp belongs
      exact ⟨process, found, (Badge.belongsTo_kernel stamped).mpr empty⟩
  refine ⟨conserved, process, ?_, ?_, ?_, ?_⟩
  · intro thread running type
    have held := after.badge_mem_of_running running
    cases moved.switch with
    | stay caller cr3 =>
      rw [running, Option.map_some] at caller
      obtain ⟨old, ran, id⟩ := Option.map_eq_some_iff.mp caller.symm
      have same : thread.badge = old.badge := by
        obtain ⟨origin, member, rfl | ⟨privileged, stamped⟩⟩ := housed.origin moved held
        · exact housed.conserved.eq_of_threadId member (before.badge_mem_of_running ran) id.symm
        · have typed : thread.threadType = origin.threadType := congrArg Badge.threadType stamped
          rw [type, privileged] at typed
          cases typed
      have table : thread.pageTablePhys = old.pageTablePhys := congrArg Badge.pageTablePhys same
      have user : old.threadType = .user := (congrArg Badge.threadType same).symm.trans type
      rw [cr3, table]
      exact housed.active old ran user
    | pick chosen picked cr3 =>
      obtain rfl : thread = chosen := Option.some.inj (running.symm.trans picked)
      obtain ⟨_, _, belongs⟩ := process thread.badge held
      have nonzero : thread.pageTablePhys ≠ 0 := ((Badge.belongsTo_user type).mp belongs).2
      rw [cr3, if_pos nonzero]
    | idle nobody _ =>
      rw [running] at nobody
      cases nobody
  · intro badge held
    rw [spawning]
    obtain ⟨old, member, rfl | ⟨type, rfl⟩⟩ := housed.origin moved held
    · exact housed.spawner _ member
    · exact fun _ => type
  · simpa only [counter, spawning] using housed.unborn
  · simpa only [spawning] using housed.nonzero

/-- A new thread belongs to its process, whichever way it was made. -/
theorem belongs_of_lineage (housed : before.Housed) {badge : Badge} {added : List (Process σ)}
    {stages : Nat → Option SpawnStage} (lineage : Lineage before badge added stages) :
    ∃ process, (before.processes ++ added)[badge.process]? = some process ∧ badge.BelongsTo process := by
  cases lineage with
  | kernel uid sockets => exact ⟨⟨0, sockets⟩, List.getElem?_concat_length, rfl⟩
  | fork uid current running =>
    obtain ⟨process, found, belongs⟩ := housed.process _ (before.badge_mem_of_running running)
    rw [List.append_nil]
    exact ⟨process, found, belongs⟩
  | user uid sockets parent table original running inside =>
    refine ⟨⟨table, sockets⟩, List.getElem?_concat_length, rfl, ?_⟩
    exact housed.nonzero _ _ inside table rfl

theorem of_birth (housed : before.Housed) {badge : Badge} {added : List (Process σ)}
    {stages : Nat → Option SpawnStage} {counter : Nat} (lineage : Lineage before badge added stages)
    (conserved : after.Conserved) (fresh : before.counter < badge.threadId)
    (drawn : badge.threadId ≤ counter) (population : after.occupants = badge ::ₘ before.occupants)
    (fixed : after.fixed = { before.fixed with
      counter := counter, processes := before.processes ++ added
      created := before.created ++ [badge.threadId], spawning := stages })
    (running : after.runningThread = before.runningThread) (cr3 : after.cr3 = before.cr3) :
    after.Housed := by
  have processes : after.processes = before.processes ++ added := (congrArg Kernel.processes fixed :)
  have spawning : after.spawning = stages := (congrArg Kernel.spawning fixed :)
  have total : after.counter = counter := (congrArg Kernel.counter fixed :)
  have changed := lineage.stages
  refine ⟨conserved, ?_, ?_, ?_, ?_, ?_⟩
  · intro other held
    rw [population, Multiset.mem_cons] at held
    rw [processes]
    rcases held with rfl | old
    · exact housed.belongs_of_lineage lineage
    · obtain ⟨process, found, belongs⟩ := housed.process other old
      have inside := (List.getElem?_eq_some_iff.mp found).1
      exact ⟨process, (List.getElem?_append_left inside).trans found, belongs⟩
  · intro thread ran type
    rw [cr3]
    exact housed.active thread (running ▸ ran) type
  · intro other held standing
    rw [population, Multiset.mem_cons] at held
    rw [spawning] at standing
    rcases changed other.threadId with same | ⟨before_standing, _⟩
    · rw [same] at standing
      rcases held with rfl | old
      · exact absurd (housed.unborn _ fresh) standing
      · exact housed.spawner other old standing
    · rcases held with rfl | old
      · exact absurd (housed.unborn _ fresh) before_standing
      · exact housed.spawner other old before_standing
  · intro id late
    rw [total] at late
    have unborn := housed.unborn id (by omega)
    rw [spawning]
    rcases changed id with same | ⟨standing, _⟩
    · rw [same, unborn]
    · exact absurd unborn standing
  · intro id stage standing table member
    rw [spawning] at standing
    rcases changed id with same | ⟨_, original, leaving⟩
    · exact housed.nonzero id stage (same ▸ standing) table member
    · rw [leaving] at standing
      cases standing
      cases member

theorem of_setStage (housed : before.Housed) {thread : Thread}
    (running : before.runningThread = some thread) (type : thread.threadType = .kernel)
    {stage : Option SpawnStage} (nonzero : ∀ here ∈ stage, ∀ table ∈ here.table, table ≠ 0)
    (cr3 counter : Nat) (released : List Nat) (grown : before.counter ≤ counter) :
    ({ before.setStage thread stage with cr3, counter, released } : Kernel σ).Housed := by
  have conserved := housed.conserved
  have held := before.badge_mem_of_running running
  refine ⟨⟨conserved.exact, conserved.distinct, ?_, conserved.left⟩, housed.process, ?_, ?_, ?_, ?_⟩
  · intro id member
    exact (conserved.bounded id member).trans grown
  · intro other ran user
    obtain rfl : thread = other := Option.some.inj (running.symm.trans ran)
    rw [type] at user
    cases user
  · intro badge member standing
    by_cases same : badge.threadId = thread.threadId
    · rw [conserved.eq_of_threadId member held same]
      exact type
    · refine housed.spawner badge member ?_
      simpa only [setStage, Function.update_of_ne same] using standing
  · intro id late
    have different : id ≠ thread.threadId := by
      rintro rfl
      have := conserved.bounded _ (conserved.held held).1
      simp only [Thread.badge] at this late
      omega
    simp only [setStage, Function.update_of_ne different]
    exact housed.unborn id (grown.trans_lt late)
  · intro id here standing
    change Function.update before.spawning thread.threadId stage id = some here at standing
    by_cases same : id = thread.threadId
    · subst same
      rw [Function.update_self] at standing
      exact nonzero here standing
    · rw [Function.update_of_ne same] at standing
      exact housed.nonzero id here standing

theorem of_stage (housed : before.Housed) (allowed : action.NonzeroTable)
    (spawn : Stage before action after) : after.Housed := by
  have type {thread : Thread} {stage : SpawnStage} (running : before.runningThread = some thread)
      (standing : before.spawning thread.threadId = some stage) : thread.threadType = .kernel :=
    housed.spawner thread.badge (before.badge_mem_of_running running) (by simp [Thread.badge, standing])
  cases spawn with
  | stutter => exact housed
  | create thread table running typed free =>
    refine housed.of_setStage running typed ?_ before.cr3 before.counter _ (Nat.le_refl _)
    rintro here ⟨⟩ table ⟨⟩
    exact allowed
  | failHeap thread table running created =>
    exact housed.of_setStage running (type running created) (by simp) before.cr3 before.counter
      before.released (Nat.le_refl _)
  | enter thread table running created =>
    refine housed.of_setStage running (type running created) ?_ table before.counter
      before.released (Nat.le_refl _)
    rintro here ⟨⟩ table ⟨⟩
    exact housed.nonzero _ _ created _ rfl
  | load thread table original running inside =>
    have unchanged : Function.update before.spawning thread.threadId (some (.inside table original)) =
        before.spawning := by
      rw [← inside, Function.update_eq_self]
    have nonzero : ∀ here ∈ some (SpawnStage.inside table original), ∀ loaded ∈ here.table,
        loaded ≠ 0 := by
      rintro here ⟨⟩
      exact housed.nonzero _ _ inside
    have moved := housed.of_setStage running (type running inside) nonzero table before.counter
      before.released (Nat.le_refl _)
    simpa only [setStage, unchanged] using moved
  | failClosure thread table original draws running inside =>
    refine housed.of_setStage running (type running inside) ?_ before.cr3 _
      before.released (Nat.le_add_right _ draws)
    rintro here ⟨⟩ table ⟨⟩
  | leave thread original running leaving =>
    exact housed.of_setStage running (type running leaving) (by simp) original before.counter
      before.released (Nat.le_refl _)

theorem of_retire (housed : before.Housed) {thread : Thread}
    (running : before.runningThread = some thread)
    (population : before.occupants = thread.badge ::ₘ (before.retire thread).occupants)
    (cr3 : Nat) (released : List Nat) :
    ({ before.retire thread with cr3, released } : Kernel σ).Housed := by
  have retired := housed.conserved.of_retire running population
  have earlier {badge : Badge} (held : badge ∈ (before.retire thread).occupants) :
      badge ∈ before.occupants := population ▸ Multiset.mem_cons_of_mem held
  refine ⟨⟨retired.exact, retired.distinct, retired.bounded, retired.left⟩, ?_, ?_, ?_,
    housed.unborn, housed.nonzero⟩
  · intro badge held
    exact housed.process badge (earlier held)
  · intro other ran
    cases ran
  · intro badge held
    exact housed.spawner badge (earlier held)

theorem of_outcome (housed : before.Housed) (allowed : action.NonzeroTable)
    (outcome : Outcome before action after) : after.Housed := by
  have conserved := housed.conserved.of_outcome outcome
  cases outcome with
  | move _ moved => exact housed.of_move moved
  | draw =>
    refine ⟨conserved, housed.process, housed.active, housed.spawner, ?_, housed.nonzero⟩
    intro id late
    exact housed.unborn id (Nat.lt_of_succ_lt late)
  | birth badge added stages counter lineage fresh drawn population fixed running cr3 =>
    exact housed.of_birth lineage conserved fresh drawn population fixed running cr3
  | stage spawn => exact housed.of_stage allowed spawn
  | death thread exit running population =>
    have retired := housed.of_retire running population
    unfold dropThread
    split
    · exact retired before.cr3 before.released
    · split
      · exact retired _ _
      · exact retired before.cr3 before.released

end Housed

section Runs

variable [DecidableEq σ]

theorem housed_of_run {keyboardSocket : σ} {kernelPageTable : Nat} {actions : List (Action σ)}
    (run : Run (fun before action after => action.NonzeroTable ∧ Step before action after)
      (boot keyboardSocket kernelPageTable) actions kernel) : kernel.Housed := by
  refine run.invariant (Housed.of_boot keyboardSocket kernelPageTable) ?_
  rintro before action after housed ⟨allowed, rfl⟩
  exact housed.of_outcome allowed (perform_outcome housed.conserved action)

/-- Every live user thread carries its process's page table, and that table is
the active one whenever the thread runs. -/
theorem user_threads_run_in_own_space (keyboardSocket : σ) (kernelPageTable : Nat)
    {actions : List (Action σ)} {kernel : Kernel σ}
    (run : Run (fun before action after => action.NonzeroTable ∧ Step before action after)
      (boot keyboardSocket kernelPageTable) actions kernel) :
    (∀ badge ∈ kernel.occupants, badge.threadType = .user → ∃ process,
      kernel.processes[badge.process]? = some process ∧
        badge.pageTablePhys = process.pageTablePhysaddr) ∧
    ∀ thread, kernel.runningThread = some thread → thread.threadType = .user → ∃ process,
      kernel.processes[thread.process]? = some process ∧ kernel.cr3 = process.pageTablePhysaddr := by
  have housed := housed_of_run run
  constructor
  · intro badge held type
    obtain ⟨process, found, table, _⟩ := housed.user held type
    exact ⟨process, found, table⟩
  · intro thread running type
    obtain ⟨process, found, table, _⟩ := housed.user (kernel.badge_mem_of_running running) type
    exact ⟨process, found, (housed.active thread running type).trans table⟩

/-- A kernel thread loads a user program, with a timer interrupt while it stands
inside `switch_pagetable_and_execute`, and is preempted by the new thread. -/
private def interrupted : List (Action Unit) :=
  [.spawnKernelThread 0x1000 [] 0x10000 {}, .timer ⟨0, {}⟩, .createKernelOnlyPagetable 5,
    .enterUserPagetable, .timer ⟨0xe000, {}⟩, .loadSegment,
    .initialiseThread 0x5000000 [] 0x30000000000 0x30000 {}, .leaveUserPagetable, .timer ⟨0xf000, {}⟩]

private theorem interrupted_guarded :
    Guarded (fun _ action => action.NonzeroTable) perform (boot () 1) interrupted :=
  ⟨trivial, trivial, Nat.succ_ne_zero 4, trivial, trivial, trivial, trivial, trivial, trivial, trivial⟩

/-- The new thread then runs under the table of its process. -/
theorem user_threads_run_in_own_space_interrupted :
    ∃ thread, (interrupted.foldl perform (boot () 1)).runningThread = some thread ∧
      thread.threadType = .user ∧ ∃ process,
        (interrupted.foldl perform (boot () 1)).processes[thread.process]? = some process ∧
          (interrupted.foldl perform (boot () 1)).cr3 = process.pageTablePhysaddr := by
  have own := user_threads_run_in_own_space () 1 (Run.of_guarded interrupted_guarded)
  exact ⟨_, rfl, rfl, own.2 _ rfl rfl⟩

end Runs

end Kernel
end Zephyr
