import Zephyr.Proc.AddressSpace

/-! Whether the active page table can be one that was already freed. A kernel
thread records whatever table is active when it is switched out and restores it
later, so a table stays in use beyond the process it was built for. -/

namespace Zephyr

open Transition

variable {σ : Type}

/-- The table to restore; present exactly inside `switch_pagetable_and_execute`. -/
def SpawnStage.original : SpawnStage → Option Nat
  | .created _ => none
  | .inside _ original => some original
  | .leaving original => some original

namespace Kernel

variable [Fintype σ] {kernel before after : Kernel σ} {action : Action σ} {table : Nat}

def LiveTable (kernel : Kernel σ) (table : Nat) : Prop :=
  ∃ badge ∈ kernel.occupants, badge.threadType = .user ∧ badge.pageTablePhys = table

/-- The tables that may be active: the kernel's and those of live processes. -/
def ValidTable (kernel : Kernel σ) (table : Nat) : Prop :=
  table = kernel.kernelPageTable ∨ kernel.LiveTable table

def StagedTable (kernel : Kernel σ) (id table : Nat) : Prop :=
  ∃ stage, kernel.spawning id = some stage ∧ table ∈ stage.table

/-- The running thread stands inside `switch_pagetable_and_execute`. -/
def Switched (kernel : Kernel σ) : Prop :=
  ∃ thread stage, kernel.runningThread = some thread ∧
    kernel.spawning thread.threadId = some stage ∧ stage.original ≠ none

omit [Fintype σ] in
theorem not_switched (kernel : Kernel σ) {thread : Thread}
    (running : kernel.runningThread = some thread)
    (settled : ∀ stage, kernel.spawning thread.threadId = some stage → stage.original = none) :
    ¬ kernel.Switched := by
  rintro ⟨other, stage, ran, standing, switched⟩
  obtain rfl : thread = other := Option.some.inj (running.symm.trans ran)
  exact switched (settled stage standing)

/-- A frame the allocator hands out for a new table is not in use as one. -/
structure FreshTable (kernel : Kernel σ) (table : Nat) : Prop where
  nonzero : table ≠ 0
  invalid : ¬ kernel.ValidTable table
  unstaged : ∀ id, ¬ kernel.StagedTable id table

/-- What a run may assume of its surroundings: new tables are fresh, and no
system call is made from within `spawn_user_thread`. -/
def Admissible (kernel : Kernel σ) : Action σ → Prop
  | .createKernelOnlyPagetable table => kernel.FreshTable table
  | .syscall _ _ _ _ _ _ => ∀ thread, kernel.runningThread = some thread →
      kernel.spawning thread.threadId = none
  | _ => True

/-- The condition under which no table dangles: no interrupt arrives inside
`switch_pagetable_and_execute`, and when the last thread of a user process exits
no other thread has that process's table recorded. -/
def Careful (kernel : Kernel σ) : Action σ → Prop
  | .timer _ => ¬ kernel.Switched
  | .keyboard _ _ => ¬ kernel.Switched
  | .syscall _ syscallId _ _ _ _ => (syscallId &&& 0xFF).toNat = 1 →
      ∀ thread, kernel.runningThread = some thread → thread.threadType = .user →
        (∀ other ∈ kernel.occupants, other.process = thread.process → other = thread.badge) →
        ∀ other ∈ kernel.occupants, other ≠ thread.badge →
          other.pageTablePhys ≠ thread.pageTablePhys
  | _ => True

/-- The invariant of careful runs. -/
structure Anchored (kernel : Kernel σ) : Prop where
  housed : kernel.Housed
  root : kernel.kernelPageTable ≠ 0
  apart : ¬ kernel.LiveTable kernel.kernelPageTable
  recorded : ∀ badge ∈ kernel.occupants, badge.pageTablePhys ≠ 0 → kernel.ValidTable badge.pageTablePhys
  active : ¬ kernel.Switched → kernel.ValidTable kernel.cr3
  original : ∀ thread stage, kernel.runningThread = some thread →
    kernel.spawning thread.threadId = some stage → ∀ table ∈ stage.original, kernel.ValidTable table
  suspended : ∀ badge ∈ kernel.occupants, ∀ stage, kernel.spawning badge.threadId = some stage →
    stage.original ≠ none → kernel.runningThread.map Thread.threadId = some badge.threadId
  staged : ∀ id table, kernel.StagedTable id table → ¬ kernel.ValidTable table
  separate : ∀ id other table, kernel.StagedTable id table → kernel.StagedTable other table → id = other
  released : ∀ table ∈ kernel.released, table ≠ 0 →
    ¬ kernel.ValidTable table ∧ ∀ id, ¬ kernel.StagedTable id table

theorem not_switched_of_schedules (allowed : kernel.Admissible action) (careful : kernel.Careful action)
    (schedules : action.Schedules) : ¬ kernel.Switched := by
  cases action with
  | timer => exact careful
  | keyboard => exact careful
  | syscall =>
    rintro ⟨thread, stage, running, standing, _⟩
    rw [allowed thread running] at standing
    cases standing
  | _ => cases schedules

theorem hasThread_iff (process : Nat) :
    kernel.HasThread process ↔ ∃ badge ∈ kernel.occupants, badge.process = process := by
  constructor
  · rintro (⟨thread, held, same⟩ | ⟨thread, held, same⟩ | ⟨name, thread, held, same⟩)
    · exact ⟨thread.badge, kernel.mem_occupants.mpr (.inl ⟨thread, held, rfl⟩), same⟩
    · exact ⟨thread.badge, kernel.mem_occupants.mpr (.inr (.inl ⟨thread, held, rfl⟩)), same⟩
    · exact ⟨thread.badge, kernel.mem_occupants.mpr (.inr (.inr ⟨name, thread, held, rfl⟩)), same⟩
  · rintro ⟨badge, held, same⟩
    rcases kernel.mem_occupants.mp held with ⟨thread, member, rfl⟩ | ⟨thread, member, rfl⟩ |
      ⟨name, thread, member, rfl⟩
    · exact .inl ⟨thread, member, same⟩
    · exact .inr (.inl ⟨thread, member, same⟩)
    · exact .inr (.inr ⟨name, thread, member, same⟩)

namespace Anchored

theorem validTable_ne_zero (anchored : kernel.Anchored) (valid : kernel.ValidTable table) : table ≠ 0 := by
  rcases valid with rfl | ⟨badge, held, type, rfl⟩
  · exact anchored.root
  · obtain ⟨_, _, _, nonzero⟩ := anchored.housed.user held type
    exact nonzero

theorem not_released (anchored : kernel.Anchored) (valid : kernel.ValidTable table) :
    table ∉ kernel.released :=
  fun member => (anchored.released table member (anchored.validTable_ne_zero valid)).1 valid

theorem settled (anchored : kernel.Anchored) (outside : ¬ kernel.Switched) {badge : Badge}
    (held : badge ∈ kernel.occupants) {stage : SpawnStage}
    (standing : kernel.spawning badge.threadId = some stage) : stage.original = none := by
  by_contra switched
  have current := anchored.suspended badge held stage standing switched
  obtain ⟨thread, running, same⟩ := Option.map_eq_some_iff.mp current
  exact outside ⟨thread, stage, running, by rw [same, standing], switched⟩

theorem of_boot (keyboardSocket : σ) {kernelPageTable : Nat} (nonzero : kernelPageTable ≠ 0) :
    (boot keyboardSocket kernelPageTable).Anchored where
  housed := Housed.of_boot keyboardSocket kernelPageTable
  root := nonzero
  apart := by simp [LiveTable, boot, occupants, Socket.threads]
  recorded := by simp [boot, occupants, Socket.threads]
  active := fun _ => .inl rfl
  original := by simp [boot]
  suspended := by simp [boot]
  staged := by simp [StagedTable, boot]
  separate := by simp [StagedTable, boot]
  released := by simp [boot]

/-- A move neither starts nor ends the use of a table by a user thread. -/
theorem liveTable_move (housed : before.Housed) (moved : Move before after) (table : Nat) :
    after.LiveTable table ↔ before.LiveTable table := by
  constructor
  · rintro ⟨badge, held, type, rfl⟩
    obtain ⟨old, member, rfl | ⟨privileged, rfl⟩⟩ := housed.origin moved held
    · exact ⟨badge, member, type, rfl⟩
    · rw [privileged] at type
      cases type
  · rintro ⟨badge, held, type, rfl⟩
    rcases housed.population moved with same | ⟨thread, rest, running, privileged, old, new⟩
    · exact ⟨badge, same ▸ held, type, rfl⟩
    · rw [old, Multiset.mem_cons] at held
      rcases held with rfl | member
      · rw [show thread.badge.threadType = thread.threadType from rfl, privileged] at type
        cases type
      · exact ⟨badge, new ▸ Multiset.mem_cons_of_mem member, type, rfl⟩

theorem of_move (anchored : before.Anchored) (outside : ¬ before.Switched) (moved : Move before after) :
    after.Anchored := by
  have housed := anchored.housed
  have spawning : after.spawning = before.spawning := (congrArg Kernel.spawning moved.fixed :)
  have released : after.released = before.released := (congrArg Kernel.released moved.fixed :)
  have root : after.kernelPageTable = before.kernelPageTable :=
    (congrArg Kernel.kernelPageTable moved.fixed :)
  have live := liveTable_move housed moved
  have valid (table : Nat) : after.ValidTable table ↔ before.ValidTable table := by
    rw [ValidTable, ValidTable, root, live]
  have staged (id table : Nat) : after.StagedTable id table ↔ before.StagedTable id table := by
    rw [StagedTable, StagedTable, spawning]
  have recorded : ∀ badge ∈ after.occupants, badge.pageTablePhys ≠ 0 →
      after.ValidTable badge.pageTablePhys := by
    intro badge held nonzero
    rw [valid]
    obtain ⟨old, member, rfl | ⟨privileged, rfl⟩⟩ := housed.origin moved held
    · exact anchored.recorded badge member nonzero
    · exact anchored.active outside
  -- nobody is held inside the switch, so whoever runs now is outside it
  have settled : ∀ badge ∈ after.occupants, ∀ stage, after.spawning badge.threadId = some stage →
      stage.original = none := by
    intro badge held stage standing
    rw [spawning] at standing
    obtain ⟨old, member, rfl | ⟨privileged, rfl⟩⟩ := housed.origin moved held
    · exact anchored.settled outside member standing
    · exact anchored.settled outside member standing
  refine ⟨housed.of_move moved, root ▸ anchored.root, ?_, recorded, ?_, ?_, ?_, ?_, ?_, ?_⟩
  · rw [live, root]
    exact anchored.apart
  · intro _
    cases moved.switch with
    | stay _ cr3 =>
      rw [cr3, valid]
      exact anchored.active outside
    | idle _ cr3 =>
      rw [cr3, valid]
      exact anchored.active outside
    | pick thread running cr3 =>
      rw [cr3]
      split
      · rename_i nonzero
        exact recorded thread.badge (after.badge_mem_of_running running) nonzero
      · rw [valid]
        exact anchored.active outside
  · intro thread stage running standing table member
    rw [settled thread.badge (after.badge_mem_of_running running) stage standing] at member
    cases member
  · intro badge held stage standing switched
    exact absurd (settled badge held stage standing) switched
  · simpa only [staged, valid] using anchored.staged
  · simpa only [staged] using anchored.separate
  · simpa only [released, staged, valid] using anchored.released

/-- The running thread moves its spawn on: a table it now prepares is one it
prepared before or a fresh one, the table it will restore is valid, and outside
the switch the active table is valid. -/
theorem of_setStage (anchored : before.Anchored) {thread : Thread}
    (running : before.runningThread = some thread) (stage : Option SpawnStage)
    (cr3 counter : Nat) (released : List Nat)
    (housed : ({ before.setStage thread stage with cr3, counter, released } : Kernel σ).Housed)
    (fewer : ∀ table ∈ released, table ∈ before.released)
    (prepared : ∀ here ∈ stage, ∀ table ∈ here.table, table ∉ released ∧ ¬ before.ValidTable table ∧
      ∀ id, before.StagedTable id table → id = thread.threadId)
    (restored : ∀ here ∈ stage, ∀ table ∈ here.original, before.ValidTable table)
    (outside : (∀ here ∈ stage, here.original = none) → before.ValidTable cr3) :
    ({ before.setStage thread stage with cr3, counter, released } : Kernel σ).Anchored := by
  generalize made : ({ before.setStage thread stage with cr3, counter, released } : Kernel σ) = after
    at housed
  have self : after.spawning thread.threadId = stage := by
    rw [← made]
    exact Function.update_self _ _ _
  have others : ∀ id, id ≠ thread.threadId → after.spawning id = before.spawning id := by
    intro id different
    rw [← made]
    exact Function.update_of_ne different _ _
  have same : after.runningThread = before.runningThread := by rw [← made]; rfl
  have population : after.occupants = before.occupants := by rw [← made]; rfl
  have valid (table : Nat) : after.ValidTable table ↔ before.ValidTable table := by
    rw [← made]
    rfl
  have origin : ∀ id table, after.StagedTable id table → before.StagedTable id table ∧
      id ≠ thread.threadId ∨ id = thread.threadId ∧ ∃ here ∈ stage, table ∈ here.table := by
    rintro id table ⟨here, standing, member⟩
    by_cases own : id = thread.threadId
    · subst own
      exact .inr ⟨rfl, here, self ▸ standing, member⟩
    · exact .inl ⟨⟨here, others id own ▸ standing, member⟩, own⟩
  have unmade : after.released = released ∧ after.cr3 = cr3 ∧
      after.kernelPageTable = before.kernelPageTable := by
    rw [← made]
    exact ⟨rfl, rfl, rfl⟩
  obtain ⟨freed, loaded, root⟩ := unmade
  refine ⟨housed, root ▸ anchored.root, ?_, ?_, ?_, ?_, ?_, ?_, ?_, ?_⟩
  · intro live
    exact anchored.apart (by rw [← made] at live; exact live)
  · intro badge held
    rw [valid]
    exact anchored.recorded badge (population ▸ held)
  · intro unswitched
    rw [loaded, valid]
    apply outside
    intro here standing
    by_contra switched
    exact unswitched ⟨thread, here, same.trans running, self.trans standing, switched⟩
  · intro other here ran standing
    rw [same, running] at ran
    cases ran
    simp only [valid]
    exact restored here (self ▸ standing)
  · intro badge held here standing switched
    rw [same]
    by_cases own : badge.threadId = thread.threadId
    · rw [running, Option.map_some, own]
    · exact anchored.suspended badge (population ▸ held) here (others _ own ▸ standing) switched
  · intro id table staged
    rw [valid]
    rcases origin id table staged with ⟨old, _⟩ | ⟨_, here, standing, member⟩
    · exact anchored.staged id table old
    · exact (prepared here standing table member).2.1
  · intro id other table first second
    rcases origin id table first with ⟨old, own⟩ | ⟨rfl, here, standing, member⟩
    · rcases origin other table second with ⟨also, _⟩ | ⟨rfl, here, standing, member⟩
      · exact anchored.separate id other table old also
      · exact absurd ((prepared here standing table member).2.2 id old) own
    · rcases origin other table second with ⟨also, own⟩ | ⟨rfl, _⟩
      · exact absurd ((prepared here standing table member).2.2 other also) own
      · rfl
  · intro table member nonzero
    rw [freed] at member
    have old := anchored.released table (fewer table member) nonzero
    rw [valid]
    refine ⟨old.1, ?_⟩
    intro id staged
    rcases origin id table staged with ⟨before_staged, _⟩ | ⟨_, here, standing, inside⟩
    · exact old.2 id before_staged
    · exact (prepared here standing table inside).1 member

theorem prepared_again (anchored : kernel.Anchored) {id : Nat} {stage : SpawnStage}
    (standing : kernel.spawning id = some stage) :
    ∀ table ∈ stage.table, table ∉ kernel.released ∧ ¬ kernel.ValidTable table ∧
      ∀ other, kernel.StagedTable other table → other = id := by
  intro table member
  have staged : kernel.StagedTable id table := ⟨stage, standing, member⟩
  refine ⟨?_, anchored.staged id table staged, ?_⟩
  · intro freed
    have nonzero := anchored.housed.nonzero id stage standing table member
    exact (anchored.released table freed nonzero).2 id staged
  · intro other again
    exact anchored.separate other id table again staged

theorem of_stage (anchored : before.Anchored) (allowed : before.Admissible action)
    (nonzero : action.NonzeroTable) (spawn : Stage before action after) : after.Anchored := by
  have housed := anchored.housed.of_stage nonzero spawn
  cases spawn with
  | stutter => exact anchored
  | create thread table running typed free =>
    have fresh : before.FreshTable table := allowed
    have outside := before.not_switched running (by simp [free])
    refine anchored.of_setStage running _ before.cr3 before.counter _ housed ?_ ?_ ?_ ?_
    · intro freed member
      exact (List.mem_filter.mp member).1
    · rintro here ⟨⟩ _ ⟨⟩
      exact ⟨by simp, fresh.invalid, fun id staged => absurd staged (fresh.unstaged id)⟩
    · rintro here ⟨⟩ _ ⟨⟩
    · intro _
      exact anchored.active outside
  | failHeap thread table running created =>
    have outside := before.not_switched running (by simp [created, SpawnStage.original])
    exact anchored.of_setStage running none before.cr3 before.counter before.released housed
      (fun _ member => member) (by simp) (by simp) (fun _ => anchored.active outside)
  | enter thread table running created =>
    have outside := before.not_switched running (by simp [created, SpawnStage.original])
    refine anchored.of_setStage running _ table before.counter before.released housed
      (fun _ member => member) ?_ ?_ ?_
    · rintro here ⟨⟩
      exact (anchored.prepared_again created :)
    · rintro here ⟨⟩ _ ⟨⟩
      exact anchored.active outside
    · intro settled
      cases settled _ rfl
  | load thread table original running inside =>
    have unchanged : Function.update before.spawning thread.threadId (some (.inside table original)) =
        before.spawning := by
      rw [← inside, Function.update_eq_self]
    have moved := anchored.of_setStage running (some (.inside table original)) table
      before.counter before.released
      (by simpa only [setStage, unchanged] using housed) (fun _ member => member) ?_ ?_ ?_
    · simpa only [setStage, unchanged] using moved
    · rintro here ⟨⟩
      exact anchored.prepared_again inside
    · rintro here ⟨⟩
      exact anchored.original thread _ running inside
    · intro settled
      cases settled _ rfl
  | failClosure thread table original draws running inside =>
    refine anchored.of_setStage running _ before.cr3 _ before.released housed
      (fun _ member => member) ?_ ?_ ?_
    · rintro here ⟨⟩ _ ⟨⟩
    · rintro here ⟨⟩ _ ⟨⟩
      exact anchored.original thread _ running inside original rfl
    · intro settled
      cases settled _ rfl
  | leave thread original running leaving =>
    refine anchored.of_setStage running none original before.counter before.released housed
      (fun _ member => member) (by simp) (by simp) ?_
    intro _
    exact anchored.original thread _ running leaving original rfl

theorem of_sibling (anchored : before.Anchored) {badge : Badge} (housed : after.Housed)
    (population : after.occupants = badge ::ₘ before.occupants)
    (unborn : before.spawning badge.threadId = none)
    (known : badge.pageTablePhys ≠ 0 → before.ValidTable badge.pageTablePhys)
    (live : badge.threadType = .user → before.LiveTable badge.pageTablePhys)
    (root : after.kernelPageTable = before.kernelPageTable) (spawning : after.spawning = before.spawning)
    (released : after.released = before.released)
    (running : after.runningThread = before.runningThread) (cr3 : after.cr3 = before.cr3) :
    after.Anchored := by
  have lives (table : Nat) : after.LiveTable table ↔ before.LiveTable table := by
    simp only [LiveTable, population, Multiset.mem_cons]
    constructor
    · rintro ⟨other, rfl | held, type, rfl⟩
      · exact live type
      · exact ⟨other, held, type, rfl⟩
    · rintro ⟨other, held, type, rfl⟩
      exact ⟨other, .inr held, type, rfl⟩
  have valid (table : Nat) : after.ValidTable table ↔ before.ValidTable table := by
    rw [ValidTable, ValidTable, root, lives]
  have staged (id table : Nat) : after.StagedTable id table ↔ before.StagedTable id table := by
    rw [StagedTable, StagedTable, spawning]
  refine ⟨housed, root ▸ anchored.root, ?_, ?_, ?_, ?_, ?_, ?_, ?_, ?_⟩
  · rw [lives, root]
    exact anchored.apart
  · intro other held
    rw [valid]
    rw [population, Multiset.mem_cons] at held
    rcases held with rfl | old
    · exact known
    · exact anchored.recorded other old
  · simpa only [Switched, running, spawning, cr3, valid] using anchored.active
  · simpa only [running, spawning, valid] using anchored.original
  · intro other held stage standing
    rw [spawning] at standing
    rw [running]
    rw [population, Multiset.mem_cons] at held
    rcases held with rfl | old
    · rw [unborn] at standing
      cases standing
    · exact anchored.suspended other old stage standing
  · simpa only [staged, valid] using anchored.staged
  · simpa only [staged] using anchored.separate
  · simpa only [released, staged, valid] using anchored.released

/-- The thread `initialise_thread` makes brings the table its parent prepared,
which the parent no longer stages. -/
theorem of_load (anchored : before.Anchored) {badge : Badge} {parent : Thread} {original : Nat}
    (housed : after.Housed) (population : after.occupants = badge ::ₘ before.occupants)
    (type : badge.threadType = .user) (unborn : before.spawning badge.threadId = none)
    (current : before.runningThread = some parent)
    (inside : before.spawning parent.threadId = some (.inside badge.pageTablePhys original))
    (spawning : after.spawning =
      Function.update before.spawning parent.threadId (some (.leaving original)))
    (root : after.kernelPageTable = before.kernelPageTable) (released : after.released = before.released)
    (running : after.runningThread = before.runningThread) : after.Anchored := by
  have held := before.badge_mem_of_running current
  have prepared := anchored.prepared_again inside badge.pageTablePhys rfl
  have lives (table : Nat) :
      after.LiveTable table ↔ before.LiveTable table ∨ table = badge.pageTablePhys := by
    simp only [LiveTable, population, Multiset.mem_cons]
    constructor
    · rintro ⟨other, rfl | old, typed, rfl⟩
      · exact .inr rfl
      · exact .inl ⟨other, old, typed, rfl⟩
    · rintro (⟨other, old, typed, rfl⟩ | rfl)
      · exact ⟨other, .inr old, typed, rfl⟩
      · exact ⟨badge, .inl rfl, type, rfl⟩
  have valid (table : Nat) :
      after.ValidTable table ↔ before.ValidTable table ∨ table = badge.pageTablePhys := by
    rw [ValidTable, ValidTable, root, lives, or_assoc]
  have own : after.spawning parent.threadId = some (.leaving original) := by
    rw [spawning, Function.update_self]
  have others (id : Nat) (different : id ≠ parent.threadId) : after.spawning id = before.spawning id := by
    rw [spawning, Function.update_of_ne different]
  have staged : ∀ id table, after.StagedTable id table →
      before.StagedTable id table ∧ id ≠ parent.threadId := by
    rintro id table ⟨stage, standing, member⟩
    by_cases same : id = parent.threadId
    · rw [same, own] at standing
      cases standing
      cases member
    · exact ⟨⟨stage, others id same ▸ standing, member⟩, same⟩
  refine ⟨housed, root ▸ anchored.root, ?_, ?_, ?_, ?_, ?_, ?_, ?_, ?_⟩
  · rw [lives, root]
    rintro (live | same)
    · exact anchored.apart live
    · exact prepared.2.1 (.inl same.symm)
  · intro other member nonzero
    rw [valid]
    rw [population, Multiset.mem_cons] at member
    rcases member with rfl | old
    · exact .inr rfl
    · exact .inl (anchored.recorded other old nonzero)
  · intro unswitched
    exact absurd ⟨parent, _, running.trans current, own, by simp [SpawnStage.original]⟩ unswitched
  · intro thread stage ran standing table member
    rw [running, current] at ran
    cases ran
    rw [own] at standing
    cases standing
    cases member
    exact (valid original).mpr (.inl (anchored.original parent _ current inside original rfl))
  · intro other member stage standing switched
    rw [running]
    by_cases same : other.threadId = parent.threadId
    · rw [current, Option.map_some, same]
    · rw [others _ same] at standing
      rw [population, Multiset.mem_cons] at member
      rcases member with rfl | old
      · rw [unborn] at standing
        cases standing
      · exact anchored.suspended other old stage standing switched
  · intro id table made
    obtain ⟨old, different⟩ := staged id table made
    rw [valid]
    rintro (live | rfl)
    · exact anchored.staged id table old live
    · exact different (prepared.2.2 id old)
  · intro id other table first second
    exact anchored.separate id other table (staged id table first).1 (staged other table second).1
  · intro table member nonzero
    rw [released] at member
    obtain ⟨invalid, unstaged⟩ := anchored.released table member nonzero
    constructor
    · rw [valid]
      rintro (live | rfl)
      · exact invalid live
      · exact prepared.1 member
    · intro id made
      exact unstaged id (staged id table made).1

theorem of_birth (anchored : before.Anchored) {badge : Badge} {added : List (Process σ)}
    {stages : Nat → Option SpawnStage} {counter : Nat} (lineage : Lineage before badge added stages)
    (housed : after.Housed) (fresh : before.counter < badge.threadId)
    (population : after.occupants = badge ::ₘ before.occupants)
    (fixed : after.fixed = { before.fixed with
      counter := counter, processes := before.processes ++ added
      created := before.created ++ [badge.threadId], spawning := stages })
    (running : after.runningThread = before.runningThread) (cr3 : after.cr3 = before.cr3) :
    after.Anchored := by
  have root : after.kernelPageTable = before.kernelPageTable := (congrArg Kernel.kernelPageTable fixed :)
  have released : after.released = before.released := (congrArg Kernel.released fixed :)
  have spawning : after.spawning = stages := (congrArg Kernel.spawning fixed :)
  have unborn := anchored.housed.unborn badge.threadId fresh
  cases lineage with
  | kernel uid sockets =>
    refine anchored.of_sibling housed population unborn ?_ ?_ root spawning released running cr3
    · intro nonzero
      exact absurd rfl nonzero
    · rintro ⟨⟩
  | fork uid current ran =>
    have held := before.badge_mem_of_running ran
    refine anchored.of_sibling housed population unborn ?_ ?_ root spawning released running cr3
    · exact anchored.recorded current.badge held
    · intro type
      exact ⟨current.badge, held, type, rfl⟩
  | user uid sockets parent table original ran inside =>
    exact anchored.of_load housed population rfl unborn ran inside spawning root released running

/-- The running thread leaves, and the tables in `freed` are released with it. -/
theorem of_exit (anchored : before.Anchored) (outside : ¬ before.Switched) {thread : Thread}
    (population : before.occupants = thread.badge ::ₘ (before.retire thread).occupants)
    (cr3 : Nat) (freed : List Nat)
    (housed : ({ before.retire thread with
      cr3 := cr3, released := before.released ++ freed } : Kernel σ).Housed)
    (live : ∀ table, (before.retire thread).LiveTable table ↔ before.LiveTable table ∧ table ∉ freed)
    (others : ∀ badge ∈ (before.retire thread).occupants, badge.pageTablePhys ≠ 0 →
      badge.pageTablePhys ∉ freed)
    (root : before.kernelPageTable ∉ freed)
    (ended : ∀ table ∈ freed, table ≠ 0 → before.LiveTable table)
    (active : cr3 = before.kernelPageTable ∨ cr3 = before.cr3 ∧ before.cr3 ∉ freed) :
    ({ before.retire thread with
      cr3 := cr3, released := before.released ++ freed } : Kernel σ).Anchored := by
  have earlier {badge : Badge} (held : badge ∈ (before.retire thread).occupants) :
      badge ∈ before.occupants := population ▸ Multiset.mem_cons_of_mem held
  have valid (table : Nat) : (before.retire thread).ValidTable table ↔
      before.ValidTable table ∧ table ∉ freed := by
    simp only [ValidTable, live, or_and_right]
    refine or_congr_left ⟨?_, And.left⟩
    rintro rfl
    exact ⟨rfl, root⟩
  have settled {badge : Badge} (held : badge ∈ (before.retire thread).occupants) {stage : SpawnStage}
      (standing : before.spawning badge.threadId = some stage) : stage.original = none :=
    anchored.settled outside (earlier held) standing
  refine ⟨housed, anchored.root, ?_, ?_, ?_, ?_, ?_, ?_, anchored.separate, ?_⟩
  · intro used
    exact anchored.apart ((live _).mp used).1
  · intro badge held nonzero
    exact (valid _).mpr ⟨anchored.recorded badge (earlier held) nonzero, others badge held nonzero⟩
  · intro _
    refine (valid cr3).mpr ?_
    rcases active with rfl | ⟨rfl, kept⟩
    · exact ⟨.inl rfl, root⟩
    · exact ⟨anchored.active outside, kept⟩
  · intro other stage ran
    cases ran
  · intro badge held stage standing switched
    exact absurd (settled held standing) switched
  · intro id table staged used
    exact anchored.staged id table staged ((valid table).mp used).1
  · intro table member nonzero
    rcases List.mem_append.mp member with old | new
    · obtain ⟨invalid, unstaged⟩ := anchored.released table old nonzero
      exact ⟨fun used => invalid ((valid table).mp used).1, unstaged⟩
    · refine ⟨fun used => ((valid table).mp used).2 new, ?_⟩
      intro id staged
      exact anchored.staged id table staged (.inr (ended table new nonzero))

theorem sibling_table (housed : kernel.Housed) {badge other : Badge} (held : badge ∈ kernel.occupants)
    (second : other ∈ kernel.occupants) (process : other.process = badge.process)
    (type : badge.threadType = .user) :
    other.threadType = .user ∧ other.pageTablePhys = badge.pageTablePhys := by
  obtain ⟨mine, found, table, nonzero⟩ := housed.user held type
  obtain ⟨theirs, also, belongs⟩ := housed.process other second
  rw [process, found] at also
  cases also
  cases typed : other.threadType with
  | user => exact ⟨rfl, ((Badge.belongsTo_user typed).mp belongs).1.trans table.symm⟩
  | kernel =>
    rw [Badge.belongsTo_kernel typed] at belongs
    exact absurd (table.trans belongs) nonzero

/-- The process stays with its other threads: no table is freed. -/
theorem of_exit_shared (anchored : before.Anchored) (outside : ¬ before.Switched) {thread : Thread}
    (running : before.runningThread = some thread)
    (population : before.occupants = thread.badge ::ₘ (before.retire thread).occupants)
    (shared : (before.retire thread).HasThread thread.process) : (before.retire thread).Anchored := by
  have housed := anchored.housed
  have exited := anchored.of_exit outside population before.cr3 []
    (housed.of_retire running population _ _) ?_ (by simp) (by simp) (by simp) (.inr ⟨rfl, by simp⟩)
  · rw [List.append_nil] at exited
    exact exited
  · intro table
    simp only [List.not_mem_nil, not_false_eq_true, and_true]
    constructor
    · rintro ⟨badge, held, type, rfl⟩
      exact ⟨badge, population ▸ Multiset.mem_cons_of_mem held, type, rfl⟩
    · rintro ⟨badge, held, type, rfl⟩
      rw [population, Multiset.mem_cons] at held
      rcases held with rfl | member
      · obtain ⟨other, rest, process⟩ := hasThread_iff _ |>.mp shared
        have earlier : other ∈ before.occupants := population ▸ Multiset.mem_cons_of_mem rest
        obtain ⟨typed, table⟩ := sibling_table housed (before.badge_mem_of_running running) earlier
          process type
        exact ⟨other, rest, typed, table⟩
      · exact ⟨badge, member, type, rfl⟩

theorem of_exit_last (anchored : before.Anchored) (outside : ¬ before.Switched) {thread : Thread}
    (running : before.runningThread = some thread)
    (population : before.occupants = thread.badge ::ₘ (before.retire thread).occupants)
    {process : Process σ} (found : before.processes[thread.process]? = some process)
    (alone : thread.threadType = .user → ∀ other ∈ (before.retire thread).occupants,
      other.pageTablePhys ≠ thread.pageTablePhys) :
    ((before.retire thread).dropProcess process).Anchored := by
  have housed := anchored.housed
  have held := before.badge_mem_of_running running
  have earlier {badge : Badge} (member : badge ∈ (before.retire thread).occupants) :
      badge ∈ before.occupants := population ▸ Multiset.mem_cons_of_mem member
  obtain ⟨own, mine, belongs⟩ := housed.process thread.badge held
  obtain rfl : process = own := Option.some.inj (found.symm.trans mine)
  -- a kernel thread's process has no table, a user thread's has the thread's own
  have table : thread.threadType = .kernel ∧ process.pageTablePhysaddr = 0 ∨
      thread.threadType = .user ∧ thread.pageTablePhys = process.pageTablePhysaddr := by
    cases type : thread.threadType with
    | kernel => exact .inl ⟨rfl, (Badge.belongsTo_kernel type).mp belongs⟩
    | user => exact .inr ⟨rfl, ((Badge.belongsTo_user type).mp belongs).1⟩
  have others : ∀ badge ∈ (before.retire thread).occupants, badge.pageTablePhys ≠ 0 →
      badge.pageTablePhys ≠ process.pageTablePhysaddr := by
    intro badge member nonzero
    rcases table with ⟨_, empty⟩ | ⟨type, same⟩
    · rwa [empty]
    · rw [← same]
      exact alone type badge member
  refine anchored.of_exit outside population _ [process.pageTablePhysaddr]
    (housed.of_retire running population _ _) ?_ ?_ ?_ ?_ ?_
  all_goals simp only [List.mem_singleton]
  · intro freed
    constructor
    · rintro ⟨badge, member, type, rfl⟩
      obtain ⟨_, _, _, nonzero⟩ := housed.user (earlier member) type
      exact ⟨⟨badge, earlier member, type, rfl⟩, others badge member nonzero⟩
    · rintro ⟨⟨badge, member, type, rfl⟩, different⟩
      rw [population, Multiset.mem_cons] at member
      rcases member with rfl | rest
      · rcases table with ⟨privileged, _⟩ | ⟨_, same⟩
        · rw [show thread.badge.threadType = thread.threadType from rfl, privileged] at type
          cases type
        · exact absurd same different
      · exact ⟨badge, rest, type, rfl⟩
  · exact others
  · rintro root
    rcases table with ⟨_, empty⟩ | ⟨type, same⟩
    · exact anchored.root (root.trans empty)
    · exact anchored.apart ⟨thread.badge, held, type, same.trans root.symm⟩
  · rintro freed rfl nonzero
    rcases table with ⟨_, empty⟩ | ⟨type, same⟩
    · exact absurd empty nonzero
    · exact ⟨thread.badge, held, type, same⟩
  · by_cases same : process.pageTablePhysaddr = before.cr3
    · exact .inl (if_pos same)
    · exact .inr ⟨if_neg same, fun equal => same equal.symm⟩

theorem of_outcome (anchored : before.Anchored) (allowed : before.Admissible action)
    (careful : before.Careful action) (outcome : Outcome before action after) : after.Anchored := by
  have nonzero : action.NonzeroTable := by
    cases action with
    | createKernelOnlyPagetable table => exact FreshTable.nonzero allowed
    | _ => trivial
  have housed := anchored.housed.of_outcome nonzero outcome
  cases outcome with
  | move schedules moved => exact anchored.of_move (not_switched_of_schedules allowed careful schedules) moved
  | draw =>
    exact ⟨housed, anchored.root, anchored.apart, anchored.recorded, anchored.active,
      anchored.original, anchored.suspended, anchored.staged, anchored.separate, anchored.released⟩
  | birth badge added stages counter lineage fresh drawn population fixed running cr3 =>
    exact anchored.of_birth lineage housed fresh population fixed running cr3
  | stage spawn => exact anchored.of_stage allowed nonzero spawn
  | @death context syscallId arg1 arg2 arg3 memory thread exit running population =>
    have outside := not_switched_of_schedules allowed careful trivial
    unfold dropThread
    split
    · rename_i shared
      exact anchored.of_exit_shared outside running population shared
    · rename_i last
      obtain ⟨process, found, _⟩ :=
        anchored.housed.process thread.badge (before.badge_mem_of_running running)
      have listed : (before.retire thread).processes[thread.process]? = some process := found
      rw [listed]
      have single : ∀ other ∈ (before.retire thread).occupants, other.process ≠ thread.process :=
        fun other member same => last ((hasThread_iff _).mpr ⟨other, member, same⟩)
      refine anchored.of_exit_last outside running population found ?_
      intro type other member
      refine careful exit thread running type ?_ other ?_ ?_
      · intro sibling held same
        rw [population, Multiset.mem_cons] at held
        rcases held with equal | rest
        · exact equal
        · exact absurd same (single sibling rest)
      · exact population ▸ Multiset.mem_cons_of_mem member
      · rintro rfl
        exact single _ member rfl

/-- An interrupt or system call leaves the kernel outside
`switch_pagetable_and_execute` again. -/
theorem not_switched_of_outcome (anchored : before.Anchored) (outside : ¬ before.Switched)
    (schedules : action.Schedules) (outcome : Outcome before action after) : ¬ after.Switched := by
  cases outcome with
  | move _ moved =>
    have spawning : after.spawning = before.spawning := (congrArg Kernel.spawning moved.fixed :)
    rintro ⟨thread, stage, running, standing, switched⟩
    rw [spawning] at standing
    obtain ⟨old, member, same | ⟨_, same⟩⟩ :=
      anchored.housed.origin moved (after.badge_mem_of_running running)
    all_goals
      have id : thread.threadId = old.threadId := congrArg Badge.threadId same
      exact switched (anchored.settled outside member (id ▸ standing))
  | draw => exact outside
  | birth badge added stages counter lineage fresh drawn population fixed running cr3 =>
    have spawning : after.spawning = stages := (congrArg Kernel.spawning fixed :)
    cases lineage with
    | kernel | fork => rwa [Switched, running, spawning]
    | user uid sockets parent table original ran inside =>
      exact absurd ⟨parent, _, ran, inside, by simp [SpawnStage.original]⟩ outside
  | death thread exit running population =>
    have idle : ((before.retire thread).dropThread thread).runningThread = none := by
      unfold dropThread
      split
      · rfl
      · split <;> rfl
    rintro ⟨other, stage, ran, _⟩
    rw [idle] at ran
    cases ran
  | stage spawn =>
    cases spawn with
    | stutter => exact outside
    | _ => cases schedules

end Anchored

section Runs

variable [DecidableEq σ]

/-- A step whose surroundings behave and that meets the condition. -/
def CarefulStep (before : Kernel σ) (action : Action σ) (after : Kernel σ) : Prop :=
  (before.Admissible action ∧ before.Careful action) ∧ Step before action after

theorem anchored_of_run {keyboardSocket : σ} {kernelPageTable : Nat} (nonzero : kernelPageTable ≠ 0)
    {actions : List (Action σ)}
    (run : Run CarefulStep (boot keyboardSocket kernelPageTable) actions kernel) : kernel.Anchored := by
  refine run.invariant (Anchored.of_boot keyboardSocket nonzero) ?_
  rintro before action after anchored ⟨⟨allowed, careful⟩, rfl⟩
  exact anchored.of_outcome allowed careful (perform_outcome anchored.housed.conserved action)

/-- In a careful run, whenever an interrupt or a system call leaves a thread
running, the active page table is the kernel's or that of a process with a live
thread, and not a released one. -/
theorem no_dangling_address_space (keyboardSocket : σ) {kernelPageTable : Nat}
    (nonzero : kernelPageTable ≠ 0) {actions : List (Action σ)} {action : Action σ} {kernel : Kernel σ}
    (run : Run CarefulStep (boot keyboardSocket kernelPageTable) (actions ++ [action]) kernel)
    (schedules : action.Schedules) :
    (kernel.cr3 = kernel.kernelPageTable ∨ ∃ badge ∈ kernel.occupants, ∃ process,
      kernel.processes[badge.process]? = some process ∧ process.pageTablePhysaddr = kernel.cr3) ∧
    kernel.cr3 ∉ kernel.released := by
  have anchored := anchored_of_run nonzero run
  obtain ⟨before, earlier, ⟨allowed, careful⟩, rfl⟩ := run.last
  have started := anchored_of_run nonzero earlier
  have outside := started.not_switched_of_outcome (not_switched_of_schedules allowed careful schedules)
    schedules (perform_outcome started.housed.conserved action)
  have valid := anchored.active outside
  refine ⟨?_, anchored.not_released valid⟩
  rcases valid with root | ⟨badge, held, type, table⟩
  · exact .inl root
  · obtain ⟨process, found, same, _⟩ := anchored.housed.user held type
    exact .inr ⟨badge, held, process, found, same.symm.trans table⟩

end Runs

section Examples

/-- A boot of two kernel threads, the second started before the user program is
loaded, up to the user thread's first turn. -/
private def launch : List (Action Unit) :=
  [.spawnKernelThread 0x1000 [] 0x10000 {}, .timer ⟨0, {}⟩,
    .spawnKernelThread 0x2000 [] 0x20000 {}, .createKernelOnlyPagetable 5, .enterUserPagetable,
    .initialiseThread 0x5000000 [] 0x30000000000 0x30000 {}, .leaveUserPagetable]

/-- The listener's first turn follows the user thread's, whose table stays
active; preemption records it, the user thread exits, and the listener resumes. -/
private def resume : List (Action Unit) :=
  [.timer ⟨0xf000, {}⟩, .timer ⟨0x2f000, {}⟩, .timer ⟨0x1f000, {}⟩, .timer ⟨0xf000, {}⟩,
    .syscall ⟨0x2f000, {}⟩ 1 0 0 0 ⟨none⟩, .timer ⟨0, {}⟩]

private theorem launch_fresh :
    ((launch.take 3).foldl perform (boot () 1)).FreshTable 5 where
  nonzero := by decide
  invalid := by
    rintro (root | ⟨badge, held, type, _⟩)
    · cases root
    · have kernels : ∀ badge ∈ ((launch.take 3).foldl perform (boot () 1)).occupants,
          badge.threadType = .kernel := by decide
      rw [kernels badge held] at type
      cases type
  unstaged := by
    rintro id ⟨stage, standing, _⟩
    cases standing

private theorem launch_careful :
    Guarded (fun kernel action => kernel.Admissible action ∧ kernel.Careful action) perform
      (boot () 1) (launch ++ [.timer ⟨0xf000, {}⟩]) := by
  refine ⟨⟨trivial, trivial⟩, ⟨trivial, ?_⟩, ⟨trivial, trivial⟩, ⟨launch_fresh, trivial⟩,
    ⟨trivial, trivial⟩, ⟨trivial, trivial⟩, ⟨trivial, trivial⟩, ⟨trivial, ?_⟩, trivial⟩
  · rintro ⟨thread, stage, ⟨⟩, _⟩
  · rintro ⟨thread, stage, ⟨⟩, ⟨⟩, _⟩

private theorem resume_admissible : Guarded Admissible perform (boot () 1) (launch ++ resume) := by
  refine ⟨trivial, trivial, trivial, launch_fresh, trivial, trivial, trivial, trivial, trivial,
    trivial, trivial, ?_, trivial, trivial⟩
  rintro thread ⟨⟩
  rfl

/-- The user thread's first turn: its own table is active. -/
theorem no_dangling_address_space_launch :
    ((launch ++ [Action.timer ⟨0xf000, {}⟩]).foldl perform (boot () 1)).cr3 = 5 ∧
    5 ∉ ((launch ++ [Action.timer ⟨0xf000, {}⟩]).foldl perform (boot () 1)).released := by
  have active : ((launch ++ [Action.timer ⟨0xf000, {}⟩]).foldl perform (boot () 1)).cr3 = 5 := by
    decide
  have sound := no_dangling_address_space () (by decide) (Run.of_guarded launch_careful) trivial
  rw [active] at sound
  exact ⟨active, sound.2⟩

private def orphan : Kernel Unit := (launch ++ resume).foldl perform (boot () 1)

/-- The last timer interrupt resumes the listener under the exited process's
page table, which has been released. -/
theorem listener_resumes_under_released_table :
    ∃ (kernel : Kernel Unit) (thread : Thread) (actions : List (Action Unit)) (context : Context),
      Run (fun before action after => before.Admissible action ∧ Step before action after)
        (boot () 1) (actions ++ [.timer context]) kernel ∧
      kernel.runningThread = some thread ∧ kernel.cr3 ≠ kernel.kernelPageTable ∧
      (¬ ∃ badge ∈ kernel.occupants, ∃ process,
        kernel.processes[badge.process]? = some process ∧ process.pageTablePhysaddr = kernel.cr3) ∧
      kernel.cr3 ∈ kernel.released := by
  have orphaned : ∀ badge ∈ orphan.occupants,
      orphan.processes[badge.process]?.map Process.pageTablePhysaddr ≠ some orphan.cr3 := by
    decide
  refine ⟨orphan, _, launch ++ resume.dropLast, ⟨0, {}⟩, Run.of_guarded resume_admissible, rfl,
    by decide, ?_, by decide⟩
  rintro ⟨badge, held, process, found, same⟩
  refine orphaned badge held ?_
  rw [found, Option.map_some, same]

end Examples

end Kernel
end Zephyr
