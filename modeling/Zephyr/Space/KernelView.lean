import Zephyr.Mem.Mappings
import Zephyr.Space.Launch

/-! The kernel in every address space: what the kernel's tables map at boot, the tables of
every process map to the same frames, over whole careful runs. -/

namespace Zephyr

open Radix PageTableFlags Transition MemoryInfo

variable {σ : Type} [DecidableEq σ] [Fintype σ]

namespace MemoryInfo

section Loading

variable {foreign : Nat → Prop} {root : Nat} {slots : List Nat} {before after info : MemoryInfo}

theorem UserTree.loadSegment_keeps {mapper : Mapper} {segment : Segment}
    (tree : UserTree foreign root slots [] before) (ends : segment.Ends)
    (returned : before.loadSegment mapper root segment = .ok (.ok (), after)) : Keeps root before after := by
  cases loadSegment_turn ends returned with
  | idle => exact Keeps.of_agree fun _ _ => rfl
  | stored inside listed allocated fits copied =>
    obtain ⟨entered, all⟩ := (tree.allocateEach (inUserSpace_pagesOf inside listed) allocated).2 rfl
    have mapped := allocateEach_keeps tree.owns.sound allocated
    obtain ⟨_, _, tables⟩ := entered.storeData (by unfold Segment.Ends at ends; omega)
      (pageAt_pagesOf inside listed fits all.entered) copied
    exact Carries.trans mapped (Keeps.of_agree tables)

theorem allocateUserHeap_keeps {mapper : Mapper} (sound : before.Sound root)
    (returned : before.allocateUserHeap mapper root = .ok (.ok (), after)) : Keeps root before after := by
  have first : userHeapStart / 4096 * 4096 ∈ (List.range 1024).map fun page => ((0x28000600 + page) * 4096 : Nat) :=
    List.mem_map.mpr ⟨0, List.mem_range.mpr (by decide), rfl⟩
  exact createUserOndemandPages_keeps sound pagesOf_heap first returned

end Loading

/-- A serviced fault leaves tables alone that have no entry of an on-demand page. -/
theorem pageFaultHandler_aside {active table : Nat} {addr : VirtAddr} {errorCode : PageFaultErrorCode}
    {outcome : FaultOutcome} {before after : MemoryInfo}
    (returned : before.pageFaultHandler active addr errorCode = .ok (outcome, after))
    (unmarked : ∀ index, (before.memory table index).flags ≠ present ||| userAccessible) :
    after.memory table = before.memory table := by
  unfold pageFaultHandler at returned
  split at returned
  · split at returned
    · cases returned
    · rename_i allocated
      cases returned
      rcases allocateMissingOndemandFrame_cases allocated with rfl | ⟨other, frame, frameAllocator, _, marked, rfl⟩
      · rfl
      · refine write_table _ _ _ ?_
        rintro rfl
        exact unmarked _ marked
  · cases returned
    rfl

/-- What the kernel's tables mapped at boot is in the tree at `root`. -/
abbrev KernelView (boot : MemoryInfo) (memory : Memory Nat 512 PageTableEntry) (root : Nat) : Prop :=
  Carries boot.memory boot.kernelPageTables memory root

end MemoryInfo

/-- The table of every user thread and of every spawn in progress has the kernel in it. -/
structure Kernel.Viewed (boot : MemoryInfo) (memory : Memory Nat 512 PageTableEntry) (kernel : Kernel σ) : Prop where
  threads : kernel.Every fun thread => thread.threadType = .user → KernelView boot memory thread.pageTablePhys
  spawns : ∀ id stage, kernel.spawning id = some stage → ∀ table ∈ stage.table, KernelView boot memory table

namespace Tenancy

variable {boot : MemoryInfo} {trees : Owner → Option Tree} {system : System σ} {after : MemoryInfo}
variable {owner other : Owner} {tree : Tree} {thread : Thread}

omit [DecidableEq σ] [Fintype σ] in
/-- What an operation for one owner leaves of the tree of another. -/
theorem other_keeps (found : trees other = some tree) (differs : other ≠ owner)
    (spares : Spares (Others boot.Taken trees owner system.info.memory) system.info after) :
    Keeps tree.root system.info after :=
  .of_agree fun table listed => spares.memory table (.inr ⟨other, tree, differs, found, .inl listed⟩)

theorem viewed_perform {memory : Memory Nat 512 PageTableEntry} (tenancy : Tenancy boot trees system)
    (threads : system.kernel.Every fun thread => thread.threadType = .user → KernelView boot memory thread.pageTablePhys)
    (action : Action σ)
    (born : ∀ thread, Kernel.Newborn system.kernel action thread → thread.threadType = .user →
      KernelView boot memory thread.pageTablePhys)
    (spawns : ∀ id stage, (system.kernel.perform action).spawning id = some stage → ∀ table ∈ stage.table,
      KernelView boot memory table) : (system.kernel.perform action).Viewed boot memory := by
  refine ⟨threads.perform ⟨fun _ known => known, ?_⟩ action (fun current _ running _ => threads.running current running)
    (fun context _ thread stamped => ?_) born, spawns⟩
  · rintro thread ⟨⟩ known
    all_goals exact known
  · obtain ⟨current, running, rfl⟩ := Option.map_eq_some_iff.mp stamped
    intro user
    have view := threads.running current running user
    rwa [← tenancy.housed.active current running user] at view

omit [DecidableEq σ] in
theorem threads_spawn {id : Nat} (tenancy : Tenancy boot trees system)
    (viewed : system.kernel.Viewed boot system.info.memory)
    (spares : Spares (Others boot.Taken trees (.spawner id) system.info.memory) system.info after) :
    system.kernel.Every fun thread => thread.threadType = .user → KernelView boot after.memory thread.pageTablePhys := by
  refine viewed.threads.imp fun thread held view user => ?_
  obtain ⟨tree, _, found, root, _⟩ := Kernel.every_iff.mp tenancy.tenants thread held user
  rw [← root] at view ⊢
  exact Carries.trans (view user) (other_keeps found (by simp) spares)

theorem viewed_spawn (tenancy : Tenancy boot trees system) (viewed : system.kernel.Viewed boot system.info.memory)
    (action : Action σ) (id : Nat) (stage : Option SpawnStage)
    (spares : Spares (Others boot.Taken trees (.spawner id) system.info.memory) system.info after)
    (born : ∀ thread, Kernel.Newborn system.kernel action thread → thread.threadType = .user →
      KernelView boot after.memory thread.pageTablePhys)
    (kept : ∀ table, stage.bind SpawnStage.table = some table → KernelView boot after.memory table)
    (stages : (system.kernel.perform action).spawning = Function.update system.kernel.spawning id stage) :
    (system.kernel.perform action).Viewed boot after.memory := by
  refine tenancy.viewed_perform (tenancy.threads_spawn viewed spares) action born fun other here standing table listed => ?_
  rw [stages] at standing
  by_cases same : other = id
  · rw [same, Function.update_self] at standing
    exact kept table (by rw [standing, Option.bind_some, Option.mem_def.mp listed])
  · rw [Function.update_of_ne same] at standing
    have found := tenancy.spawning other here standing table listed
    exact Carries.trans (viewed.spawns other here standing table listed)
      (other_keeps found (fun equal => same (Owner.spawner.inj equal)) spares)

theorem viewed_call (tenancy : Tenancy boot trees system) (viewed : system.kernel.Viewed boot system.info.memory)
    (action : Action σ) (schedules : action.Schedules) (running : system.kernel.runningThread = some thread)
    (user : thread.threadType = .user)
    (spares : Spares (Others boot.Taken trees (.process thread.process) system.info.memory) system.info after)
    (keeps : Keeps system.kernel.cr3 system.info after)
    (born : ∀ child, Kernel.Newborn system.kernel action child → child.pageTablePhys = thread.pageTablePhys) :
    (system.kernel.perform action).Viewed boot after.memory := by
  have active := tenancy.housed.active thread running user
  have own : KernelView boot after.memory thread.pageTablePhys := by
    have view := viewed.threads.running thread running user
    rw [← active] at view ⊢
    exact Carries.trans view keeps
  refine tenancy.viewed_perform (viewed.threads.imp fun other held view typed => ?_) action
    (fun child new _ => born child new ▸ own) fun id stage standing table listed => ?_
  · obtain ⟨tree, _, found, root, _⟩ := Kernel.every_iff.mp tenancy.tenants other held typed
    by_cases same : other.process = thread.process
    · obtain ⟨mine, _, here, also, _⟩ := tenancy.tenants.running thread running user
      rw [same] at found
      cases found.symm.trans here
      rwa [← root, also]
    · rw [← root] at view ⊢
      exact Carries.trans (view typed) (other_keeps found (fun equal => same (Owner.process.inj equal)) spares)
  · rw [(system.kernel.perform_fixed action schedules).1] at standing
    have found := tenancy.spawning id stage standing table listed
    exact Carries.trans (viewed.spawns id stage standing table listed) (other_keeps found (by simp) spares)

omit [DecidableEq σ] in
theorem viewed_memory (tenancy : Tenancy boot trees system) (viewed : system.kernel.Viewed boot system.info.memory)
    (tables : ∀ owner tree, trees owner = some tree → ∀ table ∈ tableSet 4 system.info.memory tree.root,
      after.memory table = system.info.memory table) : system.kernel.Viewed boot after.memory := by
  refine ⟨viewed.threads.imp fun thread held view user => ?_, fun id stage standing table listed => ?_⟩
  · obtain ⟨tree, _, found, root, _⟩ := Kernel.every_iff.mp tenancy.tenants thread held user
    rw [← root] at view ⊢
    exact Carries.trans (view user) (Keeps.of_agree (tables _ tree found))
  · have found := tenancy.spawning id stage standing table listed
    exact Carries.trans (viewed.spawns id stage standing table listed) (Keeps.of_agree (tables _ _ found))

variable {mapper : Mapper} {event : Event σ} {next : System σ}

theorem viewed_create {table : Nat} (booted : Booted boot) (tenancy : Tenancy boot trees system)
    (viewed : system.kernel.Viewed boot system.info.memory) (running : system.kernel.runningThread = some thread)
    (allowed : thread.threadType = .kernel ∧ system.kernel.spawning thread.threadId = none)
    (created : system.info.createKernelOnlyPagetable = .ok (table, after)) :
    (system.kernel.createKernelOnlyPagetable table).Viewed boot after.memory := by
  have copied := copied_of_copyPagetables (tenancy.intact.wellFormed booted tenancy.isolated.shut) created
  have performed : system.kernel.perform (.createKernelOnlyPagetable table) =
      { system.kernel with released := system.kernel.released.filter (· ≠ table) }.setStage thread
        (some (.created table)) := by
    simp only [Kernel.perform, Kernel.createKernelOnlyPagetable, running, allowed, and_self, if_true]
  refine tenancy.viewed_spawn viewed (.createKernelOnlyPagetable table) thread.threadId (some (.created table))
    (copied.spares fun frame listed => tenancy.isolated.shut_others listed) (fun _ born => by cases born)
    (fun other same => ?_) (by rw [performed]; rfl)
  cases same
  -- the copy is taken from tables that are still those of boot
  have intact : KernelView boot system.info.memory system.info.kernelPageTables := by
    rw [tenancy.intact.root]
    exact Within.of_agree Grows.refl tenancy.intact.tables
  exact Carries.trans intact (Within.of_mirrors Grows.of_sameFlags copied.mirrors)

theorem viewed_syscall {context : Context} {syscallId arg1 arg2 arg3 : UInt64} {kernelStackStart : Option Nat}
    {stack : Option (Nat × Nat)} {info : MemoryInfo} (tenancy : Tenancy boot trees system)
    (viewed : system.kernel.Viewed boot system.info.memory)
    (careful : (syscallId &&& 0xFF).toNat ≤ 1 →
      ∀ thread, system.kernel.runningThread = some thread → thread.threadType = .user)
    (answered : system.syscallMemory (syscallId &&& 0xFF).toNat kernelStackStart = .ok (stack, info)) :
    (system.kernel.perform (.syscall context syscallId arg1 arg2 arg3 ⟨stack⟩)).Viewed boot
      info.memory := by
  have born : ∀ thread, system.kernel.runningThread = some thread → ∀ child,
      Kernel.Newborn system.kernel (.syscall context syscallId arg1 arg2 arg3 ⟨stack⟩) child →
        child.pageTablePhys = thread.pageTablePhys := by
    intro thread running child new
    cases new with
    | fork _ _ _ _ _ _ _ current _ ran =>
      cases ran.symm.trans running
      rfl
  unfold System.syscallMemory at answered
  split at answered
  · rename_i thread number running
    have user := careful (by omega) thread running
    obtain ⟨tree, _, found, root, _⟩ := tenancy.running_tree running user
    have focused := tenancy.isolated.focus found
    rw [root] at focused
    split at answered
    · cases answered
    · rename_i allocated
      split at answered
      · cases answered
        exact tenancy.viewed_call viewed _ trivial running user (focused.allocateUserStack allocated).1
          (allocateUserStack_keeps focused.owns.sound focused.way allocated) (born thread running)
      · cases answered
    · rename_i allocated
      cases answered
      exact tenancy.viewed_call viewed _ trivial running user (focused.allocateUserStack allocated).1
        (allocateUserStack_keeps focused.owns.sound focused.way allocated) (born thread running)
  · rename_i thread number running
    have user := careful (by omega) thread running
    obtain ⟨result, n, new, finished, _, _, teardown, spares, _⟩ := tenancy.dropThread running user
    rw [finished] at answered
    cases answered
    refine tenancy.viewed_call viewed _ trivial running user spares ⟨fun path index short off _ _ => ?_,
      fun path index child upper points => ?_⟩ (born thread running)
    · exact teardown.kept path index short fun here => off here.1
    · have same := teardown.kept path index (by omega) fun here => by
        rw [here.1] at upper
        exact absurd upper (by decide)
      exact ⟨child, same ▸ points, same ▸ Grows.refl _⟩
  · cases answered
    have fixed := system.kernel.perform_fixed (.syscall context syscallId arg1 arg2 arg3 ⟨none⟩) trivial
    refine tenancy.viewed_perform viewed.threads _ (fun child new _ => ?_) ?_
    · cases new
    · rw [fixed.1]
      exact viewed.spawns

theorem viewed_interrupt (tenancy : Tenancy boot trees system) (viewed : system.kernel.Viewed boot system.info.memory)
    (action : Action σ) (schedules : action.Schedules)
    (childless : ∀ thread, ¬ Kernel.Newborn system.kernel action thread) :
    (system.kernel.perform action).Viewed boot system.info.memory := by
  refine tenancy.viewed_perform viewed.threads action (fun child new _ => absurd new (childless child)) ?_
  rw [(system.kernel.perform_fixed action schedules).1]
  exact viewed.spawns

section Spawn

variable {table original : Nat}

theorem viewed_heap {result : Except MapToError Unit} (tenancy : Tenancy boot trees system)
    (viewed : system.kernel.Viewed boot system.info.memory)
    (standing : system.kernel.stage = some (thread, .created table))
    (returned : system.info.allocateUserHeap mapper table = .ok (result, after)) :
    (system.kernel.perform (match result with
      | .ok _ => .enterUserPagetable
      | .error _ => .failHeap)).Viewed boot after.memory := by
  obtain ⟨_, created⟩ := Kernel.stage_eq_some standing
  have tree := tenancy.spawn_tree created rfl
  have spares := (tree.allocateUserHeap returned).1
  cases result with
  | error error =>
    exact tenancy.viewed_spawn viewed .failHeap thread.threadId none spares (fun _ born => by cases born)
      (fun _ given => by cases given) (by simp only [Kernel.perform, Kernel.failHeap, standing]; rfl)
  | ok =>
    refine tenancy.viewed_spawn viewed .enterUserPagetable thread.threadId (some (.inside table system.kernel.cr3))
      spares (fun _ born => by cases born) (fun other same => ?_)
      (by simp only [Kernel.perform, Kernel.enterUserPagetable, standing]; rfl)
    cases same
    exact Carries.trans (viewed.spawns _ _ created table rfl) (allocateUserHeap_keeps tree.owns.sound returned)

theorem viewed_failClosure (tenancy : Tenancy boot trees system) (viewed : system.kernel.Viewed boot system.info.memory)
    (draws : Nat) (standing : system.kernel.stage = some (thread, .inside table original))
    (spares : Spares (Others boot.Taken trees (.spawner thread.threadId) system.info.memory) system.info after) :
    (system.kernel.perform (.failClosure draws)).Viewed boot after.memory :=
  tenancy.viewed_spawn viewed (.failClosure draws) thread.threadId (some (.leaving original)) spares
    (fun _ born => by cases born) (fun _ given => by cases given)
    (by simp only [Kernel.perform, Kernel.failClosure, standing]; rfl)

theorem viewed_segment {segment : Segment} (tenancy : Tenancy boot trees system)
    (viewed : system.kernel.Viewed boot system.info.memory)
    (standing : system.kernel.stage = some (thread, .inside table original)) (ends : segment.Ends)
    (loaded : system.info.loadSegment mapper table segment = .ok (.ok (), after)) :
    (system.kernel.perform .loadSegment).Viewed boot after.memory := by
  obtain ⟨_, inside⟩ := Kernel.stage_eq_some standing
  have tree := tenancy.spawn_tree inside rfl
  refine tenancy.viewed_spawn viewed .loadSegment thread.threadId (some (.inside table original))
    (tree.loadSegment ends loaded).1 (fun _ born => by cases born) (fun other same => ?_) ?_
  · cases same
    exact Carries.trans (viewed.spawns _ _ inside table rfl) (tree.loadSegment_keeps ends loaded)
  · rw [← inside, Function.update_eq_self]
    simp only [Kernel.perform, Kernel.loadSegment, standing]

theorem viewed_initialise {entryPoint : UInt64} {sockets : List σ} {kernelStackStart : Nat} {garbage : ISF}
    {bottom top : VirtAddr} (tenancy : Tenancy boot trees system)
    (viewed : system.kernel.Viewed boot system.info.memory)
    (standing : system.kernel.stage = some (thread, .inside table original))
    (allocated : system.info.allocateUserStack table (system.kernel.counter + 2) = .ok (.ok (bottom, top), after)) :
    (system.kernel.perform (.initialiseThread entryPoint sockets top kernelStackStart garbage)).Viewed boot
      after.memory := by
  obtain ⟨running, inside⟩ := Kernel.stage_eq_some standing
  have tree := tenancy.spawn_tree inside rfl
  refine tenancy.viewed_spawn viewed (.initialiseThread entryPoint sockets top kernelStackStart garbage)
    thread.threadId (some (.leaving original)) (tree.allocateUserStack allocated).1 (fun child born _ => ?_)
    (fun _ given => by cases given) (by simp only [Kernel.perform, Kernel.initialiseThread, standing]; rfl)
  cases born with
  | user _ _ _ _ _ parent other _ current stood =>
    cases current.symm.trans running
    cases stood.symm.trans inside
    exact Carries.trans (viewed.spawns _ _ inside table rfl)
      (allocateUserStack_keeps tree.owns.sound tree.way allocated)

theorem viewed_leave (tenancy : Tenancy boot trees system) (viewed : system.kernel.Viewed boot system.info.memory) :
    (system.kernel.perform .leaveUserPagetable).Viewed boot system.info.memory := by
  refine tenancy.viewed_perform viewed.threads .leaveUserPagetable (fun _ born => by cases born)
    fun id stage standing table listed => ?_
  simp only [Kernel.perform, Kernel.leaveUserPagetable] at standing
  split at standing
  · rename_i thread original _
    by_cases same : id = thread.threadId
    · rw [same] at standing
      simp [Kernel.setStage] at standing
    · refine viewed.spawns id stage ?_ table listed
      simpa [Kernel.setStage, Function.update_of_ne same] using standing
  · exact viewed.spawns id stage standing table listed

end Spawn

omit [DecidableEq σ] in
/-- A store of a user thread writes a page, and no table. -/
theorem viewed_store {addr : VirtAddr} {value : BitVec 8} {walked : Walked} (tenancy : Tenancy boot trees system)
    (viewed : system.kernel.Viewed boot system.info.memory) (found : system.userThread = some thread)
    (translated : translate system.info.memory system.kernel.cr3 .write addr = .ok walked) :
    system.kernel.Viewed boot (storeByte system.info.memory walked.frame addr value) := by
  obtain ⟨running, user⟩ := userThread_eq_some found
  obtain ⟨tree, _, here, root, _⟩ := tenancy.running_tree running user
  have focused := tenancy.isolated.focus here
  rw [← root] at translated
  have page := (focused.reaches translated).1
  let after : MemoryInfo := { system.info with memory := storeByte system.info.memory walked.frame addr value }
  refine (tenancy.viewed_memory viewed fun owner other there table listed => write_table _ _ _ ?_ :
    system.kernel.Viewed boot after.memory)
  rintro rfl
  by_cases same : owner = .process thread.process
  · rw [same] at there
    cases here.symm.trans there
    exact (focused.used _ _ _ page).2 listed
  · exact (focused.holds (.inr ⟨_, _, page⟩)).2.1 (.inr ⟨owner, other, same, there, .inl listed⟩)

theorem viewed_step (booted : Booted boot) (tenancy : Tenancy boot trees system)
    (viewed : system.kernel.Viewed boot system.info.memory) (step : System.CarefulStep mapper system event next) :
    next.kernel.Viewed boot next.info.memory := by
  obtain ⟨careful, step⟩ := step
  cases step.effect with
  | stutter => exact viewed
  | spawnKernelThread function sockets kernelStackStart garbage =>
    refine tenancy.viewed_perform viewed.threads (.spawnKernelThread function sockets kernelStackStart garbage)
      (fun child new => ?_) viewed.spawns
    cases new with
    | kernel => exact nofun
  | syscall answered called =>
    subst called
    exact tenancy.viewed_syscall viewed careful answered
  | timer context => exact tenancy.viewed_interrupt viewed (.timer context) trivial fun _ born => by cases born
  | keyboard context key =>
    exact tenancy.viewed_interrupt viewed (.keyboard context key) trivial fun _ born => by cases born
  | create running allowed created => exact tenancy.viewed_create booted viewed running allowed created
  | failHeap standing refused => exact tenancy.viewed_heap viewed standing refused
  | heap standing mapped => exact tenancy.viewed_heap viewed standing mapped
  | failSegment standing refused =>
    have tree := tenancy.spawn_tree (Kernel.stage_eq_some standing).2 rfl
    exact tenancy.viewed_failClosure viewed 0 standing (tree.loadSegment careful refused).1
  | segment standing loaded => exact tenancy.viewed_segment viewed standing careful loaded
  | failStack standing refused =>
    have tree := tenancy.spawn_tree (Kernel.stage_eq_some standing).2 rfl
    exact tenancy.viewed_failClosure viewed 2 standing (tree.allocateUserStack refused).1
  | initialise standing allocated => exact tenancy.viewed_initialise viewed standing allocated
  | leave => exact tenancy.viewed_leave viewed
  | fault returned =>
    exact tenancy.viewed_memory viewed fun owner tree found table listed =>
      pageFaultHandler_aside returned ((tenancy.isolated.tree owner tree found).entries listed)
  | store found translated => exact tenancy.viewed_store viewed found translated

theorem viewed_of_run (booted : Booted boot) {keyboardSocket : σ} {events : List (Event σ)}
    (run : Run (System.CarefulStep mapper) (System.boot keyboardSocket boot) events system) :
    (∃ trees, Tenancy boot trees system) ∧ system.kernel.Viewed boot system.info.memory := by
  apply run.invariant
  · exact ⟨⟨_, of_boot boot keyboardSocket⟩, Kernel.every_boot _ keyboardSocket boot.kernelPageTables, nofun⟩
  · rintro before event after ⟨⟨trees, tenancy⟩, viewed⟩ step
    exact ⟨tenancy.step booted step, tenancy.viewed_step booted viewed step⟩

end Tenancy

/-- The level-4 tables that the processor walks or will walk: the kernel's own, those of
user threads, of spawns in progress, and the active one while a user thread runs. -/
inductive System.InUse (system : System σ) : Nat → Prop where
  | kernel : InUse system system.info.kernelPageTables
  | thread {thread : Thread} (held : system.kernel.Held thread) (user : thread.threadType = .user) :
      InUse system thread.pageTablePhys
  | spawn {id table : Nat} {stage : SpawnStage} (standing : system.kernel.spawning id = some stage)
      (listed : table ∈ stage.table) : InUse system table
  | active {thread : Thread} (running : system.userThread = some thread) : InUse system system.kernel.cr3

omit [DecidableEq σ] in
theorem Tenancy.reaches_kernel {boot : MemoryInfo} {trees : Owner → Option Tree} {system : System σ} {root : Nat}
    {access : Access} {addr : VirtAddr} {frame : Nat} (booted : Booted boot) (tenancy : Tenancy boot trees system)
    (viewed : system.kernel.Viewed boot system.info.memory) (inUse : system.InUse root)
    (reached : reachSupervisor boot.memory boot.kernelPageTables access addr = some frame) :
    reachSupervisor system.info.memory root access addr = some frame := by
  have empty : ∀ index, entryAt boot.memory boot.kernelPageTables userStackPageIndex index = 0 :=
    entryAt_of_unused booted.table.slot [0, 0]
  have view : KernelView boot system.info.memory root := by
    cases inUse with
    | kernel =>
      rw [tenancy.intact.root]
      exact Within.of_agree Grows.refl tenancy.intact.tables
    | thread held user => exact Kernel.every_iff.mp viewed.threads _ held user
    | spawn standing listed => exact viewed.spawns _ _ standing _ listed
    | active running =>
      obtain ⟨running, user⟩ := userThread_eq_some running
      rw [tenancy.housed.active _ running user]
      exact viewed.threads.running _ running user
  exact view.reachSupervisor empty reached

/-- Whatever supervisor mode reaches through the kernel's tables at boot, it reaches at the
same frame through every table in use after any careful run: kernel code, its heap and
its stacks are where they were in every address space. -/
theorem kernel_mapped_everywhere (mapper : Mapper) {boot : MemoryInfo} (booted : Booted boot) (keyboardSocket : σ)
    {events : List (Event σ)} {system : System σ}
    (run : Run (System.CarefulStep mapper) (System.boot keyboardSocket boot) events system) {root : Nat}
    (inUse : system.InUse root) {access : Access} {addr : VirtAddr} {frame : Nat}
    (reached : reachSupervisor boot.memory boot.kernelPageTables access addr = some frame) :
    reachSupervisor system.info.memory root access addr = some frame := by
  obtain ⟨⟨trees, tenancy⟩, viewed⟩ := Tenancy.viewed_of_run booted run
  exact tenancy.reaches_kernel booted viewed inUse reached

/-- The first page of the kernel heap, in the table of a launched process. -/
theorem kernel_mapped_everywhere_heap : ∃ system : System Unit, system.userThread.isSome = true ∧
    reachSupervisor system.info.memory system.kernel.cr3 .write heapStart = some 16 := by
  obtain ⟨info, _, run⟩ := run_launch
  exact ⟨_, rfl, kernel_mapped_everywhere offsetPageTable booted_kernelInfo () (run.mono LaunchStep.careful)
    (.active rfl) (by decide)⟩

end Zephyr
