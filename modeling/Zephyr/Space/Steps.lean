import Zephyr.Space.Tenancy

/-! The steps of the system keep the tenancy: one lemma for each thing a step can do to
memory, and the run of a careful system from boot. -/

namespace Zephyr

open Radix PageTableFlags Transition MemoryInfo

variable {σ : Type}

abbrev MemoryInfo.Taken (boot : MemoryInfo) (frame : Nat) : Prop := ¬ boot.frameAllocator.Available frame

section Trees

@[simp] theorem update_spawner_process (trees : Owner → Option Tree) (id index : Nat) (new : Option Tree) :
    Function.update trees (.spawner id) new (.process index) = trees (.process index) :=
  Function.update_of_ne (by simp) ..

@[simp] theorem update_process_spawner (trees : Owner → Option Tree) (id index : Nat) (new : Option Tree) :
    Function.update trees (.process index) new (.spawner id) = trees (.spawner id) :=
  Function.update_of_ne (by simp) ..

variable {trees : Owner → Option Tree} {thread : Thread} {tree : Tree} {index : Nat}

theorem Tenant.mono {more : Owner → Option Tree} (tenant : Tenant trees thread)
    (grows : ∀ tree, trees (.process thread.process) = some tree →
      ∃ larger, more (.process thread.process) = some larger ∧ larger.root = tree.root ∧
        tree.threads ⊆ larger.threads) : Tenant more thread := by
  intro user
  obtain ⟨tree, n, found, root, listed, top⟩ := tenant user
  obtain ⟨larger, there, same, all⟩ := grows tree found
  exact ⟨larger, n, there, same.trans root, all listed, top⟩

theorem Kernel.Every.imp {kernel : Kernel σ} {holds weaker : Thread → Prop} (every : kernel.Every holds)
    (implies : ∀ thread, kernel.Held thread → holds thread → weaker thread) : kernel.Every weaker := by
  rw [Kernel.every_iff] at every ⊢
  exact fun thread held => implies thread held (every thread held)

end Trees

namespace Tenancy

variable [DecidableEq σ] [Fintype σ] {boot : MemoryInfo} {trees : Owner → Option Tree} {system : System σ}
variable {after : MemoryInfo} {owner : Owner} {tree : Tree} {thread : Thread} {selectors : UInt64 × UInt64}

theorem perform_housed (tenancy : Tenancy boot trees system) (action : Action σ) (allowed : action.NonzeroTable) :
    (system.kernel.perform action).Housed :=
  tenancy.housed.of_outcome allowed (Kernel.perform_outcome tenancy.housed.conserved action)

omit [DecidableEq σ] in
/-- An operation for one owner. -/
theorem update (booted : Booted boot) (tenancy : Tenancy boot trees system) (owner : Owner) (new : Option Tree)
    (spares : Spares (Others boot.Taken trees owner system.info.memory) system.info after)
    (kept : ∀ tree, new = some tree →
      UserTree (Others boot.Taken trees owner system.info.memory) tree.root tree.slots [] after) :
    Isolated boot.Taken (Function.update trees owner new) after ∧ KernelIntact boot after :=
  ⟨tenancy.isolated.update spares kept,
    tenancy.intact.spares spares fun table listed => .inl (booted.wellFormed.taken table listed)⟩

/-- An interrupt or system call that adds no thread and asks nothing of memory. -/
theorem quiet (tenancy : Tenancy boot trees system) (action : Action σ) (schedules : action.Schedules)
    (childless : ∀ thread, ¬ Kernel.Newborn system.kernel action thread) :
    Tenancy boot trees ⟨system.kernel.perform action, system.info, selectors⟩ := by
  obtain ⟨spawning, processes⟩ := system.kernel.perform_fixed action schedules
  have allowed : action.NonzeroTable := by
    cases action with
    | createKernelOnlyPagetable => exact schedules.elim
    | _ => trivial
  refine ⟨tenancy.perform_housed action allowed, tenancy.isolated, tenancy.intact, ?_,
    tenancy.tenants.tenants tenancy.housed action fun thread born => absurd born (childless thread), ?_⟩
  · rw [spawning]
    exact tenancy.spawning
  · rw [processes]
    exact tenancy.unborn

theorem kernelThread (tenancy : Tenancy boot trees system) (function : UInt64) (sockets : List σ)
    (kernelStackStart : Nat) (garbage : ISF) : Tenancy boot trees
      ⟨system.kernel.spawnKernelThread function sockets kernelStackStart garbage, system.info, selectors⟩ := by
  refine ⟨tenancy.perform_housed (.spawnKernelThread function sockets kernelStackStart garbage) trivial,
    tenancy.isolated, tenancy.intact, tenancy.spawning, tenancy.tenants.tenants tenancy.housed
      (.spawnKernelThread function sockets kernelStackStart garbage) fun child born => ?_, fun index beyond => ?_⟩
  · cases born with
    | kernel => exact nofun
  · refine tenancy.unborn index (Nat.le_trans ?_ beyond)
    simp [Kernel.spawnKernelThread, Kernel.uniqueId, Kernel.scheduleThread]

omit [DecidableEq σ] in
theorem running_tree (tenancy : Tenancy boot trees system) (running : system.kernel.runningThread = some thread)
    (user : thread.threadType = .user) :
    ∃ tree n, trees (.process thread.process) = some tree ∧ tree.root = system.kernel.cr3 ∧
      (thread.threadId, n) ∈ tree.threads ∧ thread.userStackEnd = slotAddress n + 11 * 4096 := by
  obtain ⟨tree, n, found, root, listed, top⟩ := tenancy.tenants.running thread running user
  exact ⟨tree, n, found, root.trans (tenancy.housed.active thread running user).symm, listed, top⟩

section Spawn

/-- A step of `spawn_user_thread` that adds no thread moves the spawn to its next stage,
and the tree of the spawn is made, changed or given up with it. -/
theorem spawn (booted : Booted boot) (tenancy : Tenancy boot trees system) (action : Action σ)
    (allowed : action.NonzeroTable) (childless : ∀ thread, ¬ Kernel.Newborn system.kernel action thread)
    (id : Nat) (stage : Option SpawnStage)
    (spares : Spares (Others boot.Taken trees (.spawner id) system.info.memory) system.info after)
    (kept : ∀ table, stage.bind SpawnStage.table = some table →
      UserTree (Others boot.Taken trees (.spawner id) system.info.memory) table [] [] after)
    (processes : (system.kernel.perform action).processes = system.kernel.processes)
    (stages : (system.kernel.perform action).spawning = Function.update system.kernel.spawning id stage) :
    ∃ more, Tenancy boot more ⟨system.kernel.perform action, after, selectors⟩ := by
  obtain ⟨isolated, intact⟩ := tenancy.update booted (.spawner id)
    ((stage.bind SpawnStage.table).map fun table => ⟨table, []⟩) spares fun tree same => by
      obtain ⟨table, standing, rfl⟩ := Option.map_eq_some_iff.mp same
      exact kept table standing
  have tenants := tenancy.tenants.tenants tenancy.housed action fun thread born => absurd born (childless thread)
  refine ⟨_, tenancy.perform_housed action allowed, isolated, intact, fun other here standing table listed => ?_,
    tenants.imp fun thread _ tenant => tenant.mono fun tree found => ⟨tree, ?_, rfl, List.Subset.refl _⟩,
    fun index beyond => ?_⟩
  · rw [stages] at standing
    by_cases same : other = id
    · rw [same, Function.update_self] at standing ⊢
      rw [standing, Option.bind_some, Option.mem_def.mp listed, Option.map_some]
    · rw [Function.update_of_ne same] at standing
      rw [Function.update_of_ne fun equal => same (Owner.spawner.inj equal)]
      exact tenancy.spawning other here standing table listed
  · rwa [update_spawner_process]
  · rw [processes] at beyond
    rw [update_spawner_process]
    exact tenancy.unborn index beyond

omit [DecidableEq σ] in
theorem spawn_tree (tenancy : Tenancy boot trees system) {id table : Nat} {stage : SpawnStage}
    (standing : system.kernel.spawning id = some stage) (listed : table ∈ stage.table) :
    UserTree (Others boot.Taken trees (.spawner id) system.info.memory) table [] [] system.info :=
  tenancy.isolated.focus (tenancy.spawning id stage standing table listed)

theorem create (booted : Booted boot) (tenancy : Tenancy boot trees system) {table : Nat}
    (running : system.kernel.runningThread = some thread) (typed : thread.threadType = .kernel)
    (free : system.kernel.spawning thread.threadId = none)
    (created : system.info.createKernelOnlyPagetable = .ok (table, after)) :
    ∃ more, Tenancy boot more ⟨system.kernel.createKernelOnlyPagetable table, after, selectors⟩ := by
  have copied := copied_of_copyPagetables (tenancy.intact.wellFormed booted tenancy.isolated.shut) created
  have shut : ∀ frame, Others boot.Taken trees (.spawner thread.threadId) system.info.memory frame →
      ¬ system.info.frameAllocator.Available frame := fun frame listed => tenancy.isolated.shut_others listed
  have nonzero : table ≠ 0 := by
    rintro rfl
    refine tenancy.isolated.shut 0 booted.zero (copied.grabs.available ?_)
    exact mem_tables.mpr (root_mem_tableSet (by decide))
  have performed : system.kernel.perform (.createKernelOnlyPagetable table) =
      { system.kernel with released := system.kernel.released.filter (· ≠ table) }.setStage thread
        (some (.created table)) := by
    simp only [Kernel.perform, Kernel.createKernelOnlyPagetable, running, typed, free, and_self, if_true]
  refine tenancy.spawn booted (.createKernelOnlyPagetable table) nonzero (fun _ born => by cases born) thread.threadId
    (some (.created table)) (copied.spares shut) (fun other same => ?_) (by rw [performed]; rfl)
    (by rw [performed]; rfl)
  cases same
  exact copied.userTree (tenancy.intact.table booted) shut

variable {mapper : Mapper} {table original : Nat}

/-- The heap is mapped, and the spawn goes on under the new table or ends. -/
theorem heap {result : Except MapToError Unit} (booted : Booted boot) (tenancy : Tenancy boot trees system)
    (standing : system.kernel.stage = some (thread, .created table))
    (returned : system.info.allocateUserHeap mapper table = .ok (result, after)) :
    ∃ more, Tenancy boot more ⟨match result with
      | .ok _ => system.kernel.enterUserPagetable
      | .error _ => system.kernel.failHeap, after, selectors⟩ := by
  obtain ⟨running, created⟩ := Kernel.stage_eq_some standing
  obtain ⟨spares, success⟩ := (tenancy.spawn_tree created rfl).allocateUserHeap returned
  cases result with
  | ok =>
    have performed : system.kernel.perform .enterUserPagetable =
        { system.kernel.setStage thread (some (.inside table system.kernel.cr3)) with cr3 := table } := by
      simp only [Kernel.perform, Kernel.enterUserPagetable, standing]
    refine tenancy.spawn booted .enterUserPagetable trivial (fun _ born => by cases born) thread.threadId
      (some (.inside table system.kernel.cr3)) spares (fun other same => ?_) (by rw [performed]; rfl)
      (by rw [performed]; rfl)
    cases same
    exact success rfl
  | error error =>
    have performed : system.kernel.perform .failHeap = system.kernel.setStage thread none := by
      simp only [Kernel.perform, Kernel.failHeap, standing]
    exact tenancy.spawn booted .failHeap trivial (fun _ born => by cases born) thread.threadId none spares
      (fun _ given => by cases given) (by rw [performed]; rfl) (by rw [performed]; rfl)

/-- The closure of `switch_pagetable_and_execute` ends in an error. -/
theorem failClosure (booted : Booted boot) (tenancy : Tenancy boot trees system) (draws : Nat)
    (standing : system.kernel.stage = some (thread, .inside table original))
    (spares : Spares (Others boot.Taken trees (.spawner thread.threadId) system.info.memory) system.info after) :
    ∃ more, Tenancy boot more ⟨system.kernel.failClosure draws, after, selectors⟩ := by
  have performed : system.kernel.perform (.failClosure draws) =
      { system.kernel.setStage thread (some (.leaving original)) with
        counter := system.kernel.counter + draws } := by
    simp only [Kernel.perform, Kernel.failClosure, standing]
  exact tenancy.spawn booted (.failClosure draws) trivial (fun _ born => by cases born) thread.threadId
    (some (.leaving original)) spares (fun _ given => by cases given) (by rw [performed]; rfl) (by rw [performed]; rfl)

theorem segment {segment : Segment} (booted : Booted boot) (tenancy : Tenancy boot trees system)
    (standing : system.kernel.stage = some (thread, .inside table original)) (ends : segment.Ends)
    (returned : system.info.loadSegment mapper table segment = .ok (.ok (), after)) :
    ∃ more, Tenancy boot more ⟨system.kernel.loadSegment, after, selectors⟩ := by
  obtain ⟨running, inside⟩ := Kernel.stage_eq_some standing
  obtain ⟨spares, success⟩ := (tenancy.spawn_tree inside rfl).loadSegment ends returned
  have performed : system.kernel.perform .loadSegment = { system.kernel with cr3 := table } := by
    simp only [Kernel.perform, Kernel.loadSegment, standing]
  refine tenancy.spawn booted .loadSegment trivial (fun _ born => by cases born) thread.threadId
    (some (.inside table original)) spares
    (fun other same => ?_) (by rw [performed]) ?_
  · cases same
    exact success rfl
  · rw [performed, ← inside, Function.update_eq_self]

/-- `switch_pagetable_and_execute` returns. -/
theorem leave (booted : Booted boot) (tenancy : Tenancy boot trees system) :
    ∃ more, Tenancy boot more ⟨system.kernel.leaveUserPagetable, system.info, selectors⟩ := by
  by_cases leaving : ∃ thread original, system.kernel.stage = some (thread, .leaving original)
  · obtain ⟨thread, original, standing⟩ := leaving
    have performed : system.kernel.perform .leaveUserPagetable =
        { system.kernel.setStage thread none with cr3 := original } := by
      simp only [Kernel.perform, Kernel.leaveUserPagetable, standing]
    exact tenancy.spawn booted .leaveUserPagetable trivial (fun _ born => by cases born) thread.threadId none
      (.refl fun frame listed => tenancy.isolated.shut_others listed) (fun _ given => by cases given) (by rw [performed]; rfl)
      (by rw [performed]; rfl)
  · have same : system.kernel.leaveUserPagetable = system.kernel := by
      unfold Kernel.leaveUserPagetable
      split
      · rename_i thread original standing
        exact absurd ⟨thread, original, standing⟩ leaving
      · rfl
    rw [same]
    exact ⟨trees, { tenancy with }⟩

omit [DecidableEq σ] in
theorem process_lt (tenancy : Tenancy boot trees system) (held : system.kernel.Held thread) :
    thread.process < system.kernel.processes.length := by
  have member := Multiset.mem_map_of_mem Thread.badge (Kernel.mem_objects.mpr held)
  rw [← Kernel.occupants_eq_map] at member
  obtain ⟨process, found, _⟩ := tenancy.housed.process _ member
  exact (List.getElem?_eq_some_iff.mp found).1

/-- The new thread's process takes the tree over from the spawn. -/
theorem initialise {bottom top : VirtAddr} {entryPoint : UInt64} {sockets : List σ} {kernelStackStart : Nat}
    {garbage : ISF} (booted : Booted boot) (tenancy : Tenancy boot trees system)
    (standing : system.kernel.stage = some (thread, .inside table original))
    (returned : system.info.allocateUserStack table (system.kernel.counter + 2) = .ok (.ok (bottom, top), after)) :
    ∃ more, Tenancy boot more
      ⟨system.kernel.initialiseThread entryPoint sockets top kernelStackStart garbage, after, selectors⟩ := by
  obtain ⟨running, inside⟩ := Kernel.stage_eq_some standing
  obtain ⟨spares, success, _⟩ := (tenancy.spawn_tree inside rfl).allocateUserStack returned
  obtain ⟨n, isTop, grown, _⟩ := success bottom top rfl
  obtain ⟨isolated, intact⟩ := tenancy.update booted (.spawner thread.threadId)
    (some ⟨table, [(system.kernel.counter + 1, n)]⟩) spares fun tree same => by
      cases same
      exact grown
  have handed := isolated.hand (Function.update_self ..)
    ((update_spawner_process ..).trans (tenancy.unborn system.kernel.processes.length (Nat.le_refl _)))
  have performed : (system.kernel.initialiseThread entryPoint sockets top kernelStackStart garbage).spawning =
        Function.update system.kernel.spawning thread.threadId (some (.leaving original)) ∧
      (system.kernel.initialiseThread entryPoint sockets top kernelStackStart garbage).processes.length =
        system.kernel.processes.length + 1 := by
    simp only [Kernel.initialiseThread, standing]
    exact ⟨rfl, by simp [Kernel.uniqueId, Kernel.scheduleThread, Kernel.setStage]⟩
  obtain ⟨stages, count⟩ := performed
  -- the trees of other processes and of other spawns are where they were
  have elsewhere : ∀ index, index ≠ system.kernel.processes.length →
      Function.update (Function.update (Function.update trees (.spawner thread.threadId)
        (some ⟨table, [(system.kernel.counter + 1, n)]⟩)) (.spawner thread.threadId) none)
        (.process system.kernel.processes.length) (some ⟨table, [(system.kernel.counter + 1, n)]⟩) (.process index) =
        trees (.process index) := by
    intro index differs
    rw [Function.update_of_ne fun equal => differs (Owner.process.inj equal), update_spawner_process,
      update_spawner_process]
  refine ⟨_, tenancy.perform_housed (.initialiseThread entryPoint sockets top kernelStackStart garbage)
    trivial, handed, intact, fun other here standing table listed => ?_, ?_, fun index beyond => ?_⟩
  · rw [stages] at standing
    by_cases same : other = thread.threadId
    · rw [same, Function.update_self] at standing
      cases standing
      cases listed
    · rw [Function.update_of_ne same] at standing
      rw [update_process_spawner, Function.update_of_ne fun equal => same (Owner.spawner.inj equal),
        Function.update_of_ne fun equal => same (Owner.spawner.inj equal)]
      exact tenancy.spawning other here standing table listed
  · refine (tenancy.tenants.imp fun other held tenant => tenant.mono fun tree found =>
      ⟨tree, ?_, rfl, List.Subset.refl _⟩).tenants tenancy.housed
      (.initialiseThread entryPoint sockets top kernelStackStart garbage) fun child born => ?_
    · rw [elsewhere other.process (Nat.ne_of_lt (tenancy.process_lt held))]
      exact found
    · cases born with
      | user _ _ _ _ _ parent other _ current stood =>
        cases current.symm.trans running
        cases stood.symm.trans inside
        exact fun _ => ⟨_, n, Function.update_self .., rfl, List.mem_singleton_self _, isTop⟩
  · rw [count] at beyond
    rw [elsewhere index (by omega)]
    exact tenancy.unborn index (by omega)

end Spawn

section Calls

theorem call (booted : Booted boot) (tenancy : Tenancy boot trees system) (action : Action σ)
    (schedules : action.Schedules) (running : system.kernel.runningThread = some thread) (new : Option Tree)
    (spares : Spares (Others boot.Taken trees (.process thread.process) system.info.memory) system.info after)
    (kept : ∀ tree, new = some tree →
      UserTree (Others boot.Taken trees (.process thread.process) system.info.memory) tree.root tree.slots [] after)
    (tenants : (system.kernel.perform action).Every
      (Tenant (Function.update trees (.process thread.process) new))) :
    ∃ more, Tenancy boot more ⟨system.kernel.perform action, after, selectors⟩ := by
  obtain ⟨isolated, intact⟩ := tenancy.update booted (.process thread.process) new spares kept
  obtain ⟨spawning, processes⟩ := system.kernel.perform_fixed action schedules
  have allowed : action.NonzeroTable := by
    cases action with
    | createKernelOnlyPagetable => exact schedules.elim
    | _ => trivial
  refine ⟨_, tenancy.perform_housed action allowed, isolated, intact, fun id stage standing table listed => ?_, tenants,
    fun index beyond => ?_⟩
  · rw [spawning] at standing
    rw [update_process_spawner]
    exact tenancy.spawning id stage standing table listed
  · rw [processes] at beyond
    have inside := tenancy.process_lt (.inl running)
    rw [Function.update_of_ne (by simp; omega)]
    exact tenancy.unborn index beyond

variable {context : Context} {syscallId arg1 arg2 arg3 : UInt64}

theorem fork {result : Except String (VirtAddr × VirtAddr)} (kernelStackStart : Nat) (booted : Booted boot)
    (tenancy : Tenancy boot trees system) (running : system.kernel.runningThread = some thread)
    (user : thread.threadType = .user)
    (returned : system.info.allocateUserStack system.kernel.cr3 (system.kernel.counter + 1) = .ok (result, after)) :
    ∃ more, Tenancy boot more ⟨system.kernel.perform (.syscall context syscallId arg1 arg2 arg3
      ⟨result.toOption.map fun stack => (stack.2, kernelStackStart)⟩), after, selectors⟩ := by
  obtain ⟨tree, _, found, root, _⟩ := tenancy.running_tree running user
  have focused := tenancy.isolated.focus found
  rw [root] at focused
  obtain ⟨spares, success, failure⟩ := focused.allocateUserStack returned
  have larger : ∀ threads, tree.threads ⊆ threads → system.kernel.Every
      (Tenant (Function.update trees (.process thread.process) (some ⟨system.kernel.cr3, threads⟩))) := by
    intro threads all
    refine tenancy.tenants.imp fun other _ tenant => tenant.mono fun old here => ?_
    by_cases same : other.process = thread.process
    · rw [same] at here ⊢
      cases found.symm.trans here
      exact ⟨_, Function.update_self .., root.symm, all⟩
    · exact ⟨old, by rwa [Function.update_of_ne fun equal => same (Owner.process.inj equal)], rfl,
        List.Subset.refl _⟩
  cases result with
  | error error =>
    refine tenancy.call booted _ trivial running (some ⟨system.kernel.cr3, tree.threads⟩) spares (fun _ same => ?_) ?_
    · cases same
      exact failure error rfl
    · exact (larger tree.threads (List.Subset.refl _)).tenants tenancy.housed _ fun child born => nomatch born
  | ok pair =>
    obtain ⟨bottom, top⟩ := pair
    obtain ⟨n, isTop, grown, _⟩ := success bottom top rfl
    refine tenancy.call booted _ trivial running
      (some ⟨system.kernel.cr3, (system.kernel.counter + 2, n) :: tree.threads⟩) spares (fun _ same => ?_) ?_
    · cases same
      exact grown
    · refine (larger _ (List.subset_cons_self ..)).tenants tenancy.housed _ fun child born => ?_
      cases born with
      | fork _ _ _ _ _ _ _ current _ ran =>
        cases ran.symm.trans running
        exact fun _ => ⟨_, n, Function.update_self .., tenancy.housed.active thread running user,
          List.mem_cons_self .., isTop⟩

end Calls

end Tenancy

end Zephyr
