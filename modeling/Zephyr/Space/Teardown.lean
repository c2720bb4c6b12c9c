import Zephyr.Space.Steps

/-! The drops of an exiting user thread: its stack is cleared in its process's tree, and
with the last thread the tree is given back. -/

namespace Zephyr

open Radix PageTableFlags Transition MemoryInfo

variable {σ : Type}

/-- What the drops of a thread with the stack in slot `n` do to memory: entries of that
slot and of the page below it lose their page, and the frames given back were behind
them or, with the last thread, in the tree. -/
structure Teardown (root n : Nat) (last : Prop) (before after : MemoryInfo) : Prop where
  entries : ∀ table index, after.memory table index ≠ before.memory table index →
    tableAt before.memory root userStackPageIndex = some table ∧ (n * 8 ≤ index.1 ∧ index.1 ≤ n * 8 + 10) ∧
      ∃ frame, PageAt before.memory root userStackPageIndex index frame
  kept : ∀ path index, path.length < 4 → ¬ (path = userStackPageIndex ∧ n * 8 ≤ index.1 ∧ index.1 ≤ n * 8 + 10) →
    entryAt after.memory root path index = entryAt before.memory root path index
  cleared : ∀ index : Fin 512, n * 8 ≤ index.1 ∧ index.1 ≤ n * 8 + 10 → (after.stackEntry root index).flags = 0
  frames : ∀ frame, before.frameAllocator.frameUsage frame = true → after.frameAllocator.frameUsage frame = false →
    (∃ index : Fin 512, (n * 8 ≤ index.1 ∧ index.1 ≤ n * 8 + 10) ∧
      PageAt before.memory root userStackPageIndex index frame) ∨ last ∧ Holds before.memory root frame

section Slots

variable {tree : Tree} {n id : Nat}

def MemoryInfo.Tree.without (tree : Tree) (n : Nat) : Tree := ⟨tree.root, tree.threads.filter (·.2 != n)⟩

theorem slots_without (distinct : tree.slots.Nodup) : (tree.without n).slots = tree.slots.erase n := by
  rw [distinct.erase_eq_filter, Tree.slots, Tree.without, Tree.slots, List.filter_map]
  rfl

theorem mem_without {entry : Nat × Nat} (distinct : tree.slots.Nodup) (listed : (id, n) ∈ tree.threads)
    (member : entry ∈ tree.threads) (other : entry.1 ≠ id) : entry ∈ (tree.without n).threads := by
  refine List.mem_filter.mpr ⟨member, ?_⟩
  rw [bne_iff_ne]
  intro same
  exact other (congrArg Prod.fst (List.inj_on_of_nodup_map distinct member listed same))

theorem MemoryInfo.UserTree.nodup {foreign : Nat → Prop} {root : Nat} {slots : List Nat} {info : MemoryInfo}
    (kept : UserTree foreign root slots [] info) : slots.Nodup :=
  kept.standing.spaced.imp fun apart => by omega

end Slots

namespace Kernel

variable [Fintype σ] {kernel : Kernel σ} {thread other : Thread}

/-- Whoever is held once a thread has left is another thread, of a process that has
one. -/
theorem Conserved.held_retire (conserved : kernel.Conserved) (running : kernel.runningThread = some thread)
    (held : (kernel.retire thread).Held other) :
    other.threadId ≠ thread.threadId ∧ (kernel.retire thread).HasThread other.process := by
  rcases held with runs | queued | ⟨name, parked⟩
  · cases runs
  · have member := queued
    rw [conserved.retire_waitQueue running] at member
    exact ⟨conserved.not_queued running member, .inr (.inl ⟨other, queued, rfl⟩)⟩
  · exact ⟨conserved.not_parked running parked, .inr (.inr ⟨name, other, parked, rfl⟩)⟩

theorem held_dropThread : (kernel.dropThread thread).Held other ↔ kernel.Held other := by
  unfold dropThread
  split
  · exact Iff.rfl
  · split <;> exact Iff.rfl

end Kernel

namespace Tenancy

variable [DecidableEq σ] [Fintype σ] {boot : MemoryInfo} {trees : Owner → Option Tree} {system : System σ}
variable {thread : Thread} {selectors : UInt64 × UInt64}

omit [DecidableEq σ] in
theorem dropThread (tenancy : Tenancy boot trees system) (running : system.kernel.runningThread = some thread)
    (user : thread.threadType = .user) :
    ∃ after n new, system.dropThread thread = .ok after ∧ thread.userStackEnd = slotAddress n + 11 * 4096 ∧
      n * 8 + 10 < 512 ∧
      Teardown system.kernel.cr3 n (¬ (system.kernel.retire thread).HasThread thread.process) system.info after ∧
      Spares (Others boot.Taken trees (.process thread.process) system.info.memory) system.info after ∧
      (∀ tree, new = some tree →
        UserTree (Others boot.Taken trees (.process thread.process) system.info.memory) tree.root tree.slots [] after) ∧
      ∀ other, other.threadId ≠ thread.threadId → (system.kernel.retire thread).HasThread other.process →
        Tenant trees other → Tenant (Function.update trees (.process thread.process) new) other := by
  obtain ⟨tree, n, found, root, listed, top⟩ := tenancy.running_tree running user
  have focused := tenancy.isolated.focus found
  have distinct := focused.nodup
  have slot : n ∈ tree.slots := List.mem_map.mpr ⟨_, listed, rfl⟩
  obtain ⟨middle, cleared, rest, first, indices, range, clears⟩ := focused.freeUserStack slot top
  have stays : ∀ {other : Thread} {new : Option Tree}, other.process ≠ thread.process → Tenant trees other →
      Tenant (Function.update trees (.process thread.process) new) other :=
    fun differs tenant => tenant.mono fun old here =>
      ⟨old, by rwa [Function.update_of_ne fun equal => differs (Owner.process.inj equal)], rfl, List.Subset.refl _⟩
  obtain ⟨bounded, _⟩ := focused.standing.entered n slot
  have valid : VirtAddr.new thread.userStackEnd = .ok thread.userStackEnd := by
    rw [top]
    unfold slotAddress
    rw [VirtAddr.new_of_lt (by omega)]
  rw [root] at cleared clears rest
  have entries : ∀ table index, middle.memory table index ≠ system.info.memory table index →
      tableAt system.info.memory system.kernel.cr3 userStackPageIndex = some table ∧
        (n * 8 ≤ index.1 ∧ index.1 ≤ n * 8 + 10) ∧
        ∃ frame, PageAt system.info.memory system.kernel.cr3 userStackPageIndex index frame := by
    intro table index changed
    obtain ⟨above, member, page⟩ := clears.entries table index changed
    exact ⟨above, (range index).mp member, page⟩
  have kept : ∀ path index, path.length < 4 →
      ¬ (path = userStackPageIndex ∧ n * 8 ≤ index.1 ∧ index.1 ≤ n * 8 + 10) →
      entryAt middle.memory system.kernel.cr3 path index = entryAt system.info.memory system.kernel.cr3 path index :=
    fun path index short aside => clears.kept path index short fun here =>
      aside ⟨here.1, (range index).mp here.2⟩
  have frames : ∀ frame, system.info.frameAllocator.frameUsage frame = true →
      middle.frameAllocator.frameUsage frame = false → ∃ index : Fin 512, (n * 8 ≤ index.1 ∧ index.1 ≤ n * 8 + 10) ∧
        PageAt system.info.memory system.kernel.cr3 userStackPageIndex index frame := by
    intro frame used free
    obtain ⟨index, member, page⟩ := clears.frames frame used free
    exact ⟨index, (range index).mp member, page⟩
  have empty : ∀ index : Fin 512, n * 8 ≤ index.1 ∧ index.1 ≤ n * 8 + 10 →
      (middle.stackEntry system.kernel.cr3 index).flags = 0 :=
    fun index member => clears.cleared index ((range index).mpr member)
  by_cases alive : (system.kernel.retire thread).HasThread thread.process
  · refine ⟨middle, n, some (tree.without n), ?_, top, bounded, ⟨entries, kept, empty, fun frame used free =>
      .inl (frames frame used free)⟩, first, fun _ same => ?_, fun other differs has tenant => ?_⟩
    · simp only [System.dropThread, valid, cleared, alive, if_true]
    · cases same
      rw [slots_without distinct]
      exact root ▸ rest
    · by_cases same : other.process = thread.process
      · intro typed
        obtain ⟨own, m, here, table, member, stack⟩ := tenant typed
        rw [same] at here ⊢
        cases found.symm.trans here
        exact ⟨_, m, Function.update_self .., table, mem_without distinct listed member differs, stack⟩
      · exact stays same tenant
  · obtain ⟨frameAllocator, finished, second, freed⟩ := rest.freeUserPagetables
    obtain ⟨process, at_index, table, _⟩ := tenancy.housed.user (system.kernel.badge_mem_of_running running) user
    have own : process.pageTablePhysaddr = system.kernel.cr3 :=
      table.symm.trans (tenancy.housed.active thread running user).symm
    refine ⟨{ middle with frameAllocator }, n, none, ?_, top, bounded, ⟨entries, kept, empty, fun frame used free => ?_⟩,
      first.trans second, (fun _ given => by cases given),
      fun other differs has tenant => stays (fun same => alive (same ▸ has)) tenant⟩
    · have there : system.kernel.processes[thread.process]? = some process := at_index
      simp only [System.dropThread, valid, cleared, alive, if_false, there, own, finished]
    · cases still : middle.frameAllocator.frameUsage frame with
      | true => exact .inr ⟨alive, clears.holds (freed frame still free)⟩
      | false => exact .inl (frames frame used still)

theorem exit {context : Context} {syscallId arg1 arg2 arg3 : UInt64} {memory : Kernel.ForkMemory}
    {after : MemoryInfo} (booted : Booted boot) (tenancy : Tenancy boot trees system)
    (running : system.kernel.runningThread = some thread) (user : thread.threadType = .user)
    (number : (syscallId &&& 0xFF).toNat = 1) (dropped : system.dropThread thread = .ok after) :
    ∃ more, Tenancy boot more
      ⟨system.kernel.perform (.syscall context syscallId arg1 arg2 arg3 memory), after, selectors⟩ := by
  obtain ⟨result, n, new, finished, _, _, _, spares, kept, others⟩ := tenancy.dropThread running user
  cases finished.symm.trans dropped
  have performed : system.kernel.perform (.syscall context syscallId arg1 arg2 arg3 memory) =
      (system.kernel.retire thread).dropThread thread := by
    simp only [Kernel.perform, Kernel.dispatchSyscall, number, Kernel.exitCurrentThread, running]
  have childless : ∀ child, ¬ Kernel.Newborn system.kernel (.syscall context syscallId arg1 arg2 arg3 memory) child := by
    intro child born
    cases born with
    | fork _ _ _ _ _ _ _ _ other => cases number.symm.trans other
  refine tenancy.call booted _ trivial running new spares kept
    ((tenancy.tenants.tenants tenancy.housed _ fun child born => absurd born (childless child)).imp ?_)
  intro other held tenant
  rw [performed, Kernel.held_dropThread] at held
  obtain ⟨differs, has⟩ := tenancy.housed.conserved.held_retire running held
  exact others other differs has tenant

end Tenancy

end Zephyr
