import Zephyr.Space.Calls

/-! How a process's tree begins and ends: the copy of the kernel's tables, the clearing
of a stack, and the release of the whole tree. -/

namespace Zephyr

open Radix PageTableFlags
open PageFrameAllocator (Grabs Frees)

namespace MemoryInfo

/-- What clearing stack entries changed: only the given entries of the stacks' table,
where they held a page, and only the frames behind those pages. -/
structure ClearsStack (root : Nat) (indices : List (Fin 512)) (before after : MemoryInfo) : Prop where
  entries : ∀ table index, after.memory table index ≠ before.memory table index →
    tableAt before.memory root userStackPageIndex = some table ∧ index ∈ indices ∧
      ∃ frame, PageAt before.memory root userStackPageIndex index frame
  frames : ∀ frame, before.frameAllocator.frameUsage frame = true →
    after.frameAllocator.frameUsage frame = false →
    ∃ index ∈ indices, PageAt before.memory root userStackPageIndex index frame
  cleared : ∀ index ∈ indices, (after.stackEntry root index).flags = 0
  kept : ∀ path index, path.length < 4 → ¬ (path = userStackPageIndex ∧ index ∈ indices) →
    entryAt after.memory root path index = entryAt before.memory root path index
  tables : tableSet 4 after.memory root = tableSet 4 before.memory root

theorem ClearsStack.holds {root frame : Nat} {indices : List (Fin 512)} {before after : MemoryInfo}
    (clears : ClearsStack root indices before after) (held : Holds after.memory root frame) :
    Holds before.memory root frame := by
  rcases held with table | ⟨path, index, page⟩
  · exact .inl (clears.tables ▸ table)
  · have last := page.last
    by_cases here : path = userStackPageIndex ∧ index ∈ indices
    · have user := page.user
      rw [here.1, ← stackEntry, clears.cleared index here.2] at user
      exact absurd user (by decide)
    · have same := clears.kept path index (by omega) here
      exact .inr ⟨path, index, last, same ▸ page.user, same ▸ page.addr⟩

/-- What user trees inherit from the kernel's: slot 6 is free for the stacks, user
mode can use no page, and no entry above level 1 looks like an on-demand page. -/
structure KernelTable (memory : Memory Nat 512 PageTableEntry) (root : Nat) : Prop where
  slot : entryAt memory root [] 6 = 0
  leaves : ¬ SomeEntry UserLeaf memory 4 root
  unmarked : ∀ path index, path.length < 3 → (entryAt memory root path index).flags ≠ present ||| userAccessible

section Frees

variable {kept freed : Nat → Prop} {before after : MemoryInfo}

theorem Frees.spares (frees : Frees before.frameAllocator after.frameAllocator freed)
    (shut : ∀ frame, kept frame → ¬ before.frameAllocator.Available frame)
    (aside : ∀ frame, kept frame → ¬ freed frame)
    (memory : ∀ frame, kept frame → after.memory frame = before.memory frame)
    (kernel : after.kernelPageTables = before.kernelPageTables) : Spares kept before after where
  memory := memory
  used frame listed used := (frees.usage frame).mpr ⟨used, fun given => aside frame listed given.2⟩
  shut := by
    rintro frame listed ⟨usable, free⟩
    rw [frees.usable] at usable
    refine shut frame listed ⟨usable, Bool.eq_false_iff.mpr fun used => ?_⟩
    have still := (frees.usage frame).mpr ⟨used, fun given => aside frame listed given.2⟩
    cases still.symm.trans free
  kernel := kernel

end Frees

namespace UserTree

variable {foreign : Nat → Prop} {root frame table n : Nat} {slots pending : List Nat}
variable {before after info : MemoryInfo} {index : Fin 512}

theorem spares_clears (tree : UserTree foreign root slots [] before)
    (clears : Clears root before after userStackPageIndex index) : Spares foreign before after := by
  refine Frees.spares clears.frees tree.owns.shut ?_ (fun frame strange => clears.others frame fun listed => ?_)
    clears.kernel
  · rintro frame strange ⟨written, rfl⟩
    exact (tree.holds (.inr ⟨_, _, tree.pageAt_of_writable written⟩)).2.1 strange
  · exact (tree.owns.tables frame listed).2.1 strange

theorem clearsStack (tree : UserTree foreign root slots [] before)
    (found : tableAt before.memory root userStackPageIndex = some table)
    (returned : freeStackEntry table before index = .ok after) : ClearsStack root [index] before after := by
  have entry : before.stackEntry root index = before.memory table index := entryAt_of_tableAt found
  have clears := freeStackEntry_ok tree.owns.sound found returned
  have memory : after.memory = before.memory.write table index ((before.memory table index).setFlags 0) := by
    unfold freeStackEntry at returned
    dsimp only at returned
    split at returned
    · split at returned
      · cases returned
      · cases returned
        rfl
    · cases returned
      rfl
  refine ⟨fun other position changed => ?_, fun frame used free => ?_, fun k listed => ?_,
    fun other position short aside => ?_, clears.tables⟩
  · rw [memory] at changed
    have same_table : other = table := by
      by_contra aside
      exact changed (by rw [write_table _ _ _ aside])
    subst same_table
    have same_index : position = index := by
      by_contra aside
      exact changed (write_index _ _ _ _ aside)
    subst same_index
    refine ⟨found, List.mem_singleton_self _, _, pageAt_of_stackEntry ((tree.flags position).resolve_right ?_)⟩
    intro none_set
    rw [entry] at none_set
    refine changed ?_
    rw [write_same, PageTableEntry.setFlags, ← none_set, PageTableEntry.setAddr_addr_flags]
  · have given : ¬ after.frameAllocator.frameUsage frame = true := by simp [free]
    rw [clears.frees.usage, not_and, not_not] at given
    obtain ⟨_, written, rfl⟩ := given used
    exact ⟨index, List.mem_singleton_self index, tree.pageAt_of_writable written⟩
  · rw [List.mem_singleton.mp listed, stackEntry_written clears.rewrites,
      PageTableEntry.flags_setFlags (by decide)]
  · rw [clears.rewrites position short, if_neg]
    exact fun both => aside ⟨both.1, List.mem_singleton.mpr both.2⟩

theorem freeStackEntries {indices : List (Fin 512)} (tree : UserTree foreign root slots [] before)
    (found : tableAt before.memory root userStackPageIndex = some table)
    (spared : ∀ m ∈ slots, ∀ index ∈ indices, ¬ (m * 8 + 1 ≤ index.1 ∧ index.1 ≤ m * 8 + 10)) :
    ∃ after, indices.foldlM (freeStackEntry table) before = .ok after ∧
      UserTree foreign root slots [] after ∧ Spares foreign before after ∧
      ClearsStack root indices before after := by
  induction indices generalizing before with
  | nil =>
    exact ⟨before, rfl, tree, .refl tree.owns.shut, fun _ _ changed => absurd rfl changed,
      fun _ used free => (by cases used.symm.trans free), fun _ listed => absurd listed List.not_mem_nil,
      fun _ _ _ _ => rfl, rfl⟩
  | cons index indices ih =>
    obtain ⟨middle, stepped⟩ := freeStackEntry_returns found (tree.flags index)
    have clears := freeStackEntry_ok tree.owns.sound found stepped
    have first := tree.clearsStack found stepped
    have kept := tree.clears clears fun m listed => spared m listed index (List.mem_cons_self ..)
    have reached : tableAt middle.memory root userStackPageIndex = some table := by
      rw [clears.rewrites.tableAt (by decide) (by simp [userStackPageIndex]), found]
    obtain ⟨after, finished, last, rest, second⟩ := ih kept reached fun m listed other member =>
      spared m listed other (List.mem_cons_of_mem _ member)
    have older : ∀ {k frame}, PageAt middle.memory root userStackPageIndex k frame →
        PageAt before.memory root userStackPageIndex k frame := by
      intro k frame page
      rcases page.rewritten clears.rewrites with ⟨_, _, user, _⟩ | ⟨_, old⟩
      · rw [PageTableEntry.flags_setFlags (by decide)] at user
        exact absurd user (by decide)
      · exact old
    refine ⟨after, ?_, last, (tree.spares_clears clears).trans rest, fun other position changed => ?_,
      fun frame used free => ?_, fun k listed => ?_, fun other position short aside => ?_,
      second.tables.trans first.tables⟩
    · rw [List.foldlM_cons, stepped]
      exact finished
    · by_cases here : middle.memory other position = before.memory other position
      · obtain ⟨_, listed, frame, page⟩ := second.entries other position (here ▸ changed)
        have same : some other = some table := by
          rw [← reached, (second.entries other position (here ▸ changed)).1]
        cases same
        exact ⟨found, List.mem_cons_of_mem _ listed, frame, older page⟩
      · obtain ⟨at_table, listed, page⟩ := first.entries other position here
        exact ⟨at_table, List.mem_cons.mpr (.inl (List.mem_singleton.mp listed)), page⟩
    · cases still : middle.frameAllocator.frameUsage frame with
      | true =>
        obtain ⟨k, listed, page⟩ := second.frames frame still free
        exact ⟨k, List.mem_cons_of_mem _ listed, older page⟩
      | false =>
        obtain ⟨k, listed, page⟩ := first.frames frame used still
        exact ⟨k, List.mem_cons.mpr (.inl (List.mem_singleton.mp listed)), page⟩
    · by_cases later : k ∈ indices
      · exact second.cleared k later
      · rw [stackEntry, second.kept userStackPageIndex k (by decide) fun both => later both.2]
        exact first.cleared k (List.mem_singleton.mpr ((List.mem_cons.mp listed).resolve_right later))
    · rw [second.kept other position short fun both => aside ⟨both.1, List.mem_cons_of_mem _ both.2⟩]
      refine first.kept other position short fun both => aside ⟨both.1, ?_⟩
      rw [List.mem_singleton.mp both.2]
      exact List.mem_cons_self ..

theorem freeUserStack {top : VirtAddr} (tree : UserTree foreign root slots [] before) (listed : n ∈ slots)
    (isTop : top = slotAddress n + 11 * 4096) :
    ∃ after, before.freeUserStack root top = .ok after ∧
      UserTree foreign root (slots.erase n) [] after ∧ Spares foreign before after ∧
      ∃ indices : List (Fin 512), (∀ index, index ∈ indices ↔ n * 8 ≤ index.1 ∧ index.1 ≤ n * 8 + 10) ∧
        ClearsStack root indices before after := by
  obtain ⟨bounded, entered⟩ := tree.standing.entered n listed
  obtain ⟨table, found, _⟩ := tableAt_of_entryAt_ne
    (entered ⟨n * 8 + 10, bounded⟩ (by simp) (Nat.le_refl _))
  obtain ⟨indices, range, loop⟩ := freeUserStack_eq isTop bounded found
  have fewer : UserTree foreign root (slots.erase n) [] before :=
    { tree with standing := ⟨fun m other => tree.standing.entered m (List.mem_of_mem_erase other),
        tree.standing.spaced.sublist List.erase_sublist⟩ }
  have aside : ∀ m ∈ slots.erase n, ∀ index ∈ indices, ¬ (m * 8 + 1 ≤ index.1 ∧ index.1 ≤ m * 8 + 10) := by
    intro m other index member
    have apart := tree.standing.apart listed other
    have inside := (range index).mp member
    omega
  obtain ⟨after, finished, rest, spared, cleared⟩ := fewer.freeStackEntries found aside
  exact ⟨after, by rw [loop, finished], rest, spared, indices, range, cleared⟩

theorem freeUserPagetables (tree : UserTree foreign root slots [] before) :
    ∃ frameAllocator, before.freeUserPagetables root = .ok { before with frameAllocator } ∧
      Spares foreign before { before with frameAllocator } ∧
      ∀ frame, before.frameAllocator.frameUsage frame = true → frameAllocator.frameUsage frame = false →
        Holds before.memory root frame := by
  obtain ⟨frameAllocator, finished, frees⟩ := freeUserPagetables_spec before tree.owns.plain
  have held : ∀ frame, Released before.memory 4 root frame → Holds before.memory root frame := by
    intro frame released
    rw [Released, mem_tables] at released
    exact tree.holds_iff.mpr released
  refine ⟨frameAllocator, finished, Frees.spares frees tree.owns.shut
    (fun frame strange released => (tree.holds (held frame released)).2.1 strange) (fun _ _ => rfl) rfl, ?_⟩
  intro frame used free
  have given : ¬ frameAllocator.frameUsage frame = true := by simp [free]
  rw [frees.usage, not_and, not_not] at given
  exact held frame (given used).2

end UserTree

section Create

variable {foreign : Nat → Prop} {kernel root : Nat} {info created : MemoryInfo}

theorem UserLeaf.of_userPage {frame below : Nat} {entry : PageTableEntry} (page : UserPage frame below entry) :
    UserLeaf below entry := by
  have user := page.2.1
  rw [userPage, contains_or, contains_or] at user
  exact ⟨page.1, contains_or.mpr ⟨user.1.1, user.2⟩⟩

theorem Copied.userTree (copied : Copied info created kernel root) (table : KernelTable info.memory kernel)
    (shut : ∀ frame, foreign frame → ¬ info.frameAllocator.Available frame) :
    UserTree foreign root [] [] created := by
  have kept : Stacks root [] created := stacks_of_unused (copied.slotUnused table.slot)
  have leafless : ¬ SomeEntry UserLeaf created.memory 4 root :=
    fun found => table.leaves (copied.mirrors.someEntry (fun _ _ leaf => leaf.1) found)
  have pageless : ∀ path index frame, ¬ PageAt created.memory root path index frame := by
    intro path index frame page
    obtain ⟨path, index, short, held⟩ := page.someEntry
    exact leafless ⟨path, index, short, .of_userPage held⟩
  refine ⟨copied.owns (fun frame ⟨path, index, short, held⟩ => table.leaves ⟨path, index, short, .of_userPage held⟩)
      shut, kept.way, kept.flags, ⟨fun _ listed => absurd listed List.not_mem_nil, .nil⟩,
    fun path index short leaf => absurd ⟨path, index, short, leaf⟩ leafless,
    fun path index frame page => absurd page (pageless path index frame),
    fun k _ _ frame page => absurd page (pageless _ k frame), fun path index upper => ?_⟩
  obtain ⟨same, inner⟩ := copied.mirrors.entryAt (by omega : path.length < 4) index
  cases points : next (entryAt info.memory kernel path index) with
  | none =>
    rw [same (.inr points)]
    exact table.unmarked path index upper
  | some child =>
    obtain ⟨_, _, alike, _⟩ := inner child (by omega) points
    have flags : (entryAt created.memory root path index).flags = (entryAt info.memory kernel path index).flags := alike
    rw [flags]
    exact table.unmarked path index upper

theorem Copied.spares (copied : Copied info created kernel root)
    (shut : ∀ frame, foreign frame → ¬ info.frameAllocator.Available frame) : Spares foreign info created where
  memory frame strange := copied.others frame fun made => shut frame strange (copied.grabs.available made)
  used frame _ used := (copied.grabs.frameUsage frame).mpr (.inr used)
  shut frame strange := copied.grabs.not_available (shut frame strange)
  kernel := copied.kernel

end Create

end MemoryInfo

end Zephyr
