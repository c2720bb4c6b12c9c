import Zephyr.Space.KernelView

/-! User writes that page protection stops. `page_fault_handler` takes each of them for the
first write to an on-demand page; no page of any process looks like one, so the write is
neither allowed nor is its thread ended: it faults again, for ever. -/

namespace Zephyr

open Radix PageTableFlags PageFaultErrorCode Transition MemoryInfo

section Walks

variable {memory changed : Memory Nat 512 PageTableEntry} {root levels : Nat} {indices : List (Fin 512)}

theorem tableSet_child {index : Fin 512} {child : Nat} (leads : next (memory root index) = some child) :
    tableSet levels memory child ⊆ tableSet (levels + 1) memory root := by
  rintro table ⟨path, short, found⟩
  exact ⟨index :: path, Nat.succ_lt_succ short, by simp [tableAt, leads, found]⟩

theorem lookup_agree (agree : ∀ table ∈ tableSet levels memory root, changed table = memory table)
    (short : indices.length ≤ levels) :
    lookup changed root indices = lookup memory root indices ∧
      ∀ walked, lookup memory root indices = some walked → ∀ spot ∈ walked.used, spot.1 ∈ tableSet levels memory root := by
  induction indices generalizing levels root with
  | nil => exact ⟨rfl, fun walked found spot listed => by cases found; cases listed⟩
  | cons index rest ih =>
    obtain ⟨levels, rfl⟩ : ∃ rest, levels = rest + 1 := ⟨levels - 1, by simp at short; omega⟩
    have here : root ∈ tableSet (levels + 1) memory root := root_mem_tableSet (Nat.succ_pos levels)
    rw [lookup, lookup, agree root here]
    split
    · exact ⟨rfl, fun _ found => by cases found⟩
    · rename_i held
      split
      · refine ⟨rfl, fun walked found spot listed => ?_⟩
        cases found
        rw [List.mem_singleton.mp listed]
        exact here
      · rename_i small
        cases rest with
        | nil =>
          refine ⟨rfl, fun walked found spot listed => ?_⟩
          cases found
          rw [List.mem_singleton.mp listed]
          exact here
        | cons second rest =>
          have leads : next (memory root index) = some (memory root index).addr :=
            PageTableEntry.next_eq_some_iff.mpr
              ⟨PageTableEntry.ne_zero_of_contains (by simpa using held), by simpa using small, rfl⟩
          obtain ⟨same, used⟩ := ih (fun table listed => agree table (tableSet_child leads listed))
            (Nat.le_of_succ_le_succ short)
          refine ⟨by rw [same], fun walked found spot listed => ?_⟩
          obtain ⟨deeper, reached, rfl⟩ := Option.map_eq_some_iff.mp found
          rcases List.mem_cons.mp listed with rfl | listed
          · exact here
          · exact tableSet_child leads (used deeper reached spot listed)

theorem translate_agree {access : Access} {addr : VirtAddr}
    (agree : ∀ table ∈ tableSet 4 memory root, changed table = memory table) :
    translate changed root access addr = translate memory root access addr := by
  obtain ⟨same, used⟩ := lookup_agree agree (Nat.le_refl addr.indices.length)
  unfold translate
  rw [same]
  cases found : lookup memory root addr.indices with
  | none => rfl
  | some walked =>
    have rights : (walked.used.all fun spot => (changed spot.1 spot.2).flags.contains access.rights) =
        walked.used.all fun spot => (memory spot.1 spot.2).flags.contains access.rights := by
      refine Bool.eq_iff_iff.mpr ?_
      rw [List.all_eq_true, List.all_eq_true]
      refine forall₂_congr fun spot listed => ?_
      rw [agree spot.1 (used walked found spot listed)]
    dsimp only
    rw [rights]

end Walks

variable {σ : Type} [DecidableEq σ] [Fintype σ] {boot : MemoryInfo} {trees : Owner → Option Tree}
variable {system after : System σ} {thread : Thread} {mapper : Mapper} {addr : VirtAddr} {root table : Nat}

omit [DecidableEq σ] in
/-- No entry of a table in use looks like an on-demand page. -/
theorem Tenancy.inUse_entries (booted : Booted boot) (tenancy : Tenancy boot trees system) (inUse : system.InUse root)
    (listed : table ∈ tableSet 4 system.info.memory root) (index : Fin 512) :
    (system.info.memory table index).flags ≠ present ||| userAccessible := by
  have tenant : ∀ thread, system.kernel.Held thread → thread.threadType = .user → root = thread.pageTablePhys →
      (system.info.memory table index).flags ≠ present ||| userAccessible := by
    rintro thread held user rfl
    obtain ⟨tree, _, found, same, _⟩ := Kernel.every_iff.mp tenancy.tenants thread held user
    rw [← same] at listed
    exact (tenancy.isolated.tree _ tree found).entries listed index
  cases inUse with
  | kernel => exact (tenancy.intact.table booted).entries listed index
  | thread held user => exact tenant _ held user rfl
  | spawn standing member =>
    exact (tenancy.isolated.tree _ _ (tenancy.spawning _ _ standing _ member)).entries listed index
  | active running =>
    obtain ⟨running, user⟩ := userThread_eq_some running
    exact tenant _ (.inl running) user (tenancy.housed.active _ running user)

omit [DecidableEq σ] in
theorem Tenancy.kernel_page_closed (booted : Booted boot) (tenancy : Tenancy boot trees system)
    (viewed : system.kernel.Viewed boot system.info.memory) (running : system.userThread = some thread)
    {walked : Walked} (found : lookup boot.memory boot.kernelPageTables addr.indices = some walked) (access : Access) :
    translate system.info.memory system.kernel.cr3 access addr = .error (protectionViolation ||| access.errorCode) := by
  obtain ⟨running, user⟩ := userThread_eq_some running
  obtain ⟨tree, _, here, root, _⟩ := tenancy.running_tree running user
  have own := tenancy.isolated.tree _ tree here
  have view : KernelView boot system.info.memory tree.root := by
    rw [root, tenancy.housed.active _ running user]
    exact viewed.threads.running _ running user
  have empty : ∀ index, entryAt boot.memory boot.kernelPageTables userStackPageIndex index = 0 :=
    entryAt_of_unused booted.table.slot [0, 0]
  have top : tableAt system.info.memory tree.root [] = some tree.root := rfl
  obtain ⟨again, also, _⟩ := view.lookup empty rfl (by simp [VirtAddr.indices]) rfl top found
  rw [← root]
  cases outcome : translate system.info.memory tree.root access addr with
  | error code =>
    simp only [translate, also] at outcome
    split at outcome
    · cases outcome
    · exact outcome.symm ▸ rfl
  | ok reached =>
    -- a user page there would stand over a leaf of the kernel
    exfalso
    have page := (own.reaches outcome).1
    obtain ⟨path, index, rest, last, split, above, _, held, leaf⟩ := lookup_leaf (by simp [VirtAddr.indices]) found
    have length := congrArg List.length split
    rw [List.length_append, List.length_cons] at length
    change 4 = _ at length
    have entry : entryAt boot.memory boot.kernelPageTables path index = boot.memory last index := entryAt_of_tableAt above
    have used : entryAt boot.memory boot.kernelPageTables path index ≠ 0 := by
      rw [entry]
      exact PageTableEntry.ne_zero_of_contains held
    have off : path ≠ userStackPageIndex := by
      rintro rfl
      exact used (empty index)
    rcases leaf with ⟨rfl, _⟩ | ⟨more, huge⟩
    · obtain ⟨rfl, single⟩ := List.append_inj' split rfl
      cases single
      have same := view.leaves addr.path addr.p1Index addr.path_lt off used (.inl rfl)
      have wide := page.user
      rw [same, userPage, contains_or, contains_or] at wide
      exact booted.table.leaves ⟨addr.path, addr.p1Index, addr.path_lt, .inl rfl, contains_or.mpr ⟨wide.1.1, wide.2⟩⟩
    · rw [← entry] at huge
      have closed := PageTableEntry.next_eq_none_of_huge huge
      have same := view.leaves path index (by omega) off used (.inr closed)
      obtain ⟨table, deep, _⟩ := tableAt_of_entryAt_ne (ne_zero_of_userPage page.user)
      obtain ⟨below, tail, rfl⟩ := List.eq_nil_or_concat rest |>.resolve_left more
      have stem : addr.path = path ++ [index] ++ below := by
        have whole : addr.path ++ [addr.p1Index] = path ++ [index] ++ below ++ [tail] := by
          rw [List.concat_eq_append] at split
          simpa [VirtAddr.indices] using split
        exact (List.append_inj' whole rfl).1
      rw [stem, tableAt_append, tableAt_concat_eq, same, closed] at deep
      cases deep

/-- What a protection fault of a user write has left of the system. -/
structure System.Stalls (system : System σ) (addr : VirtAddr) (after : System σ) : Prop where
  kernel : after.kernel = system.kernel
  selectors : after.selectors = system.selectors
  root : after.info.kernelPageTables = system.info.kernelPageTables
  tables : ∀ root, system.InUse root → ∀ table ∈ tableSet 4 system.info.memory root,
    after.info.memory table = system.info.memory table
  faults : translate after.info.memory after.kernel.cr3 .write addr =
    translate system.info.memory system.kernel.cr3 .write addr

omit [DecidableEq σ] [Fintype σ] in
theorem System.Stalls.trans {middle : System σ} (first : system.Stalls addr middle)
    (second : middle.Stalls addr after) : system.Stalls addr after where
  kernel := second.kernel.trans first.kernel
  selectors := second.selectors.trans first.selectors
  root := second.root.trans first.root
  tables root inUse table listed := by
    have still : middle.InUse root := by
      cases inUse with
      | kernel =>
        rw [← first.root]
        exact .kernel
      | thread held user => exact .thread (first.kernel ▸ held) user
      | spawn standing member => exact .spawn (first.kernel ▸ standing) member
      | active running =>
        rw [← first.kernel]
        exact .active (by rw [System.userThread, first.kernel]; exact running)
    have kept : tableSet 4 middle.info.memory root = tableSet 4 system.info.memory root :=
      tableSet_congr fun path short => tableAt_frame (first.tables root inUse) (Nat.le_of_lt short)
    exact (second.tables root still table (kept ▸ listed)).trans (first.tables root inUse table listed)
  faults := second.faults.trans first.faults

theorem Tenancy.stalls (booted : Booted boot) (tenancy : Tenancy boot trees system)
    (running : system.userThread = some thread)
    (step : System.Step mapper system (.pageFault .write addr) after) : system.Stalls addr after := by
  unfold System.Step at step
  simp only [System.perform] at step
  split at step
  · split at step
    · cases step
    · cases step
    · rename_i returned
      cases step
      have tables : ∀ root, system.InUse root → ∀ table ∈ tableSet 4 system.info.memory root,
          _ = system.info.memory table :=
        fun root inUse table listed => pageFaultHandler_aside returned (tenancy.inUse_entries booted inUse listed)
      have same := (tenancy.fault booted returned).intact.root.trans tenancy.intact.root.symm
      exact ⟨rfl, rfl, same, tables, translate_agree (tables _ (.active running))⟩
  · cases step
    exact ⟨rfl, rfl, rfl, fun _ _ _ _ => rfl, rfl⟩

/-- Whatever the kernel's tables map at boot is closed to user mode after any careful run:
every user access to it is a protection fault, whichever user thread runs. -/
theorem kernel_pages_protected (mapper : Mapper) {boot : MemoryInfo} (booted : Booted boot) (keyboardSocket : σ)
    {events : List (Event σ)} {system : System σ} {thread : Thread}
    (run : Run (System.CarefulStep mapper) (System.boot keyboardSocket boot) events system)
    (running : system.userThread = some thread) {addr : VirtAddr} {frame : Nat}
    (reached : reachSupervisor boot.memory boot.kernelPageTables .read addr = some frame) (access : Access) :
    translate system.info.memory system.kernel.cr3 access addr = .error (protectionViolation ||| access.errorCode) := by
  obtain ⟨⟨trees, tenancy⟩, viewed⟩ := Tenancy.viewed_of_run booted run
  obtain ⟨walked, found, _⟩ := Option.bind_eq_some_iff.mp reached
  exact tenancy.kernel_page_closed booted viewed running found access

/-- A launched process cannot read the kernel's heap. -/
theorem kernel_pages_protected_heap : ∃ system : System Unit, system.userThread.isSome = true ∧
    translate system.info.memory system.kernel.cr3 .read heapStart = .error (protectionViolation ||| userMode) := by
  obtain ⟨info, _, run⟩ := run_launch
  have reached : reachSupervisor kernelInfo.memory kernelInfo.kernelPageTables .read heapStart = some 16 := by decide
  exact ⟨_, rfl, kernel_pages_protected offsetPageTable booted_kernelInfo () (run.mono LaunchStep.careful) rfl reached .read⟩

/-- A user write that protection stops is tried again and again: after any number of its
faults the same thread runs, every table in use is as it was and the write faults as
before. Where the page is a small one, the kernel does nothing at all. -/
theorem protected_write_stalls (mapper : Mapper) {boot : MemoryInfo} (booted : Booted boot) (keyboardSocket : σ)
    {events : List (Event σ)} {system : System σ} {thread : Thread}
    (run : Run (System.CarefulStep mapper) (System.boot keyboardSocket boot) events system)
    (running : system.userThread = some thread) {addr : VirtAddr}
    (faults : translate system.info.memory system.kernel.cr3 .write addr =
      .error (protectionViolation ||| causedByWrite ||| userMode)) :
    (∀ tries after, Run (System.Step mapper) system tries after → (∀ event ∈ tries, event = .pageFault .write addr) →
      system.Stalls addr after) ∧
    ∀ table, tableAt system.info.memory system.kernel.cr3 addr.path = some table →
      System.Step mapper system (.pageFault .write addr) system := by
  obtain ⟨trees, tenancy⟩ := Tenancy.of_run booted run
  constructor
  · intro tries after taken alike
    have reached : (∃ labels, Run (System.CarefulStep mapper) (System.boot keyboardSocket boot) labels after) ∧
        system.Stalls addr after := by
      induction taken with
      | nil => exact ⟨⟨events, run⟩, rfl, rfl, rfl, fun _ _ _ _ => rfl, rfl⟩
      | @snoc tries middle final event _ last ih =>
        obtain ⟨⟨labels, before⟩, stalled⟩ := ih fun other listed => alike other (List.mem_append_left _ listed)
        obtain rfl := alike event (List.mem_append_right _ (List.mem_singleton_self event))
        obtain ⟨_, still⟩ := Tenancy.of_run booted before
        have same : middle.userThread = some thread := by
          rw [System.userThread, stalled.kernel]
          exact running
        have careful : System.CarefulStep mapper middle (.pageFault .write addr) final := ⟨trivial, last⟩
        exact ⟨⟨_, .snoc before careful⟩, stalled.trans (still.stalls booted same last)⟩
    exact reached.2
  · intro table above
    have unmarked := tenancy.inUse_entries booted (.active running) (mem_tableSet addr.path_lt above) addr.p1Index
    have missing : system.info.allocateMissingOndemandFrame system.kernel.cr3 addr =
        .ok (.error "Error: Unexpected table flags", system.info) := by
      rw [allocateMissingOndemandFrame, activeLevel1TableContaining, foldl_addr above, if_pos unmarked]
    simp only [System.Step, System.perform, running, faults, pageFaultHandler, if_true, missing]

/-- A launched process that writes to the kernel's heap. -/
theorem protected_write_stalls_heap : ∃ system : System Unit, system.userThread.isSome = true ∧
    translate system.info.memory system.kernel.cr3 .write heapStart =
      .error (protectionViolation ||| causedByWrite ||| userMode) ∧
    ∀ tries after, Run (System.Step offsetPageTable) system tries after →
      (∀ event ∈ tries, event = .pageFault .write heapStart) → system.Stalls heapStart after := by
  obtain ⟨info, _, run⟩ := run_launch
  have careful := run.mono LaunchStep.careful
  obtain ⟨⟨trees, tenancy⟩, viewed⟩ := Tenancy.viewed_of_run booted_kernelInfo careful
  have reached : reachSupervisor kernelInfo.memory kernelInfo.kernelPageTables .read heapStart = some 16 := by decide
  obtain ⟨walked, found, _⟩ := Option.bind_eq_some_iff.mp reached
  have faults := tenancy.kernel_page_closed booted_kernelInfo viewed rfl found .write
  exact ⟨_, rfl, faults, (protected_write_stalls offsetPageTable booted_kernelInfo () careful rfl faults).1⟩

end Zephyr
