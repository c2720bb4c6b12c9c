import Zephyr.Mem.Stacks

/-! The functions of `mem/memory.rs` on a user page table, each taken apart into the
changes of one entry it makes. -/

namespace Zephyr

open Radix PageTableFlags
open PageFrameAllocator (Grabs Frees frees_deallocateFrame)

namespace MemoryInfo

section Calls

variable {root table frame : Nat} {info before after : MemoryInfo} {page addr : VirtAddr} {index : Fin 512}

theorem TableEdits.keeps {flags : PageTableFlags} (holds : MemoryInfo → Prop) (sound : before.Sound root)
    (valid : TableFlags flags) (edits : TableEdits root flags before after) (start : holds before)
    (step : ∀ {info next path index entry child new}, holds info →
      Widens root flags info next path index entry child new → holds next) : holds after := by
  induction edits with
  | refl => exact start
  | tail first edit ih =>
    obtain ⟨_, _, still⟩ := TableEdits.extends sound valid first
    obtain ⟨_, _, _, _, _, widens⟩ := edit.widens still valid
    exact step ih widens

theorem TableEdits.leaves (sound : before.Sound root) (edits : TableEdits root userPage before after)
    {path : List (Fin 512)} (last : path.length = 3) (index : Fin 512) :
    entryAt after.memory root path index = entryAt before.memory root path index := by
  refine TableEdits.keeps (fun info => entryAt info.memory root path index =
    entryAt before.memory root path index) sound tableFlags_userPage edits rfl fun same widens => ?_
  rw [widens.edited.rewrites index (by omega), if_neg, same]
  rintro ⟨rfl, _⟩
  have upper := widens.upper
  omega

theorem Maps.fills (sound : before.Sound root) (maps : Maps root page frame userPage userPage before after) :
    ∃ middle, TableEdits root userPage before middle ∧ middle.Sound root ∧
      entryAt middle.memory root page.path page.p1Index = 0 ∧
      Fills root middle after page.path page.p1Index frame := by
  cases maps with
  | @intro middle table edits found wide unused =>
    obtain ⟨_, _, still⟩ := TableEdits.extends sound tableFlags_userPage edits
    have empty : entryAt middle.memory root page.path page.p1Index = 0 := by
      rw [entryAt_of_tableAt found, unused]
    refine ⟨middle, edits, still, empty, rfl, ?_, still.writeLeaf rfl found _ _⟩
    rw [empty]
    decide

/-- Mapping a page leaves the used level-1 entries alone and sets the page's. -/
theorem Maps.leaf (sound : before.Sound root) (maps : Maps root page frame userPage userPage before after) :
    entryAt after.memory root page.path page.p1Index = .setAddr frame userPage ∧
      ∀ (path : List (Fin 512)) (index : Fin 512), path.length = 3 → entryAt before.memory root path index ≠ 0 →
        entryAt after.memory root path index = entryAt before.memory root path index := by
  obtain ⟨middle, edits, _, empty, fills⟩ := maps.fills sound
  refine ⟨?_, fun path index last used => ?_⟩
  · rw [fills.edited.rewrites page.p1Index page.path_lt, if_pos ⟨rfl, rfl⟩]
  · rw [fills.edited.rewrites index (by omega), if_neg, TableEdits.leaves sound edits last index]
    rintro ⟨rfl, rfl⟩
    rw [TableEdits.leaves sound edits last] at empty
    exact used empty

/-- Mapping a page leaves the tables on the way open to users, and those that were. -/
theorem Maps.wide (sound : before.Sound root) (maps : Maps root page frame userPage userPage before after) :
    (∀ stem index, stem ++ [index] <+: page.path →
      (entryAt after.memory root stem index).flags.contains userPage = true) ∧
    ∀ (path : List (Fin 512)) (index : Fin 512), path.length < 3 →
      (entryAt before.memory root path index).flags.contains userPage = true →
      (entryAt after.memory root path index).flags.contains userPage = true := by
  cases maps with
  | @intro middle table edits found wide unused =>
    obtain ⟨_, _, still⟩ := TableEdits.extends sound tableFlags_userPage edits
    have upper : ∀ (path : List (Fin 512)) (index : Fin 512), path.length < 3 →
        entryAt (middle.write table page.p1Index (.setAddr frame userPage)).memory root path index =
          entryAt middle.memory root path index := by
      intro path index short
      rw [(still.writeLeaf rfl found page.p1Index (.setAddr frame userPage)).rewrites index (by omega), if_neg]
      rintro ⟨rfl, _⟩
      exact Nat.lt_irrefl 3 short
    refine ⟨fun stem index prefixed => ?_, fun path index short held => ?_⟩
    · have short : (stem ++ [index]).length ≤ 3 := prefixed.length_le
      rw [List.length_append, List.length_singleton] at short
      rw [upper stem index (by omega)]
      exact wide stem index prefixed
    · rw [upper path index short]
      refine TableEdits.keeps (fun info => (entryAt info.memory root path index).flags.contains userPage = true)
        sound tableFlags_userPage edits held fun held widens => ?_
      rw [widens.edited.rewrites index (by omega)]
      split
      · rename_i here
        rw [here.1, here.2] at held
        exact widens.grows _ held
      · exact held

theorem Maps.outside {other : Nat} (sound : before.Sound root)
    (maps : Maps root page frame userPage userPage before after)
    (taken : ¬ before.frameAllocator.Available other) (outside : other ∉ tableSet 4 before.memory root) :
    after.Sound root ∧ ¬ after.frameAllocator.Available other ∧ other ∉ tableSet 4 after.memory root := by
  obtain ⟨middle, edits, _, _, fills⟩ := maps.fills sound
  obtain ⟨new, extended, _⟩ := TableEdits.extends sound tableFlags_userPage edits
  refine ⟨fills.edited.sound, ?_, ?_⟩
  · rw [fills.edited.sameAllocator]
    exact extended.grabs.not_available taken
  · rw [fills.tables, extended.tables]
    exact fun listed => listed.elim (fun made => taken (extended.grabs.available made)) outside

/-- Mapping a page looks at its indices only. -/
theorem Maps.of_newTruncate (maps : Maps root (VirtAddr.newTruncate page) frame userPage userPage before after) :
    Maps root page frame userPage userPage before after := by
  obtain ⟨edits, found, wide, unused⟩ := maps
  rw [VirtAddr.path_newTruncate] at found wide
  rw [VirtAddr.p1Index_newTruncate] at unused ⊢
  exact .intro edits found wide unused

theorem createUserOndemandPages_ok {mapper : Mapper} {start size : Nat} {pages : List VirtAddr}
    (listed : pagesOf start size = .ok pages)
    (returned : before.createUserOndemandPages mapper root start size = .ok (.ok (), after)) :
    ∃ frame frameAllocator middle, before.frameAllocator.Takes frame frameAllocator ∧
      mapEach mapper root frame pages { before with frameAllocator } = .ok (.ok (), middle) ∧
      mapper.updateFlags middle root (start / 4096 * 4096) userPage = .ok (.ok (), after) := by
  unfold createUserOndemandPages at returned
  rw [listed] at returned
  dsimp only at returned
  split at returned
  · cases returned
  · cases returned
  · rename_i frame frameAllocator allocated
    split at returned
    · cases returned
    · cases returned
    · rename_i middle mapped
      split at returned
      · cases returned
      · cases returned
      · rename_i last updated
        cases returned
        exact ⟨frame, frameAllocator, middle, allocated, mapped, updated⟩

theorem updateFlags_same {mapper : Mapper} (bounded : frame < frameUsageLen)
    (here : entryAt before.memory root page.path page.p1Index = .setAddr frame userPage)
    (updated : mapper.updateFlags before root page userPage = .ok (.ok (), after)) : after = before := by
  obtain ⟨table, found, _, rfl⟩ := mapper.updated updated
  rw [entryAt_of_tableAt found] at here
  have same : (before.memory table page.p1Index).setFlags userPage = before.memory table page.p1Index := by
    rw [here, PageTableEntry.setFlags, (userPage_setAddr bounded).2]
  rw [same, write, write_self _ _ _ _ rfl]

/-- Where the entries lead to tables, following the addresses follows the tables. -/
theorem foldl_addr {path : List (Fin 512)} (found : tableAt info.memory root path = some table) :
    path.foldl (fun table index => (info.memory table index).addr) root = table := by
  induction path generalizing root with
  | nil => exact Option.some.inj found
  | cons index path ih =>
    rw [List.foldl_cons]
    cases points : next (info.memory root index) with
    | none => simp [tableAt, points] at found
    | some child =>
      obtain ⟨_, _, rfl⟩ := PageTableEntry.next_eq_some_iff.mp points
      exact ih (by simpa [tableAt, points] using found)

theorem activeLevel1TableContaining_eq (found : tableAt info.memory root addr.path = some table) :
    info.activeLevel1TableContaining root addr = table :=
  foldl_addr found

theorem allocateMissingOndemandFrame_ok (sound : info.Sound root)
    (found : tableAt info.memory root addr.path = some table)
    (returned : info.allocateMissingOndemandFrame root addr = .ok (.ok (), after)) :
    ∃ frame frameAllocator, info.frameAllocator.Takes frame frameAllocator ∧
      (entryAt info.memory root addr.path addr.p1Index).flags = present ||| userAccessible ∧
      Fills root { info with frameAllocator } after addr.path addr.p1Index frame := by
  unfold allocateMissingOndemandFrame at returned
  rw [activeLevel1TableContaining_eq found] at returned
  dsimp only at returned
  split at returned
  · cases returned
  · rename_i expected
    rw [not_not] at expected
    split at returned
    · cases returned
    · cases returned
    · rename_i frame frameAllocator allocated
      cases returned
      have flags : (entryAt info.memory root addr.path addr.p1Index).flags = present ||| userAccessible := by
        rw [entryAt_of_tableAt found, expected]
      refine ⟨frame, frameAllocator, allocated, flags, rfl, ?_, ?_⟩
      · change (entryAt info.memory root addr.path addr.p1Index).flags.contains userPage = false
        rw [flags]
        decide
      · exact (sound.takes allocated).writeLeaf rfl found _ _

theorem stackTable_ok (stem : List (Fin 512)) {rest : List (Fin 512)} (sound : info.Sound root)
    (whole : stem ++ rest = userStackPageIndex) (found : tableAt info.memory root stem = some table)
    (way : ∀ above index, above ++ [index] <+: userStackPageIndex →
      entryAt info.memory root above index = 0 ∨
        ∃ child, next (entryAt info.memory root above index) = some child)
    {last : Nat} (returned : info.stackTable table rest = .ok (last, after)) :
    TableEdits root userPage info after ∧ tableAt after.memory root userStackPageIndex = some last := by
  induction rest generalizing info table stem with
  | nil =>
    cases returned
    rw [List.append_nil] at whole
    rw [← whole]
    exact ⟨.refl, found⟩
  | cons index rest ih =>
    have further : stem ++ [index] ++ rest = userStackPageIndex := by
      rw [← whole]
      simp
    have prefixed : stem ++ [index] <+: userStackPageIndex := ⟨rest, further⟩
    have upper : stem.length < 3 := by
      have bound := prefixed.length_le
      rw [List.length_append, List.length_singleton, length_userStackPageIndex] at bound
      omega
    have entry : entryAt info.memory root stem index = info.memory table index := entryAt_of_tableAt found
    unfold stackTable at returned
    split at returned
    · rename_i unused
      have unused : info.memory table index = 0 := by simpa [PageTableEntry.isUnused] using unused
      split at returned
      · cases returned
      · rename_i newTable middle created
        obtain ⟨frameAllocator, takes, rfl⟩ := createPagetable_ok created
        have edited := sound.link upper found unused takes tableFlags_userPage
        have written := edited.rewrites index (show stem.length < 4 by omega)
        rw [if_pos ⟨rfl, rfl⟩] at written
        have leads : next (PageTableEntry.setAddr newTable userPage) = some newTable :=
          PageTableEntry.next_setAddr (lt_of_frameUsageLen takes.bounded) tableFlags_userPage.clean
            tableFlags_userPage.nonzero tableFlags_userPage.small
        have deeper : ∀ above position, above ++ [position] <+: userStackPageIndex →
            entryAt (info.link frameAllocator newTable table index userPage).memory root above position = 0 ∨
              ∃ child, next (entryAt (info.link frameAllocator newTable table index userPage).memory root above
                position) = some child := by
          intro above position before
          have bound := before.length_le
          rw [List.length_append, List.length_singleton, length_userStackPageIndex] at bound
          rw [edited.rewrites position (by omega)]
          split
          · exact .inr ⟨newTable, leads⟩
          · exact way above position before
        obtain ⟨edits, reached⟩ := ih (stem ++ [index]) edited.sound further
          (by rw [tableAt_concat_eq, written, leads]) deeper returned
        exact ⟨.head (.link upper found unused takes) edits, reached⟩
    · rename_i used
      obtain ⟨child, points⟩ : ∃ child, next (info.memory table index) = some child := by
        rcases way stem index prefixed with empty | points
        · rw [entry] at empty
          simp [PageTableEntry.isUnused, empty] at used
        · rwa [entry] at points
      obtain ⟨_, _, rfl⟩ := PageTableEntry.next_eq_some_iff.mp points
      refine ih (stem ++ [index]) sound further ?_ way returned
      rw [tableAt_concat_eq, entry, points]

theorem allUnused_true {indices : List Nat} (all : info.allUnused table indices = .ok true) :
    ∀ index ∈ indices, ∃ inside : index < 512, info.memory table ⟨index, inside⟩ = 0 := by
  induction indices with
  | nil => simp
  | cons index indices ih =>
    unfold allUnused at all
    split at all
    · rename_i inside
      split at all
      · rename_i unused
        intro other listed
        cases listed with
        | head => exact ⟨inside, by simpa [PageTableEntry.isUnused] using unused⟩
        | tail _ listed => exact ih all other listed
      · cases all
    · cases all

theorem fillSlot_cons {number : Nat} {rest : List Nat} {result : Except String Unit}
    (returned : before.fillSlot table (number :: rest) = .ok (result, after)) :
    ∃ inside : number < 512, (result = .error "Failed to allocate frame" ∧ after = before) ∨
      ∃ frame frameAllocator, before.frameAllocator.Takes frame frameAllocator ∧
        ({ before with frameAllocator }.write table ⟨number, inside⟩ (.setAddr frame userPage)).fillSlot table
          rest = .ok (result, after) := by
  unfold fillSlot at returned
  split at returned
  · rename_i inside
    refine ⟨inside, ?_⟩
    split at returned
    · cases returned
    · rename_i allocated
      cases returned
      cases PageFrameAllocator.allocation allocated
      exact .inl ⟨rfl, rfl⟩
    · rename_i frame frameAllocator allocated
      exact .inr ⟨frame, frameAllocator, allocated, returned⟩
  · cases returned

theorem Sound.fillsStack {frameAllocator : PageFrameAllocator} (sound : info.Sound root)
    (found : tableAt info.memory root userStackPageIndex = some table)
    (empty : (info.stackEntry root index).flags = 0) (takes : info.frameAllocator.Takes frame frameAllocator) :
    Fills root { info with frameAllocator }
      ({ info with frameAllocator }.write table index (.setAddr frame userPage)) userStackPageIndex index frame := by
  refine ⟨rfl, ?_, (sound.takes takes).writeLeaf rfl found index _⟩
  change (info.stackEntry root index).flags.contains userPage = false
  rw [empty]
  decide

theorem freeStackEntry_returns (found : tableAt info.memory root userStackPageIndex = some table)
    (flags : (info.stackEntry root index).flags = userPage ∨ (info.stackEntry root index).flags = 0) :
    ∃ after, freeStackEntry table info index = .ok after := by
  have entry : info.stackEntry root index = info.memory table index := entryAt_of_tableAt found
  rw [entry] at flags
  unfold freeStackEntry
  dsimp only
  split
  · rename_i written
    rcases flags with page | none_set
    · have frame : (info.memory table index).frame = .ok (info.memory table index).addr := by
        simp [PageTableEntry.frame, page, show contains userPage present = true by decide,
          show contains userPage hugePage = false by decide]
      rw [frame]
      exact ⟨_, rfl⟩
    · rw [none_set] at written
      exact absurd written (by decide)
  · exact ⟨_, rfl⟩

theorem freeStackEntry_ok (sound : info.Sound root)
    (found : tableAt info.memory root userStackPageIndex = some table)
    (returned : freeStackEntry table info index = .ok after) :
    Clears root info after userStackPageIndex index := by
  have entry : entryAt info.memory root userStackPageIndex index = info.memory table index :=
    entryAt_of_tableAt found
  have edited := sound.writeLeaf rfl found index ((info.memory table index).setFlags 0)
  have tables : tableSet 4 (info.write table index ((info.memory table index).setFlags 0)).memory root =
      tableSet 4 info.memory root := by
    ext other
    rw [edited.tables]
    simp
  have clears : ∀ {after : MemoryInfo},
      after.memory = (info.write table index ((info.memory table index).setFlags 0)).memory →
      after.kernelPageTables = info.kernelPageTables →
      Frees info.frameAllocator after.frameAllocator (fun frame =>
        (info.memory table index).flags.contains writable = true ∧ (info.memory table index).addr = frame) →
      Clears root info after userStackPageIndex index := by
    intro after memory kernel frees
    refine ⟨rfl, ?_, ?_, ?_, fun other outside => ?_, ?_, kernel⟩
    · rw [memory, entry]
      exact edited.rewrites
    · rw [memory]
      exact edited.sound.unshared
    · rw [memory, tables]
    · rw [memory]
      exact edited.others other outside (List.not_mem_nil)
    · rw [entry]
      exact frees
  unfold freeStackEntry at returned
  dsimp only at returned
  split at returned
  · rename_i written
    split at returned
    · cases returned
    · rename_i frame taken
      cases returned
      refine clears rfl rfl ((frees_deallocateFrame frame).congr fun other => ?_)
      have same : (info.memory table index).addr = frame := by
        unfold PageTableEntry.frame at taken
        split at taken
        · cases taken
        · split at taken
          · cases taken
          · exact Except.ok.inj taken
      rw [same]
      exact ⟨fun both => both.2.symm, fun equal => ⟨written, equal.symm⟩⟩
  · rename_i plain
    cases returned
    exact clears rfl rfl (.none fun frame both => plain both.1)

end Calls

end MemoryInfo

end Zephyr
