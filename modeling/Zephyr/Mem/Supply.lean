import Zephyr.Mem.OnDemand
import Zephyr.Mem.OffsetPageTable

/-! Calls that succeed: with enough free frames from the cursor on and nothing in the
way, pages are mapped and stacks allocated. -/

namespace Zephyr

open Radix PageTableFlags
open PageFrameAllocator (CursorReady Grabs)

namespace PageFrameAllocator

variable {self : PageFrameAllocator} {count fewer : Nat}

theorem CursorReady.le (ready : self.CursorReady count) (less : fewer ≤ count) : self.CursorReady fewer := by
  obtain ⟨long, distinct, free⟩ := ready
  have sublist : (self.usableFrames.drop self.next).take fewer <+: (self.usableFrames.drop self.next).take count :=
    List.take_prefix_take_left less
  refine ⟨?_, distinct.sublist sublist.sublist, fun frame listed => free frame (sublist.subset listed)⟩
  simp only [List.length_take] at long ⊢
  omega

theorem Grabs.ready {after : PageFrameAllocator} {frames : List Nat} (grabs : Grabs self frames after)
    (ready : self.CursorReady (frames.length + count)) : after.CursorReady count := by
  induction grabs with
  | nil => simpa using ready
  | @cons before middle after frame frames takes _ ih =>
    have more : before.CursorReady (frames.length + count + 1) := ready.le (by rw [List.length_cons]; omega)
    obtain ⟨frame, middle, again, onward⟩ := more.takes
    obtain ⟨rfl, rfl⟩ := takes.deterministic again
    exact ih onward

theorem usableFrames_region {start stop : Nat} (map : self.memoryMap = [⟨start * 4096, stop * 4096, .usable⟩]) :
    self.usableFrames = List.range' start (stop - start) := by
  have size : (stop * 4096 - start * 4096 + 4095) / 4096 = stop - start := by omega
  simp only [usableFrames, map, List.filter_cons, decide_true, if_true, List.filter_nil, List.flatMap_cons,
    List.flatMap_nil, List.append_nil, MemoryRegion.frames, size, List.range'_eq_map_range]
  refine List.map_congr_left fun step _ => ?_
  omega

theorem cursorReady_region {start stop : Nat} (map : self.memoryMap = [⟨start * 4096, stop * 4096, .usable⟩])
    (inside : start + self.next + count ≤ stop) (bounded : stop ≤ frameUsageLen)
    (free : ∀ frame, start + self.next ≤ frame → frame < stop → self.frameUsage frame = false) :
    self.CursorReady count := by
  have window : (self.usableFrames.drop self.next).take count = List.range' (start + self.next) count := by
    rw [usableFrames_region map, List.drop_range', Nat.mul_one, List.take_range'_of_length_ge (by omega)]
  refine ⟨by rw [window, List.length_range'], by rw [window]; exact List.nodup_range', fun frame listed => ?_⟩
  rw [window, List.mem_range'_1] at listed
  exact ⟨by omega, free frame listed.1 (by omega)⟩

end PageFrameAllocator

namespace MemoryInfo

/-- How mapping pages may change an entry above level 1. -/
def Grown (old new : PageTableEntry) : Prop :=
  new = old ∨ ∃ child, (old = 0 ∨ next old = some child) ∧ new.frame = .ok child ∧
    ∀ bits, old.flags.contains bits = true → new.flags.contains bits = true

/-- An entry that a mapper can go through, or put a table under. -/
def Passable (entry : PageTableEntry) : Prop := entry = 0 ∨ ∃ child, entry.frame = .ok child

section Entries

variable {old middle new entry : PageTableEntry} {child : Nat}

theorem Grown.trans (first : Grown old middle) (second : Grown middle new) : Grown old new := by
  rcases first with rfl | ⟨child, origin, reached, more⟩
  · exact second
  · rcases second with rfl | ⟨other, between, again, most⟩
    · exact .inr ⟨child, origin, reached, more⟩
    · obtain ⟨leads, held⟩ := frame_ok reached
      have same : other = child := by
        rcases between with rfl | points
        · exact absurd rfl (PageTableEntry.ne_zero_of_contains held)
        · exact Option.some.inj (points.symm.trans leads)
      exact .inr ⟨other, same ▸ origin, again, fun bits had => most bits (more bits had)⟩

theorem Grown.passable (grown : Grown old new) (passable : Passable old) : Passable new := by
  rcases grown with rfl | ⟨child, _, reached, _⟩
  · exact passable
  · exact .inr ⟨child, reached⟩

theorem frame_of_next (leads : next entry = some child) (held : entry.flags.contains present = true) :
    entry.frame = .ok child := by
  obtain ⟨_, small, rfl⟩ := PageTableEntry.next_eq_some_iff.mp leads
  simp [PageTableEntry.frame, held, small]

theorem present_of_userPage {flags : PageTableFlags} (user : flags.contains userPage = true) :
    flags.contains present = true := by
  rw [userPage, contains_or, contains_or] at user
  exact user.1.1

theorem Widens.grown {root : Nat} {before after : MemoryInfo} {path : List (Fin 512)} {index : Fin 512}
    {new : List Nat} (widens : Widens root userPage before after path index entry child new) :
    Grown (entryAt before.memory root path index) entry := by
  refine .inr ⟨child, ?_, frame_of_next widens.leads (present_of_userPage widens.wide), widens.grows⟩
  rcases widens.origin with ⟨unused, _⟩ | ⟨leads, _⟩
  · exact .inl unused
  · exact .inr leads

end Entries

section Mapping

variable {root table frame : Nat} {info before after : MemoryInfo} {page : VirtAddr} {index : Fin 512}
variable {count : Nat} {stem rest : List (Fin 512)} {flags : PageTableFlags}

/-- Mapping a page only lets the entries above level 1 grow. -/
theorem Maps.grown (sound : before.Sound root) (maps : Maps root page frame userPage userPage before after)
    (path : List (Fin 512)) (index : Fin 512) (upper : path.length < 3) :
    Grown (entryAt before.memory root path index) (entryAt after.memory root path index) := by
  obtain ⟨middle, edits, still, _, fills⟩ := maps.fills sound
  have last : entryAt after.memory root path index = entryAt middle.memory root path index := by
    rw [fills.edited.rewrites index (by omega), if_neg]
    rintro ⟨rfl, _⟩
    exact Nat.lt_irrefl 3 upper
  rw [last]
  refine TableEdits.keeps (fun info => Grown (entryAt before.memory root path index)
    (entryAt info.memory root path index)) sound tableFlags_userPage edits (.inl rfl) fun grown widens => ?_
  rw [widens.edited.rewrites index (by omega)]
  split
  · rename_i here
    rw [here.1, here.2] at grown
    rw [here.1, here.2]
    exact grown.trans widens.grown
  · exact grown

/-- Mapping a page leaves the other entries of level 1 as they were. -/
theorem Maps.others (sound : before.Sound root) (maps : Maps root page frame userPage userPage before after)
    {path : List (Fin 512)} (last : path.length = 3) (aside : ¬ (path = page.path ∧ index = page.p1Index)) :
    entryAt after.memory root path index = entryAt before.memory root path index := by
  obtain ⟨middle, edits, _, _, fills⟩ := maps.fills sound
  rw [fills.edited.rewrites index (by omega), if_neg aside]
  exact TableEdits.leaves sound edits last index

theorem nextTable_succeeds {child : Nat} (reached : (info.memory table index).frame = .ok child) :
    info.nextTable table index = .ok (.ok child, info) := by
  simp only [nextTable, reached]

theorem createNextTable_succeeds (valid : TableFlags flags) (visible : flags.contains present = true)
    (passable : Passable (info.memory table index)) (ready : info.frameAllocator.CursorReady (count + 1)) :
    ∃ child after, info.createNextTable table index flags = .ok (.ok child, after) ∧
      after.frameAllocator.CursorReady count := by
  unfold createNextTable
  rcases passable with unused | ⟨child, reached⟩
  · obtain ⟨frame, frameAllocator, takes, onward⟩ := ready.takes
    have bound := lt_of_frameUsageLen takes.bounded
    have entered : ((info.link frameAllocator frame table index flags).memory table index).frame = .ok frame := by
      have same : (info.link frameAllocator frame table index flags).memory table index =
          .setAddr frame flags := by simp [link, write]
      rw [same]
      refine frame_of_next (PageTableEntry.next_setAddr bound valid.clean valid.nonzero valid.small) ?_
      rwa [PageTableEntry.flags_setAddr bound valid.clean]
    have allocated : info.frameAllocator.allocateFrame = .ok (some frame, frameAllocator) := takes
    refine ⟨frame, info.link frameAllocator frame table index flags, ?_, onward⟩
    simp only [unused, PageTableEntry.isUnused, beq_self_eq_true, if_true, allocated]
    exact nextTable_succeeds entered
  · obtain ⟨leads, held⟩ := frame_ok reached
    have used : ¬ (info.memory table index).isUnused = true := by
      simpa [PageTableEntry.isUnused] using PageTableEntry.ne_zero_of_contains held
    rw [if_neg used]
    split
    · have raised : ((info.raise table index flags).memory table index).frame = .ok child := by
        have same : (info.raise table index flags).memory table index =
            (info.memory table index).setFlags ((info.memory table index).flags ||| flags) := by
          simp [raise, write]
        rw [same]
        refine frame_of_next (next_raise leads valid) ?_
        rw [PageTableEntry.flags_setFlags (PageTableEntry.clean_flags.or valid.clean)]
        exact contains_or_left held
      exact ⟨child, _, nextTable_succeeds raised, ready.le (Nat.le_succ count)⟩
    · exact ⟨child, _, nextTable_succeeds reached, ready.le (Nat.le_succ count)⟩

theorem descend_aside {child : Nat} (stem : List (Fin 512)) (sound : info.Sound root) (valid : TableFlags flags)
    (short : (stem ++ rest).length ≤ 3) (found : tableAt info.memory root stem = some table)
    (returned : info.descend table flags rest = .ok (.ok child, after)) (path : List (Fin 512)) (index : Fin 512)
    (shorter : path.length < 4) (away : ¬ path ++ [index] <+: stem ++ rest) :
    entryAt after.memory root path index = entryAt info.memory root path index := by
  induction rest generalizing info table stem with
  | nil =>
    cases returned
    rfl
  | cons first rest ih =>
    have upper : stem.length < 3 := by
      simp at short
      omega
    have split : stem ++ first :: rest = stem ++ [first] ++ rest := by simp
    rw [split] at short away
    unfold descend at returned
    split at returned
    · cases returned
    · cases returned
    · rename_i middle created
      obtain ⟨edits, _, reached, others⟩ := createNextTable_ok sound valid upper found created
      obtain ⟨_, _, still⟩ := TableEdits.extends sound valid edits
      rw [ih _ still short reached returned away, others path index shorter]
      rintro ⟨rfl, rfl⟩
      exact away (List.prefix_append _ _)

/-- The way down from a stem, with at most one new table for every step. -/
theorem descend_succeeds (valid : TableFlags flags) (visible : flags.contains present = true)
    (stem : List (Fin 512)) (sound : info.Sound root) (short : (stem ++ rest).length ≤ 3)
    (found : tableAt info.memory root stem = some table)
    (passable : ∀ above index, above ++ [index] <+: stem ++ rest → stem.length ≤ above.length →
      Passable (entryAt info.memory root above index))
    (ready : info.frameAllocator.CursorReady (rest.length + count)) :
    ∃ child after, info.descend table flags rest = .ok (.ok child, after) ∧ after.frameAllocator.CursorReady count := by
  induction rest generalizing info table stem with
  | nil => exact ⟨table, info, rfl, by simpa using ready⟩
  | cons index rest ih =>
    have upper : stem.length < 3 := by
      simp at short
      omega
    have split : stem ++ index :: rest = stem ++ [index] ++ rest := by simp
    rw [split] at short passable
    have here : Passable (info.memory table index) := by
      rw [← entryAt_of_tableAt found]
      exact passable stem index (List.prefix_append _ _) (Nat.le_refl _)
    have enough : info.frameAllocator.CursorReady (rest.length + count + 1) :=
      ready.le (by rw [List.length_cons]; omega)
    obtain ⟨twin, middle, created, onward⟩ := createNextTable_succeeds valid visible here enough
    obtain ⟨edits, _, reached, others⟩ := createNextTable_ok sound valid upper found created
    obtain ⟨_, _, still⟩ := TableEdits.extends sound valid edits
    have further : ∀ above position, above ++ [position] <+: stem ++ [index] ++ rest →
        (stem ++ [index]).length ≤ above.length → Passable (entryAt middle.memory root above position) := by
      intro above position before deeper
      have bound := before.length_le
      rw [List.length_append, List.length_singleton] at bound deeper
      rw [others above position (by omega) ?_]
      · exact passable above position before (by omega)
      · rintro ⟨rfl, _⟩
        omega
    obtain ⟨child, after, arrived, left⟩ := ih _ still short reached further onward
    exact ⟨child, after, by simp only [descend, created, arrived], left⟩

/-- Nothing is in the way of a page. -/
structure Unmapped (root : Nat) (info : MemoryInfo) (page : VirtAddr) : Prop where
  passable : ∀ above index, above ++ [index] <+: page.path → Passable (entryAt info.memory root above index)
  unused : entryAt info.memory root page.path page.p1Index = 0

theorem mapTo4Kib_succeeds (valid : TableFlags flags) (visible : flags.contains present = true)
    (sound : info.Sound root) (unmapped : Unmapped root info page)
    (ready : info.frameAllocator.CursorReady (3 + count)) (frame : Nat) :
    ∃ after, info.mapTo4Kib root page frame flags flags = .ok (.ok (), after) ∧
      after.frameAllocator.CursorReady count := by
  have arrived : ∃ child middle, info.descend root flags page.path = .ok (.ok child, middle) ∧
      middle.frameAllocator.CursorReady count :=
    descend_succeeds valid visible [] sound (Nat.le_refl 3) rfl
      (fun above index before _ => unmapped.passable above index before) ready
  obtain ⟨table, middle, descended, onward⟩ := arrived
  obtain ⟨edits, found, _⟩ := descend_ok [] sound valid (by simp [VirtAddr.path]) rfl
    (fun above index before => by simp at before) descended
  have unused : middle.memory table page.p1Index = 0 := by
    rw [← entryAt_of_tableAt found, ← unmapped.unused]
    refine descend_aside [] sound valid (by simp [VirtAddr.path]) rfl descended page.path page.p1Index page.path_lt
      fun before => ?_
    have bound := before.length_le
    rw [List.nil_append, List.length_append, List.length_singleton] at bound
    omega
  refine ⟨middle.write table page.p1Index (.setAddr frame flags), ?_, onward⟩
  simp only [mapTo4Kib, descended, unused, PageTableEntry.isUnused, beq_self_eq_true, if_true]

/-- Mapping a page puts nothing in the way of another. -/
theorem Unmapped.maps {other : VirtAddr} (unmapped : Unmapped root before other) (sound : before.Sound root)
    (maps : Maps root page frame userPage userPage before after)
    (aside : ¬ (other.path = page.path ∧ other.p1Index = page.p1Index)) : Unmapped root after other where
  passable above index prefixed := by
    have short : (above ++ [index]).length ≤ 3 := prefixed.length_le
    rw [List.length_append, List.length_singleton] at short
    exact (maps.grown sound above index (by omega)).passable (unmapped.passable above index prefixed)
  unused := (maps.others sound rfl aside).trans unmapped.unused

theorem follow_succeeds (found : tableAt info.memory table rest = some frame)
    (held : ∀ above index, above ++ [index] <+: rest →
      (entryAt info.memory table above index).flags.contains present = true) :
    info.follow table rest = .ok frame := by
  induction rest generalizing table with
  | nil =>
    cases found
    rfl
  | cons index rest ih =>
    rw [tableAt] at found
    obtain ⟨child, leads, found⟩ := Option.bind_eq_some_iff.mp found
    have here : (info.memory table index).frame = .ok child :=
      frame_of_next leads (held [] index (List.prefix_append [index] rest))
    have below := ih found fun above position before => by
      have deeper := held (index :: above) position (List.cons_prefix_cons.mpr ⟨rfl, before⟩)
      rwa [entryAt_cons_some leads] at deeper
    simp only [follow, here, below]

theorem descend_found {last : Nat} (found : tableAt info.memory table rest = some last)
    (held : ∀ above index, above ++ [index] <+: rest →
      (entryAt info.memory table above index).flags.contains userPage = true) :
    info.descend table userPage rest = .ok (.ok last, info) := by
  induction rest generalizing table with
  | nil =>
    cases found
    rfl
  | cons index rest ih =>
    rw [tableAt] at found
    obtain ⟨child, leads, found⟩ := Option.bind_eq_some_iff.mp found
    have wide := held [] index (List.prefix_append [index] rest)
    have used : ¬ (info.memory table index).isUnused = true := by
      simpa [PageTableEntry.isUnused] using (PageTableEntry.next_eq_some_iff.mp leads).1
    have below := ih found fun above position before => by
      have deeper := held (index :: above) position (List.cons_prefix_cons.mpr ⟨rfl, before⟩)
      rwa [entryAt_cons_some leads] at deeper
    have here : info.createNextTable table index userPage = .ok (.ok child, info) := by
      rw [createNextTable, if_neg used, if_neg fun lacks => lacks.2 wide]
      exact nextTable_succeeds (frame_of_next leads (present_of_userPage wide))
    simp only [descend, here, below]

/-- Going down to a page changes entries on its way alone. -/
theorem mapTo4Kib_aside {parent : PageTableFlags} (sound : info.Sound root) (valid : TableFlags parent)
    (returned : info.mapTo4Kib root page frame flags parent = .ok (.ok (), after)) (path : List (Fin 512))
    (index : Fin 512) (shorter : path.length < 4) (away : ¬ path ++ [index] <+: page.indices) :
    entryAt after.memory root path index = entryAt info.memory root path index := by
  unfold mapTo4Kib at returned
  split at returned
  · cases returned
  · cases returned
  · rename_i table middle descended
    split at returned
    · cases returned
      obtain ⟨edits, found, _⟩ := descend_ok [] sound valid (by simp [VirtAddr.path]) rfl
        (fun above index before => by simp at before) descended
      obtain ⟨_, _, still⟩ := TableEdits.extends sound valid edits
      rw [(still.writeLeaf rfl found page.p1Index (.setAddr frame flags)).rewrites index shorter, if_neg]
      · exact descend_aside [] sound valid (by simp [VirtAddr.path]) rfl descended path index shorter
          fun before => away (before.trans (List.prefix_append _ _))
      · rintro ⟨rfl, rfl⟩
        exact away (List.prefix_refl _)
    · cases returned

theorem Entered.found (entered : Entered root page frame info) (bounded : frame < frameUsageLen) :
    ∃ table, tableAt info.memory root page.path = some table ∧ info.memory table page.p1Index ≠ 0 := by
  have used : entryAt info.memory root page.path page.p1Index ≠ 0 := by
    rw [entered.leaf]
    exact PageTableEntry.setAddr_ne_zero (lt_of_frameUsageLen bounded) tableFlags_userPage.clean
      tableFlags_userPage.nonzero
  obtain ⟨table, found, same⟩ := tableAt_of_entryAt_ne used
  exact ⟨table, found, same ▸ used⟩

theorem Entered.refused {another : Nat} (entered : Entered root page frame info) (bounded : frame < frameUsageLen) :
    info.mapTo4Kib root page another userPage userPage = .ok (.error .pageAlreadyMapped, info) := by
  obtain ⟨table, found, used⟩ := entered.found bounded
  simp only [mapTo4Kib, descend_found found entered.wide, PageTableEntry.isUnused, beq_iff_eq, used, if_false]

theorem Entered.updated (entered : Entered root page frame info) (bounded : frame < frameUsageLen) :
    info.updateFlags4Kib root page userPage = .ok (.ok (), info) := by
  obtain ⟨table, found, used⟩ := entered.found bounded
  have reached := follow_succeeds found fun above index before => present_of_userPage (entered.wide above index before)
  have updated : offsetPageTable.updateFlags info root page userPage =
      .ok (.ok (), info.write table page.p1Index ((info.memory table page.p1Index).setFlags userPage)) := by
    change info.updateFlags4Kib root page userPage = _
    simp only [updateFlags4Kib, reached, PageTableEntry.isUnused, beq_iff_eq, used, if_false]
  change offsetPageTable.updateFlags info root page userPage = _
  rw [updated, updateFlags_same bounded entered.leaf updated]

end Mapping

end MemoryInfo

open MemoryInfo

/-- A mapper that also documents when it succeeds: with three frames ready for tables it
maps a page that nothing is in the way of, it refuses a page that is mapped, it updates
the flags of one, and of the entries it changes those on the way to its page alone. -/
structure CompleteMapper extends Mapper where
  succeeds : ∀ {info : MemoryInfo} {root count : Nat} {page : VirtAddr} {flags : PageTableFlags},
    TableFlags flags → flags.contains present = true → info.Sound root → Unmapped root info page →
    info.frameAllocator.CursorReady (3 + count) → ∀ frame, ∃ after,
      mapToWithTableFlags info root page frame flags flags = .ok (.ok (), after) ∧
      after.frameAllocator.CursorReady count
  aside : ∀ {info after : MemoryInfo} {root frame : Nat} {page : VirtAddr} {flags parent : PageTableFlags},
    info.Sound root → TableFlags parent →
    mapToWithTableFlags info root page frame flags parent = .ok (.ok (), after) →
    ∀ path index, path.length < 4 → ¬ path ++ [index] <+: page.indices →
      entryAt after.memory root path index = entryAt info.memory root path index
  occupied : ∀ {info : MemoryInfo} {root frame another : Nat} {page : VirtAddr}, Entered root page frame info →
    frame < frameUsageLen →
    mapToWithTableFlags info root page another userPage userPage = .ok (.error .pageAlreadyMapped, info)
  updates : ∀ {info : MemoryInfo} {root frame : Nat} {page : VirtAddr}, Entered root page frame info →
    frame < frameUsageLen → updateFlags info root page userPage = .ok (.ok (), info)

instance : Coe CompleteMapper Mapper := ⟨CompleteMapper.toMapper⟩

def completeOffsetPageTable : CompleteMapper where
  toMapper := offsetPageTable
  succeeds := mapTo4Kib_succeeds
  aside := mapTo4Kib_aside
  occupied := Entered.refused
  updates := Entered.updated

namespace MemoryInfo

section Ondemand

variable (mapper : CompleteMapper) {root start size count : Nat} {info before : MemoryInfo} {pages : List VirtAddr}

/-- A range of pages is mapped, with at most three new tables for each of them. -/
theorem mapEach_succeeds (frame : Nat) (sound : before.Sound root)
    (distinct : pages.Pairwise fun page other => ¬ (other.path = page.path ∧ other.p1Index = page.p1Index))
    (unmapped : ∀ page ∈ pages, Unmapped root before page)
    (ready : before.frameAllocator.CursorReady (3 * pages.length + count)) :
    ∃ after, mapEach mapper root frame pages before = .ok (.ok (), after) ∧ after.Sound root ∧
      after.frameAllocator.CursorReady count ∧
      ∀ path index, path.length < 4 → (∀ page ∈ pages, ¬ path ++ [index] <+: page.indices) →
        entryAt after.memory root path index = entryAt before.memory root path index := by
  induction pages generalizing before with
  | nil => exact ⟨before, rfl, sound, by simpa using ready, fun _ _ _ _ => rfl⟩
  | cons page pages ih =>
    obtain ⟨apart, distinct⟩ := List.pairwise_cons.mp distinct
    have enough : before.frameAllocator.CursorReady (3 + (3 * pages.length + count)) :=
      ready.le (by rw [List.length_cons]; omega)
    obtain ⟨middle, mapped, onward⟩ :=
      mapper.succeeds tableFlags_userPage (by decide) sound (unmapped page (List.mem_cons_self ..)) enough frame
    have maps := mapper.mapped sound tableFlags_userPage mapped
    obtain ⟨_, _, _, _, fills⟩ := maps.fills sound
    obtain ⟨after, finished, still, left, others⟩ := ih fills.edited.sound distinct
      (fun other listed => (unmapped other (List.mem_cons_of_mem _ listed)).maps sound maps (apart other listed)) onward
    refine ⟨after, by simp only [mapEach, mapped, finished], still, left, fun path index short away => ?_⟩
    rw [others path index short fun other listed => away other (List.mem_cons_of_mem _ listed)]
    exact mapper.aside sound tableFlags_userPage mapped path index short (away page (List.mem_cons_self ..))

theorem createUserOndemandPages_succeeds (sound : info.Sound root) (listed : pagesOf start size = .ok pages)
    (first : start / 4096 * 4096 ∈ pages)
    (distinct : pages.Pairwise fun page other => ¬ (other.path = page.path ∧ other.p1Index = page.p1Index))
    (unmapped : ∀ page ∈ pages, Unmapped root info page)
    (ready : info.frameAllocator.CursorReady (3 * pages.length + count + 1)) :
    ∃ after, info.createUserOndemandPages mapper root start size = .ok (.ok (), after) ∧ after.Sound root ∧
      after.frameAllocator.CursorReady count ∧
      ∀ path index, path.length < 4 → (∀ page ∈ pages, ¬ path ++ [index] <+: page.indices) →
        entryAt after.memory root path index = entryAt info.memory root path index := by
  obtain ⟨frame, frameAllocator, takes, onward⟩ := ready.takes
  obtain ⟨after, mapped, still, left, kept⟩ := mapEach_succeeds mapper frame (sound.takes takes) distinct
    (fun page member => ⟨(unmapped page member).passable, (unmapped page member).unused⟩) onward
  obtain ⟨_, entered, _⟩ := mapEach_entered takes.bounded (sound.takes takes) takes.not_available_self
    (sound.fresh takes) mapped
  have updated := mapper.updates (entered _ first) takes.bounded
  have allocated : info.frameAllocator.allocateFrame = .ok (some frame, frameAllocator) := takes
  exact ⟨after, by simp only [createUserOndemandPages, listed, allocated, mapped, updated], still, left, kept⟩

end Ondemand

section Stack

variable {root table count : Nat} {info : MemoryInfo} {index : Fin 512}

theorem createPagetable_succeeds (ready : info.frameAllocator.CursorReady (count + 1)) :
    ∃ newTable frameAllocator, info.frameAllocator.Takes newTable frameAllocator ∧ frameAllocator.CursorReady count ∧
      info.createPagetable = .ok (newTable, { info with frameAllocator, memory := info.memory.clear newTable }) := by
  obtain ⟨frame, frameAllocator, takes, onward⟩ := ready.takes
  have allocated : info.frameAllocator.allocateFrame = .ok (some frame, frameAllocator) := takes
  refine ⟨frame, frameAllocator, takes, onward, ?_⟩
  rw [createPagetable, allocated]
  rfl

theorem stackTable_returns (table : Nat) (path : List (Fin 512)) (ready : info.frameAllocator.CursorReady (path.length + count)) :
    ∃ last after, info.stackTable table path = .ok (last, after) ∧ after.frameAllocator.CursorReady count := by
  induction path generalizing info table with
  | nil => exact ⟨table, info, rfl, by simpa using ready⟩
  | cons index path ih =>
    have enough : info.frameAllocator.CursorReady (path.length + count + 1) :=
      ready.le (by rw [List.length_cons]; omega)
    unfold stackTable
    split
    · obtain ⟨newTable, frameAllocator, takes, onward, created⟩ := createPagetable_succeeds enough
      rw [created]
      exact ih _ onward
    · exact ih _ (enough.le (Nat.le_succ _))

/-- A new table is empty, and of the frames in use only the entry above it has changed. -/
theorem link_effects {frame : Nat} {frameAllocator : PageFrameAllocator}
    (apart : ¬ info.frameAllocator.Available table) (takes : info.frameAllocator.Takes frame frameAllocator)
    (index : Fin 512) (flags : PageTableFlags) :
    (∀ position, (info.link frameAllocator frame table index flags).memory frame position = 0) ∧
    ∀ other, ¬ info.frameAllocator.Available other → ¬ frameAllocator.Available other ∧
      ∀ position, ¬ (other = table ∧ position = index) →
        (info.link frameAllocator frame table index flags).memory other position = info.memory other position := by
  have memory : (info.link frameAllocator frame table index flags).memory =
      (info.memory.clear frame).write table index (.setAddr frame flags) := rfl
  have differs : ∀ {other}, ¬ info.frameAllocator.Available other → other ≠ frame := by
    rintro other taken rfl
    exact taken takes.available
  rw [memory]
  constructor
  · intro position
    rw [write_table _ _ _ (differs apart).symm]
    exact clear_same info.memory frame position
  · intro other taken
    refine ⟨takes.not_available taken, fun position aside => ?_⟩
    by_cases here : other = table
    · subst here
      rw [write_index _ _ _ _ fun same => aside ⟨rfl, same⟩, clear_table _ (differs taken)]
    · rw [write_table _ _ _ here, clear_table _ (differs taken)]

/-- Tables made along a path whose first entry is unused: the last of them is empty, and
of the frames that were in use only the first entry has changed. -/
theorem stackTable_succeeds {rest : List (Fin 512)} (unused : info.memory table index = 0)
    (apart : ¬ info.frameAllocator.Available table)
    (ready : info.frameAllocator.CursorReady ((index :: rest).length + count)) :
    ∃ last after, info.stackTable table (index :: rest) = .ok (last, after) ∧
      after.frameAllocator.CursorReady count ∧ after.kernelPageTables = info.kernelPageTables ∧
      info.frameAllocator.Available last ∧ (∀ position, after.memory last position = 0) ∧
      ∀ frame, ¬ info.frameAllocator.Available frame → ¬ after.frameAllocator.Available frame ∧
        ∀ position, ¬ (frame = table ∧ position = index) → after.memory frame position = info.memory frame position := by
  induction rest generalizing info table index with
  | nil =>
    have enough : info.frameAllocator.CursorReady (count + 1) := ready.le (by simp only [List.length_singleton]; omega)
    obtain ⟨newTable, frameAllocator, takes, onward, created⟩ := createPagetable_succeeds enough
    obtain ⟨blank, kept⟩ := link_effects apart takes index userPage
    refine ⟨newTable, info.link frameAllocator newTable table index userPage, ?_, onward, rfl, takes.available,
      blank, kept⟩
    simp only [stackTable, unused, PageTableEntry.isUnused, beq_self_eq_true, if_true, created]
    rfl
  | cons below rest ih =>
    have enough : info.frameAllocator.CursorReady ((below :: rest).length + count + 1) :=
      ready.le (by simp only [List.length_cons]; omega)
    obtain ⟨newTable, frameAllocator, takes, onward, created⟩ := createPagetable_succeeds enough
    obtain ⟨blank, kept⟩ := link_effects apart takes index userPage
    obtain ⟨last, after, finished, left, kernel, fresh, empty, others⟩ := ih (blank below) takes.not_available_self onward
    refine ⟨last, after, ?_, left, kernel, ?_, empty, fun frame taken => ?_⟩
    · simp only [stackTable, unused, PageTableEntry.isUnused, beq_self_eq_true, if_true, created]
      exact finished
    · by_contra gone
      exact takes.not_available gone fresh
    · obtain ⟨still, same⟩ := kept frame taken
      refine ⟨(others frame still).1, fun position aside => ?_⟩
      rw [(others frame still).2 position ?_, same position aside]
      rintro ⟨rfl, _⟩
      exact taken takes.available

theorem allUnused_succeeds {indices : List Nat} (empty : ∀ position, info.memory table position = 0)
    (inside : ∀ index ∈ indices, index < 512) : info.allUnused table indices = .ok true := by
  induction indices with
  | nil => rfl
  | cons index rest ih =>
    simp only [allUnused, inside index (List.mem_cons_self ..), dite_true, empty, PageTableEntry.isUnused,
      beq_self_eq_true, if_true]
    exact ih fun other member => inside other (List.mem_cons_of_mem _ member)

theorem fillSlot_succeeds (table : Nat) {indices : List Nat} (inside : ∀ index ∈ indices, index < 512)
    (ready : info.frameAllocator.CursorReady (indices.length + count)) :
    ∃ after, info.fillSlot table indices = .ok (.ok (), after) ∧ after.frameAllocator.CursorReady count ∧
      after.kernelPageTables = info.kernelPageTables ∧ ∀ frame, frame ≠ table → after.memory frame = info.memory frame := by
  induction indices generalizing info with
  | nil => exact ⟨info, rfl, by simpa using ready, rfl, fun _ _ => rfl⟩
  | cons index rest ih =>
    have enough : info.frameAllocator.CursorReady (rest.length + count + 1) :=
      ready.le (by rw [List.length_cons]; omega)
    obtain ⟨frame, frameAllocator, takes, onward⟩ := enough.takes
    have allocated : info.frameAllocator.allocateFrame = .ok (some frame, frameAllocator) := takes
    have room := inside index (List.mem_cons_self ..)
    have filled : ∃ after, ({ info with frameAllocator }.write table ⟨index, room⟩ (.setAddr frame userPage)).fillSlot
        table rest = .ok (.ok (), after) ∧ after.frameAllocator.CursorReady count ∧
        after.kernelPageTables = info.kernelPageTables ∧ ∀ other, other ≠ table →
          after.memory other = info.memory.write table ⟨index, room⟩ (.setAddr frame userPage) other :=
      ih (fun other member => inside other (List.mem_cons_of_mem _ member)) onward
    obtain ⟨after, finished, left, kernel, others⟩ := filled
    refine ⟨after, ?_, left, kernel, fun other aside => ?_⟩
    · simp only [fillSlot, room, dite_true, allocated]
      exact finished
    · rw [others other aside, write_table _ _ _ aside]

theorem allocateUserStack_succeeds {nStart : Nat} (unused : info.memory root 6 = 0)
    (apart : ¬ info.frameAllocator.Available root) (room : nStart % 64 * 8 + 10 < 512)
    (ready : info.frameAllocator.CursorReady (13 + count)) :
    ∃ after, info.allocateUserStack root nStart =
        .ok (.ok (slotAddress (nStart % 64) + 4096, slotAddress (nStart % 64) + 11 * 4096), after) ∧
      after.frameAllocator.CursorReady count ∧ after.kernelPageTables = info.kernelPageTables ∧
      ∀ frame, ¬ info.frameAllocator.Available frame → ∀ position, ¬ (frame = root ∧ position = 6) →
        after.memory frame position = info.memory frame position := by
  have enough : info.frameAllocator.CursorReady (([6, 0, 0] : List (Fin 512)).length + (10 + count)) :=
    ready.le (by simp only [List.length_cons, List.length_nil]; omega)
  obtain ⟨table, middle, made, onward, first, fresh, empty, others⟩ := stackTable_succeeds unused apart enough
  have inside : ∀ index ∈ slotPages (nStart % 64), index < 512 := by
    intro index member
    obtain ⟨step, small, rfl⟩ := List.mem_map.mp member
    rw [List.mem_range] at small
    omega
  obtain ⟨after, filled, left, second, kept⟩ := fillSlot_succeeds table inside onward
  refine ⟨after, ?_, left, second.trans first, fun frame taken position aside => ?_⟩
  · have found : middle.findSlot table nStart (0 :: (List.range 64).tail) =
        .ok (.ok (slotAddress (nStart % 64) + 4096, slotAddress (nStart % 64) + 11 * 4096), after) := by
      simp only [findSlot, Nat.add_zero, allUnused_succeeds empty inside, filled]
    simp only [allocateUserStack, userStackPageIndex, made]
    exact found
  · have differs : frame ≠ table := by
      rintro rfl
      exact taken fresh
    rw [kept frame differs]
    exact (others frame taken).2 position aside

end Stack

end MemoryInfo

end Zephyr
