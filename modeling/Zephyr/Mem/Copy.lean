import Zephyr.Radix.Traversal
import Zephyr.Mem.PageTable
import Zephyr.Mem.Completeness

/-! `copy_pagetables`: the recursive copy of a level-4 tree into new frames. The
loops are specified against the memory the copy started from, since the source
tables keep their contents while the new ones are carved out of free frames. -/

namespace Zephyr

open Radix PageTableFlags
open PageFrameAllocator (Grabs)

namespace MemoryInfo

/-- One round of the loop of `copy_pages_rec`. -/
def copyEntry (level : Nat) (copyTable : MemoryInfo → Nat → Nat → Except Panic MemoryInfo)
    (fromTable toTable : Nat) (self : MemoryInfo) (i : Fin 512) : Except Panic MemoryInfo :=
  let entry := self.memory fromTable i
  if entry.isUnused then .ok self
  else if level = 1 ∨ entry.flags.contains hugePage then
    .ok (self.write toTable i (.setAddr entry.addr entry.flags))
  else do
    let (newTable, info) ← self.createPagetable
    copyTable (info.write toTable i (.setAddr newTable entry.flags)) entry.addr newTable

/-- `copy_pages_rec`; the loop at level 1 never recurses. -/
def copyPagesRec : Nat → MemoryInfo → Nat → Nat → Except Panic MemoryInfo
  | 0, self, _, _ => .ok self
  | level + 1, self, fromTable, toTable =>
    (List.finRange 512).foldlM (copyEntry (level + 1) (copyPagesRec level) fromTable toTable) self

def copyPagetables (self : MemoryInfo) (level4Table : Nat) : Except Panic (Nat × MemoryInfo) := do
  let (table, info) ← self.createPagetable
  let info ← copyPagesRec 4 info level4Table table
  return (table, info)

def createKernelOnlyPagetable (self : MemoryInfo) : Except Panic (Nat × MemoryInfo) :=
  self.copyPagetables self.kernelPageTables

def SameFlags (entry copy : PageTableEntry) : Prop := copy.flags = entry.flags

/-- What the copy of a table assumes: the source tables hold what they did at the
start, they are present and taken, and the target is none of them. -/
structure CopyReady (original : Memory Nat 512 PageTableEntry) (level source target : Nat)
    (info : MemoryInfo) : Prop where
  agree : ∀ table ∈ tables original level source, info.memory table = original table
  taken : ∀ table ∈ tables original level source, ¬ info.frameAllocator.Available table
  points : ∀ (path : List (Fin 512)) (index : Fin 512), path.length + 1 < level →
    ∀ child, next (entryAt original source path index) = some child →
      (entryAt original source path index).flags.contains present = true
  apart : target ∉ tables original level source
  held : ¬ info.frameAllocator.Available target

/-- What copying some entries of a table of level `below + 1` does. -/
structure CopiesEntries (original : Memory Nat 512 PageTableEntry) (below source target : Nat)
    (indices : List (Fin 512)) (before after : MemoryInfo) (frames : List Nat) : Prop where
  grabs : Grabs before.frameAllocator frames after.frameAllocator
  made : indices.flatMap (tablesBelow after.memory below target) = frames
  count : frames.length = (indices.flatMap (tablesBelow original below source)).length
  mirrors : ∀ index ∈ indices, MirrorsEntry SameFlags (Mirrors SameFlags original after.memory below)
    (below = 0) (original source index) (after.memory target index)
  kept : ∀ index ∉ indices, after.memory target index = before.memory target index
  others : ∀ frame, frame ≠ target → frame ∉ frames → after.memory frame = before.memory frame
  root : after.kernelPageTables = before.kernelPageTables

/-- A computation that returns with its postcondition unless the allocator gets
stuck before the frames it needs. -/
inductive Attempt {α : Type} (allocator : PageFrameAllocator) (needed : Nat) (outcome : Except Panic α)
    (post : α → Prop) : Prop where
  | done (value : α) (returned : outcome = .ok value) (holds : post value)
  | short (panic : Panic) (stopped : outcome = .error panic) (frames : List Nat)
      (after : PageFrameAllocator) (grabs : Grabs allocator frames after)
      (fewer : frames.length < needed) (stuck : after.Stuck)

section Copy

variable {original : Memory Nat 512 PageTableEntry} {level below source target : Nat}
variable {indices : List (Fin 512)} {index : Fin 512} {info before middle after : MemoryInfo}
variable {frames more : List Nat}

theorem CopyReady.kept (ready : CopyReady original (below + 1) source target before)
    (copies : CopiesEntries original below source target indices before after frames) :
    CopyReady original (below + 1) source target after where
  agree := by
    intro table listed
    rw [copies.others table, ready.agree table listed]
    · rintro rfl
      exact ready.apart listed
    · exact fun grabbed => ready.taken table listed (copies.grabs.available grabbed)
  taken table listed := copies.grabs.not_available (ready.taken table listed)
  points := ready.points
  apart := ready.apart
  held := copies.grabs.not_available ready.held

theorem CopiesEntries.nil : CopiesEntries original below source target [] before before [] where
  grabs := .nil
  made := rfl
  count := rfl
  mirrors _ listed := by cases listed
  kept _ _ := rfl
  others _ _ _ := rfl
  root := rfl

theorem CopiesEntries.below_kept (held : ¬ before.frameAllocator.Available target)
    (first : CopiesEntries original below source target [index] before middle frames)
    (rest : CopiesEntries original below source target indices middle after more) :
    ∀ table ∈ tablesBelow middle.memory below target index, after.memory table = middle.memory table := by
  intro table listed
  have made := first.made
  rw [List.flatMap_singleton] at made
  rw [made] at listed
  refine rest.others table ?_ ?_
  · rintro rfl
    exact held (first.grabs.available listed)
  · exact fun grabbed => first.grabs.not_available_of_mem listed (rest.grabs.available grabbed)

theorem CopiesEntries.cons (held : ¬ before.frameAllocator.Available target) (fresh : index ∉ indices)
    (first : CopiesEntries original below source target [index] before middle frames)
    (rest : CopiesEntries original below source target indices middle after more) :
    CopiesEntries original below source target (index :: indices) before after (frames ++ more) where
  grabs := first.grabs.append rest.grabs
  made := by
    have made := first.made
    rw [List.flatMap_singleton] at made
    rw [List.flatMap_cons, rest.made]
    congr 1
    have kept := first.below_kept held rest
    have entry := rest.kept index fresh
    cases points : next (middle.memory target index) with
    | none =>
      rw [tablesBelow_none points] at made
      rw [tablesBelow_none (by rw [entry, points]), made]
    | some child =>
      rw [tablesBelow_some points] at made kept
      rw [tablesBelow_some (by rw [entry, points]), tables_congr kept, made]
  count := by
    have single := first.count
    rw [List.flatMap_singleton] at single
    rw [List.length_append, List.flatMap_cons, List.length_append, single, rest.count]
  mirrors := by
    intro position listed
    cases listed with
    | head =>
      have kept := first.below_kept held rest
      rw [rest.kept index fresh]
      refine (first.mirrors index (List.mem_singleton_self index)).imp fun child twin _ leads copied => ?_
      rw [tablesBelow_some leads] at kept
      exact copied.congr kept
    | tail _ inner => exact rest.mirrors position inner
  kept := by
    intro position unlisted
    rw [List.mem_cons, not_or] at unlisted
    rw [rest.kept position unlisted.2, first.kept position (by simpa using unlisted.1)]
  others := by
    intro frame differs unlisted
    rw [List.mem_append, not_or] at unlisted
    rw [rest.others frame differs unlisted.2, first.others frame differs unlisted.1]
  root := rest.root.trans first.root

def CopySpec (original : Memory Nat 512 PageTableEntry) (level : Nat) : Prop :=
  ∀ (info : MemoryInfo) (source target : Nat), CopyReady original (level + 1) source target info →
    (∀ index, info.memory target index = 0) →
    Attempt info.frameAllocator (tables original (level + 1) source).tail.length
      (copyPagesRec (level + 1) info source target) fun after =>
        ∃ frames, CopiesEntries original level source target (List.finRange 512) info after frames

theorem CopiesEntries.mirror
    (copies : CopiesEntries original below source target (List.finRange 512) before after frames) :
    Mirrors SameFlags original after.memory (below + 1) source target ∧
      tables after.memory (below + 1) target = target :: frames := by
  refine ⟨fun index => copies.mirrors index (List.mem_finRange index), ?_⟩
  rw [tables_succ, copies.made]

theorem CopiesEntries.of_leaf (single : info.memory source index = original source index)
    (leaf : below = 0 ∨ next (original source index) = none) :
    CopiesEntries original below source target [index] info
      (info.write target index (original source index)) [] where
  grabs := .nil
  made := by
    rcases leaf with rfl | empty
    · simp [tablesBelow_zero]
    · simp [tablesBelow_none, write, empty]
  count := by
    rcases leaf with rfl | empty
    · simp [tablesBelow_zero]
    · simp [tablesBelow_none empty]
  mirrors := by
    intro position listed
    obtain rfl := List.mem_singleton.mp listed
    refine ⟨fun _ => by simp [write], fun child inner points => ?_⟩
    rcases leaf with last | empty
    · exact absurd last inner
    · cases points.symm.trans empty
  kept := by
    intro position unlisted
    exact write_index _ _ _ _ (by simpa using unlisted)
  others frame differs _ := write_table _ _ _ differs
  root := rfl

theorem CopiesEntries.of_table {child new : Nat} {frameAllocator : PageFrameAllocator}
    (held : ¬ info.frameAllocator.Available target)
    (points : next (original source index) = some child)
    (present_flag : (original source index).flags.contains present = true)
    (takes : info.frameAllocator.Takes new frameAllocator)
    (copies : CopiesEntries original below child new (List.finRange 512)
      ({ info with frameAllocator, memory := info.memory.clear new }.write target index
        (.setAddr new (original source index).flags)) after frames) :
    CopiesEntries original (below + 1) source target [index] info after (new :: frames) := by
  have apart : target ≠ new := by
    rintro rfl
    exact held takes.available
  have unlisted : target ∉ frames := fun listed =>
    takes.not_available held (copies.grabs.available listed)
  have bound := lt_of_frameUsageLen takes.bounded
  have entry : after.memory target = ((info.memory.clear new).write target index
      (.setAddr new (original source index).flags)) target := copies.others target apart unlisted
  have leads : next (after.memory target index) = some new := by
    rw [entry, write_same]
    refine PageTableEntry.next_setAddr bound PageTableEntry.clean_flags ?_
      (PageTableEntry.next_eq_some_iff.mp points).2.1
    intro none_set
    rw [none_set] at present_flag
    revert present_flag
    decide
  obtain ⟨mirrors, listed⟩ := copies.mirror
  constructor
  · exact .cons takes copies.grabs
  · rw [List.flatMap_singleton, tablesBelow_some leads, listed]
  · rw [List.flatMap_singleton, tablesBelow_some points, tables_succ, List.length_cons, List.length_cons,
      copies.count]
  · intro position single
    obtain rfl := List.mem_singleton.mp single
    refine ⟨?_, fun below inner found => ?_⟩
    · rintro (last | empty)
      · cases last
      · cases points.symm.trans empty
    · cases points.symm.trans found
      refine ⟨new, leads, ?_, mirrors⟩
      rw [SameFlags, entry, write_same, PageTableEntry.flags_setAddr bound PageTableEntry.clean_flags]
  · intro position other
    rw [entry, write_index _ _ _ _ (by simpa using other), clear_table _ apart]
  · intro frame differs other
    rw [List.mem_cons, not_or] at other
    rw [copies.others frame other.1 other.2]
    simp only [write]
    rw [write_table _ _ _ differs, clear_table _ other.1]
  · exact copies.root

theorem CopyReady.descend {child new : Nat} {frameAllocator : PageFrameAllocator}
    (ready : CopyReady original (below + 2) source target info)
    (points : next (original source index) = some child)
    (takes : info.frameAllocator.Takes new frameAllocator) (entry : PageTableEntry) :
    CopyReady original (below + 1) child new
      ({ info with frameAllocator, memory := info.memory.clear new }.write target index entry) := by
  have under : ∀ {table}, table ∈ tables original (below + 1) child →
      table ∈ tables original (below + 2) source := by
    intro table listed
    refine tablesBelow_subset index ?_
    rwa [tablesBelow_some points]
  have fresh : ∀ {table}, table ∈ tables original (below + 2) source → table ≠ new := by
    rintro table listed rfl
    exact ready.taken table listed takes.available
  constructor
  · intro table listed
    have differs : table ≠ target := by
      rintro rfl
      exact ready.apart (under listed)
    simp only [write]
    rw [write_table _ _ _ differs, clear_table _ (fresh (under listed)), ready.agree table (under listed)]
  · exact fun table listed => takes.not_available (ready.taken table (under listed))
  · intro path position short twin found
    have above := ready.points (index :: path) position (by simpa using short) twin
    rw [entryAt_cons_some points] at above
    exact above found
  · exact fun listed => fresh (under listed) rfl
  · exact takes.not_available_self

theorem copyEntry_spec (deeper : ∀ inner, below = inner + 1 → CopySpec original inner)
    (ready : CopyReady original (below + 1) source target info) (blank : info.memory target index = 0) :
    Attempt info.frameAllocator (tablesBelow original below source index).length
      (copyEntry (below + 1) (copyPagesRec below) source target info index) fun after =>
        ∃ frames, CopiesEntries original below source target [index] info after frames := by
  have same : info.memory source index = original source index := by
    rw [ready.agree source mem_tables_self]
  by_cases unused : original source index = 0
  · refine .done info ?_ ⟨[], ?_⟩
    · simp [copyEntry, same, unused, PageTableEntry.isUnused]
    · have leaf : CopiesEntries original below source target [index] info _ [] :=
        .of_leaf same (.inr (by simp [unused]))
      rwa [write, unused, write_self _ _ _ _ blank] at leaf
  by_cases leaf : below = 0 ∨ (original source index).flags.contains hugePage = true
  · refine .done (info.write target index (original source index)) ?_ ⟨[], .of_leaf same ?_⟩
    · simp [copyEntry, same, unused, PageTableEntry.isUnused, leaf]
    · exact leaf.imp id PageTableEntry.next_eq_none_of_huge
  · obtain ⟨inner, rfl⟩ : ∃ inner, below = inner + 1 := ⟨below - 1, by omega⟩
    have small : (original source index).flags.contains hugePage = false := by
      simpa using leaf
    have points : next (original source index) = some (original source index).addr :=
      PageTableEntry.next_eq_some_iff.mpr ⟨unused, small, rfl⟩
    have present_flag : (original source index).flags.contains present = true := by
      have held := ready.points [] index (by simp) _ points
      simpa [entryAt] using held
    have unfolded : copyEntry (inner + 2) (copyPagesRec (inner + 1)) source target info index =
        info.createPagetable.bind fun pair => copyPagesRec (inner + 1)
          (pair.2.write target index (.setAddr pair.1 (original source index).flags))
          (original source index).addr pair.1 := by
      simp [copyEntry, same, unused, PageTableEntry.isUnused, small, bind]
    rw [unfolded, tablesBelow_some points]
    cases created : info.createPagetable with
    | error panic =>
      refine .short panic rfl [] _ .nil ?_ (createPagetable_error created)
      simp [tables_succ]
    | ok pair =>
      obtain ⟨new, next⟩ := pair
      obtain ⟨frameAllocator, takes, rfl⟩ := createPagetable_ok created
      have apart : new ≠ target := by
        rintro rfl
        exact ready.held takes.available
      dsimp only [Except.bind]
      cases deeper inner rfl _ _ new (ready.descend points takes _)
          (fun position => by simp [write, write_table _ _ _ apart]) with
      | done after returned copies =>
        obtain ⟨frames, copies⟩ := copies
        exact .done after returned ⟨new :: frames, .of_table ready.held points present_flag takes copies⟩
      | short panic stopped frames after grabs fewer stuck =>
        refine .short panic stopped (new :: frames) after (.cons takes grabs) ?_ stuck
        simpa [tables_succ] using fewer

theorem copyEntries_spec (deeper : ∀ inner, below = inner + 1 → CopySpec original inner)
    (distinct : indices.Nodup) (ready : CopyReady original (below + 1) source target info)
    (blank : ∀ index ∈ indices, info.memory target index = 0) :
    Attempt info.frameAllocator (indices.flatMap (tablesBelow original below source)).length
      (indices.foldlM (copyEntry (below + 1) (copyPagesRec below) source target) info) fun after =>
        ∃ frames, CopiesEntries original below source target indices info after frames := by
  induction indices generalizing info with
  | nil => exact .done info rfl ⟨[], .nil⟩
  | cons index indices ih =>
    obtain ⟨fresh, distinct⟩ := List.nodup_cons.mp distinct
    rw [List.foldlM_cons, List.flatMap_cons, List.length_append]
    cases copyEntry_spec deeper ready (blank index (List.mem_cons_self ..)) with
    | short panic stopped frames after grabs fewer stuck =>
      exact .short panic (by rw [stopped]; rfl) frames after grabs (by omega) stuck
    | done middle returned copies =>
      obtain ⟨frames, first⟩ := copies
      have size := first.count
      rw [List.flatMap_singleton] at size
      rw [returned]
      have zeros : ∀ position ∈ indices, middle.memory target position = 0 := by
        intro position listed
        rw [first.kept position, blank position (List.mem_cons_of_mem _ listed)]
        intro single
        obtain rfl := List.mem_singleton.mp single
        exact fresh listed
      cases ih distinct (ready.kept first) zeros with
      | done after finished copies =>
        obtain ⟨more, rest⟩ := copies
        exact .done after finished ⟨frames ++ more, first.cons ready.held fresh rest⟩
      | short panic stopped more after grabs fewer stuck =>
        refine .short panic stopped (frames ++ more) after (first.grabs.append grabs) ?_ stuck
        rw [List.length_append]
        omega

theorem copySpec (original : Memory Nat 512 PageTableEntry) (level : Nat) : CopySpec original level := by
  induction level with
  | zero =>
    intro info source target ready blank
    rw [copyPagesRec, tables_succ, List.tail_cons]
    exact copyEntries_spec (fun inner absurd => nomatch absurd) (List.nodup_finRange 512) ready
      fun index _ => blank index
  | succ level ih =>
    intro info source target ready blank
    rw [copyPagesRec, tables_succ, List.tail_cons]
    refine copyEntries_spec (fun inner same => ?_) (List.nodup_finRange 512) ready fun index _ => blank index
    obtain rfl := Nat.succ.inj same
    exact ih

end Copy

/-- A copy of the tree at `root`: its tables are the frames allocated for it, and
nothing else has changed. -/
structure Copied (before after : MemoryInfo) (root table : Nat) : Prop where
  grabs : Grabs before.frameAllocator (tables after.memory 4 table) after.frameAllocator
  count : (tables after.memory 4 table).length = (tables before.memory 4 root).length
  mirrors : Mirrors SameFlags before.memory after.memory 4 root table
  others : ∀ frame, frame ∉ tables after.memory 4 table → after.memory frame = before.memory frame
  kernel : after.kernelPageTables = before.kernelPageTables

section CopyPagetables

variable {info after : MemoryInfo} {root table : Nat}

theorem WellFormed.copyReady {frameAllocator : PageFrameAllocator} (wellFormed : info.WellFormed root)
    (takes : info.frameAllocator.Takes table frameAllocator) :
    CopyReady info.memory 4 root table { info with frameAllocator, memory := info.memory.clear table } := by
  have taken : ∀ frame ∈ tables info.memory 4 root, ¬ info.frameAllocator.Available frame :=
    fun frame listed => wellFormed.taken frame (mem_tables.mp listed)
  constructor
  · intro frame listed
    refine clear_table _ ?_
    rintro rfl
    exact taken frame listed takes.available
  · exact fun frame listed => takes.not_available (taken frame listed)
  · exact fun path index short => wellFormed.points path index (by omega)
  · exact fun listed => taken table listed takes.available
  · exact takes.not_available_self

theorem copyPagetables_spec (wellFormed : info.WellFormed root) :
    Attempt info.frameAllocator (tables info.memory 4 root).length (info.copyPagetables root)
      fun pair => Copied info pair.2 root pair.1 := by
  unfold copyPagetables
  cases created : info.createPagetable with
  | error panic =>
    refine .short panic rfl [] _ .nil ?_ (createPagetable_error created)
    simp [tables_succ]
  | ok pair =>
    obtain ⟨table, middle⟩ := pair
    obtain ⟨frameAllocator, takes, rfl⟩ := createPagetable_ok created
    simp only [bind, Except.bind]
    cases copySpec info.memory 3 _ root table (wellFormed.copyReady takes) (fun index => clear_same ..) with
    | short panic stopped frames after grabs fewer stuck =>
      refine .short panic (by rw [stopped]) (table :: frames) after (.cons takes grabs) ?_ stuck
      simpa [tables_succ] using fewer
    | done after returned copies =>
      obtain ⟨frames, copies⟩ := copies
      obtain ⟨mirrors, listed⟩ := copies.mirror
      refine .done (table, after) (by rw [returned]; rfl) ⟨?_, ?_, mirrors, ?_, copies.root⟩
      · rw [listed]
        exact .cons takes copies.grabs
      · rw [listed, List.length_cons, copies.count, tables_succ, List.length_cons]
      · intro frame unlisted
        rw [listed, List.mem_cons, not_or] at unlisted
        rw [copies.others frame unlisted.1 unlisted.2]
        exact clear_table _ unlisted.1

theorem copied_of_copyPagetables {table : Nat} {after : MemoryInfo} (wellFormed : info.WellFormed root)
    (returned : info.copyPagetables root = .ok (table, after)) : Copied info after root table := by
  cases copyPagetables_spec wellFormed with
  | short panic stopped => cases stopped.symm.trans returned
  | done pair finished copied =>
    cases finished.symm.trans returned
    exact copied

end CopyPagetables

end MemoryInfo

/-- The hardware's walk along a virtual address: the flags of the entry at each
level it reaches, and the frame of the page, if there is one. -/
def walk (memory : Memory Nat 512 PageTableEntry) (table : Nat) :
    List (Fin 512) → List PageTableFlags × Option Nat
  | [] => ([], some table)
  | index :: rest =>
    let entry := memory table index
    if ¬ entry.flags.contains present then ([entry.flags], none)
    else if entry.flags.contains hugePage ∧ rest ≠ [] then ([entry.flags], some entry.addr)
    else ((entry.flags :: (walk memory entry.addr rest).1), (walk memory entry.addr rest).2)

namespace VirtAddr

def indices (addr : VirtAddr) : List (Fin 512) := path addr ++ [p1Index addr]

end VirtAddr

section Walk

variable {memory copy : Memory Nat 512 PageTableEntry} {source target : Nat}

theorem walk_mirrors {indices : List (Fin 512)}
    (mirrors : Mirrors MemoryInfo.SameFlags memory copy indices.length source target)
    (reached : indices = [] → source = target) : walk copy target indices = walk memory source indices := by
  induction indices generalizing source target with
  | nil => rw [walk, walk, reached rfl]
  | cons index rest ih =>
    obtain ⟨leaf, inner⟩ := mirrors index
    cases points : next (memory source index) with
    | none =>
      have same := leaf (.inr points)
      rw [walk, walk, same]
      by_cases held : (memory source index).flags.contains present = true
      · have huge : (memory source index).flags.contains hugePage = true := by
          by_contra small
          rw [PageTableEntry.next_eq_some_iff.mpr ⟨PageTableEntry.ne_zero_of_contains held,
            by simpa using small, rfl⟩] at points
          cases points
        cases rest with
        | nil => simp [walk]
        | cons position rest => simp [held, huge]
      · simp [held]
    | some child =>
      obtain ⟨_, small, rfl⟩ := PageTableEntry.next_eq_some_iff.mp points
      by_cases last : rest = []
      · subst last
        have same := leaf (.inl rfl)
        rw [walk, walk, same]
        simp [walk]
      · obtain ⟨twin, leads, alike, below⟩ := inner _ (by simpa using last) points
        obtain ⟨_, _, rfl⟩ := PageTableEntry.next_eq_some_iff.mp leads
        have deeper := ih below fun absurd_nil => absurd absurd_nil last
        have flags : (copy target index).flags = (memory source index).flags := alike
        rw [walk, walk, flags, deeper]
        simp [small]

end Walk

namespace MemoryInfo

/-- What the copy of a page table should be: every address translates alike, the
new tables are distinct frames that were free, and all else is unchanged. -/
structure FaithfulCopy (before after : MemoryInfo) (root table : Nat) : Prop where
  translates : ∀ addr : VirtAddr, walk after.memory table addr.indices = walk before.memory root addr.indices
  distinct : (tables after.memory 4 table).Nodup
  free : ∀ frame ∈ tables after.memory 4 table, before.frameAllocator.Available frame
  source : ∀ frame ∈ tables before.memory 4 root, after.memory frame = before.memory frame
  others : ∀ frame, frame ∉ tables after.memory 4 table → after.memory frame = before.memory frame

theorem Copied.faithful {info after : MemoryInfo} {root table : Nat} (wellFormed : info.WellFormed root)
    (copied : Copied info after root table) : FaithfulCopy info after root table where
  translates addr := walk_mirrors copied.mirrors fun absurd => nomatch absurd
  distinct := copied.grabs.nodup
  free _ listed := copied.grabs.available listed
  source := by
    intro frame listed
    refine copied.others frame fun made => ?_
    exact wellFormed.taken frame (mem_tables.mp listed) (copied.grabs.available made)
  others := copied.others

/-- `copy_pagetables` returns a faithful copy exactly when the usable frames from
the cursor on, as many as the source has tables, are free. -/
theorem copy_pagetables_iff {info : MemoryInfo} {root : Nat} (wellFormed : info.WellFormed root) :
    (∃ table after, info.copyPagetables root = .ok (table, after) ∧ FaithfulCopy info after root table) ↔
      info.frameAllocator.CursorReady (tables info.memory 4 root).length := by
  cases copyPagetables_spec wellFormed with
  | done pair returned copied =>
    refine ⟨fun _ => ?_, fun _ => ⟨pair.1, pair.2, returned, copied.faithful wellFormed⟩⟩
    rw [← copied.count]
    exact copied.grabs.cursorReady
  | short panic stopped frames after grabs fewer stuck =>
    constructor
    · rintro ⟨table, copy, returned, _⟩
      rw [stopped] at returned
      cases returned
    · intro ready
      obtain ⟨all, last, whole, enough⟩ := ready.grabs
      exact absurd stuck (grabs.not_stuck whole (by omega))

section Examples

private def regions : List MemoryRegion := [⟨0, 0x10000, .reserved⟩, ⟨0x10000, 0x13000, .usable⟩]

def emptyInfo (frameAllocator : PageFrameAllocator) : MemoryInfo := ⟨fun _ _ => 0, frameAllocator, 1⟩

theorem entryAt_emptyInfo (frameAllocator : PageFrameAllocator) (path : List (Fin 512))
    (index : Fin 512) : entryAt (emptyInfo frameAllocator).memory 1 path index = 0 := by
  unfold entryAt
  split <;> rfl

theorem tables_emptyInfo (frameAllocator : PageFrameAllocator) :
    tables (emptyInfo frameAllocator).memory 4 1 = [1] := by
  rw [tables_succ, List.flatMap_eq_nil_iff.mpr fun index _ => tablesBelow_none ?_]
  exact TableEntry.next_zero

theorem wellFormed_emptyInfo {frameAllocator : PageFrameAllocator}
    (outside : 1 ∉ frameAllocator.usableFrames) : (emptyInfo frameAllocator).WellFormed 1 where
  taken := by
    intro table listed
    rw [← mem_tables, tables_emptyInfo, List.mem_singleton] at listed
    subst listed
    exact fun available => outside available.1
  points := by
    intro path index _ child found
    rw [entryAt_emptyInfo] at found
    cases found

/-- Tables in frames 1 to 5, with a huge leaf under slot 8 and a page in frame 6 under
slot 136. -/
private def sampleMemory : Memory Nat 512 PageTableEntry := fun frame index =>
  if frame = 1 ∧ index = 8 then .setAddr 2 (present ||| writable)
  else if frame = 2 ∧ index = 0 then .setAddr 0 (present ||| writable ||| hugePage)
  else if frame = 1 ∧ index = 136 then .setAddr 3 (present ||| writable)
  else if frame = 3 ∧ index = 1 then .setAddr 4 (present ||| writable)
  else if frame = 4 ∧ index = 2 then .setAddr 5 (present ||| writable)
  else if frame = 5 ∧ index = 3 then .setAddr 6 (present ||| writable)
  else 0

private def sampleInfo : MemoryInfo := ⟨sampleMemory, .init [⟨0x10000, 0x20000, .usable⟩], 1⟩

private theorem tables_sampleMemory : tables sampleMemory 4 1 = [1, 2, 3, 4, 5] := by decide +kernel

private theorem sampleMemory_present (frame : Nat) (index : Fin 512) :
    sampleMemory frame index = 0 ∨ (sampleMemory frame index).flags.contains present = true := by
  unfold sampleMemory
  repeat' split
  all_goals first
    | exact .inr (by decide)
    | exact .inl rfl

private theorem wellFormed_sampleInfo : sampleInfo.WellFormed 1 where
  taken table listed := by
    have frames : table ∈ [1, 2, 3, 4, 5] := tables_sampleMemory ▸ mem_tables.mpr listed
    have low : table < 16 := by
      simp only [List.mem_cons, List.not_mem_nil, or_false] at frames
      omega
    rintro ⟨usable, _⟩
    have least : ∀ frame ∈ sampleInfo.frameAllocator.usableFrames, 16 ≤ frame := by decide
    exact absurd (least table usable) (by omega)
  points path index _ child leads := by
    cases found : tableAt sampleMemory 1 path with
    | none =>
      have unused : entryAt sampleInfo.memory 1 path index = 0 := entryAt_of_none found
      rw [unused] at leads
      cases leads
    | some table =>
      have same : entryAt sampleInfo.memory 1 path index = sampleMemory table index := entryAt_of_tableAt found
      rw [same] at leads ⊢
      refine (sampleMemory_present table index).resolve_left fun unused => ?_
      rw [unused] at leads
      cases leads

/-- Five tables with leaves of both kinds, copied into frames 16 to 20. -/
theorem copy_pagetables_iff_sample : (walk sampleMemory 1 [136, 1, 2, 3]).2 = some 6 ∧
    (walk sampleMemory 1 [8, 0, 7, 7]).2 = some 0 ∧
    ∃ table after, sampleInfo.copyPagetables 1 = .ok (table, after) ∧ FaithfulCopy sampleInfo after 1 table := by
  refine ⟨by decide, by decide, (copy_pagetables_iff wellFormed_sampleInfo).mpr ?_⟩
  have count : tables sampleInfo.memory 4 1 = [1, 2, 3, 4, 5] := tables_sampleMemory
  rw [count]
  decide

/-- Frame 16 is free and one frame is enough, but the allocator's cursor is past
it, so the copy of an empty table panics. -/
theorem copy_panics_with_free_frame : ∃ frameAllocator : PageFrameAllocator,
    Transition.Run PageFrameAllocator.Step (.init regions)
      [.allocate, .allocate, .allocate, .deallocate 16] frameAllocator ∧
    (emptyInfo frameAllocator).WellFormed 1 ∧
    (tables (emptyInfo frameAllocator).memory 4 1).length ≤
      (frameAllocator.usableFrames.filter fun frame => !frameAllocator.frameUsage frame).length ∧
    (emptyInfo frameAllocator).copyPagetables 1 = .error .unwrapNone := by
  refine ⟨_, .cons (.allocate rfl) (.cons (.allocate rfl) (.cons (.allocate rfl)
    (.cons (.deallocate rfl) .nil))), wellFormed_emptyInfo (by decide), ?_, rfl⟩
  rw [tables_emptyInfo]
  decide

end Examples

end MemoryInfo

end Zephyr
