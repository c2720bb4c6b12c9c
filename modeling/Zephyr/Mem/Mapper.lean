import Zephyr.Mem.Edits
import Mathlib.Logic.Relation

/-! The mapper of the `x86_64` crate. What `mem/memory.rs` relies on is stated as the
laws of `Mapper`: the frames of new tables come from the given allocator, the entry
and flags set are exactly those given. `offsetPageTable` follows the crate's
`OffsetPageTable` and keeps the laws. -/

namespace Zephyr

open Radix PageTableFlags
open PageFrameAllocator (Grabs)

inductive MapToError where
  | frameAllocationFailed
  | parentEntryHugePage
  | pageAlreadyMapped
  deriving DecidableEq, Repr

inductive FlagUpdateError where
  | pageNotMapped
  | parentEntryHugePage
  deriving DecidableEq, Repr

namespace MemoryInfo

/-- What mapping a page may do above level 1: enter new tables, and add the given
flags to entries that lead to a table. -/
inductive TableEdit (root : Nat) (flags : PageTableFlags) : MemoryInfo → MemoryInfo → Prop where
  | link {info : MemoryInfo} {path : List (Fin 512)} {index : Fin 512} {table frame : Nat}
      {frameAllocator : PageFrameAllocator} (upper : path.length < 3)
      (found : tableAt info.memory root path = some table) (unused : info.memory table index = 0)
      (takes : info.frameAllocator.Takes frame frameAllocator) :
      TableEdit root flags info (info.link frameAllocator frame table index flags)
  | raise {info : MemoryInfo} {path : List (Fin 512)} {index : Fin 512} {table child : Nat}
      (upper : path.length < 3) (found : tableAt info.memory root path = some table)
      (leads : next (info.memory table index) = some child) :
      TableEdit root flags info (info.raise table index flags)

abbrev TableEdits (root : Nat) (flags : PageTableFlags) : MemoryInfo → MemoryInfo → Prop :=
  Relation.ReflTransGen (TableEdit root flags)

/-- A page mapped to a frame: the tables on the way are there and carry the parent
flags, and the unused level-1 entry is set. -/
inductive Maps (root : Nat) (page : VirtAddr) (frame : Nat) (flags parentTableFlags : PageTableFlags)
    (before : MemoryInfo) : MemoryInfo → Prop where
  | intro {middle : MemoryInfo} {table : Nat} (edits : TableEdits root parentTableFlags before middle)
      (found : tableAt middle.memory root page.path = some table)
      (wide : ∀ stem index, stem ++ [index] <+: page.path →
        (entryAt middle.memory root stem index).flags.contains parentTableFlags = true)
      (unused : middle.memory table page.p1Index = 0) :
      Maps root page frame flags parentTableFlags before
        (middle.write table page.p1Index (.setAddr frame flags))

/-- Nothing outside the tree and the frames newly allocated has changed. -/
inductive Confined (root : Nat) (before after : MemoryInfo) : Prop where
  | intro (frames : List Nat) (grabs : Grabs before.frameAllocator frames after.frameAllocator)
      (others : ∀ frame, frame ∉ tableSet 4 before.memory root → frame ∉ frames →
        after.memory frame = before.memory frame)
      (kernel : after.kernelPageTables = before.kernelPageTables)

/-- The frame allocator has only given out frames. -/
def Draws (before after : MemoryInfo) : Prop := ∃ frames, Grabs before.frameAllocator frames after.frameAllocator

theorem Draws.refl (info : MemoryInfo) : Draws info info := ⟨[], .nil⟩

theorem Draws.trans {before middle after : MemoryInfo} (first : Draws before middle) (second : Draws middle after) :
    Draws before after := by
  obtain ⟨frames, grabs⟩ := first
  obtain ⟨more, rest⟩ := second
  exact ⟨frames ++ more, grabs.append rest⟩

end MemoryInfo

open MemoryInfo

/-- `Mapper<Size4KiB>` over the tree at a level-4 frame, with what it documents. -/
structure Mapper where
  mapToWithTableFlags : MemoryInfo → (root : Nat) → (page : VirtAddr) → (frame : Nat) →
    (flags parentTableFlags : PageTableFlags) → Except Panic (Except MapToError Unit × MemoryInfo)
  updateFlags : MemoryInfo → (root : Nat) → (page : VirtAddr) → (flags : PageTableFlags) →
    Except Panic (Except FlagUpdateError Unit × MemoryInfo)
  mapped : ∀ {info after : MemoryInfo} {root frame : Nat} {page : VirtAddr} {flags parent : PageTableFlags},
    info.Sound root → TableFlags parent →
    mapToWithTableFlags info root page frame flags parent = .ok (.ok (), after) →
    Maps root page frame flags parent info after
  refused : ∀ {info after : MemoryInfo} {root frame : Nat} {page : VirtAddr} {flags parent : PageTableFlags}
    {error : MapToError}, info.Sound root → TableFlags parent →
    mapToWithTableFlags info root page frame flags parent = .ok (.error error, after) →
    Confined root info after
  draws : ∀ {info after : MemoryInfo} {root frame : Nat} {page : VirtAddr} {flags parent : PageTableFlags}
    {result : Except MapToError Unit},
    mapToWithTableFlags info root page frame flags parent = .ok (result, after) → Draws info after
  updated : ∀ {info after : MemoryInfo} {root : Nat} {page : VirtAddr} {flags : PageTableFlags},
    updateFlags info root page flags = .ok (.ok (), after) →
    ∃ table, tableAt info.memory root page.path = some table ∧ info.memory table page.p1Index ≠ 0 ∧
      after = info.write table page.p1Index ((info.memory table page.p1Index).setFlags flags)
  unchanged : ∀ {info after : MemoryInfo} {root : Nat} {page : VirtAddr} {flags : PageTableFlags}
    {error : FlagUpdateError}, updateFlags info root page flags = .ok (.error error, after) → after = info

namespace Mapper

/-- `map_to`: the parent flags are those of the page that a table can have. -/
def mapTo (mapper : Mapper) (info : MemoryInfo) (root : Nat) (page : VirtAddr) (frame : Nat)
    (flags : PageTableFlags) : Except Panic (Except MapToError Unit × MemoryInfo) :=
  mapper.mapToWithTableFlags info root page frame flags (flags &&& userPage)

end Mapper

namespace MemoryInfo

section Edits

variable {root : Nat} {flags : PageTableFlags} {before middle after : MemoryInfo}

/-- A point update above level 1 that keeps the table below, if there was one. -/
structure Widens (root : Nat) (flags : PageTableFlags) (before after : MemoryInfo)
    (path : List (Fin 512)) (index : Fin 512) (entry : PageTableEntry) (child : Nat) (new : List Nat) :
    Prop where
  upper : path.length < 3
  leads : next entry = some child
  wide : entry.flags.contains flags = true
  grows : ∀ bits, (entryAt before.memory root path index).flags.contains bits = true →
    entry.flags.contains bits = true
  origin : (entryAt before.memory root path index = 0 ∧ new = [child]) ∨
    (next (entryAt before.memory root path index) = some child ∧ new = [])
  edited : Edited root before after path index entry new

theorem TableEdit.widens (sound : before.Sound root) (valid : TableFlags flags)
    (edit : TableEdit root flags before after) :
    ∃ path index entry child new, Widens root flags before after path index entry child new := by
  cases edit with
  | @link path index table frame frameAllocator upper found unused takes =>
    have bound := lt_of_frameUsageLen takes.bounded
    refine ⟨path, index, .setAddr frame flags, frame, [frame], upper,
      PageTableEntry.next_setAddr bound valid.clean valid.nonzero valid.small, ?_, fun bits held => ?_,
      .inl ⟨?_, rfl⟩, sound.link upper found unused takes valid⟩
    · rw [PageTableEntry.flags_setAddr bound valid.clean]
      simp [contains]
    · rw [entryAt_of_tableAt found, unused] at held
      exact PageTableEntry.contains_of_zero held
    · rw [entryAt_of_tableAt found, unused]
  | @raise path index table child upper found leads =>
    have flags_raised : ((before.memory table index).setFlags ((before.memory table index).flags ||| flags)).flags =
        (before.memory table index).flags ||| flags :=
      PageTableEntry.flags_setFlags (PageTableEntry.clean_flags.or valid.clean)
    refine ⟨path, index, _, child, [], upper, next_raise leads valid, ?_, fun bits held => ?_,
      .inr ⟨?_, rfl⟩, sound.raise (by omega) found leads valid⟩
    · rw [flags_raised]
      exact contains_or_right (by simp [contains])
    · rw [entryAt_of_tableAt found] at held
      rw [flags_raised]
      exact contains_or_left held
    · rw [entryAt_of_tableAt found, leads]

theorem TableEdits.extends (sound : before.Sound root) (valid : TableFlags flags)
    (edits : TableEdits root flags before after) : ∃ new, Extends root before after new ∧ after.Sound root := by
  induction edits with
  | refl => exact ⟨[], .refl, sound⟩
  | tail _ edit ih =>
    obtain ⟨new, first, sound⟩ := ih
    obtain ⟨_, _, _, _, more, widens⟩ := edit.widens sound valid
    exact ⟨new ++ more, first.trans widens.edited.toExtends, widens.edited.sound⟩

theorem Extends.confined {new : List Nat} (extended : Extends root before after new) :
    Confined root before after :=
  .intro new extended.grabs extended.others extended.kernel

end Edits

end MemoryInfo

end Zephyr
