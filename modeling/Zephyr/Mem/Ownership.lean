import Zephyr.Mem.Release

/-! The frames one page-table tree owns, kept through every change the source makes
to it: an allocation, an edit above level 1, a page entered at level 1, and a stack
page cleared. -/

namespace Zephyr

open Radix PageTableFlags
open PageFrameAllocator (Grabs Frees frees_deallocateFrame)

namespace MemoryInfo

/-- The tree at `root` owns its tables and its user pages, all away from the
`foreign` frames, which cannot be allocated; `pending` frames are allocated for it
and not yet entered. -/
structure Owns (foreign : Nat → Prop) (root : Nat) (pending : List Nat) (info : MemoryInfo) : Prop where
  sound : info.Sound root
  tables : ∀ table ∈ tableSet 4 info.memory root, info.frameAllocator.frameUsage table = true ∧
    ¬ foreign table ∧ table < frameUsageLen ∧ table ∉ pending
  pages : ∀ frame, SomeEntry (UserPage frame) info.memory 4 root → ¬ foreign frame ∧ frame < frameUsageLen
  plain : ¬ SomeEntry HugeUserPage info.memory 4 root
  held : ∀ frame ∈ pending, info.frameAllocator.frameUsage frame = true ∧ ¬ foreign frame ∧
    frame < frameUsageLen
  shut : ∀ frame, foreign frame → ¬ info.frameAllocator.Available frame

/-- A user page entered at level 1 over an entry that was none. -/
structure Fills (root : Nat) (before after : MemoryInfo) (path : List (Fin 512)) (index : Fin 512)
    (frame : Nat) : Prop where
  last : path.length = 3
  old : (entryAt before.memory root path index).flags.contains userPage = false
  edited : Edited root before after path index (.setAddr frame userPage) []

/-- A level-1 entry emptied of its flags, its frame given back if it was writable. -/
structure Clears (root : Nat) (before after : MemoryInfo) (path : List (Fin 512)) (index : Fin 512) :
    Prop where
  last : path.length = 3
  rewrites : Rewrites 4 before.memory after.memory root path index
    ((entryAt before.memory root path index).setFlags 0)
  unshared : Unshared 4 after.memory root
  tables : tableSet 4 after.memory root = tableSet 4 before.memory root
  others : ∀ other, other ∉ tableSet 4 before.memory root → after.memory other = before.memory other
  frees : Frees before.frameAllocator after.frameAllocator fun frame =>
    (entryAt before.memory root path index).flags.contains writable = true ∧
      (entryAt before.memory root path index).addr = frame
  kernel : after.kernelPageTables = before.kernelPageTables

section Edits

variable {foreign : Nat → Prop} {root frame table : Nat} {pending : List Nat} {before after info : MemoryInfo}
variable {path : List (Fin 512)} {index : Fin 512}

theorem Extends.sameAllocator (extended : Extends root before after []) :
    after.frameAllocator = before.frameAllocator :=
  extended.grabs.eq_of_nil

theorem Fills.tables (fills : Fills root before after path index frame) :
    tableSet 4 after.memory root = tableSet 4 before.memory root := by
  ext table
  rw [fills.edited.tables]
  simp

theorem userPage_setAddr (bounded : frame < frameUsageLen) :
    (PageTableEntry.setAddr frame userPage).flags = userPage ∧
      (PageTableEntry.setAddr frame userPage).addr = frame :=
  ⟨PageTableEntry.flags_setAddr (lt_of_frameUsageLen bounded) tableFlags_userPage.clean,
    PageTableEntry.addr_setAddr (lt_of_frameUsageLen bounded) tableFlags_userPage.clean⟩

theorem Fills.someEntry (fills : Fills root before after path index frame) (bounded : frame < frameUsageLen) :
    SomeEntry (UserPage frame) after.memory 4 root := by
  have short : path.length < 4 := by
    have last := fills.last
    omega
  obtain ⟨flags, addr⟩ := userPage_setAddr bounded
  refine ⟨path, index, short, .inl (by rw [fills.last]), ?_, ?_⟩
  · rw [fills.edited.rewrites index short, if_pos ⟨rfl, rfl⟩, flags]
    decide
  · rw [fills.edited.rewrites index short, if_pos ⟨rfl, rfl⟩, addr]

theorem Fills.someEntry_kept {number : Nat} (fills : Fills root before after path index frame)
    (found : SomeEntry (UserPage number) before.memory 4 root) :
    SomeEntry (UserPage number) after.memory 4 root := by
  refine fills.edited.rewrites.someEntry_kept (fun page => ?_) found
  cases page.2.1.symm.trans fills.old

theorem Widens.someEntry {holds : Nat → PageTableEntry → Prop} {flags : PageTableFlags}
    {entry : PageTableEntry} {child : Nat} {new : List Nat}
    (widens : Widens root flags before after path index entry child new)
    (leaf : ∀ below entry, holds below entry → entry ≠ 0 ∧ (below = 0 ∨ next entry = none)) :
    SomeEntry holds after.memory 4 root ↔ SomeEntry holds before.memory 4 root := by
  have inner : ¬ 4 - 1 - path.length = 0 := by
    have upper := widens.upper
    omega
  constructor
  · intro found
    refine (widens.edited.rewrites.someEntry found).resolve_left fun held => ?_
    have empty := (leaf _ _ held).2.resolve_left inner
    cases widens.leads.symm.trans empty
  · intro found
    refine widens.edited.rewrites.someEntry_kept (fun held => ?_) found
    obtain ⟨used, bottom⟩ := leaf _ _ held
    rcases widens.origin with ⟨unused, _⟩ | ⟨points, _⟩
    · exact used unused
    · cases points.symm.trans (bottom.resolve_left inner)

theorem userPage_leaf {below : Nat} {entry : PageTableEntry} (page : UserPage frame below entry) :
    entry ≠ 0 ∧ (below = 0 ∨ next entry = none) :=
  ⟨ne_zero_of_userPage page.2.1, page.1⟩

theorem hugeUserPage_leaf {below : Nat} {entry : PageTableEntry} (page : HugeUserPage below entry) :
    entry ≠ 0 ∧ (below = 0 ∨ next entry = none) :=
  ⟨ne_zero_of_userPage page.2.1, page.1⟩

theorem Clears.someEntry {number : Nat} (clears : Clears root before after path index)
    (found : SomeEntry (UserPage number) after.memory 4 root) :
    SomeEntry (UserPage number) before.memory 4 root := by
  refine (clears.rewrites.someEntry found).resolve_left fun page => ?_
  have flags := page.2.1
  rw [PageTableEntry.flags_setFlags (by decide)] at flags
  revert flags
  decide

end Edits

section Owns

variable {foreign : Nat → Prop} {root frame table : Nat} {pending : List Nat} {before after info : MemoryInfo}
variable {path : List (Fin 512)} {index : Fin 512}

theorem Owns.takes {frameAllocator : PageFrameAllocator} (owns : Owns foreign root pending info)
    (takes : info.frameAllocator.Takes frame frameAllocator) :
    Owns foreign root (frame :: pending) { info with frameAllocator } := by
  have free := takes.available.2
  have differs : ∀ {other}, info.frameAllocator.frameUsage other = true → other ≠ frame := by
    rintro other used rfl
    rw [free] at used
    cases used
  have still : ∀ {other}, info.frameAllocator.frameUsage other = true → frameAllocator.frameUsage other = true :=
    fun used => (takes.frameUsage _).mpr (.inr used)
  refine ⟨owns.sound.takes takes, ?_, owns.pages, owns.plain, ?_, ?_⟩
  · intro table listed
    obtain ⟨used, own, bounded, entered⟩ := owns.tables table listed
    refine ⟨still used, own, bounded, ?_⟩
    rw [List.mem_cons, not_or]
    exact ⟨differs used, entered⟩
  · intro other listed
    cases listed with
    | head =>
      exact ⟨(takes.frameUsage frame).mpr (.inl rfl), fun strange => owns.shut frame strange takes.available,
        takes.bounded⟩
    | tail _ listed =>
      obtain ⟨used, own, bounded⟩ := owns.held other listed
      exact ⟨still used, own, bounded⟩
  · exact fun other strange => takes.not_available (owns.shut other strange)

theorem Owns.widens {flags : PageTableFlags} {entry : PageTableEntry} {child : Nat} {new : List Nat}
    (owns : Owns foreign root pending before)
    (widens : Widens root flags before after path index entry child new) :
    Owns foreign root pending after := by
  have grabs := widens.edited.grabs
  have still : ∀ {other}, before.frameAllocator.frameUsage other = true →
      after.frameAllocator.frameUsage other = true := fun used => (grabs.frameUsage _).mpr (.inr used)
  refine ⟨widens.edited.sound, ?_, ?_, ?_, ?_, ?_⟩
  · intro table listed
    rcases (widens.edited.tables table).mp listed with made | listed
    · have free := grabs.available made
      refine ⟨(grabs.frameUsage table).mpr (.inl made), fun strange => owns.shut table strange free,
        grabs.bounded made, fun waiting => ?_⟩
      cases (owns.held table waiting).1.symm.trans free.2
    · obtain ⟨used, own, bounded, entered⟩ := owns.tables table listed
      exact ⟨still used, own, bounded, entered⟩
  · intro frame found
    exact owns.pages frame ((widens.someEntry fun _ _ => userPage_leaf).mp found)
  · rw [widens.someEntry fun _ _ => hugeUserPage_leaf]
    exact owns.plain
  · intro frame listed
    obtain ⟨used, own, bounded⟩ := owns.held frame listed
    exact ⟨still used, own, bounded⟩
  · exact fun frame strange => grabs.not_available (owns.shut frame strange)

theorem Owns.fills (owns : Owns foreign root pending before)
    (fills : Fills root before after path index frame) (waiting : frame ∈ pending) :
    Owns foreign root pending after := by
  obtain ⟨used, own, bounded⟩ := owns.held frame waiting
  obtain ⟨flags, addr⟩ := userPage_setAddr bounded
  have same := fills.edited.sameAllocator
  refine ⟨fills.edited.sound, ?_, ?_, ?_, ?_, ?_⟩
  · rw [fills.tables, same]
    exact owns.tables
  · intro number found
    rcases fills.edited.rewrites.someEntry found with page | found
    · rw [← page.2.2, addr]
      exact ⟨own, bounded⟩
    · exact owns.pages number found
  · intro found
    rcases fills.edited.rewrites.someEntry found with page | found
    · have huge := page.2.2
      rw [flags] at huge
      cases huge
    · exact owns.plain found
  · rw [same]
    exact owns.held
  · rw [same]
    exact owns.shut

/-- Frames entered in the tree need not be kept apart as pending. -/
theorem Owns.settle (owns : Owns foreign root pending info) {fewer : List Nat} (kept : fewer ⊆ pending) :
    Owns foreign root fewer info where
  sound := owns.sound
  tables table listed := by
    obtain ⟨used, own, bounded, entered⟩ := owns.tables table listed
    exact ⟨used, own, bounded, fun waiting => entered (kept waiting)⟩
  pages := owns.pages
  plain := owns.plain
  held frame listed := owns.held frame (kept listed)
  shut := owns.shut

theorem Owns.clears (owns : Owns foreign root pending before) (clears : Clears root before after path index)
    (user : (entryAt before.memory root path index).flags.contains writable = true →
      (entryAt before.memory root path index).flags.contains userPage = true)
    (leaf : (entryAt before.memory root path index).flags.contains writable = true →
      (entryAt before.memory root path index).addr ∉ tableSet 4 before.memory root ∧
      (entryAt before.memory root path index).addr ∉ pending) :
    Owns foreign root pending after := by
  have short : path.length < 4 := by
    have last := clears.last
    omega
  have still : ∀ {other}, before.frameAllocator.frameUsage other = true →
      (other ∈ tableSet 4 before.memory root ∨ other ∈ pending) →
      after.frameAllocator.frameUsage other = true := by
    intro other used kept
    refine (clears.frees.usage other).mpr ⟨used, ?_⟩
    rintro ⟨_, written, rfl⟩
    obtain ⟨tables, entered⟩ := leaf written
    exact kept.elim tables entered
  have shut : ∀ frame, foreign frame → ¬ after.frameAllocator.Available frame := by
    rintro frame strange ⟨usable, free⟩
    rw [clears.frees.usable] at usable
    refine owns.shut frame strange ⟨usable, ?_⟩
    by_contra used
    have given : ¬ after.frameAllocator.frameUsage frame = true := by simp [free]
    rw [clears.frees.usage, not_and, not_not] at given
    obtain ⟨_, written, rfl⟩ := given (by simpa using used)
    refine (owns.pages _ ⟨path, index, short, .inl (by rw [clears.last]), user written, rfl⟩).1 strange
  refine ⟨⟨clears.unshared, ?_⟩, ?_, ?_, ?_, ?_, shut⟩
  · intro table listed
    rw [clears.tables] at listed
    rintro ⟨_, free⟩
    rw [still (owns.tables table listed).1 (.inl listed)] at free
    cases free
  · intro table listed
    rw [clears.tables] at listed
    obtain ⟨used, own, bounded, entered⟩ := owns.tables table listed
    exact ⟨still used (.inl listed), own, bounded, entered⟩
  · exact fun frame found => owns.pages frame (clears.someEntry found)
  · intro found
    refine owns.plain ((clears.rewrites.someEntry found).resolve_left fun page => ?_)
    have flags := page.2.1
    rw [PageTableEntry.flags_setFlags (by decide)] at flags
    revert flags
    decide
  · intro frame listed
    obtain ⟨used, own, bounded⟩ := owns.held frame listed
    exact ⟨still used (.inr listed), own, bounded⟩

end Owns

end MemoryInfo

end Zephyr
