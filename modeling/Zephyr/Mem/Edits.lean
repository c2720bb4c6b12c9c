import Zephyr.Mem.PageTable

/-! The changes `mem/memory.rs` and the mapper make to one page-table tree: a new
table under an unused entry, more flags on an entry above a table, and a new entry
at level 1. Each is a point update of the tree's reading. -/

namespace Zephyr

open Radix PageTableFlags
open PageFrameAllocator (Grabs)

namespace MemoryInfo

/-- A tree of distinct tables, none of them free. -/
structure Sound (info : MemoryInfo) (root : Nat) : Prop where
  unshared : Unshared 4 info.memory root
  taken : ∀ table ∈ tableSet 4 info.memory root, ¬ info.frameAllocator.Available table

/-- A zeroed table in a new frame, entered in a table above. -/
def link (info : MemoryInfo) (frameAllocator : PageFrameAllocator) (frame table : Nat) (index : Fin 512)
    (flags : PageTableFlags) : MemoryInfo :=
  { info with frameAllocator, memory := info.memory.clear frame }.write table index (.setAddr frame flags)

def raise (info : MemoryInfo) (table : Nat) (index : Fin 512) (flags : PageTableFlags) : MemoryInfo :=
  info.write table index ((info.memory table index).setFlags ((info.memory table index).flags ||| flags))

structure TableFlags (flags : PageTableFlags) : Prop where
  clean : PageTableEntry.Clean flags
  small : flags.contains hugePage = false
  nonzero : flags ≠ 0

theorem tableFlags_userPage : TableFlags userPage := by
  constructor <;> decide

section Effects

variable {info : MemoryInfo} {root table frame child : Nat} {path : List (Fin 512)} {index : Fin 512}
variable {flags : PageTableFlags} {frameAllocator : PageFrameAllocator} {entry : PageTableEntry}

theorem Sound.fresh (sound : info.Sound root) (takes : info.frameAllocator.Takes frame frameAllocator) :
    frame ∉ tableSet 4 info.memory root :=
  fun listed => sound.taken frame listed takes.available

theorem Sound.takes (sound : info.Sound root) (takes : info.frameAllocator.Takes frame frameAllocator) :
    Sound { info with frameAllocator } root where
  unshared := sound.unshared
  taken table listed := takes.not_available (sound.taken table listed)

section Clear

variable (outside : frame ∉ tableSet 4 info.memory root)

include outside in
theorem tableAt_clear (short : path.length < 4) :
    tableAt (info.memory.clear frame) root path = tableAt info.memory root path := by
  refine tableAt_frame (fun table listed => clear_table _ ?_) short.le
  rintro rfl
  exact outside listed

include outside in
theorem entryAt_clear (short : path.length < 4) :
    entryAt (info.memory.clear frame) root path index = entryAt info.memory root path index := by
  refine entryAt_frame (fun table listed => clear_table _ ?_) short
  rintro rfl
  exact outside listed

end Clear

/-- The tree has the tables it had and the new ones, and nothing else changed. -/
structure Extends (root : Nat) (before after : MemoryInfo) (new : List Nat) : Prop where
  grabs : Grabs before.frameAllocator new after.frameAllocator
  tables : ∀ table, table ∈ tableSet 4 after.memory root ↔ table ∈ new ∨ table ∈ tableSet 4 before.memory root
  others : ∀ other, other ∉ tableSet 4 before.memory root → other ∉ new →
    after.memory other = before.memory other
  kernel : after.kernelPageTables = before.kernelPageTables

/-- One edit: the tree's reading changes at one position. -/
structure Edited (root : Nat) (before after : MemoryInfo) (path : List (Fin 512)) (index : Fin 512)
    (entry : PageTableEntry) (new : List Nat) : Prop extends Extends root before after new where
  sound : after.Sound root
  rewrites : Rewrites 4 before.memory after.memory root path index entry

theorem Extends.refl : Extends root info info [] where
  grabs := .nil
  tables _ := by simp
  others _ _ _ := rfl
  kernel := rfl

theorem Extends.trans {before middle after : MemoryInfo} {new more : List Nat}
    (first : Extends root before middle new) (second : Extends root middle after more) :
    Extends root before after (new ++ more) where
  grabs := first.grabs.append second.grabs
  tables table := by
    rw [second.tables, first.tables, List.mem_append]
    tauto
  others other unowned unlisted := by
    rw [List.mem_append, not_or] at unlisted
    rw [second.others other _ unlisted.2, first.others other unowned unlisted.1]
    rw [first.tables]
    tauto
  kernel := second.kernel.trans first.kernel

theorem Sound.link (sound : info.Sound root) (upper : path.length < 3)
    (found : tableAt info.memory root path = some table) (unused : info.memory table index = 0)
    (takes : info.frameAllocator.Takes frame frameAllocator) (valid : TableFlags flags) :
    Edited root info (info.link frameAllocator frame table index flags) path index (.setAddr frame flags)
      [frame] := by
  have outside := sound.fresh takes
  have same := fun {path : List (Fin 512)} (short : path.length < 4) => tableAt_clear outside short
  have cleared : Unshared 4 (info.memory.clear frame) root := sound.unshared.congr fun path short => same short
  have kept : tableSet 4 (info.memory.clear frame) root = tableSet 4 info.memory root :=
    tableSet_congr fun path short => same short
  have points := PageTableEntry.next_setAddr (lt_of_frameUsageLen takes.bounded) valid.clean valid.nonzero
    valid.small
  have apart : table ≠ frame := by
    rintro rfl
    exact outside (mem_tableSet (by omega) found)
  have above : tableAt (info.memory.clear frame) root path = some table := by
    rw [same (by omega), found]
  have empty : next (info.memory.clear frame table index) = none := by
    rw [clear_table _ apart, unused, TableEntry.next_zero]
  have fresh : frame ∉ tableSet 4 (info.memory.clear frame) root := by
    rwa [kept]
  have blank := fun position => clear_same info.memory frame position
  have tables : tableSet 4 (info.link frameAllocator frame table index flags).memory root =
      insert frame (tableSet 4 info.memory root) := by
    rw [← kept]
    exact tableSet_write_link cleared (by omega) above empty points fresh blank
  refine ⟨⟨.cons takes .nil, ?_, ?_, rfl⟩, ⟨?_, ?_⟩, ?_⟩
  · intro other
    rw [tables, Set.mem_insert_iff, List.mem_singleton]
  · intro other unowned new
    have differs : other ≠ table := by
      rintro rfl
      exact unowned (mem_tableSet (by omega) found)
    exact (write_table _ _ _ differs).trans (clear_table _ (by simpa using new))
  · exact cleared.write_link (by omega) above empty points fresh blank
  · intro other listed
    rw [tables] at listed
    rcases listed with rfl | listed
    · exact takes.not_available_self
    · exact takes.not_available (sound.taken other listed)
  · intro other position short
    have written := rewrites_link cleared (by omega) above empty points fresh blank position short
    rwa [entryAt_clear outside short] at written

theorem Sound.write (sound : info.Sound root) (short : path.length < 4)
    (found : tableAt info.memory root path = some table)
    (same : ∀ other, other.length < 4 →
      tableAt (info.memory.write table index entry) root other = tableAt info.memory root other) :
    Edited root info (info.write table index entry) path index entry [] := by
  have tables : tableSet 4 (info.write table index entry).memory root = tableSet 4 info.memory root :=
    tableSet_congr same
  refine ⟨⟨.nil, ?_, ?_, rfl⟩, ⟨sound.unshared.congr same, ?_⟩, ?_⟩
  · intro other
    rw [tables]
    simp
  · intro other unowned _
    refine write_table _ _ _ ?_
    rintro rfl
    exact unowned (mem_tableSet short found)
  · intro other listed
    rw [tables] at listed
    exact sound.taken other listed
  · intro other position shorter
    exact entryAt_write sound.unshared short found shorter (same other shorter)

theorem Sound.writeLeaf (sound : info.Sound root) (last : path.length = 3)
    (found : tableAt info.memory root path = some table) (index : Fin 512) (entry : PageTableEntry) :
    Edited root info (info.write table index entry) path index entry [] :=
  sound.write (by omega) found fun _ shorter => tableAt_write_leaf sound.unshared (by omega) found shorter

theorem next_raise (leads : next entry = some child) (valid : TableFlags flags) :
    next (entry.setFlags (entry.flags ||| flags)) = some child := by
  obtain ⟨_, small, rfl⟩ := PageTableEntry.next_eq_some_iff.mp leads
  refine PageTableEntry.next_setAddr PageTableEntry.addr_lt (PageTableEntry.clean_flags.or valid.clean) ?_ ?_
  · intro zero
    exact valid.nonzero (BitVec.or_eq_zero_iff.mp zero).2
  · rw [contains_hugePage_or, small, valid.small]
    rfl

theorem Sound.raise (sound : info.Sound root) (short : path.length < 4)
    (found : tableAt info.memory root path = some table)
    (leads : next (info.memory table index) = some child) (valid : TableFlags flags) :
    Edited root info (info.raise table index flags) path index
      ((info.memory table index).setFlags ((info.memory table index).flags ||| flags)) [] := by
  refine sound.write short found fun other _ => tableAt_write_same ?_ other
  rw [next_raise leads valid, leads]

end Effects

end MemoryInfo

end Zephyr
