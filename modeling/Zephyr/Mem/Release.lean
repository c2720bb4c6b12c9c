import Zephyr.Radix.Traversal
import Zephyr.Mem.Pages

/-! What `free_user_pagetables` gives back: every table of the tree, and the frame of
every leaf that is present, writable and user-accessible. -/

namespace Zephyr

open Radix PageTableFlags

namespace PageFrameAllocator

/-- Some frames inside the usage table are marked free. -/
structure Frees (before after : PageFrameAllocator) (freed : Nat → Prop) : Prop where
  usable : after.usableFrames = before.usableFrames
  usage : ∀ frame, after.frameUsage frame = true ↔
    before.frameUsage frame = true ∧ ¬ (frame < frameUsageLen ∧ freed frame)

section Frees

variable {before middle after : PageFrameAllocator} {first second freed : Nat → Prop}

theorem Frees.none (nothing : ∀ frame, ¬ freed frame) : Frees before before freed where
  usable := rfl
  usage frame := by simp [nothing frame]

theorem Frees.trans (one : Frees before middle first) (two : Frees middle after second)
    (joined : ∀ frame, freed frame ↔ first frame ∨ second frame) : Frees before after freed where
  usable := two.usable.trans one.usable
  usage frame := by
    rw [two.usage, one.usage, joined]
    tauto

theorem Frees.congr (frees : Frees before after first) (same : ∀ frame, freed frame ↔ first frame) :
    Frees before after freed where
  usable := frees.usable
  usage frame := by rw [frees.usage, same]

theorem frees_deallocateFrame (frame : Nat) : Frees before (before.deallocateFrame frame) (· = frame) where
  usable := usableFrames_deallocateFrame
  usage other := by
    unfold deallocateFrame
    split
    · rename_i inside
      by_cases same : other = frame
      · simp [same, inside]
      · simp [same]
    · rename_i outside
      refine ⟨fun used => ⟨used, ?_⟩, And.left⟩
      rintro ⟨inside, rfl⟩
      exact outside inside

theorem frees_foldlM {α : Type} (before : PageFrameAllocator) {body : PageFrameAllocator → α → Except Panic PageFrameAllocator}
    {round : α → Nat → Prop} {items : List α}
    (each : ∀ item ∈ items, ∀ before, ∃ after, body before item = .ok after ∧ Frees before after (round item)) :
    ∃ after, items.foldlM body before = .ok after ∧
      Frees before after fun frame => ∃ item ∈ items, round item frame := by
  induction items generalizing before with
  | nil => exact ⟨before, rfl, .none fun _ => by simp⟩
  | cons item items ih =>
    obtain ⟨middle, stepped, one⟩ := each item (List.mem_cons_self ..) before
    obtain ⟨after, finished, rest⟩ := ih middle fun other listed =>
      each other (List.mem_cons_of_mem _ listed)
    refine ⟨after, ?_, one.trans rest fun frame => by simp⟩
    rw [List.foldlM_cons, stepped]
    exact finished

end Frees

end PageFrameAllocator

open PageFrameAllocator (Frees frees_deallocateFrame frees_foldlM)

namespace MemoryInfo

/-- A leaf entry that `free_pages_rec` gives the frame of back. -/
def UserPage (frame below : Nat) (entry : PageTableEntry) : Prop :=
  (below = 0 ∨ next entry = none) ∧ entry.flags.contains userPage = true ∧ entry.addr = frame

/-- A leaf entry at which `free_pages_rec` would panic. -/
def HugeUserPage (below : Nat) (entry : PageTableEntry) : Prop :=
  (below = 0 ∨ next entry = none) ∧ entry.flags.contains userPage = true ∧
    entry.flags.contains hugePage = true

/-- The frames a tree is made of and gives back. -/
def Released (memory : Memory Nat 512 PageTableEntry) (levels root frame : Nat) : Prop :=
  frame ∈ tables memory levels root ∨ SomeEntry (UserPage frame) memory levels root

def ReleasedBelow (memory : Memory Nat 512 PageTableEntry) (levels table : Nat) (index : Fin 512)
    (frame : Nat) : Prop :=
  UserPage frame levels (memory table index) ∨
    ∃ child, next (memory table index) = some child ∧ Released memory levels child frame

section Release

variable {memory : Memory Nat 512 PageTableEntry} {level table frame : Nat}

theorem contains_present_of_userPage {flags : PageTableFlags} (held : flags.contains userPage = true) :
    flags.contains present = true := by
  rw [userPage, contains_or, contains_or] at held
  exact held.1.1

theorem ne_zero_of_userPage {entry : PageTableEntry} (held : entry.flags.contains userPage = true) :
    entry ≠ 0 :=
  PageTableEntry.ne_zero_of_contains (contains_present_of_userPage held)

theorem not_userPage_zero (below : Nat) : ¬ UserPage frame below 0 :=
  fun held => ne_zero_of_userPage held.2.1 rfl

theorem not_hugeUserPage_zero (below : Nat) : ¬ HugeUserPage below 0 :=
  fun held => ne_zero_of_userPage held.2.1 rfl

/-- A tree's frames: its root, and for each entry its page or the frames below. -/
theorem released_succ : Released memory (level + 1) table frame ↔
    frame = table ∨ ∃ index, ReleasedBelow memory level table index frame := by
  unfold ReleasedBelow Released
  rw [someEntry_succ not_userPage_zero, tables_succ, List.mem_cons, List.mem_flatMap]
  constructor
  · rintro ((rfl | ⟨index, _, below⟩) | ⟨index, page | ⟨child, points, inner⟩⟩)
    · exact .inl rfl
    · cases points : next (memory table index) with
      | none => simp [tablesBelow_none points] at below
      | some child =>
        rw [tablesBelow_some points] at below
        exact .inr ⟨index, .inr ⟨child, points, .inl below⟩⟩
    · exact .inr ⟨index, .inl page⟩
    · exact .inr ⟨index, .inr ⟨child, points, .inr inner⟩⟩
  · rintro (rfl | ⟨index, page | ⟨child, points, below | inner⟩⟩)
    · exact .inl (.inl rfl)
    · exact .inr ⟨index, .inl page⟩
    · refine .inl (.inr ⟨index, List.mem_finRange index, ?_⟩)
      rwa [tablesBelow_some points]
    · exact .inr ⟨index, .inr ⟨child, points, inner⟩⟩

def ReleaseSpec (memory : Memory Nat 512 PageTableEntry) (level : Nat) : Prop :=
  ∀ table frameAllocator, ¬ SomeEntry HugeUserPage memory level table →
    ∃ after, freePagesRec memory level frameAllocator table = .ok after ∧
      Frees frameAllocator after (Released memory level table)

theorem freeEntry_spec (deeper : level ≠ 0 → ReleaseSpec memory level)
    (plain : ¬ SomeEntry HugeUserPage memory (level + 1) table) (index : Fin 512)
    (frameAllocator : PageFrameAllocator) :
    ∃ after, freeEntry (level + 1) (freePagesRec memory level) memory table frameAllocator index = .ok after ∧
      Frees frameAllocator after (ReleasedBelow memory level table index) := by
  rw [someEntry_succ not_hugeUserPage_zero, not_exists] at plain
  have leafless := not_or.mp (plain index)
  by_cases unused : memory table index = 0
  · refine ⟨frameAllocator, by simp [freeEntry, unused, PageTableEntry.isUnused], .none ?_⟩
    rintro frame (page | ⟨child, points, _⟩)
    · rw [unused] at page
      exact not_userPage_zero level page
    · rw [unused] at points
      cases points
  by_cases leaf : level = 0 ∨ (memory table index).flags.contains hugePage = true
  · have bottom : level = 0 ∨ next (memory table index) = none :=
      leaf.imp id PageTableEntry.next_eq_none_of_huge
    have childless : ∀ frame, ¬ ∃ child, next (memory table index) = some child ∧
        Released memory level child frame := by
      rintro frame ⟨child, points, inner⟩
      rcases bottom with rfl | empty
      · simp [Released, tables, SomeEntry] at inner
      · cases points.symm.trans empty
    by_cases user : (memory table index).flags.contains userPage = true
    · have small : (memory table index).flags.contains hugePage = false := by
        by_contra huge
        exact leafless.1 ⟨bottom, user, by simpa using huge⟩
      have frame : (memory table index).frame = .ok (memory table index).addr := by
        simp [PageTableEntry.frame, contains_present_of_userPage user, small]
      refine ⟨frameAllocator.deallocateFrame (memory table index).addr, ?_, ?_⟩
      · simp [freeEntry, PageTableEntry.isUnused, unused, leaf, user, frame]
      · refine (frees_deallocateFrame _).congr fun frame => ?_
        rw [ReleasedBelow, or_iff_left (childless frame)]
        exact ⟨fun page => page.2.2.symm, fun same => ⟨bottom, user, same.symm⟩⟩
    · refine ⟨frameAllocator, by simp [freeEntry, PageTableEntry.isUnused, unused, leaf, user], .none ?_⟩
      rintro frame (page | inner)
      · exact user page.2.1
      · exact childless frame inner
  · rw [not_or] at leaf
    have points : next (memory table index) = some (memory table index).addr :=
      PageTableEntry.next_eq_some_iff.mpr ⟨unused, by simpa using leaf.2, rfl⟩
    obtain ⟨after, finished, frees⟩ := deeper leaf.1 (memory table index).addr frameAllocator fun huge =>
      leafless.2 ⟨_, points, huge⟩
    refine ⟨after, by simpa [freeEntry, PageTableEntry.isUnused, unused, leaf] using finished, ?_⟩
    refine frees.congr fun frame => ?_
    constructor
    · rintro (page | ⟨child, leads, inner⟩)
      · rcases page.1 with last | empty
        · exact absurd last leaf.1
        · cases points.symm.trans empty
      · cases points.symm.trans leads
        exact inner
    · exact fun inner => .inr ⟨_, points, inner⟩

theorem releaseSpec_succ (deeper : level ≠ 0 → ReleaseSpec memory level) : ReleaseSpec memory (level + 1) := by
  intro table frameAllocator plain
  have each : ∀ index ∈ List.finRange 512, ∀ before, ∃ after,
      freeEntry (level + 1) (freePagesRec memory level) memory table before index = .ok after ∧
        Frees before after (ReleasedBelow memory level table index) :=
    fun index _ before => freeEntry_spec deeper plain index before
  obtain ⟨middle, looped, entries⟩ := frees_foldlM frameAllocator each
  refine ⟨middle.deallocateFrame table, ?_, ?_⟩
  · rw [freePagesRec, looped]
    rfl
  · refine entries.trans (frees_deallocateFrame table) fun frame => ?_
    rw [released_succ, or_comm]
    simp

/-- `free_pages_rec` returns and frees the tree. -/
theorem releaseSpec (memory : Memory Nat 512 PageTableEntry) (level : Nat) : ReleaseSpec memory (level + 1) := by
  induction level with
  | zero => exact releaseSpec_succ fun nonzero => absurd rfl nonzero
  | succ level ih => exact releaseSpec_succ fun _ => ih

theorem freeUserPagetables_spec (info : MemoryInfo) {root : Nat}
    (plain : ¬ SomeEntry HugeUserPage info.memory 4 root) :
    ∃ frameAllocator, info.freeUserPagetables root = .ok { info with frameAllocator } ∧
      Frees info.frameAllocator frameAllocator (Released info.memory 4 root) := by
  obtain ⟨frameAllocator, finished, frees⟩ := releaseSpec info.memory 3 root info.frameAllocator plain
  refine ⟨frameAllocator, ?_, frees⟩
  rw [freeUserPagetables, finished]
  rfl

end Release

end MemoryInfo

end Zephyr
