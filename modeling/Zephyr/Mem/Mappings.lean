import Zephyr.Radix.Within
import Zephyr.Mem.LifeCycle
import Zephyr.Mem.OnDemand

/-! What the functions of `mem/memory.rs` leave of a tree that had mappings before: no
leaf outside the table of the user stacks is touched, and the entries above only gain
flags. A walk that succeeded before ends at the same frame after. -/

namespace Zephyr

open Radix PageTableFlags

/-- An entry with at least the flags of another. -/
def Grows (entry wider : PageTableEntry) : Prop :=
  ∀ bits, entry.flags.contains bits = true → wider.flags.contains bits = true

theorem Grows.refl (entry : PageTableEntry) : Grows entry entry := fun _ => id

theorem Grows.trans {first second third : PageTableEntry} (one : Grows first second) (two : Grows second third) :
    Grows first third := fun bits held => two bits (one bits held)

theorem Grows.of_sameFlags {entry copy : PageTableEntry} (same : MemoryInfo.SameFlags entry copy) :
    Grows entry copy := fun bits held => by rwa [show copy.flags = entry.flags from same]

/-- The mappings of one tree are in another, the table of the user stacks aside. -/
abbrev Carries (memory : Memory Nat 512 PageTableEntry) (source : Nat) (changed : Memory Nat 512 PageTableEntry)
    (target : Nat) : Prop :=
  Within Grows (· = MemoryInfo.userStackPageIndex) 4 memory source changed target

theorem Carries.trans {memory changed last : Memory Nat 512 PageTableEntry} {source target final : Nat}
    (one : Carries memory source changed target) (two : Carries changed target last final) :
    Carries memory source last final :=
  Within.trans Grows.trans one two

/-- The frame that an access in supervisor mode reaches; write protection is on. -/
def reachSupervisor (memory : Memory Nat 512 PageTableEntry) (root : Nat) (access : Access) (addr : VirtAddr) :
    Option Nat :=
  (lookup memory root addr.indices).bind fun walked =>
    if access = .read ∨ walked.used.all fun spot => (memory spot.1 spot.2).flags.contains writable then
      some walked.frame
    else none

section Walks

open MemoryInfo (userStackPageIndex)

variable {memory changed : Memory Nat 512 PageTableEntry} {source target table twin : Nat} {walked : Walked}

/-- A walk from the table that a path leads to is taken over. -/
theorem Carries.lookup (carries : Carries memory source changed target)
    (empty : ∀ index, entryAt memory source userStackPageIndex index = 0) {stem indices : List (Fin 512)}
    (whole : stem.length + indices.length = 4) (further : indices ≠ []) (above : tableAt memory source stem = some table)
    (beside : tableAt changed target stem = some twin) (found : Zephyr.lookup memory table indices = some walked) :
    ∃ again, Zephyr.lookup changed twin indices = some again ∧ again.frame = walked.frame ∧
      ((walked.used.all fun spot => (memory spot.1 spot.2).flags.contains writable) = true →
        (again.used.all fun spot => (changed spot.1 spot.2).flags.contains writable) = true) := by
  induction indices generalizing stem table twin walked with
  | nil => exact absurd rfl further
  | cons index rest ih =>
    rw [List.length_cons] at whole
    rw [Zephyr.lookup] at found ⊢
    have entry : entryAt memory source stem index = memory table index := entryAt_of_tableAt above
    have copy : entryAt changed target stem index = changed twin index := entryAt_of_tableAt beside
    split at found
    · cases found
    · rename_i held
      have held : (memory table index).flags.contains present = true := by simpa using held
      have used : entryAt memory source stem index ≠ 0 := by
        rw [entry]
        exact PageTableEntry.ne_zero_of_contains held
      have off : ¬ stem = userStackPageIndex := by
        rintro rfl
        exact used (empty index)
      cases rest with
      | nil =>
        have same := carries.leaves stem index (by omega) off used (.inl (by simpa using whole))
        rw [entry, copy] at same
        rw [if_neg (by simp)] at found
        rw [same, if_neg (by simp [held]), if_neg (by simp)]
        cases found
        exact ⟨_, rfl, rfl, fun rights => by simpa [same] using rights⟩
      | cons second rest =>
        split at found
        · -- a huge page is a leaf of both trees
          rename_i huge
          cases found
          have same := carries.leaves stem index (by omega) off used
            (.inr (by rw [entry]; exact PageTableEntry.next_eq_none_of_huge huge.1))
          rw [entry, copy] at same
          rw [same, if_neg (by simp [held]), if_pos huge]
          exact ⟨_, rfl, rfl, fun rights => by simpa [same] using rights⟩
        · rename_i small
          have small : (memory table index).flags.contains hugePage = false := by simpa using small
          obtain ⟨deeper, reached, rfl⟩ := Option.map_eq_some_iff.mp found
          have leads : next (entryAt memory source stem index) = some (memory table index).addr := by
            rw [entry]
            exact PageTableEntry.next_eq_some_iff.mpr ⟨PageTableEntry.ne_zero_of_contains held, small, rfl⟩
          rw [List.length_cons] at whole
          obtain ⟨below, onward, grows⟩ := carries.tables stem index _ (by omega) leads
          rw [entry, copy] at grows
          rw [copy] at onward
          obtain ⟨_, also, rfl⟩ := PageTableEntry.next_eq_some_iff.mp onward
          rw [if_neg (by simp [grows present held]), if_neg (by simp [also])]
          have down : tableAt memory source (stem ++ [index]) = some (memory table index).addr := by
            rw [tableAt_concat_eq, leads]
          have aside : tableAt changed target (stem ++ [index]) = some (changed twin index).addr := by
            rw [tableAt_concat_eq, copy, onward]
          have left : (stem ++ [index]).length + (second :: rest).length = 4 := by
            rw [List.length_append, List.length_singleton, List.length_cons]
            omega
          obtain ⟨again, arrived, frame, rights⟩ := ih left (List.cons_ne_nil second rest) down aside reached
          refine ⟨⟨(twin, index) :: again.used, again.frame⟩, by rw [arrived, Option.map_some], frame, fun all => ?_⟩
          rw [List.all_cons, Bool.and_eq_true] at all ⊢
          exact ⟨grows writable all.1, rights all.2⟩

theorem Carries.reachSupervisor {access : Access} {addr : VirtAddr} {frame : Nat}
    (carries : Carries memory source changed target)
    (empty : ∀ index, entryAt memory source userStackPageIndex index = 0)
    (reached : Zephyr.reachSupervisor memory source access addr = some frame) :
    Zephyr.reachSupervisor changed target access addr = some frame := by
  obtain ⟨walked, found, allowed⟩ := Option.bind_eq_some_iff.mp reached
  split at allowed
  · rename_i rights
    cases allowed
    have top : tableAt changed target [] = some target := rfl
    obtain ⟨again, also, same, kept⟩ := carries.lookup empty rfl (by simp [VirtAddr.indices]) rfl top found
    rw [Zephyr.reachSupervisor, also, Option.bind_some, if_pos (rights.imp id kept), same]
  · cases allowed

theorem reachSupervisor_of_writable {addr : VirtAddr} (found : tableAt memory source addr.path = some table)
    (wide : ∀ stem index, stem ++ [index] <+: addr.path →
      (entryAt memory source stem index).flags.contains (present ||| writable) = true)
    (leaf : (memory table addr.p1Index).flags.contains (present ||| writable) = true) (access : Access) :
    reachSupervisor memory source access addr = some (memory table addr.p1Index).addr := by
  obtain ⟨used, reached, each⟩ := lookup_of_tableAt (by decide) found wide leaf
  have walk : Zephyr.lookup memory source addr.indices = some ⟨used, (memory table addr.p1Index).addr⟩ := reached
  have all : (used.all fun spot => (memory spot.1 spot.2).flags.contains writable) = true :=
    List.all_eq_true.mpr fun spot listed => (contains_or.mp (each spot listed).1).2
  rw [reachSupervisor, walk, Option.bind_some, if_pos (.inr all)]

end Walks

namespace MemoryInfo

section Changes

variable {root table frame : Nat} {before after info : MemoryInfo} {page : VirtAddr} {pages : List VirtAddr}
variable {mapper : Mapper}

/-- What a change of the tree leaves of its mappings. -/
abbrev Keeps (root : Nat) (before after : MemoryInfo) : Prop := Carries before.memory root after.memory root

theorem Keeps.of_agree (agree : ∀ table ∈ tableSet 4 before.memory root, after.memory table = before.memory table) :
    Keeps root before after :=
  Within.of_agree Grows.refl agree

theorem Keeps.refl : Keeps root info info := .of_agree fun _ _ => rfl

theorem Widens.keeps {flags : PageTableFlags} {path : List (Fin 512)} {index : Fin 512} {entry : PageTableEntry}
    {child : Nat} {new : List Nat} (widens : Widens root flags before after path index entry child new) :
    Keeps root before after := by
  have upper := widens.upper
  refine Within.of_upper Grows.refl widens.edited.rewrites (by omega) widens.leads widens.grows ?_
  rcases widens.origin with ⟨unused, _⟩ | ⟨points, _⟩
  · exact .inl unused
  · exact .inr ⟨child, points⟩

theorem TableEdits.keepsMappings {flags : PageTableFlags} (sound : before.Sound root) (valid : TableFlags flags)
    (edits : TableEdits root flags before after) : Keeps root before after :=
  TableEdits.keeps (fun info => Keeps root before info) sound valid edits .refl
    fun kept widens => Carries.trans kept widens.keeps

theorem Maps.enters {flags parent : PageTableFlags} (sound : before.Sound root) (valid : TableFlags parent)
    (maps : Maps root page frame flags parent before after) :
    ∃ middle, TableEdits root parent before middle ∧ entryAt middle.memory root page.path page.p1Index = 0 ∧
      (∀ stem index, stem ++ [index] <+: page.path →
        (entryAt middle.memory root stem index).flags.contains parent = true ∧
          ∃ child, next (entryAt middle.memory root stem index) = some child) ∧
      Edited root middle after page.path page.p1Index (.setAddr frame flags) [] := by
  cases maps with
  | @intro middle table edits found wide unused =>
    obtain ⟨_, _, still⟩ := TableEdits.extends sound valid edits
    refine ⟨middle, edits, by rw [entryAt_of_tableAt found, unused], fun stem index prefixed => ?_,
      still.writeLeaf rfl found _ _⟩
    refine ⟨wide stem index prefixed, ?_⟩
    obtain ⟨rest, whole⟩ := prefixed
    rw [← whole, tableAt_append, tableAt_concat_eq] at found
    obtain ⟨child, leads, _⟩ := Option.bind_eq_some_iff.mp found
    exact ⟨child, leads⟩

theorem Maps.keeps {flags parent : PageTableFlags} (sound : before.Sound root) (valid : TableFlags parent)
    (maps : Maps root page frame flags parent before after) : Keeps root before after ∧ after.Sound root := by
  obtain ⟨middle, edits, empty, _, edited⟩ := maps.enters sound valid
  have filled : Keeps root middle after := Within.of_lower Grows.refl edited.rewrites rfl (.inl empty)
  exact ⟨Carries.trans (edits.keepsMappings sound valid) filled, edited.sound⟩

theorem allocateEach_keeps (sound : before.Sound root)
    (returned : allocateEach mapper root userPage pages before = .ok (.ok (), after)) : Keeps root before after := by
  induction pages generalizing before with
  | nil =>
    cases returned
    exact .refl
  | cons page pages ih =>
    rw [allocateEach] at returned
    split at returned
    · cases returned
    · cases returned
    · rename_i frame frameAllocator allocated
      split at returned
      · cases returned
      · cases returned
      · rename_i middle mapped
        have taken := sound.takes allocated
        obtain ⟨kept, still⟩ := (mapper.mapped taken tableFlags_userPage mapped).keeps taken tableFlags_userPage
        exact Carries.trans kept (ih still returned)

theorem mapEach_keeps (sound : before.Sound root)
    (returned : mapEach mapper root frame pages before = .ok (.ok (), after)) : Keeps root before after := by
  induction pages generalizing before with
  | nil =>
    cases returned
    exact .refl
  | cons page pages ih =>
    rw [mapEach] at returned
    split at returned
    · cases returned
    · cases returned
    · rename_i middle mapped
      obtain ⟨kept, still⟩ := (mapper.mapped sound tableFlags_userPage mapped).keeps sound tableFlags_userPage
      exact Carries.trans kept (ih still returned)

/-- The last call sets flags on the first page of the range, which it has entered itself. -/
theorem createUserOndemandPages_keeps {start size : Nat} (sound : before.Sound root)
    (listed : pagesOf start size = .ok pages) (first : start / 4096 * 4096 ∈ pages)
    (returned : before.createUserOndemandPages mapper root start size = .ok (.ok (), after)) :
    Keeps root before after := by
  obtain ⟨frame, frameAllocator, middle, takes, mapped, updated⟩ := createUserOndemandPages_ok listed returned
  have taken := sound.takes takes
  obtain ⟨_, entered, _⟩ := mapEach_entered takes.bounded taken takes.not_available_self (sound.fresh takes) mapped
  obtain rfl := updateFlags_same takes.bounded (entered _ first).leaf updated
  have kept : Keeps root { before with frameAllocator } after := mapEach_keeps taken mapped
  exact kept

theorem fillSlot_keeps {indices : List Nat} {result : Except String Unit} (sound : before.Sound root)
    (found : tableAt before.memory root userStackPageIndex = some table)
    (returned : before.fillSlot table indices = .ok (result, after)) : Keeps root before after := by
  induction indices generalizing before with
  | nil =>
    cases returned
    exact .refl
  | cons index indices ih =>
    obtain ⟨inside, ⟨rfl, rfl⟩ | ⟨frame, frameAllocator, takes, rest⟩⟩ := fillSlot_cons returned
    · exact .refl
    · have edited := (sound.takes takes).writeLeaf rfl found ⟨index, inside⟩ (.setAddr frame userPage)
      have filled : Keeps root before ({ before with frameAllocator }.write table ⟨index, inside⟩
          (.setAddr frame userPage)) := Within.of_lower Grows.refl edited.rewrites rfl (.inr rfl)
      refine Carries.trans filled (ih edited.sound ?_ rest)
      rw [edited.rewrites.tableAt (by decide) (by simp [userStackPageIndex])]
      exact found

theorem allocateUserStack_keeps {nStart : Nat} {result : Except String (VirtAddr × VirtAddr)}
    (sound : before.Sound root)
    (way : ∀ stem index, stem ++ [index] <+: userStackPageIndex → entryAt before.memory root stem index = 0 ∨
      ∃ child, next (entryAt before.memory root stem index) = some child)
    (returned : before.allocateUserStack root nStart = .ok (result, after)) : Keeps root before after := by
  unfold allocateUserStack at returned
  split at returned
  · cases returned
  · rename_i table middle reached
    obtain ⟨edits, found⟩ := stackTable_ok [] sound rfl rfl way reached
    have kept := edits.keepsMappings sound tableFlags_userPage
    rcases findSlot_cases returned with ⟨rfl, rfl⟩ | ⟨n, filled, _, backed, _⟩
    · exact kept
    · obtain ⟨_, _, still⟩ := TableEdits.extends sound tableFlags_userPage edits
      exact Carries.trans kept (fillSlot_keeps still found backed)

end Changes

end MemoryInfo

end Zephyr
