import Zephyr.Mem.Calls
import Zephyr.Mem.Copy
import Zephyr.Proc.Kernel

/-! The page-table tree of one user process, as `spawn_user_thread`, forks and exits
keep it: user pages only where the loader, the heap and the stacks put them, each of
them behind a frame that is in use, and each stack page behind a frame of its own. -/

namespace Zephyr

open Radix PageTableFlags
open PageFrameAllocator (Grabs Frees)

namespace MemoryInfo

def pageAddress (path : List (Fin 512)) (index : Fin 512) : VirtAddr :=
  (path ++ [index]).foldl (fun number index => number * 512 + index.1) 0 * 4096

/-- Where user pages belong: above `USER_CODE_START`, in the lower half. -/
def InUserSpace (addr : VirtAddr) : Prop := userCodeStart ≤ addr ∧ addr < 2 ^ 47

def UserLeaf (below : Nat) (entry : PageTableEntry) : Prop :=
  (below = 0 ∨ next entry = none) ∧ entry.flags.contains (present ||| userAccessible) = true

/-- The user page at a level-1 position has this frame. -/
structure PageAt (memory : Memory Nat 512 PageTableEntry) (root : Nat) (path : List (Fin 512)) (index : Fin 512)
    (frame : Nat) : Prop where
  last : path.length = 3
  user : (entryAt memory root path index).flags.contains userPage = true
  addr : (entryAt memory root path index).addr = frame

def Holds (memory : Memory Nat 512 PageTableEntry) (root frame : Nat) : Prop :=
  frame ∈ tableSet 4 memory root ∨ ∃ path index, PageAt memory root path index frame

/-- A user process's tree away from the `foreign` frames, with stacks in the given
slots; `pending` frames are allocated for it and not yet entered. -/
structure UserTree (foreign : Nat → Prop) (root : Nat) (slots pending : List Nat) (info : MemoryInfo) :
    Prop where
  owns : Owns foreign root pending info
  way : ∀ stem index, stem ++ [index] <+: userStackPageIndex →
    entryAt info.memory root stem index = 0 ∨ ∃ child, next (entryAt info.memory root stem index) = some child
  flags : ∀ k, (info.stackEntry root k).flags = userPage ∨ (info.stackEntry root k).flags = 0
  standing : Standing root slots info
  leaves : ∀ path index, path.length < 4 → UserLeaf (3 - path.length) (entryAt info.memory root path index) →
    (entryAt info.memory root path index).flags.contains userPage = true ∧ path.length = 3 ∧
      InUserSpace (pageAddress path index)
  used : ∀ path index frame, PageAt info.memory root path index frame →
    info.frameAllocator.frameUsage frame = true ∧ frame ∉ tableSet 4 info.memory root
  lone : ∀ k path index frame, PageAt info.memory root userStackPageIndex k frame →
    PageAt info.memory root path index frame → path = userStackPageIndex ∧ index = k
  unmarked : ∀ path index, path.length < 3 →
    (entryAt info.memory root path index).flags ≠ present ||| userAccessible

section Pages

variable {root frame : Nat} {before after info : MemoryInfo} {path other : List (Fin 512)}
variable {index position k : Fin 512} {entry : PageTableEntry}

theorem PageAt.someEntry (page : PageAt info.memory root path index frame) :
    SomeEntry (UserPage frame) info.memory 4 root := by
  have last := page.last
  exact ⟨path, index, by omega, .inl (by omega), page.user, page.addr⟩

theorem PageAt.rewritten (page : PageAt after.memory root other position frame)
    (rewrites : Rewrites 4 before.memory after.memory root path index entry) :
    (other = path ∧ position = index ∧ entry.flags.contains userPage = true ∧ entry.addr = frame) ∨
      ¬ (other = path ∧ position = index) ∧ PageAt before.memory root other position frame := by
  have short : other.length < 4 := by
    have last := page.last
    omega
  have user := page.user
  have addr := page.addr
  rw [rewrites position short] at user addr
  split at user
  · rename_i here
    rw [if_pos here] at addr
    exact .inl ⟨here.1, here.2, user, addr⟩
  · rename_i aside
    rw [if_neg aside] at addr
    exact .inr ⟨aside, page.last, user, addr⟩

theorem PageAt.kept (page : PageAt before.memory root other position frame)
    (rewrites : Rewrites 4 before.memory after.memory root path index entry)
    (aside : ¬ (other = path ∧ position = index)) : PageAt after.memory root other position frame := by
  have short : other.length < 4 := by
    have last := page.last
    omega
  have same := rewrites position short
  rw [if_neg aside] at same
  exact ⟨page.last, by rw [same]; exact page.user, by rw [same]; exact page.addr⟩

theorem Fills.pageAt (fills : Fills root before after path index frame) (bounded : frame < frameUsageLen) :
    PageAt after.memory root path index frame := by
  have short : path.length < 4 := by
    have last := fills.last
    omega
  have entered := fills.edited.rewrites index short
  rw [if_pos ⟨rfl, rfl⟩] at entered
  obtain ⟨flags, addr⟩ := userPage_setAddr bounded
  exact ⟨fills.last, by rw [entered, flags]; decide, by rw [entered, addr]⟩

theorem pageAt_of_stackEntry (page : (info.stackEntry root k).flags = userPage) :
    PageAt info.memory root userStackPageIndex k (info.stackEntry root k).addr :=
  ⟨rfl, by rw [← stackEntry, page]; decide, rfl⟩

/-- The frames of a tree as `free_user_pagetables` sees them. -/
theorem holds_iff (leaves : ∀ path index, path.length < 4 →
      UserLeaf (3 - path.length) (entryAt info.memory root path index) → path.length = 3) :
    Holds info.memory root frame ↔
      frame ∈ tableSet 4 info.memory root ∨ SomeEntry (UserPage frame) info.memory 4 root := by
  refine or_congr Iff.rfl ⟨fun ⟨_, _, page⟩ => page.someEntry, ?_⟩
  rintro ⟨path, index, short, leaf, user, addr⟩
  have both := user
  rw [userPage, contains_or, contains_or] at both
  exact ⟨path, index, leaves path index short ⟨leaf, contains_or.mpr ⟨both.1.1, both.2⟩⟩, user, addr⟩

end Pages

namespace UserTree

variable {foreign : Nat → Prop} {root frame table : Nat} {slots pending : List Nat}
variable {before after info : MemoryInfo} {path : List (Fin 512)} {index : Fin 512}

theorem holds_iff (tree : UserTree foreign root slots pending info) : Holds info.memory root frame ↔
    frame ∈ tableSet 4 info.memory root ∨ SomeEntry (UserPage frame) info.memory 4 root :=
  MemoryInfo.holds_iff fun path index short leaf => (tree.leaves path index short leaf).2.1

theorem holds (tree : UserTree foreign root slots pending info) (held : Holds info.memory root frame) :
    info.frameAllocator.frameUsage frame = true ∧ ¬ foreign frame ∧ frame < frameUsageLen := by
  rcases held with table | ⟨path, index, page⟩
  · obtain ⟨used, own, bounded, _⟩ := tree.owns.tables frame table
    exact ⟨used, own, bounded⟩
  · exact ⟨(tree.used path index frame page).1, tree.owns.pages frame page.someEntry⟩

theorem pageAt_of_writable (tree : UserTree foreign root slots pending info)
    (written : (entryAt info.memory root userStackPageIndex index).flags.contains writable = true) :
    PageAt info.memory root userStackPageIndex index
      (entryAt info.memory root userStackPageIndex index).addr := by
  refine pageAt_of_stackEntry ((tree.flags index).resolve_right fun none_set => ?_)
  rw [stackEntry] at none_set
  rw [none_set] at written
  exact absurd written (by decide)

theorem takes {frameAllocator : PageFrameAllocator} (tree : UserTree foreign root slots pending info)
    (takes : info.frameAllocator.Takes frame frameAllocator) :
    UserTree foreign root slots (frame :: pending) { info with frameAllocator } where
  owns := tree.owns.takes takes
  way := tree.way
  flags := tree.flags
  standing := tree.standing.unchanged fun _ entered => entered
  leaves := tree.leaves
  used path index other page := by
    obtain ⟨used, apart⟩ := tree.used path index other page
    exact ⟨(takes.frameUsage other).mpr (.inr used), apart⟩
  lone := tree.lone
  unmarked := tree.unmarked

theorem widens {entry : PageTableEntry} {child : Nat} {new : List Nat}
    (tree : UserTree foreign root slots pending before)
    (widens : Widens root userPage before after path index entry child new) :
    UserTree foreign root slots pending after := by
  have upper := widens.upper
  have older : ∀ {other position frame}, PageAt after.memory root other position frame →
      PageAt before.memory root other position frame := by
    intro other position frame page
    rcases page.rewritten widens.edited.rewrites with ⟨rfl, _⟩ | ⟨_, old⟩
    · exact absurd page.last (by omega)
    · exact old
  refine ⟨tree.owns.widens widens, fun stem position prefixed => ?_, fun k => ?_,
    tree.standing.unchanged fun k entered => by rwa [widens.stackEntry], fun other position short leaf => ?_,
    fun other position frame page => ?_, fun k other position frame stack page => ?_,
    fun other position upper => ?_⟩
  · have bound := prefixed.length_le
    rw [List.length_append, List.length_singleton, length_userStackPageIndex] at bound
    rw [widens.edited.rewrites position (by omega)]
    split
    · exact .inr ⟨child, widens.leads⟩
    · exact tree.way stem position prefixed
  · rw [widens.stackEntry]
    exact tree.flags k
  · rw [widens.edited.rewrites position short] at leaf ⊢
    split at leaf
    · rename_i here
      rcases leaf.1 with bottom | empty
      · rw [here.1] at bottom
        omega
      · cases widens.leads.symm.trans empty
    · rename_i aside
      rw [if_neg aside]
      exact tree.leaves other position short leaf
  · obtain ⟨used, apart⟩ := tree.used other position frame (older page)
    refine ⟨(widens.edited.grabs.frameUsage frame).mpr (.inr used), fun listed => ?_⟩
    rcases (widens.edited.tables frame).mp listed with made | listed
    · cases used.symm.trans (widens.edited.grabs.available made).2
    · exact apart listed
  · exact tree.lone k other position frame (older stack) (older page)
  · rw [widens.edited.rewrites position (by omega)]
    split
    · intro marked
      have wide := widens.wide
      rw [marked] at wide
      exact absurd wide (by decide)
    · exact tree.unmarked other position upper

/-- A page entered with a pending frame. A frame that is behind a page already is kept
away from the stacks. -/
theorem fills (tree : UserTree foreign root slots pending before)
    (fills : Fills root before after path index frame) (waiting : frame ∈ pending)
    (space : InUserSpace (pageAddress path index))
    (alone : ∀ other position, PageAt before.memory root other position frame →
      path ≠ userStackPageIndex ∧ other ≠ userStackPageIndex) :
    UserTree foreign root slots pending after := by
  obtain ⟨held, _, bounded⟩ := tree.owns.held frame waiting
  obtain ⟨flags, addr⟩ := userPage_setAddr bounded
  have last := fills.last
  have rewrites := fills.edited.rewrites
  have cases_page : ∀ {other position number}, PageAt after.memory root other position number →
      (other = path ∧ position = index ∧ number = frame) ∨ PageAt before.memory root other position number := by
    intro other position number page
    rcases page.rewritten rewrites with ⟨here, there, _, same⟩ | ⟨_, old⟩
    · exact .inl ⟨here, there, same.symm.trans addr⟩
    · exact .inr old
  refine ⟨tree.owns.fills fills waiting, fun stem position prefixed => ?_, fun k => ?_,
    tree.standing.fills fills bounded, fun other position short leaf => ?_,
    fun other position number page => ?_, fun k other position number stack page => ?_,
    fun other position upper => ?_⟩
  · have bound := prefixed.length_le
    rw [List.length_append, List.length_singleton, length_userStackPageIndex] at bound
    rw [rewrites position (by omega), if_neg]
    · exact tree.way stem position prefixed
    · rintro ⟨rfl, _⟩
      omega
  · rw [stackEntry, rewrites k (by decide)]
    split
    · exact .inl flags
    · exact tree.flags k
  · rw [rewrites position short] at leaf ⊢
    split
    · rename_i here
      rw [here.1, here.2, flags]
      exact ⟨by decide, last, space⟩
    · rename_i aside
      rw [if_neg aside] at leaf
      exact tree.leaves other position short leaf
  · rw [fills.tables, fills.edited.sameAllocator]
    rcases cases_page page with ⟨_, _, rfl⟩ | old
    · exact ⟨held, fun listed => (tree.owns.tables number listed).2.2.2 waiting⟩
    · exact tree.used other position number old
  · rcases cases_page stack with ⟨here, there, rfl⟩ | older
    · rcases cases_page page with ⟨also, same, _⟩ | old
      · exact ⟨also.trans here.symm, same.trans there.symm⟩
      · exact absurd here.symm (alone other position old).1
    · rcases cases_page page with ⟨_, _, rfl⟩ | old
      · exact absurd rfl (alone _ k older).2
      · exact tree.lone k other position number older old
  · rw [rewrites position (by omega), if_neg]
    · exact tree.unmarked other position upper
    · rintro ⟨rfl, _⟩
      omega

theorem settle {fewer : List Nat} (tree : UserTree foreign root slots pending info) (kept : fewer ⊆ pending) :
    UserTree foreign root slots fewer info :=
  { tree with owns := tree.owns.settle kept }

theorem clears (tree : UserTree foreign root slots [] before)
    (clears : Clears root before after userStackPageIndex index)
    (spared : ∀ n ∈ slots, ¬ (n * 8 + 1 ≤ index.1 ∧ index.1 ≤ n * 8 + 10)) :
    UserTree foreign root slots [] after := by
  have last : userStackPageIndex.length = 3 := rfl
  have older : ∀ {other position number}, PageAt after.memory root other position number →
      ¬ (other = userStackPageIndex ∧ position = index) ∧ PageAt before.memory root other position number := by
    intro other position number here
    refine (here.rewritten clears.rewrites).resolve_left fun ⟨_, _, user, _⟩ => ?_
    rw [PageTableEntry.flags_setFlags (by decide)] at user
    revert user
    decide
  refine ⟨tree.owns.clears clears (fun written => (tree.pageAt_of_writable written).user)
      (fun written => ⟨(tree.used _ _ _ (tree.pageAt_of_writable written)).2, List.not_mem_nil⟩),
    fun stem position prefixed => ?_, fun k => ?_,
    ⟨fun n listed => ⟨(tree.standing.entered n listed).1, fun k least most => ?_⟩, tree.standing.spaced⟩,
    fun other position short leaf => ?_, fun other position number here => ?_,
    fun k other position number stack here => tree.lone k other position number (older stack).2 (older here).2,
    fun other position upper => ?_⟩
  · have bound := prefixed.length_le
    rw [List.length_append, List.length_singleton, length_userStackPageIndex] at bound
    rw [clears.rewrites position (by omega), if_neg]
    · exact tree.way stem position prefixed
    · rintro ⟨rfl, _⟩
      omega
  · rw [stackEntry, clears.rewrites k (by decide)]
    split
    · exact .inr (PageTableEntry.flags_setFlags (by decide))
    · exact tree.flags k
  · have aside : k ≠ index := by
      rintro rfl
      exact spared n listed ⟨least, most⟩
    rw [stackEntry_eq clears.rewrites fun both => aside both.2]
    exact (tree.standing.entered n listed).2 k least most
  · rw [clears.rewrites position short] at leaf ⊢
    split at leaf
    · have user := leaf.2
      rw [PageTableEntry.flags_setFlags (by decide)] at user
      exact absurd user (by decide)
    · rename_i aside
      rw [if_neg aside]
      exact tree.leaves other position short leaf
  · obtain ⟨aside, old⟩ := older here
    obtain ⟨used, apart⟩ := tree.used other position number old
    rw [clears.tables]
    refine ⟨(clears.frees.usage number).mpr ⟨used, ?_⟩, apart⟩
    -- the frame given back is behind the cleared page only
    rintro ⟨_, written, rfl⟩
    exact aside (tree.lone index other position _ (tree.pageAt_of_writable written) old)
  · rw [clears.rewrites position (by omega), if_neg]
    · exact tree.unmarked other position upper
    · rintro ⟨rfl, _⟩
      omega

theorem elsewhere {strange : Nat → Prop} (tree : UserTree foreign root slots [] before)
    (memory : ∀ table ∈ tableSet 4 before.memory root, after.memory table = before.memory table)
    (usage : ∀ frame, Holds before.memory root frame → after.frameAllocator.frameUsage frame = true)
    (own : ∀ frame, Holds before.memory root frame → ¬ strange frame)
    (shut : ∀ frame, strange frame → ¬ after.frameAllocator.Available frame) :
    UserTree strange root slots [] after := by
  have entries : ∀ {path : List (Fin 512)} {index : Fin 512}, path.length < 4 →
      entryAt after.memory root path index = entryAt before.memory root path index :=
    fun short => entryAt_frame memory short
  have tables : tableSet 4 after.memory root = tableSet 4 before.memory root :=
    tableSet_congr fun path short => tableAt_frame memory short.le
  have stack : ∀ k, after.stackEntry root k = before.stackEntry root k := fun k => entries (by decide)
  have older : ∀ {path index frame}, PageAt after.memory root path index frame → PageAt before.memory root path index frame := by
    intro path index frame page
    have last := page.last
    have same : entryAt after.memory root path index = entryAt before.memory root path index := entries (by omega)
    exact ⟨last, same ▸ page.user, same ▸ page.addr⟩
  have someEntry : ∀ {holds : Nat → PageTableEntry → Prop}, SomeEntry holds after.memory 4 root →
      SomeEntry holds before.memory 4 root := by
    rintro holds ⟨path, index, short, held⟩
    rw [entries short] at held
    exact ⟨path, index, short, held⟩
  refine ⟨⟨⟨tree.owns.sound.unshared.congr fun path short => tableAt_frame memory short.le, ?_⟩, ?_, ?_,
      fun huge => tree.owns.plain (someEntry huge), fun _ listed => absurd listed List.not_mem_nil, shut⟩,
    ?_, fun k => by rw [stack]; exact tree.flags k, tree.standing.unchanged fun k entered => by rwa [stack],
    fun path index short leaf => ?_, fun path index frame page => ?_,
    fun k path index frame here page => tree.lone k path index frame (older here) (older page),
    fun path index upper => by rw [entries (by omega)]; exact tree.unmarked path index upper⟩
  · rintro table listed ⟨_, free⟩
    rw [tables] at listed
    cases (usage table (.inl listed)).symm.trans free
  · intro table listed
    rw [tables] at listed
    exact ⟨usage table (.inl listed), own table (.inl listed), (tree.owns.tables table listed).2.2.1,
      List.not_mem_nil⟩
  · intro frame page
    have held : Holds before.memory root frame := tree.holds_iff.mpr (.inr (someEntry page))
    exact ⟨own frame held, (tree.owns.pages frame (someEntry page)).2⟩
  · intro stem index prefixed
    have bound := prefixed.length_le
    rw [List.length_append, List.length_singleton, length_userStackPageIndex] at bound
    rw [entries (by omega)]
    exact tree.way stem index prefixed
  · rw [entries short] at leaf ⊢
    exact tree.leaves path index short leaf
  · rw [tables]
    exact ⟨usage frame (.inr ⟨path, index, older page⟩), (tree.used path index frame (older page)).2⟩

end UserTree

end MemoryInfo

end Zephyr
