import Zephyr.Mem.Ownership

/-! The level-1 table of the user stacks. `free_user_stack` clears eleven entries for a
stack of ten pages and gives back every writable frame among them, so what matters is
which entries a later call can reach: those of the allocated stacks, and the entry
below each slot that is still empty. -/

namespace Zephyr

open Radix PageTableFlags
open PageFrameAllocator (Grabs)

namespace MemoryInfo

def stackEntry (info : MemoryInfo) (root : Nat) (k : Fin 512) : PageTableEntry :=
  entryAt info.memory root userStackPageIndex k

/-- Entries `free_user_stack` can reach, now for the given slots or later for a slot
that is still empty. -/
def Exposed (info : MemoryInfo) (root : Nat) (slots : List Nat) (k : Fin 512) : Prop :=
  (∃ n ∈ slots, n * 8 ≤ k.1 ∧ k.1 ≤ n * 8 + 10) ∨
    (k.1 % 8 = 0 ∧ info.stackEntry root (Fin.ofNat 512 (k.1 + 1)) = 0)

structure Stacks (root : Nat) (slots : List Nat) (info : MemoryInfo) : Prop where
  way : ∀ stem index, stem ++ [index] <+: userStackPageIndex →
    entryAt info.memory root stem index = 0 ∨ ∃ child, next (entryAt info.memory root stem index) = some child
  flags : ∀ k, (info.stackEntry root k).flags = userPage ∨ (info.stackEntry root k).flags = 0
  exposed : ∀ k, info.Exposed root slots k → (info.stackEntry root k).flags = userPage →
    info.frameAllocator.frameUsage (info.stackEntry root k).addr = true ∧
      (info.stackEntry root k).addr ∉ tableSet 4 info.memory root
  apart : ∀ k other, info.Exposed root slots k → info.Exposed root slots other →
    (info.stackEntry root k).flags = userPage → (info.stackEntry root other).flags = userPage →
    (info.stackEntry root k).addr = (info.stackEntry root other).addr → k = other

/-- The pages of allocated stacks are entered, and their slots do not overlap. -/
structure Standing (root : Nat) (slots : List Nat) (info : MemoryInfo) : Prop where
  entered : ∀ n ∈ slots, n * 8 + 10 < 512 ∧
    ∀ k : Fin 512, n * 8 + 1 ≤ k.1 → k.1 ≤ n * 8 + 10 → info.stackEntry root k ≠ 0
  spaced : slots.Pairwise fun n m => n + 2 ≤ m ∨ m + 2 ≤ n

section Stacks

variable {root frame : Nat} {slots : List Nat} {before after info : MemoryInfo}
variable {path : List (Fin 512)} {index k : Fin 512}

theorem length_userStackPageIndex : userStackPageIndex.length = 3 := rfl

theorem stackEntry_eq {entry : PageTableEntry}
    (rewrites : Rewrites 4 before.memory after.memory root path index entry)
    (aside : ¬ (userStackPageIndex = path ∧ k = index)) :
    after.stackEntry root k = before.stackEntry root k := by
  rw [stackEntry, rewrites k (by decide), if_neg aside]
  rfl

theorem stackEntry_written {entry : PageTableEntry}
    (rewrites : Rewrites 4 before.memory after.memory root userStackPageIndex index entry) :
    after.stackEntry root index = entry := by
  rw [stackEntry, rewrites index (by decide), if_pos ⟨rfl, rfl⟩]

theorem Stacks.unchanged (ordered : Stacks root slots before)
    (same : ∀ k, after.stackEntry root k = before.stackEntry root k)
    (way : ∀ stem index, stem ++ [index] <+: userStackPageIndex →
      entryAt after.memory root stem index = 0 ∨ ∃ child, next (entryAt after.memory root stem index) = some child)
    (kept : ∀ frame, before.frameAllocator.frameUsage frame = true → frame ∉ tableSet 4 before.memory root →
      after.frameAllocator.frameUsage frame = true ∧ frame ∉ tableSet 4 after.memory root) :
    Stacks root slots after := by
  have reach : ∀ k, after.Exposed root slots k ↔ before.Exposed root slots k := by
    intro k
    unfold Exposed
    rw [same]
  refine ⟨way, fun k => ?_, fun k open_ page => ?_, fun k other open_ also => ?_⟩
  · rw [same]
    exact ordered.flags k
  · rw [same] at page ⊢
    obtain ⟨used, apart⟩ := ordered.exposed k ((reach k).mp open_) page
    exact kept _ used apart
  · rw [same, same]
    exact ordered.apart k other ((reach k).mp open_) ((reach other).mp also)

theorem Standing.unchanged (standing : Standing root slots before)
    (kept : ∀ k, before.stackEntry root k ≠ 0 → after.stackEntry root k ≠ 0) : Standing root slots after where
  entered n listed := ⟨(standing.entered n listed).1,
    fun k least most => kept k ((standing.entered n listed).2 k least most)⟩
  spaced := standing.spaced

theorem Stacks.takes {frameAllocator : PageFrameAllocator} (ordered : Stacks root slots info)
    (takes : info.frameAllocator.Takes frame frameAllocator) :
    Stacks root slots { info with frameAllocator } :=
  ordered.unchanged (fun _ => rfl) ordered.way fun other used apart =>
    ⟨(takes.frameUsage other).mpr (.inr used), apart⟩

theorem Stacks.hidden (ordered : Stacks root slots info) (free : info.frameAllocator.frameUsage frame = false)
    (open_ : info.Exposed root slots k) (page : (info.stackEntry root k).flags = userPage) :
    (info.stackEntry root k).addr ≠ frame := by
  rintro rfl
  cases (ordered.exposed k open_ page).1.symm.trans free

section Widens

variable {flags : PageTableFlags} {entry : PageTableEntry} {child : Nat} {new : List Nat}

theorem Widens.stackEntry (widens : Widens root flags before after path index entry child new) (k : Fin 512) :
    after.stackEntry root k = before.stackEntry root k := by
  refine stackEntry_eq widens.edited.rewrites ?_
  rintro ⟨rfl, _⟩
  exact absurd widens.upper (by decide)

theorem Stacks.widens (ordered : Stacks root slots before)
    (widens : Widens root flags before after path index entry child new) : Stacks root slots after := by
  refine ordered.unchanged widens.stackEntry (fun stem position prefixed => ?_) fun frame used apart => ⟨?_, ?_⟩
  · have short : stem.length < 4 := by
      have bound := prefixed.length_le
      rw [List.length_append, List.length_singleton, length_userStackPageIndex] at bound
      omega
    rw [widens.edited.rewrites position short]
    split
    · exact .inr ⟨child, widens.leads⟩
    · exact ordered.way stem position prefixed
  · exact (widens.edited.grabs.frameUsage frame).mpr (.inr used)
  · intro listed
    rcases (widens.edited.tables frame).mp listed with made | listed
    · cases used.symm.trans (widens.edited.grabs.available made).2
    · exact apart listed

end Widens

theorem Stacks.fillsAside (ordered : Stacks root slots before)
    (fills : Fills root before after path index frame) (aside : path ≠ userStackPageIndex) :
    Stacks root slots after := by
  have outside : ∀ {k : Fin 512}, ¬ (userStackPageIndex = path ∧ k = index) := fun here => aside here.1.symm
  refine ordered.unchanged (fun k => stackEntry_eq fills.edited.rewrites outside)
    (fun stem position prefixed => ?_) fun other used apart => ?_
  · have bound := prefixed.length_le
    rw [List.length_append, List.length_singleton, length_userStackPageIndex] at bound
    rw [fills.edited.rewrites position (by omega), if_neg]
    · exact ordered.way stem position prefixed
    · rintro ⟨rfl, _⟩
      have last := fills.last
      omega
  · rw [fills.tables, fills.edited.sameAllocator]
    exact ⟨used, apart⟩

section Fills

variable (fills : Fills root before after userStackPageIndex index frame) (bounded : frame < frameUsageLen)

include fills

theorem Fills.stackEntry_aside (other : k ≠ index) : after.stackEntry root k = before.stackEntry root k :=
  stackEntry_eq fills.edited.rewrites fun both => other both.2

theorem Fills.stackTable :
    tableAt after.memory root userStackPageIndex = tableAt before.memory root userStackPageIndex :=
  fills.edited.rewrites.tableAt (by decide) (by simp [userStackPageIndex])

include bounded

theorem Fills.stackEntry : (after.stackEntry root index).flags = userPage ∧
    (after.stackEntry root index).addr = frame := by
  rw [stackEntry_written fills.edited.rewrites]
  exact userPage_setAddr bounded

theorem Fills.stackEntry_ne_zero : after.stackEntry root index ≠ 0 := by
  intro zero
  have flags := (fills.stackEntry bounded).1
  rw [zero] at flags
  cases flags

theorem Fills.exposed (open_ : after.Exposed root slots k) : before.Exposed root slots k := by
  refine open_.imp id fun ⟨low, empty⟩ => ⟨low, ?_⟩
  by_cases here : Fin.ofNat 512 (k.1 + 1) = index
  · rw [here] at empty
    exact absurd empty (fills.stackEntry_ne_zero bounded)
  · rwa [stackEntry_eq fills.edited.rewrites (fun both => here both.2)] at empty

end Fills

/-- A page entered among the stacks, whose frame no other reachable entry has. -/
theorem Stacks.fillsHere (ordered : Stacks root slots before)
    (fills : Fills root before after userStackPageIndex index frame) (bounded : frame < frameUsageLen)
    (used : before.frameAllocator.frameUsage frame = true) (outside : frame ∉ tableSet 4 before.memory root)
    (lone : ∀ k, k ≠ index → after.Exposed root slots k → (before.stackEntry root k).flags = userPage →
      (before.stackEntry root k).addr ≠ frame) :
    Stacks root slots after := by
  obtain ⟨flags, addr⟩ := fills.stackEntry bounded
  have same : ∀ {k}, k ≠ index → after.stackEntry root k = before.stackEntry root k := fills.stackEntry_aside
  refine ⟨fun stem position prefixed => ?_, fun k => ?_, fun k open_ page => ?_, ?_⟩
  · have bound := prefixed.length_le
    rw [List.length_append, List.length_singleton, length_userStackPageIndex] at bound
    rw [fills.edited.rewrites position (by omega), if_neg]
    · exact ordered.way stem position prefixed
    · rintro ⟨rfl, _⟩
      rw [length_userStackPageIndex] at bound
      omega
  · by_cases here : k = index
    · rw [here]
      exact .inl flags
    · rw [same here]
      exact ordered.flags k
  · rw [fills.tables, fills.edited.sameAllocator]
    by_cases here : k = index
    · rw [here, addr]
      exact ⟨used, outside⟩
    · rw [same here] at page ⊢
      exact ordered.exposed k (fills.exposed bounded open_) page
  · intro k other open_ also page twin equal
    by_cases here : k = index
    · by_contra differs
      have there : other ≠ index := fun there => differs (here.trans there.symm)
      rw [here, addr, same there] at equal
      rw [same there] at twin
      exact lone other there also twin equal.symm
    · rw [same here] at page equal
      by_cases there : other = index
      · rw [there, addr] at equal
        exact absurd equal (lone k here open_ page)
      · rw [same there] at twin equal
        exact ordered.apart k other (fills.exposed bounded open_) (fills.exposed bounded also) page twin equal

theorem Standing.fills (standing : Standing root slots before)
    (fills : Fills root before after path index frame) (bounded : frame < frameUsageLen) :
    Standing root slots after := by
  refine standing.unchanged fun k entered => ?_
  by_cases here : userStackPageIndex = path ∧ k = index
  · obtain ⟨rfl, rfl⟩ := here
    intro empty
    have flags := (fills.stackEntry bounded).1
    rw [empty] at flags
    cases flags
  · rwa [stackEntry_eq fills.edited.rewrites here]

/-- An entry that is cleared again: everything else that can be reached keeps its
frame. -/
theorem Stacks.clears {n : Nat} (ordered : Stacks root slots before)
    (clears : Clears root before after userStackPageIndex index) (listed : n ∈ slots)
    (least : n * 8 ≤ index.1) (most : index.1 ≤ n * 8 + 10) : Stacks root slots after := by
  have open_index : before.Exposed root slots index := .inl ⟨n, listed, least, most⟩
  have same : ∀ {k}, k ≠ index → after.stackEntry root k = before.stackEntry root k :=
    fun other => stackEntry_eq clears.rewrites fun both => other both.2
  have cleared : (after.stackEntry root index).flags = 0 := by
    rw [stackEntry_written clears.rewrites, PageTableEntry.flags_setFlags (by decide)]
  have elsewhere : ∀ {k}, (after.stackEntry root k).flags = userPage → k ≠ index := by
    rintro k page rfl
    cases page.symm.trans cleared
  have reach : ∀ {k}, after.Exposed root slots k → before.Exposed root slots k := by
    rintro k (inside | ⟨low, empty⟩)
    · exact .inl inside
    · by_cases here : Fin.ofNat 512 (k.1 + 1) = index
      · -- the entry below a cleared one is in the slot too, or not below a slot
        have value : index.1 = k.1 + 1 := by
          rw [← here, Fin.val_ofNat]
          omega
        exact .inl ⟨n, listed, by omega, by omega⟩
      · rw [same here] at empty
        exact .inr ⟨low, empty⟩
  refine ⟨fun stem position prefixed => ?_, fun k => ?_, fun k open_ page => ?_, ?_⟩
  · have bound := prefixed.length_le
    rw [List.length_append, List.length_singleton, length_userStackPageIndex] at bound
    rw [clears.rewrites position (by omega), if_neg]
    · exact ordered.way stem position prefixed
    · rintro ⟨rfl, _⟩
      rw [length_userStackPageIndex] at bound
      omega
  · by_cases here : k = index
    · rw [here]
      exact .inr cleared
    · rw [same here]
      exact ordered.flags k
  · have other := elsewhere page
    rw [same other] at page ⊢
    obtain ⟨used, outside⟩ := ordered.exposed k (reach open_) page
    rw [clears.tables]
    refine ⟨(clears.frees.usage _).mpr ⟨used, ?_⟩, outside⟩
    rintro ⟨_, written, equal⟩
    have twin : (before.stackEntry root index).flags = userPage := by
      refine (ordered.flags index).resolve_right fun none_set => ?_
      rw [show entryAt before.memory root userStackPageIndex index = before.stackEntry root index from rfl,
        none_set] at written
      revert written
      decide
    exact other (ordered.apart k index (reach open_) open_index page twin equal.symm)
  · intro k other open_ also page twin equal
    have left := elsewhere page
    have right := elsewhere twin
    rw [same left] at page equal
    rw [same right] at twin equal
    exact ordered.apart k other (reach open_) (reach also) page twin equal

theorem Exposed.mono {fewer : List Nat} (kept : fewer ⊆ slots) (open_ : info.Exposed root fewer k) :
    info.Exposed root slots k :=
  open_.imp (fun ⟨m, listed, inside⟩ => ⟨m, kept listed, inside⟩) id

theorem Stacks.weaken {fewer : List Nat} (ordered : Stacks root slots info) (kept : fewer ⊆ slots) :
    Stacks root fewer info where
  way := ordered.way
  flags := ordered.flags
  exposed k open_ := ordered.exposed k (open_.mono kept)
  apart k other open_ also := ordered.apart k other (open_.mono kept) (also.mono kept)

/-- A slot whose pages are all empty may be guarded: of its entries only the one below
its pages can hold a page, and that one was within reach. -/
theorem Stacks.guard {n : Nat} (ordered : Stacks root slots info) (bounded : n * 8 + 10 < 512)
    (empty : ∀ k : Fin 512, n * 8 + 1 ≤ k.1 → k.1 ≤ n * 8 + 10 → info.stackEntry root k = 0) :
    Stacks root (n :: slots) info := by
  have reach : ∀ {k}, info.Exposed root (n :: slots) k → (info.stackEntry root k).flags = userPage →
      info.Exposed root slots k := by
    rintro k (⟨m, listed, least, most⟩ | low) page
    · rcases List.mem_cons.mp listed with rfl | listed
      · by_cases first : k.1 = m * 8
        · refine .inr ⟨by omega, empty _ ?_ ?_⟩ <;> rw [Fin.val_ofNat] <;> omega
        · rw [empty k (by omega) most] at page
          cases page
      · exact .inl ⟨m, listed, least, most⟩
    · exact .inr low
  refine ⟨ordered.way, ordered.flags, fun k open_ page => ordered.exposed k (reach open_ page) page, ?_⟩
  intro k other open_ also page twin
  exact ordered.apart k other (reach open_ page) (reach also twin) page twin

end Stacks

end MemoryInfo

end Zephyr
