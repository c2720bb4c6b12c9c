import Zephyr.Mem.Calls
import Zephyr.Mem.Copy
import Zephyr.Mem.OffsetPageTable

/-! The life of a process's memory: a tree built by `create_kernel_only_pagetable`,
changed by the calls that map user pages and stacks, and released. Along the way the
used frames are those used before, the tree's tables and its user pages. -/

namespace Zephyr

open Radix PageTableFlags Transition
open PageFrameAllocator (Grabs Frees)

namespace MemoryInfo

/-- The balance between the usage table and the tree, over the frames that were used
before. `ranges` are the slots whose entries are guarded, `live` the allocated stacks. -/
structure Balanced (baseline : Nat → Bool) (root : Nat) (ranges live pending : List Nat)
    (info : MemoryInfo) : Prop where
  owns : Owns (fun frame => baseline frame = true) root pending info
  ordered : Stacks root ranges info
  standing : Standing root live info
  covered : ∀ frame, info.frameAllocator.frameUsage frame = true → baseline frame = true ∨
    frame ∈ tableSet 4 info.memory root ∨ frame ∈ pending ∨ SomeEntry (UserPage frame) info.memory 4 root
  kept : ∀ frame, baseline frame = true → info.frameAllocator.frameUsage frame = true

section Balanced

variable {baseline : Nat → Bool} {root frame table : Nat} {ranges live pending : List Nat}
variable {info before after : MemoryInfo} {path : List (Fin 512)} {index : Fin 512}

theorem Balanced.takes {frameAllocator : PageFrameAllocator}
    (balanced : Balanced baseline root ranges live pending info)
    (takes : info.frameAllocator.Takes frame frameAllocator) :
    Balanced baseline root ranges live (frame :: pending) { info with frameAllocator } where
  owns := balanced.owns.takes takes
  ordered := balanced.ordered.takes takes
  standing := balanced.standing.unchanged fun _ entered => entered
  covered other used := by
    rcases (takes.frameUsage other).mp used with rfl | used
    · exact .inr (.inr (.inl (List.mem_cons_self ..)))
    · rcases balanced.covered other used with base | table | waiting | page
      · exact .inl base
      · exact .inr (.inl table)
      · exact .inr (.inr (.inl (List.mem_cons_of_mem _ waiting)))
      · exact .inr (.inr (.inr page))
  kept other base := (takes.frameUsage other).mpr (.inr (balanced.kept other base))

theorem Balanced.widens {flags : PageTableFlags} {entry : PageTableEntry} {child : Nat} {new : List Nat}
    (balanced : Balanced baseline root ranges live pending before)
    (widens : Widens root flags before after path index entry child new) :
    Balanced baseline root ranges live pending after where
  owns := balanced.owns.widens widens
  ordered := balanced.ordered.widens widens
  standing := balanced.standing.unchanged fun k entered => by rwa [widens.stackEntry]
  covered frame used := by
    rw [widens.edited.tables, widens.someEntry fun _ _ => userPage_leaf]
    rcases (widens.edited.grabs.frameUsage frame).mp used with made | used
    · exact .inr (.inl (.inl made))
    · exact (balanced.covered frame used).imp id (Or.imp .inr id)
  kept frame base := (widens.edited.grabs.frameUsage frame).mpr (.inr (balanced.kept frame base))

theorem Balanced.fills (balanced : Balanced baseline root ranges live pending before)
    (fills : Fills root before after path index frame) (waiting : frame ∈ pending)
    (ordered : Stacks root ranges after) : Balanced baseline root ranges live pending after where
  owns := balanced.owns.fills fills waiting
  ordered := ordered
  standing := balanced.standing.fills fills (balanced.owns.held frame waiting).2.2
  covered other used := by
    rw [fills.edited.sameAllocator] at used
    rw [fills.tables]
    exact (balanced.covered other used).imp id (Or.imp id (Or.imp id fills.someEntry_kept))
  kept other base := by
    rw [fills.edited.sameAllocator]
    exact balanced.kept other base

theorem Balanced.settle (balanced : Balanced baseline root ranges live (frame :: pending) info)
    (entered : SomeEntry (UserPage frame) info.memory 4 root) :
    Balanced baseline root ranges live pending info where
  owns := balanced.owns.settle (List.subset_cons_self frame pending)
  ordered := balanced.ordered
  standing := balanced.standing
  covered other used := by
    rcases balanced.covered other used with base | table | waiting | page
    · exact .inl base
    · exact .inr (.inl table)
    · rcases List.mem_cons.mp waiting with rfl | waiting
      · exact .inr (.inr (.inr entered))
      · exact .inr (.inr (.inl waiting))
    · exact .inr (.inr (.inr page))
  kept := balanced.kept

theorem Balanced.clears {n : Nat} (balanced : Balanced baseline root ranges live [] before)
    (clears : Clears root before after userStackPageIndex index) (listed : n ∈ ranges)
    (least : n * 8 ≤ index.1) (most : index.1 ≤ n * 8 + 10)
    (spared : ∀ m ∈ live, ¬ (m * 8 + 1 ≤ index.1 ∧ index.1 ≤ m * 8 + 10)) :
    Balanced baseline root ranges live [] after := by
  have open_ : before.Exposed root ranges index := .inl ⟨n, listed, least, most⟩
  have user : (entryAt before.memory root userStackPageIndex index).flags.contains writable = true →
      (before.stackEntry root index).flags = userPage := by
    intro written
    refine (balanced.ordered.flags index).resolve_right fun none_set => ?_
    change (before.stackEntry root index).flags.contains writable = true at written
    rw [none_set] at written
    revert written
    decide
  have contained : (entryAt before.memory root userStackPageIndex index).flags.contains writable = true →
      (entryAt before.memory root userStackPageIndex index).flags.contains userPage = true := by
    intro written
    change (before.stackEntry root index).flags.contains userPage = true
    rw [user written]
    decide
  refine ⟨balanced.owns.clears clears contained fun written => ⟨?_, List.not_mem_nil⟩,
    balanced.ordered.clears clears listed least most, ?_, ?_, ?_⟩
  · exact (balanced.ordered.exposed index open_ (user written)).2
  · refine ⟨fun m live_m => ⟨(balanced.standing.entered m live_m).1, fun k low high => ?_⟩,
      balanced.standing.spaced⟩
    have aside : k ≠ index := by
      rintro rfl
      exact spared m live_m ⟨low, high⟩
    rw [stackEntry_eq clears.rewrites fun both => aside both.2]
    exact (balanced.standing.entered m live_m).2 k low high
  · intro frame used
    obtain ⟨used, given⟩ := (clears.frees.usage frame).mp used
    rw [clears.tables]
    rcases balanced.covered frame used with base | table | waiting | page
    · exact .inl base
    · exact .inr (.inl table)
    · cases waiting
    · refine .inr (.inr (.inr (clears.rewrites.someEntry_kept (fun here => given ?_) page)))
      -- the page cleared is the only one with its frame that matters
      have written : (entryAt before.memory root userStackPageIndex index).flags.contains writable = true := by
        have both := here.2.1
        rw [userPage, contains_or, contains_or] at both
        exact both.1.2
      exact ⟨(balanced.owns.pages frame page).2, written, here.2.2⟩
  · intro frame base
    refine (clears.frees.usage frame).mpr ⟨balanced.kept frame base, ?_⟩
    rintro ⟨_, written, rfl⟩
    refine (balanced.owns.pages _ ⟨userStackPageIndex, index, by decide, .inl rfl, contained written, rfl⟩).1 base

theorem Balanced.guard {n : Nat} (balanced : Balanced baseline root ranges live pending info)
    (bounded : n * 8 + 10 < 512)
    (empty : ∀ k : Fin 512, n * 8 + 1 ≤ k.1 → k.1 ≤ n * 8 + 10 → info.stackEntry root k = 0) :
    Balanced baseline root (n :: ranges) live pending info :=
  { balanced with ordered := balanced.ordered.guard bounded empty }

/-- Fewer slots are guarded, or count as allocated. -/
theorem Balanced.weaken {fewer less : List Nat} (balanced : Balanced baseline root ranges live pending info)
    (kept : fewer ⊆ ranges) (spared : less.Sublist live) :
    Balanced baseline root fewer less pending info :=
  { balanced with
    ordered := balanced.ordered.weaken kept
    standing := ⟨fun m listed => balanced.standing.entered m (spared.subset listed),
      balanced.standing.spaced.sublist spared⟩ }

end Balanced

section Pages

variable {baseline : Nat → Bool} {root frame number : Nat} {live pending : List Nat}
variable {info before after : MemoryInfo}

theorem p1Index_page (number : Nat) : (VirtAddr.p1Index (number * 4096)).1 = number % 512 := by
  have whole : number * 4096 / 2 ^ 12 = number := Nat.mul_div_cancel number (by decide)
  rw [VirtAddr.p1Index, Fin.val_ofNat, whole]

/-- The page after one whose entry can start a slot is the next entry. -/
theorem next_page (here : VirtAddr.path (number * 4096) = userStackPageIndex)
    (low : (VirtAddr.p1Index (number * 4096)).1 % 8 = 0) :
    VirtAddr.path ((number + 1) * 4096) = userStackPageIndex ∧
      (VirtAddr.p1Index ((number + 1) * 4096)).1 = (VirtAddr.p1Index (number * 4096)).1 + 1 := by
  rw [p1Index_page] at low
  rw [p1Index_page, p1Index_page]
  refine ⟨?_, by omega⟩
  rw [← here]
  have second : (number + 1) * 4096 / 2 ^ 21 = number * 4096 / 2 ^ 21 := by omega
  have third : (number + 1) * 4096 / 2 ^ 30 = number * 4096 / 2 ^ 30 := by omega
  have fourth : (number + 1) * 4096 / 2 ^ 39 = number * 4096 / 2 ^ 39 := by omega
  simp only [VirtAddr.path, VirtAddr.p2Index, VirtAddr.p3Index, VirtAddr.p4Index, second, third, fourth]

/-- A frame entered page by page is behind no reachable entry but the last one, when
that is the entry before the page to come. -/
def Trails (info : MemoryInfo) (root : Nat) (live : List Nat) (page : VirtAddr) (frame : Nat) : Prop :=
  ∀ k, info.Exposed root live k → (info.stackEntry root k).flags = userPage →
    (info.stackEntry root k).addr = frame →
    k.1 % 8 = 0 ∧ page.path = userStackPageIndex ∧ page.p1Index.1 = k.1 + 1

theorem Balanced.trails {frameAllocator : PageFrameAllocator}
    (balanced : Balanced baseline root live live pending info)
    (takes : info.frameAllocator.Takes frame frameAllocator) (page : VirtAddr) :
    Trails { info with frameAllocator } root live page frame :=
  fun _ open_ user same => absurd same (balanced.ordered.hidden takes.available.2 open_ user)

/-- A page entered after others with the same frame cannot be reached together with
them. -/
theorem Trails.lone {page : VirtAddr} (trails : Trails before root live page frame)
    (standing : Standing root live before) (bounded : frame < frameUsageLen)
    (empty : before.stackEntry root page.p1Index = 0)
    (fills : Fills root before after userStackPageIndex page.p1Index frame) (k : Fin 512)
    (open_ : after.Exposed root live k) (user : (before.stackEntry root k).flags = userPage) :
    (before.stackEntry root k).addr ≠ frame := by
  intro same
  obtain ⟨low, _, next_index⟩ := trails k (fills.exposed bounded open_) user same
  rcases open_ with ⟨n, listed, least, most⟩ | ⟨_, vacant⟩
  · exact (standing.entered n listed).2 page.p1Index (by omega) (by omega) empty
  · have here : Fin.ofNat 512 (k.1 + 1) = page.p1Index := by
      refine Fin.ext ?_
      rw [Fin.val_ofNat]
      omega
    rw [here] at vacant
    have flags := (fills.stackEntry bounded).1
    rw [vacant] at flags
    cases flags

theorem Balanced.maps (balanced : Balanced baseline root live live pending before)
    (waiting : frame ∈ pending) (trails : Trails before root live (number * 4096) frame)
    (maps : Maps root (number * 4096) frame userPage userPage before after) :
    Balanced baseline root live live pending after ∧ SomeEntry (UserPage frame) after.memory 4 root ∧
      Trails after root live ((number + 1) * 4096) frame := by
  obtain ⟨middle, edits, still, empty, fills⟩ := maps.fills balanced.owns.sound
  have entered : Balanced baseline root live live pending middle ∧
      ∀ k, middle.stackEntry root k = before.stackEntry root k :=
    TableEdits.keeps (fun info => Balanced baseline root live live pending info ∧
        ∀ k, info.stackEntry root k = before.stackEntry root k)
      balanced.owns.sound tableFlags_userPage edits ⟨balanced, fun _ => rfl⟩
      fun ⟨first, same⟩ widens => ⟨first.widens widens, fun k => (widens.stackEntry k).trans (same k)⟩
  obtain ⟨middling, same⟩ := entered
  obtain ⟨used, _, bounded⟩ := middling.owns.held frame waiting
  have trailing : Trails middle root live (number * 4096) frame := by
    intro k open_ user equal
    unfold Exposed at open_
    rw [same] at open_ user equal
    exact trails k open_ user equal
  have outside : frame ∉ tableSet 4 middle.memory root :=
    fun listed => (middling.owns.tables frame listed).2.2.2 waiting
  by_cases here : VirtAddr.path (number * 4096) = userStackPageIndex
  · rw [here] at fills empty
    have lone := fun k (_ : k ≠ VirtAddr.p1Index (number * 4096)) =>
      trailing.lone middling.standing bounded empty fills k
    have ordered := middling.ordered.fillsHere fills bounded used outside lone
    refine ⟨middling.fills fills waiting ordered, fills.someEntry bounded, fun k open_ user equal => ?_⟩
    have last : k = VirtAddr.p1Index (number * 4096) := by
      by_contra other
      rw [stackEntry_eq fills.edited.rewrites fun both => other both.2] at user equal
      exact lone k other open_ user equal
    have low : k.1 % 8 = 0 := by
      rcases open_ with ⟨n, listed, least, most⟩ | ⟨low, _⟩
      · by_cases first : k.1 = n * 8
        · omega
        · refine absurd ?_ ((middling.standing.entered n listed).2 k (by omega) most)
          rw [last]
          exact empty
      · exact low
    rw [last] at low ⊢
    exact ⟨low, next_page here low⟩
  · have ordered := middling.ordered.fillsAside fills here
    refine ⟨middling.fills fills waiting ordered, fills.someEntry bounded, fun k open_ user equal => ?_⟩
    have kept : ∀ k, after.stackEntry root k = middle.stackEntry root k :=
      fun k => stackEntry_eq fills.edited.rewrites fun both => here both.1.symm
    unfold Exposed at open_
    rw [kept] at open_ user equal
    exact absurd (trailing k open_ user equal).2.1 here

variable {mapper : Mapper} {count : Nat}

theorem Balanced.allocateEach (balanced : Balanced baseline root live live [] before)
    (returned : allocateEach mapper root userPage
      ((List.range' number count).map fun number => VirtAddr.newTruncate (number * 4096)) before =
      .ok (.ok (), after)) : Balanced baseline root live live [] after := by
  induction count generalizing number before with
  | zero =>
    cases returned
    exact balanced
  | succ count ih =>
    rw [List.range'_succ, List.map_cons, MemoryInfo.allocateEach] at returned
    split at returned
    · cases returned
    · cases returned
    · rename_i frame frameAllocator allocated
      split at returned
      · cases returned
      · cases returned
      · rename_i middle mapped
        have taken := balanced.takes allocated
        have maps := (mapper.mapped taken.owns.sound tableFlags_userPage mapped).of_newTruncate
        obtain ⟨entered, page, _⟩ := taken.maps (List.mem_cons_self ..) (balanced.trails allocated _) maps
        exact ih (entered.settle page) returned

theorem Balanced.mapEach (balanced : Balanced baseline root live live [frame] before)
    (trails : Trails before root live (number * 4096) frame)
    (returned : mapEach mapper root frame
      ((List.range' number count).map fun number => VirtAddr.newTruncate (number * 4096)) before =
      .ok (.ok (), after)) :
    Balanced baseline root live live [frame] after ∧
      (∀ path index, path.length = 3 → entryAt before.memory root path index ≠ 0 →
        entryAt after.memory root path index = entryAt before.memory root path index) ∧
      (count ≠ 0 → entryAt after.memory root (VirtAddr.path (number * 4096)) (VirtAddr.p1Index (number * 4096)) =
        .setAddr frame userPage) := by
  induction count generalizing number before with
  | zero =>
    cases returned
    exact ⟨balanced, fun _ _ _ _ => rfl, fun nonzero => absurd rfl nonzero⟩
  | succ count ih =>
    rw [List.range'_succ, List.map_cons, MemoryInfo.mapEach] at returned
    split at returned
    · cases returned
    · cases returned
    · rename_i middle mapped
      have maps := (mapper.mapped balanced.owns.sound tableFlags_userPage mapped).of_newTruncate
      obtain ⟨here, others⟩ := maps.leaf balanced.owns.sound
      obtain ⟨entered, page, trailing⟩ := balanced.maps (List.mem_singleton_self frame) trails maps
      obtain ⟨finished, kept, _⟩ := ih entered trailing returned
      have bounded := (balanced.owns.held frame (List.mem_singleton_self frame)).2.2
      have used : PageTableEntry.setAddr frame userPage ≠ 0 :=
        PageTableEntry.setAddr_ne_zero (lt_of_frameUsageLen bounded) tableFlags_userPage.clean
          tableFlags_userPage.nonzero
      refine ⟨finished, fun path index last nonzero => ?_, fun _ => ?_⟩
      · have first := others path index last nonzero
        rw [kept path index last (by rwa [first]), first]
      · rw [kept _ _ rfl (by rwa [here]), here]

theorem Balanced.createUserOndemandPages {start size : Nat}
    (balanced : Balanced baseline root live live [] before)
    (nonempty : ∃ page pages, pagesOf start size = .ok (page :: pages))
    (returned : before.createUserOndemandPages mapper root start size = .ok (.ok (), after)) :
    Balanced baseline root live live [] after := by
  obtain ⟨page, pages, listed⟩ := nonempty
  obtain ⟨count, range⟩ := pagesOf_ok listed
  have positive : count ≠ 0 := by
    rintro rfl
    cases range
  obtain ⟨frame, frameAllocator, middle, takes, mapped, updated⟩ := createUserOndemandPages_ok listed returned
  rw [range] at mapped
  have taken := balanced.takes takes
  obtain ⟨entered, _, first⟩ := taken.mapEach (balanced.trails takes _) mapped
  obtain ⟨flags, addr⟩ := userPage_setAddr takes.bounded
  have here := first positive
  obtain rfl := updateFlags_same takes.bounded here updated
  refine entered.settle ⟨VirtAddr.path (start / 4096 * 4096), VirtAddr.p1Index (start / 4096 * 4096),
    VirtAddr.path_lt _, .inl rfl, ?_, ?_⟩
  · rw [here, flags]
    decide
  · rw [here, addr]

end Pages

section StackCalls

variable {baseline : Nat → Bool} {root table n : Nat} {ranges live : List Nat}
variable {info before after : MemoryInfo}

theorem mem_slotPages {page : Nat} : page ∈ slotPages n ↔ n * 8 + 1 ≤ page ∧ page ≤ n * 8 + 10 := by
  simp only [slotPages, List.mem_map, List.mem_range]
  constructor
  · rintro ⟨step, small, rfl⟩
    omega
  · rintro ⟨least, most⟩
    exact ⟨page - (n * 8 + 1), by omega, by omega⟩

/-- The slot that the search has found is empty. -/
theorem blank_of_allUnused (found : tableAt info.memory root userStackPageIndex = some table)
    (unused : info.allUnused table (slotPages n) = .ok true) :
    n * 8 + 10 < 512 ∧ ∀ k : Fin 512, k.1 ∈ slotPages n → info.stackEntry root k = 0 := by
  have vacant := allUnused_true unused
  refine ⟨(vacant (n * 8 + 10) (mem_slotPages.mpr (by omega))).1, fun k listed => ?_⟩
  rw [stackEntry, entryAt_of_tableAt found]
  exact (vacant k.1 listed).2

/-- Frames entered among the stacks one by one. -/
theorem Balanced.fillSlot {indices : List Nat} (balanced : Balanced baseline root ranges live [] before)
    (found : tableAt before.memory root userStackPageIndex = some table) (distinct : indices.Nodup)
    (empty : ∀ k : Fin 512, k.1 ∈ indices → before.stackEntry root k = 0)
    (returned : before.fillSlot table indices = .ok (.ok (), after)) :
    Balanced baseline root ranges live [] after ∧
      (∀ k, before.stackEntry root k ≠ 0 → after.stackEntry root k ≠ 0) ∧
      ∀ k : Fin 512, k.1 ∈ indices → after.stackEntry root k ≠ 0 := by
  induction indices generalizing before with
  | nil =>
    cases returned
    exact ⟨balanced, fun _ used => used, fun _ listed => nomatch listed⟩
  | cons index indices ih =>
    obtain ⟨fresh, distinct⟩ := List.nodup_cons.mp distinct
    obtain ⟨inside, ⟨failed, _⟩ | ⟨frame, frameAllocator, takes, rest⟩⟩ := fillSlot_cons returned
    · cases failed
    · have taken := balanced.takes takes
      have vacant := empty ⟨index, inside⟩ (List.mem_cons_self ..)
      have fills := balanced.owns.sound.fillsStack found (by rw [vacant]; rfl) takes
      have waiting : frame ∈ [frame] := List.mem_singleton_self frame
      have outside : frame ∉ tableSet 4 before.memory root :=
        fun listed => (taken.owns.tables frame listed).2.2.2 waiting
      have ordered := taken.ordered.fillsHere fills takes.bounded (taken.owns.held frame waiting).1 outside
        fun k _ open_ user => balanced.ordered.hidden takes.available.2 (fills.exposed takes.bounded open_) user
      have entered := (taken.fills fills waiting ordered).settle (fills.someEntry takes.bounded)
      have used := fills.stackEntry_ne_zero takes.bounded
      have kept : ∀ k, k ≠ ⟨index, inside⟩ → (MemoryInfo.write { before with frameAllocator } table
          ⟨index, inside⟩ (.setAddr frame userPage)).stackEntry root k = before.stackEntry root k :=
        fun k other => fills.stackEntry_aside other
      have aside : ∀ {k : Fin 512}, k.1 ∈ indices → k ≠ ⟨index, inside⟩ := by
        rintro k listed rfl
        exact fresh listed
      obtain ⟨finished, still, all⟩ := ih entered (fills.stackTable.trans found) distinct
        (fun k listed => (kept k (aside listed)).trans (empty k (List.mem_cons_of_mem _ listed))) rest
      refine ⟨finished, fun k old => ?_, fun k listed => ?_⟩
      · by_cases here : k = ⟨index, inside⟩
        · rw [here]
          exact still _ used
        · exact still k (by rwa [kept k here])
      · rcases List.mem_cons.mp listed with same | listed
        · obtain rfl : k = ⟨index, inside⟩ := Fin.ext same
          exact still _ used
        · exact all k listed

theorem findSlot_cases {nStart : Nat} {rounds : List Nat} {result : Except String (VirtAddr × VirtAddr)}
    (returned : info.findSlot table nStart rounds = .ok (result, after)) :
    (result = .error "All thread stack slots full" ∧ after = info) ∨
      ∃ n filled, info.allUnused table (slotPages n) = .ok true ∧
        info.fillSlot table (slotPages n) = .ok (filled, after) ∧
        result = filled.map fun _ => (slotAddress n + 4096, slotAddress n + 11 * 4096) := by
  induction rounds with
  | nil =>
    cases returned
    exact .inl ⟨rfl, rfl⟩
  | cons i rounds ih =>
    unfold findSlot at returned
    dsimp only at returned
    split at returned
    · cases returned
    · exact ih returned
    · rename_i unused
      split at returned
      · cases returned
      · rename_i failed
        cases returned
        exact .inr ⟨_, _, unused, failed, rfl⟩
      · rename_i filled
        cases returned
        exact .inr ⟨_, _, unused, filled, rfl⟩

/-- An empty slot does not overlap an allocated one: a common page would be both empty
and entered. -/
theorem Standing.apart_of_empty {slots : List Nat} {m : Nat} (standing : Standing root slots info)
    (listed : m ∈ slots) (bounded : n * 8 + 10 < 512)
    (empty : ∀ k : Fin 512, n * 8 + 1 ≤ k.1 → k.1 ≤ n * 8 + 10 → info.stackEntry root k = 0) :
    n + 2 ≤ m ∨ m + 2 ≤ n := by
  by_contra close
  rw [not_or] at close
  have apart : ∀ k : Nat, (inside : k < 512) → n * 8 + 1 ≤ k → k ≤ n * 8 + 10 → m * 8 + 1 ≤ k →
      k ≤ m * 8 + 10 → False := fun k inside low high least most =>
    (standing.entered m listed).2 ⟨k, inside⟩ least most (empty ⟨k, inside⟩ low high)
  have limit := (standing.entered m listed).1
  exact apart (max (n * 8) (m * 8) + 1) (by omega) (by omega) (by omega) (by omega) (by omega)

theorem slotPages_nodup : (slotPages n).Nodup := by
  refine List.Nodup.map (fun one other same => ?_) List.nodup_range
  simpa using same

theorem Balanced.allocateUserStack {nStart : Nat} {bottom top : VirtAddr}
    (balanced : Balanced baseline root live live [] before)
    (returned : before.allocateUserStack root nStart = .ok (.ok (bottom, top), after)) :
    ∃ n, top = slotAddress n + 11 * 4096 ∧ Balanced baseline root (n :: live) (n :: live) [] after := by
  unfold MemoryInfo.allocateUserStack at returned
  split at returned
  · cases returned
  · rename_i table middle reached
    obtain ⟨edits, found⟩ := stackTable_ok [] balanced.owns.sound rfl rfl balanced.ordered.way reached
    have middling : Balanced baseline root live live [] middle :=
      TableEdits.keeps (Balanced baseline root live live []) balanced.owns.sound tableFlags_userPage edits
        balanced Balanced.widens
    obtain ⟨n, unused, filled, rfl⟩ : ∃ n, middle.allUnused table (slotPages n) = .ok true ∧
        middle.fillSlot table (slotPages n) = .ok (.ok (), after) ∧ top = slotAddress n + 11 * 4096 := by
      rcases findSlot_cases returned with ⟨failed, _⟩ | ⟨n, result, unused, filled, same⟩
      · cases failed
      · cases result with
        | error => cases same
        | ok =>
          cases same
          exact ⟨n, unused, filled, rfl⟩
    refine ⟨n, rfl, ?_⟩
    obtain ⟨bounded, blank⟩ := blank_of_allUnused found unused
    have empty : ∀ k : Fin 512, n * 8 + 1 ≤ k.1 → k.1 ≤ n * 8 + 10 → middle.stackEntry root k = 0 :=
      fun k least most => blank k (mem_slotPages.mpr ⟨least, most⟩)
    obtain ⟨finished, _, entered⟩ :=
      (middling.guard bounded empty).fillSlot found slotPages_nodup blank filled
    refine ⟨finished.owns, finished.ordered, ⟨?_, ?_⟩, finished.covered, finished.kept⟩
    · intro m listed
      rcases List.mem_cons.mp listed with rfl | listed
      · exact ⟨bounded, fun k least most => entered k (mem_slotPages.mpr ⟨least, most⟩)⟩
      · exact finished.standing.entered m listed
    · exact List.pairwise_cons.mpr
        ⟨fun m listed => middling.standing.apart_of_empty listed bounded empty, finished.standing.spaced⟩

theorem Balanced.allocateMissingOndemandFrame {addr : VirtAddr}
    (balanced : Balanced baseline root live live [] before)
    (walks : (tableAt before.memory root addr.path).isSome)
    (returned : before.allocateMissingOndemandFrame root addr = .ok (.ok (), after)) :
    Balanced baseline root live live [] after := by
  obtain ⟨table, found⟩ := Option.isSome_iff_exists.mp walks
  obtain ⟨frame, frameAllocator, takes, flags, fills⟩ :=
    allocateMissingOndemandFrame_ok balanced.owns.sound found returned
  have aside : addr.path ≠ userStackPageIndex := by
    intro here
    rw [here] at flags
    rcases balanced.ordered.flags addr.p1Index with page | none_set
    · cases flags.symm.trans page
    · cases flags.symm.trans none_set
  have taken := balanced.takes takes
  exact (taken.fills fills (List.mem_singleton_self frame) (taken.ordered.fillsAside fills aside)).settle
    (fills.someEntry takes.bounded)

theorem Standing.apart {m : Nat} (standing : Standing root live info) (listed : n ∈ live)
    (other : m ∈ live.erase n) : n + 2 ≤ m ∨ m + 2 ≤ n := by
  have symmetric : Std.Symm fun n m : Nat => n + 2 ≤ m ∨ m + 2 ≤ n := ⟨fun _ _ => Or.symm⟩
  have distinct : live.Nodup := standing.spaced.imp fun apart => by
    rintro rfl
    omega
  obtain ⟨differs, member⟩ := (distinct.mem_erase_iff).mp other
  exact standing.spaced.forall listed member differs.symm

theorem Balanced.freeStackEntries {indices : List (Fin 512)}
    (balanced : Balanced baseline root ranges live [] before)
    (found : tableAt before.memory root userStackPageIndex = some table) (guarded : n ∈ ranges)
    (inside : ∀ index ∈ indices, n * 8 ≤ index.1 ∧ index.1 ≤ n * 8 + 10)
    (spared : ∀ m ∈ live, n + 2 ≤ m ∨ m + 2 ≤ n)
    (returned : indices.foldlM (freeStackEntry table) before = .ok after) :
    Balanced baseline root ranges live [] after := by
  induction indices generalizing before with
  | nil =>
    cases returned
    exact balanced
  | cons index indices ih =>
    rw [List.foldlM_cons] at returned
    cases step : freeStackEntry table before index with
    | error panic =>
      rw [step] at returned
      cases returned
    | ok middle =>
      rw [step] at returned
      have clears := freeStackEntry_ok balanced.owns.sound found step
      obtain ⟨least, most⟩ := inside index (List.mem_cons_self ..)
      refine ih (balanced.clears clears guarded least most fun m listed => ?_) ?_
        (fun other listed => inside other (List.mem_cons_of_mem _ listed)) returned
      · have apart := spared m listed
        omega
      · rw [clears.rewrites.tableAt (by decide) (by simp [userStackPageIndex]), found]

/-- The addresses of a stack, and of the page below it, lie in the entries `n * 8` to
`n * 8 + 10`. -/
theorem slot_path {addr : Nat} (bounded : n * 8 + 10 < 512) (least : slotAddress n ≤ addr)
    (most : addr < slotAddress n + 11 * 4096) :
    VirtAddr.path addr = userStackPageIndex ∧
      (VirtAddr.p1Index addr).1 = n * 8 + (addr - slotAddress n) / 4096 := by
  unfold slotAddress at least most ⊢
  have second : addr / 2 ^ 21 = 6 * 2 ^ 18 := by omega
  have third : addr / 2 ^ 30 = 6 * 2 ^ 9 := by omega
  have fourth : addr / 2 ^ 39 = 6 := by omega
  constructor
  · simp only [VirtAddr.path, VirtAddr.p2Index, VirtAddr.p3Index, VirtAddr.p4Index, second, third, fourth]
    decide
  · rw [VirtAddr.p1Index, Fin.val_ofNat]
    omega

theorem stackEnd_path (bounded : n * 8 + 10 < 512) :
    VirtAddr.path (slotAddress n + 11 * 4096 - 1) = userStackPageIndex ∧
      (VirtAddr.p1Index (slotAddress n + 11 * 4096 - 1)).1 = n * 8 + 10 := by
  obtain ⟨path, index⟩ := slot_path bounded (by omega) (by omega : slotAddress n + 11 * 4096 - 1 < _)
  exact ⟨path, index.trans (by omega)⟩

theorem mem_stackEntries {iend index : Fin 512} (high : 10 ≤ iend.1) :
    index ∈ stackEntries iend ↔ iend.1 ≤ index.1 + 10 ∧ index.1 ≤ iend.1 := by
  have bounded := iend.2
  rw [stackEntries, if_neg (by omega)]
  simp only [List.mem_map, List.mem_range]
  constructor
  · rintro ⟨step, small, rfl⟩
    rw [Fin.val_ofNat]
    omega
  · rintro ⟨low, below⟩
    refine ⟨iend.1 - index.1, by omega, Fin.ext ?_⟩
    rw [Fin.val_ofNat]
    omega

theorem freeUserStack_eq {top : Nat} (isTop : top = slotAddress n + 11 * 4096) (bounded : n * 8 + 10 < 512)
    (found : tableAt info.memory root userStackPageIndex = some table) :
    ∃ indices : List (Fin 512), (∀ index, index ∈ indices ↔ n * 8 ≤ index.1 ∧ index.1 ≤ n * 8 + 10) ∧
      info.freeUserStack root top = indices.foldlM (freeStackEntry table) info := by
  obtain ⟨path, last⟩ := stackEnd_path bounded
  rw [← isTop] at path last
  have sub : VirtAddr.sub top 1 = .ok (top - 1) := by
    unfold slotAddress at isTop
    rw [VirtAddr.sub, if_pos (by omega), VirtAddr.new_of_lt (by omega)]
  have reached : info.activeLevel1TableContaining root (top - 1) = table :=
    activeLevel1TableContaining_eq (by rw [path]; exact found)
  refine ⟨stackEntries (VirtAddr.p1Index (top - 1)), fun index => ?_, ?_⟩
  · rw [mem_stackEntries (by omega), last]
    omega
  · rw [freeUserStack, sub]
    simp only [bind, Except.bind, reached]

theorem Balanced.freeUserStack {top : VirtAddr} (balanced : Balanced baseline root live live [] before)
    (listed : n ∈ live) (isTop : top = slotAddress n + 11 * 4096)
    (returned : before.freeUserStack root top = .ok after) :
    Balanced baseline root (live.erase n) (live.erase n) [] after := by
  obtain ⟨bounded, entered⟩ := balanced.standing.entered n listed
  obtain ⟨table, found, _⟩ := tableAt_of_entryAt_ne
    (entered ⟨n * 8 + 10, bounded⟩ (by simp) (Nat.le_refl _))
  obtain ⟨indices, range, loop⟩ := freeUserStack_eq isTop bounded found
  rw [loop] at returned
  exact ((balanced.weaken (List.Subset.refl live) List.erase_sublist).freeStackEntries found listed
    (fun index member => (range index).mp member) (fun m other => balanced.standing.apart listed other) returned).weaken
    List.erase_subset (List.Sublist.refl _)

end StackCalls

theorem Balanced.freeUserPagetables {baseline : Nat → Bool} {root : Nat} {ranges live : List Nat}
    {info : MemoryInfo} (balanced : Balanced baseline root ranges live [] info) :
    ∃ after, info.freeUserPagetables root = .ok after ∧ after.frameAllocator.frameUsage = baseline := by
  obtain ⟨frameAllocator, finished, frees⟩ := freeUserPagetables_spec info balanced.owns.plain
  refine ⟨_, finished, funext fun frame => ?_⟩
  have released : Released info.memory 4 root frame ↔
      frame ∈ tableSet 4 info.memory root ∨ SomeEntry (UserPage frame) info.memory 4 root := by
    rw [Released, mem_tables]
  have same : frameAllocator.frameUsage frame = true ↔ baseline frame = true := by
    rw [frees.usage, released]
    constructor
    · rintro ⟨used, given⟩
      rcases balanced.covered frame used with base | table | waiting | page
      · exact base
      · exact absurd ⟨(balanced.owns.tables frame table).2.2.1, .inl table⟩ given
      · cases waiting
      · exact absurd ⟨(balanced.owns.pages frame page).2, .inr page⟩ given
    · intro base
      refine ⟨balanced.kept frame base, ?_⟩
      rintro ⟨_, table | page⟩
      · exact (balanced.owns.tables frame table).2.1 base
      · exact (balanced.owns.pages frame page).1 base
  exact Bool.eq_iff_iff.mpr same

theorem entryAt_of_unused {memory : Memory Nat 512 PageTableEntry} {root : Nat} {slot : Fin 512}
    (unused : entryAt memory root [] slot = 0) (path : List (Fin 512)) (index : Fin 512) :
    entryAt memory root (slot :: path) index = 0 := by
  refine entryAt_cons_none ?_
  change memory root slot = 0 at unused
  rw [unused, TableEntry.next_zero]

section Create

variable {info created : MemoryInfo} {kernel root : Nat}

theorem Copied.owns (copied : Copied info created kernel root)
    (leaves : ∀ frame, ¬ SomeEntry (UserPage frame) info.memory 4 kernel) {foreign : Nat → Prop}
    (shut : ∀ frame, foreign frame → ¬ info.frameAllocator.Available frame) :
    Owns foreign root [] created := by
  have pageless : ∀ frame, ¬ SomeEntry (UserPage frame) created.memory 4 root :=
    fun frame found => leaves frame (copied.mirrors.someEntry (fun _ _ page => page.1) found)
  refine ⟨⟨unshared_of_nodup copied.grabs.nodup, ?_⟩, ?_, fun frame found => absurd found (pageless frame), ?_,
    fun frame listed => absurd listed List.not_mem_nil, fun frame strange => copied.grabs.not_available (shut frame strange)⟩
  · exact fun table listed => copied.grabs.not_available_of_mem (mem_tables.mpr listed)
  · intro table listed
    have made := mem_tables.mpr listed
    exact ⟨(copied.grabs.frameUsage table).mpr (.inl made), fun strange => shut table strange
      (copied.grabs.available made), copied.grabs.bounded made, List.not_mem_nil⟩
  · rintro ⟨path, index, short, leaf, user, _⟩
    exact pageless _ ⟨path, index, short, leaf, user, rfl⟩

theorem Copied.slotUnused (copied : Copied info created kernel root)
    (slot : entryAt info.memory kernel [] 6 = 0) : entryAt created.memory root [] 6 = 0 := by
  obtain ⟨same, _⟩ := copied.mirrors.entryAt (by decide : ([] : List (Fin 512)).length < 4) 6
  rw [same (.inr (by rw [slot, TableEntry.next_zero])), slot]

theorem stacks_of_unused (unused : entryAt created.memory root [] 6 = 0) : Stacks root [] created := by
  have empty : ∀ k, created.stackEntry root k = 0 := entryAt_of_unused unused [0, 0]
  refine ⟨fun stem index prefixed => .inl ?_, fun k => ?_, fun k _ page => ?_, fun k _ _ _ page => ?_⟩
  · cases stem with
    | nil =>
      obtain rfl : index = 6 := by simpa [userStackPageIndex] using prefixed
      exact unused
    | cons first stem =>
      obtain rfl : first = 6 := by
        rw [List.cons_append, userStackPageIndex, List.cons_prefix_cons] at prefixed
        exact prefixed.1
      exact entryAt_of_unused unused stem index
  · rw [empty]
    exact .inr rfl
  · rw [empty] at page
    cases page
  · rw [empty] at page
    cases page

theorem Copied.balanced (copied : Copied info created kernel root)
    (slot : entryAt info.memory kernel [] 6 = 0)
    (leaves : ∀ frame, ¬ SomeEntry (UserPage frame) info.memory 4 kernel) :
    Balanced info.frameAllocator.frameUsage root [] [] [] created where
  owns := copied.owns leaves fun frame used available => by
    cases used.symm.trans available.2
  ordered := stacks_of_unused (copied.slotUnused slot)
  standing := ⟨fun n listed => absurd listed List.not_mem_nil, .nil⟩
  covered frame used := by
    rcases (copied.grabs.frameUsage frame).mp used with made | used
    · exact .inr (.inl (mem_tables.mp made))
    · exact .inl used
  kept frame used := (copied.grabs.frameUsage frame).mpr (.inr used)

end Create

end MemoryInfo

/-- A process's memory: what the kernel has, and the ends of the user stacks that are
allocated in the process's tree. -/
structure ProcessMemory where
  info : MemoryInfo
  stackEnds : List VirtAddr

/-- The calls that change a process's tree. -/
inductive MemoryCall where
  | allocatePages (startAddr : VirtAddr) (size : Nat)
  | createUserOndemandPages (startAddr : VirtAddr) (size : Nat)
  | allocateUserStack (nStart : Nat)
  | allocateMissingOndemandFrame (addr : VirtAddr)
  | freeUserStack (stackEnd : VirtAddr)

namespace ProcessMemory

open MemoryInfo

/-- Successful calls on the tree at `root`, which is the active one. -/
inductive Step (mapper : Mapper) (root : Nat) : ProcessMemory → MemoryCall → ProcessMemory → Prop where
  | allocatePages {before : ProcessMemory} {startAddr : VirtAddr} {size : Nat} {after : MemoryInfo}
      (returned : before.info.allocatePages mapper root startAddr size userPage = .ok (.ok (), after)) :
      Step mapper root before (.allocatePages startAddr size) { before with info := after }
  | createUserOndemandPages {before : ProcessMemory} {startAddr : VirtAddr} {size : Nat} {after : MemoryInfo}
      (returned : before.info.createUserOndemandPages mapper root startAddr size = .ok (.ok (), after)) :
      Step mapper root before (.createUserOndemandPages startAddr size) { before with info := after }
  | allocateUserStack {before : ProcessMemory} {nStart : Nat} {bottom top : VirtAddr} {after : MemoryInfo}
      (returned : before.info.allocateUserStack root nStart = .ok (.ok (bottom, top), after)) :
      Step mapper root before (.allocateUserStack nStart) ⟨after, top :: before.stackEnds⟩
  | allocateMissingOndemandFrame {before : ProcessMemory} {addr : VirtAddr} {after : MemoryInfo}
      (returned : before.info.allocateMissingOndemandFrame root addr = .ok (.ok (), after)) :
      Step mapper root before (.allocateMissingOndemandFrame addr) { before with info := after }
  | freeUserStack {before : ProcessMemory} {stackEnd : VirtAddr} {after : MemoryInfo}
      (allocated : stackEnd ∈ before.stackEnds)
      (returned : before.info.freeUserStack root stackEnd = .ok after) :
      Step mapper root before (.freeUserStack stackEnd) ⟨after, before.stackEnds.erase stackEnd⟩

/-- The condition on a call: on-demand pages are asked for at least one page, and a
missing frame for an address that the tree's tables lead to. -/
def Careful (root : Nat) (memory : ProcessMemory) : MemoryCall → Prop
  | .createUserOndemandPages startAddr size => ∃ page pages, pagesOf startAddr size = .ok (page :: pages)
  | .allocateMissingOndemandFrame addr => (tableAt memory.info.memory root addr.path).isSome
  | _ => True

/-- The balance, with the allocated stacks read off their slots. -/
def Balanced (baseline : Nat → Bool) (root : Nat) (memory : ProcessMemory) : Prop :=
  ∃ live, memory.stackEnds = live.map (fun n => slotAddress n + 11 * 4096) ∧
    MemoryInfo.Balanced baseline root live live [] memory.info

theorem Balanced.step {mapper : Mapper} {baseline : Nat → Bool} {root : Nat} {before after : ProcessMemory}
    {call : MemoryCall} (balanced : before.Balanced baseline root) (careful : before.Careful root call)
    (step : Step mapper root before call after) : after.Balanced baseline root := by
  obtain ⟨live, ends, balanced⟩ := balanced
  cases step with
  | allocatePages returned =>
    unfold MemoryInfo.allocatePages at returned
    split at returned
    · cases returned
    · rename_i pages listed
      obtain ⟨count, rfl⟩ := pagesOf_ok listed
      exact ⟨live, ends, balanced.allocateEach returned⟩
  | createUserOndemandPages returned =>
    exact ⟨live, ends, balanced.createUserOndemandPages careful returned⟩
  | allocateUserStack returned =>
    obtain ⟨n, rfl, after⟩ := balanced.allocateUserStack returned
    exact ⟨n :: live, by rw [List.map_cons, ends], after⟩
  | allocateMissingOndemandFrame returned =>
    exact ⟨live, ends, balanced.allocateMissingOndemandFrame careful returned⟩
  | @freeUserStack stackEnd _ allocated returned =>
    rw [ends] at allocated
    obtain ⟨n, listed, isTop⟩ := List.mem_map.mp allocated
    refine ⟨live.erase n, ?_, balanced.freeUserStack listed isTop.symm returned⟩
    have injective : Function.Injective fun n => slotAddress n + 11 * 4096 := by
      intro one other same
      simp only [slotAddress] at same
      omega
    rw [ends, ← isTop, ← List.map_erase injective]

/-- A process's frames are all given back: after any calls that meet the condition,
`free_user_pagetables` returns and leaves the usage table as it was before the tree
was made. -/
theorem life_cycle_balanced (mapper : Mapper) {info created : MemoryInfo} {root : Nat}
    (wellFormed : info.WellFormed info.kernelPageTables)
    (slot : entryAt info.memory info.kernelPageTables [] 6 = 0)
    (leaves : ∀ frame, ¬ SomeEntry (UserPage frame) info.memory 4 info.kernelPageTables)
    (built : info.createKernelOnlyPagetable = .ok (root, created)) {calls : List MemoryCall}
    {final : ProcessMemory}
    (run : Run (fun before call after => before.Careful root call ∧ Step mapper root before call after)
      ⟨created, []⟩ calls final) :
    ∃ after, final.info.freeUserPagetables root = .ok after ∧
      after.frameAllocator.frameUsage = info.frameAllocator.frameUsage := by
  have balanced : final.Balanced info.frameAllocator.frameUsage root := by
    refine run.invariant ?_ ?_
    · exact ⟨[], rfl, (copied_of_copyPagetables wellFormed built).balanced slot leaves⟩
    · rintro before call after balanced ⟨careful, step⟩
      exact balanced.step careful step
  obtain ⟨live, _, balanced⟩ := balanced
  exact balanced.freeUserPagetables

section Examples

private def usableRegion : List MemoryRegion := [⟨0x10000, 0x30000, .usable⟩]

/-- An empty kernel table in frame 1, and the frames 16 to 47 free. -/
private def bootInfo : MemoryInfo := emptyInfo (.init usableRegion)

private theorem userPageless_bootInfo (frame : Nat) : ¬ SomeEntry (UserPage frame) bootInfo.memory 4 1 := by
  rintro ⟨path, index, _, page⟩
  rw [bootInfo, entryAt_emptyInfo] at page
  exact not_userPage_zero _ page

private theorem wellFormed_bootInfo : bootInfo.WellFormed 1 := wellFormed_emptyInfo (by decide +kernel)

private def livesOnce : Bool :=
  match bootInfo.createKernelOnlyPagetable with
  | .ok (root, created) =>
    match created.allocatePages offsetPageTable root 0x7FFFFFFFF000 1 userPage with
    | .ok (.ok (), paged) =>
      match paged.createUserOndemandPages offsetPageTable root 0x5000000 8192 with
      | .ok (.ok (), heaped) =>
        match heaped.allocateUserStack root 3 with
        | .ok (.ok (_, top), stacked) =>
          match stacked.freeUserStack root top with
          | .ok _ => true
          | .error _ => false
        | _ => false
      | _ => false
    | _ => false
  | .error _ => false

/-- A process with the last page of the lower half, two on-demand pages, and a stack that is
freed before the tree is. -/
theorem life_cycle_balanced_process : ∃ root created top final after,
    bootInfo.createKernelOnlyPagetable = .ok (root, created) ∧
    Run (Step offsetPageTable root) ⟨created, []⟩ [.allocatePages 0x7FFFFFFFF000 1,
      .createUserOndemandPages 0x5000000 8192, .allocateUserStack 3, .freeUserStack top] final ∧
    final.info.freeUserPagetables root = .ok after ∧
    after.frameAllocator.frameUsage = bootInfo.frameAllocator.frameUsage := by
  have ran : livesOnce = true := by decide +kernel
  unfold livesOnce at ran
  split at ran
  · rename_i root created built
    split at ran
    · rename_i paged allocated
      split at ran
      · rename_i heaped ondemand
        split at ran
        · rename_i bottom top stacked stack
          split at ran
          · rename_i freed given
            have first : Step offsetPageTable root ⟨created, []⟩ (.allocatePages 0x7FFFFFFFF000 1) ⟨paged, []⟩ :=
              .allocatePages allocated
            have second : Step offsetPageTable root ⟨paged, []⟩ (.createUserOndemandPages 0x5000000 8192) ⟨heaped, []⟩ :=
              .createUserOndemandPages ondemand
            have third : Step offsetPageTable root ⟨heaped, []⟩ (.allocateUserStack 3) ⟨stacked, [top]⟩ :=
              .allocateUserStack stack
            have fourth : Step offsetPageTable root ⟨stacked, [top]⟩ (.freeUserStack top) ⟨freed, [top].erase top⟩ :=
              .freeUserStack (List.mem_singleton_self top) given
            have run : Run (fun before call after => before.Careful root call ∧ Step offsetPageTable root before call after)
                ⟨created, []⟩ [.allocatePages 0x7FFFFFFFF000 1, .createUserOndemandPages 0x5000000 8192,
                  .allocateUserStack 3, .freeUserStack top] ⟨freed, [top].erase top⟩ :=
              .cons ⟨trivial, first⟩ (.cons ⟨⟨_, _, rfl⟩, second⟩ (.cons ⟨trivial, third⟩ (.cons ⟨trivial, fourth⟩ .nil)))
            obtain ⟨after, released, balanced⟩ := life_cycle_balanced offsetPageTable wellFormed_bootInfo
              (entryAt_emptyInfo _ _ _) userPageless_bootInfo built run
            exact ⟨root, created, top, _, after, built, run.mono fun both => both.2, released, balanced⟩
          · cases ran
        · cases ran
      · cases ran
    · cases ran
  · cases ran

private def leaksFrame : Bool :=
  match bootInfo.createKernelOnlyPagetable with
  | .ok (root, created) =>
    match created.allocatePages offsetPageTable root 0x5000000 4096 userPage with
    | .ok (.ok (), paged) =>
      match paged.createUserOndemandPages offsetPageTable root 0x5000000 0 with
      | .ok (.ok (), final) =>
        match final.freeUserPagetables root with
        | .ok after => after.frameAllocator.frameUsage 21
        | .error _ => false
      | _ => false
    | _ => false
  | .error _ => false

/-- On-demand pages for an empty range that starts on a mapped page: a frame is
allocated and entered nowhere. -/
theorem empty_ondemand_range_leaks : ∃ (info created : MemoryInfo) (root : Nat) (final : ProcessMemory)
    (after : MemoryInfo), info.WellFormed info.kernelPageTables ∧
    entryAt info.memory info.kernelPageTables [] 6 = 0 ∧
    (∀ frame, ¬ SomeEntry (UserPage frame) info.memory 4 info.kernelPageTables) ∧
    info.createKernelOnlyPagetable = .ok (root, created) ∧
    Run (Step offsetPageTable root) ⟨created, []⟩
      [.allocatePages 0x5000000 4096, .createUserOndemandPages 0x5000000 0] final ∧
    final.info.freeUserPagetables root = .ok after ∧
    after.frameAllocator.frameUsage 21 = true ∧ info.frameAllocator.frameUsage 21 = false := by
  have ran : leaksFrame = true := by decide +kernel
  unfold leaksFrame at ran
  split at ran
  · rename_i root created built
    split at ran
    · rename_i paged allocated
      split at ran
      · rename_i final ondemand
        split at ran
        · rename_i after released
          exact ⟨bootInfo, created, root, ⟨final, []⟩, after, wellFormed_bootInfo, entryAt_emptyInfo _ _ _,
            userPageless_bootInfo, built,
            .cons (.allocatePages allocated) (.cons (.createUserOndemandPages ondemand) .nil), released, ran, rfl⟩
        · cases ran
      · cases ran
    · cases ran
  · cases ran

end Examples

end ProcessMemory

end Zephyr
