import Zephyr.Mem.LiveStacks
import Zephyr.Mem.Supply

/-! Whether freed stack slots are used again. `free_user_stack` takes the flags of an
entry and leaves its address, while `allocate_user_stack` looks for entries that are
zero, so a slot that was used once is never found empty. -/

namespace Zephyr

open Radix PageTableFlags Transition
open PageFrameAllocator (Grabs Frees CursorReady)

namespace PageFrameAllocator

/-- One region of usable frames, of which none from the cursor on is used. -/
structure Ample (start stop : Nat) (allocator : PageFrameAllocator) : Prop where
  map : allocator.memoryMap = [⟨start * 4096, stop * 4096, .usable⟩]
  free : ∀ frame, start + allocator.next ≤ frame → allocator.frameUsage frame = false

section Ample

variable {start stop count : Nat} {self after : PageFrameAllocator} {frames : List Nat}

theorem Ample.cursorReady (ample : self.Ample start stop) (inside : start + self.next + count ≤ stop)
    (bounded : stop ≤ frameUsageLen) : self.CursorReady count :=
  cursorReady_region ample.map inside bounded fun frame least _ => ample.free frame least

theorem Ample.grabs (ample : self.Ample start stop) (grabs : Grabs self frames after) :
    after.Ample start stop ∧ after.next = self.next + frames.length ∧ ∀ frame ∈ frames, start + self.next ≤ frame := by
  induction grabs with
  | nil => exact ⟨ample, rfl, fun _ listed => nomatch listed⟩
  | @cons before middle after frame frames takes _ ih =>
    obtain ⟨found, _, _, rfl⟩ := takes_iff.mp takes
    have position : frame = start + before.next := by
      rw [usableFrames_region ample.map] at found
      obtain ⟨inside, here⟩ := List.getElem?_eq_some_iff.mp found
      rw [List.getElem_range'] at here
      omega
    have onward : Ample start stop { before.markFrameAsUsed frame with next := before.next + 1 } := by
      refine ⟨ample.map, fun other least => ?_⟩
      change start + (before.next + 1) ≤ other at least
      change Function.update before.frameUsage frame true other = false
      rw [Function.update_of_ne (by omega)]
      exact ample.free other (by omega)
    obtain ⟨last, count, later⟩ := ih onward
    refine ⟨last, ?_, fun other listed => ?_⟩
    · rw [count, List.length_cons]
      change before.next + 1 + frames.length = _
      omega
    · rcases List.mem_cons.mp listed with rfl | listed
      · omega
      · have bound : start + (before.next + 1) ≤ other := later other listed
        omega

theorem deallocateFrame_next {frame : Nat} (above : self.next ≤ frame) :
    (self.deallocateFrame frame).next = self.next ∧ (self.deallocateFrame frame).memoryMap = self.memoryMap := by
  unfold deallocateFrame
  split
  · exact ⟨if_neg (Nat.not_lt.mpr above), rfl⟩
  · exact ⟨rfl, rfl⟩

end Ample

end PageFrameAllocator

namespace MemoryInfo

section Full

variable {root table n nStart : Nat} {live : List Nat} {info after : MemoryInfo}

theorem stackTable_found {rest : List (Fin 512)} {last : Nat} (found : tableAt info.memory table rest = some last) :
    info.stackTable table rest = .ok (last, info) := by
  induction rest generalizing table with
  | nil =>
    cases found
    rfl
  | cons index rest ih =>
    rw [tableAt] at found
    obtain ⟨child, leads, found⟩ := Option.bind_eq_some_iff.mp found
    obtain ⟨used, _, rfl⟩ := PageTableEntry.next_eq_some_iff.mp leads
    rw [stackTable, if_neg (by simpa [PageTableEntry.isUnused] using used)]
    exact ih found

/-- Releasing frames at or above the cursor leaves the cursor where it is. -/
theorem freeStackEntries_next {indices : List (Fin 512)}
    (high : ∀ k ∈ indices, (info.memory table k).flags.contains writable = true →
      info.frameAllocator.next ≤ (info.memory table k).addr)
    (returned : indices.foldlM (freeStackEntry table) info = .ok after) :
    after.frameAllocator.next = info.frameAllocator.next ∧
      after.frameAllocator.memoryMap = info.frameAllocator.memoryMap := by
  induction indices generalizing info with
  | nil =>
    cases returned
    exact ⟨rfl, rfl⟩
  | cons index indices ih =>
    rw [List.foldlM_cons] at returned
    cases stepped : freeStackEntry table info index with
    | error panic =>
      rw [stepped] at returned
      cases returned
    | ok middle =>
      rw [stepped] at returned
      have effect : middle.frameAllocator.next = info.frameAllocator.next ∧
          middle.frameAllocator.memoryMap = info.frameAllocator.memoryMap ∧
          middle.memory = info.memory.write table index ((info.memory table index).setFlags 0) := by
        unfold freeStackEntry at stepped
        dsimp only at stepped
        split at stepped
        · rename_i written
          split at stepped
          · cases stepped
          · rename_i frame taken
            cases stepped
            have above := high index (List.mem_cons_self ..) written
            rw [(PageTableEntry.next_eq_some_iff.mp (frame_ok taken).1).2.2] at above
            obtain ⟨next, map⟩ := PageFrameAllocator.deallocateFrame_next above
            exact ⟨next, map, rfl⟩
        · cases stepped
          exact ⟨rfl, rfl, rfl⟩
      obtain ⟨next, map, memory⟩ := effect
      have higher : ∀ k ∈ indices, (middle.memory table k).flags.contains writable = true →
          middle.frameAllocator.next ≤ (middle.memory table k).addr := by
        intro k listed written
        rw [next]
        by_cases here : k = index
        · rw [memory, here, write_same, PageTableEntry.flags_setFlags (by decide)] at written
          exact absurd written (by decide)
        · rw [memory, write_index _ _ _ _ here] at written ⊢
          exact high k (List.mem_cons_of_mem _ listed) written
      obtain ⟨later, same⟩ := ih higher returned
      exact ⟨later.trans next, same.trans map⟩

/-- Every slot has a used entry where the search would look. -/
def AllUsed (info : MemoryInfo) (root : Nat) : Prop :=
  (∀ n < 63, ∃ k : Fin 512, n * 8 + 1 ≤ k.1 ∧ k.1 ≤ n * 8 + 10 ∧ info.stackEntry root k ≠ 0) ∧
    ∃ k : Fin 512, 505 ≤ k.1 ∧ info.stackEntry root k ≠ 0

/-- With frames for the tables the search sees the stack entries of the tree. -/
theorem Tended.searched (tended : Tended root live info) (ready : info.frameAllocator.CursorReady 13) :
    ∃ (table : Nat) (middle : MemoryInfo), middle.frameAllocator.CursorReady 10 ∧
      (∀ nStart, info.allocateUserStack root nStart = middle.findSlot table nStart (List.range 64)) ∧
      ∀ k, middle.memory table k = info.stackEntry root k := by
  have ready : info.frameAllocator.CursorReady (userStackPageIndex.length + 10) := ready
  obtain ⟨table, middle, reached, enough⟩ := stackTable_returns root userStackPageIndex ready
  obtain ⟨edits, found⟩ := stackTable_ok [] tended.sound rfl rfl tended.ordered.way reached
  refine ⟨table, middle, enough, fun nStart => ?_, fun k => ?_⟩
  · rw [MemoryInfo.allocateUserStack, reached]
  · rw [← (tended.edits edits).2 k, stackEntry, entryAt_of_tableAt found]

theorem Tended.reports_full (tended : Tended root live info) (ready : info.frameAllocator.CursorReady 13)
    (used : info.AllUsed root) (nStart : Nat) :
    ∃ after, info.allocateUserStack root nStart = .ok (.error "All thread stack slots full", after) := by
  obtain ⟨table, middle, _, call, entry⟩ := tended.searched ready
  obtain ⟨slots, last⟩ := used
  rw [call]
  cases search middle table nStart with
  | full _ _ _ found => exact ⟨middle, found⟩
  | backs n low empty _ _ found =>
    obtain ⟨k, least, most, used⟩ := slots n low
    exact absurd ((entry k).symm.trans (empty k least most)) used
  | overrun _ open_ _ found =>
    obtain ⟨k, least, used⟩ := last
    exact absurd ((entry k).symm.trans (open_ k least)) used

/-- With frames for the tables and the stack, a stack is returned if and only if the search
comes to an empty slot below 63 before it leaves the table at slot 63. -/
theorem Tended.allocates_iff (tended : Tended root live info) (ready : info.frameAllocator.CursorReady 13) (nStart : Nat) :
    (∃ stack after, info.allocateUserStack root nStart = .ok (.ok stack, after)) ↔
      ∃ n < 63, (∀ k : Fin 512, n * 8 + 1 ≤ k.1 → k.1 ≤ n * 8 + 10 → info.stackEntry root k = 0) ∧
        (nStart % 64 ≤ n ∨ ∃ k : Fin 512, 505 ≤ k.1 ∧ info.stackEntry root k ≠ 0) := by
  obtain ⟨table, middle, enough, call, entry⟩ := tended.searched ready
  simp only [call, ← entry]
  cases search middle table nStart with
  | full passed _ _ found =>
    refine iff_of_false ?_ fun ⟨n, low, empty, _⟩ => passed n low empty
    rintro ⟨stack, after, returned⟩
    cases found.symm.trans returned
  | backs n low empty first _ found =>
    have inside : ∀ index ∈ slotPages n, index < 512 := by
      intro index listed
      have range := mem_slotPages.mp listed
      omega
    have room : middle.frameAllocator.CursorReady ((slotPages n).length + 0) := enough
    obtain ⟨after, filled, _⟩ := fillSlot_succeeds table inside room
    refine iff_of_true ⟨_, after, by rw [found, filled]; rfl⟩ ⟨n, low, empty, first.imp_right fun closed => ?_⟩
    simpa [LastOpen] using closed
  | overrun passed open_ _ found =>
    refine iff_of_false ?_ ?_
    · rintro ⟨stack, after, returned⟩
      cases found.symm.trans returned
    · rintro ⟨n, low, empty, above | ⟨k, least, used⟩⟩
      · exact passed n above low empty
      · exact used (open_ k least)

/-- No stack entry has frame 0, and the allocator does not give it out. -/
structure Addressed (root : Nat) (info : MemoryInfo) : Prop where
  usable : 0 ∉ info.frameAllocator.usableFrames
  entries : ∀ k, info.stackEntry root k ≠ 0 → (info.stackEntry root k).addr ≠ 0

end Full

end MemoryInfo

namespace StackMemory

open MemoryInfo

section Histories

variable {root : Nat} {before after start final : StackMemory} {call : StackCall} {calls : List StackCall}

/-- A used entry stays used: an allocation passes over it, and a release keeps its
address. -/
theorem Tended.used_step (tended : before.Tended root) (addressed : Addressed root before.info)
    (step : Step root before call after) : Addressed root after.info ∧
      ∀ k, before.info.stackEntry root k ≠ 0 → after.info.stackEntry root k ≠ 0 := by
  obtain ⟨slots, ranges, tended⟩ := tended
  -- both kinds of allocation
  have gains : ∀ {nStart result} {info : MemoryInfo}, before.info.allocateUserStack root nStart = .ok (result, info) →
      Addressed root info ∧ ∀ k, before.info.stackEntry root k ≠ 0 → info.stackEntry root k ≠ 0 := by
    intro nStart result info returned
    obtain ⟨_, frames, grabs, _, gained, _⟩ := tended.allocateUserStack returned
    refine ⟨⟨by rw [grabs.usableFrames]; exact addressed.usable, fun k used => ?_⟩, fun k used => ?_⟩
    · rcases gained k with same | ⟨_, _, frame, member, entry⟩
      · rw [same] at used ⊢
        exact addressed.entries k used
      · rw [entry, (userPage_setAddr (grabs.bounded member)).2]
        rintro rfl
        exact addressed.usable (grabs.available member).1
    · rcases gained k with same | ⟨_, unused, _⟩
      · rwa [same]
      · exact absurd unused used
  cases step with
  | allocated returned => exact gains returned
  | refused returned => exact gains returned
  | freed listed returned =>
    rw [ranges] at listed
    obtain ⟨n, member, rfl⟩ := List.mem_map.mp listed
    obtain ⟨indices, info, _, finished, _, cleared, kept, frees⟩ := tended.freeUserStack member rfl
    have same := Except.ok.inj (finished.symm.trans returned)
    subst same
    have address : ∀ k, (info.stackEntry root k).addr = (before.info.stackEntry root k).addr := by
      intro k
      by_cases inside : k ∈ indices
      · rw [cleared k inside, PageTableEntry.addr_setFlags (by decide)]
      · rw [kept k inside]
    have used_iff : ∀ k, info.stackEntry root k ≠ 0 → before.info.stackEntry root k ≠ 0 := by
      intro k used unused
      by_cases inside : k ∈ indices
      · rw [cleared k inside, unused] at used
        exact used rfl
      · exact used ((kept k inside).trans unused)
    refine ⟨⟨frees.usable ▸ addressed.usable, fun k used => ?_⟩, fun k used unused => ?_⟩
    · rw [address]
      exact addressed.entries k (used_iff k used)
    · have zero : (info.stackEntry root k).addr = 0 := by
        rw [unused]
        rfl
      rw [address] at zero
      exact addressed.entries k used zero

theorem Tended.used_run (tended : before.Tended root) (addressed : Addressed root before.info)
    (run : Run (Step root) before calls final) (k : Fin 512) (used : before.info.stackEntry root k ≠ 0) :
    final.info.stackEntry root k ≠ 0 := by
  have all : final.Tended root ∧ Addressed root final.info ∧ final.info.stackEntry root k ≠ 0 := by
    apply run.invariant
    · exact ⟨tended, addressed, used⟩
    · rintro before call after ⟨tended, addressed, used⟩ step
      obtain ⟨still, kept⟩ := tended.used_step addressed step
      exact ⟨tended.step step, still, kept k used⟩
  exact all.2.2

/-- The entry was used in some state of the history. -/
def EverUsed (root : Nat) (start : StackMemory) (calls : List StackCall) (final : StackMemory) (k : Fin 512) : Prop :=
  ∃ earlier later middle, calls = earlier ++ later ∧ Run (Step root) start earlier middle ∧
    Run (Step root) middle later final ∧ middle.info.stackEntry root k ≠ 0

theorem everUsed_iff (tended : start.Tended root) (addressed : Addressed root start.info)
    (run : Run (Step root) start calls final) (k : Fin 512) :
    EverUsed root start calls final k ↔ final.info.stackEntry root k ≠ 0 := by
  constructor
  · rintro ⟨earlier, later, middle, _, first, second, used⟩
    have reached : middle.Tended root ∧ Addressed root middle.info := by
      apply first.invariant
      · exact ⟨tended, addressed⟩
      · rintro before call after ⟨tended, addressed⟩ step
        exact ⟨tended.step step, (tended.used_step addressed step).1⟩
    exact reached.1.used_run reached.2 second k used
  · exact fun used => ⟨calls, [], final, (List.append_nil calls).symm, run, .nil, used⟩

/-- With frames for the tables and the stack, `allocate_user_stack` returns a stack after a
history if and only if some slot below 63 was never used and the search gets to it: it comes
before slot 63, or a page of slot 63 was used, so that the search does not stop there. -/
theorem slot_found_iff {info : MemoryInfo} (tended : MemoryInfo.Tended root [] info)
    (addressed : Addressed root info) (run : Run (Step root) ⟨info, []⟩ calls final)
    (ready : final.info.frameAllocator.CursorReady 13) (nStart : Nat) :
    (∃ stack after, final.info.allocateUserStack root nStart = .ok (.ok stack, after)) ↔
      ∃ n < 63, (∀ k : Fin 512, n * 8 + 1 ≤ k.1 → k.1 ≤ n * 8 + 10 → ¬ EverUsed root ⟨info, []⟩ calls final k) ∧
        (nStart % 64 ≤ n ∨ ∃ k : Fin 512, 505 ≤ k.1 ∧ EverUsed root ⟨info, []⟩ calls final k) := by
  have initial : Tended root ⟨info, []⟩ := ⟨[], rfl, tended⟩
  obtain ⟨slots, _, last⟩ := initial.run run
  simp only [last.allocates_iff ready nStart, everUsed_iff initial addressed run, not_not]

end Histories

section Cycles

variable {i : Nat} {before : StackMemory}

/-- After `i` stacks have been allocated and freed, one in every second slot. -/
structure Cycled (i : Nat) (memory : StackMemory) : Prop where
  live : memory.live = []
  tended : MemoryInfo.Tended 1 [] memory.info
  addressed : Addressed 1 memory.info
  ample : memory.info.frameAllocator.Ample 16 1000
  few : memory.info.frameAllocator.next ≤ 13 * i
  fresh : ∀ k : Fin 512, 16 * i ≤ k.1 → memory.info.stackEntry 1 k = 0
  used : ∀ j < i, ∀ k : Fin 512, 16 * j + 1 ≤ k.1 → k.1 ≤ 16 * j + 10 → memory.info.stackEntry 1 k ≠ 0

theorem Cycled.next (cycled : Cycled i before) (small : i < 32) :
    ∃ after, Run (Step 1) before [.allocateUserStack (2 * i), .freeUserStack (slotStack (2 * i)).2] after ∧
      Cycled (i + 1) after := by
  obtain ⟨info, live⟩ := before
  obtain ⟨rfl, tended, addressed, ample, few, fresh, used⟩ := cycled
  dsimp only at tended addressed ample few fresh used
  have ready : info.frameAllocator.CursorReady 13 := ample.cursorReady (by omega) (by decide)
  have empty : ∀ k : Fin 512, k.1 ∈ slotPages (2 * i) → info.stackEntry 1 k = 0 := by
    intro k listed
    have range := mem_slotPages.mp listed
    exact fresh k (by omega)
  have first : ∃ middle, info.allocateUserStack 1 (2 * i) = .ok (.ok (slotStack (2 * i)), middle) := by
    obtain ⟨table, middle, enough, call, entry⟩ := tended.searched ready
    have vacant : middle.SlotEmpty table (2 * i) := fun k least most =>
      (entry k).trans (empty k (mem_slotPages.mpr ⟨least, most⟩))
    have inside : ∀ index ∈ slotPages (2 * i), index < 512 := by
      intro index listed
      have range := mem_slotPages.mp listed
      omega
    have room : middle.frameAllocator.CursorReady ((slotPages (2 * i)).length + 0) := enough
    obtain ⟨after, filled, _⟩ := fillSlot_succeeds table inside room
    have slot : (2 * i + 0) % 64 = 2 * i := by omega
    have unused := allUnused_of_slotEmpty (by omega) vacant
    refine ⟨after, ?_⟩
    rw [call]
    change middle.findSlot table (2 * i) (0 :: (List.range 64).tail) = _
    rw [findSlot_backs (by rw [slot]; exact unused), slot, filled]
    rfl
  obtain ⟨middle, allocated⟩ := first
  have step : Step 1 ⟨info, []⟩ (.allocateUserStack (2 * i)) ⟨middle, [slotStack (2 * i)]⟩ := .allocated allocated
  obtain ⟨n, frames, grabs, count, gained, outcome⟩ := tended.allocateUserStack allocated
  obtain ⟨same, more⟩ := outcome.resolve_left fun failed => by
    obtain ⟨⟨_, failed⟩, _⟩ := failed
    cases failed
  obtain rfl : 2 * i = n := slotStack_injective (Except.ok.inj same)
  have listed : 2 * i ∈ [2 * i] := List.mem_singleton_self _
  obtain ⟨indices, final, range, freed, fewer, _, kept, frees⟩ := more.freeUserStack listed rfl
  have release : Step 1 ⟨middle, [slotStack (2 * i)]⟩ (.freeUserStack (slotStack (2 * i)).2) ⟨final, []⟩ := by
    have freeing : Step 1 ⟨middle, [slotStack (2 * i)]⟩ (.freeUserStack (slotStack (2 * i)).2)
        ⟨final, [slotStack (2 * i)].erase (slotStack (2 * i))⟩ := .freed (List.mem_singleton_self _) freed
    rwa [List.erase_cons_head] at freeing
  have initial : Tended 1 ⟨info, []⟩ := ⟨[], rfl, tended⟩
  obtain ⟨between, first⟩ := initial.used_step addressed step
  obtain ⟨still, second⟩ := (initial.step step).used_step between release
  obtain ⟨ampler, cursor, above⟩ := ample.grabs grabs
  have cursors : final.frameAllocator.next = middle.frameAllocator.next ∧
      final.frameAllocator.memoryMap = middle.frameAllocator.memoryMap := by
    obtain ⟨bounded, entered⟩ := more.standing.entered (2 * i) listed
    obtain ⟨table, found, _⟩ := tableAt_of_entryAt_ne (entered ⟨2 * i * 8 + 10, bounded⟩ (by simp) (Nat.le_refl _))
    obtain ⟨entries, inside, loop⟩ := freeUserStack_eq rfl bounded found
    refine freeStackEntries_next (fun k member written => ?_) (loop.symm.trans freed)
    rw [← entryAt_of_tableAt found] at written ⊢
    change (middle.stackEntry 1 k).flags.contains writable = true at written
    change _ ≤ (middle.stackEntry 1 k).addr
    rcases gained k with unchanged | ⟨_, _, frame, taken, entry⟩
    · rw [unchanged, fresh k (by have inside := (inside k).mp member; omega)] at written
      exact absurd written (by decide)
    · rw [entry, (userPage_setAddr (grabs.bounded taken)).2, cursor]
      have least := above frame taken
      omega
  refine ⟨⟨final, []⟩, .cons step (.cons release .nil), rfl, by simpa using fewer, still,
    ⟨cursors.2.trans ampler.map, fun frame least => ?_⟩, ?_, fun k least => ?_, fun j less k low high => ?_⟩
  · rw [cursors.1] at least
    rw [Bool.eq_false_iff, ne_eq, frees.usage, ampler.free frame least]
    simp
  · change final.frameAllocator.next ≤ _
    rw [cursors.1, cursor]
    omega
  · change final.stackEntry 1 k = 0
    rw [kept k fun member => by have inside := (range k).mp member; omega]
    rcases gained k with unchanged | ⟨inside, _⟩
    · exact unchanged.trans (fresh k (by omega))
    · have inside := mem_slotPages.mp inside
      omega
  · refine second k ?_
    by_cases earlier : j < i
    · exact first k (used j earlier k low high)
    · obtain ⟨frame, small, entry⟩ := more.pages (2 * i) listed k (by omega) (by omega)
      change middle.stackEntry 1 k ≠ 0
      rw [entry]
      exact PageTableEntry.setAddr_ne_zero (lt_of_frameUsageLen small) tableFlags_userPage.clean
        tableFlags_userPage.nonzero

/-- An empty table in frame 1, and the frames 16 to 999 free. -/
private def unusedSlots : StackMemory := ⟨emptyInfo (.init [⟨16 * 4096, 1000 * 4096, .usable⟩]), []⟩

private theorem cycled_unusedSlots : Cycled 0 unusedSlots := by
  have map : unusedSlots.info.frameAllocator.memoryMap = [⟨16 * 4096, 1000 * 4096, .usable⟩] := rfl
  have region := PageFrameAllocator.usableFrames_region map
  have blank : ∀ k, unusedSlots.info.stackEntry 1 k = 0 := entryAt_emptyInfo _ userStackPageIndex
  have outside : ∀ frame < 16, frame ∉ unusedSlots.info.frameAllocator.usableFrames := by
    intro frame low listed
    rw [region, List.mem_range'_1] at listed
    omega
  exact ⟨rfl, tended_of_unused (sound_emptyInfo (outside 1 (by decide))) (entryAt_emptyInfo _ _ _),
    ⟨outside 0 (by decide), fun k used => absurd (blank k) used⟩, ⟨rfl, fun _ _ => rfl⟩, Nat.le_refl _,
    fun k _ => blank k, fun j less => absurd less (Nat.not_lt_zero j)⟩

/-- A thousand frames are enough to go through all the slots. -/
theorem exists_cycled (i : Nat) (bound : i ≤ 32) : ∃ calls final, Run (Step 1) unusedSlots calls final ∧ Cycled i final := by
  induction i with
  | zero => exact ⟨[], unusedSlots, .nil, cycled_unusedSlots⟩
  | succ i ih =>
    obtain ⟨calls, middle, run, cycled⟩ := ih (by omega)
    obtain ⟨final, more, next⟩ := cycled.next (by omega)
    exact ⟨_, final, run.trans more, next⟩

/-- After stacks in the slots 0 and 2 have come and gone, the search from slot 0 on finds
another slot. -/
theorem slot_found_iff_cycled : ∃ final, Run (Step 1) unusedSlots
      [.allocateUserStack 0, .freeUserStack (slotStack 0).2, .allocateUserStack 2, .freeUserStack (slotStack 2).2] final ∧
    final.live = [] ∧ (∃ k : Fin 512, k.1 ≤ 10 ∧ final.info.stackEntry 1 k ≠ 0) ∧
    ∃ stack after, final.info.allocateUserStack 1 0 = .ok (.ok stack, after) := by
  obtain ⟨middle, first, once⟩ := cycled_unusedSlots.next (by decide)
  obtain ⟨final, second, cycled⟩ := once.next (by decide)
  have run := first.trans second
  have ready : final.info.frameAllocator.CursorReady 13 :=
    cycled.ample.cursorReady (by have few := cycled.few; omega) (by decide)
  have initial : Tended 1 unusedSlots := ⟨[], rfl, cycled_unusedSlots.tended⟩
  have used := cycled.used 0 (by decide) ⟨1, by decide⟩ (by decide) (by decide)
  refine ⟨final, run, cycled.live, ⟨⟨1, by decide⟩, by decide, used⟩,
    (slot_found_iff cycled_unusedSlots.tended cycled_unusedSlots.addressed run ready 0).mpr
      ⟨4, by decide, fun k least _ => ?_, .inl (by decide)⟩⟩
  refine fun ever => (everUsed_iff initial cycled_unusedSlots.addressed run k).mp ever (cycled.fresh k ?_)
  omega

/-- After 32 stacks have been allocated and freed again, no stack is live, frames are
free, and every search reports that all slots are full. -/
theorem freed_slots_stay_full : ∃ (start : MemoryInfo) (calls : List StackCall) (final : StackMemory),
    MemoryInfo.Tended 1 [] start ∧ Run (Step 1) ⟨start, []⟩ calls final ∧ final.live = [] ∧
    final.info.frameAllocator.CursorReady 13 ∧ ∀ nStart, ∃ after,
      final.info.allocateUserStack 1 nStart = .ok (.error "All thread stack slots full", after) := by
  obtain ⟨calls, final, run, cycled⟩ := exists_cycled 32 (Nat.le_refl _)
  have ready : final.info.frameAllocator.CursorReady 13 :=
    cycled.ample.cursorReady (by have few := cycled.few; omega) (by decide)
  refine ⟨unusedSlots.info, calls, final, cycled_unusedSlots.tended, run, cycled.live, ready,
    cycled.tended.reports_full ready ⟨fun n low => ?_, ⟨505, by decide⟩, by decide, ?_⟩⟩
  · -- an odd slot shares its first two pages with the slot before it
    have first : 16 * (n / 2) + 1 ≤ n * 8 + 1 ∧ n * 8 + 1 ≤ 16 * (n / 2) + 10 := by omega
    exact ⟨⟨n * 8 + 1, by omega⟩, Nat.le_refl _, by simp, cycled.used (n / 2) (by omega) _ first.1 first.2⟩
  · exact cycled.used 31 (by decide) _ (by decide) (by decide)

end Cycles

end StackMemory

end Zephyr
