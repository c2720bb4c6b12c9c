import Zephyr.Mem.OnDemand
import Zephyr.Mem.SlotSearch

/-! The user stacks of one page table through any calls of `allocate_user_stack` and
`free_user_stack`, failed ones included. Neighbouring slots share pages, and only the
search for ten unused entries keeps live stacks apart. -/

namespace Zephyr

open Radix PageTableFlags Transition
open PageFrameAllocator (Grabs Frees)

namespace MemoryInfo

/-- What backing pages of the stacks with frames changes: unused entries among
`indices`, each of which gets one of the frames. -/
structure Backs (root : Nat) (indices frames : List Nat) (before after : MemoryInfo) : Prop where
  sound : after.Sound root
  found : tableAt after.memory root userStackPageIndex = tableAt before.memory root userStackPageIndex
  grabs : Grabs before.frameAllocator frames after.frameAllocator
  count : frames.length ≤ indices.length
  entries : ∀ k, after.stackEntry root k = before.stackEntry root k ∨
    k.1 ∈ indices ∧ before.stackEntry root k = 0 ∧ ∃ frame ∈ frames, after.stackEntry root k = .setAddr frame userPage

/-- A page table whose stack slots are in order: its live stacks are mapped, and what a
later `free_user_stack` can reach is owned by the stacks. -/
structure Tended (root : Nat) (live : List Nat) (info : MemoryInfo) : Prop where
  sound : info.Sound root
  ordered : Stacks root live info
  standing : Standing root live info
  pages : ∀ n ∈ live, ∀ k : Fin 512, n * 8 + 1 ≤ k.1 → k.1 ≤ n * 8 + 10 →
    ∃ frame < frameUsageLen, info.stackEntry root k = .setAddr frame userPage

theorem flags_ne_zero_of_writable {flags : PageTableFlags} (written : flags.contains writable = true) : flags ≠ 0 := by
  rintro rfl
  revert written
  decide

section Backs

variable {root table : Nat} {indices frames slots : List Nat} {before after : MemoryInfo} {result : Except String Unit}

theorem fillSlot_backs (sound : before.Sound root) (ordered : Stacks root slots before)
    (found : tableAt before.memory root userStackPageIndex = some table) (distinct : indices.Nodup)
    (empty : ∀ k : Fin 512, k.1 ∈ indices → before.stackEntry root k = 0)
    (returned : before.fillSlot table indices = .ok (result, after)) :
    ∃ frames, Backs root indices frames before after ∧ Stacks root slots after ∧
      (result = .ok () → ∀ k : Fin 512, k.1 ∈ indices →
        ∃ frame ∈ frames, after.stackEntry root k = .setAddr frame userPage) := by
  induction indices generalizing before with
  | nil =>
    cases returned
    exact ⟨[], ⟨sound, rfl, .nil, Nat.le_refl _, fun _ => .inl rfl⟩, ordered, fun _ _ listed => nomatch listed⟩
  | cons index indices ih =>
    obtain ⟨fresh, distinct⟩ := List.nodup_cons.mp distinct
    obtain ⟨inside, ⟨rfl, rfl⟩ | ⟨frame, frameAllocator, takes, rest⟩⟩ := fillSlot_cons returned
    · exact ⟨[], ⟨sound, rfl, .nil, Nat.zero_le _, fun _ => .inl rfl⟩, ordered, nofun⟩
    · have vacant := empty ⟨index, inside⟩ (List.mem_cons_self ..)
      have fills := sound.fillsStack found (by rw [vacant]; rfl) takes
      have entered := ordered.takes takes |>.fillsHere fills takes.bounded ((takes.frameUsage frame).mpr (.inl rfl))
        (sound.fresh takes) fun k _ open_ user =>
          ordered.hidden takes.available.2 (fills.exposed takes.bounded open_) user
      generalize middle_eq : MemoryInfo.write { before with frameAllocator } table ⟨index, inside⟩
        (.setAddr frame userPage) = middle at rest fills entered
      have kept : ∀ k : Fin 512, k ≠ ⟨index, inside⟩ → middle.stackEntry root k = before.stackEntry root k :=
        fun k other => fills.stackEntry_aside other
      have written : middle.stackEntry root ⟨index, inside⟩ = .setAddr frame userPage :=
        stackEntry_written fills.edited.rewrites
      have reached : tableAt middle.memory root userStackPageIndex =
          tableAt before.memory root userStackPageIndex := fills.stackTable
      have aside : ∀ {k : Fin 512}, k.1 ∈ indices → k ≠ ⟨index, inside⟩ := by
        rintro k listed rfl
        exact fresh listed
      obtain ⟨frames, backs, last, all⟩ := ih fills.edited.sound entered (reached.trans found) distinct
        (fun k listed => (kept k (aside listed)).trans (empty k (List.mem_cons_of_mem _ listed))) rest
      have grabs : Grabs before.frameAllocator (frame :: frames) after.frameAllocator := by
        refine .cons takes ?_
        have same : middle.frameAllocator = frameAllocator := by
          rw [← middle_eq]
          rfl
        rw [← same]
        exact backs.grabs
      have here : after.stackEntry root ⟨index, inside⟩ = .setAddr frame userPage := by
        rcases backs.entries ⟨index, inside⟩ with same | ⟨listed, _⟩
        · exact same.trans written
        · exact absurd listed fresh
      refine ⟨frame :: frames, ⟨backs.sound, backs.found.trans reached, grabs,
        Nat.succ_le_succ backs.count, fun k => ?_⟩, last,
        fun succeeded k listed => ?_⟩
      · by_cases same : k = ⟨index, inside⟩
        · subst same
          exact .inr ⟨List.mem_cons_self .., vacant, frame, List.mem_cons_self .., here⟩
        · rcases backs.entries k with unchanged | ⟨listed, unused, number, member, entry⟩
          · exact .inl (unchanged.trans (kept k same))
          · exact .inr ⟨List.mem_cons_of_mem _ listed, (kept k same).symm.trans unused, number,
              List.mem_cons_of_mem _ member, entry⟩
      · rcases List.mem_cons.mp listed with same | listed
        · have equal : k = ⟨index, inside⟩ := Fin.ext same
          subst equal
          exact ⟨frame, List.mem_cons_self .., here⟩
        · obtain ⟨number, member, entry⟩ := all succeeded k listed
          exact ⟨number, List.mem_cons_of_mem _ member, entry⟩

/-- At most one new table for every step of the way. -/
theorem stackTable_grabs {rest : List (Fin 512)} {last : Nat}
    (returned : before.stackTable table rest = .ok (last, after)) :
    ∃ frames, Grabs before.frameAllocator frames after.frameAllocator ∧ frames.length ≤ rest.length := by
  induction rest generalizing before table with
  | nil =>
    cases returned
    exact ⟨[], .nil, Nat.le_refl _⟩
  | cons index rest ih =>
    unfold stackTable at returned
    split at returned
    · split at returned
      · cases returned
      · rename_i newTable middle created
        obtain ⟨frameAllocator, takes, rfl⟩ := createPagetable_ok created
        obtain ⟨frames, grabs, count⟩ := ih returned
        exact ⟨newTable :: frames, .cons takes grabs, Nat.succ_le_succ count⟩
    · obtain ⟨frames, grabs, count⟩ := ih returned
      exact ⟨frames, grabs, Nat.le_succ_of_le count⟩

end Backs

section Tended

variable {root n : Nat} {live : List Nat} {before middle after info : MemoryInfo}

/-- A tree that has no table for stacks yet. -/
theorem tended_of_unused (sound : info.Sound root) (unused : entryAt info.memory root [] 6 = 0) : Tended root [] info where
  sound := sound
  ordered := stacks_of_unused unused
  standing := ⟨fun _ listed => absurd listed List.not_mem_nil, .nil⟩
  pages _ listed := nomatch listed

theorem Tended.edits (tended : Tended root live before) (edits : TableEdits root userPage before middle) :
    Tended root live middle ∧ ∀ k, middle.stackEntry root k = before.stackEntry root k := by
  obtain ⟨ordered, same⟩ : Stacks root live middle ∧ ∀ k, middle.stackEntry root k = before.stackEntry root k :=
    TableEdits.keeps (fun info => Stacks root live info ∧ ∀ k, info.stackEntry root k = before.stackEntry root k)
      tended.sound tableFlags_userPage edits ⟨tended.ordered, fun _ => rfl⟩
      fun ⟨ordered, same⟩ widens => ⟨ordered.widens widens, fun k => (widens.stackEntry k).trans (same k)⟩
  obtain ⟨_, _, sound⟩ := TableEdits.extends tended.sound tableFlags_userPage edits
  refine ⟨⟨sound, ordered, tended.standing.unchanged fun k used => by rwa [same], fun m listed k least most => ?_⟩, same⟩
  rw [same]
  exact tended.pages m listed k least most

/-- An entry is as it was, or it is one of the slot's, was unused and has one of the frames now. -/
def Gained (root n : Nat) (frames : List Nat) (before after : MemoryInfo) (k : Fin 512) : Prop :=
  after.stackEntry root k = before.stackEntry root k ∨
    k.1 ∈ slotPages n ∧ before.stackEntry root k = 0 ∧
      ∃ frame ∈ frames, after.stackEntry root k = .setAddr frame userPage

theorem Tended.allocateUserStack {nStart : Nat} {result : Except String (VirtAddr × VirtAddr)}
    (tended : Tended root live before) (returned : before.allocateUserStack root nStart = .ok (result, after)) :
    ∃ n frames, Grabs before.frameAllocator frames after.frameAllocator ∧ frames.length ≤ 13 ∧
      (∀ k, Gained root n frames before after k) ∧
      ((∃ error, result = .error error) ∧ Tended root live after ∨
        result = .ok (slotAddress n + 4096, slotAddress n + 11 * 4096) ∧ Tended root (n :: live) after) := by
  unfold MemoryInfo.allocateUserStack at returned
  split at returned
  · cases returned
  · rename_i table middle reached
    obtain ⟨edits, found⟩ := stackTable_ok [] tended.sound rfl rfl tended.ordered.way reached
    obtain ⟨new, grabs, few⟩ := stackTable_grabs reached
    rw [length_userStackPageIndex] at few
    obtain ⟨middling, same⟩ := tended.edits edits
    rcases findSlot_cases returned with ⟨rfl, rfl⟩ | ⟨n, filled, unused, backed, rfl⟩
    · exact ⟨0, new, grabs, by omega, fun k => .inl (same k), .inl ⟨⟨_, rfl⟩, middling⟩⟩
    · obtain ⟨bounded, blank⟩ := blank_of_allUnused found unused
      have empty : ∀ k : Fin 512, n * 8 + 1 ≤ k.1 → k.1 ≤ n * 8 + 10 → middle.stackEntry root k = 0 :=
        fun k least most => blank k (mem_slotPages.mpr ⟨least, most⟩)
      obtain ⟨frames, backs, ordered, all⟩ := fillSlot_backs middling.sound (middling.ordered.guard bounded empty) found
        slotPages_nodup blank backed
      have taken : ∀ {frame}, frame ∈ frames → frame < frameUsageLen := backs.grabs.bounded
      have kept : ∀ k, middle.stackEntry root k ≠ 0 → after.stackEntry root k = middle.stackEntry root k :=
        fun k used => (backs.entries k).resolve_right fun changed => used changed.2.1
      have standing : Standing root live after :=
        middling.standing.unchanged fun k used => by rwa [kept k used]
      have pages : ∀ m ∈ live, ∀ k : Fin 512, m * 8 + 1 ≤ k.1 → k.1 ≤ m * 8 + 10 →
          ∃ frame < frameUsageLen, after.stackEntry root k = .setAddr frame userPage := by
        intro m listed k least most
        rw [kept k ((middling.standing.entered m listed).2 k least most)]
        exact middling.pages m listed k least most
      have count : frames.length ≤ 10 := backs.count
      refine ⟨n, new ++ frames, grabs.append backs.grabs, by rw [List.length_append]; omega, fun k => ?_, ?_⟩
      · rcases backs.entries k with unchanged | ⟨listed, zero, frame, member, entry⟩
        · exact .inl (unchanged.trans (same k))
        · exact .inr ⟨listed, (same k).symm.trans zero, frame, List.mem_append_right _ member, entry⟩
      · cases filled with
        | error error =>
          exact .inl ⟨⟨error, rfl⟩, backs.sound, ordered.weaken (List.subset_cons_self n live), standing, pages⟩
        | ok =>
          have own : ∀ k : Fin 512, n * 8 + 1 ≤ k.1 → k.1 ≤ n * 8 + 10 →
              ∃ frame < frameUsageLen, after.stackEntry root k = .setAddr frame userPage := by
            intro k least most
            obtain ⟨frame, member, entry⟩ := all rfl k (mem_slotPages.mpr ⟨least, most⟩)
            exact ⟨frame, taken member, entry⟩
          refine .inr ⟨rfl, backs.sound, ordered, ⟨fun m listed => ?_, ?_⟩, fun m listed => ?_⟩
          · rcases List.mem_cons.mp listed with rfl | listed
            · refine ⟨bounded, fun k least most => ?_⟩
              obtain ⟨frame, small, entry⟩ := own k least most
              rw [entry]
              exact PageTableEntry.setAddr_ne_zero (lt_of_frameUsageLen small) tableFlags_userPage.clean
                tableFlags_userPage.nonzero
            · exact standing.entered m listed
          · exact List.pairwise_cons.mpr
              ⟨fun m listed => middling.standing.apart_of_empty listed bounded empty, standing.spaced⟩
          · rcases List.mem_cons.mp listed with rfl | listed
            · exact own
            · exact pages m listed

def WritableFrame (info : MemoryInfo) (root : Nat) (indices : List (Fin 512)) (frame : Nat) : Prop :=
  ∃ k ∈ indices, (info.stackEntry root k).flags.contains writable = true ∧ (info.stackEntry root k).addr = frame

/-- The loop of `free_user_stack` over entries of a slot: it returns, empties them of their
flags and gives back the frames of the writable ones. -/
theorem freeStackEntries_clears {table : Nat} {slots : List Nat} {indices : List (Fin 512)} (sound : before.Sound root)
    (ordered : Stacks root slots before) (listed : n ∈ slots)
    (found : tableAt before.memory root userStackPageIndex = some table)
    (inside : ∀ index ∈ indices, n * 8 ≤ index.1 ∧ index.1 ≤ n * 8 + 10) :
    ∃ after, indices.foldlM (freeStackEntry table) before = .ok after ∧ after.Sound root ∧ Stacks root slots after ∧
      (∀ k ∈ indices, after.stackEntry root k = (before.stackEntry root k).setFlags 0) ∧
      (∀ k, k ∉ indices → after.stackEntry root k = before.stackEntry root k) ∧
      Frees before.frameAllocator after.frameAllocator (before.WritableFrame root indices) := by
  induction indices generalizing before with
  | nil => exact ⟨before, rfl, sound, ordered, fun _ member => (nomatch member), fun _ _ => rfl, .none (by simp [WritableFrame])⟩
  | cons index indices ih =>
    obtain ⟨least, most⟩ := inside index (List.mem_cons_self ..)
    obtain ⟨middle, stepped⟩ := freeStackEntry_returns found (ordered.flags index)
    have clears := freeStackEntry_ok sound found stepped
    have middling : middle.Sound root := by
      refine ⟨clears.unshared, fun table member available => ?_⟩
      rw [clears.tables] at member
      refine sound.taken table member ⟨clears.frees.usable ▸ available.1, ?_⟩
      by_contra used
      have given : ¬ middle.frameAllocator.frameUsage table = true := by simp [available.2]
      rw [clears.frees.usage, not_and, not_not] at given
      obtain ⟨_, written, rfl⟩ := given (by simpa using used)
      refine (ordered.exposed index (.inl ⟨n, listed, least, most⟩) ?_).2 member
      exact (ordered.flags index).resolve_right (flags_ne_zero_of_writable written)
    have reached : tableAt middle.memory root userStackPageIndex = some table := by
      rw [clears.rewrites.tableAt (by decide) (by simp [userStackPageIndex]), found]
    have here : middle.stackEntry root index = (before.stackEntry root index).setFlags 0 :=
      stackEntry_written clears.rewrites
    have there : ∀ k, k ≠ index → middle.stackEntry root k = before.stackEntry root k :=
      fun k other => stackEntry_eq clears.rewrites fun both => other both.2
    obtain ⟨after, finished, last, still, cleared, kept, frees⟩ := ih middling
      (ordered.clears clears listed least most) reached fun other member => inside other (List.mem_cons_of_mem _ member)
    refine ⟨after, by rw [List.foldlM_cons, stepped]; exact finished, last, still, fun k member => ?_,
      fun k outside => ?_, clears.frees.trans frees fun frame => ?_⟩
    · by_cases same : k = index
      · rw [same]
        by_cases again : index ∈ indices
        · rw [cleared index again, here, PageTableEntry.setFlags, PageTableEntry.addr_setFlags (by decide),
            PageTableEntry.setFlags]
        · rw [kept index again, here]
      · rw [cleared k ((List.mem_cons.mp member).resolve_left same), there k same]
    · rw [List.mem_cons, not_or] at outside
      rw [kept k outside.2, there k outside.1]
    · constructor
      · rintro ⟨k, member, written, addr⟩
        by_cases same : k = index
        · subst same
          exact .inl ⟨written, addr⟩
        · exact .inr ⟨k, (List.mem_cons.mp member).resolve_left same, there k same ▸ written, there k same ▸ addr⟩
      · rintro (⟨written, addr⟩ | ⟨k, member, written, addr⟩)
        · exact ⟨index, List.mem_cons_self .., written, addr⟩
        · by_cases same : k = index
          · rw [same, here, PageTableEntry.flags_setFlags (by decide)] at written
            exact absurd written (by decide)
          · exact ⟨k, List.mem_cons_of_mem _ member, there k same ▸ written, there k same ▸ addr⟩

theorem Tended.freeUserStack {top : Nat} (tended : Tended root live before) (listed : n ∈ live)
    (isTop : top = slotAddress n + 11 * 4096) :
    ∃ (indices : List (Fin 512)) (after : MemoryInfo),
      (∀ index, index ∈ indices ↔ n * 8 ≤ index.1 ∧ index.1 ≤ n * 8 + 10) ∧
      before.freeUserStack root top = .ok after ∧ Tended root (live.erase n) after ∧
      (∀ k ∈ indices, after.stackEntry root k = (before.stackEntry root k).setFlags 0) ∧
      (∀ k, k ∉ indices → after.stackEntry root k = before.stackEntry root k) ∧
      Frees before.frameAllocator after.frameAllocator (before.WritableFrame root indices) := by
  obtain ⟨bounded, entered⟩ := tended.standing.entered n listed
  obtain ⟨table, found, _⟩ := tableAt_of_entryAt_ne
    (entered ⟨n * 8 + 10, bounded⟩ (by simp) (Nat.le_refl _))
  obtain ⟨indices, range, loop⟩ := freeUserStack_eq isTop bounded found
  obtain ⟨after, finished, sound, ordered, cleared, kept, frees⟩ :=
    freeStackEntries_clears tended.sound tended.ordered listed found fun index member => (range index).mp member
  have others : ∀ m ∈ live.erase n, ∀ k : Fin 512, m * 8 + 1 ≤ k.1 → k.1 ≤ m * 8 + 10 →
      after.stackEntry root k = before.stackEntry root k := by
    intro m other k least most
    refine kept k fun member => ?_
    have apart := tended.standing.apart listed other
    have inside := (range k).mp member
    omega
  refine ⟨indices, after, range, loop.trans finished, ⟨sound, ordered.weaken List.erase_subset,
    ⟨fun m other => ?_, tended.standing.spaced.sublist List.erase_sublist⟩, fun m other k least most => ?_⟩,
    cleared, kept, frees⟩
  · obtain ⟨small, used⟩ := tended.standing.entered m (List.mem_of_mem_erase other)
    refine ⟨small, fun k least most => ?_⟩
    rw [others m other k least most]
    exact used k least most
  · rw [others m other k least most]
    exact tended.pages m (List.mem_of_mem_erase other) k least most

end Tended

end MemoryInfo

/-- A page table with the ranges of its live stacks. -/
structure StackMemory where
  info : MemoryInfo
  live : List (VirtAddr × VirtAddr)

inductive StackCall where
  | allocateUserStack (nStart : Nat)
  | freeUserStack (stackEnd : VirtAddr)

namespace StackMemory

open MemoryInfo

/-- Calls on the active table at `root`: an allocation that succeeds, one that fails, and
the release of a live stack. -/
inductive Step (root : Nat) : StackMemory → StackCall → StackMemory → Prop where
  | allocated {before : StackMemory} {nStart : Nat} {stack : VirtAddr × VirtAddr} {after : MemoryInfo}
      (returned : before.info.allocateUserStack root nStart = .ok (.ok stack, after)) :
      Step root before (.allocateUserStack nStart) ⟨after, stack :: before.live⟩
  | refused {before : StackMemory} {nStart : Nat} {error : String} {after : MemoryInfo}
      (returned : before.info.allocateUserStack root nStart = .ok (.error error, after)) :
      Step root before (.allocateUserStack nStart) { before with info := after }
  | freed {before : StackMemory} {stack : VirtAddr × VirtAddr} {after : MemoryInfo} (listed : stack ∈ before.live)
      (returned : before.info.freeUserStack root stack.2 = .ok after) :
      Step root before (.freeUserStack stack.2) ⟨after, before.live.erase stack⟩

/-- The calls as a function, where they return. -/
def perform (root : Nat) (memory : StackMemory) : StackCall → Option StackMemory
  | .allocateUserStack nStart =>
    match memory.info.allocateUserStack root nStart with
    | .ok (.ok stack, after) => some ⟨after, stack :: memory.live⟩
    | .ok (.error _, after) => some { memory with info := after }
    | .error _ => none
  | .freeUserStack stackEnd =>
    match memory.live.find? (·.2 = stackEnd) with
    | some stack =>
      match memory.info.freeUserStack root stack.2 with
      | .ok after => some ⟨after, memory.live.erase stack⟩
      | .error _ => none
    | none => none

theorem step_of_perform {root : Nat} {before after : StackMemory} {call : StackCall}
    (performed : before.perform root call = some after) : Step root before call after := by
  cases call with
  | allocateUserStack nStart =>
    rw [perform] at performed
    split at performed
    · rename_i stack info returned
      cases performed
      exact .allocated returned
    · rename_i error info returned
      cases performed
      exact .refused returned
    · cases performed
  | freeUserStack stackEnd =>
    rw [perform] at performed
    split at performed
    · rename_i stack found
      split at performed
      · rename_i info returned
        cases performed
        obtain rfl : stack.2 = stackEnd := by simpa using List.find?_some found
        exact .freed (List.mem_of_find?_eq_some found) returned
      · cases performed
    · cases performed

theorem run_of_perform {root : Nat} {start final : StackMemory} {calls : List StackCall}
    (performed : calls.foldlM (perform root) start = some final) : Run (Step root) start calls final := by
  induction calls generalizing start with
  | nil =>
    cases performed
    exact .nil
  | cons call calls ih =>
    rw [List.foldlM_cons] at performed
    obtain ⟨middle, first, rest⟩ := Option.bind_eq_some_iff.mp performed
    exact .cons (step_of_perform first) (ih rest)

def slotStack (n : Nat) : VirtAddr × VirtAddr := (slotAddress n + 4096, slotAddress n + 11 * 4096)

def Tended (root : Nat) (memory : StackMemory) : Prop :=
  ∃ slots, memory.live = slots.map slotStack ∧ MemoryInfo.Tended root slots memory.info

section Runs

variable {root n : Nat} {slots : List Nat} {before after final : StackMemory} {call : StackCall} {info : MemoryInfo}

theorem slotStack_injective : Function.Injective slotStack := by
  intro one other same
  have start : slotAddress one + 4096 = slotAddress other + 4096 := congrArg Prod.fst same
  unfold slotAddress at start
  omega

theorem Tended.step (tended : before.Tended root) (step : Step root before call after) : after.Tended root := by
  obtain ⟨slots, ranges, tended⟩ := tended
  cases step with
  | allocated returned =>
    obtain ⟨n, _, _, _, _, ⟨⟨_, failed⟩, _⟩ | ⟨same, more⟩⟩ := tended.allocateUserStack returned
    · cases failed
    · cases same
      exact ⟨n :: slots, by rw [List.map_cons, ranges]; rfl, more⟩
  | refused returned =>
    obtain ⟨_, _, _, _, _, ⟨_, still⟩ | ⟨same, _⟩⟩ := tended.allocateUserStack returned
    · exact ⟨slots, ranges, still⟩
    · cases same
  | freed listed returned =>
    rw [ranges] at listed
    obtain ⟨n, member, rfl⟩ := List.mem_map.mp listed
    obtain ⟨_, info, _, finished, fewer, _⟩ := tended.freeUserStack member rfl
    cases returned.symm.trans finished
    exact ⟨slots.erase n, by rw [ranges, ← List.map_erase slotStack_injective], fewer⟩

theorem Tended.run {start : StackMemory} {calls : List StackCall} (tended : start.Tended root)
    (run : Run (Step root) start calls final) : final.Tended root :=
  run.invariant tended fun held step => held.step step

end Runs

def pageEntry (info : MemoryInfo) (root : Nat) (addr : VirtAddr) : PageTableEntry :=
  entryAt info.memory root addr.path addr.p1Index

/-- Live stacks are ten mapped pages each, apart from one another in their addresses and
in their frames. -/
structure LiveStacks (root : Nat) (memory : StackMemory) : Prop where
  pages : ∀ stack ∈ memory.live, stack.1 % 4096 = 0 ∧ stack.2 = stack.1 + 10 * 4096
  disjoint : memory.live.Pairwise fun stack other => stack.2 ≤ other.1 ∨ other.2 ≤ stack.1
  mapped : ∀ stack ∈ memory.live, ∀ addr, stack.1 ≤ addr → addr < stack.2 →
    (pageEntry memory.info root addr).flags = userPage
  frames : ∀ stack ∈ memory.live, ∀ other ∈ memory.live, ∀ addr number, stack.1 ≤ addr → addr < stack.2 →
    other.1 ≤ number → number < other.2 →
    (pageEntry memory.info root addr).addr = (pageEntry memory.info root number).addr → addr / 4096 = number / 4096

/-- A stack is given up with its own frames, and the others keep their entries. -/
structure FreesOwn (root : Nat) (memory : StackMemory) (stack : VirtAddr × VirtAddr) (after : MemoryInfo) : Prop where
  frames : ∀ frame, memory.info.frameAllocator.frameUsage frame = true ∧
    after.frameAllocator.frameUsage frame = false ↔
      ∃ addr, stack.1 ≤ addr ∧ addr < stack.2 ∧ (pageEntry memory.info root addr).addr = frame
  used : ∀ frame, after.frameAllocator.frameUsage frame = true → memory.info.frameAllocator.frameUsage frame = true
  others : ∀ other ∈ memory.live.erase stack, ∀ addr, other.1 ≤ addr → addr < other.2 →
    pageEntry after root addr = pageEntry memory.info root addr

/-- A writable page is mapped right below the stack, with a frame the allocator counts. -/
def GuardMapped (root : Nat) (memory : StackMemory) (stack : VirtAddr × VirtAddr) : Prop :=
  (pageEntry memory.info root (stack.1 - 4096)).flags.contains writable = true ∧
    (pageEntry memory.info root (stack.1 - 4096)).addr < frameUsageLen

section Slots

variable {root n : Nat} {slots : List Nat} {info after : MemoryInfo} {addr : Nat}

theorem onStack_entry (bounded : n * 8 + 10 < 512) (least : slotAddress n + 4096 ≤ addr)
    (most : addr < slotAddress n + 11 * 4096) : ∃ k : Fin 512, n * 8 + 1 ≤ k.1 ∧ k.1 ≤ n * 8 + 10 ∧
      addr / 4096 = 6 * 2 ^ 27 + k.1 ∧
      ∀ (info : MemoryInfo) (root : Nat), pageEntry info root addr = info.stackEntry root k := by
  obtain ⟨path, index⟩ := slot_path bounded (by omega) most
  refine ⟨VirtAddr.p1Index addr, by omega, by omega, ?_, fun info root => by rw [pageEntry, path, stackEntry]⟩
  rw [index]
  unfold slotAddress at least most ⊢
  omega

theorem exists_onStack (bounded : n * 8 + 10 < 512) {k : Fin 512} (least : n * 8 + 1 ≤ k.1) (most : k.1 ≤ n * 8 + 10) :
    ∃ addr : Nat, slotAddress n + 4096 ≤ addr ∧ addr < slotAddress n + 11 * 4096 ∧
      ∀ (info : MemoryInfo) (root : Nat), pageEntry info root addr = info.stackEntry root k := by
  have low : slotAddress n + 4096 ≤ slotAddress n + (k.1 - n * 8) * 4096 := by omega
  have high : slotAddress n + (k.1 - n * 8) * 4096 < slotAddress n + 11 * 4096 := by omega
  obtain ⟨path, index⟩ := slot_path bounded (by omega) high
  have same : VirtAddr.p1Index (slotAddress n + (k.1 - n * 8) * 4096) = k := Fin.ext (by omega)
  exact ⟨_, low, high, fun info root => by rw [pageEntry, path, same, stackEntry]⟩

theorem guard_entry (bounded : n * 8 + 10 < 512) : ∃ k : Fin 512, k.1 = n * 8 ∧ ∀ (info : MemoryInfo) (root : Nat),
    pageEntry info root (slotAddress n + 4096 - 4096) = info.stackEntry root k := by
  obtain ⟨path, index⟩ := slot_path bounded (Nat.le_refl (slotAddress n)) (by omega)
  refine ⟨VirtAddr.p1Index (slotAddress n), by omega, fun info root => ?_⟩
  rw [Nat.add_sub_cancel, pageEntry, path, stackEntry]

theorem liveStacks (tended : MemoryInfo.Tended root slots info) : LiveStacks root ⟨info, slots.map slotStack⟩ := by
  refine ⟨fun stack listed => ?_, ?_, fun stack listed addr least most => ?_, ?_⟩
  · obtain ⟨n, _, rfl⟩ := List.mem_map.mp listed
    change (slotAddress n + 4096) % 4096 = 0 ∧ slotAddress n + 11 * 4096 = slotAddress n + 4096 + 10 * 4096
    unfold slotAddress
    omega
  · rw [List.pairwise_map]
    refine tended.standing.spaced.imp fun {one other} apart => ?_
    change slotAddress one + 11 * 4096 ≤ slotAddress other + 4096 ∨ slotAddress other + 11 * 4096 ≤ slotAddress one + 4096
    unfold slotAddress
    omega
  · obtain ⟨n, member, rfl⟩ := List.mem_map.mp listed
    obtain ⟨k, low, high, _, entry⟩ := onStack_entry (tended.standing.entered n member).1 least most
    obtain ⟨frame, bounded, mapped⟩ := tended.pages n member k low high
    rw [entry, mapped]
    exact (userPage_setAddr bounded).1
  · intro stack listed other also addr number least most low high same
    obtain ⟨n, member, rfl⟩ := List.mem_map.mp listed
    obtain ⟨m, second, rfl⟩ := List.mem_map.mp also
    obtain ⟨k, first, last, page, entry⟩ := onStack_entry (tended.standing.entered n member).1 least most
    obtain ⟨l, lower, upper, place, twin⟩ := onStack_entry (tended.standing.entered m second).1 low high
    obtain ⟨frame, bounded, mapped⟩ := tended.pages n member k first last
    obtain ⟨tail, small, backed⟩ := tended.pages m second l lower upper
    rw [entry, twin] at same
    have equal := tended.ordered.apart k l (.inl ⟨n, member, by omega, last⟩) (.inl ⟨m, second, by omega, upper⟩)
      (by rw [mapped]; exact (userPage_setAddr bounded).1) (by rw [backed]; exact (userPage_setAddr small).1) same
    rw [page, place, equal]

/-- A stack is given up with its own frames alone if and only if no page is mapped right
below it: `free_user_stack` clears one entry more than `allocate_user_stack` fills. -/
theorem freesOwn_iff (tended : MemoryInfo.Tended root slots info) (member : n ∈ slots) :
    ∃ after, info.freeUserStack root (slotStack n).2 = .ok after ∧
      (FreesOwn root ⟨info, slots.map slotStack⟩ (slotStack n) after ↔
        ¬ GuardMapped root ⟨info, slots.map slotStack⟩ (slotStack n)) := by
  have bounded := (tended.standing.entered n member).1
  obtain ⟨indices, after, range, finished, _, _, kept, frees⟩ := tended.freeUserStack member rfl
  obtain ⟨below, at_guard, guard⟩ := guard_entry bounded
  have page_of_writable : ∀ {k}, (info.stackEntry root k).flags.contains writable = true →
      (info.stackEntry root k).flags = userPage :=
    fun written => (tended.ordered.flags _).resolve_right (flags_ne_zero_of_writable written)
  have exposed : ∀ {k : Fin 512}, n * 8 ≤ k.1 → k.1 ≤ n * 8 + 10 → info.Exposed root slots k :=
    fun least most => .inl ⟨n, member, least, most⟩
  refine ⟨after, finished, ?_, fun unmapped => ⟨fun frame => ⟨?_, ?_⟩, fun frame used => ?_, ?_⟩⟩
  · rintro own ⟨written, small⟩
    change (pageEntry info root (slotAddress n + 4096 - 4096)).flags.contains writable = true at written
    change (pageEntry info root (slotAddress n + 4096 - 4096)).addr < frameUsageLen at small
    rw [guard] at written small
    have open_ := exposed (k := below) (by omega) (by omega)
    have used := (tended.ordered.exposed below open_ (page_of_writable written)).1
    have gone : after.frameAllocator.frameUsage (info.stackEntry root below).addr = false := by
      rw [Bool.eq_false_iff, ne_eq, frees.usage, not_and, not_not]
      exact fun _ => ⟨small, below, (range below).mpr (by omega), written, rfl⟩
    obtain ⟨addr, least, most, same⟩ := (own.frames _).mp ⟨used, gone⟩
    obtain ⟨k, first, last, _, entry⟩ := onStack_entry bounded least most
    change (pageEntry info root addr).addr = _ at same
    rw [entry] at same
    obtain ⟨frame, inside, mapped⟩ := tended.pages n member k first last
    have equal := tended.ordered.apart k below (exposed (by omega) last) open_
      (by rw [mapped]; exact (userPage_setAddr inside).1) (page_of_writable written) same
    rw [equal] at first
    omega
  · rintro ⟨used, gone⟩
    rw [Bool.eq_false_iff, ne_eq, frees.usage, not_and, not_not] at gone
    obtain ⟨small, k, listed, written, rfl⟩ := gone used
    have inside := (range k).mp listed
    have above : n * 8 + 1 ≤ k.1 := by
      by_contra low
      have same : k = below := Fin.ext (by omega)
      refine unmapped ⟨?_, ?_⟩
      · change (pageEntry info root (slotAddress n + 4096 - 4096)).flags.contains writable = true
        rwa [guard, ← same]
      · change (pageEntry info root (slotAddress n + 4096 - 4096)).addr < frameUsageLen
        rwa [guard, ← same]
    obtain ⟨addr, least, most, entry⟩ := exists_onStack bounded above inside.2
    exact ⟨addr, least, most, by rw [entry]⟩
  · rintro ⟨addr, least, most, rfl⟩
    obtain ⟨k, first, last, _, entry⟩ := onStack_entry bounded least most
    obtain ⟨frame, small, mapped⟩ := tended.pages n member k first last
    obtain ⟨flags, same⟩ := userPage_setAddr small
    rw [entry]
    have user : (info.stackEntry root k).flags = userPage := by rw [mapped, flags]
    refine ⟨(tended.ordered.exposed k (exposed (by omega) last) user).1, ?_⟩
    rw [Bool.eq_false_iff, ne_eq, frees.usage, not_and, not_not]
    refine fun _ => ⟨by rw [mapped, same]; exact small, k, (range k).mpr (by omega), ?_, rfl⟩
    rw [user]
    decide
  · exact ((frees.usage frame).mp used).1
  · intro other listed addr least most
    change other ∈ (slots.map slotStack).erase (slotStack n) at listed
    rw [← List.map_erase slotStack_injective] at listed
    obtain ⟨m, erased, rfl⟩ := List.mem_map.mp listed
    obtain ⟨k, first, last, _, entry⟩ :=
      onStack_entry (tended.standing.entered m (List.mem_of_mem_erase erased)).1 least most
    rw [entry, entry]
    refine kept k fun cleared => ?_
    have apart := tended.standing.apart member erased
    have inside := (range k).mp cleared
    omega

end Slots

/-- Through any calls on a page table in order, live stacks stay apart and mapped, and a
stack is given up with its own ten frames if and only if no page is mapped right below it. -/
theorem live_stacks_apart {root : Nat} {start : MemoryInfo} (tended : MemoryInfo.Tended root [] start)
    {calls : List StackCall} {final : StackMemory} (run : Run (Step root) ⟨start, []⟩ calls final) :
    LiveStacks root final ∧ ∀ stack ∈ final.live, ∃ after, final.info.freeUserStack root stack.2 = .ok after ∧
      (FreesOwn root final stack after ↔ ¬ GuardMapped root final stack) := by
  have fresh : Tended root ⟨start, []⟩ := ⟨[], rfl, tended⟩
  obtain ⟨slots, ranges, last⟩ := fresh.run run
  obtain ⟨info, live⟩ := final
  subst ranges
  refine ⟨liveStacks last, fun stack listed => ?_⟩
  obtain ⟨n, member, rfl⟩ := List.mem_map.mp listed
  exact freesOwn_iff last member

section Examples

/-- An empty table in frame 1, and the frames 2 to 32 free. -/
private def scarce : StackMemory := ⟨emptyInfo (.init [⟨0x2000, 0x21000, .usable⟩]), []⟩

private theorem tended_scarce : MemoryInfo.Tended 1 [] scarce.info :=
  tended_of_unused (sound_emptyInfo (by decide +kernel)) (entryAt_emptyInfo _ _ _)

private def twoStacks (final : StackMemory) : Bool :=
  final.live = [slotStack 5, slotStack 3] ∧ ¬ (pageEntry final.info 1 (slotAddress 3)).flags.contains writable

/-- Two live stacks; the search for the second begins where the first one is, and nothing is
mapped below the first. -/
theorem live_stacks_apart_two : ∃ final after,
    Run (Step 1) scarce [.allocateUserStack 3, .allocateUserStack 3] final ∧
    final.live = [slotStack 5, slotStack 3] ∧ LiveStacks 1 final ∧
    final.info.freeUserStack 1 (slotStack 3).2 = .ok after ∧ FreesOwn 1 final (slotStack 3) after := by
  have ran : ([.allocateUserStack 3, .allocateUserStack 3].foldlM (perform 1) scarce).any twoStacks = true := by
    decide +kernel
  obtain ⟨final, performed, facts⟩ := (Option.any_eq_true _ _).mp ran
  simp only [twoStacks, Bool.decide_and, Bool.and_eq_true, decide_eq_true_eq] at facts
  obtain ⟨live, unmapped⟩ := facts
  have run := run_of_perform performed
  obtain ⟨apart, frees⟩ := live_stacks_apart tended_scarce run
  obtain ⟨after, freed, own⟩ := frees (slotStack 3) (by simp [live])
  exact ⟨final, after, run, live, apart, freed, own.mpr fun mapped => unmapped mapped.1⟩

/-- Two stacks, a third that fails at its ninth page, and the release of the first two. -/
private def failing : List StackCall :=
  [.allocateUserStack 0, .allocateUserStack 2, .allocateUserStack 5, .freeUserStack (slotStack 2).2,
    .freeUserStack (slotStack 0).2]

private def mapsGuard (final : StackMemory) : Bool :=
  final.live = [slotStack 6] ∧ (pageEntry final.info 1 (slotAddress 6)).flags.contains writable ∧
    (pageEntry final.info 1 (slotAddress 6)).addr < frameUsageLen

private def failsThenMapsGuard (middle : StackMemory) : Bool :=
  middle.live = [] ∧ (middle.perform 1 (.allocateUserStack 6)).any mapsGuard

/-- After a failed allocation has left its eighth page below slot 6, a stack in that slot
is given up with eleven frames. -/
theorem live_stack_frees_page_below : ∃ (start : MemoryInfo) (final : StackMemory) (after : MemoryInfo),
    MemoryInfo.Tended 1 [] start ∧ Run (Step 1) ⟨start, []⟩ [.allocateUserStack 6] final ∧
    final.live = [slotStack 6] ∧ final.info.freeUserStack 1 (slotStack 6).2 = .ok after ∧
    ¬ FreesOwn 1 final (slotStack 6) after := by
  have ran : (failing.foldlM (perform 1) scarce).any failsThenMapsGuard = true := by decide +kernel
  obtain ⟨⟨start, live⟩, performed, fails⟩ := (Option.any_eq_true _ _).mp ran
  simp only [failsThenMapsGuard, Bool.decide_and, Bool.and_eq_true, decide_eq_true_eq] at fails
  obtain ⟨rfl, maps⟩ := fails
  obtain ⟨final, allocated, guard⟩ := (Option.any_eq_true _ _).mp maps
  simp only [mapsGuard, Bool.decide_and, Bool.and_eq_true, decide_eq_true_eq] at guard
  obtain ⟨alone, mapped⟩ := guard
  have initial : Tended 1 scarce := ⟨[], rfl, tended_scarce⟩
  have middle := initial.run (run_of_perform performed)
  obtain ⟨slots, ranges, tended⟩ := middle.step (step_of_perform allocated)
  obtain ⟨info, live⟩ := final
  subst alone
  obtain rfl : slots = [6] := by
    cases slots with
    | nil => cases ranges
    | cons n slots =>
      obtain ⟨same, none_left⟩ := List.cons.inj ranges
      rw [slotStack_injective same, List.map_eq_nil_iff.mp none_left.symm]
  obtain ⟨after, freed, own⟩ := freesOwn_iff tended (List.mem_singleton_self 6)
  obtain ⟨none, empty, tended⟩ := middle
  rw [List.map_eq_nil_iff.mp empty.symm] at tended
  exact ⟨start, _, after, tended, .cons (step_of_perform allocated) .nil, rfl, freed, fun frees => own.mp frees mapped⟩

end Examples

end StackMemory

end Zephyr
