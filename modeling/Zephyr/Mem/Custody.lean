import Zephyr.Mem.Allocation
import Zephyr.Mem.Completeness

/-! Which frames are handed out. The holders are tracked by the calls alone, and the
usage table of `PageFrameAllocator` is shown to agree with them after every history. -/

namespace Zephyr

open Transition

/-- Every region starts and ends on a page boundary. -/
def AlignedMap (memoryMap : List MemoryRegion) : Prop :=
  ∀ region ∈ memoryMap, 4096 ∣ region.startAddr ∧ 4096 ∣ region.endAddr

instance (memoryMap : List MemoryRegion) : Decidable (AlignedMap memoryMap) :=
  inferInstanceAs (Decidable (∀ region ∈ memoryMap, 4096 ∣ region.startAddr ∧ 4096 ∣ region.endAddr))

namespace MemoryRegion

def Contains (region : MemoryRegion) (frame : Nat) : Prop :=
  region.startAddr ≤ frame * 4096 ∧ (frame + 1) * 4096 ≤ region.endAddr

end MemoryRegion

/-- The allocator beside the frames it returned that were not given back since. -/
structure Custody where
  allocator : PageFrameAllocator
  held : List Nat

namespace Custody

variable {memoryMap : List MemoryRegion} {before after state : Custody} {call : FrameCall}

def init (memoryMap : List MemoryRegion) : Custody := ⟨.init memoryMap, []⟩

/-- Calls that return; only a frame that is held is deallocated. -/
inductive Step : Custody → FrameCall → Custody → Prop where
  | allocate {before : Custody} {frame : Nat} {allocator : PageFrameAllocator}
      (returned : before.allocator.allocateFrame = .ok (some frame, allocator)) :
      Step before .allocate ⟨allocator, frame :: before.held⟩
  | refuse {before : Custody} {allocator : PageFrameAllocator}
      (returned : before.allocator.allocateFrame = .ok (none, allocator)) :
      Step before .allocate { before with allocator }
  | deallocate {before : Custody} {frame : Nat} (held : frame ∈ before.held) :
      Step before (.deallocate frame)
        ⟨before.allocator.deallocateFrame frame, before.held.erase frame⟩

/-- The usage table records the holders, each of them once. -/
structure Recorded (memoryMap : List MemoryRegion) (state : Custody) : Prop where
  map : state.allocator.memoryMap = memoryMap
  usage : ∀ frame, state.allocator.frameUsage frame = true ↔ frame ∈ state.held
  bounded : ∀ frame ∈ state.held, frame < frameUsageLen
  distinct : state.held.Nodup

theorem Recorded.init : Recorded memoryMap (init memoryMap) :=
  ⟨rfl, by simp [Custody.init, PageFrameAllocator.init], by simp [Custody.init], .nil⟩

theorem Recorded.allocate {frame : Nat} {allocator : PageFrameAllocator} (recorded : Recorded memoryMap before)
    (takes : before.allocator.Takes frame allocator) :
    Recorded memoryMap ⟨allocator, frame :: before.held⟩ where
  map := by
    obtain ⟨_, _, _, rfl⟩ := PageFrameAllocator.takes_iff.mp takes
    exact recorded.map
  usage other := by
    rw [takes.frameUsage, recorded.usage, List.mem_cons]
  bounded other listed := by
    rcases List.mem_cons.mp listed with rfl | listed
    · exact takes.bounded
    · exact recorded.bounded other listed
  distinct := by
    refine List.nodup_cons.mpr ⟨fun listed => ?_, recorded.distinct⟩
    cases ((recorded.usage frame).mpr listed).symm.trans takes.available.2

theorem Recorded.deallocate {frame : Nat} (recorded : Recorded memoryMap before) (held : frame ∈ before.held) :
    Recorded memoryMap ⟨before.allocator.deallocateFrame frame, before.held.erase frame⟩ := by
  have inside := recorded.bounded frame held
  refine ⟨?_, fun other => ?_, fun other listed => recorded.bounded other (List.mem_of_mem_erase listed),
    recorded.distinct.erase frame⟩
  · rw [PageFrameAllocator.deallocateFrame, if_pos inside]
    exact recorded.map
  · rw [PageFrameAllocator.deallocateFrame, if_pos inside, recorded.distinct.mem_erase_iff]
    by_cases same : other = frame
    · simp [same]
    · simp [same, recorded.usage]

theorem Recorded.step (recorded : Recorded memoryMap before) (step : Step before call after) :
    Recorded memoryMap after := by
  cases step with
  | allocate returned => exact recorded.allocate returned
  | refuse returned =>
    cases PageFrameAllocator.allocation returned with
    | stuck => exact recorded
  | deallocate held => exact recorded.deallocate held

theorem recorded_of_run {calls : List FrameCall} (run : Run Step (init memoryMap) calls state) :
    Recorded memoryMap state :=
  run.invariant .init fun recorded step => recorded.step step

theorem contains_of_usable {frame : Nat} (aligned : AlignedMap memoryMap) (map : state.allocator.memoryMap = memoryMap)
    (usable : frame ∈ state.allocator.usableFrames) :
    ∃ region ∈ memoryMap, region.regionType = .usable ∧ region.Contains frame := by
  rw [PageFrameAllocator.usableFrames, map] at usable
  obtain ⟨region, listed, inside⟩ := List.mem_flatMap.mp usable
  simp only [List.mem_filter, decide_eq_true_eq] at listed
  have boundaries := aligned region listed.1
  obtain ⟨above, below⟩ := (region.mem_frames boundaries).mp inside
  obtain ⟨last, ends⟩ := boundaries.2
  exact ⟨region, listed.1, listed.2, above, by omega⟩

/-- After every history of calls, the usage table marks exactly the frames returned and
not given back, and a further `allocate_frame` returns none of them, only frames of
usable regions. -/
theorem no_frame_handed_out_twice (aligned : AlignedMap memoryMap) {calls : List FrameCall}
    (run : Run Step (init memoryMap) calls state) :
    (∀ frame, state.allocator.frameUsage frame = true ↔ frame ∈ state.held) ∧
    ∀ frame allocator, state.allocator.allocateFrame = .ok (some frame, allocator) →
      frame ∉ state.held ∧ ∃ region ∈ memoryMap, region.regionType = .usable ∧ region.Contains frame := by
  have recorded := recorded_of_run run
  refine ⟨recorded.usage, fun frame allocator returned => ⟨fun listed => ?_, ?_⟩⟩
  · have takes : state.allocator.Takes frame allocator := returned
    cases ((recorded.usage frame).mpr listed).symm.trans takes.available.2
  · have takes : state.allocator.Takes frame allocator := returned
    exact contains_of_usable aligned recorded.map takes.available.1

section Examples

private def custodyMap : List MemoryRegion := [⟨0, 0x10000, .reserved⟩, ⟨0x10000, 0x13000, .usable⟩]

/-- Two frames taken and one given back. -/
theorem no_frame_handed_out_twice_high : ∃ state,
    Run Step (init custodyMap) [.allocate, .allocate, .deallocate 16] state ∧
      ∀ frame, state.allocator.frameUsage frame = true ↔ frame ∈ [17] := by
  have run : Run Step (init custodyMap) [.allocate, .allocate, .deallocate 16] _ :=
    .cons (.allocate rfl) (.cons (.allocate rfl) (.cons (.deallocate (by decide)) .nil))
  exact ⟨_, run, (no_frame_handed_out_twice (by decide) run).1⟩

end Examples

end Custody
end Zephyr
