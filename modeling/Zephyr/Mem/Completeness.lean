import Zephyr.Mem.FrameAllocator
import Mathlib.Logic.Relation

/-! When `allocate_frame` finds every free frame. The cursor never searches past
a used frame and `deallocate_frame` moves it by physical frame number, so the
free frames are all found exactly while they form one run from the cursor. -/

namespace Zephyr

open Transition

/-- The maps the bootloader provides: usable regions are page aligned, disjoint
and inside the usage table. -/
structure WellFormedMap (memoryMap : List MemoryRegion) : Prop where
  aligned : ∀ region ∈ memoryMap, region.regionType = .usable →
    4096 ∣ region.startAddr ∧ 4096 ∣ region.endAddr
  bounded : ∀ region ∈ memoryMap, region.regionType = .usable → region.endAddr ≤ frameUsageLen * 4096
  disjoint : (memoryMap.filter (·.regionType = .usable)).Pairwise fun region other =>
    region.endAddr ≤ other.startAddr ∨ other.endAddr ≤ region.startAddr

/-- What of this does not depend on the size of the usage table. -/
structure DisjointMap (memoryMap : List MemoryRegion) : Prop where
  aligned : ∀ region ∈ memoryMap, region.regionType = .usable →
    4096 ∣ region.startAddr ∧ 4096 ∣ region.endAddr
  disjoint : (memoryMap.filter (·.regionType = .usable)).Pairwise fun region other =>
    region.endAddr ≤ other.startAddr ∨ other.endAddr ≤ region.startAddr

theorem WellFormedMap.disjointMap {memoryMap : List MemoryRegion} (valid : WellFormedMap memoryMap) :
    DisjointMap memoryMap :=
  ⟨valid.aligned, valid.disjoint⟩

inductive FrameCall where
  | allocate
  | deallocate (frame : Nat)
  deriving DecidableEq, Repr

namespace MemoryRegion

theorem mem_frames {region : MemoryRegion} (aligned : 4096 ∣ region.startAddr ∧ 4096 ∣ region.endAddr)
    {frame : Nat} :
    frame ∈ region.frames ↔ region.startAddr ≤ frame * 4096 ∧ frame * 4096 < region.endAddr := by
  obtain ⟨⟨first, starts⟩, last, ends⟩ := aligned
  simp only [frames, List.mem_map, List.mem_range, starts, ends]
  constructor
  · rintro ⟨step, inside, rfl⟩
    omega
  · rintro ⟨above, below⟩
    exact ⟨frame - first, by omega, by omega⟩

theorem frames_nodup {region : MemoryRegion} (aligned : 4096 ∣ region.startAddr) : region.frames.Nodup := by
  obtain ⟨first, starts⟩ := aligned
  refine List.nodup_range.map ?_
  intro step other same
  simp only [starts] at same
  omega

end MemoryRegion

namespace PageFrameAllocator

variable {self before after : PageFrameAllocator} {memoryMap : List MemoryRegion}

section WellFormed

theorem usableFrames_bounded (valid : WellFormedMap memoryMap) (same : self.memoryMap = memoryMap)
    {frame : Nat} (member : frame ∈ self.usableFrames) : frame < frameUsageLen := by
  rw [usableFrames, same] at member
  obtain ⟨region, listed, inside⟩ := List.mem_flatMap.mp member
  simp only [List.mem_filter, decide_eq_true_eq] at listed
  have range := (region.mem_frames (valid.aligned region listed.1 listed.2)).mp inside
  have bound := valid.bounded region listed.1 listed.2
  omega

theorem usableFrames_nodup (valid : DisjointMap memoryMap) (same : self.memoryMap = memoryMap) :
    self.usableFrames.Nodup := by
  rw [usableFrames, same]
  have aligned : ∀ region ∈ memoryMap.filter (·.regionType = .usable),
      4096 ∣ region.startAddr ∧ 4096 ∣ region.endAddr := by
    intro region listed
    simp only [List.mem_filter, decide_eq_true_eq] at listed
    exact valid.aligned region listed.1 listed.2
  refine List.nodup_flatMap.mpr ⟨fun region listed => region.frames_nodup (aligned region listed).1, ?_⟩
  refine valid.disjoint.imp_of_mem ?_
  intro region other listed also apart frame first second
  have inside := (region.mem_frames (aligned region listed)).mp first
  have outside := (other.mem_frames (aligned other also)).mp second
  omega

end WellFormed

/-- Calls in which only allocated frames are deallocated. -/
inductive Step : PageFrameAllocator → FrameCall → PageFrameAllocator → Prop where
  | allocate {before after : PageFrameAllocator} {result : Option Nat}
      (allocated : before.allocateFrame = .ok (result, after)) : Step before .allocate after
  | deallocate {before : PageFrameAllocator} {frame : Nat}
      (allocated : before.frameUsage frame = true) :
      Step before (.deallocate frame) (before.deallocateFrame frame)

def Exhausted (self : PageFrameAllocator) : Prop :=
  ∀ frame ∈ self.usableFrames, self.frameUsage frame = true

/-- Any number of calls of `allocate_frame`. -/
def Allocates : PageFrameAllocator → PageFrameAllocator → Prop :=
  Relation.ReflTransGen fun before after => ∃ result, before.allocateFrame = .ok (result, after)

/-- `allocate_frame` reports no frame only when there is none, now and after any
number of further allocations. -/
def Complete (self : PageFrameAllocator) : Prop :=
  ∀ later last, Allocates self later → later.allocateFrame = .ok (none, last) → later.Exhausted

/-- The free usable frames are those from the cursor up to some index. -/
def Contiguous (self : PageFrameAllocator) : Prop :=
  ∃ last, ∀ (index frame : Nat), self.usableFrames[index]? = some frame →
    (self.frameUsage frame = false ↔ self.next ≤ index ∧ index < last)

/-- The condition on a call: a frame given back joins the free ones to an unbroken
run of usable frames that starts at the smaller of the cursor and its own number. -/
def Refills (self : PageFrameAllocator) : FrameCall → Prop
  | .allocate => True
  | .deallocate freed => ∃ last, ∀ (index frame : Nat), self.usableFrames[index]? = some frame →
      (self.frameUsage frame = false ∨ frame = freed ↔ min self.next freed ≤ index ∧ index < last)

/-- What every run from the initial state keeps. -/
structure Tracked (memoryMap : List MemoryRegion) (allocator : PageFrameAllocator) : Prop where
  map : allocator.memoryMap = memoryMap
  usable : ∀ frame, allocator.frameUsage frame = true → frame ∈ allocator.usableFrames

theorem Step.deterministic {call : FrameCall} {other : PageFrameAllocator}
    (step : Step before call after) (again : Step before call other) : after = other := by
  cases step with
  | allocate allocated =>
    cases again with
    | allocate second =>
      rw [allocated] at second
      cases second
      rfl
  | deallocate => cases again; rfl

theorem Tracked.step {call : FrameCall} (tracked : Tracked memoryMap before)
    (step : Step before call after) : Tracked memoryMap after := by
  cases step with
  | allocate allocated =>
    cases allocation allocated with
    | stuck => exact tracked
    | took frame found bounded free =>
      refine ⟨tracked.map, ?_⟩
      intro other used
      by_cases same : other = frame
      · subst same
        exact List.mem_of_getElem? found
      · refine tracked.usable other ?_
        simpa [markFrameAsUsed, Function.update_of_ne same] using used
  | @deallocate frame allocated =>
    unfold deallocateFrame
    split
    · refine ⟨tracked.map, ?_⟩
      intro other used
      by_cases same : other = frame
      · simp [same] at used
      · refine tracked.usable other ?_
        simpa [Function.update_of_ne same] using used
    · exact tracked

/-- An allocation takes the first frame of the run. -/
theorem Contiguous.allocate (nodup : before.usableFrames.Nodup) (contiguous : before.Contiguous)
    {result : Option Nat} (allocated : before.allocateFrame = .ok (result, after)) :
    after.Contiguous := by
  obtain ⟨last, run⟩ := contiguous
  cases allocation allocated with
  | stuck => exact ⟨last, run⟩
  | took frame found bounded free =>
    refine ⟨last, ?_⟩
    intro index other listed
    have old := run index other listed
    by_cases same : other = frame
    · subst same
      have inside := (List.getElem?_eq_some_iff.mp found).1
      have position : before.next = index := (List.getElem?_inj inside nodup).mp (found.trans listed.symm)
      simp only [markFrameAsUsed, Function.update_self, ← position, Bool.true_eq_false, false_iff]
      omega
    · have apart : index ≠ before.next := by
        rintro rfl
        exact same (Option.some.inj (listed.symm.trans found))
      simp only [markFrameAsUsed, Function.update_of_ne same, old]
      omega

theorem Contiguous.exhausted (contiguous : self.Contiguous)
    (allocated : self.allocateFrame = .ok (none, after)) : self.Exhausted := by
  obtain ⟨last, run⟩ := contiguous
  cases allocation allocated with
  | stuck blocked =>
    intro frame member
    obtain ⟨index, listed⟩ := List.mem_iff_getElem?.mp member
    by_contra unused
    have inside := (run index frame listed).mp (by simpa using unused)
    -- the frame at the cursor would be free as well
    have cursor : self.next < self.usableFrames.length :=
      Nat.lt_of_le_of_lt inside.1 (List.getElem?_eq_some_iff.mp listed).1
    have head := List.getElem?_eq_getElem cursor
    have free := (run self.next _ head).mpr ⟨Nat.le_refl _, by omega⟩
    rw [blocked _ head] at free
    cases free

theorem Contiguous.complete (nodup : self.usableFrames.Nodup) (contiguous : self.Contiguous) :
    self.Complete := by
  intro later last allocates allocated
  have kept : later.Contiguous ∧ later.usableFrames.Nodup := by
    clear allocated
    induction allocates with
    | refl => exact ⟨contiguous, nodup⟩
    | tail _ step ih =>
      obtain ⟨result, taken⟩ := step
      refine ⟨ih.1.allocate ih.2 taken, ?_⟩
      rw [(allocation taken).usableFrames]
      exact ih.2
  exact kept.1.exhausted allocated

/-- Allocating until the allocator gives up uses up the run at the cursor, so
whatever is free beyond it would never be found. -/
theorem Complete.contiguous (nodup : self.usableFrames.Nodup)
    (bounded : ∀ frame ∈ self.usableFrames, frame < frameUsageLen) (complete : self.Complete) :
    self.Contiguous := by
  -- induction on the number of usable frames from the cursor on
  generalize remaining : self.usableFrames.length - self.next = count
  induction count using Nat.strongRecOn generalizing self with
  | ind count ih =>
    by_cases blocked : ∀ frame, self.usableFrames[self.next]? = some frame →
        self.frameUsage frame = true
    · have exhausted := complete self self .refl (allocateFrame_stuck bounded blocked)
      refine ⟨0, ?_⟩
      intro index frame listed
      simp [exhausted frame (List.mem_of_getElem? listed)]
    · push Not at blocked
      obtain ⟨frame, found, unused⟩ := blocked
      have inside := (List.getElem?_eq_some_iff.mp found).1
      have free : self.frameUsage frame = false := by simpa using unused
      have taken := allocateFrame_took found (bounded frame (List.mem_of_getElem? found)) free
      generalize made : ({ self.markFrameAsUsed frame with next := self.next + 1 } :
        PageFrameAllocator) = rest at taken
      have frames : rest.usableFrames = self.usableFrames := by rw [← made]; rfl
      have cursor : rest.next = self.next + 1 := by rw [← made]
      have later : rest.Complete :=
        fun last final allocates => complete last final (.head ⟨_, taken⟩ allocates)
      obtain ⟨last, run⟩ := ih (rest.usableFrames.length - rest.next)
        (by rw [frames, cursor]; omega) (frames ▸ nodup) (frames ▸ bounded) later rfl
      refine ⟨max last (self.next + 1), ?_⟩
      intro index other listed
      have after := run index other (frames ▸ listed)
      rw [cursor] at after
      by_cases same : other = frame
      · subst same
        have position : self.next = index :=
          (List.getElem?_inj inside nodup).mp (found.trans listed.symm)
        simp only [free, true_iff]
        omega
      · have apart : index ≠ self.next := by
          rintro rfl
          exact same (Option.some.inj (listed.symm.trans found))
        have usage : rest.frameUsage other = self.frameUsage other := by
          rw [← made]
          exact Function.update_of_ne same _ _
        rw [← usage, after]
        omega

theorem complete_iff_contiguous (nodup : self.usableFrames.Nodup)
    (bounded : ∀ frame ∈ self.usableFrames, frame < frameUsageLen) :
    self.Complete ↔ self.Contiguous :=
  ⟨Complete.contiguous nodup bounded, Contiguous.complete nodup⟩

/-- Giving a frame back leaves the free frames contiguous exactly under the condition. -/
theorem contiguous_deallocateFrame {frame : Nat} (bounded : frame < frameUsageLen) :
    (self.deallocateFrame frame).Contiguous ↔ self.Refills (.deallocate frame) := by
  have cursor : (self.deallocateFrame frame).next = min self.next frame := by
    simp only [deallocateFrame, if_pos bounded]
    split <;> omega
  have usage (other : Nat) : (self.deallocateFrame frame).frameUsage other = false ↔
      self.frameUsage other = false ∨ other = frame := by
    simp only [deallocateFrame, if_pos bounded]
    by_cases same : other = frame
    · simp [same]
    · simp [same]
  simp only [Contiguous, Refills, usableFrames_deallocateFrame, usage, cursor]

theorem Tracked.run {calls : List FrameCall} (run : Run Step (init memoryMap) calls self) :
    Tracked memoryMap self :=
  run.invariant ⟨rfl, by simp [init]⟩ (fun tracked step => tracked.step step)

theorem contiguous_of_run (valid : WellFormedMap memoryMap) {calls : List FrameCall}
    (run : Run (fun before call after => before.Refills call ∧ Step before call after)
      (init memoryMap) calls self) : Tracked memoryMap self ∧ self.Contiguous := by
  induction run with
  | nil =>
    refine ⟨⟨rfl, by simp [init]⟩, (init memoryMap).usableFrames.length, ?_⟩
    intro index frame listed
    have inside := (List.getElem?_eq_some_iff.mp listed).1
    exact ⟨fun _ => ⟨Nat.zero_le _, inside⟩, fun _ => rfl⟩
  | snoc earlier last ih =>
    obtain ⟨tracked, contiguous⟩ := ih
    obtain ⟨refills, step⟩ := last
    refine ⟨tracked.step step, ?_⟩
    cases step with
    | allocate allocated => exact contiguous.allocate (usableFrames_nodup valid.disjointMap tracked.map) allocated
    | deallocate allocated =>
      have bounded := usableFrames_bounded valid tracked.map (tracked.usable _ allocated)
      exact (contiguous_deallocateFrame bounded).mpr refills

/-- In a run of calls, `allocate_frame` reports no frame only when there is none,
at every point and however many allocations follow, exactly when every frame
given back met the condition. -/
theorem frame_allocator_complete_iff (valid : WellFormedMap memoryMap) {calls : List FrameCall}
    {final : PageFrameAllocator} (run : Run Step (init memoryMap) calls final) :
    (∀ earlier later state, calls = earlier ++ later → Run Step (init memoryMap) earlier state →
        state.Complete) ↔
      Run (fun before call after => before.Refills call ∧ Step before call after)
        (init memoryMap) calls final := by
  constructor
  · intro complete
    induction run with
    | nil => exact .nil
    | @snoc calls middle final call earlier step ih =>
      have before := ih fun first later state split => complete first (later ++ [call]) state (by simp [split])
      refine .snoc before ⟨?_, step⟩
      have tracked := Tracked.run (.snoc earlier step)
      have nodup := usableFrames_nodup valid.disjointMap tracked.map
      have contiguous := (complete_iff_contiguous nodup fun frame => usableFrames_bounded valid tracked.map).mp
        (complete _ [] final (by simp) (.snoc earlier step))
      cases step with
      | allocate => trivial
      | deallocate allocated =>
        have used := (Tracked.run earlier).usable _ allocated
        exact (contiguous_deallocateFrame
          (usableFrames_bounded valid (Tracked.run earlier).map used)).mp contiguous
  · rintro careful earlier later state rfl reached
    obtain ⟨middle, first, _⟩ := careful.split
    obtain ⟨tracked, contiguous⟩ := contiguous_of_run valid first
    have stripped : Run Step (init memoryMap) earlier middle := first.mono And.right
    obtain rfl : middle = state := stripped.unique reached Step.deterministic
    exact (complete_iff_contiguous (usableFrames_nodup valid.disjointMap tracked.map)
      fun frame => usableFrames_bounded valid tracked.map).mpr contiguous

section Examples

private def lowMap : List MemoryRegion := [⟨0, 0x3000, .usable⟩]

private def highMap : List MemoryRegion := [⟨0, 0x10000, .reserved⟩, ⟨0x10000, 0x13000, .usable⟩]

private theorem wellFormedMap_lowMap : WellFormedMap lowMap := by
  refine ⟨?_, ?_, ?_⟩ <;> decide

private theorem wellFormedMap_highMap : WellFormedMap highMap := by
  refine ⟨?_, ?_, ?_⟩ <;> decide

/-- Giving back the frame just taken, where frame numbers are indices. -/
theorem frame_allocator_complete_iff_low : ∃ final,
    Run Step (init lowMap) [.allocate, .allocate, .deallocate 1] final ∧ final.Complete := by
  have run : Run Step (init lowMap) [.allocate, .allocate, .deallocate 1] _ :=
    .cons (.allocate rfl) (.cons (.allocate rfl) (.cons (.deallocate rfl) .nil))
  refine ⟨_, run, ?_⟩
  refine (frame_allocator_complete_iff wellFormedMap_lowMap run).mpr ?_ _ [] _ rfl run
  refine .cons ⟨trivial, .allocate rfl⟩ (.cons ⟨trivial, .allocate rfl⟩
    (.cons ⟨⟨3, ?_⟩, .deallocate rfl⟩ .nil))
  intro index frame listed
  match index with
  | 0 => cases listed; decide
  | 1 => cases listed; decide
  | 2 => cases listed; decide
  | _ + 3 => cases listed

/-- A frame given back above the cursor is never found again: the allocator
reports no frame while frame 16 is free. -/
theorem freed_frame_not_found : ∃ state, WellFormedMap highMap ∧
    Run Step (init highMap) [.allocate, .allocate, .deallocate 16, .allocate] state ∧
    state.allocateFrame = .ok (none, state) ∧ 16 ∈ state.usableFrames ∧
    state.frameUsage 16 = false :=
  ⟨_, wellFormedMap_highMap, .cons (.allocate rfl) (.cons (.allocate rfl) (.cons (.deallocate rfl)
    (.cons (.allocate rfl) .nil))), rfl, by decide, rfl⟩

end Examples

end PageFrameAllocator
end Zephyr
