import Zephyr.Mem.Allocation
import Zephyr.Mem.Completeness

/-! The usage table has a fixed length and is indexed by physical frame number. When the
cursor of `allocate_frame` can reach a frame beyond it. -/

namespace Zephyr

open Transition

namespace PageFrameAllocator

variable {self before after : PageFrameAllocator} {memoryMap : List MemoryRegion} {frames : List Nat}

theorem Grabs.next (grabs : Grabs before frames after) : after.next = before.next + frames.length := by
  induction grabs with
  | nil => rfl
  | cons takes _ ih =>
    rw [ih, takes.next, List.length_cons]
    omega

theorem Grabs.run (grabs : Grabs before frames after) :
    Run Step before (List.replicate frames.length .allocate) after := by
  induction grabs with
  | nil => exact .nil
  | cons takes _ ih => exact .cons (.allocate takes) ih

theorem Step.usableFrames {call : FrameCall} (step : Step before call after) : after.usableFrames = before.usableFrames := by
  cases step with
  | allocate allocated => exact (allocation allocated).usableFrames
  | deallocate => exact usableFrames_deallocateFrame

theorem allocateFrame_returns (bounded : ∀ frame ∈ self.usableFrames, frame < frameUsageLen) :
    ∃ result after, self.allocateFrame = .ok (result, after) := by
  by_cases blocked : ∀ frame, self.usableFrames[self.next]? = some frame → self.frameUsage frame = true
  · exact ⟨none, self, allocateFrame_stuck bounded blocked⟩
  · push Not at blocked
    obtain ⟨frame, found, free⟩ := blocked
    have unused : self.frameUsage frame = false := by simpa using free
    exact ⟨_, _, allocateFrame_took found (bounded frame (List.mem_of_getElem? found)) unused⟩

theorem allocateFrame_faults {frame : Nat} (found : self.usableFrames[self.next]? = some frame)
    (outside : frameUsageLen ≤ frame) : self.allocateFrame = .error .indexOutOfBounds := by
  simp [allocateFrame, found, Nat.not_lt.mpr outside]

theorem exists_first_outside {frame : Nat} (member : frame ∈ frames) (outside : frameUsageLen ≤ frame) :
    ∃ inside first rest, frames = inside ++ first :: rest ∧ frameUsageLen ≤ first ∧
      ∀ earlier ∈ inside, earlier < frameUsageLen := by
  induction frames with
  | nil => cases member
  | cons head tail ih =>
    by_cases small : head < frameUsageLen
    · have later : frame ∈ tail := by
        rcases List.mem_cons.mp member with rfl | later
        · exact absurd small (Nat.not_lt.mpr outside)
        · exact later
      obtain ⟨inside, first, rest, rfl, beyond, before⟩ := ih later
      exact ⟨head :: inside, first, rest, rfl, beyond, List.forall_mem_cons.mpr ⟨small, before⟩⟩
    · exact ⟨[], head, tail, rfl, Nat.not_lt.mp small, fun _ none => nomatch none⟩

/-- Allocating from the start, the cursor comes to the first frame beyond the table. -/
theorem reaches_outside (valid : DisjointMap memoryMap) {frame : Nat} (usable : frame ∈ (init memoryMap).usableFrames)
    (outside : frameUsageLen ≤ frame) : ∃ calls allocator, Run Step (init memoryMap) calls allocator ∧
      allocator.allocateFrame = .error .indexOutOfBounds := by
  have nodup : (init memoryMap).usableFrames.Nodup := usableFrames_nodup valid rfl
  obtain ⟨inside, first, rest, split, beyond, before⟩ := exists_first_outside usable outside
  have window : ((init memoryMap).usableFrames.drop 0).take inside.length = inside := by
    rw [split, List.drop_zero, List.take_left]
  rw [split] at nodup
  have ready : (init memoryMap).CursorReady inside.length := by
    change (List.take _ (List.drop 0 _)).length = _ ∧ (List.take _ (List.drop 0 _)).Nodup ∧
      ∀ frame ∈ List.take _ (List.drop 0 _), _
    rw [window]
    exact ⟨rfl, (List.nodup_append.mp nodup).1, fun earlier member => ⟨before earlier member, rfl⟩⟩
  obtain ⟨frames, allocator, grabs, count⟩ := ready.grabs
  refine ⟨_, allocator, grabs.run, allocateFrame_faults ?_ beyond⟩
  rw [grabs.usableFrames, grabs.next, count, split]
  change (inside ++ first :: rest)[0 + inside.length]? = some first
  rw [Nat.zero_add, List.getElem?_append_right (Nat.le_refl _), Nat.sub_self]
  rfl

/-- The frames `allocate_frame` can ever meet are inside the table exactly when every usable
frame of the machine is. -/
theorem allocation_never_faults_iff (valid : DisjointMap memoryMap) :
    (∀ calls allocator, Run Step (init memoryMap) calls allocator →
      ∃ result after, allocator.allocateFrame = .ok (result, after)) ↔
    ∀ frame ∈ (init memoryMap).usableFrames, frame < frameUsageLen := by
  constructor
  · intro returns frame usable
    by_contra outside
    obtain ⟨calls, allocator, run, faults⟩ := reaches_outside valid usable (Nat.not_lt.mp outside)
    obtain ⟨result, after, returned⟩ := returns calls allocator run
    cases faults.symm.trans returned
  · intro bounded calls allocator run
    have same : allocator.usableFrames = (init memoryMap).usableFrames := by
      induction run with
      | nil => rfl
      | snoc _ last ih => exact last.usableFrames.trans ih
    rw [← same] at bounded
    exact allocateFrame_returns bounded

private def highMemory : List MemoryRegion := [⟨0x186A0000, 0x186A1000, .usable⟩]

private def lowMemory : List MemoryRegion :=
  [⟨0, 0x1000, .frameZero⟩, ⟨0x1000, 0x3000, .usable⟩, ⟨0x3000, 0x5000, .kernel⟩, ⟨0x5000, 0x8000, .usable⟩]

private theorem disjointMap_single {region : MemoryRegion} (aligned : 4096 ∣ region.startAddr ∧ 4096 ∣ region.endAddr) :
    DisjointMap [region] := by
  refine ⟨fun other listed _ => List.mem_singleton.mp listed ▸ aligned, ?_⟩
  exact (List.pairwise_singleton _ region).filter _

/-- Five usable frames in two regions: calls that cross from one to the other, give a frame
back and take it again. -/
theorem allocation_never_faults_low : DisjointMap lowMemory ∧ ∃ allocator result after,
    Run Step (init lowMemory) [.allocate, .allocate, .allocate, .deallocate 1, .allocate] allocator ∧
    allocator.allocateFrame = .ok (result, after) := by
  have valid : DisjointMap lowMemory := by
    refine ⟨?_, ?_⟩ <;> decide
  have run : Run Step (init lowMemory) [.allocate, .allocate, .allocate, .deallocate 1, .allocate] _ :=
    .cons (.allocate rfl) (.cons (.allocate rfl) (.cons (.allocate rfl) (.cons (.deallocate rfl)
      (.cons (.allocate rfl) .nil))))
  obtain ⟨result, after, returned⟩ := (allocation_never_faults_iff valid).mpr (by decide) _ _ run
  exact ⟨valid, _, result, after, run, returned⟩

/-- A machine whose only usable frame is number 100000: the first call faults. -/
theorem allocation_faults_high : DisjointMap highMemory ∧ (init highMemory).allocateFrame = .error .indexOutOfBounds :=
  ⟨disjointMap_single ⟨by decide, by decide⟩, rfl⟩

end PageFrameAllocator
end Zephyr
