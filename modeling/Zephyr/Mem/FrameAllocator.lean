import Mathlib.Algebra.GroupWithZero.Nat
import Zephyr.Transition.Run
import Mathlib.Data.List.Nodup
import Mathlib.Logic.Function.Basic

/-! `PageFrameAllocator` of `mem/memory.rs`: a cursor into the usable frames of
the memory map beside a usage table indexed by physical frame number. Frames are
named by their number; the statistics of `MEMORYLOGGER` are left out. -/

namespace Zephyr

open Transition

/-- Where the kernel stops with a Rust panic. -/
inductive Panic where
  | indexOutOfBounds
  | unwrapNone
  | unwrapErr
  | virtAddrNotValid
  | overflow
  | allocError
  | explicit
  deriving DecidableEq, Repr

inductive MemoryRegionType where
  | usable
  | inUse
  | reserved
  | kernel
  | kernelStack
  | pageTable
  | bootloader
  | frameZero
  | bootInfo
  | other
  deriving DecidableEq, Repr

/-- A region of the bootloader's memory map, by addresses. -/
structure MemoryRegion where
  startAddr : Nat
  endAddr : Nat
  regionType : MemoryRegionType
  deriving DecidableEq, Repr

namespace MemoryRegion

/-- Frames of `(start_addr..end_addr).step_by(4096)`. -/
def frames (region : MemoryRegion) : List Nat :=
  (List.range ((region.endAddr - region.startAddr + 4095) / 4096)).map
    fun step => (region.startAddr + step * 4096) / 4096

end MemoryRegion

/-- The length of the `frame_usage` array. -/
def frameUsageLen : Nat := 100000

structure PageFrameAllocator where
  memoryMap : List MemoryRegion
  next : Nat
  frameUsage : Nat → Bool

namespace PageFrameAllocator

def init (memoryMap : List MemoryRegion) : PageFrameAllocator :=
  ⟨memoryMap, 0, fun _ => false⟩

def usableFrames (self : PageFrameAllocator) : List Nat :=
  (self.memoryMap.filter (·.regionType = .usable)).flatMap MemoryRegion.frames

def markFrameAsUsed (self : PageFrameAllocator) (frame : Nat) : PageFrameAllocator :=
  { self with frameUsage := Function.update self.frameUsage frame true }

def isFrameFree (self : PageFrameAllocator) (frame : Nat) : Bool := !self.frameUsage frame

/-- `allocate_frame`; both usage accesses are bounds-checked. -/
def allocateFrame (self : PageFrameAllocator) : Except Panic (Option Nat × PageFrameAllocator) :=
  match self.usableFrames[self.next]? with
  | some frame =>
    if frame < frameUsageLen then
      if self.isFrameFree frame then
        .ok (some frame, { self.markFrameAsUsed frame with next := self.next + 1 })
      else .ok (none, self)
    else .error .indexOutOfBounds
  | none => .ok (none, self)

def deallocateFrame (self : PageFrameAllocator) (frame : Nat) : PageFrameAllocator :=
  if frame < frameUsageLen then
    { self with
      frameUsage := Function.update self.frameUsage frame false
      next := if frame < self.next then frame else self.next }
  else self

/-- What a call of `allocate_frame` that returns can do. -/
inductive Allocation (self : PageFrameAllocator) : Option Nat → PageFrameAllocator → Prop where
  | took (frame : Nat) (found : self.usableFrames[self.next]? = some frame)
      (bounded : frame < frameUsageLen) (free : self.frameUsage frame = false) :
      Allocation self (some frame) { self.markFrameAsUsed frame with next := self.next + 1 }
  | stuck (blocked : ∀ frame, self.usableFrames[self.next]? = some frame →
      self.frameUsage frame = true) :
      Allocation self none self

section Specs

variable {self after : PageFrameAllocator} {frame : Nat} {result : Option Nat}

theorem allocation (allocated : self.allocateFrame = .ok (result, after)) :
    Allocation self result after := by
  unfold allocateFrame at allocated
  split at allocated
  · rename_i frame found
    split at allocated
    · rename_i bounded
      split at allocated
      · rename_i free
        cases allocated
        exact .took frame found bounded (by simpa [isFrameFree] using free)
      · rename_i used
        cases allocated
        refine .stuck ?_
        intro other same
        cases found.symm.trans same
        simpa [isFrameFree] using used
    · cases allocated
  · rename_i missing
    cases allocated
    refine .stuck ?_
    intro other same
    rw [missing] at same
    cases same

theorem allocateFrame_took (found : self.usableFrames[self.next]? = some frame)
    (bounded : frame < frameUsageLen) (free : self.frameUsage frame = false) :
    self.allocateFrame = .ok (some frame, { self.markFrameAsUsed frame with next := self.next + 1 }) := by
  simp [allocateFrame, found, bounded, isFrameFree, free]

theorem allocateFrame_stuck (bounded : ∀ frame ∈ self.usableFrames, frame < frameUsageLen)
    (blocked : ∀ frame, self.usableFrames[self.next]? = some frame → self.frameUsage frame = true) :
    self.allocateFrame = .ok (none, self) := by
  unfold allocateFrame
  split
  · rename_i frame found
    simp [bounded frame (List.mem_of_getElem? found), isFrameFree, blocked frame found]
  · rfl

@[simp] theorem usableFrames_deallocateFrame :
    (self.deallocateFrame frame).usableFrames = self.usableFrames := by
  unfold deallocateFrame
  split <;> rfl

theorem Allocation.usableFrames (allocated : Allocation self result after) :
    after.usableFrames = self.usableFrames := by
  cases allocated <;> rfl

end Specs

end PageFrameAllocator
end Zephyr
