import Zephyr.Text.Numerals

/-! `MemoryLogger` of `mem/memory/memory_logger.rs`: the counters, and the line every call
prints on the serial port. Counters are machine words. -/

namespace Zephyr

open Text

/-- The `MemoryRegion` of the logger. -/
structure LogRegion where
  startAddress : UInt64
  endAddress : UInt64
  deriving DecidableEq, Repr

structure MemoryLogger where
  totalMemory : UInt64 := 0
  usedMemory : UInt64 := 0
  freeMemory : UInt64 := 0
  allocationSuccesses : UInt64 := 0
  allocationFailures : UInt64 := 0
  allocationRegion : LogRegion := ⟨0, 0⟩
  deallocationSuccesses : UInt64 := 0
  deallocationFailures : UInt64 := 0
  deallocationRegion : LogRegion := ⟨0, 0⟩
  peakMemoryUsage : UInt64 := 0
  memoryRegions : List LogRegion := []
  deriving DecidableEq, Repr

/-! ### Formats -/

/-- `AR[start: 0x{:016X}, end: 0x{:016X}` in front of the rest of a line. -/
def LogRegion.allocated (region : LogRegion) (rest : List Char) : List Char :=
  "]AR[start: ".toList ++ (address region.startAddress ++ (", end: ".toList ++ (address region.endAddress ++ rest)))

/-- `DR[start: 0x{:016X}, end: 0x{:016X}`. -/
def LogRegion.deallocated (region : LogRegion) (rest : List Char) : List Char :=
  "]DR[start: ".toList ++ (address region.startAddress ++ (", end: ".toList ++ (address region.endAddress ++ rest)))

/-- `{:?}` of a region. -/
def LogRegion.debug (region : LogRegion) (rest : List Char) : List Char :=
  "MemoryRegion \x7b start_address: ".toList ++ (decimal region.startAddress ++
    (", end_address: ".toList ++ (decimal region.endAddress ++ (" \x7d".toList ++ rest))))

/-- `{:?}` of the regions behind the first one. -/
def LogRegion.debugMore (rest : List Char) : List LogRegion → List Char
  | [] => "]".toList ++ rest
  | region :: regions => ", ".toList ++ region.debug (debugMore rest regions)

/-- `{:?}` of a list of regions. -/
def LogRegion.debugList (rest : List Char) : List LogRegion → List Char
  | [] => "[]".toList ++ rest
  | region :: regions => "[".toList ++ region.debug (debugMore rest regions)

namespace MemoryLogger

def new : MemoryLogger := {}

/-- The line of all three calls, with what stands for `AR` and `DR`. -/
def line (self : MemoryLogger) (allocated deallocated : List Char → List Char) : List Char :=
  "[MEM_STATS]: TM[".toList ++ (decimal self.totalMemory ++
    ("]UM[".toList ++ (decimal self.usedMemory ++
    ("]FM[".toList ++ (decimal self.freeMemory ++
    ("]AS[".toList ++ (decimal self.allocationSuccesses ++
    ("]AF[".toList ++ (decimal self.allocationFailures ++
    allocated ("]DS[".toList ++ (decimal self.deallocationSuccesses ++
    ("]DF[".toList ++ (decimal self.deallocationFailures ++
    deallocated ("]".toList ++ ("PU[".toList ++ (decimal self.peakMemoryUsage ++
    ("]MR[".toList ++ LogRegion.debugList "]\n".toList self.memoryRegions)))))))))))))))))

def setTotalMemory (self : MemoryLogger) (totalMemory : UInt64) : MemoryLogger :=
  { self with totalMemory, freeMemory := totalMemory }

def logAllocation (self : MemoryLogger) (memRegion : LogRegion) (size : UInt64) (success : Bool) :
    MemoryLogger × List Char :=
  let self :=
    if success then
      { self with
        usedMemory := self.usedMemory + size
        freeMemory := self.freeMemory - size
        allocationSuccesses := self.allocationSuccesses + 1
        allocationRegion := memRegion
        peakMemoryUsage :=
          if self.usedMemory + size > self.peakMemoryUsage then self.usedMemory + size else self.peakMemoryUsage }
    else { self with allocationFailures := self.allocationFailures + 1 }
  (self, self.line self.allocationRegion.allocated ("]DR[".toList ++ ·))

def logDeallocation (self : MemoryLogger) (memRegion : LogRegion) (size : UInt64) (success : Bool) :
    MemoryLogger × List Char :=
  let self :=
    if success then
      { self with
        usedMemory := self.usedMemory - size
        freeMemory := self.freeMemory + size
        deallocationSuccesses := self.deallocationSuccesses + 1
        deallocationRegion := memRegion }
    else { self with deallocationFailures := self.deallocationFailures + 1 }
  (self, self.line ("]AR[".toList ++ ·) self.deallocationRegion.deallocated)

def logStats (self : MemoryLogger) : List Char :=
  self.line self.allocationRegion.allocated self.deallocationRegion.deallocated

section Success

variable (self : MemoryLogger) (memRegion : LogRegion) (size : UInt64)

theorem logAllocation_success : (self.logAllocation memRegion size true).1 =
    { self with
      usedMemory := self.usedMemory + size
      freeMemory := self.freeMemory - size
      allocationSuccesses := self.allocationSuccesses + 1
      allocationRegion := memRegion
      peakMemoryUsage :=
        if self.usedMemory + size > self.peakMemoryUsage then self.usedMemory + size else self.peakMemoryUsage } := rfl

theorem logDeallocation_success : (self.logDeallocation memRegion size true).1 =
    { self with
      usedMemory := self.usedMemory - size
      freeMemory := self.freeMemory + size
      deallocationSuccesses := self.deallocationSuccesses + 1
      deallocationRegion := memRegion } := rfl

end Success

end MemoryLogger

end Zephyr
