import Zephyr.Radix.Tree
import Zephyr.Mem.Allocation

/-! Page-table entries of the `x86_64` crate as `mem/memory.rs` uses them, and the
memory they are stored in. Frames are named by their number: physical memory is
mapped at `phys_memory_offset`, so a table is read and written through its frame. -/

namespace Zephyr

open Radix

abbrev PageTableFlags := BitVec 64

namespace PageTableFlags

def present : PageTableFlags := 0x1
def writable : PageTableFlags := 0x2
def userAccessible : PageTableFlags := 0x4
def accessed : PageTableFlags := 0x20
def dirty : PageTableFlags := 0x40
def hugePage : PageTableFlags := 0x80

/-- `PRESENT | WRITABLE | USER_ACCESSIBLE` -/
def userPage : PageTableFlags := present ||| writable ||| userAccessible

def contains (self other : PageTableFlags) : Bool := self &&& other == other

section Contains

variable {flags more bits : PageTableFlags}

theorem contains_iff :
    flags.contains bits = true ↔ ∀ bit, bits.getLsbD bit = true → flags.getLsbD bit = true := by
  rw [contains, beq_iff_eq]
  constructor
  · intro inside bit set
    have both := congrArg (BitVec.getLsbD · bit) inside
    simpa [set] using both
  · intro inside
    refine BitVec.eq_of_getLsbD_eq fun bit _ => ?_
    rw [BitVec.getLsbD_and]
    cases set : bits.getLsbD bit with
    | false => simp
    | true => simp [inside bit set]

theorem contains_or : flags.contains (more ||| bits) = true ↔
    flags.contains more = true ∧ flags.contains bits = true := by
  simp only [contains_iff, BitVec.getLsbD_or, Bool.or_eq_true]
  exact ⟨fun inside => ⟨fun bit set => inside bit (.inl set), fun bit set => inside bit (.inr set)⟩,
    fun inside bit set => set.elim (inside.1 bit) (inside.2 bit)⟩

theorem contains_trans (held : flags.contains more = true) (inner : more.contains bits = true) :
    flags.contains bits = true :=
  contains_iff.mpr fun bit set => contains_iff.mp held bit (contains_iff.mp inner bit set)

theorem contains_or_left (held : flags.contains bits = true) : contains (flags ||| more) bits = true := by
  simp only [contains_iff, BitVec.getLsbD_or, Bool.or_eq_true] at held ⊢
  exact fun bit set => .inl (held bit set)

theorem contains_or_right (held : more.contains bits = true) : contains (flags ||| more) bits = true := by
  simp only [contains_iff, BitVec.getLsbD_or, Bool.or_eq_true] at held ⊢
  exact fun bit set => .inr (held bit set)

theorem contains_twoPow (position : Nat) (inside : position < 64) :
    flags.contains (BitVec.twoPow 64 position) = flags.getLsbD position := by
  have single : ∀ bit, (BitVec.twoPow 64 position).getLsbD bit = true ↔ bit = position := by
    intro bit
    simp [inside, eq_comm]
  cases set : flags.getLsbD position with
  | true =>
    refine contains_iff.mpr fun bit here => ?_
    rwa [(single bit).mp here]
  | false =>
    rw [Bool.eq_false_iff]
    intro held
    rw [contains_iff.mp held position ((single position).mpr rfl)] at set
    cases set

theorem contains_present : flags.contains present = flags.getLsbD 0 := contains_twoPow 0 (by decide)

theorem contains_hugePage : flags.contains hugePage = flags.getLsbD 7 := contains_twoPow 7 (by decide)

theorem contains_hugePage_or : contains (flags ||| more) hugePage =
    (flags.contains hugePage || more.contains hugePage) := by
  simp only [contains_hugePage, BitVec.getLsbD_or]

end Contains

end PageTableFlags

open PageTableFlags

/-- The bits of an entry that hold an address. -/
def addrMask : BitVec 64 := 0x000ffffffffff000

structure PageTableEntry where
  entry : BitVec 64
  deriving DecidableEq, Repr

/-- `FrameError` of the crate. -/
inductive FrameError where
  | frameNotPresent
  | hugeFrame
  deriving DecidableEq, Repr

namespace PageTableEntry

instance : Zero PageTableEntry := ⟨⟨0⟩⟩

def isUnused (self : PageTableEntry) : Bool := self == 0

def flags (self : PageTableEntry) : PageTableFlags := self.entry &&& ~~~addrMask

/-- The number of the frame at `addr()`. -/
def addr (self : PageTableEntry) : Nat := ((self.entry &&& addrMask) >>> 12).toNat

/-- The entry `set_addr` leaves, for the start of a frame. -/
def setAddr (frame : Nat) (flags : PageTableFlags) : PageTableEntry :=
  ⟨BitVec.ofNat 64 frame <<< 12 ||| flags⟩

def setFlags (self : PageTableEntry) (flags : PageTableFlags) : PageTableEntry :=
  setAddr self.addr flags

def frame (self : PageTableEntry) : Except FrameError Nat :=
  if ¬ self.flags.contains present then .error .frameNotPresent
  else if self.flags.contains hugePage then .error .hugeFrame
  else .ok self.addr

/-- Used entries that are not huge lead to a table. -/
instance : TableEntry PageTableEntry Nat where
  next entry := if entry.isUnused ∨ entry.flags.contains hugePage then none else some entry.addr
  next_zero := by decide

section Bits

variable {entry : PageTableEntry} {frame number : Nat} {flags bits : PageTableFlags}

theorem getLsbD_addrMask (bit : Nat) :
    addrMask.getLsbD bit = (decide (12 ≤ bit) && decide (bit < 52)) := by
  by_cases inside : bit < 64
  · have table : ∀ bit : Fin 64, addrMask.getLsbD bit = (decide (12 ≤ bit.1) && decide (bit.1 < 52)) := by
      decide
    exact table ⟨bit, inside⟩
  · rw [BitVec.getLsbD_of_ge _ _ (by omega)]
    simp
    omega

/-- Flags that stay clear of the address bits. -/
def Clean (flags : PageTableFlags) : Prop := flags &&& addrMask = 0

instance : Decidable (Clean flags) := inferInstanceAs (Decidable (_ = _))

theorem clean_flags : Clean entry.flags := by
  refine BitVec.eq_of_getLsbD_eq fun bit _ => ?_
  simp [PageTableEntry.flags]

theorem Clean.or (clean : Clean flags) (also : Clean bits) : Clean (flags ||| bits) := by
  refine BitVec.eq_of_getLsbD_eq fun bit _ => ?_
  rw [BitVec.getLsbD_and, BitVec.getLsbD_or, Bool.and_or_distrib_right, ← BitVec.getLsbD_and,
    ← BitVec.getLsbD_and, clean, also, Bool.or_self]

theorem Clean.getLsbD (clean : Clean flags) {bit : Nat} (low : 12 ≤ bit) (high : bit < 52) :
    flags.getLsbD bit = false := by
  have both := congrArg (BitVec.getLsbD · bit) clean
  simpa [getLsbD_addrMask, low, high] using both

theorem getLsbD_frame (bound : frame < 2 ^ 40) {bit : Nat} (beyond : 40 ≤ bit) :
    (BitVec.ofNat 64 frame).getLsbD bit = false := by
  have small : frame < 2 ^ bit := bound.trans_le (Nat.pow_le_pow_right (by decide) beyond)
  simp [BitVec.getLsbD_ofNat, Nat.testBit_lt_two_pow small]

theorem addr_setAddr (bound : frame < 2 ^ 40) (clean : Clean flags) :
    (setAddr frame flags).addr = frame := by
  have shifted : ((BitVec.ofNat 64 frame <<< 12 ||| flags) &&& addrMask) >>> 12 = BitVec.ofNat 64 frame := by
    refine BitVec.eq_of_getLsbD_eq fun bit inside => ?_
    by_cases beyond : 40 ≤ bit
    · have outside : ¬ 12 + bit < 52 := by omega
      simp [getLsbD_addrMask, getLsbD_frame bound beyond, outside]
    · have clear : flags.getLsbD (12 + bit) = false := clean.getLsbD (by omega) (by omega)
      have inner : 12 + bit < 64 := by omega
      have limit : 12 + bit < 52 := by omega
      simp only [BitVec.getLsbD_ushiftRight, BitVec.getLsbD_and, BitVec.getLsbD_or,
        BitVec.getLsbD_shiftLeft, getLsbD_addrMask, clear, inner, limit]
      simp
  rw [addr, setAddr, shifted, BitVec.toNat_ofNat]
  exact Nat.mod_eq_of_lt (bound.trans (by decide))

theorem flags_setAddr (bound : frame < 2 ^ 40) (clean : Clean flags) :
    (setAddr frame flags).flags = flags := by
  refine BitVec.eq_of_getLsbD_eq fun bit inside => ?_
  by_cases inner : 12 ≤ bit ∧ bit < 52
  · simp [PageTableEntry.flags, getLsbD_addrMask, inner, clean.getLsbD inner.1 inner.2]
  · have address : (BitVec.ofNat 64 frame <<< 12).getLsbD bit = false := by
      rw [BitVec.getLsbD_shiftLeft]
      by_cases low : bit < 12
      · simp [low]
      · rw [getLsbD_frame bound (by omega)]
        simp
    have masked : (decide (12 ≤ bit) && decide (bit < 52)) = false := by
      simpa using inner
    simp only [PageTableEntry.flags, setAddr, BitVec.getLsbD_and, BitVec.getLsbD_or, address,
      BitVec.getLsbD_not, getLsbD_addrMask, masked, inside]
    simp

theorem addr_lt : entry.addr < 2 ^ 40 := by
  have masked : entry.entry.toNat &&& addrMask.toNat ≤ addrMask.toNat := Nat.and_le_right
  have limit : addrMask.toNat = 0x000ffffffffff000 := rfl
  rw [addr, BitVec.toNat_ushiftRight, BitVec.toNat_and, Nat.shiftRight_eq_div_pow]
  omega

@[simp] theorem setAddr_addr_flags : setAddr entry.addr entry.flags = entry := by
  have joined : ((entry.entry &&& addrMask) >>> 12) <<< 12 ||| (entry.entry &&& ~~~addrMask) =
      entry.entry := by
    refine BitVec.eq_of_getLsbD_eq fun bit inside => ?_
    simp only [BitVec.getLsbD_or, BitVec.getLsbD_shiftLeft, BitVec.getLsbD_ushiftRight,
      BitVec.getLsbD_and, BitVec.getLsbD_not, getLsbD_addrMask, inside]
    by_cases low : bit < 12
    · have below : ¬ 12 ≤ bit := by omega
      simp [low, below]
    · have above : 12 + (bit - 12) = bit := by omega
      have least : 12 ≤ bit := by omega
      by_cases inner : bit < 52 <;> simp [above, least, inner]
  rw [setAddr, addr, BitVec.ofNat_toNat, BitVec.setWidth_eq, PageTableEntry.flags, joined]

end Bits

section Next

variable {entry : PageTableEntry} {frame child : Nat} {flags : PageTableFlags}

theorem next_eq_some_iff :
    next entry = some child ↔ entry ≠ 0 ∧ entry.flags.contains hugePage = false ∧ entry.addr = child := by
  by_cases unused : entry = 0
  · simp [unused]
  · cases huge : entry.flags.contains hugePage <;> simp [next, isUnused, unused, huge]

theorem next_eq_none_of_huge (huge : entry.flags.contains hugePage = true) : next entry = none := by
  simp [next, huge]

theorem setAddr_ne_zero (bound : frame < 2 ^ 40) (clean : Clean flags) (some_flag : flags ≠ 0) :
    setAddr frame flags ≠ 0 := by
  intro unused
  have same := flags_setAddr bound clean
  rw [unused] at same
  exact some_flag (same.symm.trans rfl)

theorem next_setAddr (bound : frame < 2 ^ 40) (clean : Clean flags) (some_flag : flags ≠ 0)
    (small : flags.contains hugePage = false) : next (setAddr frame flags) = some frame := by
  rw [next_eq_some_iff, flags_setAddr bound clean, addr_setAddr bound clean]
  exact ⟨setAddr_ne_zero bound clean some_flag, small, rfl⟩

theorem addr_setFlags (clean : Clean flags) : (entry.setFlags flags).addr = entry.addr :=
  addr_setAddr addr_lt clean

theorem flags_setFlags (clean : Clean flags) : (entry.setFlags flags).flags = flags :=
  flags_setAddr addr_lt clean

theorem contains_of_zero {bits : PageTableFlags} (held : (0 : PageTableEntry).flags.contains bits = true) :
    flags.contains bits = true := by
  rw [contains_iff] at held ⊢
  intro bit set
  have none_set := held bit set
  simp [PageTableEntry.flags, show (0 : PageTableEntry).entry = 0 from rfl] at none_set

theorem ne_zero_of_contains (held : entry.flags.contains present = true) : entry ≠ 0 := by
  rintro rfl
  revert held
  decide

end Next

end PageTableEntry

theorem lt_of_frameUsageLen {frame : Nat} (bounded : frame < frameUsageLen) : frame < 2 ^ 40 :=
  bounded.trans (by decide)

/-- `MEMORY_INFO`: physical memory as tables of entries, the frame allocator, and
the frame of the kernel's level-4 table. -/
structure MemoryInfo where
  memory : Memory Nat 512 PageTableEntry
  frameAllocator : PageFrameAllocator
  kernelPageTables : Nat

instance entriesNeZero : NeZero 512 := ⟨by decide⟩

/-- A virtual address. -/
abbrev VirtAddr := Nat

namespace VirtAddr

def p1Index (addr : VirtAddr) : Fin 512 := Fin.ofNat 512 (addr / 2 ^ 12)
def p2Index (addr : VirtAddr) : Fin 512 := Fin.ofNat 512 (addr / 2 ^ 21)
def p3Index (addr : VirtAddr) : Fin 512 := Fin.ofNat 512 (addr / 2 ^ 30)
def p4Index (addr : VirtAddr) : Fin 512 := Fin.ofNat 512 (addr / 2 ^ 39)

/-- The way through the tables, from level 4 down to level 2. -/
def path (addr : VirtAddr) : List (Fin 512) := [p4Index addr, p3Index addr, p2Index addr]

theorem path_lt (addr : VirtAddr) : (path addr).length < 4 := Nat.lt_succ_self 3

end VirtAddr

namespace MemoryInfo

def write (self : MemoryInfo) (table : Nat) (index : Fin 512) (entry : PageTableEntry) : MemoryInfo :=
  { self with memory := self.memory.write table index entry }

/-- `create_pagetable`: a zeroed table in a new frame. -/
def createPagetable (self : MemoryInfo) : Except Panic (Nat × MemoryInfo) := do
  let (frame, frameAllocator) ← self.frameAllocator.allocateFrame
  match frame with
  | none => .error .unwrapNone
  | some table => .ok (table, { self with frameAllocator, memory := self.memory.clear table })

/-- A level-4 tree whose entries above level 1 that are used and not huge point to
table frames, none of them free. -/
structure WellFormed (info : MemoryInfo) (root : Nat) : Prop where
  taken : ∀ table ∈ tableSet 4 info.memory root, ¬ info.frameAllocator.Available table
  points : ∀ (path : List (Fin 512)) (index : Fin 512), path.length < 3 →
    ∀ child, next (entryAt info.memory root path index) = some child →
      (entryAt info.memory root path index).flags.contains present = true

variable {self after : MemoryInfo} {table : Nat}

theorem createPagetable_ok (created : self.createPagetable = .ok (table, after)) :
    ∃ frameAllocator, self.frameAllocator.Takes table frameAllocator ∧
      after = { self with frameAllocator, memory := self.memory.clear table } := by
  unfold createPagetable at created
  cases result : self.frameAllocator.allocateFrame with
  | error panic => simp [result, bind, Except.bind] at created
  | ok pair =>
    obtain ⟨_ | frame, frameAllocator⟩ := pair
    · simp [result, bind, Except.bind] at created
    · simp only [result, bind, Except.bind, Except.ok.injEq, Prod.mk.injEq] at created
      obtain ⟨rfl, rfl⟩ := created
      exact ⟨frameAllocator, result, rfl⟩

theorem createPagetable_of_takes {frameAllocator : PageFrameAllocator}
    (takes : self.frameAllocator.Takes table frameAllocator) :
    self.createPagetable = .ok (table, { self with frameAllocator, memory := self.memory.clear table }) := by
  unfold PageFrameAllocator.Takes at takes
  simp [createPagetable, takes, bind, Except.bind]

theorem createPagetable_error {panic : Panic} (failed : self.createPagetable = .error panic) :
    self.frameAllocator.Stuck := by
  intro frame frameAllocator takes
  rw [createPagetable_of_takes takes] at failed
  cases failed

end MemoryInfo

end Zephyr
