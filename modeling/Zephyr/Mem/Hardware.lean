import Zephyr.Mem.Copy
import Zephyr.Mem.Release

/-! User-mode accesses: the hardware's walk with the accessed and dirty bits it sets,
the bytes of a frame, and `page_fault_handler` of `boot/interrupts.rs`. -/

namespace Zephyr

open Radix PageTableFlags Transition

namespace PageTableEntry

def byte (self : PageTableEntry) (lane : Nat) : BitVec 8 := self.entry.extractLsb' (8 * lane) 8

def laneMask (lane : Nat) : BitVec 64 := (BitVec.allOnes 8).zeroExtend 64 <<< (8 * lane)

def setByte (self : PageTableEntry) (lane : Nat) (value : BitVec 8) : PageTableEntry :=
  ⟨(self.entry &&& ~~~laneMask lane) ||| (value.zeroExtend 64 <<< (8 * lane))⟩

section Bytes

variable {entry : PageTableEntry} {lane other : Nat} {value : BitVec 8}

theorem getLsbD_laneMask {bit : Nat} (inside : bit < 64) :
    (laneMask lane).getLsbD bit = (decide (8 * lane ≤ bit) && decide (bit < 8 * lane + 8)) := by
  by_cases below : bit < 8 * lane
  · have low : ¬ 8 * lane ≤ bit := by omega
    simp only [laneMask, BitVec.getLsbD_shiftLeft, below, low, decide_true, decide_false, Bool.not_true,
      Bool.and_false, Bool.false_and]
  · have low : 8 * lane ≤ bit := by omega
    have room : bit - 8 * lane < 64 := by omega
    have same : bit - 8 * lane < 8 ↔ bit < 8 * lane + 8 := by omega
    simp only [laneMask, BitVec.getLsbD_shiftLeft, BitVec.getLsbD_setWidth, BitVec.getLsbD_allOnes, inside, below,
      low, room, same, decide_true, decide_false, Bool.not_false, Bool.true_and]

theorem getLsbD_setByte {bit : Nat} (inside : bit < 64) : (entry.setByte lane value).entry.getLsbD bit =
    if 8 * lane ≤ bit ∧ bit < 8 * lane + 8 then value.getLsbD (bit - 8 * lane) else entry.entry.getLsbD bit := by
  simp only [setByte, BitVec.getLsbD_or, BitVec.getLsbD_and, BitVec.getLsbD_not, BitVec.getLsbD_shiftLeft,
    BitVec.getLsbD_setWidth, getLsbD_laneMask inside, inside, decide_true, Bool.true_and]
  by_cases low : 8 * lane ≤ bit
  · have below : ¬ bit < 8 * lane := by omega
    have room : bit - 8 * lane < 64 := by omega
    by_cases high : bit < 8 * lane + 8
    · simp [low, high, below, room]
    · simp [low, high, below, BitVec.getLsbD_of_ge value (bit - 8 * lane) (by omega)]
  · have below : bit < 8 * lane := by omega
    simp [low, below]

theorem byte_setByte_same (inside : lane < 8) : (entry.setByte lane value).byte lane = value := by
  refine BitVec.eq_of_getLsbD_eq fun bit small => ?_
  rw [byte, BitVec.getLsbD_extractLsb', getLsbD_setByte (by omega), if_pos (by omega), Nat.add_sub_cancel_left]
  simp [small]

theorem byte_setByte_ne (inside : other < 8) (differs : other ≠ lane) :
    (entry.setByte lane value).byte other = entry.byte other := by
  refine BitVec.eq_of_getLsbD_eq fun bit small => ?_
  rw [byte, byte, BitVec.getLsbD_extractLsb', BitVec.getLsbD_extractLsb', getLsbD_setByte (by omega),
    if_neg (by omega)]

end Bytes

end PageTableEntry

def loadByte (memory : Memory Nat 512 PageTableEntry) (frame : Nat) (addr : VirtAddr) : BitVec 8 :=
  (memory frame (Fin.ofNat 512 (addr / 8))).byte (addr % 8)

def storeByte (memory : Memory Nat 512 PageTableEntry) (frame : Nat) (addr : VirtAddr) (value : BitVec 8) :
    Memory Nat 512 PageTableEntry :=
  memory.write frame (Fin.ofNat 512 (addr / 8))
    ((memory frame (Fin.ofNat 512 (addr / 8))).setByte (addr % 8) value)

section Bytes

variable {memory : Memory Nat 512 PageTableEntry} {frame addr other : Nat} {value : BitVec 8}

theorem loadByte_storeByte_same : loadByte (storeByte memory frame addr value) frame addr = value := by
  rw [loadByte, storeByte, write_same, PageTableEntry.byte_setByte_same (Nat.mod_lt _ (by decide))]

theorem loadByte_storeByte_ne (page : addr / 4096 = other / 4096) (differs : addr ≠ other) :
    loadByte (storeByte memory frame addr value) frame other = loadByte memory frame other := by
  rw [loadByte, loadByte, storeByte]
  by_cases word : Fin.ofNat 512 (other / 8) = Fin.ofNat 512 (addr / 8)
  · have lanes : other % 8 ≠ addr % 8 := by
      have same : other / 8 % 512 = addr / 8 % 512 := congrArg Fin.val word
      omega
    rw [word, write_same, PageTableEntry.byte_setByte_ne (Nat.mod_lt _ (by decide)) lanes]
  · rw [write_index _ _ _ _ word]

end Bytes

/-- The entries a walk uses, from level 4 down, and the frame it ends at. -/
structure Walked where
  used : List (Nat × Fin 512)
  frame : Nat

/-- The hardware's walk; `none` if it meets an entry that is not present. -/
def lookup (memory : Memory Nat 512 PageTableEntry) (table : Nat) : List (Fin 512) → Option Walked
  | [] => some ⟨[], table⟩
  | index :: rest =>
    let entry := memory table index
    if ¬ entry.flags.contains present then none
    else if entry.flags.contains hugePage ∧ rest ≠ [] then
      some ⟨[(table, index)], entry.addr + rest.foldl (fun number index => number * 512 + index.1) 0⟩
    else (lookup memory entry.addr rest).map fun walked => { walked with used := (table, index) :: walked.used }

inductive Access where
  | read
  | write
  deriving DecidableEq, Repr

abbrev PageFaultErrorCode := BitVec 64

namespace PageFaultErrorCode

def protectionViolation : PageFaultErrorCode := 0x1
def causedByWrite : PageFaultErrorCode := 0x2
def userMode : PageFaultErrorCode := 0x4

end PageFaultErrorCode

open PageFaultErrorCode

namespace Access

/-- What every entry on the way must allow. -/
def rights : Access → PageTableFlags
  | .read => userAccessible
  | .write => userAccessible ||| writable

def errorCode : Access → PageFaultErrorCode
  | .read => userMode
  | .write => causedByWrite ||| userMode

end Access

/-- The translation of a user-mode access, or the error code of the page fault. -/
def translate (memory : Memory Nat 512 PageTableEntry) (root : Nat) (access : Access) (addr : VirtAddr) :
    Except PageFaultErrorCode Walked :=
  match lookup memory root addr.indices with
  | none => .error access.errorCode
  | some walked =>
    if walked.used.all fun spot => (memory spot.1 spot.2).flags.contains access.rights then .ok walked
    else .error (protectionViolation ||| access.errorCode)

/-- The bits a successful walk sets: accessed at every level, dirty at the last one
for a write. -/
def Walked.marks (walked : Walked) : Access → List ((Nat × Fin 512) × PageTableFlags)
  | .read => walked.used.map (·, accessed)
  | .write => walked.used.map (·, accessed) ++ walked.used.getLast?.toList.map (·, dirty)

def PageTableEntry.mark (self : PageTableEntry) (bits : PageTableFlags) : PageTableEntry :=
  self.setFlags (self.flags ||| bits)

def mark (memory : Memory Nat 512 PageTableEntry) (spot : (Nat × Fin 512) × PageTableFlags) :
    Memory Nat 512 PageTableEntry :=
  memory.write spot.1.1 spot.1.2 ((memory spot.1.1 spot.1.2).mark spot.2)

def Walked.touch (walked : Walked) (access : Access) (memory : Memory Nat 512 PageTableEntry) :
    Memory Nat 512 PageTableEntry :=
  (walked.marks access).foldl mark memory

inductive FaultOutcome where
  | returned
  | exited
  deriving DecidableEq, Repr

/-- `page_fault_handler`: an error of `allocate_missing_ondemand_frame` is printed and
the thread resumes; any other fault ends the thread. -/
def MemoryInfo.pageFaultHandler (self : MemoryInfo) (active : Nat) (accessedVirtaddr : VirtAddr)
    (errorCode : PageFaultErrorCode) : Except Panic (FaultOutcome × MemoryInfo) :=
  if errorCode = protectionViolation ||| causedByWrite ||| userMode then
    match self.allocateMissingOndemandFrame active accessedVirtaddr with
    | .error panic => .error panic
    | .ok (_, info) => .ok (.returned, info)
  else .ok (.exited, self)

inductive UserEvent where
  | read (addr : VirtAddr) (value : BitVec 8)
  | write (addr : VirtAddr) (value : BitVec 8)
  | fault (addr : VirtAddr)
  deriving DecidableEq, Repr

namespace UserEvent

def addr : UserEvent → VirtAddr
  | .read addr _ => addr
  | .write addr _ => addr
  | .fault addr => addr

end UserEvent

def MemoryInfo.afterRead (info : MemoryInfo) (walked : Walked) : MemoryInfo :=
  { info with memory := walked.touch .read info.memory }

def MemoryInfo.afterWrite (info : MemoryInfo) (walked : Walked) (addr : VirtAddr) (value : BitVec 8) :
    MemoryInfo :=
  { info with memory := storeByte (walked.touch .write info.memory) walked.frame addr value }

/-- A user thread's byte accesses under the table at `root`; an access that faults is
tried again when the handler returns. -/
inductive UserStep (root : Nat) : MemoryInfo → UserEvent → MemoryInfo → Prop where
  | read {info : MemoryInfo} {addr : VirtAddr} {walked : Walked}
      (translated : translate info.memory root .read addr = .ok walked) :
      UserStep root info (.read addr (loadByte (info.afterRead walked).memory walked.frame addr))
        (info.afterRead walked)
  | write {info : MemoryInfo} {addr : VirtAddr} {value : BitVec 8} {walked : Walked}
      (translated : translate info.memory root .write addr = .ok walked) :
      UserStep root info (.write addr value) (info.afterWrite walked addr value)
  | fault {info after : MemoryInfo} {access : Access} {addr : VirtAddr} {errorCode : PageFaultErrorCode}
      (faulted : translate info.memory root access addr = .error errorCode)
      (handled : info.pageFaultHandler root addr errorCode = .ok (.returned, after)) :
      UserStep root info (.fault addr) after

/-- Entries that lead a walk the same way. -/
structure PageTableEntry.Alike (entry other : PageTableEntry) : Prop where
  present : other.flags.contains PageTableFlags.present = entry.flags.contains PageTableFlags.present
  huge : other.flags.contains hugePage = entry.flags.contains hugePage
  addr : other.addr = entry.addr

/-- Bits that mean nothing to a walk. -/
structure Harmless (bits : PageTableFlags) : Prop where
  clean : PageTableEntry.Clean bits
  present : bits.getLsbD 0 = false
  huge : bits.getLsbD 7 = false

namespace PageTableEntry

variable {entry : PageTableEntry} {bits rights : PageTableFlags}

theorem flags_mark (harmless : Harmless bits) : (entry.mark bits).flags = entry.flags ||| bits :=
  flags_setFlags (clean_flags.or harmless.clean)

theorem alike_mark (harmless : Harmless bits) : entry.Alike (entry.mark bits) where
  present := by
    rw [flags_mark harmless, contains_present, contains_present, BitVec.getLsbD_or, harmless.present, Bool.or_false]
  huge := by
    rw [flags_mark harmless, contains_hugePage, contains_hugePage, BitVec.getLsbD_or, harmless.huge, Bool.or_false]
  addr := addr_setFlags (clean_flags.or harmless.clean)

theorem contains_mark (harmless : Harmless bits) (held : entry.flags.contains rights = true) :
    (entry.mark bits).flags.contains rights = true := by
  rw [flags_mark harmless]
  exact contains_or_left held

end PageTableEntry

theorem Walked.harmless_marks {walked : Walked} {access : Access} {spot : Nat × Fin 512} {bits : PageTableFlags}
    (listed : (spot, bits) ∈ walked.marks access) : spot ∈ walked.used ∧ Harmless bits := by
  have accesses : (spot, bits) ∈ walked.used.map (·, accessed) → spot ∈ walked.used ∧ Harmless bits := by
    intro listed
    obtain ⟨_, used, same⟩ := List.mem_map.mp listed
    cases same
    exact ⟨used, by decide, by decide, by decide⟩
  cases access with
  | read => exact accesses listed
  | write =>
    rcases List.mem_append.mp listed with listed | listed
    · exact accesses listed
    · obtain ⟨_, last, same⟩ := List.mem_map.mp listed
      cases same
      exact ⟨List.mem_of_getLast? (by simpa using last), by decide, by decide, by decide⟩

section Walks

variable {memory changed : Memory Nat 512 PageTableEntry} {root table frame : Nat} {walked other : Walked}
variable {access : Access} {addr : VirtAddr} {indices : List (Fin 512)}

/-- A walk only depends on the entries it uses. -/
theorem lookup_congr (found : lookup memory table indices = some walked)
    (alike : ∀ spot ∈ walked.used, (memory spot.1 spot.2).Alike (changed spot.1 spot.2)) :
    lookup changed table indices = some walked := by
  induction indices generalizing table walked with
  | nil => exact found
  | cons index rest ih =>
    rw [lookup] at found ⊢
    split at found
    · cases found
    · rename_i held
      split at found
      · rename_i huge
        cases found
        have same := alike (table, index) (List.mem_singleton_self _)
        rw [same.present, same.huge, same.addr, if_neg held, if_pos huge]
      · rename_i small
        obtain ⟨inner, below, rfl⟩ := Option.map_eq_some_iff.mp found
        have same := alike (table, index) (List.mem_cons_self ..)
        rw [same.present, same.huge, same.addr, if_neg held, if_neg small,
          ih below fun spot listed => alike spot (List.mem_cons_of_mem _ listed)]
        rfl

/-- An address that user mode may read and write: the walk ends at a frame that is none
of the tables on the way. -/
structure Backs (memory : Memory Nat 512 PageTableEntry) (root : Nat) (addr : VirtAddr) (walked : Walked) :
    Prop where
  found : lookup memory root addr.indices = some walked
  rights : ∀ spot ∈ walked.used, (memory spot.1 spot.2).flags.contains userPage = true
  apart : ∀ spot ∈ walked.used, spot.1 ≠ walked.frame

theorem Backs.translate (backs : Backs memory root addr walked) (access : Access) :
    translate memory root access addr = .ok walked := by
  have enough : ∀ flags : PageTableFlags, flags.contains userPage = true → flags.contains access.rights = true := by
    intro flags held
    rw [userPage, contains_or, contains_or] at held
    cases access with
    | read => exact held.2
    | write => exact contains_or.mpr ⟨held.2, held.1.2⟩
  have allowed : (walked.used.all fun spot => (memory spot.1 spot.2).flags.contains access.rights) = true :=
    List.all_eq_true.mpr fun spot listed => enough _ (backs.rights spot listed)
  rw [Zephyr.translate, backs.found]
  exact if_pos allowed

theorem mark_alike {spot : (Nat × Fin 512) × PageTableFlags} (harmless : Harmless spot.2) (table : Nat)
    (index : Fin 512) : (memory table index).Alike (mark memory spot table index) ∧
      ∀ rights, (memory table index).flags.contains rights = true →
        (mark memory spot table index).flags.contains rights = true := by
  by_cases here : table = spot.1.1 ∧ index = spot.1.2
  · obtain ⟨rfl, rfl⟩ := here
    rw [mark, write_same]
    exact ⟨PageTableEntry.alike_mark harmless, fun _ => PageTableEntry.contains_mark harmless⟩
  · have same : mark memory spot table index = memory table index := by
      by_cases row : table = spot.1.1
      · subst row
        exact write_index _ _ _ _ fun column => here ⟨rfl, column⟩
      · rw [mark, write_table _ _ _ row]
    rw [same]
    exact ⟨⟨rfl, rfl, rfl⟩, fun _ => id⟩

theorem Backs.mark {spot : (Nat × Fin 512) × PageTableFlags} (backs : Backs memory root addr walked)
    (harmless : Harmless spot.2) : Backs (mark memory spot) root addr walked where
  found := lookup_congr backs.found fun _ _ => (mark_alike harmless _ _).1
  rights place listed := (mark_alike harmless _ _).2 _ (backs.rights place listed)
  apart := backs.apart

theorem Backs.touch (backs : Backs memory root addr walked) (other : Walked) (access : Access) :
    Backs (other.touch access memory) root addr walked := by
  have each : ∀ spot ∈ other.marks access, Harmless spot.2 := fun spot listed => (Walked.harmless_marks listed).2
  unfold Walked.touch
  generalize other.marks access = marks at each
  induction marks generalizing memory with
  | nil => exact backs
  | cons spot marks ih =>
    exact ih (backs.mark (each spot (List.mem_cons_self ..))) fun spot listed =>
      each spot (List.mem_cons_of_mem _ listed)

theorem Backs.storeByte (backs : Backs memory root addr walked) (place : VirtAddr) (value : BitVec 8) :
    Backs (storeByte memory walked.frame place value) root addr walked := by
  have same : ∀ spot ∈ walked.used,
      Zephyr.storeByte memory walked.frame place value spot.1 = memory spot.1 :=
    fun spot listed => write_table _ _ _ (backs.apart spot listed)
  refine ⟨lookup_congr backs.found fun spot listed => ?_, fun spot listed => ?_, backs.apart⟩
  · rw [same spot listed]
    exact ⟨rfl, rfl, rfl⟩
  · rw [same spot listed]
    exact backs.rights spot listed

/-- The bits a walk sets are in the tables. -/
theorem loadByte_touch (apart : ∀ spot ∈ walked.used, spot.1 ≠ frame) (access : Access) (addr : VirtAddr) :
    loadByte (walked.touch access memory) frame addr = loadByte memory frame addr := by
  have each : ∀ spot ∈ walked.marks access, spot.1.1 ≠ frame :=
    fun spot listed => apart spot.1 (Walked.harmless_marks listed).1
  unfold Walked.touch
  generalize walked.marks access = marks at each
  induction marks generalizing memory with
  | nil => rfl
  | cons spot marks ih =>
    rw [List.foldl_cons, ih fun spot listed => each spot (List.mem_cons_of_mem _ listed)]
    rw [loadByte, loadByte, mark, write_table _ _ _ (each spot (List.mem_cons_self ..)).symm]

/-- Where the tables lead to a page and allow user accesses, so does the walk. -/
theorem lookup_of_tableAt {path : List (Fin 512)} {index : Fin 512} {rights : PageTableFlags}
    (visible : rights.contains present = true) (found : tableAt memory root path = some table)
    (wide : ∀ stem index, stem ++ [index] <+: path →
      (entryAt memory root stem index).flags.contains rights = true)
    (leaf : (memory table index).flags.contains rights = true) :
    ∃ used, lookup memory root (path ++ [index]) = some ⟨used, (memory table index).addr⟩ ∧
      ∀ spot ∈ used, (memory spot.1 spot.2).flags.contains rights = true ∧
        ∃ stem, stem <+: path ∧ tableAt memory root stem = some spot.1 := by
  induction path generalizing root with
  | nil =>
    cases found
    refine ⟨[(table, index)], ?_, ?_⟩
    · simp [lookup, contains_trans leaf visible]
    · intro spot listed
      cases List.mem_singleton.mp listed
      exact ⟨leaf, [], List.nil_prefix, rfl⟩
  | cons first path ih =>
    have user : (memory root first).flags.contains rights = true :=
      wide [] first (List.cons_prefix_cons.mpr ⟨rfl, List.nil_prefix⟩)
    cases points : next (memory root first) with
    | none => simp [tableAt, points] at found
    | some child =>
      have below : tableAt memory child path = some table := by simpa [tableAt, points] using found
      obtain ⟨used, reached, each⟩ := ih below fun stem index prefixed => by
        rw [← entryAt_cons_some points]
        exact wide (first :: stem) index (List.cons_prefix_cons.mpr ⟨rfl, prefixed⟩)
      obtain ⟨_, small, rfl⟩ := PageTableEntry.next_eq_some_iff.mp points
      refine ⟨(root, first) :: used, ?_, ?_⟩
      · simp [lookup, contains_trans user visible, small, reached]
      · intro spot listed
        rcases List.mem_cons.mp listed with rfl | listed
        · exact ⟨user, [], List.nil_prefix, rfl⟩
        · obtain ⟨allowed, stem, prefixed, above⟩ := each spot listed
          refine ⟨allowed, first :: stem, List.cons_prefix_cons.mpr ⟨rfl, prefixed⟩, ?_⟩
          simpa [tableAt, points] using above

theorem backs_of_tableAt (found : tableAt memory root addr.path = some table)
    (wide : ∀ stem index, stem ++ [index] <+: addr.path →
      (entryAt memory root stem index).flags.contains userPage = true)
    (leaf : (memory table addr.p1Index).flags.contains userPage = true)
    (apart : (memory table addr.p1Index).addr ∉ tableSet 4 memory root) :
    ∃ walked, Backs memory root addr walked ∧ walked.frame = (memory table addr.p1Index).addr := by
  obtain ⟨used, reached, each⟩ := lookup_of_tableAt (by decide) found wide leaf
  refine ⟨⟨used, (memory table addr.p1Index).addr⟩, ⟨reached, fun spot listed => (each spot listed).1, ?_⟩, rfl⟩
  rintro spot listed same
  obtain ⟨_, stem, prefixed, above⟩ := each spot listed
  have short : stem.length < 4 := prefixed.length_le.trans_lt addr.path_lt
  refine apart (mem_tableSet short ?_)
  rw [above, same]

end Walks

end Zephyr
