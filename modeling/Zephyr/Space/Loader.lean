import Zephyr.Space.Access

/-! `load_binary_into_memory`, one segment at a time: the range check, the pages mapped
for the segment, and the bytes the kernel then writes through the new tables. The image
is what the `object` crate makes of it: an address, a size and the data of each segment. -/

namespace Zephyr

open Radix PageTableFlags

/-- How the kernel stops: in a Rust panic, or in a fault of its own. -/
inductive Halt where
  | panic (panic : Panic)
  | fault (addr : VirtAddr)
  deriving DecidableEq, Repr

/-- A segment of an image; `data` is `none` where the crate reports an error. -/
structure Segment where
  address : UInt64
  size : UInt64
  data : Option (List (BitVec 8))

/-- A byte stored by the kernel under the table at `root`. Supervisor mode needs no
`USER_ACCESSIBLE`, and the bootloader turns write protection on. -/
def storeSupervisor (memory : Memory Nat 512 PageTableEntry) (root : Nat) (addr : VirtAddr) (value : BitVec 8) :
    Except Halt (Memory Nat 512 PageTableEntry) :=
  if Canonical addr then
    match lookup memory root addr.indices with
    | none => .error (.fault addr)
    | some walked =>
      if walked.used.all fun spot => (memory spot.1 spot.2).flags.contains writable then
        .ok (storeByte memory walked.frame addr value)
      else .error (.fault addr)
  else .error (.fault addr)

/-- The loop over `segment_data`. -/
def storeData (root : Nat) : Nat → List (BitVec 8) → Memory Nat 512 PageTableEntry →
    Except Halt (Memory Nat 512 PageTableEntry)
  | _, [], memory => .ok memory
  | addr, value :: rest, memory =>
    match storeSupervisor memory root (addr % 2 ^ 64) value with
    | .error halt => .error halt
    | .ok memory => storeData root (addr + 1) rest memory

/-- One turn of the loop of `load_binary_into_memory`. The end of the segment is a
wrapping sum. -/
def MemoryInfo.loadSegment (mapper : Mapper) (self : MemoryInfo) (userPageTable : Nat) (segment : Segment) :
    Except Halt (Except String Unit × MemoryInfo) :=
  match VirtAddr.new segment.address.toNat with
  | .error panic => .error (.panic panic)
  | .ok startVirtAddr =>
    match startVirtAddr.add segment.size.toNat with
    | .error panic => .error (.panic panic)
    | .ok endVirtAddr =>
      if startVirtAddr < userCodeStart ∨ userCodeEnd ≤ endVirtAddr then
        .ok (.error "ELF segment outside allowed range", self)
      else
        match self.allocatePages mapper userPageTable startVirtAddr segment.size.toNat userPage with
        | .error panic => .error (.panic panic)
        | .ok (.error _, info) => .ok (.error "Could not allocate memory", info)
        | .ok (.ok (), info) =>
          match segment.data with
          | none => .ok (.error "Could not get segment data", info)
          | some data =>
            if segment.size.toNat < data.length then .ok (.error "ELF data length > segment size", info)
            else
              match storeData userPageTable segment.address.toNat data info.memory with
              | .error halt => .error halt
              | .ok memory => .ok (.ok (), { info with memory })

def Segment.Ends (segment : Segment) : Prop := segment.address.toNat + segment.size.toNat < 2 ^ 64

instance (segment : Segment) : Decidable segment.Ends :=
  inferInstanceAs (Decidable (_ < _))

namespace Segment

/-- The start of a segment, as `VirtAddr::new` makes it. -/
def start (segment : Segment) : Nat := VirtAddr.newTruncate segment.address.toNat

/-- Start and size, added with wrapping. -/
def sum (segment : Segment) : Nat := (segment.start + segment.size.toNat) % 2 ^ 64

/-- The end of a segment, as the loader computes it. -/
def finish (segment : Segment) : Nat := VirtAddr.newTruncate segment.sum

/-- Neither of the bounds makes `VirtAddr::new` panic. -/
def Addressable (segment : Segment) : Prop :=
  VirtAddr.Addressable segment.address.toNat ∧ VirtAddr.Addressable segment.sum

instance (segment : Segment) : Decidable segment.Addressable := inferInstanceAs (Decidable (_ ∧ _))

/-- The segment passes the loader's range check. -/
def InRange (segment : Segment) : Prop := userCodeStart ≤ segment.start ∧ segment.finish < userCodeEnd

instance (segment : Segment) : Decidable segment.InRange := inferInstanceAs (Decidable (_ ∧ _))

/-- The pages that the loader maps for a segment in range. -/
def pages (segment : Segment) : List VirtAddr :=
  (List.range ((segment.finish - 1) / 4096 + 1 - segment.start / 4096)).map
    fun page => (segment.start / 4096 + page) * 4096

section Bounds

variable {segment : Segment}

theorem canonical_start (addressable : segment.Addressable) : Canonical segment.start := by
  rcases addressable.1 with canonical | extended
  · rw [start, VirtAddr.newTruncate_canonical canonical]
    exact canonical
  · rw [start, VirtAddr.newTruncate, if_neg (by omega)]
    exact .inr (by omega)

/-- An end in range needs no sign extension. -/
theorem sum_eq (addressable : segment.Addressable) (inRange : segment.InRange) : segment.sum = segment.finish := by
  obtain ⟨_, high⟩ := inRange
  change segment.finish < (0x90000000 : Nat) at high
  exact (VirtAddr.eq_of_newTruncate_lt addressable.2 (by change segment.finish < 2 ^ 47; omega)).symm

theorem pagesOf_eq (addressable : segment.Addressable) (inRange : segment.InRange) (nonzero : segment.finish ≠ 0) :
    pagesOf segment.start segment.size.toNat = .ok segment.pages := by
  have high : segment.finish < (0x90000000 : Nat) := inRange.2
  exact pagesOf_finish (canonical_start addressable) (sum_eq addressable inRange) (by omega) (by omega)

/-- An end at address 0 has no last byte. -/
theorem pagesOf_error (addressable : segment.Addressable) (inRange : segment.InRange) (zero : segment.finish = 0) :
    ∃ panic, pagesOf segment.start segment.size.toNat = .error panic := by
  have total : VirtAddr.add segment.start segment.size.toNat = .ok (0 : Nat) := by
    have wrapped : (segment.start + segment.size.toNat) % 2 ^ 64 = 0 := (sum_eq addressable inRange).trans zero
    rw [VirtAddr.add, wrapped]
    rfl
  exact ⟨.unwrapNone, by simp only [pagesOf, total, bind, Except.bind]; rfl⟩

/-- A segment in range that ends before the address space does lies in the code range, or
its address has bit 47 alone set and it has no pages. -/
theorem inRange_ends (ends : segment.Ends) (addressable : segment.Addressable) (inRange : segment.InRange) :
    segment.start = segment.address.toNat ∧ segment.finish = segment.address.toNat + segment.size.toNat ∨
      ¬ Canonical segment.address.toNat ∧ segment.pages = [] := by
  have sum := sum_eq addressable inRange
  have high : segment.finish < (0x90000000 : Nat) := inRange.2
  by_cases canonical : Canonical segment.address.toNat
  · have start : segment.start = segment.address.toNat := VirtAddr.newTruncate_canonical canonical
    refine .inl ⟨start, ?_⟩
    rw [← sum, Segment.sum, start, Nat.mod_eq_of_lt ends]
  · have extended := addressable.1.resolve_left canonical
    have least : 2 ^ 47 ≤ segment.start := by
      rw [start, VirtAddr.newTruncate, if_neg (by omega)]
      omega
    refine .inr ⟨canonical, ?_⟩
    rw [pages, show (segment.finish - 1) / 4096 + 1 - segment.start / 4096 = 0 by omega]
    rfl

end Bounds

end Segment

section Ranges

theorem mem_pagesOf {start size : Nat} {pages : List VirtAddr} (low : start + size < 2 ^ 47)
    (listed : pagesOf start size = .ok pages) :
    (∀ page ∈ pages, start / 4096 * 4096 ≤ page ∧ page ≤ start + size ∧ page % 4096 = 0) ∧
      ∀ addr, start ≤ addr → addr < start + size → addr / 4096 * 4096 ∈ pages := by
  have canonical : Canonical start := .inl (by omega)
  have sum : (start + size) % 2 ^ 64 = start + size := by omega
  by_cases positive : 0 < start + size
  · rw [pagesOf_finish canonical sum positive low] at listed
    cases listed
    simp only [List.mem_map, List.mem_range]
    constructor
    · rintro _ ⟨count, inside, rfl⟩
      change start / 4096 * 4096 ≤ (start / 4096 + count) * 4096 ∧ (start / 4096 + count) * 4096 ≤ start + size ∧
        (start / 4096 + count) * 4096 % 4096 = 0
      omega
    · intro addr least most
      exact ⟨addr / 4096 - start / 4096, by omega, by omega⟩
  · obtain ⟨rfl, rfl⟩ : start = 0 ∧ size = 0 := by omega
    cases listed

end Ranges

namespace MemoryInfo

section Turn

variable {mapper : Mapper} {root : Nat} {segment : Segment} {before after info : MemoryInfo}

theorem loadSegment_not_addressable (wild : ¬ segment.Addressable) :
    ∃ panic, info.loadSegment mapper root segment = .error (.panic panic) := by
  rw [Segment.Addressable, not_and_or] at wild
  refine ⟨.virtAddrNotValid, ?_⟩
  rw [loadSegment]
  by_cases first : VirtAddr.Addressable segment.address.toNat
  · have sum : VirtAddr.add segment.start segment.size.toNat = .error .virtAddrNotValid :=
      VirtAddr.new_not_addressable (wild.resolve_left (not_not_intro first))
    simp only [Segment.start] at sum
    simp only [VirtAddr.new_addressable first, sum]
  · simp only [VirtAddr.new_not_addressable first]

/-- With bounds that are addresses, the range check and the allocation come next. -/
theorem loadSegment_addressable (addressable : segment.Addressable) :
    info.loadSegment mapper root segment =
      if segment.InRange then
        match info.allocatePages mapper root segment.start segment.size.toNat userPage with
        | .error panic => .error (.panic panic)
        | .ok (.error _, info) => .ok (.error "Could not allocate memory", info)
        | .ok (.ok (), info) =>
          match segment.data with
          | none => .ok (.error "Could not get segment data", info)
          | some data =>
            if segment.size.toNat < data.length then .ok (.error "ELF data length > segment size", info)
            else
              match storeData root segment.address.toNat data info.memory with
              | .error halt => .error halt
              | .ok memory => .ok (.ok (), { info with memory })
      else .ok (.error "ELF segment outside allowed range", info) := by
  have valid : VirtAddr.new segment.address.toNat = .ok segment.start := VirtAddr.new_addressable addressable.1
  have sum : VirtAddr.add segment.start segment.size.toNat = .ok segment.finish :=
    VirtAddr.new_addressable addressable.2
  simp only [loadSegment, valid, sum]
  by_cases inside : segment.InRange
  · rw [if_pos inside, if_neg]
    rintro (low | high)
    · exact Nat.not_lt.mpr inside.1 low
    · exact Nat.not_le.mpr inside.2 high
  · rw [if_neg inside, if_pos]
    by_contra neither
    rw [not_or] at neither
    exact inside ⟨Nat.le_of_not_lt neither.1, Nat.lt_of_not_le neither.2⟩

/-- What a turn of the loop does with a segment that ends before the address space does:
nothing, or its pages in the code range are mapped and its data is stored there. -/
inductive Turn (mapper : Mapper) (root : Nat) (segment : Segment) (before : MemoryInfo) :
    Except String Unit → MemoryInfo → Prop where
  | idle (result : Except String Unit) : Turn mapper root segment before result before
  | failed {pages : List VirtAddr} {mapped : Except MapToError Unit} {error : String} {after : MemoryInfo}
      (inside : userCodeStart ≤ segment.address.toNat ∧ segment.address.toNat + segment.size.toNat < userCodeEnd)
      (listed : pagesOf segment.address.toNat segment.size.toNat = .ok pages)
      (allocated : allocateEach mapper root userPage pages before = .ok (mapped, after)) :
      Turn mapper root segment before (.error error) after
  | stored {pages : List VirtAddr} {data : List (BitVec 8)} {memory : Memory Nat 512 PageTableEntry}
      {info : MemoryInfo}
      (inside : userCodeStart ≤ segment.address.toNat ∧ segment.address.toNat + segment.size.toNat < userCodeEnd)
      (listed : pagesOf segment.address.toNat segment.size.toNat = .ok pages)
      (allocated : allocateEach mapper root userPage pages before = .ok (.ok (), info))
      (fits : data.length ≤ segment.size.toNat)
      (copied : storeData root segment.address.toNat data info.memory = .ok memory) :
      Turn mapper root segment before (.ok ()) { info with memory }

/-- Bytes go to no address that is not canonical. -/
theorem storeData_not_canonical {address : UInt64} {data : List (BitVec 8)} {before after : Memory Nat 512 PageTableEntry}
    (wild : ¬ Canonical address.toNat) (copied : storeData root address.toNat data before = .ok after) :
    after = before := by
  cases data with
  | nil =>
    cases copied
    rfl
  | cons value rest =>
    rw [storeData, Nat.mod_eq_of_lt address.toNat_lt, storeSupervisor, if_neg wild] at copied
    cases copied

theorem loadSegment_turn {result : Except String Unit} (ends : segment.Ends)
    (returned : before.loadSegment mapper root segment = .ok (result, after)) :
    Turn mapper root segment before result after := by
  by_cases addressable : segment.Addressable
  swap
  · obtain ⟨panic, stopped⟩ : ∃ panic, before.loadSegment mapper root segment = .error (.panic panic) :=
      loadSegment_not_addressable addressable
    cases stopped.symm.trans returned
  rw [loadSegment_addressable addressable] at returned
  split at returned
  swap
  · cases returned
    exact .idle _
  rename_i inRange
  unfold allocatePages at returned
  rcases Segment.inRange_ends ends addressable inRange with ⟨start, finish⟩ | ⟨wild, empty⟩
  · have inside : userCodeStart ≤ segment.address.toNat ∧
        segment.address.toNat + segment.size.toNat < userCodeEnd := by
      rw [← start, ← finish] at *
      exact inRange
    rw [start] at returned
    cases listed : pagesOf segment.address.toNat segment.size.toNat with
    | error panic =>
      rw [listed] at returned
      cases returned
    | ok pages =>
      rw [listed] at returned
      dsimp only at returned
      split at returned
      · cases returned
      · cases returned
        exact .failed inside listed (by assumption)
      · rename_i info allocated
        split at returned
        · cases returned
          exact .failed inside listed allocated
        · split at returned
          · cases returned
            exact .failed inside listed allocated
          · rename_i fits
            split at returned
            · cases returned
            · cases returned
              exact .stored inside listed allocated (Nat.le_of_not_lt fits) (by assumption)
  · -- no page is mapped, and a byte at such an address is a fault
    by_cases zero : segment.finish = 0
    · obtain ⟨panic, none_⟩ := Segment.pagesOf_error addressable inRange zero
      rw [none_] at returned
      cases returned
    · rw [Segment.pagesOf_eq addressable inRange zero, empty] at returned
      simp only [allocateEach] at returned
      split at returned
      · cases returned
        exact .idle _
      · split at returned
        · cases returned
          exact .idle _
        · split at returned
          · cases returned
          · rename_i memory copied
            cases returned
            obtain rfl := storeData_not_canonical wild copied
            exact .idle _

end Turn

section Pages

variable {start size : Nat} {pages : List VirtAddr} (inside : userCodeStart ≤ start ∧ start + size < userCodeEnd)
  (listed : pagesOf start size = .ok pages)

include inside listed

/-- The pages of a segment that passes the range check. -/
theorem inUserSpace_pagesOf : ∀ page ∈ pages, InUserSpace (pageAddress page.path page.p1Index) := by
  obtain ⟨low, high⟩ : (0x5000000 : Nat) ≤ start ∧ start + size < (0x90000000 : Nat) := inside
  intro (page : Nat) member
  obtain ⟨least, most, _⟩ : start / 4096 * 4096 ≤ page ∧ page ≤ start + size ∧ _ :=
    (mem_pagesOf (by omega) listed).1 page member
  have small : page % 2 ^ 48 = page := Nat.mod_eq_of_lt (by omega)
  rw [pageAddress_eq, small]
  change (0x5000000 : Nat) ≤ page / 4096 * 4096 ∧ (page / 4096 * 4096 : Nat) < 2 ^ 47
  omega

/-- Where its data goes there are pages. -/
theorem pageAt_pagesOf {root count : Nat} {memory : Memory Nat 512 PageTableEntry} (fits : count ≤ size)
    (entered : ∀ page ∈ pages, ∃ frame, PageAt memory root page.path page.p1Index frame) (addr : Nat)
    (least : start ≤ addr) (most : addr < start + count) :
    ∃ frame, PageAt memory root (VirtAddr.path addr) (VirtAddr.p1Index addr) frame := by
  have high : start + size < (0x90000000 : Nat) := inside.2
  obtain ⟨frame, page⟩ := entered _ ((mem_pagesOf (by omega) listed).2 addr least (by omega))
  obtain ⟨path, last⟩ := List.append_inj' (VirtAddr.indices_page addr) rfl
  rw [path, List.singleton_inj.mp last] at page
  exact ⟨frame, page⟩

end Pages

namespace UserTree

variable {foreign : Nat → Prop} {root : Nat} {slots : List Nat} {before after info : MemoryInfo}

theorem storeSupervisor {addr frame : Nat} {value : BitVec 8} {memory : Memory Nat 512 PageTableEntry}
    (tree : UserTree foreign root slots [] info)
    (page : PageAt info.memory root (VirtAddr.path addr) (VirtAddr.p1Index addr) frame)
    (stored : Zephyr.storeSupervisor info.memory root addr value = .ok memory) :
    UserTree foreign root slots [] { info with memory } ∧ Spares foreign info { info with memory } ∧
      ∀ table ∈ tableSet 4 info.memory root, memory table = info.memory table := by
  unfold Zephyr.storeSupervisor at stored
  split at stored
  · split at stored
    · cases stored
    · rename_i walked found
      split at stored
      · cases stored
        obtain ⟨table, above, _⟩ := tableAt_of_entryAt_ne (ne_zero_of_userPage page.user)
        have same : walked.frame = frame := by
          rw [lookup_frame above found, ← page.addr, entryAt_of_tableAt above]
        rw [same]
        exact tree.stores page _ _
      · cases stored
  · cases stored

theorem storeData {start : Nat} {data : List (BitVec 8)} {memory : Memory Nat 512 PageTableEntry}
    (tree : UserTree foreign root slots [] info) (ends : start + data.length < 2 ^ 64)
    (mapped : ∀ addr, start ≤ addr → addr < start + data.length →
      ∃ frame, PageAt info.memory root (VirtAddr.path addr) (VirtAddr.p1Index addr) frame)
    (stored : Zephyr.storeData root start data info.memory = .ok memory) :
    UserTree foreign root slots [] { info with memory } ∧ Spares foreign info { info with memory } ∧
      ∀ table ∈ tableSet 4 info.memory root, memory table = info.memory table := by
  induction data generalizing start info with
  | nil =>
    cases stored
    exact ⟨tree, .refl tree.owns.shut, fun _ _ => rfl⟩
  | cons value rest ih =>
    rw [List.length_cons] at ends mapped
    rw [Zephyr.storeData, Nat.mod_eq_of_lt (by omega)] at stored
    split at stored
    · cases stored
    · rename_i middle one
      obtain ⟨frame, page⟩ := mapped start (Nat.le_refl _) (by omega)
      obtain ⟨kept, first, tables⟩ := tree.storeSupervisor page one
      have still : ∀ addr, start + 1 ≤ addr → addr < start + 1 + rest.length →
          ∃ frame, PageAt middle root (VirtAddr.path addr) (VirtAddr.p1Index addr) frame := by
        intro addr least most
        obtain ⟨frame, page⟩ := mapped addr (by omega) (by omega)
        have same : entryAt middle root (VirtAddr.path addr) (VirtAddr.p1Index addr) =
            entryAt info.memory root (VirtAddr.path addr) (VirtAddr.p1Index addr) :=
          entryAt_frame tables (VirtAddr.path_lt addr)
        exact ⟨frame, page.last, same ▸ page.user, same ▸ page.addr⟩
      obtain ⟨finished, second, later⟩ := ih kept (by omega) still stored
      refine ⟨finished, first.trans second, fun table listed => (later table ?_).trans (tables table listed)⟩
      rw [tableSet_congr fun path short => tableAt_frame tables (Nat.le_of_lt short)]
      exact listed

theorem loadSegment {mapper : Mapper} {segment : Segment} {result : Except String Unit}
    (tree : UserTree foreign root slots [] before) (ends : segment.Ends)
    (returned : before.loadSegment mapper root segment = .ok (result, after)) :
    Spares foreign before after ∧ (result = .ok () → UserTree foreign root slots [] after) := by
  cases loadSegment_turn ends returned with
  | idle => exact ⟨.refl tree.owns.shut, fun _ => tree⟩
  | failed inside listed allocated =>
    exact ⟨(tree.allocateEach (inUserSpace_pagesOf inside listed) allocated).1, nofun⟩
  | stored inside listed allocated fits copied =>
    obtain ⟨first, success⟩ := tree.allocateEach (inUserSpace_pagesOf inside listed) allocated
    obtain ⟨entered, all⟩ := success rfl
    obtain ⟨finished, second, _⟩ := entered.storeData (by unfold Segment.Ends at ends; omega)
      (pageAt_pagesOf inside listed fits all.entered) copied
    exact ⟨first.trans second, fun _ => finished⟩

end UserTree

end MemoryInfo

end Zephyr
