import Zephyr.Space.Image

/-! The memory image that `load_binary_into_memory` makes of a segment table. Segments get
whole pages of their own, and what lies between the file data of a segment and its memory
size keeps what the frame had before. -/

namespace Zephyr

open Radix PageTableFlags
open PageFrameAllocator (CursorReady)

namespace Segment

/-- A segment inside the range of user code, with no more data than memory. -/
structure WellPlaced (segment : Segment) : Prop where
  least : userCodeStart ≤ segment.address.toNat
  most : segment.address.toNat + segment.size.toNat ≤ userCodeEnd
  data : ∃ data, segment.data = some data ∧ data.length ≤ segment.size.toNat

/-- The address ranges of two segments do not overlap. -/
def Apart (segment other : Segment) : Prop :=
  segment.address.toNat + segment.size.toNat ≤ other.address.toNat ∨ other.address.toNat + other.size.toNat ≤ segment.address.toNat

instance (segment other : Segment) : Decidable (segment.Apart other) := inferInstanceAs (Decidable (_ ∨ _))

/-- The byte that the image has at an offset in the segment: zero beyond the file data. -/
def imageByte (segment : Segment) (index : Nat) : BitVec 8 := ((segment.data.getD [])[index]?).getD 0

theorem WellPlaced.start_eq {segment : Segment} (placed : segment.WellPlaced) :
    segment.start = segment.address.toNat := by
  have most : segment.address.toNat + segment.size.toNat ≤ (0x90000000 : Nat) := placed.most
  exact VirtAddr.newTruncate_canonical (.inl (by omega))

theorem WellPlaced.sum_eq {segment : Segment} (placed : segment.WellPlaced) :
    segment.sum = segment.address.toNat + segment.size.toNat := by
  have most : segment.address.toNat + segment.size.toNat ≤ (0x90000000 : Nat) := placed.most
  rw [Segment.sum, placed.start_eq]
  omega

theorem WellPlaced.finish_eq {segment : Segment} (placed : segment.WellPlaced) :
    segment.finish = segment.address.toNat + segment.size.toNat := by
  have most : segment.address.toNat + segment.size.toNat ≤ (0x90000000 : Nat) := placed.most
  rw [Segment.finish, placed.sum_eq]
  exact VirtAddr.newTruncate_canonical (.inl (by omega))

theorem WellPlaced.covered {segment : Segment} (placed : segment.WellPlaced) {index : Nat}
    (inside : index < segment.size.toNat) : (segment.address.toNat + index) / 4096 * 4096 ∈ segment.pages := by
  rw [mem_pages, placed.start_eq, placed.finish_eq]
  omega

end Segment

def copies (written : VirtAddr → Option (BitVec 8)) : List Segment → VirtAddr → Option (BitVec 8)
  | [] => written
  | segment :: segments => copies (MemoryInfo.overwrite written segment.address.toNat (segment.data.getD [])) segments

/-- No segment ends at the end of the range, and no page is needed twice. -/
def Loadable (mapped : List VirtAddr) : List Segment → Prop
  | [] => True
  | segment :: segments => segment.address.toNat + segment.size.toNat < userCodeEnd ∧
      (∀ page ∈ segment.pages, page ∉ mapped) ∧ Loadable (mapped ++ segment.pages) segments

namespace MemoryInfo

section Copies

variable {written : VirtAddr → Option (BitVec 8)} {segment : Segment} {segments : List Segment} {addr : Nat}

theorem overwrite_eq (written : VirtAddr → Option (BitVec 8)) (start : Nat) (data : List (BitVec 8)) (addr : Nat) :
    overwrite written start data addr =
      if start ≤ addr ∧ addr < start + data.length then data[addr - start]? else written addr := by
  induction data generalizing written start with
  | nil => rw [overwrite, if_neg (by simp only [List.length_nil]; omega)]
  | cons value rest ih =>
    rw [overwrite, ih, List.length_cons]
    by_cases here : addr = start
    · subst here
      rw [if_neg (by omega), if_pos (by omega), Function.update_self, Nat.sub_self]
      rfl
    · rw [Function.update_of_ne here]
      by_cases later : start + 1 ≤ addr ∧ addr < start + 1 + rest.length
      · rw [if_pos later, if_pos (by omega), show addr - start = addr - (start + 1) + 1 by omega]
        rfl
      · rw [if_neg later, if_neg (by omega)]

theorem copies_outside (placed : ∀ segment ∈ segments, segment.WellPlaced)
    (outside : ∀ segment ∈ segments, addr < segment.address.toNat ∨ segment.address.toNat + segment.size.toNat ≤ addr) :
    copies written segments addr = written addr := by
  induction segments generalizing written with
  | nil => rfl
  | cons segment segments ih =>
    obtain ⟨data, present, fits⟩ := (placed segment (List.mem_cons_self ..)).data
    have away := outside segment (List.mem_cons_self ..)
    rw [copies, ih (fun other listed => placed other (List.mem_cons_of_mem _ listed))
      (fun other listed => outside other (List.mem_cons_of_mem _ listed)), overwrite_eq, present, Option.getD_some,
      if_neg (by omega)]

/-- The bytes of a segment that overlaps no other. -/
theorem copies_inside (placed : ∀ segment ∈ segments, segment.WellPlaced) (apart : segments.Pairwise Segment.Apart)
    (listed : segment ∈ segments) {index : Nat} (inside : index < segment.size.toNat)
    (blank : written (segment.address.toNat + index) = none) :
    copies written segments (segment.address.toNat + index) = (segment.data.getD [])[index]? := by
  induction segments generalizing written with
  | nil => cases listed
  | cons first segments ih =>
    obtain ⟨away, apart⟩ := List.pairwise_cons.mp apart
    have others : ∀ other ∈ segments, other.WellPlaced := fun other member => placed other (List.mem_cons_of_mem _ member)
    obtain ⟨data, present, fits⟩ := (placed first (List.mem_cons_self ..)).data
    rw [copies]
    by_cases same : segment = first
    · subst same
      rw [copies_outside others, overwrite_eq, present, Option.getD_some]
      · by_cases copied : index < data.length
        · rw [if_pos (by omega), Nat.add_sub_cancel_left]
        · rw [if_neg (by omega), blank, List.getElem?_eq_none (by omega)]
      · intro other member
        have separate := away other member
        unfold Segment.Apart at separate
        omega
    · have member := (List.mem_cons.mp listed).resolve_left same
      have separate := away segment member
      unfold Segment.Apart at separate
      refine ih others apart member ?_
      rw [overwrite_eq, present, Option.getD_some, if_neg (by omega), blank]

end Copies

section Load

variable {root count : Nat} {origin info after : MemoryInfo} {mapped : List VirtAddr} {segment : Segment}
variable {segments : List Segment} {written : VirtAddr → Option (BitVec 8)}

/-- A well-placed segment is loaded if it ends before the range does and none of its pages
is mapped, and refused otherwise. -/
theorem Loaded.loadSegment (mapper : CompleteMapper) (loaded : Loaded root origin mapped written info) (placed : segment.WellPlaced)
    (ready : info.frameAllocator.CursorReady (segment.frames + count)) :
    ¬ (segment.address.toNat + segment.size.toNat < userCodeEnd ∧ ∀ page ∈ segment.pages, page ∉ mapped) ∧
        (∃ error after, info.loadSegment mapper root segment = .ok (.error error, after)) ∨
      (segment.address.toNat + segment.size.toNat < userCodeEnd ∧ ∀ page ∈ segment.pages, page ∉ mapped) ∧
        ∃ after, info.loadSegment mapper root segment = .ok (.ok (), after) ∧
          Loaded root origin (mapped ++ segment.pages) (overwrite written segment.address.toNat (segment.data.getD [])) after ∧
          after.frameAllocator.CursorReady count := by
  obtain ⟨data, present, fits⟩ := placed.data
  have least : (0x5000000 : Nat) ≤ segment.address.toNat := placed.least
  have most : segment.address.toNat + segment.size.toNat ≤ (0x90000000 : Nat) := placed.most
  have finish := placed.finish_eq
  have addressable : segment.Addressable := ⟨.inl (.inl (by omega)), .inl (.inl (by rw [placed.sum_eq]; omega))⟩
  have turn : info.loadSegment mapper root segment = _ := loadSegment_addressable addressable
  by_cases ends : segment.address.toNat + segment.size.toNat < userCodeEnd
  swap
  · rw [if_neg fun inRange : segment.InRange => ends (finish ▸ inRange.2)] at turn
    exact .inl ⟨fun both => ends both.1, _, _, turn⟩
  have inRange : segment.InRange := ⟨by rw [placed.start_eq]; exact placed.least, by rw [finish]; exact ends⟩
  rw [if_pos inRange] at turn
  rcases loaded.allocatePages mapper addressable inRange (by omega) ready with
    ⟨⟨page, member, again⟩, error, after, refused⟩ | ⟨fresh, middle, allocated, more, left⟩
  · simp only [refused] at turn
    exact .inl ⟨fun both => both.2 page member again, _, _, turn⟩
  · have covered : ∀ index < data.length, (segment.address.toNat + index) / 4096 * 4096 ∈ mapped ++ segment.pages :=
      fun index less => List.mem_append_right _ (placed.covered (by omega))
    obtain ⟨memory, stored, done⟩ := more.storeData covered
    simp only [allocated, present, if_neg (Nat.not_lt.mpr fits), stored] at turn
    refine .inr ⟨⟨ends, fresh⟩, _, turn, ?_, left⟩
    rw [present]
    exact done

/-- Loading returns `Ok` if and only if the segments fit, and leaves their bytes. -/
theorem Loaded.load (mapper : CompleteMapper) (loaded : Loaded root origin mapped written info)
    (placed : ∀ segment ∈ segments, segment.WellPlaced)
    (ready : info.frameAllocator.CursorReady (segments.map Segment.frames).sum) :
    ((∃ after, info.loadBinaryIntoMemory mapper root segments = .ok (.ok (), after)) ↔ Loadable mapped segments) ∧
      ∀ after, info.loadBinaryIntoMemory mapper root segments = .ok (.ok (), after) →
        Loaded root origin (mapped ++ segments.flatMap Segment.pages) (copies written segments) after := by
  induction segments generalizing mapped written info with
  | nil =>
    refine ⟨iff_of_true ⟨info, rfl⟩ trivial, ?_⟩
    rintro after ⟨⟩
    rw [List.flatMap_nil, List.append_nil]
    exact loaded
  | cons segment segments ih =>
    rw [List.map_cons, List.sum_cons] at ready
    rw [loadBinaryIntoMemory, Loadable]
    rcases loaded.loadSegment mapper (placed segment (List.mem_cons_self ..)) ready with
      ⟨unfit, error, middle, refused⟩ | ⟨fits, middle, turn, more, left⟩
    · rw [refused]
      refine ⟨iff_of_false ?_ fun both => unfit ⟨both.1, both.2.1⟩, ?_⟩
      · rintro ⟨after, returned⟩
        cases returned
      · rintro after ⟨⟩
    · rw [turn]
      obtain ⟨returns, leaves⟩ := ih more (fun other member => placed other (List.mem_cons_of_mem _ member)) left
      refine ⟨returns.trans ⟨fun rest => ⟨fits.1, fits.2, rest⟩, fun both => both.2.2⟩, fun after returned => ?_⟩
      rw [List.flatMap_cons, ← List.append_assoc]
      exact leaves after returned

/-- User mode reaches an address, in a frame that no other user page of the tree has, and
the byte there is `value`. -/
def Shows (root : Nat) (info : MemoryInfo) (addr : VirtAddr) (value : BitVec 8) : Prop :=
  ∃ walked, (∀ access, translate info.memory root access addr = .ok walked) ∧
    (∀ path index, PageAt info.memory root path index walked.frame → path = addr.path ∧ index = addr.p1Index) ∧
    loadByte info.memory walked.frame addr = value

/-- Loading succeeds, and every address of every segment shows its byte of the image. -/
def LoadsImage (mapper : Mapper) (root : Nat) (segments : List Segment) (info : MemoryInfo) : Prop :=
  ∃ after, info.loadBinaryIntoMemory mapper root segments = .ok (.ok (), after) ∧
    ∀ segment ∈ segments, ∀ index < segment.size.toNat, Shows root after (segment.address.toNat + index) (segment.imageByte index)

theorem Loaded.shows {addr : Nat} (loaded : Loaded root origin mapped written info)
    (listed : addr / 4096 * 4096 ∈ mapped) : ∃ frame, origin.frameAllocator.Available frame ∧
      ∀ value, Shows root info addr value ↔ (written addr).getD (loadByte origin.memory frame addr) = value := by
  obtain ⟨frame, kept⟩ := loaded.pages _ listed
  obtain ⟨walked, backs, ends⟩ := kept.entered.backs kept.bounded kept.outside
  have backs : Zephyr.Backs info.memory root addr walked := backs.of_page rfl
  have bytes := kept.bytes addr rfl
  refine ⟨frame, kept.fresh, fun value => ⟨?_, fun same => ?_⟩⟩
  · rintro ⟨other, reaches, _, byte⟩
    have again : other = walked := Except.ok.inj ((reaches .read).symm.trans (backs.translate .read))
    rw [again, ends, bytes] at byte
    exact byte
  · refine ⟨walked, backs.translate, fun path index there => ?_, by rw [ends, bytes, same]⟩
    obtain ⟨way, last⟩ := List.append_inj' (VirtAddr.indices_page addr) rfl
    rw [ends] at there
    obtain ⟨rfl, rfl⟩ := loaded.lone _ listed path index frame kept.pageAt there
    exact ⟨way, List.singleton_inj.mp last⟩

/-- Memory with every bit set in the free frames. -/
def filled (info : MemoryInfo) : Memory Nat 512 PageTableEntry := fun frame index =>
  if frame ∈ info.frameAllocator.usableFrames ∧ info.frameAllocator.frameUsage frame = false then ⟨BitVec.allOnes 64⟩
  else info.memory frame index

theorem filled_eq {frame : Nat} (taken : ¬ info.frameAllocator.Available frame) : info.filled frame = info.memory frame :=
  funext fun _ => if_neg taken

theorem loadByte_filled {frame : Nat} (free : info.frameAllocator.Available frame) (addr : Nat) :
    loadByte info.filled frame addr ≠ 0 := by
  intro zero
  have word : info.filled frame (Fin.ofNat 512 (addr / 8)) = ⟨BitVec.allOnes 64⟩ := if_pos free
  rw [loadByte, word, PageTableEntry.byte] at zero
  have small : 8 * (addr % 8) < 64 := by omega
  have bit : (BitVec.extractLsb' (8 * (addr % 8)) 8 (BitVec.allOnes 64)).getLsbD 0 = false := by
    rw [zero]
    rfl
  rw [BitVec.getLsbD_extractLsb', BitVec.getLsbD_allOnes, Nat.add_zero, decide_eq_true small] at bit
  exact absurd bit (by decide)

/-- Whatever the free frames had before, loading makes the image of the segment table if
and only if no segment ends at the end of the range, no page is needed twice, and every
segment has all its memory from the file. -/
theorem image_loaded_iff (mapper : CompleteMapper) (fresh : Fresh root info)
    (placed : ∀ segment ∈ segments, segment.WellPlaced)
    (apart : segments.Pairwise Segment.Apart)
    (ready : info.frameAllocator.CursorReady (segments.map Segment.frames).sum) :
    (∀ memory : Memory Nat 512 PageTableEntry,
        (∀ frame, ¬ info.frameAllocator.Available frame → memory frame = info.memory frame) →
          LoadsImage mapper root segments { info with memory }) ↔
      Loadable [] segments ∧ ∀ segment ∈ segments, (segment.data.getD []).length = segment.size.toNat := by
  -- what an address of a segment shows, with another content of the free frames
  have outcome : ∀ memory : Memory Nat 512 PageTableEntry,
      (∀ frame, ¬ info.frameAllocator.Available frame → memory frame = info.memory frame) →
      ((∃ after, loadBinaryIntoMemory mapper root segments { info with memory } = .ok (.ok (), after)) ↔
        Loadable [] segments) ∧
      ∀ after, loadBinaryIntoMemory mapper root segments { info with memory } = .ok (.ok (), after) →
        ∀ segment ∈ segments, ∀ index < segment.size.toNat, ∃ frame, info.frameAllocator.Available frame ∧
          ∀ value, Shows root after (segment.address.toNat + index) value ↔
            ((segment.data.getD [])[index]?).getD (loadByte memory frame (segment.address.toNat + index)) = value := by
    intro memory kept
    obtain ⟨returns, leaves⟩ := (fresh.content kept).loaded.load mapper placed ready
    refine ⟨returns, fun after returned segment listed index inside => ?_⟩
    have covered : (segment.address.toNat + index) / 4096 * 4096 ∈ [] ++ segments.flatMap Segment.pages :=
      List.mem_flatMap.mpr ⟨segment, listed, (placed segment listed).covered inside⟩
    obtain ⟨frame, free, shows⟩ := (leaves after returned).shows covered
    refine ⟨frame, free, fun value => ?_⟩
    rw [shows, copies_inside placed apart listed inside rfl]
  constructor
  · intro all
    obtain ⟨after, returned, _⟩ := all info.memory fun _ _ => rfl
    refine ⟨(outcome info.memory fun _ _ => rfl).1.mp ⟨after, returned⟩, fun segment listed => ?_⟩
    obtain ⟨data, present, fits⟩ := (placed segment listed).data
    rw [present, Option.getD_some]
    by_contra short
    have inside : data.length < segment.size.toNat := by omega
    -- the first byte after the data is that of the frame
    obtain ⟨after, returned, shown⟩ := all info.filled fun _ => filled_eq
    obtain ⟨frame, free, shows⟩ := (outcome info.filled fun _ => filled_eq).2 after returned segment listed _ inside
    have zero := shown segment listed _ inside
    rw [shows, Segment.imageByte, present, Option.getD_some, List.getElem?_eq_none (Nat.le_refl _)] at zero
    exact loadByte_filled free _ zero
  · rintro ⟨loadable, whole⟩ memory kept
    obtain ⟨returns, shows⟩ := outcome memory kept
    obtain ⟨after, returned⟩ := returns.mpr loadable
    refine ⟨after, returned, fun segment listed index inside => ?_⟩
    obtain ⟨frame, _, shown⟩ := shows after returned segment listed index inside
    rw [shown, Segment.imageByte, List.getElem?_eq_getElem (by rw [whole segment listed]; exact inside)]
    rfl

end Load

section Examples

private def emptyTree : MemoryInfo := emptyInfo (.init [⟨0x10000, 0x30000, .usable⟩])

private theorem fresh_emptyTree : Fresh 1 emptyTree := fresh_emptyInfo (by decide +kernel)

/-- Two bytes of code, and two bytes more on the same page. -/
private def code : Segment := ⟨0x5000000, 2, some [0x0F, 0x05]⟩
private def constants : Segment := ⟨0x5000800, 2, some [1, 2]⟩

private theorem wellPlaced_code : code.WellPlaced := ⟨by decide, by decide, _, rfl, by decide⟩
private theorem wellPlaced_constants : constants.WellPlaced := ⟨by decide, by decide, _, rfl, by decide⟩

private def table : Segment := ⟨0x6000000, 3, some [1, 2, 3]⟩

private theorem wellPlaced_table : table.WellPlaced := ⟨by decide, by decide, _, rfl, by decide⟩

/-- An image of two segments. -/
theorem image_loaded_iff_code : Fresh 1 emptyTree ∧ ∀ memory : Memory Nat 512 PageTableEntry,
    (∀ frame, ¬ emptyTree.frameAllocator.Available frame → memory frame = emptyTree.memory frame) →
      LoadsImage completeOffsetPageTable 1 [code, table] { emptyTree with memory } := by
  have placed : ∀ segment ∈ [code, table], segment.WellPlaced := by
    simpa using ⟨wellPlaced_code, wellPlaced_table⟩
  have apart : [code, table].Pairwise Segment.Apart := List.pairwise_pair.mpr (by decide)
  exact ⟨fresh_emptyTree, (image_loaded_iff completeOffsetPageTable fresh_emptyTree placed apart (by decide +kernel)).mpr
    ⟨⟨by decide, by decide, by decide, by decide, trivial⟩, by simp [code, table]⟩⟩

/-- Two segments that do not overlap but share a page are refused. -/
theorem shared_page_not_loaded : (∀ segment ∈ [code, constants], segment.WellPlaced) ∧ Segment.Apart code constants ∧
    Fresh 1 emptyTree ∧ emptyTree.frameAllocator.CursorReady ([code, constants].map Segment.frames).sum ∧
    ¬ LoadsImage completeOffsetPageTable 1 [code, constants] emptyTree := by
  have placed : ∀ segment ∈ [code, constants], segment.WellPlaced := by
    simpa using ⟨wellPlaced_code, wellPlaced_constants⟩
  have ready : emptyTree.frameAllocator.CursorReady ([code, constants].map Segment.frames).sum := by decide +kernel
  refine ⟨placed, by decide, fresh_emptyTree, ready, ?_⟩
  rintro ⟨after, returned, _⟩
  have loadable := (fresh_emptyTree.loaded.load completeOffsetPageTable placed ready).1.mp ⟨after, returned⟩
  exact absurd loadable.2.2.2.1 (by decide)

end Examples

end MemoryInfo

end Zephyr
