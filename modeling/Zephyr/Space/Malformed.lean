import Zephyr.Space.Image

/-! Malformed binaries. The loader checks the end of a segment after a wrapping addition,
so which files it survives depends on where the sum of address and size comes out. -/

namespace Zephyr

open Radix PageTableFlags
open PageFrameAllocator (CursorReady)

/-- The steps of `spawn_user_thread` that look at the file. -/
def MemoryInfo.validateAndLoad (mapper : Mapper) (parse : List (BitVec 8) → Option Image) (bin : List (BitVec 8))
    (userPageTable : Nat) (info : MemoryInfo) : Except Halt (Except String Unit × MemoryInfo) :=
  match validateBinary bin with
  | .error panic => .error (.panic panic)
  | .ok false => .ok (.error "Invalid binary format", info)
  | .ok true =>
    match parseElfBinary parse bin with
    | .error _ => .ok (.error "Failed to parse ELF", info)
    | .ok image => info.loadBinaryIntoMemory mapper userPageTable image.segments

/-- The addresses that loading writes to, each with the pages it has mapped until then. -/
def MemoryInfo.loadWrites (mapper : Mapper) (root : Nat) (mapped : List VirtAddr) : List Segment → MemoryInfo →
    List (VirtAddr × List VirtAddr)
  | [], _ => []
  | segment :: segments, info =>
    match info.loadSegment mapper root segment with
    | .ok (.ok (), after) =>
      segment.writes.map (·, mapped ++ segment.pages) ++ after.loadWrites mapper root (mapped ++ segment.pages) segments
    | _ => []

def MemoryInfo.fileWrites (mapper : Mapper) (parse : List (BitVec 8) → Option Image) (bin : List (BitVec 8)) (root : Nat)
    (info : MemoryInfo) : List (VirtAddr × List VirtAddr) :=
  match validateBinary bin, parse bin with
  | .ok true, some image => info.loadWrites mapper root [] image.segments
  | _, _ => []

/-- The segment table is one that the loader survives, with the pages mapped so far. The
loop ends at the first segment that is out of range, or on a mapped page, or without its
data; up to there every bound is an address, no end is 0, and bytes are copied
into mapped pages only. -/
def SafeSegments (mapped : List VirtAddr) : List Segment → Prop
  | [] => True
  | segment :: segments =>
    segment.Addressable ∧
      (segment.InRange → segment.finish ≠ 0 ∧
        ((∀ page ∈ segment.pages, page ∉ mapped) → ∀ data, segment.data = some data →
          data.length ≤ segment.size.toNat →
            (∀ addr ∈ segment.writes, addr / 4096 * 4096 ∈ mapped ++ segment.pages) ∧
              SafeSegments (mapped ++ segment.pages) segments))

namespace MemoryInfo

/-- Loading returns, and writes only to addresses whose pages it has mapped. -/
def LoadsSafely (mapper : Mapper) (root : Nat) (mapped : List VirtAddr) (segments : List Segment) (info : MemoryInfo) : Prop :=
  (∃ result after, info.loadBinaryIntoMemory mapper root segments = .ok (result, after)) ∧
    ∀ write ∈ info.loadWrites mapper root mapped segments, write.1 / 4096 * 4096 ∈ write.2

section Segments

variable {mapper : Mapper} {root : Nat} {origin info middle after : MemoryInfo} {mapped : List VirtAddr}
variable {segment : Segment} {segments : List Segment} {written : VirtAddr → Option (BitVec 8)} {data : List (BitVec 8)}

theorem loadsSafely_of_error {error : String}
    (ends : info.loadSegment mapper root segment = .ok (.error error, after)) :
    LoadsSafely mapper root mapped (segment :: segments) info := by
  rw [LoadsSafely, loadBinaryIntoMemory, loadWrites, ends]
  exact ⟨⟨_, _, rfl⟩, fun _ listed => nomatch listed⟩

theorem not_loadsSafely_of_halt {halt : Halt} (stops : info.loadSegment mapper root segment = .error halt) :
    ¬ LoadsSafely mapper root mapped (segment :: segments) info := by
  rw [LoadsSafely, loadBinaryIntoMemory, stops]
  rintro ⟨⟨_, _, returned⟩, _⟩
  cases returned

theorem loadsSafely_of_ok (passes : info.loadSegment mapper root segment = .ok (.ok (), after)) :
    LoadsSafely mapper root mapped (segment :: segments) info ↔
      (∀ addr ∈ segment.writes, addr / 4096 * 4096 ∈ mapped ++ segment.pages) ∧
        LoadsSafely mapper root (mapped ++ segment.pages) segments after := by
  simp only [LoadsSafely, loadBinaryIntoMemory, loadWrites, passes]
  generalize mapped ++ segment.pages = pages
  simp only [List.mem_append, List.mem_map]
  constructor
  · rintro ⟨returned, safe⟩
    refine ⟨fun addr listed => safe (addr, pages) (.inl ⟨addr, listed, rfl⟩), returned, ?_⟩
    exact fun write listed => safe write (.inr listed)
  · rintro ⟨here, returned, later⟩
    refine ⟨returned, ?_⟩
    rintro write (⟨addr, listed, rfl⟩ | listed)
    · exact here addr listed
    · exact later write listed

theorem writes_inside {pages : List VirtAddr} (present : segment.data = some data)
    (codes : ∀ page ∈ pages, CodePage page) (inside : ∀ addr ∈ segment.writes, addr / 4096 * 4096 ∈ pages)
    {index : Nat} (less : index < data.length) : (segment.address.toNat + index) / 4096 * 4096 ∈ pages := by
  have listed : ∀ index < data.length, (segment.address.toNat + index) % 2 ^ 64 / 4096 * 4096 ∈ pages := by
    intro index less
    refine inside _ ?_
    rw [Segment.writes, present]
    exact List.mem_map.mpr ⟨index, List.mem_range.mpr less, rfl⟩
  induction index with
  | zero =>
    have here := listed 0 less
    rwa [Nat.add_zero, Nat.mod_eq_of_lt segment.address.toNat_lt] at here
  | succ index ih =>
    obtain ⟨_, _, most⟩ : _ ∧ _ ∧ (segment.address.toNat + index) / 4096 * 4096 < (0x90000000 : Nat) :=
      codes _ (ih (by omega))
    have here := listed (index + 1) less
    rwa [Nat.mod_eq_of_lt (by omega)] at here

/-- Loading returns without a write outside the pages it maps if and only if the segment
table is safe. -/
theorem Loaded.loadsSafely_iff (mapper : CompleteMapper) (loaded : Loaded root origin mapped written info)
    (ready : info.frameAllocator.CursorReady (segments.map Segment.frames).sum) :
    LoadsSafely mapper root mapped segments info ↔ SafeSegments mapped segments := by
  induction segments generalizing mapped written info with
  | nil => exact iff_of_true ⟨⟨_, _, rfl⟩, fun _ listed => nomatch listed⟩ trivial
  | cons segment segments ih =>
    rw [List.map_cons, List.sum_cons] at ready
    rw [SafeSegments]
    by_cases addressable : segment.Addressable
    swap
    · obtain ⟨panic, stops⟩ : ∃ panic, info.loadSegment mapper root segment = .error (.panic panic) :=
        loadSegment_not_addressable addressable
      exact iff_of_false (not_loadsSafely_of_halt stops) fun safe => addressable safe.1
    have turn : info.loadSegment mapper root segment = _ := loadSegment_addressable addressable
    by_cases inRange : segment.InRange
    swap
    · rw [if_neg inRange] at turn
      exact iff_of_true (loadsSafely_of_error turn) ⟨addressable, fun inside => absurd inside inRange⟩
    rw [if_pos inRange] at turn
    by_cases zero : segment.finish = 0
    · obtain ⟨panic, none_⟩ : ∃ panic, pagesOf segment.start segment.size.toNat = .error panic :=
        Segment.pagesOf_error addressable inRange zero
      simp only [MemoryInfo.allocatePages, none_] at turn
      exact iff_of_false (not_loadsSafely_of_halt turn) fun safe => (safe.2 inRange).1 zero
    rcases loaded.allocatePages mapper addressable inRange zero ready with
      ⟨⟨page, member, again⟩, error, after, refused⟩ | ⟨fresh, middle, allocated, more, left⟩
    · simp only [refused] at turn
      refine iff_of_true (loadsSafely_of_error turn) ⟨addressable, fun _ => ⟨zero, fun apart => ?_⟩⟩
      exact absurd again (apart page member)
    simp only [allocated] at turn
    cases present : segment.data with
    | none =>
      simp only [present] at turn
      refine iff_of_true (loadsSafely_of_error turn) ⟨addressable, fun _ => ⟨zero, fun _ data found => ?_⟩⟩
      cases found
    | some data =>
      simp only [present] at turn
      by_cases long : segment.size.toNat < data.length
      · rw [if_pos long] at turn
        refine iff_of_true (loadsSafely_of_error turn) ⟨addressable, fun _ => ⟨zero, fun _ other found fits => ?_⟩⟩
        cases found
        exact absurd long (Nat.not_lt.mpr fits)
      rw [if_neg long] at turn
      -- what is left to decide is where the bytes go, and the segments after this one
      have rest : LoadsSafely mapper root mapped (segment :: segments) info ↔
          (∀ addr ∈ segment.writes, addr / 4096 * 4096 ∈ mapped ++ segment.pages) ∧
            SafeSegments (mapped ++ segment.pages) segments := by
        by_cases inside : ∀ addr ∈ segment.writes, addr / 4096 * 4096 ∈ mapped ++ segment.pages
        · obtain ⟨memory, stored, last⟩ := more.storeData fun index less => writes_inside present more.codes inside less
          rw [stored] at turn
          rw [loadsSafely_of_ok turn, ih last left]
        · refine iff_of_false (fun safe => ?_) fun safe => inside safe.1
          cases stored : Zephyr.storeData root segment.address.toNat data middle.memory with
          | error halt =>
            rw [stored] at turn
            exact not_loadsSafely_of_halt turn safe
          | ok memory =>
            rw [stored] at turn
            exact inside ((loadsSafely_of_ok turn).mp safe).1
      rw [rest]
      constructor
      · intro safe
        exact ⟨addressable, fun _ => ⟨zero, fun _ _ _ _ => safe⟩⟩
      · rintro ⟨_, safe⟩
        exact (safe inRange).2 fresh data rfl (Nat.le_of_not_lt long)

end Segments

section Files

variable {root : Nat} {info : MemoryInfo}

/-- A file is validated, parsed and loaded without a panic and without a byte written to
an address that was not mapped if and only if it has four bytes and, where it has the
magic bytes and can be parsed, its segment table is safe. -/
theorem malformed_rejected_iff (mapper : CompleteMapper) (fresh : Fresh root info)
    (parse : List (BitVec 8) → Option Image) (bin : List (BitVec 8))
    (ready : ∀ image, parse bin = some image →
      info.frameAllocator.CursorReady (image.segments.map Segment.frames).sum) :
    ((∃ result after, info.validateAndLoad mapper parse bin root = .ok (result, after)) ∧
        ∀ write ∈ info.fileWrites mapper parse bin root, write.1 / 4096 * 4096 ∈ write.2) ↔
      4 ≤ bin.length ∧ (bin.take 4 = magicBytes → ∀ image, parse bin = some image → SafeSegments [] image.segments) := by
  rw [validateAndLoad, fileWrites, validateBinary]
  by_cases short : bin.length < 4
  · rw [if_pos short]
    refine iff_of_false ?_ fun enough => Nat.not_le.mpr short enough.1
    rintro ⟨⟨_, _, returned⟩, _⟩
    cases returned
  rw [if_neg short]
  have enough : 4 ≤ bin.length := Nat.le_of_not_lt short
  by_cases magic : bin.take 4 = magicBytes
  · rw [decide_eq_true magic]
    cases parsed : parse bin with
    | none =>
      rw [parseElfBinary, parsed]
      exact iff_of_true ⟨⟨_, _, rfl⟩, fun _ listed => nomatch listed⟩ ⟨enough, fun _ _ found => nomatch found⟩
    | some image =>
      rw [parseElfBinary, parsed]
      refine (fresh.loaded.loadsSafely_iff mapper (ready image parsed)).trans ⟨fun safe => ⟨enough, fun _ other found => ?_⟩,
        fun safe => safe.2 magic image rfl⟩
      cases found
      exact safe
  · rw [decide_eq_false magic]
    exact iff_of_true ⟨⟨_, _, rfl⟩, fun _ listed => nomatch listed⟩ ⟨enough, fun same => absurd same magic⟩

end Files

section Examples

/-- An empty tree, and the frames 16 to 31 free. -/
private def blankTree : MemoryInfo := emptyInfo (.init [⟨0x10000, 0x20000, .usable⟩])

private theorem fresh_blankTree : Fresh 1 blankTree := fresh_emptyInfo (by decide +kernel)

/-- Two bytes of code, and sixteen bytes elsewhere of which the file has one. -/
private def plainSegments : List Segment := [⟨0x5000000, 2, some [0x0F, 0x05]⟩, ⟨0x6000000, 16, some [1]⟩]

private theorem safe_plainSegments : SafeSegments [] plainSegments := by
  refine ⟨by decide, fun _ => ⟨by decide, ?_⟩⟩
  rintro - _ ⟨⟩ -
  refine ⟨by decide, by decide, fun _ => ⟨by decide, ?_⟩⟩
  rintro - _ ⟨⟩ -
  exact ⟨by decide, trivial⟩

/-- A file whose two segments are loaded. -/
theorem malformed_rejected_iff_segments : SafeSegments [] plainSegments ∧
    (∃ result after, blankTree.validateAndLoad completeOffsetPageTable (fun _ => some ⟨0, plainSegments⟩) magicBytes 1 =
      .ok (result, after)) ∧
    ∀ write ∈ blankTree.fileWrites completeOffsetPageTable (fun _ => some ⟨0, plainSegments⟩) magicBytes 1,
      write.1 / 4096 * 4096 ∈ write.2 := by
  refine ⟨safe_plainSegments, (malformed_rejected_iff completeOffsetPageTable fresh_blankTree _ _ ?_).mpr ?_⟩
  · rintro image ⟨⟩
    decide +kernel
  · refine ⟨by decide, ?_⟩
    rintro - image ⟨⟩
    exact safe_plainSegments

/-- An empty file, a segment at an address with bit 48 set, and a segment whose size wraps
around: each of them stops the kernel. -/
theorem malformed_stops_kernel :
    (∃ halt, blankTree.validateAndLoad offsetPageTable (fun _ => none) [] 1 = .error halt) ∧
    (∃ halt, blankTree.validateAndLoad offsetPageTable (fun _ => some ⟨0, [⟨0x1000000000000, 0, some []⟩]⟩)
      magicBytes 1 = .error halt) ∧
    ∃ halt, blankTree.validateAndLoad offsetPageTable
      (fun _ => some ⟨0, [⟨0x6000000, 0xFFFFFFFFFFFFF000, some [1]⟩]⟩) magicBytes 1 = .error halt :=
  ⟨⟨_, rfl⟩, ⟨_, rfl⟩, ⟨_, rfl⟩⟩

end Examples

end MemoryInfo

end Zephyr
