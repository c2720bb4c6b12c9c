import Zephyr.Mem.Supply
import Zephyr.Space.Loader

/-! A whole image in memory: `validate_binary`, `parse_elf_binary` and the segment loop of
`load_binary_into_memory`. The `object` crate is a parameter; what it reports of a file is
any entry point and any list of segments. -/

namespace Zephyr

open Radix PageTableFlags
open PageFrameAllocator (CursorReady Grabs)

/-- What the `object` crate reports of a file. -/
structure Image where
  entry : UInt64
  segments : List Segment

def magicBytes : List (BitVec 8) := [0x7f, 0x45, 0x4c, 0x46]

/-- `validate_binary`; the range `0..4` has to be inside the slice. -/
def validateBinary (bin : List (BitVec 8)) : Except Panic Bool :=
  if bin.length < 4 then .error .indexOutOfBounds else .ok (bin.take 4 = magicBytes)

def parseElfBinary (parse : List (BitVec 8) → Option Image) (bin : List (BitVec 8)) : Except String Image :=
  match parse bin with
  | some image => .ok image
  | none => .error "Could not parse ELF"

/-- The loop of `load_binary_into_memory` over the segments. -/
def MemoryInfo.loadBinaryIntoMemory (mapper : Mapper) (userPageTable : Nat) :
    List Segment → MemoryInfo → Except Halt (Except String Unit × MemoryInfo)
  | [], self => .ok (.ok (), self)
  | segment :: segments, self =>
    match self.loadSegment mapper userPageTable segment with
    | .error halt => .error halt
    | .ok (.error error, info) => .ok (.error error, info)
    | .ok (.ok (), info) => info.loadBinaryIntoMemory mapper userPageTable segments

def CodePage (page : VirtAddr) : Prop := page % 4096 = 0 ∧ userCodeStart ≤ page ∧ page < userCodeEnd

namespace Segment

/-- The addresses of the bytes that the loader copies. -/
def writes (segment : Segment) : List VirtAddr :=
  match segment.data with
  | none => []
  | some data => (List.range data.length).map fun index => (segment.address.toNat + index) % 2 ^ 64

/-- The frames that loading a segment takes at most: one for each page, and three tables
above it. -/
def frames (segment : Segment) : Nat := if segment.InRange then 4 * segment.pages.length else 0

section Pages

variable {segment : Segment} {page : Nat}

theorem mem_pages : page ∈ segment.pages ↔ page % 4096 = 0 ∧ segment.start / 4096 ≤ page / 4096 ∧
    page / 4096 ≤ (segment.finish - 1) / 4096 := by
  simp only [pages, List.mem_map, List.mem_range]
  constructor
  · rintro ⟨count, inside, rfl⟩
    change (segment.start / 4096 + count) * 4096 % 4096 = 0 ∧
      segment.start / 4096 ≤ (segment.start / 4096 + count) * 4096 / 4096 ∧
      (segment.start / 4096 + count) * 4096 / 4096 ≤ (segment.finish - 1) / 4096
    omega
  · rintro ⟨aligned, least, most⟩
    exact ⟨page / 4096 - segment.start / 4096, by omega, by omega⟩

theorem nodup_pages : segment.pages.Nodup := by
  refine List.Nodup.map (fun (one other : Nat) same => ?_) List.nodup_range
  have numbers : (segment.start / 4096 + one) * 4096 = (segment.start / 4096 + other) * 4096 := same
  exact (by omega : one = other)

theorem codePage (inRange : segment.InRange) (listed : page ∈ segment.pages) : CodePage page := by
  obtain ⟨aligned, least, most⟩ := mem_pages.mp listed
  obtain ⟨low, high⟩ := inRange
  change (0x5000000 : Nat) ≤ segment.start at low
  change segment.finish < (0x90000000 : Nat) at high
  change page % 4096 = 0 ∧ (0x5000000 : Nat) ≤ page ∧ page < (0x90000000 : Nat)
  omega

end Pages

end Segment

theorem CodePage.eq_of_entry {page other : Nat} (code : CodePage page) (twin : CodePage other)
    (path : VirtAddr.path other = VirtAddr.path page) (index : VirtAddr.p1Index other = VirtAddr.p1Index page) :
    other = page := by
  have same : MemoryInfo.pageAddress (VirtAddr.path other) (VirtAddr.p1Index other) =
      MemoryInfo.pageAddress (VirtAddr.path page) (VirtAddr.p1Index page) := by rw [path, index]
  rw [MemoryInfo.pageAddress_eq, MemoryInfo.pageAddress_eq] at same
  obtain ⟨aligned, _, most⟩ : page % 4096 = 0 ∧ _ ∧ page < (0x90000000 : Nat) := code
  obtain ⟨evenly, _, high⟩ : other % 4096 = 0 ∧ _ ∧ other < (0x90000000 : Nat) := twin
  have numbers : other % 2 ^ 48 / 4096 * 4096 = page % 2 ^ 48 / 4096 * 4096 := same
  omega

namespace MemoryInfo

/-- A page mapped by the loader, with a frame that was free. Where nothing was written its
bytes are those the frame had. -/
structure LoadedPage (root : Nat) (origin : MemoryInfo) (written : VirtAddr → Option (BitVec 8)) (info : MemoryInfo)
    (page : VirtAddr) (frame : Nat) : Prop where
  fresh : origin.frameAllocator.Available frame
  bounded : frame < frameUsageLen
  entered : Entered root page frame info
  outside : frame ∉ tableSet 4 info.memory root
  taken : ¬ info.frameAllocator.Available frame
  bytes : ∀ addr, addr / 4096 * 4096 = page →
    loadByte info.memory frame addr = (written addr).getD (loadByte origin.memory frame addr)

/-- The tree at `root` while an image is loaded: `mapped` are the pages mapped so far, each
with a frame of its own, and `written` the bytes copied. -/
structure Loaded (root : Nat) (origin : MemoryInfo) (mapped : List VirtAddr) (written : VirtAddr → Option (BitVec 8))
    (info : MemoryInfo) : Prop where
  sound : info.Sound root
  codes : ∀ page ∈ mapped, CodePage page
  pages : ∀ page ∈ mapped, ∃ frame, LoadedPage root origin written info page frame
  used : ∀ path index frame, PageAt info.memory root path index frame → info.frameAllocator.frameUsage frame = true
  lone : ∀ page ∈ mapped, ∀ path index frame, PageAt info.memory root page.path page.p1Index frame →
    PageAt info.memory root path index frame → path = page.path ∧ index = page.p1Index
  unmapped : ∀ page, CodePage page → page ∉ mapped → Unmapped root info page
  within : ∀ addr value, written addr = some value → addr / 4096 * 4096 ∈ mapped
  shut : ∀ frame, ¬ origin.frameAllocator.Available frame → ¬ info.frameAllocator.Available frame
  intact : ∀ frame, info.frameAllocator.Available frame → info.memory frame = origin.memory frame

/-- A tree before anything is loaded: no page of the code range is mapped, and the frames
of its user pages are in use. -/
structure Fresh (root : Nat) (info : MemoryInfo) : Prop where
  sound : info.Sound root
  used : ∀ path index frame, PageAt info.memory root path index frame → info.frameAllocator.frameUsage frame = true
  unmapped : ∀ page, CodePage page → Unmapped root info page

theorem Fresh.loaded {root : Nat} {info : MemoryInfo} (fresh : Fresh root info) :
    Loaded root info [] (fun _ => none) info where
  sound := fresh.sound
  codes _ listed := nomatch listed
  pages _ listed := nomatch listed
  used := fresh.used
  lone _ listed := nomatch listed
  unmapped page code _ := fresh.unmapped page code
  within _ _ copied := nomatch copied
  shut _ gone := gone
  intact _ _ := rfl

theorem fresh_emptyInfo {frameAllocator : PageFrameAllocator} (outside : 1 ∉ frameAllocator.usableFrames) :
    Fresh 1 (emptyInfo frameAllocator) where
  sound := sound_emptyInfo outside
  used path index frame page := by
    have user := page.user
    rw [entryAt_emptyInfo] at user
    exact absurd user (by decide)
  unmapped page _ := ⟨fun above index _ => .inl (entryAt_emptyInfo _ _ _), entryAt_emptyInfo _ _ _⟩

section Loading

variable {root frame count : Nat} {origin info before after : MemoryInfo} {page other : VirtAddr}
variable {mapped pages : List VirtAddr} {written : VirtAddr → Option (BitVec 8)}

/-- Mapping a page leaves frames alone that are neither tables of the tree nor free. -/
theorem Maps.confined (sound : before.Sound root) (maps : Maps root page frame userPage userPage before after) :
    Confined root before after := by
  obtain ⟨middle, edits, _, _, fills⟩ := maps.fills sound
  obtain ⟨new, extended, _⟩ := TableEdits.extends sound tableFlags_userPage edits
  refine .intro new ?_ (fun other outside old => ?_) (fills.edited.kernel.trans extended.kernel)
  · rw [fills.edited.sameAllocator]
    exact extended.grabs
  · refine (fills.edited.others other ?_ List.not_mem_nil).trans (extended.others other outside old)
    rw [extended.tables]
    exact not_or.mpr ⟨old, outside⟩

theorem LoadedPage.maps (loaded : LoadedPage root origin written before page frame) {another : Nat}
    (sound : before.Sound root) (maps : Maps root other another userPage userPage before after) :
    LoadedPage root origin written after page frame := by
  obtain ⟨_, taken, outside⟩ := maps.outside sound loaded.taken loaded.outside
  obtain ⟨new, grabs, others, _⟩ := maps.confined sound
  refine ⟨loaded.fresh, loaded.bounded, loaded.entered.maps loaded.bounded sound maps, outside, taken,
    fun addr inside => ?_⟩
  have same : after.memory frame = before.memory frame :=
    others frame loaded.outside fun listed => loaded.taken (grabs.available listed)
  rw [loadByte, same]
  exact loaded.bytes addr inside

theorem Loaded.maps {frameAllocator : PageFrameAllocator} (loaded : Loaded root origin mapped written info)
    (code : CodePage page) (fresh : page ∉ mapped) (takes : info.frameAllocator.Takes frame frameAllocator)
    (maps : Maps root page frame userPage userPage { info with frameAllocator } after) :
    Loaded root origin (page :: mapped) written after := by
  have sound : Sound { info with frameAllocator } root := loaded.sound.takes takes
  obtain ⟨_, _, _, _, fills⟩ := maps.fills sound
  obtain ⟨new, grabs, others, _⟩ := maps.confined sound
  have outside := loaded.sound.fresh takes
  have taken := takes.not_available_self
  obtain ⟨still, shut, apart⟩ := maps.outside sound taken outside
  have unused : info.frameAllocator.frameUsage frame = false := takes.available.2
  -- pages elsewhere were there before
  have origin_of : ∀ {path index number}, PageAt after.memory root path index number →
      ¬ (path = page.path ∧ index = page.p1Index) → PageAt info.memory root path index number := by
    intro path index number there aside
    have same := maps.others sound there.last aside
    exact ⟨there.last, same ▸ there.user, same ▸ there.addr⟩
  have here : ∀ {number}, PageAt after.memory root page.path page.p1Index number → number = frame := by
    intro number there
    rw [← there.addr, (maps.leaf sound).1, (userPage_setAddr takes.bounded).2]
  have old : ∀ other ∈ mapped, ∃ number, LoadedPage root origin written { info with frameAllocator } other number := by
    intro other listed
    obtain ⟨number, kept⟩ := loaded.pages other listed
    exact ⟨number, kept.fresh, kept.bounded, ⟨kept.entered.wide, kept.entered.leaf⟩, kept.outside,
      takes.not_available kept.taken, kept.bytes⟩
  refine ⟨still, ?_, ?_, ?_, ?_, ?_, ?_, ?_, ?_⟩
  · intro other listed
    rcases List.mem_cons.mp listed with rfl | listed
    · exact code
    · exact loaded.codes other listed
  · intro other listed
    rcases List.mem_cons.mp listed with rfl | listed
    · refine ⟨frame, ?_, takes.bounded, ⟨(maps.wide sound).1, (maps.leaf sound).1⟩, apart, shut, fun addr inside => ?_⟩
      · by_contra gone
        exact loaded.shut frame gone takes.available
      · have blank : written addr = none := by
          by_contra some_
          obtain ⟨value, copied⟩ := Option.ne_none_iff_exists'.mp some_
          exact fresh (inside ▸ loaded.within addr value copied)
        have same : after.memory frame = info.memory frame :=
          others frame outside fun listed => taken (grabs.available listed)
        rw [blank, loadByte, same, loaded.intact frame takes.available]
        rfl
    · obtain ⟨number, kept⟩ := old other listed
      exact ⟨number, kept.maps sound maps⟩
  · intro path index number there
    refine (grabs.frameUsage number).mpr (.inr ((takes.frameUsage number).mpr ?_))
    by_cases at_page : path = page.path ∧ index = page.p1Index
    · obtain ⟨rfl, rfl⟩ := at_page
      exact .inl (here there)
    · exact .inr (loaded.used _ _ _ (origin_of there at_page))
  · intro other listed path index number there twin
    by_cases same : other = page
    · subst same
      obtain rfl := here there
      by_contra aside
      exact absurd (loaded.used _ _ _ (origin_of twin aside)) (by simp [unused])
    · have known := (List.mem_cons.mp listed).resolve_left same
      have apart : ¬ (other.path = page.path ∧ other.p1Index = page.p1Index) :=
        fun both => same (code.eq_of_entry (loaded.codes other known) both.1 both.2)
      have before := origin_of there apart
      by_cases at_page : path = page.path ∧ index = page.p1Index
      · obtain ⟨rfl, rfl⟩ := at_page
        obtain rfl := here twin
        exact absurd (loaded.used _ _ _ before) (by simp [unused])
      · exact loaded.lone other known path index number before (origin_of twin at_page)
  · intro other twin new
    rw [List.mem_cons, not_or] at new
    have clear := loaded.unmapped other twin new.2
    have same : Unmapped root { info with frameAllocator } other := ⟨clear.passable, clear.unused⟩
    exact same.maps sound maps fun both => new.1 (code.eq_of_entry twin both.1 both.2)
  · intro addr value copied
    exact List.mem_cons_of_mem _ (loaded.within addr value copied)
  · intro number gone
    exact grabs.not_available (takes.not_available (loaded.shut number gone))
  · intro number free
    have before : info.frameAllocator.Available number := by
      by_contra gone
      exact grabs.not_available (takes.not_available gone) free
    refine (others number (fun listed => loaded.sound.taken number listed before) fun listed => ?_).trans
      (loaded.intact number before)
    exact grabs.not_available_of_mem listed free

theorem Loaded.congr (loaded : Loaded root origin mapped written info) (same : ∀ page, page ∈ pages ↔ page ∈ mapped) :
    Loaded root origin pages written info where
  sound := loaded.sound
  codes page listed := loaded.codes page ((same page).mp listed)
  pages page listed := loaded.pages page ((same page).mp listed)
  used := loaded.used
  lone page listed := loaded.lone page ((same page).mp listed)
  unmapped page code fresh := loaded.unmapped page code fun listed => fresh ((same page).mpr listed)
  within addr value copied := (same _).mpr (loaded.within addr value copied)
  shut := loaded.shut
  intact := loaded.intact

section Mapping

variable (mapper : CompleteMapper)

theorem Loaded.mapsNext (loaded : Loaded root origin mapped written info) (code : CodePage page) (new : page ∉ mapped)
    (ready : info.frameAllocator.CursorReady (4 + count)) :
    ∃ middle, Loaded root origin (page :: mapped) written middle ∧ middle.frameAllocator.CursorReady count ∧
      ∀ pages, allocateEach mapper root userPage (page :: pages) info =
        allocateEach mapper root userPage pages middle := by
  have enough : info.frameAllocator.CursorReady (3 + count + 1) := ready.le (by omega)
  obtain ⟨frame, frameAllocator, takes, onward⟩ := enough.takes
  have clear := loaded.unmapped page code new
  have sound := loaded.sound.takes takes
  obtain ⟨middle, mapped_, left⟩ := mapper.succeeds tableFlags_userPage (by decide) sound
    ⟨clear.passable, clear.unused⟩ onward frame
  have allocated : info.frameAllocator.allocateFrame = .ok (some frame, frameAllocator) := takes
  have stepped : mapper.mapTo { info with frameAllocator } root page frame userPage = .ok (.ok (), middle) :=
    mapped_
  refine ⟨middle, loaded.maps code new takes (mapper.mapped sound tableFlags_userPage mapped_), left, fun pages => ?_⟩
  simp only [allocateEach, allocated, stepped]

theorem Loaded.allocateEach (loaded : Loaded root origin mapped written info) (distinct : pages.Nodup)
    (codes : ∀ page ∈ pages, CodePage page) (fresh : ∀ page ∈ pages, page ∉ mapped)
    (ready : info.frameAllocator.CursorReady (4 * pages.length + count)) :
    ∃ after, allocateEach mapper root userPage pages info = .ok (.ok (), after) ∧
      Loaded root origin (mapped ++ pages) written after ∧ after.frameAllocator.CursorReady count := by
  induction pages generalizing info mapped with
  | nil => exact ⟨info, rfl, by rwa [List.append_nil], by simpa using ready⟩
  | cons page pages ih =>
    obtain ⟨first, distinct⟩ := List.nodup_cons.mp distinct
    have enough : info.frameAllocator.CursorReady (4 + (4 * pages.length + count)) :=
      ready.le (by rw [List.length_cons]; omega)
    obtain ⟨middle, more, left, turn⟩ := loaded.mapsNext mapper (codes page (List.mem_cons_self ..))
      (fresh page (List.mem_cons_self ..)) enough
    have others : ∀ other ∈ pages, other ∉ page :: mapped := by
      rintro other listed again
      rcases List.mem_cons.mp again with rfl | again
      · exact first listed
      · exact fresh other (List.mem_cons_of_mem _ listed) again
    obtain ⟨after, rest, all, last⟩ := ih more distinct (fun other listed => codes other (List.mem_cons_of_mem _ listed))
      others left
    refine ⟨after, by rw [turn, rest], all.congr fun other => ?_, last⟩
    simp only [List.mem_append, List.mem_cons]
    tauto

theorem Loaded.allocateEach_refused (loaded : Loaded root origin mapped written info)
    (codes : ∀ page ∈ pages, CodePage page) (listed : page ∈ pages) (again : page ∈ mapped)
    (ready : info.frameAllocator.CursorReady (4 * pages.length)) :
    ∃ error after, MemoryInfo.allocateEach mapper root userPage pages info = .ok (.error error, after) := by
  induction pages generalizing info mapped with
  | nil => cases listed
  | cons first pages ih =>
    have enough : info.frameAllocator.CursorReady (4 + 4 * pages.length) :=
      ready.le (by rw [List.length_cons]; omega)
    by_cases known : first ∈ mapped
    · obtain ⟨number, kept⟩ := loaded.pages first known
      obtain ⟨frame, frameAllocator, takes, _⟩ := (enough.le (by omega : 0 + 1 ≤ _)).takes
      have allocated : info.frameAllocator.allocateFrame = .ok (some frame, frameAllocator) := takes
      have refused : mapper.mapTo { info with frameAllocator } root first frame userPage =
          .ok (.error .pageAlreadyMapped, { info with frameAllocator }) :=
        mapper.occupied ⟨kept.entered.wide, kept.entered.leaf⟩ kept.bounded
      exact ⟨.pageAlreadyMapped, { info with frameAllocator }, by simp only [MemoryInfo.allocateEach, allocated, refused]⟩
    · obtain ⟨middle, more, left, turn⟩ := loaded.mapsNext mapper (codes first (List.mem_cons_self ..)) known enough
      have later : page ∈ pages := by
        refine (List.mem_cons.mp listed).resolve_left ?_
        rintro rfl
        exact known again
      obtain ⟨error, after, failed⟩ := ih more (fun other listed => codes other (List.mem_cons_of_mem _ listed))
        later (List.mem_cons_of_mem _ again) left
      exact ⟨error, after, by rw [turn, failed]⟩

end Mapping

section Agree

variable {memory : Memory Nat 512 PageTableEntry}
variable (tables : ∀ table ∈ tableSet 4 info.memory root, memory table = info.memory table)

include tables

/-- What the tree looks like depends on its tables only. -/
theorem tableSet_agree : tableSet 4 memory root = tableSet 4 info.memory root :=
  tableSet_congr fun _ short => tableAt_frame tables short.le

theorem Sound.agree (sound : info.Sound root) : Sound { info with memory } root where
  unshared := sound.unshared.congr fun _ short => tableAt_frame tables short.le
  taken table listed := sound.taken table (tableSet_agree tables ▸ listed)

theorem PageAt.agree {path : List (Fin 512)} {index : Fin 512} (there : PageAt memory root path index frame) :
    PageAt info.memory root path index frame := by
  have same : entryAt memory root path index = entryAt info.memory root path index :=
    entryAt_frame tables (by rw [there.last]; decide)
  exact ⟨there.last, same ▸ there.user, same ▸ there.addr⟩

theorem Unmapped.agree (clear : Unmapped root info page) : Unmapped root { info with memory } page := by
  refine ⟨fun above index before => ?_, ?_⟩
  · have short : (above ++ [index]).length ≤ 3 := before.length_le
    rw [List.length_append, List.length_singleton] at short
    rw [entryAt_frame tables (by omega)]
    exact clear.passable above index before
  · rw [entryAt_frame tables page.path_lt]
    exact clear.unused

theorem Entered.agree (entered : Entered root page frame info) : Entered root page frame { info with memory } := by
  refine ⟨fun stem index before => ?_, ?_⟩
  · have short : (stem ++ [index]).length ≤ 3 := before.length_le
    rw [List.length_append, List.length_singleton] at short
    rw [entryAt_frame tables (by omega)]
    exact entered.wide stem index before
  · rw [entryAt_frame tables page.path_lt]
    exact entered.leaf

end Agree

theorem Fresh.content {memory : Memory Nat 512 PageTableEntry} (fresh : Fresh root info)
    (kept : ∀ frame, ¬ info.frameAllocator.Available frame → memory frame = info.memory frame) :
    Fresh root { info with memory } := by
  have tables : ∀ table ∈ tableSet 4 info.memory root, memory table = info.memory table :=
    fun table listed => kept table (fresh.sound.taken table listed)
  exact ⟨fresh.sound.agree tables, fun path index frame there => fresh.used path index frame (there.agree tables),
    fun page code => (fresh.unmapped page code).agree tables⟩

theorem Loaded.stores {memory : Memory Nat 512 PageTableEntry} {copied : VirtAddr → Option (BitVec 8)}
    (loaded : Loaded root origin mapped written info)
    (tables : ∀ table ∈ tableSet 4 info.memory root, memory table = info.memory table)
    (free : ∀ frame, info.frameAllocator.Available frame → memory frame = info.memory frame)
    (within : ∀ addr value, copied addr = some value → addr / 4096 * 4096 ∈ mapped)
    (bytes : ∀ page ∈ mapped, ∀ frame, LoadedPage root origin written info page frame → ∀ addr,
      addr / 4096 * 4096 = page → loadByte memory frame addr = (copied addr).getD (loadByte origin.memory frame addr)) :
    Loaded root origin mapped copied { info with memory } := by
  refine ⟨loaded.sound.agree tables, loaded.codes, fun page listed => ?_,
    fun path index frame there => loaded.used path index frame (there.agree tables),
    fun page listed path index frame there twin =>
      loaded.lone page listed path index frame (there.agree tables) (twin.agree tables),
    fun page code fresh => (loaded.unmapped page code fresh).agree tables, within, loaded.shut,
    fun frame open_ => (free frame open_).trans (loaded.intact frame open_)⟩
  obtain ⟨frame, kept⟩ := loaded.pages page listed
  refine ⟨frame, kept.fresh, kept.bounded, kept.entered.agree tables, ?_, kept.taken, bytes page listed frame kept⟩
  rw [tableSet_agree tables]
  exact kept.outside

theorem LoadedPage.pageAt (loaded : LoadedPage root origin written info page frame) :
    PageAt info.memory root page.path page.p1Index frame := by
  obtain ⟨flags, addr⟩ := userPage_setAddr loaded.bounded
  refine ⟨rfl, ?_, ?_⟩
  · rw [loaded.entered.leaf, flags]
    decide
  · rw [loaded.entered.leaf, addr]

theorem Loaded.storeSupervisor {addr : Nat} (loaded : Loaded root origin mapped written info)
    (listed : addr / 4096 * 4096 ∈ mapped) (value : BitVec 8) :
    ∃ memory, Zephyr.storeSupervisor info.memory root addr value = .ok memory ∧
      Loaded root origin mapped (Function.update written addr (some value)) { info with memory } := by
  have code := loaded.codes _ listed
  obtain ⟨frame, kept⟩ := loaded.pages _ listed
  obtain ⟨walked, backs, ends⟩ := kept.entered.backs kept.bounded kept.outside
  have backs : Zephyr.Backs info.memory root addr walked := backs.of_page rfl
  have canonical : Canonical addr := by
    obtain ⟨_, _, most⟩ : _ ∧ _ ∧ addr / 4096 * 4096 < (0x90000000 : Nat) := code
    exact .inl (by omega)
  have writes : (walked.used.all fun spot => (info.memory spot.1 spot.2).flags.contains writable) = true := by
    refine List.all_eq_true.mpr fun spot used => ?_
    have rights := backs.rights spot used
    rw [userPage, contains_or, contains_or] at rights
    exact rights.1.2
  refine ⟨storeByte info.memory frame addr value, ?_, ?_⟩
  · have found : lookup info.memory root (VirtAddr.indices addr) = some walked := backs.found
    simp only [Zephyr.storeSupervisor, if_pos canonical, found, writes, if_true, ends]
  -- a frame belongs to one page
  have alone : ∀ other ∈ mapped, LoadedPage root origin written info other frame → other = addr / 4096 * 4096 := by
    intro other twin also
    obtain ⟨path, index⟩ := loaded.lone _ listed _ _ frame kept.pageAt also.pageAt
    exact code.eq_of_entry (loaded.codes other twin) path index
  refine loaded.stores (fun table member => write_table _ _ _ ?_) (fun number open_ => write_table _ _ _ ?_)
    (fun (place : Nat) copied updated => ?_) fun other twin number also (place : Nat) inside => ?_
  · rintro rfl
    exact kept.outside member
  · rintro rfl
    exact kept.taken open_
  · by_cases same : place = addr
    · rw [same]
      exact listed
    · rw [Function.update_of_ne same] at updated
      exact loaded.within place copied updated
  · by_cases same : number = frame
    · subst same
      have page := alone other twin also
      by_cases here : place = addr
      · subst here
        rw [Function.update_self, loadByte_storeByte_same]
        rfl
      · rw [Function.update_of_ne here, ← also.bytes place inside]
        have numbers : place / 4096 * 4096 = addr / 4096 * 4096 := inside.trans page
        exact loadByte_storeByte_ne (by omega : addr / 4096 = place / 4096) (Ne.symm here)
    · have differs : place ≠ addr := by
        rintro rfl
        subst inside
        have first := kept.pageAt.addr
        rw [also.pageAt.addr] at first
        exact same first
      rw [Function.update_of_ne differs, ← also.bytes place inside, loadByte, storeByte, write_table _ _ _ same, loadByte]

/-- The bytes copied once `data` is, from `start` on. -/
def overwrite (written : VirtAddr → Option (BitVec 8)) : Nat → List (BitVec 8) → VirtAddr → Option (BitVec 8)
  | _, [] => written
  | start, value :: rest => overwrite (Function.update written start (some value)) (start + 1) rest

theorem Loaded.storeData {start : Nat} {data : List (BitVec 8)} (loaded : Loaded root origin mapped written info)
    (listed : ∀ index < data.length, (start + index) / 4096 * 4096 ∈ mapped) :
    ∃ memory, Zephyr.storeData root start data info.memory = .ok memory ∧
      Loaded root origin mapped (overwrite written start data) { info with memory } := by
  induction data generalizing start written info with
  | nil => exact ⟨info.memory, rfl, loaded⟩
  | cons value rest ih =>
    have here := listed 0 (Nat.succ_pos _)
    have small : start % 2 ^ 64 = start := by
      obtain ⟨_, _, most⟩ : _ ∧ _ ∧ (start + 0) / 4096 * 4096 < (0x90000000 : Nat) := loaded.codes _ here
      omega
    obtain ⟨middle, stored, more⟩ := loaded.storeSupervisor here value
    have onward : ∀ index < rest.length, (start + 1 + index) / 4096 * 4096 ∈ mapped := by
      intro index inside
      have next := listed (index + 1) (Nat.succ_lt_succ inside)
      rwa [Nat.add_comm index, ← Nat.add_assoc] at next
    obtain ⟨memory, finished, last⟩ := ih more onward
    refine ⟨memory, ?_, last⟩
    rw [Zephyr.storeData, small]
    simp only [Nat.add_zero] at stored
    simp only [stored, finished]

end Loading

section Segments

variable {root count : Nat} {origin info middle after : MemoryInfo} {mapped : List VirtAddr} {segment : Segment}
variable {written : VirtAddr → Option (BitVec 8)} {data : List (BitVec 8)}

/-- The pages of a segment in range are mapped if none of them is yet, and refused otherwise. -/
theorem Loaded.allocatePages (mapper : CompleteMapper) (loaded : Loaded root origin mapped written info)
    (addressable : segment.Addressable) (inRange : segment.InRange)
    (nonzero : segment.finish ≠ 0) (ready : info.frameAllocator.CursorReady (segment.frames + count)) :
    (∃ page ∈ segment.pages, page ∈ mapped) ∧ (∃ error after,
        info.allocatePages mapper root segment.start segment.size.toNat userPage = .ok (.error error, after)) ∨
      (∀ page ∈ segment.pages, page ∉ mapped) ∧ ∃ after,
        info.allocatePages mapper root segment.start segment.size.toNat userPage = .ok (.ok (), after) ∧
        Loaded root origin (mapped ++ segment.pages) written after ∧ after.frameAllocator.CursorReady count := by
  have listed : pagesOf segment.start segment.size.toNat = .ok segment.pages :=
    Segment.pagesOf_eq addressable inRange nonzero
  have codes : ∀ page ∈ segment.pages, CodePage page := fun page => Segment.codePage inRange
  rw [Segment.frames, if_pos inRange] at ready
  simp only [MemoryInfo.allocatePages, listed]
  by_cases fresh : ∀ page ∈ segment.pages, page ∉ mapped
  · exact .inr ⟨fresh, loaded.allocateEach mapper Segment.nodup_pages codes fresh ready⟩
  · push Not at fresh
    obtain ⟨page, member, again⟩ := fresh
    exact .inl ⟨⟨page, member, again⟩, loaded.allocateEach_refused mapper codes member again (ready.le (by omega))⟩

end Segments

end MemoryInfo

end Zephyr
