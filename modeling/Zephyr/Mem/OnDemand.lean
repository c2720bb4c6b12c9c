import Zephyr.Mem.Calls
import Zephyr.Mem.Hardware
import Zephyr.Mem.OffsetPageTable

/-! The on-demand pages of a user heap as memory: what a user thread reads back after
`create_user_ondemand_pages`. All pages of a range are entered with one frame, and
all of them writable. -/

namespace Zephyr

open Radix PageTableFlags Transition

/-- The last value written to an address. -/
def lastWrite (events : List UserEvent) (addr : VirtAddr) : Option (BitVec 8) :=
  events.foldl (fun last event =>
    match event with
    | .write other value => if other = addr then some value else last
    | _ => last) none

/-- Every read returns the last value written to its address, if there is one. -/
def Coherent (events : List UserEvent) : Prop :=
  ∀ earlier addr value, earlier ++ [.read addr value] <+: events →
    ∀ written, lastWrite earlier addr = some written → value = written

structure BehavesAsMemory (root : Nat) (pages : List VirtAddr) (info : MemoryInfo) : Prop where
  coherent : ∀ {events after}, Run (UserStep root) info events after →
    (∀ event ∈ events, event.addr / 4096 * 4096 ∈ pages) → Coherent events
  unaliased : ∀ {events after}, Run (UserStep root) info events after →
    (∀ event ∈ events, event.addr / 4096 * 4096 ∈ pages) →
    ∀ page ∈ pages, ∀ other ∈ pages, page ≠ other →
      (entryAt after.memory root page.path page.p1Index).flags.contains (present ||| writable) = true →
      (entryAt after.memory root other.path other.p1Index).flags.contains (present ||| writable) = true →
      (entryAt after.memory root page.path page.p1Index).addr ≠
        (entryAt after.memory root other.path other.p1Index).addr

section Events

variable {events : List UserEvent} {event : UserEvent} {addr : VirtAddr} {value : BitVec 8}

theorem lastWrite_concat : lastWrite (events ++ [event]) addr =
    match event with
    | .write other value => if other = addr then some value else lastWrite events addr
    | _ => lastWrite events addr := by
  rw [lastWrite, List.foldl_append]
  rfl

theorem coherent_concat (coherent : Coherent events)
    (last : ∀ addr value, event = .read addr value →
      ∀ written, lastWrite events addr = some written → value = written) : Coherent (events ++ [event]) := by
  intro earlier addr value listed written found
  rcases List.prefix_concat_iff.mp listed with whole | listed
  · obtain ⟨rfl, same⟩ := List.append_inj' whole rfl
    cases same
    exact last addr value rfl written found
  · exact coherent earlier addr value listed written found

end Events

namespace VirtAddr

/-- A page's addresses share its way through the tables. -/
theorem indices_page (addr : Nat) : indices (addr / 4096 * 4096) = indices addr := by
  have first : addr / 4096 * 4096 / 2 ^ 12 = addr / 2 ^ 12 := by omega
  have second : addr / 4096 * 4096 / 2 ^ 21 = addr / 2 ^ 21 := by omega
  have third : addr / 4096 * 4096 / 2 ^ 30 = addr / 2 ^ 30 := by omega
  have fourth : addr / 4096 * 4096 / 2 ^ 39 = addr / 2 ^ 39 := by omega
  simp only [indices, path, p1Index, p2Index, p3Index, p4Index, first, second, third, fourth]

end VirtAddr

section Accesses

variable {memory : Memory Nat 512 PageTableEntry} {root number : Nat} {info after : MemoryInfo}
variable {walked again : Walked} {page other : VirtAddr} {events : List UserEvent}

theorem Backs.of_page {addr : Nat} (backs : Backs memory root page walked) (inside : addr / 4096 * 4096 = page) :
    Backs memory root addr walked where
  found := by
    rw [← VirtAddr.indices_page addr, inside]
    exact backs.found
  rights := backs.rights
  apart := backs.apart

theorem Backs.holds (backs : Backs info.memory root page walked)
    (run : Run (UserStep root) info events after) (inside : ∀ event ∈ events, event.addr / 4096 * 4096 = page) :
    Backs after.memory root page walked ∧ Coherent events ∧
      ∀ addr : Nat, addr / 4096 * 4096 = page → ∀ written, lastWrite events addr = some written →
        loadByte after.memory walked.frame addr = written := by
  induction run with
  | nil =>
    refine ⟨backs, fun earlier addr value listed => ?_, fun _ _ _ found => by cases found⟩
    simp at listed
  | @snoc events middle final event earlier last ih =>
    obtain ⟨backed, coherent, stored⟩ := ih fun event listed => inside event (List.mem_append_left _ listed)
    have here : event.addr / 4096 * 4096 = page :=
      inside event (List.mem_append_right _ (List.mem_singleton_self event))
    have translated := (backed.of_page here).translate
    have kept : ∀ access addr, loadByte (walked.touch access middle.memory) walked.frame addr =
        loadByte middle.memory walked.frame addr := loadByte_touch backed.apart
    cases last with
    | @read addr other found =>
      cases (translated .read).symm.trans found
      refine ⟨backed.touch walked .read, coherent_concat coherent ?_, fun place aside written => ?_⟩
      · intro place value same written recorded
        cases same
        exact (kept .read addr).trans (stored addr here written recorded)
      · rw [lastWrite_concat]
        exact fun recorded => (kept .read place).trans (stored place aside written recorded)
    | @write addr value other found =>
      cases (translated .write).symm.trans found
      refine ⟨(backed.touch walked .write).storeByte addr value,
        coherent_concat coherent (fun _ _ same => by cases same), fun place aside written => ?_⟩
      rw [lastWrite_concat]
      change (if addr = place then some value else lastWrite events place) = some written → _
      split
      · rename_i same
        subst same
        rintro ⟨⟩
        exact loadByte_storeByte_same
      · rename_i differs
        intro recorded
        have page_eq : addr / 4096 = place / 4096 :=
          Nat.eq_of_mul_eq_mul_right (by decide : 0 < 4096) (here.trans aside.symm)
        exact (loadByte_storeByte_ne page_eq differs).trans
          ((kept .write place).trans (stored place aside written recorded))
    | @fault _ access addr errorCode faulted handled =>
      cases (translated access).symm.trans faulted

theorem Backs.read (backs : Backs info.memory root page walked) :
    UserStep root info (.read page (loadByte info.memory walked.frame page)) (info.afterRead walked) := by
  have step := UserStep.read (backs.translate .read)
  rwa [MemoryInfo.afterRead, loadByte_touch backs.apart] at step

theorem loadByte_page (memory : Memory Nat 512 PageTableEntry) (frame : Nat) {page other : Nat}
    (offset : page % 4096 = other % 4096) : loadByte memory frame page = loadByte memory frame other := by
  have word : Fin.ofNat 512 (page / 8) = Fin.ofNat 512 (other / 8) := by
    refine Fin.ext ?_
    rw [Fin.val_ofNat, Fin.val_ofNat]
    omega
  have lane : page % 8 = other % 8 := by omega
  rw [loadByte, loadByte, word, lane]

theorem Backs.afterWrite (backs : Backs info.memory root page walked) (same : again.frame = walked.frame)
    (place : VirtAddr) (value : BitVec 8) :
    Backs (info.afterWrite again place value).memory root page walked := by
  rw [MemoryInfo.afterWrite, same]
  exact (backs.touch again .write).storeByte place value

theorem Backs.alias {other : VirtAddr} (offset : other % 4096 = page % 4096)
    (backs : Backs info.memory root page walked) (also : Backs info.memory root other again)
    (same : again.frame = walked.frame) :
    ∃ after, Run (UserStep root) info [.write other 0, .write page 1, .read other 1] after := by
  have later := backs.afterWrite same other 0
  have last := (also.afterWrite rfl other 0).afterWrite same.symm page 1
  have step := last.read
  rw [loadByte_page _ _ offset, same, MemoryInfo.afterWrite, loadByte_storeByte_same] at step
  exact ⟨_, .cons (.write (also.translate .write)) (.cons (.write (later.translate .write)) (.cons step .nil))⟩

theorem not_coherent_alias {page other : VirtAddr} (differs : page ≠ other) :
    ¬ Coherent [.write other 0, .write page 1, .read other 1] := by
  intro coherent
  have wrong := coherent [.write other 0, .write page 1] other 1 (List.prefix_refl _) 0 (by simp [lastWrite, differs])
  cases wrong

end Accesses

namespace MemoryInfo

structure Entered (root : Nat) (page : VirtAddr) (frame : Nat) (info : MemoryInfo) : Prop where
  wide : ∀ stem index, stem ++ [index] <+: page.path →
    (entryAt info.memory root stem index).flags.contains userPage = true
  leaf : entryAt info.memory root page.path page.p1Index = .setAddr frame userPage

section Create

variable {mapper : Mapper} {root frame : Nat} {page other : VirtAddr} {pages : List VirtAddr}
variable {before after : MemoryInfo}

theorem Entered.maps {another : Nat} (entered : Entered root page frame before) (bounded : frame < frameUsageLen)
    (sound : before.Sound root) (maps : Maps root other another userPage userPage before after) :
    Entered root page frame after where
  wide stem index prefixed := by
    have short : (stem ++ [index]).length ≤ 3 := prefixed.length_le
    rw [List.length_append, List.length_singleton] at short
    exact (maps.wide sound).2 stem index (by omega) (entered.wide stem index prefixed)
  leaf := by
    have used : entryAt before.memory root page.path page.p1Index ≠ 0 := by
      rw [entered.leaf]
      exact PageTableEntry.setAddr_ne_zero (lt_of_frameUsageLen bounded) tableFlags_userPage.clean
        tableFlags_userPage.nonzero
    rw [(maps.leaf sound).2 _ _ rfl used, entered.leaf]

theorem mapEach_entered (bounded : frame < frameUsageLen) (sound : before.Sound root)
    (taken : ¬ before.frameAllocator.Available frame) (outside : frame ∉ tableSet 4 before.memory root)
    (returned : mapEach mapper root frame pages before = .ok (.ok (), after)) :
    frame ∉ tableSet 4 after.memory root ∧ (∀ page ∈ pages, Entered root page frame after) ∧
      ∀ page, Entered root page frame before → Entered root page frame after := by
  induction pages generalizing before with
  | nil =>
    cases returned
    exact ⟨outside, fun _ listed => absurd listed List.not_mem_nil, fun _ => id⟩
  | cons page pages ih =>
    rw [mapEach] at returned
    split at returned
    · cases returned
    · cases returned
    · rename_i middle mapped
      have maps := mapper.mapped sound tableFlags_userPage mapped
      obtain ⟨still, held, apart⟩ := maps.outside sound taken outside
      obtain ⟨away, rest, kept⟩ := ih still held apart returned
      have here : Entered root page frame middle := ⟨(maps.wide sound).1, (maps.leaf sound).1⟩
      refine ⟨away, fun other listed => ?_, fun other entered => kept other (entered.maps bounded sound maps)⟩
      rcases List.mem_cons.mp listed with rfl | listed
      · exact kept other here
      · exact rest other listed

theorem Entered.backs (entered : Entered root page frame after) (bounded : frame < frameUsageLen)
    (outside : frame ∉ tableSet 4 after.memory root) :
    ∃ walked, Backs after.memory root page walked ∧ walked.frame = frame := by
  obtain ⟨flags, addr⟩ := userPage_setAddr bounded
  have used : entryAt after.memory root page.path page.p1Index ≠ 0 := by
    rw [entered.leaf]
    exact PageTableEntry.setAddr_ne_zero (lt_of_frameUsageLen bounded) tableFlags_userPage.clean
      tableFlags_userPage.nonzero
  obtain ⟨table, found, same⟩ := tableAt_of_entryAt_ne used
  have leaf : after.memory table page.p1Index = .setAddr frame userPage := same.symm.trans entered.leaf
  obtain ⟨walked, backs, ends⟩ := backs_of_tableAt found entered.wide
    (by rw [leaf, flags]; decide) (by rwa [leaf, addr])
  exact ⟨walked, backs, by rw [ends, leaf, addr]⟩

theorem createUserOndemandPages_backs {start size : Nat} (sound : before.Sound root)
    (listed : pagesOf start size = .ok pages)
    (returned : before.createUserOndemandPages mapper root start size = .ok (.ok (), after)) :
    ∃ frame, ∀ page ∈ pages, ∃ walked, Backs after.memory root page walked ∧ walked.frame = frame := by
  obtain ⟨frame, frameAllocator, middle, takes, mapped, updated⟩ := createUserOndemandPages_ok listed returned
  obtain ⟨count, range⟩ := pagesOf_ok listed
  obtain ⟨away, entered, _⟩ := mapEach_entered takes.bounded (sound.takes takes) takes.not_available_self
    (sound.fresh takes) mapped
  refine ⟨frame, fun page inside => ?_⟩
  have first : VirtAddr.newTruncate (start / 4096 * 4096) ∈ pages := by
    rw [range] at inside ⊢
    obtain ⟨number, inside, _⟩ := List.mem_map.mp inside
    refine List.mem_map.mpr ⟨start / 4096, ?_, rfl⟩
    rw [List.mem_range'_1] at inside ⊢
    omega
  have leaf := (entered _ first).leaf
  rw [VirtAddr.path_newTruncate, VirtAddr.p1Index_newTruncate] at leaf
  obtain rfl := updateFlags_same takes.bounded leaf updated
  exact (entered page inside).backs takes.bounded away

/-- On-demand pages behave as memory exactly when there is at most one of them: all of
them are writable from the start, with one frame. -/
theorem ondemand_pages_behave_iff (mapper : Mapper) {info after : MemoryInfo} {root start size : Nat}
    {pages : List VirtAddr} (sound : info.Sound root) (listed : pagesOf start size = .ok pages)
    (created : info.createUserOndemandPages mapper root start size = .ok (.ok (), after)) :
    BehavesAsMemory root pages after ↔ pages.length ≤ 1 := by
  obtain ⟨frame, backed⟩ := createUserOndemandPages_backs sound listed created
  constructor
  · intro behaves
    by_contra many
    obtain ⟨count, rfl⟩ := pagesOf_ok listed
    rw [List.length_map, List.length_range'] at many
    have member : ∀ step, step < count → VirtAddr.newTruncate ((start / 4096 + step) * 4096) ∈
        (List.range' (start / 4096) count).map fun number => VirtAddr.newTruncate (number * 4096) := by
      intro step small
      refine List.mem_map.mpr ⟨start / 4096 + step, ?_, rfl⟩
      rw [List.mem_range'_1]
      omega
    obtain ⟨walked, backs, ends⟩ := backed _ (member 0 (by omega))
    obtain ⟨again, also, too⟩ := backed _ (member 1 (by omega))
    have offset : ∀ step, VirtAddr.newTruncate ((start / 4096 + step) * 4096) % 4096 = 0 := by
      intro step
      have page := VirtAddr.newTruncate_page (start / 4096 + step)
      omega
    obtain ⟨final, run⟩ := backs.alias ((offset 1).trans (offset 0).symm) also (too.trans ends.symm)
    refine not_coherent_alias ?_ (behaves.coherent run fun event occurs => ?_)
    · intro same
      have bits : (start / 4096 + 0) * 4096 % 2 ^ 48 = (start / 4096 + 1) * 4096 % 2 ^ 48 := by
        rw [← VirtAddr.newTruncate_mod, same, VirtAddr.newTruncate_mod]
      omega
    · simp only [List.mem_cons, List.not_mem_nil, or_false] at occurs
      rcases occurs with rfl | rfl | rfl
      · exact (VirtAddr.newTruncate_page _).symm ▸ member 1 (by omega)
      · exact (VirtAddr.newTruncate_page _).symm ▸ member 0 (by omega)
      · exact (VirtAddr.newTruncate_page _).symm ▸ member 1 (by omega)
  · intro few
    match pages, few, backed with
    | [], _, _ =>
      refine ⟨fun {events _} _ inside earlier addr value prefixed => ?_, fun _ _ page listed => nomatch listed⟩
      have occurs := prefixed.subset (List.mem_append_right earlier (List.mem_singleton_self _))
      exact absurd (inside _ occurs) List.not_mem_nil
    | [page], _, backed =>
      obtain ⟨walked, backs, _⟩ := backed page (List.mem_singleton_self page)
      refine ⟨fun run inside => ?_, fun _ _ one first other second differs => ?_⟩
      · exact (backs.holds run fun event occurs => List.mem_singleton.mp (inside event occurs)).2.1
      · rw [List.mem_singleton] at first second
        exact absurd (first.trans second.symm) differs

end Create

section Examples

private def heapInfo : MemoryInfo := emptyInfo (.init [⟨0x10000, 0x20000, .usable⟩])

theorem sound_emptyInfo {frameAllocator : PageFrameAllocator} (outside : 1 ∉ frameAllocator.usableFrames) :
    (emptyInfo frameAllocator).Sound 1 where
  unshared := unshared_of_nodup (by rw [tables_emptyInfo]; exact List.nodup_singleton 1)
  taken := (wellFormed_emptyInfo outside).taken

private theorem sound_heapInfo : heapInfo.Sound 1 := sound_emptyInfo (by decide +kernel)

private def createsHeap (size : Nat) : Bool :=
  match heapInfo.createUserOndemandPages offsetPageTable 1 0x5000000 size with
  | .ok (.ok (), _) => true
  | _ => false

private theorem exists_of_createsHeap (size : Nat) (created : createsHeap size = true) :
    ∃ after, heapInfo.createUserOndemandPages offsetPageTable 1 0x5000000 size = .ok (.ok (), after) := by
  unfold createsHeap at created
  split at created
  · exact ⟨_, by assumption⟩
  · cases created

/-- One on-demand page. -/
theorem ondemand_pages_behave_iff_page : ∃ after,
    heapInfo.createUserOndemandPages offsetPageTable 1 0x5000000 4096 = .ok (.ok (), after) ∧
      BehavesAsMemory 1 [0x5000000] after := by
  obtain ⟨after, created⟩ := exists_of_createsHeap 4096 (by decide +kernel)
  have listed : pagesOf 0x5000000 4096 = .ok [0x5000000] := by rfl
  exact ⟨after, created, (ondemand_pages_behave_iff offsetPageTable sound_heapInfo listed created).mpr (by decide)⟩

/-- Two on-demand pages: the value 1 written to the first is read from the second, where
0 was written. -/
theorem ondemand_pages_alias : ∃ (info after final : MemoryInfo) (root start size : Nat)
    (pages : List VirtAddr) (events : List UserEvent),
    info.Sound root ∧ start % 4096 = 0 ∧ size % 4096 = 0 ∧ pagesOf start size = .ok pages ∧
    info.createUserOndemandPages offsetPageTable root start size = .ok (.ok (), after) ∧
    Run (UserStep root) after events final ∧ (∀ event ∈ events, event.addr / 4096 * 4096 ∈ pages) ∧
    ¬ Coherent events := by
  obtain ⟨after, created⟩ := exists_of_createsHeap 8192 (by decide +kernel)
  have listed : pagesOf 0x5000000 8192 = .ok [0x5000 * 4096, 0x5001 * 4096] := by rfl
  obtain ⟨frame, backed⟩ := createUserOndemandPages_backs sound_heapInfo listed created
  obtain ⟨walked, backs, ends⟩ := backed (0x5000 * 4096) (List.mem_cons_self ..)
  obtain ⟨again, also, too⟩ := backed (0x5001 * 4096) (List.mem_cons_of_mem _ (List.mem_singleton_self _))
  obtain ⟨final, run⟩ := backs.alias (by decide) also (too.trans ends.symm)
  exact ⟨heapInfo, after, final, 1, 0x5000000, 8192, _, _, sound_heapInfo, rfl, rfl, listed, created, run,
    by decide, not_coherent_alias (by decide)⟩

end Examples

end MemoryInfo

end Zephyr
