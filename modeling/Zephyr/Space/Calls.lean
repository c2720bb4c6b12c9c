import Zephyr.Mem.LifeCycle
import Zephyr.Mem.OnDemand
import Zephyr.Space.UserTree

/-! What the functions of `mem/memory.rs` do to a process's tree and to everything
else, whether they succeed or fail. -/

namespace Zephyr

open Radix PageTableFlags
open PageFrameAllocator (Grabs Frees)

namespace MemoryInfo

/-- The kept frames hold what they did, stay in use and cannot be allocated. -/
structure Spares (kept : Nat → Prop) (before after : MemoryInfo) : Prop where
  memory : ∀ frame, kept frame → after.memory frame = before.memory frame
  used : ∀ frame, kept frame → before.frameAllocator.frameUsage frame = true →
    after.frameAllocator.frameUsage frame = true
  shut : ∀ frame, kept frame → ¬ after.frameAllocator.Available frame
  kernel : after.kernelPageTables = before.kernelPageTables

section Spares

variable {kept : Nat → Prop} {before middle after : MemoryInfo}

theorem Spares.refl (shut : ∀ frame, kept frame → ¬ before.frameAllocator.Available frame) :
    Spares kept before before :=
  ⟨fun _ _ => rfl, fun _ _ used => used, shut, rfl⟩

theorem Spares.trans (first : Spares kept before middle) (second : Spares kept middle after) :
    Spares kept before after where
  memory frame listed := (second.memory frame listed).trans (first.memory frame listed)
  used frame listed used := second.used frame listed (first.used frame listed used)
  shut := second.shut
  kernel := second.kernel.trans first.kernel

/-- Frames that are no free ones and none of the tree's tables are kept by what is
confined to the tree. -/
theorem Confined.spares {root : Nat} (confined : Confined root before after)
    (shut : ∀ frame, kept frame → ¬ before.frameAllocator.Available frame)
    (outside : ∀ frame, kept frame → frame ∉ tableSet 4 before.memory root) : Spares kept before after := by
  obtain ⟨frames, grabs, others, kernel⟩ := confined
  refine ⟨fun frame listed => others frame (outside frame listed) fun made => ?_,
    fun frame _ used => (grabs.frameUsage frame).mpr (.inr used),
    fun frame listed => grabs.not_available (shut frame listed), kernel⟩
  exact shut frame listed (grabs.available made)

end Spares

/-- The pages of a tree after some were mapped. -/
structure MapsPages (root : Nat) (pages : List VirtAddr) (before after : Memory Nat 512 PageTableEntry) : Prop where
  entered : ∀ page ∈ pages, ∃ frame, PageAt after root page.path page.p1Index frame
  kept : ∀ {path index frame}, PageAt before root path index frame → PageAt after root path index frame
  origin : ∀ {path index frame}, PageAt after root path index frame →
    PageAt before root path index frame ∨ ∃ page ∈ pages, path = page.path ∧ index = page.p1Index

theorem MapsPages.nil {root : Nat} {memory : Memory Nat 512 PageTableEntry} : MapsPages root [] memory memory :=
  ⟨fun _ listed => absurd listed List.not_mem_nil, id, .inl⟩

theorem MapsPages.cons {root : Nat} {page : VirtAddr} {pages : List VirtAddr}
    {before middle after : Memory Nat 512 PageTableEntry}
    (first : MapsPages root [page] before middle) (rest : MapsPages root pages middle after) :
    MapsPages root (page :: pages) before after where
  entered other listed := by
    rcases List.mem_cons.mp listed with rfl | listed
    · obtain ⟨frame, here⟩ := first.entered other (List.mem_singleton_self other)
      exact ⟨frame, rest.kept here⟩
    · exact rest.entered other listed
  kept here := rest.kept (first.kept here)
  origin here := by
    rcases rest.origin here with middling | ⟨other, listed, place⟩
    · rcases first.origin middling with old | ⟨other, listed, place⟩
      · exact .inl old
      · exact .inr ⟨other, List.mem_cons.mpr (.inl (List.mem_singleton.mp listed)), place⟩
    · exact .inr ⟨other, List.mem_cons_of_mem _ listed, place⟩

namespace UserTree

variable {foreign : Nat → Prop} {root frame table : Nat} {slots pending : List Nat}
variable {before after info : MemoryInfo} {page : VirtAddr} {pages : List VirtAddr} {index : Fin 512}

theorem spares (tree : UserTree foreign root slots pending before) (confined : Confined root before after) :
    Spares foreign before after :=
  confined.spares tree.owns.shut fun frame strange listed => (tree.owns.tables frame listed).2.1 strange

theorem spares_takes {frameAllocator : PageFrameAllocator} (tree : UserTree foreign root slots pending info)
    (takes : info.frameAllocator.Takes frame frameAllocator) :
    Spares foreign info { info with frameAllocator } :=
  tree.spares (.intro [frame] (.cons takes .nil) (fun _ _ _ => rfl) rfl)

section Mapping

theorem maps (tree : UserTree foreign root slots pending before) (waiting : frame ∈ pending)
    (space : InUserSpace (pageAddress page.path page.p1Index))
    (alone : ∀ path index, PageAt before.memory root path index frame →
      page.path ≠ userStackPageIndex ∧ path ≠ userStackPageIndex)
    (maps : Maps root page frame userPage userPage before after) :
    UserTree foreign root slots pending after ∧ Spares foreign before after ∧
      MapsPages root [page] before.memory after.memory := by
  obtain ⟨middle, edits, _, empty, fills⟩ := maps.fills tree.owns.sound
  have widened : UserTree foreign root slots pending middle ∧ Spares foreign before middle ∧
      ∀ {path index frame}, PageAt middle.memory root path index frame ↔ PageAt before.memory root path index frame := by
    refine TableEdits.keeps (fun info => UserTree foreign root slots pending info ∧ Spares foreign before info ∧
      ∀ {path index frame}, PageAt info.memory root path index frame ↔ PageAt before.memory root path index frame)
      tree.owns.sound tableFlags_userPage edits ⟨tree, .refl tree.owns.shut, Iff.rfl⟩ ?_
    intro info next path index entry child new here widens
    obtain ⟨kept, spared, same⟩ := here
    have upper := widens.upper
    refine ⟨kept.widens widens, spared.trans (kept.spares widens.edited.toExtends.confined), fun {other _ _} => ?_⟩
    rw [← same]
    constructor
    · intro page
      rcases page.rewritten widens.edited.rewrites with ⟨rfl, _⟩ | ⟨_, old⟩
      · exact absurd page.last (by omega)
      · exact old
    · intro page
      refine page.kept widens.edited.rewrites ?_
      rintro ⟨rfl, _⟩
      exact absurd page.last (by omega)
  obtain ⟨middling, spared, same⟩ := widened
  have bounded := (middling.owns.held frame waiting).2.2
  refine ⟨middling.fills fills waiting space fun path index here => alone path index (same.mp here),
    spared.trans (middling.spares fills.edited.toExtends.confined),
    fun other listed => ⟨frame, ?_⟩, fun {path index number} here => ?_, fun {path index number} here => ?_⟩
  · rw [List.mem_singleton.mp listed]
    exact fills.pageAt bounded
  · refine (same.mpr here).kept fills.edited.rewrites ?_
    rintro ⟨rfl, rfl⟩
    have user := (same.mpr here).user
    rw [empty] at user
    revert user
    decide
  · rcases here.rewritten fills.edited.rewrites with ⟨path, index, _⟩ | ⟨_, old⟩
    · exact .inr ⟨page, List.mem_singleton_self page, path, index⟩
    · exact .inl (same.mp old)

variable {mapper : Mapper} {result : Except MapToError Unit}

theorem fresh {frameAllocator : PageFrameAllocator} (tree : UserTree foreign root slots pending info)
    (takes : info.frameAllocator.Takes frame frameAllocator) (path : List (Fin 512)) (index : Fin 512) :
    ¬ PageAt info.memory root path index frame := by
  intro page
  cases (tree.used path index frame page).1.symm.trans takes.available.2

theorem allocateEach (tree : UserTree foreign root slots [] before)
    (space : ∀ page ∈ pages, InUserSpace (pageAddress page.path page.p1Index))
    (returned : allocateEach mapper root userPage pages before = .ok (result, after)) :
    Spares foreign before after ∧
      (result = .ok () → UserTree foreign root slots [] after ∧ MapsPages root pages before.memory after.memory) := by
  induction pages generalizing before with
  | nil =>
    cases returned
    exact ⟨.refl tree.owns.shut, fun _ => ⟨tree, .nil⟩⟩
  | cons page pages ih =>
    rw [MemoryInfo.allocateEach] at returned
    split at returned
    · cases returned
    · rename_i allocated
      cases returned
      cases PageFrameAllocator.allocation allocated
      exact ⟨.refl tree.owns.shut, fun made => by cases made⟩
    · rename_i frame frameAllocator allocated
      have taken := tree.takes allocated
      have first := tree.spares_takes allocated
      split at returned
      · cases returned
      · rename_i error info refused
        cases returned
        have confined := mapper.refused taken.owns.sound tableFlags_userPage refused
        exact ⟨first.trans (taken.spares confined), fun made => by cases made⟩
      · rename_i middle mapped
        have maps := mapper.mapped taken.owns.sound tableFlags_userPage mapped
        obtain ⟨entered, second, here⟩ := taken.maps (List.mem_cons_self ..)
          (space page (List.mem_cons_self ..)) (fun path index old => absurd old (tree.fresh allocated path index))
          maps
        obtain ⟨third, success⟩ := ih (entered.settle (List.nil_subset _))
          (fun other listed => space other (List.mem_cons_of_mem _ listed)) returned
        refine ⟨(first.trans second).trans third, fun succeeded => ?_⟩
        obtain ⟨finished, rest⟩ := success succeeded
        exact ⟨finished, here.cons rest⟩

theorem mapEach (tree : UserTree foreign root slots [frame] before)
    (space : ∀ page ∈ pages, InUserSpace (pageAddress page.path page.p1Index) ∧ page.path ≠ userStackPageIndex)
    (alone : ∀ path index, PageAt before.memory root path index frame → path ≠ userStackPageIndex)
    (returned : mapEach mapper root frame pages before = .ok (result, after)) :
    Spares foreign before after ∧
      (result = .ok () → UserTree foreign root slots [frame] after ∧ MapsPages root pages before.memory after.memory) := by
  induction pages generalizing before with
  | nil =>
    cases returned
    exact ⟨.refl tree.owns.shut, fun _ => ⟨tree, .nil⟩⟩
  | cons page pages ih =>
    have aside := (space page (List.mem_cons_self ..)).2
    rw [MemoryInfo.mapEach] at returned
    split at returned
    · cases returned
    · rename_i error info refused
      cases returned
      exact ⟨tree.spares (mapper.refused tree.owns.sound tableFlags_userPage refused), fun made => by cases made⟩
    · rename_i middle mapped
      have maps := mapper.mapped tree.owns.sound tableFlags_userPage mapped
      obtain ⟨entered, first, here⟩ := tree.maps (List.mem_singleton_self frame)
        (space page (List.mem_cons_self ..)).1 (fun path index old => ⟨aside, alone path index old⟩) maps
      have still : ∀ path index, PageAt middle.memory root path index frame → path ≠ userStackPageIndex := by
        intro path index new
        rcases here.origin new with old | ⟨other, listed, rfl, _⟩
        · exact alone path index old
        · rw [List.mem_singleton.mp listed]
          exact aside
      obtain ⟨second, success⟩ := ih entered (fun other listed => space other (List.mem_cons_of_mem _ listed)) still
        returned
      refine ⟨first.trans second, fun succeeded => ?_⟩
      obtain ⟨finished, rest⟩ := success succeeded
      exact ⟨finished, here.cons rest⟩

theorem createUserOndemandPages {start size : Nat} (tree : UserTree foreign root slots [] before)
    (listed : pagesOf start size = .ok pages) (first : start / 4096 * 4096 ∈ pages)
    (space : ∀ page ∈ pages, InUserSpace (pageAddress page.path page.p1Index) ∧ page.path ≠ userStackPageIndex)
    (returned : before.createUserOndemandPages mapper root start size = .ok (result, after)) :
    Spares foreign before after ∧
      (result = .ok () → UserTree foreign root slots [] after ∧ MapsPages root pages before.memory after.memory) := by
  unfold MemoryInfo.createUserOndemandPages at returned
  rw [listed] at returned
  dsimp only at returned
  split at returned
  · cases returned
  · rename_i allocated
    cases returned
    cases PageFrameAllocator.allocation allocated
    exact ⟨.refl tree.owns.shut, nofun⟩
  · rename_i frame frameAllocator allocated
    have taken := tree.takes allocated
    have one := tree.spares_takes allocated
    have alone : ∀ path index, PageAt before.memory root path index frame →
        path ≠ userStackPageIndex := fun path index here => absurd here (tree.fresh allocated path index)
    split at returned
    · cases returned
    · rename_i error info failed
      cases returned
      exact ⟨one.trans (taken.mapEach space alone failed).1, nofun⟩
    · rename_i middle mapped
      obtain ⟨two, success⟩ := taken.mapEach space alone mapped
      obtain ⟨entered, all⟩ := success rfl
      split at returned
      · cases returned
      · rename_i error info failed
        cases returned
        cases mapper.unchanged failed
        exact ⟨one.trans two, nofun⟩
      · rename_i info updated
        cases returned
        have takes : before.frameAllocator.Takes frame frameAllocator := allocated
        obtain ⟨_, leaves, _⟩ := mapEach_entered takes.bounded taken.owns.sound takes.not_available_self
          (tree.owns.sound.fresh takes) mapped
        cases updateFlags_same takes.bounded (leaves _ first).leaf updated
        exact ⟨one.trans two, fun _ => ⟨entered.settle (List.nil_subset _), all⟩⟩

end Mapping

section Stacks

variable {n nStart : Nat}

theorem inUserSpace_stack (k : Fin 512) : InUserSpace (pageAddress userStackPageIndex k) := by
  have inside := k.2
  change (0x5000000 : Nat) ≤ (6 * 2 ^ 27 + k.1) * 4096 ∧ (6 * 2 ^ 27 + k.1 : Nat) * 4096 < 2 ^ 47
  omega

theorem fillsStack {frameAllocator : PageFrameAllocator} (tree : UserTree foreign root slots [] before)
    (found : tableAt before.memory root userStackPageIndex = some table)
    (vacant : before.stackEntry root index = 0) (takes : before.frameAllocator.Takes frame frameAllocator)
    (written : { before with frameAllocator }.write table index (.setAddr frame userPage) = after) :
    UserTree foreign root slots [] after ∧ Spares foreign before after ∧
      tableAt after.memory root userStackPageIndex = some table ∧ after.stackEntry root index ≠ 0 ∧
      ∀ k, k ≠ index → after.stackEntry root k = before.stackEntry root k := by
  have fills := tree.owns.sound.fillsStack found (by rw [vacant]; rfl) takes
  rw [written] at fills
  have taken := tree.takes takes
  have entered := taken.fills fills (List.mem_singleton_self frame) (inUserSpace_stack index)
    fun path position here => absurd here (tree.fresh takes path position)
  refine ⟨entered.settle (List.nil_subset _),
    (tree.spares_takes takes).trans (taken.spares fills.edited.toExtends.confined), fills.stackTable.trans found,
    fills.stackEntry_ne_zero takes.bounded, fun k other => fills.stackEntry_aside other⟩

/-- The loop that backs a slot, up to where it fails if it does. -/
theorem fillSlot {indices : List Nat} {result : Except String Unit}
    (tree : UserTree foreign root slots [] before)
    (found : tableAt before.memory root userStackPageIndex = some table) (distinct : indices.Nodup)
    (empty : ∀ k : Fin 512, k.1 ∈ indices → before.stackEntry root k = 0)
    (returned : before.fillSlot table indices = .ok (result, after)) :
    UserTree foreign root slots [] after ∧ Spares foreign before after ∧
      (∀ k, after.stackEntry root k = before.stackEntry root k ∨ k.1 ∈ indices) ∧
      (result = .ok () → ∀ k, k.1 ∈ indices → after.stackEntry root k ≠ 0) := by
  induction indices generalizing before with
  | nil =>
    cases returned
    exact ⟨tree, .refl tree.owns.shut, fun _ => .inl rfl, fun _ _ listed => absurd listed List.not_mem_nil⟩
  | cons index indices ih =>
    obtain ⟨fresh, distinct⟩ := List.nodup_cons.mp distinct
    obtain ⟨inside, ⟨rfl, rfl⟩ | ⟨frame, frameAllocator, takes, rest⟩⟩ := fillSlot_cons returned
    · exact ⟨tree, .refl tree.owns.shut, fun _ => .inl rfl, nofun⟩
    · obtain ⟨entered, first, reached, used, others⟩ :=
        tree.fillsStack found (empty ⟨index, inside⟩ (List.mem_cons_self ..)) takes rfl
      have blank : ∀ k : Fin 512, k.1 ∈ indices → (MemoryInfo.write { before with frameAllocator } table
          ⟨index, inside⟩ (.setAddr frame userPage)).stackEntry root k = 0 := by
        intro k listed
        rw [others k (by rintro rfl; exact fresh listed)]
        exact empty k (List.mem_cons_of_mem _ listed)
      obtain ⟨finished, second, origin, all⟩ := ih entered reached distinct blank rest
      refine ⟨finished, first.trans second, fun k => ?_, fun succeeded k listed => ?_⟩
      · rcases origin k with same | listed
        · by_cases here : k = ⟨index, inside⟩
          · exact .inr (here ▸ List.mem_cons_self ..)
          · exact .inl (same.trans (others k here))
        · exact .inr (List.mem_cons_of_mem _ listed)
      · rcases origin k with same | later
        · rcases List.mem_cons.mp listed with here | later
          · have same_index : k = ⟨index, inside⟩ := Fin.ext here
            rw [same, same_index]
            exact used
          · exact all succeeded k later
        · exact all succeeded k later

theorem allocateUserStack {result : Except String (VirtAddr × VirtAddr)}
    (tree : UserTree foreign root slots [] before)
    (returned : before.allocateUserStack root nStart = .ok (result, after)) :
    Spares foreign before after ∧
      (∀ bottom top, result = .ok (bottom, top) → ∃ n, top = slotAddress n + 11 * 4096 ∧
        UserTree foreign root (n :: slots) [] after ∧
        ∀ k, after.stackEntry root k = before.stackEntry root k ∨ n * 8 + 1 ≤ k.1 ∧ k.1 ≤ n * 8 + 10) ∧
      (∀ error, result = .error error → UserTree foreign root slots [] after) := by
  unfold MemoryInfo.allocateUserStack at returned
  split at returned
  · cases returned
  · rename_i table middle reached
    obtain ⟨edits, found⟩ := stackTable_ok [] tree.owns.sound rfl rfl tree.way reached
    obtain ⟨middling, first, same⟩ : UserTree foreign root slots [] middle ∧ Spares foreign before middle ∧
        ∀ k, middle.stackEntry root k = before.stackEntry root k :=
      TableEdits.keeps (fun info => UserTree foreign root slots [] info ∧ Spares foreign before info ∧
          ∀ k, info.stackEntry root k = before.stackEntry root k)
        tree.owns.sound tableFlags_userPage edits ⟨tree, .refl tree.owns.shut, fun _ => rfl⟩
        fun ⟨kept, spared, same⟩ widens => ⟨kept.widens widens,
          spared.trans (kept.spares widens.edited.toExtends.confined), fun k => (widens.stackEntry k).trans (same k)⟩
    rcases findSlot_cases returned with ⟨rfl, rfl⟩ | ⟨n, filled, unused, backed, rfl⟩
    · exact ⟨first, nofun, fun _ _ => middling⟩
    · obtain ⟨bounded, blank⟩ := blank_of_allUnused found unused
      have empty : ∀ k : Fin 512, n * 8 + 1 ≤ k.1 → k.1 ≤ n * 8 + 10 → middle.stackEntry root k = 0 :=
        fun k least most => blank k (mem_slotPages.mpr ⟨least, most⟩)
      obtain ⟨finished, second, origin, all⟩ := middling.fillSlot found slotPages_nodup blank backed
      refine ⟨first.trans second, fun bottom top succeeded => ?_, fun _ _ => finished⟩
      obtain rfl : filled = .ok () := by
        cases filled with
        | ok => rfl
        | error => cases succeeded
      cases succeeded
      refine ⟨n, rfl, { finished with standing := ⟨?_, ?_⟩ }, fun k => ?_⟩
      · intro m listed
        rcases List.mem_cons.mp listed with rfl | listed
        · exact ⟨bounded, fun k least most => all rfl k (mem_slotPages.mpr ⟨least, most⟩)⟩
        · exact finished.standing.entered m listed
      · exact List.pairwise_cons.mpr
          ⟨fun m listed => middling.standing.apart_of_empty listed bounded empty, finished.standing.spaced⟩
      · rw [← same]
        exact (origin k).imp id mem_slotPages.mp

end Stacks

end UserTree

end MemoryInfo

end Zephyr
