import Zephyr.Mem.LiveStacks

/-! Calls that only take frames. None of the functions that build a page table gives a
frame back, whatever the memory they run on and however they end. -/

namespace Zephyr

open Radix PageTableFlags
open PageFrameAllocator (Grabs)

namespace MemoryInfo

section Draws

variable {mapper : Mapper} {root table : Nat} {info before middle after : MemoryInfo} {pages : List VirtAddr}

theorem Draws.used {frame : Nat} (draws : Draws before after) (used : before.frameAllocator.frameUsage frame = true) :
    after.frameAllocator.frameUsage frame = true := by
  obtain ⟨frames, grabs⟩ := draws
  exact (grabs.frameUsage frame).mpr (.inr used)

theorem draws_allocateFrame {result : Option Nat} {frameAllocator : PageFrameAllocator}
    (allocated : info.frameAllocator.allocateFrame = .ok (result, frameAllocator)) :
    Draws info { info with frameAllocator } := by
  cases result with
  | none =>
    cases PageFrameAllocator.allocation allocated
    exact .refl info
  | some frame => exact ⟨[frame], .cons allocated .nil⟩

theorem draws_createPagetable (created : info.createPagetable = .ok (table, after)) : Draws info after := by
  obtain ⟨frameAllocator, takes, rfl⟩ := createPagetable_ok created
  exact ⟨[table], .cons takes .nil⟩

theorem draws_copyPagesRec {level source target : Nat} (copied : copyPagesRec level info source target = .ok after) :
    Draws info after := by
  induction level generalizing info source target after with
  | zero =>
    cases copied
    exact .refl _
  | succ level ih =>
    rw [copyPagesRec] at copied
    generalize List.finRange 512 = indices at copied
    induction indices generalizing info with
    | nil =>
      cases copied
      exact .refl _
    | cons index indices next =>
      rw [List.foldlM_cons] at copied
      cases turn : copyEntry (level + 1) (copyPagesRec level) source target info index with
      | error panic =>
        rw [turn] at copied
        cases copied
      | ok middle =>
        rw [turn] at copied
        refine Draws.trans ?_ (next copied)
        unfold copyEntry at turn
        dsimp only at turn
        split at turn
        · cases turn
          exact .refl info
        split at turn
        · cases turn
          exact .refl info
        · cases created : info.createPagetable with
          | error panic =>
            rw [created] at turn
            cases turn
          | ok pair =>
            rw [created] at turn
            obtain ⟨newTable, reached⟩ := pair
            have rest : copyPagesRec level (reached.write target index
                (.setAddr newTable (info.memory source index).flags)) (info.memory source index).addr newTable =
                .ok middle := turn
            have written : Draws reached (reached.write target index
                (.setAddr newTable (info.memory source index).flags)) := ⟨[], .nil⟩
            exact (draws_createPagetable created).trans (written.trans (ih rest))

theorem createKernelOnlyPagetable_ok (created : before.createKernelOnlyPagetable = .ok (table, after)) :
    ∃ middle, before.createPagetable = .ok (table, middle) ∧ Draws middle after := by
  unfold createKernelOnlyPagetable copyPagetables at created
  cases first : before.createPagetable with
  | error panic =>
    rw [first] at created
    cases created
  | ok pair =>
    rw [first] at created
    simp only [bind, Except.bind] at created
    split at created
    · cases created
    · rename_i copied
      cases created
      exact ⟨pair.2, rfl, draws_copyPagesRec copied⟩

/-- The level-4 table of a new tree is a frame that was free. -/
theorem createKernelOnlyPagetable_takes (created : before.createKernelOnlyPagetable = .ok (table, after)) :
    before.frameAllocator.frameUsage table = false ∧ after.frameAllocator.frameUsage table = true := by
  obtain ⟨middle, first, draws⟩ := createKernelOnlyPagetable_ok created
  obtain ⟨frameAllocator, takes, rfl⟩ := createPagetable_ok first
  exact ⟨takes.available.2, draws.used ((takes.frameUsage _).mpr (.inl rfl))⟩

theorem draws_createKernelOnlyPagetable (created : before.createKernelOnlyPagetable = .ok (table, after)) :
    Draws before after := by
  obtain ⟨_, first, draws⟩ := createKernelOnlyPagetable_ok created
  exact (draws_createPagetable first).trans draws

theorem draws_mapEach {frame : Nat} {result : Except MapToError Unit}
    (returned : mapEach mapper root frame pages info = .ok (result, after)) : Draws info after := by
  induction pages generalizing info with
  | nil =>
    cases returned
    exact .refl _
  | cons page pages ih =>
    rw [mapEach] at returned
    split at returned
    · cases returned
    · rename_i failed
      cases returned
      exact mapper.draws failed
    · rename_i mapped
      exact (mapper.draws mapped).trans (ih returned)

theorem draws_createUserOndemandPages {startAddr : VirtAddr} {size : Nat} {result : Except MapToError Unit}
    (returned : info.createUserOndemandPages mapper root startAddr size = .ok (result, after)) :
    Draws info after := by
  unfold createUserOndemandPages at returned
  split at returned
  · cases returned
  split at returned
  · cases returned
  · rename_i allocated
    cases returned
    exact draws_allocateFrame allocated
  · rename_i frame frameAllocator allocated
    have first : Draws info { info with frameAllocator } := draws_allocateFrame allocated
    split at returned
    · cases returned
    · rename_i failed
      cases returned
      exact first.trans (draws_mapEach failed)
    · rename_i middle mapped
      have second := first.trans (draws_mapEach mapped)
      split at returned
      · cases returned
      · rename_i failed
        cases returned
        rwa [mapper.unchanged failed]
      · rename_i updated
        cases returned
        obtain ⟨_, _, _, same⟩ := mapper.updated updated
        rw [same]
        exact second

theorem draws_allocateEach {flags : PageTableFlags} {result : Except MapToError Unit}
    (returned : allocateEach mapper root flags pages info = .ok (result, after)) : Draws info after := by
  induction pages generalizing info with
  | nil =>
    cases returned
    exact .refl _
  | cons page pages ih =>
    rw [allocateEach] at returned
    split at returned
    · cases returned
    · rename_i allocated
      cases returned
      exact draws_allocateFrame allocated
    · rename_i frame frameAllocator allocated
      have first : Draws info { info with frameAllocator } := draws_allocateFrame allocated
      split at returned
      · cases returned
      · rename_i failed
        cases returned
        exact first.trans (mapper.draws failed)
      · rename_i mapped
        exact first.trans ((mapper.draws mapped).trans (ih returned))

theorem draws_fillSlot {indices : List Nat} {result : Except String Unit}
    (returned : info.fillSlot table indices = .ok (result, after)) : Draws info after := by
  induction indices generalizing info with
  | nil =>
    cases returned
    exact .refl _
  | cons index indices ih =>
    obtain ⟨inside, ⟨_, rfl⟩ | ⟨frame, frameAllocator, takes, rest⟩⟩ := fillSlot_cons returned
    · exact .refl _
    · have first : Draws info ({ info with frameAllocator }.write table ⟨index, inside⟩ (.setAddr frame userPage)) :=
        ⟨[frame], .cons takes .nil⟩
      exact first.trans (ih rest)

theorem draws_allocateUserStack {nStart : Nat} {result : Except String (VirtAddr × VirtAddr)}
    (returned : info.allocateUserStack root nStart = .ok (result, after)) : Draws info after := by
  unfold MemoryInfo.allocateUserStack at returned
  split at returned
  · cases returned
  · rename_i last middle reached
    obtain ⟨frames, grabs, _⟩ := stackTable_grabs reached
    have tables : Draws info middle := ⟨frames, grabs⟩
    rcases findSlot_cases returned with ⟨_, rfl⟩ | ⟨n, filled, _, backed, _⟩
    · exact tables
    · exact tables.trans (draws_fillSlot backed)

end Draws

end MemoryInfo

end Zephyr
