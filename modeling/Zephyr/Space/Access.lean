import Zephyr.Mem.Hardware
import Zephyr.Space.Calls

/-! What loads, stores and page faults reach in a user tree: a user-mode access that
translates ends in one of the tree's user pages, and a store there or a serviced fault
leaves every table as it is. -/

namespace Zephyr

open Radix PageTableFlags PageFaultErrorCode

section Walks

variable {memory : Memory Nat 512 PageTableEntry} {root table : Nat} {walked : Walked}

/-- A walk ends at an entry of the tree that is present: at the last index, or at a
huge page before it. -/
theorem lookup_leaf {indices : List (Fin 512)} (nonempty : indices ≠ [])
    (found : lookup memory root indices = some walked) :
    ∃ path index rest last, indices = path ++ index :: rest ∧ tableAt memory root path = some last ∧
      (last, index) ∈ walked.used ∧ (memory last index).flags.contains present = true ∧
      (rest = [] ∧ walked.frame = (memory last index).addr ∨
        rest ≠ [] ∧ (memory last index).flags.contains hugePage = true) := by
  induction indices generalizing root walked with
  | nil => exact absurd rfl nonempty
  | cons index rest ih =>
    rw [lookup] at found
    split at found
    · cases found
    · rename_i held
      have held : (memory root index).flags.contains present = true := by simpa using held
      split at found
      · rename_i huge
        cases found
        exact ⟨[], index, rest, root, rfl, rfl, List.mem_singleton_self _, held, .inr ⟨huge.2, huge.1⟩⟩
      · rename_i small
        obtain ⟨deeper, reached, rfl⟩ := Option.map_eq_some_iff.mp found
        cases rest with
        | nil =>
          cases reached
          exact ⟨[], index, [], root, rfl, rfl, List.mem_singleton_self _, held, .inl ⟨rfl, rfl⟩⟩
        | cons second rest =>
          obtain ⟨path, position, others, last, split, above, used, leaf⟩ :=
            ih (List.cons_ne_nil second rest) reached
          have leads : next (memory root index) = some (memory root index).addr :=
            PageTableEntry.next_eq_some_iff.mpr ⟨PageTableEntry.ne_zero_of_contains held, by simpa using small, rfl⟩
          refine ⟨index :: path, position, others, last, by rw [split, List.cons_append], ?_,
            List.mem_cons_of_mem _ used, leaf⟩
          simpa [tableAt, leads] using above

theorem lookup_frame {path : List (Fin 512)} {index : Fin 512} (above : tableAt memory root path = some table)
    (found : lookup memory root (path ++ [index]) = some walked) : walked.frame = (memory table index).addr := by
  induction path generalizing root walked with
  | nil =>
    cases above
    rw [List.nil_append, lookup] at found
    split at found
    · cases found
    · rw [if_neg (by simp)] at found
      cases found
      rfl
  | cons first path ih =>
    cases points : next (memory root first) with
    | none => simp [tableAt, points] at above
    | some child =>
      obtain ⟨_, small, rfl⟩ := PageTableEntry.next_eq_some_iff.mp points
      rw [List.cons_append, lookup] at found
      split at found
      · cases found
      · rw [if_neg (by simp [small])] at found
        obtain ⟨deeper, reached, rfl⟩ := Option.map_eq_some_iff.mp found
        have below : tableAt memory (memory root first).addr path = some table := by
          simpa [tableAt, points] using above
        have same : deeper.frame = (memory table index).addr := ih below reached
        exact same

end Walks

namespace MemoryInfo

theorem pageAddress_eq (addr : Nat) :
    pageAddress (VirtAddr.path addr) (VirtAddr.p1Index addr) = addr % 2 ^ 48 / 4096 * 4096 := by
  have joined : ((((0 * 512 + addr / 2 ^ 39 % 512) * 512 + addr / 2 ^ 30 % 512) * 512 + addr / 2 ^ 21 % 512) * 512 +
      addr / 2 ^ 12 % 512) * 4096 = addr % 2 ^ 48 / 4096 * 4096 := by
    omega
  exact joined

/-- Of the addresses that share a page's indices, the canonical one in the lower half. -/
theorem inUserSpace_canonical {addr : Nat} (canonical : Canonical addr)
    (space : InUserSpace (addr % 2 ^ 48 / 4096 * 4096)) : userCodeStart ≤ addr ∧ addr < 2 ^ 47 := by
  obtain ⟨least, most⟩ := space
  unfold Canonical at canonical
  change (0x5000000 : Nat) ≤ addr ∧ addr < 2 ^ 47
  change (0x5000000 : Nat) ≤ addr % 2 ^ 48 / 4096 * 4096 at least
  change (addr % 2 ^ 48 / 4096 * 4096 : Nat) < 2 ^ 47 at most
  omega

section Fault

variable {active : Nat} {addr : VirtAddr} {result : Except String Unit} {before after : MemoryInfo}

theorem allocateMissingOndemandFrame_cases
    (returned : before.allocateMissingOndemandFrame active addr = .ok (result, after)) :
    after = before ∨ ∃ table frame frameAllocator, before.frameAllocator.Takes frame frameAllocator ∧
      (before.memory table addr.p1Index).flags = present ||| userAccessible ∧
      after = { before with frameAllocator }.write table addr.p1Index (.setAddr frame userPage) := by
  unfold allocateMissingOndemandFrame at returned
  dsimp only at returned
  split at returned
  · cases returned
    exact .inl rfl
  · rename_i marked
    rw [not_not] at marked
    split at returned
    · cases returned
    · rename_i allocated
      cases returned
      cases PageFrameAllocator.allocation allocated
      exact .inl rfl
    · rename_i frame frameAllocator allocated
      cases returned
      exact .inr ⟨_, frame, frameAllocator, allocated, marked, rfl⟩

end Fault

namespace UserTree

variable {foreign : Nat → Prop} {root frame table : Nat} {slots : List Nat} {info : MemoryInfo}
variable {path : List (Fin 512)} {index : Fin 512}

/-- No entry of a tree's tables looks like an on-demand page. -/
theorem entries (tree : UserTree foreign root slots [] info) (listed : table ∈ tableSet 4 info.memory root)
    (index : Fin 512) : (info.memory table index).flags ≠ present ||| userAccessible := by
  obtain ⟨path, short, found⟩ := listed
  rw [← entryAt_of_tableAt found]
  by_cases upper : path.length < 3
  · exact tree.unmarked path index upper
  · intro marked
    have bottom : 3 - path.length = 0 := by omega
    have user := (tree.leaves path index short ⟨.inl bottom, by rw [marked]; decide⟩).1
    rw [marked] at user
    exact absurd user (by decide)

theorem reaches {access : Access} {addr : VirtAddr} {walked : Walked} (tree : UserTree foreign root slots [] info)
    (translated : translate info.memory root access addr = .ok walked) :
    PageAt info.memory root addr.path addr.p1Index walked.frame ∧ InUserSpace (pageAddress addr.path addr.p1Index) := by
  unfold translate at translated
  split at translated
  · cases translated
  · rename_i reached found
    split at translated
    · rename_i allowed
      cases translated
      obtain ⟨path, index, rest, last, split, above, used, held, leaf⟩ := lookup_leaf (by simp [VirtAddr.indices]) found
      have rights := List.all_eq_true.mp allowed _ used
      have user : (info.memory last index).flags.contains userAccessible = true := by
        cases access with
        | read => exact rights
        | write => exact (contains_or.mp rights).1
      have both := contains_or.mpr ⟨held, user⟩
      rw [← entryAt_of_tableAt above] at both
      have length := congrArg List.length split
      rw [List.length_append, List.length_cons] at length
      change 4 = _ at length
      rcases leaf with ⟨rfl, same⟩ | ⟨_, huge⟩
      · obtain ⟨rfl, single⟩ := List.append_inj' split rfl
        cases single
        obtain ⟨page, last, space⟩ := tree.leaves addr.path addr.p1Index addr.path_lt ⟨.inl rfl, both⟩
        exact ⟨⟨last, page, by rw [same, entryAt_of_tableAt above]⟩, space⟩
      · rw [← entryAt_of_tableAt above] at huge
        have last := (tree.leaves path index (by omega)
          ⟨.inr (PageTableEntry.next_eq_none_of_huge huge), both⟩).2.1
        have empty : rest = [] := List.eq_nil_of_length_eq_zero (by omega)
        contradiction
    · cases translated

theorem reaches_above {access : Access} {addr : VirtAddr} {walked : Walked}
    (tree : UserTree foreign root slots [] info) (canonical : Canonical addr)
    (translated : translate info.memory root access addr = .ok walked) : userCodeStart ≤ addr ∧ addr < 2 ^ 47 := by
  have space := (tree.reaches translated).2
  rw [pageAddress_eq] at space
  exact inUserSpace_canonical canonical space

theorem stores (tree : UserTree foreign root slots [] info) (page : PageAt info.memory root path index frame)
    (position : Fin 512) (word : PageTableEntry) :
    UserTree foreign root slots [] (info.write frame position word) ∧
      Spares foreign info (info.write frame position word) ∧
      ∀ table ∈ tableSet 4 info.memory root, (info.write frame position word).memory table = info.memory table := by
  obtain ⟨used, apart⟩ := tree.used path index frame page
  have tables : ∀ table ∈ tableSet 4 info.memory root, (info.write frame position word).memory table = info.memory table := by
    intro table listed
    refine write_table _ _ _ ?_
    rintro rfl
    exact apart listed
  refine ⟨tree.elsewhere tables (fun other held => (tree.holds held).1) (fun other held => (tree.holds held).2.1)
    tree.owns.shut, ⟨fun other strange => write_table _ _ _ ?_, fun _ _ used => used, tree.owns.shut, rfl⟩, tables⟩
  rintro rfl
  exact (tree.holds (.inr ⟨path, index, page⟩)).2.1 strange

end UserTree

end MemoryInfo

end Zephyr
