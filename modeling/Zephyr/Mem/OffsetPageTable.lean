import Zephyr.Mem.Mapper

/-! `OffsetPageTable` of the `x86_64` crate: `create_next_table` along the indices of a
page, then the level-1 entry. It keeps the laws of `Mapper`. -/

namespace Zephyr

open Radix PageTableFlags

namespace MemoryInfo

/-- `next_table_mut`, as `create_next_table` uses its result. -/
def nextTable (info : MemoryInfo) (table : Nat) (index : Fin 512) :
    Except Panic (Except MapToError Nat × MemoryInfo) :=
  match (info.memory table index).frame with
  | .ok frame => .ok (.ok frame, info)
  | .error .hugeFrame => .ok (.error .parentEntryHugePage, info)
  | .error .frameNotPresent => .error .explicit

def createNextTable (info : MemoryInfo) (table : Nat) (index : Fin 512) (insertFlags : PageTableFlags) :
    Except Panic (Except MapToError Nat × MemoryInfo) :=
  let entry := info.memory table index
  if entry.isUnused then
    match info.frameAllocator.allocateFrame with
    | .error panic => .error panic
    | .ok (none, frameAllocator) => .ok (.error .frameAllocationFailed, { info with frameAllocator })
    | .ok (some frame, frameAllocator) => (info.link frameAllocator frame table index insertFlags).nextTable table index
  else if insertFlags ≠ 0 ∧ ¬ entry.flags.contains insertFlags then
    (info.raise table index insertFlags).nextTable table index
  else info.nextTable table index

/-- The tables on the way to a page, made where they are missing. -/
def descend (info : MemoryInfo) (table : Nat) (insertFlags : PageTableFlags) :
    List (Fin 512) → Except Panic (Except MapToError Nat × MemoryInfo)
  | [] => .ok (.ok table, info)
  | index :: rest =>
    match info.createNextTable table index insertFlags with
    | .error panic => .error panic
    | .ok (.error error, info) => .ok (.error error, info)
    | .ok (.ok child, info) => info.descend child insertFlags rest

def mapTo4Kib (info : MemoryInfo) (root : Nat) (page : VirtAddr) (frame : Nat)
    (flags parentTableFlags : PageTableFlags) : Except Panic (Except MapToError Unit × MemoryInfo) :=
  match info.descend root parentTableFlags page.path with
  | .error panic => .error panic
  | .ok (.error error, info) => .ok (.error error, info)
  | .ok (.ok table, info) =>
    if (info.memory table page.p1Index).isUnused then
      .ok (.ok (), info.write table page.p1Index (.setAddr frame flags))
    else .ok (.error .pageAlreadyMapped, info)

def follow (info : MemoryInfo) (table : Nat) : List (Fin 512) → Except FlagUpdateError Nat
  | [] => .ok table
  | index :: rest =>
    match (info.memory table index).frame with
    | .error .hugeFrame => .error .parentEntryHugePage
    | .error .frameNotPresent => .error .pageNotMapped
    | .ok child => info.follow child rest

def updateFlags4Kib (info : MemoryInfo) (root : Nat) (page : VirtAddr) (flags : PageTableFlags) :
    Except Panic (Except FlagUpdateError Unit × MemoryInfo) :=
  match info.follow root page.path with
  | .error error => .ok (.error error, info)
  | .ok table =>
    if (info.memory table page.p1Index).isUnused then .ok (.error .pageNotMapped, info)
    else .ok (.ok (), info.write table page.p1Index ((info.memory table page.p1Index).setFlags flags))

section Laws

variable {info after : MemoryInfo} {root table child : Nat} {index : Fin 512} {flags : PageTableFlags}
variable {stem rest : List (Fin 512)} {page : VirtAddr} {error : MapToError}

theorem frame_ok {entry : PageTableEntry} (frame : entry.frame = .ok child) :
    next entry = some child ∧ entry.flags.contains present = true := by
  unfold PageTableEntry.frame at frame
  split at frame
  · cases frame
  · rename_i held
    split at frame
    · cases frame
    · rename_i small
      cases frame
      have held : entry.flags.contains present = true := by simpa using held
      exact ⟨PageTableEntry.next_eq_some_iff.mpr
        ⟨PageTableEntry.ne_zero_of_contains held, by simpa using small, rfl⟩, held⟩

theorem nextTable_ok (returned : info.nextTable table index = .ok (.ok child, after)) :
    after = info ∧ next (info.memory table index) = some child := by
  unfold nextTable at returned
  split at returned
  · rename_i found
    cases returned
    exact ⟨rfl, (frame_ok found).1⟩
  · cases returned
  · cases returned

theorem nextTable_error (returned : info.nextTable table index = .ok (.error error, after)) : after = info := by
  unfold nextTable at returned
  split at returned <;> cases returned
  rfl

theorem createNextTable_cases {result : Except MapToError Nat}
    (returned : info.createNextTable table index flags = .ok (result, after)) :
    (info.memory table index = 0 ∧ result = .error .frameAllocationFailed ∧ after = info) ∨
    (info.memory table index = 0 ∧ ∃ frame frameAllocator, info.frameAllocator.Takes frame frameAllocator ∧
      (info.link frameAllocator frame table index flags).nextTable table index = .ok (result, after)) ∨
    (info.memory table index ≠ 0 ∧ (info.raise table index flags).nextTable table index = .ok (result, after)) ∨
    (info.memory table index ≠ 0 ∧ (flags = 0 ∨ (info.memory table index).flags.contains flags = true) ∧
      info.nextTable table index = .ok (result, after)) := by
  unfold createNextTable at returned
  by_cases unused : info.memory table index = 0
  · simp only [unused, PageTableEntry.isUnused, beq_self_eq_true, if_true] at returned
    split at returned
    · cases returned
    · rename_i allocated
      cases returned
      cases PageFrameAllocator.allocation allocated
      exact .inl ⟨unused, rfl, rfl⟩
    · rename_i frame frameAllocator allocated
      exact .inr (.inl ⟨unused, frame, frameAllocator, allocated, returned⟩)
  · simp only [PageTableEntry.isUnused, beq_iff_eq, unused, if_false] at returned
    split at returned
    · exact .inr (.inr (.inl ⟨unused, returned⟩))
    · rename_i enough
      refine .inr (.inr (.inr ⟨unused, ?_, returned⟩))
      by_cases none_given : flags = 0
      · exact .inl none_given
      · refine .inr ?_
        by_contra missing
        exact enough ⟨none_given, missing⟩

theorem next_of_raise {entry : PageTableEntry} (used : entry ≠ 0) (clean : PageTableEntry.Clean flags)
    (leads : next (entry.setFlags (entry.flags ||| flags)) = some child) : next entry = some child := by
  obtain ⟨_, small, rfl⟩ := PageTableEntry.next_eq_some_iff.mp leads
  have wide : PageTableEntry.Clean (entry.flags ||| flags) := PageTableEntry.clean_flags.or clean
  rw [PageTableEntry.flags_setFlags wide, contains_hugePage_or, Bool.or_eq_false_iff] at small
  rw [PageTableEntry.addr_setFlags wide]
  exact PageTableEntry.next_eq_some_iff.mpr ⟨used, small.1, rfl⟩

theorem createNextTable_ok (sound : info.Sound root) (valid : TableFlags flags) (upper : stem.length < 3)
    (found : tableAt info.memory root stem = some table)
    (returned : info.createNextTable table index flags = .ok (.ok child, after)) :
    TableEdits root flags info after ∧ (entryAt after.memory root stem index).flags.contains flags = true ∧
      tableAt after.memory root (stem ++ [index]) = some child ∧
      ∀ other position, other.length < 4 → ¬ (other = stem ∧ position = index) →
        entryAt after.memory root other position = entryAt info.memory root other position := by
  have short : stem.length < 4 := by omega
  rcases createNextTable_cases returned with ⟨_, failed, _⟩ | ⟨unused, frame, frameAllocator, takes, linked⟩ |
    ⟨used, raised⟩ | ⟨used, enough, kept⟩
  · cases failed
  · obtain ⟨rfl, leads⟩ := nextTable_ok linked
    have edited := sound.link upper found unused takes valid
    have entry := edited.rewrites index short
    rw [if_pos ⟨rfl, rfl⟩] at entry
    refine ⟨.single (.link upper found unused takes), ?_, ?_, fun other position shorter aside => ?_⟩
    · rw [entry, PageTableEntry.flags_setAddr (lt_of_frameUsageLen takes.bounded) valid.clean]
      simp [contains]
    · rw [tableAt_concat_eq, entry, ← leads]
      simp [link, write]
    · rw [edited.rewrites position shorter, if_neg aside]
  · obtain ⟨rfl, leads⟩ := nextTable_ok raised
    have points : next (info.memory table index) = some child := by
      refine next_of_raise used valid.clean ?_
      rw [← leads]
      simp [raise, write]
    have edited := sound.raise short found points valid
    have entry := edited.rewrites index short
    rw [if_pos ⟨rfl, rfl⟩] at entry
    refine ⟨.single (.raise upper found points), ?_, ?_, fun other position shorter aside => ?_⟩
    · rw [entry, PageTableEntry.flags_setFlags (PageTableEntry.clean_flags.or valid.clean)]
      exact contains_or_right (by simp [contains])
    · rw [tableAt_concat_eq, entry, next_raise points valid]
    · rw [edited.rewrites position shorter, if_neg aside]
  · obtain ⟨rfl, leads⟩ := nextTable_ok kept
    refine ⟨.refl, ?_, ?_, fun _ _ _ _ => rfl⟩
    · rw [entryAt_of_tableAt found]
      exact enough.resolve_left valid.nonzero
    · rw [tableAt_concat_eq, entryAt_of_tableAt found, leads]

theorem createNextTable_error (sound : info.Sound root) (valid : TableFlags flags) (upper : stem.length < 3)
    (found : tableAt info.memory root stem = some table)
    (returned : info.createNextTable table index flags = .ok (.error error, after)) :
    ∃ new, Extends root info after new := by
  rcases createNextTable_cases returned with ⟨_, _, rfl⟩ | ⟨unused, frame, frameAllocator, takes, linked⟩ |
    ⟨used, raised⟩ | ⟨_, _, kept⟩
  · exact ⟨[], .refl⟩
  · obtain rfl := nextTable_error linked
    exact ⟨[frame], (sound.link upper found unused takes valid).toExtends⟩
  · obtain rfl := nextTable_error raised
    refine ⟨[], (sound.write (by omega) found fun other _ => tableAt_write_same ?_ other).toExtends⟩
    cases points : next (info.memory table index) with
    | some child => rw [next_raise points valid]
    | none =>
      -- an entry that leads nowhere is huge, and stays so
      cases leads : next ((info.memory table index).setFlags ((info.memory table index).flags ||| flags)) with
      | none => rfl
      | some child => cases points.symm.trans (next_of_raise used valid.clean leads)
  · obtain rfl := nextTable_error kept
    exact ⟨[], .refl⟩

/-- Going down from a stem whose entries already carry the flags. -/
theorem descend_ok (stem : List (Fin 512)) (sound : info.Sound root) (valid : TableFlags flags) (short : (stem ++ rest).length ≤ 3)
    (found : tableAt info.memory root stem = some table)
    (wide : ∀ above index, above ++ [index] <+: stem →
      (entryAt info.memory root above index).flags.contains flags = true)
    (returned : info.descend table flags rest = .ok (.ok child, after)) :
    TableEdits root flags info after ∧ tableAt after.memory root (stem ++ rest) = some child ∧
      ∀ above index, above ++ [index] <+: stem ++ rest →
        (entryAt after.memory root above index).flags.contains flags = true := by
  induction rest generalizing info table stem with
  | nil =>
    cases returned
    simpa using ⟨Relation.ReflTransGen.refl, found, wide⟩
  | cons index rest ih =>
    have upper : stem.length < 3 := by
      simp at short
      omega
    unfold descend at returned
    split at returned
    · cases returned
    · cases returned
    · rename_i twin middle created
      obtain ⟨edits, entry, reached, others⟩ := createNextTable_ok sound valid upper found created
      obtain ⟨_, _, still⟩ := TableEdits.extends sound valid edits
      have split : stem ++ index :: rest = stem ++ [index] ++ rest := by simp
      rw [split] at short ⊢
      have further : ∀ above position, above ++ [position] <+: stem ++ [index] →
          (entryAt middle.memory root above position).flags.contains flags = true := by
        intro above position before
        rcases List.prefix_concat_iff.mp before with whole | inner
        · obtain ⟨rfl, same⟩ := List.append_inj' whole rfl
          cases same
          exact entry
        · have bound := inner.length_le
          rw [List.length_append, List.length_singleton] at bound
          rw [others above position (by omega) ?_]
          · exact wide above position inner
          · rintro ⟨rfl, _⟩
            omega
      obtain ⟨more, arrived, all⟩ := ih _ still short reached further returned
      exact ⟨edits.trans more, arrived, all⟩

theorem descend_error (stem : List (Fin 512)) (sound : info.Sound root) (valid : TableFlags flags) (short : (stem ++ rest).length ≤ 3)
    (found : tableAt info.memory root stem = some table)
    (returned : info.descend table flags rest = .ok (.error error, after)) :
    ∃ new, Extends root info after new := by
  induction rest generalizing info table stem with
  | nil => cases returned
  | cons index rest ih =>
    have upper : stem.length < 3 := by
      simp at short
      omega
    unfold descend at returned
    split at returned
    · cases returned
    · rename_i failed
      cases returned
      exact createNextTable_error sound valid upper found failed
    · rename_i twin middle created
      obtain ⟨edits, _, reached, _⟩ := createNextTable_ok sound valid upper found created
      obtain ⟨new, first, still⟩ := TableEdits.extends sound valid edits
      obtain ⟨more, second⟩ := ih (stem ++ [index]) still (by simpa using short) reached returned
      exact ⟨new ++ more, first.trans second⟩

theorem mapTo4Kib_ok {frame : Nat} {parent : PageTableFlags} (sound : info.Sound root)
    (valid : TableFlags parent) (returned : info.mapTo4Kib root page frame flags parent = .ok (.ok (), after)) :
    Maps root page frame flags parent info after := by
  unfold mapTo4Kib at returned
  split at returned
  · cases returned
  · cases returned
  · rename_i table middle descended
    split at returned
    · rename_i unused
      cases returned
      obtain ⟨edits, found, wide⟩ := descend_ok [] sound valid (by simp [VirtAddr.path]) rfl
        (fun above index before => by simp at before) descended
      exact .intro edits found wide (by simpa [PageTableEntry.isUnused] using unused)
    · cases returned

theorem mapTo4Kib_error {frame : Nat} {parent : PageTableFlags} (sound : info.Sound root)
    (valid : TableFlags parent)
    (returned : info.mapTo4Kib root page frame flags parent = .ok (.error error, after)) :
    Confined root info after := by
  unfold mapTo4Kib at returned
  split at returned
  · cases returned
  · rename_i failed
    cases returned
    obtain ⟨new, extended⟩ := descend_error [] sound valid (by simp [VirtAddr.path]) rfl failed
    exact extended.confined
  · rename_i table middle descended
    split at returned
    · cases returned
    · cases returned
      obtain ⟨edits, _, _⟩ := descend_ok [] sound valid (by simp [VirtAddr.path]) rfl
        (fun above index before => by simp at before) descended
      obtain ⟨new, extended, _⟩ := TableEdits.extends sound valid edits
      exact extended.confined

theorem follow_ok (found : info.follow table rest = .ok child) :
    tableAt info.memory table rest = some child := by
  induction rest generalizing table with
  | nil =>
    cases found
    rfl
  | cons index rest ih =>
    unfold follow at found
    split at found
    · cases found
    · cases found
    · rename_i twin reached
      rw [tableAt, (frame_ok reached).1]
      exact ih found

theorem draws_nextTable {result : Except MapToError Nat}
    (returned : info.nextTable table index = .ok (result, after)) : Draws info after := by
  unfold nextTable at returned
  split at returned <;> cases returned <;> exact .refl _

theorem draws_createNextTable {result : Except MapToError Nat}
    (created : info.createNextTable table index flags = .ok (result, after)) : Draws info after := by
  rcases createNextTable_cases created with
    ⟨_, _, same⟩ | ⟨_, frame, frameAllocator, takes, later⟩ | ⟨_, later⟩ | ⟨_, _, later⟩
  · rw [same]
    exact .refl info
  · have linked : Draws info (info.link frameAllocator frame table index flags) := ⟨[frame], .cons takes .nil⟩
    exact linked.trans (draws_nextTable later)
  · have raised : Draws info (info.raise table index flags) := ⟨[], .nil⟩
    exact raised.trans (draws_nextTable later)
  · exact draws_nextTable later

theorem draws_descend {result : Except MapToError Nat}
    (returned : info.descend table flags rest = .ok (result, after)) : Draws info after := by
  induction rest generalizing info table with
  | nil =>
    cases returned
    exact .refl _
  | cons index rest ih =>
    rw [descend] at returned
    split at returned
    · cases returned
    · rename_i failed
      cases returned
      exact draws_createNextTable failed
    · rename_i found
      exact (draws_createNextTable found).trans (ih returned)

theorem draws_mapTo4Kib {frame : Nat} {parent : PageTableFlags} {result : Except MapToError Unit}
    (returned : info.mapTo4Kib root page frame flags parent = .ok (result, after)) : Draws info after := by
  unfold mapTo4Kib at returned
  split at returned
  · cases returned
  · rename_i failed
    cases returned
    exact draws_descend failed
  · rename_i last reached found
    have way : Draws info reached := draws_descend found
    split at returned
    · cases returned
      exact way
    · cases returned
      exact way

end Laws

end MemoryInfo

open MemoryInfo

def offsetPageTable : Mapper where
  mapToWithTableFlags := mapTo4Kib
  updateFlags := updateFlags4Kib
  mapped := mapTo4Kib_ok
  refused := mapTo4Kib_error
  draws := draws_mapTo4Kib
  updated := by
    intro info after root page flags returned
    unfold updateFlags4Kib at returned
    split at returned
    · cases returned
    · rename_i table found
      split at returned
      · cases returned
      · rename_i used
        cases returned
        exact ⟨table, follow_ok found, by simpa [PageTableEntry.isUnused] using used, rfl⟩
  unchanged := by
    intro info after root page flags error returned
    unfold updateFlags4Kib at returned
    split at returned
    · cases returned
      rfl
    · split at returned <;> cases returned
      rfl

end Zephyr
