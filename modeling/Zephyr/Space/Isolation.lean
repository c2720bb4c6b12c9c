import Zephyr.Space.Release

/-! Several user trees at once. Each has its frames to itself, away from the frames that
were not free at boot; what an operation does for one of them leaves the others alone. -/

namespace Zephyr

open Radix PageTableFlags

namespace MemoryInfo

/-- A user tree by its level-4 frame, with the ids of its threads and their stack slots. -/
structure Tree where
  root : Nat
  threads : List (Nat × Nat)

def Tree.slots (tree : Tree) : List Nat := tree.threads.map Prod.snd

section Agreement

variable {root frame : Nat} {memory changed : Memory Nat 512 PageTableEntry}

theorem Holds.of_agree (agree : ∀ table ∈ tableSet 4 memory root, changed table = memory table)
    (held : Holds changed root frame) : Holds memory root frame := by
  rcases held with table | ⟨path, index, page⟩
  · left
    rwa [← tableSet_congr fun path short => tableAt_frame agree (Nat.le_of_lt short)]
  · have last := page.last
    have same : entryAt changed root path index = entryAt memory root path index :=
      entryAt_frame agree (by omega)
    exact .inr ⟨path, index, last, same ▸ page.user, same ▸ page.addr⟩

end Agreement

variable {ι : Type} {outside : Nat → Prop} {trees : ι → Option Tree} {owner : ι} {tree : Tree}
variable {before after info : MemoryInfo} {frame : Nat}

/-- The frames that an operation for one owner must leave alone. -/
def Others (outside : Nat → Prop) (trees : ι → Option Tree) (owner : ι)
    (memory : Memory Nat 512 PageTableEntry) (frame : Nat) : Prop :=
  outside frame ∨ ∃ other tree, other ≠ owner ∧ trees other = some tree ∧ Holds memory tree.root frame

/-- Every tree is well kept, and no two of them have a frame in common. -/
structure Isolated (outside : Nat → Prop) (trees : ι → Option Tree) (info : MemoryInfo) : Prop where
  tree : ∀ owner tree, trees owner = some tree → UserTree outside tree.root tree.slots [] info
  apart : ∀ owner other tree another, trees owner = some tree → trees other = some another → owner ≠ other →
    ∀ frame, Holds info.memory tree.root frame → ¬ Holds info.memory another.root frame
  shut : ∀ frame, outside frame → ¬ info.frameAllocator.Available frame

namespace Isolated

theorem shut_others (isolated : Isolated outside trees info) (listed : Others outside trees owner info.memory frame) :
    ¬ info.frameAllocator.Available frame := by
  rcases listed with strange | ⟨other, tree, _, found, held⟩
  · exact isolated.shut frame strange
  · rintro ⟨_, free⟩
    cases ((isolated.tree other tree found).holds held).1.symm.trans free

theorem focus (isolated : Isolated outside trees info) (found : trees owner = some tree) :
    UserTree (Others outside trees owner info.memory) tree.root tree.slots [] info := by
  have own := isolated.tree owner tree found
  refine own.elsewhere (fun _ _ => rfl) (fun frame held => (own.holds held).1) ?_
    fun frame listed => isolated.shut_others listed
  rintro frame held (strange | ⟨other, another, differs, here, also⟩)
  · exact (own.holds held).2.1 strange
  · exact isolated.apart owner other tree another found here differs.symm frame held also

/-- All trees stay where the tables do and their frames stay in use. -/
theorem keep (isolated : Isolated outside trees before)
    (tables : ∀ owner tree, trees owner = some tree → ∀ table ∈ tableSet 4 before.memory tree.root,
      after.memory table = before.memory table)
    (used : ∀ frame, before.frameAllocator.frameUsage frame = true → after.frameAllocator.frameUsage frame = true)
    (shut : ∀ frame, outside frame → ¬ after.frameAllocator.Available frame) : Isolated outside trees after where
  tree owner tree found := by
    have own := isolated.tree owner tree found
    exact own.elsewhere (tables owner tree found) (fun frame held => used frame (own.holds held).1)
      (fun frame held => (own.holds held).2.1) shut
  apart owner other tree another found here differs frame held also :=
    isolated.apart owner other tree another found here differs frame (held.of_agree (tables owner tree found))
      (also.of_agree (tables other another here))
  shut := shut

variable [DecidableEq ι]

/-- The tree of one owner is changed, made or given up. -/
theorem update {new : Option Tree} (isolated : Isolated outside trees before)
    (spares : Spares (Others outside trees owner before.memory) before after)
    (kept : ∀ tree, new = some tree →
      UserTree (Others outside trees owner before.memory) tree.root tree.slots [] after) :
    Isolated outside (Function.update trees owner new) after := by
  have shut : ∀ frame, outside frame → ¬ after.frameAllocator.Available frame :=
    fun frame strange => spares.shut frame (.inl strange)
  have listed : ∀ {other tree frame}, other ≠ owner → trees other = some tree →
      Holds before.memory tree.root frame → Others outside trees owner before.memory frame :=
    fun differs found held => .inr ⟨_, _, differs, found, held⟩
  have agree : ∀ {other tree}, other ≠ owner → trees other = some tree →
      ∀ table ∈ tableSet 4 before.memory tree.root, after.memory table = before.memory table :=
    fun differs found table member => spares.memory table (listed differs found (.inl member))
  have fresh : ∀ {tree other another frame}, new = some tree → other ≠ owner → trees other = some another →
      Holds after.memory tree.root frame → ¬ Holds after.memory another.root frame :=
    fun same differs found held also =>
      ((kept _ same).holds held).2.1 (listed differs found (also.of_agree (agree differs found)))
  refine ⟨fun other tree found => ?_, fun first second tree another found here differs frame held also => ?_, shut⟩
  · by_cases same : other = owner
    · rw [same, Function.update_self] at found
      have own := kept tree found
      exact own.elsewhere (fun _ _ => rfl) (fun frame held => (own.holds held).1)
        (fun frame held strange => (own.holds held).2.1 (.inl strange)) shut
    · rw [Function.update_of_ne same] at found
      have own := isolated.tree other tree found
      exact own.elsewhere (agree same found)
        (fun frame held => spares.used frame (listed same found held) (own.holds held).1)
        (fun frame held => (own.holds held).2.1) shut
  · by_cases one : first = owner
    · have two : second ≠ owner := fun same => differs (one.trans same.symm)
      rw [one, Function.update_self] at found
      rw [Function.update_of_ne two] at here
      exact fresh found two here held also
    · rw [Function.update_of_ne one] at found
      by_cases two : second = owner
      · rw [two, Function.update_self] at here
        exact fresh here one found also held
      · rw [Function.update_of_ne two] at here
        exact isolated.apart first second tree another found here differs frame
          (held.of_agree (agree one found)) (also.of_agree (agree two here))

theorem hand {heir : ι} (isolated : Isolated outside trees info) (found : trees owner = some tree)
    (vacant : trees heir = none) :
    Isolated outside (Function.update (Function.update trees owner none) heir (some tree)) info := by
  have differs : heir ≠ owner := by
    rintro rfl
    cases vacant.symm.trans found
  have given : Isolated outside (Function.update trees owner none) info :=
    isolated.update (.refl fun frame listed => isolated.shut_others listed) nofun
  refine given.update (.refl fun frame listed => given.shut_others listed) fun _ same => ?_
  cases same
  have own := isolated.tree owner tree found
  refine own.elsewhere (fun _ _ => rfl) (fun frame held => (own.holds held).1) ?_
    fun frame listed => given.shut_others listed
  rintro frame held (strange | ⟨other, another, _, here, also⟩)
  · exact (own.holds held).2.1 strange
  · by_cases same : other = owner
    · rw [same, Function.update_self] at here
      cases here
    · rw [Function.update_of_ne same] at here
      exact isolated.apart owner other tree another found here (Ne.symm same) frame held also

end Isolated

end MemoryInfo

end Zephyr
