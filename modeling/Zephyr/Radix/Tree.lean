import Mathlib.Data.List.Nodup
import Mathlib.Data.List.FinRange
import Mathlib.Data.List.Induction
import Mathlib.Data.Set.Insert
import Mathlib.Logic.Function.Basic

/-! Trees of tables stored in a memory of frames. A tree is read through its
positions: a path of indices from the root, and an index in the table found
there. Each change of one entry is a point update of that reading. -/

namespace Zephyr.Radix

universe u v

class TableEntry (Word : Type u) (Frame : outParam (Type v)) [Zero Word] where
  next : Word → Option Frame
  next_zero : next 0 = none

export TableEntry (next)

attribute [simp] TableEntry.next_zero

/-- Frames of `n` words each. -/
abbrev Memory (Frame : Type v) (n : Nat) (Word : Type u) : Type (max u v) := Frame → Fin n → Word

section Memory

variable {Frame : Type v} {Word : Type u} {n : Nat} [DecidableEq Frame]
variable (memory : Memory Frame n Word) (table other : Frame) (index : Fin n) (word : Word)

def Memory.write : Memory Frame n Word :=
  Function.update memory table (Function.update (memory table) index word)

def Memory.clear [Zero Word] : Memory Frame n Word := Function.update memory table fun _ => 0

@[simp] theorem write_same : memory.write table index word table index = word := by
  simp [Memory.write]

theorem write_index {position : Fin n} (differs : position ≠ index) :
    memory.write table index word table position = memory table position := by
  simp [Memory.write, Function.update_of_ne differs]

theorem write_table {table other : Frame} (differs : other ≠ table) :
    memory.write table index word other = memory other := by
  simp [Memory.write, Function.update_of_ne differs]

theorem write_self (held : memory table index = word) : memory.write table index word = memory := by
  simp [Memory.write, ← held]

@[simp] theorem clear_same [Zero Word] : memory.clear table table index = 0 := by
  simp [Memory.clear]

theorem clear_table [Zero Word] {table other : Frame} (differs : other ≠ table) :
    memory.clear table other = memory other := by
  simp [Memory.clear, Function.update_of_ne differs]

end Memory

section Paths

variable {Frame : Type v} {Word : Type u} {n : Nat} [Zero Word] [TableEntry Word Frame]
variable {memory changed : Memory Frame n Word} {root table frame : Frame}
variable {path rest : List (Fin n)} {index : Fin n} {word : Word} {levels : Nat}

/-- The table a path of indices leads to. -/
def tableAt (memory : Memory Frame n Word) (root : Frame) : List (Fin n) → Option Frame
  | [] => some root
  | index :: rest => (next (memory root index)).bind fun child => tableAt memory child rest

/-- The entry at a position, zero where the path ends early. -/
def entryAt (memory : Memory Frame n Word) (root : Frame) (path : List (Fin n)) (index : Fin n) : Word :=
  match tableAt memory root path with
  | some table => memory table index
  | none => 0

/-- The frames a tree of the given number of levels is made of. -/
def tableSet (levels : Nat) (memory : Memory Frame n Word) (root : Frame) : Set Frame :=
  { table | ∃ path, path.length < levels ∧ tableAt memory root path = some table }

/-- No table is reached by two paths. -/
def Unshared (levels : Nat) (memory : Memory Frame n Word) (root : Frame) : Prop :=
  ∀ ⦃path other table⦄, path.length < levels → other.length < levels →
    tableAt memory root path = some table → tableAt memory root other = some table → path = other

@[simp] theorem tableAt_nil : tableAt memory root [] = some root := rfl

theorem tableAt_append : tableAt memory root (path ++ rest) =
    (tableAt memory root path).bind fun table => tableAt memory table rest := by
  induction path generalizing root with
  | nil => rfl
  | cons index path ih =>
    cases found : next (memory root index) with
    | none => simp [tableAt, found]
    | some child => simp [tableAt, found, ih]

theorem tableAt_concat : tableAt memory root (path ++ [index]) =
    (tableAt memory root path).bind fun table => next (memory table index) := by
  rw [tableAt_append]
  congr 1
  funext table
  cases found : next (memory table index) <;> simp [tableAt, found]

theorem entryAt_of_tableAt (found : tableAt memory root path = some table) :
    entryAt memory root path index = memory table index := by
  simp [entryAt, found]

theorem entryAt_of_none (missing : tableAt memory root path = none) :
    entryAt memory root path index = 0 := by
  simp [entryAt, missing]

theorem tableAt_concat_eq : tableAt memory root (path ++ [index]) =
    next (entryAt memory root path index) := by
  rw [tableAt_concat]
  cases found : tableAt memory root path with
  | none => simp [entryAt_of_none found]
  | some table => simp [entryAt_of_tableAt found]

theorem root_mem_tableSet (positive : 0 < levels) : root ∈ tableSet levels memory root :=
  ⟨[], positive, rfl⟩

theorem mem_tableSet (short : path.length < levels) (found : tableAt memory root path = some table) :
    table ∈ tableSet levels memory root :=
  ⟨path, short, found⟩

theorem tableAt_of_entryAt_ne (used : entryAt memory root path index ≠ 0) :
    ∃ table, tableAt memory root path = some table ∧ entryAt memory root path index = memory table index := by
  cases found : tableAt memory root path with
  | none => exact absurd (entryAt_of_none found) used
  | some table => exact ⟨table, rfl, entryAt_of_tableAt found⟩

/-- A path is followed the same way in two memories that agree on where each
entry along it points. -/
theorem tableAt_congr (agree : ∀ stem index table, stem ++ [index] <+: path →
      tableAt memory root stem = some table → next (changed table index) = next (memory table index)) :
    tableAt changed root path = tableAt memory root path := by
  induction path using List.reverseRecOn with
  | nil => rfl
  | append_singleton path index ih =>
    have stem := ih fun stem last table before found =>
      agree stem last table (before.trans (List.prefix_append _ _)) found
    rw [tableAt_concat, tableAt_concat, stem]
    cases found : tableAt memory root path with
    | none => rfl
    | some table => exact agree path index table List.prefix_rfl found

theorem tableAt_frame (agree : ∀ table ∈ tableSet levels memory root, changed table = memory table)
    (short : path.length ≤ levels) : tableAt changed root path = tableAt memory root path := by
  refine tableAt_congr fun stem index table before found => ?_
  have bound := before.length_le
  rw [List.length_append, List.length_singleton] at bound
  rw [agree table (mem_tableSet (by omega) found)]

theorem entryAt_frame (agree : ∀ table ∈ tableSet levels memory root, changed table = memory table)
    (short : path.length < levels) : entryAt changed root path index = entryAt memory root path index := by
  have same := tableAt_frame agree short.le
  cases found : tableAt memory root path with
  | none => rw [entryAt_of_none found, entryAt_of_none (same.trans found)]
  | some table =>
    rw [entryAt_of_tableAt found, entryAt_of_tableAt (same.trans found),
      agree table (mem_tableSet short found)]

theorem tableSet_congr (same : ∀ path, path.length < levels →
      tableAt changed root path = tableAt memory root path) :
    tableSet levels changed root = tableSet levels memory root := by
  ext table
  constructor
  · rintro ⟨path, short, found⟩
    exact ⟨path, short, (same path short).symm.trans found⟩
  · rintro ⟨path, short, found⟩
    exact ⟨path, short, (same path short).trans found⟩

theorem Unshared.congr (unshared : Unshared levels memory root) (same : ∀ path, path.length < levels →
      tableAt changed root path = tableAt memory root path) : Unshared levels changed root := by
  intro path other table short shorter found again
  exact unshared short shorter ((same path short).symm.trans found) ((same other shorter).symm.trans again)

end Paths

section Writes

variable {Frame : Type v} {Word : Type u} {n : Nat} [DecidableEq Frame] [Zero Word] [TableEntry Word Frame]
variable {memory : Memory Frame n Word} {root table frame : Frame}
variable {path stem : List (Fin n)} {index position : Fin n} {word : Word} {levels : Nat}

/-- What a write to the entry at a position does to the reading of the tree. -/
def Rewrites (levels : Nat) (memory changed : Memory Frame n Word) (root : Frame)
    (path : List (Fin n)) (index : Fin n) (word : Word) : Prop :=
  ∀ ⦃other : List (Fin n)⦄ (position : Fin n), other.length < levels →
    entryAt changed root other position =
      if other = path ∧ position = index then word else entryAt memory root other position

omit [DecidableEq Frame] in
theorem Rewrites.tableAt {changed : Memory Frame n Word}
    (rewrites : Rewrites levels memory changed root path index word) {other : List (Fin n)}
    (short : other.length ≤ levels) (aside : other ≠ path ++ [index]) :
    Radix.tableAt changed root other = Radix.tableAt memory root other := by
  rcases other.eq_nil_or_concat with rfl | ⟨stem, position, rfl⟩
  · rfl
  · rw [List.concat_eq_append, List.length_append, List.length_singleton] at short
    rw [List.concat_eq_append] at aside ⊢
    rw [tableAt_concat_eq, tableAt_concat_eq, rewrites position (by omega), if_neg]
    rintro ⟨rfl, rfl⟩
    exact aside rfl

theorem entryAt_write (unshared : Unshared levels memory root) (short : path.length < levels)
    (found : tableAt memory root path = some table) {other : List (Fin n)} (shorter : other.length < levels)
    (same : tableAt (memory.write table index word) root other = tableAt memory root other) :
    entryAt (memory.write table index word) root other position =
      if other = path ∧ position = index then word else entryAt memory root other position := by
  cases reached : tableAt memory root other with
  | none =>
    have differs : other ≠ path := by
      rintro rfl
      cases reached.symm.trans found
    rw [entryAt_of_none (same.trans reached), entryAt_of_none reached]
    simp [differs]
  | some last =>
    rw [entryAt_of_tableAt (same.trans reached), entryAt_of_tableAt reached]
    by_cases here : last = table
    · subst here
      obtain rfl := unshared shorter short reached found
      by_cases at_index : position = index
      · simp [at_index]
      · simp [at_index, write_index]
    · have differs : other ≠ path := by
        rintro rfl
        exact here (Option.some.inj (reached.symm.trans found))
      simp [differs, write_table _ _ _ here]

/-- Rewriting an entry that goes on pointing where it did. -/
theorem tableAt_write_same (kept : next word = next (memory table index)) (other : List (Fin n)) :
    tableAt (memory.write table index word) root other = tableAt memory root other := by
  refine tableAt_congr fun stem position last _ _ => ?_
  by_cases here : last = table
  · subst here
    by_cases at_index : position = index
    · simp [at_index, kept]
    · rw [write_index _ _ _ _ at_index]
  · rw [write_table _ _ _ here]

theorem tableAt_write_leaf (unshared : Unshared levels memory root) (last : path.length + 1 = levels)
    (found : tableAt memory root path = some table) {other : List (Fin n)} (short : other.length < levels) :
    tableAt (memory.write table index word) root other = tableAt memory root other := by
  refine tableAt_congr fun stem position reached before arrived => ?_
  have bound := before.length_le
  rw [List.length_append, List.length_singleton] at bound
  have differs : reached ≠ table := by
    rintro rfl
    have same := unshared (by omega) (by omega) arrived found
    subst same
    omega
  rw [write_table _ _ _ differs]

theorem tableAt_write_link (unshared : Unshared levels memory root) (short : path.length < levels)
    (found : tableAt memory root path = some table) (empty : next (memory table index) = none)
    (points : next word = some frame) (fresh : frame ∉ tableSet levels memory root)
    (blank : ∀ position, memory frame position = 0) {other : List (Fin n)} (shorter : other.length < levels) :
    tableAt (memory.write table index word) root other =
      if other = path ++ [index] then some frame else tableAt memory root other := by
  have apart : frame ≠ table := by
    rintro rfl
    exact fresh (mem_tableSet short found)
  have aside : ∀ {other : List (Fin n)}, other.length < levels → ¬ path ++ [index] <+: other →
      tableAt (memory.write table index word) root other = tableAt memory root other := by
    intro other shorter outside
    refine tableAt_congr fun stem position reached before arrived => ?_
    by_cases here : reached = table
    · subst here
      have bound := before.length_le
      rw [List.length_append, List.length_singleton] at bound
      obtain rfl := unshared (by omega) short arrived found
      have at_index : position ≠ index := by
        rintro rfl
        exact outside before
      rw [write_index _ _ _ _ at_index]
    · rw [write_table _ _ _ here]
  by_cases inside : path ++ [index] <+: other
  · obtain ⟨rest, rfl⟩ := inside
    have stem : tableAt (memory.write table index word) root path = some table := by
      rw [aside short, found]
      intro before
      have bound := before.length_le
      rw [List.length_append, List.length_singleton] at bound
      omega
    have top : tableAt (memory.write table index word) root (path ++ [index]) = some frame := by
      simp [tableAt_concat, stem, points]
    have bottom : tableAt memory root (path ++ [index]) = none := by
      simp [tableAt_concat, found, empty]
    rw [tableAt_append, top]
    cases rest with
    | nil => simp
    | cons position rest =>
      rw [if_neg (by simp), tableAt_append, bottom]
      simp [tableAt, write_table _ _ _ apart, blank]
  · have differs : other ≠ path ++ [index] := by
      rintro rfl
      exact inside List.prefix_rfl
    rw [aside shorter inside, if_neg differs]

theorem rewrites_link (unshared : Unshared levels memory root) (upper : path.length + 1 < levels)
    (found : tableAt memory root path = some table) (empty : next (memory table index) = none)
    (points : next word = some frame) (fresh : frame ∉ tableSet levels memory root)
    (blank : ∀ position, memory frame position = 0) :
    Rewrites levels memory (memory.write table index word) root path index word := by
  intro other position shorter
  have follow := tableAt_write_link unshared (by omega) found empty points fresh blank shorter
  by_cases linked : other = path ++ [index]
  · subst linked
    have apart : frame ≠ table := by
      rintro rfl
      exact fresh (mem_tableSet (by omega) found)
    rw [if_pos rfl] at follow
    have bottom : tableAt memory root (path ++ [index]) = none := by
      simp [tableAt_concat, found, empty]
    simp [entryAt_of_tableAt follow, entryAt_of_none bottom, write_table _ _ _ apart, blank]
  · rw [if_neg linked] at follow
    exact entryAt_write unshared (by omega) found shorter follow

theorem tableSet_write_link (unshared : Unshared levels memory root) (upper : path.length + 1 < levels)
    (found : tableAt memory root path = some table) (empty : next (memory table index) = none)
    (points : next word = some frame) (fresh : frame ∉ tableSet levels memory root)
    (blank : ∀ position, memory frame position = 0) :
    tableSet levels (memory.write table index word) root = insert frame (tableSet levels memory root) := by
  have follow := fun {other : List (Fin n)} (shorter : other.length < levels) =>
    tableAt_write_link unshared (by omega) found empty points fresh blank shorter
  ext last
  constructor
  · rintro ⟨other, shorter, reached⟩
    rw [follow shorter] at reached
    split at reached
    · exact .inl (Option.some.inj reached).symm
    · exact .inr ⟨other, shorter, reached⟩
  · rintro (rfl | ⟨other, shorter, reached⟩)
    · exact ⟨path ++ [index], by simpa using upper, by rw [follow (by simpa using upper), if_pos rfl]⟩
    · refine ⟨other, shorter, ?_⟩
      rw [follow shorter, if_neg, reached]
      rintro rfl
      simp [tableAt_concat, found, empty] at reached

theorem Unshared.write_link (unshared : Unshared levels memory root) (short : path.length < levels)
    (found : tableAt memory root path = some table) (empty : next (memory table index) = none)
    (points : next word = some frame) (fresh : frame ∉ tableSet levels memory root)
    (blank : ∀ position, memory frame position = 0) :
    Unshared levels (memory.write table index word) root := by
  intro one other last first second found_one found_other
  rw [tableAt_write_link unshared short found empty points fresh blank first] at found_one
  rw [tableAt_write_link unshared short found empty points fresh blank second] at found_other
  split at found_one <;> split at found_other
  · rename_i left right
    exact left.trans right.symm
  · cases found_one
    exact absurd (mem_tableSet second found_other) fresh
  · cases found_other
    exact absurd (mem_tableSet first found_one) fresh
  · exact unshared first second found_one found_other

end Writes

end Zephyr.Radix
