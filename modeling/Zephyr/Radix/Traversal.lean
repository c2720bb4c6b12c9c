import Zephyr.Radix.Tree
import Mathlib.Data.List.Pairwise

/-! Walking a whole tree of tables: the tables in the order a recursive descent
meets them, and the relation between a tree and a copy of it. -/

namespace Zephyr.Radix

universe u v

variable {Frame : Type v} {Word : Type u} {n : Nat} [Zero Word] [TableEntry Word Frame]
variable {memory changed : Memory Frame n Word} {source target table child : Frame}
variable {path : List (Fin n)} {index : Fin n} {levels : Nat}

def tables (memory : Memory Frame n Word) : Nat → Frame → List Frame
  | 0, _ => []
  | levels + 1, table => table :: (List.finRange n).flatMap fun index =>
      match next (memory table index) with
      | some child => tables memory levels child
      | none => []

def tablesBelow (memory : Memory Frame n Word) (levels : Nat) (table : Frame) (index : Fin n) : List Frame :=
  match next (memory table index) with
  | some child => tables memory levels child
  | none => []

theorem tables_succ : tables memory (levels + 1) table =
    table :: (List.finRange n).flatMap (tablesBelow memory levels table) := rfl

theorem tablesBelow_some (points : next (memory table index) = some child) :
    tablesBelow memory levels table index = tables memory levels child := by
  simp [tablesBelow, points]

theorem tablesBelow_none (empty : next (memory table index) = none) :
    tablesBelow memory levels table index = [] := by
  simp [tablesBelow, empty]

theorem tablesBelow_zero : tablesBelow memory 0 table index = [] := by
  unfold tablesBelow
  split <;> rfl

theorem tablesBelow_subset {last : Frame} (index : Fin n) (below : last ∈ tablesBelow memory levels table index) :
    last ∈ tables memory (levels + 1) table := by
  rw [tables_succ]
  exact List.mem_cons_of_mem _ (List.mem_flatMap.mpr ⟨index, List.mem_finRange index, below⟩)

theorem mem_tables_self : table ∈ tables memory (levels + 1) table := List.mem_cons_self ..

theorem mem_tables : table ∈ tables memory levels source ↔ table ∈ tableSet levels memory source := by
  induction levels generalizing source with
  | zero => simp [tables, tableSet]
  | succ levels ih =>
    rw [tables_succ, List.mem_cons, List.mem_flatMap]
    constructor
    · rintro (rfl | ⟨index, _, below⟩)
      · exact root_mem_tableSet (Nat.succ_pos levels)
      · cases points : next (memory source index) with
        | none => simp [tablesBelow_none points] at below
        | some child =>
          rw [tablesBelow_some points, ih] at below
          obtain ⟨path, short, found⟩ := below
          exact ⟨index :: path, Nat.succ_lt_succ short, by simp [tableAt, points, found]⟩
    · rintro ⟨path, short, found⟩
      cases path with
      | nil => exact .inl (Option.some.inj found).symm
      | cons index path =>
        cases points : next (memory source index) with
        | none => simp [tableAt, points] at found
        | some child =>
          refine .inr ⟨index, List.mem_finRange index, ?_⟩
          rw [tablesBelow_some points, ih]
          exact ⟨path, Nat.lt_of_succ_lt_succ short, by simpa [tableAt, points] using found⟩

theorem tables_congr (agree : ∀ last ∈ tables memory levels table, changed last = memory last) :
    tables changed levels table = tables memory levels table := by
  induction levels generalizing table with
  | zero => rfl
  | succ levels ih =>
    rw [tables_succ, tables_succ]
    congr 1
    refine List.flatMap_congr fun index _ => ?_
    have here := agree table mem_tables_self
    cases points : next (memory table index) with
    | none => rw [tablesBelow_none points, tablesBelow_none (by rw [here, points])]
    | some child =>
      rw [tablesBelow_some points, tablesBelow_some (by rw [here, points])]
      refine ih fun last below => agree last (tablesBelow_subset index ?_)
      rwa [tablesBelow_some points]

theorem unshared_of_nodup (distinct : (tables memory levels source).Nodup) :
    Unshared levels memory source := by
  induction levels generalizing source with
  | zero =>
    intro path other table short
    exact absurd short (Nat.not_lt_zero _)
  | succ levels ih =>
    rw [tables_succ, List.nodup_cons, List.nodup_flatMap] at distinct
    obtain ⟨above, inner, apart⟩ := distinct
    have below : ∀ {index path table}, path.length < levels →
        tableAt memory source (index :: path) = some table →
        table ∈ tablesBelow memory levels source index := by
      intro index path table short found
      cases points : next (memory source index) with
      | none => simp [tableAt, points] at found
      | some child =>
        rw [tablesBelow_some points, mem_tables]
        exact ⟨path, short, by simpa [tableAt, points] using found⟩
    intro path other table short shorter found again
    cases path with
    | nil =>
      cases other with
      | nil => rfl
      | cons index other =>
        cases found
        exact absurd (List.mem_flatMap.mpr ⟨index, List.mem_finRange index,
          below (Nat.lt_of_succ_lt_succ shorter) again⟩) above
    | cons index path =>
      have left := below (Nat.lt_of_succ_lt_succ short) found
      cases other with
      | nil =>
        cases again
        exact absurd (List.mem_flatMap.mpr ⟨index, List.mem_finRange index, left⟩) above
      | cons position other =>
        have right := below (Nat.lt_of_succ_lt_succ shorter) again
        by_cases same : index = position
        · subst same
          cases points : next (memory source index) with
          | none => simp [tableAt, points] at found
          | some child =>
            have once := inner index (List.mem_finRange index)
            rw [tablesBelow_some points] at once
            rw [ih once (Nat.lt_of_succ_lt_succ short) (Nat.lt_of_succ_lt_succ shorter)
              (by simpa [tableAt, points] using found) (by simpa [tableAt, points] using again)]
        · have symmetric : Std.Symm (Function.onFun List.Disjoint (tablesBelow memory levels source)) :=
            ⟨fun _ _ disjoint _ first second => disjoint second first⟩
          have disjoint := apart.forall (List.mem_finRange index) (List.mem_finRange position) same
          exact absurd right (disjoint left)

theorem entryAt_cons_some (points : next (memory source index) = some child) {position : Fin n} :
    entryAt memory source (index :: path) position = entryAt memory child path position := by
  simp [entryAt, tableAt, points]

theorem entryAt_cons_none (empty : next (memory source index) = none) {position : Fin n} :
    entryAt memory source (index :: path) position = 0 := by
  simp [entryAt, tableAt, empty]

/-- Some entry of the tree has a property, which may depend on the number of
levels below the entry. -/
def SomeEntry (holds : Nat → Word → Prop) (memory : Memory Frame n Word) (levels : Nat) (root : Frame) : Prop :=
  ∃ path index, path.length < levels ∧ holds (levels - 1 - path.length) (entryAt memory root path index)

/-- An entry with the property is in the root table or below one of its entries. -/
theorem someEntry_succ {holds : Nat → Word → Prop} (blank : ∀ below, ¬ holds below 0) :
    SomeEntry holds memory (levels + 1) source ↔ ∃ index, holds levels (memory source index) ∨
      ∃ child, next (memory source index) = some child ∧ SomeEntry holds memory levels child := by
  constructor
  · rintro ⟨path, position, short, held⟩
    cases path with
    | nil => exact ⟨position, .inl (by simpa [entryAt] using held)⟩
    | cons index path =>
      cases points : next (memory source index) with
      | none =>
        rw [entryAt_cons_none points] at held
        exact absurd held (blank _)
      | some child =>
        rw [entryAt_cons_some points, List.length_cons, Nat.add_sub_cancel, Nat.sub_add_eq,
          Nat.sub_right_comm] at held
        exact ⟨index, .inr ⟨child, points, path, position, Nat.lt_of_succ_lt_succ short, held⟩⟩
  · rintro ⟨index, held | ⟨child, points, path, position, short, held⟩⟩
    · exact ⟨[], index, Nat.succ_pos levels, by simpa [entryAt] using held⟩
    · refine ⟨index :: path, position, Nat.succ_lt_succ short, ?_⟩
      rw [entryAt_cons_some points, List.length_cons, Nat.add_sub_cancel, Nat.sub_add_eq,
        Nat.sub_right_comm]
      exact held

section Rewrites

variable {holds : Nat → Word → Prop} {word : Word}

theorem Rewrites.someEntry (rewrites : Rewrites levels memory changed source path index word)
    (found : SomeEntry holds changed levels source) :
    holds (levels - 1 - path.length) word ∨ SomeEntry holds memory levels source := by
  obtain ⟨other, position, short, held⟩ := found
  rw [rewrites position short] at held
  split at held
  · rename_i here
    rw [here.1] at held
    exact .inl held
  · exact .inr ⟨other, position, short, held⟩

theorem Rewrites.someEntry_kept (rewrites : Rewrites levels memory changed source path index word)
    (lost : ¬ holds (levels - 1 - path.length) (entryAt memory source path index))
    (found : SomeEntry holds memory levels source) : SomeEntry holds changed levels source := by
  obtain ⟨other, position, short, held⟩ := found
  refine ⟨other, position, short, ?_⟩
  rw [rewrites position short, if_neg]
  · exact held
  · rintro ⟨rfl, rfl⟩
    exact lost held

end Rewrites

section Mirrors

variable (alike : Word → Word → Prop)

/-- A copy of an entry: the same word at the last level and where no table is
below, and otherwise a word alike over a copy of that table. -/
def MirrorsEntry (copied : Frame → Frame → Prop) (last : Prop) (word copy : Word) : Prop :=
  ((last ∨ next word = none) → copy = word) ∧
  ∀ child, ¬ last → next word = some child → ∃ twin, next copy = some twin ∧ alike word copy ∧ copied child twin

/-- Two trees of the same shape and contents in separate tables. -/
def Mirrors (memory changed : Memory Frame n Word) : Nat → Frame → Frame → Prop
  | 0, _, _ => True
  | levels + 1, source, target => ∀ index, MirrorsEntry alike (Mirrors memory changed levels) (levels = 0)
      (memory source index) (changed target index)

variable {alike} {other : Memory Frame n Word}

theorem MirrorsEntry.imp {copied kept : Frame → Frame → Prop} {last : Prop} {word copy : Word}
    (mirrors : MirrorsEntry alike copied last word copy)
    (implies : ∀ child twin, next word = some child → next copy = some twin → copied child twin → kept child twin) :
    MirrorsEntry alike kept last word copy := by
  refine ⟨mirrors.1, fun child inner points => ?_⟩
  obtain ⟨twin, leads, same, below⟩ := mirrors.2 child inner points
  exact ⟨twin, leads, same, implies child twin points leads below⟩

/-- A copy stays one while both trees' tables are left alone. -/
theorem Mirrors.congr (mirrors : Mirrors alike memory changed levels source target)
    (kept : ∀ last ∈ tables changed levels target, other last = changed last) :
    Mirrors alike memory other levels source target := by
  induction levels generalizing source target with
  | zero => trivial
  | succ levels ih =>
    intro index
    have here := kept target mem_tables_self
    rw [here]
    refine (mirrors index).imp fun child twin _ leads below => ih below fun last inner => ?_
    refine kept last (tablesBelow_subset index ?_)
    rwa [tablesBelow_some leads]

theorem Mirrors.entryAt (mirrors : Mirrors alike memory changed levels source target)
    (short : path.length < levels) (position : Fin n) :
    MirrorsEntry alike (fun _ _ => True) (path.length + 1 = levels) (Radix.entryAt memory source path position)
      (Radix.entryAt changed target path position) := by
  induction path generalizing levels source target with
  | nil =>
    obtain ⟨levels, rfl⟩ : ∃ rest, levels = rest + 1 := ⟨levels - 1, by simp at short; omega⟩
    have here := (mirrors position).imp fun _ _ _ _ _ => trivial
    simpa [Radix.entryAt] using here
  | cons index path ih =>
    obtain ⟨levels, rfl⟩ : ∃ rest, levels = rest + 1 := ⟨levels - 1, by omega⟩
    have inner : ¬ levels = 0 := by
      rintro rfl
      simp at short
    cases points : next (memory source index) with
    | none =>
      have same := (mirrors index).1 (.inr points)
      rw [entryAt_cons_none points, entryAt_cons_none (by rw [same, points])]
      exact ⟨fun _ => rfl, fun child _ leads => by simp at leads⟩
    | some child =>
      obtain ⟨twin, leads, _, below⟩ := (mirrors index).2 child inner points
      rw [entryAt_cons_some points, entryAt_cons_some leads]
      simpa using ih below (Nat.lt_of_succ_lt_succ short)

/-- The leaves of a copy are leaves of the original. -/
theorem Mirrors.someEntry {holds : Nat → Word → Prop} (mirrors : Mirrors alike memory changed levels source target)
    (leaf : ∀ below word, holds below word → below = 0 ∨ next word = none)
    (found : SomeEntry holds changed levels target) : SomeEntry holds memory levels source := by
  obtain ⟨path, position, short, held⟩ := found
  refine ⟨path, position, short, ?_⟩
  obtain ⟨same, inner⟩ := mirrors.entryAt short position
  by_cases last : path.length + 1 = levels
  · rwa [← same (.inl last)]
  · cases points : next (Radix.entryAt memory source path position) with
    | none => rwa [← same (.inr points)]
    | some child =>
      obtain ⟨twin, leads, _⟩ := inner child last points
      rcases leaf _ _ held with bottom | empty
      · omega
      · cases leads.symm.trans empty

end Mirrors

end Zephyr.Radix
