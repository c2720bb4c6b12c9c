import Mathlib.Data.List.Basic

/-! Text laid out in rows: split at breaks, each line cut into rows of a fixed width. -/

namespace Zephyr.Text

variable {α : Type*} {isBreak : α → Bool} {width : Nat}

def lines (isBreak : α → Bool) : List α → List (List α)
  | [] => [[]]
  | item :: text =>
    if isBreak item then [] :: lines isBreak text
    else
      match lines isBreak text with
      | [] => [[item]]
      | line :: more => (item :: line) :: more

/-- A line in rows; an empty line is one empty row, and a full last row is not followed by
another one. -/
def cut (width : Nat) (line : List α) : List (List α) :=
  if 0 < width ∧ width < line.length then line.take width :: cut width (line.drop width) else [line]
termination_by line.length
decreasing_by
  rw [List.length_drop]
  omega

def rows (isBreak : α → Bool) (width : Nat) (text : List α) : List (List α) := (lines isBreak text).flatMap (cut width)

/-! ### One more item -/

theorem lines_ne_nil (text : List α) : lines isBreak text ≠ [] := by
  cases text with
  | nil => exact List.cons_ne_nil _ _
  | cons item text =>
    rw [lines]
    split
    · exact List.cons_ne_nil _ _
    · split <;> exact List.cons_ne_nil _ _

theorem lines_break {item : α} (breaks : isBreak item = true) (text : List α) :
    lines isBreak (text ++ [item]) = lines isBreak text ++ [[]] := by
  induction text with
  | nil => simp [lines, breaks]
  | cons first text ih =>
    rw [List.cons_append, lines, lines, ih]
    cases split : lines isBreak text with
    | nil => exact absurd split (lines_ne_nil text)
    | cons line more =>
      by_cases ends : isBreak first = true
      · rw [if_pos ends, if_pos ends]
        rfl
      · rw [if_neg ends, if_neg ends]
        rfl

theorem lines_item {item : α} (inside : isBreak item = false) (text : List α) :
    ∃ before last, lines isBreak text = before ++ [last] ∧
      lines isBreak (text ++ [item]) = before ++ [last ++ [item]] := by
  induction text with
  | nil => exact ⟨[], [], rfl, by simp [lines, inside]⟩
  | cons first text ih =>
    obtain ⟨before, last, split, next⟩ := ih
    rw [List.cons_append, lines, lines, split, next]
    by_cases ends : isBreak first = true
    · rw [if_pos ends, if_pos ends]
      exact ⟨[] :: before, last, rfl, rfl⟩
    · rw [if_neg ends, if_neg ends]
      cases before with
      | nil => exact ⟨[], first :: last, rfl, rfl⟩
      | cons line before => exact ⟨(first :: line) :: before, last, rfl, rfl⟩

theorem cut_of_le {line : List α} (fits : line.length ≤ width) : cut width line = [line] := by
  rw [cut, if_neg fun longer => Nat.not_lt.mpr fits longer.2]

theorem cut_of_lt {line : List α} (positive : 0 < width) (longer : width < line.length) :
    cut width line = line.take width :: cut width (line.drop width) := by
  rw [cut, if_pos ⟨positive, longer⟩]

/-- The rows when one item is added: the last row takes it, or it starts a row. -/
def addItem (width : Nat) (before : List (List α)) (last : List α) (item : α) : List (List α) :=
  if last.length < width then before ++ [last ++ [item]] else before ++ [last] ++ [[item]]

theorem cut_item (positive : 0 < width) (line : List α) (item : α) :
    ∃ before last, cut width line = before ++ [last] ∧
      cut width (line ++ [item]) = addItem width before last item := by
  induction line using cut.induct width with
  | case1 line longer ih =>
    obtain ⟨before, last, split, next⟩ := ih
    refine ⟨line.take width :: before, last, by rw [cut_of_lt positive longer.2, split]; rfl, ?_⟩
    rw [cut_of_lt positive (by rw [List.length_append]; omega), List.take_append_of_le_length (Nat.le_of_lt longer.2),
      List.drop_append_of_le_length (Nat.le_of_lt longer.2), next, addItem, addItem]
    split <;> rfl
  | case2 line short =>
    have fits : line.length ≤ width := Nat.not_lt.mp fun longer => short ⟨positive, longer⟩
    refine ⟨[], line, cut_of_le fits, ?_⟩
    by_cases room : line.length < width
    · rw [addItem, if_pos room]
      exact cut_of_le (by rw [List.length_append]; exact room)
    · have full : line.length = width := Nat.le_antisymm fits (Nat.not_lt.mp room)
      subst full
      rw [addItem, if_neg room, cut_of_lt positive (by rw [List.length_append]; exact Nat.lt_succ_self _),
        List.take_left, List.drop_left, cut_of_le positive]
      rfl

theorem rows_nil : rows isBreak width [] = [[]] := by
  rw [rows, lines, List.flatMap_singleton, cut_of_le (Nat.zero_le _)]

theorem rows_break {item : α} (breaks : isBreak item = true) (text : List α) :
    rows isBreak width (text ++ [item]) = rows isBreak width text ++ [[]] := by
  rw [rows, lines_break breaks, List.flatMap_append, List.flatMap_singleton, cut_of_le (Nat.zero_le _)]
  rfl

theorem rows_item {item : α} (positive : 0 < width) (inside : isBreak item = false) (text : List α) :
    ∃ before last, rows isBreak width text = before ++ [last] ∧
      rows isBreak width (text ++ [item]) = addItem width before last item := by
  obtain ⟨earlier, line, split, next⟩ := lines_item inside text
  obtain ⟨before, last, own, more⟩ := cut_item positive line item
  refine ⟨earlier.flatMap (cut width) ++ before, last, ?_, ?_⟩
  · rw [rows, split, List.flatMap_append, List.flatMap_singleton, own, List.append_assoc]
  · rw [rows, next, List.flatMap_append, List.flatMap_singleton, more, addItem, addItem]
    split <;> simp only [List.append_assoc]

end Zephyr.Text
