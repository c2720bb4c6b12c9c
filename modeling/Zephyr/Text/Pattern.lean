import Mathlib.Data.List.Basic
import Mathlib.Data.List.Infix

/-! Patterns of literal text, captured runs of digits and captured shortest runs of any
text, matched from the start of a line with backtracking. -/

namespace Zephyr.Text

/-- Literal text, `(\d+)` and `(.*?)`. -/
inductive Piece where
  | literal (text : List Char)
  | digits
  | shortest

/-- The captured texts of the first match in the order of the search: a run of digits is
tried from its longest to its shortest, any text from its shortest on. -/
def matchPieces : List Piece → List Char → Option (List (List Char))
  | [], _ => some []
  | .literal text :: pieces, input =>
    if text.isPrefixOf input then matchPieces pieces (input.drop text.length) else none
  | .digits :: pieces, input =>
    ((List.range (input.takeWhile Char.isDigit).length).reverse.map (· + 1)).findSome? fun count =>
      (matchPieces pieces (input.drop count)).map (input.take count :: ·)
  | .shortest :: pieces, input =>
    (List.range ((input.takeWhile (· ≠ '\n')).length + 1)).findSome? fun count =>
      (matchPieces pieces (input.drop count)).map (input.take count :: ·)

variable {pieces : List Piece} {text body rest input : List Char} {groups : List (List Char)} {first : Char}

/-! ### Matches -/

theorem matchPieces_literal : matchPieces (.literal text :: pieces) (text ++ rest) = matchPieces pieces rest := by
  have found : text.isPrefixOf (text ++ rest) = true := List.isPrefixOf_iff_prefix.mpr (List.prefix_append _ _)
  rw [matchPieces, if_pos found, List.drop_left]

theorem matchPieces_elsewhere (starts : text.head? = some first) (away : input.head? ≠ some first) :
    matchPieces (.literal text :: pieces) input = none := by
  rw [matchPieces, if_neg]
  intro found
  obtain ⟨tail, rfl⟩ := List.isPrefixOf_iff_prefix.mp found
  exact away (by rw [List.head?_append, starts]; rfl)

theorem matchPieces_digits (digits : ∀ char ∈ body, char.isDigit = true) (some_digit : body ≠ [])
    (starts : text.head?.map Char.isDigit = some false) (matched : matchPieces pieces rest = some groups) :
    matchPieces (.digits :: .literal text :: pieces) (body ++ (text ++ rest)) = some (body :: groups) := by
  have run : ((body ++ (text ++ rest)).takeWhile Char.isDigit) = body := by
    cases text with
    | nil => cases starts
    | cons first tail =>
      have other : ¬ first.isDigit = true := by simpa using starts
      rw [List.takeWhile_append_of_pos digits, List.cons_append, List.takeWhile_cons_of_neg other, List.append_nil]
  obtain ⟨count, length⟩ : ∃ count, body.length = count + 1 :=
    Nat.exists_eq_succ_of_ne_zero fun zero => some_digit (List.length_eq_zero_iff.mp zero)
  rw [matchPieces, run, length, List.range_succ, List.reverse_append, List.map_append, List.findSome?_append]
  simp only [List.reverse_singleton, List.map_cons, List.map_nil, List.findSome?_cons, ← length, List.drop_left,
    List.take_left]
  rw [matchPieces_literal, matched]
  rfl

/-- The shortest text before a literal whose first character it does not hold. -/
theorem matchPieces_shortest (starts : text.head? = some first) (line : ∀ char ∈ body, char ≠ '\n' ∧ char ≠ first)
    (matched : matchPieces pieces rest = some groups) :
    matchPieces (.shortest :: .literal text :: pieces) (body ++ (text ++ rest)) = some (body :: groups) := by
  have run : ∃ more, ((body ++ (text ++ rest)).takeWhile (· ≠ '\n')).length + 1 = body.length + (more + 1) := by
    rw [List.takeWhile_append_of_pos fun char member => decide_eq_true (line char member).1, List.length_append]
    exact ⟨_, Nat.add_assoc _ _ _⟩
  obtain ⟨more, length⟩ := run
  rw [matchPieces, length, List.range_add, List.findSome?_append, List.findSome?_eq_none_iff.mpr, Option.none_or,
    List.range_succ_eq_map, List.map_cons, List.findSome?_cons]
  · simp only [Nat.add_zero, List.drop_left, List.take_left]
    rw [matchPieces_literal, matched]
    rfl
  · intro count listed
    have inside : count < body.length := List.mem_range.mp listed
    rw [matchPieces_elsewhere starts, Option.map_none]
    rw [List.drop_append_of_le_length (Nat.le_of_lt inside), List.drop_eq_getElem_cons inside, List.cons_append,
      List.head?_cons]
    exact fun same => (line _ (List.getElem_mem inside)).2 (Option.some.inj same)

/-! ### Texts without a match -/

theorem infix_of_match (matched : matchPieces pieces input = some groups) (listed : .literal text ∈ pieces) :
    text <:+: input := by
  induction pieces generalizing input groups with
  | nil => cases listed
  | cons piece pieces ih =>
    have later : ∀ {count others}, matchPieces pieces (input.drop count) = some others → .literal text ∈ pieces →
        text <:+: input := fun found inside => (ih found inside).trans (List.drop_suffix _ _).isInfix
    cases piece with
    | literal own =>
      rw [matchPieces] at matched
      split at matched
      · rename_i found
        cases listed with
        | head => exact (List.isPrefixOf_iff_prefix.mp found).isInfix
        | tail _ inside => exact later matched inside
      · cases matched
    | digits =>
      rw [matchPieces] at matched
      obtain ⟨count, _, found⟩ := List.exists_of_findSome?_eq_some matched
      obtain ⟨others, matched, _⟩ := Option.map_eq_some_iff.mp found
      cases listed with
      | tail _ inside => exact later matched inside
    | shortest =>
      rw [matchPieces] at matched
      obtain ⟨count, _, found⟩ := List.exists_of_findSome?_eq_some matched
      obtain ⟨others, matched, _⟩ := Option.map_eq_some_iff.mp found
      cases listed with
      | tail _ inside => exact later matched inside

def Avoids (text : List Char) : List Char → Prop
  | [] => True
  | char :: line => text.isPrefixOf (char :: line) = false ∧ Avoids text line

theorem Avoids.not_infix (avoids : Avoids text input) (some_text : text ≠ []) : ¬ text <:+: input := by
  induction input with
  | nil => exact fun found => some_text (List.infix_nil.mp found)
  | cons char line ih =>
    intro found
    rcases List.infix_cons_iff.mp found with here | later
    · exact absurd (List.isPrefixOf_iff_prefix.mpr here) (by rw [avoids.1]; decide)
    · exact ih avoids.2 later

/-- Text in front that lacks the second character adds no occurrence. -/
theorem Avoids.append {second : Char} (avoids : Avoids (first :: second :: text) rest) (away : rest.head? ≠ some second)
    (lacks : ∀ char ∈ body, char ≠ second) : Avoids (first :: second :: text) (body ++ rest) := by
  induction body with
  | nil => exact avoids
  | cons char body ih =>
    obtain ⟨_, others⟩ := List.forall_mem_cons.mp lacks
    refine ⟨?_, ih others⟩
    refine Bool.eq_false_iff.mpr fun found => ?_
    obtain ⟨tail, same⟩ := List.isPrefixOf_iff_prefix.mp found
    have next : (body ++ rest).head? = some second := by
      have tails : second :: text ++ tail = body ++ rest := (List.cons.inj same).2
      rw [← tails]
      rfl
    cases body with
    | nil => exact away next
    | cons other body => exact others other List.mem_cons_self (Option.some.inj next)

/-- Two texts that differ at a place both have. -/
def differ : List Char → List Char → Bool
  | one :: ones, other :: others => one ≠ other || differ ones others
  | _, _ => false

def clashes (text : List Char) : List Char → Bool
  | [] => true
  | char :: line => differ text (char :: line) && clashes text line

theorem not_isPrefixOf_of_differ {line : List Char} (differs : differ text line = true) (rest : List Char) :
    text.isPrefixOf (line ++ rest) = false := by
  induction text generalizing line with
  | nil => cases line <;> cases differs
  | cons one ones ih =>
    cases line with
    | nil => cases differs
    | cons other others =>
      by_cases same : one = other
      · have tail : differ ones others = true := by simpa [differ, same] using differs
        simp [List.isPrefixOf, ih tail]
      · simp [List.isPrefixOf, same]

/-- Fixed text in front that clashes adds no occurrence. -/
theorem Avoids.literal (avoids : Avoids text rest) (clash : clashes text body = true) : Avoids text (body ++ rest) := by
  induction body with
  | nil => exact avoids
  | cons char body ih =>
    obtain ⟨differs, others⟩ := Bool.and_eq_true_iff.mp clash
    exact ⟨not_isPrefixOf_of_differ differs rest, ih others⟩

theorem Avoids.literals {more : List Char} (avoids : Avoids text rest) (clash : clashes text (body ++ more) = true) :
    Avoids text (body ++ (more ++ rest)) := by
  rw [← List.append_assoc]
  exact avoids.literal clash

end Zephyr.Text
