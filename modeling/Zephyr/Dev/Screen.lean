import Zephyr.Dev.VgaBuffer
import Zephyr.Text.Layout

/-! What the screen shows of the strings written to it. -/

namespace Zephyr.Vga

namespace Buffer

/-- One cell replaced. -/
def set (self : Buffer) (row col : Nat) (character : ScreenChar) : Buffer :=
  ⟨fun ownRow ownCol => if ownRow.val = row ∧ ownCol.val = col then character else self.chars ownRow ownCol⟩

def setRow (self : Buffer) (row : Nat) (cells : Fin bufferWidth → ScreenChar) : Buffer :=
  ⟨fun ownRow ownCol => if ownRow.val = row then cells ownCol else self.chars ownRow ownCol⟩

/-- Every row moved up by one, and the bottom row blanked. -/
def scroll (self : Buffer) (blank : ScreenChar) : Buffer :=
  ⟨fun row col => if below : row.val + 1 < bufferHeight then self.chars ⟨row.val + 1, below⟩ col else blank⟩

variable {self : Buffer} {row col : Nat}

theorem ext_cells {one other : Buffer} (same : ∀ row col, one.chars row col = other.chars row col) : one = other := by
  cases one
  cases other
  exact congrArg Buffer.mk (funext fun row => funext fun col => same row col)

theorem read_eq (inside : row < bufferHeight) (within : col < bufferWidth) :
    self.read row col = .ok (self.chars ⟨row, inside⟩ ⟨col, within⟩) := by
  rw [read, dif_pos ⟨inside, within⟩]

theorem write_eq (inside : row < bufferHeight) (within : col < bufferWidth) (character : ScreenChar) :
    self.write row col character = .ok (self.set row col character) := by
  rw [write, if_pos ⟨inside, within⟩]
  rfl

theorem foldlM_setRow {body : Buffer → Nat → Except Fault Buffer} (cells : Fin bufferWidth → ScreenChar)
    (step : ∀ before : Buffer, (∀ ownRow ownCol, ownRow.val ≠ row → before.chars ownRow ownCol = self.chars ownRow ownCol) →
      ∀ col (within : col < bufferWidth), body before col = .ok (before.set row col (cells ⟨col, within⟩))) :
    (List.range' 0 bufferWidth).foldlM body self = .ok (self.setRow row cells) := by
  let state (count : Nat) : Buffer :=
    ⟨fun ownRow ownCol => if ownRow.val = row ∧ ownCol.val < count then cells ownCol else self.chars ownRow ownCol⟩
  have starts : state 0 = self := ext_cells fun ownRow ownCol => if_neg fun both => Nat.not_lt_zero _ both.2
  have ends : state bufferWidth = self.setRow row cells := by
    refine ext_cells fun ownRow ownCol => ?_
    simp only [state, setRow, ownCol.isLt, and_true]
  refine foldlM_range' state starts ends fun turn before => ?_
  have elsewhere : ∀ ownRow ownCol, ownRow.val ≠ row → (state turn).chars ownRow ownCol = self.chars ownRow ownCol :=
    fun ownRow ownCol other => if_neg fun both => other both.1
  rw [Nat.zero_add, step (state turn) elsewhere turn before]
  refine congrArg Except.ok (ext_cells fun ownRow ownCol => ?_)
  simp only [state, set]
  grind

end Buffer

namespace Writer

variable {self : Writer}

theorem clearRow_eq {row : Nat} (inside : row < bufferHeight) :
    self.clearRow row = .ok { self with buffer := self.buffer.setRow row fun _ => ⟨0x20, self.colorCode⟩ } := by
  rw [clearRow, Buffer.foldlM_setRow fun _ => ⟨0x20, self.colorCode⟩]
  · rfl
  · exact fun before _ col within => Buffer.write_eq inside within _

/-- One turn of the outer loop of `new_line` copies a row to the row above. -/
theorem copyRow_eq {buffer : Buffer} {row : Nat} (inside : row + 1 < bufferHeight) :
    (List.range' 0 bufferWidth).foldlM (fun buffer col => do
      let character ← Buffer.read buffer (row + 1) col
      buffer.write row col character) buffer =
      .ok (buffer.setRow row (buffer.chars ⟨row + 1, inside⟩)) := by
  refine Buffer.foldlM_setRow _ fun before kept col within => ?_
  rw [Buffer.read_eq inside within, kept _ _ (Nat.succ_ne_self row)]
  exact Buffer.write_eq (Nat.lt_of_succ_lt inside) within _

theorem newLine_eq (self : Writer) : self.newLine =
    .ok { self with columnPosition := 0, buffer := self.buffer.scroll ⟨0x20, self.colorCode⟩ } := by
  let state (count : Nat) : Buffer :=
    ⟨fun row col => if moved : row.val < count ∧ row.val + 1 < bufferHeight
      then self.buffer.chars ⟨row.val + 1, moved.2⟩ col else self.buffer.chars row col⟩
  have starts : state 0 = self.buffer := by
    refine Buffer.ext_cells fun row col => ?_
    simp only [state, Nat.not_lt_zero, false_and, dite_false]
  have looped : (List.range' 1 (bufferHeight - 1)).foldlM (fun buffer row =>
      (List.range' 0 bufferWidth).foldlM (fun buffer col => do
        let character ← Buffer.read buffer row col
        buffer.write (row - 1) col character) buffer) self.buffer = .ok (state (bufferHeight - 1)) := by
    refine foldlM_range' state starts rfl fun turn before => ?_
    have inside : turn + 1 < bufferHeight := Nat.add_lt_of_lt_sub before
    rw [Nat.add_comm 1 turn]
    refine (copyRow_eq inside).trans (congrArg Except.ok (Buffer.ext_cells fun row col => ?_))
    simp only [state, Buffer.setRow]
    grind
  have last : bufferHeight - 1 < bufferHeight := by decide
  rw [newLine, looped]
  simp only [bind, Except.bind, clearRow_eq last, pure, Except.pure]
  refine congrArg (fun buffer => Except.ok { self with columnPosition := 0, buffer }) (Buffer.ext_cells fun row col => ?_)
  have bound := row.isLt
  simp only [state, Buffer.setRow, Buffer.scroll]
  grind

/-- The end of `write_byte` for a byte that is shown. -/
def put (self : Writer) (byte : UInt8) : Except Fault Writer := do
  let buffer ← self.buffer.write (bufferHeight - 1) self.columnPosition ⟨byte, self.colorCode⟩
  return { self with buffer, columnPosition := self.columnPosition + 1 }

/-- A byte that is neither a newline nor one of the two editing bytes. -/
structure Plain (byte : UInt8) : Prop where
  newline : byte ≠ 0x0a
  backspace : byte ≠ 0x08
  delete : byte ≠ 0x7f

theorem writeByte_plain {byte : UInt8} (plain : Plain byte) : self.writeByte byte =
    ((if self.columnPosition ≥ bufferWidth then self.newLine else .ok self) >>= fun self => self.put byte) := by
  rw [writeByte, if_neg plain.newline, if_neg plain.backspace, if_neg plain.delete]
  by_cases wraps : self.columnPosition ≥ bufferWidth
  · simp only [if_pos wraps]
    rfl
  · simp only [if_neg wraps]
    rfl

theorem shown_newline_or_plain (byte : UInt8) : shown byte = 0x0a ∨ Plain (shown byte) := by
  by_cases same : shown byte = 0x0a
  · exact .inl same
  · refine .inr ⟨same, ?_, ?_⟩
    · intro backspace
      rw [shown] at backspace
      split at backspace
      · grind
      · cases backspace
    · intro delete
      rw [shown] at delete
      split at delete
      · grind
      · cases delete

/-! ### Rows of text -/

/-- What stands in a cell where the last row of a text is at the bottom of the screen. -/
def cell (rows : List (List UInt8)) (row col : Nat) : UInt8 :=
  (rows.reverse[bufferHeight - 1 - row]?.getD [])[col]?.getD 0x20

/-- The screen shows the last rows of a text, and the column is behind its last row. -/
structure Shows (rows : List (List UInt8)) (writer : Writer) : Prop where
  cells : ∀ row col, (writer.buffer.chars row col).asciiCharacter = cell rows row.val col.val
  column : writer.columnPosition = (rows.getLast?.getD []).length

def isNewline (byte : UInt8) : Bool := byte == 0x0a

/-- The rows of a string: its shown bytes split at newlines, in rows as wide as the screen. -/
def textRows (s : List UInt8) : List (List UInt8) := Text.rows isNewline bufferWidth (s.map shown)

variable {before : List (List UInt8)} {last : List UInt8} {rows : List (List UInt8)}

theorem Shows.newLine (screen : Shows rows self) : ∃ after, self.newLine = .ok after ∧ Shows (rows ++ [[]]) after := by
  refine ⟨_, newLine_eq self, fun row col => ?_, ?_⟩
  · have bound := row.isLt
    simp only [Buffer.scroll, cell, List.reverse_append, List.reverse_singleton, List.singleton_append]
    split
    case isTrue below =>
      have above : bufferHeight - 1 - row.val = bufferHeight - 1 - (row.val + 1) + 1 := by omega
      rw [screen.cells, cell, above, List.getElem?_cons_succ]
    case isFalse bottom =>
      have lowest : bufferHeight - 1 - row.val = 0 := by omega
      rw [lowest]
      rfl
  · rw [List.getLast?_concat]
    rfl

theorem Shows.put (screen : Shows (before ++ [last]) self) (room : last.length < bufferWidth) (byte : UInt8) :
    ∃ after, self.put byte = .ok after ∧ Shows (before ++ [last ++ [byte]]) after := by
  have column : self.columnPosition = last.length := by
    rw [screen.column, List.getLast?_concat]
    rfl
  have within : self.columnPosition < bufferWidth := column ▸ room
  have inside : bufferHeight - 1 < bufferHeight := by decide
  rw [Writer.put, Buffer.write_eq inside within]
  refine ⟨_, rfl, fun row col => ?_, ?_⟩
  · have cells := screen.cells row col
    have bound := row.isLt
    simp only [Buffer.set, cell, List.reverse_append, List.reverse_singleton, List.singleton_append] at cells ⊢
    cases up : bufferHeight - 1 - row.val with
    | zero =>
      have bottom : row.val = bufferHeight - 1 := by omega
      rw [up] at cells
      by_cases here : col.val = self.columnPosition
      · rw [if_pos ⟨bottom, here⟩, here, column]
        simp
      · rw [if_neg fun both => here both.2, cells]
        simp only [List.getElem?_cons_zero, Option.getD_some, List.getElem?_append]
        grind
    | succ rest =>
      have above : row.val ≠ bufferHeight - 1 := by omega
      rw [if_neg fun both => above both.1, cells, up]
      rfl
  · rw [List.getLast?_concat, Option.getD_some, List.length_append, column]
    rfl

theorem Shows.writePlain (screen : Shows (before ++ [last]) self) {byte : UInt8}
    (plain : Plain byte) :
    ∃ after, self.writeByte byte = .ok after ∧ Shows (Text.addItem bufferWidth before last byte) after := by
  have column : self.columnPosition = last.length := by
    rw [screen.column, List.getLast?_concat]
    rfl
  rw [writeByte_plain plain, column]
  by_cases room : last.length < bufferWidth
  · rw [if_neg (Nat.not_le.mpr room), Text.addItem, if_pos room]
    exact screen.put room byte
  · rw [if_pos (Nat.not_lt.mp room), Text.addItem, if_neg room]
    obtain ⟨wrapped, scrolled, next⟩ := screen.newLine
    obtain ⟨after, written, shown⟩ := next.put (by decide) byte
    rw [scrolled]
    exact ⟨after, written, shown⟩

theorem Shows.writeShown {s : List UInt8} (screen : Shows (textRows s) self) (byte : UInt8) :
    ∃ after, self.writeByte (shown byte) = .ok after ∧ Shows (textRows (s ++ [byte])) after := by
  rw [textRows, List.map_append, List.map_singleton]
  rcases shown_newline_or_plain byte with newline | plain
  · rw [Text.rows_break (by rw [newline]; rfl), newline]
    exact screen.newLine
  · have positive : 0 < bufferWidth := by decide
    have inside : isNewline (shown byte) = false := beq_eq_false_iff_ne.mpr plain.newline
    obtain ⟨before, last, rows, more⟩ := Text.rows_item positive inside (s.map shown)
    rw [more]
    rw [textRows, rows] at screen
    exact screen.writePlain plain

theorem Shows.writeString {s : List UInt8} (screen : Shows (textRows s) self) (more : List UInt8) :
    ∃ after, self.writeString more = .ok after ∧ Shows (textRows (s ++ more)) after := by
  induction more generalizing self s with
  | nil => exact ⟨self, rfl, by rwa [List.append_nil]⟩
  | cons byte more ih =>
    obtain ⟨middle, first, next⟩ := screen.writeShown byte
    obtain ⟨after, rest, last⟩ := ih next
    refine ⟨after, ?_, by rwa [List.append_assoc] at last⟩
    rw [Writer.writeString, List.foldlM_cons, first]
    exact rest

theorem shows_blank (blank : ∀ row col, (self.buffer.chars row col).asciiCharacter = 0x20)
    (column : self.columnPosition = 0) : Shows (textRows []) self := by
  rw [textRows, List.map_nil, Text.rows_nil]
  refine ⟨fun row col => ?_, column⟩
  rw [blank, cell]
  cases bufferHeight - 1 - row.val <;> rfl

/-- However many strings are written to a blank screen, it shows the last rows of their text. -/
theorem screen_shows_text (self : Writer) (strings : List (List UInt8))
    (blank : ∀ row col, (self.buffer.chars row col).asciiCharacter = 0x20) (column : self.columnPosition = 0) :
    ∃ after, strings.foldlM Writer.writeString self = .ok after ∧ Shows (textRows strings.flatten) after := by
  have every : ∀ written self, Shows (textRows written) self →
      ∃ after, strings.foldlM Writer.writeString self = .ok after ∧ Shows (textRows (written ++ strings.flatten)) after := by
    induction strings with
    | nil => exact fun written self screen => ⟨self, rfl, by rwa [List.flatten_nil, List.append_nil]⟩
    | cons string strings ih =>
      intro written self screen
      obtain ⟨middle, first, next⟩ := screen.writeString string
      obtain ⟨after, rest, last⟩ := ih _ middle next
      refine ⟨after, ?_, by rwa [List.append_assoc] at last⟩
      rw [List.foldlM_cons, first]
      exact rest
  exact every [] self (shows_blank blank column)

end Writer

/-- An empty screen. -/
def blankBuffer : Buffer := ⟨fun _ _ => ⟨0x20, .new .green .black⟩⟩

/-- `Hi`, a newline and `x`, in two calls. -/
theorem screen_shows_text_twice : ∃ after,
    [[0x48, 0x69, 0x0a], [0x78]].foldlM Writer.writeString (writer blankBuffer) = .ok after ∧
      Writer.Shows [[0x48, 0x69], [0x78]] after := by
  have rows : Writer.textRows [[0x48, 0x69, 0x0a], [0x78]].flatten = [[0x48, 0x69], [0x78]] := by decide +kernel
  rw [← rows]
  exact Writer.screen_shows_text (writer blankBuffer) [[0x48, 0x69, 0x0a], [0x78]] (fun _ _ => rfl) rfl

end Zephyr.Vga
