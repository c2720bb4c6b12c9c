import Zephyr.Dev.Screen

/-! Keys on the screen, `output_keypress` of `dev/keyboard.rs`, and whether every access and
every cursor position stays on the screen. -/

namespace Zephyr.Vga

inductive KeyCode where
  | arrowUp
  | arrowDown
  | arrowLeft
  | arrowRight
  | other (debug : List UInt8)

inductive DecodedKey where
  | unicode (char : Char)
  | rawKey (key : KeyCode)

namespace Writer

/-- One key of `output_keypress`. -/
def outputKeypress (self : Writer) : DecodedKey → Except Fault Writer
  | .unicode char =>
    let pos := self.getPosition
    if char = '\x08' then
      if 0 < pos.1 then do
        let self ← self.setPosition (pos.1 - 1) pos.2
        let self ← self.print [0x20]
        self.setPosition (pos.1 - 1) pos.2
      else .ok self
    else if char = '\x7f' then
      if pos.1 < bufferWidth - 1 then do
        let charsToRight ←
          (List.range' (pos.1 + 1) (bufferWidth - (pos.1 + 1))).mapM fun col => self.readChar col pos.2
        let self ← charsToRight.zipIdx.foldlM (fun self c => self.writeCharAt (pos.1 + c.2) pos.2 c.1) self
        self.writeCharAt (bufferWidth - 1) pos.2 ' '
      else .ok self
    else self.print (String.utf8EncodeChar char)
  | .rawKey .arrowUp =>
    let (x, y) := self.getPosition
    if 0 < y then self.setPosition x (y - 1) else .ok self
  | .rawKey .arrowDown =>
    let (x, y) := self.getPosition
    if y < 79 then self.setPosition x (y + 1) else .ok self
  | .rawKey .arrowLeft =>
    let (x, y) := self.getPosition
    if 0 < x then self.setPosition (x - 1) y else .ok self
  | .rawKey .arrowRight =>
    let (x, y) := self.getPosition
    if x < 79 then self.setPosition (x + 1) y else .ok self
  | .rawKey (.other debug) => self.print debug

end Writer

inductive ScreenCall where
  | writeByte (byte : UInt8)
  | writeString (s : List UInt8)
  | keypress (key : DecodedKey)

namespace Writer

def perform (self : Writer) : ScreenCall → Except Fault Writer
  | .writeByte byte => self.writeByte byte
  | .writeString s => self.writeString s
  | .keypress key => self.outputKeypress key

/-- A cursor on the screen; behind the last column a newline is pending. -/
structure Cursor (writer : Writer) : Prop where
  row : writer.rowPosition < bufferHeight
  column : writer.columnPosition ≤ bufferWidth

/-- The cell left of the cursor is blank, on the row being written, and every other cell is as before. -/
def BlanksLeft (before after : Writer) : Prop :=
  ∀ row col, if row.val = bufferHeight - 1 ∧ col.val + 1 = before.columnPosition
    then (after.buffer.chars row col).asciiCharacter = 0x20
    else after.buffer.chars row col = before.buffer.chars row col

/-- A call with no access out of bounds and no panic, after which the cursor is on the screen. -/
structure InBounds (writer : Writer) (call : ScreenCall) : Prop where
  panics : ∀ fault, writer.perform call = .error fault → fault = .deadlock
  cursor : ∀ after, writer.perform call = .ok after → after.Cursor
  backspace : call = .writeByte 0x08 → 0 < writer.columnPosition →
    ∃ after, writer.perform call = .ok after ∧ BlanksLeft writer after

/-- Every call of a sequence is in bounds where it is reached. -/
def StaysInBounds (writer : Writer) (calls : List ScreenCall) : Prop :=
  ∀ earlier call later reached, calls = earlier ++ call :: later → earlier.foldlM perform writer = .ok reached →
    reached.InBounds call

/-- Where a call leaves the screen, or does not blank the cell. -/
def Hazard (writer : Writer) : ScreenCall → Prop
  | .writeByte byte => byte = 0x08 ∧ 0 < writer.columnPosition
  | .keypress (.rawKey .arrowUp) => 0 < writer.rowPosition ∧ writer.columnPosition = bufferWidth
  | .keypress (.rawKey .arrowDown) => writer.rowPosition = bufferHeight - 1 ∨ writer.columnPosition = bufferWidth
  | _ => False

/-! ### Calls that return -/

/-- The call returns with the cursor on the screen. -/
def Returns (result : Except Fault Writer) : Prop := ∃ after, result = .ok after ∧ after.Cursor

variable {self : Writer}

theorem Returns.bind {result : Except Fault Writer} {next : Writer → Except Fault Writer} (first : Returns result)
    (second : ∀ after, after.Cursor → Returns (next after)) : Returns (result >>= next) := by
  obtain ⟨middle, done, cursor⟩ := first
  rw [done]
  exact second middle cursor

theorem Cursor.newLine (cursor : self.Cursor) : Returns self.newLine :=
  ⟨_, newLine_eq self, cursor.row, Nat.zero_le _⟩

theorem Cursor.put (cursor : self.Cursor) (room : self.columnPosition < bufferWidth) (byte : UInt8) :
    Returns (self.put byte) := by
  have inside : bufferHeight - 1 < bufferHeight := by decide
  rw [Writer.put, Buffer.write_eq inside room]
  exact ⟨_, rfl, cursor.row, room⟩

theorem Cursor.writePlain (cursor : self.Cursor) {byte : UInt8} (plain : Plain byte) :
    Returns (self.writeByte byte) := by
  rw [writeByte_plain plain]
  by_cases wraps : self.columnPosition ≥ bufferWidth
  · rw [if_pos wraps, newLine_eq]
    have start : Cursor { self with columnPosition := 0, buffer := self.buffer.scroll ⟨0x20, self.colorCode⟩ } :=
      ⟨cursor.row, Nat.zero_le _⟩
    exact start.put (Nat.zero_lt_succ _) byte
  · rw [if_neg wraps]
    exact cursor.put (Nat.not_le.mp wraps) byte

theorem Cursor.writeDelete (cursor : self.Cursor) : Returns (self.writeByte 0x7f) := by
  have looped : ∃ after, (List.range' self.columnPosition (bufferWidth - 1 - self.columnPosition)).foldlM
      (fun buffer i => do
        let character ← Buffer.read buffer self.rowPosition (i + 1)
        buffer.write self.rowPosition i ⟨character.asciiCharacter, self.colorCode⟩) self.buffer = .ok after ∧ True := by
    refine foldlM_invariant (fun i listed before _ => ?_) trivial
    obtain ⟨_, bound⟩ := List.mem_range'_1.mp listed
    have within : i + 1 < bufferWidth := by omega
    rw [Buffer.read_eq cursor.row within]
    exact ⟨_, Buffer.write_eq cursor.row (Nat.lt_of_succ_lt within) _, trivial⟩
  obtain ⟨buffer, shifted, _⟩ := looped
  have last : bufferWidth - 1 < bufferWidth := by decide
  rw [writeByte, if_neg (by decide), if_neg (by decide), if_pos rfl, shifted]
  change Returns (buffer.write self.rowPosition (bufferWidth - 1) _ >>= _)
  rw [Buffer.write_eq cursor.row last]
  exact ⟨_, rfl, cursor.row, cursor.column⟩

theorem Cursor.writeString (cursor : self.Cursor) (s : List UInt8) : Returns (self.writeString s) := by
  refine foldlM_invariant (fun byte _ before kept => ?_) cursor
  rcases shown_newline_or_plain byte with newline | plain
  · rw [newline]
    exact kept.newLine
  · exact kept.writePlain plain

theorem returns_setPosition {column row : Nat} (inside : row < bufferHeight) (within : column < bufferWidth) :
    Returns (self.setPosition column row) := by
  rw [setPosition, if_pos ⟨inside, within⟩]
  exact ⟨_, rfl, inside, Nat.le_of_lt within⟩

theorem setPosition_error {column row : Nat} (outside : ¬ (row < bufferHeight ∧ column < bufferWidth)) :
    self.setPosition column row = .error .position := by
  rw [setPosition, if_neg outside]

theorem Cursor.writeCharAt (cursor : self.Cursor) {x y : Nat} (within : x < bufferWidth) (inside : y < bufferHeight)
    (c : Char) : Returns (self.writeCharAt x y c) := by
  rw [Writer.writeCharAt, if_pos ⟨within, inside⟩, Buffer.write_eq inside within]
  exact ⟨_, rfl, cursor.row, cursor.column⟩

theorem Cursor.backspaceKey (cursor : self.Cursor) : Returns (self.outputKeypress (.unicode '\x08')) := by
  rw [outputKeypress, if_pos rfl, getPosition]
  by_cases some_column : 0 < self.columnPosition
  · have column := cursor.column
    have within : self.columnPosition - 1 < bufferWidth := by omega
    rw [if_pos some_column]
    refine (returns_setPosition cursor.row within).bind fun moved kept => ?_
    exact (kept.writeString [0x20]).bind fun _ _ => returns_setPosition cursor.row within
  · rw [if_neg some_column]
    exact ⟨self, rfl, cursor⟩

theorem Cursor.deleteKey (cursor : self.Cursor) : Returns (self.outputKeypress (.unicode '\x7f')) := by
  rw [outputKeypress, if_neg (by decide), if_pos rfl, getPosition]
  by_cases shifts : self.columnPosition < bufferWidth - 1
  · have reads : ∃ chars, ((List.range' (self.columnPosition + 1) (bufferWidth - (self.columnPosition + 1))).mapM
        fun col => self.readChar col self.rowPosition) = .ok chars ∧
        chars.length = (List.range' (self.columnPosition + 1) (bufferWidth - (self.columnPosition + 1))).length := by
      refine mapM_ok fun col listed => ?_
      obtain ⟨_, bound⟩ := List.mem_range'_1.mp listed
      have within : col < bufferWidth := by omega
      rw [readChar, Buffer.read_eq cursor.row within]
      exact ⟨_, rfl⟩
    obtain ⟨chars, read, length⟩ := reads
    rw [List.length_range'] at length
    have last : bufferWidth - 1 < bufferWidth := by decide
    rw [if_pos shifts, read]
    refine Returns.bind (foldlM_invariant (fun c listed before kept => ?_) cursor) fun _ kept =>
      kept.writeCharAt last cursor.row ' '
    have index := List.snd_lt_of_mem_zipIdx listed
    exact kept.writeCharAt (by omega) cursor.row c.1
  · rw [if_neg shifts]
    exact ⟨self, rfl, cursor⟩

/-! ### Every call -/

/-- How a call ends where the cursor is on the screen. -/
inductive Outcome (writer : Writer) (call : ScreenCall) : Prop where
  | returned (safe : ¬ writer.Hazard call) (other : call ≠ .writeByte 0x08) (returns : Returns (writer.perform call))
  | locked (backspace : call = .writeByte 0x08) (stuck : writer.perform call = .error .deadlock)
  | panicked (hazard : writer.Hazard call) (stopped : writer.perform call = .error .position)

theorem outcome_arrowUp (cursor : self.Cursor) : Outcome self (.keypress (.rawKey .arrowUp)) := by
  have row := cursor.row
  by_cases above : 0 < self.rowPosition
  · have moves : self.perform (.keypress (.rawKey .arrowUp)) =
        self.setPosition self.columnPosition (self.rowPosition - 1) := if_pos above
    by_cases edge : self.columnPosition = bufferWidth
    · exact .panicked ⟨above, edge⟩ (moves.trans (setPosition_error fun both => by omega))
    · have within : self.columnPosition < bufferWidth := Nat.lt_of_le_of_ne cursor.column edge
      refine .returned (fun hazard => edge hazard.2) nofun ?_
      rw [moves]
      exact returns_setPosition (by omega) within
  · have stays : self.perform (.keypress (.rawKey .arrowUp)) = .ok self := if_neg above
    exact .returned (fun hazard => above hazard.1) nofun ⟨self, stays, cursor⟩

theorem outcome_arrowDown (cursor : self.Cursor) : Outcome self (.keypress (.rawKey .arrowDown)) := by
  have row := cursor.row
  have fits : bufferHeight ≤ 79 := by decide
  have moves : self.perform (.keypress (.rawKey .arrowDown)) =
      self.setPosition self.columnPosition (self.rowPosition + 1) := if_pos (Nat.lt_of_lt_of_le row fits)
  by_cases hazard : self.Hazard (.keypress (.rawKey .arrowDown))
  · refine .panicked hazard (moves.trans (setPosition_error fun both => ?_))
    rcases hazard with bottom | edge <;> omega
  · obtain ⟨higher, inside⟩ := not_or.mp hazard
    have within : self.columnPosition < bufferWidth := Nat.lt_of_le_of_ne cursor.column inside
    refine .returned hazard nofun ?_
    rw [moves]
    exact returns_setPosition (by omega) within

theorem returns_arrowLeft (cursor : self.Cursor) : Returns (self.outputKeypress (.rawKey .arrowLeft)) := by
  have column := cursor.column
  by_cases some_column : 0 < self.columnPosition
  · have moves : self.outputKeypress (.rawKey .arrowLeft) =
        self.setPosition (self.columnPosition - 1) self.rowPosition := if_pos some_column
    rw [moves]
    exact returns_setPosition cursor.row (by omega)
  · have stays : self.outputKeypress (.rawKey .arrowLeft) = .ok self := if_neg some_column
    exact ⟨self, stays, cursor⟩

theorem returns_arrowRight (cursor : self.Cursor) : Returns (self.outputKeypress (.rawKey .arrowRight)) := by
  by_cases more : self.columnPosition < 79
  · have moves : self.outputKeypress (.rawKey .arrowRight) =
        self.setPosition (self.columnPosition + 1) self.rowPosition := if_pos more
    rw [moves]
    exact returns_setPosition cursor.row (Nat.succ_lt_succ more)
  · have stays : self.outputKeypress (.rawKey .arrowRight) = .ok self := if_neg more
    exact ⟨self, stays, cursor⟩

theorem outcome_writeByte (cursor : self.Cursor) (byte : UInt8) : Outcome self (.writeByte byte) := by
  by_cases backspace : byte = 0x08
  · subst backspace
    exact .locked rfl rfl
  refine .returned (fun hazard => backspace hazard.1) (fun same => backspace (ScreenCall.writeByte.inj same)) ?_
  by_cases newline : byte = 0x0a
  · subst newline
    exact cursor.newLine
  by_cases delete : byte = 0x7f
  · subst delete
    exact cursor.writeDelete
  · exact cursor.writePlain ⟨newline, backspace, delete⟩

theorem returns_unicode (cursor : self.Cursor) (char : Char) : Returns (self.outputKeypress (.unicode char)) := by
  by_cases backspace : char = '\x08'
  · subst backspace
    exact cursor.backspaceKey
  by_cases delete : char = '\x7f'
  · subst delete
    exact cursor.deleteKey
  · rw [outputKeypress, if_neg backspace, if_neg delete]
    exact cursor.writeString _

theorem Cursor.outcome (cursor : self.Cursor) (call : ScreenCall) : Outcome self call := by
  cases call with
  | writeByte byte => exact outcome_writeByte cursor byte
  | writeString s => exact .returned id nofun (cursor.writeString s)
  | keypress key =>
    cases key with
    | unicode char => exact .returned id nofun (returns_unicode cursor char)
    | rawKey key =>
      cases key with
      | arrowUp => exact outcome_arrowUp cursor
      | arrowDown => exact outcome_arrowDown cursor
      | arrowLeft => exact .returned id nofun (returns_arrowLeft cursor)
      | arrowRight => exact .returned id nofun (returns_arrowRight cursor)
      | other debug => exact .returned id nofun (cursor.writeString debug)

theorem Cursor.perform (cursor : self.Cursor) {call : ScreenCall} {after : Writer}
    (performed : self.perform call = .ok after) : after.Cursor := by
  cases cursor.outcome call with
  | returned _ _ returns =>
    obtain ⟨same, returned, kept⟩ := returns
    rw [returned] at performed
    cases performed
    exact kept
  | locked _ stuck => cases stuck.symm.trans performed
  | panicked _ stopped => cases stopped.symm.trans performed

theorem Cursor.run (cursor : self.Cursor) {calls : List ScreenCall} {after : Writer}
    (performed : calls.foldlM Writer.perform self = .ok after) : after.Cursor := by
  induction calls generalizing self with
  | nil =>
    cases performed
    exact cursor
  | cons call calls ih =>
    rw [List.foldlM_cons] at performed
    cases first : self.perform call with
    | error fault =>
      rw [first] at performed
      cases performed
    | ok middle =>
      rw [first] at performed
      exact ih (cursor.perform first) performed

theorem Cursor.inBounds_iff (cursor : self.Cursor) (call : ScreenCall) : self.InBounds call ↔ ¬ self.Hazard call := by
  cases cursor.outcome call with
  | returned safe other returns =>
    obtain ⟨after, returned, kept⟩ := returns
    refine ⟨fun _ => safe, fun _ => ⟨fun fault failed => ?_, fun _ => cursor.perform, fun same => absurd same other⟩⟩
    cases returned.symm.trans failed
  | locked backspace stuck =>
    subst backspace
    refine ⟨fun bounds hazard => ?_, fun safe => ⟨fun fault failed => ?_, fun _ => cursor.perform, fun _ left => ?_⟩⟩
    · obtain ⟨after, returned, _⟩ := bounds.backspace rfl hazard.2
      cases stuck.symm.trans returned
    · exact (Except.error.inj (stuck.symm.trans failed)).symm
    · exact absurd ⟨rfl, left⟩ safe
  | panicked hazard stopped =>
    refine ⟨fun bounds => ?_, fun safe => absurd hazard safe⟩
    cases bounds.panics _ stopped

end Writer

theorem cursor_writer (buffer : Buffer) : (writer buffer).Cursor := ⟨Nat.lt_succ_self 24, Nat.zero_le _⟩

/-- A sequence of calls stays on the screen exactly where none of them meets a hazard: a
backspace byte behind a column, an arrow up or down at a pending newline, or an arrow down on
the bottom row. -/
theorem staysInBounds_iff (buffer : Buffer) (calls : List ScreenCall) : (writer buffer).StaysInBounds calls ↔
    ∀ earlier call later reached, calls = earlier ++ call :: later →
      earlier.foldlM Writer.perform (writer buffer) = .ok reached → ¬ reached.Hazard call := by
  constructor
  · intro bounded earlier call later reached split performed
    exact (((cursor_writer buffer).run performed).inBounds_iff call).mp (bounded earlier call later reached split performed)
  · intro safe earlier call later reached split performed
    exact (((cursor_writer buffer).run performed).inBounds_iff call).mpr (safe earlier call later reached split performed)

/-- The first arrow down panics: the writer starts on the bottom row. -/
theorem leaves_bounds_arrowDown : ¬ (writer blankBuffer).StaysInBounds [.keypress (.rawKey .arrowDown)] := by
  intro bounded
  have bounds := bounded [] (.keypress (.rawKey .arrowDown)) [] (writer blankBuffer) rfl rfl
  cases bounds.panics .position rfl

end Zephyr.Vga
