import Zephyr.Transition.Loop

/-! The text screen, `dev/vga_buffer.rs`. Strings are their bytes. -/

namespace Zephyr.Vga

inductive Color where
  | black | blue | green | cyan | red | magenta | brown | lightGray
  | darkGray | lightBlue | lightGreen | lightCyan | lightRed | pink | yellow | white
  deriving DecidableEq

def Color.byte (color : Color) : UInt8 := UInt8.ofNat color.ctorIdx

structure ColorCode where
  code : UInt8
  deriving DecidableEq

def ColorCode.new (foreground background : Color) : ColorCode := ⟨background.byte <<< 4 ||| foreground.byte⟩

structure ScreenChar where
  asciiCharacter : UInt8
  colorCode : ColorCode
  deriving DecidableEq

def bufferHeight : Nat := 25

def bufferWidth : Nat := 80

/-- How a call does not return: an index of `chars` out of range, the panics of `set_position`
and `write_char_at`, and the lock of `WRITER` taken by its holder. -/
inductive Fault where
  | index
  | position
  | writePosition
  | deadlock
  deriving DecidableEq

structure Buffer where
  chars : Fin bufferHeight → Fin bufferWidth → ScreenChar

/-- `chars[row][col].read()`. -/
def Buffer.read (self : Buffer) (row col : Nat) : Except Fault ScreenChar :=
  if inside : row < bufferHeight ∧ col < bufferWidth then .ok (self.chars ⟨row, inside.1⟩ ⟨col, inside.2⟩)
  else .error .index

/-- `chars[row][col].write(character)`. -/
def Buffer.write (self : Buffer) (row col : Nat) (character : ScreenChar) : Except Fault Buffer :=
  if row < bufferHeight ∧ col < bufferWidth then
    .ok ⟨fun ownRow ownCol => if ownRow.val = row ∧ ownCol.val = col then character else self.chars ownRow ownCol⟩
  else .error .index

structure Writer where
  columnPosition : Nat
  rowPosition : Nat
  cursorPosition : Nat × Nat
  colorCode : ColorCode
  buffer : Buffer

/-- The spin lock around `WRITER`: `_print` takes it, and never returns where its caller holds it. -/
def lockWriter (held : Bool) : Except Fault Unit := if held then .error .deadlock else .ok ()

namespace Writer

def clearRow (self : Writer) (row : Nat) : Except Fault Writer := do
  let blank : ScreenChar := ⟨0x20, self.colorCode⟩
  let buffer ← (List.range' 0 bufferWidth).foldlM (fun buffer col => buffer.write row col blank) self.buffer
  return { self with buffer }

def newLine (self : Writer) : Except Fault Writer := do
  let buffer ← (List.range' 1 (bufferHeight - 1)).foldlM (fun buffer row =>
    (List.range' 0 bufferWidth).foldlM (fun buffer col => do
      let character ← buffer.read row col
      buffer.write (row - 1) col character) buffer) self.buffer
  let self ← clearRow { self with buffer } (bufferHeight - 1)
  return { self with columnPosition := 0 }

def writeByte (self : Writer) (byte : UInt8) : Except Fault Writer :=
  if byte = 0x0a then self.newLine
  else if byte = 0x08 then do
    -- `println!("[bspace]")`, inside a method of the writer that `WRITER` guards
    lockWriter true
    if 0 < self.columnPosition then
      let x := self.columnPosition - 1
      let y := bufferHeight - 1
      let buffer ← self.buffer.write x y ⟨0x20, self.colorCode⟩
      return { self with columnPosition := x, buffer }
    else self.clearRow self.columnPosition
  else if byte = 0x7f then do
    let buffer ← (List.range' self.columnPosition (bufferWidth - 1 - self.columnPosition)).foldlM (fun buffer i => do
      let character ← buffer.read self.rowPosition (i + 1)
      buffer.write self.rowPosition i ⟨character.asciiCharacter, self.colorCode⟩) self.buffer
    let buffer ← buffer.write self.rowPosition (bufferWidth - 1) ⟨0x20, self.colorCode⟩
    return { self with buffer }
  else do
    let self ← if self.columnPosition ≥ bufferWidth then self.newLine else .ok self
    let row := bufferHeight - 1
    let col := self.columnPosition
    let buffer ← self.buffer.write row col ⟨byte, self.colorCode⟩
    return { self with buffer, columnPosition := self.columnPosition + 1 }

/-- The byte `write_string` writes for a byte of the string. -/
def shown (byte : UInt8) : UInt8 := if (0x20 ≤ byte ∧ byte ≤ 0x7e) ∨ byte = 0x0a then byte else 0xfe

def writeString (self : Writer) (s : List UInt8) : Except Fault Writer :=
  s.foldlM (fun self byte => self.writeByte (shown byte)) self

/-- `print!`, by a caller that does not hold the lock. -/
def print (self : Writer) (s : List UInt8) : Except Fault Writer := do
  lockWriter false
  self.writeString s

def setPosition (self : Writer) (column row : Nat) : Except Fault Writer :=
  if row < bufferHeight ∧ column < bufferWidth then
    .ok { self with rowPosition := row, columnPosition := column, cursorPosition := (column, row) }
  else .error .position

def getPosition (self : Writer) : Nat × Nat := (self.columnPosition, self.rowPosition)

def readChar (self : Writer) (x y : Nat) : Except Fault Char := do
  let character ← self.buffer.read y x
  return Char.ofUInt8 character.asciiCharacter

def writeCharAt (self : Writer) (x y : Nat) (c : Char) : Except Fault Writer :=
  if x < bufferWidth ∧ y < bufferHeight then do
    let buffer ← self.buffer.write y x ⟨c.toUInt8, self.colorCode⟩
    return { self with buffer }
  else .error .writePosition

end Writer

/-- `WRITER` at the start, over whatever the screen shows. -/
def writer (buffer : Buffer) : Writer where
  columnPosition := 0
  rowPosition := bufferHeight - 1
  cursorPosition := (0, bufferHeight - 1)
  colorCode := .new .green .black
  buffer := buffer

end Zephyr.Vga
