import Zephyr.Dev.Screen
import Zephyr.Space.Image
import Zephyr.Space.Protection

/-! The write system call, `sys_write` of `syscall.rs`. The kernel reads the caller's string
through the active table, in ring 0 and at whatever address it is given. -/

namespace Zephyr

open Radix PageTableFlags PageFaultErrorCode Transition Vga MemoryInfo

/-- How the call does not return: a page fault in ring 0, or a fault of the screen. -/
inductive WriteFault where
  | page (addr : VirtAddr)
  | screen (fault : Vga.Fault)
  deriving DecidableEq

def readSupervisor (memory : Memory Nat 512 PageTableEntry) (root : Nat) (addr : VirtAddr) :
    Except WriteFault UInt8 :=
  if Canonical addr then
    match reachSupervisor memory root .read addr with
    | some frame => .ok (.ofBitVec (loadByte memory frame addr))
    | none => .error (.page addr)
  else .error (.page addr)

/-- `print!` of a string. -/
def printString (writer : Writer) (s : String) : Except WriteFault Writer :=
  match writer.print s.toUTF8.data.toList with
  | .ok after => .ok after
  | .error fault => .error (.screen fault)

/-- Bytes that are no UTF-8 are not printed. -/
def sysWrite (memory : Memory Nat 512 PageTableEntry) (root : Nat) (writer : Writer) (ptr : VirtAddr) (size : Nat) :
    Except WriteFault Writer :=
  if size = 0 then .ok writer
  else do
    let slice ← (List.range size).mapM fun offset => readSupervisor memory root (ptr + offset)
    match String.fromUTF8? ⟨slice.toArray⟩ with
    | some s => printString writer s
    | none => .ok writer

/-- The bytes of the text, from the address on, as `reads` finds them. -/
def TextAt (reads : VirtAddr → UInt8 → Prop) (ptr : VirtAddr) (text : String) : Prop :=
  ∀ offset (inside : offset < text.toUTF8.data.toList.length), reads (ptr + offset) text.toUTF8.data.toList[offset]

section Text

variable {memory : Memory Nat 512 PageTableEntry} {root ptr : Nat} {text : String}

theorem fromUTF8?_bytes (text : String) : String.fromUTF8? ⟨text.toUTF8.data.toList.toArray⟩ = some text := by
  have bytes : (⟨text.toUTF8.data.toList.toArray⟩ : ByteArray) = text.toByteArray := rfl
  rw [bytes, String.fromUTF8?, dif_pos text.isValidUTF8]
  rfl

theorem sysWrite_prints {writer : Writer} {shown : List UInt8}
    (readable : TextAt (fun addr byte => readSupervisor memory root addr = .ok byte) ptr text)
    (screen : writer.Shows (Writer.textRows shown)) :
    ∃ after, sysWrite memory root writer ptr text.toUTF8.data.toList.length = .ok after ∧
      after.Shows (Writer.textRows (shown ++ text.toUTF8.data.toList)) := by
  obtain ⟨after, written, shows⟩ := Writer.Shows.writeString screen text.toUTF8.data.toList
  refine ⟨after, ?_, shows⟩
  rw [sysWrite]
  split
  · rename_i empty
    rw [List.eq_nil_of_length_eq_zero empty, Writer.writeString, List.foldlM_nil] at written
    rw [Except.ok.inj written]
  · have slice := mapM_range text.toUTF8.data.toList readable
    have printed : writer.print text.toUTF8.data.toList = .ok after := written
    rw [slice]
    change (match String.fromUTF8? ⟨text.toUTF8.data.toList.toArray⟩ with
      | some s => printString writer s
      | none => .ok writer) = _
    rw [fromUTF8?_bytes]
    change printString writer text = _
    rw [printString, printed]

theorem readSupervisor_of_translate {addr : VirtAddr} {walked : Walked} (canonical : Canonical addr)
    (translated : translate memory root .read addr = .ok walked) :
    readSupervisor memory root addr = .ok (.ofBitVec (loadByte memory walked.frame addr)) := by
  have found : lookup memory root addr.indices = some walked := by
    unfold translate at translated
    split at translated
    · cases translated
    · rename_i found
      split at translated
      · cases translated
        exact found
      · cases translated
  rw [readSupervisor, if_pos canonical, reachSupervisor, found, Option.bind_some, if_pos (.inl rfl)]

end Text

section System

variable {σ : Type} [DecidableEq σ] [Fintype σ]

/-- The write system call of a user thread prints whatever is mapped: the text of a buffer that
the thread can read itself, and just as well text that lies in the kernel's own memory, where
every access of the thread is a protection violation. -/
theorem sys_write_prints_kernel_memory (mapper : Mapper) {boot : MemoryInfo} (booted : Booted boot)
    (keyboardSocket : σ) {events : List (Event σ)} {system : System σ} {thread : Thread}
    (run : Run (System.CarefulStep mapper) (System.boot keyboardSocket boot) events system)
    (running : system.userThread = some thread) {writer : Writer} {shown : List UInt8}
    (screen : writer.Shows (Writer.textRows shown)) (ptr : VirtAddr) (text : String)
    (canonical : ∀ offset < text.toUTF8.data.toList.length, Canonical (ptr + offset)) :
    (TextAt (fun addr byte => ∃ walked, translate system.info.memory system.kernel.cr3 .read addr = .ok walked ∧
        loadByte system.info.memory walked.frame addr = byte.toBitVec) ptr text →
      ∃ after, sysWrite system.info.memory system.kernel.cr3 writer ptr text.toUTF8.data.toList.length = .ok after ∧
        after.Shows (Writer.textRows (shown ++ text.toUTF8.data.toList))) ∧
    (TextAt (fun addr byte => ∃ frame,
        reachSupervisor boot.memory boot.kernelPageTables .read addr = some frame ∧
          loadByte system.info.memory frame addr = byte.toBitVec) ptr text →
      (∀ offset < text.toUTF8.data.toList.length, ∀ access,
        translate system.info.memory system.kernel.cr3 access (ptr + offset) =
          .error (protectionViolation ||| access.errorCode)) ∧
      ∃ after, sysWrite system.info.memory system.kernel.cr3 writer ptr text.toUTF8.data.toList.length = .ok after ∧
        after.Shows (Writer.textRows (shown ++ text.toUTF8.data.toList))) := by
  obtain ⟨⟨trees, tenancy⟩, viewed⟩ := Tenancy.viewed_of_run booted run
  constructor
  · intro own
    apply sysWrite_prints _ screen
    intro offset inside
    obtain ⟨walked, translated, byte⟩ := own offset inside
    rw [readSupervisor_of_translate (canonical offset inside) translated, byte]
  · intro kernel
    constructor
    · intro offset inside access
      obtain ⟨frame, reached, _⟩ := kernel offset inside
      obtain ⟨walked, found, _⟩ := Option.bind_eq_some_iff.mp reached
      exact tenancy.kernel_page_closed booted viewed running found access
    · apply sysWrite_prints _ screen
      intro offset inside
      obtain ⟨frame, reached, byte⟩ := kernel offset inside
      have now := tenancy.reaches_kernel booted viewed (.active running) reached
      rw [readSupervisor, if_pos (canonical offset inside), now]
      exact congrArg (fun bits => Except.ok (UInt8.ofBitVec bits)) byte

/-- A launched process prints a byte of its own level-4 table, from the window onto physical
memory. -/
theorem sys_write_prints_kernel_memory_window : ∃ (system : System Unit) (after : Writer),
    system.userThread.isSome = true ∧
      sysWrite system.info.memory system.kernel.cr3 (writer blankBuffer) (2 ^ 42 + 91 * 4096 + 800) 1 = .ok after ∧
      after.Shows (Writer.textRows [0]) := by
  obtain ⟨info, prepared, first⟩ := run_spawnEvents
  obtain ⟨after, _, _, _, kept, second⟩ := run_launchEvents info (prepared.unused 6 (by decide) (by decide) (by decide))
    prepared.taken prepared.ready
  have run := (first.trans second).mono LaunchStep.careful
  have blank : after.memory 91 100 = 0 :=
    (kept 91 prepared.taken 100 (by decide)).trans (prepared.unused 100 (by decide) (by decide) (by decide))
  have screen : (writer blankBuffer).Shows (Writer.textRows []) := Writer.shows_blank (fun _ _ => rfl) rfl
  have canonical : ∀ offset < 1, Canonical (2 ^ 42 + 91 * 4096 + 800 + offset) := by decide
  have text : TextAt (fun addr byte => ∃ frame,
      reachSupervisor kernelInfo.memory kernelInfo.kernelPageTables .read addr = some frame ∧
        loadByte after.memory frame addr = byte.toBitVec) (2 ^ 42 + 91 * 4096 + 800) "\x00" := by
    intro offset inside
    have single : offset < 1 := inside
    obtain rfl : offset = 0 := by omega
    refine ⟨91, by decide, ?_⟩
    change (after.memory 91 100).byte 0 = _
    rw [blank]
    rfl
  obtain ⟨_, final, written, shows⟩ := (sys_write_prints_kernel_memory offsetPageTable booted_kernelInfo () run rfl
    screen (2 ^ 42 + 91 * 4096 + 800) "\x00" canonical).2 text
  exact ⟨_, final, rfl, written, shows⟩

end System

end Zephyr
