import Mathlib.Algebra.Group.Nat.Defs
import Mathlib.Data.Nat.Basic
import Mathlib.Data.List.Basic

/-! Numbers as text: decimal, and sixteen hexadecimal digits. -/

namespace Zephyr.Text

/-- `{}` of a word. -/
def decimal (word : UInt64) : List Char := Nat.toDigits 10 word.toNat

def hexDigit (digit : Nat) : Char := if digit < 10 then Char.ofNat (48 + digit) else Char.ofNat (55 + digit)

/-- The last `width` hexadecimal digits, most significant first. -/
def hexadecimal : Nat → Nat → List Char
  | 0, _ => []
  | width + 1, value => hexadecimal width (value / 16) ++ [hexDigit (value % 16)]

/-- `0x{:016X}` of a word. -/
def address (word : UInt64) : List Char := '0' :: 'x' :: hexadecimal 16 word.toNat

/-- `int(text)` of decimal digits. -/
def readDecimal (text : List Char) : Nat := Nat.ofDigitChars 10 text 0

def hexValue (char : Char) : Nat := if char.isDigit then char.toNat - 48 else char.toNat - 55

/-- `int(text, 16)` of such an address. -/
def readAddress (text : List Char) : Nat := (text.drop 2).foldl (fun value char => 16 * value + hexValue char) 0

theorem readDecimal_decimal (word : UInt64) : readDecimal (decimal word) = word.toNat :=
  Nat.ofDigitChars_toDigits (by decide) (by decide)

theorem isDigit_of_mem_decimal {word : UInt64} {char : Char} (member : char ∈ decimal word) : char.isDigit = true :=
  Nat.isDigit_of_mem_toDigits (by decide) (by decide) member

theorem decimal_ne_nil (word : UInt64) : decimal word ≠ [] := Nat.toDigits_ne_nil

theorem mem_hexadecimal {width value : Nat} {char : Char} (member : char ∈ hexadecimal width value) :
    ∃ digit < 16, char = hexDigit digit := by
  induction width generalizing value with
  | zero => cases member
  | succ width ih =>
    rcases List.mem_append.mp member with more | last
    · exact ih more
    · exact ⟨value % 16, Nat.mod_lt _ (by decide), List.mem_singleton.mp last⟩

theorem foldl_hexadecimal (width value : Nat) :
    (hexadecimal width value).foldl (fun value char => 16 * value + hexValue char) 0 = value % 16 ^ width := by
  have back : ∀ digit < 16, hexValue (hexDigit digit) = digit := by decide
  induction width generalizing value with
  | zero => rw [Nat.pow_zero, Nat.mod_one]; rfl
  | succ width ih =>
    rw [hexadecimal, List.foldl_append, ih, List.foldl_cons, List.foldl_nil, back _ (Nat.mod_lt _ (by decide)),
      Nat.pow_succ', Nat.mod_mul, Nat.add_comm]

theorem readAddress_address (word : UInt64) : readAddress (address word) = word.toNat := by
  change (hexadecimal 16 word.toNat).foldl _ 0 = _
  rw [foldl_hexadecimal]
  exact Nat.mod_eq_of_lt word.toNat_lt

theorem mem_address {word : UInt64} {char : Char} (member : char ∈ address word) :
    char ∈ "0123456789ABCDEFx".toList := by
  have digits : ∀ digit < 16, hexDigit digit ∈ "0123456789ABCDEFx".toList := by decide
  rcases List.mem_cons.mp member with rfl | tail
  · decide
  rcases List.mem_cons.mp tail with rfl | hex
  · decide
  obtain ⟨digit, small, rfl⟩ := mem_hexadecimal hex
  exact digits digit small

end Zephyr.Text
