import Mathlib.Data.Nat.Bitwise
import Zephyr.Heap.FixedSizeBlock

/-! `usize` arithmetic and `align_up`. A result outside `usize` stops the model: an optimised
build would go on with a wrapped value, a checked one panics, and where neither happens both
compute the same. -/

namespace Zephyr

def usizeAdd (left right : Nat) : Except Panic Nat :=
  if left + right < 2 ^ 64 then .ok (left + right) else .error .overflow

def usizeSub (left right : Nat) : Except Panic Nat :=
  if right ≤ left then .ok (left - right) else .error .overflow

/-- `checked_add`. -/
def checkedAdd (left right : Nat) : Option Nat :=
  if left + right < 2 ^ 64 then some (left + right) else none

/-- `(addr + align - 1) & !(align - 1)`. -/
def alignUp (addr align : Nat) : Except Panic Nat := do
  let last ← usizeSub (← usizeAdd addr align) 1
  let mask ← usizeSub align 1
  return last &&& (2 ^ 64 - 1 - mask)

theorem usizeAdd_ok {left right : Nat} (small : left + right < 2 ^ 64) : usizeAdd left right = .ok (left + right) :=
  if_pos small

theorem usizeSub_ok {left right : Nat} (small : right ≤ left) : usizeSub left right = .ok (left - right) :=
  if_pos small

theorem checkedAdd_some {left right : Nat} (small : left + right < 2 ^ 64) :
    checkedAdd left right = some (left + right) :=
  if_pos small

theorem and_complement (addr bits : Nat) (small : addr < 2 ^ 64) (fits : bits ≤ 64) :
    addr &&& (2 ^ 64 - 1 - (2 ^ bits - 1)) = addr / 2 ^ bits * 2 ^ bits := by
  have mask : 2 ^ bits - 1 < 2 ^ 64 :=
    Nat.lt_of_lt_of_le (Nat.sub_one_lt (Nat.two_pow_pos bits).ne') (Nat.pow_le_pow_right (by decide) fits)
  have complement : 2 ^ 64 - 1 - (2 ^ bits - 1) = 2 ^ 64 - (2 ^ bits - 1 + 1) := by omega
  rw [← Nat.shiftRight_eq_div_pow, ← Nat.shiftLeft_eq, complement]
  apply Nat.eq_of_testBit_eq
  intro bit
  rw [Nat.testBit_and, Nat.testBit_two_pow_sub_succ mask, Nat.testBit_two_pow_sub_one, Nat.testBit_shiftLeft,
    Nat.testBit_shiftRight]
  by_cases low : bit < bits
  · simp [low, Nat.not_le.mpr low]
  · have high : bits ≤ bit := Nat.not_lt.mp low
    by_cases inside : bit < 64
    · simp [low, high, inside]
    · have zero : addr.testBit bit = false := Nat.testBit_lt_two_pow
        (Nat.lt_of_lt_of_le small (Nat.pow_le_pow_right (by decide) (Nat.not_lt.mp inside)))
      simp [high, zero]

/-- What `align_up` returns: the first aligned address. -/
structure AlignedUp (addr align : Nat) (aligned : Nat) : Prop where
  dvd : align ∣ aligned
  le : addr ≤ aligned
  lt : aligned < addr + align

theorem alignUp_ok (addr : Nat) {align : Nat} (powerOfTwo : align = 2 ^ align.log2) (small : addr + align < 2 ^ 64) :
    ∃ aligned, alignUp addr align = .ok aligned ∧ AlignedUp addr align aligned := by
  have positive : 0 < align := by
    rw [powerOfTwo]
    exact Nat.two_pow_pos _
  have bits : align.log2 ≤ 64 := by
    have bound : 2 ^ align.log2 ≤ 2 ^ 64 := by
      rw [← powerOfTwo]
      omega
    exact (Nat.pow_le_pow_iff_right (by decide)).mp bound
  have rounded : (addr + align - 1) &&& (2 ^ 64 - 1 - (align - 1)) = (addr + align - 1) / align * align := by
    have cleared := and_complement (addr + align - 1) align.log2 (by omega) bits
    rwa [← powerOfTwo] at cleared
  refine ⟨(addr + align - 1) / align * align, ?_, Nat.dvd_mul_left _ _, ?_, ?_⟩
  · rw [alignUp, usizeAdd_ok small, ← rounded]
    simp only [bind, Except.bind, usizeSub_ok (Nat.le_add_left_of_le positive : 1 ≤ addr + align), usizeSub_ok positive,
      pure, Except.pure]
  · have above := Nat.lt_div_mul_add positive (a := addr + align - 1)
    omega
  · have below := Nat.div_mul_le_self (addr + align - 1) align
    omega

theorem alignUp_self {addr align : Nat} (powerOfTwo : align = 2 ^ align.log2) (small : addr + align < 2 ^ 64)
    (aligned : align ∣ addr) : alignUp addr align = .ok addr := by
  obtain ⟨result, returned, dvd, above, near⟩ := alignUp_ok addr powerOfTwo small
  obtain ⟨low, rfl⟩ := aligned
  obtain ⟨high, rfl⟩ := dvd
  have next : high < low + 1 := by
    refine Nat.lt_of_mul_lt_mul_left (a := align) ?_
    rwa [Nat.mul_add, Nat.mul_one]
  have least : low ≤ high := by
    refine Nat.le_of_mul_le_mul_left above ?_
    rw [powerOfTwo]
    exact Nat.two_pow_pos _
  rw [returned, Nat.le_antisymm (Nat.le_of_lt_succ next) least]

end Zephyr
