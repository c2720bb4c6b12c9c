import Mathlib.Algebra.Group.Nat.Defs
import Mathlib.Data.List.Basic
import Mathlib.Logic.Function.Basic

/-! Words in a memory of bytes, least significant byte first, and the lists that run
through them. -/

namespace Zephyr.Region

section Words

variable {memory other : Nat → BitVec 8} {addr : Nat} {word : BitVec 64}

def loadWord (memory : Nat → BitVec 8) (addr : Nat) : BitVec 64 :=
  memory (addr + 7) ++ memory (addr + 6) ++ memory (addr + 5) ++ memory (addr + 4) ++ memory (addr + 3) ++
    memory (addr + 2) ++ memory (addr + 1) ++ memory addr

def storeWord (memory : Nat → BitVec 8) (addr : Nat) (word : BitVec 64) : Nat → BitVec 8 := fun byte =>
  if addr ≤ byte ∧ byte < addr + 8 then word.extractLsb' (8 * (byte - addr)) 8 else memory byte

theorem loadWord_congr (same : ∀ byte, addr ≤ byte → byte < addr + 8 → memory byte = other byte) :
    loadWord memory addr = loadWord other addr := by
  have byte : ∀ offset < 8, memory (addr + offset) = other (addr + offset) :=
    fun offset small => same _ (Nat.le_add_right addr offset) (Nat.add_lt_add_left small addr)
  simp only [loadWord, same addr (Nat.le_refl addr) (by omega), byte _ (by decide : 1 < 8), byte _ (by decide : 2 < 8),
    byte _ (by decide : 3 < 8), byte _ (by decide : 4 < 8), byte _ (by decide : 5 < 8), byte _ (by decide : 6 < 8),
    byte _ (by decide : 7 < 8)]

theorem loadWord_storeWord : loadWord (storeWord memory addr word) addr = word := by
  have byte : ∀ offset < 8, storeWord memory addr word (addr + offset) = word.extractLsb' (8 * offset) 8 := by
    intro offset small
    rw [storeWord, if_pos ⟨Nat.le_add_right addr offset, Nat.add_lt_add_left small addr⟩, Nat.add_sub_cancel_left]
  have first := byte 0 (by decide)
  rw [Nat.add_zero] at first
  simp only [loadWord, first, byte _ (by decide : 1 < 8), byte _ (by decide : 2 < 8), byte _ (by decide : 3 < 8),
    byte _ (by decide : 4 < 8), byte _ (by decide : 5 < 8), byte _ (by decide : 6 < 8), byte _ (by decide : 7 < 8)]
  simp only [Nat.reduceMul, BitVec.extractLsb'_append_extractLsb'_eq_extractLsb', BitVec.extractLsb'_eq_self]

theorem storeWord_outside {byte : Nat} (outside : ¬ (addr ≤ byte ∧ byte < addr + 8)) :
    storeWord memory addr word byte = memory byte := if_neg outside

end Words

section Chains

universe u

variable {Node : Type u} {next after : Node → Option Node} {head : Option Node} {nodes others : List Node}

/-- The nodes that links lead through from `head` on. -/
def Chain (next : Node → Option Node) : Option Node → List Node → Prop
  | head, [] => head = none
  | head, node :: rest => head = some node ∧ Chain next (next node) rest

theorem Chain.congr (chain : Chain next head nodes) (same : ∀ node ∈ nodes, next node = after node) :
    Chain after head nodes := by
  induction nodes generalizing head with
  | nil => exact chain
  | cons node rest ih =>
    refine ⟨chain.1, ih ?_ fun other member => same other (List.mem_cons_of_mem node member)⟩
    rw [← same node List.mem_cons_self]
    exact chain.2

theorem Chain.unique (chain : Chain next head nodes) (again : Chain next head others) : nodes = others := by
  induction nodes generalizing head others with
  | nil =>
    cases others with
    | nil => rfl
    | cons other rest => exact nomatch chain.symm.trans again.1
  | cons node nodes ih =>
    cases others with
    | nil => exact nomatch chain.1.symm.trans again
    | cons other rest =>
      obtain rfl := Option.some.inj (chain.1.symm.trans again.1)
      rw [ih chain.2 again.2]

theorem chains_update {Index : Type u} [DecidableEq Index] {index : Index} {heads : Index → Option Node}
    {lists : Index → List Node} (chains : ∀ other ≠ index, Chain next (heads other) (lists other))
    (chain : Chain next head nodes) (other : Index) :
    Chain next (Function.update heads index head other) (Function.update lists index nodes other) := by
  by_cases same : other = index
  · subst same
    rw [Function.update_self, Function.update_self]
    exact chain
  · rw [Function.update_of_ne same, Function.update_of_ne same]
    exact chains other same

end Chains

end Zephyr.Region
