import Zephyr.Asm.Machine

/-! Pushing and popping lists of registers: what a sequence of pushes leaves in
memory, read upwards from the stack pointer, is what a sequence of pops loads. -/

namespace Zephyr.Asm

variable {memory : UInt64 → UInt64} {address value : UInt64} {values more : List UInt64}

/-- The values lie in consecutive quadwords from the address upwards. -/
def StoredAt (memory : UInt64 → UInt64) : UInt64 → List UInt64 → Prop
  | _, [] => True
  | address, value :: rest => memory address = value ∧ StoredAt memory (address + 8) rest

theorem StoredAt.left (stored : StoredAt memory address (values ++ more)) :
    StoredAt memory address values := by
  induction values generalizing address with
  | nil => trivial
  | cons first rest ih => exact ⟨stored.1, ih stored.2⟩

theorem next_quadword (address : UInt64) (count : Nat) :
    address + 8 + 8 * UInt64.ofNat count = address + 8 * UInt64.ofNat (count + 1) := by
  rw [UInt64.ofNat_add]
  grind

theorem StoredAt.right (stored : StoredAt memory address (values ++ more)) :
    StoredAt memory (address + 8 * UInt64.ofNat values.length) more := by
  induction values generalizing address with
  | nil => simpa using stored
  | cons first rest ih =>
    have further := ih stored.2
    rwa [next_quadword] at further

theorem StoredAt.congr {other : UInt64 → UInt64} (stored : StoredAt memory address values)
    (agree : ∀ index < values.length, other (address + 8 * UInt64.ofNat index) =
      memory (address + 8 * UInt64.ofNat index)) : StoredAt other address values := by
  induction values generalizing address with
  | nil => trivial
  | cons first rest ih =>
    refine ⟨?_, ih stored.2 ?_⟩
    · have here := agree 0 (Nat.succ_pos _)
      rw [← stored.1]
      simpa using here
    · intro index inside
      have there := agree (index + 1) (Nat.succ_lt_succ inside)
      rwa [← next_quadword] at there

theorem StoredAt.store {place : UInt64} (stored : StoredAt memory address values)
    (apart : ∀ index < values.length, place ≠ address + 8 * UInt64.ofNat index) :
    StoredAt (Function.update memory place value) address values := by
  induction values generalizing address with
  | nil => trivial
  | cons first rest ih =>
    refine ⟨?_, ih stored.2 ?_⟩
    · rw [Function.update_of_ne]
      · exact stored.1
      · have here := apart 0 (Nat.succ_pos _)
        simpa using here.symm
    · intro index inside
      have there := apart (index + 1) (Nat.succ_lt_succ inside)
      rwa [← next_quadword] at there

theorem StoredAt.skip (stored : StoredAt memory address values) :
    StoredAt memory (address - 8) (memory (address - 8) :: values) :=
  ⟨rfl, by rwa [UInt64.sub_add_cancel]⟩

/-- A list shorter than the address space does not wrap around to the quadword
below it. -/
theorem StoredAt.push (stored : StoredAt memory address values) (short : values.length < 2 ^ 32)
    (value : UInt64) :
    StoredAt (Function.update memory (address - 8) value) (address - 8) (value :: values) := by
  refine ⟨Function.update_self .., ?_⟩
  rw [UInt64.sub_add_cancel]
  apply stored.store
  intro index inside same
  have wrapped : 8 * UInt64.ofNat index + 8 = 0 := by
    grind
  have bits := congrArg UInt64.toNat wrapped
  simp [UInt64.toNat_add, UInt64.toNat_mul, UInt64.toNat_ofNat'] at bits
  omega

section Sequences

variable {status : UInt64 → UInt64 → UInt64 → UInt64} {cpu : Cpu}

@[simp] theorem run_nil : run status [] cpu = cpu := rfl

theorem run_append (first second : List Instr) :
    run status (first ++ second) cpu = run status second (run status first cpu) :=
  List.foldl_append

/-- Code that builds a frame downwards from `top` has come as far as `values`,
and the registers it saves are still those of `start`. -/
structure Building (start : Cpu) (top : UInt64) (values : List UInt64) (cpu : Cpu) : Prop where
  held : StoredAt cpu.memory (cpu.reg .rsp) values
  place : cpu.reg .rsp = top - 8 * UInt64.ofNat values.length
  kept : ∀ register, register ≠ .rsp → cpu.reg register = start.reg register

variable {start : Cpu} {top : UInt64}

theorem Building.push (building : Building start top values cpu) (short : values.length < 2 ^ 32)
    (value : UInt64) : Building start top (value :: values) (cpu.push value) := by
  refine ⟨?_, ?_, ?_⟩
  · simpa [Cpu.push, Cpu.setReg, Cpu.store] using building.held.push short value
  · have place := building.place
    simp only [Cpu.push, Cpu.setReg, Function.update_self, List.length_cons, UInt64.ofNat_add]
    grind
  · intro register other
    simpa [Cpu.push, Cpu.setReg, Cpu.store, Function.update_of_ne other] using building.kept register other

/-- A slot that is only reserved keeps what the stack held. -/
theorem Building.reserve (building : Building start top values cpu)
    (status : UInt64 → UInt64 → UInt64 → UInt64) :
    ∃ value, Building start top (value :: values) (step status cpu (.sub .rsp 8)) := by
  refine ⟨cpu.memory (cpu.reg .rsp - 8), ?_, ?_, ?_⟩
  · simpa [step, Cpu.setReg] using building.held.skip
  · have place := building.place
    simp only [step, Cpu.setReg, Function.update_self, List.length_cons, UInt64.ofNat_add]
    grind
  · intro register other
    simpa [step, Cpu.setReg, Function.update_of_ne other] using building.kept register other

theorem Building.pushReg (building : Building start top values cpu) (short : values.length < 2 ^ 32)
    (status : UInt64 → UInt64 → UInt64 → UInt64) (source : Reg) (other : source ≠ .rsp) :
    Building start top (start.reg source :: values) (step status cpu (.push source)) := by
  rw [← building.kept source other]
  exact building.push short _

/-- Registers pushed in order lie below what the stack held, the last one lowest. -/
theorem Building.pushes (building : Building start top values cpu)
    (status : UInt64 → UInt64 → UInt64 → UInt64) (sources : List Reg) (free : .rsp ∉ sources)
    (short : sources.length + values.length < 2 ^ 32) :
    Building start top ((sources.map start.reg).reverse ++ values)
      (run status (sources.map .push) cpu) := by
  induction sources generalizing cpu values with
  | nil => exact building
  | cons source rest ih =>
    simp only [List.mem_cons, not_or, List.length_cons] at free short
    have pushed := building.pushReg (by omega) status source (Ne.symm free.1)
    have below := ih pushed free.2 (by simp only [List.length_cons]; omega)
    simpa [run] using below

/-- Popping a list of registers loads what lies above the stack pointer. -/
theorem run_pops {targets : List Reg} (free : .rsp ∉ targets) {given : Reg → UInt64}
    (held : StoredAt cpu.memory (cpu.reg .rsp) (targets.map given)) :
    run status (targets.map .pop) cpu =
      { cpu with reg := fun register =>
          if register = .rsp then cpu.reg .rsp + 8 * UInt64.ofNat targets.length
          else if register ∈ targets then given register else cpu.reg register } := by
  induction targets generalizing cpu with
  | nil =>
    have same : (fun register => if register = .rsp then cpu.reg .rsp else cpu.reg register) = cpu.reg := by
      funext register
      split
      · simp_all
      · rfl
    simp [same]
  | cons target rest ih =>
    obtain ⟨different, free⟩ := not_or.mp (List.mem_cons.not.mp free)
    have pointer : (cpu.pop target).reg .rsp = cpu.reg .rsp + 8 := by
      simp [Cpu.pop, Cpu.setReg, Function.update_of_ne different]
    have above : StoredAt (cpu.pop target).memory ((cpu.pop target).reg .rsp) (rest.map given) := by
      rw [pointer]
      exact held.2
    rw [List.map_cons, run, List.foldl_cons]
    refine (ih free above).trans ?_
    rw [pointer, next_quadword]
    simp only [Cpu.pop, Cpu.setReg, List.length_cons, List.mem_cons]
    congr 1
    funext register
    by_cases stack : register = .rsp
    · simp [stack]
    · by_cases again : register ∈ rest
      · simp [stack, again]
      · by_cases now : register = target
        · subst now
          simp [stack, again, held.1]
        · simp [stack, again, now]

end Sequences

end Zephyr.Asm
