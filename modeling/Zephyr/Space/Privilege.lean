import Zephyr.Proc.InterruptStack
import Zephyr.Proc.SystemCall
import Zephyr.Space.Processes

/-! User threads stay in ring 3. `dispatch_syscall` and the end of `handle_syscall` infer
the privilege of the caller from its address; both agree for code in user pages. -/

namespace Zephyr

open Radix PageTableFlags Transition MemoryInfo

variable {σ : Type}

/-- The saved frame of a user thread holds the user selectors. -/
def Thread.InRing3 (thread : Thread) : Prop :=
  thread.threadType = .user → (thread.frame.codeSegment, thread.frame.stackSegment) = userSegments

theorem stable_inRing3 : Stable Thread.InRing3 where
  error _ known := known
  message message known := by
    cases message
    exact known

section Addresses

variable {frame : ISF} {rip : UInt64}

theorem withSegments_user (above : userCodeStart ≤ frame.instructionPointer.toNat) :
    ((Kernel.withSegments frame).codeSegment, (Kernel.withSegments frame).stackSegment) = userSegments := by
  rw [Kernel.withSegments, if_neg (Nat.not_lt.mpr above)]

/-- Addresses up to the end of the lower half compare alike signed and unsigned. -/
theorem takesSysret_of_le (above : userCodeStart ≤ rip.toNat) (below : rip.toNat ≤ 2 ^ 47) : TakesSysret rip := by
  have left : rip.toBitVec.toInt = rip.toNat := by
    rw [BitVec.toInt_eq_toNat_of_lt]
    · rfl
    · change 2 * rip.toNat < 2 ^ 64
      omega
  have right : (UInt64.ofNat userCodeStart).toBitVec.toInt = 0x5000000 := by decide
  rw [TakesSysret, BitVec.slt_iff_toInt_lt, left, right]
  change 0x5000000 ≤ rip.toNat at above
  omega

end Addresses

namespace Kernel

variable [DecidableEq σ] [Fintype σ] {kernel : Kernel σ} {thread current : Thread}

theorem Conserved.sameType (conserved : kernel.Conserved) (action : Action σ)
    (running : kernel.runningThread = some current) (held : (kernel.perform action).Held thread)
    (same : thread.threadId = current.threadId) :
    thread.threadType = current.threadType := by
  let holds (thread : Thread) : Prop := thread.threadId = current.threadId → thread.threadType = current.threadType
  have stable : Stable holds := by
    refine ⟨fun _ known => known, ?_⟩
    rintro thread ⟨data1, data2, data3⟩ known
    exact known
  have every : kernel.Every holds := every_iff.mpr fun other old own => by
    rw [conserved.eq_of_held (.inl running) old own]
  have after := every.perform stable action
    (fun other _ again _ _ => by
      cases running.symm.trans again
      rfl)
    (by
      intro context _ other stamped _
      obtain ⟨again, found, rfl⟩ := Option.map_eq_some_iff.mp stamped
      cases running.symm.trans found
      rfl)
    (fun other born own => by
      have bounded := conserved.bounded _ (conserved.live_of_held (.inl running)).1
      have fresh := born.fresh
      omega)
  exact every_iff.mp after thread held same

variable {context : Context} {syscallId arg1 arg2 arg3 : UInt64} {memory : ForkMemory}

theorem caller_of_returned {frame : ISF}
    (returned : (kernel.dispatchSyscall context syscallId arg1 arg2 arg3 memory).2 = .returned frame)
    (running : (kernel.dispatchSyscall context syscallId arg1 arg2 arg3 memory).1.runningThread = some thread) :
    ∃ current, kernel.runningThread = some current ∧ thread.threadId = current.threadId := by
  have stays : ∀ addr, (kernel.dispatchSyscall context syscallId arg1 arg2 arg3 memory).2 ≠ .launched addr := by
    intro addr launched
    rw [returned] at launched
    cases launched
  rcases runningThread_of_not_launched stays with nobody | same
  · cases nobody.symm.trans running
  · rw [running] at same
    obtain ⟨current, before, equal⟩ := Option.map_eq_some_iff.mp same.symm
    exact ⟨current, before, equal.symm⟩

theorem runningThread_of_halted (halted : (kernel.dispatchSyscall context syscallId arg1 arg2 arg3 memory).2 = .halted) :
    (kernel.dispatchSyscall context syscallId arg1 arg2 arg3 memory).1.runningThread = none := by
  have ipc : ∀ saved handle call, (kernel.ipcSyscall saved handle call).2 ≠ .halted := by
    intro saved handle call stopped
    rcases kernel.ipcSyscall_cases saved handle call rfl with ⟨_, _, returned, _⟩ | ⟨_, _, launched, _⟩
    · cases returned.symm.trans stopped
    · cases launched.symm.trans stopped
  unfold dispatchSyscall at halted ⊢
  dsimp only at halted ⊢
  split at halted
  · cases halted
  · unfold exitCurrentThread
    cases running : kernel.runningThread with
    | none => exact running
    | some current => exact ((kernel.retire current).dropThread_kept current).2.1
  · exact absurd halted (ipc _ _ _)
  · exact absurd halted (ipc _ _ _)
  · exact absurd halted (ipc _ _ _)
  · cases halted
  · cases halted

theorem Every.inRing3 (every : kernel.Every Thread.InRing3) (action : Action σ)
    (segments : ∀ current saved, kernel.runningThread = some current → action.savedContext = some saved →
      current.threadType = .user → (saved.frame.codeSegment, saved.frame.stackSegment) = userSegments) :
    (kernel.perform action).Every Thread.InRing3 := by
  refine every.perform stable_inRing3 action (fun current saved running same user => ?_)
    (fun saved same thread stamped user => ?_) (fun thread born user => ?_)
  · exact segments current saved running same user
  · obtain ⟨current, running, rfl⟩ := Option.map_eq_some_iff.mp stamped
    exact segments current saved running same user
  · cases born with
    | kernel => cases user
    | fork context syscallId arg1 arg2 arg3 kernelStackStart userStackEnd current number running =>
      exact segments current _ running rfl user
    | user => rfl

end Kernel

namespace System

variable [DecidableEq σ] [Fintype σ] {system after : System σ} {boot : MemoryInfo} {trees : Owner → Option Tree}
variable {thread : Thread} {context : Context} {mapper : Mapper} {event : Event σ}

/-- The invariant: saved frames hold the user selectors, and so does the processor while a
user thread runs. -/
structure Unprivileged (system : System σ) : Prop where
  frames : system.kernel.Every Thread.InRing3
  selectors : ∀ thread, system.userThread = some thread → system.selectors = userSegments

omit [DecidableEq σ] in
theorem Calls.above (tenancy : Tenancy boot trees system) (found : system.userThread = some thread) {frame : ISF}
    (calls : system.Calls frame) :
    userCodeStart ≤ frame.instructionPointer.toNat ∧ frame.instructionPointer.toNat ≤ 2 ^ 47 := by
  obtain ⟨running, user⟩ := Tenancy.userThread_eq_some found
  obtain ⟨tree, _, there, root, _⟩ := tenancy.running_tree running user
  obtain ⟨canonical, walked, translated, _⟩ := calls.second
  rw [← root] at translated
  obtain ⟨least, most⟩ := (tenancy.isolated.tree _ tree there).reaches_above canonical translated
  have previous : (frame.instructionPointer - 1).toNat = (2 ^ 64 - 1 + frame.instructionPointer.toNat) % 2 ^ 64 :=
    UInt64.toNat_sub _ _
  have bound := frame.instructionPointer.toNat_lt
  change (0x5000000 : Nat) ≤ (frame.instructionPointer - 1).toNat at least
  change (frame.instructionPointer - 1).toNat < 2 ^ 47 at most
  change 0x5000000 ≤ frame.instructionPointer.toNat ∧ _
  omega

theorem Calls.takesSysret (tenancy : Tenancy boot trees system) (found : system.userThread = some thread)
    {syscallId arg1 arg2 arg3 : UInt64} {memory : Kernel.ForkMemory} {frame : ISF} (calls : system.Calls context.frame)
    (returned : (system.kernel.dispatchSyscall context syscallId arg1 arg2 arg3 memory).2 = .returned frame) :
    TakesSysret frame.rcx := by
  obtain ⟨above, below⟩ := calls.above tenancy found
  obtain ⟨running, _⟩ := Tenancy.userThread_eq_some found
  obtain ⟨reply, _, rfl⟩ := (Kernel.dispatchSyscall_reply tenancy.housed.conserved running rfl).1 frame returned
  have kept : (Kernel.withSegments context.frame).rcx = context.frame.rcx := congrFun (withSegments_kept _).1 .rcx
  rw [(reply.write_kept _).2.2.1, kept, calls.address]
  exact takesSysret_of_le above below

omit [DecidableEq σ] [Fintype σ] in
theorem userThread_of_running (running : system.kernel.runningThread = some thread) (user : thread.threadType = .user) :
    system.userThread = some thread := by
  simp [userThread, running, user]

omit [DecidableEq σ] [Fintype σ] in
theorem launchSelectors_user {kernel : Kernel σ} (every : kernel.Every Thread.InRing3)
    (running : kernel.runningThread = some thread) (user : thread.threadType = .user) :
    launchSelectors kernel = userSegments := by
  simp only [launchSelectors, running]
  exact every.running thread running user

namespace Unprivileged

theorem syscall {syscallId arg1 arg2 arg3 : UInt64} {kernelStackStart : Option Nat} (unprivileged : system.Unprivileged)
    (tenancy : Tenancy boot trees system)
    (possible : system.Possible (.syscall context syscallId arg1 arg2 arg3 kernelStackStart))
    (step : Step mapper system (.syscall context syscallId arg1 arg2 arg3 kernelStackStart) after) :
    after.Unprivileged := by
  simp only [Step, perform] at step
  split at step
  · cases step
  · rename_i stack info _
    cases step
    have every : (system.kernel.dispatchSyscall context syscallId arg1 arg2 arg3 ⟨stack⟩).1.Every
        Thread.InRing3 := by
      refine unprivileged.frames.inRing3 (.syscall context syscallId arg1 arg2 arg3 ⟨stack⟩) ?_
      intro current saved running same user
      cases same
      have found := userThread_of_running running user
      exact withSegments_user ((possible current found).above tenancy found).1
    refine ⟨every, fun thread found => ?_⟩
    obtain ⟨running, user⟩ := Tenancy.userThread_eq_some found
    dsimp only at running ⊢
    cases control : (system.kernel.dispatchSyscall context syscallId arg1 arg2 arg3 ⟨stack⟩).2 with
    | launched addr => exact launchSelectors_user every running user
    | returned frame =>
      obtain ⟨current, before, same⟩ := Kernel.caller_of_returned control running
      have typed := tenancy.housed.conserved.sameType
        (.syscall context syscallId arg1 arg2 arg3 ⟨stack⟩) before (.inl running) same
      have caller := userThread_of_running before (typed.symm.trans user)
      exact if_neg ((possible current caller).takesSysret tenancy caller control)
    | halted => cases (Kernel.runningThread_of_halted control).symm.trans running

theorem interrupt (action : Action σ) (unprivileged : system.Unprivileged) (tenancy : Tenancy boot trees system)
    (saves : action.savedContext = some context)
    (pushed : ∀ thread, system.userThread = some thread →
      (context.frame.codeSegment, context.frame.stackSegment) = system.selectors)
    (performed : after.kernel = system.kernel.perform action)
    (resumed : after.selectors = interruptSelectors system.kernel after.kernel context) : after.Unprivileged := by
  have segments : ∀ {thread}, system.kernel.runningThread = some thread → thread.threadType = .user →
      (context.frame.codeSegment, context.frame.stackSegment) = userSegments := by
    intro thread running user
    have found := userThread_of_running running user
    rw [pushed thread found, unprivileged.selectors thread found]
  have every : after.kernel.Every Thread.InRing3 := by
    rw [performed]
    refine unprivileged.frames.inRing3 action fun current saved running same user => ?_
    cases saves.symm.trans same
    exact segments running user
  refine ⟨every, fun thread found => ?_⟩
  obtain ⟨running, user⟩ := Tenancy.userThread_eq_some found
  rw [resumed, interruptSelectors]
  split
  · rename_i same
    rw [running] at same
    obtain ⟨current, before, equal⟩ := Option.map_eq_some_iff.mp same.symm
    rw [performed] at running
    have typed := tenancy.housed.conserved.sameType action before (.inl running) equal.symm
    exact segments before (typed.symm.trans user)
  · exact launchSelectors_user every running user

theorem step (unprivileged : system.Unprivileged) (tenancy : Tenancy boot trees system)
    (possible : system.Possible event) (step : Step mapper system event after) : after.Unprivileged := by
  by_cases schedules : event.Schedules
  · cases event with
    | syscall => exact unprivileged.syscall tenancy possible step
    | timer context =>
      cases step
      exact interrupt (.timer context) unprivileged tenancy rfl possible rfl rfl
    | keyboard context key =>
      cases step
      exact interrupt (.keyboard context key) unprivileged tenancy rfl possible rfl rfl
    | _ => exact schedules.elim
  · obtain ⟨selectors, same | ⟨action, other, performed⟩⟩ := step.goes_on schedules
    · refine ⟨same ▸ unprivileged.frames, fun thread found => ?_⟩
      rw [userThread, same] at found
      exact selectors.trans (unprivileged.selectors thread found)
    · refine ⟨performed ▸ unprivileged.frames.inRing3 action fun current saved _ saves => ?_, fun thread found => ?_⟩
      · cases action with
        | syscall => exact absurd trivial other
        | timer => exact absurd trivial other
        | keyboard => exact absurd trivial other
        | _ => cases saves
      · rw [userThread, performed, Kernel.runningThread_of_not_schedules other] at found
        exact selectors.trans (unprivileged.selectors thread found)

end Unprivileged

/-- In a careful run, every saved frame of a user thread holds the user selectors, and a
system call that returns to one leaves by `sysretq`. -/
theorem user_threads_stay_in_ring3 (mapper : Mapper) {boot : MemoryInfo} (booted : Booted boot) (keyboardSocket : σ)
    {events : List (Event σ)} {system : System σ}
    (run : Run (fun before event after => before.Careful event ∧ PossibleStep mapper before event after)
      (System.boot keyboardSocket boot) events system) :
    (∀ thread, system.kernel.Held thread → thread.threadType = .user →
      (thread.frame.codeSegment, thread.frame.stackSegment) = userSegments) ∧
    ∀ thread context syscallId arg1 arg2 arg3 memory frame, system.userThread = some thread →
      system.Calls context.frame →
      (system.kernel.dispatchSyscall context syscallId arg1 arg2 arg3 memory).2 = .returned frame →
      TakesSysret frame.rcx := by
  have invariant : ∃ trees, Tenancy boot trees system ∧ system.Unprivileged := by
    apply run.invariant
    · exact ⟨_, Tenancy.of_boot boot keyboardSocket, Kernel.every_boot _ keyboardSocket boot.kernelPageTables, nofun⟩
    · rintro before event after ⟨trees, tenancy, unprivileged⟩ ⟨careful, possible, step⟩
      obtain ⟨more, kept⟩ := tenancy.step booted ⟨careful, step⟩
      exact ⟨more, kept, unprivileged.step tenancy possible step⟩
  obtain ⟨trees, tenancy, unprivileged⟩ := invariant
  constructor
  · intro thread held
    exact Kernel.every_iff.mp unprivileged.frames thread held
  · intro thread context syscallId arg1 arg2 arg3 memory frame found calls returned
    exact calls.takesSysret tenancy found returned

/-- A launched thread is in ring 3. -/
theorem user_threads_stay_in_ring3_launch : ∃ (system : System Unit) (thread : Thread),
    system.userThread = some thread ∧ (thread.frame.codeSegment, thread.frame.stackSegment) = userSegments := by
  obtain ⟨info, _, run⟩ := run_launch
  have stays := (user_threads_stay_in_ring3 offsetPageTable booted_kernelInfo () run).1
  exact ⟨⟨launchKernel, info, userSegments⟩, _, rfl, stays _ (.inl rfl) rfl⟩

section Recursive

variable {memory : Memory Nat 512 PageTableEntry}

/-- A level-4 table that leads to itself is a user page at address 0. -/
theorem translate_recursive (recursive : memory 91 0 = .setAddr 91 userPage) (access : Access) {addr : Nat}
    (low : addr < 4096) : ∃ walked, translate memory 91 access addr = .ok walked ∧ walked.frame = 91 := by
  have indices : VirtAddr.indices addr = [0, 0, 0, 0] := by
    have fourth : addr / 2 ^ 39 = 0 := by omega
    have third : addr / 2 ^ 30 = 0 := by omega
    have second : addr / 2 ^ 21 = 0 := by omega
    have first : addr / 2 ^ 12 = 0 := by omega
    simp only [VirtAddr.indices, VirtAddr.path, VirtAddr.p1Index, VirtAddr.p2Index, VirtAddr.p3Index,
      VirtAddr.p4Index, first, second, third, fourth]
    rfl
  have entry : (PageTableEntry.setAddr 91 userPage).flags.contains present = true ∧
      (PageTableEntry.setAddr 91 userPage).flags.contains hugePage = false ∧
      (PageTableEntry.setAddr 91 userPage).addr = 91 := by decide
  have walked : lookup memory 91 [0, 0, 0, 0] = some ⟨[(91, 0), (91, 0), (91, 0), (91, 0)], 91⟩ := by
    simp [lookup, recursive, entry]
  have allowed : (PageTableEntry.setAddr 91 userPage).flags.contains access.rights = true := by
    cases access <;> decide
  refine ⟨⟨[(91, 0), (91, 0), (91, 0), (91, 0)], 91⟩, ?_, rfl⟩
  simp [translate, indices, walked, recursive, allowed]

theorem fetches_recursive (recursive : memory 91 0 = .setAddr 91 userPage) {addr : Nat} (low : addr < 4096) :
    Fetches memory 91 addr (loadByte memory 91 addr) := by
  obtain ⟨walked, translated, frame⟩ := translate_recursive recursive .read low
  exact ⟨.inl (by omega), walked, translated, by rw [frame]⟩

theorem storeByte_recursive {addr : Nat} (high : 8 ≤ addr) (low : addr < 4096) (value : BitVec 8) :
    storeByte memory 91 addr value 91 0 = memory 91 0 := by
  refine write_index _ _ _ _ fun same => ?_
  have equal : 0 = addr / 8 % 512 := congrArg Fin.val same
  omega

theorem store_recursive {info : MemoryInfo} (recursive : info.memory 91 0 = .setAddr 91 userPage) {addr : Nat}
    (low : addr < 4096) (value : BitVec 8) :
    PossibleStep offsetPageTable ⟨launchKernel, info, userSegments⟩ (.store addr value)
      ⟨launchKernel, { info with memory := storeByte info.memory 91 addr value }, userSegments⟩ := by
  obtain ⟨walked, translated, frame⟩ := translate_recursive recursive .write low
  have running : ∃ thread, userThread ⟨launchKernel, info, userSegments⟩ = some thread := ⟨_, rfl⟩
  obtain ⟨thread, running⟩ := running
  have reached : translate info.memory launchKernel.cr3 .write addr = .ok walked := translated
  refine ⟨trivial, ?_⟩
  simp only [Step, perform, running, reached, frame]

end Recursive

/-- `syscall` at address 0x800, for number 9. -/
private def lowCall : Context :=
  let frame : ISF := { instructionPointer := 0x802, rcx := 0x802 }
  ⟨heapStart + 0x12f60, frame⟩

/-- A wrapped segment enters a level-4 table in its own slot 0. The user thread writes a
`syscall` instruction through it, and yields from there with the kernel's selectors. -/
theorem low_syscall_saves_kernel_selectors : ∃ (boot : MemoryInfo) (events : List (Event Unit)) (system : System Unit)
    (thread : Thread), Booted boot ∧ Run (PossibleStep offsetPageTable) (System.boot () boot) events system ∧
      system.kernel.Held thread ∧ thread.threadType = .user ∧
      (thread.frame.codeSegment, thread.frame.stackSegment) = kernelSegments := by
  have data : ([0x07, 0xB0, 0x05] : List (BitVec 8)).length ≤ 8 := by decide
  have free : (0 : Fin 512) ≠ 5 ∧ (0 : Fin 512) ≠ 6 ∧ (0 : Fin 512) ≠ 8 ∧ (0 : Fin 512) ≠ 136 := by decide
  obtain ⟨info, _, entry, run⟩ := run_wrapped free data
  have first : info.memory 91 0 = .setAddr 91 userPage := entry.trans (by decide)
  let opcode : MemoryInfo := { info with memory := storeByte info.memory 91 0x800 0x0F }
  have second : opcode.memory 91 0 = .setAddr 91 userPage :=
    (storeByte_recursive (by decide : 8 ≤ 0x800) (by decide) 0x0F).trans first
  let program : MemoryInfo := { opcode with memory := storeByte opcode.memory 91 0x801 0x05 }
  have third : program.memory 91 0 = .setAddr 91 userPage :=
    (storeByte_recursive (by decide : 8 ≤ 0x801) (by decide) 0x05).trans second
  have calls : Calls ⟨launchKernel, program, userSegments⟩ lowCall.frame := by
    refine ⟨rfl, ?_, ?_⟩
    · have loaded : loadByte program.memory 91 0x800 = 0x0F :=
        (loadByte_storeByte_ne (by decide) (by decide)).trans loadByte_storeByte_same
      exact loaded ▸ fetches_recursive third (by decide)
    · have loaded : loadByte program.memory 91 0x801 = 0x05 := loadByte_storeByte_same
      exact loaded ▸ fetches_recursive third (by decide)
  have yielded : ∃ thread ∈ (launchKernel.dispatchSyscall lowCall 9 0 0 0 ⟨none⟩).1.waitQueue,
      thread.threadType = .user ∧ (thread.frame.codeSegment, thread.frame.stackSegment) = kernelSegments := by decide +kernel
  obtain ⟨thread, queued, user, segments⟩ := yielded
  let final : System Unit := ⟨(launchKernel.dispatchSyscall lowCall 9 0 0 0 ⟨none⟩).1, program,
    launchSelectors (launchKernel.dispatchSyscall lowCall 9 0 0 0 ⟨none⟩).1⟩
  have last : PossibleStep offsetPageTable ⟨launchKernel, program, userSegments⟩ (.syscall lowCall 9 0 0 0 none) final :=
    ⟨fun _ _ => calls, rfl⟩
  exact ⟨kernelInfo, _, final, thread, booted_kernelInfo,
    ((run.snoc (store_recursive first (by decide : 0x800 < 4096) 0x0F)).snoc
      (store_recursive second (by decide : 0x801 < 4096) 0x05)).snoc last,
    .inr (.inl queued), user, segments⟩

end System

end Zephyr
