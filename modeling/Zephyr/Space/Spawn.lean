import Zephyr.Mem.Draws
import Zephyr.Space.Image
import Zephyr.Space.Launch

/-! `spawn_user_thread` as one call, and what it leaves behind when it fails. Whatever it
did to memory before the error stays: nothing on the way gives a frame back. -/

namespace Zephyr

open Radix PageTableFlags Transition

namespace MemoryInfo

section Draws

variable {mapper : Mapper} {root : Nat} {info after : MemoryInfo} {segment : Segment}

theorem draws_allocateUserHeap {result : Except MapToError Unit}
    (returned : info.allocateUserHeap mapper root = .ok (result, after)) : Draws info after :=
  draws_createUserOndemandPages returned

theorem draws_loadSegment {result : Except String Unit}
    (returned : info.loadSegment mapper root segment = .ok (result, after)) : Draws info after := by
  unfold MemoryInfo.loadSegment at returned
  split at returned
  · cases returned
  split at returned
  · cases returned
  split at returned
  · cases returned
    exact .refl _
  have pages : ∀ {start size : Nat} {result : Except MapToError Unit} {middle : MemoryInfo},
      info.allocatePages mapper root start size userPage = .ok (result, middle) → Draws info middle := by
    intro start size result middle allocated
    unfold allocatePages at allocated
    split at allocated
    · cases allocated
    · exact draws_allocateEach allocated
  split at returned
  · cases returned
  · rename_i failed
    cases returned
    exact pages failed
  · rename_i middle allocated
    have mapped := pages allocated
    split at returned
    · cases returned
      exact mapped
    split at returned
    · cases returned
      exact mapped
    split at returned
    · cases returned
    · cases returned
      exact mapped

theorem draws_loadBinaryIntoMemory {segments : List Segment} {result : Except String Unit}
    (returned : info.loadBinaryIntoMemory mapper root segments = .ok (result, after)) : Draws info after := by
  induction segments generalizing info with
  | nil =>
    cases returned
    exact .refl _
  | cons segment segments ih =>
    rw [loadBinaryIntoMemory] at returned
    split at returned
    · cases returned
    · rename_i failed
      cases returned
      exact draws_loadSegment failed
    · rename_i loaded
      exact (draws_loadSegment loaded).trans (ih returned)

end Draws

end MemoryInfo

open MemoryInfo

variable {σ : Type}

namespace Kernel

variable {kernel : Kernel σ} {thread : Thread} {table original : Nat}

/-- `initialise_thread` once it has a stack; `Kernel.initialiseThread` is its part of a
spawn that interrupts may cut. -/
def newThread (kernel : Kernel σ) (table : Nat) (entryPoint : UInt64) (sockets : List σ)
    (userStackEnd kernelStackStart : Nat) (garbage : ISF) : Nat × Kernel σ :=
  let (uid, kernel) := kernel.uniqueId
  let (_, kernel) := kernel.uniqueId
  let kernelStackEnd := kernelStackStart + kernelStackSize
  let thread : Thread := {
    threadId := uid
    process := kernel.processes.length
    kernelStackEnd := kernelStackEnd
    context := kernelStackEnd - interruptContextSize
    frame := { garbage with
      instructionPointer := entryPoint, flags := 0x200, codeSegment := userSegments.1,
      stackSegment := userSegments.2, stackPointer := UInt64.ofNat userStackEnd,
      rax := UInt64.ofNat userHeapStart, rcx := UInt64.ofNat userHeapSize }
    userStackEnd := userStackEnd
    pageTablePhys := table
    threadType := .user }
  let kernel := { kernel with
    processes := kernel.processes ++ [(⟨table, sockets.map some⟩ : Process σ)]
    created := kernel.created ++ [uid] }
  (uid, kernel.scheduleThread thread)

/-- The table at `table` is handed out again. -/
def reissue (kernel : Kernel σ) (table : Nat) : Kernel σ :=
  { kernel with released := kernel.released.filter (· ≠ table) }

/-- A kernel thread that is not inside `spawn_user_thread`. -/
structure MaySpawn (kernel : Kernel σ) (thread : Thread) : Prop where
  running : kernel.runningThread = some thread
  type : thread.threadType = .kernel
  idle : kernel.spawning thread.threadId = none

/-! The stages of a spawn, as writes of the stage over the kernel of the whole call. -/

@[simp] theorem setStage_setStage (first second : Option SpawnStage) :
    (kernel.setStage thread first).setStage thread second = kernel.setStage thread second := by
  simp [setStage]

@[simp] theorem counter_setStage (stage : Option SpawnStage) : (kernel.setStage thread stage).counter = kernel.counter :=
  rfl

theorem setStage_idle (idle : kernel.spawning thread.threadId = none) : kernel.setStage thread none = kernel := by
  rw [setStage, ← idle, Function.update_eq_self]

theorem stage_setStage (running : kernel.runningThread = some thread) (stage : Option SpawnStage) :
    (kernel.setStage thread stage).stage = stage.map (thread, ·) := by
  simp [Kernel.stage, setStage, running]

theorem MaySpawn.created (may : kernel.MaySpawn thread) (table : Nat) :
    kernel.createKernelOnlyPagetable table = (kernel.reissue table).setStage thread (some (.created table)) := by
  simp only [createKernelOnlyPagetable, reissue, may.running, may.type, may.idle, and_self, if_true]

section Stages

variable (running : kernel.runningThread = some thread)
include running

theorem failHeap_setStage :
    (kernel.setStage thread (some (.created table))).failHeap = kernel.setStage thread none := by
  simp [failHeap, stage_setStage running]

theorem enterUserPagetable_setStage : (kernel.setStage thread (some (.created table))).enterUserPagetable =
    { kernel with cr3 := table }.setStage thread (some (.inside table kernel.cr3)) := by
  simp only [enterUserPagetable, stage_setStage running, Option.map_some, setStage_setStage]
  rfl

theorem loadSegment_setStage (active : kernel.cr3 = table) :
    (kernel.setStage thread (some (.inside table original))).loadSegment =
      kernel.setStage thread (some (.inside table original)) := by
  subst active
  simp only [loadSegment, stage_setStage running, Option.map_some]
  rfl

theorem failClosure_setStage (draws : Nat) :
    (kernel.setStage thread (some (.inside table original))).failClosure draws =
      { kernel with counter := kernel.counter + draws }.setStage thread (some (.leaving original)) := by
  simp only [failClosure, stage_setStage running, Option.map_some, setStage_setStage]
  rfl

theorem initialiseThread_setStage (entryPoint : UInt64) (sockets : List σ) (userStackEnd kernelStackStart : Nat)
    (garbage : ISF) : (kernel.setStage thread (some (.inside table original))).initialiseThread entryPoint sockets
      userStackEnd kernelStackStart garbage =
    (kernel.newThread table entryPoint sockets userStackEnd kernelStackStart garbage).2.setStage thread
      (some (.leaving original)) := by
  simp only [initialiseThread, stage_setStage running, Option.map_some]
  simp [newThread, setStage, scheduleThread, uniqueId]

theorem leaveUserPagetable_setStage : (kernel.setStage thread (some (.leaving original))).leaveUserPagetable =
    { kernel with cr3 := original }.setStage thread none := by
  simp only [leaveUserPagetable, stage_setStage running, Option.map_some, setStage_setStage]
  rfl

end Stages

end Kernel

namespace System

/-- `switch_pagetable_and_execute`. -/
def switchPagetableAndExecute {R : Type} (system : System σ) (table : Nat)
    (func : System σ → Except Halt (R × System σ)) : Except Halt (R × System σ) :=
  match func { system with kernel := { system.kernel with cr3 := table } } with
  | .error halt => .error halt
  | .ok (result, after) => .ok (result, { after with kernel := { after.kernel with cr3 := system.kernel.cr3 } })

/-- `initialise_thread`. It draws the thread's id before the stack search draws another. -/
def initialiseThread (system : System σ) (table : Nat) (entryPoint : UInt64) (sockets : List σ) (kernelStackStart : Nat)
    (garbage : ISF) : Except Halt (Except String Nat × System σ) :=
  match system.info.allocateUserStack table (system.kernel.counter + 2) with
  | .error panic => .error (.panic panic)
  | .ok (.error message, info) =>
    .ok (.error message, { system with kernel := { system.kernel with counter := system.kernel.counter + 2 }, info })
  | .ok (.ok (_, userStackEnd), info) =>
    let (uid, kernel) := system.kernel.newThread table entryPoint sockets userStackEnd kernelStackStart garbage
    .ok (.ok uid, { system with kernel, info })

/-- The closure that `spawn_user_thread` runs on the new table. -/
def buildThread (mapper : Mapper) (table : Nat) (image : Image) (sockets : List σ) (kernelStackStart : Nat) (garbage : ISF)
    (system : System σ) : Except Halt (Except String Nat × System σ) :=
  match system.info.loadBinaryIntoMemory mapper table image.segments with
  | .error halt => .error halt
  | .ok (.error message, info) => .ok (.error message, { system with info })
  | .ok (.ok (), info) =>
    ({ system with info } : System σ).initialiseThread table image.entry sockets kernelStackStart garbage

/-- `spawn_user_thread` without an interruption. -/
def spawnUserThread (mapper : Mapper) (parse : List (BitVec 8) → Option Image) (system : System σ)
    (bin : List (BitVec 8)) (sockets : List σ) (kernelStackStart : Nat) (garbage : ISF) :
    Except Halt (Except String Nat × System σ) :=
  match validateBinary bin with
  | .error panic => .error (.panic panic)
  | .ok false => .ok (.error "Invalid binary format", system)
  | .ok true =>
    match parseElfBinary parse bin with
    | .error _ => .ok (.error "Failed to parse ELF", system)
    | .ok image =>
      match system.info.createKernelOnlyPagetable with
      | .error panic => .error (.panic panic)
      | .ok (table, info) =>
        let kernel := system.kernel.reissue table
        match info.allocateUserHeap mapper table with
        | .error panic => .error (.panic panic)
        | .ok (.error _, info) =>
          .ok (.error "Couldn't allocate on-demand pages for user heap", { system with kernel, info })
        | .ok (.ok (), info) =>
          match ({ system with kernel, info } : System σ).switchPagetableAndExecute table
            (buildThread mapper table image sockets kernelStackStart garbage) with
          | .error halt => .error halt
          | .ok (.error _, after) => .ok (.error "Error creating user thread", after)
          | .ok (.ok threadId, after) => .ok (.ok threadId, after)

/-- The scheduler and the active table are as they were. -/
structure Resumes (before after : System σ) : Prop where
  queue : after.kernel.waitQueue = before.kernel.waitQueue
  running : after.kernel.runningThread = before.kernel.runningThread
  table : after.kernel.cr3 = before.kernel.cr3

section Failures

variable {mapper : Mapper} {parse : List (BitVec 8) → Option Image} {system after : System σ} {bin : List (BitVec 8)}
variable {sockets : List σ} {kernelStackStart table : Nat} {garbage : ISF} {error : String} {image : Image}

theorem initialiseThread_error (returned : system.initialiseThread table image.entry sockets kernelStackStart garbage =
    .ok (.error error, after)) : system.Resumes after ∧ Draws system.info after.info := by
  unfold initialiseThread at returned
  split at returned
  · cases returned
  · rename_i failed
    cases returned
    exact ⟨⟨rfl, rfl, rfl⟩, draws_allocateUserStack failed⟩
  · cases returned

theorem buildThread_error (returned : buildThread mapper table image sockets kernelStackStart garbage system =
    .ok (.error error, after)) : system.Resumes after ∧ Draws system.info after.info := by
  unfold buildThread at returned
  split at returned
  · cases returned
  · rename_i failed
    cases returned
    exact ⟨⟨rfl, rfl, rfl⟩, draws_loadBinaryIntoMemory failed⟩
  · rename_i loaded
    obtain ⟨⟨queue, running, active⟩, draws⟩ := initialiseThread_error returned
    exact ⟨⟨queue, running, active⟩, (draws_loadBinaryIntoMemory loaded).trans draws⟩

theorem switchPagetableAndExecute_ok {R : Type} {func : System σ → Except Halt (R × System σ)} {result : R}
    (returned : system.switchPagetableAndExecute table func = .ok (result, after)) :
    ∃ last, func { system with kernel := { system.kernel with cr3 := table } } = .ok (result, last) ∧
      after = { last with kernel := { last.kernel with cr3 := system.kernel.cr3 } } := by
  unfold switchPagetableAndExecute at returned
  split at returned
  · cases returned
  · rename_i last executed
    cases returned
    exact ⟨last, executed, rfl⟩

/-- How `spawn_user_thread` returns an error: before it has done anything, or with a table
that nobody has. -/
theorem spawnUserThread_error
    (returned : system.spawnUserThread mapper parse bin sockets kernelStackStart garbage = .ok (.error error, after)) :
    system.Resumes after ∧ ((bin.take 4 ≠ magicBytes ∨ parse bin = none) ∧ after = system ∨
      (bin.take 4 = magicBytes ∧ parse bin ≠ none) ∧
        ∃ table, system.info.frameAllocator.frameUsage table = false ∧
          after.info.frameAllocator.frameUsage table = true) := by
  unfold spawnUserThread validateBinary at returned
  split at returned
  · cases returned
  · rename_i invalid
    cases returned
    refine ⟨⟨rfl, rfl, rfl⟩, .inl ⟨.inl fun magic => ?_, rfl⟩⟩
    rw [decide_eq_true magic] at invalid
    split at invalid <;> cases invalid
  · rename_i valid
    have magic : bin.take 4 = magicBytes := by
      split at valid
      · cases valid
      · exact of_decide_eq_true (Except.ok.inj valid)
    unfold parseElfBinary at returned
    cases parsed : parse bin with
    | none =>
      rw [parsed] at returned
      cases returned
      exact ⟨⟨rfl, rfl, rfl⟩, .inl ⟨.inr rfl, rfl⟩⟩
    | some image =>
      rw [parsed] at returned
      dsimp only at returned
      split at returned
      · cases returned
      rename_i table info created
      obtain ⟨free, used⟩ := createKernelOnlyPagetable_takes created
      -- from here on every error comes after a new table
      have late : ∀ last : MemoryInfo, Draws info last → ∃ table, system.info.frameAllocator.frameUsage table = false ∧
          last.frameAllocator.frameUsage table = true := fun last draws => ⟨table, free, draws.used used⟩
      have both : bin.take 4 = magicBytes ∧ some image ≠ none := ⟨magic, nofun⟩
      split at returned
      · cases returned
      · rename_i last failed
        cases returned
        exact ⟨⟨rfl, rfl, rfl⟩, .inr ⟨both, late last (draws_allocateUserHeap failed)⟩⟩
      · rename_i heap mapped
        split at returned
        · cases returned
        · rename_i switched
          cases returned
          obtain ⟨last, failed, rfl⟩ := switchPagetableAndExecute_ok switched
          obtain ⟨⟨queue, running, _⟩, draws⟩ := buildThread_error failed
          exact ⟨⟨queue, running, rfl⟩, .inr ⟨both, late last.info ((draws_allocateUserHeap mapped).trans draws)⟩⟩
        · cases returned

theorem spawnUserThread_refused {created mapped info : MemoryInfo}
    (valid : validateBinary bin = .ok true) (parsed : parse bin = some image)
    (returned : system.info.createKernelOnlyPagetable = .ok (table, created))
    (heap : created.allocateUserHeap mapper table = .ok (.ok (), mapped))
    (refused : mapped.loadBinaryIntoMemory mapper table image.segments = .ok (.error error, info)) :
    system.spawnUserThread mapper parse bin sockets kernelStackStart garbage =
      .ok (.error "Error creating user thread", { system with kernel := system.kernel.reissue table, info }) := by
  simp only [spawnUserThread, valid, parseElfBinary, parsed, returned, heap, switchPagetableAndExecute, buildThread,
    refused]

/-- A failed spawn leaves the scheduler and the active table as they were, and the frames
in use if and only if it failed before it made a page table. -/
theorem spawn_error_leaves_nothing_iff
    (returned : system.spawnUserThread mapper parse bin sockets kernelStackStart garbage = .ok (.error error, after)) :
    system.Resumes after ∧ ((∀ frame, after.info.frameAllocator.frameUsage frame =
      system.info.frameAllocator.frameUsage frame) ↔ bin.take 4 ≠ magicBytes ∨ parse bin = none) := by
  obtain ⟨resumes, ⟨early, rfl⟩ | ⟨late, table, free, used⟩⟩ := spawnUserThread_error returned
  · exact ⟨resumes, iff_of_true (fun _ => rfl) early⟩
  · refine ⟨resumes, iff_of_false (fun same => ?_) ?_⟩
    · rw [same, free] at used
      cases used
    · rintro (plain | unparsed)
      · exact plain late.1
      · exact late.2 unparsed

end Failures

/-! A call that is not interrupted is a run of the system's events. -/

section Runs

variable [DecidableEq σ] [Fintype σ] {mapper : Mapper} {system after : System σ} {thread : Thread} {table : Nat}
variable {info : MemoryInfo} {segments : List Segment} {kernel : Kernel σ}

/-- The events of one `spawn_user_thread`. Those after a failure have no effect. -/
def spawnEvents (image : Image) (sockets : List σ) (kernelStackStart : Nat) (garbage : ISF) : List (Event σ) :=
  .createKernelOnlyPagetable :: .allocateUserHeap :: ((image.segments.map .loadSegment ++
    [.initialiseThread image.entry sockets kernelStackStart garbage]) ++ [.leaveUserPagetable])

theorem run_outside (outside : ∀ thread table original, system.kernel.stage ≠ some (thread, .inside table original))
    (segments : List Segment) (entryPoint : UInt64) (sockets : List σ) (kernelStackStart : Nat) (garbage : ISF) :
    Run (Step mapper) system
      (segments.map .loadSegment ++ [.initialiseThread entryPoint sockets kernelStackStart garbage]) system := by
  induction segments with
  | nil =>
    refine .cons ?_ .nil
    simp only [Step, perform]
  | cons segment segments ih =>
    refine .cons ?_ ih
    simp only [Step, perform]

theorem run_buildThread (original : Nat) (running : kernel.runningThread = some thread) (active : kernel.cr3 = table)
    (entryPoint : UInt64) {sockets : List σ} {kernelStackStart : Nat} {garbage : ISF} {result : Except String Nat}
    {selectors : UInt64 × UInt64}
    (returned : buildThread mapper table ⟨entryPoint, segments⟩ sockets kernelStackStart garbage ⟨kernel, info, selectors⟩ =
      .ok (result, after)) :
    Run (Step mapper) ⟨kernel.setStage thread (some (.inside table original)), info, selectors⟩
      (segments.map .loadSegment ++ [.initialiseThread entryPoint sockets kernelStackStart garbage])
      { after with kernel := after.kernel.setStage thread (some (.leaving original)) } := by
  have standing : (kernel.setStage thread (some (.inside table original))).stage =
      some (thread, .inside table original) := Kernel.stage_setStage running _
  induction segments generalizing info with
  | nil =>
    simp only [buildThread, loadBinaryIntoMemory, initialiseThread] at returned
    refine .cons ?_ .nil
    split at returned
    · cases returned
    · rename_i failed
      cases returned
      simp only [Step, perform, standing, Kernel.counter_setStage, failed, Kernel.failClosure_setStage running]
    · rename_i allocated
      cases returned
      rw [Step, perform_initialiseThread standing allocated, Kernel.initialiseThread_setStage running]
  | cons segment segments ih =>
    simp only [buildThread, loadBinaryIntoMemory] at returned
    cases loaded : info.loadSegment mapper table segment with
    | error halt => simp [loaded] at returned
    | ok pair =>
      obtain ⟨result | _, middle⟩ := pair
      · simp only [loaded] at returned
        cases returned
        refine .cons ?_ (run_outside ?_ segments entryPoint sockets kernelStackStart garbage)
        · simp only [Step, perform, standing, loaded, Kernel.failClosure_setStage running, Nat.add_zero]
        · intro thread table original
          simp [Kernel.stage_setStage running]
      · simp only [loaded] at returned
        refine .cons ?_ (ih returned)
        rw [Step, perform_loadSegment standing loaded, Kernel.loadSegment_setStage running active]

omit [DecidableEq σ] [Fintype σ] in
theorem buildThread_caller {image : Image} {sockets : List σ} {kernelStackStart : Nat} {garbage : ISF}
    {result : Except String Nat}
    (returned : buildThread mapper table image sockets kernelStackStart garbage system = .ok (result, after)) :
    after.kernel.runningThread = system.kernel.runningThread ∧ after.kernel.spawning = system.kernel.spawning := by
  unfold buildThread initialiseThread at returned
  split at returned
  · cases returned
  · cases returned
    exact ⟨rfl, rfl⟩
  split at returned
  · cases returned
  all_goals
    cases returned
    exact ⟨rfl, rfl⟩

theorem spawnUserThread_run {parse : List (BitVec 8) → Option Image} {bin : List (BitVec 8)} {image : Image}
    {sockets : List σ} {kernelStackStart : Nat} {garbage : ISF} {result : Except String Nat}
    (may : system.kernel.MaySpawn thread) (valid : validateBinary bin = .ok true) (parsed : parse bin = some image)
    (returned : system.spawnUserThread mapper parse bin sockets kernelStackStart garbage = .ok (result, after)) :
    Run (Step mapper) system (spawnEvents image sockets kernelStackStart garbage) after := by
  simp only [spawnUserThread, valid, parseElfBinary, parsed] at returned
  split at returned
  · cases returned
  rename_i table created made
  have running : (system.kernel.reissue table).runningThread = some thread := may.running
  have idle : (system.kernel.reissue table).spawning thread.threadId = none := may.idle
  refine .cons ((perform_createKernelOnlyPagetable may.running ⟨may.type, may.idle⟩ made).trans
    (by rw [may.created table])) ?_
  have standing := Kernel.stage_setStage running (some (.created table))
  split at returned
  · cases returned
  · rename_i last failed
    cases returned
    have given : (system.kernel.reissue table).setStage thread none = system.kernel.reissue table :=
      Kernel.setStage_idle idle
    have stopped : (system.kernel.reissue table).stage = none := by simp [Kernel.stage, running, idle]
    have failing : Step mapper ⟨(system.kernel.reissue table).setStage thread (some (.created table)), created,
        system.selectors⟩ .allocateUserHeap ⟨system.kernel.reissue table, last, system.selectors⟩ := by
      simp only [Step, perform, standing, Option.map_some, failed, Kernel.failHeap_setStage running, given]
    refine .cons failing ((run_outside (fun _ _ _ standing => ?_) _ _ _ _ _).trans (.cons ?_ .nil))
    · rw [stopped] at standing
      cases standing
    · simp only [Step, perform, Kernel.leaveUserPagetable, stopped]
  · rename_i heap mapped
    split at returned
    · cases returned
    all_goals
      rename_i switched
      cases returned
      obtain ⟨last, built, rfl⟩ := switchPagetableAndExecute_ok switched
      obtain ⟨still, stages⟩ := buildThread_caller built
      have inside : { system.kernel.reissue table with cr3 := table }.runningThread = some thread := running
      refine .cons ?_ ((run_buildThread system.kernel.cr3 inside rfl image.entry built).trans (.cons ?_ .nil))
      · rw [Step, perform_allocateUserHeap standing mapped, Kernel.enterUserPagetable_setStage running]
        rfl
      · rw [Step, perform, Kernel.leaveUserPagetable_setStage (still.trans running), Kernel.setStage_idle]
        · rfl
        · exact (congrFun stages _).trans idle

end Runs

section Examples

/-- The kernel thread's first turn, before it calls `spawn_user_thread`. -/
private def spawner : System Unit := ⟨spawnerKernel, kernelInfo, kernelSegments⟩

/-- Four bytes that are not the magic ones. -/
theorem spawn_error_leaves_nothing_iff_plain : ∃ after,
    spawner.spawnUserThread offsetPageTable (fun _ => none) [0, 0, 0, 0] [] heapStart {} =
      .ok (.error "Invalid binary format", after) ∧
    spawner.Resumes after ∧
    ∀ frame, after.info.frameAllocator.frameUsage frame = spawner.info.frameAllocator.frameUsage frame := by
  have returned : spawner.spawnUserThread offsetPageTable (fun _ => none) [0, 0, 0, 0] [] heapStart {} =
      .ok (.error "Invalid binary format", spawner) := rfl
  obtain ⟨resumes, same⟩ := spawn_error_leaves_nothing_iff returned
  exact ⟨spawner, returned, resumes, same.mpr (.inl (by decide))⟩

/-- One segment, below the range of user code. -/
private def lowSegment : Segment := ⟨0x400000, 2, some [0x0F, 0x05]⟩

private theorem loadBinaryIntoMemory_low (info : MemoryInfo) (root : Nat) :
    info.loadBinaryIntoMemory offsetPageTable root [lowSegment] =
      .ok (.error "ELF segment outside allowed range", info) := by
  rw [loadBinaryIntoMemory, loadSegment_addressable (by decide), if_neg (by decide)]

/-- An image with a segment below the range of user code: the frame of the new level-4
table stays in use. -/
theorem failed_spawn_keeps_frames : ∃ (error : String) (after : System Unit),
    spawner.spawnUserThread offsetPageTable (fun _ => some ⟨0x400000, [lowSegment]⟩) magicBytes [] heapStart {} =
      .ok (.error error, after) ∧
    spawner.info.frameAllocator.frameUsage 91 = false ∧ after.info.frameAllocator.frameUsage 91 = true := by
  obtain ⟨created, info, returned, mapped, _⟩ := prepared_kernelInfo
  obtain ⟨free, used⟩ := createKernelOnlyPagetable_takes returned
  have valid : validateBinary magicBytes = .ok true := rfl
  have table : spawner.info.createKernelOnlyPagetable = .ok (91, created) := returned
  exact ⟨"Error creating user thread", { spawner with kernel := spawner.kernel.reissue 91, info },
    spawnUserThread_refused valid rfl table mapped (loadBinaryIntoMemory_low info 91), free,
    (draws_allocateUserHeap mapped).used used⟩

end Examples

end System

end Zephyr
