import Zephyr.Api.Program
import Zephyr.Proc.Ipc

/-! Threads that run user programs over the kernel: a program goes on when its thread runs,
and interrupts and the other threads come in between any two of its system calls. -/

namespace Zephyr

open Transition Rendezvous

/-- Where a thread stands in its program. -/
inductive Phase (ε α : Type) where
  | ready (program : Program ε α)
  | waiting (call : ApiCall) (next : Except UInt64 (Option Message) → Program ε α)

/-- The threads with a phase run programs. Of the others nothing is known. -/
structure Execution (σ ε α : Type) where
  ipc : IpcState σ
  phase : Nat → Option (Phase ε α) := fun _ => none
  /-- Ghost: the API calls that have returned. -/
  returned : List (Nat × ApiCall × Except UInt64 (Option Message)) := []
  /-- Ghost: the threads the programs have started. -/
  started : List (Nat × ε) := []

/-- The program of the running thread makes its next system call, or anything else happens. -/
inductive ProgramEvent (σ : Type) where
  | proceed (address : Nat) (registers : ISF) (memory : Kernel.ForkMemory)
  | other (action : Action σ)

variable {σ ε α : Type}

/-- What a thread goes through without its program making a call: interrupts, printing, and a
fault that ends it. -/
def Action.Passive : Action σ → Prop
  | .syscall _ syscallId _ _ _ _ => (syscallId &&& 0xFF).toNat ∉ [0, 3, 4, 5]
  | _ => True

/-- The `syscall` instruction of the calls that are no IPC. -/
def systemCall (number : UInt64) (address : Nat) (registers : ISF) (memory : Kernel.ForkMemory) : Action σ :=
  .syscall ⟨address, { registers with rax := number }⟩ number registers.rdi registers.rsi registers.rdx memory

section Spawn

variable (body : ε → Program ε α) (func : ε)

/-- `call r8` and the exit behind it. -/
def threadEntry : Program ε α := (body func).bind fun _ => .threadExit

/-- `thread_spawn` behind its `syscall` instruction, in the caller and in the new thread. -/
def threadSpawnReturn (next : Except UInt64 UInt64 → Program ε α) (frame : ISF) : Program ε α :=
  if frame.rax ≠ 0 then next (.error frame.rax)
  else if frame.rdi ≠ 0 then next (.ok frame.rdi)
  else threadEntry body func

end Spawn

namespace Execution

/-- A thread goes on with a program. -/
def setPhase (state : Execution σ ε α) (id : Nat) (phase : Phase ε α) : Execution σ ε α :=
  { state with phase := Function.update state.phase id (some phase) }

def returns (state : Execution σ ε α) (id : Nat) (call : ApiCall)
    (next : Except UInt64 (Option Message) → Program ε α) (result : Except UInt64 (Option Message)) : Execution σ ε α :=
  { state.setPhase id (.ready (next result)) with returned := state.returned ++ [(id, call, result)] }

/-- The running thread has its result if it was waiting for one. -/
def resume (state : Execution σ ε α) : Execution σ ε α :=
  match state.ipc.kernel.runningThread with
  | some current =>
    match state.phase current.threadId with
    | some (.waiting call next) => state.returns current.threadId call next (call.result current.frame)
    | _ => state
  | none => state

theorem resume_cases (state : Execution σ ε α) : state.resume = state ∨ ∃ current call next,
    state.ipc.kernel.runningThread = some current ∧ state.phase current.threadId = some (.waiting call next) ∧
      state.resume = state.returns current.threadId call next (call.result current.frame) := by
  unfold resume
  split
  · rename_i current running
    split
    · rename_i call next waits
      exact .inr ⟨current, call, next, running, waits, rfl⟩
    · exact .inl rfl
  · exact .inl rfl

variable [DecidableEq σ] [Fintype σ]

def act (state : Execution σ ε α) (event : IpcEvent σ) : Execution σ ε α :=
  { state with ipc := state.ipc.after event }

/-- `thread_spawn` of the running thread. The new thread finds zeros in its registers. -/
def spawn (body : ε → Program ε α) (state : Execution σ ε α) (current : Thread) (func : ε)
    (next : Except UInt64 UInt64 → Program ε α) (address : Nat) (registers : ISF) (memory : Kernel.ForkMemory) :
    Execution σ ε α :=
  let kernel := state.ipc.kernel
  let frame := (kernel.forkCurrentThread ⟨address, Kernel.withSegments { registers with rax := 0 }⟩ memory.stack).2
  let caller := (state.act (.other (systemCall 0 address registers memory))).setPhase current.threadId
    (.ready (threadSpawnReturn body func next frame))
  match memory.stack with
  | some _ =>
    { caller.setPhase (kernel.counter + 2) (.ready (threadEntry body func)) with
      started := state.started ++ [(kernel.counter + 2, func)] }
  | none => caller

def proceed (body : ε → Program ε α) (state : Execution σ ε α) (current : Thread) (address : Nat) (registers : ISF)
    (memory : Kernel.ForkMemory) : Program ε α → Execution σ ε α
  | .done _ => state
  | .call call next => (state.act (.api address registers call)).setPhase current.threadId (.waiting call next)
  | .threadSpawn func next => state.spawn body current func next address registers memory
  | .threadYield next =>
    (state.act (.other (systemCall 9 address registers memory))).setPhase current.threadId (.ready next)
  | .threadExit => state.act (.other (systemCall 1 address registers memory))
  | .panicked => state.act (.other (systemCall 1 address registers memory))

omit [DecidableEq σ] [Fintype σ] in
def running (state : Execution σ ε α) : Option (Thread × Program ε α) :=
  state.ipc.kernel.runningThread.bind fun current =>
    match state.phase current.threadId with
    | some (.ready program) => some (current, program)
    | _ => none

def after (body : ε → Program ε α) (state : Execution σ ε α) : ProgramEvent σ → Execution σ ε α
  | .proceed address registers memory =>
    match state.running with
    | some (current, program) => (state.proceed body current address registers memory program).resume
    | none => state
  | .other action => (state.act (.other action)).resume

omit [DecidableEq σ] [Fintype σ] in
/-- Programs make no calls but their own, their `thread_spawn`s succeed, and nobody else reaches
the sockets in `shared`. -/
def Permitted (shared : σ → Prop) (state : Execution σ ε α) : ProgramEvent σ → Prop
  | .proceed _ _ memory => ∀ current func next, state.running = some (current, .threadSpawn func next) →
      memory.stack ≠ none ∧ state.ipc.kernel.counter + 2 < 2 ^ 64
  | .other action => (∀ current, state.ipc.kernel.runningThread = some current →
      state.phase current.threadId ≠ none → action.Passive) ∧
    ∀ name call, state.ipc.kernel.socketCall action = some (some name, call) → ¬ shared name

omit [DecidableEq σ] [Fintype σ] in
/-- What a thread without a program does is its own affair. -/
theorem permitted_of_free {shared : σ → Prop} {state : Execution σ ε α} {action : Action σ}
    (free : (state.ipc.kernel.runningThread.bind fun current => state.phase current.threadId) = none)
    (elsewhere : ∀ name call, state.ipc.kernel.socketCall action = some (some name, call) → ¬ shared name) :
    state.Permitted shared (.other action) := by
  refine ⟨fun current running own => ?_, elsewhere⟩
  rw [running] at free
  exact absurd free own

def Step (body : ε → Program ε α) (shared : σ → Prop) (before : Execution σ ε α) (event : ProgramEvent σ)
    (after : Execution σ ε α) : Prop :=
  before.Permitted shared event ∧ after = before.after body event

omit [DecidableEq σ] [Fintype σ] in
theorem running_eq_some {state : Execution σ ε α} {current : Thread} {program : Program ε α}
    (running : state.running = some (current, program)) :
    state.ipc.kernel.runningThread = some current ∧ state.phase current.threadId = some (.ready program) := by
  obtain ⟨thread, runs, found⟩ := Option.bind_eq_some_iff.mp running
  split at found
  · rename_i own
    cases found
    exact ⟨runs, own⟩
  · cases found

/-! ### What holds between two events -/

section Sound

variable {state : Execution σ ε α} {event : IpcEvent σ} {id : Nat} {current : Thread}

omit [DecidableEq σ] in
/-- The phases fit the kernel: a thread that is waiting has its call at a channel, one that is
ready waits nowhere. -/
structure Sound (state : Execution σ ε α) : Prop where
  refines : state.ipc.Refines
  created : ∀ id phase, state.phase id = some phase → id ∈ state.ipc.kernel.created
  asked : ∀ id call next, state.phase id = some (.waiting call next) → ∃ place,
    state.ipc.pending id = some (call, place)
  away : ∀ id program, state.phase id = some (.ready program) → state.ipc.channels.Away id

omit [DecidableEq σ] [Fintype σ] in
/-- The running thread has its result. -/
def Settled (state : Execution σ ε α) : Prop :=
  ∀ current call next, state.ipc.kernel.runningThread = some current →
    state.phase current.threadId ≠ some (.waiting call next)

omit [DecidableEq σ] [Fintype σ] in
/-- The event is no socket call of a program's thread. -/
def Apart (state : Execution σ ε α) (event : IpcEvent σ) (id : Nat) : Prop :=
  ∀ place call, state.ipc.kernel.socketCall event.action = some (place, call) → call.visit.visitor ≠ some id

/-- A thread that waits nowhere still does after an event that is none of its calls. -/
theorem away_act (away : state.ipc.channels.Away id) (apart : state.Apart event id) :
    (state.act event).ipc.channels.Away id := by
  change (state.ipc.after event).channels.Away id
  cases made : state.ipc.kernel.socketCall event.action with
  | none => rwa [IpcState.channels_of_silent made]
  | some label =>
    rw [IpcState.channels_of_call made]
    exact away.after (apart _ _ made)

theorem created_act (sound : state.Sound) {phase : Phase ε α} (found : state.phase id = some phase) :
    id ∈ (state.act event).ipc.kernel.created :=
  (Kernel.perform_outcome sound.refines.conserved event.action).grows.2.1 _ (sound.created id phase found)

theorem asked_act (sound : state.Sound) (settled : state.Settled) {call : ApiCall}
    {next : Except UInt64 (Option Message) → Program ε α} (found : state.phase id = some (.waiting call next)) :
    ∃ place, (state.act event).ipc.pending id = some (call, place) := by
  obtain ⟨place, pending⟩ := sound.asked id call next found
  refine ⟨place, (IpcState.pending_of_ne fun current running same => ?_).trans pending⟩
  subst same
  exact settled current call next running found

theorem Sound.act (sound : state.Sound) (settled : state.Settled)
    (apart : ∀ id program, state.phase id = some (.ready program) → state.Apart event id) : (state.act event).Sound :=
  ⟨sound.refines.after event, fun _ _ found => created_act sound found, fun _ _ _ found => asked_act sound settled found,
    fun id program found => away_act (sound.away id program found) (apart id program found)⟩

omit [DecidableEq σ] [Fintype σ] in
theorem setPhase_cases {phase found : Phase ε α} {other : Nat}
    (given : (state.setPhase id phase).phase other = some found) :
    (other = id ∧ found = phase) ∨ other ≠ id ∧ state.phase other = some found := by
  by_cases same : other = id
  · subst same
    have self : (state.setPhase other phase).phase other = some phase := Function.update_self ..
    exact .inl ⟨rfl, Option.some.inj (given.symm.trans self)⟩
  · have kept : (state.setPhase id phase).phase other = state.phase other := Function.update_of_ne same ..
    exact .inr ⟨same, kept.symm.trans given⟩

omit [DecidableEq σ] in
theorem Sound.setPhase (sound : state.Sound) (created : id ∈ state.ipc.kernel.created) {phase : Phase ε α}
    (asked : ∀ call next, phase = .waiting call next → ∃ place, state.ipc.pending id = some (call, place))
    (away : ∀ program, phase = .ready program → state.ipc.channels.Away id) : (state.setPhase id phase).Sound := by
  refine ⟨sound.refines, fun other found given => ?_, fun other call next given => ?_, fun other program given => ?_⟩
  · rcases setPhase_cases given with ⟨rfl, _⟩ | ⟨_, kept⟩
    · exact created
    · exact sound.created other found kept
  · rcases setPhase_cases given with ⟨rfl, same⟩ | ⟨_, kept⟩
    · exact asked call next same.symm
    · exact sound.asked other call next kept
  · rcases setPhase_cases given with ⟨rfl, same⟩ | ⟨_, kept⟩
    · exact away program same.symm
    · exact sound.away other program kept

omit [DecidableEq σ] in
theorem Sound.setReady (sound : state.Sound) (created : id ∈ state.ipc.kernel.created)
    (away : state.ipc.channels.Away id) (program : Program ε α) : (state.setPhase id (.ready program)).Sound :=
  sound.setPhase created nofun fun _ _ => away

/-! ### One event -/

omit [DecidableEq σ] in
/-- The running thread gets its result. -/
theorem Sound.resume (sound : state.Sound) : state.resume.Sound ∧ state.resume.Settled := by
  unfold Execution.resume
  cases running : state.ipc.kernel.runningThread with
  | none => exact ⟨sound, fun current _ _ found => nomatch running.symm.trans found⟩
  | some current =>
    have calm (other : ∀ call next, state.phase current.threadId ≠ some (.waiting call next)) : state.Settled := by
      intro thread call next found
      cases running.symm.trans found
      exact other call next
    dsimp only
    cases found : state.phase current.threadId with
    | none => exact ⟨sound, calm fun _ _ waiting => nomatch found.symm.trans waiting⟩
    | some phase =>
      cases phase with
      | ready program => exact ⟨sound, calm fun _ _ waiting => nomatch found.symm.trans waiting⟩
      | waiting call next =>
        have ready := sound.setReady (sound.created _ _ found) (sound.refines.away running)
          (next (call.result current.frame))
        refine ⟨⟨ready.refines, ready.created, ready.asked, ready.away⟩, ?_⟩
        intro thread again rest same waiting
        cases running.symm.trans same
        rcases setPhase_cases waiting with ⟨_, same⟩ | ⟨other, _⟩
        · cases same
        · exact other rfl

theorem Sound.call (sound : state.Sound) (settled : state.Settled)
    (running : state.ipc.kernel.runningThread = some current) {program : Program ε α}
    (own : state.phase current.threadId = some (.ready program)) (address : Nat) (registers : ISF) (call : ApiCall)
    (next : Except UInt64 (Option Message) → Program ε α) :
    ((state.act (.api address registers call)).setPhase current.threadId (.waiting call next)).Sound := by
  refine ⟨sound.refines.after _, fun id phase found => ?_, fun id asked rest found => ?_, fun id ready found => ?_⟩
  · rcases setPhase_cases found with ⟨rfl, _⟩ | ⟨_, kept⟩
    · exact created_act sound own
    · exact created_act sound kept
  · rcases setPhase_cases found with ⟨rfl, same⟩ | ⟨_, kept⟩
    · cases same
      exact ⟨_, IpcState.pending_running running⟩
    · exact asked_act sound settled kept
  · rcases setPhase_cases found with ⟨_, same⟩ | ⟨other, kept⟩
    · cases same
    · refine away_act (sound.away id ready kept) fun place made found => ?_
      exact IpcState.visitor_ne (fun thread runs same => other (by cases running.symm.trans runs; exact same)) found

omit [DecidableEq σ] in
theorem Sound.away_fresh (sound : state.Sound) (fresh : state.ipc.kernel.counter < id) : state.ipc.channels.Away id := by
  intro name waits
  obtain ⟨parked, inside, rfl⟩ := sound.refines.parked waits
  have live := sound.refines.conserved.live_of_held (.inr (.inr ⟨name, inside⟩))
  exact absurd fresh (Nat.not_lt.mpr (sound.refines.conserved.bounded _ live.1))

omit [DecidableEq σ] [Fintype σ] in
theorem socketCall_passive {kernel : Kernel σ} {action : Action σ} (passive : action.Passive) {place : Option σ} {call : Call}
    (made : kernel.socketCall action = some (place, call)) : call.caller = none := by
  unfold Kernel.socketCall at made
  split at made
  · rename_i context syscallId arg1 arg2 arg3 memory
    have other : (syscallId &&& 0xFF).toNat ∉ [0, 3, 4, 5] := passive
    obtain ⟨current, running, found⟩ := Option.bind_eq_some_iff.mp made
    dsimp only at found
    split at found
    · rename_i number
      simp [number] at other
    · rename_i number
      simp [number] at other
    · rename_i number
      simp [number] at other
    · cases found
  · cases made
    rfl
  · cases made

omit [DecidableEq σ] [Fintype σ] in
/-- Whoever has a phase makes no call in an event that is permitted. -/
theorem apart_of_permitted {shared : σ → Prop} {action : Action σ} (permitted : state.Permitted shared (.other action))
    {phase : Phase ε α} (found : state.phase id = some phase) : state.Apart (.other action) id := by
  intro place call made own
  rw [Call.visitor_visit] at own
  obtain ⟨caller, calls, rfl⟩ := Option.map_eq_some_iff.mp own
  obtain ⟨current, running, same⟩ := caller_socketCall made calls
  have passive := permitted.1 current running (by rw [← same, found]; exact Option.some_ne_none _)
  rw [socketCall_passive passive made] at calls
  cases calls

section SystemCalls

variable (address : Nat) (registers : ISF) (memory : Kernel.ForkMemory)

omit [DecidableEq σ] [Fintype σ] in
theorem socketCall_systemCall (kernel : Kernel σ) {number : UInt64} (other : number ∈ [0, 1, 9]) :
    kernel.socketCall (systemCall number address registers memory) = none := by
  unfold systemCall Kernel.socketCall
  cases kernel.runningThread with
  | none => rfl
  | some current =>
    simp only [List.mem_cons, List.not_mem_nil, or_false] at other
    rcases other with rfl | rfl | rfl <;> rfl

theorem Sound.silent (sound : state.Sound) (settled : state.Settled) {number : UInt64} (other : number ∈ [0, 1, 9]) :
    (state.act (.other (systemCall number address registers memory))).Sound := by
  refine sound.act settled fun _ _ _ place call made => ?_
  exact nomatch (socketCall_systemCall address registers memory state.ipc.kernel other).symm.trans made

theorem away_systemCall (sound : state.Sound) (running : state.ipc.kernel.runningThread = some current) {number : UInt64}
    (other : number ∈ [0, 1, 9]) :
    (state.act (.other (systemCall number address registers memory))).ipc.channels.Away current.threadId := by
  refine away_act (sound.refines.away running) fun place call made => ?_
  exact nomatch (socketCall_systemCall address registers memory state.ipc.kernel other).symm.trans made

theorem perform_threadSpawn (kernel : Kernel σ) : kernel.perform (systemCall 0 address registers memory) =
    (kernel.forkCurrentThread ⟨address, Kernel.withSegments { registers with rax := 0 }⟩ memory.stack).1 := rfl

theorem created_threadSpawn {kernel : Kernel σ} (running : kernel.runningThread = some current) {stack : Nat × Nat}
    (found : memory.stack = some stack) :
    kernel.counter + 2 ∈ (kernel.perform (systemCall 0 address registers memory)).created := by
  rw [perform_threadSpawn]
  simp only [Kernel.forkCurrentThread, running, found, Kernel.uniqueId]
  exact List.mem_append_right _ (List.mem_singleton_self _)

omit [DecidableEq σ] [Fintype σ] in
/-- The caller of a `thread_spawn` that succeeds goes on with the new thread's id. -/
theorem threadSpawnReturn_ok {kernel : Kernel σ} (running : kernel.runningThread = some current) {stack : Nat × Nat}
    (found : memory.stack = some stack) (small : kernel.counter + 2 < 2 ^ 64) (body : ε → Program ε α) (func : ε)
    (next : Except UInt64 UInt64 → Program ε α) (context : Context) :
    threadSpawnReturn body func next (kernel.forkCurrentThread context memory.stack).2 =
      next (.ok (UInt64.ofNat (kernel.counter + 2))) := by
  have nonzero : UInt64.ofNat (kernel.counter + 2) ≠ 0 := by
    intro zero
    have same := congrArg UInt64.toNat zero
    rw [UInt64.toNat_ofNat_of_lt' small] at same
    cases same
  simp only [Kernel.forkCurrentThread, running, found, Kernel.uniqueId, threadSpawnReturn]
  rw [if_neg (not_not.mpr rfl), if_pos nonzero]

theorem spawn_ok {memory : Kernel.ForkMemory} (running : state.ipc.kernel.runningThread = some current)
    (succeeds : memory.stack ≠ none ∧ state.ipc.kernel.counter + 2 < 2 ^ 64) (body : ε → Program ε α) (func : ε)
    (next : Except UInt64 UInt64 → Program ε α) :
    state.spawn body current func next address registers memory =
      { ((state.act (.other (systemCall 0 address registers memory))).setPhase current.threadId
          (.ready (next (.ok (UInt64.ofNat (state.ipc.kernel.counter + 2)))))).setPhase
            (state.ipc.kernel.counter + 2) (.ready (threadEntry body func)) with
        started := state.started ++ [(state.ipc.kernel.counter + 2, func)] } := by
  obtain ⟨stack, allocated⟩ := Option.ne_none_iff_exists'.mp succeeds.1
  unfold Execution.spawn
  dsimp only
  rw [threadSpawnReturn_ok memory running allocated succeeds.2]
  simp only [allocated]

variable (body : ε → Program ε α)

theorem Sound.spawn (sound : state.Sound) (settled : state.Settled)
    (running : state.ipc.kernel.runningThread = some current) {program : Program ε α}
    (own : state.phase current.threadId = some (.ready program)) (func : ε)
    (next : Except UInt64 UInt64 → Program ε α) :
    (state.spawn body current func next address registers memory).Sound := by
  have called := sound.silent address registers memory settled (List.mem_cons_self (a := 0))
  have caller := called.setReady (created_act sound own) (away_systemCall address registers memory sound running
    (List.mem_cons_self (a := 0)))
  have fresh : (state.act (.other (systemCall 0 address registers memory))).ipc.channels.Away
      (state.ipc.kernel.counter + 2) := by
    refine away_act (sound.away_fresh (Nat.lt_add_of_pos_right (by decide))) fun place call made => ?_
    exact nomatch (socketCall_systemCall address registers memory state.ipc.kernel List.mem_cons_self).symm.trans made
  unfold Execution.spawn
  dsimp only
  generalize (state.ipc.kernel.forkCurrentThread _ _).2 = frame
  split
  · rename_i stack found
    have child := (caller (threadSpawnReturn body func next frame)).setReady
      (created_threadSpawn address registers memory running found) fresh (threadEntry body func)
    exact ⟨child.refines, child.created, child.asked, child.away⟩
  · exact caller _

theorem Sound.proceed (sound : state.Sound) (settled : state.Settled) {program : Program ε α}
    (running : state.running = some (current, program)) :
    (state.proceed body current address registers memory program).Sound := by
  obtain ⟨runs, own⟩ := running_eq_some running
  cases program with
  | done value => exact sound
  | call call next => exact sound.call settled runs own address registers call next
  | threadSpawn func next => exact sound.spawn address registers memory body settled runs own func next
  | threadYield next =>
    exact (sound.silent address registers memory settled (by simp)).setReady (created_act sound own)
      (away_systemCall address registers memory sound runs (by simp)) next
  | threadExit => exact sound.silent address registers memory settled (by simp)
  | panicked => exact sound.silent address registers memory settled (by simp)

end SystemCalls

theorem Step.sound {body : ε → Program ε α} {shared : σ → Prop} {before after : Execution σ ε α} {event : ProgramEvent σ}
    (step : Step body shared before event after) (fit : before.Sound ∧ before.Settled) : after.Sound ∧ after.Settled := by
  obtain ⟨permitted, rfl⟩ := step
  obtain ⟨sound, settled⟩ := fit
  cases event with
  | other action =>
    exact (sound.act settled fun id program found => apart_of_permitted permitted found).resume
  | proceed address registers memory =>
    unfold Execution.after
    cases running : before.running with
    | none => exact ⟨sound, settled⟩
    | some pair => exact (sound.proceed address registers memory body settled running).resume

omit [DecidableEq σ] in
theorem Sound.result (sound : state.Sound) (running : state.ipc.kernel.runningThread = some current) {call : ApiCall}
    {next : Except UInt64 (Option Message) → Program ε α}
    (waiting : state.phase current.threadId = some (.waiting call next)) : ∃ place since answer,
      state.ipc.channels.ticket current.threadId = some ⟨place, call.visit current.threadId, since, some answer⟩ ∧
      Progress current.threadId place (call.visit current.threadId) (some answer)
        (sentSince state.ipc.channels.transfers current.threadId since)
        (gotSince state.ipc.channels.transfers current.threadId since) ∧
      call.result current.frame = answer.result := by
  obtain ⟨place, pending⟩ := sound.asked _ call next waiting
  obtain ⟨since, answer, found, told⟩ := sound.refines.reads.running current running call place pending
  have progress := (sound.refines.coherent.progress _ _ found).2
  exact ⟨place, since, answer, found, progress, result_eq progress told⟩

end Sound

section Launch

variable {ipc : IpcState σ} {current : Thread} (program : Program ε α)

omit [DecidableEq σ] [Fintype σ] in
def launch (ipc : IpcState σ) (id : Nat) (program : Program ε α) : Execution σ ε α :=
  ({ ipc } : Execution σ ε α).setPhase id (.ready program)

omit [DecidableEq σ] in
theorem sound_launch (refines : ipc.Refines) (running : ipc.kernel.runningThread = some current) :
    (launch ipc current.threadId program).Sound ∧ (launch ipc current.threadId program).Settled := by
  have idle : ({ ipc } : Execution σ ε α).Sound := ⟨refines, nofun, nofun, nofun⟩
  refine ⟨idle.setReady (refines.conserved.live_of_held (.inl running)).1 (refines.away running) program, ?_⟩
  intro thread call next _ found
  rcases setPhase_cases found with ⟨_, same⟩ | ⟨_, none⟩
  · cases same
  · cases none

end Launch

end Execution

end Zephyr
