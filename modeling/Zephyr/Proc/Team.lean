import Zephyr.Proc.Execution

/-! Programs whose threads share a process, with sockets nobody else uses: what their handles
name, and what events somewhere else leave as it is at such a socket. -/

namespace Zephyr

open Transition Rendezvous

variable {σ ε α : Type} [Fintype σ]

namespace Execution

/-- The threads with a program are those of one process, and `table` is what its handles name. -/
structure Team (home : Nat) (table : Nat → Option σ) (state : Execution σ ε α) : Prop where
  handles : ∃ process, state.ipc.kernel.processes[home]? = some process ∧
    ∀ handle, process.sockets[handle]?.getD none = table handle
  members : state.ipc.kernel.Every fun thread => state.phase thread.threadId ≠ none → thread.process = home

section Team

variable {home : Nat} {table : Nat → Option σ} {state : Execution σ ε α} {current : Thread} {event : IpcEvent σ} {id : Nat}

omit [Fintype σ] in
theorem Team.getSockets (team : state.Team home table) (running : state.ipc.kernel.runningThread = some current)
    (own : state.phase current.threadId ≠ none) (handle : Nat) :
    state.ipc.kernel.getSockets current handle = table handle := by
  obtain ⟨process, found, named⟩ := team.handles
  rw [Kernel.getSockets, team.members.running current running own, found]
  exact named handle

omit [Fintype σ] in
theorem Team.of_phase (team : state.Team home table) {later : Execution σ ε α} (same : later.ipc = state.ipc)
    (known : ∀ id, later.phase id ≠ none → state.phase id ≠ none) : later.Team home table := by
  obtain ⟨handles, members⟩ := team
  refine ⟨same ▸ handles, same ▸ Kernel.every_iff.mpr fun thread held own => ?_⟩
  exact Kernel.every_iff.mp members thread held (known _ own)

omit [Fintype σ] in
theorem Team.setPhase (team : state.Team home table) (already : state.phase id ≠ none) (phase : Phase ε α) :
    (state.setPhase id phase).Team home table := by
  refine team.of_phase rfl fun other given => ?_
  obtain ⟨found, some⟩ := Option.ne_none_iff_exists'.mp given
  rcases setPhase_cases some with ⟨rfl, _⟩ | ⟨_, kept⟩
  · exact already
  · rw [kept]
    exact Option.some_ne_none _

omit [Fintype σ] in
theorem Team.resume (team : state.Team home table) : state.resume.Team home table := by
  rcases state.resume_cases with same | ⟨current, call, next, _, waits, same⟩
  · rwa [same]
  · rw [same]
    have ready := team.setPhase (waits ▸ Option.some_ne_none _) (.ready (next (call.result current.frame)))
    exact ready.of_phase rfl fun _ given => given

variable [DecidableEq σ]

theorem every_home {kernel : Kernel σ} (action : Action σ) (member : Nat → Prop)
    (before : kernel.Every fun thread => member thread.threadId → thread.process = home)
    (born : ∀ thread, Kernel.Newborn kernel action thread → member thread.threadId → thread.process = home) :
    (kernel.perform action).Every fun thread => member thread.threadId → thread.process = home := by
  refine before.perform ⟨fun _ known => known, fun message known => ?_⟩ action (fun current context running _ => ?_)
    (fun context _ thread stamped => ?_) born
  · cases message
    exact known
  · exact before.running current running
  · obtain ⟨current, running, rfl⟩ := Option.map_eq_some_iff.mp stamped
    exact before.running current running

omit [DecidableEq σ] in
theorem Sound.known (sound : state.Sound) (own : state.phase id ≠ none) : id ≤ state.ipc.kernel.counter := by
  obtain ⟨phase, found⟩ := Option.ne_none_iff_exists'.mp own
  exact sound.refines.conserved.bounded _ (sound.created _ _ found)

theorem Team.handles_act (team : state.Team home table) (sound : state.Sound) (event : IpcEvent σ) :
    ∃ process, (state.act event).ipc.kernel.processes[home]? = some process ∧
      ∀ handle, process.sockets[handle]?.getD none = table handle := by
  obtain ⟨process, found, named⟩ := team.handles
  exact ⟨process, (Kernel.perform_outcome sound.refines.conserved event.action).grows.1 _ _ found, named⟩

theorem Team.act (team : state.Team home table) (sound : state.Sound) (event : IpcEvent σ) :
    (state.act event).Team home table := by
  refine ⟨team.handles_act sound event,
    every_home event.action (fun id => state.phase id ≠ none) team.members fun thread born own => ?_⟩
  exact absurd born.fresh (Nat.not_lt.mpr (sound.known own))

/-- A new thread belongs to the process of the caller. -/
theorem Team.spawn (team : state.Team home table) (sound : state.Sound)
    (running : state.ipc.kernel.runningThread = some current) (own : state.phase current.threadId ≠ none)
    (body : ε → Program ε α) (func : ε) (next : Except UInt64 UInt64 → Program ε α) (address : Nat) (registers : ISF)
    (memory : Kernel.ForkMemory) : (state.spawn body current func next address registers memory).Team home table := by
  have called := (team.act sound (.other (systemCall 0 address registers memory))).setPhase own
  have wider : (state.ipc.kernel.perform (systemCall 0 address registers memory)).Every fun thread =>
      (state.phase thread.threadId ≠ none ∨ thread.threadId = state.ipc.kernel.counter + 2) → thread.process = home := by
    refine every_home _ (fun id => state.phase id ≠ none ∨ id = state.ipc.kernel.counter + 2)
      (Kernel.every_iff.mpr fun thread held given => ?_) fun thread born _ => ?_
    · rcases given with known | fresh
      · exact Kernel.every_iff.mp team.members thread held known
      · have bounded := sound.refines.conserved.bounded _ (sound.refines.conserved.live_of_held held).1
        omega
    · unfold systemCall at born
      cases born with
      | fork _ _ _ _ _ _ _ parent _ runs =>
        exact team.members.running parent runs (Option.some.inj (running.symm.trans runs) ▸ own)
  unfold Execution.spawn
  dsimp only
  split
  · refine ⟨team.handles_act sound _, Kernel.every_iff.mpr fun thread held given => ?_⟩
    refine Kernel.every_iff.mp wider thread held ?_
    obtain ⟨phase, found⟩ := Option.ne_none_iff_exists'.mp given
    rcases setPhase_cases found with ⟨child, _⟩ | ⟨_, kept⟩
    · exact .inr child
    rcases setPhase_cases kept with ⟨caller, _⟩ | ⟨_, old⟩
    · exact .inl (caller ▸ own)
    · exact .inl (old ▸ Option.some_ne_none _)
  · exact called _

theorem Team.proceed (team : state.Team home table) (sound : state.Sound) {program : Program ε α}
    (running : state.running = some (current, program)) (body : ε → Program ε α) (address : Nat) (registers : ISF)
    (memory : Kernel.ForkMemory) : (state.proceed body current address registers memory program).Team home table := by
  obtain ⟨runs, found⟩ := running_eq_some running
  have own : state.phase current.threadId ≠ none := found ▸ Option.some_ne_none _
  cases program with
  | done value => exact team
  | call call next => exact (team.act sound _).setPhase own _
  | threadSpawn func next => exact team.spawn sound runs own body func next address registers memory
  | threadYield next => exact (team.act sound _).setPhase own _
  | threadExit => exact team.act sound _
  | panicked => exact team.act sound _

theorem Team.step {body : ε → Program ε α} {shared : σ → Prop} {after : Execution σ ε α} {event : ProgramEvent σ}
    (team : state.Team home table) (step : Step body shared state event after) (sound : state.Sound) :
    after.Team home table := by
  obtain ⟨_, rfl⟩ := step
  cases event with
  | other action => exact (team.act sound _).resume
  | proceed address registers memory =>
    unfold Execution.after
    cases running : state.running with
    | none => exact team
    | some pair => exact (team.proceed sound running body address registers memory).resume

end Team

section Elsewhere

variable {state : Execution σ ε α} {event : IpcEvent σ} {name : σ} {id : Nat} {current : Thread}

omit [Fintype σ] in
/-- The event is no call at the socket. -/
def Elsewhere (name : σ) (state : Execution σ ε α) (event : IpcEvent σ) : Prop :=
  ∀ place call, state.ipc.kernel.socketCall event.action = some (place, call) → place ≠ some name

omit [Fintype σ] in
theorem elsewhere_of_permitted {shared : σ → Prop} {action : Action σ} (permitted : state.Permitted shared (.other action))
    (known : shared name) : state.Elsewhere name (.other action) := by
  rintro place call made rfl
  exact permitted.2 name call made known

omit [Fintype σ] in
theorem elsewhere_of_silent (silent : state.ipc.kernel.socketCall event.action = none) : state.Elsewhere name event :=
  fun _ _ made => nomatch silent.symm.trans made

omit [Fintype σ] in
theorem apart_of_silent (silent : state.ipc.kernel.socketCall event.action = none) : state.Apart event id :=
  fun _ _ made => nomatch silent.symm.trans made

omit [Fintype σ] in
theorem elsewhere_api (running : state.ipc.kernel.runningThread = some current) {call : ApiCall}
    (other : state.ipc.kernel.getSockets current call.handle ≠ some name) (address : Nat) (registers : ISF) :
    state.Elsewhere name (.api address registers call) := by
  intro place made found
  obtain ⟨same, reached, _⟩ := socketCall_api state.ipc.kernel running address registers call
  cases reached.symm.trans found
  exact other

omit [Fintype σ] in
theorem apart_of_ne (running : state.ipc.kernel.runningThread = some current) (other : id ≠ current.threadId) :
    state.Apart event id := by
  intro place call made
  refine IpcState.visitor_ne (fun thread runs => ?_) made
  cases running.symm.trans runs
  exact other

variable [DecidableEq σ]

theorem channel_act (elsewhere : state.Elsewhere name event) :
    (state.act event).ipc.channels.channel name = state.ipc.channels.channel name := by
  change (state.ipc.after event).channels.channel name = _
  cases made : state.ipc.kernel.socketCall event.action with
  | none => rw [IpcState.channels_of_silent made]
  | some label =>
    rw [IpcState.channels_of_call made]
    exact State.channel_elsewhere (elsewhere _ _ made)

theorem ticket_act (sound : state.Sound) (elsewhere : state.Elsewhere name event) (apart : state.Apart event id)
    {ticket : Ticket σ Message} (found : state.ipc.channels.ticket id = some ticket) (place : ticket.place = some name) :
    (state.act event).ipc.channels.ticket id = some ticket := by
  change (state.ipc.after event).channels.ticket id = _
  cases made : state.ipc.kernel.socketCall event.action with
  | none => rw [IpcState.channels_of_silent made, found]
  | some label =>
    rw [IpcState.channels_of_call made]
    exact sound.refines.coherent.ticket_elsewhere (apart _ _ made) found (place ▸ elsewhere _ _ made)

theorem channels_call (running : state.ipc.kernel.runningThread = some current) {call : ApiCall}
    (here : state.ipc.kernel.getSockets current call.handle = some name) (address : Nat) (registers : ISF) :
    (state.act (.api address registers call)).ipc.channels =
      state.ipc.channels.after (some name, call.visit current.threadId) := by
  obtain ⟨made, found, visit, _⟩ := socketCall_api state.ipc.kernel running address registers call
  rw [here] at found
  exact (IpcState.channels_of_call found).trans (by rw [visit])

end Elsewhere

/-! ### Away from the socket, and at it -/

omit [Fintype σ] in
/-- Nothing happens at the socket, and nobody's phase changes but that of the acting thread. -/
structure Still (name : σ) (acting : Option Nat) (before after : Execution σ ε α) : Prop where
  channel : after.ipc.channels.channel name = before.ipc.channels.channel name
  ticket : ∀ id ticket, some id ≠ acting → before.phase id ≠ none → before.ipc.channels.ticket id = some ticket →
    ticket.place = some name → after.ipc.channels.ticket id = some ticket
  phase : ∀ id, some id ≠ acting → after.phase id = before.phase id

omit [Fintype σ] in
/-- A thread makes a call at the socket. -/
structure Calls [DecidableEq σ] (name : σ) (id : Nat) (call : ApiCall)
    (next : Except UInt64 (Option Message) → Program ε α) (before after : Execution σ ε α) : Prop where
  channels : after.ipc.channels = before.ipc.channels.after (some name, call.visit id)
  phase : after.phase = Function.update before.phase id (some (.waiting call next))

section Still

variable {name : σ} {acting : Option Nat} {state later : Execution σ ε α} {event : IpcEvent σ} {current : Thread} {id : Nat}

omit [Fintype σ] in
theorem Still.setPhase (still : Still name (some id) state later) (phase : Phase ε α) :
    Still name (some id) state (later.setPhase id phase) := by
  refine ⟨still.channel, still.ticket, fun other apart => ?_⟩
  exact (Function.update_of_ne (fun same => apart (congrArg some same)) _ _).trans (still.phase other apart)

omit [Fintype σ] in
theorem still_returns {name : σ} (id : Nat) (call : ApiCall) (next : Except UInt64 (Option Message) → Program ε α)
    (result : Except UInt64 (Option Message)) : Still name (some id) state (state.returns id call next result) :=
  ⟨rfl, fun _ _ _ _ found _ => found, fun _ other => Function.update_of_ne (fun same => other (congrArg some same)) _ _⟩

variable [DecidableEq σ]

theorem still_act (sound : state.Sound) (elsewhere : state.Elsewhere name event)
    (apart : ∀ id, some id ≠ acting → state.phase id ≠ none → state.Apart event id) :
    Still name acting state (state.act event) :=
  ⟨channel_act elsewhere, fun id _ other own found place => ticket_act sound elsewhere (apart id other own) found place,
    fun _ _ => rfl⟩

theorem still_call (sound : state.Sound) (running : state.ipc.kernel.runningThread = some current) {call : ApiCall}
    (other : state.ipc.kernel.getSockets current call.handle ≠ some name) (address : Nat) (registers : ISF)
    (phase : Phase ε α) : Still name (some current.threadId) state
      ((state.act (.api address registers call)).setPhase current.threadId phase) := by
  refine Still.setPhase (still_act sound (elsewhere_api running other address registers) ?_) phase
  exact fun id differs _ => apart_of_ne running fun same => differs (congrArg some same)

theorem still_systemCall (name : σ) (sound : state.Sound) (acting : Option Nat) {number : UInt64} (silent : number ∈ [0, 1, 9])
    (address : Nat) (registers : ISF) (memory : Kernel.ForkMemory) :
    Still name acting state (state.act (.other (systemCall number address registers memory))) := by
  have nothing : state.ipc.kernel.socketCall (IpcEvent.other (systemCall number address registers memory)).action = none :=
    socketCall_systemCall address registers memory state.ipc.kernel silent
  exact still_act sound (elsewhere_of_silent nothing) fun _ _ _ => apart_of_silent nothing

end Still

section Calls

variable [DecidableEq σ] {name : σ} {state later : Execution σ ε α} {current : Thread} {id party : Nat} {call : ApiCall}
variable {next : Except UInt64 (Option Message) → Program ε α}

theorem calls_act (running : state.ipc.kernel.runningThread = some current)
    (here : state.ipc.kernel.getSockets current call.handle = some name) (address : Nat) (registers : ISF)
    (next : Except UInt64 (Option Message) → Program ε α) : Calls name current.threadId call next state
      ((state.act (.api address registers call)).setPhase current.threadId (.waiting call next)) :=
  ⟨channels_call running here address registers, rfl⟩

namespace Calls

omit [Fintype σ]

theorem own (calls : Calls name id call next state later) : later.phase id = some (.waiting call next) := by
  rw [calls.phase, Function.update_self]

theorem others (calls : Calls name id call next state later) (other : party ≠ id) :
    later.phase party = state.phase party := by
  rw [calls.phase, Function.update_of_ne other]

theorem channel (calls : Calls name id call next state later) :
    later.ipc.channels.channel name = ((state.ipc.channels.channel name).visit (call.visit id)).channel := by
  rw [calls.channels, State.channel_here]

theorem ticket (calls : Calls name id call next state later) : later.ipc.channels.ticket id =
    some ⟨some name, call.visit id, state.ipc.channels.transfers.length,
      ((state.ipc.channels.channel name).visit (call.visit id)).answers.lookup id⟩ := by
  rw [calls.channels]
  exact State.visitor_ticket (ApiCall.visitor_visit id call)

theorem visitor_ne (call : ApiCall) (other : party ≠ id) : (call.visit id).visitor ≠ some party := by
  rw [ApiCall.visitor_visit]
  exact fun own => other (Option.some.inj own).symm

theorem partner (calls : Calls name id call next state later) (other : party ≠ id)
    {ticket : Ticket σ Message} (found : state.ipc.channels.ticket party = some ticket) :
    later.ipc.channels.ticket party = some { ticket with
      answer := (((state.ipc.channels.channel name).visit (call.visit id)).answers.lookup party).or ticket.answer } := by
  rw [calls.channels]
  exact State.partner_ticket (visitor_ne call other) found

theorem bystander (calls : Calls name id call next state later) (other : party ≠ id)
    (away : party ∉ (state.ipc.channels.channel name).parties) :
    later.ipc.channels.ticket party = state.ipc.channels.ticket party := by
  rw [calls.channels]
  exact (State.aside (visitor_ne call other) away).ticket

end Calls

end Calls

end Execution

end Zephyr
