import Zephyr.Bin.Main
import Zephyr.Proc.HandOff
import Zephyr.Proc.Team

/-! How the threads of the shell learn their ids over the socket they all share. -/

namespace Zephyr.Bin

open Transition Rendezvous Execution

/-! ### The shape of the programs -/

section Shape

variable {ε α β : Type}

def Avoids (handle : Nat) : Program ε α → Prop
  | .done _ => True
  | .call asked next => asked.handle ≠ handle ∧ ∀ result, Avoids handle (next result)
  | .threadSpawn _ _ => False
  | .threadYield next => Avoids handle next
  | .threadExit => True
  | .panicked => True

theorem avoids_bind {handle : Nat} {program : Program ε α} (avoids : Avoids handle program) {rest : α → Program ε β}
    (after : ∀ value, Avoids handle (rest value)) : Avoids handle (program.bind rest) := by
  induction program with
  | done value => exact after value
  | call call next ih => exact ⟨avoids.1, fun result => ih result (avoids.2 result)⟩
  | threadSpawn func next ih => exact avoids.elim
  | threadYield next ih => exact ih avoids
  | threadExit => trivial
  | panicked => trivial

/-- The program begins by receiving its id. -/
def Asks (program : Program ε α) : Prop :=
  ∃ next, program = .call (.receive 2) next ∧ ∀ result, Avoids 2 (next result)

/-- The program sends every thread it starts its id, as its next call, and nothing else at that
handle. -/
inductive Announces : Program ε α → Prop where
  | done (value : α) : Announces (.done value)
  | call {call : ApiCall} {next : Except UInt64 (Option Message) → Program ε α} (elsewhere : call.handle ≠ 2)
      (after : ∀ result, Announces (next result)) : Announces (.call call next)
  | threadSpawn {func : ε} {next : Except UInt64 UInt64 → Program ε α}
      {rest : UInt64 → Except UInt64 (Option Message) → Program ε α}
      (tells : ∀ threadId, next (.ok threadId) = .call (.send 2 (.packet threadId 0 0)) (rest threadId))
      (after : ∀ threadId result, Announces (rest threadId result)) (failed : ∀ code, Announces (next (.error code))) :
      Announces (.threadSpawn func next)
  | threadYield {next : Program ε α} (after : Announces next) : Announces (.threadYield next)
  | threadExit : Announces .threadExit
  | panicked : Announces .panicked

theorem announces_bind {program : Program ε α} (announces : Announces program) {rest : α → Program ε β}
    (after : ∀ value, Announces (rest value)) : Announces (program.bind rest) := by
  induction announces with
  | done value => exact after value
  | call elsewhere _ ih => exact .call elsewhere ih
  | threadSpawn tells _ _ ih failed =>
    exact .threadSpawn (fun threadId => by rw [tells]; rfl) ih failed
  | threadYield _ ih => exact .threadYield ih
  | threadExit => exact .threadExit
  | panicked => exact .panicked

end Shape

theorem avoids_yields {handle : Nat} (times : Nat) : Avoids handle (yields times) := by
  induction times with
  | zero => trivial
  | succ times ih => exact ih

theorem avoids_recursion {handle : Nat} (increment : Nat) (positive : 0 < increment) (depth : Nat) :
    Avoids handle (recursion increment positive depth) := by
  induction depth using recursion.induct increment positive with
  | case1 depth ih =>
    rw [recursion]
    split
    · rename_i more
      exact ih more
    · trivial

theorem avoids_sendFin {handle : Nat} (other : handle ≠ 3) (threadId : UInt64) : Avoids handle (sendFin threadId) := by
  refine ⟨other.symm, fun result => ?_⟩
  cases result <;> trivial

theorem asks_threadEntry (func : ThreadFunction) : Asks (threadEntry body func) := by
  have last : Avoids 2 (.threadExit : Code Unit) := trivial
  cases func with
  | tester | writeToKernelStack =>
    refine ⟨_, rfl, fun result => ?_⟩
    cases result with
    | error code => trivial
    | ok message =>
      exact avoids_bind (avoids_bind (avoids_yields _) fun _ => avoids_sendFin (by decide) _) fun _ => last
  | recursiveThread | recursiveTooDeepThread =>
    refine ⟨_, rfl, fun result => ?_⟩
    cases result with
    | error code => trivial
    | ok message =>
      exact avoids_bind (avoids_bind (avoids_recursion _ _ _) fun _ => avoids_bind (avoids_sendFin (by decide) _) fun _ => last)
        fun _ => last
  | heapAlloc =>
    refine ⟨_, rfl, fun result => ?_⟩
    cases result <;> trivial

theorem announces_startThread (func : ThreadFunction) {rest : Code Unit} (after : Announces rest) :
    Announces (startThread func rest) :=
  .threadSpawn (fun _ => rfl) (fun _ _ => after) fun _ => .done ()

theorem announces_receiveFin (workers : Nat) : Announces (receiveFin workers) := by
  induction workers with
  | zero => exact .done ()
  | succ workers ih => exact .call (by decide) fun _ => ih

theorem announces_startTesters (workers : Nat) {rest : Code Unit} (after : Announces rest) :
    Announces (startTesters workers rest) := by
  induction workers with
  | zero => exact after
  | succ workers ih => exact announces_startThread .tester ih

theorem announces_command (reaction : Reaction) {again : Code Unit} (after : Announces again) :
    Announces (command reaction again) := by
  cases reaction with
  | leave => exact .done ()
  | panic => exact .panicked
  | print => exact after
  | basicThreads num =>
    exact announces_bind (announces_startTesters num (announces_receiveFin num)) fun _ => after
  | recursiveThreads | recursiveTooDeepThreads =>
    exact announces_bind (announces_startThread _ (announces_receiveFin 1)) fun _ => after
  | maliciousThread | heapAlloc => exact announces_bind (announces_startThread _ (.done ())) fun _ => after

theorem announces_shell (reaction : Nat → Message → Reaction) (rounds : Nat) : Announces (shell reaction rounds) := by
  induction rounds with
  | zero => exact .done ()
  | succ rounds ih =>
    refine .call (by decide) fun result => ?_
    cases result with
    | error code => exact .panicked
    | ok message =>
      refine announces_command _ (.call (by decide : (1 : UInt32).toNat ≠ 2) fun sent => ?_)
      cases sent with
      | error code => exact .panicked
      | ok _ => exact ih

/-! ### Handing over an id -/

/-- The shell and the threads it starts, among the others of the system. -/
abbrev World := Execution BootSocket ThreadFunction Unit

def idPacket (id : Nat) : Message := .packet (UInt64.ofNat id) 0 0

/-- A thread that has been sent its id, whether or not it has run since. -/
def Served (channels : Rendezvous.State BootSocket Message) (id : Nat) : Phase ThreadFunction Unit → Prop
  | .ready program => Avoids 2 program
  | .waiting call next => (∀ result, Avoids 2 (next result)) ∧ (call.handle ≠ 2 ∨ call = .receive 2 ∧ ∃ since,
      channels.ticket id = some ⟨some .id, .receive id, since, some (.packet (idPacket id))⟩)

/-- The shell owes no thread its id. -/
def Announcing : Phase ThreadFunction Unit → Prop
  | .ready program => Announces program
  | .waiting call next => call.handle ≠ 2 ∧ ∀ result, Announces (next result)

/-- The threads that have been sent their ids. -/
def AllServed (shell : Nat) (unserved : Option Nat) (state : World) : Prop :=
  ∀ id phase, id ≠ shell → some id ≠ unserved → state.phase id = some phase → Served state.ipc.channels id phase

/-- A new thread, before or in its receive. -/
inductive Asking (child : Nat) (state : World) : Prop where
  | ready (next : Except UInt64 (Option Message) → Code Unit)
      (found : state.phase child = some (.ready (.call (.receive 2) next))) (after : ∀ result, Avoids 2 (next result))
      (empty : state.ipc.channels.channel .id = .empty)
  | waiting (next : Except UInt64 (Option Message) → Code Unit)
      (found : state.phase child = some (.waiting (.receive 2) next)) (after : ∀ result, Avoids 2 (next result))
      (parked : state.ipc.channels.channel .id = .receiving child none)

/-- How far the shell is with the thread it has started last. All others have been served. -/
inductive Handing (shell : Nat) (state : World) : Prop where
  | idle (phase : Phase ThreadFunction Unit) (found : state.phase shell = some phase) (announcing : Announcing phase)
      (empty : state.ipc.channels.channel .id = .empty) (served : AllServed shell none state)
  | telling (child : Nat) (rest : Except UInt64 (Option Message) → Code Unit) (other : child ≠ shell)
      (found : state.phase shell = some (.ready (.call (.send 2 (idPacket child)) rest)))
      (after : ∀ result, Announces (rest result)) (asking : Asking child state)
      (served : AllServed shell (some child) state)
  | offered (child : Nat) (rest next : Except UInt64 (Option Message) → Code Unit) (other : child ≠ shell)
      (found : state.phase shell = some (.waiting (.send 2 (idPacket child)) rest))
      (after : ∀ result, Announces (rest result))
      (offer : state.ipc.channels.channel .id = .sending (some shell) (idPacket child))
      (asks : state.phase child = some (.ready (.call (.receive 2) next))) (avoids : ∀ result, Avoids 2 (next result))
      (served : AllServed shell (some child) state)
  | delivered (message : Message) (rest : Except UInt64 (Option Message) → Code Unit) (since : Nat)
      (found : state.phase shell = some (.waiting (.send 2 message) rest))
      (after : ∀ result, Announces (rest result)) (empty : state.ipc.channels.channel .id = .empty)
      (ticket : state.ipc.channels.ticket shell = some ⟨some .id, .send (some shell) message, since, some .sent⟩)
      (served : AllServed shell none state)

section Still

variable {shell : Nat} {unserved acting : Option Nat} {before after : World}

theorem served_still (still : Still .id acting before after) {id : Nat} {phase : Phase ThreadFunction Unit}
    (other : some id ≠ acting) (found : before.phase id = some phase) (served : Served before.ipc.channels id phase) :
    Served after.ipc.channels id phase := by
  cases phase with
  | ready program => exact served
  | waiting call next =>
    refine ⟨served.1, served.2.imp_right fun ⟨same, since, ticket⟩ => ⟨same, since, ?_⟩⟩
    exact still.ticket id _ other (found ▸ Option.some_ne_none _) ticket rfl

theorem allServed_still (still : Still .id acting before after) (served : AllServed shell unserved before)
    (own : ∀ id phase, some id = acting → id ≠ shell → after.phase id = some phase → Served after.ipc.channels id phase) :
    AllServed shell unserved after := by
  intro id phase other not found
  by_cases moved : some id = acting
  · exact own id phase moved other found
  · rw [still.phase id moved] at found
    exact served_still still moved found (served id phase other not found)

theorem asking_still (still : Still .id acting before after) {child : Nat} (asking : Asking child before)
    (other : some child ≠ acting) : Asking child after := by
  cases asking with
  | ready next found avoids empty =>
    exact .ready next ((still.phase child other).trans found) avoids (still.channel.trans empty)
  | waiting next found avoids parked =>
    exact .waiting next ((still.phase child other).trans found) avoids (still.channel.trans parked)

/-- Something happens that is none of the programs' business. -/
theorem Handing.still (handing : Handing shell before) (still : Still .id none before after) : Handing shell after := by
  have kept (id : Nat) : after.phase id = before.phase id := still.phase id nofun
  cases handing with
  | idle phase found announcing empty served =>
    exact .idle phase ((kept _).trans found) announcing (still.channel.trans empty) (allServed_still still served nofun)
  | telling child rest other found rests asking served =>
    exact .telling child rest other ((kept _).trans found) rests (asking_still still asking nofun)
      (allServed_still still served nofun)
  | offered child rest next other found rests offer asks avoids served =>
    exact .offered child rest next other ((kept _).trans found) rests (still.channel.trans offer) ((kept _).trans asks)
      avoids (allServed_still still served nofun)
  | delivered message rest since found rests empty ticket served =>
    exact .delivered message rest since ((kept _).trans found) rests (still.channel.trans empty)
      (still.ticket shell _ nofun (found ▸ Option.some_ne_none _) ticket rfl) (allServed_still still served nofun)

theorem not_served_of_parked (sound : before.Sound) {id : Nat} {next : Except UInt64 (Option Message) → Code Unit}
    (parked : before.ipc.channels.channel .id = .receiving id none) :
    ¬ Served before.ipc.channels id (.waiting (.receive 2) next) := by
  intro served
  have occupied := sound.refines.coherent.occupied .id
  rw [parked] at occupied
  obtain ⟨since, ticket⟩ := occupied
  rcases served.2 with elsewhere | ⟨_, later, answered⟩
  · exact elsewhere rfl
  · cases ticket.symm.trans answered

theorem Handing.goes_on (handing : Handing shell before) (sound : before.Sound) {id : Nat}
    (still : Still .id (some id) before after) (other : id ≠ shell) {earlier phase : Phase ThreadFunction Unit}
    (found : before.phase id = some earlier) (had : Served before.ipc.channels id earlier)
    (now : after.phase id = some phase) (served : Served after.ipc.channels id phase) : Handing shell after := by
  have kept {party : Nat} (apart : party ≠ id) : after.phase party = before.phase party :=
    still.phase party fun same => apart (Option.some.inj same)
  have unlike : some shell ≠ some id := fun same => other (Option.some.inj same).symm
  have own : ∀ party phase, some party = some id → party ≠ shell → after.phase party = some phase →
      Served after.ipc.channels party phase := by
    intro party phase same _ known
    cases same
    cases now.symm.trans known
    exact served
  have asker {child : Nat} {next : Except UInt64 (Option Message) → Code Unit}
      (asks : before.phase child = some (.ready (.call (.receive 2) next))) : child ≠ id := by
    rintro rfl
    cases asks.symm.trans found
    exact had.1 rfl
  cases handing with
  | idle phase known announcing empty all =>
    exact .idle phase ((kept other.symm).trans known) announcing (still.channel.trans empty) (allServed_still still all own)
  | telling child rest differs known rests asking all =>
    have apart : child ≠ id := by
      cases asking with
      | ready next asks => exact asker asks
      | waiting next waits _ parked =>
        rintro rfl
        cases waits.symm.trans found
        exact not_served_of_parked sound parked had
    exact .telling child rest differs ((kept other.symm).trans known) rests
      (asking_still still asking fun same => apart (Option.some.inj same)) (allServed_still still all own)
  | offered child rest next differs known rests offer asks left all =>
    exact .offered child rest next differs ((kept other.symm).trans known) rests (still.channel.trans offer)
      ((kept (asker asks)).trans asks) left (allServed_still still all own)
  | delivered message rest since known rests empty ticket all =>
    exact .delivered message rest since ((kept other.symm).trans known) rests (still.channel.trans empty)
      (still.ticket shell _ unlike (known ▸ Option.some_ne_none _) ticket rfl) (allServed_still still all own)

theorem Handing.shell_goes_on (handing : Handing shell before) (still : Still .id (some shell) before after)
    {program : Code Unit} (found : before.phase shell = some (.ready program)) (announces : Announces program)
    {phase : Phase ThreadFunction Unit} (now : after.phase shell = some phase) (announcing : Announcing phase) :
    Handing shell after := by
  have own : ∀ party phase, some party = some shell → party ≠ shell → after.phase party = some phase →
      Served after.ipc.channels party phase := fun party _ same other => absurd (Option.some.inj same) other
  cases handing with
  | idle _ _ _ empty all =>
    exact .idle phase now announcing (still.channel.trans empty) (allServed_still still all own)
  | telling child rest _ known =>
    cases found.symm.trans known
    cases announces with
    | call elsewhere => exact absurd rfl elsewhere
  | offered child rest next _ known => cases found.symm.trans known
  | delivered message rest since known => cases found.symm.trans known

end Still

/-! ### One event -/

theorem handle_unique {handle other : Nat} {name : BootSocket} (found : resources[handle]? = some name)
    (same : resources[other]? = some name) : handle = other :=
  (List.getElem?_inj (List.getElem?_eq_some_iff.mp found).1 (by decide)).mp (found.trans same.symm)

section Moves

variable {shell : Nat} {acting : Option Nat} {state : World} {event : IpcEvent BootSocket} {current : Thread}

theorem Handing.spawns (handing : Handing shell state) (sound : state.Sound)
    (running : state.ipc.kernel.runningThread = some current) (own : current.threadId = shell) {func : ThreadFunction}
    {next : Except UInt64 UInt64 → Code Unit} (found : state.phase shell = some (.ready (.threadSpawn func next)))
    (announces : Announces (.threadSpawn func next)) (address : Nat) (registers : ISF) {memory : Kernel.ForkMemory}
    (succeeds : memory.stack ≠ none ∧ state.ipc.kernel.counter + 2 < 2 ^ 64) :
    Handing shell (state.spawn body current func next address registers memory) := by
  have bound : shell ≤ state.ipc.kernel.counter := sound.known (found ▸ Option.some_ne_none _)
  have still := still_systemCall .id sound none List.mem_cons_self address registers memory
  rw [Execution.spawn_ok address registers running succeeds]
  cases handing with
  | telling _ _ _ known => cases found.symm.trans known
  | offered _ _ _ _ known => cases found.symm.trans known
  | delivered _ _ _ known => cases found.symm.trans known
  | idle phase known announcing empty served =>
    cases announces with
    | @threadSpawn _ _ rest tells rests failed =>
      obtain ⟨asks, same, avoids⟩ := asks_threadEntry func
      rw [tells, same]
      refine .telling (state.ipc.kernel.counter + 2) (rest (UInt64.ofNat (state.ipc.kernel.counter + 2))) (by omega) ?_
        (rests _) (.ready asks (Function.update_self ..) avoids (still.channel.trans empty)) ?_
      · exact (Function.update_of_ne (by omega) _ _).trans (own ▸ Function.update_self ..)
      · intro id phase other not given
        rcases setPhase_cases given with ⟨child, _⟩ | ⟨_, before⟩
        · exact absurd (congrArg some child) not
        rcases setPhase_cases before with ⟨caller, _⟩ | ⟨_, old⟩
        · exact absurd (caller.trans own) other
        · exact served_still still nofun old (served id phase other nofun old)

section Calls

variable {later : World} {id : Nat} {call : ApiCall} {next : Except UInt64 (Option Message) → Code Unit}

/-- A call at the socket leaves those alone who have their ids. -/
theorem served_calls (calls : Calls .id id call next state later) {unserved : Option Nat}
    (served : AllServed shell unserved state) {party : Nat} {phase : Phase ThreadFunction Unit} (other : party ≠ shell)
    (not : some party ≠ unserved) (mover : party ≠ id) (away : party ∉ (state.ipc.channels.channel .id).parties)
    (found : later.phase party = some phase) : Served later.ipc.channels party phase := by
  rw [calls.others mover] at found
  have before := served party phase other not found
  have kept := calls.bystander mover away
  cases phase with
  | ready program => exact before
  | waiting call next =>
    exact ⟨before.1, before.2.imp_right fun ⟨same, since, ticket⟩ => ⟨same, since, kept.trans ticket⟩⟩

theorem Handing.sends (handing : Handing shell state) (sound : state.Sound) {message : Message}
    (found : state.phase shell = some (.ready (.call (.send 2 message) next)))
    (calls : Calls .id shell (.send 2 message) next state later) : Handing shell later := by
  cases handing with
  | idle phase known announcing =>
    cases found.symm.trans known
    cases announcing with
    | call elsewhere => exact absurd rfl elsewhere
  | offered _ _ _ _ known => cases found.symm.trans known
  | delivered _ _ _ known => cases found.symm.trans known
  | telling child rest other known rests asking served =>
    cases found.symm.trans known
    have channel := calls.channel
    cases asking with
    | ready asks waits avoids empty =>
      rw [empty] at channel
      refine .offered child next asks other calls.own rests channel ((calls.others other).trans waits) avoids ?_
      intro party phase differs not given
      exact served_calls calls served differs not differs (by rw [empty]; exact nofun) given
    | waiting asks waits avoids parked =>
      obtain ⟨since, ticket⟩ : ∃ since, state.ipc.channels.ticket child = some ⟨some .id, .receive child, since, none⟩ := by
        have occupied := sound.refines.coherent.occupied .id
        rwa [parked] at occupied
      have meets : (state.ipc.channels.channel .id).visit (.send (some shell) (idPacket child)) =
          complete (some shell) (idPacket child) child := by
        rw [parked, Channel.visit, if_pos (Or.inl rfl)]
      have sender := calls.ticket
      have receiver := calls.partner other ticket
      dsimp only [ApiCall.visit] at channel sender receiver
      rw [meets] at channel sender receiver
      rw [lookup_complete, if_neg other, if_pos rfl] at sender
      rw [lookup_complete, if_pos rfl] at receiver
      refine .delivered (idPacket child) next _ calls.own rests channel sender fun party phase differs _ given => ?_
      by_cases same : party = child
      · subst same
        rw [calls.others other, waits] at given
        cases given
        exact ⟨avoids, .inr ⟨rfl, since, receiver⟩⟩
      · exact served_calls calls served differs (fun again => same (Option.some.inj again)) differs
          (by rw [parked]; exact fun waits => same (List.mem_singleton.mp waits)) given

theorem Handing.receives (handing : Handing shell state) (sound : state.Sound) (other : id ≠ shell)
    (found : state.phase id = some (.ready (.call (.receive 2) next)))
    (calls : Calls .id id (.receive 2) next state later) : Handing shell later := by
  have unserved {party : Option Nat} (served : AllServed shell party state) : some id = party := by
    by_contra not
    exact (served id _ other not found).1 rfl
  cases handing with
  | idle phase known announcing empty served => cases unserved served
  | delivered message rest since known rests empty ticket served => cases unserved served
  | telling child rest _ known rests asking served =>
    cases unserved served
    have channel := calls.channel
    cases asking with
    | waiting asks waits => cases found.symm.trans waits
    | ready asks waits avoids empty =>
      cases found.symm.trans waits
      rw [empty] at channel
      refine .telling id rest other ((calls.others other.symm).trans known) rests (.waiting next calls.own avoids channel)
        fun party phase differs not given => ?_
      have mover : party ≠ id := fun same => not (congrArg some same)
      exact served_calls calls served differs not mover (by rw [empty]; exact nofun) given
  | offered child rest asks _ known rests offer waits avoids served =>
    cases unserved served
    cases found.symm.trans waits
    obtain ⟨since, ticket⟩ : ∃ since, state.ipc.channels.ticket shell =
        some ⟨some .id, .send (some shell) (idPacket id), since, none⟩ := by
      have occupied := sound.refines.coherent.occupied .id
      rw [offer] at occupied
      exact occupied.2 shell rfl
    have meets : (state.ipc.channels.channel .id).visit (.receive id) = complete (some shell) (idPacket id) id := by
      rw [offer]
      rfl
    have channel := calls.channel
    have receiver := calls.ticket
    have sender := calls.partner other.symm ticket
    dsimp only [ApiCall.visit] at channel sender receiver
    rw [meets] at channel sender receiver
    rw [lookup_complete, if_neg other, if_pos rfl] at sender
    rw [lookup_complete, if_pos rfl] at receiver
    refine .delivered (idPacket id) rest since ((calls.others other.symm).trans known) rests channel sender
      fun party phase differs _ given => ?_
    by_cases same : party = id
    · subst same
      rw [calls.own] at given
      cases given
      exact ⟨avoids, .inr ⟨rfl, _, receiver⟩⟩
    · exact served_calls calls served differs (fun again => same (Option.some.inj again)) same
        (by rw [offer]; exact fun waits => differs (List.mem_singleton.mp waits)) given

end Calls

theorem Handing.served_or_asks (handing : Handing shell state) {id : Nat} (other : id ≠ shell) {program : Code Unit}
    (found : state.phase id = some (.ready program)) :
    Avoids 2 program ∨ ∃ next, program = .call (.receive 2) next := by
  have among {unserved : Option Nat} (served : AllServed shell unserved state) (not : some id ≠ unserved) :
      Avoids 2 program := served id _ other not found
  have asked {child : Nat} {next : Except UInt64 (Option Message) → Code Unit} (served : AllServed shell (some child) state)
      (asks : state.phase child = some (.ready (.call (.receive 2) next))) :
      Avoids 2 program ∨ ∃ next, program = .call (.receive 2) next := by
    by_cases same : some id = some child
    · cases same
      cases found.symm.trans asks
      exact .inr ⟨next, rfl⟩
    · exact .inl (among served same)
  cases handing with
  | idle _ _ _ _ served => exact .inl (among served nofun)
  | delivered _ _ _ _ _ _ _ served => exact .inl (among served nofun)
  | offered child rest next _ _ _ _ asks _ served => exact asked served asks
  | telling child rest _ _ _ asking served =>
    cases asking with
    | ready next asks => exact asked served asks
    | waiting next waits =>
      refine .inl (among served fun same => ?_)
      cases same
      cases found.symm.trans waits

theorem Handing.announces_or_sends (handing : Handing shell state) {program : Code Unit}
    (found : state.phase shell = some (.ready program)) :
    Announces program ∨ ∃ message next, program = .call (.send 2 message) next := by
  cases handing with
  | idle phase known announcing =>
    cases found.symm.trans known
    exact .inl announcing
  | telling child rest _ known =>
    cases found.symm.trans known
    exact .inr ⟨_, rest, rfl⟩
  | offered _ _ _ _ known => cases found.symm.trans known
  | delivered _ _ _ known => cases found.symm.trans known

theorem Handing.served_of_answered (handing : Handing shell state) (sound : state.Sound) {id : Nat} (other : id ≠ shell)
    {call : ApiCall} {next : Except UInt64 (Option Message) → Code Unit}
    (waits : state.phase id = some (.waiting call next)) {ticket : Ticket BootSocket Message}
    (found : state.ipc.channels.ticket id = some ticket) (answered : ticket.answer ≠ none) :
    Served state.ipc.channels id (.waiting call next) := by
  cases handing with
  | idle _ _ _ _ served => exact served id _ other nofun waits
  | delivered _ _ _ _ _ _ _ served => exact served id _ other nofun waits
  | offered child rest next _ _ _ _ asks _ served =>
    refine served id _ other (fun same => ?_) waits
    cases same
    cases asks.symm.trans waits
  | telling child rest _ _ _ asking served =>
    refine served id _ other (fun same => ?_) waits
    cases same
    cases asking with
    | ready next asks => cases asks.symm.trans waits
    | waiting next _ _ parked =>
      have occupied := sound.refines.coherent.occupied .id
      rw [parked] at occupied
      obtain ⟨_, silent⟩ := occupied
      cases found.symm.trans silent
      exact answered rfl

/-- Every call at the socket has returned what it should. -/
def Informed (shell : Nat) (state : World) : Prop :=
  ∀ id call result, (id, call, result) ∈ state.returned → call.handle = 2 →
    (id = shell → result = .ok none) ∧ (id ≠ shell → result = .ok (some (idPacket id)))

theorem Handing.result (handing : Handing shell state) (sound : state.Sound)
    (running : state.ipc.kernel.runningThread = some current) {call : ApiCall}
    {next : Except UInt64 (Option Message) → Code Unit}
    (waits : state.phase current.threadId = some (.waiting call next)) (here : call.handle = 2) :
    (current.threadId = shell → call.result current.frame = .ok none) ∧
      (current.threadId ≠ shell → call.result current.frame = .ok (some (idPacket current.threadId))) := by
  obtain ⟨place, since, answer, ticket, _, result⟩ := sound.result running waits
  have occupied := sound.refines.coherent.occupied .id
  rw [result]
  constructor
  · rintro rfl
    cases handing with
    | idle phase known announcing =>
      cases waits.symm.trans known
      exact absurd here announcing.1
    | telling _ _ _ known => cases waits.symm.trans known
    | offered child rest asks _ known _ offer =>
      cases waits.symm.trans known
      rw [offer] at occupied
      obtain ⟨_, silent⟩ := occupied.2 current.threadId rfl
      cases ticket.symm.trans silent
    | delivered message rest _ known _ _ answered =>
      cases waits.symm.trans known
      cases ticket.symm.trans answered
      rfl
  · intro other
    rcases (handing.served_of_answered sound other waits ticket nofun).2 with elsewhere | ⟨rfl, _, answered⟩
    · exact absurd here elsewhere
    · cases ticket.symm.trans answered
      rfl

theorem Handing.shell_resumes (handing : Handing shell state) (sound : state.Sound) {later : World}
    (still : Still .id (some shell) state later) {call : ApiCall} {next : Except UInt64 (Option Message) → Code Unit}
    (waits : state.phase shell = some (.waiting call next)) {ticket : Ticket BootSocket Message}
    (found : state.ipc.channels.ticket shell = some ticket) (answered : ticket.answer ≠ none)
    {result : Except UInt64 (Option Message)} (now : later.phase shell = some (.ready (next result))) :
    Handing shell later := by
  have own : ∀ party phase, some party = some shell → party ≠ shell → later.phase party = some phase →
      Served later.ipc.channels party phase := fun party _ same other => absurd (Option.some.inj same) other
  cases handing with
  | idle phase known announcing empty served =>
    cases waits.symm.trans known
    exact .idle _ now (announcing.2 result) (still.channel.trans empty) (allServed_still still served own)
  | telling _ _ _ known => cases waits.symm.trans known
  | offered child rest asks _ known _ offer =>
    have occupied := sound.refines.coherent.occupied .id
    rw [offer] at occupied
    obtain ⟨_, silent⟩ := occupied.2 shell rfl
    cases found.symm.trans silent
    exact absurd rfl answered
  | delivered message rest since known rests empty _ served =>
    cases waits.symm.trans known
    exact .idle _ now (rests result) (still.channel.trans empty) (allServed_still still served own)

/-- The running thread gets its result. -/
theorem Handing.resume (handing : Handing shell state) (sound : state.Sound) : Handing shell state.resume := by
  rcases state.resume_cases with same | ⟨current, call, next, running, waits, same⟩
  · rwa [same]
  rw [same]
  have still : Still .id (some current.threadId) state _ :=
    still_returns current.threadId call next (call.result current.frame)
  obtain ⟨place, since, answer, ticket, _⟩ := sound.result running waits
  by_cases own : current.threadId = shell
  · subst own
    exact handing.shell_resumes sound still waits ticket nofun (Function.update_self ..)
  · have served := handing.served_of_answered sound own waits ticket nofun
    exact handing.goes_on sound still own waits served (Function.update_self ..) (served.1 _)

theorem Informed.resume (informed : Informed shell state) (handing : Handing shell state) (sound : state.Sound) :
    Informed shell state.resume := by
  rcases state.resume_cases with same | ⟨current, call, next, running, waits, same⟩
  · rwa [same]
  rw [same]
  intro id asked result member here
  rcases List.mem_append.mp member with old | new
  · exact informed id asked result old here
  · cases List.mem_singleton.mp new
    exact handing.result sound running waits here

theorem Handing.proceed {home : Nat} (handing : Handing shell state) (sound : state.Sound)
    (team : state.Team home fun handle => resources[handle]?) {program : Code Unit}
    (running : state.running = some (current, program)) (address : Nat) (registers : ISF) {memory : Kernel.ForkMemory}
    (succeeds : ∀ func next, program = .threadSpawn func next →
      memory.stack ≠ none ∧ state.ipc.kernel.counter + 2 < 2 ^ 64) :
    Handing shell (state.proceed body current address registers memory program) := by
  obtain ⟨runs, found⟩ := Execution.running_eq_some running
  have handles := team.getSockets runs (found ▸ Option.some_ne_none _)
  have elsewhere {call : ApiCall} (other : call.handle ≠ 2) :
      state.ipc.kernel.getSockets current call.handle ≠ some .id :=
    fun here => other (handle_unique ((handles _).symm.trans here) rfl)
  have still {number : UInt64} (silent : number ∈ [0, 1, 9]) (acting : Option Nat) :=
    still_systemCall .id sound acting silent address registers memory
  by_cases own : current.threadId = shell
  · subst own
    rcases handing.announces_or_sends found with announces | ⟨message, next, rfl⟩
    · cases announces with
      | done value => exact handing
      | call other after =>
        exact handing.shell_goes_on (still_call sound runs (elsewhere other) address registers _) found
          (.call other after) (Function.update_self ..) ⟨other, after⟩
      | threadSpawn tells after failed =>
        exact handing.spawns sound runs rfl found (.threadSpawn tells after failed) address registers (succeeds _ _ rfl)
      | threadYield after =>
        exact handing.shell_goes_on ((still (by simp) _).setPhase _) found (.threadYield after)
          (Function.update_self ..) after
      | threadExit => exact handing.still (still (by simp) none)
      | panicked => exact handing.still (still (by simp) none)
    · exact handing.sends sound found (calls_act runs (handles _) address registers next)
  · rcases handing.served_or_asks own found with avoids | ⟨next, rfl⟩
    · cases program with
      | done value => exact handing
      | call call next =>
        exact handing.goes_on sound (still_call sound runs (elsewhere avoids.1) address registers _) own found avoids
          (Function.update_self ..) ⟨avoids.2, .inl avoids.1⟩
      | threadSpawn func next => exact avoids.elim
      | threadYield next =>
        exact handing.goes_on sound ((still (by simp) _).setPhase _) own found avoids (Function.update_self ..) avoids
      | threadExit => exact handing.still (still (by simp) none)
      | panicked => exact handing.still (still (by simp) none)
    · exact handing.receives sound own found (calls_act runs (handles _) address registers next)

/-- Everything that is known of the shell and its threads between two events. -/
structure Coordinated (shell home : Nat) (state : World) : Prop where
  sound : state.Sound
  settled : state.Settled
  team : state.Team home fun handle => resources[handle]?
  handing : Handing shell state
  informed : Informed shell state
  started : ∀ entry ∈ state.started, entry.1 ≠ shell

theorem started_resume (state : World) : state.resume.started = state.started := by
  rcases state.resume_cases with same | ⟨_, _, _, _, _, same⟩ <;> rw [same]
  rfl

theorem returned_proceed (state : World) (current : Thread) (address : Nat) (registers : ISF) (memory : Kernel.ForkMemory)
    (program : Code Unit) : (state.proceed body current address registers memory program).returned = state.returned := by
  cases program with
  | threadSpawn func next =>
    unfold Execution.proceed Execution.spawn
    dsimp only
    split <;> rfl
  | _ => rfl

theorem started_proceed (sound : state.Sound) {program : Code Unit} (running : state.running = some (current, program))
    (own : ∃ phase, state.phase shell = some phase) (fresh : ∀ entry ∈ state.started, entry.1 ≠ shell) (address : Nat)
    (registers : ISF) (memory : Kernel.ForkMemory) :
    ∀ entry ∈ (state.proceed body current address registers memory program).started, entry.1 ≠ shell := by
  cases program with
  | threadSpawn func next =>
    obtain ⟨phase, found⟩ := own
    have bound : shell ≤ state.ipc.kernel.counter := sound.known (found ▸ Option.some_ne_none _)
    unfold Execution.proceed Execution.spawn
    dsimp only
    split
    · intro entry member
      rcases List.mem_append.mp member with old | new
      · exact fresh entry old
      · cases List.mem_singleton.mp new
        omega
    · exact fresh
  | _ => exact fresh

theorem Handing.shell_phase (handing : Handing shell state) : ∃ phase, state.phase shell = some phase := by
  cases handing with
  | idle _ found | telling _ _ _ found | offered _ _ _ _ found | delivered _ _ _ found => exact ⟨_, found⟩

theorem Coordinated.step {home : Nat} {shared : BootSocket → Prop} {after : World} {event : ProgramEvent BootSocket}
    (coordinated : Coordinated shell home state) (step : Execution.Step body shared state event after)
    (known : shared .id) : Coordinated shell home after := by
  obtain ⟨sound, settled, team, handing, informed, fresh⟩ := coordinated
  obtain ⟨stillSound, stillSettled⟩ := step.sound ⟨sound, settled⟩
  have stillTeam := team.step step sound
  obtain ⟨permitted, rfl⟩ := step
  cases event with
  | other action =>
    have apart {id : Nat} (own : state.phase id ≠ none) : state.Apart (.other action) id := by
      obtain ⟨phase, found⟩ := Option.ne_none_iff_exists'.mp own
      exact Execution.apart_of_permitted permitted found
    have acted := handing.still (still_act sound (Execution.elsewhere_of_permitted permitted known) fun _ _ => apart)
    have fits := sound.act settled fun id program found => apart (found ▸ Option.some_ne_none (Phase.ready program))
    exact ⟨stillSound, stillSettled, stillTeam, acted.resume fits, Informed.resume informed acted fits,
      started_resume (state.act _) ▸ fresh⟩
  | proceed address registers memory =>
    unfold Execution.after at stillSound stillSettled stillTeam ⊢
    cases running : state.running with
    | none => exact ⟨sound, settled, team, handing, informed, fresh⟩
    | some pair =>
      obtain ⟨current, program⟩ := pair
      rw [running] at stillSound stillSettled stillTeam
      have acted := handing.proceed sound team running address registers fun func next same =>
        permitted current func next (same ▸ running)
      have fits := sound.proceed address registers memory body settled running
      have told : Informed shell (state.proceed body current address registers memory program) := by
        unfold Informed
        rw [returned_proceed]
        exact informed
      refine ⟨stillSound, stillSettled, stillTeam, acted.resume fits, told.resume acted fits, ?_⟩
      dsimp only
      rw [started_resume]
      exact started_proceed sound running handing.shell_phase fresh address registers memory

theorem Coordinated.of_run {home : Nat} {shared : BootSocket → Prop} {start : World}
    {events : List (ProgramEvent BootSocket)} (coordinated : Coordinated shell home start)
    (run : Run (Execution.Step body shared) start events state) (known : shared .id) : Coordinated shell home state := by
  induction run with
  | nil => exact coordinated
  | snoc _ last ih => exact ih.step last known

end Moves

/-! ### From the start of the shell -/

/-- The shell runs with the handles of the user process, and nothing waits at the socket of the ids. -/
structure Starts (before : IpcState BootSocket) (current : Thread) : Prop where
  refines : before.Refines
  running : before.kernel.runningThread = some current
  process : ∃ table, before.kernel.processes[current.process]? = some ⟨table, resources.map some⟩
  empty : before.kernel.socket .id = .empty

theorem coordinated_launch {before : IpcState BootSocket} {current : Thread} (starts : Starts before current)
    {program : Code Unit} (announces : Announces program) :
    Coordinated current.threadId current.process (Execution.launch before current.threadId program) := by
  obtain ⟨sound, settled⟩ := Execution.sound_launch program starts.refines starts.running
  obtain ⟨table, found⟩ := starts.process
  have others {id : Nat} (other : id ≠ current.threadId) :
      (Execution.launch before current.threadId program).phase id = none := Function.update_of_ne other _ _
  refine ⟨sound, settled, ⟨⟨_, found, fun handle => ?_⟩, Kernel.every_iff.mpr fun thread held own => ?_⟩,
    .idle _ (Function.update_self ..) announces ?_ fun id phase other _ given => ?_, nofun, nofun⟩
  · rw [List.getElem?_map]
    cases resources[handle]? <;> rfl
  · by_cases same : thread.threadId = current.threadId
    · exact congrArg Thread.process (starts.refines.conserved.eq_of_held (.inl starts.running) held same)
    · exact absurd (others same) own
  · have channel := starts.refines.channels .id
    rw [starts.empty] at channel
    exact channel.symm
  · rw [others other] at given
    cases given

/-- Whatever the shell is told to do and however its threads are interleaved, each thread it starts
receives the id it was given, and no send of an id is refused. -/
theorem spawned_threads_learn_their_ids {before : IpcState BootSocket} {current : Thread} (starts : Starts before current)
    (reaction : Nat → Message → Reaction) (rounds : Nat) {events : List (ProgramEvent BootSocket)} {state : World}
    (run : Run (Execution.Step body (· = .id)) (.launch before current.threadId (shell reaction rounds)) events state) :
    (∀ id func result, (id, func) ∈ state.started → (id, .receive 2, result) ∈ state.returned →
      result = .ok (some (.packet (UInt64.ofNat id) 0 0))) ∧
    ∀ message result, (current.threadId, .send 2 message, result) ∈ state.returned → result = .ok none := by
  have coordinated := (coordinated_launch starts (announces_shell reaction rounds)).of_run run rfl
  refine ⟨fun id func result started returned => ?_, fun message result returned => ?_⟩
  · exact (coordinated.informed id _ result returned rfl).2 (coordinated.started _ started)
  · exact (coordinated.informed _ _ result returned rfl).1 rfl

/-- The shell is launched as user thread 2. -/
def shellLaunch : List (IpcEvent BootSocket) :=
  IpcState.kernelEvents ++ IpcState.spawnUserEvents 91 0x30000023000 0x444444450000 resources ++
    [.other (.timer ⟨0x444444442f60, {}⟩)]

def shellStart : IpcState BootSocket := shellLaunch.foldl IpcState.after (.boot .keyboard 1)

theorem starts_shellStart : Starts shellStart (shellStart.kernel.runningThread.get rfl) := by
  have reached : Run IpcState.Step (.boot .keyboard 1) _ shellStart := Run.foldl IpcState.after (.boot BootSocket.keyboard 1) _
  exact ⟨IpcState.refines_of_run reached, rfl, ⟨91, rfl⟩, rfl⟩

/-- A turn of a program in the process of the shell; a new thread gets the given stacks. -/
def shellTurn (userStackEnd kernelStackStart : Nat) : ProgramEvent BootSocket :=
  .proceed 0x444444452f60 IpcState.userRegisters ⟨some (userStackEnd, kernelStackStart)⟩

/-- The shell is told to start one thread, and that thread receives its id. -/
private def shellEvents : List (ProgramEvent BootSocket) :=
  [shellTurn 0x30000033000 0x444444460000, .other (.keyboard ⟨0x444444442f60, {}⟩ (some 101)),
    shellTurn 0x30000033000 0x444444460000, shellTurn 0x30000033000 0x444444460000,
    .other (.timer ⟨0x444444442f60, {}⟩), shellTurn 0x30000033000 0x444444460000]

private def shellEnd : World :=
  shellEvents.foldl (Execution.after body) (.launch shellStart 2 (shell (fun _ => react) 1))

theorem spawned_threads_learn_their_ids_heapAlloc :
    shellStart.kernel.runningThread.map Thread.threadType = some .user ∧ (5, ThreadFunction.heapAlloc) ∈ shellEnd.started ∧
    ∃ result, (5, ApiCall.receive 2, result) ∈ shellEnd.returned ∧ result = .ok (some (.packet 5 0 0)) := by
  have run : Run (Execution.Step body (· = .id)) (.launch shellStart 2 (shell (fun _ => react) 1)) shellEvents shellEnd := by
    refine .cons ⟨fun _ _ _ _ => ⟨nofun, by decide⟩, rfl⟩ (.cons ⟨Execution.permitted_of_free rfl ?_, rfl⟩
      (.cons ⟨fun _ _ _ _ => ⟨nofun, by decide⟩, rfl⟩ (.cons ⟨fun _ _ _ _ => ⟨nofun, by decide⟩, rfl⟩
        (.cons ⟨Execution.permitted_of_free rfl nofun, rfl⟩ (.cons ⟨fun _ _ _ _ => ⟨nofun, by decide⟩, rfl⟩ .nil)))))
    intro name call made
    cases made
    exact nofun
  have started : (5, ThreadFunction.heapAlloc) ∈ shellEnd.started := List.mem_singleton_self _
  have returned : (5, ApiCall.receive 2, .ok (some (.packet 5 0 0))) ∈ shellEnd.returned :=
    .tail _ (.head _)
  exact ⟨rfl, started, _, returned,
    (spawned_threads_learn_their_ids starts_shellStart (fun _ => react) 1 run).1 5 _ _ started returned⟩

end Zephyr.Bin
