import Mathlib.Data.List.Permutation
import Zephyr.Bin.ThreadIds

/-! How the shell counts the threads of `call_basic_threads` that have finished. -/

namespace Zephyr.Bin

open Transition Rendezvous Execution

/-! ### A tester and the shell that waits for it -/

def finishing (times : Nat) (threadId : UInt64) : Code Unit :=
  ((yields times).bind fun _ => sendFin threadId).bind fun _ => .threadExit

def afterFin : Except UInt64 (Option Message) → Code Unit
  | .ok _ => .threadExit
  | .error _ => .panicked

theorem finishing_zero (threadId : UInt64) : finishing 0 threadId = .call (.send 3 (.packet threadId 0 0)) afterFin := by
  refine congrArg (Program.call _) (funext fun result => ?_)
  cases result <;> rfl

/-- A tester after its `recv_id`. -/
def learns : Except UInt64 (Option Message) → Code Unit
  | .ok message =>
    match message.getD (.packet 0 0 0) with
    | .packet value _ _ => finishing 10 value
  | .error _ => .panicked

theorem threadEntry_tester : threadEntry body .tester = .call (.receive 2) learns := by
  refine congrArg (Program.call _) (funext fun result => ?_)
  cases result <;> rfl

/-- A tester up to its message to the shell. -/
inductive Working (tester : Nat) : Phase ThreadFunction Unit → Prop where
  | entering : Working tester (.ready (.call (.receive 2) learns))
  | asking : Working tester (.waiting (.receive 2) learns)
  | yielding (times : Nat) : Working tester (.ready (finishing times (UInt64.ofNat tester)))

theorem not_working_threadExit {tester : Nat} : ¬ Working tester (.ready .threadExit) := by
  intro working
  generalize same : Phase.ready Program.threadExit = phase at working
  cases working with
  | entering | asking => cases same
  | yielding times =>
    cases times with
    | zero => cases (Phase.ready.inj same).trans (finishing_zero _)
    | succ times => cases same

/-- The shell between the start of its only tester and its receive. -/
inductive Starting : Phase ThreadFunction Unit → Prop where
  | telling (message : Message) : Starting (.ready (.call (.send 2 message) fun _ => receiveFin 1))
  | told (message : Message) : Starting (.waiting (.send 2 message) fun _ => receiveFin 1)
  | receiving : Starting (.ready (receiveFin 1))

/-- The id in a result of the shell's receive at handle 3. -/
def reported (main : Nat) : Nat × ApiCall × Except UInt64 (Option Message) → Option UInt64
  | (id, .receive socket, .ok (some (.packet threadId _ _))) => if id = main ∧ socket = 3 then some threadId else none
  | _ => none

def received (main : Nat) (state : World) : List UInt64 := state.returned.filterMap (reported main)

/-- The shell has started one tester. -/
structure Pair (main tester : Nat) (state : World) : Prop where
  other : tester ≠ main
  started : state.started = [(tester, .tester)]
  only : ∀ id, id ≠ main → id ≠ tester → state.phase id = none

/-- How far the shell and its only tester are with the message of the tester. -/
inductive Stage (main : Nat) (state : World) : Prop where
  | alone (program : Code Unit) (found : state.phase main = some (.ready program))
      (first : program = callBasicThreads 0 ∨ program = callBasicThreads 1)
      (others : ∀ id, id ≠ main → state.phase id = none) (started : state.started = [])
      (empty : state.ipc.channels.channel .fin = .empty) (nothing : received main state = [])
  | apart (tester : Nat) (phase work : Phase ThreadFunction Unit) (pair : Pair main tester state)
      (found : state.phase main = some phase) (starting : Starting phase)
      (other : state.phase tester = some work) (working : Working tester work)
      (empty : state.ipc.channels.channel .fin = .empty) (nothing : received main state = [])
  | asking (tester : Nat) (work : Phase ThreadFunction Unit) (pair : Pair main tester state)
      (found : state.phase main = some (.waiting (.receive 3) fun _ => .done ()))
      (other : state.phase tester = some work) (working : Working tester work)
      (parked : state.ipc.channels.channel .fin = .receiving main none) (nothing : received main state = [])
  | offering (tester : Nat) (phase : Phase ThreadFunction Unit) (pair : Pair main tester state)
      (found : state.phase main = some phase) (starting : Starting phase)
      (other : state.phase tester = some (.waiting (.send 3 (idPacket tester)) afterFin))
      (offer : state.ipc.channels.channel .fin = .sending (some tester) (idPacket tester)) (nothing : received main state = [])
  | passed (tester : Nat) (pair : Pair main tester state) (empty : state.ipc.channels.channel .fin = .empty)
      (shell : (∃ since, state.phase main = some (.waiting (.receive 3) fun _ => .done ()) ∧ received main state = [] ∧
          state.ipc.channels.ticket main = some ⟨some .fin, .receive main, since, some (.packet (idPacket tester))⟩) ∨
        state.phase main = some (.ready (.done ())) ∧ received main state = [UInt64.ofNat tester])
      (worker : (∃ since, state.phase tester = some (.waiting (.send 3 (idPacket tester)) afterFin) ∧
          state.ipc.channels.ticket tester =
            some ⟨some .fin, .send (some tester) (idPacket tester), since, some .sent⟩) ∨
        state.phase tester = some (.ready .threadExit))

/-- No message of a tester has been refused. -/
def Unrefused (state : World) : Prop :=
  ∀ id message result, (id, .send 3 message, result) ∈ state.returned → result = .ok none

/-! ### Moves -/

/-- Nothing happens at the socket the shell waits at, and no thread is started. -/
structure Quiet (main : Nat) (acting : Option Nat) (before after : World) : Prop extends Still .fin acting before after where
  received : received main after = received main before
  started : after.started = before.started

section Quiet

variable {main tester : Nat} {acting : Option Nat} {state later : World}

theorem Pair.kept (pair : Pair main tester state) (started : later.started = state.started)
    (phases : ∀ id, id ≠ main → id ≠ tester → later.phase id = state.phase id) : Pair main tester later :=
  ⟨pair.other, started.trans pair.started, fun id first second => (phases id first second).trans (pair.only id first second)⟩

theorem Pair.quiet (pair : Pair main tester state) (quiet : Quiet main acting state later)
    (party : ∀ id ∈ acting, id = main ∨ id = tester) : Pair main tester later :=
  pair.kept quiet.started fun id first second => quiet.phase id fun same => (party id same.symm).elim first second

/-- Something happens that is none of the programs' business. -/
theorem Stage.still (stage : Stage main state) (quiet : Quiet main none state later) : Stage main later := by
  have kept (id : Nat) : later.phase id = state.phase id := quiet.phase id nofun
  cases stage with
  | alone program found first others started empty nothing =>
    exact .alone program ((kept _).trans found) first (fun id other => (kept id).trans (others id other))
      (quiet.started.trans started) (quiet.channel.trans empty) (quiet.received.trans nothing)
  | apart tester phase work pair found starting other working empty nothing =>
    exact .apart tester phase work (pair.quiet quiet nofun) ((kept _).trans found) starting ((kept _).trans other) working
      (quiet.channel.trans empty) (quiet.received.trans nothing)
  | asking tester work pair found other working parked nothing =>
    exact .asking tester work (pair.quiet quiet nofun) ((kept _).trans found) ((kept _).trans other) working
      (quiet.channel.trans parked) (quiet.received.trans nothing)
  | offering tester phase pair found starting other offer nothing =>
    exact .offering tester phase (pair.quiet quiet nofun) ((kept _).trans found) starting ((kept _).trans other)
      (quiet.channel.trans offer) (quiet.received.trans nothing)
  | passed tester pair empty shell worker =>
    refine .passed tester (pair.quiet quiet nofun) (quiet.channel.trans empty) (shell.imp ?_ ?_) (worker.imp ?_ ?_)
    · rintro ⟨since, found, nothing, ticket⟩
      exact ⟨since, (kept _).trans found, quiet.received.trans nothing,
        quiet.ticket main _ nofun (found ▸ Option.some_ne_none _) ticket rfl⟩
    · exact fun ⟨found, one⟩ => ⟨(kept _).trans found, quiet.received.trans one⟩
    · rintro ⟨since, found, ticket⟩
      exact ⟨since, (kept _).trans found, quiet.ticket tester _ nofun (found ▸ Option.some_ne_none _) ticket rfl⟩
    · exact fun found => (kept _).trans found

/-- The shell goes on before its receive. -/
theorem Stage.main_moves (stage : Stage main state) (quiet : Quiet main (some main) state later)
    {phase next : Phase ThreadFunction Unit} (found : state.phase main = some phase) (starting : Starting phase)
    (now : later.phase main = some next) (still : Starting next) : Stage main later := by
  have kept {id : Nat} (other : id ≠ main) : later.phase id = state.phase id :=
    quiet.phase id fun same => other (Option.some.inj same)
  cases stage with
  | alone program known first =>
    cases known.symm.trans found
    rcases first with rfl | rfl <;> cases starting
  | apart tester earlier work pair _ _ other working empty nothing =>
    exact .apart tester next work (pair.quiet quiet fun id same => .inl (Option.some.inj same).symm) now still
      ((kept pair.other).trans other) working (quiet.channel.trans empty) (quiet.received.trans nothing)
  | asking tester work pair known =>
    cases known.symm.trans found
    cases starting
  | offering tester earlier pair _ _ other offer nothing =>
    exact .offering tester next (pair.quiet quiet fun id same => .inl (Option.some.inj same).symm) now still
      ((kept pair.other).trans other) (quiet.channel.trans offer) (quiet.received.trans nothing)
  | passed tester pair empty shell worker =>
    rcases shell with ⟨_, known, _⟩ | ⟨known, _⟩
    · cases known.symm.trans found
      cases starting
    · cases known.symm.trans found
      cases starting

theorem Stage.tester_moves (stage : Stage main state) (quiet : Quiet main (some tester) state later) (other : tester ≠ main)
    {phase next : Phase ThreadFunction Unit} (found : state.phase tester = some phase) (working : Working tester phase)
    (now : later.phase tester = some next) (still : Working tester next) : Stage main later := by
  have kept : later.phase main = state.phase main := quiet.phase main fun same => other (Option.some.inj same).symm
  have only {worker : Nat} (pair : Pair main worker state) : worker = tester := by
    by_contra differs
    cases (pair.only tester other (Ne.symm differs)).symm.trans found
  have party : ∀ id, id ∈ some tester → id = main ∨ id = tester := fun id same => .inr (Option.some.inj same).symm
  cases stage with
  | alone program _ _ others => cases (others tester other).symm.trans found
  | apart worker earlier work pair known starting _ _ empty nothing =>
    obtain rfl := only pair
    exact .apart worker earlier next (pair.quiet quiet party) (kept.trans known) starting now still
      (quiet.channel.trans empty) (quiet.received.trans nothing)
  | asking worker work pair known _ _ parked nothing =>
    obtain rfl := only pair
    exact .asking worker next (pair.quiet quiet party) (kept.trans known) now still (quiet.channel.trans parked)
      (quiet.received.trans nothing)
  | offering worker earlier pair _ _ waits =>
    obtain rfl := only pair
    cases waits.symm.trans found
    cases working
  | passed worker pair empty shell worker =>
    obtain rfl := only pair
    rcases worker with ⟨_, waits, _⟩ | exits
    · cases waits.symm.trans found
      cases working
    · cases exits.symm.trans found
      exact absurd working not_working_threadExit

end Quiet

section AtTheSocket

variable {main tester : Nat} {state later : World} {current : Thread}

/-- The shell starts its tester. -/
theorem Stage.spawns (stage : Stage main state) (sound : state.Sound)
    (running : state.ipc.kernel.runningThread = some current) (own : current.threadId = main) {func : ThreadFunction}
    {next : Except UInt64 UInt64 → Code Unit} (found : state.phase main = some (.ready (.threadSpawn func next)))
    (address : Nat) (registers : ISF) {memory : Kernel.ForkMemory}
    (succeeds : memory.stack ≠ none ∧ state.ipc.kernel.counter + 2 < 2 ^ 64) :
    Stage main (state.spawn body current func next address registers memory) := by
  have bound : main ≤ state.ipc.kernel.counter := sound.known (found ▸ Option.some_ne_none _)
  have still := still_systemCall .fin sound none List.mem_cons_self address registers memory
  rw [spawn_ok address registers running succeeds]
  subst own
  cases stage with
  | alone program known first others started empty nothing =>
    cases known.symm.trans found
    rcases first with first | first
    · cases first
    cases first
    refine .apart (state.ipc.kernel.counter + 2) _ _ ⟨by omega, ?_, fun id notMain notTester => ?_⟩
      ((Function.update_of_ne (by omega) _ _).trans (Function.update_self ..)) (.telling _) (Function.update_self ..)
      (threadEntry_tester ▸ .entering) (still.channel.trans empty) nothing
    · change state.started ++ _ = _
      rw [started]
      rfl
    · refine (Function.update_of_ne notTester _ _).trans ((Function.update_of_ne notMain _ _).trans ?_)
      exact others id notMain
  | apart _ _ _ _ known starting =>
    cases known.symm.trans found
    cases starting
  | asking _ _ _ known => cases known.symm.trans found
  | offering _ _ _ known starting =>
    cases known.symm.trans found
    cases starting
  | passed _ _ _ shell =>
    rcases shell with ⟨_, known, _⟩ | ⟨known, _⟩ <;> cases known.symm.trans found

/-- The shell waits for its tester, or finds it waiting. -/
theorem Stage.receives (stage : Stage main state) (sound : state.Sound)
    (found : state.phase main = some (.ready (receiveFin 1)))
    (calls : Calls .fin main (.receive 3) (fun _ => .done ()) state later) (log : received main later = received main state)
    (starts : later.started = state.started) : Stage main later := by
  have pairs {tester : Nat} (pair : Pair main tester state) : Pair main tester later :=
    pair.kept starts fun id first _ => calls.others first
  have channel := calls.channel
  have receiver := calls.ticket
  dsimp only [ApiCall.visit] at channel receiver
  cases stage with
  | alone program known first =>
    cases known.symm.trans found
    rcases first with first | first <;> cases first
  | asking _ _ _ known => cases known.symm.trans found
  | passed _ _ _ shell =>
    rcases shell with ⟨_, known, _⟩ | ⟨known, _⟩ <;> cases known.symm.trans found
  | apart tester phase work pair _ _ other working empty nothing =>
    rw [empty] at channel
    exact .asking tester work (pairs pair) calls.own ((calls.others pair.other).trans other) working channel
      (log.trans nothing)
  | offering tester phase pair _ _ other offer nothing =>
    obtain ⟨since, ticket⟩ : ∃ since, state.ipc.channels.ticket tester =
        some ⟨some .fin, .send (some tester) (idPacket tester), since, none⟩ := by
      have occupied := sound.refines.coherent.occupied .fin
      rw [offer] at occupied
      exact occupied.2 tester rfl
    have meets : (state.ipc.channels.channel .fin).visit (.receive main) = complete (some tester) (idPacket tester) main := by
      rw [offer]
      rfl
    have sender := calls.partner pair.other ticket
    dsimp only [ApiCall.visit] at sender
    rw [meets] at channel receiver sender
    rw [lookup_complete, if_pos rfl] at receiver
    rw [lookup_complete, if_neg pair.other.symm, if_pos rfl] at sender
    exact .passed tester (pairs pair) channel (.inl ⟨_, calls.own, log.trans nothing, receiver⟩)
      (.inl ⟨since, (calls.others pair.other).trans other, sender⟩)

/-- The tester offers its message, or finds the shell waiting. -/
theorem Stage.sends (stage : Stage main state) (sound : state.Sound) (notMain : tester ≠ main)
    (found : state.phase tester = some (.ready (finishing 0 (UInt64.ofNat tester))))
    (calls : Calls .fin tester (.send 3 (idPacket tester)) afterFin state later)
    (log : received main later = received main state) (starts : later.started = state.started) : Stage main later := by
  have only {worker : Nat} (pair : Pair main worker state) : worker = tester := by
    by_contra differs
    cases (pair.only tester notMain (Ne.symm differs)).symm.trans found
  have pairs (pair : Pair main tester state) : Pair main tester later :=
    pair.kept starts fun id _ second => calls.others second
  have channel := calls.channel
  have sender := calls.ticket
  dsimp only [ApiCall.visit] at channel sender
  rw [finishing_zero] at found
  cases stage with
  | alone program _ _ others => cases (others tester notMain).symm.trans found
  | offering worker _ pair _ _ waits =>
    obtain rfl := only pair
    cases waits.symm.trans found
  | passed worker pair _ _ ends =>
    obtain rfl := only pair
    rcases ends with ⟨_, waits, _⟩ | exits
    · cases waits.symm.trans found
    · cases exits.symm.trans found
  | apart worker phase work pair known starting _ _ empty nothing =>
    obtain rfl := only pair
    rw [empty] at channel
    exact .offering worker phase (pairs pair) ((calls.others notMain.symm).trans known) starting calls.own channel
      (log.trans nothing)
  | asking worker work pair known _ _ parked nothing =>
    obtain rfl := only pair
    obtain ⟨since, ticket⟩ : ∃ since, state.ipc.channels.ticket main = some ⟨some .fin, .receive main, since, none⟩ := by
      have occupied := sound.refines.coherent.occupied .fin
      rwa [parked] at occupied
    have meets : (state.ipc.channels.channel .fin).visit (.send (some worker) (idPacket worker)) =
        complete (some worker) (idPacket worker) main := by
      rw [parked, Channel.visit, if_pos (Or.inl rfl)]
    have receiver := calls.partner notMain.symm ticket
    dsimp only [ApiCall.visit] at receiver
    rw [meets] at channel sender receiver
    rw [lookup_complete, if_pos rfl] at receiver
    rw [lookup_complete, if_neg notMain.symm, if_pos rfl] at sender
    exact .passed worker (pairs pair) channel
      (.inl ⟨since, (calls.others notMain.symm).trans known, log.trans nothing, receiver⟩) (.inl ⟨_, calls.own, sender⟩)

theorem received_returns (main : Nat) (state : World) (id : Nat) (call : ApiCall)
    (next : Except UInt64 (Option Message) → Code Unit) (result : Except UInt64 (Option Message)) :
    received main (state.returns id call next result) = received main state ++ (reported main (id, call, result)).toList := by
  change (state.returned ++ [_]).filterMap _ = _
  rw [List.filterMap_append]
  cases given : reported main (id, call, result) <;> simp [received, given]

theorem quiet_returns {id : Nat} {call : ApiCall} (next : Except UInt64 (Option Message) → Code Unit)
    {result : Except UInt64 (Option Message)} (silent : reported main (id, call, result) = none) :
    Quiet main (some id) state (state.returns id call next result) := by
  refine ⟨still_returns id _ _ _, ?_, rfl⟩
  rw [received_returns, silent]
  exact List.append_nil _

theorem Stage.main_resumes (stage : Stage main state) (sound : state.Sound)
    (running : state.ipc.kernel.runningThread = some current) (own : current.threadId = main) {call : ApiCall}
    {next : Except UInt64 (Option Message) → Code Unit} (waits : state.phase main = some (.waiting call next)) :
    Stage main (state.returns main call next (call.result current.frame)) := by
  subst own
  obtain ⟨place, since, answer, ticket, _, result⟩ := sound.result running waits
  have occupied := sound.refines.coherent.occupied .fin
  have told {phase : Phase ThreadFunction Unit} (found : state.phase current.threadId = some phase)
      (starting : Starting phase) :
      Stage current.threadId (state.returns current.threadId call next (call.result current.frame)) := by
    cases found.symm.trans waits
    cases starting with
    | told message =>
      exact stage.main_moves (quiet_returns _ rfl) waits (.told message) (Function.update_self ..) .receiving
  cases stage with
  | alone program known => cases known.symm.trans waits
  | apart _ _ _ _ known starting => exact told known starting
  | offering _ _ _ known starting => exact told known starting
  | asking tester work pair known _ _ parked =>
    cases known.symm.trans waits
    rw [parked] at occupied
    obtain ⟨_, silent⟩ := occupied
    cases silent.symm.trans ticket
  | passed tester pair empty shell worker =>
    rcases shell with ⟨_, known, nothing, answered⟩ | ⟨known, _⟩
    · cases known.symm.trans waits
      cases answered.symm.trans ticket
      rw [result]
      have kept : (state.returns current.threadId (.receive 3) (fun _ => .done ())
          (Answer.packet (idPacket tester)).result).phase tester = state.phase tester :=
        Function.update_of_ne pair.other _ _
      refine .passed tester (pair.kept rfl fun id first _ => Function.update_of_ne first _ _) empty
        (.inr ⟨Function.update_self .., ?_⟩) (worker.imp ?_ ?_)
      · rw [received_returns, nothing]
        simp [reported, Answer.result, idPacket]
      · rintro ⟨since, found, sent⟩
        exact ⟨since, kept.trans found, sent⟩
      · exact fun found => kept.trans found
    · cases known.symm.trans waits

theorem Stage.tester_resumes (stage : Stage main state) (sound : state.Sound) (handing : Handing main state)
    (running : state.ipc.kernel.runningThread = some current) (other : current.threadId ≠ main) {call : ApiCall}
    {next : Except UInt64 (Option Message) → Code Unit} (waits : state.phase current.threadId = some (.waiting call next)) :
    Stage main (state.returns current.threadId call next (call.result current.frame)) ∧
      ∀ message, call = .send 3 message → call.result current.frame = .ok none := by
  obtain ⟨place, since, answer, ticket, _, result⟩ := sound.result running waits
  have occupied := sound.refines.coherent.occupied .fin
  have only {worker : Nat} (pair : Pair main worker state) : worker = current.threadId := by
    by_contra differs
    cases (pair.only current.threadId other (Ne.symm differs)).symm.trans waits
  have learnt {work : Phase ThreadFunction Unit} (found : state.phase current.threadId = some work)
      (working : Working current.threadId work) :
      Stage main (state.returns current.threadId call next (call.result current.frame)) ∧
        ∀ message, call = .send 3 message → call.result current.frame = .ok none := by
    cases found.symm.trans waits
    cases working with
    | asking =>
      have id := (handing.result sound running waits rfl).2 other
      refine ⟨stage.tester_moves (quiet_returns learns ?_) other waits .asking (Function.update_self ..) ?_, nofun⟩
      · rw [id]
        exact if_neg fun both => other both.1
      · rw [id]
        exact .yielding 10
  cases stage with
  | alone program _ _ others => cases (others _ other).symm.trans waits
  | apart worker _ work pair _ _ found working =>
    obtain rfl := only pair
    exact learnt found working
  | asking worker work pair _ found working =>
    obtain rfl := only pair
    exact learnt found working
  | offering worker _ pair _ _ found offer =>
    obtain rfl := only pair
    rw [offer] at occupied
    obtain ⟨_, silent⟩ := occupied.2 current.threadId rfl
    cases found.symm.trans waits
    cases silent.symm.trans ticket
  | passed worker pair empty shell ends =>
    obtain rfl := only pair
    rcases ends with ⟨_, found, sent⟩ | found
    · cases found.symm.trans waits
      cases sent.symm.trans ticket
      rw [result]
      have kept : (state.returns current.threadId (.send 3 (idPacket current.threadId)) afterFin
          (Answer.sent).result).phase main = state.phase main := Function.update_of_ne other.symm _ _
      have log : received main (state.returns current.threadId (.send 3 (idPacket current.threadId)) afterFin
          (Answer.sent).result) = received main state := (quiet_returns afterFin rfl).received
      refine ⟨.passed current.threadId (pair.kept rfl fun id _ second => Function.update_of_ne second _ _) empty
        (shell.imp ?_ ?_) (.inr (Function.update_self ..)), fun _ _ => rfl⟩
      · exact fun ⟨since, known, nothing, answered⟩ => ⟨since, kept.trans known, log.trans nothing, answered⟩
      · exact fun ⟨known, one⟩ => ⟨kept.trans known, log.trans one⟩
    · cases found.symm.trans waits

/-- The shell makes no call with the handle of the testers' messages but to receive. -/
theorem Stage.main_waits (stage : Stage main state) {message : Message}
    {next : Except UInt64 (Option Message) → Code Unit} : state.phase main ≠ some (.waiting (.send 3 message) next) := by
  intro waits
  cases stage with
  | alone program known => cases known.symm.trans waits
  | apart _ _ _ _ known starting | offering _ _ _ known starting =>
    cases known.symm.trans waits
    cases starting
  | asking _ _ _ known => cases known.symm.trans waits
  | passed _ _ _ shell =>
    rcases shell with ⟨_, known, _⟩ | ⟨known, _⟩ <;> cases known.symm.trans waits

theorem Stage.resume (stage : Stage main state) (sound : state.Sound) (handing : Handing main state)
    (unrefused : Unrefused state) : Stage main state.resume ∧ Unrefused state.resume := by
  rcases state.resume_cases with same | ⟨current, call, next, running, waits, same⟩
  · rw [same]
    exact ⟨stage, unrefused⟩
  rw [same]
  have told (last : ∀ message, call = .send 3 message → call.result current.frame = .ok none) :
      Unrefused (state.returns current.threadId call next (call.result current.frame)) := by
    intro id message result member
    rcases List.mem_append.mp member with old | new
    · exact unrefused id message result old
    · have equal := List.mem_singleton.mp new
      have asked : call = .send 3 message := (congrArg (fun entry => entry.2.1) equal).symm
      have given : result = call.result current.frame := congrArg (fun entry => entry.2.2) equal
      exact given.trans (last message asked)
  by_cases own : current.threadId = main
  · subst own
    refine ⟨stage.main_resumes sound running rfl waits, told fun message asked => ?_⟩
    subst asked
    exact absurd waits stage.main_waits
  · obtain ⟨later, last⟩ := stage.tester_resumes sound handing running own waits
    exact ⟨later, told last⟩

theorem Stage.main_ready (stage : Stage main state) {program : Code Unit}
    (found : state.phase main = some (.ready program)) :
    program = .done () ∨ (∃ func next, program = .threadSpawn func next) ∨
      (∃ message, program = .call (.send 2 message) fun _ => receiveFin 1) ∨ program = receiveFin 1 := by
  have starts {phase : Phase ThreadFunction Unit} (known : state.phase main = some phase) (starting : Starting phase) :
      (∃ message, program = .call (.send 2 message) fun _ => receiveFin 1) ∨ program = receiveFin 1 := by
    cases known.symm.trans found
    cases starting with
    | telling message => exact .inl ⟨message, rfl⟩
    | receiving => exact .inr rfl
  cases stage with
  | alone own known first =>
    cases known.symm.trans found
    rcases first with rfl | rfl
    · exact .inl rfl
    · exact .inr (.inl ⟨_, _, rfl⟩)
  | apart _ _ _ _ known starting => exact .inr (.inr (starts known starting))
  | offering _ _ _ known starting => exact .inr (.inr (starts known starting))
  | asking _ _ _ known => cases known.symm.trans found
  | passed _ _ _ shell =>
    rcases shell with ⟨_, known, _⟩ | ⟨known, _⟩
    · cases known.symm.trans found
    · cases known.symm.trans found
      exact .inl rfl

theorem Stage.tester_ready (stage : Stage main state) (other : tester ≠ main) {program : Code Unit}
    (found : state.phase tester = some (.ready program)) :
    Working tester (.ready program) ∨ program = .threadExit := by
  have only {worker : Nat} (pair : Pair main worker state) : worker = tester := by
    by_contra differs
    cases (pair.only tester other (Ne.symm differs)).symm.trans found
  cases stage with
  | alone own _ _ others => cases (others tester other).symm.trans found
  | apart worker _ _ pair _ _ known working =>
    obtain rfl := only pair
    cases known.symm.trans found
    exact .inl working
  | asking worker _ pair _ known working =>
    obtain rfl := only pair
    cases known.symm.trans found
    exact .inl working
  | offering worker _ pair _ _ known =>
    obtain rfl := only pair
    cases known.symm.trans found
  | passed worker pair _ _ ends =>
    obtain rfl := only pair
    rcases ends with ⟨_, known, _⟩ | known
    · cases known.symm.trans found
    · cases known.symm.trans found
      exact .inr rfl

theorem Stage.proceed {home : Nat} (stage : Stage main state) (sound : state.Sound)
    (team : state.Team home fun handle => resources[handle]?) {program : Code Unit}
    (running : state.running = some (current, program)) (address : Nat) (registers : ISF) {memory : Kernel.ForkMemory}
    (succeeds : ∀ func next, program = .threadSpawn func next →
      memory.stack ≠ none ∧ state.ipc.kernel.counter + 2 < 2 ^ 64) :
    Stage main (state.proceed body current address registers memory program) := by
  obtain ⟨runs, found⟩ := running_eq_some running
  have handles := team.getSockets runs (found ▸ Option.some_ne_none _)
  have away {call : ApiCall} (two : call.handle = 2) : state.ipc.kernel.getSockets current call.handle ≠ some .fin := by
    rw [handles, two]
    nofun
  have still {number : UInt64} (silent : number ∈ [0, 1, 9]) (acting : Option Nat) :=
    still_systemCall .fin sound acting silent address registers memory
  by_cases own : current.threadId = main
  · subst own
    rcases stage.main_ready found with rfl | ⟨func, next, rfl⟩ | ⟨message, rfl⟩ | rfl
    · exact stage
    · exact stage.spawns sound runs rfl found address registers (succeeds func next rfl)
    · exact stage.main_moves ⟨still_call sound runs (away rfl) address registers _, rfl, rfl⟩ found (.telling message)
        (Function.update_self ..) (.told message)
    · exact stage.receives sound found (calls_act runs (handles _) address registers _) rfl rfl
  · rcases stage.tester_ready own found with working | rfl
    · generalize same : Phase.ready program = phase at working
      cases working with
      | asking => cases same
      | entering =>
        cases same
        exact stage.tester_moves ⟨still_call sound runs (away rfl) address registers _, rfl, rfl⟩ own found .entering
          (Function.update_self ..) .asking
      | yielding times =>
        cases same
        cases times with
        | zero =>
          have calls := calls_act runs (handles (ApiCall.send 3 (idPacket current.threadId)).handle) address registers afterFin
          rw [finishing_zero]
          exact stage.sends sound own found calls rfl rfl
        | succ times =>
          exact stage.tester_moves ⟨(still (by simp) _).setPhase _, rfl, rfl⟩ own found (.yielding (times + 1))
            (Function.update_self ..) (.yielding times)
    · exact stage.still ⟨still (by simp) none, rfl, rfl⟩

theorem Stage.step {home : Nat} {shared : BootSocket → Prop} {later : World} {event : ProgramEvent BootSocket}
    (stage : Stage main state) (unrefused : Unrefused state) (coordinated : Coordinated main home state)
    (step : Execution.Step body shared state event later) (ids : shared .id) (fins : shared .fin) :
    Stage main later ∧ Unrefused later := by
  obtain ⟨sound, settled, team, handing, _, _⟩ := coordinated
  obtain ⟨permitted, rfl⟩ := step
  cases event with
  | other action =>
    have apart {id : Nat} (own : state.phase id ≠ none) : state.Apart (.other action) id := by
      obtain ⟨phase, found⟩ := Option.ne_none_iff_exists'.mp own
      exact Execution.apart_of_permitted permitted found
    have still {name : BootSocket} (known : shared name) : Still name none state (state.act (.other action)) :=
      still_act sound (Execution.elsewhere_of_permitted permitted known) fun _ _ => apart
    have acted : Stage main (state.act (.other action)) := stage.still ⟨still fins, rfl, rfl⟩
    have fits := sound.act settled fun id program found => apart (found ▸ Option.some_ne_none (Phase.ready program))
    exact acted.resume fits (handing.still (still ids)) unrefused
  | proceed address registers memory =>
    unfold Execution.after
    cases running : state.running with
    | none => exact ⟨stage, unrefused⟩
    | some pair =>
      obtain ⟨current, program⟩ := pair
      have succeeds func next (same : program = .threadSpawn func next) := permitted current func next (same ▸ running)
      have acted := stage.proceed sound team running address registers succeeds
      have told : Unrefused (state.proceed body current address registers memory program) := by
        unfold Unrefused
        rw [returned_proceed]
        exact unrefused
      exact acted.resume (sound.proceed address registers memory body settled running)
        (handing.proceed sound team running address registers succeeds) told

theorem Stage.of_run {home : Nat} {shared : BootSocket → Prop} {start : World}
    {events : List (ProgramEvent BootSocket)} (stage : Stage main start) (unrefused : Unrefused start)
    (coordinated : Coordinated main home start) (run : Run (Execution.Step body shared) start events state)
    (ids : shared .id) (fins : shared .fin) : Stage main state ∧ Unrefused state := by
  induction run with
  | nil => exact ⟨stage, unrefused⟩
  | snoc earlier last ih => exact ih.1.step ih.2 (coordinated.of_run earlier ids) last ids fins

/-- When the shell is done it has been told of its tester. -/
theorem Stage.counted (stage : Stage main state) (done : state.phase main = some (.ready (.done ()))) :
    received main state = state.started.map fun entry => UInt64.ofNat entry.1 := by
  cases stage with
  | alone _ _ _ _ started _ nothing => rw [started, nothing, List.map_nil]
  | apart _ _ _ _ found starting | offering _ _ _ found starting =>
    cases found.symm.trans done
    cases starting
  | asking _ _ _ found => cases found.symm.trans done
  | passed tester pair _ shell =>
    rcases shell with ⟨_, found, _⟩ | ⟨_, counted⟩
    · cases found.symm.trans done
    · rw [counted, pair.started, List.map_cons, List.map_nil]

end AtTheSocket

theorem stage_launch {before : IpcState BootSocket} {current : Thread} (starts : Starts before current)
    (empty : before.kernel.socket .fin = .empty) {num : Nat} (few : num ≤ 1) :
    Stage current.threadId (Execution.launch before current.threadId (callBasicThreads num)) := by
  have channel := starts.refines.channels .fin
  rw [empty] at channel
  have first : callBasicThreads num = callBasicThreads 0 ∨ callBasicThreads num = callBasicThreads 1 := by
    rcases Nat.le_one_iff_eq_zero_or_eq_one.mp few with rfl | rfl
    · exact .inl rfl
    · exact .inr rfl
  exact .alone _ (Function.update_self ..) first (fun _ other => Function.update_of_ne other _ _) rfl channel.symm rfl

/-! ### More than one tester -/

/-- A tick, or a system call of the running program with memory for a new thread. -/
def unhindered (state : World) : ProgramEvent BootSocket → Bool
  | .proceed _ _ memory => memory.stack.isSome && decide (state.ipc.kernel.counter + 2 < 2 ^ 64)
  | .other (.timer _) => true
  | .other _ => false

def allUnhindered (state : World) : List (ProgramEvent BootSocket) → Bool
  | [] => true
  | event :: events => unhindered state event && allUnhindered (state.after body event) events

theorem permitted_of_unhindered {state : World} {event : ProgramEvent BootSocket} (free : unhindered state event)
    (shared : BootSocket → Prop) : state.Permitted shared event := by
  cases event with
  | proceed address registers memory =>
    obtain ⟨room, small⟩ := Bool.and_eq_true_iff.mp free
    exact fun _ _ _ _ => ⟨Option.isSome_iff_ne_none.mp room, of_decide_eq_true small⟩
  | other action =>
    cases action with
    | timer context => exact ⟨fun _ _ _ => trivial, nofun⟩
    | _ => cases free

theorem run_of_unhindered (shared : BootSocket → Prop) (state : World) {events : List (ProgramEvent BootSocket)}
    (free : allUnhindered state events) :
    Run (Execution.Step body shared) state events (events.foldl (Execution.after body) state) := by
  induction events generalizing state with
  | nil => exact .nil
  | cons event events ih =>
    obtain ⟨first, rest⟩ := Bool.and_eq_true_iff.mp free
    exact .cons ⟨permitted_of_unhindered first shared, rfl⟩ (ih _ rest)

private def turn : ProgramEvent BootSocket := shellTurn 0x30000033000 0x444444460000

private def tick : ProgramEvent BootSocket := .other (.timer ⟨0x444444452f60, IpcState.userRegisters⟩)

/-- The main thread is about to call `call_basic_threads`. Two testers are started and get their
ids. From then on the timer stops the main thread as soon as it runs, and the kernel thread after
it, until both testers have yielded ten times and each sends its message. -/
private def crowdEvents : List (ProgramEvent BootSocket) :=
  [turn, turn, tick, turn, tick] ++ [shellTurn 0x30000043000 0x444444470000, turn, tick, turn, turn, turn] ++
    (List.replicate 10 [tick, tick, turn, turn]).flatten

private def crowdEnd (others : Nat) : World :=
  crowdEvents.foldl (Execution.after body) (.launch shellStart 2 (callBasicThreads (others + 2)))

private theorem crowd_unhindered (others : Nat) :
    allUnhindered (.launch shellStart 2 (callBasicThreads (others + 2))) crowdEvents := by
  cbv

/-- The first tester still waits at the socket when the second one sends. -/
private theorem crowd_refuses (others : Nat) :
    (crowdEnd others).returned.getLast? = some (7, .send 3 (.packet 7 0 0), .error 1) := by
  cbv

/-- However `call_basic_threads` and the testers it starts are interleaved, no message of a tester is
refused, and at its end the main thread has received the id of each tester once. -/
def EveryCompletionCounted (num : Nat) : Prop :=
  ∀ (before : IpcState BootSocket) (current : Thread), Starts before current → before.kernel.socket .fin = .empty →
    ∀ (events : List (ProgramEvent BootSocket)) (state : World),
      Run (Execution.Step body fun name => name = .id ∨ name = .fin)
        (.launch before current.threadId (callBasicThreads num)) events state →
      Unrefused state ∧ (state.phase current.threadId = some (.ready (.done ())) →
        (received current.threadId state).Perm (state.started.map fun entry => UInt64.ofNat entry.1))

theorem not_counted_of_crowd (others : Nat) : ¬ EveryCompletionCounted (others + 2) := by
  intro counted
  have run := run_of_unhindered (fun name => name = .id ∨ name = .fin) _ (crowd_unhindered others)
  have unrefused := (counted shellStart _ starts_shellStart rfl crowdEvents (crowdEnd others) run).1
  cases unrefused 7 _ _ (List.mem_of_getLast? (crowd_refuses others))

/-- The main thread counts its testers right exactly when there is at most one of them. -/
theorem every_completion_counted_iff (num : Nat) : EveryCompletionCounted num ↔ num ≤ 1 := by
  constructor
  · intro counted
    by_contra many
    obtain ⟨others, rfl⟩ := Nat.exists_eq_add_of_le' (Nat.lt_of_not_le many)
    exact not_counted_of_crowd others counted
  · intro few before current starts empty events state run
    have announces : Announces (callBasicThreads num) := announces_startTesters num (announces_receiveFin num)
    obtain ⟨stage, unrefused⟩ := (stage_launch starts empty few).of_run nofun (coordinated_launch starts announces) run
      (.inl rfl) (.inr rfl)
    exact ⟨unrefused, fun done => stage.counted done ▸ .refl _⟩

/-- The key `b` starts three testers. -/
theorem every_completion_counted_three :
    (7, .send 3 (.packet 7 0 0), .error 1) ∈ (crowdEnd 1).returned ∧ ¬ EveryCompletionCounted 3 :=
  ⟨List.mem_of_getLast? (crowd_refuses 1), not_counted_of_crowd 1⟩

end Zephyr.Bin
