import Zephyr.Proc.Execution

/-! `send_and_wait_for_receive` among other threads: however often it tries, its request is
delivered at most once. -/

namespace Zephyr

open Transition Rendezvous

variable {σ ε : Type}

/-- A call of `send_and_wait_for_receive`, with the number of messages that had passed before. -/
structure Request where
  caller : Nat
  fileDescriptor : UInt32
  data1 : UInt64
  data2 : UInt64
  data3 : UInt64
  expectedData1 : Option UInt64
  since : Nat

namespace Request

variable (request : Request)

def message : Message := .packet request.data1 request.data2 request.data3

def program : Program ε (Except UInt64 (UInt64 × UInt64 × UInt64)) :=
  sendAndWaitForReceive request.expectedData1 request.fileDescriptor request.data1 request.data2 request.data3

/-- What follows a refusal, by the number of retries that are left. -/
def again : Nat → Program ε (Except UInt64 (UInt64 × UInt64 × UInt64))
  | 0 => .done (.error 2)
  | retries + 1 => attempts request.expectedData1 request.fileDescriptor request.message retries

theorem attempts_eq (retries : Nat) :
    (attempts request.expectedData1 request.fileDescriptor request.message retries :
      Program ε (Except UInt64 (UInt64 × UInt64 × UInt64))) =
    .call (.sendReceive request.fileDescriptor request.message)
      (afterAttempt request.expectedData1 (request.again retries)) := by
  cases retries <;> rfl

def sent (transfers : List (Transfer σ Message)) : List (Transfer σ Message) :=
  sentSince transfers request.caller request.since

def got (transfers : List (Transfer σ Message)) : List (Transfer σ Message) :=
  gotSince transfers request.caller request.since

def attempted {α : Type} (state : Execution σ ε α) : List (Nat × ApiCall × Except UInt64 (Option Message)) :=
  state.returned.filter fun entry => entry.1 = request.caller

theorem attempted_returns {α : Type} (state : Execution σ ε α) (call : ApiCall)
    (next : Except UInt64 (Option Message) → Program ε α) (result : Except UInt64 (Option Message)) :
    (request.attempted (state.returns request.caller call next result)).length =
      (request.attempted state).length + 1 := by
  simp [attempted, Execution.returns]

def made {α : Type} (state : Execution σ ε α) : Nat :=
  (request.attempted state).length + match state.phase request.caller with
    | some (.waiting _ _) => 1
    | _ => 0

/-- The result of the call tells what has passed for it. -/
structure Honoured (reply : Except UInt64 (UInt64 × UInt64 × UInt64)) (sent got : List (Transfer σ Message)) : Prop where
  once : sent.length ≤ 1
  own : ∀ passed ∈ sent, passed.message = request.message
  replied : ∀ data1 data2 data3, reply = .ok (data1, data2, data3) → ∃ place receiver,
    sent = [⟨place, some request.caller, request.message, receiver⟩] ∧
    got = [⟨place, some receiver, .packet data1 data2 data3, request.caller⟩] ∧
    ∀ expected ∈ request.expectedData1, data1 = expected

theorem honoured_error (code : UInt64) {sent got : List (Transfer σ Message)} (nothing : sent = []) :
    request.Honoured (.error code) sent got := by
  subst nothing
  exact ⟨Nat.zero_le _, nofun, nofun⟩

/-- How far the call has come. -/
inductive Stands (state : Execution σ ε (Except UInt64 (UInt64 × UInt64 × UInt64))) : Prop where
  | ready (retries : Nat)
      (phase : state.phase request.caller =
        some (.ready (attempts request.expectedData1 request.fileDescriptor request.message retries)))
      (count : (request.attempted state).length + retries = maxRetries)
      (sent : request.sent state.ipc.channels.transfers = []) (got : request.got state.ipc.channels.transfers = [])
  | waiting (retries : Nat)
      (phase : state.phase request.caller = some (.waiting (.sendReceive request.fileDescriptor request.message)
        (afterAttempt request.expectedData1 (request.again retries))))
      (count : (request.attempted state).length + retries = maxRetries)
      (ticket : Ticket σ Message) (found : state.ipc.channels.ticket request.caller = some ticket)
      (sent : request.sent state.ipc.channels.transfers =
        sentSince state.ipc.channels.transfers request.caller ticket.since)
      (got : request.got state.ipc.channels.transfers =
        gotSince state.ipc.channels.transfers request.caller ticket.since)
  | done (reply : Except UInt64 (UInt64 × UInt64 × UInt64)) (phase : state.phase request.caller = some (.ready (.done reply)))
      (count : (request.attempted state).length ≤ maxRetries + 1)
      (honoured : request.Honoured reply (request.sent state.ipc.channels.transfers)
        (request.got state.ipc.channels.transfers))

/-- Where the call stands, with the caller the only thread that runs a program. -/
structure Valid (state : Execution σ ε (Except UInt64 (UInt64 × UInt64 × UInt64))) : Prop where
  early : request.since ≤ state.ipc.channels.transfers.length
  alone : ∀ id, id ≠ request.caller → state.phase id = none
  stands : request.Stands state

section Steps

variable {request} {state : Execution σ ε (Except UInt64 (UInt64 × UInt64 × UInt64))} {transfers : List (Transfer σ Message)}

omit request in
theorem afterAttempt_error {ε : Type} (expectedData1 : Option UInt64)
    (again : Program ε (Except UInt64 (UInt64 × UInt64 × UInt64))) (code : UInt64) :
    afterAttempt expectedData1 again (.error code) = again ∨
      afterAttempt expectedData1 again (.error code) = .done (.error 0) := by
  unfold afterAttempt
  split
  · exact .inl rfl
  · exact .inl rfl
  · rename_i given
    cases given
  · exact .inr rfl

omit request in
theorem afterAttempt_packet {ε : Type} (expectedData1 : Option UInt64)
    (again : Program ε (Except UInt64 (UInt64 × UInt64 × UInt64))) (data1 data2 data3 : UInt64) :
    ∃ reply, afterAttempt expectedData1 again (.ok (some (.packet data1 data2 data3))) = .done reply ∧
      ∀ first second third, reply = .ok (first, second, third) →
        (first, second, third) = (data1, data2, data3) ∧ ∀ expected ∈ expectedData1, data1 = expected := by
  cases expectedData1 with
  | none =>
    refine ⟨_, rfl, fun _ _ _ same => ?_⟩
    cases same
    exact ⟨rfl, nofun⟩
  | some expectedRd1 =>
    by_cases differs : data1 ≠ expectedRd1
    · exact ⟨.error data1, if_pos differs, nofun⟩
    · refine ⟨.ok (data1, data2, data3), if_neg differs, fun _ _ _ same => ?_⟩
      cases same
      refine ⟨rfl, fun expected found => ?_⟩
      cases found
      exact not_not.mp differs

theorem finishes {place : Option σ} {answer : Answer Message} {sent got : List (Transfer σ Message)}
    (progress : Progress request.caller place (.sendReceive request.caller request.message) (some answer) sent got)
    (retries : Nat) :
    (sent = [] ∧ got = [] ∧ afterAttempt request.expectedData1 (request.again (ε := ε) retries) answer.result =
      request.again retries) ∨
    ∃ reply, afterAttempt request.expectedData1 (request.again (ε := ε) retries) answer.result = .done reply ∧
      request.Honoured reply sent got := by
  generalize made : Visit.sendReceive request.caller request.message = visit at progress
  generalize known : some answer = known at progress
  cases progress with
  | refused code small =>
    cases known
    rcases afterAttempt_error request.expectedData1 (request.again (ε := ε) retries) code with retry | stop
    · exact .inl ⟨rfl, rfl, retry⟩
    · exact .inr ⟨.error 0, stop, request.honoured_error 0 rfl⟩
  | @replied name message reply receiver =>
    cases known
    cases made
    obtain ⟨data1, data2, data3⟩ := reply
    obtain ⟨reply, ends, values⟩ := afterAttempt_packet request.expectedData1 (request.again (ε := ε) retries)
      data1 data2 data3
    refine .inr ⟨reply, ends, Nat.le_refl _, List.forall_mem_singleton.mpr rfl, fun first second third ok => ?_⟩
    obtain ⟨same, expected⟩ := values first second third ok
    cases same
    exact ⟨name, receiver, rfl, rfl, expected⟩
  | sent | received => cases made
  | offered | waiting | requested | taken => cases known

/-- The caller gets the result of its attempt. -/
theorem Valid.resume [Fintype σ] (valid : request.Valid state) (sound : state.Sound) : request.Valid state.resume := by
  rcases state.resume_cases with same | ⟨current, call, next, running, waits, same⟩
  · rwa [same]
  rw [same]
  have own : current.threadId = request.caller := by
    by_contra other
    rw [valid.alone _ other] at waits
    cases waits
  refine ⟨valid.early, fun id other => ?_, ?_⟩
  · exact (Function.update_of_ne (own ▸ other) _ _).trans (valid.alone id other)
  obtain ⟨place, since, answer, found, progress, result⟩ := sound.result running waits
  rw [own] at waits found progress ⊢
  cases valid.stands with
  | ready retries phase => cases waits.symm.trans phase
  | done reply phase => cases waits.symm.trans phase
  | waiting retries phase count ticket known sent got =>
    cases waits.symm.trans phase
    cases found.symm.trans known
    rw [← sent, ← got] at progress
    rw [result]
    have counted := request.attempted_returns state (.sendReceive request.fileDescriptor request.message)
      (afterAttempt request.expectedData1 (request.again retries)) answer.result
    have moved : (state.returns request.caller (.sendReceive request.fileDescriptor request.message)
        (afterAttempt request.expectedData1 (request.again retries)) answer.result).phase request.caller =
          some (.ready (afterAttempt request.expectedData1 (request.again retries) answer.result)) :=
      Function.update_self ..
    rcases finishes progress retries with ⟨nothing, none, again⟩ | ⟨reply, ends, honoured⟩
    · rw [again] at moved
      cases retries with
      | zero => exact .done (.error 2) moved (by omega) (request.honoured_error 2 nothing)
      | succ retries => exact .ready retries moved (by omega) nothing none
    · rw [ends] at moved
      exact .done reply moved (by omega) honoured

variable [DecidableEq σ] [Fintype σ] {event : IpcEvent σ}

/-- Messages are added to those that have passed. -/
theorem exists_transfers_act (state : Execution σ ε (Except UInt64 (UInt64 × UInt64 × UInt64))) (event : IpcEvent σ) :
    ∃ new, (state.act event).ipc.channels.transfers = state.ipc.channels.transfers ++ new := by
  change ∃ new, (state.ipc.after event).channels.transfers = _
  cases made : state.ipc.kernel.socketCall event.action with
  | none => exact ⟨[], by rw [IpcState.channels_of_silent made, List.append_nil]⟩
  | some label =>
    rw [IpcState.channels_of_call made]
    exact state.ipc.channels.exists_transfers _

/-- An event of others leaves alone what has passed for a caller that is ready. -/
theorem aside_act (away : state.ipc.channels.Away request.caller) (apart : state.Apart event request.caller) :
    State.Aside state.ipc.channels (state.act event).ipc.channels request.caller := by
  change State.Aside _ (state.ipc.after event).channels _
  cases made : state.ipc.kernel.socketCall event.action with
  | none =>
    rw [IpcState.channels_of_silent made]
    exact ⟨rfl, fun _ _ => rfl, fun _ _ => rfl⟩
  | some label =>
    rw [IpcState.channels_of_call made]
    exact away.aside (apart _ _ made)

theorem Valid.act (valid : request.Valid state) (sound : state.Sound) (settled : state.Settled)
    (apart : state.Apart event request.caller) : request.Valid (state.act event) := by
  obtain ⟨new, passes⟩ := exists_transfers_act state event
  have early : request.since ≤ (state.act event).ipc.channels.transfers.length := by
    rw [passes, List.length_append]
    exact Nat.le_trans valid.early (Nat.le_add_right _ _)
  refine ⟨early, valid.alone, ?_⟩
  cases valid.stands with
  | ready retries phase count sent got =>
    have aside := aside_act (sound.away _ _ phase) apart
    exact .ready retries phase count ((aside.sent _ valid.early).trans sent) ((aside.got _ valid.early).trans got)
  | done reply phase count honoured =>
    have aside := aside_act (sound.away _ _ phase) apart
    refine .done reply phase count ?_
    rw [sent, got, aside.sent _ valid.early, aside.got _ valid.early]
    exact honoured
  | waiting retries phase count ticket found sent got =>
    have distant : ∀ current, state.ipc.kernel.runningThread = some current → request.caller ≠ current.threadId :=
      fun current running same => settled current _ _ running (same ▸ phase)
    obtain ⟨answer, settles⟩ : ∃ answer, (state.ipc.after event).channels.ticket request.caller =
        some { ticket with answer } := IpcState.ticket_of_ne distant found
    have first := (sound.refines.coherent.progress _ _ found).1
    refine .waiting retries phase count _ settles ?_ ?_
    · rw [Request.sent, passes, sentSince_append valid.early, sentSince_append first]
      exact congrArg (· ++ _) sent
    · rw [Request.got, passes, gotSince_append valid.early, gotSince_append first]
      exact congrArg (· ++ _) got

theorem Valid.call (valid : request.Valid state) {current : Thread}
    (running : state.ipc.kernel.runningThread = some current) (own : current.threadId = request.caller) {retries : Nat}
    (count : (request.attempted state).length + retries = maxRetries)
    (nothing : request.sent state.ipc.channels.transfers = []) (none : request.got state.ipc.channels.transfers = [])
    (address : Nat) (registers : ISF) :
    request.Valid ((state.act (.api address registers (.sendReceive request.fileDescriptor request.message))).setPhase
      current.threadId (.waiting (.sendReceive request.fileDescriptor request.message)
        (afterAttempt request.expectedData1 (request.again retries)))) := by
  obtain ⟨new, passes⟩ := exists_transfers_act state
    (.api address registers (.sendReceive request.fileDescriptor request.message))
  obtain ⟨answer, found⟩ : ∃ answer, (state.ipc.after (.api address registers
      (.sendReceive request.fileDescriptor request.message))).channels.ticket current.threadId = some ⟨_, _, _, answer⟩ :=
    IpcState.ticket_of_asked running rfl
  refine ⟨?_, fun id other => ?_, .waiting retries ?_ count _ (own ▸ found) ?_ ?_⟩
  · change _ ≤ (state.act _).ipc.channels.transfers.length
    rw [passes, List.length_append]
    exact Nat.le_trans valid.early (Nat.le_add_right _ _)
  · exact (Function.update_of_ne (own ▸ other) _ _).trans (valid.alone id other)
  · exact own ▸ Function.update_self ..
  · change request.sent (state.act _).ipc.channels.transfers = sentSince (state.act _).ipc.channels.transfers _ _
    rw [Request.sent, passes, sentSince_append valid.early, sentSince_append (Nat.le_refl _)]
    refine congrArg (· ++ _) (nothing.trans ?_)
    simp [sentSince]
  · change request.got (state.act _).ipc.channels.transfers = gotSince (state.act _).ipc.channels.transfers _ _
    rw [Request.got, passes, gotSince_append valid.early, gotSince_append (Nat.le_refl _)]
    refine congrArg (· ++ _) (none.trans ?_)
    simp [gotSince]

/-- Every event keeps the call where it stands, or takes it further. -/
theorem Valid.step {body : ε → Program ε (Except UInt64 (UInt64 × UInt64 × UInt64))} {shared : σ → Prop}
    {after : Execution σ ε (Except UInt64 (UInt64 × UInt64 × UInt64))} {event : ProgramEvent σ}
    (valid : request.Valid state) (step : Execution.Step body shared state event after)
    (fit : state.Sound ∧ state.Settled) : request.Valid after := by
  obtain ⟨permitted, rfl⟩ := step
  obtain ⟨sound, settled⟩ := fit
  cases event with
  | other action =>
    have apart : ∀ id phase, state.phase id = some phase → state.Apart (.other action) id :=
      fun id phase found => Execution.apart_of_permitted permitted found
    refine Valid.resume (valid.act sound settled ?_) (sound.act settled fun id program found => apart id _ found)
    cases valid.stands with
    | ready _ phase | waiting _ phase | done _ phase => exact apart _ _ phase
  | proceed address registers memory =>
    unfold Execution.after
    cases running : state.running with
    | none => exact valid
    | some pair =>
      obtain ⟨current, program⟩ := pair
      obtain ⟨runs, own⟩ := Execution.running_eq_some running
      have caller : current.threadId = request.caller := by
        by_contra other
        rw [valid.alone _ other] at own
        cases own
      refine Valid.resume ?_ (sound.proceed address registers memory body settled running)
      rw [caller] at own
      cases valid.stands with
      | waiting _ phase => cases own.symm.trans phase
      | done reply phase =>
        cases own.symm.trans phase
        exact valid
      | ready retries phase count nothing none =>
        rw [attempts_eq] at phase
        cases own.symm.trans phase
        exact valid.call runs caller count nothing none address registers

omit [DecidableEq σ] in
theorem Valid.once (valid : request.Valid state) (sound : state.Sound) :
    (request.sent state.ipc.channels.transfers).length ≤ 1 ∧
      ∀ passed ∈ request.sent state.ipc.channels.transfers, passed.message = request.message := by
  cases valid.stands with
  | ready retries phase count nothing none =>
    rw [nothing]
    exact ⟨Nat.zero_le _, nofun⟩
  | done reply phase count honoured => exact ⟨honoured.once, honoured.own⟩
  | waiting retries phase count ticket found sent got =>
    obtain ⟨place, pending⟩ := sound.asked _ _ _ phase
    obtain ⟨since, answer, same⟩ := sound.refines.tracked _ _ _ pending
    cases found.symm.trans same
    obtain ⟨once, own⟩ := (sound.refines.coherent.progress _ _ found).2.sent_once
    rw [sent]
    refine ⟨once, fun passed member => ?_⟩
    rcases own passed member with made | made
    · cases made
    · exact (Visit.sendReceive.inj made).2.symm

omit [DecidableEq σ] [Fintype σ] in
theorem Stands.bounded (stands : request.Stands state) : request.made state ≤ maxRetries + 1 ∧
    ((request.attempted state).length = maxRetries + 1 → ∃ reply, state.phase request.caller = some (.ready (.done reply))) := by
  cases stands with
  | ready retries phase count nothing none =>
    rw [made, phase]
    exact ⟨by dsimp only; omega, fun all => by omega⟩
  | waiting retries phase count ticket found sent got =>
    rw [made, phase]
    exact ⟨by dsimp only; omega, fun all => by omega⟩
  | done reply phase count honoured =>
    rw [made, phase]
    exact ⟨count, fun _ => ⟨reply, rfl⟩⟩

theorem Valid.of_run {body : ε → Program ε (Except UInt64 (UInt64 × UInt64 × UInt64))} {shared : σ → Prop}
    {start : Execution σ ε (Except UInt64 (UInt64 × UInt64 × UInt64))} (valid : request.Valid start)
    (fit : start.Sound ∧ start.Settled) {events : List (ProgramEvent σ)}
    (run : Run (Execution.Step body shared) start events state) : request.Valid state ∧ state.Sound ∧ state.Settled := by
  induction run with
  | nil => exact ⟨valid, fit⟩
  | snoc _ last ih => exact ⟨ih.1.step last ih.2, last.sound ih.2⟩

omit [DecidableEq σ] [Fintype σ] in
theorem valid_launch (before : IpcState σ) (now : request.since = before.channels.transfers.length) :
    request.Valid (Execution.launch before request.caller (request.program (ε := ε))) := by
  refine ⟨Nat.le_of_eq now, fun id other => Function.update_of_ne other _ _,
    .ready maxRetries (Function.update_self ..) (Nat.zero_add _) ?_ ?_⟩
  · rw [sent, now]
    exact congrArg (List.filter _) (List.drop_length)
  · rw [got, now]
    exact congrArg (List.filter _) (List.drop_length)

/-- However often it tries, a request is delivered at most once; if the call returns `Ok`, it was
delivered once, and what is returned is the reply of the thread that got it. -/
theorem retried_request_delivered_at_most_once {keyboardSocket : σ} {kernelPageTable : Nat} {events : List (IpcEvent σ)}
    {before : IpcState σ} (reached : Run IpcState.Step (.boot keyboardSocket kernelPageTable) events before)
    {current : Thread} (running : before.kernel.runningThread = some current) (caller : request.caller = current.threadId)
    (now : request.since = before.channels.transfers.length)
    {body : ε → Program ε (Except UInt64 (UInt64 × UInt64 × UInt64))} {steps : List (ProgramEvent σ)}
    (run : Run (Execution.Step body fun _ => False) (.launch before request.caller request.program) steps state) :
    (request.made state ≤ 101 ∧ ((request.attempted state).length = 101 →
      ∃ reply, state.phase request.caller = some (.ready (.done reply)))) ∧
    ((request.sent state.ipc.channels.transfers).length ≤ 1 ∧
      ∀ passed ∈ request.sent state.ipc.channels.transfers, passed.message = request.message) ∧
    ∀ reply, state.phase request.caller = some (.ready (.done reply)) →
      request.Honoured reply (request.sent state.ipc.channels.transfers) (request.got state.ipc.channels.transfers) := by
  have fit := Execution.sound_launch (request.program (ε := ε)) (IpcState.refines_of_run reached) running
  rw [← caller] at fit
  obtain ⟨valid, sound, _⟩ := (valid_launch before now).of_run fit run
  refine ⟨valid.stands.bounded, valid.once sound, fun reply finished => ?_⟩
  cases valid.stands with
  | ready retries phase =>
    rw [attempts_eq] at phase
    cases finished.symm.trans phase
  | waiting retries phase => cases finished.symm.trans phase
  | done same phase count honoured =>
    cases finished.symm.trans phase
    exact honoured

/-- A user thread asks at a socket, another takes the request there and replies. -/
private def asking : Request := ⟨4, 0, 7, 8, 9, some 4, 0⟩

private def beforeAsking : IpcState Unit := IpcState.sharedSocket.foldl IpcState.after (.boot () 1)

private def exchange : List (ProgramEvent Unit) :=
  [.proceed 0x444444462f60 IpcState.userRegisters ⟨none⟩,
    .other (ApiCall.action 0x444444452f60 IpcState.userRegisters (.receive 0)),
    .other (ApiCall.action 0x444444452f60 IpcState.userRegisters (.send 0 (.packet 4 5 6))),
    .other (.timer ⟨0x444444452f60, IpcState.userRegisters⟩)]

private def answered : Execution Unit Empty (Except UInt64 (UInt64 × UInt64 × UInt64)) :=
  exchange.foldl (Execution.after nofun) (.launch beforeAsking 4 asking.program)

theorem retried_request_delivered_at_most_once_answered :
    beforeAsking.kernel.runningThread.map Thread.threadType = some .user ∧ ∃ receiver,
      asking.sent answered.ipc.channels.transfers = [⟨(), some 4, .packet 7 8 9, receiver⟩] ∧
      asking.got answered.ipc.channels.transfers = [⟨(), some receiver, .packet 4 5 6, 4⟩] := by
  have reached : Run IpcState.Step (.boot () 1) _ beforeAsking := Run.foldl IpcState.after (.boot () 1) _
  have run : Run (Execution.Step nofun fun _ => False) (.launch beforeAsking 4 asking.program) exchange answered := by
    have free {state : Execution Unit Empty (Except UInt64 (UInt64 × UInt64 × UInt64))} {action : Action Unit}
        (idle : (state.ipc.kernel.runningThread.bind fun current => state.phase current.threadId) = none) :
        state.Permitted (fun _ => False) (.other action) := Execution.permitted_of_free idle fun _ _ _ => id
    exact .cons ⟨fun _ func => func.elim, rfl⟩ (.cons ⟨free rfl, rfl⟩ (.cons ⟨free rfl, rfl⟩ (.cons ⟨free rfl, rfl⟩ .nil)))
  have delivered := retried_request_delivered_at_most_once reached rfl (rfl : asking.caller = _) rfl run
  obtain ⟨_, receiver, sent, got, _⟩ := (delivered.2.2 (.ok (4, 5, 6)) rfl).replied 4 5 6 rfl
  exact ⟨rfl, receiver, sent, got⟩

end Steps

end Request

end Zephyr
