import Zephyr.Proc.Ipc

/-! What one process can do to another through the kernel's IPC. A thread is told something only
at a socket, a socket is reached only through a handle, and the handles of a process never
change; so processes without a common socket leave each other alone. -/

namespace Zephyr

open Transition

section Effect

variable {socket : Socket} {call : Call} {exchange : Exchange} {thread : Thread}

theorem Effect.returned_origin (effect : Effect socket call exchange) (returned : thread ∈ exchange.returned) :
    (∃ caller ∈ call.caller, thread.threadId = caller.threadId) ∨
      ∃ parked ∈ socket.threads, thread.threadId = parked.threadId := by
  have answer {given : Option Thread} {code : UInt64} (told : thread ∈ given.map (·.returnError code)) :
      ∃ caller ∈ given, thread.threadId = caller.threadId := by
    obtain ⟨caller, made, rfl⟩ := Option.map_eq_some_iff.mp told
    exact ⟨caller, made, rfl⟩
  simp only [Exchange.returned, List.mem_append, Option.mem_toList] at returned
  cases effect with
  | refused code => exact .inl (answer (returned.resolve_right (by simp)))
  | parkSender | parkReceiver | parkRequest => simp at returned
  | @meetReceiver receiver someTid sender message =>
    rcases returned with told | told
    · obtain rfl := Option.some.inj told
      exact .inr ⟨receiver, List.mem_cons_self, by cases message; rfl⟩
    · exact .inl (answer told)
  | @meetSender sender receiver message =>
    rcases returned with told | told
    · obtain rfl := Option.some.inj told
      exact .inl ⟨receiver, rfl, by cases message; rfl⟩
    · obtain ⟨parked, given, same⟩ := answer told
      exact .inr ⟨parked, Option.mem_toList.mpr given, same⟩
  | @meetRequest sender receiver message =>
    obtain rfl := Option.some.inj (returned.resolve_right (by simp))
    exact .inl ⟨receiver, rfl, by cases message; rfl⟩
  | @reply receiver caller someTid message =>
    obtain rfl := Option.some.inj (returned.resolve_right (by simp))
    exact .inr ⟨receiver, List.mem_cons_self, by cases message; rfl⟩

theorem Effect.parked_origin (effect : Effect socket call exchange) (parked : thread ∈ exchange.socket.threads) :
    thread ∈ socket.threads ∨ call.caller = some thread := by
  cases effect with
  | refused => exact .inl parked
  | parkSender => exact .inr (by simpa [Socket.threads, Call.caller] using parked)
  | parkReceiver => exact .inr (by simpa [Socket.threads, Call.caller, eq_comm] using parked)
  | parkRequest => exact .inr (by simpa [Socket.threads, Call.caller, eq_comm] using parked)
  | meetReceiver | meetSender => simp [Socket.threads] at parked
  | meetRequest => exact .inl (by simpa [Socket.threads] using parked)
  | reply => exact .inr (by simpa [Socket.threads, Call.caller, eq_comm] using parked)

end Effect

namespace Kernel

variable {σ : Type} {kernel : Kernel σ} {action : Action σ} {name : σ} {call : Call}

def HasHandle (kernel : Kernel σ) (process : Nat) (name : σ) : Prop :=
  ∃ held, kernel.processes[process]? = some held ∧ some name ∈ held.sockets

theorem hasHandle_of_getSockets {thread : Thread} {id : Nat} (found : kernel.getSockets thread id = some name) :
    kernel.HasHandle thread.process name := by
  obtain ⟨held, process, slot⟩ := Option.bind_eq_some_iff.mp found
  rcases Option.getD_eq_iff.mp slot with listed | ⟨_, nothing⟩
  · exact ⟨held, process, List.mem_of_getElem? listed⟩
  · cases nothing

theorem reached_socketCall (made : kernel.socketCall action = some (some name, call)) :
    (∃ current context frame, kernel.runningThread = some current ∧ kernel.HasHandle current.process name ∧
      call.caller = some (current.setContext context frame)) ∨
    name = kernel.keyboardSocket ∧ call.caller = none ∧ ∃ context key, action = .keyboard context key := by
  cases action with
  | syscall context syscallId arg1 arg2 arg3 memory =>
    obtain ⟨current, running, chosen⟩ := Option.bind_eq_some_iff.mp made
    left
    refine ⟨current, context.addr, withSegments context.frame, running, ?_⟩
    dsimp only at chosen
    split at chosen
    · obtain ⟨found, rfl⟩ := Prod.mk.inj (Option.some.inj chosen)
      exact ⟨hasHandle_of_getSockets found, rfl⟩
    · obtain ⟨found, rfl⟩ := Prod.mk.inj (Option.some.inj chosen)
      exact ⟨hasHandle_of_getSockets found, rfl⟩
    · obtain ⟨found, rfl⟩ := Prod.mk.inj (Option.some.inj chosen)
      exact ⟨hasHandle_of_getSockets found, rfl⟩
    · cases chosen
  | keyboard context key =>
    cases key with
    | none => cases made
    | some character =>
      cases made
      exact .inr ⟨rfl, rfl, context, some character, rfl⟩
  | _ => cases made

variable [Fintype σ]

theorem HasHandle.of_outcome {after : Kernel σ} (outcome : Outcome kernel action after) {process : Nat}
    (has : kernel.HasHandle process name) : after.HasHandle process name := by
  obtain ⟨held, found, inside⟩ := has
  exact ⟨held, outcome.grows.1 process held found, inside⟩

/-- A thread waits only at sockets its process has a handle to. -/
structure Confined (kernel : Kernel σ) : Prop where
  conserved : kernel.Conserved
  parked : ∀ name, ∀ thread ∈ (kernel.socket name).threads, kernel.HasHandle thread.process name

theorem confined_boot (keyboardSocket : σ) (kernelPageTable : Nat) :
    (boot keyboardSocket kernelPageTable).Confined :=
  ⟨conserved_boot keyboardSocket kernelPageTable, fun _ _ parked => absurd parked List.not_mem_nil⟩

variable [DecidableEq σ]

theorem socket_untouched (apart : ∀ call, kernel.socketCall action ≠ some (some name, call)) :
    (kernel.perform action).socket name = kernel.socket name := by
  rw [socket_perform]
  cases made : kernel.socketCall action with
  | none => rfl
  | some label =>
    obtain ⟨place, call⟩ := label
    cases place with
    | none => rfl
    | some other =>
      have different : name ≠ other := fun same => apart call (by rw [made, same])
      exact Function.update_of_ne different ..

theorem parked_perform {thread : Thread} (parked : thread ∈ ((kernel.perform action).socket name).threads) :
    thread ∈ (kernel.socket name).threads ∨
      ∃ call, kernel.socketCall action = some (some name, call) ∧ call.caller = some thread := by
  by_cases touched : ∃ call, kernel.socketCall action = some (some name, call)
  · obtain ⟨call, made⟩ := touched
    have now : (kernel.perform action).socket name = (call.perform (kernel.socket name)).socket := by
      rw [socket_perform, made]
      exact Function.update_self ..
    rw [now] at parked
    exact ((Call.effect (kernel.socket name) call).parked_origin parked).imp_right fun own => ⟨call, made, own⟩
  · rw [socket_untouched fun call made => touched ⟨call, made⟩] at parked
    exact .inl parked

theorem Confined.perform (confined : kernel.Confined) (action : Action σ) : (kernel.perform action).Confined := by
  have outcome := perform_outcome confined.conserved action
  refine ⟨confined.conserved.of_outcome outcome, fun name thread parked => ?_⟩
  rcases parked_perform parked with before | ⟨call, made, own⟩
  · exact (confined.parked name thread before).of_outcome outcome
  · rcases reached_socketCall made with ⟨current, context, frame, _, has, caller⟩ | ⟨_, nobody, _⟩
    · obtain rfl := Option.some.inj (caller.symm.trans own)
      exact has.of_outcome outcome
    · rw [nobody] at own
      cases own

theorem confined_of_run {keyboardSocket : σ} {kernelPageTable : Nat} {actions : List (Action σ)}
    (run : Run Step (boot keyboardSocket kernelPageTable) actions kernel) : kernel.Confined := by
  apply run.invariant (confined_boot keyboardSocket kernelPageTable)
  rintro before action after confined rfl
  exact confined.perform action

/-- A process of the group has a handle to the socket. -/
def GroupHolds (kernel : Kernel σ) (group : Nat → Prop) (name : σ) : Prop :=
  ∃ process, group process ∧ kernel.HasHandle process name

/-- The action is nothing of the group's: its threads do not run, the running thread has none of
its sockets, and a key goes to none of them. -/
structure Outside (group : Nat → Prop) (kernel : Kernel σ) (action : Action σ) : Prop where
  running : ∀ current, kernel.runningThread = some current → ¬ group current.process
  handles : ∀ current name, kernel.runningThread = some current → kernel.HasHandle current.process name →
    ¬ kernel.GroupHolds group name
  keys : ∀ context key, action = .keyboard context key → ¬ kernel.GroupHolds group kernel.keyboardSocket

omit [Fintype σ] [DecidableEq σ] in
theorem Outside.apart {group : Nat → Prop} (outside : kernel.Outside group action)
    (holds : kernel.GroupHolds group name) : ∀ call, kernel.socketCall action ≠ some (some name, call) := by
  intro call made
  rcases reached_socketCall made with ⟨current, _, _, running, has, _⟩ | ⟨rfl, _, context, key, same⟩
  · exact outside.handles current name running has holds
  · exact outside.keys context key same holds

variable {group : Nat → Prop} {thread : Thread}

omit [DecidableEq σ] in
theorem Confined.not_running (confined : kernel.Confined) (outside : kernel.Outside group action)
    (held : kernel.Held thread) (member : group thread.process) (current : Thread)
    (running : kernel.runningThread = some current) : current.threadId ≠ thread.threadId := by
  intro same
  have own := confined.conserved.eq_of_held held (.inl running) same
  exact outside.running current running (own ▸ member)

theorem Confined.unchanged (confined : kernel.Confined) (outside : kernel.Outside group action)
    (held : kernel.Held thread) (member : group thread.process) :
    (kernel.perform action).Every fun later => later.threadId = thread.threadId → later = thread := by
  have known {other : Thread} (before : kernel.Held other) (same : other.threadId = thread.threadId) :
      other = thread := confined.conserved.eq_of_held held before same
  have notRunning := confined.not_running outside held member
  have caller {place : Option σ} {call : Call} (made : kernel.socketCall action = some (place, call))
      {asker : Thread} (asked : call.caller = some asker) : asker.threadId ≠ thread.threadId := by
    obtain ⟨current, running, own⟩ := caller_socketCall made asked
    rw [own]
    exact notRunning current running
  -- A thread parked at a socket of the call is none of the group's.
  have elsewhere {name : σ} {call : Call} (made : kernel.socketCall action = some (some name, call))
      {parked : Thread} (inside : parked ∈ (kernel.socket name).threads) : parked.threadId ≠ thread.threadId := by
    intro same
    obtain rfl := known (.inr (.inr ⟨name, inside⟩)) same
    exact outside.apart ⟨parked.process, member, confined.parked name parked inside⟩ call made
  have ready : (kernel.perform action).Placed (.readyOnly fun later =>
      later.threadId = thread.threadId → later = thread) := by
    apply placed_perform action
    · exact fun other queued => known (.inr (.inl queued))
    · exact fun _ current running same => absurd same (notRunning current running)
    · intro _ context _ stamped preempted same
      obtain ⟨current, running, rfl⟩ := Option.map_eq_some_iff.mp preempted
      exact absurd same (notRunning current running)
    · intro new born same
      have fresh := born.fresh
      have bounded := confined.conserved.bounded _ (confined.conserved.live_of_held held).1
      omega
    · rintro ⟨place, call⟩ made told returned same
      cases place with
      | none =>
        obtain ⟨asker, asked, rfl⟩ := List.mem_map.mp returned
        have own : asker.threadId = thread.threadId := same
        exact absurd own (caller made (Option.mem_toList.mp asked))
      | some name =>
        rcases (Call.effect (kernel.socket name) call).returned_origin returned with
          ⟨asker, asked, own⟩ | ⟨parked, inside, own⟩
        · exact absurd (own.symm.trans same) (caller made asked)
        · exact absurd (own.symm.trans same) (elsewhere made inside)
  refine ⟨ready.running, ready.queued, fun name later parked same => ?_⟩
  rcases parked_perform parked with before | ⟨call, made, asked⟩
  · exact known (.inr (.inr ⟨name, before⟩)) same
  · exact absurd same (caller made asked)

theorem Confined.keeps (confined : kernel.Confined) (outside : kernel.Outside group action)
    (held : kernel.Held thread) (member : group thread.process) : (kernel.perform action).Held thread := by
  obtain ⟨later, after, same⟩ := confined.conserved.stays_held action held (confined.not_running outside held member)
  have unchanged := every_iff.mp (confined.unchanged outside held member) later after same
  exact unchanged ▸ after

/-- As long as only threads run that share no socket with a group of processes, and keys go
elsewhere, the threads of the group keep every register they have saved, and the sockets of the
group stay as they are, whatever the others do. -/
theorem ipc_is_confined {keyboardSocket : σ} {kernelPageTable : Nat} {actions : List (Action σ)}
    (reached : Run Step (boot keyboardSocket kernelPageTable) actions kernel) (group : Nat → Prop)
    {later : List (Action σ)} {final : Kernel σ}
    (run : Run (fun before action after => before.Outside group action ∧ Step before action after) kernel later final) :
    (∀ thread, kernel.Held thread → group thread.process → final.Held thread) ∧
      ∀ name, kernel.GroupHolds group name → final.socket name = kernel.socket name := by
  have kept : final.Confined ∧ (∀ name, kernel.GroupHolds group name → final.GroupHolds group name) ∧
      (∀ thread, kernel.Held thread → group thread.process → final.Held thread) ∧
      ∀ name, kernel.GroupHolds group name → final.socket name = kernel.socket name := by
    apply run.invariant ⟨confined_of_run reached, fun _ holds => holds, fun _ held _ => held, fun _ _ => rfl⟩
    rintro before action after ⟨confined, holding, threads, sockets⟩ ⟨outside, rfl⟩
    have outcome := perform_outcome confined.conserved action
    refine ⟨confined.perform action, ?_, ?_, ?_⟩
    · intro name holds
      obtain ⟨process, member, has⟩ := holding name holds
      exact ⟨process, member, has.of_outcome outcome⟩
    · intro thread held member
      exact confined.keeps outside (threads thread held member) member
    · intro name holds
      rw [socket_untouched (outside.apart (holding name holds)), sockets name holds]
  exact kept.2.2

/-- Two kernel threads with a socket each, the second of them running. -/
private def strangers : Kernel Bool :=
  [.spawnKernelThread 0x1000 [true] 0x10000 {}, .spawnKernelThread 0x1000 [false] 0x20000 {},
    .timer ⟨0x8000, {}⟩].foldl perform (boot false 1)

/-- The one that runs blocks in a send; the socket of the other is empty as before. -/
theorem ipc_is_confined_strangers :
    (strangers.perform (.syscall ⟨0x22000, {}⟩ 4 1 2 3 ⟨none⟩)).socket true = strangers.socket true := by
  have outside : strangers.Outside (· = 0) (.syscall ⟨0x22000, {}⟩ 4 1 2 3 ⟨none⟩) := by
    have runs : strangers.runningThread.map Thread.process = some 1 := rfl
    have others {name : Bool} (has : strangers.HasHandle 1 name) : ¬ strangers.GroupHolds (· = 0) name := by
      rintro ⟨_, rfl, held, found, inside⟩
      obtain ⟨own, second, mine⟩ := has
      cases found
      cases second
      cases name <;> simp at inside mine
    refine ⟨fun current running same => ?_, fun current name running has => ?_, fun _ _ key => by cases key⟩
    · rw [running, Option.map_some, same] at runs
      cases runs
    · rw [running, Option.map_some] at runs
      exact others (Option.some.inj runs ▸ has)
  have run : Run (fun before action after => before.Outside (· = 0) action ∧ Step before action after) strangers
      [.syscall ⟨0x22000, {}⟩ 4 1 2 3 ⟨none⟩]
      (strangers.perform (.syscall ⟨0x22000, {}⟩ 4 1 2 3 ⟨none⟩)) := .snoc .nil ⟨outside, rfl⟩
  exact (ipc_is_confined (Run.foldl perform (boot false 1) _) (· = 0) run).2 true
    ⟨0, rfl, _, rfl, List.mem_cons_self⟩

end Kernel

end Zephyr
