import Zephyr.Proc.Population
import Zephyr.Transition.Run

/-! Conservation of threads over whole runs of the kernel. One inversion result
says everything an action can do to the scheduler state; the invariants of this
module and of the address-space module are derived from it. Ids are fresh in every run, since
the counter does not come to `2 ^ 64`. -/

namespace Zephyr

open Transition

variable {σ : Type}

/-- Where a new thread comes from: its badge without the id, the process object
made for it, and the spawn stages afterwards. -/
inductive Lineage (before : Kernel σ) : Badge → List (Process σ) → (Nat → Option SpawnStage) → Prop where
  | kernel (uid : Nat) (sockets : List (Option σ)) :
      Lineage before ⟨uid, before.processes.length, 0, .kernel⟩ [⟨0, sockets⟩] before.spawning
  | fork (uid : Nat) (current : Thread) (running : before.runningThread = some current) :
      Lineage before { current.badge with threadId := uid } [] before.spawning
  | user (uid : Nat) (sockets : List (Option σ)) (parent : Thread) (table original : Nat)
      (running : before.runningThread = some parent)
      (inside : before.spawning parent.threadId = some (.inside table original)) :
      Lineage before ⟨uid, before.processes.length, table, .user⟩ [⟨table, sockets⟩]
        (Function.update before.spawning parent.threadId (some (.leaving original)))

/-- The steps of `spawn_user_thread` that add no thread. -/
inductive Stage (before : Kernel σ) : Action σ → Kernel σ → Prop where
  | stutter {action : Action σ} : Stage before action before
  | create (thread : Thread) (table : Nat) (running : before.runningThread = some thread)
      (typed : thread.threadType = .kernel) (free : before.spawning thread.threadId = none) :
      Stage before (.createKernelOnlyPagetable table) ({ before with released := before.released.filter (· ≠ table) }.setStage thread
        (some (.created table)))
  | failHeap (thread : Thread) (table : Nat) (running : before.runningThread = some thread)
      (created : before.spawning thread.threadId = some (.created table)) :
      Stage before .failHeap (before.setStage thread none)
  | enter (thread : Thread) (table : Nat) (running : before.runningThread = some thread)
      (created : before.spawning thread.threadId = some (.created table)) :
      Stage before .enterUserPagetable { before.setStage thread (some (.inside table before.cr3)) with cr3 := table }
  | load (thread : Thread) (table original : Nat) (running : before.runningThread = some thread)
      (inside : before.spawning thread.threadId = some (.inside table original)) :
      Stage before .loadSegment { before with cr3 := table }
  | failClosure (thread : Thread) (table original draws : Nat)
      (running : before.runningThread = some thread)
      (inside : before.spawning thread.threadId = some (.inside table original)) :
      Stage before (.failClosure draws) { before.setStage thread (some (.leaving original)) with
        counter := before.counter + draws }
  | leave (thread : Thread) (original : Nat) (running : before.runningThread = some thread)
      (leaving : before.spawning thread.threadId = some (.leaving original)) :
      Stage before .leaveUserPagetable { before.setStage thread none with cr3 := original }

/-- What one action does to the scheduler state. -/
inductive Outcome [Fintype σ] (before : Kernel σ) : Action σ → Kernel σ → Prop where
  | move {action : Action σ} {after : Kernel σ} (schedules : action.Schedules)
      (moved : Kernel.Move before after) : Outcome before action after
  | draw {action : Action σ} : Outcome before action { before with counter := before.counter + 1 }
  | birth {action : Action σ} {after : Kernel σ} (badge : Badge) (added : List (Process σ))
      (stages : Nat → Option SpawnStage) (counter : Nat) (lineage : Lineage before badge added stages)
      (fresh : before.counter < badge.threadId) (drawn : badge.threadId ≤ counter)
      (population : after.occupants = badge ::ₘ before.occupants)
      (fixed : after.fixed = { before.fixed with
        counter := counter, processes := before.processes ++ added
        created := before.created ++ [badge.threadId], spawning := stages })
      (running : after.runningThread = before.runningThread) (cr3 : after.cr3 = before.cr3) :
      Outcome before action after
  | death {context : Context} {syscallId arg1 arg2 arg3 : UInt64} {memory : Kernel.ForkMemory}
      (thread : Thread) (exit : (syscallId &&& 0xFF).toNat = 1)
      (running : before.runningThread = some thread)
      (population : before.occupants = thread.badge ::ₘ (before.retire thread).occupants) :
      Outcome before (.syscall context syscallId arg1 arg2 arg3 memory)
        ((before.retire thread).dropThread thread)
  | stage {action : Action σ} {after : Kernel σ} (spawn : Stage before action after) :
      Outcome before action after

namespace Kernel

section Conserved

variable [Fintype σ] {kernel before after : Kernel σ}

def threadIds (kernel : Kernel σ) : Multiset Nat := kernel.occupants.map Badge.threadId

/-- Each id that was created and has not exited is held exactly once, and no
other id is held. -/
structure Conserved (kernel : Kernel σ) : Prop where
  exact : ∀ id, kernel.threadIds.count id = if id ∈ kernel.created ∧ id ∉ kernel.exited then 1 else 0
  distinct : kernel.created.Nodup
  bounded : ∀ id ∈ kernel.created, id ≤ kernel.counter
  left : ∀ id ∈ kernel.exited, id ∈ kernel.created

theorem Conserved.count_le_one (conserved : kernel.Conserved) (id : Nat) :
    kernel.threadIds.count id ≤ 1 := by
  rw [conserved.exact]
  split <;> omega

/-- No second thread is held under the id of a held one. -/
theorem Conserved.alone (conserved : kernel.Conserved) {badge other : Badge} {rest : Multiset Badge}
    (split : kernel.occupants = badge ::ₘ rest) (member : other ∈ rest) :
    other.threadId ≠ badge.threadId := by
  intro same
  obtain ⟨others, again⟩ := Multiset.exists_cons_of_mem member
  have twice : 2 ≤ kernel.threadIds.count badge.threadId := by
    rw [threadIds, split, again, Multiset.map_cons, Multiset.map_cons, same, Multiset.count_cons_self,
      Multiset.count_cons_self]
    omega
  have once := conserved.count_le_one badge.threadId
  omega

theorem Conserved.eq_of_threadId (conserved : kernel.Conserved) {badge other : Badge}
    (held : badge ∈ kernel.occupants) (second : other ∈ kernel.occupants)
    (same : badge.threadId = other.threadId) : badge = other := by
  obtain ⟨rest, split⟩ := Multiset.exists_cons_of_mem held
  rw [split, Multiset.mem_cons] at second
  rcases second with equal | member
  · exact equal.symm
  · exact absurd same.symm (conserved.alone split member)

theorem Conserved.held (conserved : kernel.Conserved) {badge : Badge}
    (member : badge ∈ kernel.occupants) :
    badge.threadId ∈ kernel.created ∧ badge.threadId ∉ kernel.exited := by
  by_contra dead
  have listed : badge.threadId ∈ kernel.threadIds := Multiset.mem_map_of_mem _ member
  have positive := Multiset.count_pos.mpr listed
  rw [conserved.exact, if_neg dead] at positive
  omega

end Conserved

section Inversion

variable [Fintype σ] {kernel : Kernel σ} {action : Action σ}

theorem spawnKernelThread_outcome (function : UInt64) (sockets : List σ) (kernelStackStart : Nat)
    (garbage : ISF) :
    Outcome kernel action (kernel.spawnKernelThread function sockets kernelStackStart garbage) :=
  .birth _ _ _ _ (.kernel (kernel.counter + 1) (sockets.map some)) (Nat.lt_succ_self _) (Nat.le_refl _)
    (occupants_scheduleThread _ _) rfl rfl rfl

theorem forkCurrentThread_outcome (context : Context) (stack : Option (Nat × Nat)) :
    Outcome kernel action (kernel.forkCurrentThread context stack).1 := by
  unfold forkCurrentThread
  cases running : kernel.runningThread with
  | none => exact .stage .stutter
  | some current =>
    cases stack with
    | none => exact .draw
    | some userStackEnd =>
      refine .birth _ [] _ _ (.fork (kernel.counter + 2) current running) (by dsimp only; omega)
        (Nat.le_refl _) ?_ ?_ rfl rfl
      · simp only [occupants, uniqueId, badges_append, badges_cons, badges_nil, Thread.badge,
          ← Multiset.singleton_add]
        abel
      · simp only [fixed, uniqueId, List.append_nil]

theorem Conserved.not_elsewhere (conserved : kernel.Conserved) {thread other : Thread}
    (running : kernel.runningThread = some thread)
    (member : other.badge ∈ kernel.clearCurrentThread.occupants) : other.threadId ≠ thread.threadId := by
  have split : kernel.occupants = thread.badge ::ₘ kernel.clearCurrentThread.occupants := by
    simp [occupants, running, clearCurrentThread]
  exact conserved.alone split member

theorem Conserved.not_queued (conserved : kernel.Conserved) {thread queued : Thread}
    (running : kernel.runningThread = some thread) (member : queued ∈ kernel.waitQueue) :
    queued.threadId ≠ thread.threadId :=
  conserved.not_elsewhere running ((mem_occupants _).mpr (.inr (.inl ⟨queued, member, rfl⟩)))

theorem Conserved.not_parked (conserved : kernel.Conserved) {thread parked : Thread} {name : σ}
    (running : kernel.runningThread = some thread) (member : parked ∈ (kernel.socket name).threads) :
    parked.threadId ≠ thread.threadId :=
  conserved.not_elsewhere running ((mem_occupants _).mpr (.inr (.inr ⟨name, parked, member, rfl⟩)))

theorem Conserved.retire_waitQueue (conserved : kernel.Conserved) {thread : Thread}
    (running : kernel.runningThread = some thread) :
    (kernel.retire thread).waitQueue = kernel.waitQueue := by
  apply List.filter_eq_self.mpr
  intro queued member
  exact decide_eq_true (conserved.not_queued running member)

theorem exitCurrentThread_outcome (conserved : kernel.Conserved) (context : Context)
    {syscallId : UInt64} (exit : (syscallId &&& 0xFF).toNat = 1) (arg1 arg2 arg3 : UInt64)
    (memory : ForkMemory) :
    Outcome kernel (.syscall context syscallId arg1 arg2 arg3 memory) kernel.exitCurrentThread := by
  unfold exitCurrentThread
  cases running : kernel.runningThread with
  | none => exact .stage .stutter
  | some thread =>
    refine .death thread exit running ?_
    rw [occupants, occupants, conserved.retire_waitQueue running]
    simp [running, retire]

omit [Fintype σ] in
theorem stage_eq_some {thread : Thread} {stage : SpawnStage}
    (standing : kernel.stage = some (thread, stage)) :
    kernel.runningThread = some thread ∧ kernel.spawning thread.threadId = some stage := by
  obtain ⟨current, running, found⟩ := Option.bind_eq_some_iff.mp standing
  obtain ⟨here, inside, same⟩ := Option.map_eq_some_iff.mp found
  cases same
  exact ⟨running, inside⟩

theorem initialiseThread_outcome (entryPoint : UInt64) (sockets : List σ)
    (userStackEnd kernelStackStart : Nat) (garbage : ISF) :
    Outcome kernel action
      (kernel.initialiseThread entryPoint sockets userStackEnd kernelStackStart garbage) := by
  unfold initialiseThread
  split
  · rename_i parent table original standing
    obtain ⟨running, inside⟩ := stage_eq_some standing
    refine .birth _ _ _ _
      (.user (kernel.counter + 1) (sockets.map some) parent table original running inside)
      (Nat.lt_succ_self _) (Nat.le_succ _) ?_ rfl rfl rfl
    rw [occupants_setStage, occupants_scheduleThread]
    rfl
  · exact .stage .stutter

omit [Fintype σ] in
theorem createKernelOnlyPagetable_stage (table : Nat) :
    Stage kernel (.createKernelOnlyPagetable table) (kernel.createKernelOnlyPagetable table) := by
  unfold createKernelOnlyPagetable
  split
  · rename_i thread running
    split
    · rename_i allowed
      exact .create thread table running allowed.1 allowed.2
    · exact .stutter
  · exact .stutter

omit [Fintype σ] in
theorem failHeap_stage : Stage kernel .failHeap kernel.failHeap := by
  unfold failHeap
  split
  · rename_i thread table standing
    exact .failHeap thread table (stage_eq_some standing).1 (stage_eq_some standing).2
  · exact .stutter

omit [Fintype σ] in
theorem enterUserPagetable_stage : Stage kernel .enterUserPagetable kernel.enterUserPagetable := by
  unfold enterUserPagetable
  split
  · rename_i thread table standing
    exact .enter thread table (stage_eq_some standing).1 (stage_eq_some standing).2
  · exact .stutter

omit [Fintype σ] in
theorem loadSegment_stage : Stage kernel .loadSegment kernel.loadSegment := by
  unfold loadSegment
  split
  · rename_i thread table original standing
    exact .load thread table original (stage_eq_some standing).1 (stage_eq_some standing).2
  · exact .stutter

omit [Fintype σ] in
theorem failClosure_stage (draws : Nat) : Stage kernel (.failClosure draws) (kernel.failClosure draws) := by
  unfold failClosure
  split
  · rename_i thread table original standing
    exact .failClosure thread table original draws (stage_eq_some standing).1 (stage_eq_some standing).2
  · exact .stutter

omit [Fintype σ] in
theorem leaveUserPagetable_stage : Stage kernel .leaveUserPagetable kernel.leaveUserPagetable := by
  unfold leaveUserPagetable
  split
  · rename_i thread original standing
    exact .leave thread original (stage_eq_some standing).1 (stage_eq_some standing).2
  · exact .stutter

variable [DecidableEq σ]

theorem sysReceive_move (context : Context) (handle : UInt64) {result : Kernel σ × Control}
    (performed : kernel.sysReceive context handle = result) :
    Move kernel result.1 ∧ ∀ caller frame, kernel.runningThread = some caller →
      result.2 = .returned frame →
        ∃ thread, result.1.runningThread = some thread ∧ thread.threadId = caller.threadId := by
  apply ipcSyscall_move _ _ _ performed
  intro socket thread
  exact (Call.effect socket (.receive thread)).conserves

theorem sysSend_move (context : Context) (syscallId data1 data2 data3 : UInt64)
    {result : Kernel σ × Control}
    (performed : kernel.sysSend context syscallId data1 data2 data3 = result) :
    Move kernel result.1 ∧ ∀ caller frame, kernel.runningThread = some caller →
      result.2 = .returned frame →
        ∃ thread, result.1.runningThread = some thread ∧ thread.threadId = caller.threadId := by
  apply ipcSyscall_move _ _ _ performed
  intro socket thread
  split
  · exact (Call.effect socket (.send (some thread) (.packet data1 data2 data3))).conserves
  · exact (Call.effect socket (.sendReceive thread (.packet data1 data2 data3))).conserves

theorem dispatchSyscall_outcome (conserved : kernel.Conserved) (context : Context)
    (syscallId arg1 arg2 arg3 : UInt64) (memory : ForkMemory) :
    Outcome kernel (.syscall context syscallId arg1 arg2 arg3 memory)
      (kernel.dispatchSyscall context syscallId arg1 arg2 arg3 memory).1 := by
  unfold dispatchSyscall
  dsimp only
  split
  · exact forkCurrentThread_outcome _ _
  · rename_i exit
    exact exitCurrentThread_outcome conserved context exit arg1 arg2 arg3 memory
  · exact .move trivial (sysReceive_move _ _ rfl).1
  · exact .move trivial (sysSend_move _ _ _ _ _ rfl).1
  · exact .move trivial (sysSend_move _ _ _ _ _ rfl).1
  · exact .move trivial (schedule_move _)
  · exact .stage .stutter

theorem perform_outcome (conserved : kernel.Conserved) (action : Action σ) :
    Outcome kernel action (kernel.perform action) := by
  cases action with
  | spawnKernelThread => exact spawnKernelThread_outcome _ _ _ _
  | syscall => exact dispatchSyscall_outcome conserved _ _ _ _ _ _
  | timer => exact .move trivial (schedule_move _)
  | keyboard => exact .move trivial (keyboardHandlerInner_move _ _)
  | initialiseThread => exact initialiseThread_outcome _ _ _ _ _
  | failClosure draws => exact .stage (failClosure_stage draws)
  | createKernelOnlyPagetable table => exact .stage (createKernelOnlyPagetable_stage table)
  | failHeap => exact .stage failHeap_stage
  | enterUserPagetable => exact .stage enterUserPagetable_stage
  | loadSegment => exact .stage loadSegment_stage
  | leaveUserPagetable => exact .stage leaveUserPagetable_stage

end Inversion

theorem dropThread_fixed [Fintype σ] (kernel : Kernel σ) (thread : Thread) :
    ∃ released, (kernel.dropThread thread).fixed = { kernel.fixed with released := released } := by
  unfold dropThread
  split
  · exact ⟨kernel.released, rfl⟩
  · split
    · exact ⟨_, rfl⟩
    · exact ⟨kernel.released, rfl⟩

end Kernel

section Consequences

variable [Fintype σ] {before after : Kernel σ} {action : Action σ}

/-- Processes are only added, ids only created, and the keyboard's socket stays. -/
theorem Outcome.grows (outcome : Outcome before action after) :
    (∀ (index : Nat) (process : Process σ), before.processes[index]? = some process →
        after.processes[index]? = some process) ∧
      (∀ id ∈ before.created, id ∈ after.created) ∧ after.keyboardSocket = before.keyboardSocket := by
  cases outcome with
  | move _ moved =>
    have processes : after.processes = before.processes := (congrArg Kernel.processes moved.fixed :)
    have created : after.created = before.created := (congrArg Kernel.created moved.fixed :)
    rw [processes, created]
    exact ⟨fun _ _ found => found, fun _ member => member, (congrArg Kernel.keyboardSocket moved.fixed :)⟩
  | draw => exact ⟨fun _ _ found => found, fun _ member => member, rfl⟩
  | birth badge added stages counter lineage fresh drawn population fixed running cr3 =>
    have processes : after.processes = before.processes ++ added := (congrArg Kernel.processes fixed :)
    have created : after.created = before.created ++ [badge.threadId] := (congrArg Kernel.created fixed :)
    rw [processes, created]
    refine ⟨?_, fun _ member => List.mem_append_left _ member, (congrArg Kernel.keyboardSocket fixed :)⟩
    intro index process found
    have inside := (List.getElem?_eq_some_iff.mp found).1
    exact (List.getElem?_append_left inside).trans found
  | death thread exit running population =>
    obtain ⟨released, fixed⟩ := (before.retire thread).dropThread_fixed thread
    have processes : ((before.retire thread).dropThread thread).processes = before.processes :=
      (congrArg Kernel.processes fixed :)
    have created : ((before.retire thread).dropThread thread).created = before.created :=
      (congrArg Kernel.created fixed :)
    rw [processes, created]
    exact ⟨fun _ _ found => found, fun _ member => member, (congrArg Kernel.keyboardSocket fixed :)⟩
  | stage spawn =>
    cases spawn <;> exact ⟨fun _ _ found => found, fun _ member => member, rfl⟩

theorem Outcome.origin (outcome : Outcome before action after) {badge : Badge}
    (held : badge ∈ after.occupants) : before.counter < badge.threadId ∨
      ∃ old ∈ before.occupants, old.threadId = badge.threadId ∧ old.process = badge.process := by
  cases outcome with
  | move _ moved =>
    right
    rcases moved.population with same | stamped
    · exact ⟨badge, same ▸ held, rfl, rfl⟩
    · rw [stamped] at held
      rcases before.mem_occupants_restamp held with old | ⟨thread, running, rfl⟩
      · exact ⟨badge, old, rfl, rfl⟩
      · exact ⟨thread.badge, before.badge_mem_of_running running, rfl, rfl⟩
  | draw => exact .inr ⟨badge, held, rfl, rfl⟩
  | birth new added stages counter lineage fresh drawn population fixed running cr3 =>
    rw [population, Multiset.mem_cons] at held
    rcases held with rfl | old
    · exact .inl fresh
    · exact .inr ⟨badge, old, rfl, rfl⟩
  | death thread exit running population =>
    rw [Kernel.occupants_dropThread] at held
    exact .inr ⟨badge, population ▸ Multiset.mem_cons_of_mem held, rfl, rfl⟩
  | stage spawn => cases spawn <;> exact .inr ⟨badge, held, rfl, rfl⟩

theorem Outcome.exits (outcome : Outcome before action after) {id : Nat} (member : id ∈ after.exited) :
    id ∈ before.exited ∨ ∃ context syscallId arg1 arg2 arg3 memory thread,
      action = .syscall context syscallId arg1 arg2 arg3 memory ∧ (syscallId &&& 0xFF).toNat = 1 ∧
        before.runningThread = some thread ∧ thread.threadId = id := by
  cases outcome with
  | move _ moved =>
    have exited : after.exited = before.exited := (congrArg Kernel.exited moved.fixed :)
    exact .inl (exited ▸ member)
  | draw => exact .inl member
  | birth new added stages counter lineage fresh drawn population fixed running cr3 =>
    have exited : after.exited = before.exited := (congrArg Kernel.exited fixed :)
    exact .inl (exited ▸ member)
  | death thread exit running population =>
    obtain ⟨released, fixed⟩ := (before.retire thread).dropThread_fixed thread
    have exited : ((before.retire thread).dropThread thread).exited = before.exited ++ [thread.threadId] :=
      (congrArg Kernel.exited fixed :)
    rw [exited, List.mem_append, List.mem_singleton] at member
    rcases member with old | rfl
    · exact .inl old
    · exact .inr ⟨_, _, _, _, _, _, thread, rfl, exit, running, rfl⟩
  | stage spawn => cases spawn <;> exact .inl member

end Consequences

namespace Kernel

section Runs

variable [Fintype σ] {kernel before after : Kernel σ} {action : Action σ}

theorem Conserved.of_move (conserved : before.Conserved) (moved : Move before after) :
    after.Conserved := by
  have ids : after.threadIds = before.threadIds := by
    rcases moved.population with same | stamped
    · rw [threadIds, same, threadIds]
    · rw [threadIds, stamped, threadIds_restamp, threadIds]
  have created : after.created = before.created := (congrArg Kernel.created moved.fixed :)
  have exited : after.exited = before.exited := (congrArg Kernel.exited moved.fixed :)
  have counter : after.counter = before.counter := (congrArg Kernel.counter moved.fixed :)
  refine ⟨?_, ?_, ?_, ?_⟩
  · simpa only [ids, created, exited] using conserved.exact
  · simpa only [created] using conserved.distinct
  · simpa only [created, counter] using conserved.bounded
  · simpa only [created, exited] using conserved.left

/-- A stage touches neither the held threads nor the ghost lists. -/
theorem Conserved.of_stage (conserved : before.Conserved) (spawn : Stage before action after) :
    after.Conserved := by
  have bounded (draws : Nat) : ∀ id ∈ before.created, id ≤ before.counter + draws := by
    intro id member
    exact Nat.le_trans (conserved.bounded id member) (Nat.le_add_right _ _)
  cases spawn with
  | failClosure thread table original draws running inside =>
    exact ⟨conserved.exact, conserved.distinct, bounded draws, conserved.left⟩
  | _ => exact ⟨conserved.exact, conserved.distinct, conserved.bounded, conserved.left⟩

theorem Conserved.of_birth (conserved : before.Conserved) {badge : Badge}
    (fresh : before.counter < badge.threadId) (drawn : badge.threadId ≤ after.counter)
    (population : after.occupants = badge ::ₘ before.occupants)
    (created : after.created = before.created ++ [badge.threadId])
    (exited : after.exited = before.exited) : after.Conserved := by
  have unused : badge.threadId ∉ before.created := by
    intro member
    exact Nat.not_lt.mpr (conserved.bounded _ member) fresh
  have absent : badge.threadId ∉ before.exited := fun member => unused (conserved.left _ member)
  refine ⟨?_, ?_, ?_, ?_⟩
  · intro id
    rw [threadIds, population, Multiset.map_cons, Multiset.count_cons, created, exited, ← threadIds,
      conserved.exact]
    by_cases same : id = badge.threadId
    · simp [same, unused, absent]
    · simp [same]
  · rw [created, ← List.concat_eq_append]
    exact conserved.distinct.concat unused
  · intro id member
    rw [created, List.mem_append, List.mem_singleton] at member
    rcases member with old | rfl
    · have := conserved.bounded id old
      omega
    · exact drawn
  · intro id member
    rw [created]
    exact List.mem_append_left _ (conserved.left id (exited ▸ member))

theorem Conserved.of_retire (conserved : before.Conserved) {thread : Thread}
    (running : before.runningThread = some thread)
    (population : before.occupants = thread.badge ::ₘ (before.retire thread).occupants) :
    (before.retire thread).Conserved := by
  have living : thread.threadId ∈ before.created ∧ thread.threadId ∉ before.exited :=
    conserved.held (before.badge_mem_of_running running)
  refine ⟨?_, conserved.distinct, conserved.bounded, ?_⟩
  · intro id
    have total := conserved.exact id
    rw [threadIds, population, Multiset.map_cons, Multiset.count_cons, ← threadIds] at total
    change _ = if id ∈ before.created ∧ id ∉ before.exited ++ [thread.threadId] then 1 else 0
    by_cases same : id = thread.threadId
    · subst same
      rw [if_pos living, if_pos (show thread.threadId = thread.badge.threadId from rfl)] at total
      simpa using total
    · simpa [same, Thread.badge] using total
  · intro id member
    rcases List.mem_append.mp member with old | new
    · exact conserved.left id old
    · rw [List.mem_singleton.mp new]
      exact living.1

theorem Conserved.of_outcome (conserved : before.Conserved) (outcome : Outcome before action after) :
    after.Conserved := by
  cases outcome with
  | move _ moved => exact conserved.of_move moved
  | draw =>
    refine ⟨conserved.exact, conserved.distinct, ?_, conserved.left⟩
    intro id member
    exact Nat.le_succ_of_le (conserved.bounded id member)
  | birth badge added stages counter lineage fresh drawn population fixed running cr3 =>
    refine conserved.of_birth fresh ?_ population (congrArg Kernel.created fixed :)
      (congrArg Kernel.exited fixed :)
    exact drawn.trans (Nat.le_of_eq (congrArg Kernel.counter fixed :).symm)
  | stage spawn => exact conserved.of_stage spawn
  | death thread exit running population =>
    have retired := conserved.of_retire running population
    unfold dropThread
    split
    · exact retired
    · split <;> exact ⟨retired.exact, retired.distinct, retired.bounded, retired.left⟩

theorem conserved_boot (keyboardSocket : σ) (kernelPageTable : Nat) :
    (boot keyboardSocket kernelPageTable).Conserved := by
  refine ⟨?_, List.nodup_nil, by simp [boot], by simp [boot]⟩
  intro id
  simp [boot, threadIds, occupants, Socket.threads]

variable [DecidableEq σ]

theorem conserved_run {actions : List (Action σ)} (conserved : before.Conserved)
    (run : Run Step before actions after) : after.Conserved ∧
      (∀ id ∈ before.created, id ∈ after.created) ∧ after.keyboardSocket = before.keyboardSocket := by
  induction run with
  | nil => exact ⟨conserved, fun _ member => member, rfl⟩
  | @snoc actions middle final action _ last ih =>
    obtain rfl := last
    obtain ⟨kept, created, keyboard⟩ := ih
    have outcome := perform_outcome kept action
    obtain ⟨_, more, same⟩ := outcome.grows
    exact ⟨kept.of_outcome outcome, fun id member => more id (created id member), same.trans keyboard⟩

theorem conserved_of_run {keyboardSocket : σ} {kernelPageTable : Nat} {actions : List (Action σ)}
    (run : Run Step (boot keyboardSocket kernelPageTable) actions kernel) : kernel.Conserved := by
  exact (conserved_run (conserved_boot keyboardSocket kernelPageTable) run).1

/-- Every created thread that has not exited is held exactly once, exited
threads are held nowhere, and an IPC call that returns leaves its caller running. -/
theorem thread_conservation (keyboardSocket : σ) (kernelPageTable : Nat)
    {actions : List (Action σ)} {kernel : Kernel σ}
    (run : Run Step (boot keyboardSocket kernelPageTable) actions kernel) :
    kernel.created.Nodup ∧
    (∀ id, kernel.threadIds.count id =
      if id ∈ kernel.created ∧ id ∉ kernel.exited then 1 else 0) ∧
    ∀ context syscallId arg1 arg2 arg3 memory caller frame,
      (syscallId &&& 0xFF).toNat ∈ [3, 4, 5] → kernel.runningThread = some caller →
      (kernel.dispatchSyscall context syscallId arg1 arg2 arg3 memory).2 = .returned frame →
      ∃ thread, (kernel.dispatchSyscall context syscallId arg1 arg2 arg3 memory).1.runningThread =
          some thread ∧ thread.threadId = caller.threadId := by
  have conserved := conserved_of_run run
  refine ⟨conserved.distinct, conserved.exact, ?_⟩
  intro context syscallId arg1 arg2 arg3 memory caller frame number running returned
  simp only [List.mem_cons, List.not_mem_nil, or_false] at number
  unfold dispatchSyscall at returned ⊢
  rcases number with receive | send | sendReceive
  · simp only [receive] at returned ⊢
    exact (sysReceive_move _ _ rfl).2 caller frame running returned
  · simp only [send] at returned ⊢
    exact (sysSend_move _ _ _ _ _ rfl).2 caller frame running returned
  · simp only [sendReceive] at returned ⊢
    exact (sysSend_move _ _ _ _ _ rfl).2 caller frame running returned

/-- Two kernel threads share one socket: the first is preempted, the second
blocks in a receive. -/
private def blocking : List (Action Unit) :=
  [.spawnKernelThread 0x1000 [()] 0x10000 {}, .timer ⟨0, {}⟩,
    .spawnKernelThread 0x2000 [()] 0x20000 {}, .timer ⟨0xf000, {}⟩,
    .syscall ⟨0x1f000, {}⟩ 3 0 0 0 ⟨none⟩]

/-- After it both threads are held once: one runs, the other is in the socket. -/
theorem thread_conservation_blocking :
    (blocking.foldl perform (boot () 1)).created = [1, 2] ∧
    (blocking.foldl perform (boot () 1)).exited = [] ∧
    (blocking.foldl perform (boot () 1)).runningThread.map Thread.threadId = some 1 ∧
    (blocking.foldl perform (boot () 1)).threadIds.count 2 = 1 := by
  refine ⟨by decide, by decide, by decide, ?_⟩
  have conservation := thread_conservation () 1 (Run.foldl perform (boot () 1) blocking)
  rw [conservation.2.1]
  decide

end Runs

end Kernel
end Zephyr
