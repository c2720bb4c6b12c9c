import Zephyr.Proc.SystemCall

/-! A thread that an interrupt takes the processor from. The frame of the
interrupt lies on the thread's own kernel stack, which nobody writes while the
thread is queued; whichever handler brings the thread back finds it there. -/

namespace Zephyr

open Transition Asm

section Entry

/-- The frame of an interrupt: five quadwords pushed by the processor, fifteen by
the wrapper. -/
def interruptFrame (cpu : Cpu) : ISF where
  r15 := cpu.reg .r15
  r14 := cpu.reg .r14
  r13 := cpu.reg .r13
  r12 := cpu.reg .r12
  r11 := cpu.reg .r11
  r10 := cpu.reg .r10
  r9 := cpu.reg .r9
  r8 := cpu.reg .r8
  rbp := cpu.reg .rbp
  rsi := cpu.reg .rsi
  rdi := cpu.reg .rdi
  rdx := cpu.reg .rdx
  rcx := cpu.reg .rcx
  rbx := cpu.reg .rbx
  rax := cpu.reg .rax
  instructionPointer := cpu.rip
  codeSegment := cpu.cs
  flags := cpu.flags
  stackPointer := cpu.reg .rsp
  stackSegment := cpu.ss

/-- Where the frame lies, below the end of the gate's stack. -/
def interruptContext (stack : UInt64) : UInt64 := (stack &&& ~~~ 15) - 160

theorem interruptFrame_reg (cpu : Cpu) : (interruptFrame cpu).reg = cpu.reg := by
  funext register
  cases register <;> rfl

variable (status : UInt64 → UInt64 → UInt64 → UInt64) {cpu : Cpu} {stack : UInt64}

theorem building_interrupt (star target : UInt64) :
    Building cpu (stack &&& ~~~ 15) (interruptFrame cpu).tail (cpu.interrupt stack star target) := by
  have empty : Building cpu (stack &&& ~~~ 15) [] (cpu.setReg .rsp (stack &&& ~~~ 15)) := by
    refine ⟨trivial, ?_, ?_⟩
    · simp [Cpu.setReg]
    · intro register other
      simp [Cpu.setReg, Function.update_of_ne other]
  have pushed := ((((empty.push (by simp) cpu.ss).push (by simp) (cpu.reg .rsp)).push (by simp)
    cpu.flags).push (by simp) cpu.cs).push (by simp) cpu.rip
  exact ⟨pushed.held, pushed.place, pushed.kept⟩

/-- The wrapper up to its `call`: the whole interrupted state is in the frame whose
address the handler is given. -/
theorem run_interruptWrapEntry (star target : UInt64) {after : Cpu}
    (ran : run status interruptWrapEntry (cpu.interrupt stack star target) = after) :
    StoredAt after.memory (interruptContext stack) (interruptFrame cpu).slots ∧
      after.reg .rdi = interruptContext stack := by
  have tail : Building cpu (stack &&& ~~~ 15) (interruptFrame cpu).tail (cpu.interrupt stack star target) :=
    building_interrupt star target
  generalize cpu.interrupt stack star target = start at tail ran
  have masked : Building cpu (stack &&& ~~~ 15) (interruptFrame cpu).tail (step status start .cli) :=
    ⟨tail.held, tail.place, tail.kept⟩
  have whole := masked.pushes status pushOrder (by decide) (by simp [pushOrder, ISF.tail])
  have registers : (pushOrder.map cpu.reg).reverse = popOrder.map (interruptFrame cpu).reg := rfl
  rw [registers, ← ISF.slots_eq] at whole
  rw [interruptWrapEntry, List.cons_append, run, List.foldl_cons, ← run, run_append] at ran
  generalize run status (pushOrder.map .push) (step status start .cli) = pushed at whole ran
  have place : pushed.reg .rsp = interruptContext stack := whole.place
  have held := whole.held
  rw [place] at held
  subst ran
  exact ⟨held, place⟩

theorem toNat_aligned (stack : UInt64) : (stack &&& ~~~ 15).toNat = stack.toNat / 16 * 16 := by
  have shifted : stack.toBitVec &&& ~~~ 15#64 = stack.toBitVec >>> 4 <<< 4 := by
    rw [BitVec.shiftLeft_ushiftRight]
    rfl
  have bound := stack.toNat_lt
  have value := congrArg BitVec.toNat shifted
  simp only [BitVec.toNat_shiftLeft, BitVec.toNat_ushiftRight, Nat.shiftLeft_eq,
    Nat.shiftRight_eq_div_pow, UInt64.toNat_toBitVec] at value
  exact value.trans (Nat.mod_eq_of_lt (by omega))

def OnStack (stackEnd : Nat) (addr : UInt64) : Prop :=
  stackEnd ≤ addr.toNat + kernelStackSize ∧ addr.toNat < stackEnd

theorem toNat_interruptContext (room : kernelStackSize ≤ stack.toNat) :
    (interruptContext stack).toNat = stack.toNat / 16 * 16 - 160 := by
  have size : kernelStackSize = 12288 := rfl
  have below : (160 : UInt64) ≤ stack &&& ~~~ 15 := by
    rw [UInt64.le_iff_toNat_le, toNat_aligned]
    show 160 ≤ _
    omega
  rw [interruptContext, UInt64.toNat_sub_of_le _ _ below, toNat_aligned]
  rfl

/-- Every quadword of the frame lies on the stack of the gate. -/
theorem interruptContext_onStack (room : kernelStackSize ≤ stack.toNat) {index : Nat} (inside : index < 20) :
    OnStack stack.toNat (interruptContext stack + 8 * UInt64.ofNat index) ∧
      interruptContext stack ≤ interruptContext stack + 8 * UInt64.ofNat index := by
  have size : kernelStackSize = 12288 := rfl
  have bound := stack.toNat_lt
  have start := toNat_interruptContext room
  have place : (interruptContext stack + 8 * UInt64.ofNat index).toNat =
      (interruptContext stack).toNat + 8 * index := by
    rw [UInt64.toNat_add, UInt64.toNat_mul, UInt64.toNat_ofNat']
    show (_ + 8 * _ % _) % _ = _
    omega
  refine ⟨⟨?_, ?_⟩, ?_⟩
  · omega
  · omega
  · rw [UInt64.le_iff_toNat_le]
    omega

/-- The program goes on in the interrupted state, as far as it can tell. -/
structure SameState (interrupted cpu : Cpu) : Prop where
  reg : cpu.reg = interrupted.reg
  rip : cpu.rip = interrupted.rip
  flags : cpu.flags = interrupted.flags
  cs : cpu.cs = interrupted.cs
  ss : cpu.ss = interrupted.ss

/-- With this memory, both ways of resuming from the address give the interrupted
state back. -/
def Resumes (cpu : Cpu) (address : Nat) (memory : UInt64 → UInt64) : Prop :=
  ∀ back : Cpu, back.memory = memory →
    ((back.reg .rdi).toNat = address →
      ∃ after, execute status userSelectors launchThread back = some after ∧ SameState cpu after) ∧
    ((back.reg .rax).toNat = address →
      ∃ after, execute status userSelectors interruptWrapExit back = some after ∧ SameState cpu after)

theorem sameState_of_loaded {after : Cpu} (loaded : (interruptFrame cpu).Loaded after)
    (code : after.cs = (interruptFrame cpu).codeSegment) (data : after.ss = (interruptFrame cpu).stackSegment) :
    SameState cpu after :=
  ⟨loaded.reg.trans (interruptFrame_reg cpu), loaded.rip, loaded.flags, code, data⟩

theorem resumes_of_storedAt {memory : UInt64 → UInt64} (valid : ValidFlags cpu.flags)
    (canonical : Asm.Canonical cpu.rip) (room : kernelStackSize ≤ stack.toNat)
    (held : StoredAt memory (interruptContext stack) (interruptFrame cpu).slots) :
    Resumes status cpu (interruptContext stack).toNat memory := by
  rintro back rfl
  constructor
  · intro place
    rw [← UInt64.toNat_inj.mp place] at held
    obtain ⟨after, executed, loaded, code, data⟩ := execute_launchThread status held valid canonical
    exact ⟨after, executed, sameState_of_loaded loaded code data⟩
  · intro place
    have returned : back.reg .rax ≠ 0 := by
      intro zero
      have size : kernelStackSize = 12288 := rfl
      rw [zero, toNat_interruptContext room] at place
      have empty : 0 = stack.toNat / 16 * 16 - 160 := place
      omega
    rw [← UInt64.toNat_inj.mp place] at held
    obtain ⟨after, executed, loaded, code, data⟩ :=
      execute_interruptWrapExit status returned held valid canonical
    exact ⟨after, executed, sameState_of_loaded loaded code data⟩

end Entry

/-- The handlers behind `interrupt_wrap!`, called with the context. -/
inductive Action.Interrupts {σ : Type} (context : Context) : Action σ → Prop where
  | timer : Interrupts context (.timer context)
  | keyboard (key : Option UInt64) : Interrupts context (.keyboard context key)

namespace Kernel

variable {σ : Type} {kernel : Kernel σ} {action : Action σ}

def StacksApart (thread other : Thread) : Prop :=
  thread.kernelStackEnd + kernelStackSize ≤ other.kernelStackEnd ∨
    other.kernelStackEnd + kernelStackSize ≤ thread.kernelStackEnd

theorem StacksApart.symm {thread other : Thread} (apart : StacksApart thread other) :
    StacksApart other thread := Or.symm apart

theorem StacksApart.not_onStack {thread other : Thread} (apart : StacksApart thread other) {addr : UInt64}
    (mine : OnStack thread.kernelStackEnd addr) : ¬ OnStack other.kernelStackEnd addr := by
  intro theirs
  obtain ⟨above, below⟩ := mine
  obtain ⟨start, finish⟩ := theirs
  rcases apart with before | behind <;> omega

/-- The heap hands out no kernel stack that overlaps a live thread's. -/
def FreshRange (kernel : Kernel σ) (action : Action σ) : Prop :=
  ∀ new, Newborn kernel action new → ∀ thread, kernel.Held thread → StacksApart thread new

/-- What an action and the code run before it write on the kernel stacks of queued
threads: only what lies on the running thread's stack, through the context pointer
of a parked thread, or on the stack of a new one. -/
def Writes (kernel : Kernel σ) (action : Action σ) (before after : UInt64 → UInt64) : Prop :=
  ∀ thread ∈ kernel.waitQueue, ∀ addr, OnStack thread.kernelStackEnd addr → after addr ≠ before addr →
    (∃ current, kernel.runningThread = some current ∧ OnStack current.kernelStackEnd addr) ∨
    (∃ name, ∃ parked ∈ (kernel.socket name).threads, OnStack parked.kernelStackEnd addr) ∨
    ∃ new, Newborn kernel action new ∧ OnStack new.kernelStackEnd addr

variable [DecidableEq σ] [Fintype σ]

/-- Live threads have kernel stacks of their own, the running one the installed stack. -/
structure Spread (kernel : Kernel σ) : Prop where
  conserved : kernel.Conserved
  installed : kernel.Installed
  apart : ∀ thread other, kernel.Held thread → kernel.Held other → thread.threadId ≠ other.threadId →
    StacksApart thread other

omit [DecidableEq σ] in
theorem spread_boot (keyboardSocket : σ) (kernelPageTable : Nat) :
    (boot keyboardSocket kernelPageTable).Spread := by
  have nobody (thread : Thread) : ¬ (boot keyboardSocket kernelPageTable).Held thread :=
    every_iff.mp (every_boot (fun _ => False) keyboardSocket kernelPageTable) thread
  exact ⟨conserved_boot keyboardSocket kernelPageTable, (fun _ running => nomatch running),
    fun thread _ held => absurd held (nobody thread)⟩

theorem Spread.perform (spread : kernel.Spread) (fresh : kernel.FreshRange action) :
    (kernel.perform action).Spread := by
  have conserved := spread.conserved
  refine ⟨conserved.of_outcome (perform_outcome conserved action), spread.installed.perform conserved, ?_⟩
  intro thread other held second different
  rcases held_origin held with ⟨old, known, same⟩ | ⟨new, born, same⟩ <;>
    rcases held_origin second with ⟨first, before, origin⟩ | ⟨twin, sibling, origin⟩ <;>
    unfold StacksApart <;> rw [← same.2, ← origin.2]
  · exact spread.apart old first known before (by rw [same.1, origin.1]; exact different)
  · exact fresh twin sibling old known
  · exact (fresh new born first before).symm
  · have same : thread.threadId = other.threadId := by rw [← same.1, ← origin.1, (born.unique sibling).1]
    exact absurd same different

omit [DecidableEq σ] in
theorem Conserved.queued_not_parked (conserved : kernel.Conserved) {queued parked : Thread} {name : σ}
    (member : queued ∈ kernel.waitQueue) (inside : parked ∈ (kernel.socket name).threads) :
    parked.threadId ≠ queued.threadId := by
  obtain ⟨rest, split⟩ := Multiset.exists_cons_of_mem (mem_badges.mpr ⟨queued, member, rfl⟩)
  have whole : kernel.occupants = queued.badge ::ₘ (badges kernel.runningThread.toList + rest +
      ∑ name, badges (kernel.socket name).threads) := by
    rw [occupants, split, Multiset.add_cons, Multiset.cons_add]
  have elsewhere : parked.badge ∈ ∑ name, badges (kernel.socket name).threads :=
    Multiset.mem_sum.mpr ⟨name, Finset.mem_univ _, mem_badges.mpr ⟨parked, inside, rfl⟩⟩
  exact conserved.alone whole (Multiset.mem_add.mpr (.inr elsewhere))

omit [DecidableEq σ] in
theorem Spread.untouched (spread : kernel.Spread) (fresh : kernel.FreshRange action)
    {before after : UInt64 → UInt64} (writes : kernel.Writes action before after) {thread : Thread}
    (queued : thread ∈ kernel.waitQueue) {addr : UInt64} (inside : OnStack thread.kernelStackEnd addr) :
    after addr = before addr := by
  have held : kernel.Held thread := .inr (.inl queued)
  by_contra changed
  rcases writes thread queued addr inside changed with
    ⟨current, running, theirs⟩ | ⟨name, other, parked, theirs⟩ | ⟨new, born, theirs⟩
  · have different := spread.conserved.not_queued running queued
    exact (spread.apart thread current held (.inl running) different).not_onStack inside theirs
  · have different := (spread.conserved.queued_not_parked queued parked).symm
    exact (spread.apart thread other held (.inr (.inr ⟨name, parked⟩)) different).not_onStack inside theirs
  · exact (fresh new born thread held).not_onStack inside theirs

omit [Fintype σ] in
/-- A key either wakes its receiver, and the interrupted thread gives way, or it
changes nothing for the thread. -/
theorem OffCpu.keyboardHandlerInner {roles : Roles} (off : kernel.OffCpu roles) (answered : roles.Answered)
    (context : Context) (key : Option UInt64) (stamped : ∀ thread ∈ kernel.preempted context, roles.ready thread)
    {result : Kernel σ × Nat} (handled : kernel.keyboardHandlerInner context key = result) :
    (result.1.Placed roles ∧ ∀ resumed, result.1.runningThread = some resumed → result.2 = resumed.context) ∨
      result.1.runningThread = kernel.runningThread ∧ result.2 = context.addr := by
  unfold Kernel.keyboardHandlerInner at handled
  cases key with
  | none =>
    subst handled
    exact .inr ⟨rfl, rfl⟩
  | some character =>
    dsimp only at handled
    have effect := Call.effect (kernel.socket kernel.keyboardSocket)
      (.send none (.packet messageTypeKey character 0))
    obtain ⟨parked, returned⟩ := effect.placed answered (off.parked _) (fun _ given => nomatch given)
    simp only [Call.perform] at parked returned
    generalize (kernel.socket kernel.keyboardSocket).sendMessage none
      (.packet messageTypeKey character 0) = exchange at parked returned handled
    simp only [Exchange.returned, List.forall_mem_append, Option.mem_toList] at returned
    have cleared := ((off.clearCurrentThread.setSocket kernel.keyboardSocket parked).scheduleSome
      returned.2).scheduleSome returned.1
    split at handled
    · left
      subst handled
      refine ⟨?_, fun resumed running => (schedule_picks _ context).resumes running⟩
      -- The queue and the sockets do not depend on who runs.
      have woken : (((kernel.setSocket kernel.keyboardSocket exchange.socket).scheduleSome
          exchange.second).scheduleSome exchange.first).OffCpu roles := by
        have queued := cleared.queued
        have sockets := cleared.parked
        obtain ⟨socket, first, second⟩ := exchange
        cases first <;> cases second <;> exact ⟨queued, sockets⟩
      apply woken.schedule
      rw [preempted, runningThread_scheduleSome, runningThread_scheduleSome, cr3_scheduleSome,
        cr3_scheduleSome]
      exact stamped
    · right
      subst handled
      rw [runningThread_scheduleSome, runningThread_scheduleSome]
      exact ⟨rfl, rfl⟩

/-- After the handler the interrupted thread waits with its frame, or it still runs
and goes back to the frame. -/
theorem Conserved.interrupted (conserved : kernel.Conserved) {caller : Thread} {saved : Context}
    (running : kernel.runningThread = some caller) (interrupts : action.Interrupts saved) :
    ((kernel.perform action).Placed (callRoles caller.threadId saved 9) ∧
      ∀ resumed, (kernel.perform action).runningThread = some resumed →
        kernel.resumption action = some resumed.context) ∨
    (kernel.perform action).runningThread = some caller ∧ kernel.resumption action = some saved.addr := by
  have off := conserved.offCpu running saved 9
  have stamped : ∀ thread ∈ kernel.preempted saved, (callRoles caller.threadId saved 9).ready thread := by
    intro thread stamped _
    obtain ⟨current, _, rfl⟩ := Option.map_eq_some_iff.mp stamped
    exact ⟨rfl, .silent, ⟨by decide, by decide, by decide, by decide⟩, rfl⟩
  cases interrupts with
  | timer =>
    refine .inl ⟨off.schedule saved stamped, fun resumed again => ?_⟩
    exact congrArg some ((kernel.schedule_picks saved).resumes again)
  | keyboard key =>
    rcases off.keyboardHandlerInner (answered_callRoles _ saved 9) saved key stamped rfl with
      ⟨placed, resumes⟩ | ⟨same, addr⟩
    · exact .inl ⟨placed, fun resumed again => congrArg some (resumes resumed again)⟩
    · exact .inr ⟨same.trans running, congrArg some addr⟩

end Kernel

/-- The kernel and the memory its stacks lie in. -/
structure Snapshot (σ : Type) where
  kernel : Kernel σ
  memory : UInt64 → UInt64

namespace Snapshot

variable {σ : Type} [DecidableEq σ] [Fintype σ] {snapshot : Snapshot σ} {id stackEnd : Nat} {saved : Context}
  {memory : UInt64 → UInt64}

structure Step (before : Snapshot σ) (action : Action σ) (after : Snapshot σ) : Prop where
  kernel : after.kernel = before.kernel.perform action
  fresh : before.kernel.FreshRange action
  writes : before.kernel.Writes action before.memory after.memory

/-- A step while the thread does not run. -/
def AbsentStep (id : Nat) (before : Snapshot σ) (action : Action σ) (after : Snapshot σ) : Prop :=
  before.kernel.Absent id ∧ before.Step action after

/-- The interrupted thread waits for its turn: it is held with its frame, and its
kernel stack is as it was. -/
structure Waits (id stackEnd : Nat) (saved : Context) (memory : UInt64 → UInt64) (snapshot : Snapshot σ) :
    Prop where
  spread : snapshot.kernel.Spread
  placed : snapshot.kernel.Placed (Kernel.callRoles id saved 9)
  held : ∃ thread, snapshot.kernel.Held thread ∧ thread.threadId = id ∧ thread.kernelStackEnd = stackEnd
  kept : ∀ addr, OnStack stackEnd addr → snapshot.memory addr = memory addr

omit [DecidableEq σ] in
theorem Waits.queued (waits : snapshot.Waits id stackEnd saved memory) (absent : snapshot.kernel.Absent id) :
    ∃ thread ∈ snapshot.kernel.waitQueue, thread.threadId = id ∧ thread.kernelStackEnd = stackEnd := by
  obtain ⟨thread, held, own, stack⟩ := waits.held
  rcases held with running | queued | ⟨name, parked⟩
  · exact absurd (by rw [running, Option.map_some, own]) absent
  · exact ⟨thread, queued, own, stack⟩
  · have parks := waits.placed.parked name
    exfalso
    cases found : snapshot.kernel.socket name with
    | empty => simp [found, Socket.threads] at parked
    | sending sender message =>
      rw [found] at parks parked
      have number := (parks thread (by simpa [Socket.threads] using parked) own).1
      omega
    | receiving receiver someTid =>
      rw [found] at parks parked
      obtain rfl : thread = receiver := by simpa [Socket.threads] using parked
      have number := (parks own).1
      omega
    | sendReceiving sender message =>
      rw [found] at parks parked
      obtain rfl : thread = sender := by simpa [Socket.threads] using parked
      have number := (parks own).1
      omega

theorem Waits.step {action : Action σ} {after : Snapshot σ} (waits : snapshot.Waits id stackEnd saved memory)
    (step : AbsentStep id snapshot action after) : after.Waits id stackEnd saved memory := by
  obtain ⟨absent, performed, fresh, writes⟩ := step
  obtain ⟨thread, queued, own, stack⟩ := waits.queued absent
  have conserved := waits.spread.conserved
  have live := conserved.live_of_held (.inr (.inl queued))
  rw [own] at live
  have spread := waits.spread.perform fresh
  obtain ⟨later, held, same⟩ := conserved.stays_held action (.inr (.inl queued)) fun current running leaver =>
    absent (by rw [running, Option.map_some, leaver, own])
  rw [own] at same
  rw [← performed] at spread held
  refine ⟨spread, ?_, ⟨later, held, same, ?_⟩, ?_⟩
  · rw [performed]
    exact waits.placed.of_absent absent (conserved.bounded id live.1) action
  · rw [performed] at held
    rw [← stack, (conserved.sameStack (.inr (.inl queued)) held (own.trans same.symm)).2]
  · intro addr inside
    rw [← waits.kept addr inside]
    exact waits.spread.untouched fresh writes queued (stack ▸ inside)

theorem of_run {keyboardSocket : σ} {kernelPageTable : Nat} {actions : List (Action σ)}
    (reached : Run Step ⟨Kernel.boot keyboardSocket kernelPageTable, memory⟩ actions snapshot) :
    snapshot.kernel.Spread ∧
      ∃ taken, Run Kernel.Step (Kernel.boot keyboardSocket kernelPageTable) taken snapshot.kernel := by
  apply reached.invariant ⟨Kernel.spread_boot keyboardSocket kernelPageTable, [], .nil⟩
  rintro before action after ⟨spread, taken, run⟩ step
  rw [step.kernel]
  exact ⟨spread.perform step.fresh, taken ++ [action], .snoc run rfl⟩

theorem absent_of_run {later : List (Action σ)} {after middle : Snapshot σ}
    (run : Run (AbsentStep id) after later middle) (absent : middle.kernel.Absent id) :
    after.kernel.Absent id := by
  induction run with
  | nil => exact absent
  | snoc _ last ih => exact ih last.1

/-- A thread interrupted by the timer or a key goes on as if nothing had happened.
Its whole state is in the frame that the handler is given; whichever step makes it
run again, at once or after any other threads, hands the assembly that frame's
address, and resuming from there gives every register, the instruction and stack
pointers, the flags and the segments back. -/
theorem preemption_is_transparent {keyboardSocket : σ} {kernelPageTable : Nat} {actions : List (Action σ)}
    {caller : Thread} (reached : Run Step ⟨Kernel.boot keyboardSocket kernelPageTable, memory⟩ actions snapshot)
    (running : snapshot.kernel.runningThread = some caller) (cpu : Cpu) (valid : ValidFlags cpu.flags)
    (canonical : Asm.Canonical cpu.rip) {stack : UInt64} (gate : stack.toNat = snapshot.kernel.interruptStack)
    (status : UInt64 → UInt64 → UInt64 → UInt64) (handler : UInt64) {entered : Cpu}
    (entry : Asm.run status interruptWrapEntry (cpu.interrupt stack kernelSegments.1 handler) = entered)
    {action : Action σ} (interrupts : action.Interrupts ⟨(entered.reg .rdi).toNat, interruptFrame cpu⟩)
    {after : Snapshot σ} (handled : Step ⟨snapshot.kernel, entered.memory⟩ action after)
    (below : ∀ addr, OnStack caller.kernelStackEnd addr → entered.reg .rdi ≤ addr →
      after.memory addr = entered.memory addr) :
    StoredAt entered.memory (entered.reg .rdi) (interruptFrame cpu).slots ∧
    (∀ resumed, after.kernel.runningThread = some resumed → resumed.threadId = caller.threadId →
      snapshot.kernel.resumption action = some (entered.reg .rdi).toNat ∧
        Resumes status cpu (entered.reg .rdi).toNat after.memory) ∧
    ∀ later middle last final resumed, Run (AbsentStep caller.threadId) after later middle →
      AbsentStep caller.threadId middle last final → final.kernel.runningThread = some resumed →
      resumed.threadId = caller.threadId →
      middle.kernel.resumption last = some (entered.reg .rdi).toNat ∧
        Resumes status cpu (entered.reg .rdi).toNat final.memory := by
  obtain ⟨spread, taken, run⟩ := of_run reached
  have room := Kernel.kernelStackSize_le_of_run run running
  rw [← gate] at room
  rw [spread.installed caller running] at gate
  obtain ⟨built, place⟩ := run_interruptWrapEntry status kernelSegments.1 handler entry
  have frameKept : StoredAt after.memory (interruptContext stack) (interruptFrame cpu).slots := by
    apply built.congr
    intro index inside
    obtain ⟨onStack, above⟩ := interruptContext_onStack room inside
    exact below _ (gate ▸ onStack) (place ▸ above)
  rw [place] at interrupts ⊢
  have outcome := spread.conserved.interrupted running interrupts
  have performed := handled.kernel
  dsimp only at performed
  rw [← performed] at outcome
  refine ⟨built, ?_, ?_⟩
  · intro resumed again own
    refine ⟨?_, resumes_of_storedAt status valid canonical room frameKept⟩
    rcases outcome with ⟨placed, resumes⟩ | ⟨_, addr⟩
    · rw [resumes resumed again, (placed.running resumed again own).1]
    · exact addr
  · intro later middle last final resumed meanwhile step again own
    have absent := absent_of_run meanwhile step.1
    rcases outcome with ⟨placed, _⟩ | ⟨still, _⟩
    · have started : after.Waits caller.threadId caller.kernelStackEnd
          ⟨(interruptContext stack).toNat, interruptFrame cpu⟩ after.memory := by
        have stays : ¬ snapshot.kernel.Exits action := by
          intro exits
          cases interrupts <;> exact exits
        obtain ⟨thread, held, same, stackEnd⟩ := spread.conserved.persists stays (.inl running)
        have fresh := spread.perform handled.fresh
        rw [← performed] at held fresh
        exact ⟨fresh, placed, ⟨thread, held, same.symm, stackEnd.symm⟩, fun _ _ => rfl⟩
      have waits : middle.Waits caller.threadId caller.kernelStackEnd
          ⟨(interruptContext stack).toNat, interruptFrame cpu⟩ after.memory :=
        meanwhile.invariant started fun waits step => waits.step step
      have finished := waits.step step
      have context := (finished.placed.running resumed again own).1
      constructor
      · rw [step.2.kernel] at again
        rw [Kernel.resumption_eq (own ▸ step.1) again, context]
      · apply resumes_of_storedAt status valid canonical room
        apply frameKept.congr
        intro index inside
        obtain ⟨onStack, _⟩ := interruptContext_onStack room inside
        exact finished.kept _ (gate ▸ onStack)
    · exact absurd (by rw [still]; rfl) absent

section Example

/-- A kernel thread in the middle of its work. -/
private def working : Cpu where
  reg register := if register = .rsp then 0x1D000 else 7
  rip := 0x201000
  flags := 0x202
  cs := 0x08
  ss := 0x10
  gsBase := 0
  kernelGsBase := 0x4000
  memory _ := 0

private def first : Kernel Unit := (Kernel.boot () 1).perform (.spawnKernelThread 0x1000 [] 0x20000 {})
private def both : Kernel Unit := first.perform (.spawnKernelThread 0x1000 [] 0x10000 {})
private def busy : Kernel Unit := both.perform (.timer ⟨0x8000, {}⟩)

private theorem step_quiet {kernel : Kernel Unit} {action : Action Unit} {memory : UInt64 → UInt64}
    (fresh : kernel.FreshRange action) : Step ⟨kernel, memory⟩ action ⟨kernel.perform action, memory⟩ :=
  ⟨rfl, fresh, fun _ _ _ _ changed => absurd rfl changed⟩

private theorem freshRange_timer (kernel : Kernel Unit) (context : Context) :
    kernel.FreshRange (.timer context) := by
  intro new born
  cases born

private theorem run_busy : Run Step ⟨Kernel.boot () 1, working.memory⟩
    [.spawnKernelThread 0x1000 [] 0x20000 {}, .spawnKernelThread 0x1000 [] 0x10000 {}, .timer ⟨0x8000, {}⟩]
    ⟨busy, working.memory⟩ := by
  have nobody : (Kernel.boot () 1).FreshRange (.spawnKernelThread 0x1000 [] 0x20000 {}) := by
    intro new _ thread held
    exact (Kernel.every_iff.mp (Kernel.every_boot (fun _ => False) () 1) thread held).elim
  have second : first.FreshRange (.spawnKernelThread 0x1000 [] 0x10000 {}) := by
    intro new born thread held
    cases born
    rcases held with running | queued | ⟨name, parked⟩
    · cases running
    · obtain rfl := List.mem_singleton.mp queued
      right
      decide
    · cases parked
  exact .snoc (.snoc (.snoc .nil (step_quiet nobody)) (step_quiet second)) (step_quiet (freshRange_timer both _))

/-- The thread is interrupted, another one has its turn, and it is back. -/
theorem preemption_is_transparent_turn : ∃ (final : Snapshot Unit) (resumed : Thread),
    final.kernel.runningThread = some resumed ∧ resumed.threadId = 2 ∧
      Resumes (fun _ _ _ => 0) working (interruptContext 0x13000).toNat final.memory := by
  have gate : (0x13000 : UInt64).toNat = busy.interruptStack := rfl
  obtain ⟨_, _, back⟩ := preemption_is_transparent run_busy rfl working (by decide) (by decide) gate
    (fun _ _ _ => 0) 0x200000 rfl .timer (step_quiet (freshRange_timer busy _)) fun _ _ _ => rfl
  have others : (some 1 : Option Nat) ≠ some 2 := by decide
  have again := back [] _ (.timer ⟨0x8000, {}⟩) _ _ .nil ⟨others, step_quiet (freshRange_timer _ _)⟩ rfl rfl
  exact ⟨_, _, rfl, rfl, again.2⟩

end Example

end Snapshot

end Zephyr
