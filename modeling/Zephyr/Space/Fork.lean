import Zephyr.Mem.Draws
import Zephyr.Mem.SlotReuse
import Zephyr.Space.Launch

/-! `fork_current_thread` over memory. A fork that fails has no undo: the pages that
`allocate_user_stack` mapped before it ran out of frames stay mapped. -/

namespace Zephyr

open Radix PageTableFlags Transition
open PageFrameAllocator (Grabs CursorReady)
open StackMemory (slotStack pageEntry onStack_entry)

namespace MemoryInfo

/-- A table with stacks in the given slots, each of them entered. -/
structure InOrder (root : Nat) (slots : List Nat) (info : MemoryInfo) : Prop where
  sound : info.Sound root
  ordered : Stacks root slots info
  standing : Standing root slots info

/-- The search stays in the table, and either there is no empty slot, or ten frames are
ready and there is `room` for what comes after the stack, or not even the first frame is. -/
def WholeStack (info : MemoryInfo) (table nStart : Nat) (room : Prop) : Prop :=
  info.StaysInside table nStart ∧
    ((∀ n < 63, ¬ info.SlotEmpty table n) ∨ info.frameAllocator.CursorReady 10 ∧ room ∨
      ∃ frameAllocator, info.frameAllocator.allocateFrame = .ok (none, frameAllocator))

/-- Ten pages that were unused, with frames that were, apart from the stacks there are. -/
structure NewStack (root : Nat) (slots : List Nat) (before after : MemoryInfo) (stack : VirtAddr × VirtAddr) :
    Prop where
  size : stack.2 = stack.1 + 10 * 4096
  unused : ∀ addr, stack.1 ≤ addr → addr < stack.2 → pageEntry before root addr = 0
  mapped : ∀ addr, stack.1 ≤ addr → addr < stack.2 → (pageEntry after root addr).flags = userPage ∧
    before.frameAllocator.frameUsage (pageEntry after root addr).addr = false
  apart : ∀ n ∈ slots, (slotStack n).2 ≤ stack.1 ∨ stack.2 ≤ (slotStack n).1

/-- The entries of the stacks and the frames in use are as they were. -/
structure Untouched (root : Nat) (before after : MemoryInfo) : Prop where
  entries : ∀ k, after.stackEntry root k = before.stackEntry root k
  used : ∀ frame, after.frameAllocator.frameUsage frame = before.frameAllocator.frameUsage frame

/-- What `allocate_user_stack` should leave, with its result. -/
def StackOrNothing (root : Nat) (slots : List Nat) (before : MemoryInfo) :
    Except String (VirtAddr × VirtAddr) → MemoryInfo → Prop
  | .ok stack, after => NewStack root slots before after stack
  | .error _, after => Untouched root before after

section Stack

variable {root table n nStart : Nat} {slots indices : List Nat} {info after : MemoryInfo}

theorem Untouched.refl (root : Nat) (info : MemoryInfo) : Untouched root info info := ⟨fun _ => rfl, fun _ => rfl⟩

theorem fillSlot_ready (returned : info.fillSlot table indices = .ok (.ok (), after)) :
    info.frameAllocator.CursorReady indices.length := by
  have grabbed : ∃ frames, Grabs info.frameAllocator frames after.frameAllocator ∧ frames.length = indices.length := by
    induction indices generalizing info with
    | nil =>
      cases returned
      exact ⟨[], .nil, rfl⟩
    | cons index indices ih =>
      obtain ⟨_, ⟨failed, _⟩ | ⟨frame, frameAllocator, takes, rest⟩⟩ := fillSlot_cons returned
      · cases failed
      · obtain ⟨frames, grabs, count⟩ := ih rest
        exact ⟨frame :: frames, .cons takes grabs, congrArg (· + 1) count⟩
  obtain ⟨frames, grabs, count⟩ := grabbed
  exact count ▸ grabs.cursorReady

theorem allocateUserStack_found (found : tableAt info.memory root userStackPageIndex = some table) (nStart : Nat) :
    info.allocateUserStack root nStart = info.findSlot table nStart (List.range 64) := by
  rw [allocateUserStack, stackTable_found found]

theorem InOrder.newStack (order : InOrder root slots info) (low : n < 63)
    (found : tableAt info.memory root userStackPageIndex = some table) (empty : info.SlotEmpty table n)
    (filled : info.fillSlot table (slotPages n) = .ok (.ok (), after)) :
    NewStack root slots info after (slotStack n) := by
  have bounded : n * 8 + 10 < 512 := by omega
  have blank : ∀ k : Fin 512, n * 8 + 1 ≤ k.1 → k.1 ≤ n * 8 + 10 → info.stackEntry root k = 0 := by
    intro k least most
    rw [stackEntry, entryAt_of_tableAt found]
    exact empty k least most
  obtain ⟨frames, backs, _, all⟩ := fillSlot_backs order.sound order.ordered found slotPages_nodup
    (fun k listed => blank k (mem_slotPages.mp listed).1 (mem_slotPages.mp listed).2) filled
  refine ⟨?_, fun addr least most => ?_, fun addr least most => ?_, fun m listed => ?_⟩
  · change slotAddress n + 11 * 4096 = slotAddress n + 4096 + 10 * 4096
    omega
  · obtain ⟨k, first, last, _, entry⟩ := onStack_entry bounded least most
    rw [entry]
    exact blank k first last
  · obtain ⟨k, first, last, _, entry⟩ := onStack_entry bounded least most
    obtain ⟨frame, member, backed⟩ := all rfl k (mem_slotPages.mpr ⟨first, last⟩)
    obtain ⟨flags, addr⟩ := userPage_setAddr (backs.grabs.bounded member)
    rw [entry, backed, flags, addr]
    exact ⟨rfl, (backs.grabs.available member).2⟩
  · have apart := order.standing.apart_of_empty listed bounded blank
    change slotAddress m + 11 * 4096 ≤ slotAddress n + 4096 ∨ slotAddress n + 11 * 4096 ≤ slotAddress m + 4096
    unfold slotAddress
    omega

theorem InOrder.newStack_of_ok {stack : VirtAddr × VirtAddr} (order : InOrder root slots info)
    (found : tableAt info.memory root userStackPageIndex = some table)
    (returned : info.allocateUserStack root nStart = .ok (.ok stack, after)) : NewStack root slots info after stack := by
  rw [allocateUserStack_found found] at returned
  cases search info table nStart with
  | full _ _ _ full => cases full.symm.trans returned
  | overrun _ _ _ panics => cases panics.symm.trans returned
  | backs n low empty _ _ backs =>
    rw [backs] at returned
    cases filled : info.fillSlot table (slotPages n) with
    | error panic =>
      rw [filled] at returned
      cases returned
    | ok pair =>
      rw [filled] at returned
      obtain ⟨result, reached⟩ := pair
      cases result with
      | error error => cases returned
      | ok =>
        cases returned
        exact order.newStack low found empty filled

/-- A slot without ten frames is left half backed, unless the first frame is missing. -/
theorem not_untouched (root : Nat) (short : ¬ info.frameAllocator.CursorReady 10)
    (some_ : ¬ ∃ frameAllocator, info.frameAllocator.allocateFrame = .ok (none, frameAllocator))
    {result : Except String Unit} (filled : info.fillSlot table (slotPages n) = .ok (result, after)) :
    (∃ error, result = .error error) ∧ ¬ Untouched root info after := by
  cases result with
  | ok => exact absurd (fillSlot_ready filled) short
  | error error =>
    refine ⟨⟨error, rfl⟩, fun untouched => ?_⟩
    have pages : slotPages n = (n * 8 + 1) :: (slotPages n).tail := rfl
    rw [pages, fillSlot] at filled
    split at filled
    · split at filled
      · cases filled
      · rename_i allocated
        exact some_ ⟨_, allocated⟩
      · rename_i frame frameAllocator allocated
        have takes : info.frameAllocator.Takes frame frameAllocator := allocated
        have used := (draws_fillSlot filled).used ((takes.frameUsage frame).mpr (.inl rfl))
        rw [untouched.used frame, takes.available.2] at used
        cases used
    · cases filled

theorem fillSlot_stuck {frameAllocator : PageFrameAllocator} {index : Nat}
    (stopped : info.frameAllocator.allocateFrame = .ok (none, frameAllocator)) (inside : index < 512) :
    info.fillSlot table (index :: indices) = .ok (.error "Failed to allocate frame", info) := by
  cases PageFrameAllocator.allocation stopped
  rw [fillSlot, dif_pos inside, stopped]

/-- `allocate_user_stack` maps a whole stack, with room for the rest, or nothing if and only
if it does not run out of the table, nor out of frames after the first. -/
theorem InOrder.allocateUserStack_iff (order : InOrder root slots info)
    (found : tableAt info.memory root userStackPageIndex = some table) (room : Prop) :
    (∃ result after, info.allocateUserStack root nStart = .ok (result, after) ∧
      StackOrNothing root slots info result after ∧ ((∃ stack, result = .ok stack) → room)) ↔
        info.WholeStack table nStart room := by
  have nothing : ∀ error : String, (∃ stack : VirtAddr × VirtAddr, Except.error error = .ok stack) → room := by
    rintro error ⟨stack, same⟩
    cases same
  rw [allocateUserStack_found found]
  cases search info table nStart with
  | full passed closed _ full =>
    exact iff_of_true ⟨_, _, full, Untouched.refl root info, nothing _⟩ ⟨.inl closed, .inl passed⟩
  | overrun passed open_ _ panics =>
    refine iff_of_false ?_ ?_
    · rintro ⟨result, after, returned, _⟩
      cases panics.symm.trans returned
    · rintro ⟨closed | ⟨n, above, low, empty⟩, _⟩
      · exact closed open_
      · exact passed n above low empty
  | backs n low empty first _ backs =>
    have stays : info.StaysInside table nStart :=
      first.elim (fun above => .inr ⟨n, above, low, empty⟩) .inl
    have inside : ∀ index ∈ slotPages n, index < 512 := by
      intro index listed
      have range := mem_slotPages.mp listed
      omega
    rw [backs]
    constructor
    · rintro ⟨result, after, returned, outcome, needs⟩
      refine ⟨stays, .inr ?_⟩
      by_cases stuck : ∃ frameAllocator, info.frameAllocator.allocateFrame = .ok (none, frameAllocator)
      · exact .inr stuck
      cases filled : info.fillSlot table (slotPages n) with
      | error panic =>
        rw [filled] at returned
        cases returned
      | ok pair =>
        rw [filled] at returned
        obtain ⟨backed, reached⟩ := pair
        obtain ⟨rfl, rfl⟩ := Prod.mk.inj (Except.ok.inj returned)
        by_cases ready : info.frameAllocator.CursorReady 10
        · have enough : info.frameAllocator.CursorReady ((slotPages n).length + 0) := ready
          obtain ⟨_, whole, _⟩ := fillSlot_succeeds table inside enough
          obtain ⟨rfl, _⟩ := Prod.mk.inj (Except.ok.inj (whole.symm.trans filled))
          exact .inl ⟨ready, needs ⟨_, rfl⟩⟩
        · obtain ⟨⟨error, rfl⟩, touched⟩ := not_untouched root ready stuck filled
          exact absurd outcome touched
    · rintro ⟨_, full | ⟨ready, enters⟩ | ⟨frameAllocator, stopped⟩⟩
      · exact absurd empty (full n low)
      · have enough : info.frameAllocator.CursorReady ((slotPages n).length + 0) := ready
        obtain ⟨after, filled, _⟩ := fillSlot_succeeds table inside enough
        rw [filled]
        exact ⟨.ok (slotStack n), after, rfl, order.newStack low found empty filled, fun _ => enters⟩
      · have filled : info.fillSlot table (slotPages n) = .ok (.error "Failed to allocate frame", info) :=
          fillSlot_stuck stopped (inside _ (List.mem_cons_self ..))
        rw [filled]
        exact ⟨_, _, rfl, Untouched.refl root info, nothing _⟩

end Stack

theorem UserTree.inOrder {foreign : Nat → Prop} {root : Nat} {slots : List Nat} {info : MemoryInfo}
    (tree : UserTree foreign root slots [] info) : InOrder root slots info where
  sound := tree.owns.sound
  ordered := by
    refine ⟨tree.way, tree.flags, fun k _ page => tree.used _ _ _ (pageAt_of_stackEntry page),
      fun k other _ _ page twin same => ?_⟩
    have first := pageAt_of_stackEntry page
    rw [same] at first
    exact (tree.lone other _ _ _ (pageAt_of_stackEntry twin) first).2
  standing := tree.standing

end MemoryInfo

open MemoryInfo

variable {σ : Type}

theorem Kernel.forkCurrentThread_fails {kernel : Kernel σ} {current : Thread}
    (running : kernel.runningThread = some current) (context : Context) :
    (kernel.forkCurrentThread context none).1.waitQueue = kernel.waitQueue ∧
      (kernel.forkCurrentThread context none).2.rax = syscallErrorMemalloc := by
  rw [Kernel.forkCurrentThread, running]
  exact ⟨rfl, rfl⟩

namespace System

/-- `fork_current_thread` with the stack it allocates; the caller's frame comes back.
`kernelStackStart` is what the heap gives for the kernel stack, if it has room. -/
def forkCurrentThread (system : System σ) [DecidableEq σ] [Fintype σ] (context : Context)
    (kernelStackStart : Option Nat) : Except Panic (System σ × ISF) :=
  match system.syscallMemory 0 kernelStackStart with
  | .error panic => .error panic
  | .ok (stack, info) =>
    let (kernel, frame) := system.kernel.forkCurrentThread context stack
    .ok ({ system with kernel, info }, frame)

/-- The active table and the threads in it, as fork relies on them. -/
structure InOrder (slots : List Nat) (system : System σ) : Prop where
  memory : MemoryInfo.InOrder system.kernel.cr3 slots system.info
  active : ∀ thread, system.kernel.runningThread = some thread → thread.threadType = .user →
    thread.pageTablePhys = system.kernel.cr3
  housed : system.kernel.Every fun thread => thread.threadType = .user →
    thread.pageTablePhys = system.kernel.cr3 → ∃ n ∈ slots, thread.userStackEnd = (slotStack n).2
  numbered : system.kernel.Every fun thread => thread.threadId ≤ system.kernel.counter

/-- A fork that succeeded: one new thread `child` with a new stack. -/
structure Forked (before : System σ) (current : Thread) (context : Context) (after : System σ) (frame : ISF)
    (child : Thread) (stack : VirtAddr × VirtAddr) : Prop where
  queue : after.kernel.waitQueue = before.kernel.waitQueue ++ [child]
  running : after.kernel.runningThread = before.kernel.runningThread
  sockets : after.kernel.socket = before.kernel.socket
  nonzero : child.threadId ≠ 0
  fresh : before.kernel.Every fun thread => thread.threadId ≠ child.threadId
  process : child.process = current.process
  table : child.pageTablePhys = current.pageTablePhys
  top : child.userStackEnd = stack.2
  saved : child.frame = { context.frame with stackPointer := UInt64.ofNat stack.2, rax := 0, rdi := 0 }
  reply : frame = { context.frame with rax := 0, rdi := UInt64.ofNat child.threadId }
  size : stack.2 = stack.1 + 10 * 4096
  unused : ∀ addr, stack.1 ≤ addr → addr < stack.2 → pageEntry before.info current.pageTablePhys addr = 0
  mapped : ∀ addr, stack.1 ≤ addr → addr < stack.2 →
    (pageEntry after.info current.pageTablePhys addr).flags = userPage ∧
      before.info.frameAllocator.frameUsage (pageEntry after.info current.pageTablePhys addr).addr = false
  apart : before.kernel.Every fun thread => thread.threadType = .user →
    thread.pageTablePhys = current.pageTablePhys →
      thread.userStackEnd ≤ stack.1 ∨ stack.2 ≤ thread.userStackEnd - 10 * 4096

/-- A fork that failed and left nothing behind. -/
structure Refused (before : System σ) (current : Thread) (after : System σ) (frame : ISF) : Prop where
  code : frame.rax ≠ 0
  queue : after.kernel.waitQueue = before.kernel.waitQueue
  memory : Untouched current.pageTablePhys before.info after.info

/-- Fork returns, with one more thread or with everything as it was. -/
def ForksOrNothing (before : System σ) [DecidableEq σ] [Fintype σ] (current : Thread) (context : Context)
    (kernelStackStart : Option Nat) : Prop :=
  ∃ after frame, before.forkCurrentThread context kernelStackStart = .ok (after, frame) ∧
    ((∃ child stack, Forked before current context after frame child stack) ∨ Refused before current after frame)

variable [DecidableEq σ] [Fintype σ] {system : System σ} {slots : List Nat} {current : Thread} {table : Nat}

section Memory

variable {info : MemoryInfo} {stack : VirtAddr × VirtAddr} {error : String}

theorem forkCurrentThread_ok (running : system.kernel.runningThread = some current)
    (called : system.info.allocateUserStack system.kernel.cr3 (system.kernel.counter + 1) = .ok (.ok stack, info))
    (context : Context) (kernelStackStart : Nat) :
    system.forkCurrentThread context (some kernelStackStart) =
      let forked := system.kernel.forkCurrentThread context (some (stack.2, kernelStackStart))
      .ok ({ system with kernel := forked.1, info }, forked.2) := by
  simp only [forkCurrentThread, syscallMemory, running, called]

/-- On a full heap the kernel stops with the new user stack mapped. -/
theorem forkCurrentThread_full (running : system.kernel.runningThread = some current)
    (called : system.info.allocateUserStack system.kernel.cr3 (system.kernel.counter + 1) = .ok (.ok stack, info))
    (context : Context) : system.forkCurrentThread context none = .error .allocError := by
  simp only [forkCurrentThread, syscallMemory, running, called]

theorem forkCurrentThread_refused (running : system.kernel.runningThread = some current)
    (called : system.info.allocateUserStack system.kernel.cr3 (system.kernel.counter + 1) = .ok (.error error, info))
    (context : Context) (kernelStackStart : Option Nat) :
    system.forkCurrentThread context kernelStackStart =
      let forked := system.kernel.forkCurrentThread context none
      .ok ({ system with kernel := forked.1, info }, forked.2) := by
  simp only [forkCurrentThread, syscallMemory, running, called]

theorem forkCurrentThread_panics {panic : Panic} (running : system.kernel.runningThread = some current)
    (called : system.info.allocateUserStack system.kernel.cr3 (system.kernel.counter + 1) = .error panic)
    (context : Context) (kernelStackStart : Option Nat) :
    system.forkCurrentThread context kernelStackStart = .error panic := by
  simp only [forkCurrentThread, syscallMemory, running, called]

end Memory

omit [DecidableEq σ] [Fintype σ] in
theorem InOrder.forked {info : MemoryInfo} {stack : VirtAddr × VirtAddr} (order : system.InOrder slots)
    (running : system.kernel.runningThread = some current) (user : current.threadType = .user)
    (new : NewStack system.kernel.cr3 slots system.info info stack) (context : Context) (kernelStackStart : Nat) :
    ∃ child, Forked system current context
      { system with kernel := (system.kernel.forkCurrentThread context (some (stack.2, kernelStackStart))).1, info }
      (system.kernel.forkCurrentThread context (some (stack.2, kernelStackStart))).2 child stack := by
  have table := order.active current running user
  have forked : ∃ child : Thread, system.kernel.forkCurrentThread context (some (stack.2, kernelStackStart)) =
      ({ system.kernel with
          counter := system.kernel.counter + 2
          waitQueue := system.kernel.waitQueue ++ [child]
          created := system.kernel.created ++ [child.threadId] },
        { context.frame with rax := 0, rdi := UInt64.ofNat child.threadId }) ∧
      child.threadId = system.kernel.counter + 2 ∧ child.process = current.process ∧
      child.pageTablePhys = current.pageTablePhys ∧ child.userStackEnd = stack.2 ∧
      child.frame = { context.frame with stackPointer := UInt64.ofNat stack.2, rax := 0, rdi := 0 } := by
    rw [Kernel.forkCurrentThread, running]
    exact ⟨_, rfl, rfl, rfl, rfl, rfl, rfl⟩
  obtain ⟨child, result, id, process, sameTable, top, saved⟩ := forked
  rw [result]
  refine ⟨child, ⟨rfl, rfl, rfl, by omega, ?_, process, sameTable, top, saved, rfl, new.size, ?_, ?_, ?_⟩⟩
  · rw [Kernel.every_iff]
    intro thread held same
    have bound := Kernel.every_iff.mp order.numbered thread held
    omega
  · rw [table]
    exact new.unused
  · rw [table]
    exact new.mapped
  · rw [Kernel.every_iff]
    intro thread held type same
    obtain ⟨n, listed, isTop⟩ := Kernel.every_iff.mp order.housed thread held type (same.trans table)
    have bottom : (slotStack n).2 - 10 * 4096 = (slotStack n).1 := by
      change slotAddress n + 11 * 4096 - 10 * 4096 = slotAddress n + 4096
      omega
    rw [isTop, bottom]
    exact new.apart n listed

omit [DecidableEq σ] [Fintype σ] in
/-- A fork without a stack does not look like one that succeeded. -/
theorem not_forked {after : System σ} {child : Thread} {stack : VirtAddr × VirtAddr} {context : Context}
    (running : system.kernel.runningThread = some current) :
    ¬ Forked system current context after (system.kernel.forkCurrentThread context none).2 child stack := by
  intro forked
  have success : (system.kernel.forkCurrentThread context none).2.rax = 0 := congrArg ISF.rax forked.reply
  have code := (Kernel.forkCurrentThread_fails running context).2
  exact absurd (code.symm.trans success) (by decide)

theorem perform_fork (mapper : Mapper) {syscallId : UInt64} (number : (syscallId &&& 0xFF).toNat = 0) (context : Context)
    (arg1 arg2 arg3 : UInt64) (kernelStackStart : Option Nat) :
    system.perform mapper (.syscall context syscallId arg1 arg2 arg3 kernelStackStart) =
      match system.forkCurrentThread { context with frame := Kernel.withSegments context.frame } kernelStackStart with
      | .error panic => .error (.panic panic)
      | .ok (after, frame) => .ok { after with selectors := syscallSelectors after.kernel (.returned frame) } := by
  simp only [perform, forkCurrentThread, number, Kernel.dispatchSyscall]
  cases system.syscallMemory 0 kernelStackStart <;> rfl

omit [DecidableEq σ] in
theorem inOrder_of_tenancy {boot : MemoryInfo} {trees : Owner → Option Tree} (tenancy : Tenancy boot trees system)
    (running : system.kernel.runningThread = some current) (user : current.threadType = .user) :
    ∃ slots, system.InOrder slots := by
  obtain ⟨tree, _, found, root, _⟩ := tenancy.tenants.running current running user
  have active := tenancy.housed.active current running user
  have kept := (tenancy.isolated.tree _ tree found).inOrder
  rw [root, ← active] at kept
  refine ⟨tree.slots, kept, fun thread again type => (tenancy.housed.active thread again type).symm, ?_, ?_⟩
  · rw [Kernel.every_iff]
    intro thread held type same
    obtain ⟨own, n, at_process, table, listed, top⟩ := Kernel.every_iff.mp tenancy.tenants thread held type
    have equal : own = tree := by
      by_cases other : Owner.process thread.process = Owner.process current.process
      · rw [other] at at_process
        exact Option.some.inj (at_process.symm.trans found)
      · -- two trees with one root would share its frame
        have twice : own.root = tree.root := by rw [table, same, active, root]
        have shared : Holds system.info.memory tree.root own.root := by
          rw [twice]
          exact .inl (root_mem_tableSet (by decide))
        exact (tenancy.isolated.apart _ _ own tree at_process found other own.root
          (.inl (root_mem_tableSet (by decide))) shared).elim
    exact ⟨n, equal ▸ List.mem_map_of_mem listed, top⟩
  · rw [Kernel.every_iff]
    intro thread held
    exact tenancy.housed.conserved.bounded _ (tenancy.housed.conserved.live_of_held held).1

/-- Fork adds exactly one thread, or fails and leaves everything as it was, if and only
if the search for a slot stays in the table, the frames do not run out halfway, and the heap
has room for the kernel stack once the user stack is mapped. -/
theorem fork_all_or_nothing_iff (order : system.InOrder slots) (running : system.kernel.runningThread = some current)
    (user : current.threadType = .user) (context : Context) (kernelStackStart : Option Nat) :
    ∃ table, tableAt system.info.memory current.pageTablePhys userStackPageIndex = some table ∧
      (system.ForksOrNothing current context kernelStackStart ↔
        system.info.WholeStack table (system.kernel.counter + 1) (kernelStackStart ≠ none)) := by
  have root := order.active current running user
  obtain ⟨n, listed, _⟩ := order.housed.running current running user root
  obtain ⟨bounded, entered⟩ := order.memory.standing.entered n listed
  obtain ⟨table, found, _⟩ := tableAt_of_entryAt_ne (entered ⟨n * 8 + 10, bounded⟩ (by simp) (Nat.le_refl _))
  refine ⟨table, by rw [root]; exact found, ?_⟩
  rw [← order.memory.allocateUserStack_iff found, ForksOrNothing]
  constructor
  · rintro ⟨after, frame, returned, outcome⟩
    cases called : system.info.allocateUserStack system.kernel.cr3 (system.kernel.counter + 1) with
    | error panic => cases (forkCurrentThread_panics running called context kernelStackStart).symm.trans returned
    | ok allocated =>
      obtain ⟨result, info⟩ := allocated
      cases result with
      | ok stack =>
        refine ⟨.ok stack, info, rfl, order.memory.newStack_of_ok found called, fun _ full => ?_⟩
        subst full
        cases (forkCurrentThread_full running called context).symm.trans returned
      | error error =>
        rw [forkCurrentThread_refused running called] at returned
        obtain ⟨rfl, rfl⟩ := Prod.mk.inj (Except.ok.inj returned)
        refine ⟨.error error, info, rfl, ?_, fun ⟨_, same⟩ => nomatch same⟩
        rcases outcome with ⟨child, stack, forked⟩ | refused
        · exact (not_forked running forked).elim
        · exact root ▸ refused.memory
  · rintro ⟨result, info, called, outcome, room⟩
    cases result with
    | ok stack =>
      obtain ⟨start, rfl⟩ := Option.ne_none_iff_exists'.mp (room ⟨stack, rfl⟩)
      obtain ⟨child, forked⟩ := order.forked running user outcome context start
      exact ⟨_, _, forkCurrentThread_ok running called context start, .inl ⟨child, stack, forked⟩⟩
    | error error =>
      obtain ⟨queue, code⟩ := Kernel.forkCurrentThread_fails running context
      refine ⟨_, _, forkCurrentThread_refused running called context kernelStackStart,
        .inr ⟨fun success => ?_, queue, by rw [root]; exact outcome⟩⟩
      exact absurd (code.symm.trans success) (by decide)

section Examples

/-- A launched process forks, and it does not on a full heap. -/
theorem fork_all_or_nothing_iff_launch : ∃ (system : System Unit) (current : Thread),
    Run (System.CarefulStep offsetPageTable) (System.boot () kernelInfo) (spawnEvents ++ launchEvents) system ∧
    system.kernel.runningThread = some current ∧ current.threadType = .user ∧
    system.ForksOrNothing current userContext (some (heapStart + 0x20000)) ∧
    ¬ system.ForksOrNothing current userContext none := by
  obtain ⟨info, launched, run⟩ := run_launch
  have careful := run.mono LaunchStep.careful
  obtain ⟨trees, tenancy⟩ := Tenancy.of_run booted_kernelInfo careful
  have running : launchKernel.runningThread = some _ := rfl
  obtain ⟨slots, order⟩ := inOrder_of_tenancy tenancy running rfl
  obtain ⟨table, found, outcome⟩ := fork_all_or_nothing_iff order running rfl userContext (some (heapStart + 0x20000))
  obtain ⟨other, same, full⟩ := fork_all_or_nothing_iff order running rfl userContext none
  obtain rfl : table = other := Option.some.inj (found.symm.trans same)
  have empty : info.SlotEmpty table 5 := by
    intro k least most
    have unused := launched.unused k fun listed => by
      have range := mem_slotPages.mp listed
      omega
    rwa [stackEntry, entryAt_of_tableAt found] at unused
  have stays : info.StaysInside table 4 := .inr ⟨5, by decide, by decide, empty⟩
  have ready : info.frameAllocator.CursorReady 10 := launched.ready.le (by omega)
  refine ⟨_, _, careful, running, rfl, outcome.mpr ⟨stays, .inr (.inl ⟨ready, Option.some_ne_none _⟩)⟩, fun forks => ?_⟩
  rcases (full.mp forks).2 with none_empty | ⟨_, room⟩ | ⟨frameAllocator, stuck⟩
  · exact none_empty 5 (by decide) empty
  · exact room rfl
  · obtain ⟨frame, after, takes, _⟩ := (launched.ready.le (by omega : 0 + 1 ≤ 5000)).takes
    cases stuck.symm.trans takes

/-- An empty table in frame 1, and the frames 2 to 16 free: those of one stack with its
tables, and two more. -/
private def twoSpare : StackMemory := ⟨emptyInfo (.init [⟨0x2000, 0x11000, .usable⟩]), []⟩

/-- The thread on the stack in slot 3. -/
private def parent : Thread :=
  { threadId := 1, process := 0, kernelStackEnd := 0, context := 0, frame := {}, userStackEnd := (slotStack 3).2,
    pageTablePhys := 1, threadType := .user }

private def forking (info : MemoryInfo) : System Unit :=
  ⟨{ keyboardSocket := (), kernelPageTable := 1, cr3 := 1, runningThread := some parent, counter := 3 }, info, userSegments⟩

private theorem every_forking {info : MemoryInfo} {holds : Thread → Prop} (held : holds parent) :
    (forking info).kernel.Every holds where
  running _ running := Option.some.inj running ▸ held
  queued _ listed := nomatch listed
  parked _ _ listed := nomatch listed

/-- The stack in slot 3 is the only one, and the next stack fails with frame 15 taken for it. -/
private def failsWithFrame (memory : StackMemory) : Bool :=
  memory.live = [slotStack 3] &&
    match memory.info.allocateUserStack 1 4 with
    | .ok (.error _, after) => after.frameAllocator.frameUsage 15 && !memory.info.frameAllocator.frameUsage 15
    | _ => false

/-- With two frames left, a fork fails and keeps both. -/
theorem failed_fork_keeps_frames : ∃ info : MemoryInfo, (forking info).InOrder [3] ∧
    ∀ context kernelStackStart, ¬ (forking info).ForksOrNothing parent context kernelStackStart := by
  have ran : (twoSpare.perform 1 (.allocateUserStack 3)).any failsWithFrame = true := by decide +kernel
  obtain ⟨⟨info, live⟩, performed, facts⟩ := (Option.any_eq_true _ _).mp ran
  obtain ⟨ranges, fails⟩ := Bool.and_eq_true_iff.mp facts
  have fresh : StackMemory.Tended 1 twoSpare :=
    ⟨[], rfl, tended_of_unused (sound_emptyInfo (by decide +kernel)) (entryAt_emptyInfo _ _ _)⟩
  obtain ⟨slots, listed, tended⟩ := fresh.step (StackMemory.step_of_perform performed)
  have one : slots = [3] :=
    List.map_injective_iff.mpr StackMemory.slotStack_injective (listed.symm.trans (by simpa using ranges))
  subst one
  refine ⟨info, ⟨⟨tended.sound, tended.ordered, tended.standing⟩, ?_,
    every_forking fun _ _ => ⟨3, List.mem_singleton_self 3, rfl⟩, every_forking (by decide : 1 ≤ 3)⟩, ?_⟩
  · rintro thread ⟨⟩ _
    rfl
  rintro context kernelStackStart ⟨after, frame, returned, outcome⟩
  have running : (forking info).kernel.runningThread = some parent := rfl
  dsimp only at fails
  split at fails
  · rename_i error left called
    rw [forkCurrentThread_refused running called] at returned
    obtain ⟨rfl, rfl⟩ := Prod.mk.inj (Except.ok.inj returned)
    rcases outcome with ⟨child, stack, forked⟩ | refused
    · exact not_forked running forked
    · have same : left.frameAllocator.frameUsage 15 = info.frameAllocator.frameUsage 15 := refused.memory.used 15
      rw [same] at fails
      simp at fails
  · cases fails

end Examples

end System

end Zephyr
