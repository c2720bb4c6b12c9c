import Zephyr.Transition.Run

/-! The scancode stream of `dev/keyboard.rs`. An interrupt adds a scancode in one go; the task
that reads the stream can be interrupted between any two operations on the queue and the waker,
each of which is atomic. The queue, the waker and the executor are a parameter. -/

namespace Zephyr.Scancode

open Transition

/-- The crates that the stream uses, and an executor for its task. A queue is known by what it
holds, the oldest first; an `AtomicWaker` comes with what it has told the executor. -/
structure Runtime where
  ArrayQueue : Type
  contents : ArrayQueue → List UInt8
  capacity : ArrayQueue → Nat
  new : Nat → ArrayQueue
  push : ArrayQueue → UInt8 → Option ArrayQueue
  pop : ArrayQueue → Option (UInt8 × ArrayQueue)
  AtomicWaker : Type
  /-- The task's waker is in place. -/
  Registered : AtomicWaker → Prop
  /-- The executor has been told to poll the task. -/
  Woken : AtomicWaker → Prop
  init : AtomicWaker
  register : AtomicWaker → AtomicWaker
  wake : AtomicWaker → AtomicWaker
  take : AtomicWaker → AtomicWaker
  /-- The executor polls the pending task, or does not. -/
  resume : AtomicWaker → Option AtomicWaker
  contents_new : ∀ size, contents (new size) = []
  capacity_new : ∀ size, capacity (new size) = size
  push_room : ∀ queue scancode, (contents queue).length < capacity queue → ∃ longer,
    push queue scancode = some longer ∧ contents longer = contents queue ++ [scancode] ∧ capacity longer = capacity queue
  push_full : ∀ queue scancode, (contents queue).length = capacity queue → push queue scancode = none
  pop_nil : ∀ queue, contents queue = [] → pop queue = none
  pop_cons : ∀ queue scancode rest, contents queue = scancode :: rest → ∃ shorter,
    pop queue = some (scancode, shorter) ∧ contents shorter = rest ∧ capacity shorter = capacity queue
  registered_register : ∀ waker, Registered (register waker)
  woken_wake : ∀ waker, Registered waker ∨ Woken waker → Woken (wake waker)
  resumes : ∀ waker, Woken waker → (resume waker).isSome

/-- Capacity of `SCANCODE_QUEUE`. -/
def queueSize : Nat := 100

/-- The next operation of `poll_next`. -/
inductive Point where
  | pop
  | register
  | popAgain
  | take (scancode : UInt8)
  deriving DecidableEq, Repr

inductive Task where
  | polling (point : Point)
  | pending
  deriving DecidableEq, Repr

structure State (runtime : Runtime) where
  /-- `SCANCODE_QUEUE`, uninitialised before `ScancodeStream::new`. -/
  queue : Option runtime.ArrayQueue := none
  waker : runtime.AtomicWaker := runtime.init
  task : Task := .polling .pop
  /-- Ghost: the scancodes that went into the queue. -/
  accepted : List UInt8 := []
  /-- Ghost: how many did not. -/
  refused : Nat := 0
  /-- Ghost: what `next` has returned. -/
  delivered : List UInt8 := []

inductive Event where
  | interrupt (scancode : UInt8)
  | poll
  | executor
  deriving DecidableEq, Repr

variable {runtime : Runtime}

namespace State

def addScancode (state : State runtime) (scancode : UInt8) : State runtime :=
  match state.queue with
  | some queue =>
    match runtime.push queue scancode with
    | some queue =>
      { state with queue := some queue, waker := runtime.wake state.waker, accepted := state.accepted ++ [scancode] }
    | none => { state with refused := state.refused + 1 }
  | none => { state with refused := state.refused + 1 }

/-- `ScancodeStream::new`, which panics the second time. -/
def new (state : State runtime) : Option (State runtime) :=
  match state.queue with
  | none => some { state with queue := some (runtime.new queueSize) }
  | some _ => none

/-- `poll_next` returns a scancode, and the loop of `output_keypress` asks for the next. -/
def ready (state : State runtime) (scancode : UInt8) : State runtime :=
  { state with task := .polling .pop, delivered := state.delivered ++ [scancode] }

/-- One operation of `poll_next`; without a queue its `expect` panics. -/
def pollNext (state : State runtime) : Point → Option (State runtime)
  | .pop => state.queue.map fun queue =>
    match runtime.pop queue with
    | some (scancode, queue) => { state with queue := some queue }.ready scancode
    | none => { state with task := .polling .register }
  | .register => some { state with waker := runtime.register state.waker, task := .polling .popAgain }
  | .popAgain => state.queue.map fun queue =>
    match runtime.pop queue with
    | some (scancode, queue) => { state with queue := some queue, task := .polling (.take scancode) }
    | none => { state with task := .pending }
  | .take scancode => some ({ state with waker := runtime.take state.waker }.ready scancode)

/-- The task moves only while it is polled. -/
def perform (state : State runtime) : Event → Option (State runtime)
  | .interrupt scancode => some (state.addScancode scancode)
  | .poll =>
    match state.task with
    | .polling point => state.pollNext point
    | .pending => none
  | .executor =>
    match state.task with
    | .polling _ => none
    | .pending => (runtime.resume state.waker).map fun waker => { state with task := .polling .pop, waker }

def Step (before : State runtime) (event : Event) (after : State runtime) : Prop := before.perform event = some after

/-- The scancode between the queue and its return. -/
def inHand (state : State runtime) : List UInt8 :=
  match state.task with
  | .polling (.take scancode) => [scancode]
  | _ => []

/-- What holds between any two operations. The task does not sleep over a scancode: the waker is
in place from `register` until somebody wakes the task. -/
structure Sound (state : State runtime) (queue : runtime.ArrayQueue) : Prop where
  there : state.queue = some queue
  sized : runtime.capacity queue = queueSize
  bounded : (runtime.contents queue).length ≤ queueSize
  order : state.delivered ++ state.inHand ++ runtime.contents queue = state.accepted
  armed : state.task = .polling .popAgain → runtime.Registered state.waker ∨ runtime.Woken state.waker
  awake : state.task = .pending →
    (runtime.Registered state.waker ∧ runtime.contents queue = []) ∨ runtime.Woken state.waker

variable {state after : State runtime} {queue : runtime.ArrayQueue} {scancode : UInt8} {event : Event}

theorem Sound.addScancode (sound : state.Sound queue) (scancode : UInt8) :
    ((runtime.contents queue).length < queueSize ∧ (∃ longer, (state.addScancode scancode).Sound longer) ∧
      (state.addScancode scancode).accepted = state.accepted ++ [scancode] ∧
      (state.addScancode scancode).refused = state.refused) ∨
    (runtime.contents queue).length = queueSize ∧
      state.addScancode scancode = { state with refused := state.refused + 1 } := by
  unfold State.addScancode
  rw [sound.there]
  rcases Nat.lt_or_eq_of_le sound.bounded with room | full
  · obtain ⟨longer, pushed, holds, size⟩ := runtime.push_room queue scancode (by rw [sound.sized]; exact room)
    simp only [pushed]
    refine .inl ⟨room, ⟨longer, rfl, size.trans sound.sized, ?_, ?_, fun again => ?_, fun sleeps => ?_⟩, trivial, trivial⟩
    · rw [holds, List.length_append, List.length_singleton]
      omega
    · rw [holds, ← List.append_assoc]
      exact congrArg (· ++ [scancode]) sound.order
    · exact .inr (runtime.woken_wake _ (sound.armed again))
    · exact .inr (runtime.woken_wake _ ((sound.awake sleeps).imp_left And.left))
  · simp only [runtime.push_full queue scancode (by rw [sound.sized]; exact full)]
    exact .inr ⟨full, trivial⟩

theorem Sound.pollNext (sound : state.Sound queue) {point : Point} (polling : state.task = .polling point)
    (stepped : state.pollNext point = some after) :
    (∃ left, after.Sound left) ∧ after.accepted = state.accepted ∧ after.refused = state.refused := by
  have order := sound.order
  have bounded := sound.bounded
  rw [inHand, polling] at order
  cases point with
  | pop =>
    rw [State.pollNext, sound.there, Option.map_some, Option.some.injEq] at stepped
    cases held : runtime.contents queue with
    | nil =>
      rw [runtime.pop_nil queue held] at stepped
      subst stepped
      exact ⟨⟨queue, rfl, sound.sized, bounded, order, nofun, nofun⟩, rfl, rfl⟩
    | cons scancode rest =>
      obtain ⟨shorter, popped, rfl, size⟩ := runtime.pop_cons queue scancode rest held
      rw [popped] at stepped
      subst stepped
      rw [held] at order bounded
      refine ⟨⟨shorter, rfl, size.trans sound.sized, Nat.le_of_succ_le bounded, ?_, nofun, nofun⟩, rfl, rfl⟩
      simpa [State.ready, inHand] using order
  | register =>
    cases stepped
    refine ⟨⟨queue, sound.there, sound.sized, bounded, order, fun _ => ?_, nofun⟩, rfl, rfl⟩
    exact .inl (runtime.registered_register _)
  | popAgain =>
    rw [State.pollNext, sound.there, Option.map_some, Option.some.injEq] at stepped
    cases held : runtime.contents queue with
    | nil =>
      rw [runtime.pop_nil queue held] at stepped
      subst stepped
      refine ⟨⟨queue, rfl, sound.sized, bounded, order, nofun, fun _ => ?_⟩, rfl, rfl⟩
      exact (sound.armed polling).imp_left fun armed => ⟨armed, held⟩
    | cons scancode rest =>
      obtain ⟨shorter, popped, rfl, size⟩ := runtime.pop_cons queue scancode rest held
      rw [popped] at stepped
      subst stepped
      rw [held] at order bounded
      refine ⟨⟨shorter, rfl, size.trans sound.sized, Nat.le_of_succ_le bounded, ?_, nofun, nofun⟩, rfl, rfl⟩
      simpa [inHand] using order
  | take scancode =>
    cases stepped
    refine ⟨⟨queue, sound.there, sound.sized, bounded, ?_, nofun, nofun⟩, rfl, rfl⟩
    simpa [State.ready, inHand] using order

/-- Without interrupts, the task gets to return the scancode in so many steps. -/
def Returns (state : State runtime) (scancode : UInt8) (count : Nat) : Prop :=
  ∃ events final, events.length ≤ count ∧ (∀ event ∈ events, event = .poll ∨ event = .executor) ∧
    Run Step state events final ∧ final.delivered = state.delivered ++ [scancode]

theorem Returns.last (step : Step state .poll after) (returned : after.delivered = state.delivered ++ [scancode]) :
    state.Returns scancode 1 :=
  ⟨[.poll], after, Nat.le_refl 1, by decide, .snoc .nil step, returned⟩

theorem Returns.earlier {count : Nat} (step : Step state event after) (own : event = .poll ∨ event = .executor)
    (same : after.delivered = state.delivered) (returns : after.Returns scancode count) :
    state.Returns scancode (count + 1) := by
  obtain ⟨events, final, short, all, run, returned⟩ := returns
  refine ⟨event :: events, final, Nat.succ_le_succ short, ?_, .cons step run, by rw [returned, same]⟩
  exact List.forall_mem_cons.mpr ⟨own, all⟩

theorem Returns.weaken {count more : Nat} (returns : state.Returns scancode count) (longer : count ≤ more) :
    state.Returns scancode more := by
  obtain ⟨events, final, short, rest⟩ := returns
  exact ⟨events, final, Nat.le_trans short longer, rest⟩

theorem returns_pop {rest : List UInt8} (standing : state.task = .polling .pop) (there : state.queue = some queue)
    (held : runtime.contents queue = scancode :: rest) : state.Returns scancode 1 := by
  obtain ⟨shorter, popped, _⟩ := runtime.pop_cons queue scancode rest held
  have step : Step state .poll ({ state with queue := some shorter }.ready scancode) := by
    simp only [Step, perform, standing, State.pollNext, there, popped, Option.map_some]
  exact .last step rfl

theorem returns_take (standing : state.task = .polling (.take scancode)) : state.Returns scancode 1 := by
  have step : Step state .poll ({ state with waker := runtime.take state.waker }.ready scancode) := by
    simp only [Step, perform, standing, State.pollNext]
  exact .last step rfl

theorem returns_popAgain {rest : List UInt8} (standing : state.task = .polling .popAgain) (there : state.queue = some queue)
    (held : runtime.contents queue = scancode :: rest) : state.Returns scancode 2 := by
  obtain ⟨shorter, popped, _⟩ := runtime.pop_cons queue scancode rest held
  have step : Step state .poll { state with queue := some shorter, task := .polling (.take scancode) } := by
    simp only [Step, perform, standing, State.pollNext, there, popped, Option.map_some]
  exact .earlier step (.inl rfl) rfl (returns_take rfl)

/-- Polling goes on until the oldest scancode has been returned. -/
theorem Sound.returns (sound : state.Sound queue) {rest : List UInt8}
    (waiting : state.inHand ++ runtime.contents queue = scancode :: rest) : state.Returns scancode 3 := by
  have there := sound.there
  cases standing : state.task with
  | pending =>
    rw [inHand, standing] at waiting
    have filled : runtime.contents queue ≠ [] := ne_of_eq_of_ne waiting (List.cons_ne_nil _ _)
    have woken := (sound.awake standing).resolve_left fun asleep => filled asleep.2
    obtain ⟨waker, resumed⟩ := Option.isSome_iff_exists.mp (runtime.resumes _ woken)
    have step : Step state .executor { state with task := .polling .pop, waker } := by
      simp only [Step, perform, standing, resumed, Option.map_some]
    exact (Returns.earlier step (.inr rfl) rfl (returns_pop rfl there waiting)).weaken (by decide)
  | polling point =>
    cases point with
    | pop =>
      rw [inHand, standing] at waiting
      exact (returns_pop standing there waiting).weaken (by decide)
    | register =>
      rw [inHand, standing] at waiting
      have step : Step state .poll { state with waker := runtime.register state.waker, task := .polling .popAgain } := by
        simp only [Step, perform, standing, State.pollNext]
      exact .earlier step (.inl rfl) rfl (returns_popAgain rfl there waiting)
    | popAgain =>
      rw [inHand, standing] at waiting
      exact (returns_popAgain standing there waiting).weaken (by decide)
    | take held =>
      rw [inHand, standing] at waiting
      obtain rfl : held = scancode := (List.cons.inj waiting).1
      exact (returns_take standing).weaken (by decide)

theorem Sound.perform (sound : state.Sound queue) (step : Step state event after) :
    ∃ left, after.Sound left := by
  cases event with
  | interrupt scancode =>
    cases step
    rcases sound.addScancode scancode with ⟨_, kept, _⟩ | ⟨_, full⟩
    · exact kept
    · rw [full]
      exact ⟨queue, sound.there, sound.sized, sound.bounded, sound.order, sound.armed, sound.awake⟩
  | poll =>
    cases standing : state.task with
    | pending =>
      rw [Step, State.perform, standing] at step
      cases step
    | polling point =>
      rw [Step, State.perform, standing] at step
      exact (sound.pollNext standing step).1
  | executor =>
    rw [Step, State.perform] at step
    split at step
    · cases step
    · rename_i sleeps
      obtain ⟨waker, _, rfl⟩ := Option.map_eq_some_iff.mp step
      have order := sound.order
      rw [inHand, sleeps] at order
      exact ⟨queue, sound.there, sound.sized, sound.bounded, order, nofun, nofun⟩

end State

/-- The scancodes of the interrupts. -/
def arrivals (events : List Event) : List UInt8 :=
  events.filterMap fun
    | .interrupt scancode => some scancode
    | _ => none

/-- `ScancodeStream::new` on an uninitialised queue. -/
def start (runtime : Runtime) : State runtime := { queue := some (runtime.new queueSize) }

theorem new_eq : State.new {} = some (start runtime) := rfl

/-- What the ghosts say about the interrupts of a run. -/
structure Counted (events : List Event) (state : State runtime) : Prop where
  sublist : state.accepted.Sublist (arrivals events)
  total : state.accepted.length + state.refused = (arrivals events).length

theorem Counted.step {state after : State runtime} {queue : runtime.ArrayQueue} {events : List Event} {event : Event}
    (counted : Counted events state) (sound : state.Sound queue) (step : State.Step state event after) :
    Counted (events ++ [event]) after := by
  have counts := counted.total
  have silent (quiet : arrivals [event] = []) (accepted : after.accepted = state.accepted)
      (refused : after.refused = state.refused) : Counted (events ++ [event]) after := by
    have same : arrivals (events ++ [event]) = arrivals events := by
      rw [arrivals, List.filterMap_append, ← arrivals, ← arrivals, quiet, List.append_nil]
    rw [← same] at counts
    exact ⟨by rw [accepted, same]; exact counted.sublist, by rw [accepted, refused, counts]⟩
  cases event with
  | interrupt scancode =>
    have more : arrivals (events ++ [.interrupt scancode]) = arrivals events ++ [scancode] :=
      List.filterMap_append
    cases step
    rcases sound.addScancode scancode with ⟨_, _, accepted, refused⟩ | ⟨_, full⟩
    · refine ⟨?_, ?_⟩
      · rw [more, accepted]
        exact counted.sublist.append (List.Sublist.refl _)
      · rw [more, accepted, refused, List.length_append, List.length_append]
        omega
    · rw [full]
      refine ⟨?_, ?_⟩
      · rw [more]
        exact counted.sublist.trans (List.sublist_append_left _ _)
      · rw [more, List.length_append, List.length_singleton]
        dsimp only
        omega
  | poll =>
    rw [State.Step, State.perform] at step
    split at step
    · rename_i point standing
      obtain ⟨_, accepted, refused⟩ := sound.pollNext standing step
      exact silent rfl accepted refused
    · cases step
  | executor =>
    rw [State.Step, State.perform] at step
    split at step
    · cases step
    · obtain ⟨_, _, rfl⟩ := Option.map_eq_some_iff.mp step
      exact silent rfl rfl rfl

/-- However interrupts and the operations of the task interleave, the stream returns the accepted
scancodes in their order, each once, and whatever waits is returned within three further steps of
the task: it never sleeps over a scancode. A scancode is refused only when a hundred are waiting. -/
theorem no_scancode_is_lost {events : List Event} {state : State runtime}
    (run : Run State.Step (start runtime) events state) :
    state.accepted.Sublist (arrivals events) ∧ state.accepted.length + state.refused = (arrivals events).length ∧
      ∃ queue, state.queue = some queue ∧ (runtime.contents queue).length ≤ queueSize ∧
        state.delivered ++ state.inHand ++ runtime.contents queue = state.accepted ∧
        (∀ scancode, (state.addScancode scancode).refused ≠ state.refused →
          (runtime.contents queue).length = queueSize) ∧
        ∀ scancode rest, state.inHand ++ runtime.contents queue = scancode :: rest → state.Returns scancode 3 := by
  have kept : Counted events state ∧ ∃ queue, state.Sound queue := by
    induction run with
    | nil =>
      have empty := runtime.contents_new queueSize
      exact ⟨⟨List.Sublist.refl _, rfl⟩, _, rfl, runtime.capacity_new _, by rw [empty]; decide, empty, nofun, nofun⟩
    | snoc _ last ih =>
      obtain ⟨counted, queue, sound⟩ := ih
      exact ⟨counted.step sound last, sound.perform last⟩
  obtain ⟨counted, queue, sound⟩ := kept
  refine ⟨counted.sublist, counted.total, queue, sound.there, sound.bounded, sound.order, ?_, ?_⟩
  · intro scancode refused
    rcases sound.addScancode scancode with ⟨_, _, _, same⟩ | ⟨full, _⟩
    · exact absurd same refused
    · exact full
  · intro scancode rest waiting
    exact sound.returns waiting

/-- A list with its capacity; a flag for the waker and one for the executor. -/
def listRuntime : Runtime where
  ArrayQueue := List UInt8 × Nat
  contents := Prod.fst
  capacity := Prod.snd
  new size := ([], size)
  push queue scancode := if queue.1.length < queue.2 then some (queue.1 ++ [scancode], queue.2) else none
  pop
    | ([], _) => none
    | (scancode :: rest, size) => some (scancode, rest, size)
  AtomicWaker := Bool × Bool
  Registered waker := waker.1 = true
  Woken waker := waker.2 = true
  init := (false, false)
  register waker := (true, waker.2)
  wake waker := (false, waker.1 || waker.2)
  take waker := (false, waker.2)
  resume waker := if waker.2 then some (waker.1, false) else none
  contents_new _ := rfl
  capacity_new _ := rfl
  push_room _ _ room := ⟨_, if_pos room, rfl, rfl⟩
  push_full _ _ full := if_neg (Nat.not_lt_of_ge (Nat.le_of_eq full.symm))
  pop_nil := by
    rintro ⟨_, _⟩ rfl
    rfl
  pop_cons := by
    rintro ⟨_, _⟩ scancode rest rfl
    exact ⟨_, rfl, rfl, rfl⟩
  registered_register _ := rfl
  woken_wake _ told := Bool.or_eq_true_iff.mpr told
  resumes _ woken := by rw [if_pos woken]; rfl

/-- The task falls asleep, a key arrives between its two attempts, and another while it sleeps. -/
private def sleeper : State listRuntime :=
  { queue := some ([0x9e], 100), waker := (false, true), task := .pending, accepted := [0x1e, 0x9e], delivered := [0x1e] }

theorem no_scancode_is_lost_sleeper : sleeper.Returns 0x9e 3 := by
  have run : Run State.Step (start listRuntime)
      [.poll, .interrupt 0x1e, .poll, .poll, .poll, .poll, .poll, .poll, .interrupt 0x9e] sleeper :=
    .cons rfl (.cons rfl (.cons rfl (.cons rfl (.cons rfl (.cons rfl (.cons rfl (.cons rfl (.cons rfl .nil))))))))
  obtain ⟨_, _, queue, there, _, _, _, returns⟩ := no_scancode_is_lost run
  obtain rfl : ([0x9e], 100) = queue := Option.some.inj there
  exact returns 0x9e [] rfl

end Zephyr.Scancode
