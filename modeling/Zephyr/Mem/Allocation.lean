import Zephyr.Mem.FrameAllocator

/-! Successive successful calls of `allocate_frame`, and the window of usable
frames from the cursor on that they take. -/

namespace Zephyr
namespace PageFrameAllocator

/-- Free in the frame allocator: usable and not marked used. -/
def Available (self : PageFrameAllocator) (frame : Nat) : Prop :=
  frame ∈ self.usableFrames ∧ self.frameUsage frame = false

def Takes (before : PageFrameAllocator) (frame : Nat) (after : PageFrameAllocator) : Prop :=
  before.allocateFrame = .ok (some frame, after)

/-- The frames of successive allocations, oldest first. -/
inductive Grabs : PageFrameAllocator → List Nat → PageFrameAllocator → Prop where
  | nil {self : PageFrameAllocator} : Grabs self [] self
  | cons {before middle after : PageFrameAllocator} {frame : Nat} {frames : List Nat}
      (takes : before.Takes frame middle) (rest : Grabs middle frames after) :
      Grabs before (frame :: frames) after

/-- `allocate_frame` gives no frame. -/
def Stuck (self : PageFrameAllocator) : Prop := ∀ frame after, ¬ self.Takes frame after

/-- The next `count` usable frames from the cursor are there, distinct, inside the
usage table and free. -/
def CursorReady (self : PageFrameAllocator) (count : Nat) : Prop :=
  ((self.usableFrames.drop self.next).take count).length = count ∧
  ((self.usableFrames.drop self.next).take count).Nodup ∧
  ∀ frame ∈ (self.usableFrames.drop self.next).take count,
    frame < frameUsageLen ∧ self.frameUsage frame = false

instance (self : PageFrameAllocator) (count : Nat) : Decidable (self.CursorReady count) :=
  inferInstanceAs (Decidable (_ ∧ _ ∧ _))

section Takes

variable {before middle after other : PageFrameAllocator} {frame number : Nat}

theorem Takes.deterministic (takes : before.Takes frame after) (again : before.Takes number other) :
    frame = number ∧ after = other := by
  unfold Takes at takes again
  rw [takes] at again
  cases again
  exact ⟨rfl, rfl⟩

theorem takes_iff : before.Takes frame after ↔ before.usableFrames[before.next]? = some frame ∧
    frame < frameUsageLen ∧ before.frameUsage frame = false ∧
    after = { before.markFrameAsUsed frame with next := before.next + 1 } := by
  constructor
  · intro takes
    cases allocation takes with
    | took _ found bounded free => exact ⟨found, bounded, free, rfl⟩
  · rintro ⟨found, bounded, free, rfl⟩
    exact allocateFrame_took found bounded free

theorem Takes.available (takes : before.Takes frame after) : before.Available frame := by
  obtain ⟨found, _, free, _⟩ := takes_iff.mp takes
  exact ⟨List.mem_of_getElem? found, free⟩

theorem Takes.bounded (takes : before.Takes frame after) : frame < frameUsageLen :=
  (takes_iff.mp takes).2.1

theorem Takes.usableFrames (takes : before.Takes frame after) :
    after.usableFrames = before.usableFrames := by
  obtain ⟨_, _, _, rfl⟩ := takes_iff.mp takes
  rfl

theorem Takes.next (takes : before.Takes frame after) : after.next = before.next + 1 := by
  obtain ⟨_, _, _, rfl⟩ := takes_iff.mp takes
  rfl

theorem Takes.frameUsage (takes : before.Takes frame after) (number : Nat) :
    after.frameUsage number = true ↔ number = frame ∨ before.frameUsage number = true := by
  obtain ⟨_, _, _, rfl⟩ := takes_iff.mp takes
  by_cases same : number = frame
  · simp [markFrameAsUsed, same]
  · simp [markFrameAsUsed, same]

theorem Takes.not_available (takes : before.Takes frame after) (taken : ¬ before.Available number) :
    ¬ after.Available number := by
  rintro ⟨usable, free⟩
  rw [takes.usableFrames] at usable
  refine taken ⟨usable, ?_⟩
  by_contra used
  rw [(takes.frameUsage number).mpr (.inr (by simpa using used))] at free
  cases free

theorem Takes.not_available_self (takes : before.Takes frame after) : ¬ after.Available frame := by
  rintro ⟨_, free⟩
  rw [(takes.frameUsage frame).mpr (.inl rfl)] at free
  cases free

end Takes

section Grabs

variable {before middle after other : PageFrameAllocator} {frame : Nat} {frames more : List Nat} {count : Nat}

theorem Grabs.eq_of_nil (grabs : Grabs before [] after) : after = before := by
  cases grabs
  rfl

theorem Grabs.append (grabs : Grabs before frames middle) (rest : Grabs middle more after) :
    Grabs before (frames ++ more) after := by
  induction grabs with
  | nil => exact rest
  | cons takes _ ih => exact .cons takes (ih rest)

theorem Grabs.available (grabs : Grabs before frames after) (listed : frame ∈ frames) :
    before.Available frame := by
  induction grabs with
  | nil => cases listed
  | cons takes _ ih =>
    cases listed with
    | head => exact takes.available
    | tail _ inner =>
      by_contra taken
      exact takes.not_available taken (ih inner)

theorem Grabs.bounded (grabs : Grabs before frames after) (listed : frame ∈ frames) :
    frame < frameUsageLen := by
  induction grabs with
  | nil => cases listed
  | cons takes _ ih =>
    cases listed with
    | head => exact takes.bounded
    | tail _ inner => exact ih inner

theorem Grabs.nodup (grabs : Grabs before frames after) : frames.Nodup := by
  induction grabs with
  | nil => exact .nil
  | cons takes rest ih =>
    exact List.nodup_cons.mpr ⟨fun listed => takes.not_available_self (rest.available listed), ih⟩

theorem Grabs.not_available (grabs : Grabs before frames after) (taken : ¬ before.Available frame) :
    ¬ after.Available frame := by
  induction grabs with
  | nil => exact taken
  | cons takes _ ih => exact ih (takes.not_available taken)

theorem Grabs.not_available_of_mem (grabs : Grabs before frames after) (listed : frame ∈ frames) :
    ¬ after.Available frame := by
  induction grabs with
  | nil => cases listed
  | cons takes rest ih =>
    cases listed with
    | head => exact rest.not_available takes.not_available_self
    | tail _ inner => exact ih inner

theorem Grabs.frameUsage (grabs : Grabs before frames after) (number : Nat) :
    after.frameUsage number = true ↔ number ∈ frames ∨ before.frameUsage number = true := by
  induction grabs with
  | nil => simp
  | cons takes _ ih => rw [ih, takes.frameUsage, List.mem_cons]; tauto

theorem Grabs.usableFrames (grabs : Grabs before frames after) :
    after.usableFrames = before.usableFrames := by
  induction grabs with
  | nil => rfl
  | cons takes _ ih => rw [ih, takes.usableFrames]

theorem Grabs.not_stuck (grabs : Grabs before frames middle) (whole : Grabs before more after)
    (fewer : frames.length < more.length) : ¬ middle.Stuck := by
  induction grabs generalizing more with
  | nil =>
    cases whole with
    | nil => simp at fewer
    | cons takes _ => exact fun stuck => stuck _ _ takes
  | cons takes _ ih =>
    cases whole with
    | nil => simp at fewer
    | cons again rest =>
      obtain ⟨rfl, rfl⟩ := takes.deterministic again
      exact ih rest (by simpa using fewer)

theorem Grabs.cursorReady (grabs : Grabs before frames after) : before.CursorReady frames.length := by
  have window : (before.usableFrames.drop before.next).take frames.length = frames := by
    induction grabs with
    | nil => simp
    | @cons before middle after frame frames takes _ ih =>
      obtain ⟨found, _, _, _⟩ := takes_iff.mp takes
      rw [takes.usableFrames, takes.next] at ih
      obtain ⟨inside, same⟩ := List.getElem?_eq_some_iff.mp found
      rw [List.drop_eq_getElem_cons inside, same, List.length_cons, List.take_succ_cons, ih]
  refine ⟨by rw [window], by rw [window]; exact grabs.nodup, ?_⟩
  intro frame listed
  rw [window] at listed
  exact ⟨grabs.bounded listed, (grabs.available listed).2⟩

theorem CursorReady.takes (ready : before.CursorReady (count + 1)) :
    ∃ frame after, before.Takes frame after ∧ after.CursorReady count := by
  obtain ⟨long, distinct, free⟩ := ready
  have inside : before.next < before.usableFrames.length := by
    simp only [List.length_take, List.length_drop] at long
    omega
  obtain ⟨frame, found⟩ : ∃ frame, before.usableFrames[before.next]? = some frame :=
    ⟨_, List.getElem?_eq_getElem inside⟩
  have split : (before.usableFrames.drop before.next).take (count + 1) =
      frame :: (before.usableFrames.drop (before.next + 1)).take count := by
    obtain ⟨_, same⟩ := List.getElem?_eq_some_iff.mp found
    rw [List.drop_eq_getElem_cons inside, same, List.take_succ_cons]
  rw [split] at long distinct free
  obtain ⟨fresh, apart⟩ := List.nodup_cons.mp distinct
  obtain ⟨bounded, unused⟩ := free frame (List.mem_cons_self ..)
  refine ⟨frame, _, takes_iff.mpr ⟨found, bounded, unused, rfl⟩, Nat.succ.inj long, apart, ?_⟩
  intro other listed
  have differs : other ≠ frame := by
    rintro rfl
    exact fresh listed
  have both := free other (List.mem_cons_of_mem _ listed)
  simpa [markFrameAsUsed, Function.update_of_ne differs] using both

theorem CursorReady.grabs (ready : before.CursorReady count) :
    ∃ frames after, Grabs before frames after ∧ frames.length = count := by
  induction count generalizing before with
  | zero => exact ⟨[], before, .nil, rfl⟩
  | succ count ih =>
    obtain ⟨frame, middle, takes, onward⟩ := ready.takes
    obtain ⟨frames, after, rest, enough⟩ := ih onward
    exact ⟨frame :: frames, after, .cons takes rest, by simp [enough]⟩

end Grabs

end PageFrameAllocator
end Zephyr
