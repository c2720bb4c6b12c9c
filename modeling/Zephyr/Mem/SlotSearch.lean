import Zephyr.Mem.LifeCycle

/-! The slot search of `allocate_user_stack`: which entries of the level-1 table it
reads and writes, where it stops, and when it finds every slot full. Slot 63 has its last
three pages beyond the table. -/

namespace Zephyr

open Radix PageTableFlags

namespace MemoryInfo

/-- The entries that `all(|index| table[index].is_unused())` looks at. -/
def probed (self : MemoryInfo) (table : Nat) : List Nat → List Nat
  | [] => []
  | index :: rest =>
    if inside : index < 512 then
      if (self.memory table ⟨index, inside⟩).isUnused then index :: self.probed table rest else [index]
    else [index]

/-- The entries that the loop backing a slot takes, up to the first it has no frame for. -/
def backed (self : MemoryInfo) (table : Nat) : List Nat → List Nat
  | [] => []
  | index :: rest =>
    if inside : index < 512 then
      match self.frameAllocator.allocateFrame with
      | .ok (some frame, frameAllocator) =>
        index :: ({ self with frameAllocator }.write table ⟨index, inside⟩ (.setAddr frame userPage)).backed table rest
      | _ => [index]
    else [index]

/-- The entries that the search accesses, in the rounds that are left. -/
def accessed (self : MemoryInfo) (table nStart : Nat) : List Nat → List Nat
  | [] => []
  | i :: rest =>
    let n := (nStart + i) % 64
    self.probed table (slotPages n) ++
      match self.allUnused table (slotPages n) with
      | .error _ => []
      | .ok false => self.accessed table nStart rest
      | .ok true => self.backed table (slotPages n)

/-- All ten pages of a slot are unused. -/
def SlotEmpty (info : MemoryInfo) (table n : Nat) : Prop :=
  ∀ k : Fin 512, n * 8 + 1 ≤ k.1 → k.1 ≤ n * 8 + 10 → info.memory table k = 0

/-- The pages of slot 63 that are in the table are unused. -/
def LastOpen (info : MemoryInfo) (table : Nat) : Prop :=
  ∀ k : Fin 512, 505 ≤ k.1 → info.memory table k = 0

instance (info : MemoryInfo) (table n : Nat) : Decidable (info.SlotEmpty table n) :=
  inferInstanceAs (Decidable (∀ _ : Fin 512, _ → _ → _))

instance (info : MemoryInfo) (table : Nat) : Decidable (info.LastOpen table) :=
  inferInstanceAs (Decidable (∀ _ : Fin 512, _ → _))

section Probes

variable {info : MemoryInfo} {table nStart n : Nat} {pages rounds : List Nat}

/-- What a probe found, and the entries it looked at. -/
inductive Probe (info : MemoryInfo) (table : Nat) (pages : List Nat) : Except Panic Bool → List Nat → Prop where
  | empty {looked : List Nat} (inside : ∀ index ∈ looked, index < 512) (bounded : ∀ index ∈ pages, index < 512)
      (unused : ∀ k : Fin 512, k.1 ∈ pages → info.memory table k = 0) : Probe info table pages (.ok true) looked
  | used {looked : List Nat} (inside : ∀ index ∈ looked, index < 512) {k : Fin 512} (listed : k.1 ∈ pages)
      (taken : info.memory table k ≠ 0) : Probe info table pages (.ok false) looked
  | overrun {looked : List Nat} (unused : ∀ k : Fin 512, k.1 ∈ pages → info.memory table k = 0) {index : Nat}
      (listed : index ∈ pages) (beyond : 512 ≤ index) (accessed : index ∈ looked) :
      Probe info table pages (.error .indexOutOfBounds) looked

theorem probe (increasing : pages.Pairwise (· < ·)) :
    Probe info table pages (info.allUnused table pages) (info.probed table pages) := by
  induction pages with
  | nil => exact .empty (fun _ listed => nomatch listed) (fun _ listed => nomatch listed) fun _ listed => nomatch listed
  | cons index rest ih =>
    obtain ⟨below, increasing⟩ := List.pairwise_cons.mp increasing
    unfold allUnused probed
    split
    · rename_i inside
      split
      · rename_i unused
        have here : ∀ k : Fin 512, k.1 = index → info.memory table k = 0 := by
          rintro ⟨_, _⟩ rfl
          simpa [PageTableEntry.isUnused] using unused
        have later := ih increasing
        generalize info.allUnused table rest = found at later ⊢
        generalize info.probed table rest = looked at later ⊢
        have further : ∀ {indices : List Nat}, (∀ other ∈ indices, other < 512) →
            ∀ other ∈ index :: indices, other < 512 :=
          fun bounded other listed => (List.mem_cons.mp listed).elim (fun same => same ▸ inside) (bounded other)
        cases later with
        | empty short bounded empty =>
          exact .empty (further short) (further bounded)
            fun k listed => (List.mem_cons.mp listed).elim (here k) (empty k)
        | used short listed taken => exact .used (further short) (List.mem_cons_of_mem _ listed) taken
        | overrun empty listed beyond looked =>
          exact .overrun (fun k listed => (List.mem_cons.mp listed).elim (here k) (empty k))
            (List.mem_cons_of_mem _ listed) beyond (List.mem_cons_of_mem _ looked)
      · rename_i taken
        refine Probe.used (k := ⟨index, inside⟩) (fun other listed => List.mem_singleton.mp listed ▸ inside)
          (List.mem_cons_self ..) ?_
        simpa [PageTableEntry.isUnused] using taken
    · rename_i outside
      refine .overrun (fun k listed => ?_) (List.mem_cons_self ..) (Nat.le_of_not_lt outside) (List.mem_singleton_self _)
      -- the pages only get larger from here on
      rcases List.mem_cons.mp listed with same | later
      · exact absurd (same ▸ k.2) outside
      · exact absurd ((below k.1 later).trans k.2) outside

theorem slotPages_increasing : (slotPages n).Pairwise (· < ·) := by
  rw [slotPages, List.pairwise_map]
  exact List.pairwise_lt_range.imp fun less => by omega

/-- A slot below the last is passed over when one of its pages is used. -/
theorem allUnused_slot (low : n < 63) :
    info.SlotEmpty table n ∧ info.allUnused table (slotPages n) = .ok true ∨
      ¬ info.SlotEmpty table n ∧ info.allUnused table (slotPages n) = .ok false := by
  have probed : Probe info table (slotPages n) _ _ := probe slotPages_increasing
  generalize info.allUnused table (slotPages n) = found at probed ⊢
  generalize info.probed table (slotPages n) = looked at probed
  cases probed with
  | empty _ _ unused => exact .inl ⟨fun k least most => unused k (mem_slotPages.mpr ⟨least, most⟩), rfl⟩
  | @used _ _ k listed taken =>
    refine .inr ⟨fun empty => taken ?_, rfl⟩
    obtain ⟨least, most⟩ := mem_slotPages.mp listed
    exact empty k least most
  | overrun _ listed beyond _ =>
    obtain ⟨_, most⟩ := mem_slotPages.mp listed
    omega

theorem allUnused_false_iff (low : n < 63) :
    info.allUnused table (slotPages n) = .ok false ↔ ¬ info.SlotEmpty table n := by
  rcases allUnused_slot low with ⟨empty, found⟩ | ⟨taken, found⟩
  · exact iff_of_false (by rw [found]; nofun) (not_not_intro empty)
  · exact iff_of_true found taken

theorem allUnused_of_slotEmpty (low : n < 63) (empty : info.SlotEmpty table n) :
    info.allUnused table (slotPages n) = .ok true :=
  (allUnused_slot low).elim And.right fun taken => absurd empty taken.1

/-- Slot 63 is passed over when one of its pages inside the table is used. -/
theorem allUnused_last_iff : info.allUnused table (slotPages 63) = .ok false ↔ ¬ info.LastOpen table := by
  have probed : Probe info table (slotPages 63) _ _ := probe slotPages_increasing
  generalize info.allUnused table (slotPages 63) = found at probed ⊢
  generalize info.probed table (slotPages 63) = looked at probed
  have listed_iff : ∀ k : Fin 512, k.1 ∈ slotPages 63 ↔ 505 ≤ k.1 := by
    intro k
    have bound := k.2
    rw [mem_slotPages]
    omega
  cases probed with
  | empty _ bounded _ => exact absurd (bounded 514 (mem_slotPages.mpr (by omega))) (by decide)
  | @used _ _ k listed taken =>
    exact iff_of_true rfl fun empty => taken (empty k ((listed_iff k).mp listed))
  | overrun unused _ _ _ =>
    refine iff_of_false (by simp) fun full => full fun k least => unused k ((listed_iff k).mpr least)

/-- Rounds that pass over their slots leave the search to the others. -/
theorem findSlot_passed (earlier rounds : List Nat)
    (passed : ∀ i ∈ earlier, info.allUnused table (slotPages ((nStart + i) % 64)) = .ok false) :
    info.findSlot table nStart (earlier ++ rounds) = info.findSlot table nStart rounds ∧
      ((∀ index ∈ info.accessed table nStart (earlier ++ rounds), index < 512) ↔
        ∀ index ∈ info.accessed table nStart rounds, index < 512) := by
  induction earlier with
  | nil => exact ⟨rfl, Iff.rfl⟩
  | cons i earlier ih =>
    obtain ⟨same, inside⟩ := ih fun j listed => passed j (List.mem_cons_of_mem _ listed)
    have here := passed i (List.mem_cons_self ..)
    have looked : ∀ index ∈ info.probed table (slotPages ((nStart + i) % 64)), index < 512 := by
      have probed : Probe info table _ _ _ := probe (slotPages_increasing (n := (nStart + i) % 64))
      rw [here] at probed
      generalize info.probed table _ = looked at probed ⊢
      cases probed with
      | used inside _ _ => exact inside
    rw [List.cons_append, findSlot, accessed]
    simp only [here, List.mem_append]
    refine ⟨same, ?_⟩
    rw [← inside]
    exact ⟨fun all index listed => all index (.inr listed),
      fun all index listed => listed.elim (looked index) (all index)⟩

theorem findSlot_backs {i : Nat} (unused : info.allUnused table (slotPages ((nStart + i) % 64)) = .ok true) :
    info.findSlot table nStart (i :: rounds) = (info.fillSlot table (slotPages ((nStart + i) % 64))).map
      fun filled => (filled.1.map fun _ =>
        (slotAddress ((nStart + i) % 64) + 4096, slotAddress ((nStart + i) % 64) + 11 * 4096), filled.2) := by
  rw [findSlot]
  simp only [unused]
  split <;> rename_i filled <;> rw [filled] <;> rfl

theorem backed_subset : info.backed table pages ⊆ pages := by
  induction pages generalizing info with
  | nil => exact List.Subset.refl _
  | cons index rest ih =>
    unfold backed
    split
    · split
      · exact List.cons_subset_cons _ ih
      · exact List.cons_subset_cons _ (List.nil_subset _)
    · exact List.cons_subset_cons _ (List.nil_subset _)

end Probes

/-- How the search over all 64 slots ends, from slot `nStart % 64` on. -/
inductive Search (info : MemoryInfo) (table nStart : Nat) : Prop where
  | full (passed : ∀ n < 63, ¬ info.SlotEmpty table n) (closed : ¬ info.LastOpen table)
      (inside : ∀ index ∈ info.accessed table nStart (List.range 64), index < 512)
      (found : info.findSlot table nStart (List.range 64) = .ok (.error "All thread stack slots full", info))
  | backs (n : Nat) (low : n < 63) (empty : info.SlotEmpty table n)
      (first : nStart % 64 ≤ n ∨ ¬ info.LastOpen table)
      (inside : ∀ index ∈ info.accessed table nStart (List.range 64), index < 512)
      (found : info.findSlot table nStart (List.range 64) = (info.fillSlot table (slotPages n)).map
        fun filled => (filled.1.map fun _ => (slotAddress n + 4096, slotAddress n + 11 * 4096), filled.2))
  | overrun (passed : ∀ n, nStart % 64 ≤ n → n < 63 → ¬ info.SlotEmpty table n) (open_ : info.LastOpen table)
      (beyond : ¬ ∀ index ∈ info.accessed table nStart (List.range 64), index < 512)
      (found : info.findSlot table nStart (List.range 64) = .error .indexOutOfBounds)

section Search

variable {info : MemoryInfo} {table nStart n : Nat}

theorem exists_first_round (passes : Nat → Prop) [DecidablePred passes] :
    (∀ i < 64, passes i) ∨ ∃ i rest, i < 64 ∧ List.range 64 = List.range i ++ i :: rest ∧
      (∀ j < i, passes j) ∧ ¬ passes i := by
  by_cases all : ∃ i, i < 64 ∧ ¬ passes i
  · have least := Nat.find_spec all
    refine .inr ⟨Nat.find all, List.range' (Nat.find all + 1) (63 - Nat.find all), least.1, ?_, fun j less => ?_, least.2⟩
    · have joined : ∀ i < 64, List.range 64 = List.range i ++ i :: List.range' (i + 1) (63 - i) := by
        intro i small
        rw [← List.range'_succ, List.range_eq_range', List.range_eq_range']
        have append := List.range'_append_1 (s := 0) (m := i) (n := 63 - i + 1)
        rw [Nat.zero_add, show i + (63 - i + 1) = 64 by omega] at append
        exact append.symm
      exact joined _ least.1
    · by_contra fails
      exact Nat.find_min all less ⟨less.trans least.1, fails⟩
  · refine .inl fun i small => ?_
    by_contra fails
    exact all ⟨i, small, fails⟩

theorem search (info : MemoryInfo) (table nStart : Nat) : Search info table nStart := by
  -- the round that reaches a slot
  have round : ∀ n < 64, ∃ i < 64, (nStart + i) % 64 = n ∧ (nStart % 64 ≤ n → i = n - nStart % 64) := by
    intro n small
    exact ⟨(n + 64 - nStart % 64) % 64, by omega, by omega, by omega⟩
  rcases exists_first_round fun i => info.allUnused table (slotPages ((nStart + i) % 64)) = .ok false with
    all | ⟨i, rest, small, split, earlier, stops⟩
  · have passed : ∀ n < 64, info.allUnused table (slotPages n) = .ok false := by
      intro n less
      obtain ⟨i, small, rfl, _⟩ := round n less
      exact all i small
    obtain ⟨same, inside⟩ := findSlot_passed (List.range 64) []
      fun i listed => all i (List.mem_range.mp listed)
    rw [List.append_nil] at same inside
    exact .full (fun n low => (allUnused_false_iff low).mp (passed n (by omega))) (allUnused_last_iff.mp (passed 63 (by decide)))
      (inside.mpr fun _ listed => nomatch listed) same
  · obtain ⟨same, inside⟩ := findSlot_passed (List.range i) (i :: rest)
      fun j listed => earlier j (List.mem_range.mp listed)
    rw [← split] at same inside
    have passed : ∀ n, n < 64 → nStart % 64 ≤ n → n - nStart % 64 < i →
        info.allUnused table (slotPages n) = .ok false := by
      intro n less above before
      obtain ⟨j, _, rfl, at_round⟩ := round n less
      exact earlier j (by rw [at_round above]; exact before)
    generalize at_slot : (nStart + i) % 64 = n at stops
    have probed : Probe info table (slotPages n) _ _ := probe slotPages_increasing
    generalize result : info.allUnused table (slotPages n) = found at probed stops
    generalize looks : info.probed table (slotPages n) = looked at probed
    cases probed with
    | empty short bounded unused =>
      have low : n < 63 := by
        have last := bounded (n * 8 + 10) (mem_slotPages.mpr (by omega))
        omega
      refine .backs n low (fun k least most => unused k (mem_slotPages.mpr ⟨least, most⟩)) ?_ ?_ ?_
      · by_cases above : nStart % 64 ≤ n
        · exact .inl above
        · exact .inr (allUnused_last_iff.mp (passed 63 (by decide) (by omega) (by omega)))
      · rw [inside]
        intro index listed
        rw [accessed] at listed
        simp only [at_slot, looks, result, List.mem_append] at listed
        exact listed.elim (short index) fun here => bounded index (backed_subset here)
      · rw [same, findSlot_backs (by rw [at_slot]; exact result), at_slot]
    | used => exact absurd rfl stops
    | @overrun _ unused index listed beyond reached =>
      have last : n = 63 := by
        have range := mem_slotPages.mp listed
        omega
      subst last
      refine .overrun (fun m above low => ?_) (fun k least => ?_) (fun all => ?_) ?_
      · exact (allUnused_false_iff low).mp (passed m (by omega) above (by omega))
      · exact unused k (mem_slotPages.mpr (by have bound := k.2; omega))
      · refine absurd (inside.mp all index ?_) (Nat.not_lt.mpr beyond)
        rw [accessed]
        simp only [at_slot, looks, List.mem_append]
        exact .inl reached
      · rw [same, findSlot]
        simp only [at_slot, result]

theorem fillSlot_returns (table : Nat) {pages : List Nat} (inside : ∀ index ∈ pages, index < 512)
    (bounded : ∀ frame ∈ info.frameAllocator.usableFrames, frame < frameUsageLen) :
    ∃ result after, info.fillSlot table pages = .ok (result, after) := by
  induction pages generalizing info with
  | nil => exact ⟨_, _, rfl⟩
  | cons index rest ih =>
    unfold fillSlot
    rw [dif_pos (inside index (List.mem_cons_self ..))]
    split
    · rename_i panic failed
      unfold PageFrameAllocator.allocateFrame at failed
      split at failed
      · rename_i frame found
        rw [if_pos (bounded frame (List.mem_of_getElem? found))] at failed
        split at failed <;> cases failed
      · cases failed
    · exact ⟨_, _, rfl⟩
    · rename_i frame frameAllocator allocated
      refine ih (fun other listed => inside other (List.mem_cons_of_mem _ listed)) ?_
      change ∀ frame ∈ frameAllocator.usableFrames, frame < frameUsageLen
      rw [(PageFrameAllocator.allocation allocated).usableFrames]
      exact bounded

/-- Slot 63 has a used page in the table, or an empty slot comes before it. -/
def StaysInside (info : MemoryInfo) (table nStart : Nat) : Prop :=
  ¬ info.LastOpen table ∨ ∃ n, nStart % 64 ≤ n ∧ n < 63 ∧ info.SlotEmpty table n

/-- The search of `allocate_user_stack` stays inside the level-1 table, and the call
returns, if and only if it does not get to slot 63 with that slot's pages unused. -/
theorem stack_search_inside_iff {root : Nat} {reached : MemoryInfo}
    (made : info.stackTable root userStackPageIndex = .ok (table, reached)) (nStart : Nat) :
    ((∀ index ∈ reached.accessed table nStart (List.range 64), index < 512) ↔ reached.StaysInside table nStart) ∧
      ((∀ frame ∈ reached.frameAllocator.usableFrames, frame < frameUsageLen) →
        ((∃ result after, info.allocateUserStack root nStart = .ok (result, after)) ↔
          reached.StaysInside table nStart)) := by
  have call : info.allocateUserStack root nStart = reached.findSlot table nStart (List.range 64) := by
    rw [allocateUserStack, made]
  rw [call]
  cases search reached table nStart with
  | full _ closed inside found =>
    have stays : reached.StaysInside table nStart := .inl closed
    exact ⟨iff_of_true inside stays, fun _ => iff_of_true ⟨_, _, found⟩ stays⟩
  | backs n low empty first inside found =>
    have stays : reached.StaysInside table nStart := by
      rcases first with above | closed
      · exact .inr ⟨n, above, low, empty⟩
      · exact .inl closed
    refine ⟨iff_of_true inside stays, fun bounded => iff_of_true ?_ stays⟩
    have short : ∀ index ∈ slotPages n, index < 512 := by
      intro index listed
      have range := mem_slotPages.mp listed
      omega
    obtain ⟨result, after, filled⟩ := fillSlot_returns table short bounded
    rw [found, filled]
    exact ⟨_, _, rfl⟩
  | overrun passed open_ beyond found =>
    have leaves : ¬ reached.StaysInside table nStart := by
      rintro (closed | ⟨n, above, low, empty⟩)
      · exact closed open_
      · exact passed n above low empty
    refine ⟨iff_of_false beyond leaves, fun _ => iff_of_false ?_ leaves⟩
    rintro ⟨result, after, returned⟩
    cases found.symm.trans returned

end Search

section Examples

/-- A tree without stacks, and the frames 16 to 31 free. -/
private def stackless : MemoryInfo := emptyInfo (.init [⟨0x10000, 0x20000, .usable⟩])

/-- The first stack of a tree, from slot 3 on. -/
theorem stack_search_inside_iff_first : ∃ table reached,
    stackless.stackTable 1 userStackPageIndex = .ok (table, reached) ∧ reached.StaysInside table 3 ∧
    (∀ index ∈ reached.accessed table 3 (List.range 64), index < 512) ∧
    ∃ result after, stackless.allocateUserStack 1 3 = .ok (result, after) := by
  have ran : (stackless.stackTable 1 userStackPageIndex).toOption.any (fun pair =>
      decide (pair.2.SlotEmpty pair.1 3) && pair.2.frameAllocator.usableFrames.all (· < frameUsageLen)) = true := by
    decide +kernel
  obtain ⟨⟨table, reached⟩, made, facts⟩ := (Option.any_eq_true _ _).mp ran
  have made : stackless.stackTable 1 userStackPageIndex = .ok (table, reached) := by
    cases called : stackless.stackTable 1 userStackPageIndex with
    | error panic =>
      rw [called] at made
      cases made
    | ok pair =>
      rw [called] at made
      exact congrArg Except.ok (Option.some.inj made)
  simp only [Bool.and_eq_true, decide_eq_true_eq, List.all_eq_true] at facts
  have stays : reached.StaysInside table 3 := .inr ⟨3, by decide, by decide, facts.1⟩
  obtain ⟨inside, returns⟩ := stack_search_inside_iff made 3
  exact ⟨table, reached, made, stays, inside.mpr stays, (returns facts.2).mpr stays⟩

/-- The first stack of a tree, from slot 63 on: page 512 of the table is read. -/
theorem stack_search_leaves_table : ∃ table reached,
    stackless.stackTable 1 userStackPageIndex = .ok (table, reached) ∧
    (∀ frame ∈ reached.frameAllocator.usableFrames, frame < frameUsageLen) ∧
    512 ∈ reached.accessed table 63 (List.range 64) ∧
    stackless.allocateUserStack 1 63 = .error .indexOutOfBounds :=
  ⟨_, _, rfl, by decide +kernel, by decide +kernel, by rfl⟩

end Examples

end MemoryInfo

end Zephyr
