import Zephyr.Sync.Rendezvous

/-! What a call at a rendezvous channel has come to. Over every sequence of visits the log
of messages, the tickets and the channels tell the same story. -/

namespace Zephyr.Rendezvous

open Transition

variable {σ μ : Type}

/-- The messages of a party that passed since its latest call. -/
def sentSince (transfers : List (Transfer σ μ)) (id since : Nat) : List (Transfer σ μ) :=
  (transfers.drop since).filter fun passed => passed.sender = some id

def gotSince (transfers : List (Transfer σ μ)) (id since : Nat) : List (Transfer σ μ) :=
  (transfers.drop since).filter fun passed => passed.receiver = id

/-- The life of a call: its answer, the messages it sent and the messages it got. -/
inductive Progress (id : Nat) : Option σ → Visit μ → Option (Answer μ) → List (Transfer σ μ) →
    List (Transfer σ μ) → Prop where
  | refused {place : Option σ} {visit : Visit μ} (code : UInt64) (small : code ≠ 0 ∧ code.toNat < 256) :
      Progress id place visit (some (.error code)) [] []
  | offered {place : Option σ} {message : μ} : Progress id place (.send (some id) message) none [] []
  | sent {place : σ} {message : μ} (receiver : Nat) :
      Progress id (some place) (.send (some id) message) (some .sent) [⟨place, some id, message, receiver⟩] []
  | waiting {place : Option σ} : Progress id place (.receive id) none [] []
  | received {place : σ} {message : μ} (sender : Option Nat) :
      Progress id (some place) (.receive id) (some (.packet message)) [] [⟨place, sender, message, id⟩]
  | requested {place : Option σ} {message : μ} : Progress id place (.sendReceive id message) none [] []
  | taken {place : σ} {message : μ} (receiver : Nat) :
      Progress id (some place) (.sendReceive id message) none [⟨place, some id, message, receiver⟩] []
  | replied {place : σ} {message reply : μ} (receiver : Nat) :
      Progress id (some place) (.sendReceive id message) (some (.packet reply))
        [⟨place, some id, message, receiver⟩] [⟨place, some receiver, reply, id⟩]

theorem Progress.sent_once {id : Nat} {place : Option σ} {visit : Visit μ} {answer : Option (Answer μ)}
    {sent got : List (Transfer σ μ)} (progress : Progress id place visit answer sent got) : sent.length ≤ 1 ∧
      ∀ passed ∈ sent, visit = .send (some id) passed.message ∨ visit = .sendReceive id passed.message := by
  cases progress with
  | sent receiver => exact ⟨Nat.le_refl _, List.forall_mem_singleton.mpr (.inl rfl)⟩
  | taken receiver | replied receiver => exact ⟨Nat.le_refl _, List.forall_mem_singleton.mpr (.inr rfl)⟩
  | refused | offered | waiting | received | requested => exact ⟨Nat.zero_le _, nofun⟩

namespace State

/-- Who waits at a place has called there, and has no answer yet. -/
def Occupied (state : State σ μ) (place : σ) : Channel μ → Prop
  | .empty => True
  | .sending sender message => (some place, .send sender message) ∈ state.visits ∧ ∀ id ∈ sender, ∃ since,
      state.ticket id = some ⟨some place, .send (some id) message, since, none⟩
  | .receiving receiver none => ∃ since, state.ticket receiver = some ⟨some place, .receive receiver, since, none⟩
  | .receiving receiver (some party) => ∃ message since,
      state.ticket receiver = some ⟨some place, .sendReceive receiver message, since, none⟩ ∧
      sentSince state.transfers receiver since = [⟨place, some receiver, message, party⟩]
  | .sendReceiving sender message => (some place, .sendReceive sender message) ∈ state.visits ∧ ∃ since,
      state.ticket sender = some ⟨some place, .sendReceive sender message, since, none⟩ ∧
      sentSince state.transfers sender since = []

/-- A message that passed was offered at the same place, as it is. -/
def Offered (state : State σ μ) (passed : Transfer σ μ) : Prop :=
  (some passed.place, .send passed.sender passed.message) ∈ state.visits ∨
    ∃ id, passed.sender = some id ∧ (some passed.place, .sendReceive id passed.message) ∈ state.visits

structure Coherent (state : State σ μ) : Prop where
  progress : ∀ id ticket, state.ticket id = some ticket → ticket.since ≤ state.transfers.length ∧
    Progress id ticket.place ticket.visit ticket.answer (sentSince state.transfers id ticket.since)
      (gotSince state.transfers id ticket.since)
  occupied : ∀ place, state.Occupied place (state.channel place)
  offered : ∀ passed ∈ state.transfers, state.Offered passed

end State

section Frames

variable {channel : Channel μ} {visit : Visit μ} {meeting : Meeting μ} {id since : Nat}
variable {transfers new : List (Transfer σ μ)} {ticket : Nat → Option (Ticket σ μ)} {answers : List (Nat × Answer μ)}
variable {state : State σ μ} {place : Option σ}

theorem lookup_told (party : Option Nat) (answer : Answer μ) :
    (party.toList.map (·, answer)).lookup id = if party = some id then some answer else none := by
  cases party with
  | none => rfl
  | some other =>
    by_cases same : id = other
    · simp [same]
    · have differs : (id == other) = false := beq_false_of_ne same
      simp [List.lookup_cons, differs, Ne.symm same]

theorem lookup_answer (receiver : Nat) (answer : Answer μ) :
    ((receiver, answer) :: answers).lookup id = if receiver = id then some answer else answers.lookup id := by
  by_cases same : id = receiver
  · simp [same]
  · have differs : (id == receiver) = false := beq_false_of_ne same
    simp [List.lookup_cons, differs, Ne.symm same]

theorem lookup_complete (sender : Option Nat) (message : μ) (receiver : Nat) :
    (complete sender message receiver).answers.lookup id =
      if receiver = id then some (.packet message) else if sender = some id then some .sent else none := by
  rw [complete, lookup_answer, lookup_told]

theorem lookup_await (sender : Nat) (message : μ) (receiver : Nat) :
    (await sender message receiver).answers.lookup id = if receiver = id then some (.packet message) else none := by
  rw [await, lookup_answer, List.lookup_nil]

theorem filter_sender (pass : Transfer σ μ) :
    [pass].filter (fun passed => passed.sender = some id) = if pass.sender = some id then [pass] else [] := by
  split <;> simp_all

theorem filter_receiver (pass : Transfer σ μ) :
    [pass].filter (fun passed => passed.receiver = id) = if pass.receiver = id then [pass] else [] := by
  split <;> simp_all

/-- A party that neither calls nor waits at a channel has no part in a meeting there. -/
theorem Meets.bystander (meets : Meets channel visit meeting) (apart : visit.visitor ≠ some id)
    (away : id ∉ channel.parties) : meeting.answers.lookup id = none ∧ id ∉ meeting.channel.parties ∧
      ∀ passed ∈ meeting.transfer, passed.1 ≠ some id ∧ passed.2.2 ≠ id := by
  cases meets with
  | refused code small => exact ⟨by simp [refuse, lookup_told, apart], away, nofun⟩
  | parkSender => exact ⟨rfl, by simpa [Channel.parties, Visit.visitor] using apart, nofun⟩
  | parkReceiver | parkRequest => exact ⟨rfl, by simpa [Channel.parties, Visit.visitor, eq_comm] using apart, nofun⟩
  | meetSender | meetReceiver permitted =>
    simp only [Visit.visitor, Channel.parties, Option.mem_toList, Option.some.injEq, ne_eq,
      List.mem_singleton] at apart away
    simp [complete, lookup_answer, lookup_told, Channel.parties, apart, away, Ne.symm]
  | meetRequest | reply permitted =>
    simp only [Visit.visitor, Channel.parties, Option.some.injEq, ne_eq, List.mem_singleton] at apart away
    simp [await, lookup_answer, Channel.parties, apart, away, Ne.symm apart, Ne.symm away]

theorem sentSince_append (early : since ≤ transfers.length) :
    sentSince (transfers ++ new) id since = sentSince transfers id since ++ new.filter fun passed => passed.sender = some id := by
  rw [sentSince, sentSince, List.drop_append_of_le_length early, List.filter_append]

theorem gotSince_append (early : since ≤ transfers.length) :
    gotSince (transfers ++ new) id since = gotSince transfers id since ++ new.filter fun passed => passed.receiver = id := by
  rw [gotSince, gotSince, List.drop_append_of_le_length early, List.filter_append]

theorem settle_of_none (silent : answers.lookup id = none) : State.settle answers ticket id = ticket id := by
  rw [State.settle, silent]
  simp

theorem issue_of_ne (apart : visit.visitor ≠ some id) : state.issue place visit id = state.ticket id := by
  unfold State.issue
  cases found : visit.visitor with
  | none => rfl
  | some other =>
    refine Function.update_of_ne (fun same => apart ?_) _ _
    rw [found, same]

theorem issue_visitor (own : visit.visitor = some id) :
    state.issue place visit id = some { place, visit, since := state.transfers.length } := by
  unfold State.issue
  rw [own]
  exact Function.update_self ..

end Frames

namespace State

/-- What a visit at a place leaves as it was for a party that has no part in it. -/
structure Aside (before after : State σ μ) (id : Nat) : Prop where
  ticket : after.ticket id = before.ticket id
  sent : ∀ since ≤ before.transfers.length, sentSince after.transfers id since = sentSince before.transfers id since
  got : ∀ since ≤ before.transfers.length, gotSince after.transfers id since = gotSince before.transfers id since

/-- A ticket whose progress the log confirms. -/
def Tells (state : State σ μ) (id : Nat) : Prop :=
  ∀ ticket, state.ticket id = some ticket → ticket.since ≤ state.transfers.length ∧
    Progress id ticket.place ticket.visit ticket.answer (sentSince state.transfers id ticket.since)
      (gotSince state.transfers id ticket.since)

variable [DecidableEq σ] {state : State σ μ} {place other : σ} {visit : Visit μ} {id : Nat}

theorem aside_of_silent (apart : visit.visitor ≠ some id)
    (silent : ((state.channel place).visit visit).answers.lookup id = none)
    (passes : ∀ passed ∈ ((state.channel place).visit visit).transfer, passed.1 ≠ some id ∧ passed.2.2 ≠ id) :
    Aside state (state.after (some place, visit)) id := by
  refine ⟨(settle_of_none silent).trans (issue_of_ne apart), fun since early => ?_, fun since early => ?_⟩
  · refine (sentSince_append early).trans ?_
    cases found : ((state.channel place).visit visit).transfer with
    | none => simp [Meeting.passed, found]
    | some pass => simp [Meeting.passed, found, (passes pass found).1]
  · refine (gotSince_append early).trans ?_
    cases found : ((state.channel place).visit visit).transfer with
    | none => simp [Meeting.passed, found]
    | some pass => simp [Meeting.passed, found, (passes pass found).2]

theorem aside (apart : visit.visitor ≠ some id) (away : id ∉ (state.channel place).parties) :
    Aside state (state.after (some place, visit)) id := by
  obtain ⟨silent, _, passes⟩ := ((state.channel place).meets visit).bystander apart away
  exact aside_of_silent apart silent passes

omit [DecidableEq σ] in
theorem Coherent.waits (coherent : state.Coherent) (here : id ∈ (state.channel place).parties) :
    ∃ ticket, state.ticket id = some ticket ∧ ticket.place = some place ∧ ticket.answer = none := by
  have occupied := coherent.occupied place
  cases found : state.channel place with
  | empty =>
    rw [found] at here
    cases here
  | sending sender message =>
    rw [found] at here occupied
    obtain ⟨since, ticket⟩ := occupied.2 id (Option.mem_toList.mp here)
    exact ⟨_, ticket, rfl, rfl⟩
  | sendReceiving sender message =>
    rw [found] at here occupied
    obtain rfl := List.mem_singleton.mp here
    obtain ⟨_, since, ticket, _⟩ := occupied
    exact ⟨_, ticket, rfl, rfl⟩
  | receiving receiver only =>
    rw [found] at here occupied
    obtain rfl := List.mem_singleton.mp here
    cases only with
    | none =>
      obtain ⟨since, ticket⟩ := occupied
      exact ⟨_, ticket, rfl, rfl⟩
    | some party =>
      obtain ⟨message, since, ticket, _⟩ := occupied
      exact ⟨_, ticket, rfl, rfl⟩

omit [DecidableEq σ] in
theorem Coherent.one_place (coherent : state.Coherent) (here : id ∈ (state.channel place).parties)
    (there : id ∈ (state.channel other).parties) : place = other := by
  obtain ⟨ticket, found, first, _⟩ := coherent.waits here
  obtain ⟨again, second, last, _⟩ := coherent.waits there
  obtain rfl := Option.some.inj (found.symm.trans second)
  exact Option.some.inj (first.symm.trans last)

omit [DecidableEq σ] in
theorem Occupied.aside {before after : State σ μ} {channel : Channel μ} (coherent : before.Coherent)
    (occupied : before.Occupied place channel) (apart : ∀ id ∈ channel.parties, Aside before after id)
    (visits : ∀ made ∈ before.visits, made ∈ after.visits) : after.Occupied place channel := by
  cases channel with
  | empty => trivial
  | sending sender message =>
    refine ⟨visits _ occupied.1, fun id member => ?_⟩
    rw [(apart id (Option.mem_toList.mpr member)).ticket]
    exact occupied.2 id member
  | sendReceiving sender message =>
    obtain ⟨made, since, ticket, none⟩ := occupied
    have kept := apart sender (List.mem_singleton_self _)
    exact ⟨visits _ made, since, kept.ticket.trans ticket,
      (kept.sent since (coherent.progress _ _ ticket).1).trans none⟩
  | receiving receiver only =>
    have kept := apart receiver (List.mem_singleton_self _)
    cases only with
    | none =>
      obtain ⟨since, ticket⟩ := occupied
      exact ⟨since, kept.ticket.trans ticket⟩
    | some party =>
      obtain ⟨message, since, ticket, one⟩ := occupied
      exact ⟨message, since, kept.ticket.trans ticket, (kept.sent since (coherent.progress _ _ ticket).1).trans one⟩

theorem Coherent.of_meeting (coherent : state.Coherent) (free : state.Free visit)
    (parties : ∀ id, Aside state (state.after (some place, visit)) id ∨ (state.after (some place, visit)).Tells id)
    (occupied : (state.after (some place, visit)).Occupied place ((state.channel place).visit visit).channel)
    (offered : ∀ passed ∈ ((state.channel place).visit visit).passed place,
      (state.after (some place, visit)).Offered passed) :
    (state.after (some place, visit)).Coherent := by
  have visits : ∀ made ∈ state.visits, made ∈ (state.after (some place, visit)).visits :=
    fun made member => List.mem_append_left _ member
  refine ⟨fun id ticket found => ?_, fun other => ?_, ?_⟩
  · rcases parties id with same | tells
    · obtain ⟨early, progress⟩ := coherent.progress id ticket (same.ticket ▸ found)
      rw [same.sent _ early, same.got _ early]
      exact ⟨Nat.le_trans early (by simp [after]), progress⟩
    · exact tells ticket found
  · by_cases here : other = place
    · subst here
      rw [show (state.after (some other, visit)).channel other = _ from Function.update_self ..]
      exact occupied
    · rw [show (state.after (some place, visit)).channel other = _ from Function.update_of_ne here ..]
      refine (coherent.occupied other).aside coherent (fun id waits => ?_) visits
      exact aside (fun own => free id own other waits) fun also => here (coherent.one_place waits also)
  · intro passed member
    rcases List.mem_append.mp member with old | new
    · rcases coherent.offered passed old with sent | ⟨id, sender, sent⟩
      · exact .inl (visits _ sent)
      · exact .inr ⟨id, sender, visits _ sent⟩
    · exact offered passed new

theorem visitor_ticket (own : visit.visitor = some id) : (state.after (some place, visit)).ticket id =
    some ⟨some place, visit, state.transfers.length, ((state.channel place).visit visit).answers.lookup id⟩ := by
  change settle _ _ id = _
  rw [settle, issue_visitor own]
  simp

theorem partner_ticket (apart : visit.visitor ≠ some id) {ticket : Ticket σ μ} (waits : state.ticket id = some ticket) :
    (state.after (some place, visit)).ticket id =
      some { ticket with answer := (((state.channel place).visit visit).answers.lookup id).or ticket.answer } := by
  change settle _ _ id = _
  rw [settle, issue_of_ne apart, waits]
  rfl

theorem visitor_tells (own : visit.visitor = some id)
    (progress : Progress id (some place) visit (((state.channel place).visit visit).answers.lookup id)
      ((((state.channel place).visit visit).passed place).filter fun pass => pass.sender = some id)
      ((((state.channel place).visit visit).passed place).filter fun pass => pass.receiver = id)) :
    (state.after (some place, visit)).Tells id := by
  intro ticket found
  obtain rfl := Option.some.inj ((visitor_ticket own).symm.trans found)
  refine ⟨by simp [after], ?_⟩
  have sent : sentSince state.transfers id state.transfers.length = [] := by simp [sentSince]
  have got : gotSince state.transfers id state.transfers.length = [] := by simp [gotSince]
  change Progress id (some place) visit _ (sentSince (state.transfers ++ _) id _) (gotSince (state.transfers ++ _) id _)
  rw [sentSince_append (Nat.le_refl _), gotSince_append (Nat.le_refl _), sent, got]
  exact progress

theorem partner_tells (apart : visit.visitor ≠ some id) {ticket : Ticket σ μ} (waits : state.ticket id = some ticket)
    (early : ticket.since ≤ state.transfers.length)
    (progress : Progress id ticket.place ticket.visit
      ((((state.channel place).visit visit).answers.lookup id).or ticket.answer)
      (sentSince state.transfers id ticket.since ++
        (((state.channel place).visit visit).passed place).filter fun pass => pass.sender = some id)
      (gotSince state.transfers id ticket.since ++
        (((state.channel place).visit visit).passed place).filter fun pass => pass.receiver = id)) :
    (state.after (some place, visit)).Tells id := by
  intro settled found
  obtain rfl := Option.some.inj ((partner_ticket apart waits).symm.trans found)
  refine ⟨Nat.le_trans early (by simp [after]), ?_⟩
  change Progress id _ _ _ (sentSince (state.transfers ++ _) id _) (gotSince (state.transfers ++ _) id _)
  rw [sentSince_append early, gotSince_append early]
  exact progress

omit [DecidableEq σ] in
theorem Coherent.sender (coherent : state.Coherent) {message : μ}
    (waits : state.channel place = .sending (some id) message) : ∃ since,
      state.ticket id = some ⟨some place, .send (some id) message, since, none⟩ ∧ since ≤ state.transfers.length ∧
      sentSince state.transfers id since = [] ∧ gotSince state.transfers id since = [] := by
  have occupied := coherent.occupied place
  rw [waits] at occupied
  obtain ⟨since, ticket⟩ := occupied.2 id rfl
  obtain ⟨early, progress⟩ := coherent.progress id _ ticket
  refine ⟨since, ticket, early, ?_⟩
  generalize sentSince state.transfers id since = sent at progress ⊢
  generalize gotSince state.transfers id since = got at progress ⊢
  cases progress
  exact ⟨rfl, rfl⟩

omit [DecidableEq σ] in
theorem Coherent.request (coherent : state.Coherent) {message : μ}
    (waits : state.channel place = .sendReceiving id message) : ∃ since,
      state.ticket id = some ⟨some place, .sendReceive id message, since, none⟩ ∧ since ≤ state.transfers.length ∧
      sentSince state.transfers id since = [] ∧ gotSince state.transfers id since = [] := by
  have occupied := coherent.occupied place
  rw [waits] at occupied
  obtain ⟨_, since, ticket, sent⟩ := occupied
  obtain ⟨early, progress⟩ := coherent.progress id _ ticket
  refine ⟨since, ticket, early, sent, ?_⟩
  rw [sent] at progress
  generalize gotSince state.transfers id since = got at progress ⊢
  cases progress
  rfl

omit [DecidableEq σ] in
theorem Coherent.receiver (coherent : state.Coherent) {only sender : Option Nat} (message : μ)
    (waits : state.channel place = .receiving id only) (permitted : ∀ party ∈ only, sender = some party) :
    ∃ ticket, state.ticket id = some ticket ∧ ticket.since ≤ state.transfers.length ∧ ticket.answer = none ∧
      ticket.place = some place ∧ gotSince state.transfers id ticket.since = [] ∧
      Progress id ticket.place ticket.visit (some (.packet message)) (sentSince state.transfers id ticket.since)
        [⟨place, sender, message, id⟩] := by
  have occupied := coherent.occupied place
  rw [waits] at occupied
  cases only with
  | none =>
    obtain ⟨since, ticket⟩ := occupied
    obtain ⟨early, progress⟩ := coherent.progress id _ ticket
    refine ⟨_, ticket, early, rfl, rfl, ?_⟩
    dsimp only at progress ⊢
    generalize sentSince state.transfers id since = sent at progress ⊢
    generalize gotSince state.transfers id since = got at progress ⊢
    cases progress
    exact ⟨rfl, .received sender⟩
  | some party =>
    obtain ⟨request, since, ticket, sent⟩ := occupied
    obtain ⟨early, progress⟩ := coherent.progress id _ ticket
    obtain rfl := permitted party rfl
    refine ⟨_, ticket, early, rfl, rfl, ?_⟩
    dsimp only at progress ⊢
    rw [sent] at progress ⊢
    generalize gotSince state.transfers id since = got at progress ⊢
    cases progress
    exact ⟨rfl, .replied party⟩

theorem parties_of_silent {answer : Option (Answer μ)}
    (still : ((state.channel place).visit visit).transfer = none)
    (answers : ∀ id, ((state.channel place).visit visit).answers.lookup id =
      if visit.visitor = some id then answer else none) (id : Nat) :
    (visit.visitor ≠ some id → Aside state (state.after (some place, visit)) id) ∧
      (visit.visitor = some id → Progress id (some place) visit answer [] [] →
        (state.after (some place, visit)).Tells id) := by
  constructor
  · intro other
    refine aside_of_silent other ((answers id).trans (if_neg other)) ?_
    rw [still]
    exact nofun
  · intro own progress
    refine visitor_tells own ?_
    rw [answers id, if_pos own, Meeting.passed, still]
    exact progress

/-- The invariant over a visit that finds nobody to meet. -/
theorem Coherent.of_silent (coherent : state.Coherent) (free : state.Free visit) {answer : Option (Answer μ)}
    (still : ((state.channel place).visit visit).transfer = none)
    (answers : ∀ id, ((state.channel place).visit visit).answers.lookup id =
      if visit.visitor = some id then answer else none)
    (progress : ∀ id, visit.visitor = some id → Progress id (some place) visit answer [] [])
    (occupied : (∀ id, visit.visitor ≠ some id → Aside state (state.after (some place, visit)) id) →
      (state.after (some place, visit)).Occupied place ((state.channel place).visit visit).channel) :
    (state.after (some place, visit)).Coherent := by
  have others := fun id => (parties_of_silent still answers id).1
  refine coherent.of_meeting free (fun id => ?_) (occupied others) ?_
  · by_cases own : visit.visitor = some id
    · exact .inr ((parties_of_silent still answers id).2 own (progress id own))
    · exact .inl (others id own)
  · rw [Meeting.passed, still]
    exact nofun

section Meetings

variable {message : μ} {sender receiver : Nat} {party only : Option Nat}

theorem Coherent.meet_sender (coherent : state.Coherent) (found : state.channel place = .sending party message)
    (met : (state.channel place).visit (.receive receiver) = complete party message receiver)
    (free : state.Free (.receive receiver)) : (state.after (some place, .receive receiver)).Coherent := by
  have apart : party ≠ some receiver := fun same =>
    free receiver rfl place (by rw [found]; exact Option.mem_toList.mpr same)
  have passed : (complete party message receiver).passed place = [⟨place, party, message, receiver⟩] := rfl
  refine coherent.of_meeting free (fun id => ?_) (by rw [met]; trivial) ?_
  · by_cases own : receiver = id
    · subst own
      refine .inr (visitor_tells rfl ?_)
      rw [met, passed, lookup_complete, if_pos rfl, filter_sender, if_neg apart, filter_receiver, if_pos rfl]
      exact .received party
    · by_cases partner : party = some id
      · subst partner
        obtain ⟨since, ticket, early, sent, got⟩ := coherent.sender found
        refine .inr (partner_tells (fun same => own (Option.some.inj same)) ticket early ?_)
        rw [met, passed, lookup_complete, if_neg own, if_pos rfl, sent, got, filter_sender, if_pos rfl, filter_receiver,
          if_neg own]
        exact .sent receiver
      · exact .inl (aside (fun same => own (Option.some.inj same)) (by simpa [found, Channel.parties] using partner))
  · have occupied := coherent.occupied place
    rw [found] at occupied
    rw [met, passed]
    exact List.forall_mem_singleton.mpr (.inl (List.mem_append_left _ occupied.1))

theorem Coherent.meet_request (coherent : state.Coherent) (found : state.channel place = .sendReceiving sender message)
    (met : (state.channel place).visit (.receive receiver) = await sender message receiver)
    (free : state.Free (.receive receiver)) : (state.after (some place, .receive receiver)).Coherent := by
  have apart : ¬ receiver = sender := fun same =>
    free receiver rfl place (by rw [found]; exact List.mem_singleton.mpr same)
  have other : (Visit.receive receiver : Visit μ).visitor ≠ some sender := fun same => apart (Option.some.inj same)
  have passed : (await sender message receiver).passed place = [⟨place, some sender, message, receiver⟩] := rfl
  obtain ⟨since, ticket, early, sent, got⟩ := coherent.request found
  refine coherent.of_meeting free (fun id => ?_) ?_ ?_
  · by_cases own : receiver = id
    · subst own
      refine .inr (visitor_tells rfl ?_)
      rw [met, passed, lookup_await, if_pos rfl, filter_sender, if_neg fun same => apart (Option.some.inj same).symm,
        filter_receiver, if_pos rfl]
      exact .received (some sender)
    · by_cases partner : sender = id
      · subst partner
        refine .inr (partner_tells other ticket early ?_)
        rw [met, passed, lookup_await, if_neg own, sent, got, filter_sender, if_pos rfl, filter_receiver, if_neg own]
        exact .taken receiver
      · exact .inl (aside (fun same => own (Option.some.inj same))
          (by simpa [found, Channel.parties, eq_comm] using partner))
  · rw [met]
    refine ⟨message, since, (partner_ticket other ticket).trans (by rw [met, lookup_await, if_neg apart]; rfl), ?_⟩
    change sentSince (state.transfers ++ _) _ _ = _
    rw [met, passed, sentSince_append early, sent, filter_sender, if_pos rfl]
    rfl
  · have occupied := coherent.occupied place
    rw [found] at occupied
    rw [met, passed]
    exact List.forall_mem_singleton.mpr (.inr ⟨sender, rfl, List.mem_append_left _ occupied.1⟩)

/-- The receiver's side of a message that reaches it where it waits. -/
theorem Coherent.receiver_tells (coherent : state.Coherent) (found : state.channel place = .receiving receiver only)
    (apart : visit.visitor ≠ some receiver) (permitted : ∀ one ∈ only, party = some one)
    (differs : party ≠ some receiver)
    (answer : ((state.channel place).visit visit).answers.lookup receiver = some (.packet message))
    (passed : ((state.channel place).visit visit).passed place = [⟨place, party, message, receiver⟩]) :
    (state.after (some place, visit)).Tells receiver := by
  obtain ⟨ticket, waits, early, _, _, got, progress⟩ := coherent.receiver message found permitted
  refine partner_tells apart waits early ?_
  rw [answer, passed, got, filter_sender, if_neg differs, filter_receiver, if_pos rfl, List.append_nil]
  exact progress

theorem Coherent.meet_receiver (coherent : state.Coherent) (found : state.channel place = .receiving receiver only)
    (met : (state.channel place).visit (.send party message) = complete party message receiver)
    (free : state.Free (.send party message)) (permitted : ∀ one ∈ only, party = some one) :
    (state.after (some place, .send party message)).Coherent := by
  have apart : party ≠ some receiver := fun same =>
    free receiver same place (by rw [found]; exact List.mem_singleton_self _)
  have passed : (complete party message receiver).passed place = [⟨place, party, message, receiver⟩] := rfl
  refine coherent.of_meeting free (fun id => ?_) (by rw [met]; trivial) ?_
  · by_cases own : receiver = id
    · subst own
      exact .inr (coherent.receiver_tells found apart permitted apart (by rw [met, lookup_complete, if_pos rfl])
        (by rw [met, passed]))
    · by_cases visitor : party = some id
      · subst visitor
        refine .inr (visitor_tells rfl ?_)
        rw [met, passed, lookup_complete, if_neg own, if_pos rfl, filter_sender, if_pos rfl, filter_receiver, if_neg own]
        exact .sent receiver
      · exact .inl (aside visitor (by simpa [found, Channel.parties, eq_comm] using own))
  · rw [met, passed]
    exact List.forall_mem_singleton.mpr (.inl (List.mem_append_right _ (List.mem_singleton_self _)))

theorem Coherent.reply (coherent : state.Coherent) (found : state.channel place = .receiving receiver only)
    (met : (state.channel place).visit (.sendReceive sender message) = await sender message receiver)
    (free : state.Free (.sendReceive sender message)) (permitted : ∀ one ∈ only, sender = one) :
    (state.after (some place, .sendReceive sender message)).Coherent := by
  have apart : ¬ receiver = sender := fun same =>
    free sender rfl place (by rw [found]; exact List.mem_singleton.mpr same.symm)
  have other : (Visit.sendReceive sender message).visitor ≠ some receiver :=
    fun same => apart (Option.some.inj same).symm
  have passed : (await sender message receiver).passed place = [⟨place, some sender, message, receiver⟩] := rfl
  refine coherent.of_meeting free (fun id => ?_) ?_ ?_
  · by_cases own : receiver = id
    · subst own
      exact .inr (coherent.receiver_tells found other (fun one listed => congrArg some (permitted one listed)) other
        (by rw [met, lookup_await, if_pos rfl]) (by rw [met, passed]))
    · by_cases visitor : sender = id
      · subst visitor
        refine .inr (visitor_tells rfl ?_)
        rw [met, passed, lookup_await, if_neg own, filter_sender, if_pos rfl, filter_receiver, if_neg own]
        exact .taken receiver
      · exact .inl (aside (fun same => visitor (Option.some.inj same))
          (by simpa [found, Channel.parties, eq_comm] using own))
  · rw [met]
    refine ⟨message, _, (visitor_ticket rfl).trans (by rw [met, lookup_await, if_neg apart]), ?_⟩
    change sentSince (state.transfers ++ _) _ _ = _
    rw [met, passed, sentSince_append (Nat.le_refl _), filter_sender, if_pos rfl]
    simp [sentSince]
  · rw [met, passed]
    exact List.forall_mem_singleton.mpr (.inr ⟨sender, rfl, List.mem_append_right _ (List.mem_singleton_self _)⟩)

end Meetings

theorem Coherent.visited (coherent : state.Coherent) (free : state.Free visit) (place : σ) :
    (state.after (some place, visit)).Coherent := by
  have made : (some place, visit) ∈ (state.after (some place, visit)).visits :=
    List.mem_append_right _ (List.mem_singleton_self _)
  have kept : ∀ made ∈ state.visits, made ∈ (state.after (some place, visit)).visits :=
    fun made member => List.mem_append_left _ member
  have meets := (state.channel place).meets visit
  generalize met : (state.channel place).visit visit = meeting at meets
  generalize found : state.channel place = channel at meets
  have absent : ∀ id, visit.visitor = some id → id ∉ channel.parties := fun id own => found ▸ free id own place
  cases meets with
  | refused code small =>
    refine coherent.of_silent free (by rw [met]; rfl) (fun id => by rw [met]; exact lookup_told _ _)
      (fun _ _ => .refused code small) fun others => ?_
    rw [met]
    have occupied := coherent.occupied place
    rw [found] at occupied
    exact occupied.aside coherent (fun id waits => others id fun own => absent id own waits) kept
  | parkSender =>
    refine coherent.of_silent free (by rw [met]) (fun id => by rw [met]; exact (ite_self _).symm)
      (fun id own => ?_) fun _ => ?_
    · obtain rfl : _ = some id := own
      exact .offered
    · rw [met]
      refine ⟨made, fun id own => ?_⟩
      obtain rfl : _ = some id := own
      exact ⟨_, (visitor_ticket rfl).trans (by rw [met]; rfl)⟩
  | parkReceiver =>
    refine coherent.of_silent free (by rw [met]) (fun id => by rw [met]; exact (ite_self _).symm)
      (fun id own => ?_) fun _ => ?_
    · obtain rfl := Option.some.inj own
      exact .waiting
    · rw [met]
      exact ⟨_, (visitor_ticket rfl).trans (by rw [met]; rfl)⟩
  | parkRequest =>
    refine coherent.of_silent free (by rw [met]) (fun id => by rw [met]; exact (ite_self _).symm)
      (fun id own => ?_) fun _ => ?_
    · obtain rfl := Option.some.inj own
      exact .requested
    · rw [met]
      refine ⟨made, _, (visitor_ticket rfl).trans (by rw [met]; rfl), ?_⟩
      change sentSince (state.transfers ++ _) _ _ = []
      rw [met, sentSince_append (Nat.le_refl _)]
      simp [sentSince, Meeting.passed]
  | meetSender => exact coherent.meet_sender found met free
  | meetRequest => exact coherent.meet_request found met free
  | meetReceiver permitted => exact coherent.meet_receiver found met free permitted
  | reply permitted => exact coherent.reply found met free permitted

/-- A call at a place without a channel concerns nobody else. -/
theorem aside_nowhere (apart : visit.visitor ≠ some id) : Aside state (state.after (none, visit)) id :=
  ⟨(settle_of_none ((lookup_told _ _).trans (if_neg apart))).trans (issue_of_ne apart), fun _ _ => rfl, fun _ _ => rfl⟩

theorem nowhere_ticket (own : visit.visitor = some id) : (state.after (none, visit)).ticket id =
    some ⟨none, visit, state.transfers.length, some (.error noChannel)⟩ := by
  change settle _ _ id = _
  rw [settle, issue_visitor own, lookup_told, if_pos own]
  rfl

/-- Another's call changes no more of a ticket than its answer. -/
theorem bystander_ticket {label : Option σ × Visit μ} (apart : label.2.visitor ≠ some id) {ticket : Ticket σ μ}
    (waits : state.ticket id = some ticket) : ∃ answer, (state.after label).ticket id = some { ticket with answer } := by
  obtain ⟨_ | place, visit⟩ := label
  · exact ⟨ticket.answer, (aside_nowhere apart).ticket.trans waits⟩
  · exact ⟨_, partner_ticket apart waits⟩

theorem Coherent.nowhere (coherent : state.Coherent) (free : state.Free visit) :
    (state.after (none, visit)).Coherent := by
  have visits : ∀ made ∈ state.visits, made ∈ (state.after (none, visit)).visits :=
    fun made member => List.mem_append_left _ member
  refine ⟨fun id ticket found => ?_, fun place => ?_, fun passed member => ?_⟩
  · by_cases own : visit.visitor = some id
    · obtain rfl := Option.some.inj ((nowhere_ticket own).symm.trans found)
      refine ⟨Nat.le_refl _, ?_⟩
      have sent : sentSince state.transfers id state.transfers.length = [] := by simp [sentSince]
      have got : gotSince state.transfers id state.transfers.length = [] := by simp [gotSince]
      rw [show (state.after (none, visit)).transfers = state.transfers from rfl, sent, got]
      exact .refused noChannel (by decide)
    · have same : Aside state (state.after (none, visit)) id := aside_nowhere own
      exact coherent.progress id ticket (same.ticket ▸ found)
  · have others : ∀ id ∈ (state.channel place).parties, Aside state (state.after (none, visit)) id :=
      fun id waits => aside_nowhere fun own => free id own place waits
    exact (coherent.occupied place).aside coherent others visits
  · rcases coherent.offered passed member with sent | ⟨id, sender, sent⟩
    · exact .inl (visits _ sent)
    · exact .inr ⟨id, sender, visits _ sent⟩

theorem Coherent.after (coherent : state.Coherent) (label : Option σ × Visit μ) (free : state.Free label.2) :
    (state.after label).Coherent := by
  obtain ⟨_ | place, visit⟩ := label
  · exact coherent.nowhere free
  · exact coherent.visited free place

omit [DecidableEq σ] in
theorem coherent_start : ({} : State σ μ).Coherent :=
  ⟨nofun, fun _ => trivial, nofun⟩

section Others

variable {label : Option σ × Visit μ}

omit [DecidableEq σ] in
/-- A party that waits nowhere. -/
def Away (state : State σ μ) (id : Nat) : Prop := ∀ place, id ∉ (state.channel place).parties

/-- Calls of others leave a party alone that waits nowhere. -/
theorem Away.aside (away : state.Away id) (apart : label.2.visitor ≠ some id) : Aside state (state.after label) id := by
  obtain ⟨_ | place, visit⟩ := label
  · exact aside_nowhere apart
  · exact State.aside apart (away place)

theorem Away.after (away : state.Away id) (apart : label.2.visitor ≠ some id) : (state.after label).Away id := by
  obtain ⟨_ | place, visit⟩ := label
  · exact away
  · intro other
    change id ∉ (Function.update state.channel place ((state.channel place).visit visit).channel other).parties
    by_cases here : other = place
    · subst here
      rw [Function.update_self]
      exact (((state.channel other).meets visit).bystander apart (away other)).2.1
    · rw [Function.update_of_ne here]
      exact away other

theorem channel_here (state : State σ μ) (place : σ) (visit : Visit μ) :
    (state.after (some place, visit)).channel place = ((state.channel place).visit visit).channel :=
  Function.update_self ..

theorem channel_elsewhere (elsewhere : label.1 ≠ some place) : (state.after label).channel place = state.channel place := by
  obtain ⟨_ | other, visit⟩ := label
  · rfl
  · exact Function.update_of_ne (fun same => elsewhere (congrArg some same.symm)) _ _

/-- Calls of others somewhere else leave a ticket as it is. -/
theorem Coherent.ticket_elsewhere (coherent : state.Coherent) (apart : label.2.visitor ≠ some id) {ticket : Ticket σ μ}
    (found : state.ticket id = some ticket) (elsewhere : label.1 ≠ ticket.place) :
    (state.after label).ticket id = some ticket := by
  obtain ⟨_ | other, visit⟩ := label
  · exact (aside_nowhere apart).ticket.trans found
  · refine (State.aside apart fun waits => ?_).ticket.trans found
    obtain ⟨own, same, place, _⟩ := coherent.waits waits
    cases same.symm.trans found
    exact elsewhere place.symm

theorem exists_transfers (state : State σ μ) (label : Option σ × Visit μ) :
    ∃ new, (state.after label).transfers = state.transfers ++ new := by
  obtain ⟨_ | place, visit⟩ := label
  · exact ⟨[], (List.append_nil _).symm⟩
  · exact ⟨_, rfl⟩

end Others

end State

end Zephyr.Rendezvous
