import Remux.Codex.DispatchOrder

/-!
# What a submission is answered

Whether its entry was sent is inferred by `submit_message` from its drive
having started something and the entry being gone. The drive may have started
an earlier entry, though, while the notification thread takes the entry out of
the queue; or its dispatch may have failed and cleared the queue. Then the
answer is wrong (`misanswered`). Where neither happens an entry that is
answered as sent has been accepted, with the turn that is named, and one that
is answered as queued is in the queue or was taken out of it by the
notification thread (`submissions_kept`).
-/

namespace Remux

open Machine hiding step
open List (Pairwise map_cons mem_cons replicate)
open CodexThread ThreadPendingQueue LanePhase Function

variable {t t' : CodexThread} {lane lane' : LanePhase} {events events' : EventPhase}
variable {r r' : SubmitRecord} {answer : AppServerAnswer} {p : DrivePhase} {id : ℕ}
variable {queue : ThreadPendingQueue}

/-! ## What is owed to a submission -/

/-- **An answer that holds**: what was answered as sent is accepted, with its
turn, and what was answered as queued was in the queue or is taken. -/
structure SubmitReply.Holds (reply : SubmitReply) (r : SubmitRecord) : Prop where
  sent : ∀ {turnId : Option String}, reply.reply = .sent turnId →
    (reply.ticket, turnId) ∈ r.accepted
  queued : reply.reply = .queued → reply.queued = true ∨ reply.ticket ∈ r.takenByEvents

/-- A dispatch of the newest submission that is past its answer is accepted. -/
def DispatchPhase.Accepted (r : SubmitRecord) (phase : DispatchPhase) : Prop :=
  ∀ turnId, phase = .accepting turnId ∨ phase = .done (some turnId) →
    (r.tickets, turnId) ∈ r.accepted

/-- The entry of the newest submission is queued, or it is taken, and then it
was the last. -/
def Awaits (queue : ThreadPendingQueue) (r : SubmitRecord) (id : ℕ) : Prop :=
  id ∈ queue.ids ∨ r.tickets ∈ r.takenByEvents ∧ queue.ids = []

/-- **What a submission's drive owes it**: before it has popped anything and
when it has started nothing, that its entry waits; after, that it is what was
popped, or still queued. -/
def DrivePhase.Owes (queue : ThreadPendingQueue) (r : SubmitRecord) (id : ℕ) : DrivePhase → Prop
  | .checking | .claiming | .claimed | .popping => Awaits queue r id
  | .rechecking effect | .recheckingBusy effect => effect.started = false ∧ Awaits queue r id
  | .dispatching phase => (r.held .lane = r.tickets ∧ phase.Accepted r) ∨ id ∈ queue.ids
  | .releasing effect | .returned effect =>
    if effect.started then (r.tickets, effect.turnId) ∈ r.accepted ∨ id ∈ queue.ids
    else Awaits queue r id

/-- The command is a submission that dispatches or drives. -/
def LanePhase.owes : LanePhase → Bool
  | .sending _ | .submitDriving _ _ => true
  | _ => false

/-- **The invariant of the answers.** -/
structure AnswerInv (t : CodexThread) (lane : LanePhase) (r : SubmitRecord) : Prop where
  own : ∀ {id : ℕ} {p : DrivePhase}, lane = .submitDriving id p →
    id + 1 = t.entryCounter ∧ r.ticketOf id = r.tickets ∧ p.Owes t.queue r id
  direct : ∀ {phase : DispatchPhase}, lane = .sending phase →
    r.held .lane = r.tickets ∧ phase.Accepted r
  replies : ∀ reply ∈ r.replies, reply.Holds r

/-- A drive that has popped an entry, until its caller has the effect, unless
it has started nothing. -/
def DrivePhase.underWay : DrivePhase → Bool
  | .dispatching _ => true
  | .releasing effect | .returned effect => effect.started
  | _ => false

/-- **The step leaves a submission with a wrong answer**: its drive's dispatch
has failed, or the notification thread takes its entry out of the queue while
its drive is under way with another. -/
def CodexServer.misleads (s : CodexServer) : CodexAction → Bool
  | .lane _ =>
    match s.lane with
    | .submitDriving _ (.dispatching (.done none)) => true
    | _ => false
  | .events answer =>
    match s.lane with
    | .submitDriving id p =>
      p.underWay && s.thread.queue.contains id &&
        !(s.events.step s.thread answer).1.queue.contains id
    | _ => false
  | _ => false

/-! ## What goes on record -/

/-- An answer of the app server leaves the rest of the record alone, and loses
nothing that was accepted. -/
theorem answered_frame (party : QueueParty) (phase : DispatchPhase) :
    (r.answered party answer phase).tickets = r.tickets ∧
      (r.answered party answer phase).ticketOf = r.ticketOf ∧
      (r.answered party answer phase).held = r.held ∧
      (r.answered party answer phase).takenByEvents = r.takenByEvents ∧
      (r.answered party answer phase).replies = r.replies ∧
      ∀ entry ∈ r.accepted, entry ∈ (r.answered party answer phase).accepted := by
  rcases phase with (_ | _) | (_ | _) | turnId | _ | result
  case starting.message =>
    rcases answer with (_ | turnId) | _
    · exact ⟨rfl, rfl, rfl, rfl, rfl, fun _ h => h⟩
    · exact ⟨rfl, rfl, rfl, rfl, rfl, fun _ h => List.mem_append_left _ h⟩
    · exact ⟨rfl, rfl, rfl, rfl, rfl, fun _ h => h⟩
  case starting.compact =>
    rcases answer with turnId | _
    · exact ⟨rfl, rfl, rfl, rfl, rfl, fun _ h => List.mem_append_left _ h⟩
    · exact ⟨rfl, rfl, rfl, rfl, rfl, fun _ h => h⟩
  case resuming.message =>
    rcases answer with turnId | _ <;> exact ⟨rfl, rfl, rfl, rfl, rfl, fun _ h => h⟩
  all_goals exact ⟨rfl, rfl, rfl, rfl, rfl, fun _ h => h⟩

/-- The same of a drive, but for what its party holds. -/
theorem drives_frame (party : QueueParty) (p : DrivePhase) :
    (r.drives party queue answer p).tickets = r.tickets ∧
      (r.drives party queue answer p).ticketOf = r.ticketOf ∧
      (∀ other, other ≠ party → (r.drives party queue answer p).held other = r.held other) ∧
      (r.drives party queue answer p).takenByEvents = r.takenByEvents ∧
      (r.drives party queue answer p).replies = r.replies ∧
      ∀ entry ∈ r.accepted, entry ∈ (r.drives party queue answer p).accepted := by
  cases p
  case popping =>
    simp only [SubmitRecord.drives, SubmitRecord.popped]
    split
    · exact ⟨rfl, rfl, fun other hne => update_of_ne hne .., rfl, rfl, fun _ h => h⟩
    · exact ⟨rfl, rfl, fun _ _ => rfl, rfl, rfl, fun _ h => h⟩
  case dispatching phase =>
    obtain ⟨htix, hticketOf, hheld, htaken, hreplies, hacc⟩ :=
      @answered_frame r answer party phase
    exact ⟨htix, hticketOf, fun other _ => congrFun hheld other, htaken, hreplies, hacc⟩
  all_goals exact ⟨rfl, rfl, fun _ _ => rfl, rfl, rfl, fun _ h => h⟩

/-- An answer that held holds when more is on record. -/
theorem SubmitReply.Holds.mono {reply : SubmitReply} (h : reply.Holds r)
    (hacc : ∀ entry ∈ r.accepted, entry ∈ r'.accepted)
    (htaken : ∀ ticket ∈ r.takenByEvents, ticket ∈ r'.takenByEvents) : reply.Holds r' :=
  ⟨fun hsent => hacc _ (h.sent hsent), fun hqd => (h.queued hqd).imp_right (htaken _)⟩

/-! ## The lane -/

variable {phase : DispatchPhase} {s : RecordedServer}

theorem DispatchPhase.accepted_of_not (haccepting : ∀ turnId, phase ≠ .accepting turnId)
    (hdone : ∀ turnId, phase ≠ .done (some turnId)) : phase.Accepted r :=
  fun turnId h => h.elim (fun h => absurd h (haccepting turnId)) fun h => absurd h (hdone turnId)

/-- **The newest submission's dispatch is accepted when it is answered.** -/
theorem DispatchPhase.Accepted.step (h : phase.Accepted r) (hheld : r.held .lane = r.tickets) :
    (phase.step t answer).2.Accepted (r.answered .lane answer phase) := by
  have hrec : ∀ turnId, (r.tickets, turnId) ∈ r.accepted ++ [(r.held .lane, turnId)] :=
    fun turnId => List.mem_append_right _ (by rw [hheld]; exact List.mem_singleton_self _)
  rcases phase with (_ | _) | (_ | _) | turnId | _ | result
  case resuming.message | resuming.compact =>
    rcases answer with turnId | _ <;> exact accepted_of_not nofun nofun
  case starting.message =>
    rcases answer with (_ | turnId) | _
    · exact accepted_of_not nofun nofun
    · rintro turnId' (heq | heq)
      · obtain rfl := DispatchPhase.accepting.inj heq
        exact hrec _
      · cases heq
    · exact accepted_of_not nofun nofun
  case starting.compact =>
    rcases answer with turnId | _
    · rintro turnId' (heq | heq)
      · obtain rfl := DispatchPhase.accepting.inj heq
        exact hrec _
      · cases heq
    · exact accepted_of_not nofun nofun
  case accepting =>
    rintro turnId' (heq | heq)
    · cases heq
    · cases DispatchPhase.done.inj heq
      exact h _ (.inl rfl)
  case failing => exact accepted_of_not nofun nofun
  case done => exact h

/-- **A step of its own drive keeps what is owed to a submission**, unless a
dispatch has failed. -/
theorem DrivePhase.Owes.step (h : p.Owes t.queue r id) (hticket : r.ticketOf id = r.tickets)
    (hfails : p ≠ .dispatching (.done none)) :
    (p.step t answer).2.Owes (p.step t answer).1.queue (r.drives .lane t.queue answer p) id := by
  cases p
  case checking =>
    simp only [DrivePhase.step]
    split <;> exact h
  case claiming =>
    simp only [DrivePhase.step]
    split <;> exact h
  case claimed =>
    simp only [DrivePhase.step]
    split <;> exact h
  case popping =>
    simp only [DrivePhase.step, SubmitRecord.drives, SubmitRecord.popped]
    cases hpop : t.queue.popFront with
    | none => exact h
    | some popped =>
      obtain ⟨entry, queue⟩ := popped
      have hids : t.queue.ids = entry.id :: queue.ids := by
        rw [ids, (popFront_eq_some hpop).1, map_cons]
        rfl
      rw [hand_queue]
      rcases h with hin | ⟨-, hnil⟩
      · rw [hids, mem_cons] at hin
        refine hin.imp_left fun heq => ⟨?_, DispatchPhase.accepted_of_not
          (by rintro _ ⟨⟩) (by rintro _ ⟨⟩)⟩
        -- it has popped the entry of its own submission
        show update r.held .lane (r.ticketOf entry.id) .lane = r.tickets
        rw [update_self, ← heq, hticket]
      · rw [hids] at hnil
        cases hnil
  case dispatching phase =>
    obtain ⟨htix, -, hheld, -⟩ := @answered_frame r answer .lane phase
    obtain ⟨runtime, hfst⟩ := @DispatchPhase.step_fst t answer phase
    have hq : (phase.step t answer).1.queue = t.queue := by rw [hfst]
    have hnext : ((r.answered .lane answer phase).held .lane =
          (r.answered .lane answer phase).tickets ∧
        (phase.step t answer).2.Accepted (r.answered .lane answer phase)) ∨
          id ∈ (phase.step t answer).1.queue.ids := by
      rw [hq, htix, hheld]
      exact h.imp_left fun hown => ⟨hown.1, hown.2.step hown.1⟩
    rcases phase with kind | kind | turnId | _ | (_ | result)
    case done.none => exact absurd rfl hfails
    case done.some => exact h.imp_left fun hown => hown.2 _ (.inr rfl)
    all_goals exact hnext
  case releasing effect =>
    simp only [DrivePhase.step]
    cases hstarted : effect.started with
    | true => exact h
    | false =>
      simp only [DrivePhase.Owes, hstarted] at h
      exact ⟨hstarted, h⟩
  case rechecking =>
    simp only [DrivePhase.step]
    split
    · exact h
    · simp only [DrivePhase.Owes, h.1]
      exact h.2
  case recheckingBusy =>
    simp only [DrivePhase.step]
    split
    · simp only [DrivePhase.Owes, h.1]
      exact h.2
    · exact h.2
  case returned => exact h

theorem LanePhase.step_submitDriving_eq (h : ∀ effect, p ≠ .returned effect) :
    (submitDriving id p).step t answer =
      ((p.step t answer).1, .submitDriving id (p.step t answer).2) := by
  cases p with
  | returned effect => exact absurd rfl (h effect)
  | _ => rfl

theorem LanePhase.step_sending_eq {phase : DispatchPhase} (h : ∀ result, phase ≠ .done result) :
    (sending phase).step t answer =
      ((phase.step t answer).1, .sending (phase.step t answer).2) := by
  cases phase with
  | done result => exact absurd rfl (h result)
  | _ => rfl

namespace AnswerInv

/-- The lane is at no submission that is owed anything. -/
theorem rest (hreplies : ∀ reply ∈ r.replies, reply.Holds r) (howes : lane'.owes = false) :
    AnswerInv t' lane' r := by
  refine ⟨fun heq => ?_, fun heq => ?_, hreplies⟩ <;>
  · rw [heq] at howes
    cases howes

/-- A submission is over, with an answer that holds. -/
theorem replied (h : AnswerInv t lane r) {queued : Bool} {reply : CommandReply}
    (hh : (SubmitReply.mk r.tickets reply queued).Holds r) :
    AnswerInv t' (.waiting (some reply)) (r.replied queued (.waiting (some reply))) := by
  refine rest (fun reply' hmem => ?_) rfl
  rcases mem_concat.1 hmem with hold | rfl
  · exact (h.replies _ hold).mono (fun _ h => h) fun _ h => h
  · exact hh.mono (fun _ h => h) fun _ h => h

/-- A submission's drive is over: what it is answered holds. -/
theorem stepReturned {effect : DriveEffect}
    (h : AnswerInv t (.submitDriving id (.returned effect)) r) :
    AnswerInv t' ((submitDriving id (.returned effect)).step t answer).2
      (r.replied (t.queue.contains id)
        ((submitDriving id (.returned effect)).step t answer).2) := by
  obtain ⟨-, -, howes⟩ := h.own rfl
  simp only [DrivePhase.Owes] at howes
  simp only [step]
  cases hcontains : t.queue.contains id with
  | true =>
    rw [Bool.not_true, Bool.and_false]
    exact h.replied ⟨(by simp), fun _ => .inl rfl⟩
  | false =>
    have hout : id ∉ t.queue.ids := fun hin => by
      rw [contains_iff.2 hin] at hcontains
      cases hcontains
    cases hstarted : effect.started with
    | true =>
      rw [if_pos hstarted] at howes
      refine h.replied ⟨fun heq => ?_, (by simp)⟩
      obtain rfl := CommandReply.sent.inj heq
      exact howes.resolve_right hout
    | false =>
      rw [if_neg (by rw [hstarted]; rintro ⟨⟩)] at howes
      exact h.replied ⟨(by simp), fun _ => .inr (howes.resolve_left hout).1⟩

/-- **A step of the lane keeps the answers**, unless it misleads. -/
theorem stepLane {s : CodexServer} (h : AnswerInv s.thread s.lane r)
    (horder : OrderInv s.thread s.lane s.events r) (hgood : s.misleads (.lane answer) = false) :
    AnswerInv (s.lane.step s.thread answer).1 (s.lane.step s.thread answer).2
      (r.laneStep s answer) := by
  obtain ⟨t, lane, events⟩ := s
  rcases lane with reply | kind | kind | kind | phase | kind | ⟨id, phase⟩ | id | id | id | id |
    ⟨id, phase⟩ | ⟨id, turnId⟩ | id | id | id | id | turnId | turnId | turnId | turnId
  case submitting =>
    by_cases hstop : t.runtime.isStopping = true
    · have hstep : (submitting kind).step t answer = (t, .waiting (some .rejected)) := by
        simp only [step, if_pos hstop]
      simp only [SubmitRecord.laneStep, SubmitRecord.laneActs, submits, hstep, if_true]
      exact h.replied ⟨(by simp), (by simp)⟩
    · have hstep : (submitting kind).step t answer = (t, .submittingBusy kind) := by
        simp only [step, if_neg hstop]
      simp only [SubmitRecord.laneStep, SubmitRecord.laneActs, submits, hstep, if_true]
      exact rest h.replies rfl
  case submittingBusy =>
    simp only [SubmitRecord.laneStep, SubmitRecord.laneActs, submits, if_true,
      step]
    split <;> exact rest h.replies rfl
  case submittingEntries =>
    have hreplies : ∀ reply ∈ r.sentAtOnce.replies, reply.Holds r.sentAtOnce :=
      fun reply hmem => (h.replies reply hmem).mono (fun _ h => h) fun _ h => h
    simp only [SubmitRecord.laneStep, SubmitRecord.laneActs, submits, if_true,
      step]
    split
    · refine ⟨(by simp), fun heq => ?_, hreplies⟩
      obtain rfl := sending.inj heq
      refine ⟨?_, DispatchPhase.accepted_of_not (by rintro _ ⟨⟩) (by rintro _ ⟨⟩)⟩
      show update r.held .lane r.tickets .lane = r.tickets
      exact update_self ..
    · exact rest hreplies rfl
  case sending =>
    obtain ⟨hheld, hacc⟩ := h.direct rfl
    obtain ⟨htix, -, hheld', htaken, hreplies, hmore⟩ := @answered_frame r answer .lane phase
    by_cases hdone : ∃ result, phase = .done result
    · obtain ⟨_ | turnId, rfl⟩ := hdone
      · exact h.replied ⟨(by simp), (by simp)⟩
      · refine h.replied ⟨fun heq => ?_, (by simp)⟩
        obtain rfl := CommandReply.sent.inj heq
        exact hacc _ (.inr rfl)
    · have hstep := @LanePhase.step_sending_eq t answer phase fun result heq => hdone ⟨result, heq⟩
      simp only [SubmitRecord.laneStep, SubmitRecord.laneActs, submits, if_true, hstep,
        SubmitRecord.replied]
      refine ⟨(by simp), fun heq => ?_, fun reply hmem => ?_⟩
      · obtain rfl := sending.inj heq
        exact ⟨by rw [hheld', htix, hheld], hacc.step hheld⟩
      · rw [hreplies] at hmem
        exact (h.replies reply hmem).mono hmore (htaken ▸ fun _ h => h)
  case appending =>
    have hnew : t.entryCounter ∉ t.queue.ids := fun hin =>
      Nat.lt_irrefl _ (horder.tickets.below _ hin)
    refine ⟨fun heq => ?_, (by rintro _ ⟨⟩), fun reply hmem =>
      (h.replies reply hmem).mono (fun _ h => h) fun _ h => h⟩
    cases heq
    refine ⟨rfl, update_self .., .inl ?_⟩
    show t.entryCounter ∈ (t.queue.append ⟨kind, t.entryCounter⟩).ids
    rw [append_ids hnew]
    exact List.mem_concat_self
  case submitDriving =>
    obtain ⟨hctr, hticket, howes⟩ := h.own rfl
    obtain ⟨htix, hticketOf, -, htaken, hreplies, hmore⟩ :=
      @drives_frame r answer t.queue .lane phase
    by_cases hret : ∃ effect, phase = .returned effect
    · obtain ⟨effect, rfl⟩ := hret
      exact h.stepReturned
    · have hstep := @LanePhase.step_submitDriving_eq t answer phase id fun effect heq =>
        hret ⟨effect, heq⟩
      simp only [SubmitRecord.laneStep, SubmitRecord.laneActs, submits, if_true, hstep,
        SubmitRecord.replied]
      refine ⟨fun heq => ?_, (by simp), fun reply hmem => ?_⟩
      · cases heq
        rw [(@DrivePhase.step_ids t answer phase).2, hticketOf, htix]
        refine ⟨hctr, hticket, howes.step hticket ?_⟩
        rintro rfl
        cases hgood
      · rw [hreplies] at hmem
        exact (h.replies reply hmem).mono hmore (htaken ▸ fun _ h => h)
  case runDriving =>
    obtain ⟨-, -, -, htaken, hreplies, hmore⟩ := @drives_frame r answer t.queue .lane phase
    have hheld : ∀ reply ∈ (r.drives .lane t.queue answer phase).replies,
        reply.Holds (r.drives .lane t.queue answer phase) := by
      intro reply hmem
      rw [hreplies] at hmem
      exact (h.replies reply hmem).mono hmore (htaken ▸ fun _ h => h)
    exact rest hheld (by cases phase <;> rfl)
  case waiting | removing | steered | steerFailed | interrupting | interruptRecording =>
    exact rest h.replies rfl
  all_goals
    simp only [SubmitRecord.laneStep, SubmitRecord.laneActs, submits, step]
    split <;> exact rest h.replies rfl

end AnswerInv

/-! ## The notification thread -/

/-- What a step of the notification thread makes of the queue. -/
theorem EventPhase.step_queue (events : EventPhase) :
    (events.step t answer).1.queue = t.queue ∨ (events.step t answer).1.queue = t.queue.clear ∨
      ∃ entry, t.queue.popFront = some (entry, (events.step t answer).1.queue) := by
  rcases events with _ | note | phase
  · exact .inl rfl
  · rcases @EventPhase.step_queueing t answer note with hstep | hstep
    · exact .inl (by rw [hstep])
    · exact .inr (.inl (by rw [hstep]))
  · rw [EventPhase.step_driving]
    rcases @DrivePhase.step_fst t answer phase with
      ⟨runtime, driving, hstep⟩ | hstep | ⟨-, entry, queue, hfront, hstep⟩
    · exact .inl (by rw [hstep])
    · exact .inr (.inl (by rw [hstep]))
    · refine .inr (.inr ⟨entry, ?_⟩)
      rw [hstep, hand_queue, hfront]

/-- **What the notification thread puts on record**: of the newest submission
nothing but that its entry is taken, if it is. -/
theorem eventsStep_frame (s : CodexServer) :
    (r.eventsStep s answer).tickets = r.tickets ∧ (r.eventsStep s answer).ticketOf = r.ticketOf ∧
      (r.eventsStep s answer).held .lane = r.held .lane ∧
      (r.eventsStep s answer).replies = r.replies ∧
      (∀ entry ∈ r.accepted, entry ∈ (r.eventsStep s answer).accepted) ∧
      (∀ ticket ∈ r.takenByEvents, ticket ∈ (r.eventsStep s answer).takenByEvents) ∧
      ∀ id ∈ s.thread.queue.ids, id ∉ (s.events.step s.thread answer).1.queue.ids →
        r.ticketOf id ∈ (r.eventsStep s answer).takenByEvents := by
  have hact : (r.eventsAct s answer).tickets = r.tickets ∧
      (r.eventsAct s answer).ticketOf = r.ticketOf ∧
      (r.eventsAct s answer).held .lane = r.held .lane ∧
      (r.eventsAct s answer).takenByEvents = r.takenByEvents ∧
      (r.eventsAct s answer).replies = r.replies ∧
      ∀ entry ∈ r.accepted, entry ∈ (r.eventsAct s answer).accepted := by
    unfold SubmitRecord.eventsAct
    split
    · rename_i phase hph
      obtain ⟨htix, hticketOf, hheld, htaken, hreplies, hmore⟩ :=
        @drives_frame r answer s.thread.queue .events phase
      exact ⟨htix, hticketOf, hheld .lane (by decide), htaken, hreplies, hmore⟩
    · exact ⟨rfl, rfl, rfl, rfl, rfl, fun _ h => h⟩
  obtain ⟨htix, hticketOf, hheld, htaken, hreplies, hmore⟩ := hact
  refine ⟨htix, hticketOf, hheld, hreplies, hmore, fun ticket hticket => ?_, fun id hin hout => ?_⟩
  · exact List.mem_append_left _ (htaken ▸ hticket)
  · obtain ⟨entry, hent, rfl⟩ := mem_ids.1 hin
    refine List.mem_append_right _ (List.mem_map.2 ⟨entry, List.mem_filter.2 ⟨hent, ?_⟩, ?_⟩)
    · rw [Bool.not_eq_true', Bool.eq_false_iff]
      exact fun hcontains => hout (contains_iff.1 hcontains)
    · rw [hticketOf]

/-- The last entry, once the notification thread has taken it, was the last
that was queued. -/
theorem ids_eq_nil_of_taken {s : CodexServer} (horder : OrderInv s.thread s.lane s.events r)
    (hctr : id + 1 = s.thread.entryCounter) (hin : id ∈ s.thread.queue.ids)
    (hout : id ∉ (s.events.step s.thread answer).1.queue.ids) :
    (s.events.step s.thread answer).1.queue.ids = [] := by
  rcases @EventPhase.step_queue s.thread answer s.events with hsame | hclr | ⟨entry, hpop⟩
  · rw [hsame] at hout
    exact absurd hin hout
  · rw [hclr, clear_ids]
  · have hids : s.thread.queue.ids = entry.id :: (s.events.step s.thread answer).1.queue.ids := by
      rw [ids, (popFront_eq_some hpop).1, map_cons]
      rfl
    have hsort := horder.tickets.sorted
    rw [hids, mem_cons, or_iff_left hout] at hin
    rw [hids, List.pairwise_cons] at hsort
    refine List.eq_nil_iff_forall_not_mem.2 fun later hlat => ?_
    have hlt := hsort.1 later hlat
    have hbelow := horder.tickets.below later (hids ▸ List.mem_cons_of_mem _ hlat)
    omega

/-- **A step of the notification thread keeps what is owed to a submission**,
unless it takes its entry from under a drive with another. -/
theorem DrivePhase.Owes.stepEvents {s : CodexServer}
    (horder : OrderInv s.thread s.lane s.events r) (hctr : id + 1 = s.thread.entryCounter)
    (hticket : r.ticketOf id = r.tickets) (h : p.Owes s.thread.queue r id)
    (hkept : p.underWay = true → id ∈ s.thread.queue.ids →
      id ∈ (s.events.step s.thread answer).1.queue.ids) :
    p.Owes (s.events.step s.thread answer).1.queue (r.eventsStep s answer) id := by
  obtain ⟨htix, hticketOf, hheld, hreplies, hacc, htaken, hgone⟩ :=
    @eventsStep_frame r answer s
  have hawaits : Awaits s.thread.queue r id →
      Awaits (s.events.step s.thread answer).1.queue (r.eventsStep s answer) id := by
    rintro (hin | ⟨hold, hnil⟩)
    · by_cases hout : id ∈ (s.events.step s.thread answer).1.queue.ids
      · exact .inl hout
      · refine .inr ⟨?_, ids_eq_nil_of_taken horder hctr hin hout⟩
        rw [htix, ← hticket]
        exact hgone id hin hout
    · refine .inr ⟨htix ▸ htaken _ hold, ?_⟩
      have hsub := (@EventPhase.step_ids s.thread answer s.events).1
      rw [hnil] at hsub
      exact List.sublist_nil.1 hsub
  have hstarted : ∀ effect : DriveEffect, (effect.started = true → p.underWay = true) →
      (if effect.started then (r.tickets, effect.turnId) ∈ r.accepted ∨ id ∈ s.thread.queue.ids
        else Awaits s.thread.queue r id) →
      if effect.started then ((r.eventsStep s answer).tickets, effect.turnId) ∈
          (r.eventsStep s answer).accepted ∨ id ∈ (s.events.step s.thread answer).1.queue.ids
        else Awaits (s.events.step s.thread answer).1.queue (r.eventsStep s answer) id := by
    intro effect hunder h
    cases hs : effect.started with
    | true =>
      rw [if_pos hs] at h
      rw [if_pos rfl, htix]
      exact h.imp (hacc _) (hkept (hunder hs))
    | false =>
      rw [if_neg (by rw [hs]; nofun)] at h
      exact hawaits h
  cases p with
  | checking | claiming | claimed | popping => exact hawaits h
  | rechecking effect | recheckingBusy effect => exact ⟨h.1, hawaits h.2⟩
  | dispatching phase =>
    refine Or.imp (fun hown => ⟨?_, fun turnId hph => ?_⟩) (hkept rfl) h
    · rw [hheld, htix, hown.1]
    · rw [htix]
      exact hacc _ (hown.2 turnId hph)
  | releasing effect | returned effect => exact hstarted effect (fun hs => hs) h

/-- An event that does not mislead keeps the answers. -/
theorem AnswerInv.stepEvents {s : CodexServer} (h : AnswerInv s.thread s.lane r)
    (horder : OrderInv s.thread s.lane s.events r) (hgood : s.misleads (.events answer) = false) :
    AnswerInv (s.events.step s.thread answer).1 s.lane (r.eventsStep s answer) := by
  obtain ⟨htix, hticketOf, hheld, hreplies, hacc, htaken, -⟩ := @eventsStep_frame r answer s
  refine ⟨fun {id p} hlane => ?_, fun {phase} hlane => ?_, fun reply hmem => ?_⟩
  · obtain ⟨hctr, hticket, howes⟩ := h.own hlane
    refine ⟨hctr.trans (@EventPhase.step_ids s.thread answer s.events).2.symm,
      by rw [hticketOf, htix, hticket], ?_⟩
    refine howes.stepEvents horder hctr hticket fun hunder hin => ?_
    by_contra hout
    have hcontains : (s.events.step s.thread answer).1.queue.contains id = false :=
      Bool.eq_false_iff.2 fun hc => hout (contains_iff.1 hc)
    simp only [CodexServer.misleads, hlane, hunder, contains_iff.2 hin, hcontains] at hgood
    cases hgood
  · obtain ⟨hown, hph⟩ := h.direct hlane
    refine ⟨by rw [hheld, htix, hown], fun turnId heq => ?_⟩
    rw [htix]
    exact hacc _ (hph turnId heq)
  · rw [hreplies] at hmem
    exact (h.replies reply hmem).mono hacc htaken

/-! ## Every run -/

/-- A step that neither overtakes nor misleads. -/
def RecordedServer.Truthful (s : RecordedServer) (a : CodexAction) : Prop :=
  s.server.overtakes a = false ∧ s.server.misleads a = false

instance (s : RecordedServer) (a : CodexAction) : Decidable (s.Truthful a) :=
  inferInstanceAs (Decidable (_ ∧ _))

/-- The invariants of the recorded machine. -/
structure RecordedInv (s : RecordedServer) : Prop where
  order : OrderInv s.server.thread s.server.lane s.server.events s.record
  answers : AnswerInv s.server.thread s.server.lane s.record

/-- A truthful step keeps what is recorded. -/
theorem RecordedInv.step {s' : RecordedServer} {a : CodexAction} (h : RecordedInv s)
    (hgood : s.Truthful a) (hstep : recordedMachine.step s a = some s') : RecordedInv s' := by
  obtain ⟨⟨t, lane, events⟩, r⟩ := s
  obtain ⟨horder, hanswers⟩ := h
  obtain ⟨server, hserver, rfl⟩ := Option.map_eq_some_iff.1 hstep
  cases a with
  | command command =>
    cases lane with
    | waiting reply =>
      cases hserver
      refine ⟨horder.stepCommand, AnswerInv.rest ?_ (by cases command <;> rfl)⟩
      cases command with
      | submit kind =>
        exact fun reply hmem => (hanswers.replies reply hmem).mono (fun _ h => h) fun _ h => h
      | remove | runNow | interrupt => exact hanswers.replies
    | _ => cases hserver
  | lane answer =>
    cases hserver
    exact ⟨horder.laneStep hgood.1, hanswers.stepLane horder hgood.2⟩
  | notify notification =>
    cases events with
    | waiting =>
      cases hserver
      refine ⟨?_, hanswers.own, hanswers.direct, hanswers.replies⟩
      exact @OrderInv.notify t
        { t with runtime := t.runtime.recordNotification notification } lane r
        horder rfl rfl rfl notification
    | _ => cases hserver
  | events answer =>
    cases hserver
    refine ⟨?_, hanswers.stepEvents horder hgood.2⟩
    exact (@OrderInv.stepEvents r answer _ horder).congr rfl rfl rfl rfl

/-- Nothing is recorded at first. -/
theorem RecordedInv.init : RecordedInv recordedMachine.init where
  order :=
    { claims := ⟨rfl, nofun, nofun⟩
      tickets := ⟨Pairwise.nil, nofun, fun {i j} hij hj =>
        absurd (show j < 1 from hj) (by omega), fun _ => le_rfl,
        Pairwise.nil, nofun, nofun⟩
      lane_hand := nofun
      events_hand := nofun
      apart := nofun
      newest := nofun
      newest_hand := nofun }
  answers := ⟨nofun, nofun, nofun⟩

theorem RecordedInv.of_reachable
    (hs : (recordedMachine.restrict RecordedServer.Truthful).Reachable s) : RecordedInv s :=
  hs.rule (P := RecordedInv) RecordedInv.init fun _ _ _ _ hu hv =>
    hu.step (restrict_step_eq_some.1 hv).1 (restrict_step_eq_some.1 hv).2

/-- **A submission is answered truly, and messages are dispatched in order**,
in every run whose steps neither overtake nor mislead: an entry that is
answered as sent was accepted, with the turn that is named; one that is
answered as queued was in the queue at that moment or the notification thread
has taken it; and the messages are dispatched as they were submitted. -/
theorem submissions_kept {s : RecordedServer}
    (hs : (recordedMachine.restrict RecordedServer.Truthful).Reachable s) :
    (∀ reply ∈ s.record.replies,
      (∀ turnId, reply.reply = .sent turnId → (reply.ticket, turnId) ∈ s.record.accepted) ∧
        (reply.reply = .queued → reply.queued = true ∨ reply.ticket ∈ s.record.takenByEvents)) ∧
      s.record.dispatched.Pairwise (· < ·) := by
  obtain ⟨horder, hanswers⟩ := RecordedInv.of_reachable hs
  refine ⟨fun reply hmem => ?_, horder.tickets.ordered⟩
  have hholds := hanswers.replies reply hmem
  exact ⟨fun _ => hholds.sent, hholds.queued⟩

/-- A message is sent at once, and the next is queued behind its turn. -/
def queuedBehindRun : List CodexAction :=
  [CodexAction.command (.submit .message)] ++ replicate 4 (CodexAction.lane (.ok none)) ++
    [CodexAction.lane (.ok (some "turn-1"))] ++ replicate 2 (CodexAction.lane (.ok none)) ++
    [CodexAction.command (.submit .message)] ++ replicate 5 (CodexAction.lane (.ok none))

/-- Submissions behind a turn. -/
theorem submissions_kept_queued :
    let s := (recordedMachine.restrict RecordedServer.Truthful).run queuedBehindRun
      recordedMachine.init
    s.record.replies = [⟨1, .sent (some "turn-1"), false⟩, ⟨2, .queued, true⟩] ∧
      ((1, some "turn-1") ∈ s.record.accepted ∧ s.record.dispatched.Pairwise (· < ·)) := by
  have hrun := @Machine.exec_eq_run _ _ (recordedMachine.restrict RecordedServer.Truthful)
    recordedMachine.init queuedBehindRun (by decide +kernel)
  obtain ⟨hreplies, hordered⟩ := submissions_kept ⟨queuedBehindRun, hrun⟩
  exact ⟨by decide +kernel,
    (hreplies ⟨1, .sent (some "turn-1"), false⟩ (by decide +kernel)).1 _ rfl, hordered⟩

/-- A message is queued behind a turn. -/
def queuedRun : List CodexAction :=
  [CodexAction.notify (.turnStarted (some "turn-0")), .events (.ok none),
    .command (.submit .message)] ++
    replicate 5 (CodexAction.lane (.ok none))

/-- The thread is idle before its turn has completed; another message is
queued, and its drive pops the first. -/
def earlierPoppedRun : List CodexAction :=
  queuedRun ++ [CodexAction.notify (.threadStatusChanged (.text "ready")), .events (.ok none),
    .command (.submit .message)] ++ replicate 9 (CodexAction.lane (.ok none))

/-- The first message's turn is accepted, and an error clears the queue. -/
def clearedRun : List CodexAction :=
  earlierPoppedRun ++ [CodexAction.lane (.ok (some "turn-1")), .lane (.ok none), .notify .error,
    .events (.ok none)] ++ replicate 4 (CodexAction.lane (.ok none))

/-- The dispatch of the first message fails. -/
def failedDispatchRun : List CodexAction :=
  earlierPoppedRun ++ [CodexAction.lane .error] ++ replicate 6 (CodexAction.lane (.ok none))

/-- The turn completes, and the drive that follows has popped the first message
when another is sent at once. -/
def overtakenRun : List CodexAction :=
  queuedRun ++ [CodexAction.notify (.turnCompleted none)] ++
    replicate 5 (CodexAction.events (.ok none)) ++
    [CodexAction.command (.submit .message)] ++ replicate 4 (CodexAction.lane (.ok none)) ++
    [CodexAction.events (.ok none)]

/-- **A submission is misanswered, or overtakes another**: it is answered as
sent, with a turn that is another's, and was never accepted; it is answered as
queued, and is neither queued nor taken by anyone else; the second message is
dispatched before the first. -/
theorem misanswered : (∃ acts s, recordedMachine.exec acts recordedMachine.init = some s ∧
        ∃ reply ∈ s.record.replies, reply.reply = .sent (some "turn-1") ∧
          (reply.ticket, some "turn-1") ∉ s.record.accepted) ∧
      (∃ acts s, recordedMachine.exec acts recordedMachine.init = some s ∧
        ∃ reply ∈ s.record.replies, reply.reply = .queued ∧ reply.queued = false ∧
          reply.ticket ∉ s.record.takenByEvents) ∧
      ∃ acts s, recordedMachine.exec acts recordedMachine.init = some s ∧
        ¬ s.record.dispatched.Pairwise (· < ·) :=
  ⟨⟨clearedRun, _, exec_eq_run (by decide +kernel),
      ⟨2, .sent (some "turn-1"), false⟩, by decide +kernel, rfl, by decide +kernel⟩,
    ⟨failedDispatchRun, _, exec_eq_run (by decide +kernel),
      ⟨2, .queued, false⟩, by decide +kernel, rfl, rfl, by decide +kernel⟩,
    ⟨overtakenRun, _, exec_eq_run (by decide +kernel), by decide +kernel⟩⟩

end Remux
