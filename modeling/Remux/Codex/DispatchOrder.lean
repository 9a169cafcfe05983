import Remux.Codex.HandedOnce
import Remux.Codex.Model.Submissions
import Remux.Codex.Stranded

/-!
# Messages are dispatched in order

Entries leave the queue in the order they entered it, and one drive holds the
claim at a time. A submission that finds the thread idle and the queue empty
is sent without the claim, though, while the notification thread may still
have a message in hand that it has popped. Where that does not happen
`turn/start` goes out for the messages in the order of their tickets.
-/

namespace Remux

open CodexThread ThreadPendingQueue LanePhase List Function

variable {t t' : CodexThread} {lane lane' : LanePhase} {events events' : EventPhase}
variable {r r' : SubmitRecord} {answer : AppServerAnswer} {p : DrivePhase}

/-! ## Tickets -/

/-- **Tickets in order**: of the entries that were given ids, of those in the
queue, and of the messages dispatched, which all come before. -/
structure TicketInv (ids : List ℕ) (counter : ℕ) (ticketOf : ℕ → ℕ) (tickets : ℕ)
    (dispatched : List ℕ) : Prop where
  sorted : ids.Pairwise (· < ·)
  below : ∀ id ∈ ids, id < counter
  mono : ∀ {i j : ℕ}, i < j → j < counter → ticketOf i < ticketOf j
  le : ∀ {i : ℕ}, i < counter → ticketOf i ≤ tickets
  ordered : dispatched.Pairwise (· < ·)
  before : ∀ d ∈ dispatched, ∀ id ∈ ids, d < ticketOf id
  dispatched_le : ∀ d ∈ dispatched, d ≤ tickets

/-- **A message in hand** comes after all that was dispatched and before all
that is queued. -/
structure InHand (ids : List ℕ) (ticketOf : ℕ → ℕ) (tickets : ℕ) (dispatched : List ℕ)
    (held : ℕ) : Prop where
  after : ∀ d ∈ dispatched, d < held
  before : ∀ id ∈ ids, held < ticketOf id
  le : held ≤ tickets

/-- The ticket of a submission that has no entry yet is the last. -/
structure Newest (counter : ℕ) (ticketOf : ℕ → ℕ) (tickets : ℕ) (dispatched : List ℕ) : Prop where
  entries : ∀ {i : ℕ}, i < counter → ticketOf i < tickets
  dispatched : ∀ d ∈ dispatched, d < tickets

section

variable {ids ids' : List ℕ} {counter tickets held id : ℕ} {ticketOf : ℕ → ℕ} {dispatched : List ℕ}

namespace TicketInv

variable (h : TicketInv ids counter ticketOf tickets dispatched)
include h

theorem of_sublist
    (hids : ids'.Sublist ids) : TicketInv ids' counter ticketOf tickets dispatched where
  __ := h
  sorted := h.sorted.sublist hids
  below id hid := h.below id (hids.subset hid)
  before d hd id hid := h.before d hd id (hids.subset hid)

/-- A submission comes in. -/
theorem submit : TicketInv ids counter ticketOf (tickets + 1) dispatched where
  __ := h
  le hi := (h.le hi).trans (Nat.le_succ _)
  dispatched_le d hd := (h.dispatched_le d hd).trans (Nat.le_succ _)

theorem newest : Newest counter ticketOf (tickets + 1) dispatched where
  entries hi := Nat.lt_succ_of_le (h.le hi)
  dispatched d hd := Nat.lt_succ_of_le (h.dispatched_le d hd)

/-- A submission gets its entry. -/
theorem enter (hnew : Newest counter ticketOf tickets dispatched) :
    TicketInv (ids ++ [counter]) (counter + 1) (update ticketOf counter tickets)
      tickets dispatched := by
  have hold : ∀ {i : ℕ}, i < counter → update ticketOf counter tickets i = ticketOf i :=
    fun hi => update_of_ne (Nat.ne_of_lt hi) ..
  have hself : update ticketOf counter tickets counter = tickets :=
    update_self ..
  constructor
  · rw [pairwise_append]
    refine ⟨h.sorted, pairwise_singleton .., fun i hi j hj => ?_⟩
    rw [mem_singleton.1 hj]
    exact h.below i hi
  · intro i hi
    rcases mem_concat.1 hi with hi | hi
    · exact Nat.lt_succ_of_lt (h.below i hi)
    · exact hi ▸ Nat.lt_succ_self _
  · intro i j hij hj
    have hi : i < counter := by omega
    rw [hold hi]
    rcases Nat.lt_succ_iff_lt_or_eq.1 hj with hj | rfl
    · rw [hold hj]
      exact h.mono hij hj
    · rw [hself]
      exact hnew.entries hi
  · intro i hi
    rcases Nat.lt_succ_iff_lt_or_eq.1 hi with hi | rfl
    · rw [hold hi]
      exact h.le hi
    · rw [hself]
  · exact h.ordered
  · intro d hd i hi
    rcases mem_concat.1 hi with hi | rfl
    · rw [hold (h.below i hi)]
      exact h.before d hd i hi
    · rw [hself]
      exact hnew.dispatched d hd
  · exact h.dispatched_le

omit h

/-- The front entry is popped, and in hand. -/
theorem pop (h : TicketInv (id :: ids) counter ticketOf tickets dispatched) :
    InHand ids ticketOf tickets dispatched (ticketOf id) where
  after d hd := h.before d hd id mem_cons_self
  before i hi :=
    h.mono ((pairwise_cons.1 h.sorted).1 i hi) (h.below i (mem_cons_of_mem _ hi))
  le := h.le (h.below id mem_cons_self)

/-- The message in hand is dispatched. -/
theorem dispatch (h : TicketInv ids counter ticketOf tickets dispatched)
    (hheld : InHand ids ticketOf tickets dispatched held) :
    TicketInv ids counter ticketOf tickets (dispatched ++ [held]) where
  __ := h
  ordered := by
    rw [pairwise_append]
    refine ⟨h.ordered, pairwise_singleton .., fun d hd e he => ?_⟩
    rw [mem_singleton.1 he]
    exact hheld.after d hd
  before d hd := by
    rcases mem_concat.1 hd with hd | hd
    · exact h.before d hd
    · exact hd ▸ hheld.before
  dispatched_le d hd := by
    rcases mem_concat.1 hd with hd | hd
    · exact h.dispatched_le d hd
    · exact hd ▸ hheld.le

end TicketInv

namespace InHand

variable (h : InHand ids ticketOf tickets dispatched held)
include h

theorem of_sublist (hids : ids'.Sublist ids) : InHand ids' ticketOf tickets dispatched held :=
  ⟨h.after, fun id hid => h.before id (hids.subset hid), h.le⟩

theorem submit : InHand ids ticketOf (tickets + 1) dispatched held :=
  { h with le := h.le.trans (Nat.le_succ _) }

/-- A new entry comes after the message in hand. -/
theorem enter (hlt : held < tickets) (hbelow : ∀ id ∈ ids, id < counter) :
    InHand (ids ++ [counter]) (update ticketOf counter tickets) tickets dispatched held where
  __ := h
  before i hi := by
    rcases mem_concat.1 hi with hi | rfl
    · rw [update_of_ne (Nat.ne_of_lt (hbelow i hi))]
      exact h.before i hi
    · rw [update_self]
      exact hlt

omit h

end InHand

/-- A submission that is sent at once, with nothing queued. -/
theorem Newest.inHand (h : Newest counter ticketOf tickets dispatched) :
    InHand [] ticketOf tickets dispatched tickets :=
  ⟨h.dispatched, nofun, le_rfl⟩

end

/-! ## One drive at a time -/

/-- **The claim**: it is taken while a party holds it, and one party holds it
at a time; what is sent at once found nothing queued. -/
structure ClaimInv (t : CodexThread) (lane : LanePhase) (events : EventPhase) : Prop where
  claim : t.driving = (lane.holds || events.holds)
  alone : lane.holds = true → events.holds = false
  sends : lane.sends = true → t.queue.entries = []

/-- A step of a command that drives is a step of its drive. -/
theorem LanePhase.step_of_drive (h : lane.drive = some p) :
    (lane.step t answer).1 = (p.step t answer).1 ∧
      (lane.step t answer).2.holds = (p.step t answer).2.holds ∧
      (lane.step t answer).2.sends = false := by
  cases lane
  case submitDriving phase =>
    obtain rfl := Option.some.inj h
    cases phase
    case returned =>
      simp only [step]
      split <;> exact ⟨rfl, rfl, rfl⟩
    all_goals exact ⟨rfl, rfl, rfl⟩
  case runDriving phase =>
    obtain rfl := Option.some.inj h
    rcases phase with _ | _ | _ | _ | phase | effect | effect | effect | effect
    all_goals exact ⟨rfl, rfl, rfl⟩
  all_goals cases h

/-- A step of a command that does not drive neither takes nor returns the
claim. -/
theorem LanePhase.step_of_no_drive (h : lane.drive = none) :
    (lane.step t answer).1.driving = t.driving ∧ (lane.step t answer).2.holds = false ∧
      ((lane.step t answer).2.sends = true →
        (lane.sends = true ∨ t.queue.entries = []) ∧
          (lane.step t answer).1.queue = t.queue) := by
  rcases lane with reply | kind | kind | kind | phase | kind | ⟨id, phase⟩ | id | id | id | id |
    ⟨id, phase⟩ | ⟨id, turnId⟩ | id | id | id | id | turnId | turnId | turnId | turnId
  case submitDriving | runDriving => cases h
  case sending =>
    obtain ⟨runtime, hstep, -⟩ := @LanePhase.step_sending t answer phase
    refine ⟨by rw [hstep], ?_, fun _ => ⟨.inl rfl, by rw [hstep]⟩⟩
    rcases phase with kind | kind | turnId | _ | (_ | result) <;> rfl
  case submittingEntries =>
    by_cases hnil : t.queue.entries = []
    · exact ⟨rfl, by simp only [step, if_pos hnil]; rfl, fun _ => ⟨.inr hnil, rfl⟩⟩
    · refine ⟨rfl, by simp only [step, if_neg hnil]; rfl, fun hsends => ?_⟩
      simp only [step, if_neg hnil] at hsends
      cases hsends
  case checkingStopping =>
    simp only [step]
    split
    · exact ⟨rfl, rfl, (by rintro ⟨⟩)⟩
    · exact ⟨hand_driving, rfl, (by rintro ⟨⟩)⟩
  case waiting | appending | removing | steered | steerFailed | interrupting | interruptRecording =>
    exact ⟨rfl, rfl, (by rintro ⟨⟩)⟩
  case submitting | submittingBusy | checkingOutcome =>
    simp only [step]
    split <;> exact ⟨trivial, rfl, (by rintro ⟨⟩)⟩
  all_goals
    simp only [step]
    split <;> exact ⟨rfl, rfl, (by rintro ⟨⟩)⟩

/-- A drive appends nothing. -/
theorem DrivePhase.step_ids (p : DrivePhase) : (p.step t answer).1.queue.ids.Sublist t.queue.ids ∧
      (p.step t answer).1.entryCounter = t.entryCounter := by
  rcases @DrivePhase.step_fst t answer p with
    ⟨runtime, driving, hstep⟩ | hstep | ⟨-, entry, queue, hfront, hstep⟩
  · rw [hstep]
    exact ⟨List.Sublist.refl _, rfl⟩
  · rw [hstep]
    exact ⟨by rw [clear_ids]; exact nil_sublist _, rfl⟩
  · rw [hstep, hand_queue, hand_entryCounter, ids, ids, (popFront_eq_some hfront).1]
    exact ⟨sublist_cons_self _ _, rfl⟩

/-- Nor does the notification thread. -/
theorem EventPhase.step_ids (events : EventPhase) :
    (events.step t answer).1.queue.ids.Sublist t.queue.ids ∧
      (events.step t answer).1.entryCounter = t.entryCounter := by
  rcases events with _ | note | phase
  · exact ⟨List.Sublist.refl _, rfl⟩
  · rcases @EventPhase.step_queueing t answer note with hstep | hstep
    · rw [hstep]
      exact ⟨List.Sublist.refl _, rfl⟩
    · rw [hstep]
      exact ⟨by rw [clear_ids]; exact nil_sublist _, rfl⟩
  · rw [EventPhase.step_driving]
    exact DrivePhase.step_ids phase

/-- What a step of the notification thread does about the claim is done by
its drive. -/
theorem EventPhase.step_holds (events : EventPhase) :
    (events.holds = false ∧ (events.step t answer).1.driving = t.driving ∧
        (events.step t answer).2.holds = false) ∨
      ∃ p, events = .driving p ∧ (events.step t answer).1 = (p.step t answer).1 ∧
        (events.step t answer).2.holds = (p.step t answer).2.holds := by
  rcases events with _ | note | phase
  · exact .inl ⟨rfl, rfl, rfl⟩
  · refine .inl ⟨rfl, ?_, ?_⟩
    · rcases @EventPhase.step_queueing t answer note with hstep | hstep <;> rw [hstep]
    · rcases note with turnId | turnId | status | _ | (text | type)
      case threadStatusChanged.object =>
        unfold EventPhase.step
        split <;> simp_all [EventPhase.holds, EventPhase.drive]
      case turnCompleted =>
        simp only [step]
        split <;> rfl
      all_goals rfl
  · refine .inr ⟨phase, rfl, EventPhase.step_driving phase, ?_⟩
    rcases phase with _ | _ | _ | _ | phase | effect | effect | effect | effect
    all_goals rfl

namespace ClaimInv

/-- A step of the lane keeps the claims. -/
theorem stepLane (h : ClaimInv t lane events) :
    ClaimInv (lane.step t answer).1 (lane.step t answer).2 events := by
  obtain ⟨hclaim, halone, hsends⟩ := h
  cases hdrive : lane.drive with
  | none =>
    obtain ⟨hdrv, hholds, hsends'⟩ := @LanePhase.step_of_no_drive t lane answer hdrive
    have hfree : lane.holds = false := by rw [holds, hdrive]; rfl
    refine ⟨by rw [hdrv, hholds, hclaim, hfree], fun hh => ?_, fun hs => ?_⟩
    · rw [hholds] at hh
      cases hh
    · obtain ⟨hnil, hq⟩ := hsends' hs
      rw [hq]
      exact hnil.elim hsends id
  | some p =>
    obtain ⟨hfst, hholds, hsends'⟩ := @LanePhase.step_of_drive t lane answer p hdrive
    have hlane : lane.holds = p.holds := by rw [holds, hdrive]; rfl
    rw [hlane] at hclaim halone
    refine ⟨?_, fun hh => ?_, fun hs => by rw [hsends'] at hs; cases hs⟩
    · rw [hfst, hholds]
      rcases @DrivePhase.claim_step t answer p with ⟨hsame, hd⟩ | ⟨-, -, ht, hd⟩ | ⟨hp, hf, hd⟩
      · rw [hsame, hd, hclaim]
      · rw [ht, hd, Bool.true_or]
      · rw [hf, hd, halone hp, Bool.false_or]
    · rw [hholds] at hh
      rcases @DrivePhase.claim_step t answer p with ⟨hsame, -⟩ | ⟨-, hfree, -⟩ | ⟨-, hf, -⟩
      · exact halone (hsame ▸ hh)
      · rw [hfree] at hclaim
        exact (Bool.or_eq_false_iff.1 hclaim.symm).2
      · rw [hf] at hh
        cases hh

/-- A step of the events keeps the claims. -/
theorem stepEvents (h : ClaimInv t lane events) :
    ClaimInv (events.step t answer).1 lane (events.step t answer).2 := by
  obtain ⟨hclaim, halone, hsends⟩ := h
  have hsends' : lane.sends = true → (events.step t answer).1.queue.entries = [] := fun hs => by
    have hsub := (@EventPhase.step_ids t answer events).1
    rw [ids, ids, hsends hs, map_nil, sublist_nil] at hsub
    exact map_eq_nil_iff.1 hsub
  rcases @EventPhase.step_holds t answer events with ⟨hfree, hdrv, hholds⟩ | ⟨p, rfl, hfst, hholds⟩
  · exact ⟨by rw [hdrv, hholds, hclaim, hfree], fun _ => hholds, hsends'⟩
  · change t.driving = (lane.holds || p.holds) at hclaim
    change lane.holds = true → p.holds = false at halone
    refine ⟨?_, fun hh => ?_, hsends'⟩
    · rw [hfst, hholds]
      rcases @DrivePhase.claim_step t answer p with ⟨hsame, hd⟩ | ⟨-, -, ht, hd⟩ | ⟨hp, hf, hd⟩
      · rw [hsame, hd, hclaim]
      · rw [ht, hd, Bool.or_true]
      · have hlane : lane.holds = false := Bool.eq_false_iff.2 fun hh => by
          rw [halone hh] at hp
          cases hp
        rw [hf, hd, hlane, Bool.false_or]
    · rw [hholds]
      rcases @DrivePhase.claim_step t answer p with ⟨hsame, -⟩ | ⟨-, hfree, -⟩ | ⟨-, hf, -⟩
      · rw [hsame]
        exact halone hh
      · rw [hfree, hh] at hclaim
        cases hclaim
      · exact hf

end ClaimInv

/-! ## The message in hand -/

/-- A message has been popped or is to be sent, and `turn/start` has not gone
out for it. -/
def DispatchPhase.hands : DispatchPhase → Bool
  | .resuming .message => true
  | _ => false

/-- Where a call of `drive` hands it on. -/
def DrivePhase.hands : DrivePhase → Bool
  | .dispatching phase => phase.hands
  | _ => false

/-- Where a command hands it on. -/
def LanePhase.hands : LanePhase → Bool
  | .sending phase => phase.hands
  | .submitDriving _ phase | .runDriving _ phase => phase.hands
  | _ => false

/-- Where an event hands it on. -/
def EventPhase.hands : EventPhase → Bool
  | .driving phase => phase.hands
  | _ => false

/-- The command is a submission without an entry. -/
def LanePhase.enters : LanePhase → Bool
  | .submitting _ | .submittingBusy _ | .submittingEntries _ | .appending _ => true
  | _ => false

theorem DrivePhase.holds_of_hands (h : p.hands = true) : p.holds = true := by
  cases p with
  | dispatching phase => rfl
  | _ => cases h

theorem EventPhase.holds_of_hands (h : events.hands = true) : events.holds = true := by
  cases events with
  | driving phase => exact DrivePhase.holds_of_hands h
  | _ => cases h

variable (party : QueueParty) (phase : DispatchPhase)

/-- What an answer to a party puts on record of the messages dispatched: the
one it had in hand, or none. -/
theorem SubmitRecord.answered_spec : (r.answered party answer phase).ticketOf = r.ticketOf ∧
      (r.answered party answer phase).tickets = r.tickets ∧
      (r.answered party answer phase).held = r.held ∧
      ((r.answered party answer phase).dispatched = r.dispatched ∨ phase.hands = true ∧
          (r.answered party answer phase).dispatched = r.dispatched ++ [r.held party]) := by
  rcases phase with (_ | _) | (_ | _) | turnId | _ | result
  · rcases answer with turnId | _
    · exact ⟨rfl, rfl, rfl, .inr ⟨rfl, rfl⟩⟩
    · exact ⟨rfl, rfl, rfl, .inl rfl⟩
  · exact ⟨rfl, rfl, rfl, .inl rfl⟩
  · rcases answer with (_ | turnId) | _ <;> exact ⟨rfl, rfl, rfl, .inl rfl⟩
  · rcases answer with turnId | _ <;> exact ⟨rfl, rfl, rfl, .inl rfl⟩
  all_goals exact ⟨rfl, rfl, rfl, .inl rfl⟩

/-- A dispatch has a message in hand at its first step only. -/
theorem DispatchPhase.hands_step : (phase.step t answer).2.hands = false := by
  rcases phase with kind | kind | turnId | _ | result
  · cases answer <;> rfl
  · cases kind <;> rcases answer with (_ | turnId) | _ <;> rfl
  all_goals rfl

/-- **What a drive puts on record**: it answers for what it has in hand, or it
pops the front entry. -/
theorem SubmitRecord.drives_spec (p : DrivePhase) :
    (r.drives party t.queue answer p).ticketOf = r.ticketOf ∧
      (r.drives party t.queue answer p).tickets = r.tickets ∧
      (((r.drives party t.queue answer p).held = r.held ∧
          ((r.drives party t.queue answer p).dispatched = r.dispatched ∨ p.hands = true ∧
            (r.drives party t.queue answer p).dispatched = r.dispatched ++ [r.held party]) ∧
          (p.step t answer).2.hands = false) ∨
        p = .popping ∧ (r.drives party t.queue answer p).dispatched = r.dispatched ∧
          ∃ entry queue, t.queue.popFront = some (entry, queue) ∧
            (p.step t answer).1.queue = queue ∧
            (r.drives party t.queue answer p).held =
              update r.held party (r.ticketOf entry.id)) := by
  cases p
  case popping =>
    simp only [drives, popped, DrivePhase.step]
    cases hpop : t.queue.popFront with
    | none => exact ⟨rfl, rfl, .inl ⟨rfl, .inl rfl, rfl⟩⟩
    | some popped =>
      exact ⟨rfl, rfl, .inr ⟨trivial, rfl, popped.1, popped.2, rfl, hand_queue, rfl⟩⟩
  case dispatching phase =>
    obtain ⟨hticketOf, htix, hheld, hdisp⟩ := @answered_spec r answer party phase
    refine ⟨hticketOf, htix, .inl ⟨hheld, hdisp, ?_⟩⟩
    have hno := @DispatchPhase.hands_step t answer phase
    rcases phase with kind | kind | turnId | _ | (_ | result)
    case done.none | done.some => rfl
    all_goals exact hno
  case returned => exact ⟨rfl, rfl, .inl ⟨rfl, .inl rfl, rfl⟩⟩
  all_goals
    refine ⟨rfl, rfl, .inl ⟨rfl, .inl rfl, ?_⟩⟩
    simp only [DrivePhase.step]
    split <;> rfl

/-- **A step of a drive keeps the tickets in order**, and what it pops is in
hand. -/
theorem drive_tickets (h : TicketInv t.queue.ids t.entryCounter r.ticketOf r.tickets r.dispatched)
    (hhand : p.hands = true → InHand t.queue.ids r.ticketOf r.tickets r.dispatched (r.held party)) :
    TicketInv (p.step t answer).1.queue.ids t.entryCounter r.ticketOf r.tickets
        (r.drives party t.queue answer p).dispatched ∧
      ((p.step t answer).2.hands = true →
        InHand (p.step t answer).1.queue.ids r.ticketOf r.tickets r.dispatched
          ((r.drives party t.queue answer p).held party) ∧
        ∃ id < t.entryCounter, (r.drives party t.queue answer p).held party = r.ticketOf id) := by
  obtain ⟨-, -, ⟨hheld, hdisp, hno⟩ | ⟨rfl, hsame, entry, queue, hpop, hq, hheld⟩⟩ :=
    @SubmitRecord.drives_spec t r answer party p
  · refine ⟨?_, fun hh => by rw [hno] at hh; cases hh⟩
    rcases hdisp with hsame | ⟨hhands, hmore⟩
    · rw [hsame]
      exact h.of_sublist (DrivePhase.step_ids p).1
    · rw [hmore]
      exact (h.dispatch (hhand hhands)).of_sublist (DrivePhase.step_ids p).1
  · have hids : t.queue.ids = entry.id :: queue.ids := by
      rw [ids, (popFront_eq_some hpop).1, map_cons]
      rfl
    rw [hsame, hq, hheld, update_self]
    refine ⟨h.of_sublist (hids ▸ sublist_cons_self _ _), fun _ => ⟨?_, entry.id, ?_, rfl⟩⟩
    · rw [hids] at h
      exact h.pop
    · exact h.below _ (hids ▸ mem_cons_self)

/-! ## The invariant -/

/-- **The invariant of the order**: one message at most is in hand, and the
tickets of what was dispatched, is in hand, is queued and is submitted are in
order. -/
structure OrderInv (t : CodexThread) (lane : LanePhase) (events : EventPhase) (r : SubmitRecord) :
    Prop where
  claims : ClaimInv t lane events
  tickets : TicketInv t.queue.ids t.entryCounter r.ticketOf r.tickets r.dispatched
  lane_hand : lane.hands = true →
    InHand t.queue.ids r.ticketOf r.tickets r.dispatched (r.held .lane)
  events_hand : events.hands = true →
    InHand t.queue.ids r.ticketOf r.tickets r.dispatched (r.held .events)
  apart : lane.hands = true → events.hands = false
  newest : lane.enters = true → Newest t.entryCounter r.ticketOf r.tickets r.dispatched
  newest_hand : lane.enters = true → events.hands = true → r.held .events < r.tickets

/-- The step sends a message at once while the notification thread has one in
hand. -/
def CodexServer.overtakes (s : CodexServer) : CodexAction → Bool
  | .lane _ =>
    match s.lane with
    | .submittingEntries .message => s.thread.queue.entries.isEmpty && s.events.hands
    | _ => false
  | _ => false

namespace OrderInv

variable (h : OrderInv t lane events r)
include h

/-- The rest of the record does not matter. -/
theorem congr (hticketOf : r'.ticketOf = r.ticketOf)
    (htix : r'.tickets = r.tickets) (hheld : r'.held = r.held)
    (hdisp : r'.dispatched = r.dispatched) : OrderInv t lane events r' := by
  obtain ⟨hclm, hinv, hlane, hevs, hapart, hnewest, hhand⟩ := h
  refine ⟨hclm, ?_, ?_, ?_, hapart, ?_, ?_⟩ <;> simpa only [hticketOf, htix, hheld, hdisp]

theorem replied (queued : Bool) (phase : LanePhase) :
    OrderInv t lane events (r.replied queued phase) := by
  unfold SubmitRecord.replied
  split
  · exact h.congr rfl rfl rfl rfl
  · exact h

/-- The lane goes on to where it has no message in hand, and nothing enters the
queue. -/
theorem enter (hclm : ClaimInv t' lane' events)
    (hids : t'.queue.ids.Sublist t.queue.ids) (hctr : t'.entryCounter = t.entryCounter)
    (hhands : lane'.hands = false) (henters : lane'.enters = true → lane.enters = true) :
    OrderInv t' lane' events r where
  claims := hclm
  tickets := hctr ▸ h.tickets.of_sublist hids
  lane_hand hh := by
    rw [hhands] at hh
    cases hh
  events_hand hh := (h.events_hand hh).of_sublist hids
  apart hh := by
    rw [hhands] at hh
    cases hh
  newest he := hctr ▸ h.newest (henters he)
  newest_hand he := h.newest_hand (henters he)

omit h

end OrderInv

theorem LanePhase.step_sending_snd (phase : DispatchPhase) :
    ((sending phase).step t answer).2.hands = false ∧
      ((sending phase).step t answer).2.enters = false := by
  have hno := @DispatchPhase.hands_step t answer phase
  rcases phase with kind | kind | turnId | _ | (_ | result)
  case done.none | done.some => exact ⟨rfl, rfl⟩
  all_goals exact ⟨hno, rfl⟩

/-- What a driving command may do next is what its call of `drive` may. -/
theorem LanePhase.step_of_drive_snd (h : (∃ id, lane = .submitDriving id p) ∨
    ∃ id, lane = .runDriving id p) :
    ((lane.step t answer).2.hands = true → (p.step t answer).2.hands = true) ∧
      (lane.step t answer).2.enters = false := by
  obtain ⟨id, rfl⟩ | ⟨id, rfl⟩ := h
  · cases p
    case returned =>
      simp only [step]
      split <;> exact ⟨(by rintro ⟨⟩), rfl⟩
    all_goals exact ⟨fun hh => hh, rfl⟩
  · cases p
    case returned => exact ⟨(by rintro ⟨⟩), rfl⟩
    all_goals exact ⟨fun hh => hh, rfl⟩

/-- A notification that is queued hands nothing on. -/
theorem EventPhase.step_queueing_hands (note : CodexNotification) :
    ((EventPhase.queueing note).step t answer).2.hands = false := by
  rcases note with turnId | turnId | status | _ | (text | type)
  case threadStatusChanged.object =>
    unfold EventPhase.step
    split <;> simp_all [EventPhase.hands]
  case turnCompleted =>
    simp only [EventPhase.step]
    split <;> rfl
  all_goals rfl

theorem EventPhase.step_driving_hands (p : DrivePhase) :
    ((EventPhase.driving p).step t answer).1 = (p.step t answer).1 ∧
      ((EventPhase.driving p).step t answer).2.hands = (p.step t answer).2.hands := by
  rcases p with _ | _ | _ | _ | phase | effect | effect | effect | effect
  all_goals exact ⟨rfl, rfl⟩

theorem LanePhase.holds_or_sends_of_hands (h : lane.hands = true) :
    lane.holds = true ∨ lane.sends = true := by
  cases lane with
  | sending phase => exact .inr rfl
  | submitDriving | runDriving => exact .inl (DrivePhase.holds_of_hands h)
  | _ => cases h

namespace OrderInv

/-- **The lane drives.** -/
theorem driveLane (h : OrderInv t lane events r) (hlane : lane.drive = some p)
    (hhands : lane.hands = p.hands) (hdrive : lane'.hands = true → (p.step t answer).2.hands = true)
    (henters : lane'.enters = false) (ht : t' = (p.step t answer).1)
    (hclm : ClaimInv t' lane' events) :
    OrderInv t' lane' events (r.drives .lane t.queue answer p) := by
  subst ht
  obtain ⟨hticketOf, htix, hpart⟩ := @SubmitRecord.drives_spec t r answer .lane p
  obtain ⟨hinv, hhand⟩ := @drive_tickets t r answer p .lane h.tickets fun hp =>
    h.lane_hand (hhands ▸ hp)
  obtain ⟨hsub, hctr⟩ := @DrivePhase.step_ids t answer p
  have hne : (r.drives .lane t.queue answer p).held .events = r.held .events := by
    rcases hpart with ⟨hheld, -⟩ | ⟨-, -, entry, queue, -, -, hheld⟩
    · rw [hheld]
    · rw [hheld]
      exact update_of_ne (show QueueParty.events ≠ .lane by decide) ..
  constructor
  · exact hclm
  · rw [hticketOf, htix, hctr]
    exact hinv
  · intro hh
    have hpop := hdrive hh
    rw [hticketOf, htix]
    rcases hpart with ⟨-, -, hno⟩ | ⟨-, hsame, -⟩
    · rw [hno] at hpop
      cases hpop
    · rw [hsame]
      exact (hhand hpop).1
  · intro hh
    rw [hticketOf, htix, hne]
    have hsame : (r.drives .lane t.queue answer p).dispatched = r.dispatched := by
      rcases hpart with ⟨-, hsame | ⟨hp, -⟩, -⟩ | ⟨-, hsame, -⟩
      · exact hsame
      · rw [h.apart (hhands ▸ hp)] at hh
        cases hh
      · exact hsame
    rw [hsame]
    exact (h.events_hand hh).of_sublist hsub
  · intro hh
    -- what is popped is popped under the claim
    rcases hpart with ⟨-, -, hno⟩ | ⟨rfl, -⟩
    · rw [hno] at hdrive
      exact absurd (hdrive hh) nofun
    · have hholds : lane.holds = true := by rw [holds, hlane]; rfl
      have hfree := h.claims.alone hholds
      refine Bool.eq_false_iff.2 fun he => ?_
      rw [EventPhase.holds_of_hands he] at hfree
      cases hfree
  all_goals
    intro he
    rw [henters] at he
    cases he

/-- **A step of the lane keeps the order**, unless it sends a message at once
past one in hand. -/
theorem stepLane {s : CodexServer} (h : OrderInv s.thread s.lane s.events r)
    (hgood : s.overtakes (.lane answer) = false) :
    OrderInv (s.lane.step s.thread answer).1 (s.lane.step s.thread answer).2 s.events
      (r.laneActs s answer) := by
  obtain ⟨t, lane, events⟩ := s
  have hclm := @ClaimInv.stepLane t lane events answer h.claims
  rcases lane with reply | kind | kind | kind | phase | kind | ⟨id, phase⟩ | id | id | id | id |
    ⟨id, phase⟩ | ⟨id, turnId⟩ | id | id | id | id | turnId | turnId | turnId | turnId
  case waiting => exact h
  case submitting | submittingBusy =>
    refine h.enter hclm (List.Sublist.refl _) rfl ?_ fun _ => rfl
    simp only [step]
    split <;> rfl
  case submittingEntries =>
    by_cases hnil : t.queue.entries = []
    · have hids : t.queue.ids = [] := by rw [ids, hnil]; rfl
      have hnewest := h.newest rfl
      have hstep : (submittingEntries kind).step t answer = (t, .sending (.resuming kind)) := by
        simp only [step, if_pos hnil]
      rw [hstep] at hclm ⊢
      refine ⟨hclm, h.tickets, fun _ => ?_, fun hh => h.events_hand hh,
        fun hh => ?_, (by rintro ⟨⟩), (by rintro ⟨⟩)⟩
      · show InHand _ _ _ _ (update r.held .lane r.tickets .lane)
        rw [hids, update_self]
        exact hnewest.inHand
      · cases kind with
        | message =>
          simpa only [CodexServer.overtakes, hnil, isEmpty_nil, Bool.true_and] using hgood
        | compact => cases hh
    · have hstep : (submittingEntries kind).step t answer = (t, .appending kind) := by
        simp only [step, if_neg hnil]
      rw [hstep] at hclm ⊢
      exact ⟨hclm, h.tickets, (by rintro ⟨⟩), fun hh => h.events_hand hh, (by rintro ⟨⟩), fun _ =>
        h.newest rfl,
        fun _ => h.newest_hand rfl⟩
  case sending =>
    obtain ⟨hticketOf, htix, hheld, hdisp⟩ :=
      @SubmitRecord.answered_spec r answer .lane phase
    obtain ⟨runtime, hfst, -⟩ := @LanePhase.step_sending t answer phase
    obtain ⟨hhands, henters⟩ := @LanePhase.step_sending_snd t answer phase
    show OrderInv ((sending phase).step t answer).1
      ((sending phase).step t answer).2 events (r.answered .lane answer phase)
    rw [hfst] at hclm ⊢
    have hrest : (r.answered .lane answer phase).dispatched = r.dispatched ∨ events.hands = false :=
      hdisp.imp_right fun hp => h.apart hp.1
    refine ⟨hclm, ?_, fun hh => ?_, fun hh => ?_, fun hh => ?_, fun he => ?_, fun he => ?_⟩
    · rw [hticketOf, htix]
      rcases hdisp with hsame | ⟨hp, hmore⟩
      · rw [hsame]
        exact h.tickets
      · rw [hmore]
        exact h.tickets.dispatch (h.lane_hand hp)
    · rw [hhands] at hh
      cases hh
    · rcases hrest with hsame | hno
      · rw [hticketOf, htix, hheld, hsame]
        exact h.events_hand hh
      · rw [hno] at hh
        cases hh
    · rw [hhands] at hh
      cases hh
    all_goals
      rw [henters] at he
      cases he
  case appending =>
    have hnew : t.entryCounter ∉ t.queue.ids := fun hin => Nat.lt_irrefl _ (h.tickets.below _ hin)
    have hids := @append_ids t.queue ⟨kind, t.entryCounter⟩ hnew
    refine ⟨hclm, ?_, (by rintro ⟨⟩), fun hh => ?_, (by rintro ⟨⟩), (by rintro ⟨⟩), (by rintro ⟨⟩)⟩
    · show TicketInv (t.queue.append ⟨kind, t.entryCounter⟩).ids _ _ _ _
      rw [hids]
      exact h.tickets.enter (h.newest rfl)
    · show InHand (t.queue.append ⟨kind, t.entryCounter⟩).ids _ _ _ _
      rw [hids]
      exact (h.events_hand hh).enter (h.newest_hand rfl hh) h.tickets.below
  case submitDriving =>
    obtain ⟨hhands, henters⟩ := @LanePhase.step_of_drive_snd t _ answer phase (.inl ⟨id, rfl⟩)
    exact h.driveLane rfl rfl hhands henters (step_of_drive rfl).1 hclm
  case runDriving =>
    obtain ⟨hhands, henters⟩ := @LanePhase.step_of_drive_snd t _ answer phase (.inr ⟨id, rfl⟩)
    exact h.driveLane rfl rfl hhands henters (step_of_drive rfl).1 hclm
  case removing => exact h.enter hclm remove_ids_sublist rfl rfl (by rintro ⟨⟩)
  case steered => exact h.enter hclm remove_ids_sublist rfl rfl (by rintro ⟨⟩)
  case steerFailed =>
    refine h.enter hclm ?_ rfl rfl (by rintro ⟨⟩)
    show (t.queue.markOutcomeUnknown id).ids.Sublist t.queue.ids
    rw [markOutcomeUnknown_ids]
  case interrupting =>
    refine h.enter hclm ?_ rfl rfl (by rintro ⟨⟩)
    show t.queue.clear.ids.Sublist t.queue.ids
    rw [clear_ids]
    exact nil_sublist _
  case interruptRecording => exact h.enter hclm (List.Sublist.refl _) rfl rfl (by rintro ⟨⟩)
  case checkingOutcome =>
    have hstep : ((checkingOutcome id).step t answer).1 = t := rfl
    refine h.enter hclm (by rw [hstep]) rfl ?_ ?_ <;>
      simp only [step] <;> split <;> first | rfl | rintro ⟨⟩
  all_goals refine h.enter hclm ?_ ?_ ?_ ?_ <;> simp only [step] <;> split <;>
      first | rfl | rintro ⟨⟩

variable {s : CodexServer}

/-- A step of the lane that does not overtake keeps the order. -/
theorem laneStep (h : OrderInv s.thread s.lane s.events r)
    (hgood : s.overtakes (.lane answer) = false) :
    OrderInv (s.lane.step s.thread answer).1 (s.lane.step s.thread answer).2 s.events
      (r.laneStep s answer) := by
  have hnext := h.stepLane hgood
  unfold SubmitRecord.laneStep
  cases s.lane.submits with
  | true => exact hnext.replied _ _
  | false => exact hnext

/-- **A step of the notification thread keeps the order.** -/
theorem stepEvents {s : CodexServer} (h : OrderInv s.thread s.lane s.events r) :
    OrderInv (s.events.step s.thread answer).1 s.lane (s.events.step s.thread answer).2
      (r.eventsAct s answer) := by
  obtain ⟨t, lane, events⟩ := s
  have hclm := @ClaimInv.stepEvents t lane events answer h.claims
  rcases events with _ | note | p
  · exact h
  · have hsub := (@EventPhase.step_ids t answer (.queueing note)).1
    have hctr := (@EventPhase.step_ids t answer (.queueing note)).2
    have hhands := @EventPhase.step_queueing_hands t answer note
    refine ⟨hclm, hctr ▸ h.tickets.of_sublist hsub,
      fun hh => (h.lane_hand hh).of_sublist hsub, fun hh => ?_, fun _ => hhands,
      fun he => hctr ▸ h.newest he, fun _ hh => ?_⟩ <;>
    · rw [hhands] at hh
      cases hh
  · obtain ⟨hfst, hsnd⟩ := @EventPhase.step_driving_hands t answer p
    obtain ⟨hticketOf, htix, hpart⟩ := @SubmitRecord.drives_spec t r answer .events p
    obtain ⟨hinv, hhand⟩ := @drive_tickets t r answer p .events h.tickets h.events_hand
    obtain ⟨hsub, hctr⟩ := @DrivePhase.step_ids t answer p
    rw [hfst] at hclm ⊢
    have hne : (r.drives .events t.queue answer p).held .lane = r.held .lane := by
      rcases hpart with ⟨hheld, -⟩ | ⟨-, -, entry, queue, -, -, hheld⟩
      · rw [hheld]
      · rw [hheld]
        exact update_of_ne (show QueueParty.lane ≠ .events by decide) ..
    have hpops : (p.step t answer).2.hands = true → lane.hands = false := by
      intro hh
      rcases hpart with ⟨-, -, hno⟩ | ⟨rfl, -, entry, queue, hpop, -⟩
      · rw [hno] at hh
        cases hh
      · -- the queue is not empty, and the claim is the note thread's
        refine Bool.eq_false_iff.2 fun hlane => ?_
        rcases holds_or_sends_of_hands hlane with hholds | hsends
        · exact absurd (h.claims.alone hholds) nofun
        · have hents := (popFront_eq_some hpop).1
          rw [show t.queue.entries = [] from h.claims.sends hsends] at hents
          cases hents
    have hevs : ((EventPhase.driving p).step t answer).2.hands = true →
        (p.step t answer).2.hands = true := fun hh => hsnd ▸ hh
    have hact : r.eventsAct ⟨t, lane, .driving p⟩ answer = r.drives .events t.queue answer p := rfl
    rw [hact]
    constructor
    · exact hclm
    · rw [hticketOf, htix, hctr]
      exact hinv
    · intro hh
      have hsame : (r.drives .events t.queue answer p).dispatched = r.dispatched := by
        rcases hpart with ⟨-, hsame | ⟨hp, -⟩, -⟩ | ⟨-, hsame, -⟩
        · exact hsame
        · rw [show p.hands = false from h.apart hh] at hp
          cases hp
        · exact hsame
      rw [hticketOf, htix, hne, hsame]
      exact (h.lane_hand hh).of_sublist hsub
    · intro hh
      have hpop := hevs hh
      rw [hticketOf, htix]
      rcases hpart with ⟨-, -, hno⟩ | ⟨-, hsame, -⟩
      · rw [hno] at hpop
        cases hpop
      · rw [hsame]
        exact (hhand hpop).1
    · intro hh
      refine Bool.eq_false_iff.2 fun he => ?_
      rw [hpops (hevs he)] at hh
      cases hh
    · intro he
      obtain ⟨hents, hdisp⟩ := h.newest he
      rw [hticketOf, htix, hctr]
      refine ⟨hents, ?_⟩
      rcases hpart with ⟨-, hsame | ⟨hp, hmore⟩, -⟩ | ⟨-, hsame, -⟩
      · rw [hsame]
        exact hdisp
      · rw [hmore]
        intro d hd
        rcases mem_concat.1 hd with hd | rfl
        · exact hdisp d hd
        · exact h.newest_hand he hp
      · rw [hsame]
        exact hdisp
    · intro he hh
      obtain ⟨-, id, hid, hheld⟩ := hhand (hevs hh)
      rw [hheld, htix]
      exact (h.newest he).entries hid

/-- A command comes in; a submission has the next ticket. -/
theorem stepCommand {reply : Option CommandReply} {command : CodexCommand}
    (h : OrderInv t (.waiting reply) events r) :
    OrderInv t command.start events (r.step s (.command command)) := by
  have hclm : ClaimInv t command.start events := by
    have hholds : command.start.holds = false := by cases command <;> rfl
    refine ⟨by rw [hholds]; exact h.claims.claim, fun hh => ?_, fun hs => ?_⟩
    · rw [hholds] at hh
      cases hh
    · cases command <;> cases hs
  have hne : command.start.enters = false → OrderInv t command.start events r := fun hno =>
    h.enter hclm (List.Sublist.refl _) rfl (by cases command <;> rfl) fun he => by
      rw [hno] at he
      cases he
  cases command with
  | submit kind =>
    exact ⟨hclm, h.tickets.submit, nofun, fun hh => (h.events_hand hh).submit, nofun,
      fun _ => h.tickets.newest, fun _ hh => Nat.lt_succ_of_le (h.events_hand hh).le⟩
  | remove | runNow | interrupt => exact hne rfl

/-- The runtime records a notification. -/
theorem notify (h : OrderInv t lane .waiting r) (hq : t'.queue = t.queue)
    (hctr : t'.entryCounter = t.entryCounter) (hdrv : t'.driving = t.driving)
    (note : CodexNotification) :
    OrderInv t' lane (.queueing note) r where
  claims := ⟨hdrv ▸ h.claims.claim, fun _ => rfl, fun hs => hq ▸ h.claims.sends hs⟩
  tickets := by
    rw [hq, hctr]
    exact h.tickets
  lane_hand hh := hq ▸ h.lane_hand hh
  events_hand := nofun
  apart _ := rfl
  newest he := hctr ▸ h.newest he
  newest_hand _ := nofun

end OrderInv

end Remux
