import Remux.Codex.Queue
import Remux.Common.Lists

/-!
# A queued message is handed over once

A drive takes an entry out of the queue and hands it to the app server;
`run_now` hands over a copy and lets the entry stand. So the same message
is handed over twice where a drive pops the entry that `run_now` steers, or
where `run_now` steers an entry that has left the queue since it was copied
(`handed_twice`). Both are seen on the state before the step
(`CodexServer.mishandles`), and a run without such a step hands every
message over once (`handed_once`).
-/

namespace Remux

open CodexThread ThreadPendingQueue LanePhase List

variable {s s' : CodexServer} {t t' : CodexThread} {lane lane' : LanePhase} {events : EventPhase}
variable {a : CodexAction} {answer : AppServerAnswer}

/-- The entry that a `run_now` has handed over and that it will mark or
remove. -/
def LanePhase.steers : LanePhase → Option ℕ
  | .steerResuming id | .steering id | .steered id | .steerFailed id => some id
  | _ => none

/-- The entry that a `run_now` has seen to be without a mark. -/
def LanePhase.passed : LanePhase → Option ℕ
  | .checkingTurn id | .checkingStopping id _ => some id
  | _ => none

/-- It steers nothing and has passed nothing. -/
def LanePhase.Plain (lane : LanePhase) : Prop := lane.steers = none ∧ lane.passed = none

/-- **The step hands over an entry that is not its own**: a `run_now` steers
what is no longer queued, or a drive pops what a `run_now` is steering. -/
def CodexServer.mishandles (s : CodexServer) : CodexAction → Bool
  | .lane _ =>
    match s.lane with
    | .checkingStopping id _ => !s.thread.runtime.isStopping && !s.thread.queue.contains id
    | _ => false
  | .events _ =>
    match s.events with
    | .driving .popping =>
      s.thread.queue.popFront.any fun popped => decide (s.lane.steers = some popped.1.id)
    | _ => false
  | _ => false

/-- **The invariant**: an entry that was handed over and is still queued is
marked, or the lane is steering it; and no other entry is. -/
structure HandInv (t : CodexThread) (lane : LanePhase) : Prop where
  nodup : t.queue.ids.Nodup
  below : ∀ id ∈ t.queue.ids, id < t.entryCounter
  handed_below : ∀ id ∈ t.handed, id < t.entryCounter
  once : t.handed.Nodup
  left : ∀ id ∈ t.handed, id ∈ t.queue.ids → id ∈ t.queue.outcomeUnknown ∨ lane.steers = some id
  passed : ∀ id, lane.passed = some id → id ∉ t.queue.outcomeUnknown
  steered : ∀ id, lane.steers = some id → id ∈ t.handed
  marked : ∀ id ∈ t.queue.outcomeUnknown, id ∈ t.handed

namespace HandInv

variable (h : HandInv t lane)
include h

/-- The lane goes on to a phase in which it steers the same, and passes
nothing new. -/
theorem enter (hsteers : lane'.steers = lane.steers) (hpassed : ∀ id, lane'.passed = some id →
      lane.passed = some id ∨ id ∉ t.queue.outcomeUnknown) : HandInv t lane' where
  __ := h
  left id hid hin := hsteers ▸ h.left id hid hin
  passed id hid := (hpassed id hid).elim (h.passed id) fun h' => h'
  steered id hid := h.steered id (hsteers ▸ hid)

/-- The runtime and the claim do not matter. -/
theorem congr (runtime : ThreadRuntimeState) (driving : Bool) :
    HandInv { t with runtime, driving } lane :=
  { h with }

/-- Marks that are taken away with their entries are not missed. -/
theorem of_queue {queue : ThreadPendingQueue} (hids : queue.ids.Sublist t.queue.ids)
    (hmarks : ∀ id, id ∈ queue.outcomeUnknown → id ∈ t.queue.outcomeUnknown)
    (hleft : ∀ id ∈ queue.ids, id ∈ t.queue.outcomeUnknown → id ∈ queue.outcomeUnknown) :
    HandInv { t with queue } lane where
  __ := h
  nodup := h.nodup.sublist hids
  below id hid := h.below id (hids.subset hid)
  left id hid hin := (h.left id hid (hids.subset hin)).imp_left (hleft id hin)
  passed id hid hmark := h.passed id hid (hmarks id hmark)
  marked id hmark := h.marked id (hmarks id hmark)

/-- A queue that is cleared keeps the invariant. -/
theorem clear : HandInv { t with queue := t.queue.clear } lane := by
  refine h.of_queue ?_ ?_ ?_
  · rw [clear_ids]
    exact nil_sublist _
  · intro id hid
    unfold ThreadPendingQueue.clear at hid
    split at hid
    · exact hid
    · exact absurd hid (Finset.notMem_empty id)
  · intro id hid
    rw [clear_ids] at hid
    exact absurd hid not_mem_nil

/-- An entry that is removed keeps the invariant. -/
theorem remove (id : ℕ) : HandInv { t with queue := t.queue.remove id } lane := by
  refine h.of_queue remove_ids_sublist ?_ ?_
  · intro id' hid'
    rw [remove_outcomeUnknown] at hid'
    exact Finset.mem_of_mem_erase hid'
  · intro id' hid' hmark
    rw [remove_outcomeUnknown]
    exact Finset.mem_erase.2 ⟨(mem_remove_ids.1 hid').2, hmark⟩

/-- A removed entry need not be steered any more. -/
theorem remove_enter {id : ℕ} (hsteers : lane.steers = some id) (hpln : lane'.Plain) :
    HandInv { t with queue := t.queue.remove id } lane' where
  __ := h
  nodup := (h.remove id).nodup
  below := (h.remove id).below
  left id' hid' hin := by
    rcases (h.remove id).left id' hid' hin with hmark | hlane
    · exact .inl hmark
    · rw [hsteers] at hlane
      exact absurd (Option.some.inj hlane).symm (mem_remove_ids.1 hin).2
  passed id' hid' := by
    rw [hpln.2] at hid'
    cases hid'
  steered id' hid' := by
    rw [hpln.1] at hid'
    cases hid'
  marked := (h.remove id).marked

/-- A marked entry need not be steered any more. -/
theorem mark_enter {id : ℕ} (hsteers : lane.steers = some id) (hpln : lane'.Plain) :
    HandInv { t with queue := t.queue.markOutcomeUnknown id } lane' where
  __ := h
  nodup := by
    rw [markOutcomeUnknown_ids]
    exact h.nodup
  below id' hid' := h.below id' (by rwa [markOutcomeUnknown_ids] at hid')
  left id' hid' hin := by
    rw [markOutcomeUnknown_ids] at hin
    refine .inl (mem_markOutcomeUnknown.2 ?_)
    rcases h.left id' hid' hin with hmark | hlane
    · exact .inl hmark
    · rw [hsteers] at hlane
      cases hlane
      exact .inr ⟨rfl, hin⟩
  passed id' hid' := by
    rw [hpln.2] at hid'
    cases hid'
  steered id' hid' := by
    rw [hpln.1] at hid'
    cases hid'
  marked id' hmark := by
    rcases mem_markOutcomeUnknown.1 hmark with hold | ⟨rfl, -⟩
    · exact h.marked id' hold
    · exact h.steered id' hsteers

/-- A new entry has a new id. -/
theorem append (kind : OperationKind) : HandInv { t with
      queue := t.queue.append ⟨kind, t.entryCounter⟩
      entryCounter := t.entryCounter + 1 } lane := by
  have hnew : t.entryCounter ∉ t.queue.ids := fun hin => Nat.lt_irrefl _ (h.below _ hin)
  have hids := @append_ids t.queue ⟨kind, t.entryCounter⟩ hnew
  constructor
  · rw [hids, ← concat_eq_append]
    exact h.nodup.concat hnew
  · intro id hid
    have hid' : id ∈ t.queue.ids ∨ id = t.entryCounter := by
      have hin : id ∈ (t.queue.append ⟨kind, t.entryCounter⟩).ids := hid
      rw [hids] at hin
      simpa using hin
    show id < t.entryCounter + 1
    rcases hid' with hold | rfl
    · have := h.below id hold
      omega
    · omega
  · intro id hid
    have := h.handed_below id hid
    show id < t.entryCounter + 1
    omega
  · exact h.once
  · intro id hid hin
    have hold : id ∈ t.queue.ids := by
      have hin' : id ∈ (t.queue.append ⟨kind, t.entryCounter⟩).ids := hin
      have hlt := h.handed_below id hid
      rw [hids] at hin'
      rcases mem_concat.1 hin' with hin' | hin'
      · exact hin'
      · have := hin'
        have heq : id = t.entryCounter := this
        omega
    rw [append_outcomeUnknown]
    exact h.left id hid hold
  · intro id hid
    rw [append_outcomeUnknown]
    exact h.passed id hid
  · exact h.steered
  · intro id hmark
    have hold : id ∈ (t.queue.append ⟨kind, t.entryCounter⟩).outcomeUnknown := hmark
    rw [append_outcomeUnknown] at hold
    exact h.marked id hold

/-- One more id is handed over, that was not before: it is not queued any
more, or it is steered from now on. -/
theorem hand {id : ℕ} (hnew : id ∉ t.handed) (hbelow : id < t.entryCounter)
    (hleft : id ∈ t.queue.ids → lane'.steers = some id)
    (hsteers : lane'.steers = lane.steers ∨ lane.steers = none ∧ lane'.steers = some id)
    (hpassed : ∀ id', lane'.passed = some id' → lane.passed = some id') :
    HandInv { t with handed := t.handed ++ [id] } lane' where
  __ := h
  handed_below id' hid' := by
    rcases mem_concat.1 hid' with hold | heq
    · exact h.handed_below id' hold
    · exact heq ▸ hbelow
  once := by
    rw [← concat_eq_append]
    exact h.once.concat hnew
  left id' hid' hin := by
    rcases mem_concat.1 hid' with hold | rfl
    · rcases hsteers with hsame | ⟨hnone, -⟩
      · exact hsame ▸ h.left id' hold hin
      · refine .inl ((h.left id' hold hin).resolve_right fun hlane => ?_)
        rw [hnone] at hlane
        cases hlane
    · exact .inr (hleft hin)
  passed id' hid' := h.passed id' (hpassed id' hid')
  steered id' hid' := by
    rcases hsteers with hsame | ⟨-, hsome⟩
    · exact mem_append_left _ (h.steered id' (hsame ▸ hid'))
    · rw [hsome] at hid'
      cases hid'
      exact List.mem_concat_self
  marked id' hmark := mem_append_left _ (h.marked id' hmark)

/-- A drive keeps the invariant, if it does not pop what the lane
steers. -/
theorem drive {phase : DrivePhase}
    (hpop : ∀ entry queue, phase = .popping → t.queue.popFront = some (entry, queue) →
      lane.steers ≠ some entry.id) : HandInv (phase.step t answer).1 lane := by
  rcases @DrivePhase.step_fst t answer phase with
    ⟨runtime, driving, hstep⟩ | hstep | ⟨hph, entry, queue, hfront, hstep⟩
  · exact hstep ▸ h.congr runtime driving
  · exact hstep ▸ h.clear
  · obtain ⟨hents, hmark, hmarks⟩ := popFront_eq_some hfront
    have hids : t.queue.ids = entry.id :: queue.ids := by
      rw [ids, hents, map_cons]
      rfl
    have hin : entry.id ∈ t.queue.ids := hids ▸ mem_cons_self
    have hout : entry.id ∉ queue.ids := (nodup_cons.1 (hids ▸ h.nodup)).1
    have hnew : entry.id ∉ t.handed := fun hid =>
      (h.left _ hid hin).elim hmark (hpop entry queue hph hfront)
    have hq : HandInv { t with queue } lane :=
      h.of_queue (hids ▸ sublist_cons_self _ _) (fun _ h' => hmarks ▸ h') fun _ _ h' => hmarks ▸ h'
    rw [hstep]
    unfold CodexThread.hand
    split
    · exact hq.hand hnew (h.below _ hin) (fun h' => absurd h' hout) (.inl rfl) fun _ h' => h'
    · exact hq

omit h

end HandInv

theorem LanePhase.step_sending (phase : DispatchPhase) :
    ∃ runtime, ((sending phase).step t answer).1 = { t with runtime } ∧
      ((sending phase).step t answer).2.Plain := by
  obtain ⟨runtime, hstep⟩ := @DispatchPhase.step_fst t answer phase
  rcases phase with kind | kind | turnId | _ | (_ | result)
  all_goals exact ⟨runtime, hstep, rfl, rfl⟩

theorem LanePhase.step_submitDriving {id : ℕ} (phase : DrivePhase) :
    ((submitDriving id phase).step t answer).1 = (phase.step t answer).1 ∧
      ((submitDriving id phase).step t answer).2.Plain := by
  cases phase
  case returned =>
    simp only [step]
    split <;> exact ⟨rfl, rfl, rfl⟩
  all_goals exact ⟨rfl, rfl, rfl⟩

theorem LanePhase.step_runDriving {id : ℕ} (phase : DrivePhase) :
    ((runDriving id phase).step t answer).1 = (phase.step t answer).1 ∧
      ((runDriving id phase).step t answer).2.Plain := by
  rcases phase with _ | _ | _ | _ | phase | effect | effect | effect | effect
  all_goals exact ⟨rfl, rfl, rfl⟩

/-- A notification that is queued clears the queue or leaves it. -/
theorem EventPhase.step_queueing (note : CodexNotification) :
    ((EventPhase.queueing note).step t answer).1 = t ∨
      ((EventPhase.queueing note).step t answer).1 = { t with queue := t.queue.clear } := by
  rcases note with turnId | turnId | status | _ | status
  · exact .inl rfl
  · exact .inl rfl
  · simp only [EventPhase.step]
    split
    · exact .inl rfl
    · exact .inr rfl
  · exact .inr rfl
  · unfold EventPhase.step
    split <;> simp_all

theorem EventPhase.step_driving (phase : DrivePhase) :
    ((EventPhase.driving phase).step t answer).1 = (phase.step t answer).1 := by
  rcases phase with _ | _ | _ | _ | phase | effect | effect | effect | effect
  all_goals rfl

namespace HandInv

/-- The lane goes on from a phase in which it steers nothing to a plain
one. -/
theorem plain (h : HandInv t lane) (hsteers : lane.steers = none) (hpln : lane'.Plain) :
    HandInv t lane' :=
  h.enter (hpln.1.trans hsteers.symm) fun id hid => by
    rw [hpln.2] at hid
    cases hid

/-- **A step of the lane keeps the invariant**, if what it begins to steer
is still queued. -/
theorem stepLane (h : HandInv t lane)
    (hqd : ∀ id turnId, lane = .checkingStopping id turnId → t.runtime.isStopping = false →
      id ∈ t.queue.ids) :
    HandInv (lane.step t answer).1 (lane.step t answer).2 := by
  rcases lane with reply | kind | kind | kind | phase | kind | ⟨id, phase⟩ | id | id | id | id |
    ⟨id, phase⟩ | ⟨id, turnId⟩ | id | id | id | id | turnId | turnId | turnId | turnId
  case waiting => exact h
  case submitting =>
    simp only [step]
    split <;> exact h.plain rfl ⟨rfl, rfl⟩
  case submittingBusy =>
    simp only [step]
    split <;> exact h.plain rfl ⟨rfl, rfl⟩
  case submittingEntries =>
    simp only [step]
    split <;> exact h.plain rfl ⟨rfl, rfl⟩
  case sending =>
    obtain ⟨runtime, hstep, hpln⟩ := @LanePhase.step_sending t answer phase
    rw [hstep]
    exact (h.plain rfl hpln).congr runtime t.driving
  case appending => exact (h.plain rfl ⟨rfl, rfl⟩).append kind
  case submitDriving =>
    obtain ⟨hstep, hpln⟩ := @LanePhase.step_submitDriving t answer id phase
    rw [hstep]
    exact (h.plain rfl hpln).drive fun _ _ _ _ hsteers => by
      rw [hpln.1] at hsteers
      cases hsteers
  case removing => exact (h.plain rfl ⟨rfl, rfl⟩).remove id
  case copying =>
    simp only [step]
    split <;> exact h.plain rfl ⟨rfl, rfl⟩
  case checkingOutcome =>
    simp only [step]
    split
    · exact h.plain rfl ⟨rfl, rfl⟩
    · next hmark =>
      -- the entry has just been seen to be without a mark
      exact h.enter rfl fun id' hid' => .inr (Option.some.inj hid' ▸ hmark)
  case checkingTurn =>
    simp only [step]
    split
    · exact h.enter rfl fun id' hid' => .inl hid'
    · exact h.plain rfl ⟨rfl, rfl⟩
  case runDriving =>
    obtain ⟨hstep, hpln⟩ := @LanePhase.step_runDriving t answer id phase
    rw [hstep]
    exact (h.plain rfl hpln).drive fun _ _ _ _ hsteers => by
      rw [hpln.1] at hsteers
      cases hsteers
  case checkingStopping =>
    simp only [step]
    split
    · exact h.plain rfl ⟨rfl, rfl⟩
    · next hstop =>
      have hin := hqd id turnId rfl (Bool.eq_false_iff.2 hstop)
      have hmark := h.passed id rfl
      have hnew : id ∉ t.handed := fun hid => (h.left id hid hin).elim hmark nofun
      exact h.hand hnew (h.below id hin) (fun _ => rfl) (.inr ⟨rfl, rfl⟩) nofun
  case steerResuming =>
    simp only [step]
    split <;> exact h.enter rfl nofun
  case steering =>
    simp only [step]
    split <;> exact h.enter rfl nofun
  case steered => exact h.remove_enter rfl ⟨rfl, rfl⟩
  case steerFailed => exact h.mark_enter rfl ⟨rfl, rfl⟩
  case interrupting => exact (h.plain rfl ⟨rfl, rfl⟩).clear
  case interruptingTurn =>
    simp only [step]
    split <;> exact h.plain rfl ⟨rfl, rfl⟩
  case interruptRequested =>
    simp only [step]
    split <;> exact h.plain rfl ⟨rfl, rfl⟩
  case interruptRecording => exact (h.plain rfl ⟨rfl, rfl⟩).congr _ t.driving

/-- **A step of the notification thread keeps the invariant**, if it does
not pop what the lane steers. -/
theorem stepEvents (h : HandInv t lane)
    (hpop : ∀ entry queue, events = .driving .popping → t.queue.popFront = some (entry, queue) →
      lane.steers ≠ some entry.id) :
    HandInv (events.step t answer).1 lane := by
  rcases events with _ | note | phase
  · exact h
  · rcases @EventPhase.step_queueing t answer note with hstep | hstep
    · rw [hstep]
      exact h
    · rw [hstep]
      exact h.clear
  · rw [EventPhase.step_driving]
    exact h.drive fun entry queue hph => hpop entry queue (congrArg _ hph)

end HandInv

/-- **The invariant of the machine.** -/
theorem HandInv.step (h : HandInv s.thread s.lane) (hown : ¬ s.mishandles a)
    (hstep : codexMachine.step s a = some s') : HandInv s'.thread s'.lane := by
  cases a with
  | command command =>
    simp only [codexMachine] at hstep
    split at hstep
    · next reply hlane =>
      cases hstep
      rw [hlane] at h
      refine h.plain rfl ?_
      cases command <;> exact ⟨rfl, rfl⟩
    · cases hstep
  | lane answer =>
    cases hstep
    refine h.stepLane fun id turnId hlane hstop => ?_
    by_contra hid
    refine hown ?_
    have hcontains : s.thread.queue.contains id = false :=
      Bool.eq_false_iff.2 fun hin => hid (contains_iff.1 hin)
    simp only [CodexServer.mishandles, hlane, hstop, hcontains]
    rfl
  | notify note =>
    simp only [codexMachine] at hstep
    split at hstep
    · cases hstep
      exact h.congr _ s.thread.driving
    · cases hstep
  | events answer =>
    cases hstep
    refine h.stepEvents fun entry queue hevs hfront hsteers => hown ?_
    simp only [CodexServer.mishandles, hevs, hfront, Option.any_some, hsteers, decide_true]

/-- The machine whose steps hand over no entry that is not theirs. -/
def ownedMachine : Machine CodexServer CodexAction :=
  codexMachine.restrict fun s a => ¬ s.mishandles a

theorem HandInv.of_reachable (h : ownedMachine.Reachable s) : HandInv s.thread s.lane := by
  refine h.rule (P := fun s => HandInv s.thread s.lane) ?_ fun u a v _ hu hv => ?_
  · exact ⟨nodup_nil, nofun, nofun, nodup_nil, nofun, nofun, nofun,
      fun id hid => absurd hid (Finset.notMem_empty id)⟩
  · obtain ⟨hown, hstep⟩ := Machine.restrict_step_eq_some.1 hv
    exact hu.step hown hstep

/-! ## What was handed over stays so -/

theorem CodexThread.handed_hand {entry : PendingQueueEntry} :
    t.handed <+: (t.hand entry).handed := by
  unfold hand
  split
  · exact prefix_append _ _
  · exact prefix_rfl

/-- A call of `drive` only adds to what was handed on, -/
theorem DrivePhase.handed_step (phase : DrivePhase) :
    t.handed <+: (phase.step t answer).1.handed := by
  rcases @DrivePhase.step_fst t answer phase with
    ⟨runtime, driving, hstep⟩ | hstep | ⟨-, entry, queue, -, hstep⟩
  · exact hstep ▸ prefix_rfl
  · exact hstep ▸ prefix_rfl
  · rw [hstep]
    exact @CodexThread.handed_hand { t with queue } entry

/-- What was handed on stays handed on. -/
theorem LanePhase.handed_step (lane : LanePhase) : t.handed <+: (lane.step t answer).1.handed := by
  cases lane
  case sending phase =>
    obtain ⟨runtime, hstep, -⟩ := @LanePhase.step_sending t answer phase
    exact hstep ▸ prefix_rfl
  case submitDriving id phase =>
    rw [(@LanePhase.step_submitDriving t answer id phase).1]
    exact phase.handed_step
  case runDriving id phase =>
    rw [(@LanePhase.step_runDriving t answer id phase).1]
    exact phase.handed_step
  case checkingStopping =>
    simp only [step]
    split
    · exact prefix_rfl
    · exact handed_hand
  case copying | checkingTurn | steerResuming | steering | interruptingTurn | interruptRequested =>
    simp only [step]
    split <;> exact prefix_rfl
  all_goals exact prefix_rfl

/-- and so does an event. -/
theorem EventPhase.handed_step (events : EventPhase) :
    t.handed <+: (events.step t answer).1.handed := by
  rcases events with _ | note | phase
  · exact prefix_rfl
  · rcases @EventPhase.step_queueing t answer note with hstep | hstep
    all_goals rw [hstep]
  · rw [step_driving]
    exact phase.handed_step

/-- No step takes back what was handed over. -/
theorem handed_step (hstep : codexMachine.step s a = some s') :
    s.thread.handed <+: s'.thread.handed := by
  cases a with
  | command | notify =>
    simp only [codexMachine] at hstep
    split at hstep <;> cases hstep
    exact prefix_rfl
  | lane answer =>
    cases hstep
    exact s.lane.handed_step
  | events answer =>
    cases hstep
    exact s.events.handed_step

/-- **A queued message is handed over at most once**, in every run in which
no step hands over an entry that is not its own; and one whose outcome is
unknown is not handed over again. -/
theorem handed_once (h : ownedMachine.Reachable s) : s.thread.handed.Nodup ∧
      ∀ s', ownedMachine.Leads s s' → ∀ id ∈ s.thread.queue.outcomeUnknown,
        s'.thread.handed.count id = s.thread.handed.count id := by
  have hinv := HandInv.of_reachable h
  refine ⟨hinv.once, fun s' hleads id hmark => ?_⟩
  have hgrows : s.thread.handed <+: s'.thread.handed :=
    hleads.rule (P := fun u => s.thread.handed <+: u.thread.handed) List.prefix_rfl
      fun u a v _ hu hv => hu.trans (handed_step (Machine.restrict_step_eq_some.1 hv).2)
  have hin := hinv.marked id hmark
  have honce := (HandInv.of_reachable (h.leads hleads)).once
  rw [List.count_eq_one_of_mem hinv.once hin, List.count_eq_one_of_mem honce (hgrows.subset hin)]

/-- A message is queued behind a turn, and sent now; as it is about to be
steered the turn completes, and the drive that follows pops it. -/
def sendNowRun : List CodexAction :=
  [CodexAction.notify (.turnStarted (some "turn-1")), .events .error,
    .command (.submit .message)] ++
    List.replicate 5 (CodexAction.lane .error) ++ [CodexAction.command (.runNow 1)] ++
    List.replicate 4 (CodexAction.lane .error) ++
    [CodexAction.notify (.turnCompleted (some "completed"))] ++
    List.replicate 5 (CodexAction.events .error)

/-- **A queued message is handed over twice.** -/
theorem handed_twice :
    ∃ run s, codexMachine.exec run codexMachine.init = some s ∧ ¬ s.thread.handed.Nodup :=
  ⟨sendNowRun, _, Machine.exec_eq_run (by decide +kernel), by decide +kernel⟩

/-- A message is queued behind a turn and sent now, and the answer is an
error. -/
def markedRun : List CodexAction :=
  [CodexAction.notify (.turnStarted (some "turn-1")), .events .error,
    .command (.submit .message)] ++
    List.replicate 5 (CodexAction.lane .error) ++ [CodexAction.command (.runNow 1)] ++
    List.replicate 6 (CodexAction.lane .error)

/-- A run that marks an entry before it hands it on. -/
theorem handed_once_marked : let s := ownedMachine.run markedRun ownedMachine.init
    1 ∈ s.thread.queue.outcomeUnknown ∧ s.thread.handed.Nodup ∧
      ∀ s', ownedMachine.Leads s s' → s'.thread.handed.count 1 = s.thread.handed.count 1 := by
  have hrun := @Machine.exec_eq_run _ _ ownedMachine ownedMachine.init markedRun (by decide +kernel)
  have hmark : 1 ∈ (ownedMachine.run markedRun ownedMachine.init).thread.queue.outcomeUnknown := by
    decide +kernel
  obtain ⟨honce, hagain⟩ := handed_once ⟨markedRun, hrun⟩
  exact ⟨hmark, honce, fun s' hleads => hagain s' hleads 1 hmark⟩

end Remux
