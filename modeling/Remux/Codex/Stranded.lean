import Remux.Codex.Queue

/-!
# No queue is left behind

A drive that finds the claim taken goes away, and one that has started a
turn does not look again. So who is responsible for the front entry of an
idle thread has to be said: a party that `looks`, which will come to the
queue before its call is over. `LookInv` says that there is one whenever
the front entry could be driven.

Three steps leave nobody (`CodexServer.strands`): a `remove` that takes a
marked entry from before another one, the drive of a completion that finds
the claim held by a drive whose turn is the completed one, and a
`thread/status/changed` that makes a thread idle.
-/

namespace Remux

open CodexThread ThreadPendingQueue EventPhase Option List

variable {s s' : CodexServer} {t t' : CodexThread} {lane lane' : LanePhase} {events : EventPhase}
variable {a : CodexAction} {answer : AppServerAnswer} {p : DrivePhase}

/-! ## The parties -/

namespace DrivePhase

/-- The drive holds the claim. -/
def holds : DrivePhase → Bool
  | .claimed | .popping | .dispatching _ | .releasing _ => true
  | _ => false

/-- It has started a turn, and holds the claim still. -/
def started : DrivePhase → Bool
  | .dispatching (.done (some _)) => true
  | .releasing effect => effect.started
  | _ => false

/-- It will look at the queue, or at the runtime that another turn keeps
busy, before it returns. -/
def looks : DrivePhase → Bool
  | .dispatching (.done (some _)) | .returned _ => false
  | .releasing effect => !effect.started
  | _ => true

end DrivePhase

/-- The drive that is part of the command. -/
def LanePhase.drive : LanePhase → Option DrivePhase
  | .submitDriving _ phase | .runDriving _ phase => some phase
  | _ => none

/-- The drive that is part of the notification's handling. -/
def EventPhase.drive : EventPhase → Option DrivePhase
  | .driving phase => some phase
  | _ => none

/-- The queue has to do with the notification: it drives or clears it. -/
def CodexNotification.reachesQueue : CodexNotification → Bool
  | .turnCompleted _ | .error | .threadStatusChanged (.object "systemError") => true
  | _ => false

/-- The notification thread will look at the queue. -/
def EventPhase.looks : EventPhase → Bool
  | .queueing notification => notification.reachesQueue
  | .driving phase => phase.looks
  | .waiting => false

/-- The lane will look at the queue. -/
def LanePhase.looks (lane : LanePhase) : Bool := lane.drive.any DrivePhase.looks

/-- **The step leaves nobody to look**: a command removes a marked entry
from before one that is not, the notification thread gives up for a drive
that has started its turn, or a notification makes the thread idle and
passes the queue by. -/
def CodexServer.strands (s : CodexServer) : CodexAction → Bool
  | .lane _ =>
    match s.lane with
    | .removing id =>
      !s.thread.runtime.isBusy && !s.thread.queue.hasDrivableEntries &&
        (s.thread.queue.remove id).hasDrivableEntries
    | _ => false
  | .events _ =>
    match s.events with
    | .driving .claiming =>
      s.lane.drive.any DrivePhase.started && !s.thread.runtime.isBusy &&
        s.thread.queue.hasDrivableEntries
    | _ => false
  | .notify notification =>
    s.thread.runtime.isBusy && !(s.thread.runtime.recordNotification notification).isBusy &&
      !notification.reachesQueue && s.thread.queue.hasDrivableEntries
  | .command _ => false

/-! ## A step of a drive -/

/-- The claim is kept, taken, or given back. -/
theorem DrivePhase.claim_step :
    ((p.step t answer).2.holds = p.holds ∧ (p.step t answer).1.driving = t.driving) ∨
    (p = .claiming ∧ t.driving = false ∧ (p.step t answer).2.holds = true ∧
      (p.step t answer).1.driving = true) ∨
    (p.holds = true ∧ (p.step t answer).2.holds = false ∧ (p.step t answer).1.driving = false) := by
  cases p
  case claiming =>
    by_cases hdrv : t.driving = true
    · left
      simp only [step, hdrv, if_true]
      exact ⟨rfl, trivial⟩
    · right; left
      simp only [step, hdrv]
      exact ⟨trivial, trivial, rfl, rfl⟩
  case popping =>
    left
    simp only [step]
    split
    · exact ⟨rfl, rfl⟩
    · exact ⟨rfl, hand_driving⟩
  case dispatching dispatch =>
    left
    obtain ⟨runtime, hdispatch⟩ := @DispatchPhase.step_fst t answer dispatch
    have hdrv : (dispatch.step t answer).1.driving = t.driving := by rw [hdispatch]
    rcases dispatch with kind | kind | turnId | _ | (_ | result)
    all_goals exact ⟨rfl, hdrv⟩
  case releasing =>
    right; right
    simp only [step]
    split <;> exact ⟨rfl, rfl, trivial⟩
  case returned => exact .inl ⟨rfl, rfl⟩
  all_goals
    left
    simp only [step]
    split <;> exact ⟨rfl, trivial⟩

/-- **Who looks goes on looking**, until the thread is busy, the queue has
nothing to drive, or another drive holds the claim. -/
theorem DrivePhase.looks_step (h : p.looks = true) :
    (p.step t answer).2.looks = true ∨ (p.step t answer).1.runtime.isBusy = true ∨
      (p.step t answer).1.queue.hasDrivableEntries = false ∨
      p = .claiming ∧ t.driving = true ∧ (p.step t answer).1 = t := by
  rcases p with _ | _ | _ | _ | dispatch | effect | effect | effect | effect
  · by_cases hbusy : t.runtime.isBusy = true
    · exact .inr (.inl hbusy)
    · left
      simp only [step, hbusy]
      rfl
  · by_cases hdrv : t.driving = true
    · right; right; right
      simp only [step, hdrv, if_true]
      exact ⟨trivial, trivial, trivial⟩
    · left
      simp only [step, hdrv]
      rfl
  · left
    simp only [step]
    split <;> rfl
  · left
    simp only [step]
    split <;> rfl
  · rcases dispatch with kind | kind | turnId | _ | (_ | result)
    · left
      cases answer <;> rfl
    · left
      cases kind <;> rcases answer with (_ | turnId) | _ <;> rfl
    · exact .inr (.inl rfl)
    · exact .inl rfl
    · exact .inl rfl
    · cases h
  · have hstarted : effect.started = false := by simpa [looks] using h
    left
    simp only [step, hstarted]
    rfl
  · cases hdriv : t.queue.hasDrivableEntries with
    | true =>
      left
      simp only [step, hdriv]
      rfl
    | false => exact .inr (.inr (.inl hdriv))
  · by_cases hbusy : t.runtime.isBusy = true
    · exact .inr (.inl hbusy)
    · left
      simp only [step, hbusy]
      rfl
  · cases h

/-- A drive that does not look changes neither the queue nor the
runtime. -/
theorem DrivePhase.step_of_not_looks (h : p.looks = false) :
    (p.step t answer).1.queue = t.queue ∧ (p.step t answer).1.runtime = t.runtime := by
  cases p
  case dispatching dispatch =>
    rcases dispatch with kind | kind | turnId | _ | (_ | result)
    case done.some => exact ⟨rfl, rfl⟩
    all_goals cases h
  case releasing | returned => exact ⟨rfl, rfl⟩
  all_goals cases h

/-- Neither does one that does not hold the claim. -/
theorem DrivePhase.step_of_not_holds (h : p.holds = false) :
    (p.step t answer).1.queue = t.queue ∧ (p.step t answer).1.runtime = t.runtime := by
  cases p
  case claiming =>
    simp only [step]
    split <;> exact ⟨rfl, rfl⟩
  case checking | rechecking | recheckingBusy | returned => exact ⟨rfl, rfl⟩
  all_goals cases h

/-- A drive starts a turn by making the thread busy. -/
theorem DrivePhase.started_step (h : (p.step t answer).2.started = true) :
    (p.step t answer).1.runtime.isBusy = true ∨ p.started = true := by
  cases p
  case dispatching dispatch =>
    rcases dispatch with kind | kind | turnId | _ | (_ | result)
    · cases answer <;> cases h
    · cases kind <;> rcases answer with (_ | turnId) | _ <;> cases h
    · exact .inl rfl
    · cases h
    · cases h
    · exact .inr rfl
  case returned => cases h
  all_goals
    simp only [step] at h
    split at h <;> cases h

/-! ## The invariant -/

/-- The lane holds the claim. -/
def LanePhase.holds (lane : LanePhase) : Bool := lane.drive.any DrivePhase.holds

/-- The notification thread holds the claim. -/
def EventPhase.holds (events : EventPhase) : Bool := events.drive.any DrivePhase.holds

/-- The lane is about to append an entry. -/
def LanePhase.appends : LanePhase → Bool
  | .appending _ => true
  | _ => false

/-- The lane dispatches what is not queued. -/
def LanePhase.sends : LanePhase → Bool
  | .sending _ => true
  | _ => false

/-- The entry that a `run_now` has seen to be without a mark, and has not
marked yet. -/
def LanePhase.unmarked : LanePhase → Option ℕ
  | .checkingTurn id | .checkingStopping id _ | .steerResuming id | .steering id | .steered id =>
    some id
  | _ => none

/-- **The invariant**: somebody looks, if the front entry could be driven
and the thread is idle. -/
structure LookInv (t : CodexThread) (lane : LanePhase) (events : EventPhase) : Prop where
  looks : t.queue.hasDrivableEntries = true → t.runtime.isBusy = false →
    lane.looks = true ∨ events.looks = true
  claim : t.driving = (lane.holds || events.holds)
  alone : lane.holds = true → events.holds = false
  sends : lane.sends = true → t.queue.entries = []
  unmarked : ∀ id, lane.unmarked = some id → id ∉ t.queue.outcomeUnknown
  /-- While the notification thread has started a turn and holds the claim,
  the lane can make the thread idle only with nothing queued. -/
  started : events.drive.any DrivePhase.started = true →
    t.runtime.isBusy = true ∨ t.queue.entries = [] ∧ lane.appends = false

variable {queue : ThreadPendingQueue}

/-- Nothing can be driven in an empty queue. -/
theorem ThreadPendingQueue.hasDrivableEntries_of_nil
    (h : queue.entries = []) : queue.hasDrivableEntries = false := by
  rw [hasDrivableEntries, h]
  rfl

/-- Removing what is not marked makes no queue drivable. -/
theorem ThreadPendingQueue.hasDrivableEntries_of_remove {id : ℕ}
    (hmark : id ∉ queue.outcomeUnknown) (h : (queue.remove id).hasDrivableEntries = true) :
    queue.hasDrivableEntries = true := by
  obtain ⟨entry, entries, hents, hent⟩ := hasDrivableEntries_iff.1 h
  rw [remove_entries] at hents
  cases hq : queue.entries with
  | nil =>
    rw [hq] at hents
    cases hents
  | cons front rest =>
    refine hasDrivableEntries_iff.2 ⟨front, rest, hq, fun hfront => hent ?_⟩
    -- a marked front entry is another one, and stays where it is
    have hne : front.id ≠ id := fun heq => hmark (heq ▸ hfront)
    rw [hq, filter_cons_of_pos (by simpa using hne)] at hents
    obtain ⟨rfl, -⟩ := cons.inj hents
    rw [remove_outcomeUnknown]
    exact Finset.mem_erase.2 ⟨hne, hfront⟩

/-- Marking makes no queue drivable. -/
theorem ThreadPendingQueue.hasDrivableEntries_of_mark {id : ℕ}
    (h : (queue.markOutcomeUnknown id).hasDrivableEntries = true) :
    queue.hasDrivableEntries = true := by
  obtain ⟨entry, entries, hents, hent⟩ := hasDrivableEntries_iff.1 h
  rw [markOutcomeUnknown_entries] at hents
  exact hasDrivableEntries_iff.2
    ⟨entry, entries, hents, fun hmark => hent (mem_markOutcomeUnknown.2 (.inl hmark))⟩

theorem DrivePhase.looks_of_started (h : p.started = true) : p.looks = false := by
  cases p
  case dispatching dispatch =>
    rcases dispatch with kind | kind | turnId | _ | (_ | result)
    case done.some => rfl
    all_goals cases h
  case releasing effect =>
    have hstarted : effect.started = true := h
    rw [looks, hstarted]
    rfl
  all_goals cases h

theorem DrivePhase.holds_of_started (h : p.started = true) : p.holds = true := by
  cases p
  case dispatching | releasing => rfl
  all_goals cases h

/-- Who holds the claim looks, or has started a turn. -/
theorem DrivePhase.looks_or_started (h : p.holds = true) : p.looks = true ∨ p.started = true := by
  cases p
  case dispatching dispatch =>
    rcases dispatch with kind | kind | turnId | _ | (_ | result)
    case done.some => exact .inr rfl
    all_goals exact .inl rfl
  case releasing effect =>
    cases hstarted : effect.started with
    | true => exact .inr hstarted
    | false =>
      left
      rw [looks, hstarted]
      rfl
  case claimed | popping => exact .inl rfl
  all_goals cases h

variable {status : ThreadStatus}

theorem CodexNotification.not_reachesQueue (h : status ≠ .object "systemError") :
    reachesQueue (.threadStatusChanged status) = false := by
  unfold reachesQueue
  split <;> simp_all

theorem EventPhase.step_statusChanged (h : status ≠ .object "systemError") :
    (queueing (.threadStatusChanged status)).step t answer = (t, .waiting) := by
  unfold step
  split <;> simp_all

namespace LookInv

variable (h : LookInv t lane events)
include h

/-- The lane goes on from outside a drive, and nothing changes that others
see. -/
theorem enter (handed : List ℕ) (hdrive : lane.drive = none)
    (hh : lane'.holds = false) (hsends : lane'.sends = true → t.queue.entries = [])
    (hunmarked : ∀ id, lane'.unmarked = some id →
      lane.unmarked = some id ∨ id ∉ t.queue.outcomeUnknown)
    (happends : lane'.appends = true → t.runtime.isBusy = true ∨ t.queue.entries ≠ []) :
    LookInv { t with handed } lane' events where
  looks hdriv hbusy := by
    rcases h.looks hdriv hbusy with hlane | hevs
    · rw [LanePhase.looks, hdrive] at hlane
      cases hlane
    · exact .inr hevs
  claim := by
    have hclaim := h.claim
    rw [LanePhase.holds, hdrive] at hclaim
    rw [hh]
    exact hclaim
  alone hlane := by
    rw [hh] at hlane
    cases hlane
  sends := hsends
  unmarked id hid := (hunmarked id hid).elim (h.unmarked id) fun h' => h'
  started hevs := by
    rcases h.started hevs with hbusy | ⟨hnil, -⟩
    · exact .inl hbusy
    · cases happ : lane'.appends with
      | false => exact .inr ⟨hnil, rfl⟩
      | true => exact .inl ((happends happ).resolve_right fun hne => hne hnil)

/-- The lane goes on to a phase of which nothing is asked. -/
theorem rest (hdrive : lane.drive = none) (hdrive' : lane'.drive = none)
    (hsends : lane'.sends = false) (hunmarked : lane'.unmarked = none)
    (happends : lane'.appends = false) : LookInv t lane' events := by
  refine h.enter t.handed hdrive ?_ ?_ ?_ ?_
  · rw [LanePhase.holds, hdrive']
    rfl
  · rw [hsends]
    nofun
  · rw [hunmarked]
    nofun
  · rw [happends]
    nofun

/-- The queue changes, but not to one that could be driven. -/
theorem of_queue {queue : ThreadPendingQueue}
    (hdriv : queue.hasDrivableEntries = true → t.runtime.isBusy = false →
      t.queue.hasDrivableEntries = true)
    (hnil : t.queue.entries = [] → queue.entries = [])
    (hmarks : ∀ id, lane.unmarked = some id → id ∉ queue.outcomeUnknown) :
    LookInv { t with queue } lane events where
  __ := h
  looks hdrive hbusy := h.looks (hdriv hdrive hbusy) hbusy
  sends hsends := hnil (h.sends hsends)
  unmarked := hmarks
  started hstarted := (h.started hstarted).imp_right fun h' => ⟨hnil h'.1, h'.2⟩

/-- A queue that is cleared keeps the invariant. -/
theorem clear : LookInv { t with queue := t.queue.clear } lane events := by
  refine h.of_queue ?_ (fun _ => clear_entries) fun id hid hmark => ?_
  · rw [hasDrivableEntries_clear]
    nofun
  · unfold ThreadPendingQueue.clear at hmark
    split at hmark
    · exact h.unmarked id hid hmark
    · exact absurd hmark (Finset.notMem_empty id)

theorem remove {id : ℕ}
    (hdriv : (t.queue.remove id).hasDrivableEntries = true → t.runtime.isBusy = false →
      t.queue.hasDrivableEntries = true) :
    LookInv { t with queue := t.queue.remove id } lane events := by
  refine h.of_queue hdriv (fun hnil => ?_) fun id' hid' hmark => ?_
  · rw [remove_entries, hnil, filter_nil]
  · rw [remove_outcomeUnknown] at hmark
    exact h.unmarked id' hid' (Finset.mem_of_mem_erase hmark)

omit h

/-- Who has started a turn holds the claim. -/
theorem holds_of_started (h : events.drive.any DrivePhase.started = true) :
    events.holds = true := by
  obtain ⟨q, hq, hstarted⟩ := (any_eq_true _ _).1 h
  exact (any_eq_true _ _).2 ⟨q, hq, DrivePhase.holds_of_started hstarted⟩

include h

/-- If the notification thread holds the claim of an idle thread with an
entry to drive, it looks. -/
theorem holder_looks (hh : events.holds = true)
    (hdriv : t.queue.hasDrivableEntries = true) (hbusy : t.runtime.isBusy = false) :
    events.looks = true := by
  obtain ⟨q, hq, hh⟩ := (any_eq_true _ _).1 hh
  rcases DrivePhase.looks_or_started hh with hlooks | hstarted
  · rcases events with _ | note | phase
    · cases hq
    · cases hq
    · cases hq
      exact hlooks
  · rcases h.started ((any_eq_true _ _).2 ⟨q, hq, hstarted⟩) with hbusy' | ⟨hnil, -⟩
    · exact absurd (hbusy'.symm.trans hbusy) nofun
    · exact absurd ((hasDrivableEntries_of_nil hnil).symm.trans hdriv) nofun

/-- A dispatch of what is not queued goes on: nothing is queued. -/
theorem runtime (runtime : ThreadRuntimeState)
    (hnil : runtime.isBusy = true ∨ t.queue.entries = [] ∧ lane.appends = false) :
    LookInv { t with runtime } lane events where
  __ := h
  looks hdriv hbusy := by
    rcases hnil with hbusy' | ⟨hnil, -⟩
    · exact absurd (hbusy'.symm.trans hbusy) nofun
    · exact absurd ((hasDrivableEntries_of_nil hnil).symm.trans hdriv) nofun
  started _ := hnil

/-- **A drive of the lane takes a step.** -/
theorem driveLane (hdrive : lane.drive = some p) (hlooks : lane'.looks = (p.step t answer).2.looks)
    (hh : lane'.holds = (p.step t answer).2.holds) (hsends : lane'.sends = false)
    (hunmarked : lane'.unmarked = none) (happends : lane'.appends = false) :
    LookInv (p.step t answer).1 lane' events := by
  have hlane : lane.looks = p.looks := by rw [LanePhase.looks, hdrive, any_some]
  have hlaneHolds : lane.holds = p.holds := by rw [LanePhase.holds, hdrive, any_some]
  have hclaim := h.claim
  have halone := h.alone
  rw [hlaneHolds] at hclaim halone
  refine ⟨fun hdriv hbusy => ?_, ?_, fun hlane' => ?_, ?_, ?_, fun hevs => ?_⟩
  · rw [hlooks]
    cases hp : p.looks with
    | true =>
      rcases @DrivePhase.looks_step t answer p hp with
        hp' | hbusy' | hnil | ⟨rfl, hdrv, hsame⟩
      · exact .inl hp'
      · exact absurd (hbusy'.symm.trans hbusy) nofun
      · exact absurd (hnil.symm.trans hdriv) nofun
      · -- the claim is held by the note thread, which looks
        rw [hsame] at hdriv hbusy
        have hevs : events.holds = true := by
          rw [hdrv] at hclaim
          exact hclaim.symm
        refine .inr (h.holder_looks hevs hdriv hbusy)
    | false =>
      obtain ⟨hq, hruntime⟩ := @DrivePhase.step_of_not_looks t answer p hp
      rw [hq] at hdriv
      rw [hruntime] at hbusy
      rcases h.looks hdriv hbusy with hlane' | hevs
      · rw [hlane, hp] at hlane'
        cases hlane'
      · exact .inr hevs
  · rw [hh]
    rcases @DrivePhase.claim_step t answer p with
      ⟨hp', hdrv⟩ | ⟨rfl, hdrv, hp', hdrv'⟩ | ⟨hp, hp', hdrv'⟩
    · rw [hp', hdrv, hclaim]
    · rw [hp', hdrv', Bool.true_or]
    · rw [hp', hdrv', halone hp, Bool.false_or]
  · rw [hh] at hlane'
    rcases @DrivePhase.claim_step t answer p with
      ⟨hp', -⟩ | ⟨rfl, hdrv, -, -⟩ | ⟨-, hp', -⟩
    · exact halone (hp'.symm.trans hlane')
    · rw [hdrv] at hclaim
      exact hclaim.symm
    · rw [hp'] at hlane'
      cases hlane'
  · rw [hsends]
    nofun
  · rw [hunmarked]
    nofun
  · -- the note thread holds the claim, so this drive does not
    have hp : p.holds = false := by
      cases hp : p.holds with
      | false => rfl
      | true => exact absurd ((halone hp).symm.trans (holds_of_started hevs)) nofun
    obtain ⟨hq, hruntime⟩ := @DrivePhase.step_of_not_holds t answer p hp
    rw [hq, hruntime]
    exact (h.started hevs).imp_right fun h' => ⟨h'.1, happends⟩

omit h

/-- **A drive of the notification thread takes a step**, if it does not
give up for one that has started its turn. -/
theorem driveEvents (h : LookInv t lane (.driving p)) {p' : DrivePhase}
    (hp' : (p.step t answer).2 = p')
    (hown : p = .claiming → lane.drive.any DrivePhase.started = true → t.runtime.isBusy = false →
      t.queue.hasDrivableEntries = false) :
    LookInv (p.step t answer).1 lane (.driving p') := by
  subst hp'
  have hclaim : t.driving = (lane.holds || p.holds) := h.claim
  have halone : lane.holds = true → p.holds = false := h.alone
  refine ⟨fun hdriv hbusy => ?_, ?_, fun hlane => ?_, fun hsends => ?_, fun id hid => ?_,
    fun hstarted => ?_⟩
  · cases hp : p.looks with
    | true =>
      rcases @DrivePhase.looks_step t answer p hp with
        hp' | hbusy' | hnil | ⟨rfl, hdrv, hsame⟩
      · exact .inr hp'
      · exact absurd (hbusy'.symm.trans hbusy) nofun
      · exact absurd (hnil.symm.trans hdriv) nofun
      · -- the claim is held by the lane, which looks
        rw [hsame] at hdriv hbusy
        rw [hdrv] at hclaim
        have hlane : lane.holds = true := by
          have hclaiming : DrivePhase.claiming.holds = false := rfl
          rw [hclaiming, Bool.or_false] at hclaim
          exact hclaim.symm
        obtain ⟨q, hq, hh⟩ := (any_eq_true _ _).1 hlane
        rcases DrivePhase.looks_or_started hh with hlooks | hstarted
        · exact .inl ((any_eq_true _ _).2 ⟨q, hq, hlooks⟩)
        · have hnil := hown rfl ((any_eq_true _ _).2 ⟨q, hq, hstarted⟩) hbusy
          exact absurd (hnil.symm.trans hdriv) nofun
    | false =>
      obtain ⟨hqueue, hruntime⟩ := @DrivePhase.step_of_not_looks t answer p hp
      rw [hqueue] at hdriv
      rw [hruntime] at hbusy
      rcases h.looks hdriv hbusy with hlane | hevs
      · exact .inl hlane
      · exact absurd (hp.symm.trans hevs) nofun
  · show (p.step t answer).1.driving = (lane.holds || (p.step t answer).2.holds)
    rcases @DrivePhase.claim_step t answer p with
      ⟨hp', hdrv⟩ | ⟨rfl, hdrv, hp', hdrv'⟩ | ⟨hp, hp', hdrv'⟩
    · rw [hp', hdrv, hclaim]
    · rw [hp', hdrv', Bool.or_true]
    · cases hlane : lane.holds with
      | false => rw [hp', hdrv', Bool.false_or]
      | true => exact absurd ((halone hlane).symm.trans hp) nofun
  · rcases @DrivePhase.claim_step t answer p with
      ⟨hp', -⟩ | ⟨rfl, hdrv, -, -⟩ | ⟨-, hp', -⟩
    · exact hp'.trans (halone hlane)
    · rw [hdrv, hlane] at hclaim
      cases hclaim
    · exact hp'
  · have hnil := h.sends hsends
    rcases @DrivePhase.step_fst t answer p with
      ⟨runtime, driving, hstep⟩ | hstep | ⟨-, entry, queue, hfront, -⟩
    · rw [hstep]
      exact hnil
    · rw [hstep]
      exact clear_entries
    · rw [(popFront_eq_some hfront).1] at hnil
      cases hnil
  · have hmark := h.unmarked id hid
    rcases @DrivePhase.step_fst t answer p with
      ⟨runtime, driving, hstep⟩ | hstep | ⟨-, entry, queue, hfront, hstep⟩
    · rw [hstep]
      exact hmark
    · rw [hstep]
      exact h.clear.unmarked id hid
    · rw [hstep, hand_queue]
      rw [(popFront_eq_some hfront).2.2]
      exact hmark
  · rcases DrivePhase.started_step hstarted with hbusy | hp
    · exact .inl hbusy
    · obtain ⟨hqueue, hruntime⟩ :=
        @DrivePhase.step_of_not_looks t answer p (DrivePhase.looks_of_started hp)
      rw [hqueue, hruntime]
      exact h.started hp

/-- An entry is appended, and the lane drives. -/
theorem append {kind : OperationKind} (h : LookInv t (.appending kind) events) : LookInv { t with
      queue := t.queue.append ⟨kind, t.entryCounter⟩
      entryCounter := t.entryCounter + 1 } (.submitDriving t.entryCounter .checking) events where
  looks _ _ := .inl rfl
  claim := h.claim
  alone := nofun
  sends := nofun
  unmarked := nofun
  started hevs := .inl ((h.started hevs).resolve_right fun h' => nomatch h'.2)

include h

/-- A dispatch of what is not queued takes a step. -/
theorem dispatch {phase : DispatchPhase} (hlane : lane = .sending phase) :
    LookInv (phase.step t answer).1 lane events := by
  subst hlane
  obtain ⟨runtime, hstep⟩ := @DispatchPhase.step_fst t answer phase
  rw [hstep]
  exact h.runtime runtime (.inr ⟨h.sends rfl, rfl⟩)

/-- **A step of the lane keeps the invariant**, if it does not take a mark
from before an entry that nobody looks for. -/
theorem stepLane (hown : ∀ id, lane = .removing id → (t.queue.remove id).hasDrivableEntries = true →
      t.runtime.isBusy = false → t.queue.hasDrivableEntries = true) :
    LookInv (lane.step t answer).1 (lane.step t answer).2 events := by
  rcases lane with reply | kind | kind | kind | phase | kind | ⟨id, phase⟩ | id | id | id | id |
    ⟨id, phase⟩ | ⟨id, turnId⟩ | id | id | id | id | turnId | turnId | turnId | turnId
  case waiting => exact h
  case submitting =>
    simp only [LanePhase.step]
    split <;> exact h.rest rfl rfl rfl rfl rfl
  case submittingBusy =>
    simp only [LanePhase.step]
    split
    · next hbusy => exact h.enter t.handed rfl rfl nofun nofun fun _ => .inl hbusy
    · exact h.rest rfl rfl rfl rfl rfl
  case submittingEntries =>
    simp only [LanePhase.step]
    split
    · next hnil => exact h.enter t.handed rfl rfl (fun _ => hnil) nofun nofun
    · next hents => exact h.enter t.handed rfl rfl nofun nofun fun _ => .inr hents
  case sending =>
    have hdispatch := @dispatch _ _ events answer h _ rfl
    rcases phase with kind | kind | turnId | _ | (_ | result)
    case done.none | done.some => exact h.rest rfl rfl rfl rfl rfl
    all_goals exact hdispatch.enter _ rfl rfl (fun _ => hdispatch.sends rfl) nofun nofun
  case appending => exact h.append
  case submitDriving =>
    cases phase
    case returned =>
      simp only [LanePhase.step]
      split <;> exact @driveLane _ _ _ events answer _ h rfl rfl rfl rfl rfl rfl
    all_goals exact @driveLane _ _ _ events answer _ h rfl rfl rfl rfl rfl rfl
  case removing =>
    exact (h.remove (hown id rfl)).rest rfl rfl rfl rfl rfl
  case copying =>
    simp only [LanePhase.step]
    split <;> exact h.rest rfl rfl rfl rfl rfl
  case checkingOutcome =>
    simp only [LanePhase.step]
    split
    · exact h.rest rfl rfl rfl rfl rfl
    · next hmark =>
      exact h.enter t.handed rfl rfl nofun (fun id' hid' => .inr (some.inj hid' ▸ hmark)) nofun
  case checkingTurn =>
    simp only [LanePhase.step]
    split
    · exact h.enter t.handed rfl rfl nofun (fun id' hid' => .inl hid') nofun
    · exact h.enter t.handed rfl rfl nofun nofun nofun
  case runDriving =>
    cases phase
    case returned => exact @driveLane _ _ _ events answer _ h rfl rfl rfl rfl rfl rfl
    all_goals exact @driveLane _ _ _ events answer _ h rfl rfl rfl rfl rfl rfl
  case checkingStopping =>
    simp only [LanePhase.step]
    split
    · exact h.rest rfl rfl rfl rfl rfl
    · exact h.enter (t.handed ++ [id]) rfl rfl nofun (fun id' hid' => .inl hid') nofun
  case steerResuming =>
    simp only [LanePhase.step]
    split
    · exact h.enter t.handed rfl rfl nofun (fun id' hid' => .inl hid') nofun
    · exact h.rest rfl rfl rfl rfl rfl
  case steering =>
    simp only [LanePhase.step]
    split
    · exact h.enter t.handed rfl rfl nofun (fun id' hid' => .inl hid') nofun
    all_goals exact h.rest rfl rfl rfl rfl rfl
  case steered =>
    have hmark := h.unmarked id rfl
    exact (h.remove fun hdriv _ => hasDrivableEntries_of_remove hmark hdriv).rest
      rfl rfl rfl rfl rfl
  case steerFailed =>
    have hpln : LookInv t (.waiting (some .outcomeUnknown)) events := h.rest rfl rfl rfl rfl rfl
    exact hpln.of_queue (fun hdriv _ => hasDrivableEntries_of_mark hdriv)
      (fun hnil => markOutcomeUnknown_entries.trans hnil) nofun
  case interrupting => exact h.clear.rest rfl rfl rfl rfl rfl
  case interruptingTurn =>
    simp only [LanePhase.step]
    split <;> exact h.rest rfl rfl rfl rfl rfl
  case interruptRequested =>
    simp only [LanePhase.step]
    split <;> exact h.rest rfl rfl rfl rfl rfl
  case interruptRecording =>
    exact (h.runtime _ (.inl rfl)).rest rfl rfl rfl rfl rfl

/-- The notification thread goes on from outside a drive, while the lane
looks if anybody has to. -/
theorem enterEvents {events' : EventPhase}
    (hh : events.holds = false) (hdrive' : events'.drive = none ∨ events' = .driving .checking)
    (hlooks : t.queue.hasDrivableEntries = true → t.runtime.isBusy = false →
      events.looks = true → events'.looks = true) : LookInv t lane events' := by
  have hh' : events'.holds = false ∧ events'.drive.any DrivePhase.started = false := by
    rcases hdrive' with hnone | rfl
    · rw [holds, hnone]
      exact ⟨rfl, rfl⟩
    · exact ⟨rfl, rfl⟩
  refine ⟨fun hdriv hbusy => ?_, ?_, fun _ => hh'.1, h.sends, h.unmarked, ?_⟩
  · exact (h.looks hdriv hbusy).imp_right (hlooks hdriv hbusy)
  · rw [hh'.1, ← hh]
    exact h.claim
  · rw [hh'.2]
    nofun

/-- **A step of the notification thread keeps the invariant**, if its drive
does not give up for one that has started its turn. -/
theorem stepEvents (hown : events = .driving .claiming → lane.drive.any DrivePhase.started = true →
      t.runtime.isBusy = false → t.queue.hasDrivableEntries = false) :
    LookInv (events.step t answer).1 lane (events.step t answer).2 := by
  -- the queue is cleared, and nothing is left to look for
  have hclr (hh : events.holds = false) : LookInv { t with queue := t.queue.clear } lane .waiting :=
    h.clear.enterEvents hh (.inl rfl) fun hdriv =>
      absurd (hasDrivableEntries_clear.symm.trans hdriv) nofun
  rcases events with _ | note | p
  · exact h
  · rcases note with turnId | turnId | status | _ | status
    · exact h.enterEvents rfl (.inl rfl) nofun
    · exact h.enterEvents rfl (.inl rfl) nofun
    · simp only [step]
      split
      · exact h.enterEvents rfl (.inr rfl) fun _ _ _ => rfl
      · exact hclr rfl
    · exact hclr rfl
    · by_cases hstat : status = .object "systemError"
      · subst hstat
        exact hclr rfl
      · rw [step_statusChanged hstat]
        refine h.enterEvents rfl (.inl rfl) fun _ _ hlooks => ?_
        exact absurd ((CodexNotification.not_reachesQueue hstat).symm.trans hlooks) nofun
  · have hdrive : ∀ p', (p.step t answer).2 = p' → LookInv (p.step t answer).1 lane (.driving p') :=
      fun p' hp' => h.driveEvents hp' fun hclaiming => hown (congrArg _ hclaiming)
    cases p
    case returned => exact h.enterEvents rfl (.inl rfl) nofun
    all_goals exact hdrive _ rfl

omit h

end LookInv

/-- **The invariant of the machine.** -/
theorem LookInv.step (h : LookInv s.thread s.lane s.events) (hown : ¬ s.strands a)
    (hstep : codexMachine.step s a = some s') : LookInv s'.thread s'.lane s'.events := by
  rw [Bool.not_eq_true] at hown
  cases a with
  | command command =>
    simp only [codexMachine] at hstep
    split at hstep
    · next reply hlane =>
      cases hstep
      rw [hlane] at h
      cases command <;> exact h.rest rfl rfl rfl rfl rfl
    · cases hstep
  | lane answer =>
    cases hstep
    refine h.stepLane fun id hlane hdriv hbusy => ?_
    simp only [CodexServer.strands, hlane, hdriv, hbusy] at hown
    simpa using hown
  | notify note =>
    simp only [codexMachine] at hstep
    split at hstep
    · next hevs =>
      cases hstep
      rw [hevs] at h
      refine ⟨fun hdriv hbusy => ?_, h.claim, fun _ => rfl, h.sends, h.unmarked, nofun⟩
      show s.lane.looks = true ∨ note.reachesQueue = true
      cases hreaches : note.reachesQueue with
      | true => exact .inr rfl
      | false =>
        left
        cases hwas : s.thread.runtime.isBusy with
        | true =>
          have hbusy' : (s.thread.runtime.recordNotification note).isBusy = false := hbusy
          have hdriv' : s.thread.queue.hasDrivableEntries = true := hdriv
          rw [CodexServer.strands, hwas, hbusy', hreaches, hdriv'] at hown
          cases hown
        | false =>
          rcases h.looks hdriv hwas with hlane | hlooks
          · exact hlane
          · cases hlooks
    · cases hstep
  | events answer =>
    cases hstep
    refine h.stepEvents fun hevs hstarted hbusy => ?_
    simp only [CodexServer.strands, hevs, hstarted, hbusy] at hown
    simpa using hown

/-- The machine whose steps always leave somebody to look. -/
def watchedMachine : Machine CodexServer CodexAction :=
  codexMachine.restrict fun s a => ¬ s.strands a

theorem LookInv.of_reachable (h : watchedMachine.Reachable s) :
    LookInv s.thread s.lane s.events := by
  refine h.rule (P := fun s => LookInv s.thread s.lane s.events) ?_ fun u a v _ hu hv => ?_
  · exact ⟨nofun, rfl, nofun, nofun, nofun, nofun⟩
  · obtain ⟨hown, hstep⟩ := Machine.restrict_step_eq_some.1 hv
    exact hu.step hown hstep

/-- **No queue is left behind**, in every run in which each step leaves
somebody to look: when no call is under way and the thread is idle, its
queue is empty, or its front entry is marked. -/
theorem not_stranded (h : watchedMachine.Reachable s) (hlane : ∃ reply, s.lane = .waiting reply)
    (hevents : s.events = .waiting) (hidle : s.thread.runtime.isBusy = false) :
    s.thread.queue.entries = [] ∨ ∃ entry entries,
      s.thread.queue.entries = entry :: entries ∧ entry.id ∈ s.thread.queue.outcomeUnknown := by
  have hinv := LookInv.of_reachable h
  obtain ⟨reply, hlane⟩ := hlane
  rw [hlane, hevents] at hinv
  have hdrivable : s.thread.queue.hasDrivableEntries = false := by
    cases hdrivable : s.thread.queue.hasDrivableEntries with
    | false => rfl
    | true => rcases hinv.looks hdrivable hidle with hlooks | hlooks <;> cases hlooks
  cases hentries : s.thread.queue.entries with
  | nil => exact .inl rfl
  | cons entry entries =>
    refine .inr ⟨entry, entries, rfl, ?_⟩
    by_contra hmark
    exact absurd (hdrivable.symm.trans (hasDrivableEntries_iff.2 ⟨entry, entries, hentries, hmark⟩))
      nofun

/-- Two messages are queued behind a turn, the first is sent now and its
outcome is unknown; the turn completes. -/
def unknownRun : List CodexAction :=
  [CodexAction.notify (.turnStarted (some "turn-1")), .events .error,
    .command (.submit .message)] ++
    replicate 5 (CodexAction.lane .error) ++ [CodexAction.command (.submit .message)] ++
    replicate 5 (CodexAction.lane .error) ++ [CodexAction.command (.runNow 1)] ++
    replicate 6 (CodexAction.lane .error) ++
    [CodexAction.notify (.turnCompleted (some "completed"))] ++
    replicate 8 (CodexAction.events .error)

theorem not_stranded_unknown : let s := watchedMachine.run unknownRun watchedMachine.init
    s.thread.queue.entries = [] ∨ ∃ entry entries,
      s.thread.queue.entries = entry :: entries ∧ entry.id ∈ s.thread.queue.outcomeUnknown :=
  not_stranded ⟨unknownRun, Machine.exec_eq_run (by decide +kernel)⟩
    ⟨some .outcomeUnknown, by decide +kernel⟩ (by decide +kernel) (by decide +kernel)

/-- **A queue is left behind**: then the first message is removed. -/
theorem stranded : ∃ run s, codexMachine.exec run codexMachine.init = some s ∧
      (∃ reply, s.lane = .waiting reply) ∧ s.events = .waiting ∧
      s.thread.runtime.isBusy = false ∧
      ∃ entry entries, s.thread.queue.entries = entry :: entries ∧
        entry.id ∉ s.thread.queue.outcomeUnknown :=
  ⟨unknownRun ++ [.command (.remove 1), .lane .error], _,
    Machine.exec_eq_run (by decide +kernel), ⟨some .accepted, by decide +kernel⟩,
    by decide +kernel, by decide +kernel, ⟨.message, 2⟩, [], by decide +kernel, by decide +kernel⟩

end Remux
