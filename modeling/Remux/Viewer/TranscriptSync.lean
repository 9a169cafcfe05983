import Remux.Common.Lists
import Remux.Viewer.Model.TranscriptSync

/-!
# Every request for the transcript is told

A request is settled once or waits in a record or a load, and whatever
waits has a timer or the load under way to drive it. A record requires at
least what each of its requests does, as long as no request that requires
another generation is merged into it: the record then forgets one of the
two, and a request is told that it was applied in a generation it did not
ask for.
-/

namespace Remux

open PendingTranscriptSync
open List hiding getElem?_eq_some_iff map_map

namespace SyncState

open TranscriptLoad Option

variable {s t : SyncState} {now : ℕ} {pending : PendingTranscriptSync} {load : TranscriptLoad}

/-- The numbers of the requests that are settled or wait. -/
def ids (s : SyncState) : List ℕ := s.settlements.map (·.waiter.id) ++ s.waiting.map (·.id)

/-- **The books**: the numbers of all requests, one load at most, and a flag
that says whether there is one. -/
structure Ledger (s : SyncState) : Prop where
  settled : s.ids.Perm (range s.nextId)
  flag : s.transcriptSyncInFlight = false ↔ s.loads = []
  single : s.loads.length ≤ 1

/-- What waits is driven by the load under way or by a timer. -/
def Driven (s : SyncState) : Prop :=
  s.transcriptSyncInFlight = false → s.pendingTranscriptSyncs ≠ [] →
    s.transcriptSyncTimer.isSome = true

/-- A state with the same requests and loads has the same books. -/
theorem Ledger.of_perm (h : Ledger s) (hids : t.ids.Perm s.ids) (hnext : t.nextId = s.nextId)
    (hflag : t.transcriptSyncInFlight = s.transcriptSyncInFlight)
    (hloads : t.loads.length = s.loads.length) : Ledger t where
  settled := hnext ▸ hids.trans h.settled
  flag := by rw [hflag, ← length_eq_zero_iff, hloads, length_eq_zero_iff, h.flag]
  single := hloads ▸ h.single

/-- The ids settled are those of the waiters. -/
theorem ids_settle (waiters : List TranscriptSyncWaiter) (outcome : SyncOutcome) :
    (s.settle waiters outcome).ids.Perm (waiters.map (·.id) ++ s.ids) := by
  have hmap : (waiters.map fun waiter => (⟨waiter, outcome, s.store⟩ : SyncSettlement)).map
      (·.waiter.id) = waiters.map (·.id) := by
    rw [List.map_map]
    rfl
  show ((s.settlements ++ _).map _ ++ s.waiting.map _).Perm _
  rw [map_append, hmap, append_assoc]
  exact perm_append_comm_assoc _ _ _

variable {pendings merged : List PendingTranscriptSync} {dueAt i : ℕ}
variable {waiter : TranscriptSyncWaiter} {answered : TranscriptLoad}
variable {waiters : List TranscriptSyncWaiter} {settlement : SyncSettlement} {action : SyncAction}

/-- The records in any order have the same requests. -/
theorem ids_reorder (hperm : pendings.Perm s.pendingTranscriptSyncs) (timer : Option ℕ) :
    ({ s with pendingTranscriptSyncs := pendings, transcriptSyncTimer := timer }).ids.Perm s.ids :=
  (((hperm.flatMap_right _).append_right _).map _).append_left _

/-- **What scheduling does**: it orders the records, and leaves a timer, if
there is no load and a request waits. -/
theorem schedule_spec (s : SyncState) (now : ℕ) : ∃ pendings timer,
    s.scheduleTranscriptSyncDrain now =
        { s with pendingTranscriptSyncs := pendings, transcriptSyncTimer := timer } ∧
      pendings.Perm s.pendingTranscriptSyncs ∧
      (s.transcriptSyncInFlight = false → pendings ≠ [] → timer.isSome = true) := by
  unfold scheduleTranscriptSyncDrain
  split
  · next hflag =>
    refine ⟨_, _, rfl, Perm.refl _, fun hidle => ?_⟩
    rw [hflag] at hidle
    cases hidle
  · have hperm := perm_insertionSort (fun left right : PendingTranscriptSync =>
      left.dueAt ≤ right.dueAt) s.pendingTranscriptSyncs
    split
    · next hnil =>
      have hempty : s.pendingTranscriptSyncs = [] := by
        rw [sort] at hnil
        rw [hnil] at hperm
        exact hperm.symm.eq_nil
      exact ⟨_, _, rfl, Perm.refl _, fun _ hne => absurd hempty hne⟩
    · next pending rest hcons =>
      rw [sort] at hcons
      rw [hcons] at hperm
      exact ⟨_, _, rfl, hperm, fun _ _ => rfl⟩

theorem Ledger.schedule (h : Ledger s) (now : ℕ) : Ledger (s.scheduleTranscriptSyncDrain now) := by
  obtain ⟨pendings, timer, heq, hperm, -⟩ := schedule_spec s now
  rw [heq]
  exact h.of_perm (ids_reorder hperm timer) rfl rfl rfl

theorem driven_schedule (s : SyncState) (now : ℕ) : Driven (s.scheduleTranscriptSyncDrain now) := by
  obtain ⟨pendings, timer, heq, -, hdriven⟩ := schedule_spec s now
  rw [heq]
  exact hdriven

/-- A request is merged into one record. -/
theorem mergeInto_perm (h : PendingTranscriptSync.mergeInto dueAt waiter pendings = some merged) :
    (merged.flatMap PendingTranscriptSync.waiters).Perm
      (waiter :: pendings.flatMap PendingTranscriptSync.waiters) := by
  induction pendings generalizing merged with
  | nil => cases h
  | cons pending rest ih =>
    rw [PendingTranscriptSync.mergeInto] at h
    split at h
    · next inner hinner =>
      cases h
      rw [flatMap_cons, flatMap_cons]
      exact ((ih hinner).append_left _).trans perm_middle
    · split at h
      · cases h
        rw [flatMap_cons, flatMap_cons]
        show (pending.waiters ++ [waiter] ++ _).Perm _
        rw [append_assoc]
        exact perm_middle
      · cases h

/-- **A request comes**: it is settled at once or waits. -/
theorem Ledger.request (h : Ledger s) (conversationId : String) (options : LoadOptions)
    (delayMs now : ℕ) : Ledger (s.requestTranscriptSync conversationId options delayMs now) := by
  have hrange : (s.nextId :: s.ids).Perm (range (s.nextId + 1)) := by
    rw [range_succ]
    exact (h.settled.cons _).trans (perm_append_singleton _ _).symm
  unfold requestTranscriptSync
  split
  · exact ⟨(ids_settle _ _).trans hrange, h.flag, h.single⟩
  · have hwait : (((mergeInto (now + delayMs)
        ⟨s.nextId, conversationId, options⟩ s.pendingTranscriptSyncs).getD
          (s.pendingTranscriptSyncs ++ [ofRequest (now + delayMs)
            ⟨s.nextId, conversationId, options⟩])).flatMap waiters).Perm
        (⟨s.nextId, conversationId, options⟩ :: s.pendingTranscriptSyncs.flatMap waiters) := by
      rcases hmerge : mergeInto (now + delayMs)
        ⟨s.nextId, conversationId, options⟩ s.pendingTranscriptSyncs with _ | merged
      · rw [getD_none, flatMap_append]
        exact perm_append_singleton _ _
      · exact mergeInto_perm hmerge
    refine Ledger.schedule ⟨?_, ?_, ?_⟩ now
    · refine Perm.trans ?_ hrange
      exact (((hwait.append_right _).map _).append_left _).trans perm_middle
    · exact h.flag
    · exact h.single

/-- What waits in the records is told that there is nothing. -/
theorem Ledger.cancel (h : Ledger s) : Ledger s.cancelPendingTranscriptSyncs := by
  refine h.of_perm ((ids_settle _ _).trans ?_) rfl rfl rfl
  have hids : s.ids = s.settlements.map (·.waiter.id) ++
      ((s.pendingTranscriptSyncs.flatMap waiters).map (·.id) ++
        (s.loads.flatMap fun load : TranscriptLoad => load.pending.waiters).map (·.id)) :=
    congrArg _ map_append
  rw [hids]
  exact perm_append_comm_assoc _ _ _

theorem driven_cancel (s : SyncState) : Driven s.cancelPendingTranscriptSyncs :=
  fun _ hne => absurd rfl hne

/-- **The timer fires**: the record that is due first waits on, is told that
its conversation was left, or is loaded. -/
theorem Ledger.drain (h : Ledger s) (now : ℕ) : Ledger (s.drainNextTranscriptSync now) := by
  unfold drainNextTranscriptSync
  split
  · exact h
  · next hflag =>
    have hidle := h.flag.1 (Bool.eq_false_iff.2 hflag)
    split
    · exact h
    · next pending rest hcons =>
      have hperm : (pending :: rest).Perm s.pendingTranscriptSyncs := by
        rw [← hcons]
        exact perm_insertionSort _ _
      have hids := ids_reorder hperm s.transcriptSyncTimer
      have hsort : Ledger { s with pendingTranscriptSyncs := pending :: rest } :=
        h.of_perm hids rfl rfl rfl
      split
      · exact hsort.schedule now
      · split
        · refine Ledger.schedule ?_ now
          refine hsort.of_perm ((ids_settle _ _).trans ?_) rfl rfl rfl
          show (_ ++ (s.settlements.map _ ++ map _ (rest.flatMap _ ++ _))).Perm
            (s.settlements.map _ ++ map _ ((pending :: rest).flatMap _ ++ _))
          rw [flatMap_cons, append_assoc, @List.map_append _ _ _ pending.waiters]
          exact perm_append_comm_assoc _ _ _
        · refine ⟨Perm.trans ?_ hsort.settled, ?_, ?_⟩
          · refine Perm.append_left _ (Perm.map _ ?_)
            show (rest.flatMap _ ++ (s.loads ++ [_]).flatMap _).Perm
              ((pending :: rest).flatMap _ ++ s.loads.flatMap _)
            rw [hidle, flatMap_cons, append_assoc]
            show (_ ++ ([] ++ (pending.waiters ++ []))).Perm (_ ++ (_ ++ []))
            rw [nil_append, append_nil, append_nil]
            exact perm_append_comm
          · show true = false ↔ s.loads ++ [_] = []
            simp
          · rw [hidle]
            exact le_rfl

/-- A drain leaves a load or a timer for what is pending. -/
theorem driven_drain (hdriven : s.transcriptSyncInFlight = true → Driven s) (now : ℕ) :
    Driven (s.drainNextTranscriptSync now) := by
  unfold drainNextTranscriptSync
  split
  · next hflag => exact hdriven hflag
  · split
    · next hnil =>
      intro _ hne
      have hperm := perm_insertionSort (fun left right : PendingTranscriptSync =>
        left.dueAt ≤ right.dueAt) s.pendingTranscriptSyncs
      rw [sort] at hnil
      rw [hnil] at hperm
      exact absurd hperm.symm.eq_nil hne
    · split
      · exact driven_schedule _ _
      · split
        · exact driven_schedule _ _
        · intro hidle
          cases hidle

/-! ## Changes of the store -/

/-- The store changes, and the records may be told that there is nothing. -/
def Moved (s t : SyncState) : Prop :=
  ∃ store epoch, t = { s with store, transcriptGenerationEpoch := epoch } ∨
    t = { { s with transcriptGenerationEpoch := epoch }.cancelPendingTranscriptSyncs with store }

theorem moved_store (s : SyncState) (store : TranscriptStore) : Moved s { s with store } :=
  ⟨store, s.transcriptGenerationEpoch, .inl rfl⟩

theorem Moved.store (h : Moved s t) (store : TranscriptStore) : Moved s { t with store } := by
  obtain ⟨_, epoch, rfl | rfl⟩ := h
  · exact ⟨store, epoch, .inl rfl⟩
  · exact ⟨store, epoch, .inr rfl⟩

theorem Ledger.moved (h : Ledger s) (hmov : Moved s t) : Ledger t := by
  obtain ⟨store, epoch, rfl | rfl⟩ := hmov
  · exact { h with }
  · have hepoch : Ledger { s with transcriptGenerationEpoch := epoch } :=
      { h with }
    exact ⟨hepoch.cancel.settled, hepoch.cancel.flag, hepoch.cancel.single⟩

theorem driven_moved (h : Driven s) (hmov : Moved s t) : Driven t := by
  obtain ⟨store, epoch, rfl | rfl⟩ := hmov
  · exact h
  · exact driven_cancel _

theorem Moved.loads (h : Moved s t) : t.loads = s.loads := by
  obtain ⟨_, epoch, rfl | rfl⟩ := h <;> rfl

theorem moved_transition (s : SyncState) (serverGeneration : String) :
    Moved s (s.transitionTranscriptGeneration serverGeneration) := by
  unfold transitionTranscriptGeneration
  split
  · exact moved_store s s.store
  · exact ⟨_, _, .inr rfl⟩

theorem moved_activate (s : SyncState) (conversationId : Option String)
    (cached : Option TranscriptStore) (measured : Bool) :
    Moved s (s.setActiveConversationId conversationId cached measured) := by
  unfold setActiveConversationId
  split
  · exact moved_store s s.store
  · exact ⟨_, _, .inr rfl⟩

theorem moved_deactivate (s : SyncState) : Moved s s.deactivate := ⟨s.store, _, .inr rfl⟩

theorem moved_observe (s : SyncState) (serverGeneration : String) :
    Moved s (s.observeTranscriptServerGeneration serverGeneration) := by
  unfold observeTranscriptServerGeneration
  split
  · exact moved_store s _
  · exact moved_transition s serverGeneration

theorem moved_applySync (s : SyncState) (serverGeneration : String) (basisSequence : ℕ)
    (turns : List SyncTurn) : Moved s (s.applySync serverGeneration basisSequence turns) := by
  unfold applySync
  split
  · exact moved_store s s.store
  · exact moved_store s _

/-- **An answer** changes the store, or what is waited for in another
generation; the load stays that of its record. -/
theorem answerLoad_spec (s : SyncState) (load : TranscriptLoad) (resp : SyncResponse) :
    Moved s (s.answerLoad load resp).1 ∧ (s.answerLoad load resp).2.pending = load.pending := by
  unfold answerLoad
  split
  · exact ⟨moved_store s s.store, rfl⟩
  · split
    · split
      all_goals exact ⟨(moved_transition s _).store _, rfl⟩
    · split
      · split
        all_goals exact ⟨moved_store s _, rfl⟩
      · exact ⟨moved_store s _, rfl⟩
      · exact ⟨moved_applySync s _ _ _, rfl⟩

theorem failLoad_spec (s : SyncState) (load : TranscriptLoad) :
    Moved s (s.failLoad load).1 ∧ (s.failLoad load).2.pending = load.pending := by
  unfold failLoad
  split
  · exact ⟨moved_store s s.store, rfl⟩
  · exact ⟨moved_store s _, rfl⟩

/-! ## Loads -/

/-- The load at a place changes, and the requests it is for do not. -/
theorem Ledger.setLoad (h : Ledger s) (hload : s.loads[i]? = some load)
    (hsame : answered.pending = load.pending) :
    Ledger { s with loads := s.loads.set i answered } := by
  have hpendings : (s.loads.set i answered).map pending = s.loads.map pending := by
    refine ext_getElem? fun k => ?_
    rw [getElem?_map, getElem?_map, getElem?_set_of_eq_some hload]
    split
    · next hk => rw [hk, hload, map_some, map_some, hsame]
    · rfl
  have hwaiters : ∀ loads : List TranscriptLoad, (loads.flatMap fun load => load.pending.waiters) =
      (loads.map pending).flatMap waiters := by
    intro loads
    rw [flatMap_map]
  refine h.of_perm (Perm.append_left _ (Perm.map _ (Perm.append_left _ ?_))) rfl rfl (length_set)
  rw [hwaiters, hpendings, ← hwaiters]

/-- **A load is over**: its requests are told, and the next one is driven. -/
theorem Ledger.finishLoad (h : Ledger s) (hload : s.loads[i]? = some load) (outcome : SyncOutcome)
    (now : ℕ) : Ledger (s.finishLoad load.pending outcome i now) := by
  have hsingle := h.single
  obtain ⟨hlt, hget⟩ := getElem?_eq_some_iff.1 hload
  have hi : i = 0 := by omega
  have honly : s.loads = [load] := by
    refine ext_getElem? fun k => ?_
    rcases Nat.eq_zero_or_pos k with rfl | hpos
    · rw [← hi, hload, hi]
      rfl
    · rw [getElem?_eq_none (by omega), getElem?_eq_none (show [load].length ≤ k from hpos)]
  refine Ledger.schedule ⟨?_, ?_, ?_⟩ now
  · refine Perm.trans ?_ h.settled
    refine ((ids_settle (s := { s with
      transcriptSyncInFlight := false, loads := s.loads.eraseIdx i }) _ _).trans ?_)
    show (_ ++ (s.settlements.map _ ++ map _ (_ ++ (s.loads.eraseIdx i).flatMap _))).Perm
      (s.settlements.map _ ++ map _ (_ ++ s.loads.flatMap _))
    rw [honly, hi, map_append, map_append]
    show (_ ++ (_ ++ (_ ++ []))).Perm (_ ++ (_ ++ map _ (load.pending.waiters ++ [])))
    rw [append_nil, append_nil, ← append_assoc (s.settlements.map _)]
    exact perm_append_comm
  · rw [honly, hi]
    exact ⟨fun _ => rfl, fun _ => rfl⟩
  · rw [honly, hi]
    exact Nat.zero_le _

/-! ## Fences -/

/-- **The record requires what the request does.** -/
structure Covers (pending : PendingTranscriptSync) (waiter : TranscriptSyncWaiter) : Prop where
  conversation : waiter.conversationId = pending.conversationId
  basisSequence : ∀ required, waiter.options.requiredBasisSequence = some required →
    ∃ most, pending.requiredBasisSequence = some most ∧ required ≤ most
  serverGeneration : ∀ required, waiter.options.requiredServerGeneration = some required →
    pending.requiredServerGeneration = some required
  turns : turnIds waiter.options ⊆ pending.requiredTurnIds

/-- **What the fences stand on**: every record and every load requires what
its requests do, and those told so far had their fences. -/
structure Fences (s : SyncState) : Prop where
  records : ∀ pending ∈ s.pendingTranscriptSyncs, ∀ waiter ∈ pending.waiters, Covers pending waiter
  loads : ∀ load ∈ s.loads, ∀ waiter ∈ load.pending.waiters, Covers load.pending waiter
  fenced : ∀ settlement ∈ s.settlements, settlement.outcome = .applied →
    settlement.waiter.Fenced settlement.store

theorem covers_ofRequest (dueAt : ℕ) (waiter : TranscriptSyncWaiter) :
    ∀ other ∈ (ofRequest dueAt waiter).waiters, Covers (ofRequest dueAt waiter) other := by
  intro other hne
  obtain rfl := mem_singleton.1 hne
  exact ⟨rfl, fun required h => ⟨required, h, le_rfl⟩, fun _ h => h, fun _ h => h⟩

theorem le_maxOptionalInteger {left right : Option ℕ} {required : ℕ}
    (h : (∃ most, left = some most ∧ required ≤ most) ∨ right = some required) :
    ∃ most, maxOptionalInteger left right = some most ∧ required ≤ most := by
  rcases h with ⟨most, rfl, hle⟩ | rfl
  · rcases right with _ | other
    · exact ⟨most, rfl, hle⟩
    · exact ⟨max most other, rfl, by omega⟩
  · rcases left with _ | other
    · exact ⟨required, rfl, le_rfl⟩
    · exact ⟨max other required, rfl, by omega⟩

/-- **A request is merged.** The greatest basis and all turns are required
from then on; of two generations the last one would be. -/
theorem covers_merge (h : ∀ other ∈ pending.waiters, Covers pending other)
    (hcompat : pending.compatible waiter = true)
    (hgen : pending.requiredServerGeneration = none ∨
      waiter.options.requiredServerGeneration = none ∨
        pending.requiredServerGeneration = waiter.options.requiredServerGeneration) :
    ∀ other ∈ (pending.merge dueAt waiter).waiters, Covers (pending.merge dueAt waiter) other := by
  intro other hne
  rcases mem_concat.1 hne with hold | rfl
  · have hcov := h other hold
    refine ⟨hcov.conversation, fun required hreqd =>
      le_maxOptionalInteger (.inl (hcov.basisSequence required hreqd)),
      fun required hreqd => ?_, fun turnId hturn => mem_append_left _ (hcov.turns hturn)⟩
    have hrec := hcov.serverGeneration required hreqd
    show waiter.options.requiredServerGeneration.or _ = _
    rcases hgen with hnone | hnone | hsame
    · rw [hnone] at hrec
      cases hrec
    · rw [hnone, hrec]
      rfl
    · rw [← hsame, hrec]
      rfl
  · refine ⟨?_, fun required hreqd => le_maxOptionalInteger (.inr hreqd),
      fun required hreqd => ?_, fun turnId hturn => mem_append_right _ hturn⟩
    · exact (of_decide_eq_true (Bool.and_eq_true_iff.1 hcompat).1).symm
    · show other.options.requiredServerGeneration.or _ = _
      rw [hreqd]
      rfl

/-- The records after a merge: as before, or the one that took the request. -/
theorem mem_mergeInto (h : mergeInto dueAt waiter pendings = some merged) :
    ∀ found ∈ merged, found ∈ pendings ∨ ∃ pending ∈ pendings,
      pending.compatible waiter = true ∧ found = pending.merge dueAt waiter := by
  induction pendings generalizing merged with
  | nil => cases h
  | cons pending rest ih =>
    rw [mergeInto] at h
    intro found hfnd
    split at h
    · next inner hinner =>
      cases h
      rcases mem_cons.1 hfnd with rfl | hrest
      · exact .inl mem_cons_self
      · refine (ih hinner found hrest).imp (mem_cons_of_mem _) ?_
        rintro ⟨other, hne, hmerged⟩
        exact ⟨other, mem_cons_of_mem _ hne, hmerged⟩
    · obtain ⟨hcompat, ⟨⟩⟩ := ite_none_right_eq_some.1 h
      rcases mem_cons.1 hfnd with rfl | hrest
      · exact .inr ⟨pending, mem_cons_self, hcompat, rfl⟩
      · exact .inl (mem_cons_of_mem _ hrest)

/-- The step lemma for what makes no new records and tells nobody that it
was applied. -/
theorem Fences.of_subset (h : Fences s)
    (hrecords : ∀ pending ∈ t.pendingTranscriptSyncs, pending ∈ s.pendingTranscriptSyncs)
    (hloads : ∀ load ∈ t.loads, ∃ other ∈ s.loads, load.pending = other.pending)
    (hsettlements : ∀ settlement ∈ t.settlements,
      settlement ∈ s.settlements ∨ settlement.outcome ≠ .applied) : Fences t where
  records pending hpend := h.records pending (hrecords pending hpend)
  loads load hload := by
    obtain ⟨other, hne, hsame⟩ := hloads load hload
    rw [hsame]
    exact h.loads other hne
  fenced settlement hsettlement happlied := by
    rcases hsettlements settlement hsettlement with hold | hnot
    · exact h.fenced settlement hold happlied
    · exact absurd happlied hnot

variable {outcome : SyncOutcome}

theorem mem_settle (h : settlement ∈ (s.settle waiters outcome).settlements) :
    settlement ∈ s.settlements ∨ ∃ waiter ∈ waiters, settlement = ⟨waiter, outcome, s.store⟩ := by
  refine (mem_append.1 h).imp id fun hnew => ?_
  obtain ⟨waiter, hwaiter, rfl⟩ := mem_map.1 hnew
  exact ⟨waiter, hwaiter, rfl⟩

/-- Whoever is told that there is nothing is not told that it was applied. -/
theorem mem_settle_unavailable (h : settlement ∈ (s.settle waiters .unavailable).settlements) :
    settlement ∈ s.settlements ∨ settlement.outcome ≠ .applied := by
  refine (mem_settle h).imp id ?_
  rintro ⟨waiter, -, rfl⟩
  exact SyncOutcome.noConfusion

theorem Fences.schedule (h : Fences s) (now : ℕ) : Fences (s.scheduleTranscriptSyncDrain now) := by
  obtain ⟨pendings, timer, heq, hperm, -⟩ := schedule_spec s now
  rw [heq]
  exact h.of_subset (fun _ hpend => hperm.mem_iff.1 hpend) (fun load hload => ⟨load, hload, rfl⟩)
    fun _ => .inl

theorem Fences.moved (h : Fences s) (hmov : Moved s t) : Fences t := by
  obtain ⟨store, epoch, rfl | rfl⟩ := hmov
  · exact { h with }
  · exact h.of_subset (fun _ hnone => absurd hnone not_mem_nil)
      (fun load hload => ⟨load, hload, rfl⟩) fun _ => mem_settle_unavailable

/-- A request keeps the fences. -/
theorem Fences.request (h : Fences s) {conversationId : String} {options : LoadOptions}
    {delayMs : ℕ} (hkeeps : s.KeepsFences (.request conversationId options delayMs now)) :
    Fences (s.requestTranscriptSync conversationId options delayMs now) := by
  unfold requestTranscriptSync
  split
  · exact h.of_subset (fun _ => id) (fun load hload => ⟨load, hload, rfl⟩)
      fun _ => mem_settle_unavailable
  · next hact =>
    refine Fences.schedule ⟨fun found hfnd => ?_, ?_, ?_⟩ now
    · rcases hmerge : mergeInto (now + delayMs)
        ⟨s.nextId, conversationId, options⟩ s.pendingTranscriptSyncs with _ | merged
      · rw [hmerge, getD_none] at hfnd
        rcases mem_concat.1 hfnd with hold | rfl
        · exact h.records found hold
        · exact covers_ofRequest _ _
      · rw [hmerge, getD_some] at hfnd
        rcases mem_mergeInto hmerge found hfnd with hold | ⟨record, hrec, hcompat, rfl⟩
        · exact h.records found hold
        · exact covers_merge (h.records record hrec) hcompat
            (hkeeps (not_not.1 hact) record hrec hcompat)
    · exact h.loads
    · exact h.fenced

/-- A drain keeps the fences. -/
theorem Fences.drain (h : Fences s) (now : ℕ) : Fences (s.drainNextTranscriptSync now) := by
  unfold drainNextTranscriptSync
  split
  · exact h
  · split
    · exact h
    · next pending rest hcons =>
      have hperm : (pending :: rest).Perm s.pendingTranscriptSyncs := by
        rw [← hcons]
        exact perm_insertionSort _ _
      have hmem : ∀ found ∈ pending :: rest, found ∈ s.pendingTranscriptSyncs :=
        fun _ hfnd => hperm.mem_iff.1 hfnd
      split
      · refine Fences.schedule ?_ now
        exact h.of_subset hmem (fun load hload => ⟨load, hload, rfl⟩) fun _ => .inl
      · split
        · refine Fences.schedule ?_ now
          exact h.of_subset (fun found hfnd => hmem found (mem_cons_of_mem _ hfnd))
            (fun load hload => ⟨load, hload, rfl⟩) fun _ => mem_settle_unavailable
        · refine ⟨fun found hfnd => h.records found (hmem found (mem_cons_of_mem _ hfnd)),
            fun load hload => ?_, h.fenced⟩
          rcases mem_concat.1 hload with hold | rfl
          · exact h.loads load hold
          · exact h.records pending (hmem pending mem_cons_self)

/-- **A record's fence is that of each of its requests**, if the store is
still that of its conversation. -/
theorem fenced_of_covers {store : TranscriptStore} (h : Covers pending waiter)
    (hfence : pending.fenceSatisfied store = true)
    (hact : store.activeConversationId = some pending.conversationId) : waiter.Fenced store := by
  obtain ⟨hboth, hturns⟩ := Bool.and_eq_true_iff.1 hfence
  obtain ⟨hbasis, hgen⟩ := Bool.and_eq_true_iff.1 hboth
  refine ⟨hact.trans (congrArg some h.conversation.symm), fun required hreqd => ?_,
    fun required hreqd => ?_, fun turnId hturn => ?_⟩
  · obtain ⟨most, hmost, hle⟩ := h.basisSequence required hreqd
    rw [hmost] at hbasis
    rcases hstore : store.basisSequence with _ | basis
    · rw [hstore] at hbasis
      cases hbasis
    · rw [hstore] at hbasis
      exact ⟨basis, rfl, Nat.le_trans hle (of_decide_eq_true hbasis)⟩
  · rw [h.serverGeneration required hreqd] at hgen
    exact of_decide_eq_true hgen
  · exact of_decide_eq_true (all_eq_true.1 hturns turnId (h.turns hturn))

/-- A load that returns keeps the fences. -/
theorem Fences.finishLoad (h : Fences s) (hload : s.loads[i]? = some load)
    (now : ℕ) (happlied : outcome = .applied → load.pending.fenceSatisfied s.store = true ∧
      s.store.activeConversationId = some load.pending.conversationId) :
    Fences (s.finishLoad load.pending outcome i now) := by
  refine Fences.schedule ⟨?_, fun other hne => ?_, fun settlement hsettlement hout => ?_⟩ now
  · exact h.records
  · exact h.loads other (mem_of_mem_eraseIdx hne)
  · rcases mem_settle hsettlement with hold | ⟨waiter, hwaiter, rfl⟩
    · exact h.fenced settlement hold hout
    · obtain ⟨hfence, hact⟩ := happlied hout
      exact fenced_of_covers (h.loads load (mem_of_getElem? hload) waiter hwaiter) hfence hact

/-! ## Every run -/

/-- The step lemma for the books. -/
theorem Ledger.step (h : Ledger s) (hdriven : Driven s)
    (hstep : syncMachine.step s action = some t) :
    Ledger t ∧ Driven t := by
  cases action with
  | request conversationId options delayMs now =>
    cases hstep
    refine ⟨h.request conversationId options delayMs now, ?_⟩
    unfold requestTranscriptSync
    split
    · exact hdriven
    · exact driven_schedule _ now
  | timer now =>
    dsimp only [syncMachine] at hstep
    split at hstep
    · cases hstep
    · cases hstep
      have hfired : Ledger { s with transcriptSyncTimer := none } := { h with }
      refine ⟨hfired.drain now, driven_drain (fun hflag hidle => ?_) now⟩
      rw [show s.transcriptSyncInFlight = true from hflag] at hidle
      cases hidle
  | answer i resp =>
    dsimp only [syncMachine] at hstep
    split at hstep
    · cases hstep
    · next load hload =>
      cases (ite_none_right_eq_some.1 hstep).2
      obtain ⟨hmov, hsame⟩ := answerLoad_spec s load resp
      have hkept : Driven (s.answerLoad load resp).1 := driven_moved hdriven hmov
      exact ⟨(h.moved hmov).setLoad (hmov.loads ▸ hload) hsame, hkept⟩
  | fail i =>
    dsimp only [syncMachine] at hstep
    split at hstep
    · cases hstep
    · next load hload =>
      cases (ite_none_right_eq_some.1 hstep).2
      obtain ⟨hmov, hsame⟩ := failLoad_spec s load
      have hkept : Driven (s.failLoad load).1 := driven_moved hdriven hmov
      exact ⟨(h.moved hmov).setLoad (hmov.loads ▸ hload) hsame, hkept⟩
  | finish i now =>
    dsimp only [syncMachine] at hstep
    split at hstep
    · cases hstep
    · next load hload =>
      obtain ⟨result, -, rfl⟩ := map_eq_some_iff.1 hstep
      exact ⟨h.finishLoad hload _ now, driven_schedule _ now⟩
  | throw i now =>
    dsimp only [syncMachine] at hstep
    split at hstep
    · cases hstep
    · next load hload =>
      cases hstep
      exact ⟨h.finishLoad hload _ now, driven_schedule _ now⟩
  | activate conversationId cached measured =>
    cases hstep
    have hmov := moved_activate s conversationId cached measured
    exact ⟨h.moved hmov, driven_moved hdriven hmov⟩
  | deactivate =>
    cases hstep
    exact ⟨h.moved (moved_deactivate s), driven_moved hdriven (moved_deactivate s)⟩
  | observe serverGeneration =>
    cases hstep
    have hmov := moved_observe s serverGeneration
    exact ⟨h.moved hmov, driven_moved hdriven hmov⟩
  | refresh basisSequence turnResources =>
    cases hstep
    exact ⟨h.moved (moved_store s _), driven_moved hdriven (moved_store s _)⟩

/-- A load that changes its answer is the load of the same record. -/
theorem Fences.setLoad (h : Fences s) (hload : load ∈ s.loads)
    (hsame : answered.pending = load.pending) :
    Fences { s with loads := s.loads.set i answered } := by
  refine h.of_subset (fun _ => id) (fun other hne => ?_) fun _ => .inl
  rcases mem_or_eq_of_mem_set hne with hold | rfl
  · exact ⟨other, hold, rfl⟩
  · exact ⟨load, hload, hsame⟩

/-- The step lemma for the fences. -/
theorem Fences.step (h : Fences s) (hkeeps : s.KeepsFences action)
    (hstep : syncMachine.step s action = some t) : Fences t := by
  cases action with
  | request conversationId options delayMs now =>
    cases hstep
    exact h.request hkeeps
  | timer now =>
    dsimp only [syncMachine] at hstep
    split at hstep
    · cases hstep
    · cases hstep
      have hfired : Fences { s with transcriptSyncTimer := none } :=
        { h with }
      exact hfired.drain now
  | answer i resp =>
    dsimp only [syncMachine] at hstep
    split at hstep
    · cases hstep
    · next load hload =>
      cases (ite_none_right_eq_some.1 hstep).2
      obtain ⟨hmov, hsame⟩ := answerLoad_spec s load resp
      exact (h.moved hmov).setLoad (mem_of_getElem? (hmov.loads ▸ hload)) hsame
  | fail i =>
    dsimp only [syncMachine] at hstep
    split at hstep
    · cases hstep
    · next load hload =>
      cases (ite_none_right_eq_some.1 hstep).2
      obtain ⟨hmov, hsame⟩ := failLoad_spec s load
      exact (h.moved hmov).setLoad (mem_of_getElem? (hmov.loads ▸ hload)) hsame
  | finish i now =>
    dsimp only [syncMachine] at hstep
    split at hstep
    · cases hstep
    · next load hload =>
      obtain ⟨result, hres, rfl⟩ := map_eq_some_iff.1 hstep
      refine h.finishLoad hload now fun hout => ?_
      unfold outcome at hout
      split at hout
      · next hboth => exact ⟨hboth.2, hkeeps load hload (hboth.1 ▸ hres)⟩
      · cases hout
  | throw i now =>
    dsimp only [syncMachine] at hstep
    split at hstep
    · cases hstep
    · next load hload =>
      cases hstep
      exact h.finishLoad hload now fun hout => by cases hout
  | activate conversationId cached measured =>
    cases hstep
    exact h.moved (moved_activate s conversationId cached measured)
  | deactivate =>
    cases hstep
    exact h.moved (moved_deactivate s)
  | observe serverGeneration =>
    cases hstep
    exact h.moved (moved_observe s serverGeneration)
  | refresh basisSequence turnResources =>
    cases hstep
    exact h.moved (moved_store s _)

/-- In every run the books are kept. -/
theorem ledger_of_reachable (h : syncMachine.Reachable s) : Ledger s ∧ Driven s := by
  refine h.rule (P := fun s => Ledger s ∧ Driven s) ⟨?_, fun _ hne => absurd rfl hne⟩
    fun _ _ _ _ hu hstep => hu.1.step hu.2 hstep
  exact ⟨Perm.refl _, ⟨fun _ => rfl, fun _ => rfl⟩, Nat.zero_le _⟩

/-- **The requests of a run are told what they are promised**, if its steps
keep to the fences. -/
theorem syncs_promised (h : (syncMachine.restrict KeepsFences).Reachable s) : s.Promised := by
  obtain ⟨hledger, hdriven⟩ := ledger_of_reachable h.of_restrict
  have hfences : Fences s := by
    refine h.rule (P := Fences) ?_ fun _ _ _ _ hu hstep => ?_
    · exact ⟨fun _ hnone => absurd hnone not_mem_nil, fun _ hnone => absurd hnone not_mem_nil,
        fun _ hnone => absurd hnone not_mem_nil⟩
    · obtain ⟨hkeeps, hrun⟩ := Machine.restrict_step_eq_some.1 hstep
      exact hu.step hkeeps hrun
  refine ⟨hledger.settled, hledger.single, fun hne => ?_, hfences.fenced⟩
  by_cases hloads : s.loads = []
  · exact .inl (hdriven (hledger.flag.2 hloads) hne)
  · exact .inr hloads

/-- The options of a request that requires a generation. -/
def inGeneration (serverGeneration : String) (basisSequence : Option ℕ) : LoadOptions :=
  ⟨none, none, some true, basisSequence, some serverGeneration, none, none, none, none, none, none⟩

/-- A conversation is opened and its transcript requested twice, with these
options; it is read in generation `"b"`. -/
def syncRun (first second : LoadOptions) : List SyncAction :=
  [.activate (some "c") none true, .request "c" first 0 0, .request "c" second 0 0, .timer 0,
    .answer 0 ⟨"b", .ok 3 [.ok "turn"]⟩, .finish 0 0]

/-- **A request forgotten by its record** is told that it was applied, in a
generation that it did not ask for. -/
theorem fence_forgotten : ¬ ∀ s, syncMachine.Reachable s → s.Promised := by
  intro h
  have hrun : (syncMachine.exec (syncRun (inGeneration "a" none) (inGeneration "b" none))
      syncMachine.init).isSome := by decide +kernel
  have hsettled : ∃ settlement ∈
      (syncMachine.run (syncRun (inGeneration "a" none) (inGeneration "b" none))
        syncMachine.init).settlements,
      settlement.outcome = .applied ∧
        settlement.waiter.options.requiredServerGeneration = some "a" ∧
        settlement.store.serverGeneration = some "b" := by decide +kernel
  obtain ⟨settlement, hmem, happlied, hrequired, hstore⟩ := hsettled
  have hfenced := (h _ ⟨_, Machine.exec_eq_run hrun⟩).fenced settlement hmem happlied
  have hsame := hfenced.serverGeneration "a" hrequired
  rw [hstore] at hsame
  exact absurd hsame (by decide)

/-- **Of a run that keeps to the fences**: its second request requires a
basis, in the generation of the first. -/
theorem syncs_promised_two : ((syncMachine.restrict KeepsFences).run
      (syncRun (inGeneration "b" none) (inGeneration "b" (some 3))) syncMachine.init).Promised :=
  syncs_promised ⟨syncRun (inGeneration "b" none) (inGeneration "b" (some 3)),
    Machine.exec_eq_run (by decide +kernel)⟩

end SyncState

end Remux
