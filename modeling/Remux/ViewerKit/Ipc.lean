import Mathlib.Data.List.Nodup
import Remux.Common.Lists
import Remux.ViewerKit.Model.Ipc

/-!
# Every request of a viewer settles once

A request is pending from its id on until its promise is settled, and what
settles it also removes its entry and its listener. Two things may part the
entry from the promise, or a promise from what should settle it: the post of
a cancellation that is refused, and a flush that a post stops half way. The
requests settle just along the runs where neither happens to a request that
is pending.
-/

namespace Remux

open IpcState
open Bool (eq_false_iff false_ne_true)
open Option hiding any_eq_true any_map map_map

namespace IpcState

open Inv WebViewRequest List

variable {s t : IpcState} {id : ℕ} {message : WebViewRequest} {takes : Bool}

/-! ## Small facts -/

theorem mem_ids : id ∈ s.ids ↔ 1 ≤ id ∧ id < s.nextId := by
  unfold ids
  rw [mem_range'_1]
  omega

theorem pending_eq_true : s.pending id = true ↔ ∃ request ∈ s.pendingRequests, request.id = id := by
  simp only [pending, any_eq_true, decide_eq_true_eq]

theorem settled_eq_true : s.settled id = true ↔ id ∈ s.settlements.map Prod.fst := by
  simp only [settled, any_eq_true, decide_eq_true_eq, List.mem_map]

@[simp] theorem settled_settle (settlement : Settlement) (id' : ℕ) :
    (s.settle id settlement).settled id' = (s.settled id' || id = id') := by
  simp only [settled, settle, any_append, any_cons, any_nil, Bool.or_false]

/-- One request is removed, the others stay. -/
@[simp] theorem pending_remove (id' : ℕ) :
    (s.remove id).pending id' = (s.pending id' && id ≠ id') := by
  rw [Bool.eq_iff_iff]
  simp only [pending, remove, any_eq_true, mem_filter, decide_eq_true_eq,
    Bool.and_eq_true, ne_eq, decide_not, Bool.not_eq_true', decide_eq_false_iff_not]
  constructor
  · rintro ⟨request, ⟨hmem, hne⟩, rfl⟩
    exact ⟨⟨request, hmem, rfl⟩, fun h => hne h.symm⟩
  · rintro ⟨⟨request, hmem, rfl⟩, hne⟩
    exact ⟨request, ⟨hmem, fun h => hne h.symm⟩, rfl⟩

/-- The requests stand as they did. -/
structure SameRequests (s t : IpcState) : Prop where
  nextId : t.nextId = s.nextId
  pendingRequests : t.pendingRequests = s.pendingRequests
  listeners : t.listeners = s.listeners
  settlements : t.settlements = s.settlements
  withdrawn : t.withdrawn = s.withdrawn

theorem SameRequests.ids (h : SameRequests s t) : t.ids = s.ids := by
  unfold IpcState.ids
  rw [h.nextId]

theorem SameRequests.pending (h : SameRequests s t) (id : ℕ) : t.pending id = s.pending id := by
  unfold IpcState.pending
  rw [h.pendingRequests]

theorem SameRequests.settled (h : SameRequests s t) (id : ℕ) : t.settled id = s.settled id := by
  unfold IpcState.settled
  rw [h.settlements]

/-- **What a post does**: the message is queued, or handed on, or refused. -/
theorem postMessage_spec (s : IpcState) (message : WebViewRequest) (takes : Bool) :
    SameRequests s (s.postMessage message takes).1 ∧ (s.postMessage message takes).1.due = s.due ∧
      ((s.postMessage message takes).1.protectedTransportQueue = s.protectedTransportQueue ∧
          (s.postMessage message takes).1.sent = s.sent ∨
        (s.postMessage message takes).1.protectedTransportQueue =
            s.protectedTransportQueue ++ [message] ∧
          (s.postMessage message takes).1.sent = s.sent ∨
        (s.postMessage message takes).1.protectedTransportQueue = s.protectedTransportQueue ∧
          (s.postMessage message takes).1.sent = s.sent ++ [message]) := by
  unfold postMessage
  split
  · cases takes with
    | true => exact ⟨⟨rfl, rfl, rfl, rfl, rfl⟩, rfl, .inr (.inr ⟨rfl, rfl⟩)⟩
    | false => exact ⟨⟨rfl, rfl, rfl, rfl, rfl⟩, rfl, .inl ⟨rfl, rfl⟩⟩
  · split
    · split
      · exact ⟨⟨rfl, rfl, rfl, rfl, rfl⟩, rfl, .inl ⟨rfl, rfl⟩⟩
      · split
        · exact ⟨⟨rfl, rfl, rfl, rfl, rfl⟩, rfl, .inl ⟨rfl, rfl⟩⟩
        · exact ⟨⟨rfl, rfl, rfl, rfl, rfl⟩, rfl, .inr (.inl ⟨rfl, rfl⟩)⟩
    · split
      · exact ⟨⟨rfl, rfl, rfl, rfl, rfl⟩, rfl, .inr (.inr ⟨rfl, rfl⟩)⟩
      · exact ⟨⟨rfl, rfl, rfl, rfl, rfl⟩, rfl, .inl ⟨rfl, rfl⟩⟩

/-- A post does not look at the requests. -/
theorem postMessage_remove (s : IpcState) (id : ℕ) (message : WebViewRequest) (takes : Bool) :
    (s.remove id).postMessage message takes =
      ((s.postMessage message takes).1.remove id, (s.postMessage message takes).2) := by
  have hqueueing : (s.remove id).queueing = s.queueing := rfl
  unfold postMessage
  rw [hqueueing]
  by_cases hdirect : s.directHost = true
  · cases takes <;> simp [remove, hdirect]
  · by_cases hq : s.queueing = true
    · by_cases hfail : s.protectedTransportFailure.isSome = true
      · simp [remove, hdirect, hq, hfail]
      · by_cases hfull : 64 ≤ s.protectedTransportQueue.length
        all_goals simp [remove, hdirect, hq, hfail, hfull]
    · by_cases hpost : (message.encodes && takes) = true
      all_goals simp [remove, hdirect, hq, hpost]

/-! ## The invariant -/

/-- The request of a message was never posted, nor withdrawn. -/
def Unposted (s : IpcState) (message : WebViewRequest) : Prop :=
  ∀ id ∈ message.requestId, id ∈ s.ids ∧ id ∉ s.withdrawn ∧
    (∀ queued ∈ s.protectedTransportQueue, queued.requestId ≠ some id) ∧
    ∀ posted ∈ s.sent, posted.requestId ≠ some id

/-- **The books of the requests.** -/
structure Ledger (s : IpcState) : Prop where
  pos : 1 ≤ s.nextId
  pending_ids : ∀ request ∈ s.pendingRequests, request.id ∈ s.ids
  settled_ids : ∀ settlement ∈ s.settlements, settlement.1 ∈ s.ids
  nodup : (s.pendingRequests.map PendingIpcRequest.id).Nodup
  once : (s.settlements.map Prod.fst).Nodup
  pending_iff : ∀ id ∈ s.ids, s.pending id = true ↔ s.settled id = false
  listening_iff : ∀ signal id, (signal, id) ∈ s.listeners ↔
    ∃ request ∈ s.pendingRequests, request.id = id ∧ request.signal = some signal
  listeners_nodup : s.listeners.Nodup
  queued_ids : ∀ message ∈ s.protectedTransportQueue, ∀ id ∈ message.requestId, id ∈ s.ids
  sent_ids : ∀ message ∈ s.sent, ∀ id ∈ message.requestId, id ∈ s.ids
  queued_unsent : ∀ message ∈ s.protectedTransportQueue, ∀ id ∈ message.requestId,
    ∀ posted ∈ s.sent, posted.requestId ≠ some id
  withdrawn_ids : ∀ id ∈ s.withdrawn, id ∈ s.ids
  withdrawn_unsent : ∀ id ∈ s.withdrawn, ∀ posted ∈ s.sent, posted.requestId ≠ some id

/-- **The invariant**: what is due is settled, and what was withdrawn is
not pending. -/
structure Inv (s : IpcState) : Prop extends Ledger s where
  due : ∀ id ∈ s.due, id ∈ s.ids ∧ s.settled id = true
  withdrawn_pending : ∀ id ∈ s.withdrawn, s.pending id = false

/-- What is settled is not pending. -/
theorem Ledger.pending_eq_false (h : Ledger s) (hset : s.settled id = true) :
    s.pending id = false := by
  rw [eq_false_iff]
  intro hpend
  obtain ⟨request, hmem, rfl⟩ := pending_eq_true.1 hpend
  have hopen := (h.pending_iff _ (h.pending_ids request hmem)).1 hpend
  rw [hset] at hopen
  cases hopen

theorem Ledger.settled_eq_false (h : Ledger s) (hpend : s.pending id = true) :
    s.settled id = false := by
  obtain ⟨request, hmem, rfl⟩ := pending_eq_true.1 hpend
  exact (h.pending_iff _ (h.pending_ids request hmem)).1 hpend

/-- Other flags, and messages that were posted in their turn. -/
theorem Ledger.of_same (h : Ledger s) (hsame : SameRequests s t)
    (hq : ∀ message ∈ t.protectedTransportQueue, ∀ id ∈ message.requestId,
      id ∈ s.ids ∧ ∀ posted ∈ t.sent, posted.requestId ≠ some id)
    (hsent : ∀ message ∈ t.sent, ∀ id ∈ message.requestId, id ∈ s.ids ∧ id ∉ s.withdrawn) :
    Ledger t where
  pos := hsame.nextId ▸ h.pos
  pending_ids := by
    rw [hsame.pendingRequests, hsame.ids]
    exact h.pending_ids
  settled_ids := by
    rw [hsame.settlements, hsame.ids]
    exact h.settled_ids
  nodup := hsame.pendingRequests ▸ h.nodup
  once := hsame.settlements ▸ h.once
  pending_iff id hid := by
    rw [hsame.pending, hsame.settled]
    exact h.pending_iff id (hsame.ids ▸ hid)
  listening_iff := by
    rw [hsame.listeners, hsame.pendingRequests]
    exact h.listening_iff
  listeners_nodup := hsame.listeners ▸ h.listeners_nodup
  queued_ids message hmem id hid := hsame.ids ▸ (hq message hmem id hid).1
  sent_ids message hmem id hid := hsame.ids ▸ (hsent message hmem id hid).1
  queued_unsent message hmem id hid := (hq message hmem id hid).2
  withdrawn_ids := by
    rw [hsame.withdrawn, hsame.ids]
    exact h.withdrawn_ids
  withdrawn_unsent id hid posted hmem hreq :=
    (hsent posted hmem id hreq).2 (hsame.withdrawn ▸ hid)

/-- A post of a message that carries no request, or one that is new. -/
theorem Ledger.post (h : Ledger s) (hmsg : s.Unposted message) (takes : Bool) :
    Ledger (s.postMessage message takes).1 := by
  obtain ⟨hsame, -, hqueue⟩ := postMessage_spec s message takes
  refine h.of_same hsame ?_ ?_
  · intro queued hmem id hid
    rcases hqueue with ⟨hq, hs⟩ | ⟨hq, hs⟩ | ⟨hq, hs⟩
    · rw [hq] at hmem
      rw [hs]
      exact ⟨h.queued_ids queued hmem id hid, h.queued_unsent queued hmem id hid⟩
    · rw [hq] at hmem
      rw [hs]
      rcases mem_concat.1 hmem with hmem | rfl
      · exact ⟨h.queued_ids queued hmem id hid, h.queued_unsent queued hmem id hid⟩
      · exact ⟨(hmsg id hid).1, (hmsg id hid).2.2.2⟩
    · rw [hq] at hmem
      rw [hs]
      refine ⟨h.queued_ids queued hmem id hid, fun posted hpost hreq => ?_⟩
      rcases mem_concat.1 hpost with hpost | rfl
      · exact h.queued_unsent queued hmem id hid posted hpost hreq
      · exact (hmsg id hreq).2.2.1 queued hmem hid
  · intro posted hmem id hid
    have hold : posted ∈ s.sent → id ∈ s.ids ∧ id ∉ s.withdrawn := fun hpost =>
      ⟨h.sent_ids posted hpost id hid, fun hwith => h.withdrawn_unsent id hwith posted hpost hid⟩
    rcases hqueue with ⟨-, hs⟩ | ⟨-, hs⟩ | ⟨-, hs⟩
    · exact hold (hs ▸ hmem)
    · exact hold (hs ▸ hmem)
    · rw [hs] at hmem
      rcases mem_concat.1 hmem with hmem | rfl
      · exact hold hmem
      · exact ⟨(hmsg id hid).1, (hmsg id hid).2.1⟩

/-! ## The requests come and go -/

theorem ids_subset_succ (hpos : 1 ≤ s.nextId) (ht : t.nextId = s.nextId + 1) :
    id ∈ t.ids ↔ id ∈ s.ids ∨ id = s.nextId := by
  rw [mem_ids, mem_ids, ht]
  omega

theorem nextId_notMem_ids : s.nextId ∉ s.ids := fun hmem => absurd (mem_ids.1 hmem).2 (lt_irrefl _)

/-- The id that comes next is nowhere yet. -/
theorem Ledger.next_new (h : Ledger s) :
    s.pending s.nextId = false ∧ s.settled s.nextId = false ∧ s.nextId ∉ s.withdrawn ∧
      (∀ queued ∈ s.protectedTransportQueue, queued.requestId ≠ some s.nextId) ∧
      ∀ posted ∈ s.sent, posted.requestId ≠ some s.nextId := by
  refine ⟨eq_false_iff.2 fun hpend => ?_, eq_false_iff.2 fun hset => ?_,
    fun hmem => nextId_notMem_ids (h.withdrawn_ids _ hmem),
    fun queued hmem hid => nextId_notMem_ids (h.queued_ids queued hmem _ hid),
    fun posted hmem hid => nextId_notMem_ids (h.sent_ids posted hmem _ hid)⟩
  · obtain ⟨request, hmem, hid⟩ := pending_eq_true.1 hpend
    exact nextId_notMem_ids (hid ▸ h.pending_ids request hmem)
  · obtain ⟨settle, hmem, hid⟩ := List.mem_map.1 (settled_eq_true.1 hset)
    exact nextId_notMem_ids (hid ▸ h.settled_ids settle hmem)

/-- A request is refused at once. -/
theorem Ledger.refuse (h : Ledger s) (settlement : Settlement) :
    Ledger (settle { s with nextId := s.nextId + 1 } s.nextId settlement) := by
  have hids : ∀ id, id ∈ (settle { s with nextId := s.nextId + 1 } s.nextId settlement).ids ↔
      id ∈ s.ids ∨ id = s.nextId := fun id => ids_subset_succ h.pos rfl
  obtain ⟨hpend, hset, -⟩ := h.next_new
  refine ⟨Nat.le_add_left _ _, fun request hmem => (hids _).2 (.inl (h.pending_ids request hmem)),
    ?_, h.nodup, ?_, ?_, h.listening_iff, h.listeners_nodup,
    fun message hmem id hid => (hids _).2 (.inl (h.queued_ids message hmem id hid)),
    fun message hmem id hid => (hids _).2 (.inl (h.sent_ids message hmem id hid)),
    h.queued_unsent, fun id hid => (hids _).2 (.inl (h.withdrawn_ids id hid)),
    h.withdrawn_unsent⟩
  · intro done hmem
    rcases mem_concat.1 hmem with hmem | rfl
    · exact (hids _).2 (.inl (h.settled_ids done hmem))
    · exact (hids _).2 (.inr rfl)
  · refine (map_append ▸ nodup_append.2 ⟨h.once, nodup_singleton _, ?_⟩)
    rintro id hmem id' hid' rfl
    rw [mem_singleton.1 hid'] at hmem
    exact false_ne_true (hset.symm.trans (settled_eq_true.2 hmem))
  · intro id hid
    rw [settled_settle]
    change s.pending id = true ↔ (s.settled id || decide (s.nextId = id)) = false
    rcases (hids id).1 hid with hold | rfl
    · have hne : s.nextId ≠ id := fun heq => nextId_notMem_ids (heq ▸ hold)
      rw [decide_eq_false hne, Bool.or_false]
      exact h.pending_iff id hold
    · rw [hpend, decide_eq_true rfl, Bool.or_true]
      exact iff_of_false false_ne_true false_ne_true.symm

/-- The state with a new request. -/
def issued (s : IpcState) (method : String) (signal : Option ℕ) : IpcState :=
  { s with
    nextId := s.nextId + 1
    pendingRequests := s.pendingRequests ++ [(⟨s.nextId, method, signal⟩ : PendingIpcRequest)]
    listeners := s.listeners ++ signal.toList.map fun signal => (signal, s.nextId) }

theorem pending_issued (method : String) (signal : Option ℕ) (id : ℕ) :
    (s.issued method signal).pending id = (s.pending id || s.nextId = id) := by
  simp only [pending, issued, any_append, any_cons, any_nil, Bool.or_false]

/-- A new request is pending. -/
theorem Ledger.issue (h : Ledger s) (method : String) (signal : Option ℕ) :
    Ledger (s.issued method signal) := by
  have hids : ∀ id, id ∈ (s.issued method signal).ids ↔ id ∈ s.ids ∨ id = s.nextId := fun id =>
    ids_subset_succ h.pos rfl
  obtain ⟨hpend, hset, -⟩ := h.next_new
  refine ⟨Nat.le_add_left _ _, ?_, fun done hmem => (hids _).2 (.inl (h.settled_ids done hmem)),
    ?_, h.once, ?_, ?_, ?_,
    fun message hmem id hid => (hids _).2 (.inl (h.queued_ids message hmem id hid)),
    fun message hmem id hid => (hids _).2 (.inl (h.sent_ids message hmem id hid)),
    h.queued_unsent, fun id hid => (hids _).2 (.inl (h.withdrawn_ids id hid)),
    h.withdrawn_unsent⟩
  · intro request hmem
    rcases mem_concat.1 hmem with hmem | rfl
    · exact (hids _).2 (.inl (h.pending_ids request hmem))
    · exact (hids _).2 (.inr rfl)
  · refine (map_append ▸ nodup_append.2 ⟨h.nodup, nodup_singleton _, ?_⟩)
    rintro id hmem id' hid' rfl
    rw [mem_singleton.1 hid'] at hmem
    obtain ⟨request, hreq, hid⟩ := List.mem_map.1 hmem
    exact false_ne_true (hpend.symm.trans (pending_eq_true.2 ⟨request, hreq, hid⟩))
  · intro id hid
    rw [pending_issued]
    rcases (hids id).1 hid with hold | rfl
    · have hne : s.nextId ≠ id := fun heq => nextId_notMem_ids (heq ▸ hold)
      rw [decide_eq_false hne, Bool.or_false]
      exact h.pending_iff id hold
    · rw [decide_eq_true rfl, Bool.or_true]
      exact iff_of_true rfl hset
  · intro listened id
    simp only [issued, mem_append, h.listening_iff, List.mem_map, mem_toList,
      mem_singleton, Prod.mk.injEq]
    constructor
    · rintro (⟨request, hmem, hid, hsignal⟩ | ⟨signal', hsignal, rfl, rfl⟩)
      · exact ⟨request, .inl hmem, hid, hsignal⟩
      · exact ⟨_, .inr rfl, rfl, hsignal⟩
    · rintro ⟨request, hmem | rfl, hid, hsignal⟩
      · exact .inl ⟨request, hmem, hid, hsignal⟩
      · exact .inr ⟨listened, hsignal, rfl, hid⟩
  · refine nodup_append.2 ⟨h.listeners_nodup, ?_, ?_⟩
    · cases signal with
      | none => exact nodup_nil
      | some signal => exact nodup_singleton _
    · rintro listener hmem listener' hnew rfl
      obtain ⟨signal', -, rfl⟩ := List.mem_map.1 hnew
      obtain ⟨request, hreq, hid, -⟩ := (h.listening_iff _ _).1 hmem
      exact false_ne_true (hpend.symm.trans (pending_eq_true.2 ⟨request, hreq, hid⟩))

/-- **A pending request is settled**, and is pending no more. -/
theorem Ledger.finish (h : Ledger s) (hpend : s.pending id = true) (settlement : Settlement) :
    Ledger ((s.remove id).settle id settlement) := by
  have hopen := h.settled_eq_false hpend
  obtain ⟨request, hreq, rfl⟩ := pending_eq_true.1 hpend
  have hid := h.pending_ids request hreq
  refine ⟨h.pos, fun other hmem => h.pending_ids other (mem_filter.1 hmem).1, ?_,
    h.nodup.sublist (filter_sublist.map _), ?_, ?_, ?_,
    h.listeners_nodup.sublist filter_sublist, h.queued_ids, h.sent_ids, h.queued_unsent,
    h.withdrawn_ids, h.withdrawn_unsent⟩
  · intro done hmem
    rcases mem_concat.1 hmem with hmem | rfl
    · exact h.settled_ids done hmem
    · exact hid
  · refine (map_append ▸ nodup_append.2 ⟨h.once, nodup_singleton _, ?_⟩)
    rintro id hmem id' hid' rfl
    rw [mem_singleton.1 hid'] at hmem
    exact false_ne_true (hopen.symm.trans (settled_eq_true.2 hmem))
  · intro id hmem
    rw [settled_settle]
    change ((s.remove request.id).pending id = true ↔
      (s.settled id || decide (request.id = id)) = false)
    rw [pending_remove]
    by_cases heq : request.id = id
    · simp [heq]
    · rw [decide_eq_true heq, Bool.and_true, decide_eq_false heq, Bool.or_false]
      exact h.pending_iff id hmem
  · intro signal id
    simp only [settle, remove, mem_filter, h.listening_iff, decide_eq_true_eq, ne_eq]
    constructor
    · rintro ⟨⟨other, hmem, hother, hsignal⟩, hne⟩
      exact ⟨other, ⟨hmem, hother ▸ hne⟩, hother, hsignal⟩
    · rintro ⟨other, ⟨hmem, hne⟩, hother, hsignal⟩
      exact ⟨⟨other, hmem, hother, hsignal⟩, hother ▸ hne⟩

theorem settled_rejectPendingRequests (reason : String) (id : ℕ) :
    (s.rejectPendingRequests reason).settled id = (s.settled id || s.pending id) := by
  simp only [settled, pending, rejectPendingRequests, any_append, any_map]
  rfl

/-- **The pending requests are rejected.** -/
theorem Ledger.reject (h : Ledger s) (reason : String) :
    Ledger (s.rejectPendingRequests reason) := by
  refine ⟨h.pos, fun _ hmem => absurd hmem not_mem_nil, ?_, nodup_nil, ?_, ?_, ?_,
    h.listeners_nodup.sublist filter_sublist, h.queued_ids, h.sent_ids, h.queued_unsent,
    h.withdrawn_ids, h.withdrawn_unsent⟩
  · intro done hmem
    rcases mem_append.1 hmem with hmem | hmem
    · exact h.settled_ids done hmem
    · obtain ⟨request, hreq, rfl⟩ := List.mem_map.1 hmem
      exact h.pending_ids request hreq
  · change ((s.settlements ++ s.pendingRequests.map fun request =>
      (request.id, Settlement.lost reason)).map Prod.fst).Nodup
    rw [map_append, map_map]
    refine nodup_append.2 ⟨h.once, h.nodup, ?_⟩
    rintro id hmem id' hid' rfl
    obtain ⟨request, hreq, hid⟩ := List.mem_map.1 hid'
    have hopen := h.settled_eq_false (pending_eq_true.2 ⟨request, hreq, hid⟩)
    exact false_ne_true (hopen.symm.trans (settled_eq_true.2 hmem))
  · intro id hmem
    rw [settled_rejectPendingRequests]
    refine iff_of_false false_ne_true fun hnone => ?_
    obtain ⟨hset, hpend⟩ := Bool.or_eq_false_iff.1 hnone
    exact false_ne_true (hpend.symm.trans ((h.pending_iff id hmem).2 hset))
  · intro signal id
    refine iff_of_false (fun hmem => ?_) (fun ⟨_, hmem, _⟩ => absurd hmem not_mem_nil)
    obtain ⟨hlistens, hgone⟩ := mem_filter.1 hmem
    obtain ⟨request, hreq, hid, -⟩ := (h.listening_iff signal id).1 hlistens
    rw [pending_eq_true.2 ⟨request, hreq, hid⟩] at hgone
    cases hgone

/-! ## Posts and flushes -/

/-- When a message that has a text is posted. -/
theorem postMessage_snd (s : IpcState) (hencodes : message.encodes = true) (takes : Bool) :
    (s.postMessage message takes).2 = if !s.directHost && s.queueing then
        s.protectedTransportFailure.isNone && s.protectedTransportQueue.length < 64
      else takes := by
  unfold postMessage
  by_cases hdirect : s.directHost = true
  · simp [hdirect]
  · by_cases hq : s.queueing = true
    · by_cases hfail : s.protectedTransportFailure.isSome = true
      · simp [hdirect, hq, hfail, isSome_iff_ne_none.1 hfail]
      · have hnone := not_isSome_iff_eq_none.1 hfail
        by_cases hfull : 64 ≤ s.protectedTransportQueue.length
        · simp [hdirect, hq, hnone, hfull]
        · simp [hdirect, hq, hnone, hfull, Nat.lt_of_not_le hfull]
    · cases takes <;> simp [hdirect, hq, hencodes]

/-- A post leaves the transport as it is, but for a place in the queue. -/
theorem postMessage_transport (s : IpcState) (message : WebViewRequest) (takes : Bool) :
    (s.postMessage message takes).1.directHost = s.directHost ∧
      (s.postMessage message takes).1.queueing = s.queueing ∧
      (s.postMessage message takes).1.protectedTransportFailure = s.protectedTransportFailure ∧
      (s.directHost = false → s.queueing = true → (s.postMessage message takes).2 = true →
        (s.postMessage message takes).1.protectedTransportQueue.length =
          s.protectedTransportQueue.length + 1) := by
  unfold postMessage
  by_cases hdirect : s.directHost = true
  · cases takes <;> simp [hdirect, queueing]
  · by_cases hq : s.queueing = true
    · by_cases hfail : s.protectedTransportFailure.isSome = true
      · simp [hdirect, hq, hfail]
      · by_cases hfull : 64 ≤ s.protectedTransportQueue.length
        · simp [hdirect, hq, hfail, hfull]
        · rw [if_neg hdirect, if_pos hq, if_neg hfail, if_neg hfull]
          exact ⟨rfl, rfl, rfl, fun _ _ _ => length_append⟩
    · by_cases hpost : (message.encodes && takes) = true
      · rw [if_neg hdirect, if_neg hq, if_pos hpost]
        exact ⟨rfl, rfl, rfl, fun _ h => absurd h hq⟩
      · rw [if_neg hdirect, if_neg hq, if_neg hpost]
        exact ⟨rfl, rfl, rfl, fun _ h => absurd h hq⟩

/-- What the loop of a flush posts and leaves was queued, and what it posts
is no request that is not pending. -/
theorem flushMessages_spec (s : IpcState) (messages : List WebViewRequest) (takes : ℕ → Bool) :
    (∀ message ∈ (s.flushMessages messages takes).1, message ∈ messages ∧ s.skips message = false) ∧
      ∀ message ∈ (s.flushMessages messages takes).2, message ∈ messages := by
  induction messages generalizing takes with
  | nil => exact ⟨fun _ h => absurd h not_mem_nil, fun _ h => absurd h not_mem_nil⟩
  | cons first messages ih =>
    obtain ⟨hposted, hleft⟩ := ih fun i => takes (i + 1)
    have hpost' := fun message hmem => And.imp_left (mem_cons_of_mem first) (hposted message hmem)
    have hleft' := fun message hmem => mem_cons_of_mem first (hleft message hmem)
    unfold flushMessages
    by_cases hskips : s.skips first = true
    · rw [if_pos hskips]
      exact ⟨hpost', hleft'⟩
    · by_cases hpost : (first.encodes && takes 0) = true
      · rw [if_neg hskips, if_pos hpost]
        refine ⟨fun message hmem => ?_, hleft'⟩
        rcases mem_cons.1 hmem with rfl | hmem
        · exact ⟨mem_cons_self, eq_false_iff.2 hskips⟩
        · exact hpost' message hmem
      · rw [if_neg hskips, if_neg hpost]
        exact ⟨fun _ h => absurd h not_mem_nil, fun _ h => h⟩

/-- A flush leaves the requests as they are. -/
theorem flush_same (s : IpcState) (takes : ℕ → Bool) :
    SameRequests s (s.flushProtectedTransportQueue takes).1 := by
  unfold flushProtectedTransportQueue
  split <;> exact ⟨rfl, rfl, rfl, rfl, rfl⟩

theorem unposted_subset (takes : ℕ → Bool) :
    ∀ message ∈ s.unposted takes, message ∈ s.protectedTransportQueue := by
  intro message hmem
  unfold unposted at hmem
  split at hmem
  · exact absurd hmem not_mem_nil
  · exact (s.flushMessages_spec _ _).2 message hmem

/-- What a flush makes due. -/
theorem due_flush (s : IpcState) (takes : ℕ → Bool) : (s.flushProtectedTransportQueue takes).1.due =
      s.due ++ (s.unposted takes).filterMap requestId := by
  unfold flushProtectedTransportQueue
  split
  · next h => rw [unposted, if_pos h, filterMap_nil, append_nil]
  · rfl

/-- **A flush posts only what is pending.** -/
theorem Inv.flush_ledger (h : s.Inv) (takes : ℕ → Bool) :
    Ledger (s.flushProtectedTransportQueue takes).1 := by
  refine h.toLedger.of_same (s.flush_same takes) ?_ ?_
  · unfold flushProtectedTransportQueue
    split
    · exact fun message hmem id hid =>
        ⟨h.queued_ids message hmem id hid, h.queued_unsent message hmem id hid⟩
    · exact fun _ hmem => absurd hmem not_mem_nil
  · have hold : ∀ message ∈ s.sent, ∀ id ∈ message.requestId, id ∈ s.ids ∧ id ∉ s.withdrawn :=
      fun message hmem id hid => ⟨h.sent_ids message hmem id hid,
        fun hwith => h.withdrawn_unsent id hwith message hmem hid⟩
    unfold flushProtectedTransportQueue
    split
    · exact hold
    · intro message hmem id hid
      rcases mem_append.1 hmem with hmem | hmem
      · exact hold message hmem id hid
      · obtain ⟨hqd, hskips⟩ := (s.flushMessages_spec _ _).1 message hmem
        rw [skips, hid, any_some, Bool.not_eq_false'] at hskips
        refine ⟨h.queued_ids message hqd id hid, fun hwith => ?_⟩
        exact false_ne_true ((h.withdrawn_pending id hwith).symm.trans hskips)

/-- What is not pending is settled. -/
theorem Ledger.settled_of_not_pending (h : Ledger s) (hid : id ∈ s.ids)
    (hpend : s.pending id = false) : s.settled id = true := by
  by_contra hopen
  have hp := (h.pending_iff id hid).2 (eq_false_iff.2 hopen)
  exact false_ne_true (hpend.symm.trans hp)

/-- The requests that are left of a flush were given their ids. -/
theorem Inv.unposted_ids (h : s.Inv) (takes : ℕ → Bool) {id : ℕ}
    (hid : id ∈ (s.unposted takes).filterMap requestId) : id ∈ s.ids := by
  obtain ⟨message, hmem, hreq⟩ := mem_filterMap.1 hid
  exact h.queued_ids message (unposted_subset takes message hmem) id hreq

/-- **A flush that leaves nothing pending unposted.** -/
theorem Inv.flush (h : s.Inv) {takes : ℕ → Bool} (hnone : s.NonePending (s.unposted takes)) :
    (s.flushProtectedTransportQueue takes).1.Inv where
  toLedger := h.flush_ledger takes
  due id hid := by
    have hsame := s.flush_same takes
    rw [hsame.ids, hsame.settled]
    rw [due_flush] at hid
    rcases mem_append.1 hid with hid | hid
    · exact h.due id hid
    · have hmem := h.unposted_ids takes hid
      obtain ⟨message, hleft, hreq⟩ := mem_filterMap.1 hid
      exact ⟨hmem, h.settled_of_not_pending hmem (hnone message hleft id hreq)⟩
  withdrawn_pending id hid := by
    have hsame := s.flush_same takes
    rw [hsame.pending]
    exact h.withdrawn_pending id (hsame.withdrawn ▸ hid)

/-! ## Aborts -/

variable {reason : String}

/-- The listener of a request that is pending, whose cancellation is
posted. -/
theorem abortRequest_of_posted (hpend : s.pending id = true)
    (hpost : (s.postMessage (.cancel id reason) takes).2 = true) :
    s.abortRequest id reason takes =
      (((s.postMessage (.cancel id reason) takes).1.remove id).settle id .aborted) := by
  unfold abortRequest
  rw [if_pos hpend, postMessage_remove, hpost]

/-- The same, where it is refused. -/
theorem abortRequest_of_refused (hpend : s.pending id = true)
    (hrefused : (s.postMessage (.cancel id reason) takes).2 = false) :
    s.abortRequest id reason takes = (s.postMessage (.cancel id reason) takes).1.remove id := by
  unfold abortRequest
  rw [if_pos hpend, postMessage_remove, hrefused]

/-- A message that carries no request. -/
theorem unposted_of_none (h : message.requestId = none) : s.Unposted message := by
  intro id hid
  rw [h] at hid
  cases hid

variable {ids : List ℕ}

/-- Where the rest can be posted after a cancellation, if it was. -/
theorem cancelsPost_cons {takes : ℕ → Bool} : s.CancelsPost (id :: ids) takes ↔
      (s.postMessage (.cancel id reason) (takes id)).2 = true ∧
        ((s.postMessage (.cancel id reason) (takes id)).1).CancelsPost ids takes := by
  obtain ⟨hdirect, hqueueing, hfail, hlen⟩ :=
    postMessage_transport s (.cancel id reason) (takes id)
  unfold CancelsPost
  rw [hdirect, hqueueing, hfail, postMessage_snd s rfl]
  by_cases hqueues : (!s.directHost && s.queueing) = true
  · rw [if_pos hqueues, if_pos hqueues, if_pos hqueues]
    obtain ⟨hnot, hq⟩ := Bool.and_eq_true_iff.1 hqueues
    rw [postMessage_snd s rfl, if_pos hqueues] at hlen
    simp only [length_cons, reduceCtorEq, false_or, Bool.and_eq_true, decide_eq_true_eq,
      isNone_iff_eq_none]
    constructor
    · rintro ⟨hnone, hroom⟩
      have hlt : s.protectedTransportQueue.length < 64 := by omega
      have hnext := hlen (by simpa using hnot) hq (by simp [hnone, hlt])
      exact ⟨⟨hnone, hlt⟩, .inr ⟨hnone, by omega⟩⟩
    · rintro ⟨⟨hnone, hlt⟩, hrest⟩
      have hnext := hlen (by simpa using hnot) hq (by simp [hnone, hlt])
      refine ⟨hnone, ?_⟩
      rcases hrest with rfl | ⟨-, hroom⟩
      · rw [length_nil]
        omega
      · omega
  · rw [if_neg hqueues, if_neg hqueues, if_neg hqueues]
    exact forall_mem_cons

/-- The removal of a request does not concern the transport. -/
theorem cancelsPost_finish {takes : ℕ → Bool} {settle : Settlement} :
    ((s.remove id).settle id settle).CancelsPost ids takes ↔ s.CancelsPost ids takes := Iff.rfl

/-- What a listener leaves of the other requests. -/
theorem abortRequest_others (s : IpcState) (id : ℕ) (reason : String) (takes : Bool) {other : ℕ}
    (hne : other ≠ id) : (s.abortRequest id reason takes).pending other = s.pending other ∧
      (s.abortRequest id reason takes).settled other = s.settled other := by
  have hsame := (postMessage_spec s (.cancel id reason) takes).1
  unfold abortRequest
  by_cases hpend : s.pending id = true
  · rw [if_pos hpend, postMessage_remove]
    cases (s.postMessage (.cancel id reason) takes).2 with
    | true =>
      refine ⟨?_, ?_⟩
      · change (((s.postMessage (.cancel id reason) takes).1.remove id).pending other = _)
        rw [pending_remove, hsame.pending, decide_eq_true hne.symm, Bool.and_true]
      · rw [settled_settle]
        change ((s.postMessage (.cancel id reason) takes).1.settled other || _) = _
        rw [hsame.settled, decide_eq_false (Ne.symm hne), Bool.or_false]
    | false =>
      refine ⟨?_, hsame.settled other⟩
      rw [pending_remove, hsame.pending, decide_eq_true hne.symm, Bool.and_true]
  · rw [if_neg hpend]
    exact ⟨rfl, rfl⟩

/-- A request that is neither pending nor settled stays so. -/
theorem abortRequests_lost {takes : ℕ → Bool} (hpend : s.pending id = false)
    (hset : s.settled id = false) :
    (abortRequests reason takes ids s).settled id = false := by
  induction ids generalizing s with
  | nil => exact hset
  | cons other ids ih =>
    by_cases heq : id = other
    · subst heq
      have hsame : s.abortRequest id reason (takes id) = s := by
        rw [abortRequest, if_neg (eq_false_iff.1 hpend)]
      rw [abortRequests, hsame]
      exact ih hpend hset
    · obtain ⟨hp, hs⟩ := s.abortRequest_others other reason (takes other) heq
      exact ih (hp.trans hpend) (hs.trans hset)

/-- The listeners make nothing due. -/
theorem due_abortRequests (ids : List ℕ) (reason : String) (takes : ℕ → Bool) (s : IpcState) :
    (abortRequests reason takes ids s).due = s.due := by
  induction ids generalizing s with
  | nil => rfl
  | cons id ids ih =>
    rw [abortRequests, ih, abortRequest]
    split
    · have hdue := (postMessage_spec (s.remove id) (.cancel id reason) (takes id)).2.1
      split
      all_goals next t heq => exact (congrArg (fun x => x.1.due) heq).symm.trans hdue
    · rfl

/-- **The listeners of a signal, whose cancellations can be posted.** By
induction on them. -/
theorem abortRequests_spec (reason : String) {takes : ℕ → Bool} (h : Ledger s)
    (hids : ids.Nodup) (hpend : ∀ id ∈ ids, s.pending id = true)
    (hposts : s.CancelsPost ids takes) :
    Ledger (abortRequests reason takes ids s) ∧
      (∀ id ∈ ids, (abortRequests reason takes ids s).settled id = true) ∧
      (∀ id, s.settled id = true → (abortRequests reason takes ids s).settled id = true) ∧
      (∀ id, s.pending id = false → (abortRequests reason takes ids s).pending id = false) ∧
      (abortRequests reason takes ids s).withdrawn = s.withdrawn ∧
      (abortRequests reason takes ids s).nextId = s.nextId := by
  induction ids generalizing s with
  | nil => exact ⟨h, fun _ hmem => absurd hmem not_mem_nil, fun _ h => h, fun _ h => h, rfl, rfl⟩
  | cons id ids ih =>
    obtain ⟨hfst, hrest⟩ := nodup_cons.1 hids
    have hp := hpend id mem_cons_self
    obtain ⟨hpost, hposts⟩ := cancelsPost_cons.1 hposts
    have hsame := (postMessage_spec s (.cancel id reason) (takes id)).1
    have hst := abortRequest_of_posted hp hpost
    have hledger : Ledger (s.abortRequest id reason (takes id)) := by
      rw [hst]
      exact (h.post (unposted_of_none rfl) _).finish (hsame.pending id ▸ hp) _
    have hpend' : ∀ other ∈ ids, (s.abortRequest id reason (takes id)).pending other = true := by
      intro other hmem
      have hne : other ≠ id := fun heq => hfst (heq ▸ hmem)
      rw [(s.abortRequest_others id reason (takes id) hne).1]
      exact hpend other (mem_cons_of_mem _ hmem)
    have hposts' : (s.abortRequest id reason (takes id)).CancelsPost ids takes := by
      rw [hst]
      exact cancelsPost_finish.2 hposts
    have hset : (s.abortRequest id reason (takes id)).settled id = true := by
      rw [hst, settled_settle, decide_eq_true rfl, Bool.or_true]
    obtain ⟨h₁, h₂, h₃, h₄, h₅, h₆⟩ := ih hledger hrest hpend' hposts'
    refine ⟨h₁, fun other hmem => ?_, fun other hother => ?_, fun other hother => ?_, ?_, ?_⟩
    · rcases mem_cons.1 hmem with rfl | hmem
      · exact h₃ _ hset
      · exact h₂ other hmem
    · refine h₃ other ?_
      rw [hst, settled_settle]
      change ((s.postMessage (.cancel id reason) (takes id)).1.settled other || _) = true
      rw [hsame.settled, hother, Bool.true_or]
    · refine h₄ other ?_
      have hne : other ≠ id := fun heq => false_ne_true (hother.symm.trans (heq ▸ hp))
      rw [(s.abortRequest_others id reason (takes id) hne).1, hother]
    · rw [abortRequests, h₅, hst]
      exact hsame.withdrawn
    · rw [abortRequests, h₆, hst]
      exact hsame.nextId

/-- **When every listener has settled its request, every cancellation was
posted.** By induction on them: one that was refused leaves its request
lost. -/
theorem cancelsPost_of_settled (reason : String) {takes : ℕ → Bool}
    (hids : ids.Nodup) (hpend : ∀ id ∈ ids, s.pending id = true)
    (hopen : ∀ id ∈ ids, s.settled id = false)
    (hall : ∀ id ∈ ids, (abortRequests reason takes ids s).settled id = true) :
    s.CancelsPost ids takes := by
  induction ids generalizing s with
  | nil =>
    unfold CancelsPost
    split
    · exact .inl rfl
    · exact fun _ hmem => absurd hmem not_mem_nil
  | cons id ids ih =>
    obtain ⟨hfst, hrest⟩ := nodup_cons.1 hids
    have hp := hpend id mem_cons_self
    have hsame := (postMessage_spec s (.cancel id reason) (takes id)).1
    have hothers : ∀ other ∈ ids, other ≠ id := fun other hmem heq => hfst (heq ▸ hmem)
    have hpost : (s.postMessage (.cancel id reason) (takes id)).2 = true := by
      by_contra hrefused
      have hst := abortRequest_of_refused hp (eq_false_iff.2 hrefused)
      have hlost : (abortRequests reason takes ids (s.abortRequest id reason (takes id))).settled id
          = false := by
        refine abortRequests_lost ?_ ?_
        · rw [hst, pending_remove, decide_eq_false (not_not.2 rfl), Bool.and_false]
        · rw [hst]
          exact (hsame.settled id).trans (hopen id mem_cons_self)
      exact false_ne_true (hlost.symm.trans (hall id mem_cons_self))
    refine cancelsPost_cons.2 ⟨hpost, ?_⟩
    have hst := abortRequest_of_posted hp hpost
    have hposts := ih hrest (fun other hmem => by
        rw [(s.abortRequest_others id reason (takes id) (hothers other hmem)).1]
        exact hpend other (mem_cons_of_mem _ hmem))
      (fun other hmem => by
        rw [(s.abortRequest_others id reason (takes id) (hothers other hmem)).2]
        exact hopen other (mem_cons_of_mem _ hmem))
      fun other hmem => hall other (mem_cons_of_mem _ hmem)
    rw [hst] at hposts
    exact cancelsPost_finish.1 hposts

/-- The requests that listen on a signal are pending, each once. -/
theorem Ledger.listening (h : Ledger s) (signal : ℕ) :
    ∀ id ∈ s.listening signal, s.pending id = true := by
  intro id hid
  obtain ⟨listener, hmem, rfl⟩ := List.mem_map.1 hid
  obtain ⟨hlistener, hsignal⟩ := mem_filter.1 hmem
  obtain ⟨request, hreq, hid, -⟩ := (h.listening_iff _ _).1 hlistener
  exact pending_eq_true.2 ⟨request, hreq, hid⟩

theorem Ledger.listening_nodup (h : Ledger s) (signal : ℕ) : (s.listening signal).Nodup := by
  refine List.Nodup.map_on ?_ (h.listeners_nodup.sublist filter_sublist)
  intro listener hmem listener' hmem' hid
  have hsignal := of_decide_eq_true (mem_filter.1 hmem).2
  have hsignal' := of_decide_eq_true (mem_filter.1 hmem').2
  exact Prod.ext (hsignal.trans hsignal'.symm) hid

/-- The state in which the listeners of a signal are called. -/
def marked (s : IpcState) (signal : ℕ) : IpcState :=
  { s with
    aborted := signal :: s.aborted
    due := s.due ++ s.listening signal
    withdrawn := s.withdrawn ++ (s.listening signal).filter s.queued }

/-- A signal that is marked keeps the ledger. -/
theorem Ledger.mark (h : Ledger s) (signal : ℕ) : Ledger (s.marked signal) :=
  { h with
    withdrawn_ids := by
      intro id hid
      rcases mem_append.1 hid with hid | hid
      · exact h.withdrawn_ids id hid
      · obtain ⟨request, hmem, rfl⟩ :=
          pending_eq_true.1 (h.listening signal id (mem_filter.1 hid).1)
        exact h.pending_ids request hmem
    withdrawn_unsent := by
      intro id hid
      rcases mem_append.1 hid with hid | hid
      · exact h.withdrawn_unsent id hid
      · obtain ⟨message, hmem, hreq⟩ := any_eq_true.1 (mem_filter.1 hid).2
        exact h.queued_unsent message hmem id (of_decide_eq_true hreq) }

/-- **An abort whose cancellations can be posted.** -/
theorem Inv.abort (h : s.Inv) {signal : ℕ} {takes : ℕ → Bool}
    (hposts : s.CancelsPost (s.listening signal) takes) (reason : String) :
    (s.abort signal reason takes).Inv := by
  obtain ⟨hledger, hall, hset, hpend, hwith, hnextId⟩ :=
    abortRequests_spec reason (h.mark signal) (h.listening_nodup signal) (h.listening signal) hposts
  have hids : (s.abort signal reason takes).ids = s.ids := by
    exact congrArg (fun n => range' 1 (n - 1)) hnextId
  refine ⟨hledger, fun id hid => ?_, fun id hid => ?_⟩
  · rw [IpcState.abort, due_abortRequests] at hid
    rw [hids]
    rcases mem_append.1 hid with hid | hid
    · exact ⟨(h.due id hid).1, hset id (h.due id hid).2⟩
    · obtain ⟨request, hmem, rfl⟩ := pending_eq_true.1 (h.listening signal id hid)
      exact ⟨h.pending_ids request hmem, hall _ hid⟩
  · replace hid : id ∈ (s.marked signal).withdrawn := hwith ▸ hid
    rcases mem_append.1 hid with hid | hid
    · exact hpend id (h.withdrawn_pending id hid)
    · exact hledger.pending_eq_false (hall id (mem_filter.1 hid).1)

/-- **An abort that settles its requests could post their cancellations.** -/
theorem Inv.cancelsPost (h : s.Inv) {signal : ℕ} {takes : ℕ → Bool}
    (hdue : ∀ id ∈ (s.abort signal reason takes).due,
      (s.abort signal reason takes).settled id = true) :
    s.CancelsPost (s.listening signal) takes := by
  refine cancelsPost_of_settled (s := s.marked signal) reason
    (h.listening_nodup signal) (h.listening signal)
    (fun id hid => h.settled_eq_false (h.listening signal id hid)) fun id hid => hdue id ?_
  rw [IpcState.abort, due_abortRequests]
  exact mem_append_right _ hid

/-! ## The other steps -/

/-- Other flags, and perhaps less in the queue. -/
theorem Inv.of_flags (h : s.Inv) (hsame : SameRequests s t) (hdue : t.due = s.due)
    (hq : t.protectedTransportQueue ⊆ s.protectedTransportQueue) (hsent : t.sent = s.sent) :
    t.Inv where
  toLedger := by
    refine h.toLedger.of_same hsame ?_ ?_
    · rw [hsent]
      exact fun message hmem id hid =>
        ⟨h.queued_ids message (hq hmem) id hid, h.queued_unsent message (hq hmem) id hid⟩
    · rw [hsent]
      exact fun message hmem id hid => ⟨h.sent_ids message hmem id hid,
        fun hwith => h.withdrawn_unsent id hwith message hmem hid⟩
  due id hid := by
    rw [hsame.ids, hsame.settled]
    exact h.due id (hdue ▸ hid)
  withdrawn_pending id hid := by
    rw [hsame.pending]
    exact h.withdrawn_pending id (hsame.withdrawn ▸ hid)

/-- A post of another message than a request. -/
theorem Inv.post (h : s.Inv) (hmsg : s.Unposted message) (takes : Bool) :
    (s.postMessage message takes).1.Inv where
  toLedger := h.toLedger.post hmsg takes
  due id hid := by
    obtain ⟨hsame, hdue, -⟩ := postMessage_spec s message takes
    rw [hsame.ids, hsame.settled]
    exact h.due id (hdue ▸ hid)
  withdrawn_pending id hid := by
    have hsame := (postMessage_spec s message takes).1
    rw [hsame.pending]
    exact h.withdrawn_pending id (hsame.withdrawn ▸ hid)

/-- A request that is refused at once. -/
theorem Inv.refuse (h : s.Inv) (settlement : Settlement) :
    (settle { s with nextId := s.nextId + 1 } s.nextId settlement).Inv where
  toLedger := h.toLedger.refuse settlement
  due id hid := by
    rw [settled_settle]
    refine ⟨(ids_subset_succ h.pos rfl).2 (.inl (h.due id hid).1), ?_⟩
    rw [show settled { s with nextId := s.nextId + 1 } id = true from (h.due id hid).2,
      Bool.true_or]
  withdrawn_pending := h.withdrawn_pending

/-- A request that is pending. -/
theorem Inv.issue (h : s.Inv) (method : String) (signal : Option ℕ) :
    (s.issued method signal).Inv where
  toLedger := h.toLedger.issue method signal
  due id hid := ⟨(ids_subset_succ h.pos rfl).2 (.inl (h.due id hid).1), (h.due id hid).2⟩
  withdrawn_pending id hid := by
    have hne : s.nextId ≠ id := fun heq => h.next_new.2.2.1 (heq ▸ hid)
    rw [pending_issued, h.withdrawn_pending id hid, decide_eq_false hne, Bool.or_false]

/-- **A pending request is settled.** -/
theorem Inv.finish (h : s.Inv) (hpend : s.pending id = true) (settle : Settlement) :
    ((s.remove id).settle id settle).Inv where
  toLedger := h.toLedger.finish hpend settle
  due other hid := by
    rw [settled_settle]
    refine ⟨(h.due other hid).1, ?_⟩
    rw [show (s.remove id).settled other = true from (h.due other hid).2, Bool.true_or]
  withdrawn_pending other hid := by
    change (s.remove id).pending other = false
    rw [pending_remove, h.withdrawn_pending other hid, Bool.false_and]

/-- After a loss every request is settled. -/
theorem Ledger.settled_reject (h : Ledger s) (reason : String) (hid : id ∈ s.ids) :
    (s.rejectPendingRequests reason).settled id = true := by
  rw [settled_rejectPendingRequests]
  cases hpend : s.pending id with
  | true => exact Bool.or_true _
  | false => rw [h.settled_of_not_pending hid hpend, Bool.true_or]

/-- **The pending requests are rejected.** -/
theorem Inv.reject (h : s.Inv) (reason : String) : (s.rejectPendingRequests reason).Inv where
  toLedger := h.toLedger.reject reason
  due id hid := by
    rw [settled_rejectPendingRequests]
    exact ⟨(h.due id hid).1, by rw [(h.due id hid).2, Bool.true_or]⟩
  withdrawn_pending _ _ := rfl

/-- More is due, that is settled. -/
theorem Inv.more (h : s.Inv) {due : List ℕ} (hdue : ∀ id ∈ due, id ∈ s.ids ∧ s.settled id = true) :
    ({ s with due := s.due ++ due } : IpcState).Inv :=
  { h with
    toLedger := { h.toLedger with }
    due := by
      intro id hid
      rcases mem_append.1 hid with hid | hid
      · exact h.due id hid
      · exact hdue id hid }

/-- **A request.** -/
theorem Inv.requestIpc (h : s.Inv) (method : String) (encodes : Bool) (signal : Option ℕ)
    (takes : Bool) : (s.requestIpc method encodes signal takes).Inv := by
  unfold IpcState.requestIpc
  dsimp only
  split
  · exact h.refuse _
  · split
    · exact h.refuse _
    · obtain ⟨-, -, hwith, hqd, hsent⟩ := h.next_new
      have hnew : (s.issued method signal).Unposted (.request s.nextId method encodes) := by
        intro id hid
        cases hid
        exact ⟨(ids_subset_succ h.pos rfl).2 (.inr rfl), hwith, hqd, hsent⟩
      have hpost := (h.issue method signal).post hnew takes
      have hsame := (postMessage_spec (s.issued method signal)
        (.request s.nextId method encodes) takes).1
      have hpend : ((s.issued method signal).postMessage (.request s.nextId method encodes)
          takes).1.pending s.nextId = true := by
        rw [hsame.pending, pending_issued, decide_eq_true rfl, Bool.or_true]
      unfold issued at hpost hpend
      split
      · next t heq =>
        rw [heq] at hpost
        exact hpost
      · next t heq =>
        rw [heq] at hpost hpend
        exact hpost.finish hpend _

/-- **A message that is read settles what it names.** -/
theorem Inv.receive (h : s.Inv) (message : NativeMessage) :
    (s.receive message).Inv ∧ (s.receive message).ids = s.ids ∧
      ∀ id ∈ s.settles message, (s.receive message).settled id = true := by
  have hans : ∀ id settle, (s.answer id settle).Inv ∧ (s.answer id settle).ids = s.ids ∧
      ∀ other ∈ s.ids.filter (· = id), (s.answer id settle).settled other = true := by
    intro id settle
    unfold answer
    split
    · next hpend =>
      refine ⟨h.finish hpend settle, rfl, fun other hmem => ?_⟩
      rw [settled_settle, of_decide_eq_true (mem_filter.1 hmem).2, decide_eq_true rfl, Bool.or_true]
    · next hpend =>
      refine ⟨h, rfl, fun other hmem => ?_⟩
      obtain ⟨hid, heq⟩ := mem_filter.1 hmem
      rw [of_decide_eq_true heq] at hid ⊢
      exact h.settled_of_not_pending hid (eq_false_iff.2 hpend)
  have hlost : ∀ reason, (s.rejectPendingRequests reason).Inv ∧
      (s.rejectPendingRequests reason).ids = s.ids ∧
      ∀ id ∈ s.ids, (s.rejectPendingRequests reason).settled id = true := fun reason =>
    ⟨h.reject reason, rfl, fun id hid => h.settled_reject reason hid⟩
  have hnothing : s.Inv ∧ s.ids = s.ids ∧ ∀ id ∈ ([] : List ℕ), s.settled id = true :=
    ⟨h, rfl, fun _ hmem => absurd hmem not_mem_nil⟩
  cases message with
  | event | lifecycle => exact hnothing
  | status status =>
    cases status with
    | closed | error => exact hlost _
    | _ => exact hnothing
  | response id =>
    cases id with
    | request id => exact hans id _
    | _ => exact hnothing
  | error id message =>
    cases id with
    | request id => exact hans id _
    | foreign => exact hlost _
    | prefixed => exact hnothing

/-! ## Messages of the host -/

/-- The state in which the messages that waited are flushed. -/
def legacy (s : IpcState) : IpcState := { s with legacyTransportEstablished := true }

theorem Inv.legacy (h : s.Inv) : s.legacy.Inv :=
  h.of_flags ⟨rfl, rfl, rfl, rfl, rfl⟩ rfl (List.Subset.refl _) rfl

/-- A message is read once its flush leaves nothing. -/
theorem handleNativeMessage_eq (message : NativeMessage) (takes : ℕ → Bool) :
    s.handleNativeMessage message takes = if s.establishesLegacy then
      if (s.legacy.flushProtectedTransportQueue takes).2 then
        (s.legacy.flushProtectedTransportQueue takes).1.receive message
      else (s.legacy.flushProtectedTransportQueue takes).1
    else s.receive message := by
  unfold handleNativeMessage legacy
  rcases flushProtectedTransportQueue { s with legacyTransportEstablished := true } takes with
    ⟨t, _ | _⟩ <;> rfl

variable {message : NativeMessage}

/-- A message that is read, after a flush or without one. -/
theorem handleNativeMessage_of_nil {takes : ℕ → Bool}
    (hnil : s.unpostedBy takes = []) : s.handleNativeMessage message takes =
      (if s.establishesLegacy then (s.legacy.flushProtectedTransportQueue takes).1 else s).receive
        message := by
  rw [handleNativeMessage_eq]
  unfold unpostedBy at hnil
  split
  · next hlegacy =>
    rw [if_pos hlegacy] at hnil
    rw [if_pos]
    exact isEmpty_iff.2 hnil
  · rfl

/-- A message that is not read: its flush has stopped. -/
theorem handleNativeMessage_of_cons (message : NativeMessage) {takes : ℕ → Bool}
    (hleft : s.unpostedBy takes ≠ []) : s.unpostedBy takes = s.legacy.unposted takes ∧
      s.handleNativeMessage message takes = (s.legacy.flushProtectedTransportQueue takes).1 := by
  unfold unpostedBy at hleft ⊢
  split at hleft
  · next hlegacy =>
    rw [if_pos hlegacy]
    refine ⟨rfl, ?_⟩
    rw [handleNativeMessage_eq, if_pos hlegacy, if_neg]
    exact fun hnil => hleft (isEmpty_iff.1 hnil)
  · exact absurd rfl hleft

/-- The requests, after a flush or without one. -/
theorem Inv.flushed (h : s.Inv) {takes : ℕ → Bool} (hnil : s.unpostedBy takes = []) :
    SameRequests s (if s.establishesLegacy then (s.legacy.flushProtectedTransportQueue takes).1
      else s) ∧
      Inv (if s.establishesLegacy then (s.legacy.flushProtectedTransportQueue takes).1 else s) := by
  unfold unpostedBy at hnil
  split
  · next hlegacy =>
    rw [if_pos hlegacy] at hnil
    have hsame := s.legacy.flush_same takes
    refine ⟨{ hsame with }, h.legacy.flush fun message hmem => ?_⟩
    rw [show s.legacy.unposted takes = [] from hnil] at hmem
    exact absurd hmem not_mem_nil
  · exact ⟨⟨rfl, rfl, rfl, rfl, rfl⟩, h⟩

theorem SameRequests.settles (h : SameRequests s t) (message : NativeMessage) :
    t.settles message = s.settles message := by
  unfold IpcState.settles
  rw [h.ids]

/-- A message settles only what was requested. -/
theorem settles_subset (message : NativeMessage) : ∀ id ∈ s.settles message, id ∈ s.ids := by
  intro id hid
  unfold settles at hid
  split at hid
  · exact hid
  · exact hid
  · exact hid
  · exact (mem_filter.1 hid).1
  · exact (mem_filter.1 hid).1
  · exact absurd hid not_mem_nil

/-- **A message that leaves nothing pending unposted, or is read.** -/
theorem Inv.handle (h : s.Inv) {takes : ℕ → Bool}
    (hunhindered : s.unpostedBy takes = [] ∨ s.NonePending (s.unpostedBy takes) ∧
      ∀ id ∈ s.settles message, s.pending id = false) :
    ({ s.handleNativeMessage message takes with
      due := (s.handleNativeMessage message takes).due ++ s.settles message } : IpcState).Inv := by
  by_cases hnil : s.unpostedBy takes = []
  · obtain ⟨hsame, hinv⟩ := h.flushed hnil
    rw [handleNativeMessage_of_nil hnil]
    obtain ⟨hinv', hids, hsettles⟩ := hinv.receive message
    refine hinv'.more fun id hid => ⟨?_, hsettles id (hsame.settles message ▸ hid)⟩
    rw [hids, hsame.ids]
    exact settles_subset message id hid
  · obtain ⟨hnone, hsettles⟩ := hunhindered.resolve_left hnil
    obtain ⟨hleft, hst⟩ := handleNativeMessage_of_cons message hnil
    rw [hleft] at hnone
    rw [hst]
    have hsame := s.legacy.flush_same takes
    refine (h.legacy.flush hnone).more fun id hid => ?_
    have hmem := settles_subset message id hid
    exact ⟨hmem, h.settled_of_not_pending hmem (hsettles id hid)⟩

/-- **A message after which what is due is settled** leaves nothing pending
unposted, or is read. -/
theorem Inv.unhindered_of_due (h : s.Inv) {takes : ℕ → Bool}
    (hdue : ∀ id ∈ (s.handleNativeMessage message takes).due ++ s.settles message,
      (s.handleNativeMessage message takes).settled id = true) :
    s.unpostedBy takes = [] ∨ s.NonePending (s.unpostedBy takes) ∧
      ∀ id ∈ s.settles message, s.pending id = false := by
  by_cases hnil : s.unpostedBy takes = []
  · exact .inl hnil
  · obtain ⟨hleft, hst⟩ := handleNativeMessage_of_cons message hnil
    rw [hst, due_flush] at hdue
    have hsame := s.legacy.flush_same takes
    have hset : ∀ id, id ∈ (s.legacy.unposted takes).filterMap requestId ∨
        id ∈ s.settles message → s.pending id = false := by
      intro id hid
      refine h.pending_eq_false ?_
      have hdone := hdue id (hid.elim (fun hmem => mem_append_left _ (mem_append_right _ hmem))
        fun hmem => mem_append_right _ hmem)
      exact (hsame.settled id).symm.trans hdone
    rw [hleft]
    exact .inr ⟨fun posted hmem id hid =>
      hset id (.inl (mem_filterMap.2 ⟨posted, hmem, hid⟩)),
      fun id hid => hset id (.inr hid)⟩

/-! ## What settles a request -/

variable {a : IpcAction}

theorem caused_of_same (hsame : t.settlements = s.settlements) : s.Caused a t :=
  ⟨[], by rw [hsame, append_nil], fun _ hmem => absurd hmem not_mem_nil⟩

theorem caused_of_settle {settlement : Settlement} (hsame : t.settlements = s.settlements)
    (hcause : s.Cause a id settlement) : s.Caused a (t.settle id settlement) := by
  refine ⟨[(id, settlement)], by rw [settle, hsame], fun done hmem => ?_⟩
  rw [mem_singleton.1 hmem]
  exact hcause

/-- The listeners of a signal settle their requests by the abort. By
induction on them. -/
theorem settlements_abortRequests (ids : List ℕ) (reason : String) (takes : ℕ → Bool)
    (s : IpcState) : ∃ new, (abortRequests reason takes ids s).settlements = s.settlements ++ new ∧
      ∀ done ∈ new, done.1 ∈ ids ∧ done.2 = .aborted := by
  induction ids generalizing s with
  | nil => exact ⟨[], (append_nil _).symm, fun _ hmem => absurd hmem not_mem_nil⟩
  | cons id ids ih =>
    obtain ⟨rest, heq, hrest⟩ := ih (s.abortRequest id reason (takes id))
    have hfirst : ∃ new, (s.abortRequest id reason (takes id)).settlements = s.settlements ++ new ∧
        ∀ done ∈ new, done = (id, .aborted) := by
      have hsame := (postMessage_spec s (.cancel id reason) (takes id)).1.settlements
      cases hpend : s.pending id with
      | false =>
        rw [abortRequest, if_neg (eq_false_iff.1 hpend)]
        exact ⟨[], (append_nil _).symm, fun _ hmem => absurd hmem not_mem_nil⟩
      | true =>
        cases hpost : (s.postMessage (.cancel id reason) (takes id)).2 with
        | true =>
          rw [abortRequest_of_posted hpend hpost]
          refine ⟨[(id, .aborted)], ?_, fun _ hmem => mem_singleton.1 hmem⟩
          rw [settle, remove, hsame]
        | false =>
          rw [abortRequest_of_refused hpend hpost]
          exact ⟨[], by rw [remove, hsame, append_nil], fun _ hmem => absurd hmem not_mem_nil⟩
    obtain ⟨new, hnew, hcause⟩ := hfirst
    refine ⟨new ++ rest, by rw [abortRequests, heq, hnew, append_assoc], fun done hmem => ?_⟩
    rcases mem_append.1 hmem with hmem | hmem
    · rw [hcause done hmem]
      exact ⟨mem_cons_self, rfl⟩
    · exact ⟨mem_cons_of_mem _ (hrest done hmem).1, (hrest done hmem).2⟩

/-- Whether a post succeeds does not depend on a request that is new. -/
theorem postMessage_issued (method : String) (signal : Option ℕ) (message : WebViewRequest) :
    ((s.issued method signal).postMessage message takes).2 = (s.postMessage message takes).2 := by
  have hqueueing : (s.issued method signal).queueing = s.queueing := rfl
  simp only [postMessage, hqueueing, apply_ite Prod.snd]
  rfl

/-- A request that is made is settled at once only where it is refused, its
signal is aborted or its post fails. -/
theorem caused_requestIpc (method : String) (encodes : Bool) (signal : Option ℕ) :
    s.Caused (.request method encodes signal takes) (s.requestIpc method encodes signal takes) := by
  unfold IpcState.requestIpc
  dsimp only
  split
  · next hfull => exact caused_of_settle rfl ⟨rfl, hfull⟩
  split
  · next haborted => exact caused_of_settle rfl ⟨rfl, haborted⟩
  have hsame := (postMessage_spec (s.issued method signal)
    (.request s.nextId method encodes) takes).1
  have hposts : ((s.issued method signal).postMessage (.request s.nextId method encodes) takes).2 =
      (s.postMessage (.request s.nextId method encodes) takes).2 :=
    postMessage_issued method signal _
  unfold issued at hsame hposts
  split
  · next t heq =>
    rw [heq] at hsame
    exact caused_of_same hsame.settlements
  · next t heq =>
    rw [heq] at hsame hposts
    exact caused_of_settle hsame.settlements ⟨rfl, hposts.symm⟩

/-- A message that is read settles by what it says. -/
theorem caused_receive (message : NativeMessage) (takes : ℕ → Bool)
    (hsame : t.settlements = s.settlements) :
    s.Caused (.message message takes) (t.receive message) := by
  have hans : ∀ id settlement, s.Cause (.message message takes) id settlement →
      s.Caused (.message message takes) (t.answer id settlement) := by
    intro id settlement hcause
    unfold answer
    split
    · exact caused_of_settle hsame hcause
    · exact caused_of_same hsame
  have hlost : ∀ reason, (∀ id, s.Cause (.message message takes) id (.lost reason)) →
      s.Caused (.message message takes) (t.rejectPendingRequests reason) := by
    intro reason hcause
    refine ⟨t.pendingRequests.map fun request => (request.id, .lost reason), ?_, ?_⟩
    · rw [rejectPendingRequests, hsame]
    · intro done hmem
      obtain ⟨request, -, rfl⟩ := List.mem_map.1 hmem
      exact hcause request.id
  cases message with
  | event | lifecycle => exact caused_of_same hsame
  | status status =>
    cases status with
    | closed | error => exact hlost _ fun _ => rfl
    | _ => exact caused_of_same hsame
  | response id =>
    cases id with
    | request id => exact hans id _ ⟨rfl, rfl⟩
    | _ => exact caused_of_same hsame
  | error id message =>
    cases id with
    | request id => exact hans id _ ⟨rfl, rfl⟩
    | foreign => exact hlost _ fun _ => rfl
    | prefixed => exact caused_of_same hsame

/-- **A step settles by its cause**, whatever the state. -/
theorem caused_of_step {directHost hosted : Bool}
    (hstep : (ipcMachine directHost hosted).step s a = some t) : s.Caused a t := by
  cases a with
  | initializeIpc requireProtectedTransport takes =>
    cases hstep
    unfold initializeIpc
    dsimp only
    split
    · exact caused_of_same rfl
    · exact caused_of_same (postMessage_spec _ .ready takes).1.settlements
  | notify method encodes takes =>
    cases (ite_none_right_eq_some.1 hstep).2
    exact caused_of_same (postMessage_spec s _ takes).1.settlements
  | request method encodes signal takes =>
    cases (ite_none_right_eq_some.1 hstep).2
    exact caused_requestIpc method encodes signal
  | abort signal reason takes =>
    dsimp only [ipcMachine] at hstep
    cases (ite_none_left_eq_some.1 hstep).2
    exact settlements_abortRequests (s.listening signal) reason takes (s.marked signal)
  | message message takes =>
    cases (ite_none_right_eq_some.1 hstep).2
    have hflush := (s.legacy.flush_same takes).settlements
    change s.Caused _ (s.handleNativeMessage message takes)
    rw [handleNativeMessage_eq]
    split
    · split
      · exact caused_receive message takes hflush
      · exact caused_of_same hflush
    · exact caused_receive message takes rfl
  | announce protectedCapability =>
    cases hstep
    exact caused_of_same rfl
  | capabilitiesReady takes =>
    cases (ite_none_right_eq_some.1 hstep).2
    exact caused_of_same (s.flush_same takes).settlements
  | probesExhausted =>
    cases (ite_none_right_eq_some.1 hstep).2
    refine ⟨s.pendingRequests.map fun request => (request.id, .lost transportFailure), rfl, ?_⟩
    intro done hmem
    obtain ⟨request, -, rfl⟩ := List.mem_map.1 hmem
    rfl

/-! ## Runs -/

/-- A reply to a request that is settled changes none. -/
theorem Ledger.deaf (h : Ledger s) (hset : s.settled id = true)
    (hrpl : message = .response (.request id) ∨ ∃ text, message = .error (.request id) text)
    (takes : ℕ → Bool) :
    (s.handleNativeMessage message takes).pendingRequests = s.pendingRequests ∧
      (s.handleNativeMessage message takes).listeners = s.listeners ∧
      (s.handleNativeMessage message takes).settlements = s.settlements := by
  have hrecv : ∀ t, SameRequests s t → t.receive message = t := by
    intro t hsame
    have hpend : t.pending id = false := (hsame.pending id).trans (h.pending_eq_false hset)
    rcases hrpl with rfl | ⟨text, rfl⟩
    all_goals exact if_neg (eq_false_iff.1 hpend)
  have hflush := s.legacy.flush_same takes
  have hlegacy : SameRequests s (s.legacy.flushProtectedTransportQueue takes).1 :=
    { hflush with }
  have hsame : SameRequests s (s.handleNativeMessage message takes) := by
    rw [handleNativeMessage_eq]
    split
    · rw [hrecv _ hlegacy, ite_self]
      exact hlegacy
    · rw [hrecv s ⟨rfl, rfl, rfl, rfl, rfl⟩]
      exact ⟨rfl, rfl, rfl, rfl, rfl⟩
  exact ⟨hsame.pendingRequests, hsame.listeners, hsame.settlements⟩

/-- The invariant says that the requests settle. -/
theorem Inv.settling (h : s.Inv) : s.Settling where
  __ := h
  due id hid := (h.due id hid).2
  deaf _ hset _ takes hrpl := h.deaf hset hrpl takes
  withdrawn := h.withdrawn_unsent

/-- A step that keeps the invariant, and needs no condition. -/
theorem Inv.free (h : t.Inv) {C : Prop} (hC : C) : (C → t.Inv) ∧ (t.Settling → C) :=
  ⟨fun _ => h, fun _ => hC⟩

/-- **A step keeps the requests settling just when it is unhindered.** -/
theorem Inv.step {directHost hosted : Bool} {a : IpcAction} (h : s.Inv)
    (hstep : (ipcMachine directHost hosted).step s a = some t) :
    (s.Unhindered a → t.Inv) ∧ (t.Settling → s.Unhindered a) := by
  cases a with
  | initializeIpc requireProtectedTransport takes =>
    cases hstep
    refine free ?_ trivial
    unfold initializeIpc
    dsimp only
    split
    · exact h.of_flags ⟨rfl, rfl, rfl, rfl, rfl⟩ rfl (List.Subset.refl _) rfl
    · refine post ?_ (unposted_of_none rfl) takes
      exact h.of_flags ⟨rfl, rfl, rfl, rfl, rfl⟩ rfl (List.Subset.refl _) rfl
  | notify method encodes takes =>
    cases (ite_none_right_eq_some.1 hstep).2
    exact free (h.post (unposted_of_none rfl) takes) trivial
  | request method encodes signal takes =>
    cases (ite_none_right_eq_some.1 hstep).2
    exact free (h.requestIpc method encodes signal takes) trivial
  | abort signal reason takes =>
    dsimp only [ipcMachine] at hstep
    cases (ite_none_left_eq_some.1 hstep).2
    -- a cancellation that cannot be posted leaves its request without a listener
    exact ⟨fun hposts => h.abort hposts reason, fun hsettling => h.cancelsPost hsettling.due⟩
  | message message takes =>
    cases (ite_none_right_eq_some.1 hstep).2
    -- the queue may be flushed before the message is read
    exact ⟨h.handle, fun hsettling => h.unhindered_of_due hsettling.due⟩
  | announce protectedCapability =>
    cases hstep
    refine free ?_ trivial
    exact h.of_flags ⟨rfl, rfl, rfl, rfl, rfl⟩ rfl (List.Subset.refl _) rfl
  | capabilitiesReady takes =>
    cases (ite_none_right_eq_some.1 hstep).2
    refine ⟨h.flush, fun hsettling posted hmem id hid => h.pending_eq_false ?_⟩
    have hdone := hsettling.due id (by
      rw [due_flush]
      exact mem_append_right _ (mem_filterMap.2 ⟨posted, hmem, hid⟩))
    exact ((s.flush_same takes).settled id).symm.trans hdone
  | probesExhausted =>
    cases (ite_none_right_eq_some.1 hstep).2
    refine free ?_ trivial
    have hfail : Inv { s with
        protectedTransportQueue := []
        protectedTransportFailure := some
          "The viewer host did not become ready. Reload the viewer to retry." } :=
      h.of_flags ⟨rfl, rfl, rfl, rfl, rfl⟩ rfl (nil_subset _) rfl
    refine (hfail.reject _).more fun id hid => ⟨hid, ?_⟩
    exact hfail.settled_reject _ hid

/-- Nothing was requested at first. -/
theorem inv_init (directHost hosted : Bool) : (ipcMachine directHost hosted).init.Inv where
  pos := Nat.le_refl _
  pending_ids _ hmem := absurd hmem not_mem_nil
  settled_ids _ hmem := absurd hmem not_mem_nil
  nodup := nodup_nil
  once := nodup_nil
  pending_iff _ hmem := absurd hmem not_mem_nil
  listening_iff _ _ := iff_of_false not_mem_nil fun ⟨_, hmem, _⟩ =>
    absurd hmem not_mem_nil
  listeners_nodup := nodup_nil
  queued_ids _ hmem := absurd hmem not_mem_nil
  sent_ids _ hmem := absurd hmem not_mem_nil
  queued_unsent _ hmem := absurd hmem not_mem_nil
  withdrawn_ids _ hmem := absurd hmem not_mem_nil
  withdrawn_unsent _ hmem := absurd hmem not_mem_nil
  due _ hmem := absurd hmem not_mem_nil
  withdrawn_pending _ hmem := absurd hmem not_mem_nil

end IpcState

/-- **An abort rejects the requests that listen on its signal**, where their
cancellations can be posted. -/
theorem IpcState.Inv.aborted {directHost hosted : Bool} {s t : IpcState} {signal : ℕ}
    {reason : String} {takes : ℕ → Bool} (h : s.Inv)
    (hfree : s.Unhindered (.abort signal reason takes))
    (hstep : (ipcMachine directHost hosted).step s (.abort signal reason takes) = some t) :
    ∀ id ∈ s.listening signal, (id, .aborted) ∈ t.settlements := by
  intro id hid
  have hopen := h.settled_eq_false (h.listening signal id hid)
  obtain ⟨new, heq, hcause⟩ := caused_of_step hstep
  have hset : t.settled id = true := by
    refine (((h.step hstep).1 hfree).due id ?_).2
    dsimp only [ipcMachine] at hstep
    cases (ite_none_left_eq_some.1 hstep).2
    rw [IpcState.abort, due_abortRequests]
    exact List.mem_append_right _ hid
  obtain ⟨done, hmem, rfl⟩ := List.mem_map.1 (settled_eq_true.1 hset)
  rw [heq] at hmem ⊢
  rcases List.mem_append.1 hmem with hold | hnew
  · exact absurd (settled_eq_true.2 (List.mem_map_of_mem hold)) (eq_false_iff.1 hopen)
  · rw [← (hcause done hnew).2]
    exact hmem

/-- **Every request settles once, just along the runs in which no post is
refused that would settle or serve a pending request**; an abort then
rejects the requests it is for. Along every run a request is settled by
its own reply, its own abort, its own post or a loss of the connection. -/
theorem requests_settle_iff {directHost hosted : Bool} {actions : List IpcAction} {s : IpcState}
    (hrun : (ipcMachine directHost hosted).exec actions (ipcMachine directHost hosted).init =
      some s) :
    ((∀ before t, before <+: actions →
        (ipcMachine directHost hosted).exec before (ipcMachine directHost hosted).init = some t →
          t.Settling) ↔
      ((ipcMachine directHost hosted).restrict Unhindered).exec actions
        (ipcMachine directHost hosted).init = some s) ∧
    (∀ before a u v, before ++ [a] <+: actions →
      (ipcMachine directHost hosted).exec before (ipcMachine directHost hosted).init = some u →
      (ipcMachine directHost hosted).step u a = some v → u.Caused a v ∧
        ∀ signal reason takes, a = .abort signal reason takes →
          ((ipcMachine directHost hosted).restrict Unhindered).exec (before ++ [a])
            (ipcMachine directHost hosted).init = some v →
          ∀ id ∈ u.listening signal, (id, .aborted) ∈ v.settlements) := by
  have hinit := IpcState.inv_init directHost hosted
  have hkeep : ∀ w a v, w.Inv →
      ((ipcMachine directHost hosted).restrict Unhindered).step w a = some v → v.Inv := by
    intro w a v hinv hstep
    obtain ⟨hfree, hstep⟩ := Machine.restrict_step_eq_some.1 hstep
    exact (hinv.step hstep).1 hfree
  refine ⟨?_, fun before a u v _ hu hv => ⟨caused_of_step hv, ?_⟩⟩
  rotate_left
  · rintro signal reason takes rfl hfree
    rw [Machine.exec_append] at hfree
    obtain ⟨w, hw, hlast⟩ := bind_eq_some_iff.1 hfree
    obtain rfl := Option.some.inj (hu.symm.trans (Machine.exec_of_restrict hw))
    obtain ⟨v', hv', hnil⟩ := Machine.exec_cons_eq_some.1 hlast
    have hinv : u.Inv := Machine.Reachable.rule ⟨before, hw⟩ hinit fun w a v _ hinv hw =>
      hkeep w a v hinv hw
    exact hinv.aborted (Machine.restrict_step_eq_some.1 hv').1 hv
  -- the invariant goes from step to step, what a step owes tells its condition
  refine Machine.holds_along_iff hinit.settling (fun u a v hu hstep => ?_) hrun
  have hinv : u.Inv := hu.rule (P := Inv) hinit fun w a v _ hinv hw => hkeep w a v hinv hw
  exact ⟨(hinv.step hstep).2, fun hfree => ((hinv.step hstep).1 hfree).settling⟩

/-- The transport waits for its host, and its queue is full, when the last
request is aborted. -/
def fullQueue : List IpcAction :=
  .initializeIpc true true :: List.replicate 62 (IpcAction.request "agent/read" true none true) ++
    [IpcAction.request "agent/read" true (some 7) true, .abort 7 "caller-aborted" fun _ => true]

/-- **An aborted request is lost**: its promise is not rejected, and no
entry is left that anything could settle it by. -/
theorem aborted_request_lost :
    ∃ s, (ipcMachine false true).exec fullQueue (ipcMachine false true).init = some s ∧
      63 ∈ s.ids ∧ 63 ∈ s.due ∧ s.settled 63 = false ∧ s.pending 63 = false := by
  have hrun := @Machine.exec_eq_run _ _ (ipcMachine false true) (ipcMachine false true).init
    fullQueue (by decide +kernel)
  exact ⟨_, hrun, by decide +kernel⟩

/-- Three requests wait for their host: one is aborted before, one after the
host is there, and one is answered. -/
theorem requests_settle_three :
    let run : List IpcAction := [.initializeIpc true true, .request "agent/read" true (some 7) true,
      .request "agent/read" true (some 8) true, .request "agent/read" true none true,
      .abort 7 "caller-aborted" fun _ => true, .announce true, .capabilitiesReady fun _ => true,
      .abort 8 "caller-aborted" fun _ => true, .message (.response (.request 3)) fun _ => true]
    ∃ s, (ipcMachine false true).exec run (ipcMachine false true).init = some s ∧ s.Settling ∧
      s.settlements = [(1, .aborted), (2, .aborted), (3, .result)] := by
  intro run
  have hrun := @Machine.exec_eq_run _ _ (ipcMachine false true) (ipcMachine false true).init run
    (by decide +kernel)
  have hfree := @Machine.exec_eq_run _ _
    ((ipcMachine false true).restrict Unhindered) (ipcMachine false true).init run
    (by decide +kernel)
  have hsame := Option.some.inj (hrun.symm.trans (Machine.exec_of_restrict hfree))
  exact ⟨_, hrun, (requests_settle_iff hrun).1.2 hfree run _ List.prefix_rfl hrun,
    by decide +kernel⟩

end Remux
