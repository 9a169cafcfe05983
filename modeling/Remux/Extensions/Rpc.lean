import Remux.Common.Lists
import Remux.Extensions.Model.Rpc

/-!
# No call is orphaned

A call that is queued or pending is awaited: its caller waits, or has
dropped it and a cancellation stands behind it in the mailbox (`Queued`).
A pending call was written to the child there is, whose output is read,
or is about to be (`Live`). Both hold in every run in which the cancellations get in, and
the reader of a live child stops only between calls. What a caller is
answered then comes from the child its call was written to (`Answered`).
-/

namespace Remux

open List hiding keys map_map mem_keys

namespace Extensions

namespace RpcWorld

open Assoc AList CallStatus Option

variable {w : RpcWorld} {id : ℕ}

/-! ## Answers -/

variable (result : Except JsonRpcError Value)

/-- An answer goes to a caller that waits, and to nobody else. -/
theorem answer_cases (source : Option ℕ) (status : CallStatus) :
    (status = .waiting ∧ status.answer result source = .resolved result source) ∨
      status.answer result source = status := by
  cases status with
  | waiting => exact .inl ⟨rfl, rfl⟩
  | sending | resolved | dropped => exact .inr rfl

theorem answer_answer (source : Option ℕ) (status : CallStatus) :
    (status.answer result source).answer result source = status.answer result source := by
  cases status <;> rfl

variable {result : Except JsonRpcError Value} {source : Option ℕ}
variable {msg method text extensionId : String} {status : CallStatus} {command : Cmd}
variable {params : Option Value} {reader before : LineReader} {fromStr : String → Option Value}

theorem lookup_settle {other : ℕ} : (w.settle id result source).calls.lookup other =
      if other = id then (w.calls.lookup id).map (answer result source)
      else w.calls.lookup other :=
  lookup_modify_eq

/-- What changes at some keys, and again makes no difference. -/
theorem lookup_foldl_modify {K V : Type*} [DecidableEq K] {f : V → V} (hf : ∀ v, f (f v) = f v)
    (keys : List K) (m : Assoc K V) (k : K) :
    (keys.foldl (fun m key => m.modify key f) m).lookup k =
      if k ∈ keys then (m.lookup k).map f else m.lookup k := by
  induction keys generalizing m with
  | nil => rfl
  | cons key keys ih =>
    rw [foldl_cons, ih, lookup_modify_eq]
    by_cases hk : k = key
    · subst hk
      by_cases hmem : k ∈ keys
      · simp [hmem, map_map, Function.comp_def, hf]
      · simp [hmem]
    · simp [hk]

/-- The pending calls are rejected, and the others left alone. -/
theorem lookup_rejectPending : (w.rejectPending msg).calls.lookup id =
      if (w.pending.lookup id).isSome then (w.calls.lookup id).map
        (answer (.error (.new extensionError msg)) none)
      else w.calls.lookup id := by
  have hkeys : id ∈ w.pending.keys ↔ (w.pending.lookup id).isSome := by
    rw [lookup_isSome, mem_keys]
  rw [rejectPending, lookup_foldl_modify (answer_answer _ _)]
  simp only [hkeys]

/-! ## The queue -/

/-- **The call is awaited**, or its cancellation is on its way. -/
def Awaited (w : RpcWorld) (id : ℕ) : Prop :=
  w.calls.lookup id = some .waiting ∨
    w.calls.lookup id = some .dropped ∧ Cmd.cancelRpc id ∈ w.mailbox

/-- The id a command calls with. -/
def rpcId : Cmd → Option ℕ
  | .rpc id _ _ => some id
  | _ => none

/-- **The calls that are queued or pending are awaited**, each in one
place, and cancelled after they are queued. -/
structure Queued (w : RpcWorld) : Prop where
  fresh : ∀ id, (w.calls.lookup id).isSome → id < w.nextRpcRequestId
  pending : ∀ id, (w.pending.lookup id).isSome → w.Awaited id
  queued : ∀ id, id ∈ w.mailbox.filterMap rpcId → w.Awaited id
  cancelled : ∀ id, Cmd.cancelRpc id ∈ w.mailbox → w.calls.lookup id = some .dropped
  order : w.mailbox.Pairwise fun a b => ∀ id, a = .cancelRpc id → rpcId b ≠ some id
  once : (w.mailbox.filterMap rpcId).Nodup
  apart : ∀ id, id ∈ w.mailbox.filterMap rpcId → w.pending.lookup id = none

theorem Queued.init : init.Queued where
  fresh id h := by simp [RpcWorld.init] at h
  pending id h := by simp [RpcWorld.init] at h
  queued := nofun
  cancelled := nofun
  order := .nil
  once := nodup_nil
  apart := nofun

/-- A call that is neither dropped nor waiting is nowhere in the queue. -/
theorem Queued.absent (hw : w.Queued) (hwait : w.calls.lookup id ≠ some .waiting)
    (hdrop : w.calls.lookup id ≠ some .dropped) :
    w.pending.lookup id = none ∧ id ∉ w.mailbox.filterMap rpcId ∧ Cmd.cancelRpc id ∉ w.mailbox := by
  have hawait : ¬ w.Awaited id := fun h => h.elim hwait fun h => hdrop h.1
  refine ⟨?_, fun h => hawait (hw.queued id h), fun h => hdrop (hw.cancelled id h)⟩
  exact not_isSome_iff_eq_none.1 fun h => hawait (hw.pending id h)

/-- The state of a call that is nowhere in the queue does not matter to
it. -/
theorem Queued.setStatus (hw : w.Queued) (hid : id < w.nextRpcRequestId)
    (hpend : w.pending.lookup id = none) (hqd : id ∉ w.mailbox.filterMap rpcId)
    (hcan : Cmd.cancelRpc id ∈ w.mailbox → status = .dropped) :
    Queued { w with calls := w.calls.insert id status } := by
  have hother : ∀ other, other ≠ id → w.Awaited other →
      Awaited { w with calls := w.calls.insert id status } other := by
    intro other hne h
    simpa only [Awaited, lookup_insert_eq, if_neg hne] using h
  refine ⟨fun other h => ?_, fun other h => ?_, fun other h => ?_, fun other h => ?_, hw.order,
    hw.once, hw.apart⟩
  · rw [lookup_insert_eq] at h
    split at h
    · next heq => exact heq ▸ hid
    · exact hw.fresh other h
  · refine hother other ?_ (hw.pending other h)
    rintro rfl
    rw [hpend] at h
    cases h
  · refine hother other ?_ (hw.queued other h)
    rintro rfl
    exact hqd h
  · rw [lookup_insert_eq]
    split
    · next heq =>
      subst heq
      rw [hcan h]
    · exact hw.cancelled other h

/-- **A new call** is nowhere in the queue. -/
theorem Queued.call {method : String} {params : Option Value} (hw : w.Queued)
    (hpend : w.pending.lookup w.nextRpcRequestId = none)
    (hqd : w.nextRpcRequestId ∉ w.mailbox.filterMap rpcId)
    (hcan : Cmd.cancelRpc w.nextRpcRequestId ∉ w.mailbox) :
    Queued { w with
      nextRpcRequestId := w.nextRpcRequestId + 1
      calls := w.calls.insert w.nextRpcRequestId (.sending method params) } := by
  have hnext : Queued { w with nextRpcRequestId := w.nextRpcRequestId + 1 } :=
    { hw with fresh := fun id h => (hw.fresh id h).trans (Nat.lt_succ_self _) }
  exact hnext.setStatus (Nat.lt_succ_self _) hpend hqd fun h => absurd h hcan

variable {mailbox : List Cmd}

/-- Commands that call and do not cancel come one at a time. -/
theorem mem_filterMap_append : id ∈ (mailbox ++ [command]).filterMap rpcId ↔
      id ∈ mailbox.filterMap rpcId ∨ rpcId command = some id := by
  simp

theorem Awaited.push (h : w.Awaited id) : Awaited { w with mailbox := w.mailbox ++ [command] } id :=
  h.imp_right fun ⟨hdrop, hmem⟩ => ⟨hdrop, mem_append_left _ hmem⟩

variable (hw : w.Queued)
include hw

/-- A command that is no call and no cancellation may come. -/
theorem Queued.push (hrpc : rpcId command = none) (hcan : ∀ id, command ≠ .cancelRpc id) :
    Queued { w with mailbox := w.mailbox ++ [command] } := by
  have hqd : ∀ id, id ∈ (w.mailbox ++ [command]).filterMap rpcId →
      id ∈ w.mailbox.filterMap rpcId := by
    intro id h
    rw [mem_filterMap_append, hrpc] at h
    simpa using h
  refine ⟨hw.fresh, fun id h => (hw.pending id h).push, fun id h =>
    (hw.queued id (hqd id h)).push, fun id h => ?_, ?_, ?_, fun id h => hw.apart id (hqd id h)⟩
  · rcases mem_concat.1 h with h | h
    · exact hw.cancelled id h
    · exact absurd h.symm (hcan id)
  · refine pairwise_append.2 ⟨hw.order, pairwise_singleton _ _, fun a _ b hb id _ => ?_⟩
    rw [mem_singleton.1 hb, hrpc]
    nofun
  · rw [filterMap_append, filterMap_cons_none hrpc, filterMap_nil, append_nil]
    exact hw.once

/-- **A call enters the mailbox.** -/
theorem Queued.send {method' : String} {params' : Option Value}
    (hsending : w.calls.lookup id = some (.sending method' params')) :
    Queued { w with
      calls := w.calls.insert id .waiting
      mailbox := w.mailbox ++ [.rpc id method params] } := by
  obtain ⟨hpend, hqd, hcan⟩ :=
    hw.absent (by rw [hsending]; nofun) (by rw [hsending]; nofun)
  have hid := hw.fresh id (by rw [hsending]; rfl)
  have hset : Queued { w with calls := w.calls.insert id .waiting } :=
    hw.setStatus hid hpend hqd fun h => absurd h hcan
  refine ⟨hset.fresh, fun other h => (hset.pending other h).push, fun other h => ?_,
    fun other h => ?_, ?_, ?_, fun other h => ?_⟩
  · rcases mem_filterMap_append.1 h with h | h
    · exact (hset.queued other h).push
    · obtain rfl : id = other := some.inj h
      exact .inl (lookup_insert _)
  · rcases mem_concat.1 h with h | h
    · exact hset.cancelled other h
    · cases h
  · refine pairwise_append.2 ⟨hw.order, pairwise_singleton _ _, ?_⟩
    rintro a ha b hb other rfl h
    rw [mem_singleton.1 hb] at h
    obtain rfl : id = other := some.inj h
    exact hcan ha
  · rw [filterMap_append]
    refine nodup_append.2 ⟨hw.once, nodup_singleton _, fun a ha b hb => ?_⟩
    rintro rfl
    obtain rfl : a = id := mem_singleton.1 hb
    exact hqd ha
  · rcases mem_filterMap_append.1 h with h | h
    · exact hset.apart other h
    · obtain rfl : id = other := some.inj h
      exact hpend

/-- **A call is dropped**, and its cancellation enters the mailbox. -/
theorem Queued.drop (hid : id < w.nextRpcRequestId) : Queued { w with
      calls := w.calls.insert id .dropped
      mailbox := w.mailbox ++ [.cancelRpc id] } := by
  have hqd : ∀ other, other ∈ (w.mailbox ++ [Cmd.cancelRpc id]).filterMap rpcId →
      other ∈ w.mailbox.filterMap rpcId := by
    intro other h
    simpa [rpcId] using h
  have hawait : ∀ other, w.Awaited other → Awaited { w with
      calls := w.calls.insert id .dropped
      mailbox := w.mailbox ++ [.cancelRpc id] } other := by
    intro other h
    by_cases heq : other = id
    · subst heq
      exact .inr ⟨lookup_insert _, mem_concat_self⟩
    · simp only [Awaited, lookup_insert_eq, if_neg heq, mem_append]
      exact h.imp_right fun h => ⟨h.1, .inl h.2⟩
  refine ⟨fun other h => ?_, fun other h => hawait other (hw.pending other h),
    fun other h => hawait other (hw.queued other (hqd other h)), fun other h => ?_, ?_, ?_,
    fun other h => hw.apart other (hqd other h)⟩
  · rw [lookup_insert_eq] at h
    split at h
    · next heq => exact heq ▸ hid
    · exact hw.fresh other h
  · rw [lookup_insert_eq]
    split
    · rfl
    · next hne =>
      rcases mem_concat.1 h with h | h
      · exact hw.cancelled other h
      · exact absurd (Cmd.cancelRpc.inj h) hne
  · refine pairwise_append.2 ⟨hw.order, pairwise_singleton _ _, fun a _ b hb _ _ => ?_⟩
    rw [mem_singleton.1 hb]
    rintro ⟨⟩
  · rw [filterMap_append, filterMap_cons_none rfl, filterMap_nil, append_nil]
    exact hw.once

/-- **The next command is no cancellation**: what it leaves of the queue
is in order, and where it is a call, that is awaited and nowhere else. -/
theorem Queued.pop (hmail : w.mailbox = command :: mailbox) (hcan : ∀ id, command ≠ .cancelRpc id) :
    Queued { w with mailbox } ∧ ∀ id, rpcId command = some id → Awaited { w with mailbox } id ∧
      w.pending.lookup id = none ∧ id ∉ mailbox.filterMap rpcId ∧ id < w.nextRpcRequestId := by
  obtain ⟨fresh, pending, queued, cancelled, order, once, apart⟩ := hw
  rw [hmail] at queued cancelled order once apart
  have hawait : ∀ id, w.Awaited id → Awaited { w with mailbox } id := by
    intro id h
    refine h.imp_right fun ⟨hdrop, hmem⟩ => ⟨hdrop, ?_⟩
    rw [hmail] at hmem
    exact (mem_cons.1 hmem).resolve_left fun h => hcan id h.symm
  have hsub : ∀ id, id ∈ mailbox.filterMap rpcId → id ∈ (command :: mailbox).filterMap rpcId :=
    fun id h => ((sublist_cons_self command mailbox).filterMap rpcId).subset h
  refine ⟨⟨fresh, fun id h => hawait id (pending id h), fun id h =>
    hawait id (queued id (hsub id h)), fun id h => cancelled id (mem_cons_of_mem _ h),
    order.tail, once.sublist ((sublist_cons_self command mailbox).filterMap rpcId),
    fun id h => apart id (hsub id h)⟩, fun id hid => ?_⟩
  rw [filterMap_cons_some hid] at queued once apart
  have hstat := queued id mem_cons_self
  refine ⟨hawait id hstat, apart id mem_cons_self, (nodup_cons.1 once).1, fresh id ?_⟩
  rcases hstat with h | ⟨h, -⟩ <;> rw [h] <;> rfl

/-- **The next command is a cancellation.** -/
theorem Queued.cancel (hmail : w.mailbox = .cancelRpc id :: mailbox) :
    Queued { w with mailbox, pending := w.pending.erase id } := by
  obtain ⟨fresh, pending, queued, cancelled, order, once, apart⟩ := hw
  rw [hmail] at queued cancelled order once apart
  have hawait : ∀ other, other ≠ id → w.Awaited other →
      Awaited { w with mailbox, pending := w.pending.erase id } other := by
    intro other hne h
    refine h.imp_right fun ⟨hdrop, hmem⟩ => ⟨hdrop, ?_⟩
    rw [hmail] at hmem
    exact (mem_cons.1 hmem).resolve_left fun h => hne (Cmd.cancelRpc.inj h)
  refine ⟨fresh, fun other h => ?_, fun other h => ?_,
    fun other h => cancelled other (mem_cons_of_mem _ h), order.tail, once,
    fun other h => ?_⟩
  · rw [lookup_erase_eq] at h
    split at h
    · cases h
    · next hne => exact hawait other hne (pending other h)
  · refine hawait other ?_ (queued other h)
    rintro rfl
    -- no call stands behind its cancellation
    obtain ⟨command, hmem, hrpc⟩ := mem_filterMap.1 h
    exact (pairwise_cons.1 order).1 command hmem other rfl hrpc
  · rw [lookup_erase_eq]
    split
    · rfl
    · exact apart other h

/-- A call that is awaited becomes pending. -/
theorem Queued.enter {method : String} (hawait : w.Awaited id)
    (hqd : id ∉ w.mailbox.filterMap rpcId) :
    Queued { w with pending := w.pending.insert id method } := by
  refine { hw with pending := fun other h => ?_, apart := fun other h => ?_ }
  · rw [lookup_insert_eq] at h
    split at h
    · next heq => exact heq ▸ hawait
    · exact hw.pending other h
  · rw [lookup_insert_eq, if_neg]
    · exact hw.apart other h
    · rintro rfl
      exact hqd h

/-- A call that is neither queued nor pending is answered. -/
theorem Queued.settle (hpend : w.pending.lookup id = none) (hqd : id ∉ w.mailbox.filterMap rpcId) :
    (w.settle id result source).Queued := by
  have hother : ∀ other, other ≠ id → w.Awaited other →
      Awaited (w.settle id result source) other := by
    intro other hne h
    rw [Awaited, lookup_settle, if_neg hne]
    exact h
  refine ⟨fun other h => ?_, fun other h => ?_, fun other h => ?_, fun other h => ?_, hw.order,
    hw.once, hw.apart⟩
  · rw [lookup_settle] at h
    split at h
    · next heq =>
      rw [isSome_map, ← heq] at h
      exact hw.fresh other h
    · exact hw.fresh other h
  · refine hother other ?_ (hw.pending other h)
    rintro rfl
    change (w.pending.lookup other).isSome at h
    rw [hpend] at h
    cases h
  · refine hother other ?_ (hw.queued other h)
    rintro rfl
    exact hqd h
  · have hdrop := hw.cancelled other h
    rw [lookup_settle]
    split
    · next heq =>
      subst heq
      rw [hdrop]
      rfl
    · exact hdrop

/-- A call that was pending is so no more. -/
theorem Queued.erase : Queued { w with pending := w.pending.erase id } := by
  refine { hw with pending := fun other h => ?_, apart := fun other h => ?_ }
  · rw [lookup_erase_eq] at h
    split at h
    · cases h
    · exact hw.pending other h
  · rw [lookup_erase_eq, hw.apart other h]
    split <;> rfl

/-- **The pending calls are rejected.** -/
theorem Queued.reject : (w.rejectPending msg).Queued := by
  have hsame : ∀ other, w.pending.lookup other = none →
      (w.rejectPending msg).calls.lookup other = w.calls.lookup other := by
    intro other h
    rw [lookup_rejectPending, h]
    rfl
  refine ⟨fun other h => ?_, fun other h => ?_, fun other h => ?_, fun other h => ?_, hw.order,
    hw.once, fun _ _ => rfl⟩
  · refine hw.fresh other ?_
    rw [lookup_rejectPending] at h
    split at h
    · rwa [isSome_map] at h
    · exact h
  · cases h
  · rw [Awaited, hsame other (hw.apart other h)]
    exact hw.queued other h
  · have hdrop := hw.cancelled other h
    rw [lookup_rejectPending]
    split
    · rw [hdrop]
      rfl
    · exact hdrop

omit hw

/-! ## The child and its answers -/

/-- The pending call was written to the child there is, whose output is
read as long as it runs. -/
def Heard (w : RpcWorld) (id : ℕ) : Prop :=
  w.written.lookup id = some w.generation ∧ (w.exited = true ∨ w.readsOutput = true)

/-- **The pending calls were written to the child there is**, but for the
one that is entered, which is pending. -/
def Live (w : RpcWorld) : Prop :=
  (∀ id, w.enters id = true → (w.pending.lookup id).isSome) ∧
    ∀ id, (w.pending.lookup id).isSome →
      w.running = true ∧ (w.enters id = false → w.Heard id)

theorem Live.init : init.Live := ⟨nofun, fun id h => by simp [RpcWorld.init] at h⟩

/-- Without a child nothing is pending. -/
theorem Live.pending_eq_none (hw : w.Live) (hrun : w.running = false) (id : ℕ) :
    w.pending.lookup id = none := by
  refine not_isSome_iff_eq_none.1 fun h => ?_
  have := (hw.2 id h).1
  rw [hrun] at this
  cases this

/-- Where nothing is entered the calls are none of it. -/
theorem enters_eq_false (h : w.entering = none) (id : ℕ) : w.enters id = false := by
  rw [enters, h]
  rfl

/-- Where nothing is pending no child is needed. -/
theorem Live.of_pending_eq_none (hidle : w.entering = none)
    (h : ∀ id, w.pending.lookup id = none) : w.Live := by
  refine ⟨fun id hid => ?_, fun id hid => ?_⟩
  · rw [enters_eq_false hidle] at hid
    cases hid
  · rw [h id] at hid
    cases hid

/-- A call that is not the one entered is taken out of the map. -/
theorem Live.erase (hw : w.Live) (hid : w.enters id = false) :
    Live { w with pending := w.pending.erase id } := by
  refine ⟨fun other h => ?_, fun other h => ?_⟩
  · rw [lookup_erase_eq, if_neg]
    · exact hw.1 other h
    · rintro rfl
      exact Bool.false_ne_true (hid.symm.trans h)
  · rw [lookup_erase_eq] at h
    split at h
    · cases h
    · exact hw.2 other h

variable {generation : ℕ}

/-- A reader of a child that was replaced, or one that goes on, makes no
difference. -/
theorem readsOutput_setReader (hbef : w.readers.lookup generation = some before)
    (h : reader.stopped = before.stopped ∨ w.generation ≠ generation) :
    (w.setReader generation reader).readsOutput = w.readsOutput := by
  rw [readsOutput, readsOutput]
  change ((w.readers.insert generation reader).lookup w.generation).any _ = _
  rw [lookup_insert_eq]
  split
  · next heq =>
    rw [heq, hbef, any_some, any_some, h.resolve_right fun hne => hne heq]
  · rfl

/-- A reader set in its place keeps what is live. -/
theorem Live.setReader (hw : w.Live) (hbef : w.readers.lookup generation = some before)
    (h : reader.stopped = before.stopped ∨ w.awaitsOutput generation = false) :
    (w.setReader generation reader).Live := by
  refine ⟨hw.1, fun id hid => ⟨(hw.2 id hid).1, fun hent => ?_⟩⟩
  obtain ⟨hwr, halive⟩ := (hw.2 id hid).2 hent
  refine ⟨hwr, halive.elim .inl fun hreads => ?_⟩
  by_cases hgone : reader.stopped = before.stopped ∨ w.generation ≠ generation
  · exact .inr ((readsOutput_setReader hbef hgone).trans hreads)
  · -- the reader of the child stops, which has exited
    rw [not_or, not_not] at hgone
    have hawaits := h.resolve_left hgone.1
    have hpend : (w.pending.keys.any fun id => !w.enters id) = true := by
      have hmem : id ∈ w.pending.keys := mem_keys.1 (lookup_isSome.1 hid)
      refine any_eq_true.2 ⟨id, hmem, ?_⟩
      exact Bool.not_eq_true' _ ▸ hent
    have hexited : w.exited = true := by simpa [awaitsOutput, hgone.2, hpend] using hawaits
    exact .inl hexited

theorem setReader_holdLine {reader : LineReader} {text : String} :
    ∃ reader', reader'.stopped = reader.stopped ∧
      w.holdLine generation reader text = w.setReader generation reader' := by
  rw [holdLine]
  split
  · exact ⟨{ reader with held := some text }, rfl, rfl⟩
  · exact ⟨reader, rfl, rfl⟩

/-- The answer to a call says where it comes from. -/
theorem ResultsAnswered.settle (hw : w.ResultsAnswered)
    (hok : ∀ value, result = .ok value → source.isSome = true)
    (hsrc : ∀ generation, source = some generation →
      w.written.lookup id = some generation ∧ (generation, id) ∈ w.answered) :
    (w.settle id result source).ResultsAnswered := by
  intro other result' source' h
  rw [lookup_settle] at h
  split at h
  · next heq =>
    subst heq
    obtain ⟨status, hstat, hans⟩ := map_eq_some_iff.1 h
    obtain ⟨-, heq⟩ | heq := answer_cases result source status
    · cases heq.symm.trans hans
      exact ⟨hok, hsrc⟩
    · exact hw other result' source' (hstat.trans (congrArg some (heq.symm.trans hans)))
  · exact hw other result' source' h

/-- A rejection is no result. -/
theorem ResultsAnswered.reject (hw : w.ResultsAnswered) :
    (w.rejectPending msg).ResultsAnswered := by
  intro other result source h
  rw [lookup_rejectPending] at h
  split at h
  · obtain ⟨status, hstat, hans⟩ := map_eq_some_iff.1 h
    obtain ⟨-, heq⟩ | heq := answer_cases (.error (.new extensionError msg)) none status
    · cases heq.symm.trans hans
      exact ⟨nofun, nofun⟩
    · exact hw other result source (hstat.trans (congrArg some (heq.symm.trans hans)))
  · exact hw other result source h

/-- A call without an answer has none to account for. -/
theorem ResultsAnswered.insert {next : ℕ} (hw : w.ResultsAnswered)
    (hstat : ∀ result source, status ≠ .resolved result source) :
    ResultsAnswered { w with
      nextRpcRequestId := next
      calls := w.calls.insert id status
      mailbox } := by
  intro other result source h
  rw [lookup_insert_eq] at h
  split at h
  · exact absurd (some.inj h) (hstat result source)
  · exact hw other result source h

/-! ## Runs -/

/-- The calls are accounted for. -/
structure Accounted (w : RpcWorld) : Prop where
  queued : w.Queued
  live : w.Live
  answered : w.ResultsAnswered

/-- A line is sent where there is room. -/
theorem trySend_eq_some {line : StdinLine} {sent : RpcWorld} (h : w.trySend line = some sent) :
    w.hasRoom = true ∧ ∃ stdin, sent = { w with stdin } := by
  rw [trySend] at h
  split at h
  · cases h
  · next hroom =>
    rw [Bool.not_eq_true] at hroom
    refine ⟨?_, _, (some.inj h).symm⟩
    rw [hasRoom, hroom, Bool.not_false]

variable {stdin : List StdinLine}

/-- What is in the child's input does not matter. -/
theorem Accounted.setStdin {stdinClosed : Bool} (hw : w.Accounted) :
    Accounted { w with stdin, stdinClosed } :=
  ⟨⟨hw.queued.fresh, hw.queued.pending, hw.queued.queued, hw.queued.cancelled, hw.queued.order,
    hw.queued.once, hw.queued.apart⟩, hw.live, hw.answered⟩

/-- Nor do the readers, as far as the queue and the answers go. -/
theorem Accounted.setReader (hw : w.Accounted) (hbef : w.readers.lookup generation = some before)
    (h : reader.stopped = before.stopped ∨ w.awaitsOutput generation = false) :
    (w.setReader generation reader).Accounted :=
  ⟨⟨hw.queued.fresh, hw.queued.pending, hw.queued.queued, hw.queued.cancelled, hw.queued.order,
    hw.queued.once, hw.queued.apart⟩, hw.live.setReader hbef h, hw.answered⟩

theorem Accounted.holdLine (hw : w.Accounted) (hbef : w.readers.lookup generation = some before)
    (h : reader.stopped = before.stopped ∨ w.awaitsOutput generation = false) :
    (w.holdLine generation reader text).Accounted := by
  obtain ⟨reader', hstopped, heq⟩ := @setReader_holdLine w generation reader text
  rw [heq]
  exact hw.setReader hbef (hstopped ▸ h)

/-- A call that is answered without the child. -/
theorem Accounted.refuse {error : JsonRpcError} (hw : w.Accounted)
    (hpend : w.pending.lookup id = none) (hqd : id ∉ w.mailbox.filterMap rpcId) :
    (w.settle id (.error error) none).Accounted :=
  ⟨hw.queued.settle hpend hqd, hw.live, hw.answered.settle nofun nofun⟩

/-- **A call is handled**: it is refused, or entered in the map. -/
theorem Accounted.handleRpc (hw : w.Accounted) (hidle : w.entering = none)
    (hawait : w.Awaited id) (hpend : w.pending.lookup id = none)
    (hqd : id ∉ w.mailbox.filterMap rpcId) :
    (w.handleRpc extensionId id method params).Accounted := by
  rw [RpcWorld.handleRpc]
  split
  · exact hw.refuse hpend hqd
  next hrun =>
  split
  · exact hw.refuse hpend hqd
  have hrun : w.running = true := by simpa using hrun
  have hq : Queued { w with pending := w.pending.insert id method } :=
    hw.queued.enter hawait hqd
  refine ⟨{ hq with }, ⟨fun other h => ?_, fun other h => ⟨hrun, fun hent => ?_⟩⟩, hw.answered⟩
  · obtain rfl : id = other := by simpa [enters] using h
    rw [lookup_insert]
    rfl
  · have hne : other ≠ id := by
      rintro rfl
      simp [enters] at hent
    rw [lookup_insert_eq, if_neg hne] at h
    exact (hw.live.2 other h).2 (enters_eq_false hidle other)

/-- **A call that is entered is handed over**, to a child that is read, or
it is refused. -/
theorem Accounted.handOver {line : StdinLine} (hw : w.Accounted)
    (hentering : w.entering = some (id, line))
    (hreads : w.hasRoom = true → w.exited = true ∨ w.readsOutput = true) :
    (({ w with entering := none } : RpcWorld).handOver extensionId id line).Accounted := by
  have hents : ∀ other, w.enters other = true ↔ id = other := by
    intro other
    rw [enters, hentering]
    exact beq_iff_eq
  have hpend : (w.pending.lookup id).isSome := hw.live.1 id ((hents id).2 rfl)
  have hrest : ∀ other, (w.pending.lookup other).isSome → other ≠ id →
      w.running = true ∧ w.Heard other := by
    intro other h hne
    have hent : w.enters other = false := by
      rw [← Bool.not_eq_true, hents]
      exact Ne.symm hne
    exact ⟨(hw.live.2 other h).1, (hw.live.2 other h).2 hent⟩
  rw [RpcWorld.handOver]
  split
  · next sent hsend =>
    obtain ⟨hroom, stdin, rfl⟩ := trySend_eq_some hsend
    have hstat : ∀ result source, w.calls.lookup id ≠ some (.resolved result source) := by
      intro result source h
      rcases hw.queued.pending id hpend with hwait | ⟨hdrop, -⟩
      · exact absurd (hwait.symm.trans h) nofun
      · exact absurd (hdrop.symm.trans h) nofun
    refine ⟨{ hw.queued with }, ⟨nofun, fun other h => ?_⟩, fun other result source h => ?_⟩
    · by_cases heq : other = id
      · subst heq
        exact ⟨(hw.live.2 other h).1, fun _ => ⟨lookup_insert _, hreads hroom⟩⟩
      · obtain ⟨hrun, hwr, halive⟩ := hrest other h heq
        refine ⟨hrun, fun _ => ⟨?_, halive⟩⟩
        rw [lookup_insert_eq, if_neg heq]
        exact hwr
    · obtain ⟨hok, hsrc⟩ := hw.answered other result source h
      refine ⟨hok, fun generation hgen => ?_⟩
      rw [lookup_insert_eq, if_neg]
      · exact hsrc generation hgen
      · rintro rfl
        exact hstat result source h
  · rw [if_pos hpend]
    have hqd : id ∉ w.mailbox.filterMap rpcId := by
      intro h
      rw [hw.queued.apart id h] at hpend
      cases hpend
    have herased : Accounted { w with entering := none, pending := w.pending.erase id } := by
      have hq := @Queued.erase _ id hw.queued
      refine ⟨{ hq with }, ⟨nofun, fun other h => ?_⟩, hw.answered⟩
      rw [lookup_erase_eq] at h
      split at h
      · cases h
      · next hne => exact ⟨(hrest other h hne).1, fun _ => (hrest other h hne).2⟩
    exact herased.refuse (lookup_erase _ _) hqd

/-- The pending calls are rejected where the child goes. -/
theorem Accounted.reject (hw : w.Accounted) (hidle : w.entering = none) {running exited : Bool} :
    Accounted { w.rejectPending msg with running, exited, stdin, generation } :=
  have hq : (w.rejectPending msg).Queued := hw.queued.reject
  ⟨{ hq with }, Live.of_pending_eq_none hidle fun _ => rfl, hw.answered.reject⟩

theorem Accounted.stopChild {extensionId : String} (hw : w.Accounted)
    (hidle : w.entering = none) : (w.stopChild extensionId).Accounted ∧
      (w.stopChild extensionId).running = false ∧ (w.stopChild extensionId).entering = none := by
  rw [RpcWorld.stopChild]
  split
  · exact ⟨hw.reject hidle, rfl, hidle⟩
  · next hrun => exact ⟨hw.reject hidle, Bool.not_eq_true _ ▸ hrun, hidle⟩

/-- A child is spawned where there is none. -/
theorem Accounted.spawnChild {spawns : Bool} (hw : w.Accounted) (hidle : w.entering = none)
    (hrun : w.running = false) : (w.spawnChild spawns).Accounted := by
  have hnone := hw.live.pending_eq_none hrun
  rw [RpcWorld.spawnChild]
  split
  all_goals exact ⟨⟨hw.queued.fresh, hw.queued.pending, hw.queued.queued, hw.queued.cancelled,
      hw.queued.order, hw.queued.once, hw.queued.apart⟩, Live.of_pending_eq_none hidle hnone,
    hw.answered⟩

/-- **The next command is handled.** -/
theorem Accounted.handled {spawns : Bool} (hw : w.Accounted) (hidle : w.entering = none)
    (hmail : w.mailbox = command :: mailbox) :
    (({ w with mailbox } : RpcWorld).handleCommand extensionId spawns command).Accounted := by
  have hpop : (∀ id, command ≠ .cancelRpc id) → Accounted { w with mailbox } := fun hcan =>
    { hw with queued := (hw.queued.pop hmail hcan).1 }
  cases command with
  | rpc id method params =>
    obtain ⟨-, hcall⟩ := hw.queued.pop hmail nofun
    obtain ⟨hawait, hpend, hqd, -⟩ := hcall id rfl
    exact (hpop nofun).handleRpc hidle hawait hpend hqd
  | cancelRpc id =>
    have hq := hw.queued.cancel hmail
    have herased : Accounted { w with mailbox, pending := w.pending.erase id } :=
      ⟨hq, hw.live.erase (enters_eq_false hidle id), hw.answered⟩
    change (RpcWorld.cancelRpc { w with mailbox } id).Accounted
    rw [RpcWorld.cancelRpc]
    split
    · next hnone =>
      have hsame : w.pending.erase id = w.pending := by
        refine ext (kerase_of_notMem_keys fun hmem => ?_)
        have hsome := lookup_isSome.2 (mem_keys.2 hmem)
        rw [isNone_iff_eq_none.1 hnone] at hsome
        cases hsome
      rwa [hsame] at herased
    · dsimp only
      split
      · cases hsend : trySend { w with mailbox, pending := w.pending.erase id }
          (.cancelRequest id) with
        | none => exact herased
        | some sent =>
          obtain ⟨-, stdin, rfl⟩ := trySend_eq_some hsend
          exact herased.setStdin
      · exact herased
  | start =>
    change (if w.running then _ else _ : RpcWorld).Accounted
    split
    · exact hpop nofun
    · next hrun => exact (hpop nofun).spawnChild hidle (Bool.not_eq_true _ ▸ hrun)
  | stop => exact ((hpop nofun).stopChild hidle).1
  | restart =>
    obtain ⟨hstopped, hrun, hidle⟩ :=
      @Accounted.stopChild { w with mailbox } extensionId (hpop nofun) hidle
    exact hstopped.spawnChild hidle hrun
  | other => exact hpop nofun

/-- **A line is handled**: a pending call it answers was written to this
child. -/
theorem Accounted.handleLine (hw : w.Accounted)
    (hcur : ∀ id, (fromStr text).bind extensionResponseId = some id →
      (w.pending.lookup id).isSome = true → w.generation = generation ∧ w.enters id = false) :
    (w.handleLine fromStr generation text).Accounted := by
  have hheard : ∀ id, Accounted { w with answered := (generation, id) :: w.answered } := by
    intro id
    refine ⟨⟨hw.queued.fresh, hw.queued.pending, hw.queued.queued, hw.queued.cancelled,
      hw.queued.order, hw.queued.once, hw.queued.apart⟩, hw.live, fun other result source h => ?_⟩
    obtain ⟨hok, hsrc⟩ := hw.answered other result source h
    exact ⟨hok, fun g hg => ⟨(hsrc g hg).1, mem_cons_of_mem _ (hsrc g hg).2⟩⟩
  rw [RpcWorld.handleLine]
  split
  · next msg id hmsg =>
    obtain ⟨message', hfrom, hid⟩ := bind_eq_some_iff.1 hmsg
    obtain ⟨id', hid', heq⟩ := map_eq_some_iff.1 hid
    obtain ⟨rfl, rfl⟩ := Prod.mk.inj heq
    split
    · next method hpend =>
      have hsome : (w.pending.lookup id').isSome = true := by rw [hpend]; rfl
      obtain ⟨rfl, hent⟩ := hcur id' (by rw [hfrom]; exact hid') hsome
      obtain ⟨hwr, -⟩ := (hw.live.2 id' hsome).2 hent
      have hqd : id' ∉ w.mailbox.filterMap rpcId := by
        intro h
        rw [hw.queued.apart id' h] at hpend
        cases hpend
      have herased := @Queued.erase _ id' (hheard id').queued
      refine ⟨herased.settle (lookup_erase _ _) hqd, (hheard id').live.erase hent,
        ResultsAnswered.settle (hheard id').answered (fun _ _ => rfl) fun g hg => ?_⟩
      cases hg
      exact ⟨hwr, mem_cons_self⟩
    · exact hheard id'
  · exact hw

/-- **One step in which the calls are heard.** By cases on the action. -/
theorem Accounted.step {w' : RpcWorld} {a : RpcAction} (hw : w.Accounted)
    (ha : heard fromStr w a = true) (hstep : rpcStep extensionId fromStr w a = some w') :
    w'.Accounted := by
  cases a with
  | called method params =>
    cases hstep
    have hnew : w.calls.lookup w.nextRpcRequestId = none := by
      refine not_isSome_iff_eq_none.1 fun h => ?_
      exact lt_irrefl _ (hw.queued.fresh _ h)
    obtain ⟨hpend, hqd, hcan⟩ :=
      hw.queued.absent (by rw [hnew]; nofun) (by rw [hnew]; nofun)
    exact ⟨hw.queued.call hpend hqd hcan, hw.live, hw.answered.insert nofun⟩
  | sent id =>
    dsimp only [rpcStep] at hstep
    split at hstep
    · next method params hsending =>
      cases (ite_none_right_eq_some.1 hstep).2
      exact ⟨hw.queued.send hsending, hw.live, hw.answered.insert nofun⟩
    · cases hstep
  | dropped id lost =>
    obtain rfl : lost = false := by simpa [heard] using ha
    dsimp only [rpcStep] at hstep
    split at hstep
    · cases hstep
    · cases hstep
    · next method params hsending =>
      cases hstep
      obtain ⟨hpend, hqd, -⟩ :=
        hw.queued.absent (by rw [hsending]; nofun) (by rw [hsending]; nofun)
      exact ⟨hw.queued.setStatus (hw.queued.fresh id (by rw [hsending]; rfl)) hpend hqd
        fun _ => rfl, hw.live, hw.answered.insert nofun⟩
    · next status _ _ hstat =>
      split at hstep
      · next h => cases h
      cases (ite_none_right_eq_some.1 hstep).2
      exact ⟨hw.queued.drop (hw.queued.fresh id (by rw [hstat]; rfl)), hw.live,
        hw.answered.insert nofun⟩
  | commanded command =>
    dsimp only [rpcStep] at hstep
    split at hstep
    · cases hstep
    · cases hstep
    · next hrpc hcan =>
      cases (ite_none_right_eq_some.1 hstep).2
      refine { hw with queued := hw.queued.push ?_ fun id => hcan id }
      cases command with
      | rpc id method params => exact absurd rfl (hrpc id method params)
      | _ => rfl
  | handled spawns =>
    dsimp only [rpcStep] at hstep
    split at hstep
    · next command mailbox hidle hmail =>
      cases hstep
      exact hw.handled hidle hmail
    · cases hstep
  | handedOver =>
    dsimp only [rpcStep] at hstep
    split at hstep
    · cases hstep
    · next id line hentering =>
      cases hstep
      refine hw.handOver hentering fun hroom => ?_
      simpa [heard, hroom] using ha
  | childExits =>
    cases (ite_none_right_eq_some.1 hstep).2
    refine ⟨⟨hw.queued.fresh, hw.queued.pending, hw.queued.queued, hw.queued.cancelled,
      hw.queued.order, hw.queued.once, hw.queued.apart⟩, ⟨hw.live.1, fun id h => ?_⟩, hw.answered⟩
    obtain ⟨hrun, hwr⟩ := hw.live.2 id h
    exact ⟨hrun, fun hent => ⟨(hwr hent).1, .inl rfl⟩⟩
  | exitNoticed =>
    obtain ⟨hidle, ⟨⟩⟩ := ite_none_right_eq_some.1 hstep
    simp only [Bool.and_eq_true, isNone_iff_eq_none] at hidle
    exact hw.reject hidle.1.1
  | respawned spawns =>
    dsimp only [rpcStep] at hstep
    obtain ⟨hbusy, ⟨⟩⟩ := ite_none_left_eq_some.1 hstep
    simp only [Bool.or_eq_true, not_or, not_isSome_iff_eq_none] at hbusy
    exact hw.spawnChild hbusy.1 (Bool.not_eq_true _ ▸ hbusy.2)
  | outputFound generation bytes =>
    dsimp only [rpcStep] at hstep
    split at hstep
    · cases hstep
    next reader hrd =>
    split at hstep
    · cases hstep
    split at hstep
    · next hend =>
      have hidle : w.awaitsOutput generation = false := by simpa [heard, hend] using ha
      cases hstep
      split
      · exact hw.holdLine hrd (.inr hidle)
      · exact hw.setReader hrd (.inr hidle)
    · cases hstep
      exact hw.setReader hrd (.inl rfl)
  | lineRead generation =>
    dsimp only [rpcStep] at hstep
    split at hstep
    · cases hstep
    next reader hrd =>
    cases (ite_none_left_eq_some.1 hstep).2
    split
    · exact hw.setReader hrd (.inl rfl)
    · exact hw.holdLine hrd (.inl rfl)
    · next hstops =>
      have hidle : w.awaitsOutput generation = false := by
        simpa [heard, hrd, hstops] using ha
      exact hw.setReader hrd (.inr hidle)
  | lineHandled generation =>
    dsimp only [rpcStep] at hstep
    split at hstep
    · cases hstep
    next reader hrd =>
    split at hstep
    · cases hstep
    next text hheld =>
    cases hstep
    have hset : (w.setReader generation { reader with held := none }).Accounted :=
      hw.setReader hrd (.inl rfl)
    refine hset.handleLine fun id hid hpend => ?_
    have hheard : (w.pending.lookup id).isNone = true ∨
        w.generation = generation ∧ w.enters id = false := by
      simpa [heard, hrd, hheld, hid] using ha
    refine hheard.resolve_left fun hnone => ?_
    rw [isNone_iff_eq_none] at hnone
    change (w.pending.lookup id).isSome = true at hpend
    rw [hnone] at hpend
    cases hpend
  | otherLine =>
    dsimp only [rpcStep] at hstep
    split at hstep
    · obtain ⟨-, stdin, rfl⟩ := trySend_eq_some hstep
      exact hw.setStdin
    · cases hstep
  | lineWritten =>
    dsimp only [rpcStep] at hstep
    split at hstep
    · cases hstep
    · cases hstep
      exact hw.setStdin
  | writerFails =>
    cases (ite_none_right_eq_some.1 hstep).2
    exact hw.setStdin

end RpcWorld

section

variable {extensionId : String} {fromStr : String → Option Value}

/-- Where the calls are heard, they are accounted for. -/
theorem RpcWorld.Accounted.of_reachable {w : RpcWorld}
    (h : ((rpcMachine extensionId fromStr).restrict fun w a => heard fromStr w a = true).Reachable
      w) : w.Accounted := by
  refine h.rule ⟨Queued.init, Live.init, fun id result source h => ?_⟩ fun u a v _ hu hv => ?_
  · simp [rpcMachine, RpcWorld.init] at h
  · obtain ⟨ha, hstep⟩ := Machine.restrict_step_eq_some.1 hv
    exact hu.step ha hstep

/-- **No call is orphaned**, where every call that is dropped gets its
cancellation into the mailbox, and the output of a live child is read as
long as calls to it are pending: a result comes from the child the call
was written to, which answered its id, and whenever the mailbox is empty,
no call is being entered and no exit is to be noticed, each pending call has a caller that waits
and a running child whose output is read. -/
theorem no_rpc_orphaned {w : RpcWorld}
    (h : ((rpcMachine extensionId fromStr).restrict fun w a => heard fromStr w a = true).Reachable
      w) : w.ResultsAnswered ∧ w.NoOrphans := by
  have hw := RpcWorld.Accounted.of_reachable h
  refine ⟨hw.answered, fun hmailbox hidle hexited id method hpending => ?_⟩
  have hsome : (w.pending.lookup id).isSome = true := by rw [hpending]; rfl
  obtain ⟨hrunning, hwr⟩ := hw.live.2 id hsome
  obtain ⟨-, halive⟩ := hwr (RpcWorld.enters_eq_false hidle id)
  -- an idle actor has no cancellation to read and no exit to notice
  refine ⟨(hw.queued.pending id hsome).resolve_right fun ⟨_, hcancel⟩ => ?_, hrunning,
    halive.resolve_left fun hexit => ?_⟩
  · rw [hmailbox] at hcancel
    cases hcancel
  · rw [hexited] at hexit
    cases hexit

end

section

/-- A parser that knows one response. -/
def parseOneResponse (text : String) : Option Value :=
  if text = "\x7b\"id\":1,\"result\":true\x7d" then
    some (.object [("id", .number (.posInt 1)), ("result", .bool true)])
  else none

/-- Two calls, of which the child answers the first, and a third that is
dropped. -/
def answeredCalls : List RpcAction :=
  [.commanded .start, .handled true, .called "codex/list" none, .sent 1, .called "codex/read" none,
    .sent 2, .handled true, .handedOver, .handled true, .handedOver, .called "codex/read" none,
    .sent 3, .handled true, .handedOver,
    .outputFound 1 ("\x7b\"id\":1,\"result\":true\x7d\n".toList.map fun c => c.val.toUInt8),
    .lineRead 1, .lineHandled 1, .dropped 3 false, .handled true]

/-- The second call is pending, and its caller waits. -/
theorem no_rpc_orphaned_example :
    ∃ w, (rpcMachine "codex" parseOneResponse).exec answeredCalls .init = some w ∧
      w.answered = [(1, 1)] ∧ w.pending.lookup 2 = some "codex/read" ∧
      w.calls.lookup 2 = some .waiting ∧ w.ResultsAnswered ∧ w.NoOrphans := by
  have hrun : ((rpcMachine "codex" parseOneResponse).restrict
      fun w a => heard parseOneResponse w a = true).exec answeredCalls .init = some _ :=
    Machine.exec_eq_run (by decide +kernel)
  obtain ⟨hanswered, horphans⟩ := no_rpc_orphaned ⟨_, hrun⟩
  have hpending : AList.lookup 2 (((rpcMachine "codex" parseOneResponse).restrict
      fun w a => heard parseOneResponse w a = true).run answeredCalls .init).pending =
      some "codex/read" := by decide +kernel
  have hmailbox := length_eq_zero_iff.1 (show (((rpcMachine "codex" parseOneResponse).restrict
      fun w a => heard parseOneResponse w a = true).run answeredCalls .init).mailbox.length = 0 by
    decide +kernel)
  exact ⟨_, Machine.exec_of_restrict hrun, by decide +kernel, hpending,
    (horphans hmailbox (by decide +kernel) (by decide +kernel) 2 _ hpending).1, hanswered, horphans⟩

/-- A call, and a line of output that is not UTF-8. -/
def malformedOutput : List RpcAction :=
  [.commanded .start, .handled true, .called "codex/list" none, .sent 1, .handled true,
    .handedOver, .outputFound 1 [0xff, newline], .lineRead 1]

/-- The reader returns on it. The child runs, nothing is to be done, and
nothing will ever take the call out of the map. -/
theorem reader_stops_with_call_pending :
    ∃ w, (rpcMachine "codex" parseOneResponse).exec malformedOutput .init = some w ∧
      w.mailbox.length = 0 ∧ w.running = true ∧ w.exited = false ∧
      w.pending.lookup 1 = some "codex/list" ∧ w.readsOutput = false ∧ ¬ w.NoOrphans := by
  have hrun : (rpcMachine "codex" parseOneResponse).exec malformedOutput .init = some _ :=
    Machine.exec_eq_run (by decide +kernel)
  have hmailbox : ((rpcMachine "codex" parseOneResponse).run malformedOutput .init).mailbox.length =
      0 := by decide +kernel
  have hpending : AList.lookup 1 ((rpcMachine "codex" parseOneResponse).run malformedOutput
      .init).pending = some "codex/list" := by decide +kernel
  have hreads : ((rpcMachine "codex" parseOneResponse).run malformedOutput .init).readsOutput =
      false := by decide +kernel
  have hexited : ((rpcMachine "codex" parseOneResponse).run malformedOutput .init).exited =
      false := by decide +kernel
  have hidle : ((rpcMachine "codex" parseOneResponse).run malformedOutput .init).entering.isNone =
      true := by decide +kernel
  refine ⟨_, hrun, hmailbox, by decide +kernel, hexited, hpending, hreads, fun horphans => ?_⟩
  obtain ⟨-, -, htrue⟩ := horphans (length_eq_zero_iff.1 hmailbox)
    (Option.isNone_iff_eq_none.1 hidle) hexited 1 _ hpending
  cases htrue

end

end Extensions

end Remux
