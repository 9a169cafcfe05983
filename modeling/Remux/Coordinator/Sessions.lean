import Remux.Coordinator.Model.Sessions

/-!
# One session per execution

Detaching deletes the map's entry before the session is closed, so that
another one may be opened while it closes; and `closeFederatedExecution`
looks at `sessions` only, so that a session which is being opened is
attached after the execution was closed. In runs whose opens find nothing
closing, and whose closes find nothing opening and are not undone by what a
session still tells, neither happens: each execution has at most one
session that is not closed.
-/

namespace Remux.Coordinator

open Option List Slot

variable {slot slot' : Slot} {session : ℕ} {fenced : Bool}

/-! ## The statement -/

/-- The sessions of an execution that are attached, asked for, or not
finished closing. -/
def Slot.unfinished (slot : Slot) : ℕ :=
  slot.session.toList.length + (slot.opening.toList.filter (·.unfinished)).length +
    slot.closing.length

/-- No session of the execution is closing where a new one is opened. -/
def Slot.opensClearly (slot : Slot) : Bool :=
  slot.session.isSome || slot.opening.isSome || slot.closing.isEmpty

/-- No session is attached or asked for where the native one is marked
closed. -/
def Slot.closesClearly (slot : Slot) : Bool :=
  !slot.bound || slot.session.isNone && !slot.opening.any (·.pending)

/-- **The condition of a step.** -/
def clearly (C : Coordinator) : SessionAction → Bool
  | .createExecution executionId _ _ | .ensureSession executionId _
  | .ensureExecutionSession executionId => (C.slots executionId).opensClearly
  | .recoverAfterStreamLoss executionId _ _ =>
    !(C.slots executionId).recovering || (C.slots executionId).opensClearly
  | .markNativeSessionClosed executionId _ => (C.slots executionId).closesClearly
  | .sessionHealth executionId _ => !(C.slots executionId).markedClosed
  | _ => true

/-! ## What a step keeps -/

/-- A slot that was marked closed stays without a session. -/
structure Slot.Shut (slot : Slot) : Prop where
  ownership : slot.ownership = some .federated
  session : slot.session = none
  opening : slot.opening.any (·.pending) = false
  nativeClosed : slot.nativeClosed = true
  recovering : slot.recovering = false

/-- **A slot has at most one session**, and none once it is shut; only a
federated one is closed for good. -/
structure Slot.Single (slot : Slot) : Prop where
  one : slot.unfinished ≤ 1
  shut : slot.markedClosed = true → slot.Shut
  owned : slot.closes ≠ [] → slot.ownership = some .federated

theorem Slot.single_empty : empty.Single := ⟨by decide, nofun, fun h => absurd rfl h⟩

variable (h : slot.Single)
include h

/-- A new opening is the only one of its slot. -/
theorem Slot.Single.openAttachedSession (hclr : slot.opensClearly = true)
    (hopen : slot.markedClosed = true → slot.session.isSome = true ∨ slot.opening.isSome = true)
    (hstep : slot.openAttachedSession fenced = some slot') : slot'.Single := by
  unfold Slot.openAttachedSession at hstep
  split at hstep
  · cases hstep
    exact h
  · next hsess =>
    obtain ⟨-, hstep⟩ := ite_none_left_eq_some.1 hstep
    split at hstep
    · cases hstep
      exact h
    · next hopening =>
      cases hstep
      have hnone : slot.session = none := by simpa using hsess
      have hidle : slot.opening = none := by simpa using hopening
      have hclosing : slot.closing = [] := by
        unfold Slot.opensClearly at hclr
        simpa [hnone, hidle] using hclr
      refine ⟨?_, fun hmark => ?_, h.owned⟩
      · have hcnt : ({ slot with opening := some .requested } : Slot).unfinished = 1 := by
          simp [Slot.unfinished, hnone, hclosing, OpeningPhase.unfinished]
        omega
      · rcases hopen hmark with hsome | hsome
        · exact absurd hsome hsess
        · exact absurd hsome hopening

/-- A slot that is shut refuses a session. -/
theorem Slot.Single.ensureExecutionSession (hclr : slot.opensClearly = true)
    (hstep : slot.ensureExecutionSession = some slot') : slot'.Single := by
  unfold Slot.ensureExecutionSession at hstep
  split at hstep
  · cases hstep
    exact h
  · split at hstep
    · cases hstep
    · next hopen =>
      refine h.openAttachedSession hclr (fun hmark => ?_) hstep
      rw [(h.shut hmark).nativeClosed] at hopen
      exact absurd rfl hopen

/-- The session that was opened is the one. -/
theorem Slot.Single.opened (hstep : slot.opened session = some slot') : slot'.Single := by
  unfold Slot.opened at hstep
  split at hstep
  · next hopen =>
    cases hstep
    refine ⟨?_, fun hmark => ?_, h.owned⟩
    · have hone := h.one
      unfold Slot.unfinished at hone ⊢
      rw [hopen] at hone
      exact hone
    · have hpend := (h.shut hmark).opening
      rw [hopen] at hpend
      cases hpend
  · cases hstep

/-- An entry that has not come to a session is dropped. -/
theorem Slot.Single.dropOpening : ({ slot with opening := none } : Slot).Single where
  one := by
    have hone := h.one
    unfold unfinished at hone ⊢
    dsimp only [toList_none, filter_nil, length_nil] at hone ⊢
    omega
  shut hmark := ⟨(h.shut hmark).ownership, (h.shut hmark).session, rfl,
    (h.shut hmark).nativeClosed, (h.shut hmark).recovering⟩
  owned := h.owned

/-- A connection that failed leaves none. -/
theorem Slot.Single.connectFailed (hstep : slot.connectFailed = some slot') : slot'.Single := by
  unfold Slot.connectFailed at hstep
  split at hstep
  · next hopen =>
    cases hstep
    refine ⟨?_, fun hmark => ?_, h.owned⟩
    · have hone := h.one
      unfold Slot.unfinished at hone ⊢
      rw [hopen] at hone
      exact hone
    · exact ⟨(h.shut hmark).ownership, (h.shut hmark).session, rfl,
        (h.shut hmark).nativeClosed, (h.shut hmark).recovering⟩
  · cases hstep

/-- A session is attached where there was none. -/
theorem Slot.Single.connected {closed : Bool}
    (hstep : slot.connected closed = some slot') : slot'.Single := by
  unfold Slot.connected at hstep
  split at hstep
  · next new hopen =>
    cases closed with
    | true => exact h.connectFailed hstep
    | false =>
      cases hstep
      have hone := h.one
      unfold Slot.unfinished at hone
      rw [hopen] at hone
      have hpend : ((some (OpeningPhase.connecting new)).toList.filter
          (·.unfinished)).length = 1 := rfl
      have hnone : slot.session = none := by
        cases hsess : slot.session with
        | none => rfl
        | some old =>
          rw [hsess, hpend] at hone
          simp only [toList_some, length_singleton] at hone
          omega
      refine ⟨?_, fun hmark => ?_, h.owned⟩
      · unfold Slot.unfinished Slot.attachSession
        simp only [hnone, toList_none, filter_nil, append_nil, toList_some, length_singleton]
        have hset : ([OpeningPhase.settled].filter (·.unfinished)).length = 0 := rfl
        omega
      · have hpend := (h.shut hmark).opening
        rw [hopen] at hpend
        cases hpend
  · cases hstep

omit h

/-- The attached session is closed: the count stays. -/
theorem Slot.unfinished_closeSession (h : slot.session = some session) :
    ({ slot with session := none, closing := slot.closing ++ [session] } : Slot).unfinished =
      slot.unfinished := by
  unfold unfinished
  rw [h]
  simp only [toList_none, length_nil, toList_some, length_singleton, length_append]
  omega

include h

/-- A slot that is shut has no session to close. -/
theorem Slot.Single.not_marked (hsess : slot.session = some session) :
    slot.markedClosed = false := by
  by_contra hmark
  rw [Bool.not_eq_false] at hmark
  rw [(h.shut hmark).session] at hsess
  cases hsess

/-- A session that is detached leaves one at most. -/
theorem Slot.Single.detachAndCloseSession {explicit work : Bool}
    (hstep : slot.detachAndCloseSession session explicit work = some slot') : slot'.Single := by
  unfold Slot.detachAndCloseSession at hstep
  obtain ⟨hsess, hstep⟩ := ite_none_left_eq_some.1 hstep
  rw [ne_eq, not_not] at hsess
  cases (ite_none_left_eq_some.1 hstep).2
  refine ⟨(Slot.unfinished_closeSession hsess).trans_le h.one, fun hmark => ?_, h.owned⟩
  have hmark' : slot.markedClosed = true := hmark
  rw [h.not_marked hsess] at hmark'
  cases hmark'

/-- A close that ends leaves one at most. -/
theorem Slot.Single.closeFinished (hstep : slot.closeFinished session = some slot') :
    slot'.Single := by
  unfold Slot.closeFinished at hstep
  obtain ⟨hmem, ⟨⟩⟩ := ite_none_right_eq_some.1 hstep
  refine ⟨?_, fun hmark => ⟨(h.shut hmark).ownership, (h.shut hmark).session,
    (h.shut hmark).opening, (h.shut hmark).nativeClosed, (h.shut hmark).recovering⟩, h.owned⟩
  have hone := h.one
  have herase := length_erase_of_mem hmem
  unfold Slot.unfinished at hone ⊢
  dsimp only
  omega

theorem Slot.Single.streamEnded (hstep : slot.streamEnded session = some slot') : slot'.Single := by
  unfold Slot.streamEnded at hstep
  obtain ⟨hsess, ⟨⟩⟩ := ite_none_right_eq_some.1 hstep
  refine ⟨(Slot.unfinished_closeSession hsess).trans_le h.one, fun hmark => ?_, h.owned⟩
  have hmark' : slot.markedClosed = true := hmark
  rw [h.not_marked hsess] at hmark'
  cases hmark'

/-- A federated execution that is closed leaves one at most. -/
theorem Slot.Single.closeFederatedExecution
    (hstep : slot.closeFederatedExecution = some slot') : slot'.Single := by
  unfold Slot.closeFederatedExecution at hstep
  obtain ⟨howned, ⟨⟩⟩ := ite_none_right_eq_some.1 hstep
  refine ⟨?_, fun hmark => ⟨(h.shut hmark).ownership, rfl, (h.shut hmark).opening,
    (h.shut hmark).nativeClosed, (h.shut hmark).recovering⟩, fun _ => howned⟩
  have hone := h.one
  unfold Slot.unfinished at hone ⊢
  simp only [toList_none, length_nil, length_append]
  omega

/-- A session that reports leaves one, if none was marked closed. -/
theorem Slot.Single.sessionHealth {ready : Bool} (hclr : (!slot.markedClosed) = true)
    (hstep : slot.sessionHealth ready = some slot') : slot'.Single := by
  unfold Slot.sessionHealth at hstep
  obtain ⟨-, ⟨⟩⟩ := ite_none_right_eq_some.1 hstep
  refine ⟨h.one, fun hmark => ?_, h.owned⟩
  have hmark' : slot.markedClosed = true := hmark
  rw [hmark'] at hclr
  cases hclr

/-- Nothing is attached or asked for when the native session is marked
closed, so that the slot is shut. -/
theorem Slot.Single.markNativeSessionClosed {closing : Option ℕ} (hclr : slot.closesClearly = true)
    (hstep : slot.markNativeSessionClosed closing = some slot') : slot'.Single := by
  unfold Slot.markNativeSessionClosed at hstep
  obtain ⟨hwaits, ⟨⟩⟩ := ite_none_right_eq_some.1 hstep
  have howned := h.owned (ne_nil_of_mem hwaits.1)
  refine ⟨h.one, fun hmark => ?_, fun _ => howned⟩
  have hmark : (slot.markedClosed || slot.bound) = true := hmark
  cases hbound : slot.bound with
  | false =>
    -- there is no row to mark
    rw [hbound, Bool.or_false] at hmark
    have hshut := h.shut hmark
    exact ⟨howned, hshut.session, hshut.opening, by rw [hshut.nativeClosed]; rfl, rfl⟩
  | true =>
    unfold Slot.closesClearly at hclr
    simp only [hbound, Bool.not_true, Bool.false_or, Bool.and_eq_true, isNone_iff_eq_none,
      Bool.not_eq_true'] at hclr
    exact ⟨howned, hclr.1, hclr.2, Bool.or_true _, rfl⟩

theorem Slot.Single.openFailed (hstep : slot.openFailed = some slot') : slot'.Single := by
  unfold Slot.openFailed at hstep
  split at hstep
  · cases hstep
    exact h.dropOpening
  · cases hstep

theorem Slot.Single.settle (hstep : slot.settle = some slot') : slot'.Single := by
  unfold Slot.settle at hstep
  split at hstep
  · cases hstep
    exact h.dropOpening
  · cases hstep

theorem Slot.Single.failedClosed (hstep : slot.failedClosed = some slot') : slot'.Single := by
  unfold Slot.failedClosed at hstep
  split at hstep
  · cases hstep
    exact h.dropOpening
  · cases hstep

/-- What a session that was lost leaves behind is not looked at. -/
theorem Slot.Single.withLost (lost : List ℕ) : ({ slot with lost := lost } : Slot).Single where
  __ := h
  shut hmark := ⟨(h.shut hmark).ownership, (h.shut hmark).session, (h.shut hmark).opening,
    (h.shut hmark).nativeClosed, (h.shut hmark).recovering⟩

theorem Slot.Single.recovered : ({ slot with recovering := false } : Slot).Single where
  __ := h
  shut hmark := ⟨(h.shut hmark).ownership, (h.shut hmark).session, (h.shut hmark).opening,
    (h.shut hmark).nativeClosed, rfl⟩

/-- A slot that recovers is not shut. -/
theorem Slot.Single.not_marked_of_recovering (hrecov : slot.recovering = true) :
    slot.markedClosed = false := by
  by_contra hmark
  rw [Bool.not_eq_false] at hmark
  rw [(h.shut hmark).recovering] at hrecov
  cases hrecov

variable {opened : Option Slot}

/-- An open that is refused changes nothing. -/
theorem Slot.Single.getD
    (hopened : ∀ new, opened = some new → new.Single) : (opened.getD slot).Single := by
  cases hnew : opened with
  | none => exact h
  | some new => exact hopened new hnew

/-- A slot that is shut does not recover, so that none of its sessions
comes back. -/
theorem Slot.Single.recoverAfterStreamLoss (hclr : (!slot.recovering || slot.opensClearly) = true)
    (hstep : slot.recoverAfterStreamLoss session fenced = some slot') : slot'.Single := by
  unfold Slot.recoverAfterStreamLoss at hstep
  obtain ⟨-, hstep⟩ := ite_none_right_eq_some.1 hstep
  dsimp only at hstep
  split at hstep
  · cases hstep
    exact h.withLost _
  · next hrecov =>
    simp only [Bool.not_eq_true', Bool.not_eq_false] at hrecov
    have hopens : slot.opensClearly = true := by simpa [hrecov] using hclr
    have hmark := h.not_marked_of_recovering hrecov
    split at hstep
    · cases hstep
      refine (h.withLost _).getD fun new hnew => ?_
      have hreopened : ({ slot with lost := slot.lost.erase session, nativeClosed := false } :
          Slot).Single :=
        ⟨h.one, fun hm => absurd (hm.symm.trans hmark) nofun, h.owned⟩
      exact hreopened.ensureExecutionSession hopens hnew
    · cases hstep
      refine (h.withLost _).getD fun new hnew => ?_
      have hlost := h.withLost (slot.lost.erase session)
      exact hlost.openAttachedSession hopens (fun hm => absurd (hm.symm.trans hmark) nofun) hnew

/-- An execution that opens clearly has one session. -/
theorem Slot.Single.createExecution {ownership : Journal.Ownership}
    (hclr : slot.opensClearly = true)
    (hstep : Coordinator.createExecution ownership fenced slot = some slot') : slot'.Single := by
  unfold Coordinator.createExecution at hstep
  obtain ⟨hnew, hstep⟩ := ite_none_right_eq_some.1 hstep
  have hmark : slot.markedClosed = true → False := fun hm => by
    have howned := (h.shut hm).ownership
    rw [hnew.1] at howned
    cases howned
  have hcloses : slot.closes ≠ [] → False := fun hne => by
    have howned := h.owned hne
    rw [hnew.1] at howned
    cases howned
  have hmade : ({ slot with ownership := some ownership } : Slot).Single :=
    ⟨h.one, fun hm => (hmark hm).elim, fun hne => (hcloses hne).elim⟩
  exact hmade.openAttachedSession hclr (fun hm => (hmark hm).elim) hstep

/-- Every session is closed at the end. -/
theorem Slot.Single.close :
    ({ slot with session := none, closing := slot.closing ++ slot.session.toList } :
      Slot).Single where
  one := by
    have hone := h.one
    unfold unfinished at hone ⊢
    simp only [toList_none, length_nil, length_append]
    omega
  shut hmark := ⟨(h.shut hmark).ownership, rfl, (h.shut hmark).opening,
    (h.shut hmark).nativeClosed, (h.shut hmark).recovering⟩
  owned := h.owned

omit h

/-! ## Steps -/

/-- All its executions have at most one session. -/
def Singles (C : Coordinator) : Prop := ∀ executionId, (C.slots executionId).Single

variable {C C' : Coordinator} {executionId : String}

variable {f : Slot → Option Slot} {a : SessionAction}

/-- A step of one execution leaves the others alone. -/
theorem withSlot_eq (hstep : C.withSlot executionId f = some C') :
    ∃ slot, f (C.slots executionId) = some slot ∧ C'.slots executionId = slot ∧
      ∀ other, other ≠ executionId → C'.slots other = C.slots other := by
  unfold withSlot at hstep
  rw [map_eq_some_iff] at hstep
  obtain ⟨slot, hslot, rfl⟩ := hstep
  exact ⟨slot, hslot, if_pos rfl, fun other hne => if_neg hne⟩

/-- A step of one slot leaves the others single. -/
theorem Singles.withSlot (h : Singles C)
    (hf : ∀ slot, f (C.slots executionId) = some slot → slot.Single)
    (hstep : C.withSlot executionId f = some C') : Singles C' := by
  obtain ⟨slot, hslot, hat, hne⟩ := withSlot_eq hstep
  intro other
  by_cases hsame : other = executionId
  · rw [hsame, hat]
    exact hf slot hslot
  · rw [hne other hsame]
    exact h other

/-- **The step lemma**: what a clear step leads to. -/
theorem Singles.step (h : Singles C) (hclr : clearly C a = true) (hstep : C.step a = some C') :
    Singles C' := by
  unfold Coordinator.step at hstep
  cases a with
  | createExecution executionId ownership fenced =>
    exact h.withSlot (fun _ hf => (h executionId).createExecution hclr hf) hstep
  | ensureSession executionId fenced =>
    refine h.withSlot (fun slot hf => ?_) hstep
    obtain ⟨hroot, hf⟩ := ite_none_right_eq_some.1 hf
    refine (h executionId).openAttachedSession hclr (fun hmark => ?_) hf
    have howned := ((h executionId).shut hmark).ownership
    rw [hroot] at howned
    cases howned
  | ensureExecutionSession executionId =>
    refine h.withSlot (fun slot hf => ?_) hstep
    split at hf
    · exact (h executionId).ensureExecutionSession hclr hf
    · cases hf
  | opened executionId =>
    rw [map_eq_some_iff] at hstep
    obtain ⟨C₁, hslot, rfl⟩ := hstep
    have hsingles : Singles C₁ := h.withSlot (fun _ hf => (h executionId).opened hf) hslot
    exact hsingles
  | openFailed executionId =>
    exact h.withSlot (fun _ hf => (h executionId).openFailed hf) hstep
  | connectFailed executionId =>
    exact h.withSlot (fun _ hf => (h executionId).connectFailed hf) hstep
  | connected executionId =>
    exact h.withSlot (fun _ hf => (h executionId).connected hf) hstep
  | settle executionId => exact h.withSlot (fun _ hf => (h executionId).settle hf) hstep
  | failedClosed executionId =>
    exact h.withSlot (fun _ hf => (h executionId).failedClosed hf) hstep
  | detachAndCloseSession executionId session explicit work =>
    exact h.withSlot (fun _ hf => (h executionId).detachAndCloseSession hf) hstep
  | closeFinished executionId session =>
    exact h.withSlot (fun _ hf => (h executionId).closeFinished hf) hstep
  | streamEnded executionId session =>
    exact h.withSlot (fun _ hf => (h executionId).streamEnded hf) hstep
  | recoverAfterStreamLoss executionId session fenced =>
    dsimp only at hstep
    split at hstep
    · cases hstep
    · exact h.withSlot (fun _ hf => (h executionId).recoverAfterStreamLoss hclr hf) hstep
  | sessionHealth executionId ready =>
    exact h.withSlot (fun _ hf => (h executionId).sessionHealth hclr hf) hstep
  | recovered executionId =>
    refine h.withSlot (fun slot hf => ?_) hstep
    cases hf
    exact (h executionId).recovered
  | closeFederatedExecution executionId =>
    exact h.withSlot (fun _ hf => (h executionId).closeFederatedExecution hf) hstep
  | markNativeSessionClosed executionId session =>
    exact h.withSlot (fun _ hf => (h executionId).markNativeSessionClosed hclr hf) hstep
  | close =>
    dsimp only at hstep
    split at hstep
    · cases hstep
    · cases hstep
      exact fun executionId => (h executionId).close

/-! ## Marked for good -/

/-- A step of one execution that keeps its mark keeps every mark. -/
theorem marked_withSlot (hstep : C.withSlot executionId f = some C')
    (hf : ∀ slot, f (C.slots executionId) = some slot →
      (C.slots executionId).markedClosed = true → slot.markedClosed = true) {other : String}
    (hmark : (C.slots other).markedClosed = true) : (C'.slots other).markedClosed = true := by
  obtain ⟨slot, hslot, hat, hne⟩ := withSlot_eq hstep
  by_cases hsame : other = executionId
  · rw [hsame] at hmark ⊢
    rw [hat]
    exact hf slot hslot hmark
  · rw [hne other hsame]
    exact hmark

theorem Slot.marked_openAttachedSession (h : slot.openAttachedSession fenced = some slot') :
    slot'.markedClosed = slot.markedClosed := by
  unfold openAttachedSession at h
  grind

theorem Slot.marked_ensureExecutionSession (h : slot.ensureExecutionSession = some slot') :
    slot'.markedClosed = slot.markedClosed := by
  unfold ensureExecutionSession at h
  grind [marked_openAttachedSession]

/-- An open that is refused marks nothing. -/
theorem Slot.marked_getD (h : slot.markedClosed = true)
    (hopened : ∀ new, opened = some new → new.markedClosed = true) :
    (opened.getD slot).markedClosed = true := by
  cases hnew : opened with
  | none => exact h
  | some new => exact hopened new hnew

/-- A recovery does not unmark the native session. -/
theorem Slot.marked_recoverAfterStreamLoss (hmark : slot.markedClosed = true)
    (h : slot.recoverAfterStreamLoss session fenced = some slot') : slot'.markedClosed = true := by
  unfold recoverAfterStreamLoss at h
  obtain ⟨-, h⟩ := ite_none_right_eq_some.1 h
  dsimp only at h
  split at h
  · cases h
    exact hmark
  · split at h
    · cases h
      refine marked_getD hmark fun new hnew => ?_
      rw [marked_ensureExecutionSession hnew]
      exact hmark
    · cases h
      refine marked_getD hmark fun new hnew => ?_
      rw [marked_openAttachedSession hnew]
      exact hmark

/-- The mark of an execution stays. -/
theorem marked_step (hstep : C.step a = some C') {other : String}
    (hmark : (C.slots other).markedClosed = true) : (C'.slots other).markedClosed = true := by
  unfold Coordinator.step at hstep
  cases a with
  | createExecution _ _ _ =>
    refine marked_withSlot hstep (fun slot hf hm => ?_) hmark
    unfold createExecution at hf
    split at hf
    · rw [marked_openAttachedSession hf]
      exact hm
    · cases hf
  | ensureSession _ _ =>
    exact marked_withSlot hstep (by grind [marked_openAttachedSession]) hmark
  | ensureExecutionSession _ =>
    exact marked_withSlot hstep (by grind [marked_ensureExecutionSession]) hmark
  | opened _ =>
    rw [map_eq_some_iff] at hstep
    obtain ⟨C₁, hslot, rfl⟩ := hstep
    exact marked_withSlot hslot (by grind [opened]) hmark
  | openFailed _ => exact marked_withSlot hstep (by grind [openFailed]) hmark
  | connectFailed _ => exact marked_withSlot hstep (by grind [connectFailed]) hmark
  | connected _ =>
    exact marked_withSlot hstep (by grind [connected, connectFailed, attachSession]) hmark
  | settle _ => exact marked_withSlot hstep (by grind [settle]) hmark
  | failedClosed _ => exact marked_withSlot hstep (by grind [failedClosed]) hmark
  | detachAndCloseSession _ _ _ _ =>
    exact marked_withSlot hstep (by grind [detachAndCloseSession]) hmark
  | closeFinished _ _ => exact marked_withSlot hstep (by grind [closeFinished]) hmark
  | streamEnded _ _ => exact marked_withSlot hstep (by grind [streamEnded]) hmark
  | recoverAfterStreamLoss _ _ _ =>
    dsimp only at hstep
    split at hstep
    · cases hstep
    · exact marked_withSlot hstep (fun _ hf hm => marked_recoverAfterStreamLoss hm hf) hmark
  | sessionHealth _ _ => exact marked_withSlot hstep (by grind [sessionHealth]) hmark
  | recovered _ => exact marked_withSlot hstep (by grind) hmark
  | closeFederatedExecution _ =>
    exact marked_withSlot hstep (by grind [closeFederatedExecution]) hmark
  | markNativeSessionClosed _ _ =>
    exact marked_withSlot hstep (by grind [markNativeSessionClosed]) hmark
  | close =>
    dsimp only at hstep
    split at hstep
    · cases hstep
    · cases hstep
      exact hmark

/-! ## Runs -/

/-- A step attaches a session to the execution. -/
def Attaches (executionId : String) (C C' : Coordinator) : Prop :=
  (C'.slots executionId).session ≠ none ∧
    (C'.slots executionId).session ≠ (C.slots executionId).session

/-- **The run lemma.** -/
theorem singles_of_reachable (h : (machine.restrict fun C a => clearly C a = true).Reachable C) :
    Singles C := by
  refine h.rule (fun _ => single_empty) fun U a V _ hU hstep => ?_
  obtain ⟨hclr, hstep⟩ := Machine.restrict_step_eq_some.1 hstep
  exact hU.step hclr hstep

/-- A root's session is evicted, and while it closes the next message
opens another. -/
def evictedRun : List SessionAction :=
  [.createExecution "root" .root false, .opened "root", .connected "root", .settle "root",
    .detachAndCloseSession "root" 0 false false, .ensureSession "root" false]

/-- A child is closed while its first session, which is bound, connects; it
is attached afterwards. -/
def closedChildRun : List SessionAction :=
  [.createExecution "child" .federated false, .opened "child", .closeFederatedExecution "child",
    .markNativeSessionClosed "child" none]

/-- A child is detached, opened again, and closed once nothing opens. -/
def followUpRun : List SessionAction :=
  [.createExecution "child" .federated false, .opened "child", .connected "child",
    .settle "child", .detachAndCloseSession "child" 0 false false, .closeFinished "child" 0,
    .ensureExecutionSession "child", .opened "child", .connected "child", .settle "child",
    .closeFederatedExecution "child", .closeFinished "child" 1,
    .markNativeSessionClosed "child" (some 1)]

end Remux.Coordinator
