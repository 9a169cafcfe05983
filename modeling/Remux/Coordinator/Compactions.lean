import Remux.Coordinator.Model.Commands

/-!
# One compaction at a time

`compactConversation` looks for a pending operation and for an unresolved
delivery before it waits for the session, and creates its operation
afterwards without looking again. In runs whose creations find again what
the checks found, a conversation has at most one manual compaction that is
queued or running. What carries this are the operations that hold the
lane: those, and the ones of unknown delivery whose attempt may yet turn
out to be accepted.
-/

namespace Remux.Coordinator

open Bool hiding and_self false_or or_false or_true true_or
open Option (bind_eq_some_iff ite_none_right_eq_some map_eq_some_iff)
open Conversation Lane Compaction List

variable {L L₁ L₂ : Lane} {C C' : Conversation}

/-! ## The statement -/

/-- A manual compaction that is queued or running. -/
def Compaction.manualPending (c : Compaction) : Bool := c.trigger == .manual && c.pending

/-- **A manual compaction holds the lane**: it is pending, or of unknown
delivery while its attempt is open. -/
def holds (attempts : List Attempt) (c : Compaction) : Bool :=
  c.trigger == .manual && (c.pending || c.state == .deliveryUnknown &&
    attempts.any fun a => a.kind == .manualCompact && a.subjectId == c.operationId && a.isOpen)

/-- No compaction holds the lane. -/
def Lane.released (L : Lane) : Bool := !L.compactions.any (holds L.attempts)

/-- No active turn, no queued entry and no unresolved delivery. -/
def Lane.vacant (L : Lane) : Bool :=
  L.history.activeTurnId.isNone && L.queue.isEmpty && !L.hasUnresolvedRootDelivery

/-- **The condition of a step.** An operation is created where none holds
the lane, and if nothing occupies the queue, where no delivery is
unresolved; a manual one that the provider starts is known, or starts on
a lane that is vacant and released. -/
def createsClearly (C : Conversation) : LaneAction → Bool
  | .compactOpened _ =>
    C.lane.released && (C.queueOccupied || !C.lane.hasUnresolvedRootDelivery)
  | .compactionEvent .started .manual operationId =>
    C.lane.compactions.any (·.operationId == operationId) || C.lane.released && C.lane.vacant
  | _ => true

/-! ## Lanes on which nothing new holds -/

/-- **What a step leaves of the compactions**: each is there with its id,
and holds the lane only if it did. -/
def Lane.Calm (L L' : Lane) : Prop :=
  ∃ f : Compaction → Compaction, L'.compactions = L.compactions.map f ∧
    ∀ c ∈ L.compactions, (f c).operationId = c.operationId ∧
      (holds L'.attempts (f c) = true → holds L.attempts c = true)

/-- Two calm steps are a calm one. -/
theorem Lane.Calm.trans (h : L.Calm L₁) (h' : L₁.Calm L₂) : L.Calm L₂ := by
  obtain ⟨f, hf, hkeep⟩ := h
  obtain ⟨g, hg, hkeep'⟩ := h'
  refine ⟨g ∘ f, by rw [hg, hf, map_map], fun c hc => ?_⟩
  have hfc : f c ∈ L₁.compactions := hf ▸ mem_map_of_mem hc
  obtain ⟨hid, hh⟩ := hkeep c hc
  obtain ⟨hid', hh'⟩ := hkeep' (f c) hfc
  exact ⟨hid'.trans hid, fun h => hh (hh' h)⟩

/-- No attempt for a compaction is opened. -/
theorem Lane.Calm.of_attempts (hcomps : L₁.compactions = L.compactions)
    (hattempts : ∀ c ∈ L.compactions, holds L₁.attempts c = true → holds L.attempts c = true) :
    L.Calm L₁ :=
  ⟨id, by rw [hcomps, map_id], fun c hc => ⟨rfl, hattempts c hc⟩⟩

/-- Neither compactions nor attempts change. -/
theorem Lane.Calm.of_eq (hcomps : L₁.compactions = L.compactions)
    (hattempts : L₁.attempts = L.attempts) : L.Calm L₁ :=
  .of_attempts hcomps fun _ _ h => hattempts ▸ h

theorem Lane.Calm.refl : L.Calm L := .of_eq rfl rfl

/-- The holding compactions do not become more. -/
theorem Lane.Calm.countP_le (h : L.Calm L₁) :
    L₁.compactions.countP (holds L₁.attempts) ≤ L.compactions.countP (holds L.attempts) := by
  obtain ⟨f, hf, hkeep⟩ := h
  rw [hf, countP_map]
  exact countP_mono_left fun c hc => (hkeep c hc).2

theorem Lane.Calm.ids (h : L.Calm L₁) :
    L₁.compactions.map (·.operationId) = L.compactions.map (·.operationId) := by
  obtain ⟨f, hf, hkeep⟩ := h
  rw [hf, map_map]
  exact map_congr_left fun c hc => (hkeep c hc).1

/-! ## Statements -/

variable {p : Compaction → Bool} {state : CompactionState} {attempts : List Attempt}
variable {c : Compaction} {operationId commandId : String} {attempt : Attempt} {deliverable : Bool}
variable {outcome : DeliveryOutcome} {switch : Switch}

/-- An update of the operations lets none hold the lane anew. -/
theorem Lane.Calm.setCompactions
    (h : ∀ c ∈ L.compactions, p c = true → holds L.attempts { c with state } = true →
      holds L.attempts c = true) : L.Calm (L.setCompactions p state) := by
  refine ⟨fun c => if p c then { c with state } else c, rfl, fun c hc => ?_⟩
  dsimp only
  split
  · next hp => exact ⟨rfl, h c hc hp⟩
  · exact ⟨rfl, id⟩

/-- An operation that is over does not hold the lane. -/
theorem holds_eq_false (h : c.state = .completed ∨ c.state = .failed ∨ c.state = .cancelled) :
    holds attempts c = false := by
  rcases h with h | h | h <;> simp [holds, pending, h]

/-- A pending manual operation holds the lane. -/
theorem holds_of_pending (hpend : c.pending = true) (h : holds attempts { c with state } = true) :
    holds attempts c = true := by
  unfold holds at h ⊢
  rw [and_eq_true] at h ⊢
  exact ⟨h.1, by rw [hpend, Bool.true_or]⟩

theorem Lane.Calm.over (h : state = .completed ∨ state = .failed ∨ state = .cancelled) :
    L.Calm (L.setCompactions p state) :=
  .setCompactions fun c _ _ hh => by
    rw [holds_eq_false (c := { c with state }) h] at hh
    cases hh

theorem Lane.Calm.ofPending (h : ∀ c, p c = true → c.pending = true) :
    L.Calm (L.setCompactions p state) :=
  .setCompactions fun c _ hp hh => holds_of_pending (h c hp) hh

theorem Lane.calm_claimCompaction : L.Calm (L.claimCompaction operationId) :=
  (Lane.Calm.of_eq rfl rfl : L.Calm (L.deleteQueuedCompaction operationId)).trans <|
    .ofPending fun c hp => by
      rw [and_eq_true] at hp
      unfold pending
      rw [hp.2, Bool.true_or]

theorem Lane.calm_removeQueuedCompaction : L.Calm (L.removeQueuedCompaction operationId) := by
  unfold removeQueuedCompaction
  split
  · exact (Lane.Calm.of_eq rfl rfl : L.Calm (L.deleteQueuedCompaction operationId)).trans
      (.over (.inr (.inr rfl)))
  · exact .refl

theorem Lane.calm_markRunningCompactionDeliveryUnknown :
    L.Calm L.markRunningCompactionDeliveryUnknown :=
  .ofPending fun c hp => by
    unfold pending
    rw [hp, Bool.or_true]

/-- An operation is restored while its attempt is open: it held the lane. -/
theorem Lane.calm_restore (hmem : attempt ∈ L.attempts) (hkind : attempt.kind = .manualCompact)
    (hopen : attempt.isOpen = true) :
    L.Calm (L.restoreAcceptedCompactionDelivery attempt.subjectId) := by
  refine .setCompactions fun c _ hp hh => ?_
  simp only [and_eq_true, beq_iff_eq] at hp
  unfold holds at hh ⊢
  rw [and_eq_true] at hh ⊢
  refine ⟨hh.1, ?_⟩
  have hany : (L.attempts.any fun a =>
      a.kind == .manualCompact && a.subjectId == c.operationId && a.isOpen) = true :=
    any_eq_true.2 ⟨attempt, hmem, by simp [hkind, hp.1, hopen]⟩
  rw [hany, hp.2]
  simp

theorem Lane.calm_satisfyQueuedCompactionsAfterAutomatic :
    L.Calm L.satisfyQueuedCompactionsAfterAutomatic := by
  refine ⟨fun c => if L.satisfied c then { c with state := .completed } else c, rfl, fun c _ => ?_⟩
  dsimp only
  split
  · refine ⟨rfl, fun hh => ?_⟩
    rw [holds_eq_false (.inl rfl)] at hh
    cases hh
  · exact ⟨rfl, id⟩

/-- No attempt is opened by a change of one that was open. -/
theorem Lane.calm_setAttempt {expected : List DeliveryAttemptState} {state : DeliveryAttemptState}
    (hexpected : ∀ s ∈ expected, openState s = true)
    (h : L.setAttempt commandId expected state = some L₁) : L.Calm L₁ := by
  unfold setAttempt at h
  cases (ite_none_right_eq_some.1 h).2
  refine .of_attempts rfl fun c _ hh => ?_
  unfold holds at hh ⊢
  rw [and_eq_true, or_eq_true, and_eq_true] at hh ⊢
  refine ⟨hh.1, hh.2.imp_right fun hany => ⟨hany.1, ?_⟩⟩
  obtain ⟨a', ha', hopen⟩ := any_eq_true.1 hany.2
  obtain ⟨a, ha, rfl⟩ := mem_map.1 ha'
  refine any_eq_true.2 ⟨a, ha, ?_⟩
  split at hopen
  · next hmatch =>
    rw [and_eq_true, contains_iff_mem] at hmatch
    rw [and_eq_true] at hopen ⊢
    exact ⟨hopen.1, hexpected _ hmatch.2⟩
  · exact hopen

theorem Lane.calm_setStaged {staged : Bool} : L.Calm (L.setStaged commandId staged) := by
  refine .of_attempts rfl fun c _ hh => ?_
  unfold holds at hh ⊢
  rw [and_eq_true, or_eq_true, and_eq_true] at hh ⊢
  refine ⟨hh.1, hh.2.imp_right fun hany => ⟨hany.1, ?_⟩⟩
  obtain ⟨a', ha', hopen⟩ := any_eq_true.1 hany.2
  obtain ⟨a, ha, rfl⟩ := mem_map.1 ha'
  refine any_eq_true.2 ⟨a, ha, ?_⟩
  split at hopen <;> exact hopen

/-- The ids of the operations are distinct. -/
def Lane.Distinct (L : Lane) : Prop := (L.compactions.map (·.operationId)).Nodup

/-- The operation that an attempt is prepared for runs already. -/
theorem Lane.calm_prepare {executionId subjectId : String} {kind : DeliveryAttemptKind}
    (hL : L.Distinct) (h : L.prepare commandId kind executionId subjectId = some L₁) :
    L.Calm L₁ := by
  unfold prepare at h
  obtain ⟨hsc, ⟨⟩⟩ := ite_none_right_eq_some.1 h
  refine .of_attempts rfl fun c hc hh => ?_
  unfold holds at hh ⊢
  rw [and_eq_true, or_eq_true, and_eq_true] at hh ⊢
  refine ⟨hh.1, hh.2.elim .inl fun hany => ?_⟩
  obtain ⟨hunk, hany⟩ := hany
  rw [any_append, or_eq_true] at hany
  rcases hany with hany | hnew
  · exact .inr ⟨hunk, hany⟩
  · simp only [any_cons, any_nil, Bool.or_false, and_eq_true, beq_iff_eq] at hnew
    obtain ⟨⟨hkind, hsubj⟩, -⟩ := hnew
    unfold validateScope at hsc
    rw [hkind] at hsc
    simp only [and_eq_true, any_eq_true, beq_iff_eq] at hsc
    obtain ⟨-, -, c', hc', ⟨hid, -⟩, hrun⟩ := hsc
    have hsame : c' = c := inj_on_of_nodup_map hL hc' hc (hid.trans hsubj)
    rw [beq_iff_eq, ← hsame, hrun] at hunk
    cases hunk

/-- What an accepted attempt is admitted with. -/
theorem Lane.calm_accept {reconciled : Bool} (h : L.accept commandId reconciled = some L₁) :
    L.Calm L₁ := by
  unfold accept at h
  rw [bind_eq_some_iff] at h
  obtain ⟨attempt, hattempt, h⟩ := h
  obtain ⟨hst, h⟩ := ite_none_right_eq_some.1 h
  rw [bind_eq_some_iff] at h
  obtain ⟨L₀, hadm, hset⟩ := h
  refine Lane.Calm.trans ?_ (calm_setAttempt (by decide) hset)
  have hopen : attempt.isOpen = true := by
    unfold Attempt.isOpen
    rcases hst with hst | hst <;> rw [hst] <;> rfl
  unfold admission at hadm
  split at hadm
  · split at hadm
    · cases hadm
    · split at hadm
      · cases hadm
        exact .of_eq rfl rfl
      · rw [map_eq_some_iff] at hadm
        obtain ⟨history, -, rfl⟩ := hadm
        exact .of_eq rfl rfl
  · cases hadm
    exact .of_eq rfl rfl
  · next hkind =>
    cases hadm
    split
    · exact calm_restore (mem_of_find?_eq_some hattempt) hkind hopen
    · exact .refl

/-! ## Steps -/

/-- **What a creation adds**: an operation of a new id, that holds the lane
only where none did, and that is manual and runs only on a vacant lane. -/
structure Lane.Creates (L L' : Lane) (new : Compaction) : Prop where
  rows : L'.compactions = L.compactions ++ [new]
  fresh : ∀ c ∈ L.compactions, c.operationId ≠ new.operationId
  others : ∀ c ∈ L.compactions, holds L'.attempts c = true → holds L.attempts c = true
  released : holds L'.attempts new = true → L.released = true
  vacant : new.trigger = .manual → new.state = .running → L.vacant = true

/-- A message creates no compaction. -/
theorem calm_sendMessage {turnId : String} {delivery : SendDelivery} {steerable paused : Bool}
    (h : C.sendMessage commandId turnId delivery steerable paused = some C') :
    C.lane.Calm C'.lane := by
  unfold sendMessage at h
  split at h
  · cases h
  · split at h
    · split at h
      · cases h
      · cases h
        exact .of_eq rfl rfl
    · split at h
      · cases h
        exact .refl
      · cases h
        exact .of_eq rfl rfl

/-- A delivery resolved by the user creates no compaction. -/
theorem calm_resolveDelivery (h : C.resolveDelivery commandId = some C') : C.lane.Calm C'.lane := by
  unfold resolveDelivery at h
  rw [bind_eq_some_iff] at h
  obtain ⟨attempt, -, h⟩ := h
  split at h
  · cases h
  · rw [map_eq_some_iff] at h
    obtain ⟨lane, hlane, rfl⟩ := h
    exact (calm_setAttempt (by decide) hlane).trans (.of_eq rfl rfl)

/-- A dispatch creates no compaction. -/
theorem calm_dispatchNext (h : C.dispatchNext deliverable = some C') : C.lane.Calm C'.lane := by
  unfold dispatchNext at h
  split at h
  · cases h
  · split at h
    · cases h
    · split at h
      · cases h
      · split at h
        · split at h
          · cases h
          · cases h
            exact .of_eq rfl rfl
        · cases h
          exact calm_claimCompaction

/-- An input that steers creates no compaction. -/
theorem calm_activeInputOpened (hL : C.lane.Distinct)
    (h : C.activeInputOpened deliverable = some C') : C.lane.Calm C'.lane := by
  unfold activeInputOpened at h
  split at h
  · split at h
    · cases h
    · split at h
      · split at h
        · rw [map_eq_some_iff] at h
          obtain ⟨lane, hlane, rfl⟩ := h
          exact calm_prepare hL hlane
        · cases h
          exact .of_eq rfl rfl
      · cases h
        exact .of_eq rfl rfl
  · cases h

/-- An attempt that settles creates no compaction. -/
theorem calm_settleAttempt (h : C.settleAttempt commandId outcome = some L) : C.lane.Calm L := by
  cases outcome with
  | accepted => exact calm_accept h
  | rejected => exact calm_setAttempt (by decide) h
  | unknown =>
    cases h
    cases hset : C.lane.setAttempt commandId [.preparing, .dispatching] .unknown with
    | none => exact .refl
    | some lane => exact calm_setAttempt (by decide) hset

/-- What follows a delivery creates no compaction. -/
theorem calm_afterDelivery {dispatcher : Bool} :
    C.lane.Calm (C.afterDelivery attempt dispatcher outcome) := by
  unfold afterDelivery
  split
  · exact .refl
  · split
    · exact .of_eq rfl rfl
    · split
      · exact .of_eq rfl rfl
      · exact .refl
    · split
      · exact .over (.inr (.inl rfl))
      · exact calm_markRunningCompactionDeliveryUnknown

/-- A switch of the history leaves the lane until it has its session. -/
theorem calm_startSwitch (h : C.startSwitch switch = some C') : C'.lane = C.lane := by
  unfold startSwitch at h
  split at h
  · cases h
  · split at h
    · cases h
      rfl
    · split at h
      · cases h
      · split at h
        · cases h
          rfl
        · cases h

/-- A commit writes the history. -/
theorem calm_commit (h : C.commit switch = some C') : C.lane.Calm C'.lane := by
  unfold commit at h
  rw [bind_eq_some_iff] at h
  obtain ⟨_, -, h⟩ := h
  rw [map_eq_some_iff] at h
  obtain ⟨_, -, rfl⟩ := h
  exact .of_eq rfl rfl

/-- A strand that opens creates no compaction. -/
theorem calm_destinationOpened {strandId : String} (h : C.destinationOpened strandId = some C') :
    C.lane.Calm C'.lane := by
  unfold destinationOpened at h
  rw [bind_eq_some_iff] at h
  obtain ⟨switch, -, h⟩ := h
  split at h
  · exact calm_commit h
  · rw [map_eq_some_iff] at h
    obtain ⟨_, -, rfl⟩ := h
    exact .of_eq rfl rfl

/-- The operation of a call is created. -/
theorem creates_compactOpened (hclr : createsClearly C (.compactOpened operationId) = true)
    (h : C.compactOpened operationId = some C') : ∃ new, C.lane.Creates C'.lane new := by
  unfold compactOpened at h
  unfold createsClearly at hclr
  rw [and_eq_true] at hclr
  obtain ⟨hreleased, hvacant⟩ := hclr
  obtain ⟨hfresh, h⟩ := ite_none_right_eq_some.1 h
  have hids : ∀ c ∈ C.lane.compactions, c.operationId ≠ operationId := by
    simp only [and_eq_true, not_eq_true', any_eq_false, beq_iff_eq] at hfresh
    exact hfresh.2
  split at h
  · next hoccupied =>
    cases h
    refine ⟨_, rfl, hids, fun _ _ => id, fun _ => hreleased, fun _ hrun => ?_⟩
    rw [hoccupied] at hrun
    cases hrun
  · next hfree =>
    rw [not_eq_true] at hfree
    rw [map_eq_some_iff] at h
    obtain ⟨lane, hlane, rfl⟩ := h
    unfold prepare at hlane
    cases (ite_none_right_eq_some.1 hlane).2
    refine ⟨_, rfl, hids, fun c hc hh => ?_, fun _ => hreleased, fun _ _ => ?_⟩
    · unfold holds at hh ⊢
      rw [and_eq_true, or_eq_true, and_eq_true] at hh ⊢
      refine ⟨hh.1, hh.2.imp_right fun hany => ⟨hany.1, ?_⟩⟩
      have happend := hany.2
      dsimp only [deliver, createManualCompaction] at happend
      rw [any_append, or_eq_true] at happend
      rcases happend with hold | hnew
      · exact hold
      · simp only [any_cons, any_nil, Bool.or_false, and_eq_true, beq_iff_eq] at hnew
        exact absurd hnew.1.2.symm (hids c hc)
    · rw [hfree, Bool.false_or] at hvacant
      unfold queueOccupied at hfree
      simp only [or_eq_false_iff, Option.isSome_eq_false_iff, not_eq_false'] at hfree
      unfold vacant
      rw [hfree.1.1, hfree.2, hvacant]
      rfl

/-- The event of a compaction writes the operation it names, or records a
new one. -/
theorem step_compactionEvent {lifecycle : Journal.CompactionLifecycle}
    {trigger : Journal.CompactionTrigger}
    (hclr : createsClearly C (.compactionEvent lifecycle trigger operationId) = true) :
    C.lane.Calm (C.lane.reduceCompactionEvent lifecycle trigger operationId) ∨
      ∃ new, C.lane.Creates (C.lane.reduceCompactionEvent lifecycle trigger operationId) new := by
  unfold reduceCompactionEvent
  split
  · refine .inl ?_
    split
    · refine .ofPending fun c hp => ?_
      rw [and_eq_true] at hp
      exact hp.2
    · exact .over (.inl rfl)
    · exact .over (.inr (.inl rfl))
  · next hunk =>
    refine .inr ⟨_, rfl, ?_, fun _ _ => id, fun hh => ?_, fun hman hrun => ?_⟩
    · simpa using hunk
    · cases lifecycle with
      | started =>
        have hman : trigger = .manual := by
          unfold holds at hh
          rw [and_eq_true, beq_iff_eq] at hh
          exact hh.1
        subst hman
        unfold createsClearly at hclr
        simp only [or_eq_true, and_eq_true] at hclr
        exact (hclr.resolve_left hunk).1
      | completed => exact absurd hh (by rw [holds_eq_false (.inl rfl)]; exact false_ne_true)
      | failed =>
        exact absurd hh (by rw [holds_eq_false (.inr (.inl rfl))]; exact false_ne_true)
    · cases lifecycle with
      | started =>
        have hman : trigger = .manual := hman
        subst hman
        unfold createsClearly at hclr
        simp only [or_eq_true, and_eq_true] at hclr
        exact (hclr.resolve_left hunk).2
      | completed | failed => cases hrun

/-- **The step lemma.** A clear step leaves the compactions calm, or
creates one. -/
theorem calm_or_creates {a : LaneAction} (hL : C.lane.Distinct) (hclr : createsClearly C a = true)
    (hstep : C.step a = some C') :
    C.lane.Calm C'.lane ∨ ∃ new, C.lane.Creates C'.lane new := by
  unfold Conversation.step at hstep
  cases a with
  | compactOpened operationId => exact .inr (creates_compactOpened hclr hstep)
  | compactionEvent lifecycle trigger operationId =>
    cases hstep
    exact step_compactionEvent hclr
  | sendMessage _ _ _ _ _ => exact .inl (calm_sendMessage hstep)
  | steerOpened commandId =>
    unfold steerOpened at hstep
    rw [bind_eq_some_iff] at hstep
    obtain ⟨steer, -, hstep⟩ := hstep
    split at hstep
    · cases hstep
    · rw [map_eq_some_iff] at hstep
      obtain ⟨lane, hlane, rfl⟩ := hstep
      exact .inl (calm_prepare hL hlane)
  | steerFailed _ | compactFailed _ =>
    cases hstep
    exact .inl .refl
  | removeQueuedMessage id =>
    cases hstep
    exact .inl ((Lane.Calm.of_eq rfl rfl : C.lane.Calm (C.lane.removeQueuedTurn id)).trans
      calm_removeQueuedCompaction)
  | resolveDelivery _ => exact .inl (calm_resolveDelivery hstep)
  | compactConversation operationId =>
    dsimp only at hstep
    unfold compactConversation at hstep
    split at hstep
    · cases hstep
    · cases hstep
      exact .inl .refl
  | compactSynchronized operationId =>
    dsimp only at hstep
    unfold compactSynchronized at hstep
    cases (ite_none_right_eq_some.1 hstep).2
    exact .inl .refl
  | dispatchNext _ => exact .inl (calm_dispatchNext hstep)
  | messageOpened =>
    dsimp only at hstep
    unfold messageOpened at hstep
    split at hstep
    · rw [map_eq_some_iff] at hstep
      obtain ⟨lane, hlane, rfl⟩ := hstep
      exact .inl (calm_prepare hL hlane)
    · cases hstep
  | messageFailed =>
    dsimp only at hstep
    unfold messageFailed at hstep
    split at hstep
    · cases hstep
      exact .inl (.of_eq rfl rfl)
    · cases hstep
  | activeInputOpened _ => exact .inl (calm_activeInputOpened hL hstep)
  | activeInputFailed =>
    dsimp only at hstep
    unfold activeInputFailed at hstep
    split at hstep
    · cases hstep
      exact .inl (.of_eq rfl rfl)
    · cases hstep
  | dispatchCompaction _ =>
    dsimp only at hstep
    unfold dispatchCompaction at hstep
    split at hstep
    · split at hstep
      · cases hstep
      · rw [map_eq_some_iff] at hstep
        obtain ⟨lane, hlane, rfl⟩ := hstep
        exact .inl (calm_prepare hL hlane)
    · cases hstep
  | compactionFailed =>
    dsimp only at hstep
    unfold compactionFailed at hstep
    split at hstep
    · cases hstep
      exact .inl (.over (.inr (.inl rfl)))
    · cases hstep
  | markPossiblySent commandId =>
    dsimp only at hstep
    rw [map_eq_some_iff] at hstep
    obtain ⟨lane, hlane, rfl⟩ := hstep
    exact .inl (calm_setAttempt (by decide) hlane)
  | dispatched commandId outcome =>
    dsimp only at hstep
    unfold dispatched at hstep
    split at hstep
    · rw [map_eq_some_iff] at hstep
      obtain ⟨lane, hlane, rfl⟩ := hstep
      exact .inl (calm_settleAttempt hlane)
    · cases hstep
  | returned commandId =>
    dsimp only at hstep
    unfold returned at hstep
    simp only [bind_eq_some_iff, map_eq_some_iff] at hstep
    obtain ⟨delivery, -, outcome, -, attempt, -, rfl⟩ := hstep
    exact .inl calm_afterDelivery
  | staged commandId staged =>
    cases hstep
    exact .inl calm_setStaged
  | reconcile commandId =>
    dsimp only at hstep
    rw [map_eq_some_iff] at hstep
    obtain ⟨lane, hlane, rfl⟩ := hstep
    exact .inl (calm_accept hlane)
  | turnStarted _ _ =>
    dsimp only at hstep
    rw [map_eq_some_iff] at hstep
    obtain ⟨_, -, rfl⟩ := hstep
    exact .inl (.of_eq rfl rfl)
  | acknowledgeQueuedTurnDispatch _ =>
    dsimp only at hstep
    cases (ite_none_right_eq_some.1 hstep).2
    exact .inl (.of_eq rfl rfl)
  | turnStatus _ _ _ | turnCompleted _ _ _ | sessionBound _ | sessionHealth _ _
  | markConversationRecovering | failRecovery | confirmExecutionRunning _ =>
    cases hstep
    exact .inl (.of_eq rfl rfl)
  | satisfyQueuedCompactionsAfterAutomatic =>
    cases hstep
    exact .inl calm_satisfyQueuedCompactionsAfterAutomatic
  | terminateAmbiguousCompaction =>
    cases hstep
    exact .inl calm_markRunningCompactionDeliveryUnknown
  | startSwitch _ =>
    refine .inl ?_
    rw [calm_startSwitch hstep]
    exact .refl
  | switchSynchronized strandId =>
    dsimp only at hstep
    unfold switchSynchronized at hstep
    simp only [bind_eq_some_iff] at hstep
    obtain ⟨switch, -, source, -, hstep⟩ := hstep
    cases (ite_none_right_eq_some.1 hstep).2
    exact .inl .refl
  | sourceOpened strandId =>
    dsimp only at hstep
    unfold sourceOpened at hstep
    rw [bind_eq_some_iff] at hstep
    obtain ⟨switch, -, hstep⟩ := hstep
    split at hstep
    · cases hstep
    · cases hstep
      exact .inl .refl
  | forked strandId =>
    dsimp only at hstep
    unfold forked at hstep
    simp only [bind_eq_some_iff, map_eq_some_iff] at hstep
    obtain ⟨switch, -, source, -, history, -, rfl⟩ := hstep
    exact .inl (.of_eq rfl rfl)
  | destinationOpened strandId => exact .inl (calm_destinationOpened hstep)
  | branchStarted strandId =>
    dsimp only at hstep
    unfold branchStarted at hstep
    rw [bind_eq_some_iff] at hstep
    obtain ⟨switch, -, hstep⟩ := hstep
    exact .inl (calm_commit hstep)
  | switchFailed strandId =>
    dsimp only at hstep
    unfold switchFailed at hstep
    cases (ite_none_right_eq_some.1 hstep).2
    exact .inl (.of_eq rfl rfl)

/-! ## Runs -/

/-- At most one compaction holds the lane. -/
structure Lane.Exclusive (L : Lane) : Prop where
  distinct : L.Distinct
  one : L.compactions.countP (holds L.attempts) ≤ 1

theorem Lane.Exclusive.of_calm (h : L.Exclusive) (hcalm : L.Calm L₁) : L₁.Exclusive where
  distinct := by
    unfold Lane.Distinct
    rw [hcalm.ids]
    exact h.distinct
  one := hcalm.countP_le.trans h.one

/-- A compaction created where none is pending is the only one. -/
theorem Lane.Exclusive.of_creates {new : Compaction} (h : L.Exclusive) (hnew : L.Creates L₁ new) :
    L₁.Exclusive where
  distinct := by
    unfold Lane.Distinct
    rw [hnew.rows, map_append, map_singleton]
    refine nodup_append.2 ⟨h.distinct, nodup_singleton _, fun id hid id' hid' => ?_⟩
    obtain ⟨c, hc, rfl⟩ := mem_map.1 hid
    rw [mem_singleton.1 hid']
    exact hnew.fresh c hc
  one := by
    have hold : L.compactions.countP (holds L₁.attempts) ≤ L.compactions.countP
      (holds L.attempts) :=
      countP_mono_left hnew.others
    have hone := h.one
    rw [hnew.rows, countP_append, countP_singleton]
    split
    · next hh =>
      have hreleased := hnew.released hh
      unfold released at hreleased
      rw [not_eq_true', any_eq_false] at hreleased
      have hnone : L.compactions.countP (holds L.attempts) = 0 := countP_eq_zero.2 hreleased
      omega
    · omega

/-- **The run lemma.** -/
theorem exclusive_of_reachable
    (h : (conversationMachine.restrict fun C a => createsClearly C a = true).Reachable C) :
    C.lane.Exclusive := by
  have hinit : newConversation.lane.Exclusive := ⟨nodup_nil, Nat.zero_le 1⟩
  refine h.rule (P := fun C => C.lane.Exclusive) hinit fun U a V _ hU hstep => ?_
  obtain ⟨hclr, hstep⟩ := Machine.restrict_step_eq_some.1 hstep
  rcases calm_or_creates hU.distinct hclr hstep with hcalm | ⟨new, hnew⟩
  · exact hU.of_calm hcalm
  · exact hU.of_creates hnew

/-- A pending manual compaction holds the lane. -/
theorem holds_of_manualPending (h : c.manualPending = true) : holds attempts c = true := by
  unfold manualPending at h
  unfold holds
  rw [and_eq_true] at h
  rw [h.1, h.2, Bool.true_or, Bool.and_self]

/-- **At most one compaction is pending**, in the runs whose creations find
the lane as the checks did; and a manual one that a step creates and that
runs was created on a vacant lane. -/
theorem onePending
    (h : (conversationMachine.restrict fun C a => createsClearly C a = true).Reachable C) :
    C.lane.compactions.countP Compaction.manualPending ≤ 1 ∧
      ∀ a C', createsClearly C a = true → conversationMachine.step C a = some C' →
        ∀ c ∈ C'.lane.compactions, c.trigger = .manual → c.state = .running →
          (∀ old ∈ C.lane.compactions, old.operationId ≠ c.operationId) → C.lane.vacant = true := by
  have hexclusive := exclusive_of_reachable h
  refine ⟨(List.countP_mono_left fun c _ => holds_of_manualPending).trans hexclusive.one,
    fun a C' hclear hstep c hc hmanual hrunning hnew => ?_⟩
  rcases calm_or_creates hexclusive.distinct hclear hstep with hcalm | ⟨new, hcreates⟩
  · have hid : c.operationId ∈ C'.lane.compactions.map (·.operationId) := List.mem_map_of_mem hc
    rw [hcalm.ids] at hid
    obtain ⟨old, hold, hsame⟩ := List.mem_map.1 hid
    exact absurd hsame (hnew old hold)
  · rw [hcreates.rows, List.mem_append, List.mem_singleton] at hc
    rcases hc with hold | rfl
    · exact absurd rfl (hnew c hold)
    · exact hcreates.vacant hmanual hrunning

/-- Two calls check while the session opens, and both create. -/
def concurrentRun : List LaneAction :=
  [.compactConversation "first", .compactConversation "second", .compactSynchronized "first",
    .compactSynchronized "second", .compactOpened "first", .compactOpened "second"]

/-- The second of them creates its operation while the delivery of the
first one is unresolved. -/
theorem onePending_concurrent : ∃ C C', conversationMachine.Reachable C ∧
      conversationMachine.step C (.compactOpened "second") = some C' ∧
      1 < C'.lane.compactions.countP Compaction.manualPending ∧
      (⟨"second", .manual, .running, 0⟩ : Compaction) ∈ C'.lane.compactions ∧
      C.lane.vacant = false :=
  ⟨conversationMachine.run (concurrentRun.take 5) conversationMachine.init, _,
    ⟨concurrentRun.take 5, rfl⟩, rfl, by decide +kernel, by decide +kernel, by decide +kernel⟩

/-- A compaction that is sent, a message meanwhile, and a second compaction
once the first is over. -/
def compactingRun : List LaneAction :=
  [.compactConversation "first", .compactSynchronized "first", .compactOpened "first",
    .sendMessage "message" "turn" .auto false false, .markPossiblySent "first",
    .dispatched "first" .accepted, .compactionEvent .completed .manual "first", .returned "first",
    .compactConversation "second", .compactSynchronized "second", .compactOpened "second"]

/-- A run with a compaction under way. -/
theorem onePending_compactingRun :
    (conversationMachine.run compactingRun conversationMachine.init).lane.compactions.countP
        Compaction.manualPending ≤ 1 ∧
      ∀ a C',
        createsClearly (conversationMachine.run compactingRun conversationMachine.init) a = true →
        conversationMachine.step
          (conversationMachine.run compactingRun conversationMachine.init) a = some C' →
        ∀ c ∈ C'.lane.compactions, c.trigger = .manual → c.state = .running →
          (∀ old ∈ (conversationMachine.run compactingRun
            conversationMachine.init).lane.compactions,
            old.operationId ≠ c.operationId) →
          (conversationMachine.run compactingRun conversationMachine.init).lane.vacant = true := by
  have hrun : (conversationMachine.restrict fun C a => createsClearly C a = true).Reachable
      (conversationMachine.run compactingRun conversationMachine.init) := ⟨compactingRun, rfl⟩
  exact onePending hrun

end Remux.Coordinator
