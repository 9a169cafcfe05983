import Remux.Journal.Appends
import Remux.Journal.Merge

/-!
# Live blocks are placed once

Every operation keeps the rows placed, and all but a snapshot, which
builds the turns that it names again, keep every pass and block where it
is. So no append fails for a place, in any journal that the operations
lead to.
-/

namespace Remux.Journal

open Table List

variable {J J' : Journal} {owners : Owners}

/-! ## The other operations -/

theorem inPlace_updateTurns {p : TurnRow → Bool} {f : TurnRow → TurnRow} :
    J.InPlace (J.updateTurns p f) :=
  settles_bind ((settles_update otherTable_turns).mono (fun _ _ => settles_pure ⟨rfl, rfl, rfl⟩)
    fun _ => id)

variable {turnId executionId : String} {now : ℕ} {action : JournalAction}
variable {x : Except StoreError Journal} {place : TurnStructure} {turnIds ids : List String}
variable {completeKinds : Option (List TurnBlockKind)}

/-- A dispatch that failed leaves the places, -/
theorem inPlace_failTurnDispatch : J.InPlace (J.failTurnDispatch turnId now) := by
  unfold failTurnDispatch
  split
  · exact settles_pure .refl
  · refine inPlace_bind inPlace_updateTurns fun _ _ => ?_
    refine inPlace_bind inPlace_settleTerminalTurnBlocks fun _ _ => ?_
    exact inPlace_bind gently_updateConversationOfRoot.inPlace fun _ _ =>
      gently_updateExecutions.inPlace

/-- so does an active turn, -/
theorem inPlace_failActiveTurn {conversation : ConversationRow} :
    J.InPlace (J.failActiveTurn conversation now) := by
  unfold failActiveTurn
  split
  · exact settles_pure .refl
  · refine inPlace_bind inPlace_updateTurns fun _ _ => ?_
    exact inPlace_bind (inPlace_updatePasses fun _ => rfl) fun _ _ =>
      inPlace_settleTerminalTurnBlocks

/-- and a recovery. -/
theorem inPlace_failRecovery {conversationId : String} {expected : Option String} :
    Settles (J.failRecovery conversationId expected now) (fun result => SamePlaces J result.1)
      OtherError := by
  unfold failRecovery
  split
  · exact settles_pure .refl
  · refine settles_ite (fun _ => settles_pure .refl) fun _ => ?_
    refine settles_bind (inPlace_failActiveTurn.mono (fun J₁ h₁ => ?_) fun _ => id)
    refine settles_bind (gently_updateConversations.mono (fun J₂ h₂ => ?_) fun _ => id)
    refine settles_bind (gently_updateExecutions.mono (fun J₃ h₃ => ?_) fun _ => id)
    exact settles_pure (h₁.trans (h₂.samePlaces.trans h₃.samePlaces))

/-- Ends of turns that are reduced again. -/
theorem inPlace_repair {rows : List EventRow} :
    Settles (repairRecoveryFailures.repair J rows) (fun result => SamePlaces J result.1)
      OtherError := by
  induction rows generalizing J with
  | nil => exact settles_pure .refl
  | cons row rest ih =>
    unfold repairRecoveryFailures.repair
    split
    · next outcome _ _ _ _ hev _ =>
      have hblk : row.envelope.isTurnBlock = false := by
        unfold ProviderEventEnvelope.isTurnBlock
        rw [hev]
      refine settles_bind ((inPlace_reduceEvent hblk).mono (fun J₁ h₁ => ?_) fun _ => id)
      refine settles_bind (ih.mono ?_ fun _ => id)
      rintro ⟨J₂, repaired⟩ h₂
      exact settles_pure (h₁.trans h₂)
    · exact ih

theorem inPlace_failExecution : J.InPlace (J.failExecution executionId now) := by
  refine inPlace_bind inPlace_updateTurns fun _ _ => ?_
  refine inPlace_bind (inPlace_updatePasses fun _ => rfl) fun _ _ => ?_
  exact inPlace_bind inPlace_settleTerminalTurnBlocks fun _ _ => gently_updateExecutions.inPlace

theorem inPlace_closeFederatedExecution :
    J.InPlace (J.closeFederatedExecution executionId now) := by
  refine inPlace_bind inPlace_updateTurns fun _ _ => ?_
  refine inPlace_bind gently_updateExecutions.inPlace fun _ _ => ?_
  exact inPlace_bind inPlace_settleTerminalTurnBlocks fun _ _ => gently_updateNativeSessions.inPlace

/-- The events of an operation name ids of their own turns. -/
def Owners.coversAction (owners : Owners) : JournalAction → Bool
  | .appendProviderEvents envelopes => envelopes.all owners.covers
  | .replaceSnapshot events _ => events.all owners.covers
  | _ => true

/-- The operation that may move what is placed. -/
def JournalAction.isReplaceSnapshot : JournalAction → Bool
  | .replaceSnapshot .. => true
  | _ => false

/-- **Every operation but a snapshot keeps the places.** -/
theorem settles_apply (hpl : J.Placed owners) (hcov : owners.coversAction action = true)
    (haction : action.isReplaceSnapshot = false) :
    Settles (J.apply action) (Advances owners J) OtherError := by
  have hgently : ∀ {x : Except StoreError Journal}, J.Gently x →
      Settles x (Advances owners J) OtherError := fun h => h.inPlace.advances hpl
  have hpair : ∀ {β : Type} {x : Except StoreError (Journal × β)},
      Settles x (fun result => SamePlaces J result.1) OtherError →
      Settles (do let (J, _) ← x; return J) (Advances owners J) OtherError := by
    intro β x hx
    refine settles_bind (hx.mono ?_ fun _ => id)
    rintro ⟨J₁, _⟩ h₁
    exact settles_pure (h₁.advances hpl)
  cases action with
  | createConversation input => exact hgently gently_createConversation
  | createConversationStrand input => exact hgently gently_createConversationStrand
  | markStrandReady strandId => exact hgently gently_markStrandReady
  | failStrand strandId => exact hgently gently_failStrand
  | activateConversationStrand input => exact hgently gently_activateConversationStrand
  | createFederatedExecution input => exact hgently gently_createFederatedExecution
  | createTurn input => exact hgently (gently_createTurn input)
  | bindNativeSession input => exact hgently gently_bindNativeSession
  | appendProviderEvents envelopes =>
    refine settles_bind ((settles_appendProviderEvents hpl
      (all_eq_true.1 hcov)).mono ?_ fun _ => id)
    rintro ⟨J₁, _⟩ ⟨h₁, -⟩
    exact settles_pure h₁
  | replaceSnapshot events completeKinds => cases haction
  | markConversationRecovering conversationId expected now =>
    exact hpair (gently_markConversationRecovering.mono (fun _ h => h.samePlaces) fun _ => id)
  | markExecutionRecovering executionId now => exact hgently gently_markExecutionRecovering
  | confirmExecutionRunning executionId now =>
    exact hpair (gently_confirmExecutionRunning.mono (fun _ h => h.samePlaces) fun _ => id)
  | failTurnDispatch turnId now => exact inPlace_failTurnDispatch.advances hpl
  | failRecovery conversationId expected now => exact hpair inPlace_failRecovery
  | repairRecoveryFailures => exact hpair inPlace_repair
  | failExecution executionId now => exact inPlace_failExecution.advances hpl
  | closeFederatedExecution executionId now => exact inPlace_closeFederatedExecution.advances hpl
  | setDeliveries rows =>
    exact settles_pure (SamePlaces.advances ⟨rfl, rfl, rfl⟩ hpl)
  | setQueue rows => exact settles_pure (SamePlaces.advances ⟨rfl, rfl, rfl⟩ hpl)

/-! ## A snapshot -/

/-- The rows are placed, and the recorded events name ids of their own
turns: what a snapshot keeps. -/
structure Tidy (owners : Owners) (J : Journal) : Prop where
  placed : J.Placed owners
  recorded : J.Recorded owners

theorem SamePlaces.tidy (h : SamePlaces J J') (hJ : Tidy owners J) : Tidy owners J' :=
  ⟨h.placed hJ.placed, (h.advances hJ.placed).recorded hJ.recorded⟩

/-- An operation leaves a tidy journal, if any. -/
def Tidies (owners : Owners) (x : Except StoreError Journal) : Prop :=
  Settles x (Tidy owners) fun _ => True

theorem InPlace.tidies (h : J.InPlace x) (hJ : Tidy owners J) : Tidies owners x :=
  h.mono (fun _ h => h.tidy hJ) fun _ _ => trivial

theorem tidies_bind {f : Journal → Except StoreError Journal} (hx : Tidies owners x)
    (hf : ∀ J', Tidy owners J' → Tidies owners (f J')) :
    Tidies owners (x >>= f) :=
  settles_bind (hx.mono hf fun _ => id)

theorem settles_require {β : Type} {found : Bool} {table : String} {f : Unit → Except StoreError β}
    {Q : β → Prop} (h : found = true → Settles (f ()) Q fun _ => True) :
    Settles (require found table >>= f) Q fun _ => True :=
  settles_check trivial h

/-- The passes after the event of a block: those that were there, at
whatever ordinals, and one of the turn. -/
theorem placed_upsertPass {passes : Table PassRow} (hpl : J.Placed owners)
    (hturn : owners.passTurn place.passId = turnId) (h : J.upsertPass turnId place = .ok passes) :
    (∀ p ∈ passes.rows, owners.passTurn p.passId = p.turnId) ∧
      (∀ p ∈ J.passes.rows, ∃ p' ∈ passes.rows, p'.passId = p.passId ∧ p'.turnId = p.turnId) ∧
      ∃ p ∈ passes.rows, p.passId = place.passId ∧ p.turnId = turnId := by
  rcases upsert_cases h with ⟨⟨old, hold, hid⟩, hupd⟩ | ⟨-, hins⟩
  · simp only [beq_iff_eq] at hid
    refine ⟨fun p hp => ?_, fun p hp => ?_, ?_⟩
    · obtain ⟨old, hold, rfl⟩ := (mem_update hupd).1 hp
      split <;> exact hpl.pass old hold
    · refine ⟨_, (mem_update hupd).2 ⟨p, hp, rfl⟩, ?_, ?_⟩ <;> split <;> rfl
    · refine ⟨_, (mem_update hupd).2 ⟨old, hold, rfl⟩, ?_⟩
      rw [if_pos (by simpa using hid)]
      exact ⟨hid, by rw [← hpl.pass old hold, hid, hturn]⟩
  · refine ⟨fun p hp => ?_, fun p hp => ⟨p, (mem_insert hins).2 (.inl hp), rfl, rfl⟩,
      ⟨_, (mem_insert hins).2 (.inr rfl), rfl, rfl⟩⟩
    rcases (mem_insert hins).1 hp with hp | rfl
    · exact hpl.pass p hp
    · exact hturn

/-- The rows stay placed wherever an event puts its block. -/
theorem placed_upsertBlock {lifecycle : BlockLifecycle} {block : TurnBlockSnapshot}
    (hJ : Tidy owners J) (hpassTurn : owners.passTurn place.passId = turnId)
    (hblockTurn : owners.blockTurn place.blockId = turnId) :
    Tidies owners (J.upsertBlock turnId lifecycle place block now) := by
  refine settles_require fun _ =>
    settles_bind (settles_self.mono (fun passes hpasses => ?_) fun _ => id)
  obtain ⟨howned, hkept, p, hp, hpid, hpturn⟩ := placed_upsertPass hJ.placed hpassTurn hpasses
  have hold : ∀ b ∈ J.blocks.rows, owners.blockTurn b.blockId = b.turnId ∧
      ∃ p ∈ passes.rows, p.passId = b.passId ∧ p.turnId = b.turnId := by
    intro b hb
    obtain ⟨hown, p, hp, hid, hturn⟩ := hJ.placed.block b hb
    obtain ⟨p', hp', hid', hturn'⟩ := hkept p hp
    exact ⟨hown, p', hp', hid'.trans hid, hturn'.trans hturn⟩
  refine settles_bind (settles_self.mono (fun blocks hblks => settles_pure ?_) fun _ => id)
  refine ⟨⟨howned, fun b hb => ?_⟩, hJ.recorded⟩
  unfold Journal.upsertBlockRow at hblks
  split at hblks
  · cases hblks
    exact hold b hb
  · rcases upsert_cases hblks with ⟨-, hupd⟩ | ⟨-, hins⟩
    · obtain ⟨old, holdMem, rfl⟩ := (mem_update hupd).1 hb
      split
      · next hid =>
        simp only [beq_iff_eq] at hid
        have hturn : old.turnId = turnId := by rw [← (hold old holdMem).1, hid, hblockTurn]
        exact ⟨(hold old holdMem).1, p, hp, hpid, hpturn.trans hturn.symm⟩
      · exact hold old holdMem
    · rcases (mem_insert hins).1 hb with hb | rfl
      · exact hold b hb
      · exact ⟨hblockTurn, p, hp, hpid, hpturn⟩

/-- Reducing the event of a block keeps a journal tidy, wherever it puts
the block. -/
theorem tidies_reduceEvent {envelope : ProviderEventEnvelope} (hJ : Tidy owners J)
    (hcov : owners.covers envelope = true) : Tidies owners (J.reduceEvent envelope) := by
  cases hev : envelope.turnScopedBlock with
  | none =>
    have hblk : envelope.isTurnBlock = false := by rw [isTurnBlock_eq_isSome, hev]; rfl
    exact (inPlace_reduceEvent hblk).tidies hJ
  | some event =>
    obtain ⟨hpassTurn, hblockTurn⟩ := (covers_of_block hev).1 hcov
    refine (settles_reduceEvent_of_block hev (Q := fun _ => Tidy owners) (fun _ _ => trivial)
      fun bound hbnd => ?_).mono ?_ fun _ => id
    · exact placed_upsertBlock (hbnd.samePlaces.tidy hJ) hpassTurn hblockTurn
    · rintro J' ⟨bound, written, -, hwr, hsame⟩
      exact hsame.tidy hwr

/-- Events reduced leave a tidy journal. -/
theorem tidies_reduceEvents {envelopes : List ProviderEventEnvelope} (hJ : Tidy owners J)
    (hcov : ∀ envelope ∈ envelopes, owners.covers envelope = true) :
    Tidies owners (J.reduceEvents envelopes) := by
  induction envelopes generalizing J with
  | nil => exact settles_pure hJ
  | cons envelope rest ih =>
    refine tidies_bind (tidies_reduceEvent hJ (hcov envelope mem_cons_self)) fun J' hJ' => ?_
    exact ih hJ' fun e he => hcov e (mem_cons_of_mem _ he)

/-- The turns of a snapshot are created, and nothing is placed. -/
theorem gently_importTurns {turns : List ImportedTurn} : J.Gently (J.importTurns turns) := by
  induction turns generalizing J with
  | nil => exact gently_pure .refl
  | cons turn rest ih =>
    refine gently_bind (gently_ite (fun _ => gently_pure .refl) fun _ => gently_createTurn _)
      fun _ _ => ih

variable (hJ : Tidy owners J)
include hJ

/-- Blocks go with their passes. -/
theorem Tidy.deletePasses : Tidy owners (J.deletePasses turnId) where
  placed := by
    refine ⟨fun p hp => hJ.placed.pass p (mem_delete.1 hp).1, fun b hb => ?_⟩
    obtain ⟨hb, hkept⟩ := mem_delete.1 hb
    obtain ⟨hown, p, hp, hid, hturn⟩ := hJ.placed.block b hb
    refine ⟨hown, p, mem_delete.2 ⟨hp, ?_⟩, hid, hturn⟩
    by_contra hdeleted
    rw [Bool.not_eq_false] at hdeleted
    rw [any_eq_false] at hkept
    exact hkept p (mem_filter.2 ⟨hp, hdeleted⟩) (by simpa using hid)
  recorded := hJ.recorded

theorem Tidy.foldl_deletePasses : Tidy owners (turnIds.foldl Journal.deletePasses J) := by
  induction turnIds generalizing J with
  | nil => exact hJ
  | cons turnId rest ih => exact ih hJ.deletePasses

variable {events : List ProviderEventEnvelope}

/-- A snapshot that is appended leaves a tidy journal. -/
theorem tidies_appendSnapshot (hcov : ∀ envelope ∈ events, owners.covers envelope = true) :
    Settles (J.appendSnapshot turnIds events) (fun result => Tidy owners result.1)
      fun _ => True := by
  induction events generalizing J with
  | nil => exact settles_pure hJ
  | cons envelope rest ih =>
    have hcov' := hcov envelope mem_cons_self
    refine settles_bind (Settles.mono (Q := fun result => Tidy owners result.1)
      (E := fun _ => True) ?_ ?_ fun _ => id)
    · refine settles_ite (fun _ => ?_) fun _ => ?_
      · refine settles_insertProviderEventRow.mono ?_ fun _ _ => trivial
        rintro result (⟨rfl, -⟩ | ⟨stored, hstore, rfl⟩)
        · exact hJ
        · refine ⟨⟨hJ.placed.pass, hJ.placed.block⟩, fun row hrow => ?_⟩
          rw [hstore] at hrow
          rcases mem_concat.1 hrow with hrow | rfl
          · exact hJ.recorded row hrow
          · exact hcov'
      · refine (settles_appendProviderEventInTransaction hJ.placed hcov').mono ?_ fun _ _ => trivial
        exact fun result ⟨hres, _⟩ => ⟨hres.placed, hres.recorded hJ.recorded⟩
    · rintro ⟨J', inserted⟩ hJ'
      refine settles_bind ((ih hJ' fun e he => hcov e (mem_cons_of_mem _ he)).mono ?_ fun _ => id)
      rintro ⟨J'', count⟩ hJ''
      exact settles_pure hJ''

/-- The merged events of a turn name ids of it, as those of the snapshot
and the recorded ones do. -/
theorem covers_mergedSnapshotBlockEvents
    (hcov : ∀ envelope ∈ events, owners.covers envelope = true) :
    ∀ envelope ∈ J.mergedSnapshotBlockEvents turnId
        ((snapshotBlockEvents events).filter (·.turnId == turnId)) completeKinds,
      owners.covers envelope = true := by
  have hsrc : ∀ event : TurnScopedBlockEnvelope,
      event ∈ (snapshotBlockEvents events).filter (·.turnId == turnId) ∨ J.LiveEvent turnId event →
        event.turnId = turnId ∧ owners.covers event.envelope = true := by
    rintro event (hev | hev)
    · obtain ⟨hmem, hturn⟩ := mem_filter.1 hev
      obtain ⟨envelope, henv, hblk⟩ := mem_filterMap.1 hmem
      rw [turnScopedBlock_eq_some hblk]
      exact ⟨by simpa using hturn, hcov envelope (mem_filter.1 henv).1⟩
    · obtain ⟨row, hrow, heq⟩ := hev.recorded
      exact ⟨hev.turn, heq ▸ hJ.recorded row hrow⟩
  intro envelope henv
  obtain ⟨event, place, hev, hplc, passOrdinal, blockOrdinal, rfl⟩ :=
    placedFrom_mergedSnapshotBlockEvents envelope henv
  obtain ⟨hturn, hev⟩ := hsrc event hev
  obtain ⟨hturn', hplc⟩ := hsrc place hplc
  obtain ⟨event', hev', hturn'', -, -, hplc'⟩ := turnScopedBlock_withBlockStructure
    (turnScopedBlock_eq event) place.place.passId passOrdinal blockOrdinal
  refine (covers_of_block hev').2 ?_
  rw [hplc', hturn'', hturn, ← hturn', ((covers_of_block (turnScopedBlock_eq place)).1 hplc).1,
    ((covers_of_block (turnScopedBlock_eq event)).1 hev).2, hturn, hturn']
  exact ⟨rfl, rfl⟩

/-- Turns built again leave a tidy journal. -/
theorem tidies_rebuildTurns (hcov : ∀ envelope ∈ events, owners.covers envelope = true) :
    Tidies owners (rebuildTurns events completeKinds J turnIds) := by
  induction turnIds generalizing J with
  | nil => exact settles_pure hJ
  | cons turnId rest ih =>
    refine tidies_bind ?_ fun J' hJ' => ih hJ'
    refine tidies_bind (tidies_reduceEvents hJ (covers_mergedSnapshotBlockEvents hJ hcov))
      fun J' hJ' => ?_
    have hset : J'.InPlace (J'.updatePasses (·.turnId == turnId) fun p =>
        { p with state := .completed }) := inPlace_updatePasses fun _ => rfl
    exact settles_ite (fun _ => hset.tidies hJ') fun _ => settles_pure hJ'

/-- **A snapshot keeps a journal tidy.** -/
theorem tidies_replaceSnapshot (hcov : ∀ envelope ∈ events, owners.covers envelope = true) :
    Settles (J.replaceSnapshot events completeKinds) (fun result => Tidy owners result.1)
      fun _ => True := by
  refine settles_bind ((gently_importTurns.inPlace.tidies hJ).mono (fun imported himported => ?_)
    fun _ => id)
  refine settles_bind ((tidies_appendSnapshot himported.foldl_deletePasses hcov).mono ?_
    fun _ => id)
  rintro ⟨appended, count⟩ happended
  exact settles_bind ((tidies_rebuildTurns happended hcov).mono
    (fun _ hrebuilt => settles_pure hrebuilt) fun _ => id)

omit hJ

/-! ## Runs -/

/-- A step is an operation that did not fail. -/
theorem apply_of_step (h : (machine ids).step J action = some J') : J.apply action = .ok J' := by
  change (J.apply action).toOption = some J' at h
  cases happly : J.apply action with
  | ok J'' =>
    rw [happly] at h
    exact congrArg _ (Option.some.inj h)
  | error e =>
    rw [happly] at h
    cases h

/-- A step keeps a journal tidy. -/
theorem tidy_of_step (hJ : Tidy owners J) (hcov : owners.coversAction action = true)
    (hstep : (machine ids).step J action = some J') :
    Tidy owners J' := by
  have happly := apply_of_step hstep
  cases haction : action.isReplaceSnapshot with
  | false =>
    have hadvances := (settles_apply hJ.placed hcov haction).ok happly
    exact ⟨hadvances.placed, hadvances.recorded hJ.recorded⟩
  | true =>
    cases action with
    | replaceSnapshot events completeKinds =>
      have htidies : Tidies owners (J.apply (.replaceSnapshot events completeKinds)) := by
        refine settles_bind ((tidies_replaceSnapshot hJ (all_eq_true.1 hcov)).mono ?_ fun _ => id)
        rintro ⟨J₁, _⟩ h₁
        exact settles_pure h₁
      exact htidies.ok happly
    | _ => cases haction

theorem tidy_new : Tidy owners (new ids) where
  placed := ⟨fun _ hp => absurd hp not_mem_nil, fun _ hb => absurd hb not_mem_nil⟩
  recorded _ hrow := absurd hrow not_mem_nil

theorem tidy_of_reachable
    (h : ((machine ids).restrict fun _ action => owners.coversAction action = true).Reachable J) :
    Tidy owners J := by
  refine h.rule (P := Tidy owners) tidy_new fun J action J' _ hJ hstep => ?_
  obtain ⟨hcov, hstep⟩ := Machine.restrict_step_eq_some.1 hstep
  exact tidy_of_step hJ hcov hstep

/-- A run without snapshots moves nothing, and keeps the blocks current:
by induction on it, one operation at a time. -/
theorem kept_of_leads (hJ : Tidy owners J) (h : ((machine ids).restrict fun _ action =>
      owners.coversAction action = true ∧ action.isReplaceSnapshot = false).Leads J J') :
    Extends J J' ∧ CurrentSince J J' := by
  suffices Tidy owners J' ∧ Extends J J' ∧ CurrentSince J J' from this.2
  refine h.rule (P := fun J' => Tidy owners J' ∧ Extends J J' ∧ CurrentSince J J')
    ⟨hJ, .refl J, .refl⟩ ?_
  rintro J₁ action J₂ - ⟨htidy, hkept, hcur⟩ hstep
  obtain ⟨⟨hcov, haction⟩, hstep⟩ := Machine.restrict_step_eq_some.1 hstep
  have hadvances := (settles_apply htidy.placed hcov haction).ok (apply_of_step hstep)
  exact ⟨tidy_of_step htidy hcov hstep, hkept.trans hadvances.kept, hadvances.current J hcur⟩

/-- **Live blocks are placed once.** In a journal of any run in which no
two turns share the id of a pass or a block, no batch of events fails for
a place, and the passes of a turn, and the blocks of a pass, have
ordinals of their own; an event of a block that is appended, and of whose
id there is none, is recorded with its payload; and from there on, until a
snapshot, each block keeps its place, and shows the latest write of the
highest revision. -/
theorem livePlacement {ids : List String}
    (h : ((machine ids).restrict fun _ action => owners.coversAction action = true).Reachable J) :
    (∀ envelopes e, (∀ envelope ∈ envelopes, owners.covers envelope = true) →
      J.appendProviderEvents envelopes = .error e →
        e ≠ .unique "turn_passes" ∧ e ≠ .unique "turn_blocks") ∧
    (∀ p ∈ J.passes.rows, ∀ p' ∈ J.passes.rows, p.turnId = p'.turnId → p.ordinal = p'.ordinal →
      p = p') ∧
    (∀ b ∈ J.blocks.rows, ∀ b' ∈ J.blocks.rows, b.passId = b'.passId → b.ordinal = b'.ordinal →
      b = b') ∧
    (∀ envelope rest J' new, (∀ e ∈ envelope :: rest, owners.covers e = true) →
      J.appendProviderEvents (envelope :: rest) = .ok (J', new) → RecordsBlock envelope J J') ∧
    ∀ J', ((machine ids).restrict fun _ action =>
        owners.coversAction action = true ∧ action.isReplaceSnapshot = false).Leads J J' →
      Extends J J' ∧ CurrentSince J J' := by
  have hJ := tidy_of_reachable h
  refine ⟨fun envelopes e hcovers he => ?_, fun p hp p' hp' hturn hordinal => ?_,
    fun b hb b' hb' hpass hordinal => ?_, fun envelope rest J' new hcovers hok => ?_,
    fun J' hleads => kept_of_leads hJ hleads⟩
  · exact (settles_appendProviderEvents hJ.placed hcovers).error he
  · exact Table.eq_of_clash hp hp' (by simp [Row.clash, hturn, hordinal])
  · exact Table.eq_of_clash hb hb' (by simp [Row.clash, hpass, hordinal])
  · exact ((settles_appendProviderEvents hJ.placed hcovers).ok hok).2 envelope rfl

/-- The event of a block of the turn `t`, in a pass that is proposed as
the first. -/
def firstPassBlock (eventId passId blockId : String) : ProviderEventEnvelope where
  eventId
  provider := .codex
  scope := .turn "p" "c" "e" "t"
  native := { sessionId := some "s", turnId := none, itemId := none, position := none,
              subject := none, kind := "item/started" }
  observedAt := 1
  event := .turnBlock .started { passId, blockId, passOrdinal := 0, blockOrdinal := 0 }
    { state := .streaming, payload := .commentary "" }
  inScope := rfl
  bound := .inr rfl

/-- A conversation with a running turn that has a block. -/
def placedRun : List JournalAction :=
  [.createConversation { conversationId := "c", rootExecutionId := "e", strandId := none,
                         provider := .codex, providerInstanceId := "p", access := .readOnly,
                         strandState := .ready, now := 0 },
   .createTurn { turnId := "t", conversationId := "c", executionId := "e", clientMessageId := "m",
                 commandId := "k", running := true, now := 0 },
   .appendProviderEvents [firstPassBlock "1" "a" "x"]]

/-- A pass that is proposed where another one stands gets a place of its
own, and the other one keeps its. -/
theorem livePlacement_placedRun : Extends ((machine ["p"]).run placedRun (machine ["p"]).init)
      ((machine ["p"]).run (placedRun ++ [.appendProviderEvents [firstPassBlock "2" "b" "y"]])
        (machine ["p"]).init) := by
  have hrun : ((machine ["p"]).restrict fun _ action => Owners.coversAction
      ⟨fun _ => "t", fun _ => "t"⟩ action = true).Reachable
        ((machine ["p"]).run placedRun (machine ["p"]).init) :=
    ⟨placedRun, by rfl⟩
  exact ((livePlacement hrun).2.2.2.2 _
    ⟨[.appendProviderEvents [firstPassBlock "2" "b" "y"]], by rfl⟩).1

end Remux.Journal
