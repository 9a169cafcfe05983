import Remux.Journal.Placement

/-!
# Appending keeps the places

What one append does to the places, and from it a batch: an event that is
not about a block leaves them, and that of a block is reduced at its
canonical place, which fits. `Advances` is what there is to keep.
-/

namespace Remux.Journal

open Remux.Journal.ProviderEventEnvelope List

variable {J J' J'' base : Journal} {owners : Owners}

/-! ## The events of blocks -/

/-- An event of a block is in the scope of its turn. -/
theorem isTurnBlock_eq_isSome (envelope : ProviderEventEnvelope) :
    envelope.isTurnBlock = envelope.turnScopedBlock.isSome := by
  obtain ⟨eventId, provider, scope, native, observedAt, event, inScope, bound⟩ := envelope
  cases event <;> cases scope <;> first | rfl | skip
  all_goals (simp [assertEventScope, ProviderEvent.scopeKind, ProviderEventScope.kind] at inScope)

variable {envelope candidate : ProviderEventEnvelope} {event : TurnScopedBlockEnvelope}
variable {turnId : String} {place : TurnStructure} {E : StoreError → Prop}

theorem turnScopedBlock_eq_some (h : envelope.turnScopedBlock = some event) :
    event.envelope = envelope := by
  unfold turnScopedBlock at h
  split at h
  · cases h
    rfl
  · cases h

/-- An event with a block, taken apart. -/
theorem turnScopedBlock_eq (event : TurnScopedBlockEnvelope) :
    event.envelope.turnScopedBlock = some event := by
  obtain ⟨envelope, turnId, lifecycle, place, block, hev, providerInstanceId, conversationId,
    executionId, hsc⟩ := event
  obtain ⟨eventId, provider, scope, native, observedAt, event, inScope, bound⟩ := envelope
  cases hev
  cases hsc
  rfl

/-- Another place is all that changes. -/
theorem turnScopedBlock_withBlockStructure (h : envelope.turnScopedBlock = some event)
    (passId : String) (passOrdinal blockOrdinal : ℕ) : ∃ event',
    (envelope.withBlockStructure passId passOrdinal blockOrdinal).turnScopedBlock = some event' ∧
      event'.turnId = event.turnId ∧ event'.lifecycle = event.lifecycle ∧
        event'.block = event.block ∧
      event'.place = { event.place with passId, passOrdinal, blockOrdinal } := by
  obtain ⟨eventId, provider, scope, native, observedAt, event, inScope, bound⟩ := envelope
  cases event with
  | turnBlock lifecycle place block =>
    cases scope with
    | turn providerInstanceId conversationId executionId turnId =>
      cases h
      exact ⟨_, rfl, rfl, rfl, rfl, rfl⟩
    | _ => cases h
  | _ => cases scope <;> cases h

theorem covers_of_block (hev : envelope.turnScopedBlock = some event) :
    owners.covers envelope = true ↔ owners.passTurn event.place.passId = event.turnId ∧
        owners.blockTurn event.place.blockId = event.turnId := by
  unfold Owners.covers
  rw [hev]
  simp

theorem covers_of_not_block (h : envelope.isTurnBlock = false) : owners.covers envelope = true := by
  rw [isTurnBlock_eq_isSome, Option.isSome_eq_false_iff, Option.isNone_iff_eq_none] at h
  unfold Owners.covers
  rw [h]

/-! ## What an append keeps -/

/-- The recorded events name ids of their own turns. -/
def Recorded (owners : Owners) (J : Journal) : Prop :=
  ∀ row ∈ J.events.rows, owners.covers row.envelope = true

/-- **A step that keeps the places**: it moves nothing, and the blocks
stay current. -/
structure Advances (owners : Owners) (J J' : Journal) : Prop where
  kept : Extends J J'
  placed : J'.Placed owners
  recorded : J.Recorded owners → J'.Recorded owners
  current : ∀ base, CurrentSince base J → CurrentSince base J'

theorem Advances.trans (h : Advances owners J J') (h' : Advances owners J' J'') :
    Advances owners J J'' where
  kept := h.kept.trans h'.kept
  placed := h'.placed
  recorded := h'.recorded ∘ h.recorded
  current base := h'.current base ∘ h.current base

/-- What leaves the places advances nothing. -/
theorem SamePlaces.advances (h : SamePlaces J J') (hJ : J.Placed owners) :
    Advances owners J J' where
  kept := h.extends
  placed := h.placed hJ
  recorded hrec := by
    unfold Recorded
    rw [h.events]
    exact hrec
  current _ := h.current

/-- An operation that leaves the places keeps them. -/
theorem InPlace.advances {x : Except StoreError Journal} (h : J.InPlace x) (hJ : J.Placed owners) :
    Settles x (Advances owners J) OtherError :=
  h.mono (fun _ h => h.advances hJ) fun _ => id

/-! ## Before an event is recorded -/

/-- The canonical form of a compaction: other events are as they were, and
so are the places. -/
theorem settles_canonicalizeCompactionEnvelope :
    Settles (J.canonicalizeCompactionEnvelope candidate)
      (fun result => Gentle J result.1 ∧ (result.2 = candidate ∨
        candidate.isTurnBlock = false ∧ result.2.isTurnBlock = false)) OtherError := by
  unfold canonicalizeCompactionEnvelope
  split
  · next hev _ _ =>
    have hcandidate : candidate.isTurnBlock = false := by
      unfold isTurnBlock
      rw [hev]
    split
    · refine settles_bind ((settles_update otherTable_controlEvents).mono (fun _ _ => ?_)
        fun _ => id)
      refine settles_pure ⟨.of_turns rfl rfl rfl rfl, .inr ⟨hcandidate, ?_⟩⟩
      unfold withCompaction
      split
      · rfl
      · exact hcandidate
    · refine settles_ite (fun _ => ?_) fun _ => settles_pure ⟨.refl, .inl rfl⟩
      refine settles_bind ((settles_update otherTable_compactions).mono (fun _ _ => ?_) fun _ => id)
      refine settles_bind ((settles_update otherTable_controlEvents).mono (fun _ _ => ?_)
        fun _ => id)
      exact settles_pure ⟨.of_turns rfl rfl rfl rfl, .inl rfl⟩
  · exact settles_pure ⟨.refl, .inl rfl⟩

/-- Only blocks are placed. -/
theorem canonicalizeTurnBlockPlacement_of_not_block (h : envelope.isTurnBlock = false) :
    J.canonicalizeTurnBlockPlacement envelope = envelope := by
  unfold canonicalizeTurnBlockPlacement
  split
  · next hev _ =>
    unfold isTurnBlock at h
    rw [hev] at h
    cases h
  · rfl

/-- The event of a block is put at its canonical place. -/
theorem canonicalizeTurnBlockPlacement_of_block (h : envelope.turnScopedBlock = some event) :
    ∃ event',
    (J.canonicalizeTurnBlockPlacement envelope).turnScopedBlock = some event' ∧
      event'.turnId = event.turnId ∧ event'.lifecycle = event.lifecycle ∧
      event'.block = event.block ∧ event'.place = J.canonicalPlace event.turnId event.place := by
  obtain ⟨event', hev', hturn, hlifecycle, hblk, hplc⟩ :=
    turnScopedBlock_withBlockStructure h (J.canonicalPlace event.turnId event.place).passId
      (J.canonicalPlace event.turnId event.place).passOrdinal
      (J.canonicalPlace event.turnId event.place).blockOrdinal
  refine ⟨event', ?_, hturn, hlifecycle, hblk, hplc⟩
  rw [← hev']
  unfold canonicalizeTurnBlockPlacement
  obtain ⟨_, _, _, hsc⟩ := event.scope_eq
  rw [← turnScopedBlock_eq_some h, event.event_eq, hsc]

/-- An event is recorded if it was not there; nothing else changes. -/
theorem settles_insertProviderEventRow : Settles (J.insertProviderEventRow envelope)
      (fun result => (result = (J, false) ∧
          ∃ row ∈ J.events.rows, row.envelope.eventId = envelope.eventId) ∨
        ∃ events : Table EventRow,
          events.rows = J.events.rows ++ [⟨envelope⟩] ∧ result = ({ J with events }, true))
      OtherError := by
  refine settles_ite (fun hknown => settles_pure (.inl ⟨rfl, ?_⟩)) fun _ => ?_
  · obtain ⟨row, hrow, hid⟩ := any_eq_true.1 hknown
    exact ⟨row, hrow, beq_iff_eq.1 hid⟩
  refine settles_check ⟨nofun, nofun⟩ fun _ => settles_check ⟨nofun, nofun⟩ fun _ => ?_
  refine settles_check ⟨nofun, nofun⟩ fun _ => settles_check ⟨nofun, nofun⟩ fun _ => ?_
  refine settles_bind ((settles_insert otherTable_events).mono (fun events hevs => ?_) fun _ => id)
  exact settles_pure (.inr ⟨events, hevs, rfl⟩)

/-! ## The event of a block -/

/-- **The event of a block is recorded**, with its payload, where none of
its id is. -/
def RecordsBlock (candidate : ProviderEventEnvelope) (J J' : Journal) : Prop :=
  ∀ event, candidate.turnScopedBlock = some event →
    (∀ row ∈ J.events.rows, row.envelope.eventId ≠ candidate.eventId) →
    ∃ row ∈ J'.events.rows, row.envelope.eventId = candidate.eventId ∧
      ∃ recorded, row.envelope.turnScopedBlock = some recorded ∧
        recorded.turnId = event.turnId ∧ recorded.lifecycle = event.lifecycle ∧
        recorded.block = event.block ∧ recorded.place.blockId = event.place.blockId

/-- The event of a block is not that of a compaction. -/
theorem hasCanonicalCompactionState_of_block (h : envelope.turnScopedBlock = some event) :
    J.hasCanonicalCompactionState envelope = false := by
  have hev := event.event_eq
  rw [turnScopedBlock_eq_some h] at hev
  unfold hasCanonicalCompactionState
  rw [hev]

/-- Its canonical place leaves an event its id. -/
theorem eventId_canonicalizeTurnBlockPlacement :
    (J.canonicalizeTurnBlockPlacement envelope).eventId = envelope.eventId := by
  unfold canonicalizeTurnBlockPlacement withBlockStructure
  split
  · dsimp only
    split <;> rfl
  · rfl

/-- What is read of a place is in the two tables. -/
theorem Fits.of_samePlaces (h : Fits owners J turnId place) (hpasses : J'.passes = J.passes)
    (hblks : J'.blocks = J.blocks) :
    Fits owners J' turnId place := by
  refine ⟨h.passTurn, h.blockTurn, ?_, ?_⟩
  · rw [hpasses]
    exact h.pass
  · rw [hblks]
    exact h.block

/-- After the rows of a block's event only states and times change. -/
theorem settles_reduceTurnBlock {start : Journal} {conversationId executionId : String}
    {lifecycle : BlockLifecycle} {block : TurnBlockSnapshot} {Q : Journal → Prop}
    (hE : ∀ e, OtherError e → E e)
    (h : Settles (start.upsertBlock turnId lifecycle place block envelope.observedAt) Q E) :
    Settles (start.reduceTurnBlock envelope conversationId executionId turnId lifecycle place block)
      (fun J' => ∃ written, Q written ∧ SamePlaces written J') E := by
  refine settles_bind (h.mono (fun written hwr => ?_) fun _ => id)
  refine Settles.mono (Q := SamePlaces written) (E := OtherError) ?_
    (fun J' hJ' => ⟨written, hwr, hJ'⟩) hE
  refine inPlace_bind (inPlace_ite (fun _ => inPlace_settleTerminalTurnBlocks) fun _ =>
    settles_pure .refl) fun _ _ => ?_
  refine inPlace_bind (inPlace_ite (fun _ => gently_reduceChildBlock.inPlace) fun _ =>
    settles_pure .refl) fun _ _ => ?_
  split
  · exact gently_touchTurn.inPlace
  · exact gently_touchTurn.inPlace
  · exact settles_pure .refl

/-- **Reducing the event of a block**: its turn is bound, its rows are
written, and then only states and times change. -/
theorem settles_reduceEvent_of_block (hev : envelope.turnScopedBlock = some event)
    {Q : Journal → Journal → Prop} (hE : ∀ e, OtherError e → E e)
    (h : ∀ bound, Gentle J bound →
      Settles (bound.upsertBlock event.turnId event.lifecycle event.place
      event.block envelope.observedAt) (Q bound) E) :
    Settles (J.reduceEvent envelope)
      (fun J' => ∃ bound written, Gentle J bound ∧ Q bound written ∧ SamePlaces written J') E := by
  obtain ⟨providerInstanceId, conversationId, executionId, hsc⟩ := event.scope_eq
  rw [turnScopedBlock_eq_some hev] at hsc
  have hblk := event.event_eq
  rw [turnScopedBlock_eq_some hev] at hblk
  unfold reduceEvent
  rw [hsc]
  refine settles_bind (gently_bindTurnOf.mono (fun bound hbnd => ?_) hE)
  unfold reduceByType
  rw [hblk, hsc]
  refine (settles_reduceTurnBlock hE (h bound hbnd)).mono ?_ fun _ => id
  rintro J' ⟨written, hwr, hsame⟩
  exact ⟨bound, written, hbnd, hwr, hsame⟩

/-! ## Appending -/

variable {events : Table EventRow}

/-- A recorded event and the reduction of it. -/
theorem Advances.of_block (hevs : events.rows = J.events.rows ++ [⟨envelope⟩])
    (hev : envelope.turnScopedBlock = some event)
    (hfits : Fits owners J event.turnId event.place) {bound written : Journal}
    (hbnd : Gentle { J with events } bound)
    (hstep : BlockStep bound written event.place.blockId event.lifecycle.revision
      event.block.payload)
    (hpl : written.Placed owners) : Advances owners J written where
  kept := by
    have hsame : SamePlaces { J with events } bound := hbnd.samePlaces
    have hread : Extends J { J with events } :=
      ⟨fun p hp => ⟨p, hp, rfl, rfl, rfl⟩, fun b hb => ⟨b, hb, rfl, rfl, rfl, rfl⟩⟩
    exact hread.trans (hsame.extends.trans hstep.kept)
  placed := hpl
  recorded hrec row hrow := by
    rw [hstep.events, hbnd.events] at hrow
    rw [hevs] at hrow
    rcases mem_concat.1 hrow with hrow | rfl
    · exact hrec row hrow
    · exact (covers_of_block hev).2 ⟨hfits.passTurn, hfits.blockTurn⟩
  current base hcur := by
    have hrec : bound.events.rows = J.events.rows ++ [⟨envelope⟩] := by
      rw [hbnd.events]
      exact hevs
    exact hstep.current hrec hev hbnd.blocks hcur

/-- An event that is not about a block, recorded and reduced. -/
theorem Advances.of_not_block
    (hevs : events.rows = J.events.rows ++ [⟨envelope⟩]) (hblk : envelope.isTurnBlock = false)
    (hJ : J.Placed owners) : Advances owners J { J with events } where
  kept := ⟨fun p hp => ⟨p, hp, rfl, rfl, rfl⟩, fun b hb => ⟨b, hb, rfl, rfl, rfl, rfl⟩⟩
  placed := { hJ with }
  recorded hrec row hrow := by
    rw [hevs] at hrow
    rcases mem_concat.1 hrow with hrow | rfl
    · exact hrec row hrow
    · exact covers_of_not_block hblk
  current base hcur := by
    obtain ⟨later, hlat⟩ := hcur.recorded
    have hnone : envelope.turnScopedBlock = none := by
      rw [isTurnBlock_eq_isSome] at hblk
      simpa using hblk
    have hevs' : events.rows = base.events.rows ++ (later ++ [⟨envelope⟩]) := by
      rw [hevs, hlat, append_assoc]
    have hwrites : ∀ blockId, writesSince base { J with events } blockId =
        writesSince base J blockId := by
      intro blockId
      unfold writesSince
      rw [hevs', hlat, drop_left, drop_left, filterMap_append]
      simp [hnone]
    refine ⟨⟨_, hevs'⟩, fun b hb => ?_, fun blockId hne => ?_⟩
    · rw [hwrites]
      exact hcur.shown b hb
    · rw [hwrites] at hne
      exact hcur.stored blockId hne

/-- **One append keeps the places**, and throws nothing about them. -/
theorem settles_appendProviderEventInTransaction (hpl : J.Placed owners)
    (hcov : owners.covers candidate = true) :
    Settles (J.appendProviderEventInTransaction candidate)
      (fun result => Advances owners J result.1 ∧ RecordsBlock candidate J result.1)
        OtherError := by
  refine settles_bind (settles_canonicalizeCompactionEnvelope.mono ?_ fun _ => id)
  rintro ⟨first, envelope⟩ ⟨hfst, henv⟩
  -- The envelope still covers, at its canonical place.
  have hcov' : owners.covers envelope = true := by
    rcases henv with rfl | ⟨-, hblk⟩
    · exact hcov
    · exact covers_of_not_block hblk
  have hpl' := hfst.samePlaces.placed hpl
  refine settles_bind (gently_ensureNativeProviderTurn.mono (fun second hsecond => ?_) fun _ => id)
  have hbeg : SamePlaces J second := (hfst.trans hsecond).samePlaces
  -- The event of a block keeps its id and what it says.
  have hown : ∀ event, candidate.turnScopedBlock = some event → envelope = candidate ∧
      ∃ event', (first.canonicalizeTurnBlockPlacement envelope).turnScopedBlock = some event' ∧
        event'.turnId = event.turnId ∧ event'.lifecycle = event.lifecycle ∧
        event'.block = event.block ∧ event'.place.blockId = event.place.blockId := by
    intro event hcandidate
    rcases henv with rfl | ⟨hnot, -⟩
    · obtain ⟨event', hev', hturn, hlifecycle, hsnap, hplc⟩ :=
        canonicalizeTurnBlockPlacement_of_block (J := first) hcandidate
      exact ⟨rfl, event', hev', hturn, hlifecycle, hsnap, hplc ▸ rfl⟩
    · rw [isTurnBlock_eq_isSome, hcandidate] at hnot
      cases hnot
  refine settles_ite (fun hcompaction => settles_pure ⟨hbeg.advances hpl, ?_⟩) fun _ => ?_
  · intro event hcandidate
    obtain ⟨-, event', hev', -⟩ := hown event hcandidate
    rw [hasCanonicalCompactionState_of_block hev'] at hcompaction
    cases hcompaction
  refine settles_bind (settles_insertProviderEventRow.mono ?_ fun _ => id)
  rintro ⟨recorded, inserted⟩ (⟨heq, hknown⟩ | ⟨events, hevs, heq⟩)
  · cases heq
    refine settles_pure ⟨hbeg.advances hpl, fun event hcandidate hnew => ?_⟩
    obtain ⟨row, hrow, hid⟩ := hknown
    rw [hbeg.events] at hrow
    rw [eventId_canonicalizeTurnBlockPlacement, (hown event hcandidate).1] at hid
    exact absurd hid (hnew row hrow)
  · cases heq
    refine settles_bind ?_
    have hplaced'' := hbeg.placed hpl
    cases hblk : envelope.turnScopedBlock with
    | none =>
      have hnot : envelope.isTurnBlock = false := by rw [isTurnBlock_eq_isSome, hblk]; rfl
      rw [canonicalizeTurnBlockPlacement_of_not_block hnot] at hevs ⊢
      have hrec := Advances.of_not_block hevs hnot hplaced''
      refine (inPlace_reduceEvent hnot).mono (fun J' hJ' => settles_pure ⟨?_, ?_⟩) fun _ => id
      · exact (hbeg.advances hpl).trans (hrec.trans (hJ'.advances hrec.placed))
      · intro event hcandidate
        rw [(hown event hcandidate).1, hcandidate] at hblk
        cases hblk
    | some event =>
      obtain ⟨event', hev', hturn, hlifecycle, hsnap, hplc⟩ :=
        canonicalizeTurnBlockPlacement_of_block (J := first) hblk
      obtain ⟨hpassTurn, hblockTurn⟩ := (covers_of_block hblk).1 hcov'
      have hfits : Fits owners first event'.turnId event'.place := by
        rw [hturn, hplc]
        exact canonicalPlace_fits hpl' hpassTurn hblockTurn
      have hfits' := hfits.of_samePlaces hsecond.passes hsecond.blocks
      have hfits'' : Fits owners { second with events } event'.turnId event'.place :=
        { hfits' with }
      have hupsert : ∀ bound, Gentle { second with events } bound →
          Settles (bound.upsertBlock event'.turnId event'.lifecycle event'.place event'.block
              (first.canonicalizeTurnBlockPlacement envelope).observedAt)
            (fun written => BlockStep bound written event'.place.blockId event'.lifecycle.revision
              event'.block.payload ∧ written.Placed owners) OtherError := by
        intro bound hbnd
        exact settles_upsertBlock (hfits''.of_samePlaces hbnd.passes hbnd.blocks)
          (hbnd.samePlaces.placed { hplaced'' with })
      refine (settles_reduceEvent_of_block hev' (fun _ => id) hupsert).mono ?_ fun _ => id
      rintro J' ⟨bound, written, hbnd, ⟨hstep, hwr⟩, hsame⟩
      have hadvances := Advances.of_block hevs hev' hfits' hbnd hstep hwr
      refine settles_pure ⟨(hbeg.advances hpl).trans (hadvances.trans (hsame.advances hwr)), ?_⟩
      intro event hcandidate _
      obtain ⟨heq, hsays⟩ := hown event hcandidate
      refine ⟨⟨first.canonicalizeTurnBlockPlacement envelope⟩, ?_, ?_, hsays⟩
      · rw [hsame.events, hstep.events, hbnd.events]
        change _ ∈ events.rows
        rw [hevs]
        exact mem_concat_self
      · rw [eventId_canonicalizeTurnBlockPlacement, heq]

/-- **A batch keeps the places**, and throws nothing about them: by
induction on it, one append at a time. -/
theorem settles_appendProviderEvents (hpl : J.Placed owners)
    {envelopes : List ProviderEventEnvelope}
    (hcov : ∀ envelope ∈ envelopes, owners.covers envelope = true) :
    Settles (J.appendProviderEvents envelopes) (fun result => Advances owners J result.1 ∧
      ∀ candidate ∈ envelopes.head?, RecordsBlock candidate J result.1) OtherError := by
  induction envelopes generalizing J with
  | nil => exact settles_pure ⟨SamePlaces.refl.advances hpl, fun _ h => absurd h nofun⟩
  | cons envelope rest ih =>
    refine settles_bind ((settles_appendProviderEventInTransaction hpl
      (hcov envelope mem_cons_self)).mono ?_ fun _ => id)
    rintro ⟨J', inserted⟩ ⟨hJ', hrecords⟩
    refine settles_bind ((ih hJ'.placed fun e he => hcov e (mem_cons_of_mem _ he)).mono
      ?_ fun _ => id)
    rintro ⟨J'', later⟩ ⟨hJ'', -⟩
    refine settles_pure ⟨hJ'.trans hJ'', fun candidate hmem event hcandidate hnew => ?_⟩
    obtain rfl := Option.some.inj hmem
    obtain ⟨row, hrow, hsays⟩ := hrecords event hcandidate hnew
    obtain ⟨rows, hrows⟩ := (hJ''.current J' .refl).recorded
    exact ⟨row, hrows ▸ mem_append_left _ hrow, hsays⟩

end Remux.Journal
