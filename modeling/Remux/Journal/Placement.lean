import Remux.Common.Latest
import Remux.Journal.Frames

/-!
# Where the blocks of a turn stand

`appendProviderEvents` puts a new pass or block at the proposed ordinal if
it is free, and at the next one otherwise, and keeps one that it knows
where it is. Where no two turns share the id of a pass or a block
(`Owners`), no append fails for a place (`Placed`), nothing is moved
(`Extends`), and a block shows the latest of its events of the highest
revision (`CurrentSince`).
-/

namespace Remux.Journal

open List hiding find? find?_eq_none map_map mem_map
open Table BlockRow Row Option

/-! ## The statement -/

/-- The turn that an id of a pass, or of a block, belongs to. -/
structure Owners where
  passTurn : String → String
  blockTurn : String → String

/-- The event of a block names ids of its own turn. -/
def Owners.covers (owners : Owners) (envelope : ProviderEventEnvelope) : Bool :=
  match envelope.turnScopedBlock with
  | none => true
  | some event => owners.passTurn event.place.passId == event.turnId &&
      owners.blockTurn event.place.blockId == event.turnId

/-- What has been written to a block since a journal: what its row showed
there, and then its recorded events, in the order they were appended. -/
def writesSince (base J : Journal) (blockId : String) : List (ℕ × TurnBlockPayload) :=
  (base.blocks.rows.filter (·.blockId == blockId)).map (fun b => (b.revision, b.payload)) ++
    (((J.events.rows.drop base.events.rows.length).filterMap (·.envelope.turnScopedBlock)).filter
      (·.place.blockId == blockId)).map fun event => (event.lifecycle.revision, event.block.payload)

/-- **The rows are placed**: each belongs to the turn its id is of, and a
block stands in a pass of its turn. -/
structure Placed (owners : Owners) (J : Journal) : Prop where
  pass : ∀ p ∈ J.passes.rows, owners.passTurn p.passId = p.turnId
  block : ∀ b ∈ J.blocks.rows, owners.blockTurn b.blockId = b.turnId ∧
    ∃ p ∈ J.passes.rows, p.passId = b.passId ∧ p.turnId = b.turnId

/-- **Nothing is moved**: what has a place keeps it. -/
structure Extends (J J' : Journal) : Prop where
  pass : ∀ p ∈ J.passes.rows, ∃ p' ∈ J'.passes.rows,
    p'.passId = p.passId ∧ p'.turnId = p.turnId ∧ p'.ordinal = p.ordinal
  block : ∀ b ∈ J.blocks.rows, ∃ b' ∈ J'.blocks.rows, b'.blockId = b.blockId ∧
    b'.turnId = b.turnId ∧ b'.passId = b.passId ∧ b'.ordinal = b.ordinal

/-- **The blocks are current**: those that were written to have a row,
which shows the latest write of the highest revision, and no other blocks
have one. -/
structure CurrentSince (base J : Journal) : Prop where
  recorded : ∃ later, J.events.rows = base.events.rows ++ later
  shown : ∀ b ∈ J.blocks.rows,
    LatestHighest Prod.fst (writesSince base J b.blockId) (b.revision, b.payload)
  stored : ∀ blockId, writesSince base J blockId ≠ [] → ∃ b ∈ J.blocks.rows, b.blockId = blockId

theorem Extends.refl (J : Journal) : Extends J J :=
  ⟨fun p hp => ⟨p, hp, rfl, rfl, rfl⟩, fun b hb => ⟨b, hb, rfl, rfl, rfl, rfl⟩⟩

/-- Extended twice is extended. -/
theorem Extends.trans {J J' J'' : Journal} (h : Extends J J') (h' : Extends J' J'') :
    Extends J J'' where
  pass p hp := by
    obtain ⟨p', hp', hid, hturn, hord⟩ := h.pass p hp
    obtain ⟨p'', hp'', hid', hturn', hord'⟩ := h'.pass p' hp'
    exact ⟨p'', hp'', hid'.trans hid, hturn'.trans hturn, hord'.trans hord⟩
  block b hb := by
    obtain ⟨b', hb', hid, hturn, hpass, hord⟩ := h.block b hb
    obtain ⟨b'', hb'', hid', hturn', hpass', hord'⟩ := h'.block b' hb'
    exact ⟨b'', hb'', hid'.trans hid, hturn'.trans hturn, hpass'.trans hpass, hord'.trans hord⟩

/-! ## Steps that leave the places -/

/-- The columns of a pass that say where it stands. -/
def PassRow.position (p : PassRow) : String × String × ℕ := (p.passId, p.turnId, p.ordinal)

/-- The columns of a block that say where it stands and what it shows. -/
def BlockRow.position (b : BlockRow) : String × String × String × ℕ × ℕ × TurnBlockPayload :=
  (b.blockId, b.turnId, b.passId, b.ordinal, b.revision, b.payload)

/-- **A step that leaves the places**: only states and times change. -/
structure SamePlaces (J J' : Journal) : Prop where
  passes : J'.passes.rows.map PassRow.position = J.passes.rows.map PassRow.position
  blocks : J'.blocks.rows.map BlockRow.position = J.blocks.rows.map BlockRow.position
  events : J'.events = J.events

variable {J J' J'' : Journal} {owners : Owners}

theorem SamePlaces.refl : SamePlaces J J := ⟨rfl, rfl, rfl⟩

theorem SamePlaces.trans (h : SamePlaces J J') (h' : SamePlaces J' J'') : SamePlaces J J'' :=
  ⟨h'.passes.trans h.passes, h'.blocks.trans h.blocks, h'.events.trans h.events⟩

theorem SamePlaces.symm (h : SamePlaces J J') : SamePlaces J' J :=
  ⟨h.passes.symm, h.blocks.symm, h.events.symm⟩

theorem Gentle.samePlaces (h : Gentle J J') : SamePlaces J J' :=
  ⟨by rw [h.passes], by rw [h.blocks], h.events⟩

variable {p : PassRow} {b : BlockRow} {base : Journal} {x : Except StoreError Journal}
variable {f : BlockRow → BlockRow} {turnId blockId passId : String} {now proposed : ℕ}
variable {place : TurnStructure}

/-- A row has its counterpart of the same position. -/
theorem SamePlaces.pass (h : SamePlaces J J') (hp : p ∈ J.passes.rows) :
    ∃ p' ∈ J'.passes.rows, p'.position = p.position := by
  have hmem : p.position ∈ J'.passes.rows.map PassRow.position := by
    rw [h.passes]
    exact mem_map_of_mem hp
  obtain ⟨p', hp', heq⟩ := List.mem_map.1 hmem
  exact ⟨p', hp', heq⟩

theorem SamePlaces.block (h : SamePlaces J J') (hb : b ∈ J.blocks.rows) :
    ∃ b' ∈ J'.blocks.rows, b'.position = b.position := by
  have hmem : b.position ∈ J'.blocks.rows.map position := by
    rw [h.blocks]
    exact mem_map_of_mem hb
  obtain ⟨b', hb', heq⟩ := List.mem_map.1 hmem
  exact ⟨b', hb', heq⟩

theorem SamePlaces.writesSince_eq (h : SamePlaces J J') (blockId : String) :
    writesSince base J' blockId = writesSince base J blockId := by
  unfold writesSince
  rw [h.events]

theorem PassRow.eq_of_position {p' : PassRow} (h : p'.position = p.position) :
    p'.passId = p.passId ∧ p'.turnId = p.turnId ∧ p'.ordinal = p.ordinal := by
  simpa only [PassRow.position, Prod.mk.injEq] using h

theorem BlockRow.eq_of_position {b' : BlockRow} (h : b'.position = b.position) :
    b'.blockId = b.blockId ∧ b'.turnId = b.turnId ∧ b'.passId = b.passId ∧
      b'.ordinal = b.ordinal ∧ b'.revision = b.revision ∧ b'.payload = b.payload := by
  simpa only [position, Prod.mk.injEq] using h

/-- What leaves the places extends them. -/
theorem SamePlaces.extends (h : SamePlaces J J') : Extends J J' where
  pass p hp := by
    obtain ⟨p', hp', heq⟩ := h.pass hp
    exact ⟨p', hp', PassRow.eq_of_position heq⟩
  block b hb := by
    obtain ⟨b', hb', heq⟩ := h.block hb
    obtain ⟨hid, hturn, hpass, hord, -, -⟩ := eq_of_position heq
    exact ⟨b', hb', hid, hturn, hpass, hord⟩

/-- What leaves the places keeps them. -/
theorem SamePlaces.placed (h : SamePlaces J J') (hJ : J.Placed owners) : J'.Placed owners where
  pass p' hp' := by
    obtain ⟨p, hp, heq⟩ := h.symm.pass hp'
    obtain ⟨hid, hturn, -⟩ := PassRow.eq_of_position heq
    rw [← hid, ← hturn]
    exact hJ.pass p hp
  block b' hb' := by
    obtain ⟨b, hb, heq⟩ := h.symm.block hb'
    obtain ⟨hid, hturn, hpass, -, -, -⟩ := eq_of_position heq
    obtain ⟨hown, p, hp, hpid, hpturn⟩ := hJ.block b hb
    obtain ⟨p', hp', heq'⟩ := h.pass hp
    obtain ⟨hid', hturn', -⟩ := PassRow.eq_of_position heq'
    rw [← hid, ← hturn, ← hpass]
    exact ⟨hown, p', hp', hid'.trans hpid, hturn'.trans hpturn⟩

/-- What leaves the places keeps the revisions current. -/
theorem SamePlaces.current (h : SamePlaces J J') (hJ : CurrentSince base J) :
    CurrentSince base J' where
  recorded := by
    rw [h.events]
    exact hJ.recorded
  shown b' hb' := by
    obtain ⟨b, hb, heq⟩ := h.symm.block hb'
    obtain ⟨hid, -, -, -, hrev, hpay⟩ := eq_of_position heq
    rw [h.writesSince_eq, ← hid, ← hrev, ← hpay]
    exact hJ.shown b hb
  stored blockId hne := by
    rw [h.writesSince_eq] at hne
    obtain ⟨b, hb, hid⟩ := hJ.stored blockId hne
    obtain ⟨b', hb', heq⟩ := h.block hb
    exact ⟨b', hb', (eq_of_position heq).1.trans hid⟩

/-! ## Statements on passes and blocks -/

/-- **An operation that leaves the places**, and throws nothing about
them. -/
def InPlace (J : Journal) (x : Except StoreError Journal) : Prop :=
  Settles x (SamePlaces J) OtherError

theorem Gently.inPlace (h : J.Gently x) : J.InPlace x :=
  h.mono (fun _ => Gentle.samePlaces) fun _ => id

theorem inPlace_bind {f : Journal → Except StoreError Journal} (hx : J.InPlace x)
    (hf : ∀ J', SamePlaces J J' → J'.InPlace (f J')) : J.InPlace (x >>= f) :=
  settles_bind (hx.mono (fun J' hJ' => (hf J' hJ').mono (fun _ => hJ'.trans) fun _ => id)
    fun _ => id)

theorem inPlace_ite {c : Prop} [Decidable c] {y : Except StoreError Journal} (hx : c → J.InPlace x)
    (hy : ¬c → J.InPlace y) : J.InPlace (if c then x else y) :=
  settles_ite hx hy

/-- A state is not a part of a pass's key. -/
theorem inPlace_updatePasses {p : PassRow → Bool} {f : PassRow → PassRow}
    (h : ∀ r, (f r).position = r.position) : J.InPlace (J.updatePasses p f) := by
  have hsame : ∀ r, (if p r then f r else r).position = r.position := by
    intro r
    split
    · exact h r
    · rfl
  obtain ⟨passes, hpasses⟩ : ∃ passes, J.passes.update p f = .ok passes := by
    refine update_isOk (fun a _ b _ hab => ?_) fun _ _ _ => rfl
    obtain ⟨hid, hturn, hord⟩ := PassRow.eq_of_position (hsame a)
    obtain ⟨hid', hturn', hord'⟩ := PassRow.eq_of_position (hsame b)
    change (_ == _ || _ == _ && _ == _) = false
    rw [hid, hid', hturn, hturn', hord, hord']
    exact hab
  unfold updatePasses
  rw [hpasses]
  refine settles_pure ⟨?_, rfl, rfl⟩
  rw [rows_update hpasses, List.map_map]
  exact map_congr_left fun r _ => hsame r

/-- An `UPDATE` of other columns leaves the places. -/
theorem inPlace_updateBlocks {p : BlockRow → Bool} (h : ∀ r, (f r).position = r.position) :
    J.InPlace (J.updateBlocks p f) := by
  have hsame : ∀ r, (if p r then f r else r).position = r.position := by
    intro r
    split
    · exact h r
    · rfl
  obtain ⟨blocks, hblks⟩ : ∃ blocks, J.blocks.update p f = .ok blocks := by
    refine update_isOk (fun a _ b _ hab => ?_) fun _ _ _ => rfl
    obtain ⟨hid, -, hpass, hord, -, -⟩ := eq_of_position (hsame a)
    obtain ⟨hid', -, hpass', hord', -, -⟩ := eq_of_position (hsame b)
    change (_ == _ || _ == _ && _ == _) = false
    rw [hid, hid', hpass, hpass', hord, hord']
    exact hab
  unfold updateBlocks
  rw [hblks]
  refine settles_pure ⟨rfl, ?_, rfl⟩
  rw [rows_update hblks, List.map_map]
  exact map_congr_left fun r _ => hsame r

theorem inPlace_settleTerminalTurnBlocks {scope : TurnRow → Bool} :
    J.InPlace (J.settleTerminalTurnBlocks scope) :=
  inPlace_updateBlocks fun b => by split <;> rfl

/-- The end of a turn settles its passes and blocks where they are. -/
theorem inPlace_reduceTurnCompleted {conversationId executionId : String}
    {outcome : ProviderTurnOutcome} :
    J.InPlace (J.reduceTurnCompleted conversationId executionId turnId outcome now) := by
  refine inPlace_bind ?_ fun J' _ => inPlace_ite (fun _ => gently_pure .refl |>.inPlace) fun _ => ?_
  · refine settles_bind ((settles_update otherTable_turns).mono (fun turns _ => ?_) fun _ => id)
    exact settles_pure ⟨rfl, rfl, rfl⟩
  · refine inPlace_bind gently_updateConversationOfRoot.inPlace fun J' _ => ?_
    refine inPlace_bind gently_updateExecutions.inPlace fun J' _ => ?_
    exact inPlace_bind (inPlace_updatePasses fun _ => rfl) fun _ _ =>
      inPlace_settleTerminalTurnBlocks

/-- An event that is not about a block leaves the places. -/
theorem inPlace_reduceEvent {envelope : ProviderEventEnvelope}
    (hblk : envelope.isTurnBlock = false) : J.InPlace (J.reduceEvent envelope) := by
  unfold reduceEvent
  split
  · next conversationId executionId _ _ =>
    refine inPlace_bind gently_bindTurnOf.inPlace fun J' _ => ?_
    by_cases hcompl : ∃ outcome, envelope.event = .turnCompleted outcome
    · obtain ⟨outcome, hev⟩ := hcompl
      unfold reduceByType
      rw [hev]
      split <;> first | contradiction | skip
      · exact inPlace_reduceTurnCompleted
      · exact (gently_pure .refl).inPlace
    · exact (gently_reduceByType (fun outcome h => hcompl ⟨outcome, h⟩) hblk).inPlace
  · exact (gently_pure .refl).inPlace

/-! ## The canonical place -/

theorem freeOrdinal_not_mem {occupied : List ℕ} : freeOrdinal occupied proposed ∉ occupied := by
  unfold freeOrdinal
  split
  · intro hmem
    have := lt_next hmem
    omega
  · next h => simpa using h

theorem blocks_find? (hb : b ∈ J.blocks.rows) (hid : b.blockId = blockId) :
    J.blocks.find? (·.blockId == blockId) = some b := by
  refine find?_eq_some_of_clash hb (by simpa using hid) fun b' _ hid' => ?_
  simp [clash, hid, hid']

theorem passes_find? (hp : p ∈ J.passes.rows) (hid : p.passId = passId) :
    J.passes.find? (·.passId == passId) = some p := by
  refine find?_eq_some_of_clash hp (by simpa using hid) fun p' _ hid' => ?_
  simp [clash, hid, hid']

theorem blocks_find?_none (h : ∀ b ∈ J.blocks.rows, b.blockId ≠ blockId) :
    J.blocks.find? (·.blockId == blockId) = none :=
  find?_eq_none.2 fun b hb => by simpa using h b hb

theorem passes_find?_none (h : ∀ p ∈ J.passes.rows, p.passId ≠ passId) :
    J.passes.find? (·.passId == passId) = none :=
  find?_eq_none.2 fun p hp => by simpa using h p hp

/-- **A known block stays where it is.** -/
theorem canonicalPlace_of_block (hb : b ∈ J.blocks.rows) (hid : b.blockId = place.blockId)
    (hp : p ∈ J.passes.rows) (hpass : p.passId = b.passId) :
    J.canonicalPlace turnId place = { passId := b.passId, blockId := place.blockId,
                                      passOrdinal := p.ordinal, blockOrdinal := b.ordinal } := by
  unfold canonicalPlace
  rw [blocks_find? hb hid]
  simp only [bind_some]
  rw [passes_find? hp hpass]
  rfl

/-- A free ordinal in a pass is that of none of its blocks. -/
theorem free_in_pass (hb : b ∈ J.blocks.rows) (hpass : b.passId = passId) :
    b.ordinal ≠ freeOrdinal
      ((J.blocks.rows.filter (·.passId == passId)).map (·.ordinal)) proposed := by
  intro hord
  have hmem : b.ordinal ∈ (J.blocks.rows.filter (·.passId == passId)).map (·.ordinal) :=
    mem_map_of_mem (mem_filter.2 ⟨hb, by simpa using hpass⟩)
  rw [hord] at hmem
  exact freeOrdinal_not_mem hmem

/-- A free ordinal in a turn is that of none of its passes. -/
theorem free_in_turn (hp : p ∈ J.passes.rows) (hturn : p.turnId = turnId) :
    p.ordinal ≠ freeOrdinal
      ((J.passes.rows.filter (·.turnId == turnId)).map (·.ordinal)) proposed := by
  intro hord
  have hmem : p.ordinal ∈ (J.passes.rows.filter (·.turnId == turnId)).map (·.ordinal) :=
    mem_map_of_mem (mem_filter.2 ⟨hp, by simpa using hturn⟩)
  rw [hord] at hmem
  exact freeOrdinal_not_mem hmem

/-- A new block of a known pass gets a free ordinal in it. -/
theorem canonicalPlace_of_pass (turnId : String)
    (hnew : ∀ b ∈ J.blocks.rows, b.blockId ≠ place.blockId) (hp : p ∈ J.passes.rows)
    (hpass : p.passId = place.passId) : ∃ blockOrdinal,
    J.canonicalPlace turnId place = { place with passOrdinal := p.ordinal, blockOrdinal } ∧
      ∀ b ∈ J.blocks.rows, b.passId = place.passId → b.ordinal ≠ blockOrdinal := by
  have heq : J.canonicalPlace turnId place = { place with
      passOrdinal := p.ordinal
      blockOrdinal := freeOrdinal
        ((J.blocks.rows.filter (·.passId == place.passId)).map (·.ordinal))
          place.blockOrdinal } := by
    unfold canonicalPlace
    rw [blocks_find?_none hnew]
    simp only [bind_none, map_none, getD_none]
    rw [passes_find? hp hpass]
  exact ⟨_, heq, fun b hb => free_in_pass hb⟩

/-- A new block of a new pass gets a free ordinal for each. -/
theorem canonicalPlace_of_new (turnId : String)
    (hnew : ∀ b ∈ J.blocks.rows, b.blockId ≠ place.blockId)
    (hpass : ∀ p ∈ J.passes.rows, p.passId ≠ place.passId) : ∃ passOrdinal blockOrdinal,
    J.canonicalPlace turnId place = { place with passOrdinal, blockOrdinal } ∧
      (∀ p ∈ J.passes.rows, p.turnId = turnId → p.ordinal ≠ passOrdinal) ∧
      ∀ b ∈ J.blocks.rows, b.passId = place.passId → b.ordinal ≠ blockOrdinal := by
  have heq : J.canonicalPlace turnId place = { place with
      passOrdinal := freeOrdinal
        ((J.passes.rows.filter (·.turnId == turnId)).map (·.ordinal)) place.passOrdinal
      blockOrdinal := freeOrdinal
        ((J.blocks.rows.filter (·.passId == place.passId)).map (·.ordinal))
          place.blockOrdinal } := by
    unfold canonicalPlace
    rw [blocks_find?_none hnew]
    simp only [bind_none, map_none, getD_none]
    rw [passes_find?_none hpass]
  exact ⟨_, _, heq, fun p hp => free_in_turn hp, fun b hb => free_in_pass hb⟩

/-- **A place fits**: its pass stands there or its ordinal is free in the
turn, and its block stands there or its ordinal is free in the pass. -/
structure Fits (owners : Owners) (J : Journal) (turnId : String)
    (place : TurnStructure) : Prop where
  passTurn : owners.passTurn place.passId = turnId
  blockTurn : owners.blockTurn place.blockId = turnId
  pass : (∃ p ∈ J.passes.rows, p.passId = place.passId ∧ p.turnId = turnId ∧
      p.ordinal = place.passOrdinal) ∨
    ∀ p ∈ J.passes.rows, p.passId ≠ place.passId ∧ (p.turnId = turnId →
      p.ordinal ≠ place.passOrdinal)
  block : (∃ b ∈ J.blocks.rows, b.blockId = place.blockId ∧ b.passId = place.passId ∧
      b.ordinal = place.blockOrdinal) ∨
    ∀ b ∈ J.blocks.rows, b.blockId ≠ place.blockId ∧
      (b.passId = place.passId → b.ordinal ≠ place.blockOrdinal)

/-- **The canonical place fits.** -/
theorem canonicalPlace_fits (hpl : J.Placed owners)
    (hpassTurn : owners.passTurn place.passId = turnId)
    (hblockTurn : owners.blockTurn place.blockId = turnId) :
    Fits owners J turnId (J.canonicalPlace turnId place) := by
  by_cases hknown : ∃ b ∈ J.blocks.rows, b.blockId = place.blockId
  · obtain ⟨b, hb, hid⟩ := hknown
    obtain ⟨hown, p, hp, hpass, hturn⟩ := hpl.block b hb
    have hbturn : b.turnId = turnId := by rw [← hown, hid, hblockTurn]
    rw [canonicalPlace_of_block hb hid hp hpass]
    refine ⟨?_, hblockTurn, .inl ⟨p, hp, hpass, hturn.trans hbturn, rfl⟩,
      .inl ⟨b, hb, hid, rfl, rfl⟩⟩
    rw [← hpass, hpl.pass p hp, hturn, hbturn]
  · have hnew : ∀ b ∈ J.blocks.rows, b.blockId ≠ place.blockId := fun b hb hid =>
      hknown ⟨b, hb, hid⟩
    by_cases hpass : ∃ p ∈ J.passes.rows, p.passId = place.passId
    · obtain ⟨p, hp, hid⟩ := hpass
      obtain ⟨blockOrdinal, heq, hfree⟩ := canonicalPlace_of_pass turnId hnew hp hid
      have hturn : p.turnId = turnId := by rw [← hpl.pass p hp, hid, hpassTurn]
      rw [heq]
      exact ⟨hpassTurn, hblockTurn, .inl ⟨p, hp, hid, hturn, rfl⟩,
        .inr fun b hb => ⟨hnew b hb, hfree b hb⟩⟩
    · have hnone : ∀ p ∈ J.passes.rows, p.passId ≠ place.passId := fun p hp hid =>
        hpass ⟨p, hp, hid⟩
      obtain ⟨passOrdinal, blockOrdinal, heq, hfreePass, hfree⟩ :=
        canonicalPlace_of_new turnId hnew hnone
      rw [heq]
      exact ⟨hpassTurn, hblockTurn, .inr fun p hp => ⟨hnone p hp, hfreePass p hp⟩,
        .inr fun b hb => ⟨hnew b hb, hfree b hb⟩⟩

/-! ## The rows of a block's event -/

/-- The pass of a place that fits is there already, or can be added. -/
theorem Fits.upsertPass (h : Fits owners J turnId place) :
    ∃ passes, J.upsertPass turnId place = .ok passes ∧
      (passes = J.passes ∧ (∃ p ∈ J.passes.rows, p.passId = place.passId ∧ p.turnId = turnId) ∨
        ∃ row, row.passId = place.passId ∧ row.turnId = turnId ∧
          passes.rows = J.passes.rows ++ [row]) := by
  unfold Journal.upsertPass
  rcases h.pass with ⟨p, hp, hid, hturn, hord⟩ | hnew
  · refine ⟨J.passes, ?_, .inl ⟨rfl, p, hp, hid, hturn⟩⟩
    rw [upsert_eq_update ⟨p, hp, by simpa using hid⟩]
    refine update_self fun r hr hrid => ?_
    have hsame : r = p := eq_of_clash hr hp (by
      simp [clash, hrid, hid])
    rw [hsame, ← hord]
  · rw [upsert_eq_insert fun r hr => by simpa using (hnew r hr).1]
    have hfree : ∀ r ∈ J.passes.rows, ∀ state, clash r
        ({ passId := place.passId, turnId, ordinal := place.passOrdinal, state } : PassRow) =
          false := by
      intro r hr state
      change (r.passId == place.passId || r.turnId == turnId &&
        r.ordinal == place.passOrdinal) = false
      simp only [Bool.or_eq_false_iff, Bool.and_eq_false_imp, beq_eq_false_iff_ne, beq_iff_eq]
      exact hnew r hr
    obtain ⟨passes, hpasses⟩ := insert_isOk (fun r hr => hfree r hr _) rfl
    exact ⟨passes, hpasses, .inr ⟨_, rfl, rfl, rows_insert hpasses⟩⟩

/-- The block of a place that fits is revised where it stands, or added. -/
theorem Fits.upsertBlock (h : Fits owners J turnId place) {row : BlockRow}
    (hrow : row.blockId = place.blockId ∧
      row.passId = place.passId ∧ row.ordinal = place.blockOrdinal)
    (hf : ∀ b, (f b).blockId = b.blockId ∧ (f b).passId = place.passId ∧
      (f b).ordinal = place.blockOrdinal) :
    ∃ blocks, J.blocks.upsert row (·.blockId == place.blockId) f = .ok blocks ∧
      ((∃ b ∈ J.blocks.rows, b.blockId = place.blockId ∧ b.passId = place.passId ∧
          b.ordinal = place.blockOrdinal ∧
          blocks.rows = J.blocks.rows.map fun r => if r.blockId == place.blockId then f r else r) ∨
        (∀ b ∈ J.blocks.rows, b.blockId ≠ place.blockId) ∧
          blocks.rows = J.blocks.rows ++ [row]) := by
  rcases h.block with ⟨b, hb, hid, hpass, hord⟩ | hnew
  · rw [upsert_eq_update ⟨b, hb, by simpa using hid⟩]
    have hplc : ∀ r ∈ J.blocks.rows,
        (if r.blockId == place.blockId then f r else r).blockId = r.blockId ∧
        (if r.blockId == place.blockId then f r else r).passId = r.passId ∧
        (if r.blockId == place.blockId then f r else r).ordinal = r.ordinal := by
      intro r hr
      split
      · next hrid =>
        have hsame : r = b := eq_of_clash hr hb (by
          simp [clash, hrid, hid])
        obtain ⟨hfid, hfpass, hfordinal⟩ := hf r
        rw [hfpass, hfordinal, hsame]
        exact ⟨(hf b).1, hpass.symm, hord.symm⟩
      · exact ⟨rfl, rfl, rfl⟩
    obtain ⟨blocks, hblks⟩ : ∃ blocks,
        J.blocks.update (·.blockId == place.blockId) f = .ok blocks := by
      refine update_isOk (fun r hr r' hr' hclash => ?_) fun _ _ _ => rfl
      obtain ⟨hrid, hrpass, hrordinal⟩ := hplc r hr
      obtain ⟨hrid', hrpass', hrordinal'⟩ := hplc r' hr'
      change (_ == _ || _ == _ && _ == _) = false
      rw [hrid, hrid', hrpass, hrpass', hrordinal, hrordinal']
      exact hclash
    exact ⟨blocks, hblks, .inl ⟨b, hb, hid, hpass, hord, rows_update hblks⟩⟩
  · rw [upsert_eq_insert fun r hr => by simpa using (hnew r hr).1]
    obtain ⟨hrid, hrpass, hrordinal⟩ := hrow
    have hfree : ∀ r ∈ J.blocks.rows, clash r row = false := by
      intro r hr
      change (r.blockId == row.blockId || r.passId == row.passId &&
        r.ordinal == row.ordinal) = false
      rw [hrid, hrpass, hrordinal]
      simp only [Bool.or_eq_false_iff, Bool.and_eq_false_imp, beq_eq_false_iff_ne, beq_iff_eq]
      exact hnew r hr
    obtain ⟨blocks, hblks⟩ := insert_isOk hfree rfl
    exact ⟨blocks, hblks, .inr ⟨fun b hb => (hnew b hb).1, rows_insert hblks⟩⟩

/-- **What the event of a block writes**: it is stale, or the row of the
block shows it; the other blocks are as they were. -/
structure BlockStep (J J' : Journal) (blockId : String) (revision : ℕ)
    (payload : TurnBlockPayload) :
    Prop where
  events : J'.events = J.events
  kept : Extends J J'
  others : ∀ b, b.blockId ≠ blockId → (b ∈ J'.blocks.rows ↔ b ∈ J.blocks.rows)
  written : (∃ b ∈ J.blocks.rows, b.blockId = blockId ∧ revision < b.revision ∧
    b ∈ J'.blocks.rows) ∨
    (∀ b ∈ J.blocks.rows, b.blockId = blockId → b.revision ≤ revision) ∧
      ∃ b ∈ J'.blocks.rows, b.blockId = blockId ∧ b.revision = revision ∧ b.payload = payload

/-- **The blocks after the event of one**: the row of a block that was
there keeps its place, and the row of the event is in a pass of its turn. -/
theorem Fits.upsertBlockRow (h : Fits owners J turnId place) (lifecycle : BlockLifecycle)
    (block : TurnBlockSnapshot) (now : ℕ) :
    ∃ blocks, J.upsertBlockRow turnId lifecycle place block now = .ok blocks ∧
      (blocks = J.blocks ∧ (∃ b ∈ J.blocks.rows, b.blockId = place.blockId ∧
          lifecycle.revision < b.revision) ∨
        (∀ b ∈ J.blocks.rows, b.blockId = place.blockId → b.revision ≤ lifecycle.revision) ∧
        ∃ row ∈ blocks.rows, row.blockId = place.blockId ∧ row.passId = place.passId ∧
          row.ordinal = place.blockOrdinal ∧ row.revision = lifecycle.revision ∧
          row.payload = block.payload ∧
          (∀ b, b.blockId ≠ place.blockId → (b ∈ blocks.rows ↔ b ∈ J.blocks.rows)) ∧
          ((∃ b ∈ J.blocks.rows, b.blockId = place.blockId ∧ b.passId = place.passId ∧
              b.ordinal = place.blockOrdinal ∧ row.turnId = b.turnId) ∨
            (∀ b ∈ J.blocks.rows, b.blockId ≠ place.blockId) ∧ row.turnId = turnId)) := by
  unfold Journal.upsertBlockRow
  by_cases hstale : J.staleBlock place.blockId lifecycle.revision = true
  · rw [if_pos hstale]
    obtain ⟨b, hb, hlt⟩ := any_eq_true.1 hstale
    simp only [Bool.and_eq_true, beq_iff_eq, decide_eq_true_eq] at hlt
    exact ⟨J.blocks, rfl, .inl ⟨rfl, b, hb, hlt⟩⟩
  · rw [if_neg hstale]
    have hle : ∀ b ∈ J.blocks.rows, b.blockId = place.blockId →
      b.revision ≤ lifecycle.revision := by
      intro b hb hid
      by_contra hlt
      refine hstale (any_eq_true.2 ⟨b, hb, ?_⟩)
      simp only [Bool.and_eq_true, beq_iff_eq, decide_eq_true_eq]
      exact ⟨hid, by omega⟩
    have hnewPlace : (newBlock turnId lifecycle place block now).blockId = place.blockId ∧
        (newBlock turnId lifecycle place block now).passId = place.passId ∧
        (newBlock turnId lifecycle place block now).ordinal = place.blockOrdinal := ⟨rfl, rfl, rfl⟩
    obtain ⟨blocks, hblks, hcases⟩ := h.upsertBlock hnewPlace
      (f := (·.revise lifecycle place block now)) fun _ => ⟨rfl, rfl, rfl⟩
    refine ⟨blocks, hblks, .inr ⟨hle, ?_⟩⟩
    rcases hcases with ⟨b, hb, hid, hpass, hord, hrows⟩ | ⟨hnew, hrows⟩
    · refine ⟨b.revise lifecycle place block now, ?_, hid, rfl, rfl, rfl, rfl, ?_,
        .inl ⟨b, hb, hid, hpass, hord, rfl⟩⟩
      · rw [hrows]
        refine List.mem_map.2 ⟨b, hb, ?_⟩
        rw [if_pos (by simpa using hid)]
      · intro b' hb'
        rw [hrows, List.mem_map]
        constructor
        · rintro ⟨old, hold, rfl⟩
          split at hb'
          · next hold' => exact absurd (beq_iff_eq.1 hold') hb'
          · next hold' => rwa [if_neg hold']
        · intro hmem
          exact ⟨b', hmem, if_neg (by simpa using hb')⟩
    · refine ⟨newBlock turnId lifecycle place block now, ?_, rfl, rfl, rfl, rfl, rfl, ?_,
        .inr ⟨hnew, rfl⟩⟩
      · rw [hrows]
        exact mem_concat_self
      · intro b' hb'
        rw [hrows, mem_append, mem_singleton]
        refine ⟨fun hmem => hmem.resolve_right ?_, .inl⟩
        rintro rfl
        exact hb' rfl

/-- **The rows of a block's event**, at a place that fits. -/
theorem settles_upsertBlock (hfits : Fits owners J turnId place) (hpl : J.Placed owners)
    {lifecycle : BlockLifecycle} {block : TurnBlockSnapshot} :
    Settles (J.upsertBlock turnId lifecycle place block now)
      (fun J' => BlockStep J J' place.blockId lifecycle.revision block.payload ∧ J'.Placed owners)
      OtherError := by
  refine settles_check ⟨nofun, nofun⟩ fun _ => ?_
  obtain ⟨passes, hpasses, hpassCases⟩ := hfits.upsertPass
  obtain ⟨blocks, hblks, hblockCases⟩ :=
    hfits.upsertBlockRow lifecycle block now
  rw [hpasses, hblks]
  -- The passes: those that were there, and the one of the place.
  have hkept : ∀ p ∈ J.passes.rows, p ∈ passes.rows := by
    rcases hpassCases with ⟨rfl, -⟩ | ⟨row, -, -, hrows⟩
    · exact fun _ => id
    · rw [hrows]
      exact fun _ => mem_append_left _
  have hpass : ∃ p ∈ passes.rows, p.passId = place.passId ∧ p.turnId = turnId := by
    rcases hpassCases with ⟨rfl, hp⟩ | ⟨row, hid, hturn, hrows⟩
    · exact hp
    · rw [hrows]
      exact ⟨row, mem_concat_self, hid, hturn⟩
  have hpassTurn : ∀ p ∈ passes.rows, owners.passTurn p.passId = p.turnId := by
    rcases hpassCases with ⟨rfl, -⟩ | ⟨row, hid, hturn, hrows⟩
    · exact hpl.pass
    · intro p hp
      rw [hrows] at hp
      rcases mem_concat.1 hp with hp | rfl
      · exact hpl.pass p hp
      · rw [hid, hturn]
        exact hfits.passTurn
  have hblockKept : ∀ b ∈ J.blocks.rows, owners.blockTurn b.blockId = b.turnId ∧
      ∃ p ∈ passes.rows, p.passId = b.passId ∧ p.turnId = b.turnId := by
    intro b hb
    obtain ⟨hown, p, hp, hid⟩ := hpl.block b hb
    exact ⟨hown, p, hkept p hp, hid⟩
  rcases hblockCases with ⟨rfl, b, hb, hid, hlt⟩ | ⟨hle, row, hrow, hid, hrowPass, hord, hrev,
    hpay, hothers, hwhere⟩
  · refine settles_pure ⟨⟨rfl, ⟨fun p hp => ⟨p, hkept p hp, rfl, rfl, rfl⟩, ?_⟩, fun _ _ => .rfl,
      .inl ⟨b, hb, hid, hlt, hb⟩⟩, hpassTurn, hblockKept⟩
    exact fun b' hb' => ⟨b', hb', rfl, rfl, rfl, rfl⟩
  · refine settles_pure ⟨⟨rfl, ⟨fun p hp => ⟨p, hkept p hp, rfl, rfl, rfl⟩, ?_⟩, hothers,
      .inr ⟨hle, row, hrow, hid, hrev, hpay⟩⟩, hpassTurn, ?_⟩
    · intro b hb
      by_cases hb' : b.blockId = place.blockId
      · rcases hwhere with ⟨old, hold, holdId, holdPass, holdOrdinal, hturn⟩ | ⟨hnew, -⟩
        · have hsame : b = old := eq_of_clash hb hold (by simp [clash, hb', holdId])
          subst hsame
          exact ⟨row, hrow, hid.trans hb'.symm, hturn, hrowPass.trans holdPass.symm,
            hord.trans holdOrdinal.symm⟩
        · exact absurd hb' (hnew b hb)
      · exact ⟨b, (hothers b hb').2 hb, rfl, rfl, rfl, rfl⟩
    · intro b hb
      by_cases hb' : b.blockId = place.blockId
      · have hsame : b = row := eq_of_clash hb hrow (by simp [clash, hb', hid])
        rw [hsame]
        rcases hwhere with ⟨old, hold, holdId, holdPass, -, hturn⟩ | ⟨-, hturn⟩
        · obtain ⟨hown, p, hp, hpid, hpturn⟩ := hblockKept old hold
          rw [hid, ← holdId, hturn, hrowPass, ← holdPass]
          exact ⟨hown, p, hp, hpid, hpturn⟩
        · rw [hid, hturn, hrowPass]
          exact ⟨hfits.blockTurn, hpass⟩
      · exact hblockKept b ((hothers b hb').1 hb)

/-- The blocks of a journal are current since then. -/
theorem CurrentSince.refl : CurrentSince J J where
  recorded := ⟨[], (append_nil _).symm⟩
  shown b hb := by
    have hrow : J.blocks.rows.filter (·.blockId == b.blockId) = [b] := by
      refine filter_eq_singleton hb (by simp) fun b' _ hid => ?_
      simp [clash, hid]
    unfold writesSince
    rw [hrow, drop_length]
    exact latestHighest_singleton
  stored blockId hne := by
    unfold writesSince at hne
    rw [drop_length, filterMap_nil, filter_nil, map_nil, append_nil] at hne
    obtain ⟨write, hwrite⟩ := exists_mem_of_ne_nil _ hne
    obtain ⟨b, hb, -⟩ := List.mem_map.1 hwrite
    obtain ⟨hmem, hid⟩ := mem_filter.1 hb
    exact ⟨b, hmem, by simpa using hid⟩

/-- **The blocks stay current**: the event of a block that has just been
recorded is shown, or it is stale. -/
theorem BlockStep.current {recorded : Journal} {event : TurnScopedBlockEnvelope} {row : EventRow}
    (hevs : recorded.events.rows = J.events.rows ++ [row])
    (hrow : row.envelope.turnScopedBlock = some event) (hblks : recorded.blocks = J.blocks)
    (h : BlockStep recorded J' event.place.blockId event.lifecycle.revision event.block.payload)
    (hJ : CurrentSince base J) : CurrentSince base J' := by
  obtain ⟨later, hlat⟩ := hJ.recorded
  have hevs' : J'.events.rows = base.events.rows ++ (later ++ [row]) := by
    rw [h.events, hevs, hlat, append_assoc]
  have hwrites : ∀ blockId, writesSince base J' blockId = writesSince base J blockId ++
      if event.place.blockId = blockId then [(event.lifecycle.revision, event.block.payload)]
        else [] := by
    intro blockId
    unfold writesSince
    rw [hevs', hlat, drop_left, drop_left, filterMap_append, filter_append,
      map_append, ← append_assoc]
    by_cases hid : event.place.blockId = blockId
    all_goals simp [hrow, hid]
  have hothers : ∀ b, b.blockId ≠ event.place.blockId →
    (b ∈ J'.blocks.rows ↔ b ∈ J.blocks.rows) := by
    intro b hb
    rw [h.others b hb, hblks]
  have hwr := h.written
  rw [hblks] at hwr
  refine ⟨⟨_, hevs'⟩, ?_, ?_⟩
  · intro b hb
    by_cases hid : b.blockId = event.place.blockId
    · rw [hid, hwrites, if_pos rfl]
      rcases hwr with ⟨old, hold, holdId, hlt, hmem⟩ | ⟨hle, new, hnew, hnewId, hrev, hpay⟩
      · have hsame : b = old := eq_of_clash hb hmem (by simp [clash, hid, holdId])
        have hlatest := hJ.shown old hold
        rw [holdId] at hlatest
        rw [hsame]
        exact hlatest.stale hlt
      · have hsame : b = new := eq_of_clash hb hnew (by simp [clash, hid, hnewId])
        rw [hsame, hrev, hpay]
        by_cases hfst : writesSince base J event.place.blockId = []
        · rw [hfst]
          exact latestHighest_singleton
        · obtain ⟨old, hold, holdId⟩ := hJ.stored _ hfst
          have hlatest := hJ.shown old hold
          rw [holdId] at hlatest
          exact hlatest.taken (hle old hold holdId)
    · rw [hwrites, if_neg (Ne.symm hid), append_nil]
      exact hJ.shown b ((hothers b hid).1 hb)
  · intro blockId hne
    by_cases hid : event.place.blockId = blockId
    · rcases hwr with ⟨old, -, holdId, -, hmem⟩ | ⟨-, new, hnew, hnewId, -⟩
      · exact ⟨old, hmem, holdId.trans hid⟩
      · exact ⟨new, hnew, hnewId.trans hid⟩
    · rw [hwrites, if_neg hid, append_nil] at hne
      obtain ⟨b, hb, hbid⟩ := hJ.stored blockId hne
      exact ⟨b, (hothers b (by rw [hbid]; exact Ne.symm hid)).2 hb, hbid⟩

end Remux.Journal
