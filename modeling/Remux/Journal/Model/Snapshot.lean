import Remux.Journal.Model.Append

/-!
# Replacing a snapshot

`replaceSnapshot` of `native-journal.ts` and the merge of the blocks of a
snapshot with the live ones that it leaves out. The directives of the
one-time repairs of older journals are left out.
-/

namespace Remux.Journal

/-! ## The blocks of a turn -/

/-- An envelope in the scope of a turn about one of its blocks:
`TurnScopedBlockEnvelope`. -/
structure TurnScopedBlockEnvelope where
  envelope : ProviderEventEnvelope
  turnId : String
  lifecycle : BlockLifecycle
  place : TurnStructure
  block : TurnBlockSnapshot
  event_eq : envelope.event = .turnBlock lifecycle place block
  scope_eq : ∃ providerInstanceId conversationId executionId,
    envelope.scope = .turn providerInstanceId conversationId executionId turnId

/-- `isTurnScopedBlockEnvelope`, with what it finds. -/
def ProviderEventEnvelope.turnScopedBlock (envelope : ProviderEventEnvelope) :
    Option TurnScopedBlockEnvelope :=
  match hevent : envelope.event, hscope : envelope.scope with
  | .turnBlock lifecycle place block, .turn providerInstanceId conversationId executionId turnId =>
    some { envelope, turnId, lifecycle, place, block, event_eq := hevent,
           scope_eq := ⟨providerInstanceId, conversationId, executionId, hscope⟩ }
  | _, _ => none

/-- The native position is an index in a snapshot. -/
def ProviderEventEnvelope.inSnapshot (envelope : ProviderEventEnvelope) : Bool :=
  envelope.native.position.any (·.isSnapshotIndex)

/-- `SequencedBlockEnvelope`. -/
structure SequencedBlockEnvelope where
  sequence : ℕ
  event : TurnScopedBlockEnvelope

/-- `BlockLifecycleGroup`. -/
structure BlockLifecycleGroup where
  firstSequence : ℕ
  latest : TurnScopedBlockEnvelope
  lifecycles : List SequencedBlockEnvelope

/-- The group of a block after another of its events. -/
def BlockLifecycleGroup.add (group : BlockLifecycleGroup) (row : SequencedBlockEnvelope) :
    BlockLifecycleGroup :=
  let lifecycles :=
    if group.lifecycles.any (·.event.envelope.eventId == row.event.envelope.eventId) then
      group.lifecycles
    else (group.lifecycles ++ [row]).insertionSort fun left right => left.sequence ≤ right.sequence
  let latestRevision := group.latest.lifecycle.revision
  let candidateRevision := row.event.lifecycle.revision
  let newer := latestRevision < candidateRevision || candidateRevision == latestRevision &&
    lifecycles.getLast?.all fun last => last.sequence ≤ row.sequence
  { firstSequence := min group.firstSequence row.sequence
    latest := if newer then row.event else group.latest
    lifecycles }

/-- One step of `groupBlockLifecycles`: the row goes to the group of its
block, or starts one. -/
def addToGroups (groups : List BlockLifecycleGroup) (row : SequencedBlockEnvelope) :
    List BlockLifecycleGroup :=
  let ofBlock := fun group : BlockLifecycleGroup =>
    group.latest.place.blockId == row.event.place.blockId
  if groups.any ofBlock then
    groups.map fun group => if ofBlock group then group.add row else group
  else groups ++ [{ firstSequence := row.sequence, latest := row.event, lifecycles := [row] }]

/-- `groupBlockLifecycles`. -/
def groupBlockLifecycles (rows : List SequencedBlockEnvelope) : List BlockLifecycleGroup :=
  rows.foldl addToGroups []

/-- The index that orders a block: in the snapshot, or else in its pass. -/
def BlockLifecycleGroup.index (group : BlockLifecycleGroup) : ℕ :=
  match group.latest.envelope.native.position with
  | some (.snapshotIndex itemIndex) => itemIndex
  | _ => group.latest.place.blockOrdinal

/-- `snapshotBlockOrder(left, right) <= 0`. -/
def snapshotBlockOrder (left right : BlockLifecycleGroup) : Prop :=
  if left.index ≠ right.index then left.index < right.index
  else if left.latest.place.blockOrdinal ≠ right.latest.place.blockOrdinal then
    left.latest.place.blockOrdinal < right.latest.place.blockOrdinal
  else left.firstSequence ≤ right.firstSequence

instance : DecidableRel snapshotBlockOrder := fun left right => by
  unfold snapshotBlockOrder
  infer_instance

/-- `isCompactionMarker`. -/
def TurnBlockSnapshot.isCompactionMarker (block : TurnBlockSnapshot) : Bool :=
  match block.payload with
  | .compatibilityNotice code _ => code == "context-compaction"
  | _ => false

/-- `isRetainableAction`. -/
def TurnBlockSnapshot.isRetainableAction (block : TurnBlockSnapshot) : Bool :=
  block.kind == .tool || block.kind == .web || block.kind == .nativeChild ||
    block.kind == .federatedChild

/-- `blockFingerprint`: what its hash is of. -/
def blockFingerprint : TurnBlockPayload → TurnBlockPayload
  | .tool _ display _ inputPreview outputPreview detailRef =>
    .tool "" display none inputPreview outputPreview detailRef
  | payload => payload

/-- The passes that blocks are in, in the order they come in. -/
def passesOf (groups : List BlockLifecycleGroup) : List String :=
  groups.foldl (fun passIds group =>
    if passIds.contains group.latest.place.passId then passIds
    else passIds ++ [group.latest.place.passId]) []

/-- The events of blocks of one pass, each block at its place in the list. -/
def placeBlocks (passId : String) (passOrdinal : ℕ) (blocks : List BlockLifecycleGroup) :
    List ProviderEventEnvelope :=
  blocks.zipIdx.flatMap fun (block, blockOrdinal) =>
    block.lifecycles.map fun row =>
      row.event.envelope.withBlockStructure passId passOrdinal blockOrdinal

/-- `blocks[0].latest.event.structure.passOrdinal`. -/
def firstPassOrdinal (blocks : List BlockLifecycleGroup) : ℕ :=
  (blocks.head?.map fun block => block.latest.place.passOrdinal).getD 0

/-- `mergeSnapshotAndRetainedBlocksByOrdinal`. -/
def mergeSnapshotAndRetainedBlocksByOrdinal
    (snapshotBlocks retainedBlocks : List BlockLifecycleGroup) :
    List ProviderEventEnvelope :=
  let all := snapshotBlocks ++ retainedBlocks
  (passesOf all).flatMap fun passId =>
    let blocks := (all.filter (·.latest.place.passId == passId)).insertionSort snapshotBlockOrder
    placeBlocks passId (firstPassOrdinal blocks) blocks

/-! ## Which live blocks are retained -/

/-- `shouldRetainJournalBlock`. -/
def shouldRetainJournalBlock (completeKinds : Option (List TurnBlockKind)) (hasMarkers : Bool)
    (event : TurnScopedBlockEnvelope) : Bool :=
  completeKinds.any (fun kinds => !kinds.contains event.block.kind) ||
    hasMarkers && event.lifecycle.isCompleted && event.block.isRetainableAction

/-- The live blocks that the snapshot shows under their own identity, and
the fingerprints that are left when those are taken off. -/
def takeRepresented (snapshotBlocks : List BlockLifecycleGroup) :
    List BlockLifecycleGroup → List TurnBlockPayload → List String × List TurnBlockPayload
  | [], fingerprints => ([], fingerprints)
  | live :: rest, fingerprints =>
    let blockId := live.latest.place.blockId
    let represented := snapshotBlocks.any fun block => block.latest.place.blockId == blockId ||
      live.latest.envelope.native.itemId.isSome &&
        live.latest.envelope.native.itemId == block.latest.envelope.native.itemId
    if represented then
      let (ids, left) := takeRepresented snapshotBlocks rest
        (fingerprints.erase (blockFingerprint live.latest.block.payload))
      (blockId :: ids, left)
    else takeRepresented snapshotBlocks rest fingerprints

/-- The live blocks whose fingerprint the snapshot does not have. -/
def dropMatching : List BlockLifecycleGroup → List TurnBlockPayload → List BlockLifecycleGroup
  | [], _ => []
  | live :: rest, fingerprints =>
    let fingerprint := blockFingerprint live.latest.block.payload
    if fingerprints.contains fingerprint then dropMatching rest (fingerprints.erase fingerprint)
    else live :: dropMatching rest fingerprints

variable (J : Journal)

/-- The live events of the blocks of a turn, with their sequence. -/
def liveRows (turnId : String) : List SequencedBlockEnvelope :=
  J.events.rows.zipIdx.filterMap fun (row, sequence) =>
    if row.envelope.scope.turnId == some turnId && !row.envelope.inSnapshot then
      row.envelope.turnScopedBlock.map fun event => { sequence, event }
    else none

/-- The live blocks that the rebuilt turn retains. -/
def retainedBlocks (turnId : String) (snapshotBlocks : List BlockLifecycleGroup)
    (completeKinds : Option (List TurnBlockKind)) (hasMarkers : Bool) : List BlockLifecycleGroup :=
  let retain := fun group : BlockLifecycleGroup =>
    shouldRetainJournalBlock completeKinds hasMarkers group.latest
  let fingerprints := (snapshotBlocks.filter retain).map (blockFingerprint ·.latest.block.payload)
  let liveGroups := (groupBlockLifecycles (J.liveRows turnId)).insertionSort fun left right =>
    left.firstSequence ≤ right.firstSequence
  let liveBlocks := liveGroups.filter fun group =>
    snapshotBlocks.any (·.latest.place.passId == group.latest.place.passId) && retain group
  let (represented, left) := takeRepresented snapshotBlocks liveBlocks fingerprints
  dropMatching (liveBlocks.filter fun group =>
    !represented.contains group.latest.place.blockId) left

/-! ## Around compactions -/

/-- The times of the compactions within a turn, the earliest of each. -/
def boundaryTimesOf (turnId : String) : List ℕ :=
  let within := J.controlEvents.rows.filter fun c =>
    match c.boundary with
    | .withinTurn id _ => id == turnId
    | _ => false
  let operations := (within.map (·.operationId)).dedup
  let times := operations.map fun operationId =>
    (((within.filter (·.operationId == operationId)).map (·.createdAt)).min?.getD 0, operationId)
  (times.insertionSort fun left right =>
    left.1 < right.1 ∨ left.1 = right.1 ∧ left.2 ≤ right.2).map (·.1)

/-- The blocks of a pass with the retained ones before the marker that ends
their epoch, before a final message, or last. -/
def orderPass : List BlockLifecycleGroup → ℕ → List (ℕ × BlockLifecycleGroup) →
    List BlockLifecycleGroup
  | [], epoch, pending =>
    (pending.filter (·.1 == epoch)).map (·.2) ++
      ((pending.filter (·.1 != epoch)).insertionSort fun left right => left.1 ≤ right.1).map (·.2)
  | block :: rest, epoch, pending =>
    if block.latest.block.isCompactionMarker then
      (pending.filter (·.1 == epoch)).map (·.2) ++
        block :: orderPass rest (epoch + 1) (pending.filter (·.1 != epoch))
    else if block.latest.block.kind = .finalMessage then
      (pending.filter (·.1 == epoch)).map (·.2) ++
        block :: orderPass rest epoch (pending.filter (·.1 != epoch))
    else block :: orderPass rest epoch pending

/-- The last part of `mergedSnapshotBlockEvents`: the retained blocks stand
in the epochs between the compaction markers. -/
def mergeByEpoch (turnId : String)
    (snapshotBlocks compactionMarkers retained : List BlockLifecycleGroup) :
    List ProviderEventEnvelope :=
  let stored := J.boundaryTimesOf turnId
  let boundaryTimes := compactionMarkers.zipIdx.map fun (marker, index) =>
    stored[index]?.getD marker.latest.envelope.observedAt
  let epochOf := fun group : BlockLifecycleGroup =>
    min ((boundaryTimes.filter (· < group.latest.envelope.observedAt)).length)
      compactionMarkers.length
  (passesOf snapshotBlocks).flatMap fun passId =>
    let passBlocks := snapshotBlocks.filter (·.latest.place.passId == passId)
    let pending := (retained.filter (·.latest.place.passId == passId)).map fun group =>
      (epochOf group, group)
    placeBlocks passId (firstPassOrdinal passBlocks) (orderPass passBlocks 0 pending)

/-- `mergedSnapshotBlockEvents`. -/
def mergedSnapshotBlockEvents (turnId : String) (snapshotEvents : List TurnScopedBlockEnvelope)
    (completeKinds : Option (List TurnBlockKind)) : List ProviderEventEnvelope :=
  let snapshotBlocks := (groupBlockLifecycles (snapshotEvents.zipIdx.map fun (event, sequence) =>
    { sequence, event })).insertionSort snapshotBlockOrder
  let compactionMarkers := snapshotBlocks.filter (·.latest.block.isCompactionMarker)
  if compactionMarkers.isEmpty && completeKinds.isNone then
    mergeSnapshotAndRetainedBlocksByOrdinal snapshotBlocks []
  else
    let retained := J.retainedBlocks turnId snapshotBlocks completeKinds
      (!compactionMarkers.isEmpty)
    if retained.isEmpty then mergeSnapshotAndRetainedBlocksByOrdinal snapshotBlocks []
    else if compactionMarkers.isEmpty then
      mergeSnapshotAndRetainedBlocksByOrdinal snapshotBlocks retained
    else J.mergeByEpoch turnId snapshotBlocks compactionMarkers retained

/-! ## `replaceSnapshot` -/

/-- A turn that a snapshot names. -/
structure ImportedTurn where
  turnId : String
  conversationId : String
  executionId : String
  observedAt : ℕ
  deriving DecidableEq

/-- One step of the import: a turn has the scope of its last event and the
time of its first. -/
def importTurn (imported : List ImportedTurn) (envelope : ProviderEventEnvelope) :
    List ImportedTurn :=
  match envelope.scope with
  | .turn _ conversationId executionId turnId =>
    if imported.any (·.turnId == turnId) then
      imported.map fun turn =>
        if turn.turnId == turnId then
          { turn with conversationId, executionId
                      observedAt := min turn.observedAt envelope.observedAt }
        else turn
    else imported ++ [{ turnId, conversationId, executionId, observedAt := envelope.observedAt }]
  | _ => imported

/-- The turn that is created for one that a snapshot names. -/
def ImportedTurn.create (turn : ImportedTurn) : CreateTurn where
  turnId := turn.turnId
  conversationId := turn.conversationId
  executionId := turn.executionId
  clientMessageId := "native-import-message:" ++ turn.turnId
  commandId := "native-import-command:" ++ turn.turnId
  running := true
  now := turn.observedAt

/-- The turns of a snapshot that were not there. -/
def importTurns : Journal → List ImportedTurn → Except StoreError Journal
  | J, [] => return J
  | J, turn :: rest => do
    let J ← (if (J.turn turn.turnId).isSome then pure J else J.createTurn turn.create)
    importTurns J rest

/-- The events of a snapshot that place blocks of its turns. -/
def snapshotBlockEvents (events : List ProviderEventEnvelope) : List TurnScopedBlockEnvelope :=
  (events.filter (·.inSnapshot)).filterMap (·.turnScopedBlock)

/-- `authoritativeBlockTurns`, in the order they come in. -/
def authoritativeBlockTurns (events : List ProviderEventEnvelope) : List String :=
  (snapshotBlockEvents events).foldl (fun turnIds event =>
    if turnIds.contains event.turnId then turnIds else turnIds ++ [event.turnId]) []

/-- `DELETE FROM turn_passes WHERE turn_id = ?`, and the blocks with them. -/
def deletePasses (turnId : String) : Journal :=
  let deleted := J.passes.rows.filter (·.turnId == turnId)
  { J with
    passes := J.passes.delete (·.turnId == turnId)
    blocks := J.blocks.delete fun b => deleted.any (·.passId == b.passId) }

/-- The events of a snapshot, appended; those of blocks of its own turns
are only recorded. -/
def appendSnapshot (turnIds : List String) : Journal → List ProviderEventEnvelope →
    Except StoreError (Journal × ℕ)
  | J, [] => return (J, 0)
  | J, envelope :: rest => do
    let authoritative := envelope.turnScopedBlock.any fun event => turnIds.contains event.turnId
    let (J, inserted) ← (if authoritative then J.insertProviderEventRow envelope
      else J.appendProviderEventInTransaction envelope)
    let (J, count) ← appendSnapshot turnIds J rest
    return (J, if inserted then count + 1 else count)

/-- Reduce events one after another. -/
def reduceEvents : Journal → List ProviderEventEnvelope → Except StoreError Journal
  | J, [] => return J
  | J, envelope :: rest => do
    let J ← J.reduceEvent envelope
    reduceEvents J rest

/-- The passes and blocks of one turn of a snapshot, built again. -/
def rebuildTurn (events : List ProviderEventEnvelope) (completeKinds : Option (List TurnBlockKind))
    (turnId : String) : Except StoreError Journal := do
  let snapshotBlocks := (snapshotBlockEvents events).filter (·.turnId == turnId)
  let J ← J.reduceEvents (J.mergedSnapshotBlockEvents turnId snapshotBlocks completeKinds)
  if (J.turn turnId).any (·.state.terminal) then
    J.updatePasses (·.turnId == turnId) fun p => { p with state := .completed }
  else return J

/-- The turns of a snapshot, one after the other. -/
def rebuildTurns (events : List ProviderEventEnvelope)
    (completeKinds : Option (List TurnBlockKind)) :
    Journal → List String → Except StoreError Journal
  | J, [] => return J
  | J, turnId :: rest => do
    let J ← J.rebuildTurn events completeKinds turnId
    rebuildTurns events completeKinds J rest

/-- **`replaceSnapshot`**: the journal, and the number of new events. -/
def replaceSnapshot (events : List ProviderEventEnvelope)
    (completeKinds : Option (List TurnBlockKind)) : Except StoreError (Journal × ℕ) := do
  let turnIds := authoritativeBlockTurns events
  let J ← J.importTurns (events.foldl importTurn [])
  let J := turnIds.foldl deletePasses J
  let (J, count) ← J.appendSnapshot turnIds events
  let J ← J.rebuildTurns events completeKinds turnIds
  return (J, count)

end Remux.Journal
