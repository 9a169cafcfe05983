import Remux.Common.Assoc

/-!
# The mapper of Codex events

`CodexEventMapper` turns the notifications and the snapshots of one native
thread into provider events. It is modelled as far as it binds native turns
to Remux turns and identifies compactions: which binding a turn's events
are scoped by, which native turns are taken for control turns of a
compaction, and which operation, subject and event id a report of a
compaction carries. What the items of a turn map to is left to the
notification.

Maps are `Assoc`, sets are lists; an identity that the source joins with a
zero character is the tuple of its parts. The digest is a parameter.
-/

namespace Remux

namespace Providers

/-- What a compaction was started by. -/
inductive CompactionTrigger where
  | manual
  | automatic
  deriving DecidableEq

/-- `CompactionOperation`, as the mapper names it. -/
structure CompactionOperation where
  operationId : String
  trigger : CompactionTrigger
  deriving DecidableEq

/-- The phases of a compaction. -/
inductive CompactionPhase where
  | started
  | completed
  | failed
  deriving DecidableEq

/-- The phase, as it stands in the event's type. -/
def CompactionPhase.text : CompactionPhase → String
  | .started => "started"
  | .completed => "completed"
  | .failed => "failed"

/-- `ProviderTurnOutcome`. -/
inductive ProviderTurnOutcome where
  | completed
  | interrupted
  | failed
  deriving DecidableEq

/-- What the mapper emits: an event of a native turn, scoped to a Remux
turn; the usage of the conversation, anchored to a turn; or a report of a
compaction. -/
inductive MappedEvent where
  | turn (nativeTurnId turnId : String)
  | usage (nativeTurnId turnId : String)
  | compaction (nativeTurnId : String) (itemId : Option String) (phase : CompactionPhase)
      (operation : CompactionOperation) (subject : Option String) (eventId : String)
  deriving DecidableEq

/-- A turn of a thread's snapshot: how many compactions it lists, in order
and with the ids of their items, and whether it lists other items. -/
structure SnapshotTurn where
  nativeTurnId : String
  compactions : List String
  others : Bool
  deriving DecidableEq

/-- What the mapper holds of turns and compactions. -/
structure CodexEventMapper where
  remuxTurnByNative : Assoc String String
  usageAnchorNativeTurnId : Option String
  pendingRemuxTurnId : Option String
  pendingManualCompactionId : Option String
  compactionNativeTurns : List String
  completedCompactionItems : List (String × String)
  nativeTurnsWithCompletedCompactionItem : List String
  compactionOrdinalByItem : Assoc (String × String) ℕ
  nextCompactionOrdinalByTurn : Assoc String ℕ
  compactionOperationByOccurrence : Assoc (String × ℕ) CompactionOperation

namespace CodexEventMapper

variable (digest : String → String) (conversationId : String) (m : CodexEventMapper)

/-! ## Turns -/

/-- A mapper that has seen nothing. -/
def empty : CodexEventMapper where
  remuxTurnByNative := ∅
  usageAnchorNativeTurnId := none
  pendingRemuxTurnId := none
  pendingManualCompactionId := none
  compactionNativeTurns := []
  completedCompactionItems := []
  nativeTurnsWithCompletedCompactionItem := []
  compactionOrdinalByItem := ∅
  nextCompactionOrdinalByTurn := ∅
  compactionOperationByOccurrence := ∅

/-- `expectTurn`. -/
def expectTurn (remuxTurnId : String) : CodexEventMapper :=
  { m with pendingRemuxTurnId := some remuxTurnId }

/-- `bindTurn`. -/
def bindTurn (remuxTurnId nativeTurnId : String) : CodexEventMapper :=
  { m with
    remuxTurnByNative := m.remuxTurnByNative.insert nativeTurnId remuxTurnId
    usageAnchorNativeTurnId := some nativeTurnId
    pendingRemuxTurnId :=
      if m.pendingRemuxTurnId = some remuxTurnId then none else m.pendingRemuxTurnId }

/-- `codexStableNativeTurnId`. -/
def codexStableNativeTurnId (nativeTurnId : String) : String :=
  "codex-turn-" ++ String.ofList ((digest nativeTurnId).toList.take 24)

/-- `expectManualCompaction`. -/
def expectManualCompaction (operationId : String) : CodexEventMapper :=
  { m with pendingManualCompactionId := some operationId }

/-- `clearManualCompaction`. -/
def clearManualCompaction (operationId : String) : CodexEventMapper :=
  if m.pendingManualCompactionId = some operationId then
    { m with pendingManualCompactionId := none }
  else m

/-- `snapshotEnvelope` and `liveEnvelope`, by their scope. -/
def envelope (nativeTurnId : String) : MappedEvent :=
  .turn nativeTurnId
    ((m.remuxTurnByNative.lookup nativeTurnId).getD (codexStableNativeTurnId digest nativeTurnId))

/-- `turn/started`. -/
def turnStarted (nativeTurnId : String) : CodexEventMapper × List MappedEvent :=
  if m.pendingManualCompactionId.isSome ∧ m.pendingRemuxTurnId = none then
    ({ m with compactionNativeTurns := nativeTurnId :: m.compactionNativeTurns }, [])
  else if nativeTurnId ∈ m.compactionNativeTurns then (m, [])
  else
    match m.pendingRemuxTurnId.or (m.remuxTurnByNative.lookup nativeTurnId) with
    | none => (m, [])
    | some remuxTurnId =>
      let bound := m.bindTurn remuxTurnId nativeTurnId
      (bound, [bound.envelope digest nativeTurnId, bound.envelope digest nativeTurnId])

/-- The id of a compaction's report that is about no occurrence. -/
def failedEventId (nativeSessionId nativeTurnId : String) : String :=
  "codex-event-" ++
    digest ("\x00".intercalate [nativeSessionId, nativeTurnId, "", "turn/compaction-failed", ""])

/-- `turn/completed`. -/
def turnCompleted (nativeSessionId nativeTurnId : String) (outcome : ProviderTurnOutcome) :
    CodexEventMapper × List MappedEvent :=
  if nativeTurnId ∈ m.compactionNativeTurns then
    if outcome = .completed ∨ nativeTurnId ∈ m.nativeTurnsWithCompletedCompactionItem then (m, [])
    else
      match m.pendingManualCompactionId with
      | none => (m, [])
      | some operationId =>
        ({ m with pendingManualCompactionId := none },
          [.compaction nativeTurnId none .failed ⟨operationId, .manual⟩ none
            (failedEventId digest nativeSessionId nativeTurnId)])
  else if (m.remuxTurnByNative.lookup nativeTurnId).isSome then
    (m, [m.envelope digest nativeTurnId, m.envelope digest nativeTurnId])
  else (m, [])

/-- The notifications of a turn's items other than compactions, and of its
errors: each maps to some number of events where the turn is bound. -/
def itemEvents (nativeTurnId : String) (count : ℕ) : List MappedEvent :=
  if nativeTurnId ∈ m.compactionNativeTurns ∨
      (m.remuxTurnByNative.lookup nativeTurnId).isNone then []
  else List.replicate count (m.envelope digest nativeTurnId)

/-- `thread/tokenUsage/updated`, with the turn that it is reported
against. -/
def tokenUsageUpdated (reportedNativeTurnId : Option String) : List MappedEvent :=
  let anchor := (reportedNativeTurnId.filter fun nativeTurnId =>
    (m.remuxTurnByNative.lookup nativeTurnId).isSome &&
      !m.compactionNativeTurns.contains nativeTurnId).or m.usageAnchorNativeTurnId
  match anchor with
  | none => []
  | some anchorNativeTurnId =>
    match m.remuxTurnByNative.lookup anchorNativeTurnId with
    | none => []
    | some remuxTurnId => [.usage (reportedNativeTurnId.getD anchorNativeTurnId) remuxTurnId]

/-! ## Compactions -/

/-- `compactionOrdinal`: one occurrence for each item of a turn. -/
def compactionOrdinal (nativeTurnId itemId : String) (hint : Option ℕ) : ℕ × CodexEventMapper :=
  match m.compactionOrdinalByItem.lookup (nativeTurnId, itemId) with
  | some existing => (existing, m)
  | none =>
    let next := (m.nextCompactionOrdinalByTurn.lookup nativeTurnId).getD 0
    let ordinal := hint.getD next
    (ordinal, { m with
      compactionOrdinalByItem := m.compactionOrdinalByItem.insert (nativeTurnId, itemId) ordinal
      nextCompactionOrdinalByTurn :=
        m.nextCompactionOrdinalByTurn.insert nativeTurnId (max next (ordinal + 1)) })

/-- What identifies an occurrence of a compaction to a digest. -/
def occurrenceKey (nativeTurnId : String) (ordinal : ℕ) : String :=
  "\x00".intercalate [conversationId, nativeTurnId, "occurrence-" ++ toString ordinal]

/-- The operation of a compaction that nobody asked for. -/
def automaticOperation (nativeTurnId : String) (ordinal : ℕ) : CompactionOperation where
  operationId := "codex-auto-compact-" ++
    String.ofList ((digest (occurrenceKey conversationId nativeTurnId ordinal)).toList.take 24)
  trigger := .automatic

/-- The operation of an occurrence that is not known: the pending one, if
it is claimed. -/
def newOperation (nativeTurnId : String) (ordinal : ℕ) (claimPendingManual : Bool) :
    CompactionOperation :=
  match if claimPendingManual then m.pendingManualCompactionId else none with
  | some operationId => ⟨operationId, .manual⟩
  | none => automaticOperation digest conversationId nativeTurnId ordinal

/-- `compactionOperation`: one operation for each occurrence of a turn. -/
def compactionOperation (nativeTurnId : String) (ordinal : ℕ) (claimPendingManual : Bool) :
    CompactionOperation × CodexEventMapper :=
  match m.compactionOperationByOccurrence.lookup (nativeTurnId, ordinal) with
  | some existing => (existing, m)
  | none =>
    let operation := m.newOperation digest conversationId nativeTurnId ordinal claimPendingManual
    (operation, { m with
      compactionOperationByOccurrence :=
        m.compactionOperationByOccurrence.insert (nativeTurnId, ordinal) operation })

/-- `compactionSubject`, the text that an event of a compaction is keyed by. -/
def compactionSubject (nativeTurnId : String) (ordinal : ℕ) : String :=
  "codex:context-compaction:" ++ nativeTurnId ++ ":" ++ toString ordinal

/-- What identifies a report of an occurrence to a digest. -/
def reportKey (nativeTurnId : String) (phase : CompactionPhase) (ordinal : ℕ) : String :=
  "\x00".intercalate [conversationId, nativeTurnId, "", "context/compaction/" ++ phase.text,
    "occurrence-" ++ toString ordinal]

/-- `compactionEnvelope` of an occurrence in a native turn. -/
def compactionEnvelope (nativeTurnId : String) (itemId : Option String) (phase : CompactionPhase)
    (operation : CompactionOperation) (ordinal : ℕ) : MappedEvent :=
  .compaction nativeTurnId itemId phase operation (some (compactionSubject nativeTurnId ordinal))
    ("codex-event-" ++ digest (reportKey conversationId nativeTurnId phase ordinal))

/-- The item is completed: it will not be reported again, and a manual
compaction's operation is done with. -/
def completeCompaction (nativeTurnId itemId : String) (operation : CompactionOperation) :
    CodexEventMapper :=
  { m with
    pendingManualCompactionId :=
      if operation.trigger = .manual ∧ m.pendingManualCompactionId = some operation.operationId
      then none else m.pendingManualCompactionId
    completedCompactionItems := (nativeTurnId, itemId) :: m.completedCompactionItems
    nativeTurnsWithCompletedCompactionItem :=
      nativeTurnId :: m.nativeTurnsWithCompletedCompactionItem }

/-- `mapItem` of a `contextCompaction`: `snapshot` is whether it stands in a
snapshot, `claimPendingManual` and `hint` are the snapshot's. A bound turn
shows a marker in its blocks. -/
def compactionItem (nativeTurnId itemId : String) (completed snapshot claimPendingManual : Bool)
    (hint : Option ℕ) : CodexEventMapper × List MappedEvent :=
  if !snapshot && completed && m.completedCompactionItems.contains (nativeTurnId, itemId) then
    (m, [])
  else
    let taken := m.compactionOrdinal nativeTurnId itemId hint
    let reported :=
      taken.2.compactionOperation digest conversationId nativeTurnId taken.1 claimPendingManual
    let phase := if completed then CompactionPhase.completed else .started
    (if completed then reported.2.completeCompaction nativeTurnId itemId reported.1 else reported.2,
      compactionEnvelope digest conversationId nativeTurnId (some itemId) phase reported.1
        taken.1 ::
      if nativeTurnId ∉ m.compactionNativeTurns ∧
          (m.remuxTurnByNative.lookup nativeTurnId).isSome then
        [m.envelope digest nativeTurnId]
      else [])

/-- `thread/compacted` of a native turn. -/
def threadCompacted (nativeTurnId : String) (id : Option String) :
    CodexEventMapper × List MappedEvent :=
  if nativeTurnId ∈ m.nativeTurnsWithCompletedCompactionItem then (m, [])
  else
    let marked := if (m.remuxTurnByNative.lookup nativeTurnId).isNone then
        { m with compactionNativeTurns := nativeTurnId :: m.compactionNativeTurns }
      else m
    let taken := marked.compactionOrdinal nativeTurnId ("thread:" ++ id.getD "completed") none
    let reported := taken.2.compactionOperation digest conversationId nativeTurnId taken.1 true
    ({ reported.2 with
        pendingManualCompactionId := none
        nativeTurnsWithCompletedCompactionItem :=
          nativeTurnId :: reported.2.nativeTurnsWithCompletedCompactionItem },
      [compactionEnvelope digest conversationId nativeTurnId none .completed reported.1 taken.1])

/-! ## Snapshots -/

/-- A snapshot's turn that is a control turn: it has only compactions, and
nothing is bound to it. -/
def snapshotControl (turn : SnapshotTurn) : Bool :=
  !turn.compactions.isEmpty && !turn.others && (m.remuxTurnByNative.lookup turn.nativeTurnId).isNone

/-- `latestCompactionIdentity`. -/
def latestCompactionIdentity (turns : List SnapshotTurn) : Option (String × String) :=
  (turns.flatMap fun turn => turn.compactions.map (turn.nativeTurnId, ·)).getLast?

/-- The compactions of a turn, from an ordinal on; `claims` are the items
that may claim the operation that is pending. -/
def mapCompactions (nativeTurnId : String) (claims : String → Bool) :
    CodexEventMapper → List String → ℕ → CodexEventMapper × List MappedEvent
  | m, [], _ => (m, [])
  | m, itemId :: itemIds, ordinal =>
    let mapped := m.compactionItem digest conversationId nativeTurnId itemId true true
      (claims itemId) (some ordinal)
    let rest := mapCompactions nativeTurnId claims mapped.1 itemIds (ordinal + 1)
    (rest.1, mapped.2 ++ rest.2)

/-- A turn of a snapshot before its items: it is skipped, taken for a
control turn, or bound. The items of a control turn claim the pending
operation only if they are the latest. -/
def prepareSnapshotTurn (inherited : List String) (latest : Option (String × String))
    (control : Bool) (turn : SnapshotTurn) : Option ((String → Bool) × CodexEventMapper) :=
  if turn.nativeTurnId ∈ inherited then none
  else if control then
    some (fun itemId => latest = some (turn.nativeTurnId, itemId),
      { m with compactionNativeTurns := turn.nativeTurnId :: m.compactionNativeTurns })
  else if (m.remuxTurnByNative.lookup turn.nativeTurnId).isSome then some (fun _ => true, m)
  else if turn.compactions.isEmpty && !turn.others then none
  else
    some (fun _ => true,
      m.bindTurn (codexStableNativeTurnId digest turn.nativeTurnId) turn.nativeTurnId)

/-- A turn of a snapshot, as far as its compactions go. -/
def mapSnapshotTurn (inherited : List String) (latest : Option (String × String)) (control : Bool)
    (turn : SnapshotTurn) : CodexEventMapper × List MappedEvent :=
  match m.prepareSnapshotTurn digest inherited latest control turn with
  | some (claims, prepared) =>
    mapCompactions digest conversationId turn.nativeTurnId claims prepared turn.compactions 0
  | none => (m, [])

/-- What an event of a compaction is deduplicated by. -/
def compactionEventId : MappedEvent → Option String
  | .compaction _ _ _ _ _ eventId => some eventId
  | _ => none

/-- An event takes the place of one with its id. -/
def replaceSame (events : List MappedEvent) (event : MappedEvent) : List MappedEvent :=
  match events.findIdx? fun old =>
    (compactionEventId old).isSome && compactionEventId old = compactionEventId event with
  | some i => events.set i event
  | none => events ++ [event]

/-- `dedupe`. -/
def dedupe (events : List MappedEvent) : List MappedEvent := events.foldl replaceSame []

/-- The turns of a snapshot, with whether they are control turns. -/
def mapSnapshotTurns (inherited : List String) (latest : Option (String × String)) :
    CodexEventMapper → List (SnapshotTurn × Bool) → CodexEventMapper × List MappedEvent
  | m, [] => (m, [])
  | m, (turn, control) :: turns =>
    let mapped := m.mapSnapshotTurn digest conversationId inherited latest control turn
    let rest := mapSnapshotTurns inherited latest mapped.1 turns
    (rest.1, mapped.2 ++ rest.2)

/-- `mapThreadSnapshot`, as far as compactions go. -/
def mapThreadSnapshot (inherited : List String) (turns : List SnapshotTurn) :
    CodexEventMapper × List MappedEvent :=
  let mapped := mapSnapshotTurns digest conversationId inherited (latestCompactionIdentity turns) m
    (turns.map fun turn => (turn, m.snapshotControl turn))
  (mapped.1, dedupe mapped.2)

end CodexEventMapper

end Providers

end Remux
