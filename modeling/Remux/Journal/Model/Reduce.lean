import Remux.Journal.Model.State

/-!
# Reducing an event

`reduceEvent` of `native-journal.ts` with what it calls: the tables after
an event that has been recorded. An event may precede the admission of
its turn, or arrive again in a snapshot, so no `updated_at` is moved back
by one.
-/

namespace Remux.Journal

open Table

/-! ## States -/

/-- Whether a block may still grow. -/
def TurnBlockState.live : TurnBlockState → Bool
  | streaming | running => true
  | _ => false

/-- The kinds whose text ends with a completed turn. -/
def TurnBlockKind.isText : TurnBlockKind → Bool
  | reasoningSummary | commentary | finalMessage | compatibilityNotice => true
  | _ => false

/-- Child blocks and backgrounded tool calls outlive their turn. -/
def TurnBlockPayload.outlivesTurn (payload : TurnBlockPayload) : Bool :=
  payload.kind == .nativeChild || payload.kind == .federatedChild || payload.backgrounded

/-- The state of a turn that ended so. -/
def ProviderTurnOutcome.turnState : ProviderTurnOutcome → TurnState
  | completed => .completed
  | interrupted => .interrupted
  | failed | recoveryFailed => .failed

/-- The state of an execution whose turn ended so. -/
def ProviderTurnOutcome.executionState : ProviderTurnOutcome → ProviderExecutionState
  | completed => .idle
  | interrupted => .interrupted
  | failed | recoveryFailed => .failed

/-- The state of a session of this health. -/
def SessionHealth.sessionState : SessionHealth → NativeSessionState
  | ready => .ready
  | recovering => .recovering
  | lost => .lost

variable (J : Journal)

/-! ## Turns and their blocks -/

/-- `settleTerminalTurnBlocks`, of the turns in scope: a terminal turn
cannot own live work. -/
def settleTerminalTurnBlocks (scope : TurnRow → Bool) : Except StoreError Journal :=
  J.updateBlocks (fun b => (J.turn b.turnId).any (fun t => scope t && t.state.terminal) &&
      b.state.live && !b.payload.outlivesTurn)
    fun b =>
      match J.turn b.turnId with
      | none => b
      | some t => { b with
          state := if t.state == .completed && b.kind.isText then .completed else .interrupted
          completedAt := b.completedAt <|> t.completedAt }

/-- `resolveCompactionBoundariesForNativeTurn`. -/
def resolveCompactionBoundariesForNativeTurn (executionId turnId nativeTurnId : String) :
    Except StoreError Journal :=
  match J.turns.find? (fun t => t.turnId == turnId && t.executionId == executionId) with
  | none => return J
  | some turn => do
    let controlEvents ← J.controlEvents.update (fun c => c.conversationId == turn.conversationId &&
        c.boundary == .nativeUnresolved nativeTurnId)
      fun c => { c with boundary := .withinTurn turnId nativeTurnId }
    return { J with controlEvents }

/-- The native turn is bound to the turn, unless another one is. -/
def bindNativeTurn (turnId nativeTurnId : String) (now : ℕ) : Except StoreError Journal :=
  J.updateTurns (·.turnId == turnId) fun t => { t with
    nativeTurnId := t.nativeTurnId <|> some nativeTurnId
    updatedAt := max t.updatedAt now }

/-- `upsertNativeTurnBinding`. -/
def upsertNativeTurnBinding (providerInstanceId executionId turnId : String)
    (nativeTurnId : Option String) (now : ℕ) : Except StoreError Journal := do
  require (J.providerInstances.contains providerInstanceId) "provider_instances"
  require (J.execution executionId).isSome "executions"
  require (J.turn turnId).isSome "turns"
  let bindings ← J.bindings.upsert
    { nativeBindingId := "binding:" ++ executionId ++ ":" ++ turnId, executionId, turnId,
      nativeTurnId }
    (fun b => b.executionId == executionId && b.turnId == turnId)
    fun b => { b with nativeTurnId := nativeTurnId <|> b.nativeTurnId }
  let J := { J with bindings }
  match nativeTurnId with
  | none => return J
  | some nativeTurnId => do
    let J ← J.bindNativeTurn turnId nativeTurnId now
    J.resolveCompactionBoundariesForNativeTurn executionId turnId nativeTurnId

/-- `session.health`. -/
def reduceSessionHealth (conversationId executionId : String) (health : SessionHealth) (now : ℕ) :
    Except StoreError Journal := do
  let active := J.turns.rows.any fun t => t.executionId == executionId && t.state.live
  let state : ProviderExecutionState :=
    if health = .ready then (if active then .running else .idle) else .recovering
  let J ← J.updateNativeSessions (·.executionId == executionId) fun s => { s with
    state := health.sessionState
    lastObservedAt := max s.lastObservedAt now }
  let J ← J.updateExecutions (·.executionId == executionId) fun e => { e with
    state, updatedAt := max e.updatedAt now }
  J.updateConversationOfRoot conversationId executionId (·.conversationId == conversationId)
    fun c => { c with state, updatedAt := max c.updatedAt now }

/-- The turn that `turn.started` and `turn.status` update. -/
def TurnRow.startable (t : TurnRow) (turnId : String) (now : ℕ) : Bool :=
  t.turnId == turnId && !t.state.terminal && t.updatedAt ≤ now

/-- `turn.started`, and `turn.status` of a live state. -/
def reduceTurnStatus (conversationId executionId turnId : String) (recovering : Bool) (now : ℕ) :
    Except StoreError Journal := do
  let updated := J.turns.rows.any fun t => t.startable turnId now
  let J ← J.updateTurns (fun t => t.startable turnId now) fun t => { t with
    state := if recovering then .recovering else .running
    startedAt := t.startedAt <|> some now
    updatedAt := max t.updatedAt now }
  if !updated then return J else
    let state : ProviderExecutionState := if recovering then .recovering else .running
    let J ← J.updateConversationOfRoot conversationId executionId
      (·.conversationId == conversationId)
      fun c => { c with state, activeTurnId := some turnId, updatedAt := max c.updatedAt now }
    J.updateExecutions (·.executionId == executionId) fun e => { e with
      state, outcome := none, completedAt := none, updatedAt := max e.updatedAt now }

/-- The turn that `turn.completed` updates: a live one, or one whose
recovery failed before. -/
def TurnRow.completable (t : TurnRow) (turnId : String) (now : ℕ) : Bool :=
  t.turnId == turnId &&
    (!t.state.terminal || t.outcome == some .recoveryFailed && t.completedAt.any (· < now))

/-- `turn.completed`. -/
def reduceTurnCompleted (conversationId executionId turnId : String)
    (outcome : ProviderTurnOutcome) (now : ℕ) : Except StoreError Journal := do
  let repairsRecoveryFailure := (J.turn turnId).any fun t =>
    t.outcome == some .recoveryFailed && t.completedAt.getD 0 < now
  let completed := J.turns.rows.any fun t => t.completable turnId now
  let J ← J.updateTurns (fun t => t.completable turnId now) fun t => { t with
    state := outcome.turnState, outcome := some outcome, completedAt := some now
    updatedAt := max t.updatedAt now }
  if !completed then return J else
    let J ← J.updateConversationOfRoot conversationId executionId
      (fun c => c.conversationId == conversationId && (c.activeTurnId == some turnId ||
        repairsRecoveryFailure && c.activeTurnId.isNone && c.latestTurnId == some turnId))
      fun c => { c with state := .idle, activeTurnId := none, updatedAt := max c.updatedAt now }
    let newer := J.turns.rows.any fun t =>
      t.executionId == executionId && t.turnId != turnId && t.state.live
    let J ← J.updateExecutions (fun e => e.executionId == executionId && !newer) fun e => { e with
      state := outcome.executionState, outcome := some outcome, completedAt := some now
      updatedAt := max e.updatedAt now }
    let J ← J.updatePasses (·.turnId == turnId) fun p => { p with state := .completed }
    J.settleTerminalTurnBlocks (·.turnId == turnId)

/-! ## Executions -/

/-- `bindNativeChildHandle`. -/
def bindNativeChildHandle (ownership : ChildExecutionOwnership) (child : ChildExecutionDisplay) :
    Except StoreError Journal :=
  match ownership, child.nativeSessionId with
  | .native, some nativeSessionId => do
    require (J.execution child.executionId).isSome "executions"
    let childHandles ← J.childHandles.upsert { executionId := child.executionId, nativeSessionId }
      (·.executionId == child.executionId) fun h => { h with nativeSessionId }
    return { J with childHandles }
  | _, _ => return J

/-- `INSERT INTO executions … ON CONFLICT(execution_id) DO UPDATE SET`, of
a child of the execution that an event came from. -/
def upsertChildExecution (scope : ProviderEventScope) (conversationId executionId : String)
    (rootTurnId : Option String) (ownership : ChildExecutionOwnership)
    (child : ChildExecutionDisplay)
    (state : ProviderExecutionState) (outcome : Option ProviderTurnOutcome)
    (completedAt : Option ℕ) (now : ℕ) (onConflict : ExecutionRow → ExecutionRow) :
    Except StoreError Journal := do
  let providerInstanceId := child.providerInstanceId.getD scope.providerInstanceId
  require (J.conversation conversationId).isSome "conversations"
  require (J.execution executionId).isSome "executions"
  require (J.providerInstances.contains providerInstanceId) "provider_instances"
  let executions ← J.executions.upsert
    { executionId := child.executionId, conversationId,
      strandId := (J.execution executionId).bind (·.strandId),
      parentExecutionId := some executionId, rootTurnId,
      ownership := ownership.toOwnership, provider := child.provider,
      providerInstanceId, checkoutKey := none, access := none, federationScheduling := none,
      federationDepth := 0, state, outcome, createdAt := now, completedAt, updatedAt := now }
    (·.executionId == child.executionId) onConflict
  let J := { J with executions }
  J.bindNativeChildHandle ownership child

/-- The child of a block: `native-child` and `federated-child`. -/
def reduceChildBlock (envelope : ProviderEventEnvelope) (conversationId executionId turnId : String)
    (isCompleted : Bool) (payload : TurnBlockPayload) : Except StoreError Journal :=
  match payload.child with
  | none => return J
  | some (ownership, child, state, outcome) => do
    let now := envelope.observedAt
    let completedAt := if isCompleted then some now else none
    let J ← J.upsertChildExecution envelope.scope conversationId executionId (some turnId) ownership
      child state outcome completedAt now fun e => { e with
        state := if e.outcome.isNone then state else e.state
        outcome := e.outcome <|> outcome
        completedAt := completedAt <|> e.completedAt
        updatedAt := max e.updatedAt now }
    -- Claude resumes the same task instead of opening a child turn of its own.
    if ownership = .native ∧ child.provider = .claudeCode ∧ envelope.native.kind = "task/resumed" ∧
        state = .running then
      J.updateExecutions (fun e => e.executionId == child.executionId && e.updatedAt ≤ now)
        fun e => { e with state := .running, outcome := none, completedAt := none }
    else return J

/-- What a block's event does to an existing row, if it is not stale. -/
def BlockRow.revise (lifecycle : BlockLifecycle) (place : TurnStructure) (block : TurnBlockSnapshot)
    (now : ℕ) (b : BlockRow) : BlockRow := { b with
  passId := place.passId
  ordinal := place.blockOrdinal
  state := block.state
  revision := lifecycle.revision
  payload := block.payload
  startedAt := b.startedAt <|> some now
  completedAt := (if lifecycle.isCompleted then some now else none) <|> b.completedAt }

/-- The row of a new block. -/
def newBlock (turnId : String) (lifecycle : BlockLifecycle) (place : TurnStructure)
    (block : TurnBlockSnapshot) (now : ℕ) : BlockRow where
  blockId := place.blockId
  turnId
  passId := place.passId
  ordinal := place.blockOrdinal
  state := block.state
  revision := lifecycle.revision
  payload := block.payload
  startedAt := some now
  completedAt := if lifecycle.isCompleted then some now else none

/-- The row of the block has a higher revision. -/
def staleBlock (blockId : String) (revision : ℕ) : Bool :=
  J.blocks.rows.any fun b => b.blockId == blockId && revision < b.revision

/-- `INSERT INTO turn_passes … ON CONFLICT(pass_id) DO UPDATE SET`. -/
def upsertPass (turnId : String) (place : TurnStructure) : Except StoreError (Table PassRow) :=
  J.passes.upsert
    { passId := place.passId, turnId, ordinal := place.passOrdinal,
      state := if (J.turn turnId).any (·.state.terminal) then .completed else .streaming }
    (·.passId == place.passId) fun p => { p with ordinal := place.passOrdinal }

/-- `INSERT INTO turn_blocks … ON CONFLICT(block_id) DO UPDATE SET`, where
the row has no higher revision. -/
def upsertBlockRow (turnId : String) (lifecycle : BlockLifecycle) (place : TurnStructure)
    (block : TurnBlockSnapshot) (now : ℕ) : Except StoreError (Table BlockRow) :=
  if J.staleBlock place.blockId lifecycle.revision then return J.blocks
  else J.blocks.upsert (newBlock turnId lifecycle place block now) (·.blockId == place.blockId)
    (·.revise lifecycle place block now)

/-- The rows of a block's event: its pass and its block. -/
def upsertBlock (turnId : String) (lifecycle : BlockLifecycle) (place : TurnStructure)
    (block : TurnBlockSnapshot) (now : ℕ) : Except StoreError Journal := do
  require (J.turn turnId).isSome "turns"
  let passes ← J.upsertPass turnId place
  let blocks ← J.upsertBlockRow turnId lifecycle place block now
  return { J with passes, blocks }

/-- The turn after one of its blocks: only its time is read. -/
def touchTurn (turnId : String) (now : ℕ) : Except StoreError Journal :=
  J.updateTurns (·.turnId == turnId) fun t => { t with updatedAt := max t.updatedAt now }

/-- `turn.block.started`, `turn.block.revised` and `turn.block.completed`. -/
def reduceTurnBlock (envelope : ProviderEventEnvelope) (conversationId executionId turnId : String)
    (lifecycle : BlockLifecycle) (place : TurnStructure) (block : TurnBlockSnapshot) :
    Except StoreError Journal := do
  let now := envelope.observedAt
  let changed := !J.staleBlock place.blockId lifecycle.revision
  let J ← J.upsertBlock turnId lifecycle place block now
  -- A late revision must not reopen work in a turn that already ended.
  let J ← (if changed && block.state.live then J.settleTerminalTurnBlocks (·.turnId == turnId)
    else pure J)
  let J ← (if changed then
      J.reduceChildBlock envelope conversationId executionId turnId lifecycle.isCompleted
        block.payload
    else pure J)
  -- The ordering is left out, and with it the legacy turns that keep theirs.
  match envelope.native.position with
  | none | some (.snapshotIndex _) => J.touchTurn turnId now
  | some .other => return J

/-- `execution.started`. -/
def reduceExecutionStarted (scope : ProviderEventScope) (conversationId executionId : String)
    (rootTurnId : Option String) (ownership : ChildExecutionOwnership)
    (child : ChildExecutionDisplay) (now : ℕ) :
    Except StoreError Journal :=
  J.upsertChildExecution scope conversationId executionId rootTurnId ownership child .running none
    none now fun e => { e with
      state := if e.outcome.isNone && e.updatedAt ≤ now then .running else e.state
      updatedAt := max e.updatedAt now }

/-! ## Compactions -/

/-- `compactionBoundary`. -/
def compactionBoundary (executionId : String) (envelope : ProviderEventEnvelope) :
    CompactionBoundary :=
  match envelope.native.turnId with
  | none => .betweenTurns
  | some nativeTurnId =>
    if envelope.native.kind.startsWith "control/" then .betweenTurns
    else match J.bindings.find? (fun b =>
        b.executionId == executionId && b.nativeTurnId == some nativeTurnId) with
      | some binding => .withinTurn binding.turnId nativeTurnId
      | none => .nativeUnresolved nativeTurnId

/-- The state of an operation in this phase. -/
def CompactionLifecycle.operationState : CompactionLifecycle → CompactionState
  | started => .running
  | completed => .completed
  | failed => .failed

/-- `reduceCompactionEvent`. -/
def reduceCompactionEvent (conversationId : String) (lifecycle : CompactionLifecycle)
    (trigger : CompactionTrigger) (operationId : String) (now : ℕ)
    (providerSubjectKey : Option String) : Except StoreError Journal := do
  match J.compactionOperation operationId, lifecycle with
  | none, _ => do
    require (J.conversation conversationId).isSome "conversations"
    let compactions ← J.compactions.insert
      { operationId, commandId := none, conversationId, trigger,
        state := lifecycle.operationState, providerSubjectKey, createdAt := now, updatedAt := now }
    return { J with compactions }
  | some _, .started => do
    let compactions ← J.compactions.update
      (fun c => c.operationId == operationId && (c.state == .queued || c.state == .running))
      fun c => { c with
        state := .running
        providerSubjectKey := c.providerSubjectKey <|> providerSubjectKey
        updatedAt := max c.updatedAt now }
    return { J with compactions }
  | some _, lifecycle => do
    let compactions ← J.compactions.update (·.operationId == operationId) fun c => { c with
      state := lifecycle.operationState
      providerSubjectKey := c.providerSubjectKey <|> providerSubjectKey
      updatedAt := max c.updatedAt now }
    return { J with compactions }

/-- `context.compaction.started`, `completed` and `failed`. -/
def reduceCompaction (envelope : ProviderEventEnvelope) (conversationId executionId : String)
    (lifecycle : CompactionLifecycle) (trigger : CompactionTrigger) (operationId : String) :
    Except StoreError Journal :=
  let controlEvents := J.controlEvents.insertOrIgnore
    { controlEventId := envelope.eventId, conversationId,
      boundary := J.compactionBoundary executionId envelope, state := lifecycle, operationId,
      providerSubjectKey := envelope.compactionSubject, createdAt := envelope.observedAt }
  { J with controlEvents }.reduceCompactionEvent conversationId lifecycle trigger operationId
    envelope.observedAt envelope.compactionSubject

/-! ## Events -/

/-- The event of an envelope, by its type. -/
def reduceByType (envelope : ProviderEventEnvelope) (conversationId executionId : String) :
    Except StoreError Journal :=
  let now := envelope.observedAt
  match envelope.event, envelope.scope with
  | .userMessage, .turn _ _ _ turnId =>
    if J.isRootExecution conversationId executionId then return J else J.touchTurn turnId now
  | .sessionHealth health, _ => J.reduceSessionHealth conversationId executionId health now
  | .turnStarted _, .turn _ _ _ turnId =>
    J.reduceTurnStatus conversationId executionId turnId false now
  | .turnStatus status, .turn _ _ _ turnId =>
    if status = .idle then return J
    else J.reduceTurnStatus conversationId executionId turnId (status == .recovering) now
  | .turnCompleted outcome, .turn _ _ _ turnId =>
    J.reduceTurnCompleted conversationId executionId turnId outcome now
  | .turnBlock lifecycle place block, .turn _ _ _ turnId =>
    J.reduceTurnBlock envelope conversationId executionId turnId lifecycle place block
  | .turnBranchPoint, .turn providerInstanceId _ _ turnId =>
    J.upsertNativeTurnBinding providerInstanceId executionId turnId envelope.native.turnId now
  | .contextCompaction lifecycle trigger operationId, _ =>
    J.reduceCompaction envelope conversationId executionId lifecycle trigger operationId
  | .executionStarted ownership child, .execution _ _ _ rootTurnId =>
    J.reduceExecutionStarted envelope.scope conversationId executionId rootTurnId
      ownership child now
  | .executionStatus childExecutionId state, _ =>
    J.updateExecutions
      (fun e => e.executionId == childExecutionId && e.outcome.isNone && e.updatedAt ≤ now)
      fun e => { e with state, updatedAt := max e.updatedAt now }
  | .executionSummary childExecutionId, _ =>
    J.updateExecutions (·.executionId == childExecutionId) fun e => { e with
      updatedAt := max e.updatedAt now }
  | .executionCompleted childExecutionId outcome, _ =>
    J.updateExecutions (fun e => e.executionId == childExecutionId && e.outcome.isNone)
      fun e => { e with
        state := outcome.executionState, outcome := some outcome, completedAt := some now
        updatedAt := max e.updatedAt now }
  | _, _ => return J

/-- The turn of an envelope is bound to its native turn. -/
def bindTurnOf (envelope : ProviderEventEnvelope) (executionId : String) :
    Except StoreError Journal :=
  match envelope.scope.turnId, envelope.native.turnId with
  | some turnId, some nativeTurnId => do
    let J ← J.bindNativeTurn turnId nativeTurnId envelope.observedAt
    J.upsertNativeTurnBinding envelope.scope.providerInstanceId executionId turnId
      (some nativeTurnId) envelope.observedAt
  | _, _ => return J

/-- **`reduceEvent`**: the native turn is bound, and then the event is
reduced by its type. -/
def reduceEvent (envelope : ProviderEventEnvelope) : Except StoreError Journal :=
  match envelope.scope.conversationId, envelope.scope.executionId with
  | some conversationId, some executionId => do
    let J ← J.bindTurnOf envelope executionId
    J.reduceByType envelope conversationId executionId
  | _, _ => return J

end Remux.Journal
