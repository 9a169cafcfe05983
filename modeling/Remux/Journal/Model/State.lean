import Remux.Journal.Model.Tables

/-!
# The journal

The tables together, the reads of `native-journal.ts`, and what creates
conversations, executions, turns and sessions. A transaction returns the
journal it commits, or throws and commits nothing.
-/

namespace Remux

open Table

/-- **The journal**: its tables. -/
structure Journal where
  providerInstances : List String
  conversations : Table Journal.ConversationRow
  executions : Table Journal.ExecutionRow
  strands : Table Journal.StrandRow
  heads : Table Journal.HeadRow
  paths : Table Journal.PathRow
  nativeSessions : Table Journal.NativeSessionRow
  childHandles : Table Journal.ChildHandleRow
  turns : Table Journal.TurnRow
  passes : Table Journal.PassRow
  blocks : Table Journal.BlockRow
  events : Table Journal.EventRow
  bindings : Table Journal.BindingRow
  controlEvents : Table Journal.ControlEventRow
  compactions : Table Journal.CompactionRow
  deliveries : List Journal.DeliveryRow
  queue : List Journal.QueueRow

namespace Journal

/-- A new journal, of these provider instances. -/
def new (providerInstances : List String) : Journal where
  providerInstances
  conversations := .empty
  executions := .empty
  strands := .empty
  heads := .empty
  paths := .empty
  nativeSessions := .empty
  childHandles := .empty
  turns := .empty
  passes := .empty
  blocks := .empty
  events := .empty
  bindings := .empty
  controlEvents := .empty
  compactions := .empty
  deliveries := []
  queue := []

variable (J : Journal)

/-! ## Reads -/

/-- The row of a conversation. -/
def conversation (conversationId : String) : Option ConversationRow :=
  J.conversations.find? (·.conversationId == conversationId)

/-- The row of an execution. -/
def execution (executionId : String) : Option ExecutionRow :=
  J.executions.find? (·.executionId == executionId)

/-- The row of a strand. -/
def strand (strandId : String) : Option StrandRow := J.strands.find? (·.strandId == strandId)

/-- The head of a conversation. -/
def conversationHead (conversationId : String) : Option HeadRow :=
  J.heads.find? (·.conversationId == conversationId)

/-- The row of a turn. -/
def turn (turnId : String) : Option TurnRow := J.turns.find? (·.turnId == turnId)

/-- The native session that an execution is bound to. -/
def nativeSession (executionId : String) : Option NativeSessionRef :=
  (J.nativeSessions.find? (·.executionId == executionId)).map (·.nativeSession)

/-- The row of a compaction. -/
def compactionOperation (operationId : String) : Option CompactionRow :=
  J.compactions.find? (·.operationId == operationId)

/-- Whether the execution is the root one of the conversation. -/
def isRootExecution (conversationId executionId : String) : Bool :=
  J.conversations.rows.any fun c =>
    c.conversationId == conversationId && c.rootExecutionId == executionId

/-- `state IN ('preparing', 'dispatching', 'unknown')`, or accepted with
events still staged. -/
def DeliveryRow.unresolved (a : DeliveryRow) : Bool :=
  match a.state with
  | .preparing | .dispatching | .unknown => true
  | .accepted => a.staged
  | _ => false

/-- Whether a delivery of the conversation is unresolved. -/
def hasUnresolvedRootDelivery (conversationId : String) : Bool :=
  J.deliveries.any fun a => a.conversationId == conversationId && a.unresolved

/-! ## Statements

An `UPDATE` of a table, the others as they are. -/

/-- `UPDATE conversations`. -/
def updateConversations (p : ConversationRow → Bool) (f : ConversationRow → ConversationRow) :
    Except StoreError Journal := do
  let conversations ← J.conversations.update p f
  return { J with conversations }

/-- `UPDATE executions`. -/
def updateExecutions (p : ExecutionRow → Bool) (f : ExecutionRow → ExecutionRow) :
    Except StoreError Journal := do
  let executions ← J.executions.update p f
  return { J with executions }

/-- `UPDATE native_sessions`. -/
def updateNativeSessions (p : NativeSessionRow → Bool) (f : NativeSessionRow → NativeSessionRow) :
    Except StoreError Journal := do
  let nativeSessions ← J.nativeSessions.update p f
  return { J with nativeSessions }

/-- `UPDATE conversations`, if the execution is the root of the
conversation. -/
def updateConversationOfRoot (conversationId executionId : String) (p : ConversationRow → Bool)
    (f : ConversationRow → ConversationRow) : Except StoreError Journal :=
  if J.isRootExecution conversationId executionId then J.updateConversations p f else return J

/-- `UPDATE turns`. -/
def updateTurns (p : TurnRow → Bool) (f : TurnRow → TurnRow) : Except StoreError Journal := do
  let turns ← J.turns.update p f
  return { J with turns }

/-- `UPDATE turn_passes`. -/
def updatePasses (p : PassRow → Bool) (f : PassRow → PassRow) : Except StoreError Journal := do
  let passes ← J.passes.update p f
  return { J with passes }

/-- `UPDATE turn_blocks`. -/
def updateBlocks (p : BlockRow → Bool) (f : BlockRow → BlockRow) : Except StoreError Journal := do
  let blocks ← J.blocks.update p f
  return { J with blocks }

/-! ## Creation -/

/-- The input of `createConversation`. -/
structure CreateConversation where
  conversationId : String
  rootExecutionId : String
  strandId : Option String
  provider : ProviderKind
  providerInstanceId : String
  access : Access
  strandState : StrandState
  now : ℕ

/-- `createConversation`: the conversation, its root execution, a strand and the head. -/
def createConversation (input : CreateConversation) : Except StoreError Journal := do
  let strandId := input.strandId.getD ("strand:" ++ input.conversationId)
  require (J.providerInstances.contains input.providerInstanceId) "provider_instances"
  let conversations ← J.conversations.insert
    { conversationId := input.conversationId, providerInstanceId := input.providerInstanceId,
      rootExecutionId := input.rootExecutionId, access := input.access, state := .recovering,
      activeTurnId := none, latestTurnId := none, createdAt := input.now, updatedAt := input.now }
  let executions ← J.executions.insert
    { executionId := input.rootExecutionId, conversationId := input.conversationId,
      strandId := some strandId, parentExecutionId := none, rootTurnId := none, ownership := .root,
      provider := input.provider, providerInstanceId := input.providerInstanceId,
      checkoutKey := none, access := some input.access, federationScheduling := none,
      federationDepth := 0, state := .recovering, outcome := none, createdAt := input.now,
      completedAt := none, updatedAt := input.now }
  let strands ← J.strands.insert
    { strandId, conversationId := input.conversationId, rootExecutionId := input.rootExecutionId,
      state := input.strandState }
  let heads ← J.heads.insert { conversationId := input.conversationId, strandId, revision := 1 }
  return { J with conversations, executions, strands, heads }

/-- The input of `createConversationStrand`. -/
structure CreateConversationStrand where
  strandId : String
  conversationId : String
  sourceStrandId : String
  rootExecutionId : String
  provider : ProviderKind
  providerInstanceId : String
  access : Access
  now : ℕ

/-- `createConversationStrand`: a strand beside those the conversation has. -/
def createConversationStrand (input : CreateConversationStrand) : Except StoreError Journal := do
  Remux.check (J.conversation input.conversationId).isSome
    (.thrown ("Conversation " ++ input.conversationId ++ " does not exist."))
  Remux.check ((J.strand input.sourceStrandId).any (·.conversationId == input.conversationId))
    (.thrown "The source strand does not belong to the conversation.")
  require (J.providerInstances.contains input.providerInstanceId) "provider_instances"
  let executions ← J.executions.insert
    { executionId := input.rootExecutionId, conversationId := input.conversationId,
      strandId := some input.strandId, parentExecutionId := none, rootTurnId := none,
      ownership := .root, provider := input.provider,
      providerInstanceId := input.providerInstanceId, checkoutKey := none,
      access := some input.access, federationScheduling := none, federationDepth := 0,
      state := .recovering, outcome := none, createdAt := input.now, completedAt := none,
      updatedAt := input.now }
  let strands ← J.strands.insert
    { strandId := input.strandId, conversationId := input.conversationId,
      rootExecutionId := input.rootExecutionId, state := .preparing }
  return { J with executions, strands }

/-- `markStrandReady`. -/
def markStrandReady (strandId : String) : Except StoreError Journal := do
  Remux.check (J.strands.rows.any fun s => s.strandId == strandId && s.state == .preparing)
    (.thrown ("Strand " ++ strandId ++ " is not preparing."))
  let strands ← J.strands.update (fun s => s.strandId == strandId && s.state == .preparing)
    fun s => { s with state := .ready }
  return { J with strands }

/-- `failStrand`. -/
def failStrand (strandId : String) : Except StoreError Journal := do
  let strands ← J.strands.update
    (fun s => s.strandId == strandId && (s.state == .preparing || s.state == .ready))
    fun s => { s with state := .failed }
  return { J with strands }

/-- The input of `createFederatedExecution`. -/
structure CreateFederatedExecution where
  executionId : String
  conversationId : String
  parentExecutionId : String
  rootTurnId : String
  provider : ProviderKind
  providerInstanceId : String
  checkoutKey : Option String
  access : Access
  scheduling : FederationScheduling
  depth : ℕ
  now : ℕ

/-- `createFederatedExecution`: the execution of a federated child, under its owner. -/
def createFederatedExecution (input : CreateFederatedExecution) : Except StoreError Journal := do
  require (J.conversation input.conversationId).isSome "conversations"
  require (J.execution input.parentExecutionId).isSome "executions"
  require (J.providerInstances.contains input.providerInstanceId) "provider_instances"
  let executions ← J.executions.insert
    { executionId := input.executionId, conversationId := input.conversationId,
      strandId := (J.conversationHead input.conversationId).map (·.strandId),
      parentExecutionId := some input.parentExecutionId, rootTurnId := some input.rootTurnId,
      ownership := .federated, provider := input.provider,
      providerInstanceId := input.providerInstanceId, checkoutKey := input.checkoutKey,
      access := some input.access, federationScheduling := some input.scheduling,
      federationDepth := input.depth, state := .recovering, outcome := none,
      createdAt := input.now, completedAt := none, updatedAt := input.now }
  return { J with executions }

/-- The input of `createTurn`. -/
structure CreateTurn where
  turnId : String
  conversationId : String
  executionId : String
  clientMessageId : String
  commandId : String
  running : Bool
  now : ℕ

/-- The row that `createTurn` inserts. -/
def CreateTurn.row (input : CreateTurn) : TurnRow where
  turnId := input.turnId
  conversationId := input.conversationId
  executionId := input.executionId
  clientMessageId := input.clientMessageId
  commandId := input.commandId
  nativeTurnId := none
  state := if input.running then .running else .queued
  outcome := none
  createdAt := input.now
  startedAt := if input.running then some input.now else none
  completedAt := none
  updatedAt := input.now

/-- `createTurn`, at the next ordinal of its execution. -/
def createTurn (input : CreateTurn) : Except StoreError Journal := do
  match J.execution input.executionId with
  | none => throw (.thrown "Turn execution does not belong to the conversation.")
  | some execution => do
    Remux.check (execution.conversationId == input.conversationId)
      (.thrown "Turn execution does not belong to the conversation.")
    match execution.strandId <|> (J.conversationHead input.conversationId).map (·.strandId) with
    | none => throw (.thrown "Turn execution has no conversation strand.")
    | some strandId => do
      require (J.conversation input.conversationId).isSome "conversations"
      require (J.strand strandId).isSome "conversation_strands"
      let turns ← J.turns.insert input.row
      let J := { J with turns }
      let ordinal := next ((J.paths.rows.filter (·.strandId == strandId)).map (·.ordinal))
      let entry : PathRow := { pathEntryId := "path:" ++ strandId ++ ":" ++ input.turnId, strandId,
                               ordinal, turnId := input.turnId }
      let paths ← (if execution.ownership == .root then J.paths.insert entry else pure J.paths)
      let J := { J with paths }
      let J ← J.updateConversations
        (fun c => c.conversationId == input.conversationId &&
          c.rootExecutionId == input.executionId)
        fun c => { c with
          latestTurnId := some input.turnId
          activeTurnId := if input.running then some input.turnId else c.activeTurnId
          state := if input.running then .running else c.state
          updatedAt := max c.updatedAt input.now }
      if input.running then
        J.updateExecutions (·.executionId == input.executionId) fun e => { e with
          state := .running, outcome := none, completedAt := none
          updatedAt := max e.updatedAt input.now }
      else pure J

/-- The input of `bindNativeSession`. -/
structure BindNativeSession where
  executionId : String
  nativeSession : NativeSessionRef
  now : ℕ

/-- `bindNativeSession`: the row of `native_sessions` of an execution. -/
def bindNativeSession (input : BindNativeSession) : Except StoreError Journal := do
  require (J.execution input.executionId).isSome "executions"
  require (J.providerInstances.contains input.nativeSession.providerInstanceId) "provider_instances"
  let nativeSessions ← J.nativeSessions.upsert
    { executionId := input.executionId, nativeSession := input.nativeSession, state := .ready,
      providerInstanceId := input.nativeSession.providerInstanceId, firstObservedAt := input.now,
      lastObservedAt := input.now }
    (·.executionId == input.executionId)
    fun s => { s with
      nativeSession := input.nativeSession, state := .ready, lastObservedAt := input.now }
  let J := { J with nativeSessions }
  let live := J.turns.rows.any fun t => t.executionId == input.executionId && t.state.live
  let J ← J.updateExecutions (·.executionId == input.executionId) fun e => { e with
    state := if e.state == .recovering && !live then .idle else e.state
    updatedAt := input.now }
  J.updateConversations (·.rootExecutionId == input.executionId) fun c => { c with
    state := if c.state == .recovering && c.activeTurnId.isNone then .idle else c.state
    updatedAt := input.now }

end Journal

end Remux
