import Remux.Common.Table
import Remux.Journal.Model.Events

/-!
# The tables of the journal

The rows of `schema.ts` with their keys and `CHECK` constraints. A column
that no modelled statement reads is left out, and a `CHECK` on such
columns with it.
-/

namespace Remux.Journal

/-! ## Rows -/

/-- `turn_passes.state`. -/
inductive TurnPassState where
  | streaming
  | completed
  deriving DecidableEq

/-- `native_sessions.state`. -/
inductive NativeSessionState where
  | ready
  | recovering
  | lost
  | closed
  deriving DecidableEq

/-- `conversation_strands.state`. -/
inductive StrandState where
  | preparing
  | ready
  | failed
  | orphaned
  deriving DecidableEq

/-- `federation_scheduling`. -/
inductive FederationScheduling where
  | background
  | foreground
  deriving DecidableEq

/-- A row of `conversations`. -/
structure ConversationRow where
  conversationId : String
  providerInstanceId : String
  rootExecutionId : String
  access : Access
  state : ProviderExecutionState
  activeTurnId : Option String
  latestTurnId : Option String
  createdAt : ℕ
  updatedAt : ℕ
  deriving DecidableEq

/-- A row of `executions`. -/
structure ExecutionRow where
  executionId : String
  conversationId : String
  strandId : Option String
  parentExecutionId : Option String
  rootTurnId : Option String
  ownership : Ownership
  provider : ProviderKind
  providerInstanceId : String
  checkoutKey : Option String
  access : Option Access
  federationScheduling : Option FederationScheduling
  federationDepth : ℕ
  state : ProviderExecutionState
  outcome : Option ProviderTurnOutcome
  createdAt : ℕ
  completedAt : Option ℕ
  updatedAt : ℕ
  deriving DecidableEq

/-- A row of `conversation_strands`. -/
structure StrandRow where
  strandId : String
  conversationId : String
  rootExecutionId : String
  state : StrandState
  deriving DecidableEq

/-- A row of `conversation_heads`. -/
structure HeadRow where
  conversationId : String
  strandId : String
  revision : ℕ
  deriving DecidableEq

/-- A row of `strand_turn_path`. -/
structure PathRow where
  pathEntryId : String
  strandId : String
  ordinal : ℕ
  turnId : String
  deriving DecidableEq

/-- `NativeSessionRef`. -/
structure NativeSessionRef where
  provider : ProviderKind
  providerInstanceId : String
  sessionId : String
  deriving DecidableEq

/-- A row of `native_sessions`. -/
structure NativeSessionRow where
  executionId : String
  providerInstanceId : String
  nativeSession : NativeSessionRef
  state : NativeSessionState
  firstObservedAt : ℕ
  lastObservedAt : ℕ
  deriving DecidableEq

/-- A row of `native_child_handles`. -/
structure ChildHandleRow where
  executionId : String
  nativeSessionId : String
  deriving DecidableEq

/-- A row of `turns`. -/
structure TurnRow where
  turnId : String
  conversationId : String
  executionId : String
  clientMessageId : String
  commandId : String
  nativeTurnId : Option String
  state : TurnState
  outcome : Option ProviderTurnOutcome
  createdAt : ℕ
  startedAt : Option ℕ
  completedAt : Option ℕ
  updatedAt : ℕ
  deriving DecidableEq

/-- A row of `turn_passes`. -/
structure PassRow where
  passId : String
  turnId : String
  ordinal : ℕ
  state : TurnPassState
  deriving DecidableEq

/-- A row of `turn_blocks`; its kind is that of the payload. -/
structure BlockRow where
  blockId : String
  turnId : String
  passId : String
  ordinal : ℕ
  state : TurnBlockState
  revision : ℕ
  payload : TurnBlockPayload
  startedAt : Option ℕ
  completedAt : Option ℕ
  deriving DecidableEq

/-- The kind of a block is that of its payload. -/
def BlockRow.kind (block : BlockRow) : TurnBlockKind := block.payload.kind

/-- A row of `events`, its sequence being its place in the table. -/
structure EventRow where
  envelope : ProviderEventEnvelope
  deriving DecidableEq

/-- A row of `native_turn_bindings`. -/
structure BindingRow where
  nativeBindingId : String
  executionId : String
  turnId : String
  nativeTurnId : Option String
  deriving DecidableEq

/-- `JournalCompactionBoundary`. -/
inductive CompactionBoundary where
  | betweenTurns
  | withinTurn (turnId nativeTurnId : String)
  | nativeUnresolved (nativeTurnId : String)
  deriving DecidableEq

/-- A row of `conversation_control_events`. -/
structure ControlEventRow where
  controlEventId : String
  conversationId : String
  boundary : CompactionBoundary
  state : CompactionLifecycle
  operationId : String
  providerSubjectKey : Option String
  createdAt : ℕ
  deriving DecidableEq

/-- A row of `compaction_operations`. -/
structure CompactionRow where
  operationId : String
  commandId : Option String
  conversationId : String
  trigger : CompactionTrigger
  state : CompactionState
  providerSubjectKey : Option String
  createdAt : ℕ
  updatedAt : ℕ
  deriving DecidableEq

/-- A row of `delivery_attempts`, and whether rows of
`delivery_attempt_staging` are left of it. -/
structure DeliveryRow where
  attemptId : String
  conversationId : String
  state : DeliveryAttemptState
  staged : Bool
  deriving DecidableEq

/-- A row of the queue: `queued_messages`, or `queued_compactions`. -/
inductive QueueRow where
  | message (commandId conversationId : String)
  | compact (commandId conversationId operationId : String)
  deriving DecidableEq

/-- The conversation that the row is queued in. -/
def QueueRow.conversationId : QueueRow → String
  | message _ id => id
  | compact _ id _ => id

/-- The command that the row was queued by. -/
def QueueRow.commandId : QueueRow → String
  | message id _ => id
  | compact id _ _ => id

/-! ## Schemas -/

/-- Two keys that both have a value share it. -/
def sameKey (k k' : Option String) : Bool := k.isSome && k == k'

theorem sameKey_comm (k k' : Option String) : sameKey k k' = sameKey k' k := by
  cases k <;> cases k' <;> simp [sameKey, eq_comm]

instance : Row ConversationRow where
  table := "conversations"
  clash r r' := r.conversationId == r'.conversationId || r.rootExecutionId == r'.rootExecutionId
  clash_comm r r' := by simp only [BEq.comm]
  check r := r.createdAt ≤ r.updatedAt

instance : Row ExecutionRow where
  table := "executions"
  clash r r' := r.executionId == r'.executionId
  clash_comm r r' := by simp only [BEq.comm]
  check r := r.createdAt ≤ r.updatedAt && r.federationDepth ≤ 2

instance : Row StrandRow where
  table := "conversation_strands"
  clash r r' := r.strandId == r'.strandId || r.rootExecutionId == r'.rootExecutionId
  clash_comm r r' := by simp only [BEq.comm]
  check _ := true

instance : Row HeadRow where
  table := "conversation_heads"
  clash r r' := r.conversationId == r'.conversationId || r.strandId == r'.strandId
  clash_comm r r' := by simp only [BEq.comm]
  check r := 1 ≤ r.revision

instance : Row PathRow where
  table := "strand_turn_path"
  clash r r' := r.pathEntryId == r'.pathEntryId ||
    r.strandId == r'.strandId && (r.ordinal == r'.ordinal || r.turnId == r'.turnId)
  clash_comm r r' := by simp only [BEq.comm]
  check _ := true

instance : Row NativeSessionRow where
  table := "native_sessions"
  clash r r' := r.executionId == r'.executionId || r.providerInstanceId == r'.providerInstanceId &&
      r.nativeSession.sessionId == r'.nativeSession.sessionId
  clash_comm r r' := by simp only [BEq.comm]
  check r := r.firstObservedAt ≤ r.lastObservedAt

instance : Row ChildHandleRow where
  table := "native_child_handles"
  clash r r' := r.executionId == r'.executionId
  clash_comm r r' := by simp only [BEq.comm]
  check _ := true

instance : Row TurnRow where
  table := "turns"
  clash r r' := r.turnId == r'.turnId || r.commandId == r'.commandId ||
    r.conversationId == r'.conversationId && r.clientMessageId == r'.clientMessageId
  clash_comm r r' := by simp only [BEq.comm]
  check r := r.createdAt ≤ r.updatedAt

instance : Row PassRow where
  table := "turn_passes"
  clash r r' := r.passId == r'.passId || r.turnId == r'.turnId && r.ordinal == r'.ordinal
  clash_comm r r' := by simp only [BEq.comm]
  check _ := true

instance : Row BlockRow where
  table := "turn_blocks"
  clash r r' := r.blockId == r'.blockId || r.passId == r'.passId && r.ordinal == r'.ordinal
  clash_comm r r' := by simp only [BEq.comm]
  check _ := true

instance : Row EventRow where
  table := "events"
  clash r r' := r.envelope.eventId == r'.envelope.eventId
  clash_comm r r' := by simp only [BEq.comm]
  check _ := true

instance : Row BindingRow where
  table := "native_turn_bindings"
  clash r r' := r.nativeBindingId == r'.nativeBindingId ||
    r.executionId == r'.executionId && r.turnId == r'.turnId
  clash_comm r r' := by simp only [BEq.comm]
  check _ := true

instance : Row ControlEventRow where
  table := "conversation_control_events"
  clash r r' := r.controlEventId == r'.controlEventId ||
    r.conversationId == r'.conversationId && r.state == r'.state &&
      (r.operationId == r'.operationId || sameKey r.providerSubjectKey r'.providerSubjectKey)
  clash_comm r r' := by simp only [BEq.comm, sameKey_comm]
  check _ := true

instance : Row CompactionRow where
  table := "compaction_operations"
  clash r r' := r.operationId == r'.operationId || sameKey r.commandId r'.commandId ||
    r.conversationId == r'.conversationId && sameKey r.providerSubjectKey r'.providerSubjectKey
  clash_comm r r' := by simp only [BEq.comm, sameKey_comm]
  check r := r.createdAt ≤ r.updatedAt

end Remux.Journal
