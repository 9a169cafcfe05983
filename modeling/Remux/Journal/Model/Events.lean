import Remux.Delivery.Model.Attempt
import Remux.Journal.Model.Kinds

/-!
# Provider events, as the journal reads them

`ProviderEventEnvelope` of `provider-runtime.ts`, with the fields that the
journal and the checkout owner read. A part of a payload that is only
compared, through the hash of its canonical JSON, is kept as that text.
-/

namespace Remux.Journal

/-! ## Enumerations -/

/-- `ProviderTurnOutcome`. -/
inductive ProviderTurnOutcome where
  | completed
  | failed
  | interrupted
  | recoveryFailed
  deriving DecidableEq

/-- `ProviderExecutionState`, the states of an execution and of a
conversation. -/
inductive ProviderExecutionState where
  | running
  | recovering
  | idle
  | failed
  | interrupted
  deriving DecidableEq

/-- `state IN ('running', 'recovering')`. -/
def ProviderExecutionState.live : ProviderExecutionState → Bool
  | running | recovering => true
  | _ => false

/-- `executions.ownership`. -/
inductive Ownership where
  | root
  | native
  | federated
  deriving DecidableEq

/-- `ChildExecutionOwnership`. -/
inductive ChildExecutionOwnership where
  | native
  | federated
  deriving DecidableEq

/-- The ownership that a child execution of this kind is stored with. -/
def ChildExecutionOwnership.toOwnership : ChildExecutionOwnership → Ownership
  | native => .native
  | federated => .federated

/-- `TurnBlockState`. -/
inductive TurnBlockState where
  | streaming
  | running
  | completed
  | failed
  | interrupted
  deriving DecidableEq

/-- `TurnBlockKind`. -/
inductive TurnBlockKind where
  | reasoningSummary
  | commentary
  | tool
  | nativeChild
  | federatedChild
  | web
  | finalMessage
  | compatibilityNotice
  deriving DecidableEq

/-! ## Blocks -/

/-- `ChildExecutionDisplay`; its ownership is that of its block, or of the
event that carries it. -/
structure ChildExecutionDisplay where
  executionId : String
  provider : ProviderKind
  providerInstanceId : Option String
  model : Option String
  title : Option String
  nativeSessionId : Option String
  transcriptAvailable : Option Bool
  deriving DecidableEq

/-- `TurnBlockPayload`. -/
inductive TurnBlockPayload where
  | reasoningSummary (text : String) (parts : Option (List String)) (truncated : Bool)
  | commentary (text : String)
  | finalMessage (text : String)
  | tool (callId display : String) (backgrounded : Option Bool)
      (inputPreview outputPreview detailRef : Option String)
  | nativeChild (child : ChildExecutionDisplay) (executionState : ProviderExecutionState)
      (outcome : Option ProviderTurnOutcome) (summary : Option String)
  | federatedChild (child : ChildExecutionDisplay) (executionState : ProviderExecutionState)
      (outcome : Option ProviderTurnOutcome) (summary : Option String)
  | web (activity : String)
  | compatibilityNotice (code message : String)
  deriving DecidableEq

/-- The kind of a payload, which the parser requires to be the block's. -/
def TurnBlockPayload.kind : TurnBlockPayload → TurnBlockKind
  | reasoningSummary .. => .reasoningSummary
  | commentary .. => .commentary
  | finalMessage .. => .finalMessage
  | tool .. => .tool
  | nativeChild .. => .nativeChild
  | federatedChild .. => .federatedChild
  | web .. => .web
  | compatibilityNotice .. => .compatibilityNotice

/-- `payload.backgrounded` is `true`. -/
def TurnBlockPayload.backgrounded : TurnBlockPayload → Bool
  | tool _ _ backgrounded _ _ _ => backgrounded == some true
  | _ => false

/-- The child of a `native-child` or `federated-child` payload. -/
def TurnBlockPayload.child : TurnBlockPayload →
    Option (ChildExecutionOwnership × ChildExecutionDisplay × ProviderExecutionState ×
      Option ProviderTurnOutcome)
  | nativeChild child executionState outcome _ => some (.native, child, executionState, outcome)
  | federatedChild child executionState outcome _ =>
      some (.federated, child, executionState, outcome)
  | _ => none

/-- `TurnBlockSnapshot`. -/
structure TurnBlockSnapshot where
  state : TurnBlockState
  payload : TurnBlockPayload
  deriving DecidableEq

/-- The kind of a block is that of its payload. -/
def TurnBlockSnapshot.kind (block : TurnBlockSnapshot) : TurnBlockKind := block.payload.kind

/-- `TurnStructure`. -/
structure TurnStructure where
  passId : String
  blockId : String
  passOrdinal : ℕ
  blockOrdinal : ℕ
  deriving DecidableEq

/-! ## Events -/

/-- The three events of a block. -/
inductive BlockLifecycle where
  | started
  | revised (revision : ℕ)
  | completed (revision : ℕ)
  deriving DecidableEq

/-- `blockEventRevision`. -/
def BlockLifecycle.revision : BlockLifecycle → ℕ
  | started => 0
  | revised revision => revision
  | completed revision => revision

/-- Whether a block's life is over. -/
def BlockLifecycle.isCompleted : BlockLifecycle → Bool
  | completed _ => true
  | _ => false

/-- The health of a native session. -/
inductive SessionHealth where
  | ready
  | recovering
  | lost
  deriving DecidableEq

/-- The states of a `turn.status`. -/
inductive TurnStatus where
  | running
  | recovering
  | idle
  deriving DecidableEq

/-- The three events of a compaction. -/
inductive CompactionLifecycle where
  | started
  | completed
  | failed
  deriving DecidableEq

/-- What a compaction was started by. -/
inductive CompactionTrigger where
  | manual
  | automatic
  deriving DecidableEq

/-- `ProviderEvent`. -/
inductive ProviderEvent where
  | sessionBound
  | sessionMaterialized
  | sessionHealth (state : SessionHealth)
  | turnStarted (native : Bool)
  | turnStatus (state : TurnStatus)
  | turnCompleted (outcome : ProviderTurnOutcome)
  | userMessage
  | turnBlock (lifecycle : BlockLifecycle) (place : TurnStructure) (block : TurnBlockSnapshot)
  | turnFileChanged
  | turnUsageUpdated
  | turnBranchPoint
  | contextCompaction (lifecycle : CompactionLifecycle) (trigger : CompactionTrigger)
      (operationId : String)
  | accountUsageUpdated
  | executionStarted (ownership : ChildExecutionOwnership) (child : ChildExecutionDisplay)
  | executionStatus (childExecutionId : String) (state : ProviderExecutionState)
  | executionSummary (childExecutionId : String)
  | executionCompleted (childExecutionId : String) (outcome : ProviderTurnOutcome)
  | compatibilityNotice
  deriving DecidableEq

/-- The kinds of an event's scope. -/
inductive ScopeKind where
  | account
  | conversation
  | turn
  | execution
  deriving DecidableEq

/-- `ProviderEventScope`. -/
inductive ProviderEventScope where
  | account (providerInstanceId : String)
  | conversation (providerInstanceId conversationId executionId : String)
  | turn (providerInstanceId conversationId executionId turnId : String)
  | execution (providerInstanceId conversationId executionId : String) (rootTurnId : Option String)
  deriving DecidableEq

namespace ProviderEventScope

/-- The kind of a scope. -/
def kind : ProviderEventScope → ScopeKind
  | account .. => .account
  | conversation .. => .conversation
  | turn .. => .turn
  | execution .. => .execution

/-- The provider instance that a scope belongs to. -/
def providerInstanceId : ProviderEventScope → String
  | account id => id
  | conversation id _ _ => id
  | turn id _ _ _ => id
  | execution id _ _ _ => id

/-- The conversation of a scope, if it has one. -/
def conversationId : ProviderEventScope → Option String
  | account _ => none
  | conversation _ id _ => some id
  | turn _ id _ _ => some id
  | execution _ id _ _ => some id

/-- The execution of a scope, if it has one. -/
def executionId : ProviderEventScope → Option String
  | account _ => none
  | conversation _ _ id => some id
  | turn _ _ id _ => some id
  | execution _ _ id _ => some id

/-- `scope.turnId`, or `scope.rootTurnId` of an execution. -/
def turnId : ProviderEventScope → Option String
  | turn _ _ _ id => some id
  | execution _ _ _ id => id
  | _ => none

end ProviderEventScope

/-- `assertEventScope`: the scope an event requires. -/
def ProviderEvent.scopeKind : ProviderEvent → Option ScopeKind
  | compatibilityNotice => none
  | accountUsageUpdated => some .account
  | contextCompaction .. | sessionBound | sessionMaterialized | sessionHealth _ =>
      some .conversation
  | executionStarted .. | executionStatus .. | executionSummary _ | executionCompleted .. =>
    some .execution
  | turnStarted _ | turnStatus _ | turnCompleted _ | userMessage | turnBlock .. | turnFileChanged
  | turnUsageUpdated | turnBranchPoint => some .turn

/-- `assertEventScope`: whether an event may have a scope of this kind. -/
def assertEventScope (event : ProviderEvent) (scope : ProviderEventScope) : Bool :=
  match event.scopeKind with
  | none => scope.kind != .account
  | some expected => scope.kind == expected

/-- `NativePosition`; of the two other kinds nothing is read. -/
inductive NativePosition where
  | snapshotIndex (itemIndex : ℕ)
  | other
  deriving DecidableEq

/-- Whether a position counts from a snapshot. -/
def NativePosition.isSnapshotIndex : NativePosition → Bool
  | snapshotIndex _ => true
  | other => false

/-- `NativeProviderSubject`. -/
structure NativeProviderSubject where
  kind : String
  key : String
  deriving DecidableEq

/-- `native` of an envelope. -/
structure NativeIdentity where
  sessionId : Option String
  turnId : Option String
  itemId : Option String
  position : Option NativePosition
  subject : Option NativeProviderSubject
  kind : String
  deriving DecidableEq

/-- `ProviderEventEnvelope`. The parser lets no event through outside the
scope it requires, and none without a native session but in the scope of
an account. -/
structure ProviderEventEnvelope where
  eventId : String
  provider : ProviderKind
  scope : ProviderEventScope
  native : NativeIdentity
  observedAt : ℕ
  event : ProviderEvent
  inScope : assertEventScope event scope = true
  bound : scope.kind = .account ∨ native.sessionId.isSome
  deriving DecidableEq

namespace ProviderEventEnvelope

/-- `isTurnBlockLifecycleEvent`. -/
def isTurnBlock (envelope : ProviderEventEnvelope) : Bool :=
  match envelope.event with
  | .turnBlock .. => true
  | _ => false

/-- The key of the compaction an envelope is about. -/
def compactionSubject (envelope : ProviderEventEnvelope) : Option String :=
  match envelope.native.subject with
  | some subject => if subject.kind == "context-compaction" then some subject.key else none
  | none => none

/-- The event of a block stands in another place: `withBlockStructure`. -/
def withBlockStructure (envelope : ProviderEventEnvelope) (passId : String)
    (passOrdinal blockOrdinal : ℕ) : ProviderEventEnvelope :=
  match h : envelope.event with
  | .turnBlock lifecycle place block =>
    { envelope with
      event := .turnBlock lifecycle { place with passId, passOrdinal, blockOrdinal } block
      inScope := by
        have := envelope.inScope
        rw [h] at this
        exact this }
  | _ => envelope

/-- The event of a compaction is about another operation. -/
def withCompaction (envelope : ProviderEventEnvelope) (operationId : String)
    (trigger : CompactionTrigger) : ProviderEventEnvelope :=
  match h : envelope.event with
  | .contextCompaction lifecycle _ _ =>
    { envelope with
      event := .contextCompaction lifecycle trigger operationId
      inScope := by
        have := envelope.inScope
        rw [h] at this
        exact this }
  | _ => envelope

end ProviderEventEnvelope

end Remux.Journal
