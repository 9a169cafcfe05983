import Remux.Delivery.Model.Drivers
import Remux.Journal.Model.Kinds

/-!
# From the queue to a delivery attempt

`enqueueTurn` and `claimQueuedTurn` of the journal, the recovery payloads
that `dispatchNext` and `dispatchActiveQueuedInput` build for a claimed
row, and `prepare` with its `validateScope`.

JSON is written and read back as the value it is, but for the order of an
object's entries, which nothing here reads. `canonicalJson` sorts the keys
by their code points in place of `localeCompare`; of two keys of a payload
neither order makes one.
-/

namespace Remux

/-- `UserContentPart`. -/
inductive UserContentPart where
  | text (text : String)
  | imageArtifact (artifactId mimeType : String) (name : Option String) (byteLength : Option ℕ)
  | fileReference (path : String)
  deriving DecidableEq

/-- A part of a user's content, as it is serialized. -/
def UserContentPart.toValue : UserContentPart → Value
  | text content => .object [("type", .string "text"), ("text", .string content)]
  | imageArtifact artifactId mimeType name byteLength =>
    .object ([("type", .string "image-artifact"), ("artifactId", .string artifactId),
      ("mimeType", .string mimeType)] ++ optionalEntry "name" (name.map .string) ++
      optionalEntry "byteLength" (byteLength.map fun n => jsonInteger n))
  | fileReference path => .object [("type", .string "file-reference"), ("path", .string path)]

/-- The kinds of `TurnTrigger`. -/
inductive TurnTriggerKind where
  | federation
  | nativeChild
  deriving DecidableEq

/-- The text of a trigger's kind. -/
def TurnTriggerKind.text : TurnTriggerKind → String
  | federation => "federation"
  | nativeChild => "native-child"

/-- `TurnTrigger`. -/
structure TurnTrigger where
  kind : TurnTriggerKind
  childExecutionId : Option String
  summary : Option String
  deriving DecidableEq

/-- A trigger, as it is serialized. -/
def TurnTrigger.toValue (trigger : TurnTrigger) : Value :=
  .object ([("kind", .string trigger.kind.text)] ++
    optionalEntry "childExecutionId" (trigger.childExecutionId.map .string) ++
    optionalEntry "summary" (trigger.summary.map .string))

/-! ## The queue -/

/-- A row of `queued_messages`, as `queueRow` reads it. -/
structure QueuedMessage where
  commandId : String
  conversationId : String
  turnId : String
  clientMessageId : String
  content : Value
  model : String
  effort : Option String
  serviceTier : Option String
  access : Access
  state : QueuedState
  ordinal : ℕ
  createdAt : ℕ
  deliveryIntent : DeliveryIntent
  origin : TurnOrigin
  trigger : Option Value
  triggers : Option Value

/-- The input of `enqueueTurn`. -/
structure EnqueueTurn where
  origin : Option TurnOrigin
  trigger : Option TurnTrigger
  triggers : Option (List TurnTrigger)
  deliveryIntent : Option DeliveryIntent
  commandId : String
  conversationId : String
  turnId : String
  clientMessageId : String
  content : List UserContentPart
  model : String
  effort : Option String
  serviceTier : Option String
  access : Access
  now : ℕ

/-- The row `enqueueTurn` inserts, at the next ordinal. -/
def enqueueTurn (input : EnqueueTurn) (ordinal : ℕ) : QueuedMessage where
  commandId := input.commandId
  conversationId := input.conversationId
  turnId := input.turnId
  clientMessageId := input.clientMessageId
  content := .array (input.content.map UserContentPart.toValue)
  model := input.model
  effort := input.effort
  serviceTier := input.serviceTier
  access := input.access
  state := .queued
  ordinal := ordinal
  createdAt := input.now
  deliveryIntent := input.deliveryIntent.getD .queue
  origin := input.origin.getD .user
  trigger := (input.trigger.or (input.triggers.bind List.head?)).map TurnTrigger.toValue
  triggers := match input.triggers with
    | some triggers => some (.array (triggers.map TurnTrigger.toValue))
    | none => input.trigger.map fun trigger => .array [trigger.toValue]

/-- `claimQueuedTurn`, for the first row of the queue. -/
def claimQueuedTurn (row : QueuedMessage) : Option QueuedMessage :=
  if row.state = .dispatching ∨ row.state = .deliveryUnknown then none
  else some { row with state := .dispatching }

/-! ## The recovery payload -/

namespace QueuedMessage

variable (queued : QueuedMessage)

/-- `...(value ? { key: value } : {})`. -/
def presentEntry (key : String) (value : Option String) : Entries :=
  optionalEntry key ((value.filter (· ≠ "")).map .string)

/-- The payload of a queued message. An entry that is `undefined` is left
out by `canonicalJson`. -/
def recoveryPayload (nativeClientMessageId : String) (extra : Entries) : Value :=
  .object ([("turnId", .string queued.turnId), ("clientMessageId", .string queued.clientMessageId),
      ("nativeClientMessageId", .string nativeClientMessageId), ("content", queued.content),
      ("origin", .string queued.origin.text)] ++
    optionalEntry "trigger" queued.trigger ++ optionalEntry "triggers" queued.triggers ++
    [("model", .string queued.model)] ++ presentEntry "effort" queued.effort ++
    presentEntry "serviceTier" queued.serviceTier ++
    [("access", .string queued.access.text)] ++ extra)

end QueuedMessage

/-- What a dispatch knows of the conversation, of its session and of
itself. -/
structure RootLane where
  provider : ProviderKind
  providerInstanceId : String
  conversationId : String
  rootExecutionId : String
  nativeSessionId : String
  attemptId : String
  ownerInstanceId : String
  now : ℕ

namespace RootLane

variable (lane : RootLane) (queued : QueuedMessage)

/-- What `dispatchNext` prepares for a root turn; a Claude input has an
identity of its own. -/
def rootTurn (stableUuid : String → String) : PrepareDeliveryAttempt :=
  let nativeClientMessageId := if lane.provider = .claudeCode then
    stableUuid ("claude-user\x00" ++ queued.commandId) else queued.turnId
  { attemptId := lane.attemptId, commandId := queued.commandId, kind := .rootTurn,
    provider := lane.provider, providerInstanceId := lane.providerInstanceId,
    conversationId := lane.conversationId, executionId := lane.rootExecutionId,
    intendedTurnId := some queued.turnId, clientMessageId := some queued.clientMessageId,
    nativeClientMessageId := some nativeClientMessageId, compactOperationId := none,
    recoveryPayload := queued.recoveryPayload nativeClientMessageId [],
    nativeSessionId := lane.nativeSessionId, processGeneration := none,
    ownerInstanceId := lane.ownerInstanceId, now := lane.now }

/-- What `dispatchActiveQueuedInput` prepares for the active turn. -/
def activeInput (stableUuid : String → String) (activeTurnId activeNativeTurnId : String)
    (afterBlockId : Option String) : PrepareDeliveryAttempt :=
  let nativeClientMessageId := stableUuid ("steer\x00" ++ queued.commandId)
  { attemptId := lane.attemptId, commandId := queued.commandId, kind := .steer,
    provider := lane.provider, providerInstanceId := lane.providerInstanceId,
    conversationId := lane.conversationId, executionId := lane.rootExecutionId,
    intendedTurnId := some activeTurnId, clientMessageId := some queued.clientMessageId,
    nativeClientMessageId := some nativeClientMessageId, compactOperationId := none,
    recoveryPayload := { queued with turnId := activeTurnId }.recoveryPayload nativeClientMessageId
      [("expectedNativeTurnId", .string activeNativeTurnId),
        ("afterBlockId", (afterBlockId.map Value.string).getD .null)],
    nativeSessionId := lane.nativeSessionId, processGeneration := none,
    ownerInstanceId := lane.ownerInstanceId, now := lane.now }

end RootLane

/-! ## The scope of an attempt -/

/-- The part of a scope that names a conversation. -/
structure ConversationScope where
  providerInstanceId : String
  rootExecutionId : String
  activeTurnId : Option String
  deriving DecidableEq

/-- The part of a scope that names an execution. -/
structure ExecutionScope where
  conversationId : String
  providerInstanceId : String
  deriving DecidableEq

/-- The part of a scope that names a native session. -/
structure SessionScope where
  nativeSessionId : String
  providerInstanceId : String
  deriving DecidableEq

/-- The part of a scope that names a turn. -/
structure TurnScope where
  conversationId : String
  executionId : String
  nativeTurnId : Option String
  state : TurnState
  deriving DecidableEq

/-- The part of a scope that names a compaction. -/
structure CompactionScope where
  commandId : Option String
  conversationId : String
  manual : Bool
  state : CompactionState
  deriving DecidableEq

/-- `CommandReceipt`. -/
structure CommandReceipt where
  kind : String
  state : ReceiptState
  deriving DecidableEq

/-- The tables `validateScope` reads, by their primary keys. -/
structure ScopeTables where
  provider : String → Option ProviderKind
  conversation : String → Option ConversationScope
  execution : String → Option ExecutionScope
  nativeSession : String → Option SessionScope
  turn : String → Option TurnScope
  compaction : String → Option CompactionScope
  receipt : String → Option CommandReceipt
  queuedMessage : String → Option QueuedMessage

/-- `canonicalJson`. -/
def canonicalJson (value : Value) : List Char := (canonicalValue value).text fun _ => []

/-- The bytes a payload or a queued content may have. -/
def maxPayloadBytes : ℕ := 64 * 1024 * 1024

/-- The payload repeats the row of the queue. -/
def matchesQueued (queued : QueuedMessage) (payload : Value) : Except String Bool := do
  check (jsonBytes queued.content ≤ maxPayloadBytes)
    "queued content must be a non-empty bounded string."
  match payload.get "content" with
  | none => .error "Delivery payload contains an unsupported value."
  | some content =>
    return canonicalJson queued.content = canonicalJson content &&
      sameField (payload.get "model") (some queued.model) &&
      sameField (payload.get "effort") queued.effort &&
      sameField (payload.get "serviceTier") queued.serviceTier &&
      sameField (payload.get "access") (some queued.access.text) &&
      sameField (some ((dropNull (payload.get "origin")).getD (.string "user")))
        (some queued.origin.text) &&
      canonicalJson (queued.trigger.getD .null) =
        canonicalJson ((dropNull (payload.get "trigger")).getD .null)

namespace PrepareDeliveryAttempt

variable (tables : ScopeTables) (input : PrepareDeliveryAttempt)

/-- The row of the queue that the command has in the conversation. -/
def queuedRow : Option QueuedMessage :=
  (tables.queuedMessage input.commandId).filter fun queued =>
    queued.conversationId = input.conversationId

/-- The first check of `validateScope`: the rows of the lane. -/
def laneMatches : Bool :=
  tables.provider input.providerInstanceId = some input.provider &&
    (tables.conversation input.conversationId).any (fun conversation =>
      conversation.providerInstanceId = input.providerInstanceId &&
        conversation.rootExecutionId = input.executionId) &&
    tables.execution input.executionId = some ⟨input.conversationId, input.providerInstanceId⟩ &&
    tables.nativeSession input.executionId = some ⟨input.nativeSessionId, input.providerInstanceId⟩

/-- The payload has the identities of the attempt. -/
def sameIdentities : Bool :=
  sameField (input.recoveryPayload.get "turnId") input.intendedTurnId &&
    sameField (input.recoveryPayload.get "clientMessageId") input.clientMessageId &&
    sameField (input.recoveryPayload.get "nativeClientMessageId") input.nativeClientMessageId

/-- `validateScope` of a steer. -/
def validateSteer : Except String Unit := do
  let payload := input.recoveryPayload
  let allowed := ["turnId", "clientMessageId", "nativeClientMessageId", "content", "model",
    "effort", "serviceTier", "access", "expectedNativeTurnId", "afterBlockId", "origin", "trigger"]
  let receipt := tables.receipt input.commandId
  let turn := input.intendedTurnId.bind tables.turn
  let queued := if receipt.any (·.state = .accepted) then
    (input.queuedRow tables).filter fun queued =>
      queued.deliveryIntent = .auto && queued.state = .dispatching
    else none
  let matchesQueuedInput ← match queued with
    | none => pure false
    | some queued =>
      if some queued.clientMessageId = input.clientMessageId then matchesQueued queued payload
      else pure false
  check (exactKeys payload allowed && input.sameIdentities &&
      receipt.any (fun receipt => receipt.kind = "turn.send" &&
        (receipt.state = .dispatching || matchesQueuedInput)) &&
      turn.any (fun turn => turn.conversationId = input.conversationId &&
        turn.executionId = input.executionId &&
        (tables.conversation input.conversationId).any (fun conversation =>
          conversation.activeTurnId.isSome && conversation.activeTurnId = input.intendedTurnId) &&
        (turn.state = .running || turn.state = .recovering) && turn.nativeTurnId.isSome &&
        sameField (payload.get "expectedNativeTurnId") turn.nativeTurnId))
    "Delivery steer attempt does not match its active turn and frozen input."

/-- `validateScope` of a compaction. -/
def validateCompact : Except String Unit := do
  let payload := input.recoveryPayload
  let operation := input.compactOperationId.bind tables.compaction
  let receipt := tables.receipt input.commandId
  validateActiveCompactPayload payload input.provider
  let active := ((tables.conversation input.conversationId).bind (·.activeTurnId)).bind tables.turn
  check ((payload.get "activeParent").all fun target =>
      sameField (target.get "nativeTurnId") (active.bind (·.nativeTurnId)))
    "Active Compact target does not match its current native parent."
  check (exactKeys payload ["operationId", "nativeInputUuid", "activeParent"] &&
      sameField (payload.get "operationId") input.compactOperationId &&
      sameField (dropNull (payload.get "nativeInputUuid")) input.nativeClientMessageId &&
      operation.any (fun operation => operation.commandId = some input.commandId &&
        operation.conversationId = input.conversationId && operation.manual &&
        operation.state = .running) &&
      receipt.any (fun receipt => receipt.kind = "conversation.compact" &&
        (receipt.state = .dispatching || receipt.state = .accepted)))
    "Delivery Compact attempt does not match its running manual operation."

/-- `validateScope` of a root turn. -/
def validateRoot : Except String Unit := do
  let payload := input.recoveryPayload
  let allowed := ["turnId", "clientMessageId", "nativeClientMessageId", "content", "model",
    "effort", "serviceTier", "access", "origin", "trigger"]
  check (exactKeys payload allowed && input.sameIdentities)
    "Delivery payload identities or fields do not match the root-turn allowlist."
  let mismatch := "Delivery root attempt does not match its accepted queued intent."
  check ((tables.receipt input.commandId).any fun receipt =>
    receipt.kind = "turn.send" && receipt.state = .accepted) mismatch
  match input.queuedRow tables with
  | none => .error mismatch
  | some queued => do
    check (some queued.turnId = input.intendedTurnId &&
      some queued.clientMessageId = input.clientMessageId) mismatch
    check (← matchesQueued queued payload) mismatch

/-- `validateScope`. -/
def validateScope : Except String Unit := do
  input.validateIdentifiers
  check (input.laneMatches tables)
    ("Delivery attempt scope does not match its provider, conversation, execution, and " ++
      "native session.")
  requireRecord input.recoveryPayload "delivery recovery payload"
  match input.kind with
  | .steer => input.validateSteer tables
  | .manualCompact => input.validateCompact tables
  | .rootTurn => input.validateRoot tables

/-- The attempt was prepared from the same input. -/
def repeats (previous : DeliveryAttempt) : Bool :=
  previous.kind = input.kind &&
    canonicalJson previous.recoveryPayload = canonicalJson input.recoveryPayload &&
    previous.provider = input.provider && previous.providerInstanceId = input.providerInstanceId &&
    previous.conversationId = input.conversationId && previous.executionId = input.executionId &&
    previous.intendedTurnId = input.intendedTurnId &&
    previous.clientMessageId = input.clientMessageId &&
    previous.nativeClientMessageId = input.nativeClientMessageId &&
    previous.nativeSessionId = input.nativeSessionId &&
    previous.compactOperationId = input.compactOperationId &&
    (input.processGeneration.isNone || previous.processGeneration = input.processGeneration)

end PrepareDeliveryAttempt

namespace DeliveryState

variable (s : DeliveryState)

/-- `byCommand`, before the row is decoded. -/
def byCommand (commandId : String) : Option AttemptRecord :=
  (s.attempts.entries.find? fun entry => entry.2.row.commandId = commandId).map fun entry => entry.2

/-- `prepare`, in a transaction: the journal it leaves and the attempt it
returns, or what it throws. -/
def prepareAttempt (tables : ScopeTables) (input : PrepareDeliveryAttempt) :
    Except Thrown (DeliveryState × DeliveryAttempt) := do
  check (input.ownerInstanceId = s.ownerInstanceId)
    (.failed "Delivery attempt preparation owner does not match this owner instance.")
  check (charBytes (canonicalJson input.recoveryPayload) ≤ maxPayloadBytes)
    (.failed "Delivery recovery payload exceeds 64 MiB.")
  orFail input.validateIdentifiers
  match s.byCommand input.commandId with
  | some previous => do
    let previous ← previous.require
    check (input.repeats previous)
      (.failed "Delivery command ID was reused with different immutable input.")
    return (s, previous)
  | none => do
    orFail (input.validateScope tables)
    check ((s.attempts.lookup input.attemptId).isNone && input.row.Checks) .constraint
    let s := s.prepare input true
    let attempt ← match s.attempts.lookup input.attemptId with
      | some record => record.require
      | none => .error .constraint
    return (s, attempt)

end DeliveryState

end Remux
