import Mathlib.Algebra.Group.Int.Defs
import Remux.Json.Model.Text
import Remux.Common.Throws

/-!
# A delivery attempt

The row of `delivery_attempts`, what `decodeVerified` and
`validateEvidence` demand of it, and the constraints of the table. The
columns that hold JSON have it parsed. The hash of the payload, which is
written with it and never changed, is left out; of numbers only the whole
ones are there.
-/

namespace Remux

/-- The kinds of what is delivered. -/
inductive DeliveryAttemptKind where
  | rootTurn
  | steer
  | manualCompact
  deriving DecidableEq

/-- The kinds of providers. -/
inductive ProviderKind where
  | codex
  | claudeCode
  | fixture
  deriving DecidableEq

/-- The states of an attempt. -/
inductive DeliveryAttemptState where
  | preparing
  | dispatching
  | accepted
  | rejected
  | unknown
  | abandoned
  deriving DecidableEq

/-- The states of a compaction that is reported to its session. -/
inductive CompactStatus where
  | compacting
  | failed
  deriving DecidableEq

/-- `ProviderAcceptanceEvidence`. -/
inductive ProviderAcceptanceEvidence where
  | codexTurnStartResponse (threadId turnId nativeClientMessageId : String)
  | codexTurnSteerResponse (threadId turnId nativeClientMessageId : String)
  | codexCompactResponse (threadId : String) (requestId : ℤ) (connectionGeneration : String)
  | codexHistoryClientId (threadId nativeClientMessageId : String) (nativeTurnId : Option String)
  | claudeInputReplay (sessionId userMessageUuid nativeTurnId processGeneration : String)
  | claudeRootProcessing (sessionId userMessageUuid observationUuid : String)
  | claudeManualCompactBoundary (sessionId boundaryUuid processGeneration : String)
  | claudeManualCompactStatus (sessionId inputUuid statusUuid processGeneration : String)
      (status : CompactStatus)
  | fixtureCorrelatedAcceptance (sessionId commandId : String) (nativeTurnId : Option String)
  deriving DecidableEq

/-- The entries of a JSON object. -/
abbrev Entries := List (String × Value)

/-- The row of an attempt. -/
structure DeliveryAttempt where
  attemptId : String
  commandId : String
  kind : DeliveryAttemptKind
  provider : ProviderKind
  providerInstanceId : String
  conversationId : String
  executionId : String
  intendedTurnId : Option String
  clientMessageId : Option String
  nativeClientMessageId : Option String
  compactOperationId : Option String
  recoveryPayload : Value
  nativeSessionId : String
  processGeneration : Option String
  nativeTurnId : Option String
  nativeOperationId : Option String
  ownerInstanceId : String
  state : DeliveryAttemptState
  crossedAt : Option ℕ
  acceptedAt : Option ℕ
  rejectedAt : Option ℕ
  unknownAt : Option ℕ
  acceptanceEvidence : Option ProviderAcceptanceEvidence
  rejection : Option Entries
  recovery : Option Entries
  transcriptGap : Bool
  createdAt : ℕ
  updatedAt : ℕ

/-! ## Identifiers and fields -/

/-- The characters of an identifier after the first. -/
def isIdentifierChar (c : Char) : Bool := c.isAlphanum || "._:/@+-".toList.contains c

/-- `identifier`. -/
def identifier (value : Option Value) (name : String) : Except String String := do
  let text := (value.bind Value.asStr).getD ""
  check (text ≠ "" && text.utf8ByteSize ≤ 512) (name ++ " must be a non-empty bounded string.")
  check (text.toList.head?.any Char.isAlphanum && text.toList.all isIdentifierChar)
    (name ++ " contains unsupported identifier characters.")
  return text

/-- `identifier` of a text. -/
def textIdentifier (text name : String) : Except String String :=
  identifier (some (.string text)) name

/-- `optionalIdentifier`. -/
def optionalIdentifier (text : Option String) (name : String) : Except String (Option String) :=
  match text with
  | none => return none
  | some text => some <$> textIdentifier text name

/-- The field of a payload is the same as the one of the attempt, where
both may be missing. -/
def sameField (value : Option Value) (field : Option String) : Bool :=
  match value with
  | none => field.isNone
  | some value => field.isSome && value.asStr = field

/-- `payload.field ?? undefined`. -/
def dropNull : Option Value → Option Value
  | some .null => none
  | value => value

/-- `exactKeys`. -/
def exactKeys (value : Value) (allowed : List String) : Bool :=
  match value with
  | .object entries => entries.all fun entry => allowed.contains entry.1
  | _ => false

/-- `requireRecord`. -/
def requireRecord (value : Value) (name : String) : Except String Unit :=
  check (match value with | .object _ => true | _ => false) (name ++ " must be an object.")

/-- `options.includes(String(value))`, where no option has a comma: the
text itself, or a list of just such a value. -/
def includesText (options : List String) : Value → Bool
  | .string text => options.contains text
  | .array [value] => includesText options value
  | _ => false

/-- The field is missing or is a text. -/
def optionalText (value : Option Value) : Bool := value.all fun value => value.asStr.isSome

/-! ## The frozen shape -/

/-- `validTurnTrigger`. -/
def validTurnTrigger (value : Value) : Bool :=
  exactKeys value ["kind", "childExecutionId", "summary"] &&
    ((value.get "kind").bind Value.asStr = some "federation" ||
      (value.get "kind").bind Value.asStr = some "native-child") &&
    ((value.get "childExecutionId").all fun child =>
      (identifier (some child) "trigger child").isOk) &&
    ((value.get "summary").all fun summary =>
      summary.asStr.any fun text => decide (text.utf8ByteSize ≤ 65536))

/-- `validateActiveCompactPayload`. -/
def validateActiveCompactPayload (payload : Value) (provider : ProviderKind) : Except String Unit :=
  match payload.get "activeParent" with
  | none => return ()
  | some target => do
    requireRecord target "active Compact target"
    let toolUseIds := match target.get "toolUseIds" with
      | some (.array ids) => ids
      | _ => []
    check (provider = .claudeCode && exactKeys target ["nativeTurnId", "toolUseIds"] &&
        toolUseIds.length ≠ 0 && toolUseIds.length ≤ 128 &&
        decide (toolUseIds.filterMap Value.asStr).Nodup)
      "Invalid active Compact target."
    let _ ← identifier (target.get "nativeTurnId") "active Compact native turn"
    toolUseIds.forM fun id => do
      let _ ← identifier (some id) "active Compact tool use"

namespace DeliveryAttempt

variable (a : DeliveryAttempt)

/-- `validateDecodedRootPayload`. -/
def validateDecodedRootPayload : Except String Unit := do
  let payload := a.recoveryPayload
  requireRecord payload "delivery recovery payload"
  match a.kind with
  | .manualCompact =>
    validateActiveCompactPayload payload a.provider
    check (exactKeys payload ["operationId", "nativeInputUuid", "activeParent"] &&
        sameField (payload.get "operationId") a.compactOperationId &&
        sameField (dropNull (payload.get "nativeInputUuid")) a.nativeClientMessageId)
      "Durable Compact payload does not match its frozen attempt shape."
  | kind =>
    let mismatch :=
      "Durable root recovery payload does not match its frozen attempt shape."
    let allowed := ["turnId", "clientMessageId", "nativeClientMessageId", "content", "model",
      "effort", "serviceTier", "access", "origin", "trigger"] ++
      (if kind = .steer then ["expectedNativeTurnId", "afterBlockId"] else [])
    check (exactKeys payload allowed && sameField (payload.get "turnId") a.intendedTurnId &&
        ((payload.get "origin").all
          (includesText ["user", "native-followup", "federation-notification"])) &&
        (payload.get "trigger").all validTurnTrigger &&
        sameField (payload.get "clientMessageId") a.clientMessageId &&
        sameField (payload.get "nativeClientMessageId") a.nativeClientMessageId &&
        (payload.get "content").any (fun content => match content with
          | .array _ => true
          | _ => false) &&
        ((payload.get "model").bind Value.asStr).any (· ≠ "") &&
        optionalText (payload.get "effort") && optionalText (payload.get "serviceTier"))
      mismatch
    if kind = .steer then
      check (payload.get "expectedNativeTurnId").isSome mismatch
      let _ ← identifier (payload.get "expectedNativeTurnId") "expectedNativeTurnId"
    check ((payload.get "access").any
      (includesText ["read-only", "workspace-write", "full-access"])) mismatch

/-- The identifiers of the row, with their columns. -/
def identifiers : List (Option String × String) :=
  [(some a.attemptId, "attempt_id"), (some a.commandId, "command_id"),
    (some a.providerInstanceId, "provider_instance_id"),
    (some a.conversationId, "conversation_id"), (some a.executionId, "execution_id"),
    (a.intendedTurnId, "intended_turn_id"), (a.clientMessageId, "client_message_id"),
    (a.nativeClientMessageId, "native_client_message_id"),
    (a.compactOperationId, "compact_operation_id"), (some a.nativeSessionId, "native_session_id"),
    (a.processGeneration, "process_generation"), (a.nativeTurnId, "native_turn_id"),
    (a.nativeOperationId, "native_operation_id"), (some a.ownerInstanceId, "owner_instance_id")]

/-- `validShape`: which of the frozen identifiers are there. -/
def validShape : Bool :=
  match a.kind with
  | .manualCompact =>
    a.intendedTurnId.isNone && a.clientMessageId.isNone && a.compactOperationId.isSome
  | _ => a.intendedTurnId.isSome && a.clientMessageId.isSome &&
    a.nativeClientMessageId.isSome && a.compactOperationId.isNone

/-- `decodeAttempt`. -/
def decodeAttempt : Except String Unit := do
  a.identifiers.forM fun column => do
    let _ ← optionalIdentifier column.1 column.2
  check (a.crossedAt.all (· < 2 ^ 53)) "crossed_at must be a nonnegative safe integer."
  check a.validShape "Durable delivery attempt has an invalid frozen shape."

/-! ## Acceptance evidence -/

/-- `payload.expectedNativeTurnId`, where it is a text. -/
def expectedNativeTurnId : Option String :=
  (a.recoveryPayload.get "expectedNativeTurnId").bind Value.asStr

/-- `validateEvidence`, which is `validateRootEvidence`. -/
def validateEvidence : ProviderAcceptanceEvidence → Except String Unit
  | .codexTurnStartResponse threadId turnId nativeClientMessageId => do
    let threadId ← textIdentifier threadId "threadId"
    let turnId ← textIdentifier turnId "turnId"
    let clientId ← textIdentifier nativeClientMessageId "nativeClientMessageId"
    check (a.kind = .rootTurn && a.provider = .codex && threadId = a.nativeSessionId &&
        some clientId = a.nativeClientMessageId && a.nativeTurnId.all (turnId = ·))
      "Codex acceptance evidence does not match frozen delivery scope."
  | .codexHistoryClientId threadId nativeClientMessageId nativeTurnId => do
    let threadId ← textIdentifier threadId "threadId"
    let clientId ← textIdentifier nativeClientMessageId "nativeClientMessageId"
    let turnId ← optionalIdentifier nativeTurnId "nativeTurnId"
    let validRoot := a.kind = .rootTurn &&
      (a.nativeTurnId.isNone || turnId.isNone || turnId = a.nativeTurnId)
    let validSteer := a.kind = .steer && turnId.isSome && turnId = a.expectedNativeTurnId
    check ((validRoot || validSteer) && a.provider = .codex && threadId = a.nativeSessionId &&
        some clientId = a.nativeClientMessageId && !(a.kind = .steer && turnId.isNone))
      "Codex history evidence does not match frozen delivery scope."
  | .codexTurnSteerResponse threadId turnId nativeClientMessageId => do
    let mismatch := "Codex steer evidence does not match frozen delivery scope."
    check (a.kind = .steer && a.provider = .codex) mismatch
    check ((← textIdentifier threadId "threadId") = a.nativeSessionId) mismatch
    check (some (← textIdentifier nativeClientMessageId "nativeClientMessageId") =
      a.nativeClientMessageId) mismatch
    check (some (← textIdentifier turnId "turnId") = a.expectedNativeTurnId) mismatch
  | .codexCompactResponse threadId requestId connectionGeneration => do
    let mismatch :=
      "Codex Compact evidence does not match frozen delivery scope."
    check (a.kind = .manualCompact && a.provider = .codex) mismatch
    check ((← textIdentifier threadId "threadId") = a.nativeSessionId) mismatch
    check (0 ≤ requestId && requestId < 2 ^ 53) mismatch
    check (some (← textIdentifier connectionGeneration "connectionGeneration") =
      a.processGeneration) mismatch
  | .claudeInputReplay sessionId userMessageUuid nativeTurnId processGeneration => do
    let mismatch := "Claude input replay does not match frozen delivery scope."
    check (a.kind = .steer && a.provider = .claudeCode) mismatch
    check ((← textIdentifier sessionId "sessionId") = a.nativeSessionId) mismatch
    check (some (← textIdentifier userMessageUuid "userMessageUuid") =
      a.nativeClientMessageId) mismatch
    check (some (← textIdentifier nativeTurnId "nativeTurnId") = a.expectedNativeTurnId) mismatch
    check (some (← textIdentifier processGeneration "processGeneration") =
      a.processGeneration) mismatch
  | .claudeRootProcessing sessionId userMessageUuid observationUuid => do
    let sessionId ← textIdentifier sessionId "sessionId"
    let inputUuid ← textIdentifier userMessageUuid "userMessageUuid"
    let _ ← textIdentifier observationUuid "observationUuid"
    check (a.kind = .rootTurn && a.provider = .claudeCode && sessionId = a.nativeSessionId &&
        some inputUuid = a.nativeClientMessageId)
      "Claude acceptance evidence does not match frozen delivery scope."
  | .claudeManualCompactBoundary sessionId boundaryUuid processGeneration => do
    let mismatch :=
      "Claude Compact evidence does not match frozen delivery scope."
    check (a.kind = .manualCompact && a.provider = .claudeCode) mismatch
    check ((← textIdentifier sessionId "sessionId") = a.nativeSessionId) mismatch
    check (some (← textIdentifier processGeneration "processGeneration") =
      a.processGeneration) mismatch
    let _ ← textIdentifier boundaryUuid "boundaryUuid"
  | .claudeManualCompactStatus sessionId inputUuid statusUuid processGeneration _ => do
    let mismatch :=
      "Claude Compact status evidence does not match frozen delivery scope."
    check (a.kind = .manualCompact && a.provider = .claudeCode) mismatch
    check ((← textIdentifier sessionId "sessionId") = a.nativeSessionId) mismatch
    check (some (← textIdentifier inputUuid "inputUuid") = a.nativeClientMessageId) mismatch
    check (some (← textIdentifier processGeneration "processGeneration") =
      a.processGeneration) mismatch
    let _ ← textIdentifier statusUuid "statusUuid"
  | .fixtureCorrelatedAcceptance sessionId commandId nativeTurnId => do
    let sessionId ← textIdentifier sessionId "sessionId"
    let commandId ← textIdentifier commandId "commandId"
    let turnId ← optionalIdentifier nativeTurnId "nativeTurnId"
    let expectedCommandId :=
      if a.kind = .manualCompact then a.compactOperationId else some a.commandId
    check (a.provider = .fixture && sessionId = a.nativeSessionId &&
        some commandId = expectedCommandId &&
        (a.nativeTurnId.isNone || turnId.isNone || turnId = a.nativeTurnId))
      "Fixture acceptance evidence does not match frozen delivery scope."

/-- `decodeVerified`. -/
def decodeVerified : Except String Unit := do
  a.decodeAttempt
  a.validateDecodedRootPayload
  match a.acceptanceEvidence with
  | none => return ()
  | some evidence => a.validateEvidence evidence

end DeliveryAttempt

/-- What identifies a turn of Codex in the evidence for its start. -/
def codexIdentity : ProviderAcceptanceEvidence → Option (String × String × Option String)
  | .codexTurnStartResponse threadId turnId clientId => some (threadId, clientId, some turnId)
  | .codexHistoryClientId threadId clientId turnId => some (threadId, clientId, turnId)
  | _ => none

/-- `evidenceCompatible`. A turn's id that is missing or empty agrees with
any. -/
def evidenceCompatible (left right : ProviderAcceptanceEvidence) : Bool :=
  match left, right with
  | .claudeInputReplay .., .claudeInputReplay .. => left = right
  | .claudeManualCompactStatus session input _ generation _,
    .claudeManualCompactStatus session' input' _ generation' _ =>
    session = session' && input = input' && generation = generation'
  | .claudeRootProcessing session user _, .claudeRootProcessing session' user' _ =>
    session = session' && user = user'
  | .fixtureCorrelatedAcceptance .., .fixtureCorrelatedAcceptance .. => left = right
  | .codexTurnSteerResponse .., .codexTurnSteerResponse .. => left = right
  | .codexCompactResponse .., .codexCompactResponse .. => left = right
  | .claudeManualCompactBoundary .., .claudeManualCompactBoundary .. => left = right
  | _, _ =>
    match codexIdentity left, codexIdentity right with
    | some (thread, client, turn), some (thread', client', turn') =>
      thread = thread' && client = client' &&
        (turn.getD "" = "" || turn'.getD "" = "" || turn = turn')
    | _, _ => false

end Remux
