import Remux.Common.Assoc
import Remux.Common.Machine
import Remux.Delivery.Model.Row

/-!
# The owner of the delivery attempts

`delivery-attempt-owner.ts`. An operation works on the record of one
attempt: its row, its rows in `delivery_attempt_staging`, and a history
that is there for the statements only. It commits a record or throws, and
then nothing is changed.

`dispatch`, `reconcile` and the draining of an accepted attempt run as
drivers. A driver's step is one statement or transaction with the reads
before it, so that a run may stop, and another driver may go on, between
any two of them.
-/

namespace Remux

/-! ## Observations -/

/-- `ProviderEventScope`. -/
inductive ProviderEventScope where
  | account (providerInstanceId : String)
  | conversation (providerInstanceId conversationId executionId : String)
  | turn (providerInstanceId conversationId executionId turnId : String)
  | execution (providerInstanceId conversationId executionId : String)
  deriving DecidableEq

namespace ProviderEventScope

/-- The provider instance that a scope belongs to. -/
def providerInstanceId : ProviderEventScope → String
  | account id | conversation id _ _ | turn id _ _ _ | execution id _ _ => id

/-- The conversation of a scope, if it has one. -/
def conversationId : ProviderEventScope → Option String
  | account _ => none
  | conversation _ id _ | turn _ id _ _ | execution _ id _ => some id

/-- The execution of a scope, if it has one. -/
def executionId : ProviderEventScope → Option String
  | account _ => none
  | conversation _ _ id | turn _ _ id _ | execution _ _ id => some id

end ProviderEventScope

/-- The phases of a compaction. -/
inductive CompactionPhase where
  | started
  | completed
  | failed
  deriving DecidableEq

/-- What the owner reads of an event. -/
inductive ProviderEvent where
  | compaction (phase : CompactionPhase) (manual : Bool) (operationId : String)
  /-- The block of a native child, with its execution and session. -/
  | nativeChild (executionId : String) (nativeSessionId : Option String)
  | other
  deriving DecidableEq

/-- `ProviderEventEnvelope`, with the text it is stored as. -/
structure ProviderEventEnvelope where
  eventId : String
  provider : ProviderKind
  scope : ProviderEventScope
  nativeSessionId : Option String
  nativeMessageId : Option String
  nativeKind : String
  /-- `native.position.kind` is `native-sequence`. -/
  nativeSequence : Bool
  nativeSubjectKey : Option String
  observedAt : ℕ
  event : ProviderEvent
  json : String
  deriving DecidableEq

/-- A row of `delivery_attempt_staging`. -/
structure StagedRow where
  ordinal : ℕ
  observationId : String
  envelope : ProviderEventEnvelope
  deriving DecidableEq

namespace StagedRow

/-- `byte_length`. -/
def byteLength (row : StagedRow) : ℕ := row.envelope.json.utf8ByteSize

end StagedRow

/-- An envelope that was handed to a committed callback or append, and the
envelopes it was handed as. -/
structure Handing where
  source : ProviderEventEnvelope
  forms : List ProviderEventEnvelope
  deriving DecidableEq

/-- What happened to an attempt. -/
structure DeliveryHistory where
  /-- How often the callback of `admit` has taken effect. -/
  admissions : ℕ
  /-- What `rejectProviderResponse` has rejected it for. -/
  responseRejection : Option (ProviderRejectionEvidence × ProviderDeliveryError)
  /-- The envelopes `observe` has reported as staged, in order. -/
  observed : List ProviderEventEnvelope
  /-- The envelopes that were handed on, in order. -/
  handed : List Handing
  /-- The envelopes `observe` has refused. -/
  refused : List ProviderEventEnvelope

/-- An attempt in the journal. -/
structure AttemptRecord where
  row : DeliveryAttempt
  staging : List StagedRow
  history : DeliveryHistory

/-- `MAX_STAGE_BYTES`. -/
def maxStageBytes : ℕ := 64 * 1024 * 1024

/-- `MAX_STAGE_ROW_BYTES`. -/
def maxStageRowBytes : ℕ := 32 * 1024 * 1024

/-- `INSERT INTO delivery_attempt_staging`, with the constraints of the
table. -/
def insertStaged (rows : List StagedRow) (row : StagedRow) : Except String (List StagedRow) := do
  check (rows.all (fun old => old.ordinal ≠ row.ordinal && old.observationId ≠ row.observationId) &&
    row.ordinal < 256 && row.byteLength ≤ maxStageRowBytes)
    "constraint of delivery_attempt_staging"
  return rows ++ [row]

/-- `SELECT * FROM delivery_attempt_staging ... ORDER BY ordinal`. -/
def orderedStage (rows : List StagedRow) : List StagedRow :=
  rows.insertionSort fun a b => a.ordinal ≤ b.ordinal

/-- The reinsertion of the retained rows, from an ordinal on. -/
def renumberStaged : List StagedRow → ℕ → List StagedRow → Except String (List StagedRow)
  | rows, _, [] => return rows
  | rows, index, row :: retained => do
    renumberStaged (← insertStaged rows { row with ordinal := index }) (index + 1) retained

/-- `deleteStagedPrefix`. -/
def deleteStagedPrefix (rows : List StagedRow) (observationIds : List String) :
    Except String (List StagedRow) :=
  if observationIds = [] then return rows
  else renumberStaged [] 0
    (orderedStage (rows.filter fun row => !observationIds.contains row.observationId))

/-- `declaredNativeChildSession`. -/
def declaredNativeChildSession (envelope : ProviderEventEnvelope) (executionId : String) :
    Option String :=
  match envelope.event with
  | .nativeChild childExecutionId nativeSessionId =>
    if childExecutionId = executionId then nativeSessionId else none
  | _ => none

/-- `validateEnvelopeScope`. -/
def validateEnvelopeScope (a : DeliveryAttempt) (envelope : ProviderEventEnvelope)
    (declaredChildSession : Option String) : Except String Unit := do
  let scope := envelope.scope
  check (envelope.provider = a.provider && scope.providerInstanceId = a.providerInstanceId &&
    scope.conversationId = some a.conversationId)
    "Provider observation does not match delivery scope."
  check (scope.executionId = some a.executionId || declaredChildSession.isSome)
    "Provider observation execution is outside the unresolved root boundary."
  check (match scope with
    | .turn _ _ executionId turnId => a.kind = .manualCompact || executionId ≠ a.executionId ||
        some turnId = a.intendedTurnId
    | _ => true)
    "Provider observation turn is outside the unresolved root boundary."
  check (envelope.nativeSessionId =
    if scope.executionId = some a.executionId then some a.nativeSessionId
    else declaredChildSession)
    "Provider observation native session does not match delivery scope."
  check (match envelope.event with
    | .compaction _ manual operationId => a.kind ≠ .manualCompact || !manual ||
        some operationId = a.compactOperationId
    | _ => true)
    "Provider Compact observation does not match the frozen operation."

/-! ## The preparation of what is staged -/

/-- What the preparation has made of a row. -/
abbrev Prepared := List (StagedRow × List ProviderEventEnvelope)

/-- `prepareStagedProviderEvents`: the rows are transformed in order up to
the first one that cannot be. The forms of a row keep its identity. -/
def prepareStagedProviderEvents :
    List StagedRow → List (Option (List ProviderEventEnvelope)) → Except String Prepared
  | item :: source, some forms :: outcomes => do
    check (forms.all fun envelope => envelope.eventId = item.observationId)
      "Prepared provider event changed its durable observation identity."
    return (item, forms) :: (← prepareStagedProviderEvents source outcomes)
  | _, _ => return []

namespace Prepared

/-- `sourceObservationIds`. -/
def sourceObservationIds (prepared : Prepared) : List String :=
  prepared.map fun item => item.1.observationId

/-- What the callback is handed. -/
def handings (prepared : Prepared) : List Handing :=
  prepared.map fun item => ⟨item.1.envelope, item.2⟩

end Prepared

/-! ## Operations -/

/-- What an operation throws: the text of an error, or the refusal of a
statement by a constraint of `delivery_attempts`. -/
inductive Thrown where
  | failed (message : String)
  | constraint
  deriving DecidableEq

/-- A computation that throws an error with a text. -/
def orFail {α : Type} (x : Except String α) : Except Thrown α := x.mapError Thrown.failed

/-- What other parts of the journal answer: the `providerSubjectKey` of a
compaction operation, and whether a callback or an append throws. -/
structure JournalAnswer where
  providerSubjectKey : String → Option String
  append : Except String Unit

/-- What `observe` reports. -/
inductive ObserveResult where
  | staged
  | duplicate
  | conflict
  | overflow
  deriving DecidableEq

namespace AttemptRecord

variable (r : AttemptRecord)

/-- `require`. -/
def require : Except Thrown DeliveryAttempt := do
  orFail r.row.decodeVerified
  return r.row

/-- `staged`. -/
def staged : List StagedRow := orderedStage r.staging

/-- An `UPDATE` of the row. -/
def write (row : DeliveryAttempt) : Except Thrown AttemptRecord := do
  check row.Checks .constraint
  return { r with row }

variable (ownerInstanceId : String) (now : ℕ)

/-- `markPossiblySent`, but for the flag of its `dispatch`. -/
def markPossiblySent (sessionId : String) (generation : Option String) :
    Except Thrown AttemptRecord := do
  let attempt ← r.require
  check (attempt.ownerInstanceId = ownerInstanceId)
    (.failed "Delivery attempt belongs to another owner instance.")
  check (sessionId = attempt.nativeSessionId &&
      (attempt.processGeneration.isNone || generation = attempt.processGeneration))
    (.failed "Delivery crossing scope does not match the frozen native session.")
  check (attempt.state = .preparing)
    (.failed "Delivery attempt cannot cross from its current state.")
  r.write (r.row.cross now generation r.row.recovery)

/-- `markProviderSignalledCrossing`. -/
def markProviderSignalledCrossing (violation : String) : Except Thrown AttemptRecord := do
  let attempt ← r.require
  check (attempt.state = .preparing)
    (.failed "Provider crossing signal could not retain its delivery hold.")
  r.write (r.row.cross now none
    (some (r.row.recoveryDetail [("boundary_violation", .string violation)])))

/-- `reject`. -/
def reject (error : Entries) : Except Thrown AttemptRecord := do
  check (r.row.state = .preparing) (.failed "Delivery rejection CAS failed.")
  r.write (r.row.refuse now (boundedDeliveryError error))

/-- `unknown`. -/
def unknown (error : Entries) : Except Thrown AttemptRecord :=
  if r.row.state = .dispatching then
    r.write (r.row.hold now (some (r.row.recoveryDetail
      [("transport", .object (boundedDeliveryError error))])))
  else return r

/-- `markGap`. -/
def markGap (reason : String) : Except Thrown AttemptRecord := r.write (r.row.gap now reason)

/-- A staged row that is not a control of a known compaction of the
conversation. -/
def contradicts (answer : JournalAnswer) (row : StagedRow) : Bool :=
  match row.envelope.scope, row.envelope.event with
  | .conversation _ conversationId executionId, .compaction _ _ operationId =>
    conversationId ≠ r.row.conversationId || executionId ≠ r.row.executionId ||
      row.envelope.nativeSessionId ≠ some r.row.nativeSessionId ||
      (answer.providerSubjectKey operationId).getD "" = "" ||
      answer.providerSubjectKey operationId ≠ row.envelope.nativeSubjectKey
  | _, _ => true

/-- `rejectProviderResponse`. -/
def rejectProviderResponse (answer : JournalAnswer) (evidence : ProviderRejectionEvidence)
    (error : ProviderDeliveryError) : Except Thrown (AttemptRecord × Bool) := do
  let attempt ← r.require
  let staged := r.staged
  if attempt.provider ≠ .codex || attempt.kind ≠ .rootTurn ||
      (attempt.state ≠ .dispatching && attempt.state ≠ .unknown) ||
      evidence.threadId ≠ attempt.nativeSessionId ||
      (evidence.source = .rpcResponse && !evidence.requestId.any fun id => id.natAbs < 2 ^ 53) ||
      error.message ≠ codexActiveCompactRejection || attempt.acceptanceEvidence.isSome ||
      attempt.nativeTurnId.any (· ≠ "") || attempt.transcriptGap ||
      staged.any (r.contradicts answer) then
    return (r, false)
  else
    orFail answer.append
    let staging ← orFail (deleteStagedPrefix r.staging (staged.map StagedRow.observationId))
    let r ← r.write (r.row.refuseResponse now (refusalEntries error evidence))
    return ({ r with
      staging
      history := { r.history with
        responseRejection := some (evidence, error)
        handed := r.history.handed ++ staged.map fun row => ⟨row.envelope, [row.envelope]⟩ } },
      true)

/-- `recordAcceptance`. -/
def recordAcceptance (evidence : ProviderAcceptanceEvidence)
    (nativeTurnId nativeOperationId : Option String) : Except Thrown AttemptRecord := do
  let attempt ← r.require
  check (match evidence with
    | .claudeManualCompactBoundary .. | .claudeManualCompactStatus .. =>
      !attempt.transcriptGap || attempt.acceptanceEvidence.isSome
    | _ => true)
    (.failed "Claude Compact boundary cannot prove acceptance after a transcript gap.")
  orFail (attempt.validateEvidence evidence)
  check (jsonBytes evidence.toValue ≤ maxColumnBytes)
    (.failed "Acceptance evidence exceeds 64 KiB.")
  match attempt.acceptanceEvidence with
  | some current =>
    orFail (attempt.validateEvidence current)
    check (evidenceCompatible current evidence)
      (.failed "Contradictory delivery acceptance evidence.")
    check (nativeTurnId.getD "" = "" || attempt.nativeTurnId.getD "" = "" ||
        nativeTurnId = attempt.nativeTurnId)
      (.failed "Contradictory native turn identity in delivery acceptance evidence.")
    return r
  | none =>
    check (attempt.state = .dispatching || attempt.state = .unknown)
      (.failed "Delivery acceptance proof could not be persisted.")
    r.write (r.row.prove now evidence nativeTurnId nativeOperationId)

/-- `admit`. -/
def admitAttempt (prepared : Prepared) (callback : Except String Unit) :
    Except Thrown AttemptRecord := do
  let attempt ← r.require
  if attempt.state = .accepted then return r
  else
    check attempt.acceptanceEvidence.isSome
      (.failed "Delivery admission requires durable positive evidence.")
    orFail callback
    check (attempt.state = .dispatching || attempt.state = .unknown)
      (.failed "Delivery attempt acceptance CAS failed.")
    let r ← r.write (r.row.accept now)
    let staging ← orFail (deleteStagedPrefix r.staging prepared.sourceObservationIds)
    return { r with
      staging
      history := { r.history with
        admissions := r.history.admissions + 1
        handed := r.history.handed ++ prepared.handings } }

/-- `drainAccepted`. -/
def drainAccepted (prepared : Prepared) (append : Except String Unit) :
    Except Thrown AttemptRecord := do
  let attempt ← r.require
  check (attempt.state = .accepted) (.failed "Only an accepted attempt can drain its suffix.")
  orFail append
  let staging ← orFail (deleteStagedPrefix r.staging prepared.sourceObservationIds)
  return { r with
    staging
    history := { r.history with handed := r.history.handed ++ prepared.handings } }

/-- The session a staged row declares for a child execution. -/
def declaredChildSession (executionId : String) : Option String :=
  r.staged.findSome? fun row =>
    (declaredNativeChildSession row.envelope executionId).filter (· ≠ "")

/-- `observe`. -/
def observe (envelope : ProviderEventEnvelope) : Except Thrown (AttemptRecord × ObserveResult) := do
  let attempt ← r.require
  let declared := match envelope.scope.executionId with
    | some executionId =>
      if executionId = attempt.executionId then none else r.declaredChildSession executionId
    | none => none
  orFail (validateEnvelopeScope attempt envelope declared)
  let bytes := envelope.json.utf8ByteSize
  let refused := { r with
    history := { r.history with refused := r.history.refused ++ [envelope] } }
  match r.staging.find? fun row => row.observationId = envelope.eventId with
  | some row =>
    if row.envelope.json = envelope.json then return (r, .duplicate)
    else return (← refused.markGap now "observation_identity_conflict", .conflict)
  | none =>
    if 256 ≤ r.staging.length || maxStageRowBytes < bytes ||
        maxStageBytes < (r.staging.map StagedRow.byteLength).sum + bytes then
      return (← refused.markGap now "stage_overflow", .overflow)
    else
      let staging ← orFail (insertStaged r.staging ⟨r.staging.length, envelope.eventId, envelope⟩)
      return ({ r with
        staging
        history := { r.history with observed := r.history.observed ++ [envelope] } }, .staged)

/-- `markStreamGap`, for one attempt. -/
def markStreamGap (executionId generation reason : String) : Except Thrown AttemptRecord :=
  if r.row.executionId = executionId && r.row.processGeneration = some generation &&
      (r.row.state = .dispatching || r.row.state = .unknown) then
    r.markGap now reason
  else return r

/-- A staged row that is the boundary of the attempt's own compaction. -/
def isCompactBoundary (row : StagedRow) : Bool :=
  let envelope := row.envelope
  envelope.provider = .claudeCode &&
    envelope.scope = .conversation r.row.providerInstanceId r.row.conversationId
      r.row.executionId &&
    envelope.nativeSessionId = some r.row.nativeSessionId &&
    envelope.nativeKind = "system/compact_boundary" && envelope.nativeSequence &&
    envelope.nativeMessageId.any (· ≠ "") && r.row.crossedAt.any (· ≤ envelope.observedAt) &&
    r.row.compactOperationId.any fun operationId =>
      envelope.event = .compaction .completed true operationId

/-- `recoverCompactionEvidence`. -/
def recoverCompactionEvidence : Except Thrown AttemptRecord := do
  let attempt ← r.require
  match attempt.processGeneration, r.staged.filter r.isCompactBoundary with
  | some generation, [boundary] =>
    if attempt.kind = .manualCompact && attempt.provider = .claudeCode &&
        attempt.state = .unknown && attempt.acceptanceEvidence.isNone && !attempt.transcriptGap &&
        generation ≠ "" && attempt.crossedAt.isSome then
      r.recordAcceptance now (.claudeManualCompactBoundary attempt.nativeSessionId
        (boundary.envelope.nativeMessageId.getD "") generation) none none
    else return r
  | _, _ => return r

/-- The transport error `unknown` has recorded. -/
def recordedTransport : Option Value := (r.row.recovery.getD []).lookup "transport"

/-- The first loop of `recover`, for one attempt: a recorded answer that is
the exact rejection is taken for it. -/
def recoverRejected (answer : JournalAnswer) : Except Thrown AttemptRecord := do
  let transport := r.recordedTransport
  if r.row.provider = .codex && r.row.kind = .rootTurn && r.row.state = .unknown &&
      (transport.bind (·.get "code")).bind Value.asStr = some "codex_request_failed" &&
      (transport.bind (·.get "message")).bind Value.asStr = some codexActiveCompactRejection then
    return (← r.rejectProviderResponse now answer
      ⟨r.row.nativeSessionId, .legacyRecordedResponse, none⟩
      ⟨"codex_active_compaction", codexActiveCompactRejection, none⟩).1
  else return r

/-- The second loop of `recover`, for one attempt. -/
def recoverHeld : Except Thrown AttemptRecord :=
  match r.row.state with
  | .preparing => do
    let attempt ← r.require
    if attempt.ownerInstanceId ≠ ownerInstanceId then r.write (r.row.note now "owner_unresolved")
    else return r
  | .dispatching => do
    let _ ← r.require
    r.write (r.row.hold now r.row.recovery)
  | _ => return r

/-- `abandon`. -/
def abandon (resolutionCommandId : String) : Except Thrown AttemptRecord := do
  let attempt ← r.require
  check (attempt.state = .unknown && attempt.acceptanceEvidence.isNone && !attempt.transcriptGap &&
      r.staged.isEmpty && attempt.kind ≠ .manualCompact)
    (.failed ("Only an unconfirmed message without acceptance or staged observations " ++
      "can be abandoned."))
  r.write (r.row.giveUp now (r.row.recoveryDetail
    [("resolution", .object [("kind", .string "user-abandoned"),
      ("commandId", .string resolutionCommandId),
      ("resolvedAt", jsonInteger (r.row.transitionTime now)),
      ("deliveryOutcome", .string "unknown")])]))

end AttemptRecord

end Remux
