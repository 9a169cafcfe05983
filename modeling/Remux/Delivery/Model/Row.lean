import Mathlib.Algebra.GroupWithZero.Nat
import Remux.Delivery.Model.Attempt

/-!
# The columns of an attempt and their constraints

What is written in the JSON columns, the `CHECK` constraints of
`delivery_attempts`, and the updates of a row, one for each statement. A
text is cut by the UTF-16 units JavaScript counts; the half of a pair that
such a cut leaves is dropped here.
-/

namespace Remux

/-! ## JSON columns -/

/-- The bytes of a text in UTF-8. -/
def charBytes (text : List Char) : ℕ := (text.map Char.utf8Size).sum

/-- `Buffer.byteLength(JSON.stringify(value))`. No column has a number that
is not whole. -/
def jsonBytes (value : Value) : ℕ := charBytes (value.text fun _ => [])

/-- The UTF-16 units of a character. -/
def utf16Units (c : Char) : ℕ := if c.toNat < 0x10000 then 1 else 2

/-- `text.length`. -/
def utf16Length (text : String) : ℕ := (text.toList.map utf16Units).sum

/-- The first characters that fit in a number of units. -/
def takeUnits : ℕ → List Char → List Char
  | _, [] => []
  | n, c :: cs => if utf16Units c ≤ n then c :: takeUnits (n - utf16Units c) cs else []

/-- `text.slice(0, n)`. -/
def sliceText (n : ℕ) (text : String) : String := String.ofList (takeUnits n text.toList)

/-- A whole number. -/
def jsonInteger (n : ℤ) : Value :=
  if h : Int64.ofInt n < 0 then .number (.negInt ⟨Int64.ofInt n, h⟩)
  else .number (.posInt (UInt64.ofNat n.toNat))

/-- An entry that is left out where there is no value. -/
def optionalEntry (key : String) (value : Option Value) : Entries :=
  value.toList.map fun value => (key, value)

/-- `{ ...previous, ...detail }`. -/
def spread (previous detail : Entries) : Entries :=
  previous.map (fun entry => (entry.1, (detail.lookup entry.1).getD entry.2)) ++
    detail.filter fun entry => !previous.any fun old => old.1 == entry.1

/-- `JSON.stringify(evidence)`, as an object. -/
def ProviderAcceptanceEvidence.toValue : ProviderAcceptanceEvidence → Value
  | codexTurnStartResponse threadId turnId nativeClientMessageId =>
    .object [("kind", .string "codex-turn-start-response"), ("threadId", .string threadId),
      ("turnId", .string turnId), ("nativeClientMessageId", .string nativeClientMessageId)]
  | codexTurnSteerResponse threadId turnId nativeClientMessageId =>
    .object [("kind", .string "codex-turn-steer-response"), ("threadId", .string threadId),
      ("turnId", .string turnId), ("nativeClientMessageId", .string nativeClientMessageId)]
  | codexCompactResponse threadId requestId connectionGeneration =>
    .object [("kind", .string "codex-compact-response"), ("threadId", .string threadId),
      ("requestId", jsonInteger requestId), ("connectionGeneration", .string connectionGeneration)]
  | codexHistoryClientId threadId nativeClientMessageId nativeTurnId =>
    .object ([("kind", .string "codex-history-client-id"), ("threadId", .string threadId),
      ("nativeClientMessageId", .string nativeClientMessageId)] ++
      optionalEntry "nativeTurnId" (nativeTurnId.map .string))
  | claudeInputReplay sessionId userMessageUuid nativeTurnId processGeneration =>
    .object [("kind", .string "claude-input-replay"), ("sessionId", .string sessionId),
      ("userMessageUuid", .string userMessageUuid), ("nativeTurnId", .string nativeTurnId),
      ("processGeneration", .string processGeneration)]
  | claudeRootProcessing sessionId userMessageUuid observationUuid =>
    .object [("kind", .string "claude-root-processing"), ("sessionId", .string sessionId),
      ("userMessageUuid", .string userMessageUuid), ("observationUuid", .string observationUuid)]
  | claudeManualCompactBoundary sessionId boundaryUuid processGeneration =>
    .object [("kind", .string "claude-manual-compact-boundary"), ("sessionId", .string sessionId),
      ("boundaryUuid", .string boundaryUuid), ("processGeneration", .string processGeneration),
      ("trigger", .string "manual")]
  | claudeManualCompactStatus sessionId inputUuid statusUuid processGeneration status =>
    .object [("kind", .string "claude-manual-compact-status"), ("sessionId", .string sessionId),
      ("inputUuid", .string inputUuid), ("statusUuid", .string statusUuid),
      ("processGeneration", .string processGeneration),
      ("status", .string (if status = .compacting then "compacting" else "failed"))]
  | fixtureCorrelatedAcceptance sessionId commandId nativeTurnId =>
    .object ([("kind", .string "fixture-correlated-acceptance"), ("sessionId", .string sessionId),
      ("commandId", .string commandId)] ++
      optionalEntry "nativeTurnId" (nativeTurnId.map .string))

/-- Where the evidence of a rejection was found. -/
inductive RejectionSource where
  | rpcResponse
  | legacyRecordedResponse
  deriving DecidableEq

/-- The text of a rejection's source. -/
def RejectionSource.text : RejectionSource → String
  | rpcResponse => "rpc-response"
  | legacyRecordedResponse => "legacy-recorded-response"

/-- `ProviderRejectionEvidence`, whose kind is
`codex-active-compact-rejection` and whose native code is -32603. -/
structure ProviderRejectionEvidence where
  threadId : String
  source : RejectionSource
  requestId : Option ℤ
  deriving DecidableEq

/-- The fields of the evidence, as they are written. -/
def ProviderRejectionEvidence.toEntries (evidence : ProviderRejectionEvidence) : Entries :=
  [("kind", .string "codex-active-compact-rejection"), ("threadId", .string evidence.threadId),
    ("nativeCode", jsonInteger (-32603)),
    ("source", .string evidence.source.text)] ++
    optionalEntry "requestId" (evidence.requestId.map jsonInteger)

/-- `ProviderDeliveryError`. -/
structure ProviderDeliveryError where
  code : String
  message : String
  retryable : Option Bool
  deriving DecidableEq

/-- The fields of the error, as they are written. -/
def ProviderDeliveryError.toEntries (error : ProviderDeliveryError) : Entries :=
  [("code", .string error.code), ("message", .string error.message)] ++
    optionalEntry "retryable" (error.retryable.map .bool)

/-- `boundedDeliveryError`. -/
def boundedDeliveryError (record : Entries) : Entries :=
  let originalMessage := ((record.lookup "message").bind Value.asStr).getD "[object Object]"
  let message := sliceText 8192 originalMessage
  [("code", .string ((((record.lookup "code").bind Value.asStr).map (sliceText 256)).getD
      "provider_delivery_failed")),
    ("message", .string message)] ++
    optionalEntry "truncated"
      (if utf16Length message < utf16Length originalMessage then some (.bool true) else none) ++
    optionalEntry "retryable" (((record.lookup "retryable").bind Value.asBool).map .bool) ++
    optionalEntry "boundaryViolation"
      ((((record.lookup "boundaryViolation").bind Value.asStr).filter (· ≠ "")).map fun text =>
        .string (sliceText 256 text))

/-- `deliveryError`. -/
def deliveryError (message : String) : ProviderDeliveryError where
  code := "provider_delivery_failed"
  message := sliceText 8192 message
  retryable := some true

/-- `{ ...error, evidence }`. -/
def refusalEntries (error : ProviderDeliveryError) (evidence : ProviderRejectionEvidence) :
    Entries :=
  spread error.toEntries [("evidence", .object evidence.toEntries)]

/-- What the exact rejection of an input during a compaction says. -/
def codexActiveCompactRejection : String :=
  "Codex App Server turn/start failed (-32603): failed to submit turn input: " ++
    "ActiveTurnNotSteerable \x7b turn_kind: Compact \x7d"

/-- The bytes a JSON column may have. -/
def maxColumnBytes : ℕ := 65536

/-! ## The constraints of the table -/

namespace DeliveryAttempt

/-- `json_extract(rejection_json, '$.evidence.kind')`. -/
def rejectionEvidenceKind (a : DeliveryAttempt) : Option String :=
  ((a.rejection.getD []).lookup "evidence").bind fun evidence =>
    (evidence.get "kind").bind Value.asStr

/-- A time a column has lies between the times of the row. -/
def Timed (a : DeliveryAttempt) (time : Option ℕ) : Prop :=
  ∀ t ∈ time, a.createdAt ≤ t ∧ t ≤ a.updatedAt

instance (a : DeliveryAttempt) (time : Option ℕ) : Decidable (a.Timed time) :=
  inferInstanceAs (Decidable (∀ t ∈ time, _))

/-- Which states have been crossed. -/
def CrossedShape (a : DeliveryAttempt) : Prop :=
  a.state = .preparing ∧ a.crossedAt = none ∨
    a.state = .rejected ∧ (a.crossedAt = none ∨ a.provider = .codex ∧ a.kind = .rootTurn ∧
      a.rejectionEvidenceKind = some "codex-active-compact-rejection") ∨
    (a.state = .dispatching ∨ a.state = .accepted ∨ a.state = .unknown ∨ a.state = .abandoned) ∧
      a.crossedAt.isSome

instance (a : DeliveryAttempt) : Decidable a.CrossedShape :=
  inferInstanceAs (Decidable (_ ∧ _ ∨ _ ∧ _ ∨ _ ∧ _))

/-- **The `CHECK` constraints of `delivery_attempts`** that the types do not
make hold. -/
structure Checks (a : DeliveryAttempt) : Prop where
  acceptance_size : ∀ e ∈ a.acceptanceEvidence, jsonBytes e.toValue ≤ maxColumnBytes
  rejection_size : ∀ e ∈ a.rejection, jsonBytes (.object e) ≤ maxColumnBytes
  recovery_size : ∀ e ∈ a.recovery, jsonBytes (.object e) ≤ maxColumnBytes
  updated : a.createdAt ≤ a.updatedAt
  shape : a.validShape = true
  crossed : a.CrossedShape
  accepted_iff : a.state = .accepted ↔ a.acceptedAt.isSome
  rejected_iff : a.state = .rejected ↔ a.rejectedAt.isSome
  unknown_iff : a.state = .unknown ∨ a.state = .abandoned ↔ a.unknownAt.isSome
  accepted_evidence : a.state = .accepted → a.acceptanceEvidence.isSome
  evidence_state : a.acceptanceEvidence.isSome →
    a.state = .dispatching ∨ a.state = .unknown ∨ a.state = .accepted
  rejection_iff : a.state = .rejected ↔ a.rejection.isSome
  crossed_time : a.Timed a.crossedAt
  accepted_time : a.Timed a.acceptedAt
  rejected_time : a.Timed a.rejectedAt
  unknown_time : a.Timed a.unknownAt

instance (a : DeliveryAttempt) : Decidable a.Checks :=
  decidable_of_iff ((∀ e ∈ a.acceptanceEvidence, jsonBytes e.toValue ≤ maxColumnBytes) ∧
      (∀ e ∈ a.rejection, jsonBytes (.object e) ≤ maxColumnBytes) ∧
      (∀ e ∈ a.recovery, jsonBytes (.object e) ≤ maxColumnBytes) ∧
      a.createdAt ≤ a.updatedAt ∧ a.validShape = true ∧ a.CrossedShape ∧
      (a.state = .accepted ↔ a.acceptedAt.isSome) ∧ (a.state = .rejected ↔ a.rejectedAt.isSome) ∧
      (a.state = .unknown ∨ a.state = .abandoned ↔ a.unknownAt.isSome) ∧
      (a.state = .accepted → a.acceptanceEvidence.isSome) ∧
      (a.acceptanceEvidence.isSome →
        a.state = .dispatching ∨ a.state = .unknown ∨ a.state = .accepted) ∧
      (a.state = .rejected ↔ a.rejection.isSome) ∧ a.Timed a.crossedAt ∧ a.Timed a.acceptedAt ∧
      a.Timed a.rejectedAt ∧ a.Timed a.unknownAt)
    ⟨fun ⟨h₁, h₂, h₃, h₄, h₅, h₆, h₇, h₈, h₉, h₁₀, h₁₁, h₁₂, h₁₃, h₁₄, h₁₅, h₁₆⟩ =>
      ⟨h₁, h₂, h₃, h₄, h₅, h₆, h₇, h₈, h₉, h₁₀, h₁₁, h₁₂, h₁₃, h₁₄, h₁₅, h₁₆⟩,
    fun h => ⟨h.1, h.2, h.3, h.4, h.5, h.6, h.7, h.8, h.9, h.10, h.11, h.12, h.13, h.14, h.15,
      h.16⟩⟩

/-! ## The updates of a row -/

variable (a : DeliveryAttempt) (now : ℕ)

/-- `transitionTime`. -/
def transitionTime : ℕ := max (max now a.createdAt) (max a.updatedAt (a.crossedAt.getD 0))

/-- `recoveryDetail`. A detail that no longer fits displaces what was there. -/
def recoveryDetail (detail : Entries) : Entries :=
  let encoded := spread (a.recovery.getD []) detail
  if jsonBytes (.object encoded) ≤ maxColumnBytes then encoded
  else [("truncated", .bool true), ("latest", .object (boundedDeliveryError detail))]

/-- The crossing marker, and the crossing that the provider has signalled. -/
def cross (generation : Option String) (recovery : Option Entries) : DeliveryAttempt :=
  { a with
    state := .dispatching
    crossedAt := some (a.transitionTime now)
    processGeneration := generation.or a.processGeneration
    recovery
    updatedAt := a.transitionTime now }

/-- The update of `reject`. -/
def refuse (rejection : Entries) : DeliveryAttempt :=
  { a with
    state := .rejected
    rejectedAt := some (a.transitionTime now)
    rejection := some rejection
    updatedAt := a.transitionTime now }

/-- The update of `rejectProviderResponse`. -/
def refuseResponse (rejection : Entries) : DeliveryAttempt :=
  { a.refuse now rejection with unknownAt := none }

/-- The update of `unknown` and of `recover`. -/
def hold (recovery : Option Entries) : DeliveryAttempt :=
  { a with
    state := .unknown
    unknownAt := some (a.transitionTime now)
    recovery
    updatedAt := a.transitionTime now }

/-- The update of `markGap`. -/
def gap (reason : String) : DeliveryAttempt :=
  { a with
    transcriptGap := true
    recovery := some (a.recoveryDetail
      [("stage_overflow", .object [("reason", .string (sliceText 4096 reason))])])
    state := if a.state = .dispatching then .unknown else a.state
    unknownAt := if a.state = .dispatching then some (a.transitionTime now) else a.unknownAt
    updatedAt := a.transitionTime now }

/-- The update of `markRecovery`. -/
def note (reason : String) : DeliveryAttempt :=
  { a with
    recovery := some (a.recoveryDetail [(reason, .bool true)])
    updatedAt := a.transitionTime now }

/-- The update of `recordAcceptance`. -/
def prove (evidence : ProviderAcceptanceEvidence) (nativeTurnId nativeOperationId : Option String) :
    DeliveryAttempt :=
  { a with
    acceptanceEvidence := some evidence
    nativeTurnId := nativeTurnId.or a.nativeTurnId
    nativeOperationId := nativeOperationId.or a.nativeOperationId
    updatedAt := a.transitionTime now }

/-- The update of `admit`. -/
def accept : DeliveryAttempt :=
  { a with
    state := .accepted
    acceptedAt := some (a.transitionTime now)
    unknownAt := none
    updatedAt := a.transitionTime now }

/-- The update of `abandon`. -/
def giveUp (recovery : Entries) : DeliveryAttempt :=
  { a with state := .abandoned, recovery := some recovery, updatedAt := a.transitionTime now }

end DeliveryAttempt

end Remux
