import Remux.Delivery.Model.Owner

/-!
# The drivers of the delivery attempts

`dispatch`, `reconcile` and the coordinator's draining of an accepted
attempt, each as the phases between its awaits and statements, and the
machine of a journal on which any number of them work.
-/

namespace Remux

/-- `ProviderDispatchResult`. -/
inductive ProviderDispatchResult where
  | accepted (evidence : ProviderAcceptanceEvidence)
      (nativeTurnId nativeOperationId : Option String)
  | rejected (error : ProviderDeliveryError) (evidence : Option ProviderRejectionEvidence)
  | unknown (error : ProviderDeliveryError)
  deriving DecidableEq

/-- **What the adapters return.** Only `startTurn` of the Codex adapter has
evidence of a rejection, when its request was answered with the error of an
active compaction. -/
inductive ProviderDispatchResult.FromAdapter : ProviderDispatchResult → Prop
  | accepted (evidence : ProviderAcceptanceEvidence)
      (nativeTurnId nativeOperationId : Option String) :
      FromAdapter (.accepted evidence nativeTurnId nativeOperationId)
  | rejected (error : ProviderDeliveryError) : FromAdapter (.rejected error none)
  | unknown (error : ProviderDeliveryError) : FromAdapter (.unknown error)
  | activeCompaction (sessionId : String) (requestId : Option ℤ) :
      FromAdapter (.rejected
        ⟨"codex_active_compaction", codexActiveCompactRejection, some true⟩
        (some ⟨sessionId, .rpcResponse, requestId⟩))

/-- `dispatch`, or `reconcile`. -/
inductive DeliveryFlow where
  | dispatch
  | reconcile
  deriving DecidableEq

/-- Where a driver stands. -/
inductive DeliveryDriver where
  /-- `invoke` runs; the flag says that its marker was used. -/
  | invoking (id : String) (crossed : Bool)
  /-- `invoke` threw; the flag is `providerPossiblySent(error)`. -/
  | caught (id : String) (signalled : Bool) (message : String)
  | returned (id : String) (result : ProviderDispatchResult)
  /-- `unknown` is next. -/
  | holding (id : String) (error : Entries)
  /-- `recordAcceptance` is next. -/
  | accepting (id : String) (flow : DeliveryFlow) (evidence : ProviderAcceptanceEvidence)
      (nativeTurnId nativeOperationId : Option String)
  /-- `reconcile` waits for its `read`. -/
  | reading (id : String)
  | snapshotting (id : String) (flow : DeliveryFlow)
  /-- The preparation of the rows that were staged. -/
  | preparing (id : String) (flow : DeliveryFlow) (source : List StagedRow)
  /-- The same, for an attempt that is accepted. -/
  | draining (id : String) (source : List StagedRow)
  | finished

/-- The result contradicts its evidence. -/
def contradictsEvidence (evidence : ProviderAcceptanceEvidence) (nativeTurnId : Option String) :
    Bool :=
  match evidence with
  | .codexTurnStartResponse _ turnId _ => nativeTurnId ≠ some turnId
  | .fixtureCorrelatedAcceptance _ _ (some turnId) => nativeTurnId ≠ some turnId
  | _ => false

namespace DeliveryDriver

open AttemptRecord

/-- The result of an `invoke` that threw. -/
def caughtResult (possiblySent : Bool) (message : String) : ProviderDispatchResult :=
  if possiblySent then .unknown (deliveryError message) else .rejected (deliveryError message) none

/-- The catch block of `dispatch`. -/
def settleThrow (id : String) (signalled : Bool) (message : String) (now : ℕ)
    (r : AttemptRecord) : Except Thrown (AttemptRecord × DeliveryDriver) := do
  let attempt ← r.require
  let persistedCrossing := attempt.crossedAt.isSome
  let next := returned id (caughtResult (persistedCrossing || signalled) message)
  if !persistedCrossing && signalled then
    return (← r.markProviderSignalledCrossing now "thrown-possibly-sent-without-marker", next)
  else return (r, next)

/-- What `dispatch` does with a result. -/
def settleResult (id : String) (result : ProviderDispatchResult) (now : ℕ)
    (answer : JournalAnswer) (r : AttemptRecord) :
    Except Thrown (AttemptRecord × DeliveryDriver) := do
  let attempt ← r.require
  let persistedCrossing := attempt.crossedAt.isSome
  match result with
  | .rejected error evidence =>
    if persistedCrossing then
      let violation := holding id
        (spread error.toEntries [("boundaryViolation", .string "rejected-after-crossing")])
      match evidence with
      | some evidence => do
        let (r, rejected) ← r.rejectProviderResponse now answer evidence error
        return (r, if rejected then finished else violation)
      | none => return (r, violation)
    else return (← r.reject now error.toEntries, finished)
  | .unknown error =>
    if persistedCrossing then return (r, holding id error.toEntries)
    else return (← r.markProviderSignalledCrossing now "unknown-without-marker",
      holding id error.toEntries)
  | .accepted evidence nativeTurnId nativeOperationId =>
    let next := accepting id .dispatch evidence nativeTurnId nativeOperationId
    if persistedCrossing then return (r, next)
    else return (← r.markProviderSignalledCrossing now "accepted-without-marker", next)

/-- The next statement of a driver that waits for nothing. -/
def proceed (now : ℕ) (answer : JournalAnswer) : DeliveryDriver →
    Option (String × (AttemptRecord → Except Thrown (AttemptRecord × DeliveryDriver)))
  | caught id signalled message => some (id, settleThrow id signalled message now)
  | returned id result => some (id, settleResult id result now answer)
  | holding id error => some (id, fun r => return (← r.unknown now error, finished))
  | accepting id flow evidence nativeTurnId nativeOperationId =>
    some (id, fun r => do
      check (flow = .reconcile || !contradictsEvidence evidence nativeTurnId)
        (.failed "Provider native turn result contradicts its acceptance evidence.")
      return (← r.recordAcceptance now evidence nativeTurnId nativeOperationId,
        snapshotting id flow))
  | snapshotting id flow =>
    some (id, fun r => do
      if flow = .reconcile then let _ ← r.require
      return (r, preparing id flow r.staged))
  | _ => none

/-- The end of a preparation: what was prepared is admitted or drained.
Where the preparation of a dispatch throws, a gap is marked. -/
def finishPreparing (now : ℕ)
    (outcomes : Except String (List (Option (List ProviderEventEnvelope))))
    (callback : Except String Unit) : DeliveryDriver →
    Option (String × (AttemptRecord → Except Thrown (AttemptRecord × DeliveryDriver)))
  | preparing id flow source =>
    some (id, fun r =>
      match outcomes >>= prepareStagedProviderEvents source with
      | .ok prepared => return (← r.admitAttempt now prepared callback, finished)
      | .error message =>
        if flow = .dispatch then
          return (← r.markGap now ("preparation:" ++ (deliveryError message).message), finished)
        else .error (.failed message))
  | draining id source =>
    some (id, fun r => do
      let prepared ← orFail (outcomes >>= prepareStagedProviderEvents source)
      return (← r.drainAccepted prepared callback, finished))
  | _ => none

end DeliveryDriver

/-- `PrepareDeliveryAttempt`. -/
structure PrepareDeliveryAttempt where
  attemptId : String
  commandId : String
  kind : DeliveryAttemptKind
  provider : ProviderKind
  providerInstanceId : String
  conversationId : String
  executionId : String
  intendedTurnId : Option String
  clientMessageId : Option String
  nativeClientMessageId : Option String
  compactOperationId : Option String
  recoveryPayload : Value
  nativeSessionId : String
  processGeneration : Option String
  ownerInstanceId : String
  now : ℕ

namespace PrepareDeliveryAttempt

variable (input : PrepareDeliveryAttempt)

/-- The row `prepare` inserts. -/
def row : DeliveryAttempt :=
  { attemptId := input.attemptId, commandId := input.commandId, kind := input.kind,
    provider := input.provider, providerInstanceId := input.providerInstanceId,
    conversationId := input.conversationId, executionId := input.executionId,
    intendedTurnId := input.intendedTurnId, clientMessageId := input.clientMessageId,
    nativeClientMessageId := input.nativeClientMessageId,
    compactOperationId := input.compactOperationId, recoveryPayload := input.recoveryPayload,
    nativeSessionId := input.nativeSessionId, processGeneration := input.processGeneration,
    nativeTurnId := none, nativeOperationId := none, ownerInstanceId := input.ownerInstanceId,
    state := .preparing, crossedAt := none, acceptedAt := none, rejectedAt := none,
    unknownAt := none, acceptanceEvidence := none, rejection := none, recovery := none,
    transcriptGap := false, createdAt := input.now, updatedAt := input.now }

/-- `validatePrepareIdentifiers`. -/
def validateIdentifiers : Except String Unit :=
  [(some input.attemptId, "attemptId"), (some input.commandId, "commandId"),
    (some input.providerInstanceId, "providerInstanceId"),
    (some input.conversationId, "conversationId"), (some input.executionId, "executionId"),
    (input.intendedTurnId, "intendedTurnId"), (input.clientMessageId, "clientMessageId"),
    (input.nativeClientMessageId, "nativeClientMessageId"),
    (some input.nativeSessionId, "nativeSessionId"),
    (input.processGeneration, "processGeneration"),
    (some input.ownerInstanceId, "ownerInstanceId")].forM fun field => do
      let _ ← optionalIdentifier field.1 field.2

end PrepareDeliveryAttempt

/-- The journal, and the process that works on it. -/
structure DeliveryState where
  ownerInstanceId : String
  attempts : AList fun _ : String => AttemptRecord
  drivers : List DeliveryDriver
  /-- A constraint of `delivery_attempts` has refused a statement. -/
  violated : Bool

namespace DeliveryState

variable (s : DeliveryState)

/-- An operation on an attempt: its record is committed, or it threw and
nothing is. -/
def onAttempt {β : Type} (id : String)
    (op : AttemptRecord → Except Thrown (AttemptRecord × β)) : DeliveryState × Option β :=
  match s.attempts.lookup id with
  | none => (s, none)
  | some r =>
    match op r with
    | .ok (r', result) => ({ s with attempts := s.attempts.insert id r' }, some result)
    | .error thrown => ({ s with violated := s.violated || thrown = .constraint }, none)

/-- An operation that is called for the record alone. -/
def perform (id : String) (op : AttemptRecord → Except Thrown AttemptRecord) : DeliveryState :=
  (s.onAttempt id fun r => return (← op r, ())).1

/-- The step of a driver, which is in the phase `thrown` if it throws. -/
def advance (d : ℕ) (id : String) (thrown : DeliveryDriver)
    (op : AttemptRecord → Except Thrown (AttemptRecord × DeliveryDriver)) : DeliveryState :=
  let (s, next) := s.onAttempt id op
  { s with drivers := s.drivers.set d (next.getD thrown) }

/-- A new driver, unless its first step throws. -/
def spawn (id : String) (op : AttemptRecord → Except Thrown (AttemptRecord × DeliveryDriver)) :
    DeliveryState :=
  let (s, next) := s.onAttempt id op
  { s with drivers := s.drivers ++ next.toList }

/-- `prepare`, given what `validateScope` finds in the other tables. -/
def prepare (input : PrepareDeliveryAttempt) (scopeValid : Bool) : DeliveryState :=
  let unused := s.attempts.entries.all fun entry =>
    entry.2.row.commandId ≠ input.commandId && entry.1 ≠ input.attemptId
  if input.ownerInstanceId = s.ownerInstanceId && input.validateIdentifiers.isOk && unused &&
      scopeValid && input.row.Checks then
    { s with
      attempts := s.attempts.insert input.attemptId ⟨input.row, [], 0, none, [], [], []⟩ }
  else s

/-- `acceptedWithStage` finds the attempt. -/
def acceptedWithStage (r : AttemptRecord) : Bool :=
  let staged (r' : AttemptRecord) := decide (r'.row.executionId = r.row.executionId) &&
    decide (r'.row.state = .accepted) && !r'.staging.isEmpty
  staged r && s.attempts.entries.all fun entry =>
    !staged entry.2 || decide (r.row.createdAt ≤ entry.2.row.createdAt)

end DeliveryState

/-- What the process does, what comes in to it, and what it is answered. -/
inductive DeliveryAction where
  /-- A process starts; the drivers of the one before are gone. -/
  | start (ownerInstanceId : String)
  | prepare (input : PrepareDeliveryAttempt) (scopeValid : Bool)
  | dispatch (id : String)
  /-- The provider uses the crossing marker. -/
  | markPossiblySent (d : ℕ) (sessionId : String) (generation : Option String) (now : ℕ)
  | invoked (d : ℕ) (result : ProviderDispatchResult)
  | threw (d : ℕ) (signalled : Bool) (message : String)
  /-- A driver goes on that waits for nothing. -/
  | proceed (d : ℕ) (now : ℕ) (answer : JournalAnswer)
  | reconcile (id : String)
  /-- The `read` of a `reconcile` answers; no evidence is no presence. -/
  | read (d : ℕ) (evidence : Option ProviderAcceptanceEvidence)
  /-- A preparation ends, with what it made of each row or an error. -/
  | prepared (d : ℕ) (now : ℕ)
      (outcomes : Except String (List (Option (List ProviderEventEnvelope))))
      (callback : Except String Unit)
  /-- The coordinator drains an accepted attempt. -/
  | drain (id : String)
  | observe (id : String) (now : ℕ) (envelope : ProviderEventEnvelope)
  | markStreamGap (id : String) (now : ℕ) (executionId generation reason : String)
  | recoverCompactionEvidence (id : String) (now : ℕ)
  | recoverRejected (id : String) (now : ℕ) (answer : JournalAnswer)
  | recoverHeld (id : String) (now : ℕ)
  | abandon (id : String) (now : ℕ) (resolutionCommandId : String)

/-- The turn a positive read names. -/
def presenceTurnId : ProviderAcceptanceEvidence → Option String
  | .codexHistoryClientId _ _ turnId => turnId
  | .fixtureCorrelatedAcceptance _ _ turnId => turnId
  | _ => none

open DeliveryDriver in
/-- **The machine of the delivery attempts.** -/
def deliveryMachine : Machine DeliveryState DeliveryAction where
  init := ⟨"", ∅, [], false⟩
  step s
    | .start ownerInstanceId => some { s with ownerInstanceId, drivers := [] }
    | .prepare input scopeValid => some (s.prepare input scopeValid)
    | .dispatch id =>
      some (s.spawn id fun r => do
        let attempt ← r.require
        check (attempt.ownerInstanceId = s.ownerInstanceId)
          (.failed "Delivery attempt belongs to another owner instance.")
        check (attempt.state = .preparing)
          (.failed "Only a preparing delivery attempt can be dispatched.")
        return (r, invoking id false))
    | .markPossiblySent d sessionId generation now =>
      match s.drivers[d]? with
      | some (invoking id crossed) =>
        some (s.advance d id (invoking id crossed) fun r => do
          check (!crossed) (.failed "Delivery crossing marker may only be used once.")
          return (← r.markPossiblySent s.ownerInstanceId now sessionId generation,
            invoking id true))
      | _ => none
    | .invoked d result =>
      match s.drivers[d]? with
      | some (invoking id _) => some { s with drivers := s.drivers.set d (returned id result) }
      | _ => none
    | .threw d signalled message =>
      match s.drivers[d]? with
      | some (invoking id _) =>
        some { s with drivers := s.drivers.set d (caught id signalled message) }
      | _ => none
    | .proceed d now answer =>
      ((s.drivers[d]?).bind (DeliveryDriver.proceed now answer)).map fun step =>
        s.advance d step.1 finished step.2
    | .reconcile id =>
      some (s.spawn id fun r => do
        let attempt ← r.require
        return (r, if attempt.acceptanceEvidence.isSome then snapshotting id .reconcile
          else reading id))
    | .read d evidence =>
      match s.drivers[d]? with
      | some (reading id) =>
        some { s with
          drivers := s.drivers.set d (match evidence with
            | some evidence =>
              accepting id .reconcile evidence (presenceTurnId evidence) none
            | none => finished) }
      | _ => none
    | .prepared d now outcomes callback =>
      ((s.drivers[d]?).bind (finishPreparing now outcomes callback)).map fun step =>
        s.advance d step.1 finished step.2
    | .drain id =>
      some (s.spawn id fun r => do
        check (s.acceptedWithStage r) (.failed "no accepted attempt has staged observations")
        let _ ← r.require
        return (r, draining id r.staged))
    | .observe id now envelope => some (s.onAttempt id fun r => r.observe now envelope).1
    | .markStreamGap id now executionId generation reason =>
      some (s.perform id fun r => r.markStreamGap now executionId generation reason)
    | .recoverCompactionEvidence id now =>
      some (s.perform id fun r => r.recoverCompactionEvidence now)
    | .recoverRejected id now answer => some (s.perform id fun r => r.recoverRejected now answer)
    | .recoverHeld id now => some (s.perform id fun r => r.recoverHeld s.ownerInstanceId now)
    | .abandon id now resolutionCommandId =>
      some (s.perform id fun r => r.abandon now resolutionCommandId)

end Remux
