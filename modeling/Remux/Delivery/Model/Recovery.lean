import Remux.Delivery.Stage

/-!
# The recovery of accepted suffixes

`recoverAcceptedDeliveryStages`. At startup an attempt may be accepted and
still have staged observations. The loop goes through such attempts in
pages, by their ids, and drains the one that `acceptedWithStage` finds for
the execution of a row if it is the attempt of the row. Nothing is
dispatched before the start is over.
-/

namespace Remux

/-- **The attempts a process finds**, in the order of their rowids. -/
structure DeliveryTable where
  records : List AttemptRecord
  nodup : (records.map fun r => r.row.attemptId).Nodup
  named : ∀ r ∈ records, r.row.attemptId ≠ ""
  stage : ∀ r ∈ records, StageInv r.staging

/-- What the recovery of an attempt is answered: what the preparation makes
of each row, and whether the append and the effects throw. -/
structure RecoveryAnswer where
  outcomes : Except String (List (Option (List ProviderEventEnvelope)))
  append : Except String Unit
  effects : Except String Unit

/-- How a recovery ends without a result. -/
inductive RecoveryFailure where
  | thrown (thrown : Thrown)
  /-- The loop was not given enough fuel. -/
  | outOfFuel
  deriving DecidableEq

/-- `SELECT 1 FROM delivery_attempt_staging`, of an accepted attempt. -/
def AttemptRecord.drainable (r : AttemptRecord) : Bool :=
  r.row.state = .accepted && !r.staging.isEmpty

/-- `hasUnresolvedRootDelivery`. -/
def hasUnresolvedRootDelivery (records : List AttemptRecord) (conversationId : String) : Bool :=
  records.any fun r => r.row.conversationId = conversationId &&
    (r.row.state = .preparing || r.row.state = .dispatching || r.row.state = .unknown ||
      r.drainable)

/-- `ORDER BY created_at`, with the rowid where the times agree. -/
def byCreation (records : List AttemptRecord) : List AttemptRecord :=
  records.insertionSort fun r r' => r.row.createdAt ≤ r'.row.createdAt

/-- `acceptedWithStage`. -/
def acceptedWithStage (records : List AttemptRecord) (executionId : String) :
    Except Thrown (Option AttemptRecord) :=
  match (byCreation records).find? fun r => r.row.executionId = executionId && r.drainable with
  | some r => do
    let _ ← r.require
    return some r
  | none => return none

/-- A page of attempts behind the cursor. -/
def stagePage (records : List AttemptRecord) (cursor : String) : List AttemptRecord :=
  ((records.filter fun r => r.drainable && cursor < r.row.attemptId).insertionSort
    fun r r' => r.row.attemptId ≤ r'.row.attemptId).take 256

/-- The body of the loop, for the attempt of a row. -/
def recoverStage (answer : RecoveryAnswer) (records : List AttemptRecord)
    (attemptId executionId : String) : Except Thrown (List AttemptRecord) := do
  match ← acceptedWithStage records executionId with
  | none => return records
  | some attempt =>
    if attempt.row.attemptId ≠ attemptId then return records
    else
      let prepared ← orFail (answer.outcomes >>= prepareStagedProviderEvents attempt.staged)
      let drained ← attempt.drainAccepted prepared answer.append
      orFail answer.effects
      return records.map fun r => if r.row.attemptId = attemptId then drained else r

/-- The rows of a page, one after the other. -/
def recoverPage (answer : String → RecoveryAnswer) :
    List AttemptRecord → List AttemptRecord → Except Thrown (List AttemptRecord)
  | records, [] => return records
  | records, row :: page => do
    let records ← recoverStage (answer row.row.attemptId) records row.row.attemptId
      row.row.executionId
    recoverPage answer records page

/-- The loop, from a cursor. -/
def recoverStages (answer : String → RecoveryAnswer) :
    ℕ → String → List AttemptRecord → Except RecoveryFailure (List AttemptRecord)
  | 0, _, _ => .error .outOfFuel
  | fuel + 1, cursor, records =>
    match (stagePage records cursor).getLast? with
    | none => return records
    | some last => do
      let records ← (recoverPage answer records (stagePage records cursor)).mapError .thrown
      recoverStages answer fuel last.row.attemptId records

/-- `recoverAcceptedDeliveryStages`. No more pages than attempts have
rows. -/
def recoverAcceptedDeliveryStages (answer : String → RecoveryAnswer)
    (records : List AttemptRecord) : Except RecoveryFailure (List AttemptRecord) :=
  recoverStages answer (records.length + 1) "" records

/-! ## What is said of a recovery -/

/-- The preparation of the staged rows of an attempt succeeds. -/
def RecoveryAnswer.Prepares (answer : RecoveryAnswer) (r : AttemptRecord) : Prop :=
  ∃ prepared, answer.outcomes >>= prepareStagedProviderEvents r.staged = .ok prepared ∧
    prepared.map Prod.fst = r.staged

/-- **The suffixes are drained**: no accepted attempt has a staged
observation, so that only another attempt is unresolved. -/
def Recovered (records : List AttemptRecord) : Prop :=
  (∀ r ∈ records, r.row.state = .accepted → r.staging = []) ∧
    ∀ conversationId, hasUnresolvedRootDelivery records conversationId = true →
      ∃ r ∈ records, r.row.conversationId = conversationId ∧
        (r.row.state = .preparing ∨ r.row.state = .dispatching ∨ r.row.state = .unknown)

/-- The accepted attempts of each execution that have staged observations
were created in the order of their ids. -/
def CreatedInOrder (records : List AttemptRecord) : Prop :=
  ((byCreation records).filter AttemptRecord.drainable).Pairwise fun r r' =>
    r.row.executionId = r'.row.executionId → r.row.attemptId < r'.row.attemptId

end Remux
