import Remux.Common.Assoc
import Remux.Common.Machine
import Remux.Rpc.Model.JsonRpc
import Mathlib.Data.List.MinMax

/-!
# The registry of durable commands

`CommandRegistry` of `rpc/commands.rs`. The operations take the instant
their `Instant::now()` reads, in nanoseconds, and run under the
registry's one lock, so each is one step. A `watch` channel is named by
the position it was made at, and `Registry.channels` holds the value of
every channel made, whether or not a record still refers to it: a
receiver outlives the record it was taken from.
-/

namespace Remux

/-- `MAX_COMMAND_RECORDS`. -/
def maxCommandRecords : ℕ := 256

/-- `MAX_OUTCOME_BYTES`. -/
def maxOutcomeBytes : ℕ := 8 * 1024 * 1024

/-- `OUTCOME_TTL`, half an hour in nanoseconds. -/
def outcomeTtl : ℕ := 30 * 60 * 1000000000

/-- `usize::saturating_add` on a 64-bit target. -/
def saturatingAdd (a b : ℕ) : ℕ := min (a + b) (2 ^ 64 - 1)

/-- `RpcOutcome`. -/
inductive RpcOutcome where
  | error (error : JsonRpcError)
  | result (result : Value)

/-- `CommandKey`. -/
structure CommandKey where
  method : String
  operationId : String
  deriving DecidableEq

/-- `CommandRecord`, less its `_admitted_at`, which nothing reads. -/
structure CommandRecord where
  fingerprint : String
  completedAt : Option ℕ
  /-- The record's `watch::Sender`. -/
  outcome : ℕ
  retainedBytes : ℕ
  deriving DecidableEq

/-- `RegistryState`. -/
structure RegistryState where
  records : Assoc CommandKey CommandRecord
  retainedBytes : ℕ

/-- `CommandRegistry`, with the channels it has made. -/
structure Registry where
  state : RegistryState
  channels : List (Option RpcOutcome)

/-- `CommandExecution`. It is neither `Clone` nor built elsewhere, so
whoever holds one was handed it by `admit` and gives it up to
`complete`. -/
structure CommandExecution where
  key : CommandKey
  deriving DecidableEq

/-- `CommandAdmission`; the receiver is the channel it listens to. -/
inductive CommandAdmission where
  | execute (execution : CommandExecution)
  | replay (completed : Bool) (receiver : ℕ)

/-- `remove_record`. -/
def removeRecord (state : RegistryState) (key : CommandKey) : RegistryState :=
  match state.records.lookup key with
  | some record =>
    { records := state.records.erase key
      retainedBytes := state.retainedBytes - record.retainedBytes }
  | none => state

/-- The record is complete and its outcome past its time to live. -/
def CommandRecord.expired (now : ℕ) (record : CommandRecord) : Bool :=
  match record.completedAt with
  | some completed => decide (outcomeTtl ≤ now - completed)
  | none => false

/-- `cleanup_expired`. -/
def cleanupExpired (now : ℕ) (state : RegistryState) : RegistryState :=
  let expired := (state.records.entries.filter fun entry => entry.2.expired now).map Sigma.fst
  expired.foldl removeRecord state

/-- The completed record with the least completion instant, the first of
them in the map's order. -/
def evictionCandidate (state : RegistryState) : Option CommandKey :=
  let completed := state.records.entries.filterMap fun entry =>
    entry.2.completedAt.map fun completedAt => (entry.1, completedAt)
  (completed.argmin Prod.snd).map Prod.fst

/-- The loop of `evict_to_fit`. A round that goes on removes a record,
so as many rounds as there are records are enough
(`evictRounds_stable`). -/
def evictRounds (incomingRecords incomingBytes : ℕ) : ℕ → RegistryState → RegistryState
  | 0, state => state
  | rounds + 1, state =>
    if saturatingAdd state.records.size incomingRecords > maxCommandRecords ∨
        saturatingAdd state.retainedBytes incomingBytes > maxOutcomeBytes then
      match evictionCandidate state with
      | none => state
      | some candidate =>
        evictRounds incomingRecords incomingBytes rounds (removeRecord state candidate)
    else state

/-- `evict_to_fit`. -/
def evictToFit (state : RegistryState) (incomingRecords incomingBytes : ℕ) : RegistryState :=
  evictRounds incomingRecords incomingBytes state.records.size state

section

variable (serde : Serde)

/-- `RpcOutcome::retained_bytes`: the length of the outcome's text. -/
def RpcOutcome.retainedBytes : RpcOutcome → ℕ
  | .error e => (serde.toVec e.payload).length
  | .result value => (serde.toVec value).length

/-- `params.cloned().unwrap_or(Value::Null)`. -/
def parametersOrNull : Option Json → Value
  | some params => params.val
  | none => .null

/-- The value whose text `parameter_fingerprint` hashes. -/
def parameterIdentity (method : String) (params : Option Json) : Value :=
  .object [("method", .string method), ("params", canonicalValue (parametersOrNull params))]

/-- `parameter_fingerprint`. -/
def parameterFingerprint (method : String) (params : Option Json) : String :=
  "sha256-" ++ hexLower (serde.sha256 (serde.toVec (parameterIdentity method params)))

/-- The refusal of an operation id that is empty or too long. -/
def invalidOperationId : JsonRpcError :=
  .withData invalidRequest "command operationId must be between 1 and 256 UTF-8 bytes"
    (.object [("detail", .string "invalid_operation_id")])

/-- The refusal of an operation id that other parameters were sent under. -/
def operationIdConflict : JsonRpcError :=
  .withData invalidRequest "operationId was already admitted with different parameters"
    (.object [("detail", .string "operation_id_conflict")])

/-- The refusal of a command for which there is no room. -/
def serverBusy : JsonRpcError :=
  .withData extensionError "Durable command admission is full"
    (.object [("detail", .string "server_busy")])

/-- What is kept of an outcome with too many bytes. -/
def durableOutcomeTooLarge : JsonRpcError :=
  .withData extensionError "Durable command outcome exceeded the retention limit"
    (.object [("detail", .string "durable_outcome_too_large")])

/-- `operation_id.is_empty() || operation_id.len() > 256` does not hold. -/
def validOperationId (operationId : String) : Bool :=
  !(operationId.isEmpty || decide (operationId.utf8ByteSize > 256))

/-- The value a channel holds. -/
def Registry.channel (registry : Registry) (receiver : ℕ) : Option RpcOutcome :=
  registry.channels.getD receiver none

/-- `CommandRegistry::admit`. -/
def admitCommand (now : ℕ) (method operationId : String) (params : Option Json)
    (registry : Registry) :
    Except JsonRpcError CommandAdmission × Registry :=
  if validOperationId operationId then
    let key : CommandKey := ⟨method, operationId⟩
    let fingerprint := parameterFingerprint serde method params
    let state := cleanupExpired now registry.state
    match state.records.lookup key with
    | some existing =>
      if existing.fingerprint ≠ fingerprint then
        (.error operationIdConflict, { registry with state })
      else
        (.ok (.replay (registry.channel existing.outcome).isSome existing.outcome),
          { registry with state })
    | none =>
      let state := evictToFit state 1 0
      if state.records.size ≥ maxCommandRecords then
        (.error serverBusy, { registry with state })
      else
        let record : CommandRecord :=
          { fingerprint, completedAt := none, outcome := registry.channels.length
            retainedBytes := 0 }
        (.ok (.execute ⟨key⟩),
          { state := { state with records := state.records.insert key record }
            channels := registry.channels ++ [none] })
  else (.error invalidOperationId, registry)

/-- The outcome `complete` keeps: one over the retention limit becomes an
error. -/
def retainedOutcome (outcome : RpcOutcome) : RpcOutcome :=
  if outcome.retainedBytes serde > maxOutcomeBytes then .error durableOutcomeTooLarge else outcome

/-- `CommandRegistry::complete`. -/
def complete (now : ℕ) (execution : CommandExecution) (outcome : RpcOutcome)
    (registry : Registry) : (RpcOutcome × ℕ) × Registry :=
  let outcome := retainedOutcome serde outcome
  let retainedBytes := outcome.retainedBytes serde
  match registry.state.records.lookup execution.key with
  | some record =>
    let state : RegistryState :=
      { records := registry.state.records.insert execution.key
          { record with completedAt := some now, retainedBytes }
        retainedBytes :=
          saturatingAdd (registry.state.retainedBytes - record.retainedBytes) retainedBytes }
    ((outcome, retainedBytes),
      { state := evictToFit state 0 0
        channels := registry.channels.set record.outcome (some outcome) })
  | none =>
    ((outcome, retainedBytes), { registry with state := evictToFit registry.state 0 0 })

/-! ## The machine -/

/-- A registry together with the executions admitted and not completed:
what the callers hold. -/
structure CommandWorld where
  registry : Registry
  executions : List CommandExecution

/-- A call of `admit` or `complete`, at the instant its clock reads, or
another order of iteration of the hash map. -/
inductive CommandAction where
  | admitCommand (now : ℕ) (method operationId : String) (params : Option Json)
  | complete (now : ℕ) (execution : CommandExecution) (outcome : RpcOutcome)
  | rehash (records : Assoc CommandKey CommandRecord)

/-- The execution an admission hands out. -/
def admitted : Except JsonRpcError CommandAdmission → List CommandExecution
  | .ok (.execute execution) => [execution]
  | _ => []

/-- **The machine of the registry and its callers.** Any call may be made
at any instant; `complete` needs an execution still held. -/
def commandMachine : Machine CommandWorld CommandAction where
  init := ⟨⟨⟨∅, 0⟩, []⟩, []⟩
  step s
    | .admitCommand now method operationId params =>
      let (answer, registry) := admitCommand serde now method operationId params s.registry
      some ⟨registry, admitted answer ++ s.executions⟩
    | .complete now execution outcome =>
      if execution ∈ s.executions then
        some ⟨(complete serde now execution outcome s.registry).2, s.executions.erase execution⟩
      else none
    | .rehash records =>
      if s.registry.state.records.Reorder records then
        some { s with registry.state.records := records }
      else none

end

end Remux
