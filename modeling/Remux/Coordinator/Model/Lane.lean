import Remux.Coordinator.Model.History

/-!
# The lane of a conversation

Over its history, the rows of a conversation that decide what may be sent
to its provider next: the queue, the compaction operations and the
delivery attempts, with the statements of `native-journal.ts` and
`delivery-attempt-owner.ts` that write them.
-/

namespace Remux.Coordinator

/-- A row of `queued_messages`, or of `queued_compactions`. -/
inductive QueueEntry where
  | message (commandId turnId : String) (intent : DeliveryIntent) (state : QueuedState)
  | compact (operationId : String)
  deriving DecidableEq

/-- A row of `compaction_operations`. -/
structure Compaction where
  operationId : String
  trigger : Journal.CompactionTrigger
  state : CompactionState
  generation : ℕ
  deriving DecidableEq

/-- `state IN ('running', 'queued')`. -/
def Compaction.pending (c : Compaction) : Bool := c.state == .queued || c.state == .running

/-- A row of `delivery_attempts`, and whether any of
`delivery_attempt_staging` are left of it. -/
structure Attempt where
  commandId : String
  kind : DeliveryAttemptKind
  executionId : String
  /-- The turn it is for, or the compaction operation. -/
  subjectId : String
  state : DeliveryAttemptState
  staged : Bool
  deriving DecidableEq

/-- The state is one of `preparing`, `dispatching` and `unknown`. -/
def openState : DeliveryAttemptState → Bool
  | .preparing | .dispatching | .unknown => true
  | _ => false

/-- `state IN ('preparing', 'dispatching', 'unknown')`. -/
def Attempt.isOpen (a : Attempt) : Bool := openState a.state

/-- `hasUnresolvedRootDelivery` counts it. -/
def Attempt.unresolved (a : Attempt) : Bool := a.isOpen || a.state == .accepted && a.staged

/-- **The lane**: the history, the queue in its order, the compaction
operations and the delivery attempts. -/
structure Lane where
  history : History
  queue : List QueueEntry
  compactions : List Compaction
  attempts : List Attempt
  deriving DecidableEq

namespace Lane

variable (L : Lane)

/-! ## Reads -/

/-- `hasUnresolvedRootDelivery`. -/
def hasUnresolvedRootDelivery : Bool := L.attempts.any (·.unresolved)

/-- `pendingCompactionOperation` gives one. -/
def compactionPending : Bool := L.compactions.any (·.pending)

/-- `pendingCompactionOperation` gives one that runs. -/
def compactionRunning : Bool := L.compactions.any (·.state == .running)

/-- `compactionGeneration`. -/
def compactionGeneration : ℕ := L.compactions.countP (·.state == .completed)

/-- The attempt of a command. -/
def attempt (commandId : String) : Option Attempt := L.attempts.find? (·.commandId == commandId)

/-! ## The queue -/

/-- `enqueueTurn`. -/
def enqueueTurn (commandId turnId : String) (intent : DeliveryIntent) : Lane := { L with
  queue := L.queue ++ [.message commandId turnId intent .queued] }

/-- The state of a queued message, where it is in an expected one. -/
def setQueued (commandId : String) (expected state : QueuedState) : Lane := { L with
  queue := L.queue.map fun
    | .message id turnId intent current =>
      if id = commandId ∧ current = expected then .message id turnId intent state
      else .message id turnId intent current
    | entry => entry }

/-- `DELETE FROM queued_messages WHERE command_id = ?`. -/
def deleteQueued (commandId : String) : Lane := { L with
  queue := L.queue.filter fun
    | .message id _ _ _ => id != commandId
    | .compact _ => true }

/-- `DELETE FROM queued_compactions`. -/
def deleteQueuedCompaction (operationId : String) : Lane := { L with
  queue := L.queue.filter (· != .compact operationId) }

/-- `acknowledgeQueuedTurnDispatch`. -/
def acknowledgeQueuedTurnDispatch (turnId : String) : Lane := { L with
  queue := L.queue.filter fun
    | .message _ id _ state => !(id == turnId && state == .dispatching)
    | .compact _ => true }

/-- `markQueuedTurnDeliveryUnknown`. -/
def markQueuedTurnDeliveryUnknown (commandId : String) : Lane :=
  L.setQueued commandId .dispatching .deliveryUnknown

/-- `removeQueuedTurn`. -/
def removeQueuedTurn (commandId : String) : Lane := { L with
  queue := L.queue.filter fun
    | .message id _ _ state => !(id == commandId && state != .dispatching)
    | .compact _ => true }

/-! ## Compaction operations -/

/-- `UPDATE compaction_operations SET state`, where it applies. -/
def setCompactions (p : Compaction → Bool) (state : CompactionState) : Lane := { L with
  compactions := L.compactions.map fun c => if p c then { c with state } else c }

/-- `createManualCompaction`. -/
def createManualCompaction (operationId : String) (running : Bool) : Lane := { L with
  compactions := L.compactions ++ [{ operationId, trigger := .manual
                                     state := if running then .running else .queued
                                     generation := L.compactionGeneration }]
  queue := if running then L.queue else L.queue ++ [.compact operationId] }

/-- `claimNext`, for a compaction that is first in the queue. -/
def claimCompaction (operationId : String) : Lane :=
  (L.deleteQueuedCompaction operationId).setCompactions
    (fun c => c.operationId == operationId && c.state == .queued) .running

/-- `removeQueuedCompaction`. -/
def removeQueuedCompaction (operationId : String) : Lane :=
  if L.queue.contains (.compact operationId) then
    (L.deleteQueuedCompaction operationId).setCompactions
      (fun c => c.operationId == operationId && c.state == .queued) .cancelled
  else L

/-- `failCompaction`. -/
def failCompaction (operationId : String) : Lane :=
  L.setCompactions (fun c => c.operationId == operationId && c.pending) .failed

/-- `markRunningCompactionDeliveryUnknown`. -/
def markRunningCompactionDeliveryUnknown : Lane :=
  L.setCompactions (·.state == .running) .deliveryUnknown

/-- `restoreAcceptedCompactionDelivery`. -/
def restoreAcceptedCompactionDelivery (operationId : String) : Lane :=
  L.setCompactions (fun c => c.operationId == operationId && c.state == .deliveryUnknown) .running

/-- A manual compaction that an automatic one stands for. -/
def satisfied (c : Compaction) : Bool :=
  c.trigger == .manual && c.state == .queued && c.generation < L.compactionGeneration

/-- `satisfyQueuedCompactionsAfterAutomatic`. -/
def satisfyQueuedCompactionsAfterAutomatic : Lane := { L with
  compactions := L.compactions.map fun c =>
    if L.satisfied c then { c with state := .completed } else c
  queue := L.queue.filter fun
    | .compact operationId =>
      !L.compactions.any fun c => c.operationId == operationId && L.satisfied c
    | .message _ _ _ _ => true }

/-- `reduceCompactionEvent`. -/
def reduceCompactionEvent (lifecycle : Journal.CompactionLifecycle)
    (trigger : Journal.CompactionTrigger)
    (operationId : String) : Lane :=
  if L.compactions.any (·.operationId == operationId) then
    match lifecycle with
    | .started => L.setCompactions (fun c => c.operationId == operationId && c.pending) .running
    | .completed => L.setCompactions (·.operationId == operationId) .completed
    | .failed => L.setCompactions (·.operationId == operationId) .failed
  else { L with
    compactions := L.compactions ++ [{ operationId, trigger, state := lifecycle.operationState
                                       generation := L.compactionGeneration }] }

/-! ## Delivery attempts -/

/-- What `validateScope` reads of the lane. -/
def validateScope (commandId : String) (kind : DeliveryAttemptKind)
    (executionId subjectId : String) :
    Bool :=
  L.history.rootExecutionId == executionId && match kind with
    | .rootTurn => L.queue.any fun
      | .message id turnId _ _ => id == commandId && turnId == subjectId
      | .compact _ => false
    | .steer => L.history.activeTurnId == some subjectId &&
      L.history.turns.any fun t => t.turnId == subjectId && t.executionId == executionId &&
        t.state.live
    | .manualCompact => L.compactions.any fun c =>
      c.operationId == subjectId && c.trigger == .manual && c.state == .running

/-- `prepare`, of a command that has no attempt. -/
def prepare (commandId : String) (kind : DeliveryAttemptKind) (executionId subjectId : String) :
    Option Lane :=
  if (L.attempt commandId).isNone && L.validateScope commandId kind executionId subjectId then
    some { L with
      attempts := L.attempts ++
        [{ commandId, kind, executionId, subjectId, state := .preparing, staged := false }] }
  else none

/-- `UPDATE delivery_attempts SET state`, of one that is in an expected
state. -/
def setAttempt (commandId : String) (expected : List DeliveryAttemptState)
    (state : DeliveryAttemptState) : Option Lane :=
  if L.attempts.any fun a => a.commandId == commandId && expected.contains a.state then
    some { L with attempts := L.attempts.map fun a =>
      if a.commandId == commandId && expected.contains a.state then { a with state } else a }
  else none

/-- Events of an attempt are staged, or the last of them is drained. -/
def setStaged (commandId : String) (staged : Bool) : Lane := { L with
  attempts := L.attempts.map fun a => if a.commandId == commandId then { a with staged } else a }

/-- `admitRootDelivery` and `admitActiveInput`, and what `reconcile` does
with a compaction. -/
def admission (attempt : Attempt) (reconciled : Bool) : Option Lane :=
  match attempt.kind with
  | .rootTurn =>
    if L.history.rootExecutionId ≠ attempt.executionId then none
    else if (L.history.turn attempt.subjectId).isSome then some (L.deleteQueued attempt.commandId)
    else (L.history.createTurn attempt.executionId attempt.subjectId).map fun history =>
      { L with history }.deleteQueued attempt.commandId
  | .steer => some (L.deleteQueued attempt.commandId)
  | .manualCompact =>
    some (if reconciled then L.restoreAcceptedCompactionDelivery attempt.subjectId else L)

/-- An attempt is accepted, and its callback runs in the same
transaction. -/
def accept (commandId : String) (reconciled : Bool) : Option Lane :=
  (L.attempt commandId).bind fun attempt =>
    if attempt.state = .dispatching ∨ attempt.state = .unknown then
      (L.admission attempt reconciled).bind (·.setAttempt commandId
        [.dispatching, .unknown] .accepted)
    else none

end Lane

end Remux.Coordinator
