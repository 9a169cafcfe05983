import Remux.Common.Machine
import Remux.Coordinator.Model.Lane

/-!
# The commands of a conversation

`sendMessage`, `compactConversation`, `branchConversation` in edit mode and
`activateConversationStrand` of `native-coordinator.ts`, the dispatcher,
the deliveries and the events of the provider, for one conversation. A
step is what runs between two awaits, so that the steps of one call stand
among those of the others. The ids a command derives from its own are
given with it, and a compaction's attempt has the id of its operation in
place of the command's. Where a check outside the lane decides (a
capability, a queue pause), the action says how it went.
-/

namespace Remux.Coordinator

/-! ## Calls in flight -/

/-- What `dispatchNext` waits for. -/
inductive Dispatcher where
  | idle
  | message (commandId turnId executionId : String)
  | activeInput (commandId : String)
  | compact (operationId executionId : String)
  | delivering
  deriving DecidableEq

/-- What a delivery came to. -/
inductive DeliveryOutcome where
  | accepted
  | rejected
  | unknown
  deriving DecidableEq

/-- A call of the owner's `dispatch`, by the dispatcher or by a command,
and how it went, if its caller has yet to go on. -/
structure Delivery where
  commandId : String
  dispatcher : Bool
  outcome : Option DeliveryOutcome
  deriving DecidableEq

/-- A message that waits for the session to steer the active turn. -/
structure Steer where
  commandId : String
  activeTurnId : String
  deriving DecidableEq

/-- Where a call of `compactConversation` stands. -/
inductive CompactPhase where
  | synchronizing
  | opening
  deriving DecidableEq

/-- A call of `compactConversation` before it creates its operation. -/
structure Compact where
  operationId : String
  phase : CompactPhase
  deriving DecidableEq

/-- `branchConversation` in edit mode, or `activateConversationStrand`. -/
inductive SwitchMode where
  | edit
  | restore
  deriving DecidableEq

/-- Where a call that switches the history stands. -/
inductive SwitchPhase where
  | synchronizing
  | openingSource
  | forking
  | openingDestination
  | startingTurn
  deriving DecidableEq

/-- A call that switches the history: the first turns of the source strand
become those of a new one. -/
structure Switch where
  mode : SwitchMode
  sourceStrandId : String
  count : ℕ
  expectedRevision : ℕ
  strandId : String
  executionId : String
  turnId : String
  phase : SwitchPhase
  deriving DecidableEq

/-- `delivery` of a sent message. -/
inductive SendDelivery where
  | auto
  | queue
  | steer
  deriving DecidableEq

/-- What happens to a conversation between two awaits. -/
inductive LaneAction where
  | sendMessage (commandId turnId : String) (delivery : SendDelivery) (steerable paused : Bool)
  | steerOpened (commandId : String)
  | steerFailed (commandId : String)
  | removeQueuedMessage (id : String)
  | resolveDelivery (commandId : String)
  | compactConversation (operationId : String)
  | compactSynchronized (operationId : String)
  | compactOpened (operationId : String)
  | compactFailed (operationId : String)
  | dispatchNext (deliverable : Bool)
  | messageOpened
  | messageFailed
  | activeInputOpened (deliverable : Bool)
  | activeInputFailed
  | dispatchCompaction (activeParent : Bool)
  | compactionFailed
  | markPossiblySent (commandId : String)
  | dispatched (commandId : String) (outcome : DeliveryOutcome)
  | returned (commandId : String)
  | staged (commandId : String) (staged : Bool)
  | reconcile (commandId : String)
  | turnStarted (executionId turnId : String)
  | turnStatus (executionId turnId : String) (recovering : Bool)
  | turnCompleted (executionId turnId : String) (outcome : Journal.ProviderTurnOutcome)
  | acknowledgeQueuedTurnDispatch (turnId : String)
  | sessionBound (executionId : String)
  | sessionHealth (executionId : String) (health : Journal.SessionHealth)
  | compactionEvent (lifecycle : Journal.CompactionLifecycle) (trigger : Journal.CompactionTrigger)
      (operationId : String)
  | satisfyQueuedCompactionsAfterAutomatic
  | markConversationRecovering
  | terminateAmbiguousCompaction
  | failRecovery
  | confirmExecutionRunning (executionId : String)
  | startSwitch (switch : Switch)
  | switchSynchronized (strandId : String)
  | sourceOpened (strandId : String)
  | forked (strandId : String)
  | destinationOpened (strandId : String)
  | branchStarted (strandId : String)
  | switchFailed (strandId : String)

/-- **A conversation**: its lane, with the calls in flight. -/
structure Conversation where
  lane : Lane
  dispatcher : Dispatcher
  deliveries : List Delivery
  steers : List Steer
  compacts : List Compact
  switches : List Switch
  deriving DecidableEq

/-- What may go to a turn that is active: a message for it, or a
compaction. -/
def QueueEntry.active : QueueEntry → Bool
  | .message _ _ intent _ => intent == .auto
  | .compact _ => true

namespace Conversation

variable (C : Conversation)

/-! ## Messages -/

/-- No row has the ids of the message. -/
def freshMessage (commandId turnId : String) : Bool :=
  (C.lane.attempt commandId).isNone && (C.lane.history.turn turnId).isNone && C.lane.queue.all fun
      | .message id turn _ _ => id != commandId && turn != turnId
      | .compact _ => true

/-- `sendMessageOwned`, once the history is synchronized. -/
def sendMessage (commandId turnId : String) (delivery : SendDelivery) (steerable paused : Bool) :
    Option Conversation :=
  if C.lane.history.state = .recovering ∨ !C.freshMessage commandId turnId then none
  else match C.lane.history.activeTurnId with
    | none =>
      if delivery = .steer then none
      else
        let auto := delivery = .auto ∧ C.lane.queue = [] ∧ !C.lane.compactionPending ∧ !paused
        some { C with lane := C.lane.enqueueTurn commandId turnId (if auto then .auto else .queue) }
    | some activeTurnId =>
      if delivery = .steer ∧ steerable then
        some { C with steers := C.steers ++ [{ commandId, activeTurnId }] }
      else
        let auto := delivery = .auto ∧ C.lane.queue = [] ∧ !C.lane.compactionPending ∧ !paused
        some { C with lane := C.lane.enqueueTurn commandId turnId (if auto then .auto else .queue) }

/-- A delivery whose attempt is prepared. -/
def deliver (lane : Lane) (commandId : String) (dispatcher : Bool) : Conversation := { C with
  lane, deliveries := C.deliveries ++ [{ commandId, dispatcher, outcome := none }] }

/-- `steer`, once the session is open. -/
def steerOpened (commandId : String) : Option Conversation :=
  (C.steers.find? (·.commandId == commandId)).bind fun steer =>
    if C.lane.hasUnresolvedRootDelivery ∨
      C.lane.history.activeTurnId ≠ some steer.activeTurnId then none
    else
      (C.lane.prepare commandId .steer C.lane.history.rootExecutionId steer.activeTurnId).map
        fun lane => { C.deliver lane commandId false with
          steers := C.steers.filter (·.commandId != commandId) }

/-- `resolveDelivery`: the attempt is abandoned, and the active turn is
interrupted. -/
def resolveDelivery (commandId : String) : Option Conversation :=
  (C.lane.attempt commandId).bind fun attempt =>
    if attempt.kind = .manualCompact ∨
      attempt.executionId ≠ C.lane.history.rootExecutionId then none
    else (C.lane.setAttempt commandId [.unknown] .abandoned).map fun lane =>
      let lane := lane.deleteQueued commandId
      let root := lane.history.rootExecutionId
      { C with lane := { lane with
          history := match lane.history.activeTurnId with
            | some turnId => lane.history.reduceTurnCompleted root turnId .interrupted
            | none => { lane.history with state := .idle }.setExecution root .idle } }

/-! ## Compactions -/

/-- `queueOccupied`. -/
def queueOccupied : Bool :=
  C.lane.history.activeTurnId.isSome || C.lane.history.state == .recovering || !C.lane.queue.isEmpty

/-- `compactConversationOwned`, up to the synchronization of the history. -/
def compactConversation (operationId : String) : Option Conversation :=
  if C.lane.hasUnresolvedRootDelivery || C.lane.compactions.any (·.operationId == operationId) ||
      C.compacts.any (·.operationId == operationId) then none
  else some { C with compacts := C.compacts ++ [{ operationId, phase := .synchronizing }] }

/-- The history is synchronized: no operation may be pending. -/
def compactSynchronized (operationId : String) : Option Conversation :=
  if C.compacts.contains { operationId, phase := .synchronizing } && !C.lane.compactionPending then
    some { C with compacts := C.compacts.map fun call =>
      if call.operationId == operationId then { call with phase := .opening } else call }
  else none

/-- The session is open: the operation is created, and sent or queued. -/
def compactOpened (operationId : String) : Option Conversation :=
  if C.compacts.contains { operationId, phase := .opening } &&
      !C.lane.compactions.any (·.operationId == operationId) then
    let C' := { C with compacts := C.compacts.filter (·.operationId != operationId) }
    let lane := C.lane.createManualCompaction operationId (!C.queueOccupied)
    if C.queueOccupied then some { C' with lane }
    else (lane.prepare operationId .manualCompact lane.history.rootExecutionId operationId).map
      (C'.deliver · operationId false)
  else none

/-! ## The dispatcher -/

/-- `dispatchNext`, up to its first await. -/
def dispatchNext (deliverable : Bool) : Option Conversation :=
  if C.dispatcher ≠ .idle then none
  else match C.lane.queue with
    | [] => none
    | entry :: _ =>
      if C.lane.history.activeTurnId.isSome && !(deliverable && entry.active) ||
          C.lane.compactionRunning || C.lane.hasUnresolvedRootDelivery then none
      else match entry with
        | .message commandId turnId _ state =>
          if state = .dispatching ∨ state = .deliveryUnknown then none
          else some { C with
            lane := C.lane.setQueued commandId state .dispatching
            dispatcher := if C.lane.history.activeTurnId.isSome then .activeInput commandId
              else .message commandId turnId C.lane.history.rootExecutionId }
        | .compact operationId => some { C with
            lane := C.lane.claimCompaction operationId
            dispatcher := .compact operationId C.lane.history.rootExecutionId }

/-- The session for a message is open. -/
def messageOpened : Option Conversation :=
  match C.dispatcher with
  | .message commandId turnId executionId =>
    (C.lane.prepare commandId .rootTurn executionId turnId).map fun lane =>
      { C.deliver lane commandId true with dispatcher := .delivering }
  | _ => none

/-- A message was not delivered. -/
def undelivered (commandId turnId : String) : Lane :=
  let lane := C.lane.markQueuedTurnDeliveryUnknown commandId
  { lane with history := lane.history.failTurnDispatch turnId }

/-- The session for a message could not be opened. -/
def messageFailed : Option Conversation :=
  match C.dispatcher with
  | .message commandId turnId _ =>
    some { C with lane := C.undelivered commandId turnId, dispatcher := .idle }
  | _ => none

/-- `dispatchActiveQueuedInput`, once the session is open. -/
def activeInputOpened (deliverable : Bool) : Option Conversation :=
  match C.dispatcher with
  | .activeInput commandId =>
    if C.lane.hasUnresolvedRootDelivery then none
    else match C.lane.history.activeTurnId with
      | some turnId =>
        if deliverable then
          (C.lane.prepare commandId .steer C.lane.history.rootExecutionId turnId).map fun lane =>
            { C.deliver lane commandId true with dispatcher := .delivering }
        else some { C with
          lane := C.lane.setQueued commandId .dispatching .queued, dispatcher := .idle }
      | none => some { C with
          lane := C.lane.setQueued commandId .dispatching .queued, dispatcher := .idle }
  | _ => none

/-- The claimed input cannot be delivered, and its fate is unknown. -/
def activeInputFailed : Option Conversation :=
  match C.dispatcher with
  | .activeInput commandId =>
    some { C with lane := C.lane.markQueuedTurnDeliveryUnknown commandId, dispatcher := .idle }
  | _ => none

/-- `dispatchCompaction` of a claimed one, up to the delivery. -/
def dispatchCompaction (activeParent : Bool) : Option Conversation :=
  match C.dispatcher with
  | .compact operationId executionId =>
    if C.lane.hasUnresolvedRootDelivery || C.lane.history.activeTurnId.isSome &&
      !activeParent then none
    else (C.lane.prepare operationId .manualCompact executionId operationId).map fun lane =>
      { C.deliver lane operationId true with dispatcher := .delivering }
  | _ => none

/-- The claimed compaction fails before its delivery. -/
def compactionFailed : Option Conversation :=
  match C.dispatcher with
  | .compact operationId _ =>
    some { C with lane := C.lane.failCompaction operationId, dispatcher := .idle }
  | _ => none

/-! ## Deliveries -/

/-- What an outcome does to the attempt. Where the attempt was settled in
the meantime it is left as it is. -/
def settleAttempt (commandId : String) : DeliveryOutcome → Option Lane
  | .accepted => C.lane.accept commandId false
  | .rejected => C.lane.setAttempt commandId [.preparing, .dispatching] .rejected
  | .unknown => some ((C.lane.setAttempt commandId [.preparing, .dispatching] .unknown).getD C.lane)

/-- `dispatch` of the owner is over. -/
def dispatched (commandId : String) (outcome : DeliveryOutcome) : Option Conversation :=
  if C.deliveries.any fun d => d.commandId == commandId && d.outcome.isNone then
    (C.settleAttempt commandId outcome).map fun lane => { C with
      lane
      deliveries := C.deliveries.map fun d =>
        if d.commandId == commandId then { d with outcome := some outcome } else d }
  else none

/-- What the caller does after an outcome. -/
def afterDelivery (attempt : Attempt) (dispatcher : Bool) : DeliveryOutcome → Lane
  | .accepted => C.lane
  | outcome =>
    match attempt.kind with
    | .rootTurn => C.undelivered attempt.commandId attempt.subjectId
    | .steer =>
      if dispatcher then C.lane.markQueuedTurnDeliveryUnknown attempt.commandId else C.lane
    | .manualCompact =>
      if outcome = .rejected then C.lane.failCompaction attempt.subjectId
      else C.lane.markRunningCompactionDeliveryUnknown

/-- The caller of a delivery goes on. -/
def returned (commandId : String) : Option Conversation :=
  (C.deliveries.find? fun d => d.commandId == commandId && d.outcome.isSome).bind fun delivery =>
    delivery.outcome.bind fun outcome =>
      (C.lane.attempt commandId).map fun attempt => { C with
        lane := C.afterDelivery attempt delivery.dispatcher outcome
        deliveries := C.deliveries.filter (·.commandId != commandId)
        dispatcher := if delivery.dispatcher then .idle else C.dispatcher }

/-! ## Switches of the history -/

/-- The checks of both commands that nothing is going on. -/
def idle : Bool :=
  C.lane.history.state == .idle && C.lane.history.activeTurnId.isNone && C.lane.queue.isEmpty

/-- No row and no other call has the ids of the switch. -/
def freshSwitch (switch : Switch) : Bool :=
  C.switches.all (fun other =>
      other.strandId != switch.strandId && other.executionId != switch.executionId) &&
    C.lane.history.strands.all (fun s =>
      s.strandId != switch.strandId && s.rootExecutionId != switch.executionId)

/-- `branchConversationOwned` up to the synchronization of the history,
and `activateConversationStrandOwned` up to the opening of the source. -/
def startSwitch (switch : Switch) : Option Conversation :=
  if C.lane.hasUnresolvedRootDelivery || !C.freshSwitch switch then none
  else match switch.mode with
    | .edit => some { C with switches := C.switches ++ [{ switch with phase := .synchronizing }] }
    | .restore =>
      match C.lane.history.strand switch.sourceStrandId with
      | none => none
      | some source =>
        if C.lane.history.headRevision = switch.expectedRevision ∧
            C.lane.history.headStrandId ≠ switch.sourceStrandId ∧ C.idle ∧ source.state = .ready ∧
            source.path ≠ [] then
          some { C with switches := C.switches ++
            [{ switch with count := source.path.length, phase := .openingSource }] }
        else none

/-- The call goes on to a phase. -/
def setPhase (strandId : String) (phase : SwitchPhase) : Conversation := { C with
  switches := C.switches.map fun s => if s.strandId == strandId then { s with phase } else s }

/-- A call that is in a phase. -/
def switchIn (strandId : String) (phase : SwitchPhase) : Option Switch :=
  C.switches.find? fun s => s.strandId == strandId && s.phase == phase

/-- The history is synchronized: the checks of `branchConversationOwned`,
and the source is opened. -/
def switchSynchronized (strandId : String) : Option Conversation :=
  (C.switchIn strandId .synchronizing).bind fun switch =>
    (C.lane.history.strand switch.sourceStrandId).bind fun source =>
      if C.lane.history.headStrandId = switch.sourceStrandId ∧
          C.lane.history.headRevision = switch.expectedRevision ∧ C.idle ∧
          switch.count < source.path.length ∧ !C.lane.hasUnresolvedRootDelivery then
        some (C.setPhase strandId .openingSource)
      else none

/-- The source's session is open, and is forked. -/
def sourceOpened (strandId : String) : Option Conversation :=
  (C.switchIn strandId .openingSource).bind fun _ =>
    if C.lane.hasUnresolvedRootDelivery then none else some (C.setPhase strandId .forking)

/-- The native session is forked: the strand is created. -/
def forked (strandId : String) : Option Conversation :=
  (C.switchIn strandId .forking).bind fun switch =>
    (C.lane.history.strand switch.sourceStrandId).bind fun source =>
      (C.lane.history.createConversationStrand strandId switch.executionId source switch.count).map
        fun history =>
          { C.setPhase strandId .openingDestination with lane := { C.lane with history } }

/-- The new strand becomes the head. -/
def commit (switch : Switch) : Option Conversation :=
  (C.lane.history.markStrandReady switch.strandId).bind fun history =>
    (history.activateConversationStrand switch.strandId switch.expectedRevision).map fun history =>
      { C with
        lane := { C.lane with history }
        switches := C.switches.filter (·.strandId != switch.strandId) }

/-- The new strand's session is open: a restored one becomes the head, and
an edited one gets its turn. -/
def destinationOpened (strandId : String) : Option Conversation :=
  (C.switchIn strandId .openingDestination).bind fun switch =>
    match switch.mode with
    | .restore => C.commit switch
    | .edit => (C.lane.history.createTurn switch.executionId switch.turnId).map fun history =>
        { C.setPhase strandId .startingTurn with lane := { C.lane with history } }

/-- The provider has accepted the turn of an edited strand. -/
def branchStarted (strandId : String) : Option Conversation :=
  (C.switchIn strandId .startingTurn).bind C.commit

/-- A switch has failed. -/
def switchFailed (strandId : String) : Option Conversation :=
  if C.switches.any (·.strandId == strandId) then
    some { C with
      lane := { C.lane with history := C.lane.history.failStrand strandId }
      switches := C.switches.filter (·.strandId != strandId) }
  else none

/-! ## Steps -/

/-- A step of the lane alone. -/
def withLane (lane : Lane) : Conversation := { C with lane }

/-- A step of the history alone. -/
def withHistory (history : History) : Conversation := { C with lane := { C.lane with history } }

/-- What one action does. -/
def step : LaneAction → Option Conversation
  | .sendMessage commandId turnId delivery steerable paused =>
    C.sendMessage commandId turnId delivery steerable paused
  | .steerOpened commandId => C.steerOpened commandId
  | .steerFailed commandId =>
    some { C with steers := C.steers.filter (·.commandId != commandId) }
  | .removeQueuedMessage id =>
    some (C.withLane ((C.lane.removeQueuedTurn id).removeQueuedCompaction id))
  | .resolveDelivery commandId => C.resolveDelivery commandId
  | .compactConversation operationId => C.compactConversation operationId
  | .compactSynchronized operationId => C.compactSynchronized operationId
  | .compactOpened operationId => C.compactOpened operationId
  | .compactFailed operationId =>
    some { C with compacts := C.compacts.filter (·.operationId != operationId) }
  | .dispatchNext deliverable => C.dispatchNext deliverable
  | .messageOpened => C.messageOpened
  | .messageFailed => C.messageFailed
  | .activeInputOpened deliverable => C.activeInputOpened deliverable
  | .activeInputFailed => C.activeInputFailed
  | .dispatchCompaction activeParent => C.dispatchCompaction activeParent
  | .compactionFailed => C.compactionFailed
  | .markPossiblySent commandId =>
    (C.lane.setAttempt commandId [.preparing] .dispatching).map C.withLane
  | .dispatched commandId outcome => C.dispatched commandId outcome
  | .returned commandId => C.returned commandId
  | .staged commandId staged => some (C.withLane (C.lane.setStaged commandId staged))
  | .reconcile commandId => (C.lane.accept commandId true).map C.withLane
  | .turnStarted executionId turnId =>
    (C.lane.history.ensureNativeProviderTurn executionId turnId
      C.lane.hasUnresolvedRootDelivery).map fun history =>
        C.withHistory (history.reduceTurnStatus executionId turnId false)
  | .turnStatus executionId turnId recovering =>
    some (C.withHistory (C.lane.history.reduceTurnStatus executionId turnId recovering))
  | .turnCompleted executionId turnId outcome =>
    some (C.withHistory (C.lane.history.reduceTurnCompleted executionId turnId outcome))
  | .acknowledgeQueuedTurnDispatch turnId =>
    if (C.lane.history.turn turnId).any (·.state.terminal) then
      some (C.withLane (C.lane.acknowledgeQueuedTurnDispatch turnId))
    else none
  | .sessionBound executionId => some (C.withHistory (C.lane.history.bindNativeSession executionId))
  | .sessionHealth executionId health =>
    some (C.withHistory (C.lane.history.reduceSessionHealth executionId health))
  | .compactionEvent lifecycle trigger operationId =>
    some (C.withLane (C.lane.reduceCompactionEvent lifecycle trigger operationId))
  | .satisfyQueuedCompactionsAfterAutomatic =>
    some (C.withLane C.lane.satisfyQueuedCompactionsAfterAutomatic)
  | .markConversationRecovering => some (C.withHistory C.lane.history.markConversationRecovering)
  | .terminateAmbiguousCompaction => some (C.withLane C.lane.markRunningCompactionDeliveryUnknown)
  | .failRecovery => some (C.withHistory C.lane.history.failRecovery)
  | .confirmExecutionRunning executionId =>
    some (C.withHistory (C.lane.history.confirmExecutionRunning executionId))
  | .startSwitch switch => C.startSwitch switch
  | .switchSynchronized strandId => C.switchSynchronized strandId
  | .sourceOpened strandId => C.sourceOpened strandId
  | .forked strandId => C.forked strandId
  | .destinationOpened strandId => C.destinationOpened strandId
  | .branchStarted strandId => C.branchStarted strandId
  | .switchFailed strandId => C.switchFailed strandId

end Conversation

/-- A conversation whose first session is open. -/
def newConversation : Conversation where
  lane := {
    history := {
      rootExecutionId := "root", state := .idle, activeTurnId := none, headStrandId := "strand"
      headRevision := 1, executions := [{ executionId := "root", state := .idle }]
      strands := [{ strandId := "strand", rootExecutionId := "root", state := .ready, path := [] }]
      turns := [] }
    queue := [], compactions := [], attempts := [] }
  dispatcher := .idle
  deliveries := []
  steers := []
  compacts := []
  switches := []

/-- **A conversation as a machine.** -/
def conversationMachine : Machine Conversation LaneAction where
  init := newConversation
  step := Conversation.step

end Remux.Coordinator
