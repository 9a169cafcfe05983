import Remux.Journal.Model.Reduce

/-!
# Appending events

`appendProviderEvents` of `native-journal.ts`: an envelope is put in its
canonical form, its turn is created if it is a native one, and an event
that was not there is recorded and reduced. The batch is one transaction.

`reconcileCompactionPath` is left out: nothing modelled reads what it
writes.
-/

namespace Remux.Journal

variable (J : Journal)

/-- The ordinal for a new row: the one proposed, or the next one where that
is occupied. -/
def freeOrdinal (occupied : List ℕ) (proposed : ℕ) : ℕ :=
  if occupied.contains proposed then Table.next occupied else proposed

/-- The place that a block has: that of the row with its id, or else the
one proposed, in so far as it is free. -/
def canonicalPlace (turnId : String) (place : TurnStructure) : TurnStructure :=
  let existingBlock := (J.blocks.find? (·.blockId == place.blockId)).bind fun b =>
    (J.passes.find? (·.passId == b.passId)).map fun p => (b, p)
  let passId := (existingBlock.map fun (b, _) => b.passId).getD place.passId
  let existingPass := J.passes.find? (·.passId == passId)
  let passOrdinal := match existingBlock, existingPass with
    | some (_, p), _ => p.ordinal
    | none, some p => p.ordinal
    | none, none =>
      freeOrdinal ((J.passes.rows.filter (·.turnId == turnId)).map (·.ordinal)) place.passOrdinal
  let blockOrdinal := match existingBlock with
    | some (b, _) => b.ordinal
    | none =>
      freeOrdinal ((J.blocks.rows.filter (·.passId == passId)).map (·.ordinal)) place.blockOrdinal
  { passId, blockId := place.blockId, passOrdinal, blockOrdinal }

/-- `canonicalizeTurnBlockPlacement`. -/
def canonicalizeTurnBlockPlacement (envelope : ProviderEventEnvelope) : ProviderEventEnvelope :=
  match envelope.event, envelope.scope with
  | .turnBlock _ place _, .turn _ _ _ turnId =>
    let canonical := J.canonicalPlace turnId place
    envelope.withBlockStructure canonical.passId canonical.passOrdinal canonical.blockOrdinal
  | _, _ => envelope

/-- `canonicalizeCompactionEnvelope`. -/
def canonicalizeCompactionEnvelope (envelope : ProviderEventEnvelope) :
    Except StoreError (Journal × ProviderEventEnvelope) :=
  match envelope.event, envelope.compactionSubject, envelope.scope.conversationId with
  | .contextCompaction _ _ operationId, some subjectKey, some conversationId =>
    match J.compactions.find? (fun c =>
        c.conversationId == conversationId && c.providerSubjectKey == some subjectKey) with
    | some canonical => do
      let controlEvents ← J.controlEvents.update
        (fun c => c.conversationId == conversationId && c.operationId == canonical.operationId)
        fun c => { c with providerSubjectKey := c.providerSubjectKey <|> some subjectKey }
      return ({ J with controlEvents },
        envelope.withCompaction canonical.operationId canonical.trigger)
    | none =>
      if (J.compactionOperation operationId).any (·.conversationId == conversationId) then do
        let compactions ← J.compactions.update
          (fun c => c.operationId == operationId && c.providerSubjectKey.isNone)
          fun c => { c with providerSubjectKey := some subjectKey }
        let controlEvents ← J.controlEvents.update
          (fun c => c.conversationId == conversationId && c.operationId == operationId &&
            c.providerSubjectKey.isNone)
          fun c => { c with providerSubjectKey := some subjectKey }
        return ({ J with compactions, controlEvents }, envelope)
      else return (J, envelope)
  | _, _, _ => return (J, envelope)

/-- `hasCanonicalCompactionState`. -/
def hasCanonicalCompactionState (envelope : ProviderEventEnvelope) : Bool :=
  match envelope.event, envelope.compactionSubject, envelope.scope.conversationId with
  | .contextCompaction lifecycle _ _, some subjectKey, some conversationId =>
    J.controlEvents.rows.any fun c => c.conversationId == conversationId &&
      c.providerSubjectKey == some subjectKey && c.state == lifecycle
  | _, _, _ => false

/-- The event is a turn that the provider started by itself. -/
def ProviderEvent.autonomous : ProviderEvent → Bool
  | turnStarted native => native
  | _ => false

/-- The turn that `ensureNativeProviderTurn` creates. -/
def nativeProviderTurn (envelope : ProviderEventEnvelope)
    (turnId conversationId executionId : String) :
    CreateTurn :=
  let origin := if envelope.event.autonomous then "native-followup" else "native-child"
  { turnId, conversationId, executionId, clientMessageId := origin ++ "-message:" ++ turnId,
    commandId := origin ++ "-command:" ++ turnId, running := true, now := envelope.observedAt }

/-- `ensureNativeProviderTurn`. -/
def ensureNativeProviderTurn (envelope : ProviderEventEnvelope) : Except StoreError Journal :=
  match envelope.scope with
  | .turn _ conversationId executionId turnId =>
    if (J.turn turnId).isSome then return J else
      match J.execution executionId, J.conversation conversationId with
      | some execution, some conversation =>
        if (execution.ownership != .native && !envelope.event.autonomous) ||
            execution.conversationId != conversationId then return J
        else do
          Remux.check (!(envelope.event.autonomous && execution.ownership == .root &&
              (conversation.rootExecutionId != executionId || conversation.activeTurnId.isSome ||
                J.hasUnresolvedRootDelivery conversationId)))
            (.thrown
              "Native autonomous turn conflicts with the current root execution or delivery.")
          let J ← J.createTurn (nativeProviderTurn envelope turnId conversationId executionId)
          J.updateExecutions (·.executionId == executionId) fun e => { e with
            updatedAt := max e.updatedAt envelope.observedAt }
      | _, _ => return J
  | _ => return J

/-- `insertProviderEventRow`: whether the event was not there. -/
def insertProviderEventRow (envelope : ProviderEventEnvelope) :
    Except StoreError (Journal × Bool) :=
  if J.events.rows.any (·.envelope.eventId == envelope.eventId) then return (J, false)
  else do
    Table.require (J.providerInstances.contains envelope.scope.providerInstanceId)
      "provider_instances"
    Table.require (envelope.scope.conversationId.all fun id => (J.conversation id).isSome)
      "conversations"
    Table.require (envelope.scope.executionId.all fun id => (J.execution id).isSome) "executions"
    Table.require (envelope.scope.turnId.all fun id => (J.turn id).isSome) "turns"
    let events ← J.events.insert { envelope }
    return ({ J with events }, true)

/-- `appendProviderEventInTransaction`: whether the event was new. -/
def appendProviderEventInTransaction (candidate : ProviderEventEnvelope) :
    Except StoreError (Journal × Bool) := do
  let (J, envelope) ← J.canonicalizeCompactionEnvelope candidate
  let envelope := J.canonicalizeTurnBlockPlacement envelope
  let J ← J.ensureNativeProviderTurn envelope
  if J.hasCanonicalCompactionState envelope then return (J, false)
  else do
    let (J, inserted) ← J.insertProviderEventRow envelope
    if inserted then do
      let J ← J.reduceEvent envelope
      return (J, true)
    else return (J, false)

/-- **`appendProviderEvents`**: the journal, and the events that were new. -/
def appendProviderEvents : Journal → List ProviderEventEnvelope →
    Except StoreError (Journal × List ProviderEventEnvelope)
  | J, [] => return (J, [])
  | J, envelope :: rest => do
    let (J, inserted) ← J.appendProviderEventInTransaction envelope
    let (J, later) ← appendProviderEvents J rest
    return (J, if inserted then envelope :: later else later)

end Remux.Journal
