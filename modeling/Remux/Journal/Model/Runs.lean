import Remux.Common.Machine
import Remux.Journal.Model.Lifecycle
import Remux.Journal.Model.Snapshot

/-!
# Runs of the journal

The operations as actions of one machine, which starts with a new journal.
An operation that throws commits nothing, so that it is no step. What the
queue and the delivery owner write is left open: they may leave any rows
in their tables.
-/

namespace Remux.Journal

/-- An operation of the journal. -/
inductive JournalAction where
  | createConversation (input : CreateConversation)
  | createConversationStrand (input : CreateConversationStrand)
  | markStrandReady (strandId : String)
  | failStrand (strandId : String)
  | activateConversationStrand (input : ActivateConversationStrand)
  | createFederatedExecution (input : CreateFederatedExecution)
  | createTurn (input : CreateTurn)
  | bindNativeSession (input : BindNativeSession)
  | appendProviderEvents (envelopes : List ProviderEventEnvelope)
  | replaceSnapshot (events : List ProviderEventEnvelope)
    (completeKinds : Option (List TurnBlockKind))
  | markConversationRecovering (conversationId : String) (expectedRootExecutionId : Option String)
      (now : ℕ)
  | markExecutionRecovering (executionId : String) (now : ℕ)
  | confirmExecutionRunning (executionId : String) (now : ℕ)
  | failTurnDispatch (turnId : String) (now : ℕ)
  | failRecovery (conversationId : String) (expectedRootExecutionId : Option String) (now : ℕ)
  | repairRecoveryFailures
  | failExecution (executionId : String) (now : ℕ)
  | closeFederatedExecution (executionId : String) (now : ℕ)
  | setDeliveries (rows : List DeliveryRow)
  | setQueue (rows : List QueueRow)

/-- What an operation commits, or throws. -/
def apply (J : Journal) : JournalAction → Except StoreError Journal
  | .createConversation input => J.createConversation input
  | .createConversationStrand input => J.createConversationStrand input
  | .markStrandReady strandId => J.markStrandReady strandId
  | .failStrand strandId => J.failStrand strandId
  | .activateConversationStrand input => J.activateConversationStrand input
  | .createFederatedExecution input => J.createFederatedExecution input
  | .createTurn input => J.createTurn input
  | .bindNativeSession input => J.bindNativeSession input
  | .appendProviderEvents envelopes => do
    let (J, _) ← J.appendProviderEvents envelopes
    return J
  | .replaceSnapshot events completeKinds => do
    let (J, _) ← J.replaceSnapshot events completeKinds
    return J
  | .markConversationRecovering conversationId expected now => do
    let (J, _) ← J.markConversationRecovering conversationId expected now
    return J
  | .markExecutionRecovering executionId now => J.markExecutionRecovering executionId now
  | .confirmExecutionRunning executionId now => do
    let (J, _) ← J.confirmExecutionRunning executionId now
    return J
  | .failTurnDispatch turnId now => J.failTurnDispatch turnId now
  | .failRecovery conversationId expected now => do
    let (J, _) ← J.failRecovery conversationId expected now
    return J
  | .repairRecoveryFailures => do
    let (J, _) ← J.repairRecoveryFailures
    return J
  | .failExecution executionId now => J.failExecution executionId now
  | .closeFederatedExecution executionId now => J.closeFederatedExecution executionId now
  | .setDeliveries rows => return { J with deliveries := rows }
  | .setQueue rows => return { J with queue := rows }

/-- **The journal as a machine.** -/
def machine (providerInstances : List String) : Machine Journal JournalAction where
  init := new providerInstances
  step J action := (J.apply action).toOption

end Remux.Journal
