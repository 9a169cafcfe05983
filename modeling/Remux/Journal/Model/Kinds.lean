import Mathlib.Logic.Basic

/-!
# The enumerated columns of the journal

The columns whose `CHECK` constraints list their values, with the texts
that other parts of the code compare.
-/

namespace Remux

/-- `access`. -/
inductive Access where
  | readOnly
  | workspaceWrite
  | fullAccess
  deriving DecidableEq

/-- The text of an access. -/
def Access.text : Access → String
  | readOnly => "read-only"
  | workspaceWrite => "workspace-write"
  | fullAccess => "full-access"

/-- `TurnOrigin`. -/
inductive TurnOrigin where
  | user
  | nativeFollowup
  | federationNotification
  deriving DecidableEq

/-- The text of a turn's origin. -/
def TurnOrigin.text : TurnOrigin → String
  | user => "user"
  | nativeFollowup => "native-followup"
  | federationNotification => "federation-notification"

/-- `turns.state`. -/
inductive TurnState where
  | queued
  | running
  | recovering
  | completed
  | failed
  | interrupted
  deriving DecidableEq

/-- `state IN ('running', 'recovering')`. -/
def TurnState.live : TurnState → Bool
  | running | recovering => true
  | _ => false

/-- `state IN ('completed', 'failed', 'interrupted')`. -/
def TurnState.terminal : TurnState → Bool
  | completed | failed | interrupted => true
  | _ => false

/-- `command_receipts.state`. -/
inductive ReceiptState where
  | received
  | dispatching
  | accepted
  | rejected
  | recoveryFailed
  deriving DecidableEq

/-- `compaction_operations.state`. -/
inductive CompactionState where
  | queued
  | running
  | completed
  | failed
  | deliveryUnknown
  | cancelled
  deriving DecidableEq

/-- `queued_messages.state`. -/
inductive QueuedState where
  | queued
  | dispatching
  | blocked
  | deliveryUnknown
  deriving DecidableEq

/-- `queued_messages.delivery_intent`. -/
inductive DeliveryIntent where
  | auto
  | queue
  deriving DecidableEq

end Remux
