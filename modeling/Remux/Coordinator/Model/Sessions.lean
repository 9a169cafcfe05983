import Remux.Common.Machine
import Remux.Journal.Model.Events

/-!
# Provider sessions and executions

The two maps of `native-coordinator.ts`, `sessions` and
`openingSessions`, with the operations that await between reading and
writing them: `openAttachedSession`, `detachAndCloseSession`,
`closeFederatedExecution`, the end of a session's stream and the recovery
after it, and `close`. Each step is what runs between two awaits. Of the
journal they use the ownership of an execution, whether it recovers and
whether its native session is closed.
-/

namespace Remux

namespace Coordinator

open Journal (Ownership)

/-- How far an entry of `openingSessions` has come: the adapter opens a
session, it is bound in the journal and connects, it is closed because
that failed, or the entry is about to be deleted. -/
inductive OpeningPhase where
  | requested
  | connecting (session : ℕ)
  | failing (session : ℕ)
  | settled
  deriving DecidableEq

/-- A session is still to come of it. -/
def OpeningPhase.pending : OpeningPhase → Bool
  | requested | connecting _ => true
  | failing _ | settled => false

/-- It has asked for a session, and not finished closing it. -/
def OpeningPhase.unfinished : OpeningPhase → Bool
  | settled => false
  | _ => true

/-- **An execution's part of the maps**, with what is in flight for it. -/
structure Slot where
  /-- `none` while there is no execution of the id. -/
  ownership : Option Ownership
  /-- Its entry of `sessions`. -/
  session : Option ℕ
  /-- Its entry of `openingSessions`. -/
  opening : Option OpeningPhase
  /-- The sessions whose `close` has been called and not finished. -/
  closing : List ℕ
  /-- The sessions whose stream ended, and that are recovered from once
  they are closed. -/
  lost : List ℕ
  /-- The calls of `closeFederatedExecution` that wait for a session to
  close. -/
  closes : List (Option ℕ)
  /-- There is a row of `native_sessions`. -/
  bound : Bool
  /-- `native_sessions.state` is `closed`. -/
  nativeClosed : Bool
  /-- `executions.state` is `recovering`. -/
  recovering : Bool
  /-- Its native session was marked closed before. -/
  markedClosed : Bool

/-- There is no execution of the id. -/
def Slot.empty : Slot where
  ownership := none
  session := none
  opening := none
  closing := []
  lost := []
  closes := []
  bound := false
  nativeClosed := false
  recovering := false
  markedClosed := false

namespace Slot

variable (slot : Slot)

/-- `openAttachedSession`, up to its first await: the session that is
attached, the one that another call opens, or a new one. -/
def openAttachedSession (fenced : Bool) : Option Slot :=
  if slot.session.isSome then some slot
  else if fenced then none
  else if slot.opening.isSome then some slot
  else some { slot with opening := some .requested }

/-- `ensureExecutionSession`, up to its first await. -/
def ensureExecutionSession : Option Slot :=
  if slot.session.isSome then some slot
  else if slot.nativeClosed || !slot.bound then none
  else slot.openAttachedSession false

/-- The adapter has opened a session, which is bound in the journal. -/
def opened (session : ℕ) : Option Slot :=
  match slot.opening with
  | some .requested =>
    -- `bindNativeSession` inserts the row, or makes it ready again
    some { slot with opening := some (.connecting session), bound := true, nativeClosed := false }
  | _ => none

/-- The adapter has not opened a session. -/
def openFailed : Option Slot :=
  match slot.opening with
  | some .requested => some { slot with opening := none }
  | _ => none

/-- The session could not connect, or the coordinator is closed. -/
def connectFailed : Option Slot :=
  match slot.opening with
  | some (.connecting session) => some { slot with opening := some (.failing session) }
  | _ => none

/-- `attachSession`: a previous session of the execution is closed. -/
def attachSession (session : ℕ) : Slot := { slot with
  session := some session
  closing := slot.closing ++ slot.session.toList.filter (· != session)
  opening := some .settled }

/-- The session is connected: it is attached, unless the coordinator has
been closed in the meantime. -/
def connected (closed : Bool) : Option Slot :=
  match slot.opening with
  | some (.connecting session) =>
    if closed then slot.connectFailed else some (slot.attachSession session)
  | _ => none

/-- The entry is deleted. -/
def settle : Option Slot :=
  match slot.opening with
  | some .settled => some { slot with opening := none }
  | _ => none

/-- The session that failed is closed. -/
def failedClosed : Option Slot :=
  match slot.opening with
  | some (.failing _) => some { slot with opening := none }
  | _ => none

/-- `detachAndCloseSession`, up to its await. -/
def detachAndCloseSession (session : ℕ) (explicit work : Bool) : Option Slot :=
  if slot.session ≠ some session then none
  else if !explicit && work then none
  else some { slot with session := none, closing := slot.closing ++ [session] }

/-- `close` of a session has finished. -/
def closeFinished (session : ℕ) : Option Slot :=
  if session ∈ slot.closing then some { slot with closing := slot.closing.erase session } else none

/-- The stream of the attached session ends: the execution recovers, and
the session is closed first. -/
def streamEnded (session : ℕ) : Option Slot :=
  if slot.session = some session then
    some { slot with session := none, recovering := true, closing := slot.closing ++ [session]
                     lost := slot.lost ++ [session]
                     nativeClosed := slot.nativeClosed && slot.ownership ≠ some .federated }
  else none

/-- A `session.health` of the execution is recorded. -/
def sessionHealth (ready : Bool) : Option Slot :=
  if slot.ownership.isSome then some { slot with recovering := !ready, nativeClosed := false }
  else none

/-- `recoverAfterStreamLoss`, up to its first await, for an execution that
still recovers: a child is marked recovering again, and then a session
is opened. -/
def recoverAfterStreamLoss (session : ℕ) (fenced : Bool) : Option Slot :=
  if session ∈ slot.lost ∧ session ∉ slot.closing then
    let slot := { slot with lost := slot.lost.erase session }
    if !slot.recovering then some slot
    else match slot.ownership with
      | some .federated =>
        some (({ slot with nativeClosed := false }).ensureExecutionSession.getD slot)
      | _ => some ((slot.openAttachedSession fenced).getD slot)
  else none

/-- `closeFederatedExecution`, up to the close of the session. -/
def closeFederatedExecution : Option Slot :=
  if slot.ownership = some .federated then
    some { slot with session := none, closing := slot.closing ++ slot.session.toList
                     closes := slot.closes ++ [slot.session] }
  else none

/-- The rest of `closeFederatedExecution`: the execution has failed, if it
was live, and its native session is marked closed, if it has one. -/
def markNativeSessionClosed (session : Option ℕ) : Option Slot :=
  if session ∈ slot.closes ∧ session.all (· ∉ slot.closing) then
    -- an `UPDATE`, which finds no row where no session was ever bound
    some { slot with closes := slot.closes.erase session, recovering := false
                     nativeClosed := slot.nativeClosed || slot.bound
                     markedClosed := slot.markedClosed || slot.bound }
  else none

end Slot

/-- What the coordinator does between two awaits. -/
inductive SessionAction where
  | createExecution (executionId : String) (ownership : Ownership) (fenced : Bool)
  | ensureSession (executionId : String) (fenced : Bool)
  | ensureExecutionSession (executionId : String)
  | opened (executionId : String)
  | openFailed (executionId : String)
  | connectFailed (executionId : String)
  | connected (executionId : String)
  | settle (executionId : String)
  | failedClosed (executionId : String)
  | detachAndCloseSession (executionId : String) (session : ℕ) (explicit work : Bool)
  | closeFinished (executionId : String) (session : ℕ)
  | streamEnded (executionId : String) (session : ℕ)
  | recoverAfterStreamLoss (executionId : String) (session : ℕ) (fenced : Bool)
  | sessionHealth (executionId : String) (ready : Bool)
  | recovered (executionId : String)
  | closeFederatedExecution (executionId : String)
  | markNativeSessionClosed (executionId : String) (session : Option ℕ)
  | close

end Coordinator

open Coordinator

/-- **The coordinator**, as far as its sessions go. -/
structure Coordinator where
  closed : Bool
  slots : String → Slot
  nextSession : ℕ

namespace Coordinator

variable (C : Coordinator)

/-- A step of one execution. -/
def withSlot (executionId : String) (f : Slot → Option Slot) : Option Coordinator :=
  (f (C.slots executionId)).map fun slot =>
    { C with slots := fun id => if id = executionId then slot else C.slots id }

/-- The session that a spawn, or a new conversation, opens first. -/
def createExecution (ownership : Journal.Ownership) (fenced : Bool) (slot : Slot) : Option Slot :=
  if slot.ownership = none ∧ ownership ≠ .native then
    { slot with ownership := some ownership }.openAttachedSession fenced
  else none

/-- What one action does. -/
def step : SessionAction → Option Coordinator
  | .createExecution executionId ownership fenced =>
    C.withSlot executionId (createExecution ownership fenced)
  | .ensureSession executionId fenced =>
    C.withSlot executionId fun slot =>
      if slot.ownership = some .root then slot.openAttachedSession fenced else none
  | .ensureExecutionSession executionId =>
    C.withSlot executionId fun slot =>
      if slot.ownership = some .federated then slot.ensureExecutionSession else none
  | .opened executionId =>
    (C.withSlot executionId (·.opened C.nextSession)).map fun C =>
      { C with nextSession := C.nextSession + 1 }
  | .openFailed executionId => C.withSlot executionId (·.openFailed)
  | .connectFailed executionId => C.withSlot executionId (·.connectFailed)
  | .connected executionId => C.withSlot executionId (·.connected C.closed)
  | .settle executionId => C.withSlot executionId (·.settle)
  | .failedClosed executionId => C.withSlot executionId (·.failedClosed)
  | .detachAndCloseSession executionId session explicit work =>
    C.withSlot executionId (·.detachAndCloseSession session explicit work)
  | .closeFinished executionId session => C.withSlot executionId (·.closeFinished session)
  | .streamEnded executionId session => C.withSlot executionId (·.streamEnded session)
  | .recoverAfterStreamLoss executionId session fenced =>
    if C.closed then none
    else C.withSlot executionId (·.recoverAfterStreamLoss session fenced)
  | .sessionHealth executionId ready => C.withSlot executionId (·.sessionHealth ready)
  | .recovered executionId =>
    C.withSlot executionId fun slot => some { slot with recovering := false }
  | .closeFederatedExecution executionId => C.withSlot executionId (·.closeFederatedExecution)
  | .markNativeSessionClosed executionId session =>
    C.withSlot executionId (·.markNativeSessionClosed session)
  | .close =>
    if C.closed then none
    else some { C with
      closed := true
      slots := fun id => let slot := C.slots id
        { slot with session := none, closing := slot.closing ++ slot.session.toList } }

/-- **The coordinator as a machine.** -/
def machine : Machine Coordinator SessionAction where
  init := { closed := false, slots := fun _ => .empty, nextSession := 0 }
  step := step

end Coordinator

end Remux
