import Remux.Common.Machine
import Remux.Journal.Model.Reduce

/-!
# Waiting for a federated execution

What `native-coordinator.ts` does to announce that a federated execution
has completed: `waitForFederatedExecution` and
`finalizeFederatedExecution`, with the calls that end an execution or begin
it again. A step is what runs between two awaits. The rows of the journal
outlive the process; the waiters and the calls under way do not.

Of an execution the model has its state, its turns and what says whether
its completion is to be announced. What the providers answer and the clock
are given with the actions.
-/

namespace Remux

namespace Coordinator

open Journal (ProviderTurnOutcome ProviderExecutionState)

/-- A row of `turns`. -/
structure ChildTurn where
  turnId : String
  createdAt : ℕ
  state : TurnState
  outcome : Option ProviderTurnOutcome
  deriving DecidableEq

/-- `FederatedExecutionResult['status']`. -/
inductive FederatedStatus where
  | running
  | completed
  | interrupted
  | failed
  deriving DecidableEq

/-- How far `spawnFederatedAgent` has come: its session is opened, or its
turn is started. -/
inductive SpawnPhase where
  | opening
  | starting
  deriving DecidableEq

/-- **A federated execution**, and what the process has of it. -/
structure FederatedChild where
  created : Bool
  /-- The conversation is of Claude Code, and the parent is its root. -/
  claudeRoot : Bool
  /-- `federation_scheduling` is `foreground`. -/
  foreground : Bool
  state : ProviderExecutionState
  outcome : Option ProviderTurnOutcome
  /-- In the order in which they were inserted. -/
  turns : List ChildTurn
  /-- `native_sessions.state` is `closed`. -/
  closed : Bool
  federationWaited : Bool
  federationNotifiedTurnId : Option String
  /-- The turns that a notification was enqueued for. -/
  notifications : List String
  /-- The entry of `executionWaiters`; there is none without a waiter. -/
  executionWaiters : List ℕ
  spawning : Option SpawnPhase
  /-- The turns that `sendFederatedMessage` is starting. -/
  dispatching : List String
  /-- The completed turns whose effects are still to come. -/
  effects : ℕ
  /-- The calls of `recoverFederatedExecution` under way. -/
  recoveries : ℕ
  /-- The calls of `reconcile` for it under way, as a target of a Stop. -/
  reconciles : ℕ
  nextWaiter : ℕ
  /-- The waiters that were resolved, and the turn that was the latest. -/
  resolved : List (ℕ × Option String)
  /-- The waits that found the execution completed. -/
  answered : List ℕ
  aborted : List ℕ
  /-- The waiters that a restart has ended. -/
  dropped : List ℕ

namespace FederatedChild

/-- There is no execution of the id. -/
def absent : FederatedChild where
  created := false
  claudeRoot := false
  foreground := false
  state := .idle
  outcome := none
  turns := []
  closed := false
  federationWaited := false
  federationNotifiedTurnId := none
  notifications := []
  executionWaiters := []
  spawning := none
  dispatching := []
  effects := 0
  recoveries := 0
  reconciles := 0
  nextWaiter := 0
  resolved := []
  answered := []
  aborted := []
  dropped := []

variable (c : FederatedChild)

/-- `turnsForExecution(executionId).at(-1)`: the turn created last, and of
those the one inserted last. -/
def latestOf (turns : List ChildTurn) : Option ChildTurn :=
  turns.foldl (fun best turn =>
    match best with
    | none => some turn
    | some latest => if latest.createdAt ≤ turn.createdAt then some turn else some latest) none

/-- The turn that was created last. -/
def latestTurn : Option ChildTurn := latestOf c.turns

/-- `activeExecutionTurn` finds a turn. -/
def active : Bool := c.turns.any (·.state.live)

/-- `executionResult(executionId).status`. -/
def status : FederatedStatus :=
  if c.active ∨ c.state = .running ∨ c.state = .recovering then .running
  else
    match c.outcome with
    | some .completed => .completed
    | some .interrupted => .interrupted
    | _ => .failed

/-- The announcement of the latest turn, if it is still to come. -/
def announce : FederatedChild :=
  match c.latestTurn with
  | none => c
  | some latest =>
    if c.federationNotifiedTurnId = some latest.turnId then c
    else { c with
      federationNotifiedTurnId := some latest.turnId
      notifications :=
        if c.executionWaiters = [] ∧ c.claudeRoot ∧ (c.foreground ∨ c.federationWaited) then
          c.notifications ++ [latest.turnId]
        else c.notifications }

/-- `finalizeFederatedExecution`. -/
def finalize : FederatedChild :=
  if c.status = .running then c
  else
    { c.announce with
      executionWaiters := []
      resolved := c.resolved ++
        c.executionWaiters.map fun waiter => (waiter, c.latestTurn.map ChildTurn.turnId) }

/-- `waitForFederatedExecution`. A wait whose signal is aborted already is
rejected when it has been registered. -/
def wait (aborted : Bool) : FederatedChild :=
  let waiter := c.nextWaiter
  let issued := { c with federationWaited := true, nextWaiter := waiter + 1 }
  if issued.status ≠ .running then { issued with answered := c.answered ++ [waiter] }
  else
    let registered := { issued with executionWaiters := c.executionWaiters ++ [waiter] }
    let registered :=
      if aborted then
        { registered with
          executionWaiters := registered.executionWaiters.erase waiter
          aborted := c.aborted ++ [waiter] }
      else registered
    -- the state is read again, as it may have changed before the waiter was there
    if registered.status ≠ .running then
      { registered with
        executionWaiters := registered.executionWaiters.erase waiter
        answered := c.answered ++ [waiter] }
    else registered

/-- The signal of a wait is aborted. -/
def abort (waiter : ℕ) : Option FederatedChild :=
  if waiter ∈ c.executionWaiters then
    some { c with
      executionWaiters := c.executionWaiters.erase waiter
      aborted := c.aborted ++ [waiter] }
  else none

/-- `createTurn`, of a turn that runs. -/
def createTurn (turnId : String) (now : ℕ) : Option FederatedChild :=
  if turnId ∈ c.turns.map ChildTurn.turnId then none
  else some { c with
    turns := c.turns ++ [⟨turnId, now, .running, none⟩]
    state := .running
    outcome := none }

/-- `failExecution`. -/
def failExecution : FederatedChild := { c with
  turns := c.turns.map fun turn =>
    if turn.state.live then { turn with state := .failed, outcome := some .recoveryFailed }
    else turn
  state := .failed
  outcome := some .recoveryFailed }

/-- `failTurnDispatch`. -/
def failTurnDispatch (turnId : String) : FederatedChild := { c with
  turns := c.turns.map fun turn =>
    if turn.turnId = turnId then { turn with state := .failed, outcome := some .failed } else turn
  state := .failed
  outcome := some .failed }

/-- `closeFederatedExecution` of the journal. -/
def closeExecution : FederatedChild := { c with
  turns := c.turns.map fun turn =>
    if turn.state.live then { turn with state := .failed, outcome := some .recoveryFailed }
    else turn
  state := if c.state.live then .failed else c.state
  outcome := if c.state.live then some .recoveryFailed else c.outcome
  closed := true }

/-- A turn may still be completed: it is not terminal, or recovery had given
it up before. -/
def completable (turn : ChildTurn) (later : Bool) : Bool :=
  !turn.state.terminal || (turn.outcome = some .recoveryFailed && later)

/-- `turn.completed` in the journal. `later` says that the event is from
after the time at which recovery gave the turn up. -/
def completeTurn (turnId : String) (outcome : ProviderTurnOutcome) (later : Bool) :
    FederatedChild :=
  if c.turns.any fun turn => turn.turnId = turnId && completable turn later then
    let others := c.turns.any fun turn => turn.turnId ≠ turnId && turn.state.live
    { c with
      turns := c.turns.map fun turn =>
        if turn.turnId = turnId ∧ completable turn later then
          { turn with state := outcome.turnState, outcome := some outcome }
        else turn
      state := if others then c.state else outcome.executionState
      outcome := if others then c.outcome else some outcome }
  else c

/-- `turn.started` or `turn.status` in the journal. -/
def runTurn (turnId : String) (recovering : Bool) : Option FederatedChild :=
  if c.turns.any fun turn => turn.turnId = turnId && !turn.state.terminal then
    some { c with
      turns := c.turns.map fun turn =>
        if turn.turnId = turnId ∧ turn.state.terminal = false then
          { turn with state := if recovering then .recovering else .running }
        else turn
      state := if recovering then .recovering else .running
      outcome := none }
  else none

/-- `session.health` in the journal. -/
def health (ready : Bool) : FederatedChild := { c with
  state := if ready then (if c.active then .running else .idle) else .recovering
  closed := false }

/-- `bindNativeSession`. -/
def bindSession : FederatedChild := { c with
  state := if c.state = .recovering ∧ c.active = false then .idle else c.state
  closed := false }

/-- `markExecutionRecovering`. -/
def markRecovering : FederatedChild := { c with
  turns := c.turns.map fun turn =>
    if turn.state = .running then { turn with state := .recovering } else turn
  state := .recovering
  closed := false }

/-- `confirmExecutionRunning`. -/
def confirmRunning : FederatedChild :=
  match latestOf (c.turns.filter (·.state.live)) with
  | none => c
  | some current => { c with
    turns := c.turns.map fun turn =>
      if turn.turnId = current.turnId ∧ turn.state.live then { turn with state := .running }
      else turn
    state := .running
    outcome := none }

end FederatedChild

/-- What happens to a federated execution between two awaits. -/
inductive ChildAction where
  | spawn (claudeRoot foreground : Bool)
  | spawnTurn (turnId : String) (now : ℕ)
  | spawnAccepted
  | spawnFailed
  | send (turnId : String) (now : ℕ)
  | sendAccepted (turnId : String)
  | sendFailed (turnId : String)
  | bindSession
  | health (ready : Bool)
  | runTurn (turnId : String) (recovering : Bool)
  /-- `turn.completed` of a live stream, which has effects. -/
  | completeTurn (turnId : String) (outcome : ProviderTurnOutcome) (later : Bool)
  | effect
  /-- The effects of an event before it have failed. -/
  | effectLost
  /-- The stream is lost, or the process starts with the execution
  unfinished. -/
  | recover
  /-- `reconcile` of a target of a Stop, and its end: it journals a snapshot
  and does not finalize the execution. -/
  | reconcile
  | reconciled
  | snapshotTurn (turnId : String) (outcome : ProviderTurnOutcome) (later : Bool)
  | confirmRunning
  | recovered
  | recoveryFailed
  /-- It is given up without another recovery. -/
  | giveUp
  | finalize
  | close
  | wait (aborted : Bool)
  | abort (waiter : ℕ)
  deriving DecidableEq

namespace FederatedChild

variable (c : FederatedChild)

/-- What one action does. -/
def step : ChildAction → Option FederatedChild
  | .spawn claudeRoot foreground =>
    if c.created then none
    else some { absent with
      created := true, claudeRoot, foreground, state := .recovering, spawning := some .opening }
  | .spawnTurn turnId now =>
    if c.spawning = some .opening then
      (c.createTurn turnId now).map fun c => { c with spawning := some .starting }
    else none
  | .spawnAccepted =>
    if c.spawning = some .starting then some { c with spawning := none } else none
  | .spawnFailed =>
    if c.spawning.isSome then some { c.failExecution with spawning := none } else none
  | .send turnId now =>
    if c.created = false ∨ c.closed ∨ c.status = .running then none
    else (c.createTurn turnId now).map fun c =>
      { c with federationWaited := true, dispatching := turnId :: c.dispatching }
  | .sendAccepted turnId =>
    if turnId ∈ c.dispatching then some { c with dispatching := c.dispatching.erase turnId }
    else none
  -- the new turn fails before the execution is looked at
  | .sendFailed turnId =>
    if turnId ∈ c.dispatching then
      some ({ c with dispatching := c.dispatching.erase turnId }.failTurnDispatch turnId).finalize
    else none
  | .bindSession => if c.created then some c.bindSession else none
  | .health ready => if c.created then some (c.health ready) else none
  | .runTurn turnId recovering => c.runTurn turnId recovering
  | .completeTurn turnId outcome later =>
    if c.created then
      some { c.completeTurn turnId outcome later with effects := c.effects + 1 }
    else none
  | .effect => if 0 < c.effects then some { c with effects := c.effects - 1 }.finalize else none
  -- the events after one whose effects have thrown get none
  | .effectLost => if 0 < c.effects then some { c with effects := c.effects - 1 } else none
  | .recover =>
    if c.created ∧ c.state.live then
      some { c.markRecovering with recoveries := c.recoveries + 1 }
    else none
  | .reconcile => if c.created then some { c with reconciles := c.reconciles + 1 } else none
  | .reconciled =>
    if 0 < c.reconciles then some { c with reconciles := c.reconciles - 1 } else none
  -- a snapshot is journaled without its effects
  | .snapshotTurn turnId outcome later =>
    if 0 < c.recoveries + c.reconciles then some (c.completeTurn turnId outcome later) else none
  | .confirmRunning =>
    if 0 < c.recoveries + c.reconciles then some c.confirmRunning else none
  -- a terminal that the snapshot brought is finalized here
  | .recovered =>
    if 0 < c.recoveries then
      let c := { c with recoveries := c.recoveries - 1 }
      some (if c.state.live then c else c.finalize)
    else none
  | .recoveryFailed =>
    if 0 < c.recoveries then
      some { c with recoveries := c.recoveries - 1 }.failExecution.finalize
    else none
  | .giveUp => if c.created then some c.failExecution.finalize else none
  | .finalize => if c.created then some c.finalize else none
  | .close => if c.created then some c.closeExecution.finalize else none
  | .wait aborted => if c.created then some (c.wait aborted) else none
  | .abort waiter => c.abort waiter

/-- What is left of it when the process starts again. -/
def restart : FederatedChild := { c with
  executionWaiters := []
  spawning := none
  dispatching := []
  effects := 0
  recoveries := 0
  reconciles := 0
  dropped := c.dropped ++ c.executionWaiters }

end FederatedChild

/-- A step of one child, or a restart of them all. -/
inductive FederationAction where
  | child (executionId : String) (action : ChildAction)
  | restart
  deriving DecidableEq

/-- **The federated executions of a coordinator.** -/
def federationMachine : Machine (String → FederatedChild) FederationAction where
  init := fun _ => .absent
  step s
    | .child executionId action =>
      ((s executionId).step action).map fun c => Function.update s executionId c
    | .restart => some fun executionId => (s executionId).restart

end Coordinator

end Remux
