import Mathlib.Algebra.Group.Nat.Defs
import Mathlib.Data.Finset.Basic
import Remux.Codex.Model.ThreadRuntime
import Remux.Common.Machine

/-!
# The operation queue of a Codex thread

`operation_queue.rs` for one thread, with what `thread_commands.rs` does
for it. Two parties work on it: the command lane, which serves one command
of the thread after the other, and the thread of the process that takes the
notifications of the app server. Each critical section on a store is a
step, and so is each answer of the app server.

An entry has the value of the counter that makes its id unique for an id,
and its content is left out. `handed` is there for the statements only: the
ids of the messages that were taken to `dispatch_queued_message` or
`steer_queued_message`, in order.
-/

namespace Remux

/-- What is queued. -/
inductive OperationKind where
  | message
  | compact
  deriving DecidableEq

/-- `PendingQueueEntry`. -/
structure PendingQueueEntry where
  kind : OperationKind
  id : ℕ
  deriving DecidableEq

/-- `ThreadPendingQueue`. -/
structure ThreadPendingQueue where
  entries : List PendingQueueEntry
  outcomeUnknown : Finset ℕ
  revision : ℕ
  deriving DecidableEq

namespace ThreadPendingQueue

variable (queue : ThreadPendingQueue) (id : ℕ)

/-- `bump`: the revision is a saturating 64-bit counter. -/
def bump : ThreadPendingQueue := { queue with revision := min (queue.revision + 1) (2 ^ 64 - 1) }

/-- `contains`. -/
def contains : Bool := queue.entries.any fun entry => entry.id = id

/-- `append`. -/
def append (entry : PendingQueueEntry) : ThreadPendingQueue :=
  if queue.contains entry.id then queue
  else { queue with entries := queue.entries ++ [entry] }.bump

/-- `has_drivable_entries`. -/
def hasDrivableEntries : Bool :=
  queue.entries.head?.any fun entry => decide (entry.id ∉ queue.outcomeUnknown)

/-- `pop_front`. -/
def popFront : Option (PendingQueueEntry × ThreadPendingQueue) :=
  match queue.entries with
  | [] => none
  | entry :: entries =>
    if entry.id ∈ queue.outcomeUnknown then none
    else some (entry, { queue with entries }.bump)

/-- `entry`. -/
def entry : Option PendingQueueEntry := queue.entries.find? fun entry => entry.id = id

/-- `remove`. -/
def remove : ThreadPendingQueue :=
  let queue' :=
    { queue with
      entries := queue.entries.filter fun entry => entry.id ≠ id
      outcomeUnknown := queue.outcomeUnknown.erase id }
  if queue'.entries.length = queue.entries.length then queue' else queue'.bump

/-- `clear`. -/
def clear : ThreadPendingQueue :=
  if queue.entries = [] then queue
  else { queue with entries := [], outcomeUnknown := ∅ }.bump

/-- `mark_outcome_unknown`. -/
def markOutcomeUnknown : ThreadPendingQueue :=
  if !queue.contains id || decide (id ∈ queue.outcomeUnknown) then queue
  else { queue with outcomeUnknown := insert id queue.outcomeUnknown }.bump

end ThreadPendingQueue

/-- What the stores hold for the thread. -/
structure CodexThread where
  queue : ThreadPendingQueue
  runtime : ThreadRuntimeState
  /-- `driving_threads` has the thread. -/
  driving : Bool
  /-- `ENTRY_COUNTER`. -/
  entryCounter : ℕ
  handed : List ℕ
  deriving DecidableEq

/-- What the app server answers to a request: an error, or a response that
has a turn's id or has none. -/
inductive AppServerAnswer where
  | ok (turnId : Option String)
  | error
  deriving DecidableEq

/-- Where `dispatch_queued_message` or `dispatch_queued_compaction`
stands. -/
inductive DispatchPhase where
  /-- `thread/resume`. -/
  | resuming (kind : OperationKind)
  /-- `turn/start` or `thread/compact/start`. -/
  | starting (kind : OperationKind)
  | accepting (turnId : Option String)
  | failing
  /-- It returns the turn's id, if it has one, or an error. -/
  | done (result : Option (Option String))
  deriving DecidableEq

/-- The next step of a dispatch. A response to `turn/start` without a
turn's id is an error the runtime does not see. -/
def DispatchPhase.step (t : CodexThread) (answer : AppServerAnswer) :
    DispatchPhase → CodexThread × DispatchPhase
  | .resuming kind =>
    match answer with
    | .ok _ => (t, .starting kind)
    | .error => (t, .done none)
  | .starting .message =>
    match answer with
    | .ok (some turnId) => (t, .accepting (some turnId))
    | .ok none => (t, .done none)
    | .error => (t, .failing)
  | .starting .compact =>
    match answer with
    | .ok _ => (t, .accepting none)
    | .error => (t, .done none)
  | .accepting turnId =>
    ({ t with runtime := t.runtime.recordTurnAccepted turnId }, .done (some turnId))
  | .failing => ({ t with runtime := .recordTurnFailed }, .done none)
  | .done result => (t, .done result)

/-- `DriveEffect`. -/
structure DriveEffect where
  changed : Bool
  started : Bool
  turnId : Option String
  deriving DecidableEq

/-- The default effect: nothing was done. -/
def DriveEffect.none : DriveEffect := ⟨false, false, Option.none⟩

/-- Where `drive_if_idle` stands. -/
inductive DrivePhase where
  /-- The first `is_busy`. -/
  | checking
  | claiming
  /-- The `is_busy` of `drive_claimed_thread`. -/
  | claimed
  | popping
  | dispatching (phase : DispatchPhase)
  | releasing (effect : DriveEffect)
  /-- `has_drivable_entries`. -/
  | rechecking (effect : DriveEffect)
  /-- The last `is_busy`. -/
  | recheckingBusy (effect : DriveEffect)
  | returned (effect : DriveEffect)
  deriving DecidableEq

/-- The entry is handed to the app server, if it is a message. -/
def CodexThread.hand (t : CodexThread) (entry : PendingQueueEntry) : CodexThread :=
  match entry.kind with
  | .message => { t with handed := t.handed ++ [entry.id] }
  | .compact => t

/-- The next step of `drive_if_idle`. -/
def DrivePhase.step (t : CodexThread) (answer : AppServerAnswer) :
    DrivePhase → CodexThread × DrivePhase
  | .checking => (t, if t.runtime.isBusy then .returned .none else .claiming)
  | .claiming =>
    if t.driving then (t, .returned .none) else ({ t with driving := true }, .claimed)
  | .claimed => (t, if t.runtime.isBusy then .releasing .none else .popping)
  | .popping =>
    match t.queue.popFront with
    | none => (t, .releasing .none)
    | some (entry, queue) =>
      (({ t with queue } : CodexThread).hand entry, .dispatching (.resuming entry.kind))
  | .dispatching (.done (some turnId)) => (t, .releasing ⟨true, true, turnId⟩)
  | .dispatching (.done none) =>
    ({ t with queue := t.queue.clear }, .releasing ⟨true, false, none⟩)
  | .dispatching phase =>
    let (t, phase) := phase.step t answer
    (t, .dispatching phase)
  | .releasing effect =>
    ({ t with driving := false }, if effect.started then .returned effect else .rechecking effect)
  | .rechecking effect =>
    (t, if t.queue.hasDrivableEntries then .recheckingBusy effect else .returned effect)
  | .recheckingBusy effect =>
    (t, if t.runtime.isBusy then .returned effect else .checking)
  | .returned effect => (t, .returned effect)

/-- A command of the thread. -/
inductive CodexCommand where
  /-- `submit_message` or `submit_compact`. -/
  | submit (kind : OperationKind)
  | remove (id : ℕ)
  | runNow (id : ℕ)
  | interrupt (turnId : Option String)
  deriving DecidableEq

/-- What a command returns. -/
inductive CommandReply where
  | rejected
  | sent (turnId : Option String)
  | queued
  | accepted
  | retained
  | outcomeUnknown
  deriving DecidableEq

/-- Where the command lane stands. -/
inductive LanePhase where
  /-- It waits for a command; the last one returned this. -/
  | waiting (reply : Option CommandReply)
  /-- `submit_*`: `is_stopping`. -/
  | submitting (kind : OperationKind)
  /-- `is_busy`. -/
  | submittingBusy (kind : OperationKind)
  /-- `has_entries`. -/
  | submittingEntries (kind : OperationKind)
  /-- The dispatch of what is not queued. -/
  | sending (phase : DispatchPhase)
  | appending (kind : OperationKind)
  /-- `drive_if_idle` for the entry that was just appended. -/
  | submitDriving (id : ℕ) (phase : DrivePhase)
  | removing (id : ℕ)
  /-- `run_now`: its copy of the entry. -/
  | copying (id : ℕ)
  /-- `is_outcome_unknown`. -/
  | checkingOutcome (id : ℕ)
  /-- `active_turn_id`. -/
  | checkingTurn (id : ℕ)
  | runDriving (id : ℕ) (phase : DrivePhase)
  /-- `is_stopping`, and then the call of `steer_queued_message`. -/
  | checkingStopping (id : ℕ) (turnId : String)
  /-- `thread/resume`, and then `turn/steer`. -/
  | steerResuming (id : ℕ)
  | steering (id : ℕ)
  | steered (id : ℕ)
  | steerFailed (id : ℕ)
  /-- `interrupt`: it clears the queue. -/
  | interrupting (turnId : Option String)
  /-- Which turn: the one that was named, or the active one. -/
  | interruptingTurn (turnId : Option String)
  /-- `turn/interrupt`. -/
  | interruptRequested (turnId : String)
  | interruptRecording (turnId : String)
  deriving DecidableEq

/-- The first phase of a command. -/
def CodexCommand.start : CodexCommand → LanePhase
  | .submit kind => .submitting kind
  | .remove id => .removing id
  | .runNow id => .copying id
  | .interrupt turnId => .interrupting turnId

/-- The next step of the command that the lane serves. -/
def LanePhase.step (t : CodexThread) (answer : AppServerAnswer) :
    LanePhase → CodexThread × LanePhase
  | .waiting reply => (t, .waiting reply)
  | .submitting kind =>
    (t, if t.runtime.isStopping then .waiting (some .rejected) else .submittingBusy kind)
  | .submittingBusy kind =>
    (t, if t.runtime.isBusy then .appending kind else .submittingEntries kind)
  | .submittingEntries kind =>
    (t, if t.queue.entries = [] then .sending (.resuming kind) else .appending kind)
  | .sending (.done (some turnId)) => (t, .waiting (some (.sent turnId)))
  | .sending (.done none) => (t, .waiting (some .rejected))
  | .sending phase =>
    let (t, phase) := phase.step t answer
    (t, .sending phase)
  | .appending kind =>
    ({ t with
        queue := t.queue.append ⟨kind, t.entryCounter⟩
        entryCounter := t.entryCounter + 1 },
      .submitDriving t.entryCounter .checking)
  | .submitDriving id (.returned effect) =>
    if effect.started && !t.queue.contains id then (t, .waiting (some (.sent effect.turnId)))
    else (t, .waiting (some .queued))
  | .submitDriving id phase =>
    let (t, phase) := phase.step t answer
    (t, .submitDriving id phase)
  | .removing id => ({ t with queue := t.queue.remove id }, .waiting (some .accepted))
  | .copying id =>
    match t.queue.entry id with
    | some ⟨.message, _⟩ => (t, .checkingOutcome id)
    | some ⟨.compact, _⟩ | none => (t, .waiting (some .retained))
  | .checkingOutcome id =>
    (t, if id ∈ t.queue.outcomeUnknown then .waiting (some .outcomeUnknown) else .checkingTurn id)
  | .checkingTurn id =>
    match t.runtime.activeTurnId with
    | some turnId => (t, .checkingStopping id turnId)
    | none => (t, .runDriving id .checking)
  | .runDriving id (.returned _) =>
    (t, .waiting (some (if t.queue.contains id then .retained else .accepted)))
  | .runDriving id phase =>
    let (t, phase) := phase.step t answer
    (t, .runDriving id phase)
  | .checkingStopping id _ =>
    if t.runtime.isStopping then (t, .waiting (some .retained))
    else (t.hand ⟨.message, id⟩, .steerResuming id)
  | .steerResuming id =>
    match answer with
    | .ok _ => (t, .steering id)
    | .error => (t, .steerFailed id)
  | .steering id =>
    match answer with
    | .ok (some _) => (t, .steered id)
    | .ok none | .error => (t, .steerFailed id)
  | .steered id => ({ t with queue := t.queue.remove id }, .waiting (some .accepted))
  | .steerFailed id =>
    ({ t with queue := t.queue.markOutcomeUnknown id }, .waiting (some .outcomeUnknown))
  | .interrupting turnId => ({ t with queue := t.queue.clear }, .interruptingTurn turnId)
  | .interruptingTurn turnId =>
    match turnId <|> t.runtime.activeTurnId with
    | some turnId => (t, .interruptRequested turnId)
    | none => (t, .waiting (some .rejected))
  | .interruptRequested turnId =>
    match answer with
    | .ok _ => (t, .interruptRecording turnId)
    | .error => (t, .waiting (some .rejected))
  | .interruptRecording turnId =>
    ({ t with runtime := .recordTurnStopping turnId }, .waiting (some .accepted))

/-- Where the notification thread stands. -/
inductive EventPhase where
  | waiting
  /-- The runtime has recorded the notification, and the queue is next. -/
  | queueing (notification : CodexNotification)
  | driving (phase : DrivePhase)
  deriving DecidableEq

/-- The next step of `record_notification`. A turn without a status is a
completed one. -/
def EventPhase.step (t : CodexThread) (answer : AppServerAnswer) :
    EventPhase → CodexThread × EventPhase
  | .waiting => (t, .waiting)
  | .queueing (.turnCompleted status) =>
    if status.getD "completed" = "completed" then (t, .driving .checking)
    else ({ t with queue := t.queue.clear }, .waiting)
  | .queueing .error => ({ t with queue := t.queue.clear }, .waiting)
  | .queueing (.threadStatusChanged (.object "systemError")) =>
    ({ t with queue := t.queue.clear }, .waiting)
  | .queueing _ => (t, .waiting)
  | .driving (.returned _) => (t, .waiting)
  | .driving phase =>
    let (t, phase) := phase.step t answer
    (t, .driving phase)

/-- The thread and the two parties that work on it. -/
structure CodexServer where
  thread : CodexThread
  lane : LanePhase
  events : EventPhase
  deriving DecidableEq

/-- A command or a notification that comes in, or a step of a party; the
answer matters where the party waits for one. -/
inductive CodexAction where
  | command (command : CodexCommand)
  | lane (answer : AppServerAnswer)
  | notify (notification : CodexNotification)
  | events (answer : AppServerAnswer)
  deriving DecidableEq

/-- **The machine of the operation queue.** -/
def codexMachine : Machine CodexServer CodexAction where
  init := ⟨⟨⟨[], ∅, 0⟩, .new, false, 1, []⟩, .waiting none, .waiting⟩
  step s
    | .command command =>
      match s.lane with
      | .waiting _ => some { s with lane := command.start }
      | _ => none
    | .lane answer =>
      let (thread, lane) := s.lane.step s.thread answer
      some { s with thread, lane }
    | .notify notification =>
      match s.events with
      | .waiting =>
        some { s with
          thread := { s.thread with runtime := s.thread.runtime.recordNotification notification }
          events := .queueing notification }
      | _ => none
    | .events answer =>
      let (thread, events) := s.events.step s.thread answer
      some { s with thread, events }

end Remux
