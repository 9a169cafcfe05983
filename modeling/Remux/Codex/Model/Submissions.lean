import Remux.Codex.Model.OperationQueue

/-!
# The record of submissions

What a run of the operation queue does with the entries that are submitted:
the machine of the queue with a record beside it, that its steps write and
never read. A submission has the number of submissions up to it for a ticket,
whether it is queued or sent at once.

A message is dispatched when `turn/start` goes out for it, with `thread/resume`
answered, and an entry is accepted when the app server answers its request.
-/

namespace Remux

/-- Who dispatches: the command lane or the notification thread. -/
inductive QueueParty where
  | lane
  | events
  deriving DecidableEq

/-- What a submission was answered, and whether its entry was in the queue
at that moment. -/
structure SubmitReply where
  ticket : ℕ
  reply : CommandReply
  queued : Bool
  deriving DecidableEq

/-- **The record.** -/
structure SubmitRecord where
  tickets : ℕ
  /-- The ticket of a queued entry. -/
  ticketOf : ℕ → ℕ
  /-- The ticket of what a party dispatches. -/
  held : QueueParty → ℕ
  /-- The tickets of the messages for which `turn/start` went out. -/
  dispatched : List ℕ
  /-- What the app server has accepted, with the turn it named. -/
  accepted : List (ℕ × Option String)
  /-- The tickets that the notification thread has taken out of the queue, to
  dispatch or with all that was queued. -/
  takenByEvents : List ℕ
  replies : List SubmitReply

/-- The command is a submission. -/
def LanePhase.submits : LanePhase → Bool
  | .submitting _ | .submittingBusy _ | .submittingEntries _ | .sending _ | .appending _
  | .submitDriving _ _ => true
  | _ => false

/-- The entry of a submission is in the queue. -/
def LanePhase.isQueued (queue : ThreadPendingQueue) : LanePhase → Bool
  | .submitDriving id _ => queue.contains id
  | _ => false

namespace SubmitRecord

variable (r : SubmitRecord)

/-- A party pops the front entry, and holds it. -/
def popped (party : QueueParty) (queue : ThreadPendingQueue) : SubmitRecord :=
  match queue.popFront with
  | some (entry, _) => { r with held := Function.update r.held party (r.ticketOf entry.id) }
  | none => r

/-- The app server answers a party's request. -/
def answered (party : QueueParty) (answer : AppServerAnswer) : DispatchPhase → SubmitRecord
  | .resuming .message =>
    match answer with
    | .ok _ => { r with dispatched := r.dispatched ++ [r.held party] }
    | .error => r
  | .starting .message =>
    match answer with
    | .ok (some turnId) => { r with accepted := r.accepted ++ [(r.held party, some turnId)] }
    | _ => r
  | .starting .compact =>
    match answer with
    | .ok _ => { r with accepted := r.accepted ++ [(r.held party, none)] }
    | .error => r
  | _ => r

/-- A step of a party's drive. -/
def drives (party : QueueParty) (queue : ThreadPendingQueue) (answer : AppServerAnswer) :
    DrivePhase → SubmitRecord
  | .popping => r.popped party queue
  | .dispatching phase => r.answered party answer phase
  | _ => r

/-- A submission is sent at once: the lane holds it. -/
def sentAtOnce : SubmitRecord :=
  { r with held := Function.update r.held .lane r.tickets }

/-- A submission gets its entry. -/
def entered (id : ℕ) : SubmitRecord :=
  { r with ticketOf := Function.update r.ticketOf id r.tickets }

/-- A submission is answered, if its command is over. -/
def replied (queued : Bool) : LanePhase → SubmitRecord
  | .waiting (some reply) => { r with replies := r.replies ++ [⟨r.tickets, reply, queued⟩] }
  | _ => r

/-- What a step of the lane does about its entry. -/
def laneActs (s : CodexServer) (answer : AppServerAnswer) : SubmitRecord :=
  match s.lane with
  | .submittingEntries _ => r.sentAtOnce
  | .sending phase => r.answered .lane answer phase
  | .appending _ => r.entered s.thread.entryCounter
  | .submitDriving _ phase => r.drives .lane s.thread.queue answer phase
  | .runDriving _ phase => r.drives .lane s.thread.queue answer phase
  | _ => r

/-- What a step of the lane puts on record. -/
def laneStep (s : CodexServer) (answer : AppServerAnswer) : SubmitRecord :=
  let r := r.laneActs s answer
  if s.lane.submits then
    r.replied (s.lane.isQueued s.thread.queue) (s.lane.step s.thread answer).2
  else r

/-- The entries that are no longer queued. -/
def taken (before after : ThreadPendingQueue) : SubmitRecord :=
  { r with
    takenByEvents := r.takenByEvents ++
      (before.entries.filter fun entry => !after.contains entry.id).map fun entry =>
        r.ticketOf entry.id }

/-- What a step of the notification thread does about its entry. -/
def eventsAct (s : CodexServer) (answer : AppServerAnswer) : SubmitRecord :=
  match s.events with
  | .driving phase => r.drives .events s.thread.queue answer phase
  | _ => r

/-- What a step of the notification thread puts on record. -/
def eventsStep (s : CodexServer) (answer : AppServerAnswer) : SubmitRecord :=
  (r.eventsAct s answer).taken s.thread.queue (s.events.step s.thread answer).1.queue

end SubmitRecord

/-- The operation queue with its record. -/
structure RecordedServer where
  server : CodexServer
  record : SubmitRecord

/-- What an action puts on record. -/
def SubmitRecord.step (r : SubmitRecord) (s : CodexServer) : CodexAction → SubmitRecord
  | .command (.submit _) => { r with tickets := r.tickets + 1 }
  | .command _ => r
  | .lane answer => r.laneStep s answer
  | .notify _ => r
  | .events answer => r.eventsStep s answer

/-- **The machine of the operation queue, with its record.** -/
def recordedMachine : Machine RecordedServer CodexAction where
  init := ⟨codexMachine.init, ⟨0, fun _ => 0, fun _ => 0, [], [], [], []⟩⟩
  step s a := (codexMachine.step s.server a).map fun server => ⟨server, s.record.step s.server a⟩

end Remux
