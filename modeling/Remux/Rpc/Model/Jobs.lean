import Remux.Rpc.Model.Requests

/-!
# Job starts

The jobs a server runs for its clients, in `rpc/ws.rs`: `start_job` makes
a record and spawns its task, the task writes what becomes of it through
`update_job`, and `remux/jobs/cancel` takes the task's abort handle,
aborts it and writes `canceled`. Every lock of the jobs is a step of its
own. A start, a task and a cancel are named by their positions in the
lists of all of them.

What a handler computes is not modelled: it suspends and returns as it
likes. Two fields are there for the statements only: the start that made
a record, and the one that spawned a task.
-/

namespace Remux

/-- `MAX_RETAINED_JOBS`. -/
def maxRetainedJobs : ℕ := 256

/-- The states of a job. -/
inductive JobStatus where
  | accepted
  | running
  | completed
  | failed
  | canceled
  deriving DecidableEq

namespace JobStatus

/-- The text of a status. -/
def text : JobStatus → String
  | accepted => "accepted"
  | running => "running"
  | completed => "completed"
  | failed => "failed"
  | canceled => "canceled"

/-- `matches!(state, "completed" | "failed" | "canceled")`. -/
def terminal : JobStatus → Bool
  | completed | failed | canceled => true
  | accepted | running => false

end JobStatus

/-- `JobState`. The abort handle is named by its task. -/
structure JobState where
  method : String
  operationId : String
  revision : UInt64
  state : JobStatus
  error : Option String
  result : Option Value
  abort : Option ℕ
  /-- The start that made it. -/
  start : ℕ

/-- `JobState::value`. -/
def JobState.value (job : JobState) : Value :=
  .object [("error", (job.error.map Value.string).getD .null), ("method", .string job.method),
    ("operationId", .string job.operationId), ("result", job.result.getD .null),
    ("revision", .number (.posInt job.revision)), ("state", .string job.state.text)]

/-- Where a call of `start_job` stands. -/
inductive StartPhase where
  /-- The lock under which the job is accepted. -/
  | locking
  /-- `broadcast_job`. -/
  | announcing
  /-- `tokio::spawn`. -/
  | spawning
  /-- The lock under which the task's abort handle is stored. -/
  | storing (task : ℕ)
  | over
  deriving DecidableEq

/-- A call of `start_job`, and the response it sent. -/
structure JobStart where
  method : String
  operationId : String
  phase : StartPhase
  reply : Option RpcOutcome

/-- Where the task of a job stands. A task can be dropped only where it
is not being polled: in `spawned` and in `awaiting`. -/
inductive TaskPhase where
  /-- Not polled yet. -/
  | spawned
  /-- `update_job` to `running`. -/
  | starting
  /-- Its `broadcast_job`. -/
  | started
  /-- The handler runs. -/
  | calling
  /-- The handler has suspended. -/
  | awaiting
  /-- `update_job` to the handler's outcome. -/
  | finishing (outcome : RpcOutcome)
  /-- Its `broadcast_job`. -/
  | finished
  | over

/-- The task of a job. -/
structure JobTask where
  start : ℕ
  operationId : String
  phase : TaskPhase
  /-- `abort` was called. -/
  aborted : Bool

/-- Where a `remux/jobs/cancel` request stands. -/
inductive CancelPhase where
  /-- The lock under which the abort handle is taken. -/
  | locking
  /-- `abort.abort()`. -/
  | aborting (task : ℕ)
  /-- `update_job` to `canceled`. -/
  | updating
  /-- Its `broadcast_job`. -/
  | announcing
  | over
  deriving DecidableEq

/-- A `remux/jobs/cancel` request, the handle it took, and the response
it sent. -/
structure JobCancel where
  operationId : Option String
  phase : CancelPhase
  handle : Option ℕ
  reply : Option RpcOutcome

/-- The jobs of a `WsServer`, all that works on them, and what was
broadcast. -/
structure JobServer where
  jobs : Assoc String JobState
  starts : List JobStart
  tasks : List JobTask
  cancels : List JobCancel
  broadcasts : List Value

/-- The operation of a `job-start`, if it names one. -/
def jobOperationId (message : Value) : Option String :=
  match ((message.get "remuxContract").bind (·.get "operationId")).bind (·.asStr) with
  | some operationId => if operationId.isEmpty then none else some operationId
  | none => none

/-- The refusal of a start that names no operation. -/
def jobStartRequiresOperationId : JsonRpcError :=
  .new invalidRequest "job-start requires operationId"

/-- The response to a `job-start`. -/
def startedReply (accepted : Bool) (operationId : String) (revision : UInt64) : RpcOutcome :=
  .result (.object [("accepted", .bool accepted), ("operationId", .string operationId),
    ("revision", .number (.posInt revision))])

/-- The response to a `remux/jobs/cancel`. -/
def cancelReply (accepted : Bool) (operationId : Option String) : RpcOutcome :=
  .result (.object [("accepted", .bool accepted),
    ("operationId", (operationId.map Value.string).getD .null)])

/-- `u64::saturating_add(1)`. -/
def nextRevision (revision : UInt64) : UInt64 :=
  if revision.toNat + 1 < UInt64.size then revision + 1 else revision

/-- What `update_job` writes. -/
def JobState.update (state : JobStatus) (error : Option String) (result : Option Value)
    (job : JobState) : JobState :=
  { job with
    revision := nextRevision job.revision
    state, error, result
    abort := if state.terminal then none else job.abort }

/-- The jobs with room for one more, if one of them is terminal. -/
def evictTerminal (jobs : Assoc String JobState) : Assoc String JobState :=
  if jobs.size ≥ maxRetainedJobs then
    match jobs.entries.find? fun entry => entry.2.state.terminal with
    | some entry => jobs.erase entry.1
    | none => jobs
  else jobs

namespace JobServer

/-- The lock of `update_job`. -/
def updateJob (s : JobServer) (operationId : String) (state : JobStatus) (error : Option String)
    (result : Option Value) : JobServer :=
  { s with jobs := s.jobs.modify operationId (JobState.update state error result) }

/-- `broadcast_job`. -/
def broadcastJob (s : JobServer) (operationId : String) : JobServer :=
  match s.jobs.lookup operationId with
  | some job =>
    { s with broadcasts := s.broadcasts ++
        [.object [("method", .string "remux/jobs/didChange"), ("params", job.value)]] }
  | none => s

/-- The next step of a call of `start_job`. -/
def stepStart (s : JobServer) (i : ℕ) : Option JobServer :=
  (s.starts[i]?).bind fun start =>
    match start.phase with
    | .locking =>
      match s.jobs.lookup start.operationId with
      | some existing =>
        let reply := startedReply false start.operationId existing.revision
        some { s with starts := s.starts.set i { start with phase := .over, reply := some reply } }
      | none =>
        let jobs := evictTerminal s.jobs
        if jobs.size ≥ maxRetainedJobs then
          let reply := RpcOutcome.error (serverBusyError "remux/jobs")
          some { s with
            jobs
            starts := s.starts.set i { start with phase := .over, reply := some reply } }
        else
          let job : JobState :=
            { method := start.method, operationId := start.operationId, revision := 1
              state := .accepted, error := none, result := none, abort := none, start := i }
          let reply := startedReply true start.operationId 1
          some { s with
            jobs := jobs.insert start.operationId job
            starts := s.starts.set i { start with phase := .announcing, reply := some reply } }
    | .announcing =>
      some { s.broadcastJob start.operationId with
        starts := s.starts.set i { start with phase := .spawning } }
    | .spawning =>
      some { s with
        tasks := s.tasks ++ [⟨i, start.operationId, .spawned, false⟩]
        starts := s.starts.set i { start with phase := .storing s.tasks.length } }
    | .storing task =>
      some { s with
        jobs := s.jobs.modify start.operationId fun job =>
          if job.state.terminal then job else { job with abort := some task }
        starts := s.starts.set i { start with phase := .over } }
    | .over => none

/-- How a task goes on: where its code says, or, in the handler, by
suspending or returning. -/
inductive TaskTurn where
  | advance
  | suspend
  | answer (outcome : RpcOutcome)

/-- The next step of a job's task. -/
def stepTask (s : JobServer) (t : ℕ) (turn : TaskTurn) : Option JobServer :=
  (s.tasks[t]?).bind fun task =>
    let enter (s : JobServer) (phase : TaskPhase) : Option JobServer :=
      some { s with tasks := s.tasks.set t { task with phase } }
    match task.phase, turn with
    | .spawned, .advance => enter s (if task.aborted then .over else .starting)
    | .starting, .advance => enter (s.updateJob task.operationId .running none none) .started
    | .started, .advance => enter (s.broadcastJob task.operationId) .calling
    | .calling, .suspend => enter s .awaiting
    | .calling, .answer outcome => enter s (.finishing outcome)
    | .awaiting, .advance => enter s (if task.aborted then .over else .calling)
    | .finishing (.result result), .advance =>
      enter (s.updateJob task.operationId .completed none (some result)) .finished
    | .finishing (.error error), .advance =>
      enter (s.updateJob task.operationId .failed (some error.message) none) .finished
    | .finished, .advance => enter (s.broadcastJob task.operationId) .over
    | _, _ => none

/-- The next step of a `remux/jobs/cancel` request. -/
def stepCancel (s : JobServer) (c : ℕ) : Option JobServer :=
  (s.cancels[c]?).bind fun cancel =>
    let enter (s : JobServer) (cancel : JobCancel) : Option JobServer :=
      some { s with cancels := s.cancels.set c cancel }
    match cancel.phase, cancel.operationId with
    | .locking, operationId =>
      match operationId.bind fun operationId => (s.jobs.lookup operationId).bind (·.abort) with
      | some task =>
        enter { s with jobs := s.jobs.modify (operationId.getD "") fun job =>
            { job with abort := none } }
          { cancel with phase := .aborting task, handle := some task }
      | none =>
        enter s { cancel with phase := .over, reply := some (cancelReply false operationId) }
    | .aborting t, _ =>
      (s.tasks[t]?).bind fun task =>
        enter { s with tasks := s.tasks.set t { task with aborted := true } }
          { cancel with phase := .updating }
    | .updating, some operationId =>
      enter (s.updateJob operationId .canceled none none) { cancel with phase := .announcing }
    | .announcing, some operationId =>
      enter (s.broadcastJob operationId)
        { cancel with phase := .over, reply := some (cancelReply true (some operationId)) }
    | _, _ => none

end JobServer

/-- A step of the jobs or of what is around them. -/
inductive JobAction where
  /-- A `job-start` request reaches `start_job`. -/
  | startJob (method : String) (message : Value)
  /-- A `remux/jobs/cancel` request comes. -/
  | cancelJob (params : Option Value)
  | start (i : ℕ)
  | task (t : ℕ) (turn : JobServer.TaskTurn)
  | cancel (c : ℕ)
  /-- The hash map iterates over this entry first. -/
  | rehash (operationId : String)

/-- The steps of what is already under way. -/
def JobAction.internal : JobAction → Bool
  | .start _ | .task .. | .cancel _ => true
  | _ => false

/-- **The machine of the jobs.** -/
def jobMachine : Machine JobServer JobAction where
  init := ⟨∅, [], [], [], []⟩
  step s
    | .startJob method message =>
      some { s with starts := s.starts ++ [match jobOperationId message with
        | some operationId => ⟨method, operationId, .locking, none⟩
        | none => ⟨method, "", .over, some (.error jobStartRequiresOperationId)⟩] }
    | .cancelJob params =>
      let operationId := (params.bind (·.get "operationId")).bind (·.asStr)
      some { s with cancels := s.cancels ++ [⟨operationId, .locking, none, none⟩] }
    | .start i => s.stepStart i
    | .task t turn => s.stepTask t turn
    | .cancel c => s.stepCancel c
    | .rehash operationId =>
      (s.jobs.lookup operationId).map fun job =>
        { s with jobs := s.jobs.insert operationId job }

end Remux
