import Remux.Rpc.Model.Commands
import Remux.Rpc.Model.Lanes

/-!
# Requests and their jobs

The way of a frame through `rpc/ws.rs`, from `enqueue_dispatch` through
the lanes and `execute_dispatch` to `finish_request`. A job is named by
its position in `WsServer.jobs`, which keeps every job made, and its
phase is the atomic step it takes next; `jobStep` is that step. What a
handler computes is not modelled: it returns whenever it likes, with
whatever outcome.

Two fields are there for the statements only: `cancelled` of a job, and
the job a response answers.
-/

namespace Remux

open Function

/-- `MAX_CLIENT_OUTSTANDING_REQUESTS`. -/
def maxClientOutstandingRequests : ℕ := 64

/-- Where a job stands: the atomic step it takes next. -/
inductive Phase where
  /-- `outstanding_requests.fetch_update`, a request's first step. -/
  | received
  /-- `register_request`. -/
  | counted
  /-- `dispatch_sender`, a notification's first step. -/
  | registered
  /-- `try_send`. -/
  | routed
  /-- What `enqueue_dispatch` does with a job it could not send. -/
  | refused
  /-- In the channel of its lane. -/
  | queued
  /-- Taken by the task of a concurrent lane: `acquire_owned`. -/
  | held
  /-- The wait for `registration_pending`. -/
  | waiting
  /-- `is_connected`. -/
  | passed
  /-- `begin_request`. -/
  | entered
  /-- The handler runs. -/
  | begun
  /-- `finish_request`. -/
  | closing
  /-- `outstanding_requests.fetch_sub`. -/
  | executed
  /-- `registration_pending.fetch_sub`. -/
  | releasing
  /-- `registration_pending.store(0)`. -/
  | clearing
  /-- The permit is dropped, or the lane or the reader goes on. -/
  | leaving
  | done
  deriving DecidableEq

/-- The job has not been answered: its handler has not returned. -/
def Phase.unanswered : Phase → Bool
  | .closing | .executed | .releasing | .clearing | .leaving | .done => false
  | _ => true

/-- `DispatchJob`. -/
structure DispatchJob where
  connectionId : ℕ
  method : String
  work : DispatchWork
  phase : Phase
  /-- It has been sent to its lane. -/
  dispatched : Bool
  /-- Its `Notify` has been notified. -/
  notified : Bool
  /-- A cancel frame for its id came while it was not answered. -/
  cancelled : Bool

/-- `WsClient`, as far as its requests need it. The `Notify` of a begun
request is named by the request's job. -/
structure WsClient where
  activeRequests : Assoc String (Option ℕ)
  registrationPending : UInt64
  outstandingRequests : ℕ
  connected : Bool
  /-- The job whose frame the reader of the socket is handling. -/
  reading : Option ℕ

/-- A client that has just connected. -/
def WsClient.new : WsClient := ⟨∅, 0, 0, true, none⟩

/-- A response frame, and the job it answers. -/
structure Response where
  connectionId : ℕ
  id : Value
  outcome : RpcOutcome
  job : ℕ

/-- `WsServer`, with its clients and every job and response so far. -/
structure WsServer where
  clients : ℕ → WsClient
  nextConnectionId : ℕ
  jobs : List DispatchJob
  lanes : Assoc String Lane
  permits : DispatchMode → ℕ
  responses : List Response

/-- `server_busy_error`. -/
def serverBusyError (method : String) : JsonRpcError :=
  .withData extensionError ("Server busy handling " ++ method)
    (.object [("kind", .string "queue-full"), ("retryable", .bool (startsWith method "remux/fs/" ||
        "/read".toList.isSuffixOf method.toList))])

/-- The refusal of an id that is outstanding. -/
def duplicateRequestId : JsonRpcError := .new invalidRequest "Duplicate request id"

/-- `durable_command_operation_id`. -/
def durableCommandOperationId (message : Value) : Option String :=
  (message.get "remuxContract").bind fun contract =>
    if (contract.get "kind").bind (·.asStr) = some "command" then
      (contract.get "operationId").bind (·.asStr)
    else none

/-- The branch of `handle_request_message` that listens for a
cancellation: the message is neither a durable command nor a job
start. -/
def cancellable (message : Value) : Bool :=
  (durableCommandOperationId message).isNone &&
    ((message.get "remuxContract").bind (·.get "kind")).bind (·.asStr) ≠ some "job-start"

namespace DispatchJob

variable (job : DispatchJob)

/-- `is_request`. -/
def isRequest : Bool :=
  match job.work with
  | .request .. => true
  | .notification _ => false

/-- `is_registration`. -/
def isRegistration : Bool := job.isRequest && job.method = "remux/clients/register"

/-- The key and the mode of its lane. -/
def lane : String × DispatchMode := dispatchLane job.connectionId job.method job.work

/-- The key of its lane. -/
def laneKey : String := job.lane.1

/-- What follows its last step but the barrier's. -/
def afterExecution : Phase := if job.isRegistration then .releasing else .leaving

end DispatchJob

section

variable (floatText : Double → List Char)

/-- `request_key`. -/
def requestKey (id : Value) : String := String.ofList (id.text floatText)

/-- The slot of a job's request. -/
def DispatchJob.requestKey (job : DispatchJob) : Option String :=
  match job.work with
  | .request id _ => some (Remux.requestKey floatText id)
  | .notification _ => none

/-! ## The step of a job -/

/-- What a job's step reads and writes. -/
structure Moved where
  job : DispatchJob
  client : WsClient
  lanes : Assoc String Lane
  permits : DispatchMode → ℕ
  reply : Option RpcOutcome

/-- How a job goes on: where its code says, or, in a handler, with an
answer or because of a cancellation. -/
inductive Turn where
  | advance
  | answer (outcome : RpcOutcome)
  | abandon

/-- **The next atomic step of a job.** -/
def jobStep (j : ℕ) (turn : Turn) (job : DispatchJob) (client : WsClient)
    (lanes : Assoc String Lane) (permits : DispatchMode → ℕ) : Option Moved :=
  match job.phase, job.work, turn with
  | .received, .request .., .advance =>
    if client.outstandingRequests < maxClientOutstandingRequests then
      some ⟨{ job with phase := .counted },
        { client with outstandingRequests := client.outstandingRequests + 1 },
        lanes, permits, none⟩
    else
      some ⟨{ job with phase := job.afterExecution }, client, lanes, permits,
        some (.error (serverBusyError job.method))⟩
  | .counted, .request id _, .advance =>
    let key := requestKey floatText id
    let client' := { client with activeRequests := client.activeRequests.insert key none }
    if (client.activeRequests.lookup key).isNone then
      some ⟨{ job with phase := .registered }, client', lanes, permits, none⟩
    else
      some ⟨{ job with phase := job.afterExecution },
        { client' with outstandingRequests := client.outstandingRequests - 1 },
        lanes, permits, some (.error duplicateRequestId)⟩
  | .registered, _, .advance =>
    match dispatchSender lanes job.lane.1 job.lane.2 with
    | some lanes => some ⟨{ job with phase := .routed }, client, lanes, permits, none⟩
    | none => some ⟨{ job with phase := .refused }, client, lanes, permits, none⟩
  | .routed, _, .advance =>
    match lanes.lookup job.laneKey with
    | some lane =>
      if lane.queue.length < lane.capacity then
        some ⟨{ job with phase := .queued, dispatched := true }, { client with reading := none },
          lanes.insert job.laneKey { lane with queue := lane.queue ++ [j] }, permits, none⟩
      else some ⟨{ job with phase := .refused }, client, lanes, permits, none⟩
    | none => none
  | .refused, .notification _, .advance =>
    some ⟨{ job with phase := .leaving }, client, lanes, permits, none⟩
  | .refused, .request id _, .advance =>
    some ⟨{ job with phase := job.afterExecution }, { client with
        activeRequests := client.activeRequests.erase (requestKey floatText id)
        outstandingRequests := client.outstandingRequests - 1 },
      lanes, permits, some (.error (serverBusyError job.method))⟩
  | .held, _, .advance =>
    match lanes.lookup job.laneKey with
    | some lane =>
      if permits lane.mode > 0 then
        some ⟨{ job with phase := .waiting }, client,
          lanes.insert job.laneKey { lane with current := none },
          update permits lane.mode (permits lane.mode - 1), none⟩
      else none
    | none => none
  | .waiting, _, .advance =>
    if job.isRegistration ∨ client.registrationPending = 0 ∨ client.connected = false then
      some ⟨{ job with phase := .passed }, client, lanes, permits, none⟩
    else none
  | .passed, .notification _, .advance =>
    some ⟨{ job with phase := .executed }, client, lanes, permits, none⟩
  | .passed, .request .., .advance =>
    some ⟨{ job with phase := if client.connected then .entered else .executed },
      client, lanes, permits, none⟩
  | .entered, .request id _, .advance =>
    let key := requestKey floatText id
    if (client.activeRequests.lookup key).isSome then
      some ⟨{ job with phase := .begun, notified := false },
        { client with activeRequests := client.activeRequests.insert key (some j) },
        lanes, permits, none⟩
    else some ⟨{ job with phase := .executed }, client, lanes, permits, none⟩
  | .begun, _, .answer outcome =>
    some ⟨{ job with phase := .closing }, client, lanes, permits, some outcome⟩
  | .begun, .request _ message, .abandon =>
    if job.notified ∧ cancellable message then
      some ⟨{ job with phase := .closing }, client, lanes, permits, none⟩
    else none
  | .closing, .request id _, .advance =>
    some ⟨{ job with phase := .executed },
      { client with activeRequests := client.activeRequests.erase (requestKey floatText id) },
      lanes, permits, none⟩
  | .executed, .notification _, .advance =>
    some ⟨{ job with phase := job.afterExecution }, client, lanes, permits, none⟩
  | .executed, .request .., .advance =>
    some ⟨{ job with phase := job.afterExecution },
      { client with outstandingRequests := client.outstandingRequests - 1 },
      lanes, permits, none⟩
  | .releasing, _, .advance =>
    some ⟨{ job with phase := if client.registrationPending ≤ 1 then .clearing else .leaving },
      { client with registrationPending := client.registrationPending - 1 }, lanes, permits, none⟩
  | .clearing, _, .advance =>
    some ⟨{ job with phase := .leaving }, { client with registrationPending := 0 },
      lanes, permits, none⟩
  | .leaving, _, .advance =>
    if job.dispatched then
      match lanes.lookup job.laneKey with
      | some lane =>
        if lane.mode = .serial then
          some ⟨{ job with phase := .done }, client,
            lanes.insert job.laneKey { lane with current := none }, permits, none⟩
        else
          some ⟨{ job with phase := .done }, client, lanes,
            update permits lane.mode (permits lane.mode + 1), none⟩
      | none => none
    else some ⟨{ job with phase := .done }, { client with reading := none }, lanes, permits, none⟩
  | _, _, _ => none

/-! ## The server -/

namespace WsServer

/-- The response frame a reply makes; none reaches a client that is not
connected. -/
def reply (job : DispatchJob) (j : ℕ) (connected : Bool) : Option RpcOutcome → List Response
  | some outcome =>
    match job.work with
    | .request id _ => if connected then [⟨job.connectionId, id, outcome, j⟩] else []
    | .notification _ => []
  | none => []

/-- The server after a job's step. -/
def afterStep (s : WsServer) (j : ℕ) (job : DispatchJob) (moved : Moved) : WsServer :=
  { s with
    clients := update s.clients job.connectionId moved.client
    jobs := s.jobs.set j moved.job
    lanes := moved.lanes
    permits := moved.permits
    responses := s.responses ++ reply job j (s.clients job.connectionId).connected moved.reply }

/-- A job takes a step. -/
def stepJob (s : WsServer) (j : ℕ) (turn : Turn) : Option WsServer :=
  (s.jobs[j]?).bind fun job =>
    (jobStep floatText j turn job (s.clients job.connectionId) s.lanes s.permits).map
      (s.afterStep j job)

/-- A frame reaches `enqueue_dispatch`. -/
def frame (s : WsServer) (connectionId : ℕ) (method : String) (work : DispatchWork) : WsServer :=
  let client := s.clients connectionId
  let j := s.jobs.length
  let job : DispatchJob :=
    { connectionId, method, work, phase := .received
      dispatched := false, notified := false, cancelled := false }
  { s with
    jobs := s.jobs ++ [if job.isRequest then job else { job with phase := .registered }]
    clients := update s.clients connectionId { client with
        reading := some j
        registrationPending := client.registrationPending + if job.isRegistration then 1 else 0 } }

/-- A `$/cancelRequest` frame: `cancel_request`. -/
def cancelFrame (s : WsServer) (connectionId : ℕ) (id : Value) : WsServer :=
  let client := s.clients connectionId
  let key := requestKey floatText id
  let slot := client.activeRequests.lookup key
  { s with
    clients := update s.clients connectionId
      { client with activeRequests := client.activeRequests.erase key }
    jobs := s.jobs.mapIdx fun n job =>
      { job with
        notified := job.notified || decide (slot = some (some n))
        cancelled := job.cancelled || (decide (job.connectionId = connectionId) &&
          decide (job.requestKey floatText = some key) && job.phase.unanswered) } }

/-- `mark_disconnected`. -/
def markDisconnected (s : WsServer) (connectionId : ℕ) : WsServer :=
  let client := s.clients connectionId
  let slots := client.activeRequests.entries.map Sigma.snd
  { s with
    clients := update s.clients connectionId { client with connected := false, activeRequests := ∅ }
    jobs := s.jobs.mapIdx fun n job =>
      { job with notified := job.notified || slots.contains (some n) } }

/-- The task of a lane takes the next job from its channel. -/
def receive (s : WsServer) (laneKey : String) : Option WsServer :=
  match s.lanes.lookup laneKey with
  | some ⟨mode, j :: queue, none⟩ =>
    (s.jobs[j]?).map fun job =>
      { s with
        lanes := s.lanes.insert laneKey ⟨mode, queue, some j⟩
        jobs := s.jobs.set j { job with phase := if mode = .serial then .waiting else .held } }
  | _ => none

end WsServer

/-- A step of the server or of what is around it. A send that overflows
the outbound buffer is the client's disconnection and then a reply to a
client that is not connected. -/
inductive WsAction where
  | connect
  | frame (connectionId : ℕ) (method : String) (work : DispatchWork)
  | cancelFrame (connectionId : ℕ) (id : Value)
  | markDisconnected (connectionId : ℕ)
  | receive (laneKey : String)
  | job (j : ℕ) (turn : Turn)

/-- The steps the server takes of itself. -/
def WsAction.internal : WsAction → Bool
  | .receive _ | .job .. => true
  | _ => false

/-- **The machine of the server.** The reader of a connection handles one
frame after the other. -/
def wsMachine : Machine WsServer WsAction where
  init :=
    { clients := fun _ => .new
      nextConnectionId := 1
      jobs := []
      lanes := ∅
      permits := fun mode =>
        if mode = .concurrentControl then controlConcurrency else businessConcurrency
      responses := [] }
  step s
    | .connect => some { s with nextConnectionId := s.nextConnectionId + 1 }
    | .frame connectionId method work =>
      if (0 < connectionId ∧ connectionId < s.nextConnectionId) ∧
          (s.clients connectionId).reading = none then
        some (s.frame connectionId method work)
      else none
    | .cancelFrame connectionId id =>
      if (0 < connectionId ∧ connectionId < s.nextConnectionId) ∧
          (s.clients connectionId).reading = none then
        some (s.cancelFrame floatText connectionId id)
      else none
    | .markDisconnected connectionId => some (s.markDisconnected connectionId)
    | .receive laneKey => s.receive laneKey
    | .job j turn => s.stepJob floatText j turn

end

end Remux
