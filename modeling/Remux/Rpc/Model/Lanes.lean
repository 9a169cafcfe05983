import Remux.Common.Assoc
import Remux.Json.Model.Value

/-!
# Dispatch lanes

The lanes of `rpc/ws.rs`: which lane a frame goes to (`dispatchLane`),
and the map from lane keys to channels (`dispatchSender`). A lane is its
bounded channel and the one job its task has taken out of it.
-/

namespace Remux

/-- `DEFAULT_LANE_CAPACITY`. -/
def defaultLaneCapacity : ℕ := 64

/-- `CONTROL_LANE_CAPACITY`. -/
def controlLaneCapacity : ℕ := 32

/-- `CONTROL_CONCURRENCY`. -/
def controlConcurrency : ℕ := 4

/-- `BUSINESS_CONCURRENCY`. -/
def businessConcurrency : ℕ := 8

/-- `MAX_ROUTE_LANES`. -/
def maxRouteLanes : ℕ := 512

/-- `DispatchWork`. -/
inductive DispatchWork where
  | notification (params : Option Value)
  | request (id message : Value)

/-- `DispatchMode`. -/
inductive DispatchMode where
  | serial
  | concurrentControl
  | concurrentBusiness
  deriving DecidableEq

/-- `str::starts_with`. -/
def startsWith (s pre : String) : Bool := pre.toList.isPrefixOf s.toList

/-- `extension_id_from_method`. -/
def extensionIdFromMethod (method : String) : Option String :=
  if startsWith method "remux/" then
    let rest := method.toList.drop "remux/".length
    if '/' ∈ rest then
      let extensionId := rest.takeWhile (· ≠ '/')
      if extensionId.isEmpty then none else some (String.ofList extensionId)
    else none
  else none

/-- `dispatch_params`. -/
def dispatchParams : DispatchWork → Option Value
  | .notification params => params
  | .request _ message => message.get "params"

/-- A string among the parameters, if it is there. -/
def paramStr (work : DispatchWork) (key : String) : Option String :=
  ((dispatchParams work).bind (·.get key)).bind (·.asStr)

/-- The key of the lane of a connection's own control requests. -/
def connectionLane (connectionId : ℕ) : String := "control:connection:" ++ connectionId.repr

/-- The lanes of `remux/codex/` methods. -/
def codexLane (method : String) (work : DispatchWork) : String × DispatchMode :=
  if method = "remux/codex/app-server/status/read" then
    ("extension:codex:app-server-status", .concurrentBusiness)
  else if method ∈ ["remux/codex/app-server/start", "remux/codex/app-server/stop",
      "remux/codex/app-server/restart", "remux/codex/app-server/update"] then
    ("extension:codex:app-server-management", .serial)
  else if method ∈ ["remux/codex/files", "remux/codex/composer/config/read",
      "remux/codex/models/read", "remux/codex/thread/resources/read",
      "remux/codex/transcript/capabilities/read", "remux/codex/transcript/resources/read"] then
    ("extension:codex:reads", .concurrentBusiness)
  else if method = "remux/codex/composer/config/write" then
    ("extension:codex:config", .serial)
  else
    ("extension:codex:thread:" ++ (paramStr work "threadId").getD "__new_thread__", .serial)

/-- The lanes of `remux/agent/` methods. The conversation is the first of
the two parameters that is there, whatever it is. -/
def agentLane (method : String) (work : DispatchWork) : String × DispatchMode :=
  if method ∈ ["remux/agent/resources/read", "remux/agent/transcript/resources/read",
      "remux/agent/runtimes/read", "remux/agent/models/read", "remux/agent/artifact/read",
      "remux/agent/turn/read", "remux/agent/files/search",
      "remux/agent/maintenance/quiescence/read"] then
    ("extension:agent:reads", .concurrentBusiness)
  else
    let conversation := (dispatchParams work).bind fun params =>
      (params.get "conversationId").or (params.get "sourceConversationId")
    ("extension:agent:conversation:" ++ (conversation.bind (·.asStr)).getD "__agent__", .serial)

/-- The lanes of `remux/terminal/` methods. -/
def terminalLane (method : String) (work : DispatchWork) : String × DispatchMode :=
  if method ∈ ["remux/terminal/session/list", "remux/terminal/tmux/context/get"] then
    ("extension:terminal:reads", .concurrentBusiness)
  else
    let sessionId := (paramStr work "sessionId").getD "__new_session__"
    let generation := ((dispatchParams work).bind (·.get "sessionGeneration")).bind (·.asU64)
    ("extension:terminal:session:" ++ sessionId ++ ":" ++
      (generation.map (·.toNat.repr)).getD "pending", .serial)

/-- `dispatch_lane`: the lane a frame goes to and the lane's mode. -/
def dispatchLane (connectionId : ℕ) (method : String) (work : DispatchWork) :
    String × DispatchMode :=
  if method ∈ ["remux/system/ping", "remux/system/info"] then
    ("control:liveness", .concurrentControl)
  else if method ∈ ["remux/clients/register", "remux/system/resources/subscribe",
      "remux/system/resources/unsubscribe", "remux/extensions/logs/subscribe",
      "remux/extensions/logs/unsubscribe"] then
    (connectionLane connectionId, .serial)
  else if method ∈ ["remux/system/resources", "remux/extensions/status", "remux/extensions/logs",
      "remux/maintenance/agent-autoupdate/read"] then
    ("control:snapshots", .concurrentControl)
  else if method = "remux/system/restart" then
    ("control:restart", .serial)
  else if startsWith method "remux/fs/" then
    ("core:filesystem", .concurrentBusiness)
  else if method ∈ ["remux/extensions/start", "remux/extensions/stop",
      "remux/extensions/restart", "remux/extensions/watch/start", "remux/extensions/watch/stop",
      "remux/extensions/server/build", "remux/extensions/views/build"] then
    ("extension:" ++ (paramStr work "extensionId").getD "unknown", .serial)
  else if startsWith method "remux/codex/" then codexLane method work
  else if startsWith method "remux/agent/" then agentLane method work
  else if startsWith method "remux/terminal/" then terminalLane method work
  else
    match extensionIdFromMethod method with
    | some extensionId => ("extension:" ++ extensionId, .serial)
    | none => ("extension:default", .serial)

/-- A lane: the mode it was made with, the jobs in its channel, and the
job its task holds. A serial lane's task holds the job it executes; a
concurrent one's, the job it awaits a permit for. -/
structure Lane where
  mode : DispatchMode
  queue : List ℕ
  current : Option ℕ
  deriving DecidableEq

/-- How many jobs the channel of a lane takes. -/
def Lane.capacity (lane : Lane) : ℕ :=
  if lane.mode = .concurrentControl then controlLaneCapacity else defaultLaneCapacity

/-- `dispatch_sender`: the lanes with the one asked for, unless it is not
there and the limit is reached. -/
def dispatchSender (lanes : Assoc String Lane) (laneKey : String) (mode : DispatchMode) :
    Option (Assoc String Lane) :=
  match lanes.lookup laneKey with
  | some _ => some lanes
  | none =>
    if lanes.size ≥ maxRouteLanes then none
    else some (lanes.insert laneKey ⟨mode, [], none⟩)

end Remux
