import Mathlib.Data.Finset.Insert
import Remux.Common.Assoc
import Remux.Common.Machine
import Remux.Common.Text
import Remux.Json.Model.Value

/-!
# Notification audiences

`NotificationManager` of `notifications.rs` as far as its `audiences` go:
who is recorded as a recipient, who is removed, and who takes part in the
delivery of an intent. The file of the agent's audiences outlives the
process. Each critical section is a step, so that a call is one step or
several, and the steps of several calls interleave.

Whether a request is that of the owner of its session, and what becomes of
a delivery, are left open. Two counts are kept that the source does not
keep: how often a recipient was removed, and the number of each recording.
-/

namespace Remux

/-- `Lifetime`. -/
inductive Lifetime where
  | once
  | target
  deriving DecidableEq

/-- The target of an audience, the string fields of its JSON object. -/
structure AudienceTarget where
  extensionId : Option String
  viewId : Option String
  handlerId : Option String
  launch : Option String
  resourceKind : Option String
  resourceId : Option String
  focusKind : Option String
  focusId : Option String
  deriving DecidableEq

/-- `Audience`, with the number of the recording that made it. -/
structure Audience where
  clientId : String
  lifetime : Lifetime
  originResourceKey : Option String
  originTabId : Option String
  sessionId : Option String
  target : AudienceTarget
  deliveredIds : Finset String
  recording : ℕ

/-- `AudienceChange`. -/
inductive AudienceChange where
  | record (lifetime : Lifetime) (target : AudienceTarget)
  | remove (target : AudienceTarget)

/-- The intent of a notification, as `parse_notification_intent` makes
it. -/
structure NotificationIntent where
  id : String
  title : String
  body : Option String
  extensionId : String
  viewId : String
  handlerId : Option String
  launch : Option String
  originResourceKey : Option String
  originTabId : Option String
  resourceKind : Option String
  resourceId : Option String
  focusKind : Option String
  focusId : Option String

/-! ## Reading requests and notifications -/

/-- `required_string`; `optional_string` is the same. -/
def requiredString (value : Option Value) : Option String :=
  ((value.bind Value.asStr).map trim).filter fun text => text != ""

/-- A field of the parameters of a request. -/
def requestParam (request : Value) (key : String) : Option Value :=
  (request.get "params").bind fun params => params.get key

/-- The target of a conversation with the agent. -/
def agentTarget (conversationId : String) : AudienceTarget :=
  ⟨some "agent", some "main", none, none, some "agentConversation", some conversationId,
    some "conversation", some conversationId⟩

/-- `terminal_notification_target`. -/
def terminalNotificationTarget (sessionId : String) : AudienceTarget :=
  ⟨some "terminal", some "main", none, none, some "terminalSession", some sessionId,
    some "session", some sessionId⟩

/-- The target of a turn of a thread, and of the thread itself. -/
def codexTarget (threadId focusKind focusId : String) : AudienceTarget :=
  ⟨some "codex", some "main", none, none, some "thread", some threadId, some focusKind,
    some focusId⟩

/-- The methods that send a message to a conversation of the agent. -/
def agentMethods : List String :=
  ["remux/agent/conversation/message/send", "remux/agent/conversation/message/edit",
    "remux/agent/conversation/message/fork"]

/-- The methods that send a message to a thread of Codex. -/
def codexTurnRequestMethods : List String :=
  ["remux/codex/thread/message/edit", "remux/codex/thread/message/fork",
    "remux/codex/thread/message/send", "remux/codex/thread/message/start"]

/-- `audience_change_for_client_request`. -/
def audienceChangeForClientRequest (method : String) (request result : Value) :
    Option AudienceChange :=
  if method ∈ agentMethods then
    let accepted := (result.get "accepted").bind Value.asBool
    if accepted = some false then none
    else if accepted ≠ some true ∧ requiredString (result.get "turnId") = none then none
    else
      let conversationId :=
        match requiredString (result.get "conversationId") with
        | some conversationId => some conversationId
        | none => requiredString (requestParam request "conversationId")
      conversationId.map fun conversationId => .record .target (agentTarget conversationId)
  else if method ∈ codexTurnRequestMethods then
    (requiredString (result.get "threadId")).bind fun threadId =>
      (requiredString (result.get "turnId")).map fun turnId =>
        .record .once (codexTarget threadId "turn" turnId)
  else if method = "remux/codex/thread/compact" then
    (requiredString (result.get "threadId")).map fun threadId =>
      .record .once (codexTarget threadId "thread" threadId)
  else if method = "remux/terminal/session/start" ∨ method = "remux/terminal/session/attach" then
    (requiredString (result.get "sessionId")).bind fun sessionId =>
      if requiredString (result.get "status") = some "exited" then none
      else some (.record .target (terminalNotificationTarget sessionId))
  else if method = "remux/terminal/session/kill" then
    (requiredString (requestParam request "sessionId")).map fun sessionId =>
      .remove (terminalNotificationTarget sessionId)
  else none

/-- `parse_notification_intent`. -/
def parseNotificationIntent (value : Option Value) : Option NotificationIntent := do
  let record ← value
  let id ← requiredString (record.get "id")
  let extensionId ← requiredString (record.get "extensionId")
  let title ← requiredString (record.get "title")
  let field key := requiredString ((record.get "target").bind fun target => target.get key)
  some
    { id, title, extensionId
      body := requiredString (record.get "body")
      viewId := (requiredString (record.get "viewId")).getD "main"
      handlerId := field "handlerId"
      launch := field "launch"
      originResourceKey := field "originResourceKey"
      originTabId := field "originTabId"
      resourceKind := field "resourceKind"
      resourceId := field "resourceId"
      focusKind := field "focusKind"
      focusId := field "focusId" }

/-- `parse_notification_audience_target`. -/
def parseNotificationAudienceTarget (value : Option Value) : Option AudienceTarget := do
  let record ← value
  let extensionId ← requiredString (record.get "extensionId")
  let field key := requiredString ((record.get "target").bind fun target => target.get key)
  some
    { extensionId := some extensionId
      viewId := some ((requiredString (record.get "viewId")).getD "main")
      handlerId := field "handlerId"
      launch := field "launch"
      resourceKind := field "resourceKind"
      resourceId := field "resourceId"
      focusKind := field "focusKind"
      focusId := field "focusId" }

/-! ## Keys -/

/-- A text that is not empty. -/
def nonEmpty (text : Option String) : Option String := text.filter fun text => text != ""

/-- `audience_key`, and `audience_key_for_target`. -/
def audienceKeyForTarget (target : AudienceTarget) : Option String := do
  let extensionId ← nonEmpty target.extensionId
  let resourceKind ← nonEmpty target.resourceKind
  let resourceId ← nonEmpty target.resourceId
  let focusKind ← nonEmpty target.focusKind
  let focusId ← nonEmpty target.focusId
  some (":".intercalate
    [extensionId, (nonEmpty target.viewId).getD "main", (nonEmpty target.handlerId).getD "",
      (nonEmpty target.launch).getD "", resourceKind, resourceId, focusKind, focusId])

/-- `agent_conversation_target`. -/
def agentConversationTarget (intent : NotificationIntent) : Option AudienceTarget :=
  if intent.extensionId ≠ "agent" ∨ intent.resourceKind ≠ some "agentConversation" then none
  else
    (intent.resourceId.map trim).filter (fun text => text != "") |>.map fun conversationId =>
      ⟨some "agent", some intent.viewId, none, none, some "agentConversation",
        some conversationId, some "conversation", some conversationId⟩

/-- `audience_key_for_intent`. -/
def audienceKeyForIntent (intent : NotificationIntent) : Option String :=
  audienceKeyForTarget
    ⟨some intent.extensionId, some intent.viewId, intent.handlerId, intent.launch,
      intent.resourceKind, intent.resourceId, intent.focusKind, intent.focusId⟩

/-- The bucket that an intent goes to. -/
def intentKey (intent : NotificationIntent) : Option String :=
  match (agentConversationTarget intent).bind audienceKeyForTarget with
  | some key => some key
  | none => audienceKeyForIntent intent

/-- `is_agent_conversation_target`. -/
def isAgentConversationTarget (target : AudienceTarget) : Bool :=
  target.extensionId == some "agent" && target.resourceKind == some "agentConversation" &&
    target.focusKind == some "conversation" && target.focusId == target.resourceId

/-- `targets_share_tab_target`. -/
def targetsShareTabTarget (left right : AudienceTarget) : Bool :=
  let string (text : Option String) := nonEmpty (text.map trim)
  string left.extensionId == string right.extensionId &&
    (string left.viewId).getD "main" == (string right.viewId).getD "main" &&
    string left.handlerId == string right.handlerId &&
    string left.launch == string right.launch &&
    string left.resourceKind == string right.resourceKind &&
    string left.resourceId == string right.resourceId

/-! ## The audiences -/

/-- The audiences, by bucket and client. -/
abbrev Buckets := Assoc String (Assoc String Audience)

/-- The audience of a client in a bucket. -/
def findAudience (audiences : Buckets) (key clientId : String) : Option Audience :=
  (audiences.lookup key).bind fun bucket => bucket.lookup clientId

/-- Put an audience into a bucket. -/
def insertAudience (audiences : Buckets) (key : String) (audience : Audience) : Buckets :=
  audiences.insert key (((audiences.lookup key).getD ∅).insert audience.clientId audience)

/-- One audience of the file is loaded. -/
def loadAgentAudience (audiences : Buckets) (audience : Audience) : Buckets :=
  if audience.lifetime ≠ .target ∨ !isAgentConversationTarget audience.target then audiences
  else
    match audienceKeyForTarget audience.target with
    | some key => insertAudience audiences key audience
    | none => audiences

/-- `load_agent_audiences`, of the audiences in the file. -/
def loadAgentAudiences (stored : List Audience) : Buckets := stored.foldl loadAgentAudience ∅

/-- The audiences that `persist_agent_audiences` writes. -/
def agentAudiences (audiences : Buckets) : List Audience :=
  audiences.entries.flatMap fun bucket =>
    (bucket.2.entries.map fun entry => entry.2).filter fun audience =>
      isAgentConversationTarget audience.target

/-- `audience_removal_keys`. For a target without a key a bucket is judged by
one of its audiences: in the code the one that the order of the hash map
gives first, here the one that came last. -/
def audienceRemovalKeys (audiences : Buckets) (target : AudienceTarget) : List String :=
  match audienceKeyForTarget target with
  | some exactKey => if (audiences.lookup exactKey).isSome then [exactKey] else []
  | none =>
    (audiences.entries.filter fun bucket =>
      (bucket.2.entries.head?).any fun entry => targetsShareTabTarget entry.2.target target).map
        fun bucket => bucket.1

/-- The audiences with a client in no bucket; a bucket that this leaves
empty goes. -/
def withoutClient (audiences : Buckets) (clientId : String) : Buckets :=
  audiences.filterMapValues fun bucket =>
    let bucket := bucket.erase clientId
    if bucket.entries.isEmpty then none else some bucket

/-- An audience that takes part in a delivery: the receipt that its
client gets of an intent. -/
structure Receipt where
  key : String
  audience : Audience
  intentId : String
  /-- How often the client had been removed when it was selected. -/
  removals : ℕ

/-- A call at work: it has changed the agent's audiences and has to
persist them, or it delivers, before or after it has persisted. -/
inductive AudienceCall where
  | persisting
  | selected (delivery : List Receipt)
  | delivering (delivery : List Receipt)
  | done

/-- The audiences of the process and of the file, the calls at work, and
what was handed to `deliver_notification`. -/
structure Audiences where
  audiences : Buckets
  stored : List Audience
  calls : List AudienceCall
  deliveries : List Receipt
  removals : String → String → ℕ
  recordings : ℕ

namespace Audiences

/-- The clients that a change of the audiences removed are counted. -/
def countRemovals (s : Audiences) (audiences : Buckets) (key clientId : String) : ℕ :=
  if (findAudience s.audiences key clientId).isSome && (findAudience audiences key clientId).isNone
  then s.removals key clientId + 1
  else s.removals key clientId

/-- The audiences are changed by a call that persists them if it changed
those of the agent. -/
def change (s : Audiences) (audiences : Buckets) (agent : Bool) : Audiences :=
  { s with
    audiences
    removals := s.countRemovals audiences
    calls := if agent then s.calls ++ [.persisting] else s.calls }

/-- `record_notification_audience`, up to the call that persists. -/
def record (s : Audiences) (clientId : String) (sessionId : Option String) (lifetime : Lifetime)
    (origin : Option String × Option String) (target : AudienceTarget) : Audiences :=
  match audienceKeyForTarget target with
  | none => s
  | some key =>
    let deliveredIds :=
      ((findAudience s.audiences key clientId).map Audience.deliveredIds).getD ∅
    let audience : Audience :=
      { clientId, lifetime, sessionId, target, deliveredIds
        originResourceKey := origin.1
        originTabId := origin.2
        recording := s.recordings }
    { s.change (insertAudience s.audiences key audience) (isAgentConversationTarget target) with
      recordings := s.recordings + 1 }

/-- `remove_notification_audiences`, up to the call that persists. -/
def remove (s : Audiences) (target : AudienceTarget) : Audiences :=
  let keys := audienceRemovalKeys s.audiences target
  let removedAgent := keys.any fun key =>
    (s.audiences.lookup key).any fun bucket =>
      bucket.entries.any fun entry => isAgentConversationTarget entry.2.target
  s.change (keys.foldl (fun audiences key => audiences.erase key) s.audiences) removedAgent

/-- `parse_remux_context`. -/
def parseRemuxContext (value : Option Value) : Option String × Option String :=
  (requiredString (value.bind fun record => record.get "resourceKey"),
    requiredString (value.bind fun record => record.get "tabId"))

/-- `record_client_request`, of a connection that owns its session. -/
def recordClientRequest (s : Audiences) (clientId : String) (sessionId : Option String)
    (request result : Value) : Audiences :=
  let method := ((request.get "method").bind Value.asStr).getD ""
  match audienceChangeForClientRequest method request result with
  | none => s
  | some (.remove target) => s.remove target
  | some (.record lifetime target) =>
    s.record clientId sessionId lifetime (parseRemuxContext (request.get "remuxContext")) target

/-- The end of `register_client_session` when the registration gives up
the token: the client is removed everywhere, and the audiences are
persisted. -/
def clearToken (s : Audiences) (clientId : String) : Audiences :=
  s.change (withoutClient s.audiences clientId) true

/-- The audience takes part in the delivery of the intent: the one that
is delivered to. -/
def deliverTo (id : String) (audience : Audience) : Option Audience :=
  if isAgentConversationTarget audience.target then
    if id ∈ audience.deliveredIds then none
    else some { audience with deliveredIds := insert id audience.deliveredIds }
  else some audience

/-- What is left of the audience in its bucket. -/
def afterIntent (id : String) (audience : Audience) : Option Audience :=
  if audience.lifetime = .once then none
  else if isAgentConversationTarget audience.target then
    some { audience with deliveredIds := insert id audience.deliveredIds }
  else some audience

/-- The receipts of an intent. -/
def delivery (s : Audiences) (key id : String) (bucket : Assoc String Audience) : List Receipt :=
  bucket.entries.filterMap fun entry =>
    (deliverTo id entry.2).map fun audience =>
      ⟨key, audience, id, s.removals key entry.1⟩

/-- The first step of an intent: the audiences that it is delivered to are
marked and selected. -/
def select (s : Audiences) (intent : NotificationIntent) : Audiences :=
  match intentKey intent with
  | none => s
  | some key =>
    match s.audiences.lookup key with
    | none => s
    | some bucket =>
      let delivery := s.delivery key intent.id bucket
      { s with
        audiences := s.audiences.insert key (bucket.filterMapValues (afterIntent intent.id))
        calls :=
          if delivery.isEmpty then s.calls
          else if delivery.any fun receipt => isAgentConversationTarget receipt.audience.target then
            s.calls ++ [.selected delivery]
          else s.calls ++ [.delivering delivery] }

/-- The first step of `handle_extension_notification`. -/
def handleExtensionNotification (s : Audiences) (message : Value) : Audiences :=
  let method := ((message.get "method").bind Value.asStr).getD ""
  let params := message.get "params"
  if method = "remux/notifications/audience/remove" then
    match parseNotificationAudienceTarget params with
    | none => s
    | some target => s.remove target
  else if method ≠ "remux/notifications/request" then s
  else
    match parseNotificationIntent params with
    | none => s
    | some intent => s.select intent

/-- `persist_agent_audiences`, by a call that has to. -/
def persist (s : Audiences) (c : ℕ) : Option Audiences :=
  let stored := agentAudiences s.audiences
  match s.calls[c]? with
  | some .persisting => some { s with stored, calls := s.calls.set c .done }
  | some (.selected delivery) =>
    some { s with stored, calls := s.calls.set c (.delivering delivery) }
  | _ => none

/-- `deliver_notification`, to one of the audiences left; their order is
that of a hash map. -/
def deliver (s : Audiences) (c i : ℕ) : Option Audiences :=
  match s.calls[c]? with
  | some (.delivering delivery) =>
    (delivery[i]?).map fun receipt =>
      { s with
        deliveries := s.deliveries ++ [receipt]
        calls := s.calls.set c (.delivering (delivery.eraseIdx i)) }
  | _ => none

/-- The end of an intent: empty buckets go. -/
def finish (s : Audiences) (c : ℕ) : Option Audiences :=
  match s.calls[c]? with
  | some (.delivering []) =>
    some { s with
        audiences := s.audiences.filterMapValues fun bucket =>
          if bucket.entries.isEmpty then none else some bucket
        calls := s.calls.set c .done }
  | _ => none

/-- The process ends, with the calls at work, and another one loads the
file. -/
def restart (s : Audiences) : Audiences :=
  { s with
    audiences := loadAgentAudiences s.stored
    calls := [] }

end Audiences

/-- A step of the audiences. -/
inductive AudienceAction where
  | recordClientRequest (clientId : String) (sessionId : Option String) (request result : Value)
  | clearToken (clientId : String)
  | handleExtensionNotification (message : Value)
  | persist (c : ℕ)
  | deliver (c i : ℕ)
  | finish (c : ℕ)
  | restart

/-- **The machine of the audiences**, from an empty file. -/
def audienceMachine : Machine Audiences AudienceAction where
  init :=
    { audiences := ∅
      stored := []
      calls := []
      deliveries := []
      removals := fun _ _ => 0
      recordings := 0 }
  step s
    | .recordClientRequest clientId sessionId request result =>
      some (s.recordClientRequest clientId sessionId request result)
    | .clearToken clientId => some (s.clearToken clientId)
    | .handleExtensionNotification message => some (s.handleExtensionNotification message)
    | .persist c => s.persist c
    | .deliver c i => s.deliver c i
    | .finish c => s.finish c
    | .restart => some s.restart

end Remux
