import Remux.Common.Machine
import Mathlib.Data.List.Range

/-!
# Requests of a viewer

`ipc.ts` of the viewer kit: the requests that are pending, the listeners on
their abort signals, and the transport, which may have to queue messages
until the host has said what it can do. Of what a message carries only
matters whether `JSON.stringify` has a text for it. A reply that the direct
host gives at once is one that arrives next.

A call that may throw says whether it has returned.
-/

namespace Remux

/-- `WebViewRequest`; `encodes` says that it has a JSON text. -/
inductive WebViewRequest where
  | ready
  | notify (method : String) (encodes : Bool)
  | request (id : ℕ) (method : String) (encodes : Bool)
  | cancel (id : ℕ) (reason : String)
  deriving DecidableEq

namespace WebViewRequest

/-- The message has a JSON text. -/
def encodes : WebViewRequest → Bool
  | notify _ encodes | request _ _ encodes => encodes
  | ready | cancel _ _ => true

/-- The request a message carries. -/
def requestId : WebViewRequest → Option ℕ
  | request id _ _ => some id
  | _ => none

end WebViewRequest

/-- The id of a reply. -/
inductive JsonRpcId where
  /-- The prefix of the viewer with a number. -/
  | request (id : ℕ)
  /-- The prefix with another text. -/
  | prefixed
  /-- Another id, or none. -/
  | foreign
  deriving DecidableEq

/-- `RemuxViewHostStatus`. -/
inductive RemuxViewHostStatus where
  | idle
  | connecting
  | connected
  | reconnecting
  | closed (reason : Option String)
  | error (message : String)
  deriving DecidableEq

/-- `NativeMessage`. -/
inductive NativeMessage where
  | event
  | lifecycle
  | status (status : RemuxViewHostStatus)
  | response (id : JsonRpcId)
  | error (id : JsonRpcId) (message : String)
  deriving DecidableEq

/-- How a promise was settled. -/
inductive Settlement where
  | result
  | rpcError (message : String)
  | aborted
  | postFailed
  | lost (reason : String)
  /-- `Remux request admission is full`. -/
  | full
  deriving DecidableEq

/-- `PendingIpcRequest`; `abort` removes the listener on the signal. -/
structure PendingIpcRequest where
  id : ℕ
  method : String
  signal : Option ℕ
  deriving DecidableEq

/-- The module, its host and the signals, with what became of the requests. -/
structure IpcState where
  /-- There is a direct host. -/
  directHost : Bool
  /-- The page is in a web view of its own, or on top. -/
  hosted : Bool
  initialized : Bool
  protectedTransportRequired : Bool
  /-- The host has announced `protectedHtmlPreviewTransport`. -/
  protectedCapability : Bool
  legacyTransportEstablished : Bool
  protectedTransportFailure : Option String
  protectedTransportQueue : List WebViewRequest
  nextId : ℕ
  pendingRequests : List PendingIpcRequest
  /-- The listeners on the signals, with their requests. -/
  listeners : List (ℕ × ℕ)
  /-- The signals that are aborted. -/
  aborted : List ℕ
  /-- What the transport was handed. -/
  sent : List WebViewRequest
  /-- The promises that were resolved or rejected. -/
  settlements : List (ℕ × Settlement)
  /-- The requests that something has come for which settles them. -/
  due : List ℕ
  /-- The requests that were aborted while they were queued. -/
  withdrawn : List ℕ

namespace IpcState

variable (s : IpcState)

/-- The request has an entry. -/
def pending (id : ℕ) : Bool := s.pendingRequests.any fun request => request.id = id

/-- The promise of the request is settled. -/
def settled (id : ℕ) : Bool := s.settlements.any fun settlement => settlement.1 = id

/-- The message would be queued for the protected transport. -/
def queueing : Bool :=
  s.protectedTransportRequired && !s.legacyTransportEstablished && s.hosted &&
    !s.protectedCapability

/-- The entry of a request is deleted, and its listener removed. -/
def remove (id : ℕ) : IpcState :=
  { s with
    pendingRequests := s.pendingRequests.filter fun request => request.id ≠ id
    listeners := s.listeners.filter fun listener => listener.2 ≠ id }

/-- A promise is resolved or rejected. -/
def settle (id : ℕ) (settlement : Settlement) : IpcState :=
  { s with settlements := s.settlements ++ [(id, settlement)] }

/-- `postMessage`; the host takes what it is handed, or throws. -/
def postMessage (message : WebViewRequest) (takes : Bool) : IpcState × Bool :=
  if s.directHost then (if takes then { s with sent := s.sent ++ [message] } else s, takes)
  else if s.queueing then
    if s.protectedTransportFailure.isSome then (s, false)
    else if 64 ≤ s.protectedTransportQueue.length then (s, false)
    else ({ s with protectedTransportQueue := s.protectedTransportQueue ++ [message] }, true)
  else if message.encodes && takes then ({ s with sent := s.sent ++ [message] }, true)
  else (s, false)

/-- A queued message that is not posted any more. -/
def skips (message : WebViewRequest) : Bool :=
  message.requestId.any fun id => !s.pending id

/-- The loop of `flushProtectedTransportQueue`: what is posted, and what is
left when a post throws. -/
def flushMessages : List WebViewRequest → (ℕ → Bool) → List WebViewRequest × List WebViewRequest
  | [], _ => ([], [])
  | message :: messages, takes =>
    let rest := flushMessages messages fun i => takes (i + 1)
    if s.skips message then rest
    else if message.encodes && takes 0 then (message :: rest.1, rest.2)
    else ([], message :: messages)

/-- What a flush leaves unposted. -/
def unposted (takes : ℕ → Bool) : List WebViewRequest :=
  if !s.legacyTransportEstablished && !s.protectedCapability then []
  else (s.flushMessages s.protectedTransportQueue takes).2

/-- `flushProtectedTransportQueue`. -/
def flushProtectedTransportQueue (takes : ℕ → Bool) : IpcState × Bool :=
  if !s.legacyTransportEstablished && !s.protectedCapability then (s, true)
  else
    ({ s with
        protectedTransportFailure := none
        protectedTransportQueue := []
        sent := s.sent ++ (s.flushMessages s.protectedTransportQueue takes).1
        due := s.due ++ (s.unposted takes).filterMap WebViewRequest.requestId },
      (s.unposted takes).isEmpty)

/-- `rejectPendingRequests`. -/
def rejectPendingRequests (reason : String) : IpcState :=
  { s with
    pendingRequests := []
    listeners := s.listeners.filter fun listener => !s.pending listener.2
    settlements := s.settlements ++ s.pendingRequests.map fun request =>
      (request.id, .lost reason) }

/-- `initializeIpc`. -/
def initializeIpc (requireProtectedTransport takes : Bool) : IpcState :=
  let s := { s with
    protectedTransportRequired := s.protectedTransportRequired || requireProtectedTransport }
  if s.initialized then s
  else (postMessage { s with initialized := true } .ready takes).1

/-- `requestIpc`. -/
def requestIpc (method : String) (encodes : Bool) (signal : Option ℕ) (takes : Bool) : IpcState :=
  let id := s.nextId
  let s := { s with nextId := id + 1 }
  if 64 ≤ s.pendingRequests.length then s.settle id .full
  else if signal.any fun signal => s.aborted.contains signal then s.settle id .aborted
  else
    let s := { s with
      pendingRequests := s.pendingRequests ++ [(⟨id, method, signal⟩ : PendingIpcRequest)]
      listeners := s.listeners ++ signal.toList.map fun signal => (signal, id) }
    match s.postMessage (.request id method encodes) takes with
    | (s, true) => s
    | (s, false) => (s.remove id).settle id .postFailed

/-- The listener of a request on its signal. -/
def abortRequest (id : ℕ) (reason : String) (takes : Bool) : IpcState :=
  if s.pending id then
    match (s.remove id).postMessage (.cancel id reason) takes with
    | (s, true) => s.settle id .aborted
    | (s, false) => s
  else s

/-- The listeners of a signal, one after the other; what one throws does
not keep the others from being called. -/
def abortRequests (reason : String) (takes : ℕ → Bool) : List ℕ → IpcState → IpcState
  | [], s => s
  | id :: ids, s => abortRequests reason takes ids (s.abortRequest id reason (takes id))

/-- The requests that listen on a signal. -/
def listening (signal : ℕ) : List ℕ :=
  (s.listeners.filter fun listener => listener.1 = signal).map Prod.snd

/-- A request waits in the queue. -/
def queued (id : ℕ) : Bool :=
  s.protectedTransportQueue.any fun message => message.requestId = some id

/-- A signal is aborted. -/
def abort (signal : ℕ) (reason : String) (takes : ℕ → Bool) : IpcState :=
  abortRequests reason takes (s.listening signal) { s with
      aborted := signal :: s.aborted
      due := s.due ++ s.listening signal
      withdrawn := s.withdrawn ++ (s.listening signal).filter s.queued }

/-- A message of the host makes the legacy transport known. -/
def establishesLegacy : Bool :=
  s.protectedTransportRequired && s.hosted && !s.protectedCapability

/-- A reply settles its request. -/
def answer (id : ℕ) (settlement : Settlement) : IpcState :=
  if s.pending id then (s.remove id).settle id settlement else s

/-- `handleNativeMessage`, when the transport is known. -/
def receive (message : NativeMessage) : IpcState :=
  match message with
  | .event | .lifecycle => s
  | .status (.closed reason) => s.rejectPendingRequests (reason.getD "Remux is not connected")
  | .status (.error message) => s.rejectPendingRequests message
  | .status _ => s
  | .response (.request id) => s.answer id .result
  | .response _ => s
  | .error (.request id) message => s.answer id (.rpcError message)
  | .error .prefixed _ => s
  | .error .foreign message => s.rejectPendingRequests message

/-- `handleNativeMessage`. -/
def handleNativeMessage (message : NativeMessage) (takes : ℕ → Bool) : IpcState :=
  if s.establishesLegacy then
    match flushProtectedTransportQueue { s with legacyTransportEstablished := true } takes with
    | (s, true) => s.receive message
    | (s, false) => s
  else s.receive message

/-- The ids that were given. -/
def ids : List ℕ := List.range' 1 (s.nextId - 1)

/-- The requests a message of the host settles. -/
def settles : NativeMessage → List ℕ
  | .status (.closed _) | .status (.error _) | .error .foreign _ => s.ids
  | .response (.request id) | .error (.request id) _ => s.ids.filter (· = id)
  | _ => []

/-- The text of `protectedTransportFailure`. -/
def transportFailure : String :=
  "The viewer host did not become ready. Reload the viewer to retry."

/-- The last probe has found no host. -/
def probesExhausted : IpcState :=
  rejectPendingRequests
    { s with protectedTransportQueue := [], protectedTransportFailure := some transportFailure }
    transportFailure

end IpcState

/-- What the viewer, its signals or its host do. -/
inductive IpcAction where
  | initializeIpc (requireProtectedTransport takes : Bool)
  | notify (method : String) (encodes takes : Bool)
  | request (method : String) (encodes : Bool) (signal : Option ℕ) (takes : Bool)
  | abort (signal : ℕ) (reason : String) (takes : ℕ → Bool)
  | message (message : NativeMessage) (takes : ℕ → Bool)
  /-- The host sets what it can do. -/
  | announce (protectedCapability : Bool)
  /-- `remux:host-capabilities-ready`. -/
  | capabilitiesReady (takes : ℕ → Bool)
  | probesExhausted

/-- **The machine of the requests.** -/
def ipcMachine (directHost hosted : Bool) : Machine IpcState IpcAction where
  init := ⟨directHost, hosted, false, false, false, false, none, [], 1, [], [], [], [], [], [], []⟩
  step s
    | .initializeIpc requireProtectedTransport takes =>
      some (s.initializeIpc requireProtectedTransport takes)
    | .notify method encodes takes =>
      if s.initialized then some (s.postMessage (.notify method encodes) takes).1 else none
    | .request method encodes signal takes =>
      if s.initialized then some (s.requestIpc method encodes signal takes) else none
    | .abort signal reason takes =>
      if s.aborted.contains signal then none else some (s.abort signal reason takes)
    | .message message takes =>
      if s.initialized then
        let t := s.handleNativeMessage message takes
        some { t with due := t.due ++ s.settles message }
      else none
    | .announce protectedCapability => some { s with protectedCapability }
    | .capabilitiesReady takes =>
      if s.initialized then some (s.flushProtectedTransportQueue takes).1 else none
    | .probesExhausted =>
      if s.protectedTransportRequired && !s.legacyTransportEstablished &&
          !s.protectedCapability then
        some { s.probesExhausted with due := s.due ++ s.ids }
      else none

/-! ## What is said of the requests -/

namespace IpcState

variable (s : IpcState)

/-- **Every request settles once.** It is pending until it does, with its
listener, and then neither; what comes for it settles it; a reply to it
changes nothing any more; and what was withdrawn is not sent. -/
structure Settling : Prop where
  once : (s.settlements.map Prod.fst).Nodup
  pending_iff : ∀ id ∈ s.ids, s.pending id = true ↔ s.settled id = false
  due : ∀ id ∈ s.due, s.settled id = true
  listening_iff : ∀ signal id, (signal, id) ∈ s.listeners ↔
    ∃ request ∈ s.pendingRequests, request.id = id ∧ request.signal = some signal
  deaf : ∀ id, s.settled id = true → ∀ message takes,
    message = .response (.request id) ∨ (∃ text, message = .error (.request id) text) →
      let t := s.handleNativeMessage message takes
      t.pendingRequests = s.pendingRequests ∧ t.listeners = s.listeners ∧
        t.settlements = s.settlements
  withdrawn : ∀ id ∈ s.withdrawn, ∀ message ∈ s.sent, message.requestId ≠ some id

/-- **What settles a request, and how**: as it is made, the refusal of one
too many, a signal that is aborted, or its post that fails; and after that
its signal, its reply, or the loss of the connection. -/
def Cause : IpcAction → ℕ → Settlement → Prop
  | .request method encodes signal takes, id, settlement =>
    id = s.nextId ∧ match settlement with
      | .full => 64 ≤ s.pendingRequests.length
      | .aborted => signal.any (fun signal => s.aborted.contains signal) = true
      | .postFailed => (s.postMessage (.request id method encodes) takes).2 = false
      | _ => False
  | .abort signal _ _, id, settlement => id ∈ s.listening signal ∧ settlement = .aborted
  | .message message _, id, settlement =>
    match message with
    | .response (.request reply) => id = reply ∧ settlement = .result
    | .error (.request reply) text => id = reply ∧ settlement = .rpcError text
    | .status (.closed reason) => settlement = .lost (reason.getD "Remux is not connected")
    | .status (.error text) | .error .foreign text => settlement = .lost text
    | _ => False
  | .probesExhausted, _, settlement => settlement = .lost transportFailure
  | _, _, _ => False

/-- A step settles the requests it has a cause for, and no others. -/
def Caused (a : IpcAction) (t : IpcState) : Prop :=
  ∃ new, t.settlements = s.settlements ++ new ∧ ∀ done ∈ new, s.Cause a done.1 done.2

/-- The messages carry no request that is pending. -/
def NonePending (messages : List WebViewRequest) : Prop :=
  ∀ message ∈ messages, ∀ id ∈ message.requestId, s.pending id = false

/-- The cancellations of some requests can be posted: the host takes them,
or the queue has room. -/
def CancelsPost (ids : List ℕ) (takes : ℕ → Bool) : Prop :=
  if !s.directHost && s.queueing then
    ids = [] ∨ s.protectedTransportFailure = none ∧
      s.protectedTransportQueue.length + ids.length ≤ 64
  else ∀ id ∈ ids, takes id = true

/-- What a message of the host leaves unposted before it is read. -/
def unpostedBy (takes : ℕ → Bool) : List WebViewRequest :=
  if s.establishesLegacy then unposted { s with legacyTransportEstablished := true } takes else []

/-- No post is refused that would settle or serve a pending request. -/
def Unhindered : IpcAction → Prop
  | .abort signal _ takes => s.CancelsPost (s.listening signal) takes
  | .message message takes =>
    s.unpostedBy takes = [] ∨ s.NonePending (s.unpostedBy takes) ∧
      ∀ id ∈ s.settles message, s.pending id = false
  | .capabilitiesReady takes => s.NonePending (s.unposted takes)
  | _ => True

instance (messages : List WebViewRequest) : Decidable (s.NonePending messages) :=
  inferInstanceAs (Decidable (∀ message ∈ messages, ∀ id ∈ message.requestId, _))

instance (ids : List ℕ) (takes : ℕ → Bool) : Decidable (s.CancelsPost ids takes) :=
  inferInstanceAs (Decidable (if (!s.directHost && s.queueing) = true then _ else _))

instance : ∀ a, Decidable (s.Unhindered a)
  | .abort _ _ _ => inferInstanceAs (Decidable (s.CancelsPost _ _))
  | .message _ _ => inferInstanceAs (Decidable (_ ∨ _ ∧ _))
  | .capabilitiesReady _ => inferInstanceAs (Decidable (s.NonePending _))
  | .initializeIpc _ _ | .notify _ _ _ | .request _ _ _ _ | .announce _ | .probesExhausted =>
    inferInstanceAs (Decidable True)

end IpcState

end Remux
