import Remux.Common.Assoc
import Remux.Common.Machine
import Remux.Json.Model.Text

/-!
# The extension RPC peer

`Peer` of the crate `remux-extension-rpc`: requests with progress on one
side, frames fed to `resolve` on the other, and the map of the pending
requests between them. Each critical section on that map is a step.

A caller has a response channel of capacity one, and may have a progress
channel. Whether a progress channel has room, or a reader, is left open at
each frame. What the request says is left out. The counters are not
bounded here.
-/

namespace Remux

/-- `MAX_PENDING_REQUESTS`. -/
def maxPendingRequests : ℕ := 32

/-- `MAX_PROGRESS_FRAME_BYTES`. -/
def maxProgressFrameBytes : ℕ := 16 * 1024

/-- `RpcError`. -/
structure RpcError where
  code : ℤ
  message : String
  data : Option Value

/-- `RpcError::transport`. -/
def RpcError.transport (message : String) : RpcError := ⟨-32000, message, none⟩

/-- `RpcError::from_value`. -/
def RpcError.fromValue (error : Value) : RpcError where
  code := ((error.get "code").bind Value.asI64).getD (-32603)
  message := ((error.get "message").bind Value.asStr).getD "Internal error"
  data := error.get "data"

/-- What a request comes to. -/
abbrev RpcResult := Except RpcError Value

/-- `PendingRequest`; its channels are those of a caller. -/
structure PendingRequest where
  caller : ℕ
  progress : Bool
  nextProgressSequence : ℕ
  deferredTerminal : Option (RpcResult × ℕ)

/-- What becomes of `try_send` on a progress channel. -/
inductive TrySend where
  | sent
  | full
  | disconnected

/-- Where `request_inner` stands. -/
inductive CallerPhase where
  | inserting
  | emitting
  | receiving
  | removing (error : RpcError)
  | returned (result : RpcResult)

/-- A call of `request_inner`. -/
structure Caller where
  id : String
  /-- It supplied a progress channel. -/
  progress : Bool
  phase : CallerPhase
  /-- What was sent on its response channel. -/
  responses : List RpcResult
  /-- The frames whose values were put on its progress channel. -/
  frames : List (ℕ × Value)

/-- The peer and its callers. -/
structure Peer where
  nextId : ℕ
  pending : Assoc String PendingRequest
  callers : List Caller

/-- `progressFrames` of a success. -/
def progressFrames : RpcResult → Option ℕ
  | .ok value => ((value.get "progressFrames").bind Value.asU64).map UInt64.toNat
  | .error _ => none

/-- The result that a terminal response has. -/
def terminalResult (message : Value) : RpcResult :=
  match message.get "error" with
  | some .null | none => .ok ((message.get "result").getD .null)
  | some error => .error (.fromValue error)

namespace Peer

/-- A caller changes. -/
def updateCaller (s : Peer) (c : ℕ) (f : Caller → Caller) : Peer :=
  { s with callers := s.callers.modify c f }

/-- A request is removed from the pending ones, and its caller gets a
result. -/
def complete (s : Peer) (id : String) (result : RpcResult) : Peer :=
  match s.pending.lookup id with
  | some request =>
    { s with pending := s.pending.erase id }.updateCaller request.caller
      fun caller => { caller with responses := caller.responses ++ [result] }
  | none => s

/-- `fail_pending`. -/
def failPending (s : Peer) (id message : String) : Peer :=
  s.complete id (.error (.transport message))

/-- A pending request changes. -/
def updateRequest (s : Peer) (id : String) (request : PendingRequest) : Peer :=
  { s with pending := s.pending.insert id request }

/-- `resolve`, of a terminal response to a pending request. -/
def resolveTerminal (s : Peer) (id : String) (request : PendingRequest) (result : RpcResult) :
    Peer :=
  if request.progress then
    match progressFrames result with
    | some progressFrames =>
      if request.nextProgressSequence > progressFrames then
        s.failPending id "extension RPC terminal progress count is invalid"
      else if request.nextProgressSequence < progressFrames then
        s.updateRequest id { request with deferredTerminal := some (result, progressFrames) }
      else s.complete id result
    | none => s.complete id result
  else s.complete id result

section

variable (floatText : Double → List Char)

/-- The frame of a pending request is not accepted, for this reason. -/
def progressFailure (request : PendingRequest) (sequence : Option ℕ) (value : Option Value) :
    Option String :=
  if sequence ≠ some request.nextProgressSequence then
    some "extension RPC progress sequence is invalid"
  else if value.all fun value => maxProgressFrameBytes < (toVec floatText value).length then
    some "extension RPC progress frame is too large"
  else if !request.progress then some "extension RPC request did not opt into progress"
  else none

/-- The value of a frame is put on the progress channel. -/
def put (s : Peer) (id : String) (request : PendingRequest) (frame : ℕ × Value) : Peer :=
  (s.updateRequest id
    { request with nextProgressSequence := request.nextProgressSequence + 1 }).updateCaller
      request.caller fun caller => { caller with frames := caller.frames ++ [frame] }

/-- The value is put, and a terminal response that waited for it is
delivered. -/
def sendProgress (s : Peer) (id : String) (request : PendingRequest) (frame : ℕ × Value) : Peer :=
  match request.deferredTerminal with
  | some (terminal, expected) =>
    if request.nextProgressSequence + 1 = expected then
      (s.put id request frame).complete id terminal
    else s.put id request frame
  | none => s.put id request frame

/-- `resolve_progress`, of a frame for a pending request. -/
def resolveFrame (s : Peer) (id : String) (request : PendingRequest) (sequence : Option ℕ)
    (value : Option Value) (trySend : TrySend) : Peer :=
  match progressFailure floatText request sequence value, sequence, value with
  | some message, _, _ => s.failPending id message
  | none, some sequence, some value =>
    match trySend with
    | .sent => s.sendProgress id request (sequence, value)
    | .full => s.failPending id "extension RPC progress channel overflowed"
    | .disconnected => s.failPending id "extension RPC progress receiver disconnected"
  | none, _, _ => s

variable (idPrefix : String)

/-- The id is one of this peer. -/
def owns (id : String) : Bool := idPrefix.toList.isPrefixOf id.toList

/-- The id of a progress frame, or of a response, of this peer. -/
def messageId (message : Value) : Option String :=
  let id :=
    if (message.get "method").bind Value.asStr = some "$/progress" then
      (message.get "params").bind fun params => params.get "id"
    else if (message.get "method").isSome then none
    else message.get "id"
  (id.bind Value.asStr).filter (owns idPrefix)

/-- **`resolve`**: whether the message is one for this peer, and what it
does. -/
def resolve (s : Peer) (message : Value) (trySend : TrySend) : Bool × Peer :=
  match messageId idPrefix message with
  | none => (false, s)
  | some id =>
    match s.pending.lookup id with
    | none => (true, s)
    | some request =>
      if (message.get "method").isSome then
        let param key := (message.get "params").bind fun params => params.get key
        let sequence := ((param "sequence").bind Value.asU64).map UInt64.toNat
        (true, s.resolveFrame floatText id request sequence (param "value") trySend)
      else (true, s.resolveTerminal id request (terminalResult message))

/-- The first step of `request_inner`: it gets an id. -/
def request (s : Peer) (progress : Bool) : Peer :=
  { s with
    nextId := s.nextId + 1
    callers := s.callers ++ [⟨idPrefix ++ s.nextId.repr, progress, .inserting, [], []⟩] }

/-- A caller goes on. -/
def enter (s : Peer) (c : ℕ) (phase : CallerPhase) : Peer :=
  s.updateCaller c fun caller => { caller with phase }

/-- The request becomes pending. -/
def insert (s : Peer) (c : ℕ) : Option Peer :=
  (s.callers[c]?).bind fun caller =>
    match caller.phase with
    | .inserting =>
      if s.pending.size ≥ maxPendingRequests then
        some (s.enter c
          (.returned (.error (.transport "extension RPC pending request limit reached"))))
      else
        some ((s.updateRequest caller.id ⟨c, caller.progress, 0, none⟩).enter c .emitting)
    | _ => none

/-- The request is emitted, or that fails. -/
def emit (s : Peer) (c : ℕ) (error : Option String) : Option Peer :=
  (s.callers[c]?).bind fun caller =>
    match caller.phase with
    | .emitting =>
      match error with
      | none => some (s.enter c .receiving)
      | some message => some (s.enter c (.removing (.transport message)))
    | _ => none

/-- The caller receives what was sent. -/
def receive (s : Peer) (c : ℕ) : Option Peer :=
  (s.callers[c]?).bind fun caller =>
    match caller.phase, caller.responses with
    | .receiving, result :: _ => some (s.enter c (.returned result))
    | _, _ => none

/-- The caller has waited in vain. -/
def timeout (s : Peer) (c : ℕ) : Option Peer :=
  (s.callers[c]?).bind fun caller =>
    match caller.phase, caller.responses with
    | .receiving, [] => some (s.enter c (.removing (.transport "extension RPC request timed out")))
    | _, _ => none

/-- The response channel is closed with nothing sent: the request is no
longer pending. -/
def disconnected (s : Peer) (c : ℕ) : Option Peer :=
  (s.callers[c]?).bind fun caller =>
    match caller.phase, caller.responses with
    | .receiving, [] =>
      if (s.pending.lookup caller.id).isNone then
        some (s.enter c (.removing (.transport "extension RPC response became unavailable")))
      else none
    | _, _ => none

/-- `remove_pending`, and the caller returns its error. -/
def remove (s : Peer) (c : ℕ) : Option Peer :=
  (s.callers[c]?).bind fun caller =>
    match caller.phase with
    | .removing error =>
      some ({ s with pending := s.pending.erase caller.id }.enter c (.returned (.error error)))
    | _ => none

end

end Peer

/-- A step of a caller, or a frame. -/
inductive PeerAction where
  | request (progress : Bool)
  | insert (c : ℕ)
  | emit (c : ℕ) (error : Option String)
  | resolve (message : Value) (trySend : TrySend)
  | receive (c : ℕ)
  | timeout (c : ℕ)
  | disconnected (c : ℕ)
  | remove (c : ℕ)

/-- **The machine of a peer**, with the texts of its doubles and the first
part of its ids. -/
def peerMachine (floatText : Double → List Char) (idPrefix : String) : Machine Peer PeerAction where
  init := ⟨1, ∅, []⟩
  step s
    | .request progress => some (s.request idPrefix progress)
    | .insert c => s.insert c
    | .emit c error => s.emit c error
    | .resolve message trySend => some (s.resolve floatText idPrefix message trySend).2
    | .receive c => s.receive c
    | .timeout c => s.timeout c
    | .disconnected c => s.disconnected c
    | .remove c => s.remove c

end Remux
