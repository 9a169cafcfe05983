import Remux.Common.Assoc
import Remux.Common.Machine
import Remux.Json.OneLine
import Remux.Rpc.Model.JsonRpc

/-!
# Calls to an extension server

A supervisor is an actor with a mailbox. A caller of `handle_rpc` sends
its request there and waits for an answer; where it stops waiting, its
guard sends a cancellation after it. The actor enters a request in the
map of pending calls, and then hands the line to the child's input. The
child's output is read by a task of its own, which takes the calls it
answers out of the map, also between the two; stops and exits reject the
rest.

Which lifecycle commands come, whether they spawn a child and when the
actor respawns one is left open, and so are the lines the runtime sends
the child besides. `serde_json::from_str` is a parameter.
-/

namespace Remux

namespace Extensions

/-- `MAX_PENDING_EXTENSION_RPCS`. -/
def maxPendingExtensionRpcs : ℕ := 64

/-- `MAX_EXTENSION_LINE_BYTES`. -/
def maxExtensionLineBytes : ℕ := 16 * 1024 * 1024

/-- The capacity of a supervisor's mailbox. -/
def mailboxCapacity : ℕ := 128

/-- The capacity of the channel to a child's input. -/
def stdinCapacity : ℕ := 128

/-! ## Reading the output -/

/-- What `read_lines` makes of the bytes it has. -/
inductive LineRead where
  /-- The line goes on: all of them belong to it. -/
  | more (line : List UInt8)
  /-- A line, and the bytes after it. -/
  | line (text : String) (rest : List UInt8)
  /-- The reader returns. -/
  | stopped

/-- The text of a line, without the carriage return at its end. -/
def lineText (line : List UInt8) : Option String :=
  let bytes := if line.getLast? = some 13 then line.dropLast else line
  String.fromUTF8? bytes.toByteArray

/-- One turn of `read_lines`, with the line so far and the bytes it
found. It returns where the line is too long or is not UTF-8. -/
def readLine (line available : List UInt8) : LineRead :=
  if newline ∈ available then
    let length := available.idxOf newline
    if maxExtensionLineBytes < line.length + length then .stopped
    else
      match lineText (line ++ available.take length) with
      | some text => .line text (available.drop (length + 1))
      | none => .stopped
  else if maxExtensionLineBytes < line.length + available.length then .stopped
  else .more (line ++ available)

/-- The task that reads the output of a child. -/
structure LineReader where
  /-- The line so far. -/
  line : List UInt8
  /-- The bytes of the buffer it has not consumed. -/
  available : List UInt8
  /-- A line it is about to handle, found to be of the current child. -/
  held : Option String
  stopped : Bool

/-- A reader that has not read anything. -/
def LineReader.new : LineReader := ⟨[], [], none, false⟩

/-! ## Messages of the child -/

/-- `extension_response_id`. -/
def extensionResponseId (message : Value) : Option ℕ := do
  let id ← (message.get "id").bind Value.asU64
  if ((message.get "method").bind Value.asStr).isNone &&
      ((message.get "result").isSome || (message.get "error").isSome) then
    some id.toNat
  else none

/-- `error_from_response`. -/
def errorFromResponse (error : Value) (method : String) : JsonRpcError where
  code := (((error.get "code").bind Value.asI64).map Int64.ofInt).getD extensionError
  message := method ++ " failed: " ++
    ((error.get "message").bind Value.asStr).getD "Unknown JSON-RPC error"
  data := error.get "data"

/-- What a caller is answered, as `handle_protocol_line` reads it off the
child's response. -/
def responseResult (message : Value) (method : String) : Except JsonRpcError Value :=
  match message.get "error" with
  | some .null => .ok ((message.get "result").getD .null)
  | some error => .error (errorFromResponse error method)
  | none => .ok ((message.get "result").getD .null)

/-! ## The supervisor and its callers -/

/-- A `Cmd` of the mailbox. -/
inductive Cmd where
  | rpc (requestId : ℕ) (method : String) (params : Option Value)
  | cancelRpc (requestId : ℕ)
  | start
  | stop
  | restart
  /-- A command that does not touch the calls or the child. -/
  | other

/-- A line for the child's input. -/
inductive StdinLine where
  | request (id : ℕ) (method : String) (params : Option Value)
  | cancelRequest (id : ℕ)
  /-- A notification, or the answer to a request of the child's own. -/
  | other

/-- The future of a call. -/
inductive CallStatus where
  /-- It waits for room in the mailbox. -/
  | sending (method : String) (params : Option Value)
  /-- It waits for its answer. -/
  | waiting
  /-- Its answer is there, from the child of a generation or from the
  supervisor itself. -/
  | resolved (result : Except JsonRpcError Value) (source : Option ℕ)
  /-- The caller dropped it. -/
  | dropped

/-- An answer is sent to a caller, who gets it if it still waits. -/
def CallStatus.answer (result : Except JsonRpcError Value) (source : Option ℕ) :
    CallStatus → CallStatus
  | waiting => resolved result source
  | status => status

/-- A supervisor, its child, and the calls made to it. -/
structure RpcWorld where
  /-- `next_rpc_request_id`. -/
  nextRpcRequestId : ℕ
  calls : Assoc ℕ CallStatus
  mailbox : List Cmd
  /-- A child is held and the state is `Running`. -/
  running : Bool
  /-- The child has exited, and the actor has not noticed. -/
  exited : Bool
  generation : ℕ
  /-- The channel to the child's input, and whether its writer is gone. -/
  stdin : List StdinLine
  stdinClosed : Bool
  /-- `PendingMap`: the methods of the calls. -/
  pending : Assoc ℕ String
  /-- The call that the actor has entered there, and the line it has yet to
  hand to the child's input. -/
  entering : Option (ℕ × StdinLine)
  /-- The readers of the children, by generation. -/
  readers : Assoc ℕ LineReader
  /-- The generation whose input a call was written to. -/
  written : Assoc ℕ ℕ
  /-- The ids that children answered, by generation. -/
  answered : List (ℕ × ℕ)

/-- One step of a caller, of the child, of a task or of the actor. -/
inductive RpcAction where
  /-- `handle_rpc` is called. -/
  | called (method : String) (params : Option Value)
  /-- A call's command enters the mailbox. -/
  | sent (requestId : ℕ)
  /-- A call is dropped. Its cancellation is lost where the mailbox has no
  room for it. -/
  | dropped (requestId : ℕ) (lost : Bool)
  /-- A lifecycle command, or another one, enters the mailbox. -/
  | commanded (command : Cmd)
  /-- The actor handles the next command; whether a start spawns. -/
  | handled (spawns : Bool)
  /-- The actor hands the line of the call it has entered to the child's
  input. -/
  | handedOver
  /-- The child exits. -/
  | childExits
  /-- The actor notices the exit of its child. -/
  | exitNoticed
  /-- The actor respawns a child after a crash. -/
  | respawned (spawns : Bool)
  /-- A reader finds these bytes, or the end of the output. -/
  | outputFound (generation : ℕ) (bytes : List UInt8)
  /-- A reader takes the next line from the bytes it has. -/
  | lineRead (generation : ℕ)
  /-- A reader handles the line it took. -/
  | lineHandled (generation : ℕ)
  /-- Another line is sent to the child's input. -/
  | otherLine
  /-- The writer of the child's input writes a line. -/
  | lineWritten
  /-- It fails. -/
  | writerFails

namespace RpcWorld

/-- The answer to a call. -/
def settle (w : RpcWorld) (id : ℕ) (result : Except JsonRpcError Value) (source : Option ℕ) :
    RpcWorld :=
  { w with calls := w.calls.modify id (CallStatus.answer result source) }

/-- `reject_pending`. -/
def rejectPending (w : RpcWorld) (message : String) : RpcWorld :=
  { w with
    calls := w.pending.keys.foldl (fun calls id =>
      calls.modify id (CallStatus.answer (.error (.new extensionError message)) none)) w.calls
    pending := ∅ }

/-- `StdinCommand`'s `try_send`. -/
def trySend (w : RpcWorld) (line : StdinLine) : Option RpcWorld :=
  if w.stdinClosed || stdinCapacity ≤ w.stdin.length then none
  else some { w with stdin := w.stdin ++ [line] }

/-- `spawn_child`: a generation, and a child with a reader where all goes
well. -/
def spawnChild (w : RpcWorld) (spawns : Bool) : RpcWorld :=
  let generation := w.generation + 1
  if spawns then
    { w with
      generation
      running := true
      exited := false
      stdin := []
      stdinClosed := false
      readers := w.readers.insert generation .new }
  else { w with generation }

section

variable (extensionId : String)

/-- `stop_child`. -/
def stopChild (w : RpcWorld) : RpcWorld :=
  let rejected := w.rejectPending s!"extension {extensionId} stopped"
  if w.running then
    { rejected with
      running := false
      exited := false
      stdin := []
      generation := w.generation + 1 }
  else rejected

/-- `handle_unprompted_exit`, up to its respawn. -/
def noticeExit (w : RpcWorld) : RpcWorld :=
  { w.rejectPending s!"extension {extensionId} exited" with
    running := false
    exited := false
    stdin := []
    generation := w.generation + 1 }

/-- `Actor::handle_rpc`, as far as the entry in the map. -/
def handleRpc (w : RpcWorld) (id : ℕ) (method : String) (params : Option Value) : RpcWorld :=
  if !w.running then
    w.settle id (.error (.new extensionError s!"extension {extensionId} is not running")) none
  else if maxPendingExtensionRpcs ≤ w.pending.size then
    w.settle id (.error (.new extensionError s!"extension {extensionId} RPC queue is full")) none
  else
    { w with
      pending := w.pending.insert id method
      entering := some (id, .request id method params) }

/-- The rest of it. Where the input has no room the entry is taken back, if
it is still there. -/
def handOver (w : RpcWorld) (id : ℕ) (line : StdinLine) : RpcWorld :=
  match w.trySend line with
  | some sent => { sent with written := w.written.insert id w.generation }
  | none =>
    -- a line of the child may have taken the entry in the meantime
    if (w.pending.lookup id).isSome then
      { w with pending := w.pending.erase id }.settle id
        (.error (.new extensionError s!"extension {extensionId} input queue is full")) none
    else w

/-- `Actor::cancel_rpc`. -/
def cancelRpc (w : RpcWorld) (id : ℕ) : RpcWorld :=
  if (w.pending.lookup id).isNone then w
  else
    let cancelled := { w with pending := w.pending.erase id }
    if w.running then (cancelled.trySend (.cancelRequest id)).getD cancelled else cancelled

/-- `Actor::handle_command`. -/
def handleCommand (w : RpcWorld) (spawns : Bool) : Cmd → RpcWorld
  | .rpc id method params => w.handleRpc extensionId id method params
  | .cancelRpc id => w.cancelRpc id
  | .start => if w.running then w else w.spawnChild spawns
  | .stop => w.stopChild extensionId
  | .restart => (w.stopChild extensionId).spawnChild spawns
  | .other => w

end

/-- The reader of a child is changed. -/
def setReader (w : RpcWorld) (generation : ℕ) (reader : LineReader) : RpcWorld :=
  { w with readers := w.readers.insert generation reader }

/-- The callback of a reader: a line of a child that was replaced is
passed over. -/
def holdLine (w : RpcWorld) (generation : ℕ) (reader : LineReader) (text : String) : RpcWorld :=
  if w.generation = generation then w.setReader generation { reader with held := some text }
  else w.setReader generation reader

/-- `handle_protocol_line`, of a response. -/
def handleLine (w : RpcWorld) (fromStr : String → Option Value) (generation : ℕ) (text : String) :
    RpcWorld :=
  match (fromStr text).bind fun message => (extensionResponseId message).map (message, ·) with
  | some (message, id) =>
    let heard := { w with answered := (generation, id) :: w.answered }
    match w.pending.lookup id with
    | some method =>
      { heard with pending := w.pending.erase id }.settle id (responseResult message method)
        (some generation)
    | none => heard
  | none => w

end RpcWorld

section

variable (extensionId : String) (fromStr : String → Option Value)

/-- What a step does. -/
def rpcStep (w : RpcWorld) : RpcAction → Option RpcWorld
  | .called method params => some { w with
      nextRpcRequestId := w.nextRpcRequestId + 1
      calls := w.calls.insert w.nextRpcRequestId (.sending method params) }
  | .sent id =>
    match w.calls.lookup id with
    | some (.sending method params) =>
      if w.mailbox.length < mailboxCapacity then
        some { w with
          calls := w.calls.insert id .waiting
          mailbox := w.mailbox ++ [.rpc id method params] }
      else none
    | _ => none
  | .dropped id lost =>
    match w.calls.lookup id with
    | none | some .dropped => none
    | some (.sending _ _) => some { w with calls := w.calls.insert id .dropped }
    | some _ =>
      if lost then
        -- another call may have been promised the room there is
        if w.mailbox.length < mailboxCapacity && w.calls.entries.all fun call =>
            !call.2 matches .sending _ _ then none
        else some { w with calls := w.calls.insert id .dropped }
      else if w.mailbox.length < mailboxCapacity then
        some { w with
          calls := w.calls.insert id .dropped
          mailbox := w.mailbox ++ [.cancelRpc id] }
      else none
  | .commanded command =>
    match command with
    | .rpc _ _ _ | .cancelRpc _ => none
    | _ =>
      if w.mailbox.length < mailboxCapacity then some { w with mailbox := w.mailbox ++ [command] }
      else none
  | .handled spawns =>
    -- the actor takes no command while it hands a line over
    match w.entering, w.mailbox with
    | none, command :: mailbox =>
      some ({ w with mailbox }.handleCommand extensionId spawns command)
    | _, _ => none
  | .handedOver =>
    match w.entering with
    | none => none
    | some (id, line) => some ({ w with entering := none }.handOver extensionId id line)
  | .childExits => if w.running then some { w with exited := true } else none
  | .exitNoticed =>
    if w.entering.isNone && w.running && w.exited then some (w.noticeExit extensionId) else none
  | .respawned spawns =>
    if w.entering.isSome || w.running then none else some (w.spawnChild spawns)
  | .outputFound generation bytes =>
    match w.readers.lookup generation with
    | none => none
    | some reader =>
      if reader.stopped || reader.held.isSome || !reader.available.isEmpty then none
      else if bytes = [] then
        -- the end of the output: what is left is a line without its newline
        let ended := { reader with line := [], stopped := true }
        some (match if reader.line = [] then none else lineText reader.line with
          | some text => w.holdLine generation ended text
          | none => w.setReader generation ended)
      else some (w.setReader generation { reader with available := bytes })
  | .lineRead generation =>
    match w.readers.lookup generation with
    | none => none
    | some reader =>
      if reader.stopped || reader.held.isSome || reader.available.isEmpty then none
      else
        some (match readLine reader.line reader.available with
          | .more line => w.setReader generation { reader with line, available := [] }
          | .line text rest =>
            w.holdLine generation { reader with line := [], available := rest } text
          | .stopped => w.setReader generation { reader with stopped := true })
  | .lineHandled generation =>
    match w.readers.lookup generation with
    | none => none
    | some reader =>
      match reader.held with
      | none => none
      | some text =>
        some ((w.setReader generation { reader with held := none }).handleLine fromStr generation
          text)
  | .otherLine => if w.running then w.trySend .other else none
  | .lineWritten =>
    match w.stdin with
    | [] => none
    | _ :: stdin => some { w with stdin }
  | .writerFails => if w.running then some { w with stdin := [], stdinClosed := true } else none

/-- Before the first command. -/
def RpcWorld.init : RpcWorld where
  nextRpcRequestId := 1
  calls := ∅
  mailbox := []
  running := false
  exited := false
  generation := 0
  stdin := []
  stdinClosed := false
  pending := ∅
  entering := none
  readers := ∅
  written := ∅
  answered := []

/-- The runs of a supervisor and its callers. -/
def rpcMachine : Machine RpcWorld RpcAction where
  init := .init
  step := rpcStep extensionId fromStr

namespace RpcWorld

/-- The output of the current child is being read. -/
def readsOutput (w : RpcWorld) : Bool :=
  (w.readers.lookup w.generation).any fun reader => !reader.stopped

/-- **No call is orphaned**: while nothing is to be done, each pending
call has a caller that waits, and a running child whose output is
read. -/
def NoOrphans (w : RpcWorld) : Prop :=
  w.mailbox = [] → w.entering = none → w.exited = false →
    ∀ id method, w.pending.lookup id = some method →
      w.calls.lookup id = some .waiting ∧ w.running = true ∧ w.readsOutput = true

/-- **Results come from the child** a call was written to, and from an
answer to its id. -/
def ResultsAnswered (w : RpcWorld) : Prop :=
  ∀ id result source, w.calls.lookup id = some (.resolved result source) →
    (∀ value, result = .ok value → source.isSome = true) ∧
    ∀ generation, source = some generation →
      w.written.lookup id = some generation ∧ (generation, id) ∈ w.answered

/-- The call is entered in the map, and not yet handed to the input. -/
def enters (w : RpcWorld) (id : ℕ) : Bool := w.entering.any (·.1 == id)

/-- Calls written to the live child of the generation are pending. -/
def awaitsOutput (w : RpcWorld) (generation : ℕ) : Bool :=
  w.generation = generation && !w.exited && w.pending.keys.any fun id => !w.enters id

/-- The child's input has room for a line. -/
def hasRoom (w : RpcWorld) : Bool := !(w.stdinClosed || stdinCapacity ≤ w.stdin.length)

end RpcWorld

/-- **The condition**: a call that is dropped gets its cancellation in,
the reader of a live child does not stop while calls written to it are
pending, no call is written to a live child that is not read, and no line
names a pending call of another child, or one that is not written yet. -/
def heard (w : RpcWorld) : RpcAction → Bool
  | .dropped _ lost => !lost
  | .handedOver => !w.hasRoom || w.exited || w.readsOutput
  | .outputFound generation bytes => !bytes.isEmpty || !w.awaitsOutput generation
  | .lineRead generation =>
    match w.readers.lookup generation with
    | some reader =>
      match readLine reader.line reader.available with
      | .stopped => !w.awaitsOutput generation
      | _ => true
    | none => true
  | .lineHandled generation =>
    match ((w.readers.lookup generation).bind (·.held)).bind fun text =>
      (fromStr text).bind extensionResponseId with
    | some id =>
      (w.pending.lookup id).isNone || w.generation = generation && !w.enters id
    | none => true
  | _ => true

end

end Extensions

end Remux
