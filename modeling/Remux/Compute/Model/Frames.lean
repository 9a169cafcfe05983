import Remux.Common.Lines
import Remux.Json.OneLine

/-!
# Compute workers

A task runs in a process of its own, `remux-compute` in between. The
extension writes one request to the worker's input, and the worker writes
frames to its output: progress, and at the end a completion or an error.
Each is one line of JSON. Both sides bound how long it may be, the writer
before it writes and the reader while it reads.

Processes, the task itself and what an extension does with the events it
is sent are left out, and so are failures of the pipes.
-/

namespace Remux

namespace Compute

/-- `PROTOCOL_VERSION`. -/
def protocolVersion : UInt32 := 1

/-- `MAX_REQUEST_BYTES`. -/
def maxRequestBytes : ℕ := 16 * 1024 * 1024

/-- `MAX_FRAME_BYTES`. -/
def maxFrameBytes : ℕ := 16 * 1024 * 1024

/-- `ComputeError`, those of the framing. -/
inductive ComputeError where
  | registration (message : String)
  | protocol (message : String)
  | task (message : String)
  deriving DecidableEq

/-- How a payload type is made a JSON value and read back from one. That
the two agree is what the framing relies on. -/
structure Codec (α : Type*) where
  toValue : α → Except String Value
  fromValue : Value → Except String α
  fromValue_toValue : ∀ a v, toValue a = .ok v → fromValue v = .ok a

/-- A `Task`: its name, its version and the types it exchanges. -/
structure Task (Input Progress Output : Type*) where
  name : String
  version : UInt32
  input : Codec Input
  progress : Codec Progress
  output : Codec Output

/-- `Request`. -/
structure Request where
  protocolVersion : UInt32
  task : String
  taskVersion : UInt32
  input : Value

/-- `Frame`. -/
inductive Frame where
  | progress (payload : Value)
  | complete (payload : Value)
  | error (message : String)

/-- A number that fits 32 bits, as JSON. -/
def ofU32 (n : UInt32) : Value := .number (.posInt n.toUInt64)

/-- A JSON number that fits 32 bits. -/
def asU32 (value : Value) : Option UInt32 :=
  value.asU64.bind fun n => if n.toNat < 2 ^ 32 then some n.toUInt32 else none

/-- The derived `Serialize` of a request. -/
def Request.toValue (request : Request) : Value :=
  .object [("protocolVersion", ofU32 request.protocolVersion), ("task", .string request.task),
    ("taskVersion", ofU32 request.taskVersion), ("input", request.input)]

/-- The derived `Deserialize` of a request. -/
def Request.ofValue (value : Value) : Option Request := do
  let protocolVersion ← (value.get "protocolVersion").bind asU32
  let task ← (value.get "task").bind Value.asStr
  let taskVersion ← (value.get "taskVersion").bind asU32
  let input ← value.get "input"
  return { protocolVersion, task, taskVersion, input }

/-- The derived `Serialize` of a frame, tagged with its type. -/
def Frame.toValue : Frame → Value
  | progress payload => .object [("type", .string "progress"), ("payload", payload)]
  | complete payload => .object [("type", .string "complete"), ("payload", payload)]
  | error message => .object [("type", .string "error"), ("message", .string message)]

/-- The derived `Deserialize` of a frame. -/
def Frame.ofValue (value : Value) : Option Frame :=
  match (value.get "type").bind Value.asStr with
  | some "progress" => (value.get "payload").map progress
  | some "complete" => (value.get "payload").map complete
  | some "error" => ((value.get "message").bind Value.asStr).map error
  | _ => none

section

variable (floatText : Double → List Char)

/-! ## Writing -/

/-- `Registry`: the versions of the tasks it has. -/
abbrev Registry := List (String × UInt32)

variable {Input Progress Output : Type*}

/-- The request `spawn` makes of an input. -/
def Task.request (task : Task Input Progress Output) (input : Input) : Except String Request :=
  (task.input.toValue input).map fun value =>
    { protocolVersion, task := task.name, taskVersion := task.version, input := value }

/-- `Registry::spawn`, up to what it writes to the worker's input. -/
def Registry.spawn (registry : Registry) (task : Task Input Progress Output) (input : Input) :
    Except ComputeError (List UInt8) :=
  match registry.lookup task.name with
  | none => .error (.registration s!"compute task {task.name} is not registered")
  | some version =>
    if version ≠ task.version then
      .error (.registration s!"compute task {task.name} version mismatch")
    else
      match task.request input with
      | .error error => .error (.protocol error)
      | .ok request =>
        let encoded := toVec floatText request.toValue
        if maxRequestBytes < encoded.length then
          .error (.protocol s!"compute request is too large: {encoded.length}>{maxRequestBytes}")
        else .ok (encoded ++ [newline])

/-- `ProgressSink::emit`: what is written to the worker's output. -/
def emit (frame : Frame) : Except String (List UInt8) :=
  let encoded := toVec floatText frame.toValue
  if maxFrameBytes < encoded.length then
    .error s!"compute frame is too large: {encoded.length}>{maxFrameBytes}"
  else .ok (encoded ++ [newline])

/-- What a worker tells: a value of its progress, its output, or the
error it ended with. -/
inductive Report (Progress Output : Type*) where
  | progress (progress : Progress)
  | complete (output : Output)
  | error (message : String)

/-- The frame of a report, as `TaskContext::progress`, `run_registered`
and `dispatch_registered` make it. -/
def Task.frame (task : Task Input Progress Output) : Report Progress Output → Except String Frame
  | .progress progress => ((task.progress.toValue progress).map Frame.progress).mapError
      fun error => s!"failed to encode task progress: {error}"
  | .complete output => ((task.output.toValue output).map Frame.complete).mapError
      fun error => s!"failed to encode task output: {error}"
  | .error message => .ok (.error message)

/-- What a worker whose reports are all accepted has written. -/
def emitAll (task : Task Input Progress Output) :
    List (Report Progress Output) → Except String (List UInt8)
  | [] => .ok []
  | report :: reports => do
    let frame ← task.frame report
    let line ← emit floatText frame
    return line ++ (← emitAll task reports)

end

/-! ## Reading -/

section

-- `serde_json::from_slice`, before the derived `Deserialize`
variable (fromSlice : List UInt8 → Except String Value)

/-- `serde_json::from_slice::<T>`. -/
def decode {α : Type*} (ofValue : Value → Option α) (encoded : List UInt8) :
    Except ComputeError α :=
  match fromSlice encoded with
  | .error error => .error (.protocol error)
  | .ok value => (ofValue value).elim (.error (.protocol "invalid type")) .ok

/-- `read_request`. -/
def readRequest (chunks : List (List UInt8)) : Except ComputeError Request :=
  let encoded := (Lines.readUntil newline (maxRequestBytes + 1) chunks).1
  if maxRequestBytes < encoded.length then
    .error (.protocol s!"compute request exceeds {maxRequestBytes} bytes")
  else decode fromSlice Request.ofValue encoded

/-- `WorkerEvent`. -/
inductive WorkerEvent (Progress Output : Type*) where
  | progress (progress : Progress)
  | complete (output : Output)

variable {Input Progress Output : Type*}

/-- The event of a frame. -/
def Task.event (task : Task Input Progress Output) :
    Frame → Except ComputeError (WorkerEvent Progress Output)
  | .progress payload => ((task.progress.fromValue payload).map .progress).mapError .protocol
  | .complete payload => ((task.output.fromValue payload).map .complete).mapError .protocol
  | .error message => .error (.task message)

/-- Whether an event is the last one a reader sends. -/
def terminal : Except ComputeError (WorkerEvent Progress Output) → Bool
  | .ok (.progress _) => false
  | _ => true

/-- `read_task_frames`: the events it sends, in order. -/
def readTaskFrames (task : Task Input Progress Output) (chunks : List (List UInt8)) :
    List (Except ComputeError (WorkerEvent Progress Output)) :=
  let read := Lines.readUntil newline (maxFrameBytes + 1) chunks
  if _hread : read.1 = [] then []
  else if maxFrameBytes < read.1.length then
    [.error (.protocol s!"compute frame exceeds {maxFrameBytes} bytes")]
  else
    let event := (decode fromSlice Frame.ofValue read.1).bind task.event
    if terminal event then [event] else event :: readTaskFrames task read.2
termination_by chunks.flatten.length
decreasing_by exact Lines.length_readUntil_lt _hread

end

/-! ## What is to be heard -/

section

variable {Progress Output : Type*}

/-- The reports a reader should hear: those up to the first that ends
the task. -/
def heard : List (Report Progress Output) → List (Report Progress Output)
  | [] => []
  | .progress value :: reports => .progress value :: heard reports
  | last :: _ => [last]

/-- What a reader should be sent for a report. -/
def Report.event : Report Progress Output → Except ComputeError (WorkerEvent Progress Output)
  | progress value => .ok (.progress value)
  | complete output => .ok (.complete output)
  | error message => .error (.task message)

end

end Compute

end Remux
