import Remux.Common.Assoc
import Remux.Common.Machine

/-!
# The terminal server: sessions, their input and their processes

Each request is handled by a thread of its own. A write is done under the
lock. A start takes the lock to look for a session that runs, again to
remove one that does not, spawns the shell without it, and takes it once
more to record the session. A kill removes the record under the lock and
calls the killer after. So an action is what a thread does between two
moments where another thread may come first.

What was asked for and answered is kept with the server (`writes`,
`started`), and so is every chunk that was queued for a terminal
(`WriterChannel`). Output, subscriptions and the size of a session are
left out but for the errors they can end a request with.
-/

namespace Remux

namespace Terminal

/-- `MAX_INPUT_CHUNK_BYTES`. -/
def maxInputChunkBytes : ℕ := 64 * 1024

/-- `SESSION_INPUT_QUEUE_CAPACITY`. -/
def sessionInputQueueCapacity : ℕ := 128

/-- `MAX_INPUT_STREAMS`. -/
def maxInputStreams : ℕ := 8

/-- `INPUT_STREAM_RECONNECT_LEASE`, in milliseconds. -/
def inputStreamReconnectLease : ℕ := 2 * 60 * 1000

/-- The numbers in the text of an input stream's id. A text that is no
such id is like one that was never given out. -/
structure InputStreamId where
  generation : ℕ
  id : ℕ
  deriving DecidableEq

/-- The text of a stream's id. -/
def InputStreamId.text (stream : InputStreamId) : String :=
  s!"terminal-input:{stream.generation}:{stream.id}"

/-- `InputStreamState`. -/
structure InputStreamState where
  lastSeen : ℕ
  nextSeq : ℕ
  deriving DecidableEq

/-- `SessionStatus`. -/
inductive SessionStatus where
  | running
  | exited
  deriving DecidableEq

/-- The channel between a session and the thread that writes to its
terminal: all that was queued, by stream, and how much the thread took. -/
structure WriterChannel where
  queued : List (InputStreamId × List UInt8)
  taken : ℕ
  connected : Bool
  deriving DecidableEq

/-- Why a chunk is not queued. -/
inductive TrySendError where
  | full
  | disconnected

/-- `try_send`. -/
def WriterChannel.trySend (channel : WriterChannel) (stream : InputStreamId)
    (bytes : List UInt8) : Except TrySendError WriterChannel :=
  if channel.connected = false then .error .disconnected
  else if sessionInputQueueCapacity ≤ channel.queued.length - channel.taken then .error .full
  else .ok { channel with queued := channel.queued ++ [(stream, bytes)] }

/-- The fields of `SessionRecord` that its input and its process are made
of; `writerTx` says whether it holds the channel of its generation. -/
structure SessionRecord where
  generation : ℕ
  inputStreams : Assoc InputStreamId InputStreamState
  killer : Option ℕ
  nextInputStreamId : ℕ
  sessionId : String
  startOperations : Assoc String InputStreamId
  status : SessionStatus
  writerTx : Bool
  deriving DecidableEq

/-- `TerminalSessionWriteParams`, its data decoded from base64. -/
structure SessionWriteParams where
  data : Except String (List UInt8)
  inputSeq : ℕ
  inputStreamId : InputStreamId
  sessionId : String
  sessionGeneration : ℕ

/-- The answer to a write. -/
structure WriteAccepted where
  acceptedInputSeq : ℕ
  duplicate : Bool
  nextInputSeq : ℕ
  sessionGeneration : ℕ
  deriving DecidableEq

namespace SessionRecord

variable (session : SessionRecord)

/-- A stream whose lease has not run out. -/
def leased (now : ℕ) (stream : InputStreamState) : Bool :=
  now - stream.lastSeen < inputStreamReconnectLease

/-- `allocate_input_stream`: the stream that is asked for, if it is there,
and else a new one. -/
def allocateInputStream (now : ℕ) (requested : Option InputStreamId) :
    Except String (InputStreamId × ℕ) × SessionRecord :=
  let inputStreams := session.inputStreams.filterMapValues fun stream =>
    if leased now stream then some stream else none
  match requested.bind fun id => (inputStreams.lookup id).map fun stream => (id, stream) with
  | some (id, stream) =>
    (.ok (id, stream.nextSeq),
      { session with inputStreams := inputStreams.insert id { stream with lastSeen := now } })
  | none =>
    if maxInputStreams ≤ inputStreams.size then
      (.error (s!"TerminalInputStreamLimit: session {session.sessionId} already has " ++
        s!"{maxInputStreams} input streams"), { session with inputStreams })
    else
      let id : InputStreamId := ⟨session.generation, session.nextInputStreamId + 1⟩
      (.ok (id, 1), { session with
        inputStreams := inputStreams.insert id ⟨now, 1⟩
        nextInputStreamId := session.nextInputStreamId + 1 })

/-- `mark_exited`. -/
def markExited : SessionRecord :=
  { session with status := .exited, killer := none, writerTx := false }

/-- The error of a request that names another generation. -/
def staleGeneration (expected : ℕ) : String :=
  s!"stale terminal session generation: expected {expected}, current {session.generation}"

end SessionRecord

/-- A shell that was spawned. -/
structure ChildProcess where
  pid : ℕ
  sessionId : String
  deriving DecidableEq

/-- How far a start has come that found no session running. -/
inductive StartPhase where
  | checked
  | removed
  | spawned (pid : ℕ)
  deriving DecidableEq

/-- A start under way. -/
structure StartCall where
  sessionId : String
  operationId : String
  phase : StartPhase
  deriving DecidableEq

/-- What a start is answered with. -/
structure StartAnswer where
  sessionId : String
  operationId : String
  sessionGeneration : ℕ
  inputStreamId : InputStreamId
  nextInputSeq : ℕ
  deriving DecidableEq

/-- A kill that has removed the record and is to call the killer. -/
structure KillCall where
  sessionId : String
  pid : ℕ
  deriving DecidableEq

/-- The thread that waits for a child. -/
structure WaitThread where
  sessionId : String
  sessionGeneration : ℕ
  pid : ℕ
  deriving DecidableEq

/-- A write and its answer. -/
structure WriteCall where
  params : SessionWriteParams
  answer : Except String WriteAccepted

/-- The server, its threads and its processes, what it was asked and what
it answered. -/
structure TerminalServer where
  nextSessionGeneration : ℕ
  sessions : Assoc String SessionRecord
  channels : Assoc ℕ WriterChannel
  clock : ℕ
  spawned : List ChildProcess
  ended : List ℕ
  starts : List StartCall
  kills : List KillCall
  waits : List WaitThread
  started : List StartAnswer
  writes : List WriteCall

namespace TerminalServer

variable (s : TerminalServer)

/-- A session is stored under its id. -/
def putSession (sessionId : String) (session : SessionRecord) : TerminalServer :=
  { s with sessions := s.sessions.insert sessionId session }

/-- The error that names a session that is not there. -/
def sessionNotFound (sessionId : String) : String := s!"terminal session not found: {sessionId}"

/-- `running_session_response`. -/
def runningSessionResponse (sessionId operationId : String)
    (resized subscribed : Except String Unit) :
    Except String (Option StartAnswer) × TerminalServer :=
  match s.sessions.lookup sessionId with
  | none => (.ok none, s)
  | some session =>
    if session.status ≠ .running then (.ok none, s)
    else
      match resized, subscribed with
      | .error error, _ => (.error error, s)
      | .ok (), .error error => (.error error, s)
      | .ok (), .ok () =>
        match session.allocateInputStream s.clock (session.startOperations.lookup operationId) with
        | (.error error, allotted) => (.error error, s.putSession sessionId allotted)
        | (.ok (stream, nextSeq), allotted) =>
          (.ok (some ⟨sessionId, operationId, session.generation, stream, nextSeq⟩),
            s.putSession sessionId { allotted with
              startOperations := allotted.startOperations.insert operationId stream })

/-- `start_session` up to where it finds a session running or not. The
operation and the session id are trimmed, and an id that is not given is
generated. -/
def startSession (sessionId operationId : String) (cwd resized subscribed : Except String Unit) :
    TerminalServer :=
  if operationId = "" ∨ 1024 < operationId.utf8ByteSize then s
  else
    match cwd with
    | .error _ => s
    | .ok () =>
      match s.runningSessionResponse sessionId operationId resized subscribed with
      | (.error _, answered) => answered
      | (.ok (some answer), answered) => { answered with started := answered.started ++ [answer] }
      | (.ok none, checked) =>
        { checked with starts := checked.starts ++ [⟨sessionId, operationId, .checked⟩] }

/-- The session that a start makes, `SessionRecord::running`. -/
def runningSession (sessionId : String) (generation pid : ℕ) : SessionRecord where
  generation
  inputStreams := ∅
  killer := some pid
  nextInputStreamId := 0
  sessionId
  startOperations := ∅
  status := .running
  writerTx := true

/-- `start_session` from where it takes the lock to record the session. -/
def recordSession (sessionId operationId : String) (pid : ℕ) : TerminalServer :=
  let generation := s.nextSessionGeneration + 1
  let made := { s with
    nextSessionGeneration := generation
    channels := s.channels.insert generation ⟨[], 0, true⟩ }
  match (runningSession sessionId generation pid).allocateInputStream s.clock none with
  | (.error _, _) => made
  | (.ok (stream, nextSeq), session) =>
    { made with
      sessions := s.sessions.insert sessionId { session with
        startOperations := session.startOperations.insert operationId stream }
      waits := s.waits ++ [⟨sessionId, generation, pid⟩]
      started := s.started ++ [⟨sessionId, operationId, generation, stream, nextSeq⟩] }

/-- `attach_session` from where it takes the lock again, with the
generation it found before. -/
def attachSession (sessionId : String) (generation : ℕ) (requested : Option InputStreamId)
    (subscribed : Except String Unit) : TerminalServer :=
  match s.sessions.lookup sessionId with
  | none => s
  | some session =>
    if session.generation ≠ generation then s
    else
      match subscribed with
      | .error _ => s
      | .ok () => s.putSession sessionId (session.allocateInputStream s.clock requested).2

/-- `detach_session`. -/
def detachSession (sessionId : String) (generation : ℕ) (stream : InputStreamId) : TerminalServer :=
  match s.sessions.lookup sessionId with
  | none => s
  | some session =>
    if session.generation ≠ generation then s
    else s.putSession sessionId { session with inputStreams := session.inputStreams.erase stream }

/-- What `write_session` does with a chunk that comes next on its stream. -/
def writeNext (params : SessionWriteParams) (session : SessionRecord) (stream : InputStreamState)
    (bytes : List UInt8) : Except String WriteAccepted × TerminalServer :=
  let seen := { session with
    inputStreams := session.inputStreams.insert params.inputStreamId
      { stream with lastSeen := s.clock } }
  let accepted : WriteAccepted :=
    ⟨params.inputSeq, false, stream.nextSeq + 1, session.generation⟩
  let taken := s.putSession params.sessionId { session with
    inputStreams := session.inputStreams.insert params.inputStreamId ⟨s.clock, stream.nextSeq + 1⟩ }
  match session.writerTx, s.channels.lookup session.generation with
  | true, some channel =>
    if bytes = [] then (.ok accepted, taken)
    else
      match channel.trySend params.inputStreamId bytes with
      | .error .full => (.error "terminal input queue is full", s.putSession params.sessionId seen)
      | .error .disconnected =>
        (.error s!"terminal session is not running: {params.sessionId}",
          s.putSession params.sessionId seen)
      | .ok sent =>
        (.ok accepted, { taken with channels := s.channels.insert session.generation sent })
  | _, _ =>
    (.error s!"terminal session is not running: {params.sessionId}",
      s.putSession params.sessionId seen)

/-- `write_session`. -/
def writeSession (params : SessionWriteParams) : Except String WriteAccepted × TerminalServer :=
  match params.data with
  | .error error => (.error s!"invalid terminal input: {error}", s)
  | .ok bytes =>
    if maxInputChunkBytes < bytes.length then
      (.error s!"terminal input chunk is too large: {bytes.length}>{maxInputChunkBytes}", s)
    else
      match s.sessions.lookup params.sessionId with
      | none => (.error (sessionNotFound params.sessionId), s)
      | some session =>
        if params.sessionGeneration ≠ session.generation then
          (.error (session.staleGeneration params.sessionGeneration), s)
        else
          match session.inputStreams.lookup params.inputStreamId with
          | none =>
            (.error s!"terminal input stream is not active: {params.inputStreamId.text}", s)
          | some stream =>
            let seen := s.putSession params.sessionId { session with
              inputStreams := session.inputStreams.insert params.inputStreamId
                { stream with lastSeen := s.clock } }
            if params.inputSeq < stream.nextSeq then
              (.ok ⟨params.inputSeq, true, stream.nextSeq, session.generation⟩, seen)
            else if stream.nextSeq < params.inputSeq then
              (.error (s!"terminal input sequence gap: expectedInputSeq={stream.nextSeq}, " ++
                s!"received={params.inputSeq}"), seen)
            else s.writeNext params session stream bytes

/-- `kill_session` up to where it lets go of the lock. -/
def killSession (sessionId : String) (generation : ℕ) : TerminalServer :=
  match s.sessions.lookup sessionId with
  | none => s
  | some session =>
    if session.generation ≠ generation then s
    else
      { s with
        sessions := s.sessions.erase sessionId
        kills := s.kills ++ (session.killer.map fun pid => ⟨sessionId, pid⟩).toList }

/-- `kill_all` up to where it lets go of the lock. -/
def killAll : TerminalServer :=
  { s with
    sessions := ∅
    kills := s.kills ++ s.sessions.entries.filterMap fun entry =>
      entry.2.killer.map fun pid => ⟨entry.1, pid⟩ }

/-- What `spawn_wait_thread` does once its child has ended. -/
def waited (thread : WaitThread) : TerminalServer :=
  match s.sessions.lookup thread.sessionId with
  | none => s
  | some session =>
    if session.generation ≠ thread.sessionGeneration then s
    else s.putSession thread.sessionId session.markExited

end TerminalServer

/-- What a thread does, or the world. -/
inductive ServerAction where
  | elapse (millis : ℕ)
  | start (sessionId operationId : String) (cwd resized subscribed : Except String Unit)
  | startRemove (call : StartCall)
  /-- The terminal is opened and the shell spawned, or not. -/
  | startSpawn (call : StartCall) (spawned : Except String Unit)
  /-- The reader and the writer of the terminal are opened, or not. -/
  | startRecord (call : StartCall) (opened : Except String Unit)
  | attach (sessionId : String) (generation : ℕ) (requested : Option InputStreamId)
      (subscribed : Except String Unit)
  | detach (sessionId : String) (generation : ℕ) (stream : InputStreamId)
  | write (params : SessionWriteParams)
  /-- The writer thread takes a chunk, or fails to write one. -/
  | take (generation : ℕ) (written : Bool)
  | kill (sessionId : String) (generation : ℕ)
  | killed (call : KillCall) (result : Except String Unit)
  | killAll
  | childEnds (pid : ℕ)
  | waited (thread : WaitThread)

namespace TerminalServer

/-- What an action does. A kill that succeeds ends the child. -/
def serverStep (s : TerminalServer) : ServerAction → Option TerminalServer
  | .elapse millis => some { s with clock := s.clock + millis }
  | .start sessionId operationId cwd resized subscribed =>
    some (s.startSession sessionId operationId cwd resized subscribed)
  | .startRemove call =>
    if call ∈ s.starts ∧ call.phase = .checked then
      some { s with
        sessions := s.sessions.erase call.sessionId
        starts := s.starts.erase call ++ [{ call with phase := .removed }] }
    else none
  | .startSpawn call spawned =>
    if call ∈ s.starts ∧ call.phase = .removed then
      match spawned with
      | .error _ => some { s with starts := s.starts.erase call }
      | .ok () => some { s with
          spawned := s.spawned ++ [⟨s.spawned.length, call.sessionId⟩]
          starts := s.starts.erase call ++ [{ call with phase := .spawned s.spawned.length }] }
    else none
  | .startRecord call opened =>
    match call.phase with
    | .spawned pid =>
      if call ∈ s.starts then
        match opened with
        | .error _ => some { s with starts := s.starts.erase call }
        | .ok () => some ({ s with starts := s.starts.erase call }.recordSession
            call.sessionId call.operationId pid)
      else none
    | _ => none
  | .attach sessionId generation requested subscribed =>
    some (s.attachSession sessionId generation requested subscribed)
  | .detach sessionId generation stream => some (s.detachSession sessionId generation stream)
  | .write params =>
    let written := s.writeSession params
    some { written.2 with writes := s.writes ++ [⟨params, written.1⟩] }
  | .take generation written =>
    match s.channels.lookup generation with
    | none => none
    | some channel =>
      if channel.taken < channel.queued.length then
        some { s with channels := s.channels.insert generation { channel with
          taken := channel.taken + 1
          connected := channel.connected && written } }
      else none
  | .kill sessionId generation => some (s.killSession sessionId generation)
  | .killed call result =>
    if call ∈ s.kills then
      some { s with
        kills := s.kills.erase call
        ended := match result with
          | .ok () => call.pid :: s.ended
          | .error _ => s.ended }
    else none
  | .killAll => some s.killAll
  | .childEnds pid =>
    if pid < s.spawned.length then some { s with ended := pid :: s.ended } else none
  | .waited thread =>
    if thread ∈ s.waits ∧ thread.pid ∈ s.ended then
      some { s.waited thread with waits := s.waits.erase thread }
    else none

/-- A server that has just been created. -/
def init : TerminalServer where
  nextSessionGeneration := 0
  sessions := ∅
  channels := ∅
  clock := 0
  spawned := []
  ended := []
  starts := []
  kills := []
  waits := []
  started := []
  writes := []

end TerminalServer

/-- The runs of the server. -/
def serverMachine : Machine TerminalServer ServerAction where
  init := .init
  step := TerminalServer.serverStep

end Terminal

end Remux
