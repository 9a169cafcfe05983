import Mathlib.Data.List.Basic
import Mathlib.Algebra.GroupWithZero.Nat
import Remux.Common.Machine

/-!
# The terminal viewer: its input queue and its syncs

What is typed is queued in chunks, under consecutive numbers, and a pump
writes the first of the queue and waits for the answer. A sync, the start
of the surface or a resync, attaches to the session again, binds the
stream it was given, restores the output and calls the pump. A function
that was rendered keeps the `connected` of its render, so every sync
carries one.

Of the output only the outcome of a flush is left, whether it found a gap;
what a sync restores in between is left out. What was sent is kept in
`sent`, and chunks are told apart by `id`.
-/

namespace Remux

namespace Terminal

/-- A chunk of input in the queue. -/
structure InputChunk where
  id : ℕ
  data : List UInt8
  seq : ℕ
  deriving DecidableEq

/-- A write that is waited for. -/
structure InputWrite where
  chunk : InputChunk
  sessionId : String
  sessionGeneration : ℕ
  inputStreamId : String
  deriving DecidableEq

/-- What was sent under a number. -/
structure SentInput where
  sessionGeneration : ℕ
  inputStreamId : String
  seq : ℕ
  data : List UInt8
  deriving DecidableEq

/-- What an attach or a start tells of the input stream. -/
structure SessionProtocol where
  inputStreamId : String
  nextInputSeq : ℕ
  sessionGeneration : ℕ

/-- `resyncSession`, or `startOrAttachSession` while it attaches to the
session it prefers, or once it starts one. -/
inductive SyncKind where
  | resync
  | attach
  | start
  deriving DecidableEq

/-- How far a sync has come: it has asked to attach or to start, it has
bound what it was told, it flushes the frames it kept back, before or after
it calls the pump, or it tells the host which tab it is. -/
inductive SyncPhase where
  | attaching
  | bound
  | startFlushing
  | flushing
  | updatingHostTab
  deriving DecidableEq

/-- A sync under way, with the `connected` of its render. -/
structure TerminalSync where
  kind : SyncKind
  connected : Bool
  phase : SyncPhase
  deriving DecidableEq

/-- A sync has not called the pump yet. -/
def TerminalSync.awaited (sync : TerminalSync) : Bool :=
  match sync.phase with
  | .attaching | .bound | .startFlushing => true
  | .flushing | .updatingHostTab => false

/-- `TerminalSurface`, by its refs, its timers and what it waits for. -/
structure TerminalSurface where
  sessionId : Option String
  sessionGeneration : Option ℕ
  inputStreamId : Option String
  nextInputSeq : ℕ
  pendingInput : List InputChunk
  pendingInputBytes : ℕ
  /-- The write the pump waits for, while it runs. -/
  inputPump : Option InputWrite
  connected : Bool
  hostConnectionGeneration : ℕ
  initialAttachCompleted : Bool
  syncInFlight : Bool
  resyncRequested : Bool
  syncs : List TerminalSync
  /-- The resyncs that are scheduled. -/
  timers : ℕ
  /-- The terminal is to be initialized in this render. -/
  remount : Bool
  nextChunk : ℕ
  sent : List SentInput

/-- The pieces of at most 48 KiB of what is typed. -/
def inputChunks : ℕ → List UInt8 → List (List UInt8)
  | 0, _ => []
  | fuel + 1, data =>
    if data = [] then []
    else data.take (48 * 1024) :: inputChunks fuel (data.drop (48 * 1024))

/-- `maxPendingInputBytes`, of the surface. -/
def maxPendingInputBytes : ℕ := 1024 * 1024

namespace TerminalSurface

variable (s : TerminalSurface)

/-- What a ref holds, where it is no empty text. -/
def truthy (ref : Option String) : Option String := ref.filter (· ≠ "")

/-- The loop of `pumpInput` up to its next write, or its end. -/
def pumpNext : TerminalSurface :=
  match s.pendingInput, truthy s.sessionId, s.sessionGeneration, truthy s.inputStreamId with
  | chunk :: _, some sessionId, some sessionGeneration, some inputStreamId =>
    { s with
      inputPump := some ⟨chunk, sessionId, sessionGeneration, inputStreamId⟩
      sent := s.sent ++ [⟨sessionGeneration, inputStreamId, chunk.seq, chunk.data⟩] }
  | _, _, _, _ => { s with inputPump := none }

/-- `pumpInput` of a render. -/
def pumpInput (connected : Bool) : TerminalSurface :=
  if s.inputPump.isSome || !connected then s else s.pumpNext

/-- `pumpInput` from where a write is answered, with the generation of the
answer. -/
def writeAnswered (write : InputWrite) (sessionGeneration : ℕ) : TerminalSurface :=
  if sessionGeneration ≠ write.sessionGeneration ∨ s.pendingInput.head? ≠ some write.chunk then
    -- the queue was bound anew while the write was under way: nobody goes on with it
    { s with inputPump := none }
  else
    pumpNext { s with
      pendingInput := s.pendingInput.tail
      pendingInputBytes := s.pendingInputBytes - write.chunk.data.length }

/-- `pumpInput` from where a write fails; `needsReattach` is
`terminalInputNeedsReattach` of the error. -/
def writeFailed (needsReattach : Bool) : TerminalSurface :=
  { s with inputPump := none, timers := s.timers + needsReattach.toNat }

/-- The loop of `sendBytes`. -/
def queueChunks : List (List UInt8) → TerminalSurface → TerminalSurface
  | [], s => s
  | chunk :: chunks, s =>
    if maxPendingInputBytes < s.pendingInputBytes + chunk.length then s
    else
      queueChunks chunks { s with
        pendingInput := s.pendingInput ++ [⟨s.nextChunk, chunk, s.nextInputSeq⟩]
        nextInputSeq := s.nextInputSeq + 1
        pendingInputBytes := s.pendingInputBytes + chunk.length
        nextChunk := s.nextChunk + 1 }

/-- A session and a stream of it are bound. -/
def bound : Bool :=
  (truthy s.sessionId).isSome && s.sessionGeneration.isSome && (truthy s.inputStreamId).isSome

/-- `sendBytes`. -/
def sendBytes (data : List UInt8) : TerminalSurface :=
  if s.bound = false ∨ data = [] then s
  else (queueChunks (inputChunks data.length data) s).pumpInput s.connected

/-- The stream is the one that is bound. -/
def sameProducer (protocol : SessionProtocol) : Bool :=
  s.sessionGeneration = some protocol.sessionGeneration &&
    s.inputStreamId = some protocol.inputStreamId

/-- What `bindSessionProtocol` leaves of the queue. -/
def keptInput (protocol : SessionProtocol) : List InputChunk :=
  if s.sameProducer protocol then
    s.pendingInput.filter fun chunk => protocol.nextInputSeq ≤ chunk.seq
  else []

/-- `bindSessionProtocol`. -/
def bindSessionProtocol (protocol : SessionProtocol) : TerminalSurface :=
  let pendingInput := s.keptInput protocol
  { s with
    pendingInput
    pendingInputBytes := (pendingInput.map fun chunk => chunk.data.length).sum
    sessionGeneration := some protocol.sessionGeneration
    inputStreamId := some protocol.inputStreamId
    nextInputSeq := max protocol.nextInputSeq (match pendingInput.getLast? with
        -- the source tests the number for truth, so 0 counts as none
        | some last => if last.seq = 0 then 1 else last.seq + 1
        | none => 1) }

/-- `resyncSession` of a render, up to its attach. -/
def resyncSession (connected : Bool) : TerminalSurface :=
  if (truthy s.sessionId).isNone then s
  -- remembered until the sync under way is over, if that ever is
  else if s.syncInFlight then { s with resyncRequested := true }
  else { s with
    syncInFlight := true
    syncs := s.syncs ++ [⟨.resync, connected, .attaching⟩] }

/-- `startOrAttachSession` of a render, up to its attach, or its start
where no session is preferred. -/
def startOrAttachSession (connected : Bool) (attachSessionId : Option String) : TerminalSurface :=
  { s with
    initialAttachCompleted := false
    syncInFlight := true
    sessionId := attachSessionId.or s.sessionId
    syncs := s.syncs ++
      [⟨if attachSessionId.isSome then .attach else .start, connected, .attaching⟩] }

/-- What `subscribeHostConnection` is told. -/
def hostConnection (connected : Bool) (generation : ℕ) : TerminalSurface :=
  let generationChanged := s.hostConnectionGeneration < generation
  let told := { s with
    connected
    hostConnectionGeneration := max s.hostConnectionGeneration generation
    remount := s.remount || connected != s.connected }
  if connected && s.initialAttachCompleted && (!s.connected || generationChanged) then
    told.resyncSession s.connected
  else told

/-- A sync has its session and its stream. -/
def bindSync (i : ℕ) (sync : TerminalSync) (sessionId : String) (protocol : SessionProtocol) :
    TerminalSurface :=
  { s with
    sessionId := match sync.kind with
      | .attach | .start => some sessionId
      | .resync => s.sessionId
    syncs := s.syncs.set i { sync with phase := .bound } }.bindSessionProtocol protocol

/-- A sync has restored the output, and calls the pump. -/
def syncRestored (i : ℕ) (sync : TerminalSync) : TerminalSurface :=
  -- with the `connected` of the render that the sync was called in
  let pumped := s.pumpInput sync.connected
  { pumped with
    initialAttachCompleted := s.initialAttachCompleted || decide (sync.kind = .attach)
    syncInFlight := false
    syncs := s.syncs.set i { sync with phase := .flushing } }

/-- A sync has flushed the frames it kept back. -/
def syncFlushed (i : ℕ) (sync : TerminalSync) (gap : Bool) : TerminalSurface :=
  match sync.kind with
  | .resync => { s with
      resyncRequested := false
      timers := s.timers + ((gap || s.resyncRequested) && sync.connected).toNat
      syncs := s.syncs.eraseIdx i }
  | .attach | .start => { s with
      resyncRequested := gap
      timers := s.timers + gap.toNat
      syncs := s.syncs.set i { sync with phase := .updatingHostTab } }

/-- A sync fails, because its session is missing or for another reason. A
start leaves `syncInFlight` as it is, and so does a resync whose frames
cannot be flushed. -/
def syncFailed (i : ℕ) (sync : TerminalSync) (sessionMissing : Bool) : TerminalSurface :=
  match sync.kind, sync.awaited with
  | .resync, true => { s with
      syncInFlight := false
      resyncRequested := false
      timers := s.timers + (!sessionMissing && sync.connected).toNat
      syncs := s.syncs.eraseIdx i }
  | .attach, _ => { s with syncInFlight := false, syncs := s.syncs.eraseIdx i }
  | .resync, false | .start, _ => { s with syncs := s.syncs.eraseIdx i }

/-- The session to attach to is missing, and one is started. -/
def attachMissing (i : ℕ) (sync : TerminalSync) : TerminalSurface :=
  { s with
    syncInFlight := true
    syncs := s.syncs.set i { sync with kind := .start, phase := .attaching } }

/-- A session that was started is ready, and its frames are flushed before
the pump is called; one that is not is to be resynced. -/
def startReady (i : ℕ) (sync : TerminalSync) (ready : Bool) : TerminalSurface :=
  if ready then
    { s with syncInFlight := false, syncs := s.syncs.set i { sync with phase := .startFlushing } }
  else
    let pumped := s.pumpInput sync.connected
    { pumped with
      initialAttachCompleted := true
      syncInFlight := false
      timers := s.timers + 1
      syncs := s.syncs.eraseIdx i }

/-- A session that was started has its frames. -/
def startFlushed (i : ℕ) (sync : TerminalSync) (gap : Bool) : TerminalSurface :=
  let pumped := s.pumpInput sync.connected
  { pumped with
    initialAttachCompleted := true
    resyncRequested := gap
    timers := s.timers + gap.toNat
    syncs := s.syncs.eraseIdx i }

end TerminalSurface

/-- What the user, the host, the server or a timer does. -/
inductive SurfaceAction where
  | sendBytes (data : List UInt8)
  | writeAnswered (sessionGeneration : ℕ)
  | writeFailed (needsReattach : Bool)
  | hostConnection (connected : Bool) (generation : ℕ)
  /-- The host is active or has resumed, or a frame is missing. -/
  | resync
  | timer
  /-- The terminal is made, and the session started or attached to. -/
  | mount (attachSessionId : Option String)
  /-- The session is started anew, in the render it was asked for. -/
  | restart (connected : Bool)
  | bindSync (i : ℕ) (sessionId : String) (protocol : SessionProtocol)
  /-- An attach of the start is tried again. -/
  | retry (i : ℕ)
  | syncRestored (i : ℕ)
  | syncFlushed (i : ℕ) (gap : Bool)
  | syncFailed (i : ℕ) (sessionMissing : Bool)
  | attachMissing (i : ℕ)
  | hostTabUpdated (i : ℕ)
  | startReady (i : ℕ) (ready : Bool)
  | startFlushed (i : ℕ) (gap : Bool)

namespace TerminalSurface

/-- What happens to a sync, where it has come so far. -/
def withSync (s : TerminalSurface) (i : ℕ) (allowed : TerminalSync → Bool)
    (f : TerminalSync → TerminalSurface) : Option TerminalSurface :=
  match s.syncs[i]? with
  | some sync => if allowed sync then some (f sync) else none
  | none => none

/-- What an action does. -/
def surfaceStep (s : TerminalSurface) : SurfaceAction → Option TerminalSurface
  | .sendBytes data => some (s.sendBytes data)
  | .writeAnswered sessionGeneration =>
    s.inputPump.map fun write => s.writeAnswered write sessionGeneration
  | .writeFailed needsReattach =>
    if s.inputPump.isSome then some (s.writeFailed needsReattach) else none
  | .hostConnection connected generation => some (s.hostConnection connected generation)
  | .resync => some (s.resyncSession s.connected)
  | .timer =>
    if 0 < s.timers then some ({ s with timers := s.timers - 1 }.resyncSession s.connected)
    else none
  | .mount attachSessionId =>
    if s.remount then
      some ({ s with remount := false }.startOrAttachSession s.connected attachSessionId)
    else none
  | .restart connected => some (s.startOrAttachSession connected none)
  | .bindSync i sessionId protocol =>
    s.withSync i (·.phase = .attaching) fun sync => s.bindSync i sync sessionId protocol
  | .retry i =>
    s.withSync i (·.kind = .attach) fun sync =>
      { s with syncs := s.syncs.set i { sync with phase := .attaching } }
  | .syncRestored i =>
    s.withSync i (fun sync => sync.kind ≠ .start && sync.phase = .bound) fun sync =>
      s.syncRestored i sync
  | .syncFlushed i gap => s.withSync i (·.phase = .flushing) fun sync => s.syncFlushed i sync gap
  | .syncFailed i sessionMissing =>
    s.withSync i (fun _ => true) fun sync => s.syncFailed i sync sessionMissing
  | .attachMissing i => s.withSync i (·.kind = .attach) fun sync => s.attachMissing i sync
  | .hostTabUpdated i =>
    s.withSync i (·.phase = .updatingHostTab) fun _ => { s with syncs := s.syncs.eraseIdx i }
  | .startReady i ready =>
    s.withSync i (fun sync => sync.kind = .start && sync.phase = .bound) fun sync =>
      s.startReady i sync ready
  | .startFlushed i gap =>
    s.withSync i (·.phase = .startFlushing) fun sync => s.startFlushed i sync gap

/-- A surface that is to be mounted. -/
def init : TerminalSurface where
  sessionId := none
  sessionGeneration := none
  inputStreamId := none
  nextInputSeq := 1
  pendingInput := []
  pendingInputBytes := 0
  inputPump := none
  connected := true
  hostConnectionGeneration := 0
  initialAttachCompleted := false
  syncInFlight := false
  resyncRequested := false
  syncs := []
  timers := 0
  remount := true
  nextChunk := 0
  sent := []

end TerminalSurface

/-- The runs of a terminal viewer. -/
def surfaceMachine : Machine TerminalSurface SurfaceAction where
  init := .init
  step := TerminalSurface.surfaceStep

end Terminal

end Remux
