import Remux.Common.Assoc
import Remux.Common.Machine
import Mathlib.Algebra.GroupWithZero.Nat

/-!
# A terminal session and its viewers

The record of one terminal session: the frames of its output, of which the
last ones are kept for replay, and the subscriptions of its viewers. The
reader of the terminal appends a frame under the lock and sends it, after
the lock is released, to the origins whose subscription is active at that
moment. A viewer attaches, which leaves its subscription pending, reads the
replay up to where it attached, and calls `ready`, which sends the frames
since then and makes the subscription active.

What is sent to a viewer stands with the viewer: the frames of the replies
it got, those `ready` sent, and those sent to its origin from then on.
-/

namespace Remux

/-- `MAX_REPLAY_BYTES`. -/
def maxReplayBytes : ℕ := 4 * 1024 * 1024

/-- `MAX_REPLAY_FRAMES`. -/
def maxReplayFrames : ℕ := 10000

/-- `MAX_ATTACH_REPLAY_BYTES`. -/
def maxAttachReplayBytes : ℕ := 256 * 1024

/-- `MAX_READY_CATCHUP_BYTES`. -/
def maxReadyCatchupBytes : ℕ := 256 * 1024

/-- `MAX_SESSION_SUBSCRIPTIONS`. -/
def maxSessionSubscriptions : ℕ := 8

/-- `OutputFrame`; the data stands for its base64 text. -/
structure OutputFrame where
  data : List UInt8
  sessionGeneration : ℕ
  seq : ℕ
  deriving DecidableEq

/-- `ReplayFrame`: a frame that is retained, and the bytes it counts for. -/
structure ReplayFrame where
  byteLen : ℕ
  frame : OutputFrame
  deriving DecidableEq

/-- The numbers in the text of a `subscriptionToken`. -/
structure SubscriptionToken where
  generation : ℕ
  id : ℕ
  millis : ℕ
  deriving DecidableEq

/-- `TerminalSubscription`: the number it is sent next, and where its catch-up ends. -/
structure TerminalSubscription where
  active : Bool
  catchupEndSeq : ℕ
  nextSeq : ℕ
  origin : String
  token : SubscriptionToken
  deriving DecidableEq

/-- The fields of `SessionRecord` that its output and its subscriptions
are made of. -/
structure SessionRecord where
  generation : ℕ
  nextSubscriptionId : ℕ
  nextSeq : ℕ
  replay : List ReplayFrame
  replayBytes : ℕ
  sessionId : String
  subscriptions : Assoc String TerminalSubscription
  deriving DecidableEq

/-- What is sent to one origin; to all viewers, if it is targeted at none. -/
structure OutputNotification where
  target : Option String
  frame : OutputFrame
  deriving DecidableEq

/-- `ReplayPage`: frames of one page, and where the next one starts. -/
structure ReplayPage where
  complete : Bool
  frames : List OutputFrame
  nextSeq : ℕ
  deriving DecidableEq

/-- `HeadlessSnapshot`. -/
structure HeadlessSnapshot where
  cols : ℕ
  rows : ℕ
  throughSeq : ℕ
  encoding : String
  dataBase64 : String
  deriving DecidableEq

/-- The point a viewer restores the terminal at. -/
inductive RestorePoint where
  | incremental (throughSeq : ℕ)
  | snapshot (state : HeadlessSnapshot)
  | reset
  | unavailable (throughSeq : ℕ)
  deriving DecidableEq

/-- The number from which frames are replayed after a restore. -/
def RestorePoint.throughSeq : RestorePoint → ℕ
  | .incremental throughSeq => throughSeq
  | .snapshot state => state.throughSeq
  | .reset => 0
  | .unavailable throughSeq => throughSeq

/-- `TerminalClientState`: what a viewer says of the state it holds. -/
structure TerminalClientState where
  throughSeq : ℕ
  valid : Bool
  deriving DecidableEq

/-- `SessionAttachParams`. -/
structure SessionAttachParams where
  clientState : Option TerminalClientState
  replaySeq : Option ℕ
  remuxOrigin : Option String
  remuxViewerKey : Option String
  sessionGeneration : Option ℕ
  deriving DecidableEq

/-- `SessionReadyParams`. -/
structure SessionReadyParams where
  remuxOrigin : Option String
  sessionGeneration : ℕ
  subscriptionToken : SubscriptionToken
  throughSeq : ℕ

/-- `ReplayReadParams`. -/
structure ReplayReadParams where
  fromSeq : ℕ
  maxBytes : Option ℕ
  sessionGeneration : ℕ
  toSeqExclusive : Option ℕ

/-- `SessionDetachParams`. -/
structure SessionDetachParams where
  remuxOrigin : Option String
  remuxViewerKey : Option String
  sessionGeneration : ℕ

/-- The reply of `attach_session`. -/
structure SessionAttached where
  nextSeq : ℕ
  firstAvailableSeq : ℕ
  restore : RestorePoint
  replay : List OutputFrame
  replayComplete : Bool
  replayNextSeq : ℕ
  replayTruncated : Bool
  catchupEndSeq : ℕ
  subscriptionToken : Option SubscriptionToken
  sessionGeneration : ℕ

/-- The reply of `read_replay`. -/
structure ReplayRead where
  complete : Bool
  firstAvailableSeq : ℕ
  frames : List OutputFrame
  nextSeq : ℕ
  sessionGeneration : ℕ
  toSeqExclusive : ℕ
  truncated : Bool

/-- The reply of `session_ready`: the number output goes on with, or a refusal. -/
inductive SessionReady where
  | ok (nextOutputSeq : ℕ)
  | refused (reason : String)
  deriving DecidableEq

/-- Whether the viewer was made active. -/
def SessionReady.isOk : SessionReady → Bool
  | .ok _ => true
  | .refused _ => false

namespace SessionRecord

variable (session : SessionRecord)

/-- `trim_replay`, on the frames and their bytes. -/
def trimReplay : List ReplayFrame → ℕ → List ReplayFrame × ℕ
  | [], bytes => ([], bytes)
  | frame :: rest, bytes =>
    if maxReplayFrames < rest.length + 1 ∨ maxReplayBytes < bytes then
      trimReplay rest (bytes - frame.byteLen)
    else (frame :: rest, bytes)

/-- `append_output`. -/
def appendOutput (bytes : List UInt8) : OutputFrame × SessionRecord :=
  let frame : OutputFrame := ⟨bytes, session.generation, session.nextSeq⟩
  let trimmed := trimReplay (session.replay ++ [⟨bytes.length, frame⟩])
    (session.replayBytes + bytes.length)
  (frame, { session with
    nextSeq := session.nextSeq + 1
    replay := trimmed.1
    replayBytes := trimmed.2 })

/-- The `first_available_seq` of the requests. -/
def firstAvailableSeq : ℕ :=
  (session.replay.head?.map fun replay => replay.frame.seq).getD session.nextSeq

/-- The loop of `collect_replay_page`; there is no bound on the first frame. -/
def takeFrames (maxBytes : ℕ) : List ReplayFrame → ℕ → Bool → List OutputFrame
  | [], _, _ => []
  | replay :: rest, bytes, first =>
    if first = false ∧ maxBytes < bytes + replay.byteLen then []
    else replay.frame :: takeFrames maxBytes rest (bytes + replay.byteLen) false

/-- `collect_replay_page`. -/
def collectReplayPage (fromSeq toSeqExclusive maxBytes : ℕ) : ReplayPage :=
  let frames := takeFrames maxBytes (session.replay.filter fun replay =>
      decide (fromSeq ≤ replay.frame.seq ∧ replay.frame.seq < toSeqExclusive)) 0 true
  let nextSeq := (frames.getLast?.map fun frame => frame.seq + 1).getD fromSeq
  ⟨decide (toSeqExclusive ≤ nextSeq), frames, nextSeq⟩

/-- `active_origins`. -/
def activeOrigins : List String :=
  ((session.subscriptions.entries.filter fun entry => entry.2.active).map
    fun entry => entry.2.origin).dedup

/-- `subscribe_pending`. -/
def subscribePending (viewerKey origin : Option String) (nextSeq millis : ℕ) :
    Except String (Option SubscriptionToken × SessionRecord) :=
  match origin.filter (· ≠ "") with
  | none => .ok (none, session)
  | some origin =>
    let key := (viewerKey.filter (· ≠ "")).getD origin
    if session.subscriptions.lookup key = none ∧
        maxSessionSubscriptions ≤ session.subscriptions.size then
      .error (s!"TerminalSubscriptionLimit: session {session.sessionId} already has " ++
        s!"{maxSessionSubscriptions} subscriptions")
    else
      let id := session.nextSubscriptionId + 1
      let token : SubscriptionToken := ⟨session.generation, id, millis⟩
      .ok (some token, { session with
        nextSubscriptionId := id
        subscriptions := session.subscriptions.insert key ⟨false, nextSeq, nextSeq,
          origin, token⟩ })

/-- The error of a request that names another generation. -/
def staleGeneration (expected : ℕ) : String :=
  s!"stale terminal session generation: expected {expected}, current {session.generation}"

/-- What the viewer has, if it says so. -/
def requestedThrough (params : SessionAttachParams) : Option ℕ :=
  ((params.clientState.filter (·.valid)).map (·.throughSeq)).or
    ((params.replaySeq.filter (0 < ·)).map (· - 1))

/-- `attach_session` up to where it lets go of the lock. -/
def incrementalThrough (params : SessionAttachParams) : Except String (Option ℕ) :=
  match params.sessionGeneration.filter (· ≠ session.generation) with
  | some expected => .error (session.staleGeneration expected)
  | none => .ok ((requestedThrough params).filter fun through =>
      if session.nextSeq ≤ through ∨ through + 1 < session.firstAvailableSeq then false
      else decide (((session.replay.filter fun replay => decide (through < replay.frame.seq)).map
        ReplayFrame.byteLen).sum ≤ maxAttachReplayBytes))

/-- The `restore`, the `replay_from` and the `replay_truncated` of an
attach. -/
def restorePoint (incremental : Option ℕ) (snapshot : Option HeadlessSnapshot) :
    RestorePoint × ℕ × Bool :=
  let first := session.firstAvailableSeq
  match incremental.filter fun through =>
    decide (first ≤ through + 1 ∧ through < session.nextSeq) with
  | some through => (.incremental through, through + 1, false)
  | none =>
    match snapshot.filter fun snapshot =>
        decide (snapshot.throughSeq < session.nextSeq ∧ first ≤ snapshot.throughSeq + 1) with
    | some snapshot => (.snapshot snapshot, snapshot.throughSeq + 1, false)
    | none =>
      if first ≤ 1 then (.reset, 1, false) else (.unavailable (first - 1), first, true)

/-- `attach_session` from where it takes the lock again, with what was
found of the replay before and the answer of the snapshot worker. An input
stream is looked for last, and an attach that gets none is refused with its
subscription made. -/
def attachSession (params : SessionAttachParams) (incremental : Option ℕ)
    (snapshot : Option HeadlessSnapshot) (millis : ℕ) (inputStream : Except String Unit) :
    Except String SessionAttached × SessionRecord :=
  let (restore, replayFrom, truncated) :=
    session.restorePoint incremental (if incremental = none then snapshot else none)
  let page := session.collectReplayPage replayFrom session.nextSeq maxAttachReplayBytes
  match session.subscribePending params.remuxViewerKey params.remuxOrigin
    session.nextSeq millis with
  | .error error => (.error error, session)
  | .ok (token, subscribed) =>
    match inputStream with
    | .error error => (.error error, subscribed)
    | .ok () =>
      (.ok
        { nextSeq := session.nextSeq
          firstAvailableSeq := session.firstAvailableSeq
          restore
          replay := page.frames
          replayComplete := page.complete
          replayNextSeq := page.nextSeq
          replayTruncated := truncated
          catchupEndSeq := session.nextSeq
          subscriptionToken := token
          sessionGeneration := session.generation }, subscribed)

/-- `running_session_response`: a start of a session that runs subscribes
to it. -/
def startRunning (viewerKey origin : Option String) (millis : ℕ) : SessionRecord :=
  match session.subscribePending viewerKey origin session.nextSeq millis with
  | .error _ => session
  | .ok (_, subscribed) => subscribed

/-- `detach_session`. -/
def detachSession (params : SessionDetachParams) : Except String SessionRecord :=
  if session.generation ≠ params.sessionGeneration then
    .error (session.staleGeneration params.sessionGeneration)
  else
    match params.remuxViewerKey.or params.remuxOrigin with
    | none => .ok session
    | some key => .ok { session with subscriptions := session.subscriptions.erase key }

/-- The subscription that a token names, and its key. -/
def subscriptionOf (token : SubscriptionToken) :
    Option (Sigma fun _ : String => TerminalSubscription) :=
  session.subscriptions.entries.find? fun entry => entry.2.token = token

/-- `ready_session`: its answer, the frames it sends to the origin of the
subscription, and the session after it. -/
def readySession (params : SessionReadyParams) :
    SessionReady × List OutputNotification × SessionRecord :=
  if session.generation ≠ params.sessionGeneration then
    (.refused "stale-subscription", [], session)
  else
    match session.subscriptionOf params.subscriptionToken with
    | none => (.refused "stale-subscription", [], session)
    | some ⟨key, subscription⟩ =>
      if subscription.active then (.ok subscription.nextSeq, [], session)
      else if params.remuxOrigin.any (· ≠ subscription.origin) then
        (.refused "stale-subscription", [], session)
      else if params.throughSeq + 1 ≠ subscription.catchupEndSeq then (.refused "gap", [], session)
      else if subscription.nextSeq < session.firstAvailableSeq then (.refused "gap", [], session)
      else
        let page := session.collectReplayPage subscription.nextSeq session.nextSeq
          maxReadyCatchupBytes
        if page.complete = false then (.refused "catchup-too-large", [], session)
        else
          (.ok session.nextSeq, page.frames.map fun frame => ⟨some subscription.origin, frame⟩,
            { session with
              subscriptions := session.subscriptions.insert key
                { subscription with nextSeq := session.nextSeq, active := true } })

/-- `read_replay`. -/
def readReplay (params : ReplayReadParams) : Except String ReplayRead :=
  if session.generation ≠ params.sessionGeneration then
    .error (session.staleGeneration params.sessionGeneration)
  else
    let first := session.firstAvailableSeq
    let fromSeq := max params.fromSeq first
    let maxBytes := min (max ((params.maxBytes).getD (256 * 1024)) 1) (256 * 1024)
    let toSeqExclusive :=
      max (min (params.toSeqExclusive.getD session.nextSeq) session.nextSeq) fromSeq
    let page := session.collectReplayPage fromSeq toSeqExclusive maxBytes
    .ok
      { complete := page.complete
        firstAvailableSeq := first
        frames := page.frames
        nextSeq := page.nextSeq
        sessionGeneration := session.generation
        toSeqExclusive
        truncated := decide (0 < params.fromSeq ∧ params.fromSeq < first) }

/-- The coalescer's step under the lock: the frame of the bytes, and what
is to be sent once the lock is released. -/
def publishOutput (bytes : List UInt8) : OutputFrame × List OutputNotification × SessionRecord :=
  let (frame, appended) := session.appendOutput bytes
  let origins := appended.activeOrigins
  (frame, if appended.subscriptions.entries = [] then [⟨none, frame⟩]
    else origins.map fun origin => ⟨some origin, frame⟩,
    appended)

end SessionRecord

/-! ## The viewers of a session -/

/-- **A viewer that attached**: what it was told, the frames of the attach
reply and of the pages it read, whether a page was truncated, the frames
that `ready` sent it when it made its subscription active, and those sent
to its origin from then on. -/
structure TerminalViewer where
  origin : Option String
  token : Option SubscriptionToken
  throughSeq : ℕ
  catchupEndSeq : ℕ
  replayNextSeq : ℕ
  replayComplete : Bool
  truncated : Bool
  replies : List OutputFrame
  ready : Bool
  tail : List OutputFrame
  live : List OutputFrame

namespace TerminalViewer

/-- The viewer of an attach. -/
def ofAttached (params : SessionAttachParams) (attached : SessionAttached) : TerminalViewer where
  origin := params.remuxOrigin
  token := attached.subscriptionToken
  throughSeq := attached.restore.throughSeq
  catchupEndSeq := attached.catchupEndSeq
  replayNextSeq := attached.replayNextSeq
  replayComplete := attached.replayComplete
  truncated := false
  replies := attached.replay
  ready := false
  tail := []
  live := []

variable (viewer : TerminalViewer)

/-- A page is read from where the last one ended, up to where the viewer
attached. -/
def pageParams (generation : ℕ) (maxBytes : Option ℕ) : ReplayReadParams :=
  ⟨viewer.replayNextSeq, maxBytes, generation, some viewer.catchupEndSeq⟩

/-- A viewer that takes a page of replay. -/
def takePage (page : ReplayRead) : TerminalViewer :=
  { viewer with
    replayNextSeq := page.nextSeq
    replayComplete := page.complete
    truncated := viewer.truncated || page.truncated
    replies := viewer.replies ++ page.frames }

/-- A notification reaches every viewer of the origin it is targeted at. -/
def receive (notification : OutputNotification) : TerminalViewer :=
  if viewer.ready = true ∧ (notification.target = none ∨ notification.target = viewer.origin) then
    { viewer with live := viewer.live ++ [notification.frame] }
  else viewer

/-- `ready` made the viewer's subscription active. -/
def activate (frames : List OutputFrame) : TerminalViewer :=
  { viewer with ready := true, tail := frames }

/-- What the viewer is sent after its restore point. -/
def sent : List OutputFrame := viewer.replies ++ viewer.tail ++ viewer.live

end TerminalViewer

/-- An attach that has let go of the lock. -/
structure AttachCall where
  params : SessionAttachParams
  incremental : Option ℕ

/-- The session with all of its output so far, what the reader has still
to send, the attaches that are under way and the viewers. -/
structure TerminalState where
  session : SessionRecord
  output : List OutputFrame
  unsent : List OutputNotification
  attaching : List AttachCall
  viewers : List TerminalViewer

/-- What a session and its viewers do. -/
inductive TerminalAction where
  | output (bytes : List UInt8)
  | send (notification : OutputNotification)
  | attach (params : SessionAttachParams)
  | attached (call : ℕ) (snapshot : Option HeadlessSnapshot) (millis : ℕ)
      (inputStream : Except String Unit)
  | start (viewerKey origin : Option String) (millis : ℕ)
  | readReplay (viewer : ℕ) (maxBytes : Option ℕ)
  | ready (params : SessionReadyParams)
  | detach (params : SessionDetachParams)

namespace TerminalState

variable (s : TerminalState)

/-- What is sent is sent to all viewers that it is meant for. -/
def deliver (notifications : List OutputNotification) (viewers : List TerminalViewer) :
    List TerminalViewer :=
  viewers.map fun viewer => notifications.foldl TerminalViewer.receive viewer

/-- `ready_session`: the frames go to all viewers of the origin, and are the
tail of the viewer whose subscription they make active. -/
def ready (params : SessionReadyParams) : TerminalState :=
  match s.session.readySession params with
  | (answer, notifications, session) =>
    { s with
      session
      viewers := s.viewers.map fun viewer =>
        if viewer.token = some params.subscriptionToken ∧ viewer.ready = false ∧ answer.isOk then
          viewer.activate (notifications.map OutputNotification.frame)
        else notifications.foldl TerminalViewer.receive viewer }

end TerminalState

/-- **The runs of a session.** The reader appends a frame only when it has
sent the one before. -/
def terminalMachine (generation : ℕ) (sessionId : String) :
    Machine TerminalState TerminalAction where
  init :=
    { session :=
        { generation
          nextSubscriptionId := 0
          nextSeq := 1
          replay := []
          replayBytes := 0
          sessionId
          subscriptions := ∅ }
      output := []
      unsent := []
      attaching := []
      viewers := [] }
  step s
    | .output bytes =>
      if s.unsent = [] then
        let (frame, notifications, session) := s.session.publishOutput bytes
        some { s with session, output := s.output ++ [frame], unsent := notifications }
      else none
    | .send notification =>
      if notification ∈ s.unsent then
        some { s with
          unsent := s.unsent.erase notification
          viewers := TerminalState.deliver [notification] s.viewers }
      else none
    | .attach params =>
      match s.session.incrementalThrough params with
      | .error _ => none
      | .ok incremental => some { s with attaching := s.attaching ++ [⟨params, incremental⟩] }
    | .attached call snapshot millis inputStream =>
      match s.attaching[call]? with
      | none => none
      | some found =>
        match s.session.attachSession found.params found.incremental snapshot millis
          inputStream with
        | (.error _, session) => some { s with session, attaching := s.attaching.eraseIdx call }
        | (.ok attached, session) => some { s with
            session
            attaching := s.attaching.eraseIdx call
            viewers := s.viewers ++ [TerminalViewer.ofAttached found.params attached] }
    | .start viewerKey origin millis =>
      some { s with session := s.session.startRunning viewerKey origin millis }
    | .readReplay i maxBytes =>
      match s.viewers[i]? with
      | none => none
      | some viewer =>
        if viewer.replayComplete then none
        else
          match s.session.readReplay (viewer.pageParams s.session.generation maxBytes) with
          | .error _ => none
          | .ok page => some { s with viewers := s.viewers.set i (viewer.takePage page) }
    | .ready params => some (s.ready params)
    | .detach params =>
      match s.session.detachSession params with
      | .error _ => none
      | .ok session => some { s with session }

end Remux
