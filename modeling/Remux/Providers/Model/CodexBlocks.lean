import Remux.Common.Machine
import Remux.Delivery.Model.Row
import Remux.Providers.Model.CodexMapper

/-!
# The blocks of a Codex turn

`CodexEventMapper` keeps a block for every item of a turn. A notification
makes a few changes; each of them is merged with what the mapper holds of
the block, fitted to what an event may carry, stored, and emitted under an
id that is a digest of the change. The session lets an event through if it
has not seen its id.

The notifications are those of bound turns. What the registry of children
decides is part of a notification, and so are a command's title, the name
of a file and the other texts that are shown as they come. A block's id and
the id of its turn's pass are digests of the block's key, which stands for
both; the digest of an event's id is a parameter, and so are the previews
of a tool's input and output, values of a type `J`.
-/

namespace Remux

namespace Providers

/-! ## Blocks -/

/-- `codexBlockIdentityKind`: both phases of a text are of one kind. -/
inductive BlockIdentityKind where
  | reasoningSummary
  | assistantText
  | tool
  | nativeChild
  | web
  | compatibilityNotice
  deriving DecidableEq

/-- The text that stands for an identity where an item has no id. -/
def BlockIdentityKind.text : BlockIdentityKind → String
  | .reasoningSummary => "reasoning-summary"
  | .assistantText => "assistant-text"
  | .tool => "tool"
  | .nativeChild => "native-child"
  | .web => "web"
  | .compatibilityNotice => "compatibility-notice"

/-- The phase of a text: `commentary` or `final-message`. -/
inductive TextPhase where
  | commentary
  | final
  deriving DecidableEq

/-- `TurnBlockState`. -/
inductive TurnBlockState where
  | running
  | streaming
  | completed
  | failed
  | interrupted
  deriving DecidableEq

/-- `ProviderExecutionState`. -/
inductive ProviderExecutionState where
  | running
  | recovering
  | idle
  | failed
  | interrupted
  deriving DecidableEq

/-- `ToolDisplay`. -/
structure ToolDisplay where
  callId : String
  name : String
  category : String
  title : Option String
  deriving DecidableEq

/-- `ChildExecutionDisplay`. -/
structure ChildExecutionDisplay where
  executionId : String
  model : Option String
  title : Option String
  nativeSessionId : Option String
  deriving DecidableEq

/-- `TurnBlockPayload`, as far as the mapper builds it. -/
inductive TurnBlockPayload (J : Type) where
  | reasoningSummary (text : String) (parts : List String) (truncated : Bool)
  | text (phase : TextPhase) (text : String)
  | tool (tool : ToolDisplay) (inputPreview outputPreview : Option J)
  | nativeChild (child : ChildExecutionDisplay) (executionState : ProviderExecutionState)
      (outcome : Option ProviderTurnOutcome) (summary : Option String)
  | web (query : Option String)
  | compatibilityNotice (code message : String)
  deriving DecidableEq

namespace TurnBlockPayload

variable {J : Type}

/-- The kind that a payload's block is identified by. -/
def identityKind : TurnBlockPayload J → BlockIdentityKind
  | .reasoningSummary .. => .reasoningSummary
  | .text .. => .assistantText
  | .tool .. => .tool
  | .nativeChild .. => .nativeChild
  | .web .. => .web
  | .compatibilityNotice .. => .compatibilityNotice

/-- The phase of a text: with `identityKind` it is the block's kind. -/
def phase : TurnBlockPayload J → Option TextPhase
  | .text phase _ => some phase
  | _ => none

/-- The call or the execution that a payload is about. -/
def owner : TurnBlockPayload J → Option String
  | .tool display _ _ => some display.callId
  | .nativeChild child _ _ _ => some child.executionId
  | _ => none

end TurnBlockPayload

/-- `TurnBlockSnapshot`; its kind is that of the payload. -/
structure TurnBlockSnapshot (J : Type) where
  state : TurnBlockState
  payload : TurnBlockPayload J
  deriving DecidableEq

/-- `blockKey`, and what `blockId` digests. -/
structure BlockKey where
  nativeTurnId : String
  identity : String
  kind : BlockIdentityKind
  deriving DecidableEq

/-- `blockKey`: an item without an id goes by its kind. -/
def blockKey (nativeTurnId : String) (itemId : Option String) (kind : BlockIdentityKind) :
    BlockKey :=
  ⟨nativeTurnId, itemId.getD kind.text, kind⟩

/-- `TurnStructure`. -/
structure TurnStructure where
  blockId : BlockKey
  blockOrdinal : ℕ
  deriving DecidableEq

/-- `BlockState`. -/
structure BlockState (J : Type) where
  place : TurnStructure
  block : TurnBlockSnapshot J
  revision : ℕ
  deriving DecidableEq

/-! ## Events -/

/-- A changed file, with the name that is shown of it. -/
structure FileChange (J : Type) where
  path : String
  name : String
  change : J
  deriving DecidableEq

/-- `MapperEvent`: a change that a notification makes. -/
inductive MapperEvent (J : Type) where
  | turnStarted
  | turnRunning
  | turnCompleted (outcome : ProviderTurnOutcome) (error : Option J)
  | turnIdle
  | userMessage (content : J)
  | reasoningSummary (parts : List String)
  | reasoningDelta (delta : String) (partIndex : ℕ)
  | text (phase : TextPhase) (text : String)
  | textDelta (phase : TextPhase) (delta : String)
  | toolStarted (tool : ToolDisplay) (inputPreview : J)
  | toolUpdated (toolCallId : String) (outputPreview : J) (replaceOutputPreview : Bool)
  | toolCompleted (toolCallId : String) (failed : Bool)
  | fileChanged (change : FileChange J)
  | webActivity (query : Option String)
  | childStarted (child : ChildExecutionDisplay)
  | childStatus (childExecutionId : String) (state : ProviderExecutionState)
  | childCompleted (childExecutionId : String) (outcome : ProviderTurnOutcome)
  | compatibilityNotice (code message : String)
  | compactionReport (completed : Bool)
  | compactionMarker (completed : Bool)
  deriving DecidableEq

/-- The types of the events that build a block. -/
inductive BlockEventType where
  | started
  | revised
  | completed
  deriving DecidableEq

/-- A provider event: about a block, or about something else. -/
inductive ProviderEvent (J : Type) where
  | block (type : BlockEventType) (place : TurnStructure) (revision : ℕ)
      (block : TurnBlockSnapshot J)
  | other (event : MapperEvent J)
  deriving DecidableEq

/-- What an event carries of a block. -/
def ProviderEvent.carries {J : Type} (key : BlockKey) : ProviderEvent J → Option (BlockState J)
  | .block _ place revision snapshot =>
    if place.blockId = key then some ⟨place, snapshot, revision⟩ else none
  | .other _ => none

/-- What fitting leaves of an event: all but the texts it shows. -/
def ProviderEvent.frame {J : Type} : ProviderEvent J → Option (BlockEventType × TurnStructure × ℕ ×
    TurnBlockState × BlockIdentityKind × Option TextPhase × Option String)
  | .block type place revision snapshot =>
    some (type, place, revision, snapshot.state, snapshot.payload.identityKind,
      snapshot.payload.phase, snapshot.payload.owner)
  | .other _ => none

/-- What an event's id is told apart by, next to its turn, item and kind. -/
inductive Discriminator (J : Type) where
  | snapshot (event : MapperEvent J)
  | marker (event : ProviderEvent J)
  | delta (offset : ℕ)
  | live (sequence : ℕ)
  | childTurn (nativeChildTurnId : String)
  | occurrence (ordinal : ℕ)
  deriving DecidableEq

/-- What `stableEventId` digests. -/
structure EventIdentity (J : Type) where
  nativeTurnId : String
  itemId : Option String
  kind : String
  discriminator : Discriminator J
  deriving DecidableEq

/-- How an event is told apart from others of its item and kind. -/
inductive Stamp where
  | snapshot
  | delta (offset : ℕ)
  | live
  | childTurn (nativeChildTurnId : String)
  | occurrence (ordinal : ℕ)
  deriving DecidableEq

/-- A change with what its envelope is made of. -/
structure BlockChange (J : Type) where
  event : MapperEvent J
  kind : String
  nativeTurnId : String
  itemId : Option String
  stamp : Stamp
  deriving DecidableEq

/-- An event under its id, and whether a text of it was cut to fit. -/
structure ProviderEventEnvelope (J ι : Type) where
  eventId : ι
  event : ProviderEvent J
  cut : Bool
  deriving DecidableEq

/-- The digests, and how previews are made and merged. -/
structure MapperSupport (J ι : Type) where
  stableEventId : EventIdentity J → ι
  noticeDigest : MapperEvent J → String
  fitJsonPreview : J → J
  mergeJsonPreview : Option J → J → J
  pathsPreview : List String → J

/-- `fitProviderEventDisplay` and the check of the contract: an event that
does not pass is none. -/
structure DisplayFitting (J : Type) where
  fit : ProviderEvent J → Option (ProviderEvent J)
  keeps : ∀ event fitted, fit event = some fitted → fitted.frame = event.frame

/-- Every event passes as it is. -/
def DisplayFitting.all (J : Type) : DisplayFitting J where
  fit := some
  keeps := fun _ _ h => Option.some.inj h ▸ rfl

/-! ## What a change makes of a block -/

namespace TurnBlockPayload

variable {J : Type}

/-- What is held of a call, or what stands for it. -/
def heldTool (callId : String) : Option (TurnBlockPayload J) → ToolDisplay × Option J × Option J
  | some (.tool display inputPreview outputPreview) => (display, inputPreview, outputPreview)
  | _ => (⟨callId, "tool", "other", none⟩, none, none)

/-- What is held of a child, or what stands for it. -/
def heldChild (childExecutionId : String) : Option (TurnBlockPayload J) →
    ChildExecutionDisplay × ProviderExecutionState × Option ProviderTurnOutcome × Option String
  | some (.nativeChild child executionState outcome summary) =>
    (child, executionState, outcome, summary)
  | _ => (⟨childExecutionId, none, none, none⟩, .running, none, none)

/-- The text that is held of a phase. -/
def heldText (phase : TextPhase) : Option (TurnBlockPayload J) → String
  | some (.text held shown) => if held = phase then shown else ""
  | _ => ""

/-- What is held of a reasoning that was cut. -/
def heldTruncated : Option (TurnBlockPayload J) → Option (TurnBlockPayload J)
  | some (.reasoningSummary shown parts true) => some (.reasoningSummary shown parts true)
  | _ => none

/-- The parts that a reasoning held shows. -/
def heldParts : Option (TurnBlockPayload J) → List String
  | some (.reasoningSummary _ parts _) => parts
  | _ => []

end TurnBlockPayload

/-- `DISPLAY_TRUNCATION_MARKER`. -/
def displayTruncationMarker : String := "\n… truncated …"

/-- `PROVIDER_RUNTIME_LIMITS.messageChars`. -/
def messageChars : ℕ := 256 * 1024

/-- `PROVIDER_RUNTIME_LIMITS.finalTextChars`. -/
def finalTextChars : ℕ := 8 * 1024 * 1024

/-- A part of a reasoning, grown by a delta; the parts before it are there. -/
def growPart (parts : List String) (partIndex : ℕ) (delta : String) : List String :=
  (parts ++ List.replicate (partIndex + 1 - parts.length) "").modify partIndex (· ++ delta)

/-- The parts of a reasoning with more of them than a block shows. -/
def boundParts (parts : List String) : List String :=
  match (parts.take 256).reverse with
  | [] => [displayTruncationMarker]
  | last :: before => (before.reverse).concat (last ++ displayTruncationMarker)

/-- A reasoning of the parts that are not empty. -/
def reasoningPayload {J : Type} (parts : List String) (truncated : Bool) : TurnBlockPayload J :=
  .reasoningSummary ("\n".intercalate (parts.filter (· ≠ ""))) (parts.filter (· ≠ "")) truncated

/-- How a child's outcome shows as its state. -/
def outcomeState : ProviderTurnOutcome → TurnBlockState
  | .completed => .completed
  | .interrupted => .interrupted
  | .failed => .failed

/-- The state of an execution whose turn ended so. -/
def outcomeExecutionState : ProviderTurnOutcome → ProviderExecutionState
  | .completed => .idle
  | .interrupted => .interrupted
  | .failed => .failed

/-- `normalizeEvent`: the payload and the state that a change gives a block
of which `held` is held, and whether it completes it. -/
def MapperEvent.write {J ι : Type} (support : MapperSupport J ι)
    (held : Option (TurnBlockPayload J)) (reasoningParts : List String) :
    MapperEvent J → Option (TurnBlockPayload J × TurnBlockState × Bool)
  | .reasoningSummary parts => some (reasoningPayload parts false, .completed, true)
  | .reasoningDelta delta partIndex =>
    match TurnBlockPayload.heldTruncated held with
    | some payload => some (payload, .streaming, false)
    | none =>
      if 256 ≤ partIndex then
        let bounded := boundParts (TurnBlockPayload.heldParts held)
        some (.reasoningSummary ("\n".intercalate bounded) bounded true, .streaming, false)
      else
        some (reasoningPayload (growPart reasoningParts partIndex delta) false, .streaming, false)
  | .text phase shown => some (.text phase shown, .completed, true)
  | .textDelta phase delta =>
    some (.text phase (TurnBlockPayload.heldText phase held ++ delta), .streaming, false)
  | .toolStarted display inputPreview =>
    let (_, _, outputPreview) := TurnBlockPayload.heldTool display.callId held
    some (.tool display (some (support.fitJsonPreview inputPreview)) outputPreview, .running, false)
  | .toolUpdated toolCallId outputPreview replaceOutputPreview =>
    let (display, inputPreview, previous) := TurnBlockPayload.heldTool toolCallId held
    some (.tool display inputPreview (some (support.mergeJsonPreview
      (if replaceOutputPreview then none else previous) outputPreview)), .running, false)
  | .toolCompleted toolCallId failed =>
    let (display, inputPreview, outputPreview) := TurnBlockPayload.heldTool toolCallId held
    some (.tool display inputPreview outputPreview, if failed then .failed else .completed, true)
  | .webActivity query => some (.web query, .completed, true)
  | .childStarted child => some (.nativeChild child .running none none, .running, false)
  | .childStatus childExecutionId state =>
    let (child, _, outcome, summary) := TurnBlockPayload.heldChild childExecutionId held
    some (.nativeChild child state outcome summary, .running, false)
  | .childCompleted childExecutionId outcome =>
    let (child, _, _, summary) := TurnBlockPayload.heldChild childExecutionId held
    some (.nativeChild child (outcomeExecutionState outcome) (some outcome) summary,
      outcomeState outcome, true)
  | .compatibilityNotice code message =>
    some (.compatibilityNotice code message, .completed, true)
  | .compactionMarker completed =>
    some (.compatibilityNotice "context-compaction"
        (if completed then "Compacted" else "Compacting"),
      if completed then .completed else .running, completed)
  | _ => none

/-- The kind of the block that a change is about, and what it is known by
next to its item. -/
def MapperEvent.subject {J ι : Type} (support : MapperSupport J ι) (event : MapperEvent J) :
    Option (BlockIdentityKind × Option String) :=
  match event with
  | .reasoningSummary _ | .reasoningDelta _ _ => some (.reasoningSummary, none)
  | .text _ _ | .textDelta _ _ => some (.assistantText, none)
  | .toolStarted display _ => some (.tool, some display.callId)
  | .toolUpdated toolCallId _ _ | .toolCompleted toolCallId _ => some (.tool, some toolCallId)
  | .webActivity _ => some (.web, none)
  | .childStarted child => some (.nativeChild, some child.executionId)
  | .childStatus childExecutionId _ | .childCompleted childExecutionId _ =>
    some (.nativeChild, some childExecutionId)
  | .compatibilityNotice _ _ =>
    some (.compatibilityNotice, some ("notice-" ++ support.noticeDigest event))
  | .compactionMarker _ => some (.compatibilityNotice, none)
  | _ => none

/-- The key that a change looks its block up by. A change of a call or of a
child names as its item what it is about. -/
def BlockChange.key {J ι : Type} (support : MapperSupport J ι) (change : BlockChange J) :
    Option BlockKey :=
  (change.event.subject support).map fun subject =>
    blockKey change.nativeTurnId (change.itemId.or subject.2) subject.1

/-! ## The mapper -/

/-- What the text of an item is streamed as. -/
inductive StreamKind where
  | assistant
  | commentary
  | reasoning
  deriving DecidableEq

/-- What the mapper holds of blocks. -/
structure BlockMapper (J : Type) where
  deltaOffsets : Assoc (String × String × StreamKind) ℕ
  agentMessageKinds : Assoc (String × String) StreamKind
  pendingAgentMessageDeltas : Assoc (String × String) String
  completedCompactionItems : List (String × String)
  blocks : Assoc BlockKey (BlockState J)
  reasoningParts : Assoc BlockKey (List String)
  nextOrdinalByTurn : Assoc String ℕ
  liveSequence : ℕ

namespace BlockMapper

variable {J ι : Type} (support : MapperSupport J ι) (m : BlockMapper J)

/-- The payload that is held under a key. -/
def held (key : BlockKey) : Option (TurnBlockPayload J) :=
  (m.blocks.lookup key).map (·.block.payload)

/-- `structure`. -/
def structureOf (key : BlockKey) : TurnStructure :=
  ⟨key, (m.nextOrdinalByTurn.lookup key.nativeTurnId).getD 0⟩

/-- `blockEvent`. -/
def blockEvent (key : BlockKey) (payload : TurnBlockPayload J) (state : TurnBlockState)
    (completed : Bool) : ProviderEvent J :=
  match m.blocks.lookup key with
  | some previous =>
    .block (if completed then .completed else .revised) previous.place (previous.revision + 1)
      ⟨state, payload⟩
  | none =>
    if completed then .block .completed (m.structureOf key) 1 ⟨state, payload⟩
    else .block .started (m.structureOf key) 0 ⟨state, payload⟩

/-- `normalizeEvent`. -/
def normalizeEvent (change : BlockChange J) : ProviderEvent J :=
  match change.key support with
  | none => .other change.event
  | some key =>
    match change.event.write support (m.held key) ((m.reasoningParts.lookup key).getD []) with
    | none => .other change.event
    | some (payload, state, completed) => m.blockEvent key payload state completed

/-- `commitReasoningParts`. -/
def commitReasoningParts (change : BlockChange J) : BlockMapper J :=
  let key := blockKey change.nativeTurnId change.itemId .reasoningSummary
  match change.event with
  | .reasoningSummary _ => { m with reasoningParts := m.reasoningParts.erase key }
  | .reasoningDelta delta partIndex =>
    if (TurnBlockPayload.heldTruncated (m.held key)).isSome ∨ 256 ≤ partIndex then m
    else
      let parts := growPart ((m.reasoningParts.lookup key).getD []) partIndex ""
      let available := messageChars - (parts.map String.length).sum
      let kept := growPart parts partIndex (String.ofList (delta.toList.take available))
      { m with reasoningParts := m.reasoningParts.insert key kept }
  | _ => m

/-- `commitBlockEvent`: a block is stored under what its payload is about,
or under its item. -/
def commitBlockEvent (event : ProviderEvent J) (change : BlockChange J) : BlockMapper J :=
  match event with
  | .other _ => m
  | .block _ place revision block =>
    let key := blockKey change.nativeTurnId (block.payload.owner.or change.itemId)
      block.payload.identityKind
    let next := (m.nextOrdinalByTurn.lookup change.nativeTurnId).getD 0
    { m with
      blocks := m.blocks.insert key ⟨place, block, revision⟩
      nextOrdinalByTurn :=
        m.nextOrdinalByTurn.insert change.nativeTurnId (max next (place.blockOrdinal + 1)) }

/-- `++this.liveSequence`, which an envelope begins with unless it is that
of a turn or of a compaction. -/
def sequenced (change : BlockChange J) : BlockMapper J :=
  match change.stamp, change.itemId with
  | .snapshot, none => m
  | .occurrence _, _ => m
  | _, _ => { m with liveSequence := m.liveSequence + 1 }

/-- What tells an event apart. A marker is made before it is stamped. -/
def discriminator (change : BlockChange J) (normalized : ProviderEvent J) : Discriminator J :=
  match change.stamp with
  | .snapshot =>
    match change.event with
    | .compactionMarker _ => .marker normalized
    | event => .snapshot event
  | .delta offset => .delta offset
  | .live => .live m.liveSequence
  | .childTurn nativeChildTurnId => .childTurn nativeChildTurnId
  | .occurrence ordinal => .occurrence ordinal

variable [DecidableEq J]

/-- `envelope`: nothing is stored of an event that does not pass. -/
def envelope (fitting : DisplayFitting J) (change : BlockChange J) :
    BlockMapper J × Option (ProviderEventEnvelope J ι) :=
  let m := m.sequenced change
  let normalized := m.normalizeEvent support change
  match fitting.fit normalized with
  | none => (m, none)
  | some fitted =>
    ((m.commitReasoningParts change).commitBlockEvent fitted change,
      some ⟨support.stableEventId ⟨change.nativeTurnId, change.itemId, change.kind,
        m.discriminator change normalized⟩, fitted, fitted ≠ normalized⟩)

/-- The envelopes of a notification's changes, one after the other. One that
does not pass ends the notification, and the ones before it are lost. -/
def envelopes (fitting : DisplayFitting J) :
    BlockMapper J → List (BlockChange J) → BlockMapper J × Option (List (ProviderEventEnvelope J ι))
  | m, [] => (m, some [])
  | m, change :: rest =>
    match m.envelope support fitting change with
    | (m, none) => (m, none)
    | (m, some envelope) =>
      let (m, later) := envelopes fitting m rest
      (m, later.map (envelope :: ·))

end BlockMapper

/-! ## Notifications -/

/-- The status of a tool's item. -/
inductive ItemStatus where
  | inProgress
  | completed
  | failed
  | declined
  | other
  deriving DecidableEq

/-- A spawned child that the registry binds and has no outcome of, with the
turn that owns it and the state its item reports. -/
structure SpawnedChild where
  ownerNativeTurnId : String
  child : ChildExecutionDisplay
  state : Option ProviderExecutionState
  deriving DecidableEq

/-- What an activity of a bound child tells of it. -/
inductive SubAgentActivity where
  | started
  | completed
  | interrupted
  | activity (kind : String)
  deriving DecidableEq

/-- An item of a turn, with the title of a command and the previews as they
are shown. A compaction comes with the ordinal of its occurrence. -/
inductive CodexItem (J : Type) where
  | userMessage (content : Option J)
  | agentMessage (phase : Option TextPhase) (text : String)
  | plan (text : String)
  | reasoning (summary : List String)
  | commandExecution (title : String) (inputPreview : J) (aggregatedOutput : Option J)
      (status : ItemStatus)
  | fileChange (changes : List (FileChange J)) (status : ItemStatus)
  | toolCall (type name : String) (arguments : J) (status : ItemStatus) (unsuccessful : Bool)
  | webSearch (query : Option String)
  | collabAgentToolCall (children : List SpawnedChild)
  | subAgentActivity (ownerNativeTurnId : String) (child : ChildExecutionDisplay)
      (kind : SubAgentActivity)
  | contextCompaction (ordinal : ℕ)
  deriving DecidableEq

/-- A notification of a bound turn. -/
inductive CodexNotification (J : Type) where
  | turnStarted (nativeTurnId : String)
  | turnCompleted (nativeTurnId : String) (outcome : ProviderTurnOutcome) (error : Option J)
  | agentMessageDelta (nativeTurnId itemId delta : String)
  | planDelta (nativeTurnId itemId delta : String)
  | reasoningDelta (nativeTurnId itemId delta : String) (partIndex : ℕ)
  | patchUpdated (nativeTurnId itemId : String) (changes : List (FileChange J))
  | outputDelta (nativeTurnId itemId : String) (outputPreview : J)
  | mcpProgress (nativeTurnId itemId : String) (outputPreview : J)
  | item (nativeTurnId itemId : String) (item : CodexItem J) (completed : Bool)
  | error (nativeTurnId code message : String)
  | childTurnStarted (ownerNativeTurnId : String) (child : ChildExecutionDisplay)
      (nativeChildTurnId : String)
  | childTurnCompleted (ownerNativeTurnId childExecutionId nativeChildTurnId : String)
      (outcome : ProviderTurnOutcome)
  deriving DecidableEq

namespace BlockMapper

variable {J ι : Type} (support : MapperSupport J ι) (m : BlockMapper J)

/-- The stream that a text of a phase is kept under. -/
def streamKindOf (phase : TextPhase) : StreamKind :=
  match phase with
  | .commentary => .commentary
  | .final => .assistant

/-- `mapTextDelta`. -/
def mapTextDelta (nativeTurnId itemId delta : String) (kind : StreamKind) (partIndex : ℕ) :
    BlockMapper J × List (BlockChange J) :=
  if delta = "" then (m, [])
  else
    let key := (nativeTurnId, itemId, kind)
    let offset := (m.deltaOffsets.lookup key).getD 0
    let event : MapperEvent J :=
      match kind with
      | .reasoning => .reasoningDelta delta partIndex
      | .commentary => .textDelta .commentary delta
      | .assistant => .textDelta .final delta
    let name :=
      match kind with
      | .reasoning => "item/reasoning/delta"
      | .commentary => "item/commentary/delta"
      | .assistant => "item/assistant/delta"
    ({ m with deltaOffsets := m.deltaOffsets.insert key (offset + utf16Length delta) },
      [⟨event, name, nativeTurnId, some itemId, .delta offset⟩])

/-- `mapAgentMessageDelta`: a delta of a message whose phase is not known
waits for it. -/
def mapAgentMessageDelta (nativeTurnId itemId delta : String) :
    BlockMapper J × List (BlockChange J) :=
  if delta = "" then (m, [])
  else
    match m.agentMessageKinds.lookup (nativeTurnId, itemId) with
    | some kind => m.mapTextDelta nativeTurnId itemId delta kind 0
    | none =>
      let pending :=
        (m.pendingAgentMessageDeltas.lookup (nativeTurnId, itemId)).getD "" ++ delta
      if finalTextChars < utf16Length pending then (m, [])
      else
        let deltas := m.pendingAgentMessageDeltas.insert (nativeTurnId, itemId) pending
        ({ m with pendingAgentMessageDeltas := deltas }, [])

/-- `flushPendingAgentMessage`. -/
def flushPendingAgentMessage (nativeTurnId itemId : String) (kind : StreamKind) :
    BlockMapper J × List (BlockChange J) :=
  match m.pendingAgentMessageDeltas.lookup (nativeTurnId, itemId) with
  | none => (m, [])
  | some delta =>
    let deltas := m.pendingAgentMessageDeltas.erase (nativeTurnId, itemId)
    mapTextDelta { m with pendingAgentMessageDeltas := deltas } nativeTurnId itemId delta kind 0

/-- `seedDeltaOffset`. -/
def seedDeltaOffset (nativeTurnId itemId : String) (kind : StreamKind) (offset : ℕ) :
    BlockMapper J :=
  let key := (nativeTurnId, itemId, kind)
  let seeded := max ((m.deltaOffsets.lookup key).getD 0) offset
  { m with deltaOffsets := m.deltaOffsets.insert key seeded }

/-- `clearAgentMessageState`. -/
def clearAgentMessageState (nativeTurnId : String) : BlockMapper J :=
  { m with
    agentMessageKinds := (m.agentMessageKinds.keys.filter (·.1 = nativeTurnId)).foldl
      (fun kinds key => kinds.erase key) m.agentMessageKinds
    pendingAgentMessageDeltas :=
      (m.pendingAgentMessageDeltas.keys.filter (·.1 = nativeTurnId)).foldl
        (fun deltas key => deltas.erase key) m.pendingAgentMessageDeltas }

/-- The item of an agent's message. -/
def mapAgentMessage (nativeTurnId itemId : String) (phase : Option TextPhase) (text : String)
    (completed : Bool) : BlockMapper J × List (BlockChange J) :=
  let identity := (nativeTurnId, itemId)
  let m :=
    match phase with
    | some phase =>
      { m with agentMessageKinds := m.agentMessageKinds.insert identity (streamKindOf phase) }
    | none => m
  let kind := (phase.map streamKindOf).or (m.agentMessageKinds.lookup identity)
  let settled :=
    { m with pendingAgentMessageDeltas := m.pendingAgentMessageDeltas.erase identity }
  if text = "" then
    if completed then (settled, [])
    else
      match kind with
      | some kind => m.flushPendingAgentMessage nativeTurnId itemId kind
      | none => (m, [])
  else
    let authoritativeKind := kind.getD .assistant
    (settled.seedDeltaOffset nativeTurnId itemId authoritativeKind (utf16Length text),
      [⟨.text (if authoritativeKind = .commentary then .commentary else .final) text,
        "item/agentMessage", nativeTurnId, some itemId, .snapshot⟩])

/-- `fileChangeStartedEvent`. -/
def fileChangeStartedEvent (itemId : String) (changes : List (FileChange J)) (completed : Bool) :
    MapperEvent J :=
  let names := ((changes.map (·.name)).filter (· ≠ "")).eraseDups
  let verb := if completed then "Edited" else "Editing"
  let title :=
    match names with
    | [] => verb ++ " files"
    | [name] => verb ++ " " ++ name
    | names => verb ++ " " ++ toString names.length ++ " files"
  .toolStarted ⟨itemId, "file_change", "file", some title⟩
    (support.pathsPreview (changes.map (·.path)))

/-- The changes of the files of one item, one event each. -/
def fileChanges (kind nativeTurnId itemId : String) (changes : List (FileChange J)) :
    List (BlockChange J) :=
  changes.mapIdx fun index change =>
    ⟨.fileChanged change, kind ++ "/" ++ toString index, nativeTurnId, some itemId, .snapshot⟩

/-- `mapCollabItem`, of one child. -/
def mapSpawnedChild (spawned : SpawnedChild) : List (BlockChange J) :=
  let make (event : MapperEvent J) (kind : String) : BlockChange J :=
    ⟨event, kind, spawned.ownerNativeTurnId, some spawned.child.executionId, .snapshot⟩
  let executionId := spawned.child.executionId
  make (.childStarted spawned.child) "child/started" :: match spawned.state with
    | none => []
    | some state =>
      make (.childStatus executionId state) "child/status" :: match state with
        | .idle => [make (.childCompleted executionId .completed) "child/completed"]
        | .interrupted => [make (.childCompleted executionId .interrupted) "child/completed"]
        | .failed => [make (.childCompleted executionId .failed) "child/completed"]
        | .running | .recovering => []

/-- `mapSubAgentActivity`. -/
def mapSubAgentActivity (ownerNativeTurnId : String) (child : ChildExecutionDisplay) :
    SubAgentActivity → BlockChange J
  | .started => ⟨.childStarted child, "child/started", ownerNativeTurnId, some child.executionId,
      .snapshot⟩
  | .completed => ⟨.childCompleted child.executionId .completed, "child/completed",
      ownerNativeTurnId, some child.executionId, .snapshot⟩
  | .interrupted => ⟨.childCompleted child.executionId .interrupted, "child/interrupted",
      ownerNativeTurnId, some child.executionId, .snapshot⟩
  | .activity kind => ⟨.childStatus child.executionId .running, "child/" ++ kind,
      ownerNativeTurnId, some child.executionId, .snapshot⟩

/-- Whether an item of this status failed. -/
def failedStatus : ItemStatus → Bool
  | .failed | .declined => true
  | _ => false

/-- `mapItem`. -/
def mapItem (nativeTurnId itemId : String) (completed : Bool) :
    CodexItem J → BlockMapper J × List (BlockChange J)
  | .userMessage content => (m, content.toList.map fun content =>
      ⟨.userMessage content, "item/userMessage", nativeTurnId, some itemId, .snapshot⟩)
  | .agentMessage phase text => m.mapAgentMessage nativeTurnId itemId phase text completed
  | .plan text =>
    if text = "" then (m, [])
    else
      (m.seedDeltaOffset nativeTurnId itemId .commentary (utf16Length text),
        [⟨.text .commentary text, "item/plan", nativeTurnId, some itemId, .snapshot⟩])
  | .reasoning summary =>
    (m, if "\n".intercalate summary = "" then []
      else [⟨.reasoningSummary summary, "item/reasoning", nativeTurnId, some itemId, .snapshot⟩])
  | .commandExecution title inputPreview aggregatedOutput status =>
    let make (event : MapperEvent J) (kind : String) : BlockChange J :=
      ⟨event, kind, nativeTurnId, some itemId, .snapshot⟩
    let started := make (.toolStarted ⟨itemId, "shell", "shell", some title⟩ inputPreview)
      "item/commandExecution"
    (m, if !completed && status = .inProgress then [started] else started ::
        ((aggregatedOutput.toList.map fun output =>
          make (.toolUpdated itemId output true) "item/commandExecution/output") ++
          [make (.toolCompleted itemId (failedStatus status)) "item/commandExecution/completed"]))
  | .fileChange changes status =>
    let make (event : MapperEvent J) (kind : String) : BlockChange J :=
      ⟨event, kind, nativeTurnId, some itemId, .snapshot⟩
    (m, make (fileChangeStartedEvent support itemId changes completed) "item/fileChange" ::
      (fileChanges "item/fileChange" nativeTurnId itemId changes ++ if completed then
          [make (.toolCompleted itemId (failedStatus status)) "item/fileChange/completed"]
        else []))
  | .toolCall type name arguments status unsuccessful =>
    let make (event : MapperEvent J) (kind : String) : BlockChange J :=
      ⟨event, kind, nativeTurnId, some itemId, .snapshot⟩
    let started := make
      (.toolStarted ⟨itemId, name, "mcp", some name⟩ (support.fitJsonPreview arguments))
      ("item/" ++ type)
    (m, if !completed && status = .inProgress then [started]
      else [started, make (.toolCompleted itemId (status = .failed || unsuccessful))
        ("item/" ++ type ++ "/completed")])
  | .webSearch query =>
    (m, [⟨.webActivity query, "item/webSearch", nativeTurnId, some itemId, .snapshot⟩])
  | .collabAgentToolCall children => (m, children.flatMap mapSpawnedChild)
  | .subAgentActivity ownerNativeTurnId child kind =>
    (m, [mapSubAgentActivity ownerNativeTurnId child kind])
  | .contextCompaction ordinal =>
    if completed ∧ (nativeTurnId, itemId) ∈ m.completedCompactionItems then (m, [])
    else
      let phase := if completed then "completed" else "started"
      ({ m with completedCompactionItems :=
          if completed then (nativeTurnId, itemId) :: m.completedCompactionItems
          else m.completedCompactionItems },
        [⟨.compactionReport completed, "context/compaction/" ++ phase, nativeTurnId, none,
          .occurrence ordinal⟩,
        ⟨.compactionMarker completed, "item/contextCompaction/" ++ phase ++ "/marker",
          nativeTurnId, some itemId, .snapshot⟩])

/-- `mapNotification`. -/
def mapNotification : CodexNotification J → BlockMapper J × List (BlockChange J)
  | .turnStarted nativeTurnId =>
    (m, [⟨.turnStarted, "turn/started", nativeTurnId, none, .snapshot⟩,
      ⟨.turnRunning, "turn/status", nativeTurnId, none, .snapshot⟩])
  | .turnCompleted nativeTurnId outcome error =>
    (m.clearAgentMessageState nativeTurnId,
      [⟨.turnCompleted outcome error, "turn/completed", nativeTurnId, none, .snapshot⟩,
        ⟨.turnIdle, "turn/status", nativeTurnId, none, .snapshot⟩])
  | .agentMessageDelta nativeTurnId itemId delta => m.mapAgentMessageDelta nativeTurnId itemId delta
  | .planDelta nativeTurnId itemId delta => m.mapTextDelta nativeTurnId itemId delta .commentary 0
  | .reasoningDelta nativeTurnId itemId delta partIndex =>
    m.mapTextDelta nativeTurnId itemId delta .reasoning partIndex
  | .patchUpdated nativeTurnId itemId changes =>
    (m, ⟨fileChangeStartedEvent support itemId changes false, "item/fileChange", nativeTurnId,
      some itemId, .snapshot⟩ ::
        fileChanges "item/fileChange/patchUpdated" nativeTurnId itemId changes)
  | .outputDelta nativeTurnId itemId outputPreview =>
    (m, [⟨.toolUpdated itemId outputPreview false, "item/command/outputDelta", nativeTurnId,
      some itemId, .live⟩])
  | .mcpProgress nativeTurnId itemId outputPreview =>
    (m, [⟨.toolUpdated itemId outputPreview false, "item/mcp/progress", nativeTurnId, some itemId,
      .live⟩])
  | .item nativeTurnId itemId item completed =>
    m.mapItem support nativeTurnId itemId completed item
  | .error nativeTurnId code message =>
    (m, [⟨.compatibilityNotice code message, "error", nativeTurnId, none, .live⟩])
  | .childTurnStarted ownerNativeTurnId child nativeChildTurnId =>
    (m, [⟨.childStarted child, "child/started", ownerNativeTurnId, some child.executionId,
      .childTurn nativeChildTurnId⟩])
  | .childTurnCompleted ownerNativeTurnId childExecutionId nativeChildTurnId outcome =>
    (m, [⟨.childCompleted childExecutionId outcome, "child/completed", ownerNativeTurnId,
      some childExecutionId, .childTurn nativeChildTurnId⟩])

end BlockMapper

/-! ## The session -/

/-- A change of a notification, what was made of it, and whether the session
let it through. -/
structure ToldChange (J ι : Type) where
  change : BlockChange J
  envelope : ProviderEventEnvelope J ι
  fresh : Bool
  deriving DecidableEq

/-- A session's mapper, the ids it has seen, the events it let through, in
order, and the changes these and the others were made of. -/
structure BlockSession (J ι : Type) where
  mapper : BlockMapper J
  eventLog : List ι
  events : List (ProviderEventEnvelope J ι)
  told : List (ToldChange J ι)

/-- The events of a notification as a session with a log sees them. -/
def screen {J ι : Type} [DecidableEq ι] :
    List ι → List (BlockChange J × ProviderEventEnvelope J ι) → List (ToldChange J ι)
  | _, [] => []
  | eventLog, (change, envelope) :: rest =>
    ⟨change, envelope, envelope.eventId ∉ eventLog⟩ ::
      screen (if envelope.eventId ∈ eventLog then eventLog else envelope.eventId :: eventLog) rest

namespace BlockSession

variable {J ι : Type} [DecidableEq J] [DecidableEq ι] (support : MapperSupport J ι)
  (s : BlockSession J ι)

/-- `emit`. -/
def emit (event : ProviderEventEnvelope J ι) : BlockSession J ι :=
  if event.eventId ∈ s.eventLog then s
  else { s with eventLog := event.eventId :: s.eventLog, events := s.events ++ [event] }

/-- The mapper after a notification, and what it told. -/
def mapped (notification : CodexNotification J) (fitting : DisplayFitting J) :
    BlockMapper J × Option (List (ToldChange J ι)) :=
  let (m, changes) := s.mapper.mapNotification support notification
  let (m, envelopes) := m.envelopes support fitting changes
  (m, envelopes.map fun envelopes => screen s.eventLog (changes.zip envelopes))

/-- `handleNotification`. -/
def handleNotification (notification : CodexNotification J) (fitting : DisplayFitting J) :
    BlockSession J ι :=
  let (m, told) := s.mapped support notification fitting
  let told := told.getD []
  { (told.map (·.envelope)).foldl emit { s with mapper := m } with told := s.told ++ told }

/-- What the events let through of a block carry. -/
def shown (key : BlockKey) : List (BlockState J) :=
  s.events.filterMap (·.event.carries key)

end BlockSession

/-- A child of an earlier session with its durable block. -/
structure RestoredChild where
  ownerNativeTurnId : String
  child : ChildExecutionDisplay
  executionState : ProviderExecutionState
  outcome : Option ProviderTurnOutcome
  summary : Option String
  state : TurnBlockState
  blockOrdinal : ℕ
  revision : ℕ
  deriving DecidableEq

/-- The key of the block of a restored child. -/
def RestoredChild.key (restored : RestoredChild) : BlockKey :=
  blockKey restored.ownerNativeTurnId (some restored.child.executionId) .nativeChild

/-- The block that a restored child is held by. -/
def RestoredChild.blockState (J : Type) (restored : RestoredChild) : BlockState J where
  place := ⟨restored.key, restored.blockOrdinal⟩
  block := ⟨restored.state,
    .nativeChild restored.child restored.executionState restored.outcome restored.summary⟩
  revision := restored.revision

/-- A session as it is opened, with the children it restores and the
ordinals that its turns go on with. -/
def BlockSession.opened (J ι : Type) (children : List RestoredChild)
    (nextOrdinalByTurn : Assoc String ℕ) : BlockSession J ι where
  mapper := {
    deltaOffsets := ∅
    agentMessageKinds := ∅
    pendingAgentMessageDeltas := ∅
    completedCompactionItems := []
    blocks := children.foldl (fun blocks restored =>
      blocks.insert restored.key (restored.blockState J)) ∅
    reasoningParts := ∅
    nextOrdinalByTurn := nextOrdinalByTurn
    liveSequence := 0 }
  eventLog := []
  events := []
  told := []

/-- The runs of a session: its notifications, each with how its events are
fitted. -/
def blockMachine {J ι : Type} [DecidableEq J] [DecidableEq ι] (support : MapperSupport J ι)
    (children : List RestoredChild) (nextOrdinalByTurn : Assoc String ℕ) :
    Machine (BlockSession J ι) (CodexNotification J × DisplayFitting J) where
  init := .opened J ι children nextOrdinalByTurn
  step s a := some (s.handleNotification support a.1 a.2)

end Providers

end Remux
