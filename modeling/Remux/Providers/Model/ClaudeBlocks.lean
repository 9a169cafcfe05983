import Mathlib.Data.List.Sort
import Remux.Common.Assoc
import Remux.Common.Machine

/-!
# The content blocks of a Claude turn

A native assistant message is streamed block by block, each under its index,
and then finalised by assistant messages that carry its blocks without one.
`ClaudeProviderSession` keeps, for each message, the blocks it saw streamed,
and finds for a finalised one the block that it completes.

It is modelled as far as it maps the text, the thinking and the tool calls
of the messages of one turn, and the results of the calls. The background
tasks and the changed files are left out; a call's title and preview are
made of its name and input, which stand for them. What a text is fitted to
is a parameter, as are the parser of a call's input and its digest.
-/

namespace Remux

namespace Providers

namespace Claude

/-- `ClaudeAssistantBlockKind`, and the kind of a tool's block. -/
inductive BlockKind where
  | reasoningSummary
  | finalMessage
  | tool
  deriving DecidableEq

/-- The text that stands for a kind where an item has no id. -/
def BlockKind.text : BlockKind → String
  | .reasoningSummary => "reasoning-summary"
  | .finalMessage => "final-message"
  | .tool => "tool"

/-- `ClaudeAssistantBlockRef`. -/
structure AssistantBlockRef where
  kind : BlockKind
  itemId : String
  blockIndex : ℕ
  deriving DecidableEq

/-- `blockKey` within the turn; the block's id is a digest of it, and the
pass's id one of its message. -/
structure BlockKey where
  messageId : String
  itemId : String
  kind : BlockKind
  deriving DecidableEq

/-- `TurnStructure`. -/
structure TurnStructure where
  blockId : BlockKey
  passOrdinal : ℕ
  blockOrdinal : ℕ
  deriving DecidableEq

/-- `TurnBlockState`. -/
inductive TurnBlockState where
  | running
  | streaming
  | completed
  | failed
  deriving DecidableEq

/-- `TurnBlockPayload`. -/
inductive TurnBlockPayload (J : Type) where
  | reasoning (text : String) (truncated : Bool)
  | message (text : String)
  | tool (callId name : String) (input output : Option J)
  deriving DecidableEq

namespace TurnBlockPayload

variable {J : Type}

/-- The kind of a payload's block. -/
def kind : TurnBlockPayload J → BlockKind
  | .reasoning _ _ => .reasoningSummary
  | .message _ => .finalMessage
  | .tool .. => .tool

/-- The text of a payload that has one. -/
def text : TurnBlockPayload J → String
  | .reasoning text _ => text
  | .message text => text
  | .tool .. => ""

/-- The call that a payload is about. -/
def callId : TurnBlockPayload J → Option String
  | .tool callId _ _ _ => some callId
  | _ => none

end TurnBlockPayload

/-- `ClaudeBlockState`. -/
structure BlockState (J : Type) where
  place : TurnStructure
  payload : TurnBlockPayload J
  state : TurnBlockState
  revision : ℕ
  deriving DecidableEq

/-- `ClaudeToolState`; the digest of the input stands with it. -/
structure ToolState (J : Type) where
  name : String
  input : Option J
  partialInputJson : Option String
  deriving DecidableEq

/-- What texts are fitted to, and how inputs are parsed and digested. A text
that does not pass is none; one that is cut says so. -/
structure Support (J : Type) where
  fit : BlockKind → String → Option (String × Bool)
  parse : String → Option J
  hashJson : J → String

/-- What the session holds of content blocks. -/
structure Mapper (J : Type) where
  currentMessageId : Option String
  lastAssistantMessageId : Option String
  assistantBlocksByMessage : Assoc String (List AssistantBlockRef)
  toolByMessageBlock : Assoc (String × ℕ) String
  tools : Assoc String (ToolState J)
  toolBlockKey : Assoc String BlockKey
  passOrdinals : Assoc String ℕ
  blocks : Assoc BlockKey (BlockState J)

/-- A content block, as it is streamed or finalised. -/
inductive ContentBlock (J : Type) where
  | text (text : String)
  | thinking (thinking : String)
  | toolUse (callId name : String) (input : J)
  deriving DecidableEq

/-- The item of a streamed text. -/
def contentId (blockIndex : ℕ) : String := "content-" ++ toString blockIndex

/-- The first number from a given one on that is not occupied. -/
def firstFree (occupied : List ℕ) (n : ℕ) : ℕ :=
  ((List.range' n (occupied.length + 1)).find? (· ∉ occupied)).getD n

namespace Mapper

variable {J : Type} (support : Support J) (m : Mapper J)

/-! ## Blocks -/

/-- The message that keys are of. -/
def messageId : String := (m.currentMessageId.or m.lastAssistantMessageId).getD "native"

/-- `blockKey`: an item without an id goes by its kind. -/
def blockKey (itemId : Option String) (kind : BlockKind) : BlockKey :=
  ⟨m.messageId, itemId.getD kind.text, kind⟩

/-- `findBlock`. -/
def findBlock (itemId : Option String) (kind : BlockKind) : Option (BlockState J) :=
  m.blocks.lookup (m.blockKey itemId kind)

/-- The ordinals of a pass that are taken. -/
def occupiedOrdinals (messageId : String) : List ℕ :=
  (m.blocks.entries.filter (·.2.place.blockId.messageId = messageId)).map (·.2.place.blockOrdinal)

/-- `structure`. -/
def structureOf (itemId : Option String) (kind : BlockKind) (blockIndex : Option ℕ) :
    TurnStructure where
  blockId := m.blockKey itemId kind
  passOrdinal := (m.passOrdinals.lookup m.messageId).getD m.passOrdinals.size
  blockOrdinal := firstFree (m.occupiedOrdinals m.messageId) (blockIndex.getD 0)

/-- `commitBlockEvent`. -/
def commitBlockEvent (b : BlockState J) (itemId : Option String) : Mapper J :=
  let existingKey :=
    (m.blocks.entries.find? (·.2.place.blockId = b.place.blockId)).map (·.1)
  let key := existingKey.getD (m.blockKey (b.payload.callId.or itemId) b.payload.kind)
  { m with
    blocks := m.blocks.insert key b
    toolBlockKey :=
      match b.payload.callId with
      | some callId => m.toolBlockKey.insert callId key
      | none => m.toolBlockKey
    passOrdinals := m.passOrdinals.insert m.messageId b.place.passOrdinal }

/-- `blockEvent`, committed. -/
def emitBlock (key : BlockKey) (itemId : Option String) (blockIndex : Option ℕ)
    (payload : TurnBlockPayload J) (state : TurnBlockState) (completed : Bool) : Mapper J :=
  match m.blocks.lookup key with
  | some previous =>
    m.commitBlockEvent ⟨previous.place, payload, state, previous.revision + 1⟩ itemId
  | none =>
    m.commitBlockEvent ⟨m.structureOf itemId payload.kind blockIndex, payload, state,
      if completed then 1 else 0⟩ itemId

/-- A text as it is shown in a block of a kind. -/
def textPayload (kind : BlockKind) (text : String) : Option (TurnBlockPayload J) :=
  (support.fit kind text).map fun fitted =>
    match kind with
    | .reasoningSummary => .reasoning fitted.1 fitted.2
    | _ => .message fitted.1

/-- `assistant.reasoning` and `assistant.text`: a delta goes on with the
text of the block, unless that was cut, and a finalised text replaces it. -/
def emitText (kind : BlockKind) (itemId : Option String) (blockIndex : Option ℕ) (text : String)
    (completed : Bool) : Option (Mapper J) :=
  let key := m.blockKey itemId kind
  let previous : Option (TurnBlockPayload J) := (m.findBlock itemId kind).map (·.payload)
  if completed then
    (textPayload support kind text).map fun payload =>
      m.emitBlock key itemId blockIndex payload .completed true
  else
    match previous with
    | some (.reasoning shown true) =>
      some (m.emitBlock key itemId blockIndex (.reasoning shown true) .streaming false)
    | previous =>
      (textPayload support kind ((previous.map (·.text)).getD "" ++ text)).map fun payload =>
        m.emitBlock key itemId blockIndex payload .streaming false

/-- `completeBlock`. -/
def completeBlock (itemId : Option String) : Mapper J :=
  match (m.findBlock itemId .reasoningSummary).or (m.findBlock itemId .finalMessage) with
  | none => m
  | some previous =>
    m.commitBlockEvent { previous with state := .completed, revision := previous.revision + 1 }
      itemId

/-- `tool.started`. -/
def emitToolStarted (callId name : String) (input : Option J) (blockIndex : ℕ) : Mapper J :=
  m.emitBlock (m.blockKey (some callId) .tool) (some callId) (some blockIndex)
    (.tool callId name input none) .running false

/-- `tool.updated` and `tool.completed`: what they do not say is kept. -/
def emitToolUpdated (callId : String) (name : Option String) (input output : Option J)
    (blockIndex : Option ℕ) (state : TurnBlockState) (completed : Bool) : Mapper J :=
  let key := (m.toolBlockKey.lookup callId).getD (m.blockKey (some callId) .tool)
  let payload :=
    match (m.blocks.lookup key).map (·.payload) with
    | some (.tool callId' name' input' output') =>
      .tool callId' (name.getD name') (input.or input') (output.or output')
    | _ =>
      .tool callId (name.getD (((m.tools.lookup callId).map (·.name)).getD "tool")) input output
  m.emitBlock key (some callId) blockIndex payload state completed

/-! ## Streaming -/

/-- `streamedAssistantBlock`, with a message known. -/
def streamedAssistantBlock (kind : BlockKind) (blockIndex : ℕ) : Mapper J × AssistantBlockRef :=
  let blocks := (m.assistantBlocksByMessage.lookup m.messageId).getD []
  match blocks.find? (·.blockIndex = blockIndex) with
  | some existing => (m, existing)
  | none =>
    let block : AssistantBlockRef := ⟨kind, contentId blockIndex, blockIndex⟩
    let sorted := (blocks ++ [block]).insertionSort fun left right =>
      left.blockIndex ≤ right.blockIndex
    ({ m with assistantBlocksByMessage := m.assistantBlocksByMessage.insert m.messageId sorted },
      block)

/-- `assistantBlockAt`. -/
def assistantBlockAt (messageId : String) (blockIndex : ℕ) : Option AssistantBlockRef :=
  ((m.assistantBlocksByMessage.lookup messageId).getD []).find? (·.blockIndex = blockIndex)

/-- `message_start`. -/
def messageStart (nativeMessageId : String) : Mapper J :=
  let blocks := (m.assistantBlocksByMessage.lookup nativeMessageId).getD []
  { m with
    currentMessageId := some nativeMessageId
    lastAssistantMessageId := some nativeMessageId
    assistantBlocksByMessage := m.assistantBlocksByMessage.insert nativeMessageId blocks }

/-- `message_stop`. -/
def messageStop : Mapper J := { m with currentMessageId := none }

/-- A text or a part of one is streamed. -/
def streamText (kind : BlockKind) (blockIndex : ℕ) (text : String) : Option (Mapper J) :=
  let (m, blockRef) := m.streamedAssistantBlock kind blockIndex
  if text = "" then some m
  else m.emitText support kind (some blockRef.itemId) (some blockRef.blockIndex) text false

/-- `content_block_start`. -/
def contentBlockStart (blockIndex : ℕ) : ContentBlock (Option J) → Option (Mapper J)
  | .text text => m.streamText support .finalMessage blockIndex text
  | .thinking thinking => m.streamText support .reasoningSummary blockIndex thinking
  | .toolUse callId name input =>
    if callId = "" ∨ name = "" then some m
    else
      let started : Mapper J := { m with
        tools := m.tools.insert callId ⟨name, input, none⟩
        toolByMessageBlock :=
          match m.currentMessageId with
          | some messageId => m.toolByMessageBlock.insert (messageId, blockIndex) callId
          | none => m.toolByMessageBlock }
      some (started.emitToolStarted callId name input blockIndex)

/-- `finalizeToolInput`. -/
def finalizeToolInput (callId : String) (blockIndex : ℕ) (requireComplete : Bool) : Mapper J :=
  match m.tools.lookup callId with
  | none => m
  | some tool =>
    match tool.partialInputJson with
    | none => m
    | some partialInputJson =>
      match support.parse partialInputJson with
      | none =>
        if requireComplete then
          { m with tools := m.tools.insert callId { tool with partialInputJson := none } }
        else m
      | some input =>
        if tool.input.map support.hashJson = some (support.hashJson input) then m
        else
          let parsed : Mapper J :=
            { m with tools := m.tools.insert callId ⟨tool.name, some input, none⟩ }
          parsed.emitToolUpdated callId (some tool.name) (some input) none (some blockIndex)
            .running false

/-- `content_block_stop`. -/
def contentBlockStop (blockIndex : ℕ) : Mapper J :=
  let m :=
    match m.toolByMessageBlock.lookup (m.messageId, blockIndex) with
    | some callId => m.finalizeToolInput support callId blockIndex true
    | none => m
  m.completeBlock ((m.assistantBlockAt m.messageId blockIndex).map (·.itemId))

/-- An `input_json_delta`. -/
def inputJsonDelta (blockIndex : ℕ) (partialJson : String) : Mapper J :=
  match m.toolByMessageBlock.lookup (m.messageId, blockIndex) with
  | none => m
  | some callId =>
    match m.tools.lookup callId with
    | none => m
    | some tool =>
      if partialJson = "" then m
      else
        let json := tool.partialInputJson.getD "" ++ partialJson
        let grown : Mapper J :=
          { m with tools := m.tools.insert callId { tool with partialInputJson := some json } }
        grown.finalizeToolInput support callId blockIndex false

/-! ## Finalising -/

/-- `snapshotAssistantBlock`: the first streamed block of the kind that shows
the text, or the one in the same position among those of the kind. -/
def snapshotAssistantBlock (kind : BlockKind) (semanticOrdinal snapshotBlockIndex : ℕ)
    (text : String) : Mapper J × AssistantBlockRef :=
  let blocks := (m.assistantBlocksByMessage.lookup m.messageId).getD []
  let streamed := blocks.filter (·.kind = kind)
  let byContent := streamed.find? fun block =>
    ((m.findBlock (some block.itemId) kind).map (·.payload.text)).getD "" = text
  match byContent.or streamed[semanticOrdinal]? with
  | some existing => (m, existing)
  | none =>
    let block : AssistantBlockRef :=
      ⟨kind, "snapshot-" ++ kind.text ++ "-" ++ toString semanticOrdinal, snapshotBlockIndex⟩
    ({ m with assistantBlocksByMessage :=
        m.assistantBlocksByMessage.insert m.messageId (blocks ++ [block]) }, block)

/-- A text of an assistant message, with the item that it is written to. -/
def finaliseText (kind : BlockKind) (semanticOrdinal snapshotBlockIndex : ℕ) (text : String) :
    Option (Mapper J × Option String) :=
  let (m, blockRef) := m.snapshotAssistantBlock kind semanticOrdinal snapshotBlockIndex text
  if text = "" then some (m, none)
  else
    (m.emitText support kind (some blockRef.itemId) (some blockRef.blockIndex) text true).map
      fun m => (m, some blockRef.itemId)

/-- A call of an assistant message. -/
def finaliseTool (callId name : String) (input : J) (snapshotBlockIndex : ℕ) : Mapper J :=
  if callId = "" ∨ name = "" then m
  else
    match m.tools.lookup callId with
    | some existing =>
      let updated : Mapper J :=
        { m with tools := m.tools.insert callId { existing with name, input := some input } }
      updated.emitToolUpdated callId (some name) (some input) none (some snapshotBlockIndex)
        .running false
    | none =>
      let started : Mapper J := { m with tools := m.tools.insert callId ⟨name, some input, none⟩ }
      started.emitToolStarted callId name (some input) snapshotBlockIndex

/-- The content of an assistant message, from a position on, with how many
texts and thinkings came before it. The items that the texts were written
to come with it, in order. -/
def finalise (texts thinkings : ℕ) : Mapper J → ℕ → List (ContentBlock J) →
    Option (Mapper J × List (Option String))
  | m, _, [] => some (m, [])
  | m, position, .text text :: rest =>
    (m.finaliseText support .finalMessage texts position text).bind fun written =>
      (finalise (texts + 1) thinkings written.1 (position + 1) rest).map fun later =>
        (later.1, written.2 :: later.2)
  | m, position, .thinking thinking :: rest =>
    (m.finaliseText support .reasoningSummary thinkings position thinking).bind fun written =>
      (finalise texts (thinkings + 1) written.1 (position + 1) rest).map fun later =>
        (later.1, written.2 :: later.2)
  | m, position, .toolUse callId name input :: rest =>
    (finalise texts thinkings (m.finaliseTool callId name input position) (position + 1) rest).map
      fun later => (later.1, none :: later.2)

/-- `handleAssistantMessage`. -/
def handleAssistantMessage (nativeMessageId : String) (content : List (ContentBlock J)) :
    Option (Mapper J × List (Option String)) :=
  let named : Mapper J := { m with
    currentMessageId := some nativeMessageId
    lastAssistantMessageId := some nativeMessageId }
  (named.finalise support 0 0 0 content).map fun finalised =>
    ({ finalised.1 with currentMessageId := m.currentMessageId }, finalised.2)

/-- `handleUserMessage`, of one result. -/
def toolResult (callId : String) (output : J) (failed : Bool) : Mapper J :=
  if (m.tools.lookup callId).isNone then m
  else
    let updated := m.emitToolUpdated callId none none (some output) none .running false
    updated.emitToolUpdated callId none none none none (if failed then .failed else .completed) true

end Mapper

/-! ## The messages of a turn -/

/-- What a native message is made of, once it is finalised: the kind that its
text is shown under, and the text. -/
def ContentBlock.shownText {J : Type} : ContentBlock J → Option (BlockKind × String)
  | .text shown => some (.finalMessage, shown)
  | .thinking shown => some (.reasoningSummary, shown)
  | .toolUse _ _ _ => none

/-- **The messages of a turn**, with the blocks of each. Calls have names and
ids of their own. -/
structure Messages (J : Type) where
  content : String → List (ContentBlock J)
  named : ∀ (id callId name : String) (input : J),
    ContentBlock.toolUse callId name input ∈ content id → callId ≠ "" ∧ name ≠ ""
  calls : ∀ (id : String) (i : ℕ) (id' : String) (i' : ℕ) (callId name : String) (input : J)
    (name' : String) (input' : J),
    (content id)[i]? = some (ContentBlock.toolUse callId name input) →
      (content id')[i']? = some (ContentBlock.toolUse callId name' input') → id = id' ∧ i = i'

/-- A session in a turn: how many blocks of each message were streamed and
finalised, what was streamed of the text of each, and which item each
finalised text was written to. -/
structure Turn (J : Type) where
  mapper : Mapper J
  started : Assoc String ℕ
  finalised : Assoc String ℕ
  streamed : Assoc (String × ℕ) String
  writes : List (String × ℕ × String)

/-- What the SDK emits of the messages. -/
inductive Action (J : Type) where
  | messageStart (id : String)
  | messageStop
  /-- The next block of the message starts, with a first part of its text or
  of its input. -/
  | blockStart (text : String) (input : Option J)
  | delta (index : ℕ) (text : String)
  | inputDelta (index : ℕ) (partialJson : String)
  | blockStop (index : ℕ)
  /-- An assistant message with the next blocks of a message. -/
  | assistant (id : String) (count : ℕ)
  | toolResult (callId : String) (output : J) (failed : Bool)

namespace Turn

variable {J : Type} (support : Support J) (messages : Messages J) (s : Turn J)

/-- How many blocks of a message were streamed. -/
def startedOf (id : String) : ℕ := (s.started.lookup id).getD 0

/-- How many were finalised. -/
def finalisedOf (id : String) : ℕ := (s.finalised.lookup id).getD 0

/-- What was streamed of a text. -/
def streamedOf (id : String) (index : ℕ) : String := (s.streamed.lookup (id, index)).getD ""

/-- The block of a message that is being streamed. -/
def streaming (index : ℕ) : Option (String × ContentBlock J) :=
  s.mapper.currentMessageId.bind fun id =>
    if index < s.startedOf id then ((messages.content id)[index]?).map fun block => (id, block)
    else none

/-- The blocks that an assistant message carries. -/
def carried (id : String) (count : ℕ) : List (ContentBlock J) :=
  ((messages.content id).drop (s.finalisedOf id)).take count

/-- The start of a block, with what is there of it. -/
def startOf (text : String) (input : Option J) : ContentBlock J → ContentBlock (Option J)
  | .text _ => .text text
  | .thinking _ => .thinking text
  | .toolUse callId name _ => .toolUse callId name input

/-- What an event of the SDK does. -/
def turnStep : Action J → Option (Turn J)
  | .messageStart id => some { s with mapper := s.mapper.messageStart id }
  | .messageStop => some { s with mapper := s.mapper.messageStop }
  | .blockStart text input =>
    s.mapper.currentMessageId.bind fun id =>
      ((messages.content id)[s.startedOf id]?).bind fun block =>
        (s.mapper.contentBlockStart support (s.startedOf id) (startOf text input block)).map
          fun mapper => { s with
            mapper
            started := s.started.insert id (s.startedOf id + 1)
            streamed :=
              if block.shownText.isSome then s.streamed.insert (id, s.startedOf id) text
              else s.streamed }
  | .delta index text =>
    (s.streaming messages index).bind fun block =>
      block.2.shownText.bind fun shown =>
        (s.mapper.streamText support shown.1 index text).map fun mapper => { s with
          mapper
          streamed := s.streamed.insert (block.1, index) (s.streamedOf block.1 index ++ text) }
  | .inputDelta index partialJson =>
    (s.streaming messages index).map fun _ =>
      { s with mapper := s.mapper.inputJsonDelta support index partialJson }
  | .blockStop index =>
    (s.streaming messages index).map fun _ =>
      { s with mapper := s.mapper.contentBlockStop support index }
  | .assistant id count =>
    if s.finalisedOf id + count ≤ s.startedOf id then
      (s.mapper.handleAssistantMessage support id (s.carried messages id count)).map
        fun finalised => { s with
          mapper := finalised.1
          finalised := s.finalised.insert id (s.finalisedOf id + count)
          writes := s.writes ++ (finalised.2.mapIdx fun i item =>
            item.toList.map fun itemId => (id, s.finalisedOf id + i, itemId)).flatten }
    else none
  | .toolResult callId output failed =>
    some { s with mapper := s.mapper.toolResult callId output failed }

/-- A turn in which nothing was streamed. -/
def empty (J : Type) : Turn J where
  mapper := {
    currentMessageId := none
    lastAssistantMessageId := none
    assistantBlocksByMessage := ∅
    toolByMessageBlock := ∅
    tools := ∅
    toolBlockKey := ∅
    passOrdinals := ∅
    blocks := ∅ }
  started := ∅
  finalised := ∅
  streamed := ∅
  writes := []

end Turn

/-- The runs of a turn. -/
def turnMachine {J : Type} (support : Support J) (messages : Messages J) :
    Machine (Turn J) (Action J) where
  init := .empty J
  step s := s.turnStep support messages

end Claude

end Providers

end Remux
