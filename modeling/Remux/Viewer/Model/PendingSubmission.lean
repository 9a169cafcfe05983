import Remux.Journal.Model.Kinds
import Remux.Json.Model.Value

/-!
# The record of a pending message

`pendingMessageSubmission.ts` of the viewer: what is kept of a message in
the session's storage until the server has answered for it, how the record
is written and how it is read back. A message that is ready to be sent is
written without its parts, which stand in the record once, under what was
submitted.

Of JSON the values are modelled and not the text. An optional field of an
object that is undefined is `none`.
-/

namespace Remux

open Value

/-- `'file' | 'directory'`. -/
inductive MentionKind where
  | file
  | directory
  deriving DecidableEq

/-- The text of a mention's kind. -/
def MentionKind.text : MentionKind → String
  | file => "file"
  | directory => "directory"

/-- `AgentComposerMessagePart`. -/
inductive ComposerPart where
  | text (text : String)
  | mention (path : String) (kind : Option MentionKind) (name : Option (Option String))
  | image (dataUrl : String) (mimeType name : Option (Option String))
  deriving DecidableEq

/-- `'auto' | 'queue' | 'steer'`. -/
inductive SubmissionDelivery where
  | auto
  | queue
  | steer
  deriving DecidableEq

/-- The text of a delivery. -/
def SubmissionDelivery.text : SubmissionDelivery → String
  | auto => "auto"
  | queue => "queue"
  | steer => "steer"

/-- What `validConfiguration` looks at, in each of the objects. -/
structure SubmissionConfiguration where
  providerInstanceId : String
  reasoning : Option String
  serviceTier : Option String
  access : Access
  deriving DecidableEq

/-- `TurnSubmissionInput`. -/
structure TurnSubmissionInput where
  configuration : SubmissionConfiguration
  configurationRevision : Option String
  delivery : SubmissionDelivery
  displayText : String
  modelId : String
  parts : List ComposerPart
  deriving DecidableEq

/-- `PendingMessageSubmission['create']`, the parameters of
`createConversation`. -/
structure CreateConversation where
  operationId : String
  cwd : String
  nativeModelId : String
  configuration : SubmissionConfiguration
  deriving DecidableEq

/-- `PendingMessageSubmission['message']`, the parameters of
`sendMessage`. -/
structure SendMessage where
  operationId : String
  clientMessageId : String
  conversationId : String
  parts : List ComposerPart
  nativeModelId : String
  configuration : SubmissionConfiguration
  configurationRevision : String
  delivery : SubmissionDelivery
  deriving DecidableEq

/-- The fields `source`, `draftId` and `create`: the latter two are null
for an existing conversation, and for a new one the last is not. -/
inductive SubmissionSource where
  | newChat (draftId : Option String) (create : CreateConversation)
  | existingConversation
  deriving DecidableEq

/-- The field `draftId`. -/
def SubmissionSource.draftId : SubmissionSource → Option String
  | newChat draftId _ => draftId
  | existingConversation => none

/-- `PendingMessageSubmission`, the record that is stored. -/
structure PendingMessageSubmission where
  source : SubmissionSource
  snapshotKey : String
  original : TurnSubmissionInput
  messageOperationId : String
  clientMessageId : String
  conversationId : Option String
  message : Option SendMessage
  deriving DecidableEq

/-! ## Writing -/

/-- A string or null. -/
def nullable : Option String → Value
  | none => .null
  | some s => .string s

/-- The entry of an optional field. -/
def definedEntry (key : String) (field : Option Value) : List (String × Value) :=
  (field.map fun value => (key, value)).toList

namespace ComposerPart

/-- A part, as it is written. -/
def serialize : ComposerPart → Value
  | text content => .object [("type", .string "text"), ("text", .string content)]
  | mention path kind name =>
    .object ([("type", .string "mention"), ("path", .string path)] ++
      definedEntry "kind" (kind.map fun kind => .string kind.text) ++
      definedEntry "name" (name.map nullable))
  | image dataUrl mimeType name =>
    .object ([("type", .string "image"), ("dataUrl", .string dataUrl)] ++
      definedEntry "mimeType" (mimeType.map nullable) ++
      definedEntry "name" (name.map nullable))

end ComposerPart

namespace SubmissionConfiguration

/-- The fields of a configuration, as they are written. -/
def entries (configuration : SubmissionConfiguration) : List (String × Value) :=
  [("providerInstanceId", .string configuration.providerInstanceId),
    ("reasoning", nullable configuration.reasoning),
    ("serviceTier", nullable configuration.serviceTier),
    ("access", .string configuration.access.text)]

end SubmissionConfiguration

/-- A submission's input, as it is written. -/
def TurnSubmissionInput.serialize (input : TurnSubmissionInput) : Value :=
  .object (input.configuration.entries ++
    [("configurationRevision", nullable input.configurationRevision),
      ("delivery", .string input.delivery.text),
      ("displayText", .string input.displayText),
      ("modelId", .string input.modelId),
      ("parts", .array (input.parts.map ComposerPart.serialize))])

/-- A `createConversation` command, as it is written. -/
def CreateConversation.serialize (create : CreateConversation) : Value :=
  .object (create.configuration.entries ++ [("operationId", .string create.operationId),
      ("cwd", .string create.cwd),
      ("nativeModelId", .string create.nativeModelId)])

/-- A message is written with `parts: undefined`. -/
def SendMessage.serialize (message : SendMessage) : Value :=
  .object (message.configuration.entries ++ [("operationId", .string message.operationId),
      ("clientMessageId", .string message.clientMessageId),
      ("conversationId", .string message.conversationId),
      ("nativeModelId", .string message.nativeModelId),
      ("configurationRevision", .string message.configurationRevision),
      ("delivery", .string message.delivery.text)])

/-- The fields that tell where a submission came from. -/
def SubmissionSource.entries : SubmissionSource → List (String × Value)
  | newChat draftId create =>
    [("source", .string "new-chat"), ("draftId", nullable draftId), ("create", create.serialize)]
  | existingConversation =>
    [("source", .string "existing-conversation"), ("draftId", .null), ("create", .null)]

/-! ## Reading -/

/-- `nonempty`. -/
def nonempty (value : Option Value) : Option String := (value.bind asStr).filter (· ≠ "")

/-- `nullableString`. -/
def nullableString : Option Value → Option (Option String)
  | some .null => some none
  | some (.string s) => some (some s)
  | _ => none

/-- A field that may be undefined. -/
def undefinedOr {α : Type} (read : Option Value → Option α) : Option Value → Option (Option α)
  | none => some none
  | some value => (read (some value)).map some

/-- `validAccess`. -/
def validAccess (value : Option Value) : Option Access :=
  (value.bind asStr).bind fun s =>
    if s = "read-only" then some .readOnly
    else if s = "workspace-write" then some .workspaceWrite
    else if s = "full-access" then some .fullAccess
    else none

/-- `validDelivery`. -/
def validDelivery (value : Option Value) : Option SubmissionDelivery :=
  (value.bind asStr).bind fun s =>
    if s = "auto" then some .auto
    else if s = "queue" then some .queue
    else if s = "steer" then some .steer
    else none

/-- `validConfiguration`. -/
def validConfiguration (value : Value) : Option SubmissionConfiguration := do
  let providerInstanceId ← nonempty (value.get "providerInstanceId")
  let reasoning ← nullableString (value.get "reasoning")
  let access ← validAccess (value.get "access")
  let serviceTier ← nullableString (value.get "serviceTier")
  return { providerInstanceId, reasoning, serviceTier, access }

/-- The kind of a mention. -/
def mentionKind (value : Option Value) : Option MentionKind :=
  (value.bind asStr).bind fun s =>
    if s = "file" then some .file else if s = "directory" then some .directory else none

/-- `validParts`, for one part. -/
def validPart (part : Value) : Option ComposerPart := do
  let type ← (part.get "type").bind asStr
  if type = "text" then
    let text ← (part.get "text").bind asStr
    return .text text
  let name ← undefinedOr nullableString (part.get "name")
  if type = "mention" then
    let path ← (part.get "path").bind asStr
    let kind ← undefinedOr mentionKind (part.get "kind")
    return .mention path kind name
  let mimeType ← undefinedOr nullableString (part.get "mimeType")
  guard (type = "image")
  let dataUrl ← (part.get "dataUrl").bind asStr
  guard (dataUrl.startsWith "data:image/")
  return .image dataUrl mimeType name

/-- `Array.isArray(value.original.parts) && validParts(value.original.parts)`. -/
def validParts : Option Value → Option (List ComposerPart)
  | some (.array parts) => parts.mapM validPart
  | _ => none

namespace PendingMessageSubmission

/-- `parseRecord` on the field `original`. -/
def parseOriginal (original : Value) : Option TurnSubmissionInput := do
  let configuration ← validConfiguration original
  let parts ← validParts (original.get "parts")
  let modelId ← nonempty (original.get "modelId")
  let displayText ← (original.get "displayText").bind asStr
  let configurationRevision ← nullableString (original.get "configurationRevision")
  let delivery ← validDelivery (original.get "delivery")
  return { configuration, configurationRevision, delivery, displayText, modelId, parts }

/-- `parseRecord` on the field `create` of a new chat. -/
def parseCreate (create : Value) : Option CreateConversation := do
  let operationId ← nonempty (create.get "operationId")
  let cwd ← nonempty (create.get "cwd")
  let nativeModelId ← nonempty (create.get "nativeModelId")
  let configuration ← validConfiguration create
  return { operationId, cwd, nativeModelId, configuration }

/-- `parseRecord` on the field `source`, and on the fields that depend on
it. A record without one is of a new chat. -/
def parseSource (value : Value) (draftId conversationId : Option String) :
    Option SubmissionSource :=
  match value.get "source" with
  | none => newChat
  | some (.string source) =>
    if source = "new-chat" then newChat
    else if source = "existing-conversation" then
      match value.get "create", conversationId.filter (· ≠ ""), draftId, value.get "message" with
      | some .null, some _, none, some (.object _) => some .existingConversation
      | _, _, _, _ => none
    else none
  | _ => none
where
  newChat : Option SubmissionSource :=
    ((value.get "create").bind parseCreate).map (.newChat draftId)

/-- `parseRecord` on the field `message`, when it is not null: its ids are
those of the record, and its parts are those that were submitted. -/
def parseMessage (message : Value) (messageOperationId clientMessageId : String)
    (conversationId : Option String) (parts : List ComposerPart) : Option SendMessage := do
  let configuration ← validConfiguration message
  let nativeModelId ← nonempty (message.get "nativeModelId")
  let messageConversationId ← nonempty (message.get "conversationId")
  guard (some messageConversationId = conversationId)
  guard ((message.get "operationId").bind asStr = some messageOperationId)
  guard ((message.get "clientMessageId").bind asStr = some clientMessageId)
  let configurationRevision ← nonempty (message.get "configurationRevision")
  let delivery ← validDelivery (message.get "delivery")
  return {
    operationId := messageOperationId
    clientMessageId
    conversationId := messageConversationId
    parts
    nativeModelId
    configuration
    configurationRevision
    delivery }

/-- `parseRecord` on the field `message`. -/
def messageOrNull (message : Option Value) (messageOperationId clientMessageId : String)
    (conversationId : Option String) (parts : List ComposerPart) : Option (Option SendMessage) :=
  match message with
  | none => none
  | some .null => some none
  | some message =>
    (parseMessage message messageOperationId clientMessageId conversationId parts).map some

/-- `value.version === 1`. -/
def isOne : Option Value → Bool
  | some (.number (.posInt n)) => n = 1
  | _ => false

/-- `parseRecord`, of text that was parsed. -/
def parseRecord (value : Value) : Option PendingMessageSubmission := do
  guard (isOne (value.get "version"))
  let draftId ← nullableString (value.get "draftId")
  let snapshotKey ← nonempty (value.get "snapshotKey")
  let original ← (value.get "original").bind parseOriginal
  let messageOperationId ← nonempty (value.get "messageOperationId")
  let clientMessageId ← nonempty (value.get "clientMessageId")
  let conversationId ← nullableString (value.get "conversationId")
  let source ← parseSource value draftId conversationId
  let message ← messageOrNull (value.get "message") messageOperationId clientMessageId
    conversationId original.parts
  return { source, snapshotKey, original, messageOperationId, clientMessageId, conversationId,
           message }

/-- What `persistPendingMessageSubmission` writes. -/
def serialize (record : PendingMessageSubmission) : Value :=
  .object (record.source.entries ++ [("version", .number (.posInt 1)),
      ("snapshotKey", .string record.snapshotKey),
      ("original", record.original.serialize),
      ("messageOperationId", .string record.messageOperationId),
      ("clientMessageId", .string record.clientMessageId),
      ("conversationId", nullable record.conversationId),
      ("message", (record.message.map SendMessage.serialize).getD .null)])

/-- `ownerOperationId`. -/
def ownerOperationId (record : PendingMessageSubmission) : String :=
  match record.source with
  | .existingConversation => record.messageOperationId
  | .newChat _ create => create.operationId

end PendingMessageSubmission

end Remux
