import Remux.Common.Assoc
import Remux.Common.Machine
import Remux.Viewer.Model.PendingSubmission

/-!
# Sending a message, and sending it again

The part of `useConversationActions.ts` that takes a message from the
composer to the server. A submission is stored before anything is asked of
the server, and a recovery takes it from wherever the stored record stands:
it creates the conversation, attaches it, freezes the message, asks for the
receipt of the message and sends it. Between two awaits of a recovery
anything else may happen; the page may be loaded again, which ends every
recovery and leaves the storage.

What the server answers, whether there is room in the storage and what is
selected are given with the actions. A submission is known by its number
among all that were stored, which only the log and the statements look at.
-/

namespace Remux

/-- An id of a conversation, as the server and the navigation give it. -/
abbrev ConversationId := {id : String // id ≠ ""}

/-- What is selected: a conversation or the draft of a new one. -/
inductive Focus where
  | conversation (id : ConversationId)
  | draft (id : String)
  deriving DecidableEq

namespace Focus

/-- `activeConversationIdRef.current`. -/
def conversationId : Focus → Option String
  | conversation id => some id.val
  | draft _ => none

/-- `activeDraftIdRef.current`. -/
def draftId : Focus → Option String
  | conversation _ => none
  | draft id => some id

end Focus

/-- `submissionMatchesTarget`. -/
def submissionMatchesTarget (record : PendingMessageSubmission) (target : Focus) : Bool :=
  match record.source with
  | .existingConversation =>
    target.conversationId.isSome && record.conversationId = target.conversationId
  | .newChat draftId _ =>
    (target.conversationId.isSome && record.conversationId = target.conversationId) ||
      (target.conversationId.isNone && draftId = target.draftId)

/-- The kinds of a command whose receipt is read. -/
inductive CommandKind where
  | conversationCreate
  | turnSend
  deriving DecidableEq

/-- The result of a message that was accepted, as far as a recovery looks at
it. -/
structure SendResult where
  deliveryError : Option String
  deriving DecidableEq

/-- `NativeCommandReadResult`. -/
inductive CommandRead where
  | missing
  | received
  | dispatching
  | created (conversationId : ConversationId)
  | sent (result : SendResult)
  | rejected (kind : CommandKind)
  | recoveryFailed (kind : CommandKind)
  deriving DecidableEq

namespace CommandRead

/-- `state === 'missing' || state === 'received'`. -/
def unknown : CommandRead → Bool
  | missing | received => true
  | _ => false

/-- The server has accepted or rejected the message. -/
def final : CommandRead → Bool
  | sent _ | rejected .turnSend => true
  | _ => false

end CommandRead

/-- What the runtime of a conversation gives a message that is frozen. -/
structure ComposerRuntime where
  serviceTier : Option String
  access : Access
  providerInstanceId : String
  revision : String
  deriving DecidableEq

/-- What a recovery is waiting for. -/
inductive RecoveryStage where
  | createReceipt (create : CreateConversation)
  | creating
  | attaching (conversationId : ConversationId)
  | attached
  | runtime (conversationId : String)
  | sendReceipt (message : SendMessage)
  | uploading (message : SendMessage)
  | sending (message : SendMessage)
  | finishing
  deriving DecidableEq

/-- A recovery under way, and the record it holds. -/
structure Recovery where
  submission : ℕ
  record : PendingMessageSubmission
  stage : RecoveryStage
  deriving DecidableEq

/-- An entry of the storage, and the submission it was written for. -/
structure StoredSubmission where
  submission : ℕ
  value : Value

/-- What was asked of the server for a submission, and what it has answered
for its message. -/
inductive SubmissionEvent where
  | create (submission : ℕ) (command : CreateConversation)
  | receipt (submission : ℕ) (operationId : String) (read : CommandRead)
  | send (submission : ℕ) (command : SendMessage)
  | answer (submission : ℕ) (operationId : String) (result : SendResult)
  deriving DecidableEq

/-- The viewer's submissions, with its storage and what it has asked for. -/
structure SubmissionState where
  focus : Focus
  /-- The drafts that were ever selected. -/
  drafts : List String
  /-- The ids made for messages. -/
  messageIds : List String
  /-- The records that were stored, as they were at first. -/
  submitted : List PendingMessageSubmission
  /-- `sessionStorage`, by the operation id that a key is made of. -/
  storage : Assoc String StoredSubmission
  /-- `recoveryPromisesRef`. -/
  recoveries : Assoc String Recovery
  log : List SubmissionEvent

/-- What an await of a recovery comes back with. -/
inductive RecoveryReply where
  | failed
  | receipt (read : CommandRead)
  | created (conversationId : ConversationId)
  /-- Whether the conversation is there, and whether its draft was kept. -/
  | ensured (found kept : Bool)
  | selected
  | runtime (runtime : ComposerRuntime)
  | uploaded
  | sent (result : SendResult)
  | refreshed
  deriving DecidableEq

/-- What the composer submits. -/
structure SubmissionInput where
  input : TurnSubmissionInput
  snapshotKey : String
  cwd : String
  nativeModelId : String
  deriving DecidableEq

/-- What happens between two awaits. `room` says whether the storage takes
what is written. -/
inductive SubmissionAction where
  | select (focus : Focus)
  | reload (focus : Focus)
  | send (input : SubmissionInput) (operationId clientMessageId : String) (room : Bool)
  | recover (operationId : String)
  | reply (operationId : String) (reply : RecoveryReply) (room : Bool)

namespace SubmissionState

variable (s : SubmissionState)

/-- `ownsRecord`. -/
def ownsRecord (record : PendingMessageSubmission) : Bool := submissionMatchesTarget record s.focus

/-- The record stored under a key, if it can be read. -/
def pendingAt (key : String) : Option PendingMessageSubmission :=
  ((s.storage.lookup key).bind fun stored =>
    PendingMessageSubmission.parseRecord stored.value).filter (·.ownerOperationId = key)

/-- A stored record is of what is selected. -/
def hasPending : Bool :=
  s.storage.keys.any fun key => (s.pendingAt key).any s.ownsRecord

/-- `persistPendingMessageSubmission`, which throws if the record could not
be read back or there is no room. -/
def persist (submission : ℕ) (record : PendingMessageSubmission) (room : Bool) :
    Option SubmissionState :=
  if (PendingMessageSubmission.parseRecord record.serialize).isSome && room then
    some { s with
      storage := s.storage.insert record.ownerOperationId ⟨submission, record.serialize⟩ }
  else none

/-- `clearPendingMessageSubmission`. -/
def clear (operationId : String) : SubmissionState :=
  { s with storage := s.storage.erase operationId }

/-- An exchange with the server is added to the log. -/
def record (event : SubmissionEvent) : SubmissionState := { s with log := s.log ++ [event] }

/-- The recovery under a key waits. -/
def suspend (key : String) (recovery : Recovery) : SubmissionState :=
  { s with recoveries := s.recoveries.insert key recovery }

/-- The recovery under a key has returned or thrown. -/
def settle (key : String) : SubmissionState := { s with recoveries := s.recoveries.erase key }

section

variable (key : String) (submission : ℕ) (record : PendingMessageSubmission)

/-- `recoverRecord`, from where the conversation is attached; the record has
its id by then. -/
def afterAttach : SubmissionState :=
  if s.ownsRecord record then
    match record.message with
    | none => s.suspend key ⟨submission, record, .runtime (record.conversationId.getD "")⟩
    | some message => s.suspend key ⟨submission, record, .sendReceipt message⟩
  else s.settle key

/-- `recoverRecord`, from where the conversation is known. -/
def afterConversation (conversationId : ConversationId) : SubmissionState :=
  if s.ownsRecord record then
    if s.focus.conversationId = some conversationId.val then s.afterAttach key submission record
    else s.suspend key ⟨submission, record, .attaching conversationId⟩
  else s.settle key

/-- `recoverRecord`, up to its first await. -/
def start : SubmissionState :=
  if s.ownsRecord record then
    match record.conversationId with
    | none => waitForReceipt
    | some id =>
      if h : id = "" then waitForReceipt
      else s.afterConversation key submission record ⟨id, h⟩
  else s.settle key
where
  waitForReceipt : SubmissionState :=
    match record.source with
    | .newChat _ create => s.suspend key ⟨submission, record, .createReceipt create⟩
    | .existingConversation => s.settle key

/-- `runRecovery`: one that is under way is not run again. -/
def runRecovery : SubmissionState :=
  if (s.recoveries.lookup key).isSome then s else s.start key submission record

/-- `recoverRecord`, from where the conversation has been created. -/
def gotConversation (conversationId : ConversationId) (room : Bool) : SubmissionState :=
  let record := { record with conversationId := some conversationId.val }
  match s.persist submission record room with
  | none => s.settle key
  | some s => s.afterConversation key submission record conversationId

/-- `finishRecoveredSubmission`, up to where it awaits the refresh. -/
def finish (result : SendResult) : SubmissionState :=
  if (record.conversationId.filter (· ≠ "")).isNone || record.message.isNone then s.settle key
  else if (result.deliveryError.filter (· ≠ "")).isSome then
    (s.clear record.ownerOperationId).settle key
  else s.suspend key ⟨submission, record, .finishing⟩

/-- The receipt of the create command was read. -/
def gotCreateReceipt (create : CreateConversation) (read : CommandRead) (room : Bool) :
    SubmissionState :=
  match read with
  | .created conversationId => s.gotConversation key submission record conversationId room
  | .missing | .received =>
    if s.ownsRecord record then
      (s.record (.create submission create)).suspend key ⟨submission, record, .creating⟩
    else s.settle key
  | _ => s.settle key

/-- `attachCreatedConversation`, from where the conversation was ensured. -/
def gotEnsured (conversationId : ConversationId) (found kept : Bool) : SubmissionState :=
  if !found then s.settle key
  else if s.focus.conversationId = some conversationId.val ∨
      (s.focus.conversationId = none ∧ s.focus.draftId = record.source.draftId) then
    if kept then
      { s with focus := .conversation conversationId }.suspend key ⟨submission, record, .attached⟩
    else s.settle key
  else s.afterAttach key submission record

/-- The runtime was read: the message is frozen. -/
def gotRuntime (conversationId : String) (runtime : ComposerRuntime) (room : Bool) :
    SubmissionState :=
  match record.source with
  | .existingConversation => s.settle key
  | .newChat _ create =>
    if s.ownsRecord record then
      let message : SendMessage := {
        operationId := record.messageOperationId
        clientMessageId := record.clientMessageId
        conversationId
        parts := record.original.parts
        nativeModelId := create.nativeModelId
        configuration := {
          providerInstanceId := runtime.providerInstanceId
          reasoning := record.original.configuration.reasoning
          serviceTier := runtime.serviceTier
          access := runtime.access }
        configurationRevision := runtime.revision
        delivery := record.original.delivery }
      let record := { record with message := some message }
      match s.persist submission record room with
      | none => s.settle key
      | some s => s.suspend key ⟨submission, record, .sendReceipt message⟩
    else s.settle key

/-- The receipt of the message was read. -/
def gotSendReceipt (message : SendMessage) (read : CommandRead) : SubmissionState :=
  let s := s.record (.receipt submission message.operationId read)
  if s.ownsRecord record then
    match read with
    | .sent result => s.finish key submission record result
    | .rejected .turnSend => (s.clear record.ownerOperationId).settle key
    | .missing | .received => s.suspend key ⟨submission, record, .uploading message⟩
    | _ => s.settle key
  else s.settle key

end

/-- An await of a recovery came back. -/
def reply (key : String) (recovery : Recovery) (reply : RecoveryReply) (room : Bool) :
    Option SubmissionState :=
  let ⟨submission, record, stage⟩ := recovery
  match stage, reply with
  | _, .failed => some (s.settle key)
  | .createReceipt create, .receipt read =>
    some (s.gotCreateReceipt key submission record create read room)
  | .creating, .created conversationId =>
    some (s.gotConversation key submission record conversationId room)
  | .attaching conversationId, .ensured found kept =>
    some (s.gotEnsured key submission record conversationId found kept)
  | .attached, .selected => some (s.afterAttach key submission record)
  | .runtime conversationId, .runtime runtime =>
    some (s.gotRuntime key submission record conversationId runtime room)
  | .sendReceipt message, .receipt read =>
    some (s.gotSendReceipt key submission record message read)
  | .uploading message, .uploaded =>
    some ((s.record (.send submission message)).suspend key ⟨submission, record, .sending message⟩)
  | .sending message, .sent result =>
    some ((s.record (.answer submission message.operationId result)).finish key submission record
      result)
  | .finishing, .refreshed => some ((s.clear record.ownerOperationId).settle key)
  | _, _ => none

/-- The record that `send` makes. -/
def submission (input : SubmissionInput) (operationId clientMessageId : String) :
    Option PendingMessageSubmission :=
  match s.focus with
  | .draft draftId =>
    if input.nativeModelId = "" ∨ input.cwd = "" then none
    else some {
      source := .newChat (some draftId) {
        operationId := draftId
        cwd := input.cwd
        nativeModelId := input.nativeModelId
        configuration := input.input.configuration }
      snapshotKey := input.snapshotKey
      original := input.input
      messageOperationId := operationId
      clientMessageId
      conversationId := none
      message := none }
  | .conversation id =>
    match input.input.configurationRevision.filter (· ≠ "") with
    | none => none
    | some configurationRevision =>
      if input.nativeModelId = "" then none
      else some {
        source := .existingConversation
        snapshotKey := input.snapshotKey
        original := input.input
        messageOperationId := operationId
        clientMessageId
        conversationId := some id.val
        message := some {
          operationId
          clientMessageId
          conversationId := id.val
          parts := input.input.parts
          nativeModelId := input.nativeModelId
          configuration := input.input.configuration
          configurationRevision
          delivery := input.input.delivery } }

/-- Something is selected. The id of a draft is never one that was made for
a message. -/
def select (focus : Focus) : Option SubmissionState :=
  match focus with
  | .conversation _ => some { s with focus }
  | .draft id =>
    if id ∈ s.messageIds then none
    else some { s with focus, drafts := id :: s.drafts }

/-- `send`, when nothing is pending for what is selected; else it is
`recover`. The ids it makes are new. -/
def send (input : SubmissionInput) (operationId clientMessageId : String) (room : Bool) :
    Option SubmissionState :=
  if s.hasPending || operationId ∈ s.drafts || operationId ∈ s.messageIds then none
  else
    match s.submission input operationId clientMessageId with
    | none => none
    | some record =>
      let s := { s with messageIds := operationId :: s.messageIds }
      match s.persist s.submitted.length record room with
      | none => some s
      | some s =>
        some ({ s with submitted := s.submitted ++ [record] }.runRecovery record.ownerOperationId
          s.submitted.length record)

/-- A stored record of what is selected is recovered: by a retry, by `send`
or by the timer. -/
def recover (key : String) : Option SubmissionState :=
  match s.storage.lookup key, s.pendingAt key with
  | some stored, some record =>
    if s.ownsRecord record then some (s.runRecovery key stored.submission record) else none
  | _, _ => none

end SubmissionState

/-- **The submissions of a page**: it starts with a draft. -/
def submissionMachine (draftId : String) : Machine SubmissionState SubmissionAction where
  init := {
    focus := .draft draftId
    drafts := [draftId]
    messageIds := []
    submitted := []
    storage := ∅
    recoveries := ∅
    log := [] }
  step s
    | .select focus => s.select focus
    | .reload focus => { s with recoveries := ∅ }.select focus
    | .send input operationId clientMessageId room =>
      s.send input operationId clientMessageId room
    | .recover key => s.recover key
    | .reply key reply room =>
      (s.recoveries.lookup key).bind fun recovery => s.reply key recovery reply room

end Remux
