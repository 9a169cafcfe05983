import Remux.Common.Lists
import Remux.Viewer.Model.Submissions
import Remux.Viewer.PendingSubmission

/-!
# A message is sent again, and not twice

Whatever is answered, reloaded, retried or selected, all that is asked of
the server for a submission is what was submitted (`Recoverable`): its
commands have the ids and the parts of the record as it was first stored, it
has one recovery at a time, its message is sent on a receipt that knows of
none, and the record is stored until the server has answered for the
message.

A recovery holds the record that is stored under its key (`Held`), and while
it runs nobody else writes there; so the invariant is stated with a key left
out, whose recovery is the one that has come back.
-/

namespace Remux

open List Option Assoc

namespace PendingMessageSubmission

variable {first record : PendingMessageSubmission}

/-- Two records of one submission. -/
structure SameIntent (first record : PendingMessageSubmission) : Prop where
  source : record.source = first.source
  original : record.original = first.original
  messageOperationId : record.messageOperationId = first.messageOperationId
  clientMessageId : record.clientMessageId = first.clientMessageId

/-- A message has the ids and the parts of the record. -/
structure Carries (record : PendingMessageSubmission) (message : SendMessage) : Prop where
  operationId : message.operationId = record.messageOperationId
  clientMessageId : message.clientMessageId = record.clientMessageId
  parts : message.parts = record.original.parts

theorem SameIntent.owner (h : SameIntent first record) :
    record.ownerOperationId = first.ownerOperationId := by
  rw [ownerOperationId, ownerOperationId, h.source, h.messageOperationId]

theorem SameIntent.carries {message : SendMessage} (h : SameIntent first record)
    (hmsg : record.Carries message) : first.Carries message where
  operationId := hmsg.operationId.trans h.messageOperationId
  clientMessageId := hmsg.clientMessageId.trans h.clientMessageId
  parts := hmsg.parts.trans (congrArg TurnSubmissionInput.parts h.original)

end PendingMessageSubmission

open PendingMessageSubmission

namespace SubmissionEvent

/-- The submission an event is about. -/
def submission : SubmissionEvent → ℕ
  | create i _ | receipt i _ _ | send i _ | answer i _ _ => i

/-- The server has answered for the message: it was accepted or rejected. -/
def Answers (i : ℕ) (operationId : String) : SubmissionEvent → Prop
  | receipt j id read => j = i ∧ id = operationId ∧ read.final = true
  | answer j id _ => j = i ∧ id = operationId
  | _ => False

/-- A command carries what was submitted. -/
def Faithful (submitted : List PendingMessageSubmission) : SubmissionEvent → Prop
  | create i command =>
    ∃ first draftId, submitted[i]? = some first ∧ first.source = .newChat draftId command
  | send i command => ∃ first, submitted[i]? = some first ∧ first.Carries command
  | _ => True

/-- What the event says of the receipt of a message, if it does. -/
def receiptOf (i : ℕ) (operationId : String) : SubmissionEvent → Option CommandRead
  | receipt j id read => if j = i ∧ id = operationId then some read else none
  | _ => none

end SubmissionEvent

namespace SubmissionState

/-- The receipt of a message, as it was last read. -/
def lastReceipt (log : List SubmissionEvent) (i : ℕ) (operationId : String) : Option CommandRead :=
  (log.filterMap (SubmissionEvent.receiptOf i operationId)).getLast?

/-- The server has answered for a message. -/
def Answered (log : List SubmissionEvent) (i : ℕ) (operationId : String) : Prop :=
  ∃ event ∈ log, event.Answers i operationId

/-- **The submissions of a state are recoverable**, and none is sent but as
it was submitted. -/
structure Recoverable (s : SubmissionState) : Prop where
  /-- The commands of a submission carry what was submitted. -/
  issued : ∀ event ∈ s.log, event.Faithful s.submitted
  /-- A submission has one recovery. -/
  alone : ∀ key key' recovery recovery', s.recoveries.lookup key = some recovery →
    s.recoveries.lookup key' = some recovery' → recovery.submission = recovery'.submission →
    key = key'
  /-- A message is sent when its receipt, as it was last read, is missing
  or received. -/
  asked : ∀ before i command, before ++ [.send i command] <+: s.log →
    ∃ read ∈ lastReceipt before i command.operationId, read.unknown = true
  /-- The record of a submission is stored, and read as what was submitted,
  until the server has answered for its message. -/
  kept : ∀ i first, s.submitted[i]? = some first →
    Answered s.log i first.messageOperationId ∨
      ∃ stored record, s.storage.lookup first.ownerOperationId = some stored ∧
        stored.submission = i ∧ parseRecord stored.value = some record ∧ SameIntent first record

/-! ## The invariant -/

/-- A record is one of a submission, and its message carries it. -/
def Keeps (submitted : List PendingMessageSubmission) (i : ℕ)
    (record : PendingMessageSubmission) : Prop :=
  (∃ first, submitted[i]? = some first ∧ SameIntent first record) ∧
    ∀ message ∈ record.message, record.Carries message

/-- A record of what is stored under a key. -/
structure Held (s : SubmissionState) (key : String) (i : ℕ) (record : PendingMessageSubmission) :
    Prop where
  stored : ∃ stored, s.storage.lookup key = some stored ∧ stored.submission = i
  owner : record.ownerOperationId = key
  keeps : Keeps s.submitted i record

/-- What has happened when a recovery waits. -/
def StageOk (log : List SubmissionEvent) (i : ℕ) (record : PendingMessageSubmission) :
    RecoveryStage → Prop
  | .createReceipt create => ∃ draftId, record.source = .newChat draftId create
  | .sendReceipt message | .sending message => record.message = some message
  | .uploading message => record.message = some message ∧
      ∃ read ∈ lastReceipt log i message.operationId, read.unknown = true
  | .finishing => Answered log i record.messageOperationId
  | _ => True

/-- The key of a submission is the draft it was made of or an id made for
it. -/
def Placed (s : SubmissionState) (first : PendingMessageSubmission) : Prop :=
  match first.source with
  | .newChat draftId create => draftId = some create.operationId ∧ create.operationId ∈ s.drafts
  | .existingConversation => first.messageOperationId ∈ s.messageIds

/-- **The invariant**, but for the recovery of a key. -/
structure SubmissionInv (except : Option String) (s : SubmissionState) : Prop where
  apart : ∀ id ∈ s.drafts, id ∉ s.messageIds
  focused : ∀ id ∈ s.focus.draftId, id ∈ s.drafts
  placed : ∀ first ∈ s.submitted, s.Placed first
  stored : ∀ key stored, s.storage.lookup key = some stored →
    ∃ record, parseRecord stored.value = some record ∧ Held s key stored.submission record
  running : ∀ key recovery, some key ≠ except → s.recoveries.lookup key = some recovery →
    Held s key recovery.submission recovery.record ∧
      StageOk s.log recovery.submission recovery.record recovery.stage
  issued : ∀ event ∈ s.log, event.Faithful s.submitted
  asked : ∀ before i command, before ++ [.send i command] <+: s.log →
    ∃ read ∈ lastReceipt before i command.operationId, read.unknown = true
  kept : ∀ i first, s.submitted[i]? = some first →
    Answered s.log i first.messageOperationId ∨
      ∃ stored, s.storage.lookup first.ownerOperationId = some stored ∧ stored.submission = i

variable {s s' : SubmissionState} {key key' : String} {i j : ℕ}
variable {record record' first : PendingMessageSubmission}
variable {log : List SubmissionEvent} {event : SubmissionEvent}

variable {operationId : String} {room : Bool} {except : Option String} {read : CommandRead}

theorem lastReceipt_concat : lastReceipt (log ++ [event]) i operationId =
      (event.receiptOf i operationId).or (lastReceipt log i operationId) := by
  rw [lastReceipt, filterMap_append]
  cases h : event.receiptOf i operationId with
  | none => simp [lastReceipt, h]
  | some read => simp [h]

theorem Answered.concat {operationId : String} (h : Answered log i operationId) :
    Answered (log ++ [event]) i operationId := by
  obtain ⟨event, hmem, hanswers⟩ := h
  exact ⟨event, mem_append_left _ hmem, hanswers⟩

variable {stage : RecoveryStage}

/-- What a recovery waits with is not lost when something is recorded of
another submission. -/
theorem StageOk.concat (h : StageOk log i record stage)
    (hne : event.submission ≠ i) : StageOk (log ++ [event]) i record stage := by
  have hlast : ∀ operationId, lastReceipt (log ++ [event]) i operationId =
      lastReceipt log i operationId := by
    intro operationId
    rw [lastReceipt_concat]
    cases event with
    | receipt j id read => rw [SubmissionEvent.receiptOf, if_neg fun h => hne h.1]; rfl
    | _ => rfl
  cases stage with
  | uploading message => exact ⟨h.1, by rw [hlast]; exact h.2⟩
  | finishing => exact Answered.concat h
  | _ => exact h

/-- A submission is held under one key. -/
theorem Held.key_eq (h : Held s key i record) (h' : Held s key' i record') : key = key' := by
  obtain ⟨⟨first, hfst, hsame⟩, -⟩ := h.keeps
  obtain ⟨⟨first', hfst', hsame'⟩, -⟩ := h'.keeps
  obtain rfl := Option.some.inj (hfst.symm.trans hfst')
  rw [← h.owner, ← h'.owner, hsame.owner, hsame'.owner]

theorem SubmissionInv.but (h : SubmissionInv none s) : SubmissionInv (some key) s where
  __ := h
  running key recovery _ := h.running key recovery nofun

/-! ## What the operations keep -/

/-- A recovery that settles keeps the invariant, -/
theorem SubmissionInv.settle (h : SubmissionInv (some key) s) :
    SubmissionInv none (s.settle key) where
  __ := h
  stored key stored hstore := by
    obtain ⟨record, hparse, hheld⟩ := h.stored key stored hstore
    exact ⟨record, hparse, hheld.stored, hheld.owner, hheld.keeps⟩
  running key' recovery _ hget := by
    rw [SubmissionState.settle, lookup_erase_eq] at hget
    split at hget
    · cases hget
    · next hne =>
      obtain ⟨hheld, hstg⟩ := h.running key' recovery (fun heq => hne (Option.some.inj heq)) hget
      exact ⟨{ hheld with }, hstg⟩

/-- one that waits keeps it, -/
theorem SubmissionInv.suspend (h : SubmissionInv (some key) s)
    (hheld : Held s key i record) (hstg : StageOk s.log i record stage) :
    SubmissionInv none (s.suspend key ⟨i, record, stage⟩) where
  __ := h
  stored key stored hstore := by
    obtain ⟨record, hparse, hheld⟩ := h.stored key stored hstore
    exact ⟨record, hparse, hheld.stored, hheld.owner, hheld.keeps⟩
  running key' recovery _ hget := by
    rw [SubmissionState.suspend, lookup_insert_eq] at hget
    split at hget
    · next heq =>
      cases hget
      exact ⟨⟨heq ▸ hheld.stored, heq ▸ hheld.owner, hheld.keeps⟩, hstg⟩
    · next hne =>
      obtain ⟨hheld, hstg⟩ := h.running key' recovery (fun heq => hne (Option.some.inj heq)) hget
      exact ⟨{ hheld with }, hstg⟩

theorem Held.recorded (h : Held s key i record) : Held (s.record event) key i record :=
  { h with }

variable (h : SubmissionInv (some key) s) (hheld : Held s key i record)
include h hheld

/-- Something is recorded of a submission whose recovery is left out. -/
theorem SubmissionInv.recorded (hev : event.submission = i) (hfaithful : event.Faithful s.submitted)
    (hasked : ∀ command, event = .send i command →
      ∃ read ∈ lastReceipt s.log i command.operationId, read.unknown = true) :
    SubmissionInv (some key) (s.record event) where
  __ := h
  stored key stored hstore := by
    obtain ⟨record, hparse, hheld⟩ := h.stored key stored hstore
    exact ⟨record, hparse, hheld.recorded⟩
  running key' recovery hne hget := by
    obtain ⟨hheld', hstg⟩ := h.running key' recovery hne hget
    refine ⟨hheld'.recorded, hstg.concat ?_⟩
    -- another key holds another submission
    rintro heq
    rw [hev] at heq
    exact hne (congrArg some ((heq ▸ hheld).key_eq hheld').symm)
  issued event' hmem := by
    rcases mem_concat.1 hmem with hmem | hmem
    · exact h.issued event' hmem
    · exact hmem ▸ hfaithful
  asked before j command hprefix := by
    rcases prefix_concat_iff.1 hprefix with heq | hprefix
    · obtain ⟨rfl, hlast⟩ := append_inj' heq rfl
      obtain rfl : event = .send j command := (singleton_inj.1 hlast).symm
      obtain rfl : j = i := hev
      exact hasked command rfl
    · exact h.asked before j command hprefix
  kept j first hfst := (h.kept j first hfst).imp_left Answered.concat

/-- A record of the submission whose recovery is left out is stored. -/
theorem SubmissionInv.persist
    (hown : record'.ownerOperationId = key) (hkeeps : Keeps s.submitted i record')
    (hpers : s.persist i record' room = some s') :
    SubmissionInv (some key) s' ∧ Held s' key i record' := by
  unfold SubmissionState.persist at hpers
  split at hpers
  swap
  · cases hpers
  next hvalid =>
  obtain ⟨parsed, hparsed⟩ := isSome_iff_exists.1 (Bool.and_eq_true_iff.1 hvalid).1
  obtain rfl := parseRecord_serialize_eq (fun m hm => (hkeeps.2 m hm).parts) hparsed
  cases hpers
  have hins : ∀ key' stored, s.storage.lookup key' = some stored →
      ∃ stored', (s.storage.insert parsed.ownerOperationId ⟨i, parsed.serialize⟩).lookup key' =
        some stored' ∧ stored'.submission = stored.submission := by
    intro key' stored hstore
    rw [hown, lookup_insert_eq]
    split
    · next heq =>
      obtain ⟨stored', hget, hsub⟩ := hheld.stored
      subst heq
      obtain rfl := Option.some.inj (hstore.symm.trans hget)
      exact ⟨_, rfl, hsub.symm⟩
    · exact ⟨stored, hstore, rfl⟩
  have hself : Held { s with
      storage := s.storage.insert parsed.ownerOperationId ⟨i, parsed.serialize⟩ } key i parsed :=
    ⟨⟨_, by rw [hown, lookup_insert_eq, if_pos rfl], rfl⟩, hown, hkeeps⟩
  refine ⟨{ h with stored := ?_, running := ?_, kept := ?_ }, hself⟩
  · intro key' stored hget
    rw [hown, lookup_insert_eq] at hget
    split at hget
    · next heq =>
      cases hget
      exact ⟨parsed, hparsed, heq ▸ hself⟩
    · next hne =>
      obtain ⟨record, hparse, hheld⟩ := h.stored key' stored hget
      refine ⟨record, hparse, ⟨stored, ?_, rfl⟩, hheld.owner, hheld.keeps⟩
      rw [hown, lookup_insert_eq, if_neg hne]
      exact hget
  · intro key' recovery hne hget
    obtain ⟨hheld, hstg⟩ := h.running key' recovery hne hget
    obtain ⟨stored, hstore, hsub⟩ := hheld.stored
    obtain ⟨stored', hstore', heq⟩ := hins key' stored hstore
    exact ⟨{ hheld with stored := ⟨stored', hstore', heq.trans hsub⟩ }, hstg⟩
  · intro j first hfst
    refine (h.kept j first hfst).imp_right ?_
    rintro ⟨stored, hstore, hsub⟩
    obtain ⟨stored', hstore', heq⟩ := hins _ stored hstore
    exact ⟨stored', hstore', heq.trans hsub⟩

/-- The record of a submission that is answered is removed. -/
theorem SubmissionInv.clear (hansd : Answered s.log i record.messageOperationId) :
    SubmissionInv none ((s.clear record.ownerOperationId).settle key) := by
  have hother : ∀ key' stored, key' ≠ key → s.storage.lookup key' = some stored →
      (s.storage.erase record.ownerOperationId).lookup key' = some stored := by
    intro key' stored hne hstore
    rw [hheld.owner, lookup_erase_eq, if_neg hne]
    exact hstore
  refine SubmissionInv.settle { h with stored := ?_, running := ?_, kept := ?_ }
  · intro key' stored hget
    rw [SubmissionState.clear, hheld.owner, lookup_erase_eq] at hget
    split at hget
    · cases hget
    · next hne =>
      obtain ⟨record', hparse, hheld'⟩ := h.stored key' stored hget
      exact ⟨record', hparse, ⟨stored, hother key' stored hne hget, rfl⟩, hheld'.owner,
        hheld'.keeps⟩
  · intro key' recovery hne hget
    obtain ⟨hheld', hstg⟩ := h.running key' recovery hne hget
    obtain ⟨stored, hstore, hsub⟩ := hheld'.stored
    have hne' : key' ≠ key := fun heq => hne (congrArg some heq)
    exact ⟨{ hheld' with stored := ⟨stored, hother key' stored hne' hstore, hsub⟩ }, hstg⟩
  · intro j first hfst
    rcases h.kept j first hfst with hkept | ⟨stored, hstore, hsub⟩
    · exact .inl hkept
    · by_cases hkey : first.ownerOperationId = key
      · -- what is stored under the key is of the submission that is answered
        obtain ⟨stored', hstore', hsub'⟩ := hheld.stored
        rw [hkey] at hstore
        obtain rfl := Option.some.inj (hstore.symm.trans hstore')
        obtain rfl := hsub.symm.trans hsub'
        obtain ⟨⟨first', hfst', hsame⟩, -⟩ := hheld.keeps
        obtain rfl := Option.some.inj (hfst.symm.trans hfst')
        exact .inl (hsame.messageOperationId ▸ hansd)
      · exact .inr ⟨stored, hother _ stored hkey hstore, hsub⟩

omit hheld h

/-- Something else is selected. -/
theorem SubmissionInv.focus {focus : Focus} (h : SubmissionInv except s)
    (hfocused : ∀ id ∈ focus.draftId, id ∈ s.drafts) :
    SubmissionInv except { s with focus } where
  __ := h
  focused := hfocused
  stored key stored hstore := by
    obtain ⟨record, hparse, hheld⟩ := h.stored key stored hstore
    exact ⟨record, hparse, hheld.stored, hheld.owner, hheld.keeps⟩
  running key recovery hne hget := by
    obtain ⟨hheld, hstg⟩ := h.running key recovery hne hget
    exact ⟨{ hheld with }, hstg⟩

/-! ## The pieces of a recovery -/

include hheld

include h

theorem SubmissionInv.afterAttach : SubmissionInv none (s.afterAttach key i record) := by
  unfold SubmissionState.afterAttach
  split
  · split
    · exact h.suspend hheld trivial
    · next hmsg => exact h.suspend hheld hmsg
  · exact h.settle

variable {conversationId : ConversationId}

theorem SubmissionInv.afterConversation :
    SubmissionInv none (s.afterConversation key i record conversationId) := by
  unfold SubmissionState.afterConversation
  split
  · split
    · exact h.afterAttach hheld
    · exact h.suspend hheld trivial
  · exact h.settle

/-- one that starts, -/
theorem SubmissionInv.start : SubmissionInv none (s.start key i record) := by
  have hwait : SubmissionInv none (start.waitForReceipt s key i record) := by
    unfold start.waitForReceipt
    split
    · next draftId create hsrc => exact h.suspend hheld ⟨draftId, hsrc⟩
    · exact h.settle
  unfold SubmissionState.start
  split
  · split
    · exact hwait
    · split
      · exact hwait
      · exact h.afterConversation hheld
  · exact h.settle

omit h

theorem SubmissionInv.runRecovery (h : SubmissionInv none s) :
    SubmissionInv none (s.runRecovery key i record) := by
  unfold SubmissionState.runRecovery
  split
  · exact h
  · exact h.but.start hheld

include h

/-- one that has its conversation, -/
theorem SubmissionInv.gotConversation :
    SubmissionInv none (s.gotConversation key i record conversationId room) := by
  unfold SubmissionState.gotConversation
  dsimp only
  split
  · exact h.settle
  · next s' hpers =>
    obtain ⟨⟨first, hfst, hsame⟩, hcarry⟩ := hheld.keeps
    have hkeeps : Keeps s.submitted i { record with conversationId := some conversationId.val } :=
      ⟨⟨first, hfst, hsame.1, hsame.2, hsame.3, hsame.4⟩, fun message hmsg =>
        have hcarried := hcarry message hmsg
        ⟨hcarried.1, hcarried.2, hcarried.3⟩⟩
    have hown : { record with conversationId := some conversationId.val }.ownerOperationId =
      key := hheld.owner
    obtain ⟨hinv, hheld'⟩ := h.persist hheld hown hkeeps hpers
    exact hinv.afterConversation hheld'

/-- A recovery with its answer keeps the invariant. -/
theorem SubmissionInv.finish {result : SendResult}
    (hansd : Answered s.log i record.messageOperationId) :
    SubmissionInv none (s.finish key i record result) := by
  unfold SubmissionState.finish
  split
  · exact h.settle
  · split
    · exact h.clear hheld hansd
    · exact h.suspend hheld hansd

/-- one that read the receipt of its `createConversation`, -/
theorem SubmissionInv.gotCreateReceipt {create : CreateConversation}
    (hcreate : ∃ draftId, record.source = .newChat draftId create) :
    SubmissionInv none (s.gotCreateReceipt key i record create read room) := by
  obtain ⟨draftId, hsrc⟩ := hcreate
  obtain ⟨⟨first, hfst, hsame⟩, -⟩ := hheld.keeps
  have hiss : SubmissionInv (some key) (s.record (.create i create)) :=
    h.recorded hheld rfl ⟨first, draftId, hfst, hsame.source ▸ hsrc⟩ nofun
  have hcreating : SubmissionInv none (if s.ownsRecord record then
      (s.record (.create i create)).suspend key ⟨i, record, .creating⟩ else s.settle key) := by
    split
    · exact hiss.suspend hheld.recorded trivial
    · exact h.settle
  unfold SubmissionState.gotCreateReceipt
  cases read with
  | created conversationId => exact h.gotConversation hheld
  | missing | received => exact hcreating
  | _ => exact h.settle

/-- one that looked for its conversation, -/
theorem SubmissionInv.gotEnsured {found kept : Bool} :
    SubmissionInv none (s.gotEnsured key i record conversationId found kept) := by
  unfold SubmissionState.gotEnsured
  split
  · exact h.settle
  · split
    · split
      · have hheld' : Held { s with focus := .conversation conversationId } key i record :=
          { hheld with }
        have hinv : SubmissionInv (some key) { s with focus := .conversation conversationId } :=
          h.focus nofun
        exact hinv.suspend hheld' trivial
      · exact h.settle
    · exact h.afterAttach hheld

/-- one that has the composer's runtime, -/
theorem SubmissionInv.gotRuntime {conversationId : String} {runtime : ComposerRuntime} :
    SubmissionInv none (s.gotRuntime key i record conversationId runtime room) := by
  unfold SubmissionState.gotRuntime
  split
  · exact h.settle
  · split
    swap
    · exact h.settle
    dsimp only
    split
    · exact h.settle
    · next s' hpers =>
      obtain ⟨⟨first, hfst, hsame⟩, -⟩ := hheld.keeps
      refine (h.persist hheld ?_ ?_ hpers).elim fun hinv hheld' => hinv.suspend hheld' rfl
      · exact hheld.owner
      · refine ⟨⟨first, hfst, hsame.1, hsame.2, hsame.3, hsame.4⟩, ?_⟩
        rintro message ⟨rfl⟩
        exact ⟨rfl, rfl, rfl⟩

/-- and one that read the receipt of its message. -/
theorem SubmissionInv.gotSendReceipt {message : SendMessage}
    (hmsg : record.message = some message) :
    SubmissionInv none (s.gotSendReceipt key i record message read) := by
  have hcarry : record.Carries message := hheld.keeps.2 message hmsg
  have hread : SubmissionInv (some key) (s.record (.receipt i message.operationId read)) :=
    h.recorded hheld rfl trivial nofun
  have hheld' : Held (s.record (.receipt i message.operationId read)) key i record :=
    hheld.recorded
  have hansd : read.final = true → Answered
      (s.record (.receipt i message.operationId read)).log i record.messageOperationId :=
    fun hfinal => ⟨_, mem_concat_self, rfl, hcarry.operationId, hfinal⟩
  have hupload : read.unknown = true → SubmissionInv none
      ((s.record (.receipt i message.operationId read)).suspend key
        ⟨i, record, .uploading message⟩) := by
    intro hunk
    refine hread.suspend hheld' ⟨hmsg, read, ?_, hunk⟩
    show lastReceipt (s.log ++ [_]) i message.operationId = some read
    rw [lastReceipt_concat, SubmissionEvent.receiptOf, if_pos ⟨rfl, rfl⟩]
    rfl
  unfold SubmissionState.gotSendReceipt
  dsimp only
  split
  swap
  · exact hread.settle
  split
  · exact hread.finish hheld' (hansd rfl)
  · exact hread.clear hheld' (hansd rfl)
  · exact hupload rfl
  · exact hupload rfl
  · exact hread.settle

omit h hheld

/-- **An await of a recovery comes back.** -/
theorem SubmissionInv.reply {recovery : Recovery} {reply : RecoveryReply} (h : SubmissionInv none s)
    (hget : s.recoveries.lookup key = some recovery)
    (hrpl : s.reply key recovery reply room = some s') : SubmissionInv none s' := by
  obtain ⟨hheld, hstg⟩ := h.running key recovery nofun hget
  obtain ⟨i, record, stage⟩ := recovery
  unfold SubmissionState.reply at hrpl
  dsimp only at hrpl hheld hstg
  split at hrpl
  · exact Option.some.inj hrpl ▸ h.but.settle
  · exact Option.some.inj hrpl ▸ h.but.gotCreateReceipt hheld hstg
  · exact Option.some.inj hrpl ▸ h.but.gotConversation hheld
  · exact Option.some.inj hrpl ▸ h.but.gotEnsured hheld
  · exact Option.some.inj hrpl ▸ h.but.afterAttach hheld
  · exact Option.some.inj hrpl ▸ h.but.gotRuntime hheld
  · exact Option.some.inj hrpl ▸ h.but.gotSendReceipt hheld hstg
  · next message =>
    -- the receipt was read by this recovery, and no other has read it since
    obtain ⟨hmsg, hasked⟩ := hstg
    obtain ⟨⟨first, hfst, hsame⟩, hcarry⟩ := hheld.keeps
    have hsent : SubmissionInv (some key) (s.record (.send i message)) :=
      h.but.recorded hheld rfl ⟨first, hfst, hsame.carries (hcarry message hmsg)⟩
        fun command heq => (SubmissionEvent.send.inj heq).2 ▸ hasked
    exact Option.some.inj hrpl ▸ hsent.suspend hheld.recorded hmsg
  · next message result =>
    have hcarry : record.Carries message := hheld.keeps.2 message hstg
    have hans : SubmissionInv (some key) (s.record (.answer i message.operationId result)) :=
      h.but.recorded hheld rfl trivial nofun
    have hansd : Answered (s.record (.answer i message.operationId result)).log i
        record.messageOperationId :=
      ⟨_, mem_concat_self, rfl, hcarry.operationId⟩
    exact Option.some.inj hrpl ▸ hans.finish hheld.recorded hansd
  · exact Option.some.inj hrpl ▸ h.but.clear hheld hstg
  · cases hrpl

/-! ## The actions -/

/-- The key of a submission is a draft or an id made for a message. -/
theorem Placed.owner (h : s.Placed first) : match first.source with
    | .newChat _ _ => first.ownerOperationId ∈ s.drafts
    | .existingConversation => first.ownerOperationId ∈ s.messageIds := by
  unfold Placed at h
  unfold ownerOperationId
  split at h
  · next heq =>
    rw [heq]
    exact h.2
  · next heq =>
    rw [heq]
    exact h

/-- More drafts and more ids are known. -/
theorem SubmissionInv.mint {drafts messageIds : List String} (h : SubmissionInv except s)
    (hapart : ∀ id ∈ drafts, id ∉ messageIds) (hdrafts : s.drafts ⊆ drafts)
    (hids : s.messageIds ⊆ messageIds) :
    SubmissionInv except { s with drafts, messageIds } where
  __ := h
  apart := hapart
  focused id hid := hdrafts (h.focused id hid)
  placed first hfst := by
    have hpl := h.placed first hfst
    unfold Placed at hpl ⊢
    cases hsrc : first.source with
    | newChat draftId create =>
      rw [hsrc] at hpl
      exact ⟨hpl.1, hdrafts hpl.2⟩
    | existingConversation =>
      rw [hsrc] at hpl
      exact hids hpl
  stored key stored hstore := by
    obtain ⟨record, hparse, hheld⟩ := h.stored key stored hstore
    exact ⟨record, hparse, hheld.stored, hheld.owner, hheld.keeps⟩
  running key recovery hne hget := by
    obtain ⟨hheld, hstg⟩ := h.running key recovery hne hget
    exact ⟨{ hheld with }, hstg⟩

/-- A focus that is selected keeps the invariant. -/
theorem SubmissionInv.select {focus : Focus} (h : SubmissionInv none s)
    (hselect : s.select focus = some s') : SubmissionInv none s' := by
  unfold SubmissionState.select at hselect
  split at hselect
  · exact Option.some.inj hselect ▸ h.focus nofun
  · next id =>
    obtain ⟨hnew, hselect⟩ := ite_none_left_eq_some.1 hselect
    have hapart : ∀ id' ∈ id :: s.drafts, id' ∉ s.messageIds := by
      intro id' hmem
      rcases mem_cons.1 hmem with rfl | hmem
      · exact hnew
      · exact h.apart id' hmem
    refine Option.some.inj hselect ▸ (h.mint hapart (subset_cons_self _ _) (Subset.refl _)).focus ?_
    rintro id' ⟨rfl⟩
    exact mem_cons_self

/-- The page is loaded again. -/
theorem SubmissionInv.reload (h : SubmissionInv none s) :
    SubmissionInv none { s with recoveries := ∅ } where
  __ := h
  stored key stored hstore := by
    obtain ⟨record, hparse, hheld⟩ := h.stored key stored hstore
    exact ⟨record, hparse, hheld.stored, hheld.owner, hheld.keeps⟩
  running key recovery _ hget := by
    rw [AList.lookup_empty] at hget
    cases hget

theorem SubmissionInv.pendingAt (h : SubmissionInv none s) (hpend : s.pendingAt key = some record) :
    ∃ stored, s.storage.lookup key = some stored ∧ Held s key stored.submission record := by
  obtain ⟨hparsed, -⟩ := filter_eq_some_iff.1 hpend
  obtain ⟨stored, hstore, hparse⟩ := bind_eq_some_iff.1 hparsed
  obtain ⟨record', hparse', hheld⟩ := h.stored key stored hstore
  obtain rfl := Option.some.inj (hparse.symm.trans hparse')
  exact ⟨stored, hstore, hheld⟩

/-- A recovery that begins keeps the invariant. -/
theorem SubmissionInv.recover (h : SubmissionInv none s) (hrecover : s.recover key = some s') :
    SubmissionInv none s' := by
  unfold SubmissionState.recover at hrecover
  split at hrecover
  · next stored record hstore hpend =>
    obtain ⟨stored', hstore', hheld⟩ := h.pendingAt hpend
    obtain rfl := Option.some.inj (hstore.symm.trans hstore')
    split at hrecover
    · exact Option.some.inj hrecover ▸ h.runRecovery hheld
    · cases hrecover
  · cases hrecover

variable {input : SubmissionInput} {clientMsg : String}

/-- Nothing is stored under the key of a record that `send` makes: what is
there would be of what is selected. -/
theorem SubmissionInv.free
    (h : SubmissionInv none s) (hpend : s.hasPending = false) (hdrafts : operationId ∉ s.drafts)
    (hids : operationId ∉ s.messageIds)
    (hrec : s.submission input operationId clientMsg = some record) :
    s.storage.lookup record.ownerOperationId = none := by
  rw [eq_none_iff_forall_ne_some]
  intro stored hstore
  obtain ⟨held, hparse, hheld⟩ := h.stored _ stored hstore
  obtain ⟨⟨first, hfst, hsame⟩, -⟩ := hheld.keeps
  have hpl := h.placed first (mem_of_getElem? hfst)
  have hown : first.ownerOperationId = record.ownerOperationId :=
    hsame.owner.symm.trans hheld.owner
  have hnot : s.ownsRecord held = false := by
    have hat : s.pendingAt record.ownerOperationId = some held :=
      filter_eq_some_iff.2 ⟨by rw [hstore]; exact hparse, decide_eq_true hheld.owner⟩
    have hmem : record.ownerOperationId ∈ s.storage.keys :=
      AList.mem_keys.1 (AList.lookup_isSome.1 (by rw [hstore]; rfl))
    have hall := any_eq_false.1 hpend _ hmem
    rw [hat] at hall
    exact Bool.eq_false_iff.2 hall
  have hkey := hpl.owner
  unfold SubmissionState.submission at hrec
  split at hrec
  · next draftId hfocus =>
    split at hrec
    · cases hrec
    cases hrec
    change first.ownerOperationId = draftId at hown
    have hdraft : draftId ∈ s.drafts := h.focused draftId (by rw [hfocus]; rfl)
    split at hkey
    · next draftId' create hsrc =>
      -- a new chat of the draft that is selected
      unfold Placed at hpl
      unfold ownerOperationId at hown
      rw [hsrc] at hpl hown
      obtain ⟨rfl, -⟩ := hpl
      change create.operationId = draftId at hown
      rw [SubmissionState.ownsRecord, hfocus, submissionMatchesTarget, hsame.source, hsrc,
        hown] at hnot
      simp [Focus.conversationId, Focus.draftId] at hnot
    · exact h.apart draftId hdraft (hown ▸ hkey)
  · split at hrec
    · cases hrec
    split at hrec
    · cases hrec
    cases hrec
    change first.ownerOperationId = operationId at hown
    split at hkey
    · exact hdrafts (hown ▸ hkey)
    · exact hids (hown ▸ hkey)

/-- A record of a new submission carries what was submitted. -/
theorem submission_carries (hrec : s.submission input operationId clientMsg = some record) :
    ∀ message ∈ record.message, record.Carries message := by
  unfold SubmissionState.submission at hrec
  split at hrec
  · split at hrec
    · cases hrec
    cases hrec
    exact nofun
  · split at hrec
    · cases hrec
    split at hrec
    · cases hrec
    cases hrec
    rintro message ⟨rfl⟩
    exact ⟨rfl, rfl, rfl⟩

/-- A record that is made has its place. -/
theorem submission_placed (h : SubmissionInv none s)
    (hrec : s.submission input operationId clientMsg = some record) :
    ({ s with messageIds := operationId :: s.messageIds } : SubmissionState).Placed record := by
  unfold SubmissionState.submission at hrec
  split at hrec
  · next draftId hfocus =>
    split at hrec
    · cases hrec
    cases hrec
    exact ⟨rfl, h.focused draftId (by rw [hfocus]; rfl)⟩
  · split at hrec
    · cases hrec
    split at hrec
    · cases hrec
    cases hrec
    exact mem_cons_self

variable {submitted : List PendingMessageSubmission}

/-- What is submitted once more leaves the records of the others. -/
theorem Keeps.concat (h : Keeps submitted i record) : Keeps (submitted ++ [record']) i record := by
  obtain ⟨⟨first, hfst, hsame⟩, hcarry⟩ := h
  exact ⟨⟨first, getElem?_concat_eq_some.2 (.inl hfst), hsame⟩, hcarry⟩

/-- What is submitted later leaves an event faithful. -/
theorem faithful_concat
    (h : event.Faithful submitted) : event.Faithful (submitted ++ [record]) := by
  cases event with
  | create i command =>
    obtain ⟨first, draftId, hfst, hsrc⟩ := h
    exact ⟨first, draftId, getElem?_concat_eq_some.2 (.inl hfst), hsrc⟩
  | send i command =>
    obtain ⟨first, hfst, hcarry⟩ := h
    exact ⟨first, getElem?_concat_eq_some.2 (.inl hfst), hcarry⟩
  | _ => trivial

/-- **A new submission is stored**, where nothing was. -/
theorem SubmissionInv.submit (h : SubmissionInv none s)
    (hfree : s.storage.lookup record.ownerOperationId = none) (hpl : s.Placed record)
    (hcarry : ∀ message ∈ record.message, record.Carries message)
    (hvalid : parseRecord record.serialize = some record) :
    let s' := { s with
      storage := s.storage.insert record.ownerOperationId ⟨s.submitted.length, record.serialize⟩
      submitted := s.submitted ++ [record] }
    SubmissionInv none s' ∧ Held s' record.ownerOperationId s.submitted.length record := by
  intro s'
  have hkeep : ∀ key stored, s.storage.lookup key = some stored →
      s'.storage.lookup key = some stored := by
    intro key stored hstore
    rw [lookup_insert_eq, if_neg ?_]
    · exact hstore
    · rintro rfl
      rw [hfree] at hstore
      cases hstore
  have hnew : s'.storage.lookup record.ownerOperationId =
      some ⟨s.submitted.length, record.serialize⟩ := by
    rw [lookup_insert_eq, if_pos rfl]
  have hself : Held s' record.ownerOperationId s.submitted.length record :=
    ⟨⟨_, hnew, rfl⟩, rfl,
      ⟨record, getElem?_concat_eq_some.2 (.inr ⟨rfl, rfl⟩), rfl, rfl, rfl, rfl⟩, hcarry⟩
  have hheld : ∀ key i record', Held s key i record' → Held s' key i record' := by
    intro key i record' hheld
    obtain ⟨stored, hstore, hsub⟩ := hheld.stored
    exact ⟨⟨stored, hkeep key stored hstore, hsub⟩, hheld.owner, hheld.keeps.concat⟩
  refine ⟨⟨h.apart, h.focused, ?_, ?_, ?_, ?_, h.asked, ?_⟩, hself⟩
  · intro first hmem
    rcases mem_concat.1 hmem with hmem | hmem
    · exact h.placed first hmem
    · exact hmem ▸ hpl
  · intro key stored hget
    by_cases hkey : key = record.ownerOperationId
    · subst hkey
      obtain rfl := Option.some.inj (hget.symm.trans hnew)
      exact ⟨record, hvalid, hself⟩
    · change (s.storage.insert _ _).lookup key = _ at hget
      rw [lookup_insert_eq, if_neg hkey] at hget
      obtain ⟨record', hparse, hheld'⟩ := h.stored key stored hget
      exact ⟨record', hparse, hheld _ _ _ hheld'⟩
  · intro key recovery hne hget
    obtain ⟨hheld', hstg⟩ := h.running key recovery hne hget
    exact ⟨hheld _ _ _ hheld', hstg⟩
  · exact fun event hmem => faithful_concat (h.issued event hmem)
  · intro i first hfst
    rcases getElem?_concat_eq_some.1 hfst with hfst | ⟨rfl, rfl⟩
    · refine (h.kept i first hfst).imp_right ?_
      rintro ⟨stored, hstore, hsub⟩
      exact ⟨stored, hkeep _ stored hstore, hsub⟩
    · exact .inr ⟨_, hnew, rfl⟩

/-- A message that is sent keeps the invariant. -/
theorem SubmissionInv.send
    (h : SubmissionInv none s) (hsend : s.send input operationId clientMsg room = some s') :
    SubmissionInv none s' := by
  unfold SubmissionState.send at hsend
  split at hsend
  · cases hsend
  next hguard =>
  simp only [Bool.or_eq_true, decide_eq_true_eq, not_or, Bool.not_eq_true] at hguard
  obtain ⟨⟨hpend, hdrafts⟩, hids⟩ := hguard
  split at hsend
  · cases hsend
  next record hrec =>
  have hfree := h.free hpend hdrafts hids hrec
  have hpl := submission_placed h hrec
  have hapart : ∀ id ∈ s.drafts, id ∉ operationId :: s.messageIds := by
    intro id hid hmem
    rcases mem_cons.1 hmem with rfl | hmem
    · exact hdrafts hid
    · exact h.apart id hid hmem
  have hmint := h.mint hapart (Subset.refl _) (subset_cons_self _ _)
  dsimp only at hsend
  split at hsend
  · exact Option.some.inj hsend ▸ hmint
  next s₁ hpers =>
  unfold SubmissionState.persist at hpers
  obtain ⟨hvalid, ⟨⟩⟩ := ite_none_right_eq_some.1 hpers
  have hcarry := submission_carries hrec
  obtain ⟨parsed, hparsed⟩ := isSome_iff_exists.1 (Bool.and_eq_true_iff.1 hvalid).1
  obtain rfl := parseRecord_serialize_eq (fun m hm => (hcarry m hm).parts) hparsed
  obtain ⟨hinv, hheld⟩ := hmint.submit hfree hpl hcarry hparsed
  exact Option.some.inj hsend ▸ hinv.runRecovery hheld

end SubmissionState

open SubmissionState

variable {draftId : String} {s : SubmissionState}

/-- Nothing was submitted at first. -/
theorem submissionInv_init : SubmissionInv none (submissionMachine draftId).init where
  apart _ _ := not_mem_nil
  focused id hid := mem_singleton.2 (Option.some.inj hid).symm
  placed _ hmem := absurd hmem not_mem_nil
  stored key stored hget := by
    rw [show (submissionMachine draftId).init.storage = ∅ from rfl, AList.lookup_empty] at hget
    cases hget
  running key recovery _ hget := by
    rw [show (submissionMachine draftId).init.recoveries = ∅ from rfl, AList.lookup_empty] at hget
    cases hget
  issued _ hmem := absurd hmem not_mem_nil
  asked before i command hprefix := absurd (prefix_nil.1 hprefix) (by simp)
  kept i first hfst := by
    rw [show (submissionMachine draftId).init.submitted = [] from rfl, getElem?_nil] at hfst
    cases hfst

/-- The invariant holds in every reachable state. -/
theorem SubmissionInv.of_reachable (h : (submissionMachine draftId).Reachable s) :
    SubmissionInv none s := by
  refine h.rule submissionInv_init ?_
  intro s action s' _ hinv hstep
  cases action with
  | select focus => exact hinv.select hstep
  | reload focus => exact hinv.reload.select hstep
  | send input operationId clientMsg room => exact hinv.send hstep
  | recover key => exact hinv.recover hstep
  | reply key reply room =>
    obtain ⟨recovery, hget, hrpl⟩ := bind_eq_some_iff.1 hstep
    exact hinv.reply hget hrpl

/-- **A message is sent again, and not twice.** -/
theorem submissions_recoverable (h : (submissionMachine draftId).Reachable s) : s.Recoverable := by
  have hinv := SubmissionInv.of_reachable h
  refine ⟨hinv.issued, ?_, hinv.asked, ?_⟩
  · intro key key' recovery recovery' hlookup hlookup' hsame
    have hheld := (hinv.running key recovery nofun hlookup).1
    have hheld' := (hinv.running key' recovery' nofun hlookup').1
    exact (hsame ▸ hheld).key_eq hheld'
  · intro i first hfirst
    refine (hinv.kept i first hfirst).imp_right ?_
    rintro ⟨stored, hstored, hsubmission⟩
    obtain ⟨record, hparse, hheld⟩ := hinv.stored _ stored hstored
    obtain ⟨⟨first', hfirst', hsame⟩, -⟩ := hheld.keeps
    rw [hsubmission] at hfirst'
    obtain rfl := Option.some.inj (hfirst.symm.trans hfirst')
    exact ⟨stored, record, hstored, hsubmission, hparse, hsame⟩

/-- A new chat whose message mentions a file. -/
def sampleSubmission : SubmissionInput where
  input := {
    configuration := ⟨"provider", none, none, .readOnly⟩
    configurationRevision := none
    delivery := .auto
    displayText := "hello"
    modelId := "m"
    parts := [.text "hello", .mention "/a" (some .file) none] }
  snapshotKey := "k"
  cwd := "/w"
  nativeModelId := "model"

/-- The page is loaded again once the conversation is created, and again
once the message has been sent. -/
def resentRun : List SubmissionAction :=
  let conversation : ConversationId := ⟨"c", by decide⟩
  [.send sampleSubmission "operation" "client" true, .reply "draft" (.receipt .missing) true,
    .reply "draft" (.created conversation) true,
    .reload (.conversation conversation),
    .recover "draft",
    .reply "draft" (.runtime ⟨none, .readOnly, "provider", "1"⟩) true,
    .reply "draft" (.receipt .missing) true,
    .reply "draft" .uploaded true,
    .reload (.conversation conversation),
    .recover "draft",
    .reply "draft" (.receipt .received) true,
    .reply "draft" .uploaded true,
    .reply "draft" (.sent ⟨none⟩) true,
    .reply "draft" .refreshed true]

/-- The command of a message that is sent, and its submission. -/
def SubmissionEvent.sent : SubmissionEvent → Option (ℕ × SendMessage)
  | send i command => some (i, command)
  | _ => none

/-- A run that sends a message twice, by one command. -/
theorem submissions_recoverable_resent :
    let s := (submissionMachine "draft").run resentRun (submissionMachine "draft").init
    s.Recoverable ∧ ∃ sent ∈ s.log.filterMap SubmissionEvent.sent,
      s.log.filterMap SubmissionEvent.sent = [sent, sent] :=
  ⟨submissions_recoverable ⟨resentRun, Machine.exec_eq_run (by decide +kernel)⟩, by decide +kernel⟩

end Remux
