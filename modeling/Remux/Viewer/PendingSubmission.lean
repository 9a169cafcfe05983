import Remux.Viewer.Model.PendingSubmission

/-!
# A stored record is read back as it was

What `parseRecord` makes of a record that was written is that record, but
that its message has the parts that were submitted. So a record whose
message has them is read back as it was (`parseRecord_serialize_eq`). A
lemma for each object says what its fields are read as.
-/

namespace Remux

open Value ComposerPart Option

variable {s t key key' : String} {value : Value} {entries : List (String × Value)}
variable {configuration configuration' : SubmissionConfiguration}

/-! ## Fields -/

theorem get_cons : (object ((key', value) :: entries)).get key =
      if key = key' then some value else (object entries).get key := by
  show List.lookup key _ = if _ then _ else List.lookup key entries
  rw [List.lookup_cons]
  by_cases h : key = key'
  · rw [if_pos h, beq_iff_eq.2 h]
  · rw [if_neg h, beq_eq_false_iff_ne.2 h]

theorem get_nil : (object []).get key = none := rfl

theorem asStr_string : (string s).asStr = some s := rfl

theorem nullableString_nullable (s : Option String) :
    nullableString (some (nullable s)) = some s := by
  cases s <;> rfl

theorem nonempty_eq_some : nonempty (some (.string s)) = some t ↔ s = t ∧ s ≠ "" := by
  simp only [nonempty, bind_some, asStr, filter_eq_some_iff, some.injEq, decide_eq_true_eq]
  exact and_congr_right fun h => h ▸ Iff.rfl

theorem validAccess_text {access : Access} :
    validAccess (some (.string access.text)) = some access := by
  cases access <;> simp [validAccess, asStr, Access.text]

theorem validDelivery_text {delivery : SubmissionDelivery} :
    validDelivery (some (.string delivery.text)) = some delivery := by
  cases delivery <;> simp [validDelivery, asStr, SubmissionDelivery.text]

theorem mentionKind_text {kind : MentionKind} :
    mentionKind (some (.string kind.text)) = some kind := by
  cases kind <;> simp [mentionKind, asStr, MentionKind.text]

/-! ## Parts -/

/-- A part is read back as it was written. -/
theorem validPart_serialize {part part' : ComposerPart}
    (h : validPart part.serialize = some part') : part' = part := by
  cases part with
  | text content => simpa [validPart, serialize, get_cons, asStr_string] using h.symm
  | mention path kind name =>
    cases kind <;> cases name <;>
      simp [validPart, serialize, get_cons, get_nil, asStr_string, definedEntry,
        undefinedOr, nullableString_nullable, mentionKind_text] at h <;>
      exact h.symm
  | image dataUrl mimeType name =>
    cases mimeType <;> cases name <;>
      simp [validPart, serialize, get_cons, get_nil, asStr_string, definedEntry,
        undefinedOr, nullableString_nullable, bind_eq_some_iff,
        -String.startsWith_string_iff] at h <;>
      exact h.2.symm

/-- Parts are read back as they were written. -/
theorem validParts_serialize {parts parts' : List ComposerPart}
    (h : validParts (some (.array (parts.map serialize))) = some parts') :
    parts' = parts := by
  change (parts.map serialize).mapM validPart = some parts' at h
  induction parts generalizing parts' with
  | nil => exact (some.inj h).symm
  | cons part parts ih =>
    simp only [List.map_cons, List.mapM_cons, bind_eq_bind, bind_eq_some_iff,
      pure_def, some.injEq] at h
    obtain ⟨part', hpart, parts', hparts, rfl⟩ := h
    rw [validPart_serialize hpart, ih hparts]

/-! ## Objects -/

theorem validConfiguration_entries
    (h : validConfiguration (.object (configuration.entries ++ entries)) = some configuration') :
    configuration' = configuration := by
  simp [validConfiguration, SubmissionConfiguration.entries, get_cons, nullableString_nullable,
    validAccess_text, bind_eq_some_iff, nonempty_eq_some] at h
  obtain ⟨-, rfl⟩ := h
  rfl

theorem get_configuration (h : key ∉ ["providerInstanceId", "reasoning", "serviceTier", "access"]) :
    (object (configuration.entries ++ entries)).get key = (object entries).get key := by
  simp only [List.mem_cons, List.not_mem_nil, or_false, not_or] at h
  obtain ⟨h₁, h₂, h₃, h₄⟩ := h
  simp only [SubmissionConfiguration.entries, List.cons_append, List.nil_append, get_cons,
    if_neg h₁, if_neg h₂, if_neg h₃, if_neg h₄]

theorem get_source {source : SubmissionSource} (h : key ∉ ["source", "draftId", "create"]) :
    (object (source.entries ++ entries)).get key = (object entries).get key := by
  simp only [List.mem_cons, List.not_mem_nil, or_false, not_or] at h
  obtain ⟨h₁, h₂, h₃⟩ := h
  cases source <;>
    simp only [SubmissionSource.entries, List.cons_append, List.nil_append, get_cons, if_neg h₁,
      if_neg h₂, if_neg h₃]

namespace PendingMessageSubmission

variable {source source' : SubmissionSource} {draftId conversationId : Option String}
variable {opId clientMsg : String} {parts : List ComposerPart}

theorem parseOriginal_serialize {input input' : TurnSubmissionInput}
    (h : parseOriginal input.serialize = some input') : input' = input := by
  simp [parseOriginal, TurnSubmissionInput.serialize, get_configuration, get_cons,
    bind_eq_some_iff, nonempty_eq_some, asStr_string, nullableString_nullable,
    validDelivery_text] at h
  obtain ⟨configuration, hconf, parts, hparts, -, rfl⟩ := h
  rw [validConfiguration_entries hconf, validParts_serialize hparts]

theorem parseCreate_serialize {create create' : CreateConversation}
    (h : parseCreate create.serialize = some create') : create' = create := by
  simp [parseCreate, CreateConversation.serialize, get_configuration, get_cons,
    bind_eq_some_iff, nonempty_eq_some] at h
  obtain ⟨-, -, -, configuration, hconf, rfl⟩ := h
  rw [validConfiguration_entries hconf]

/-- The message takes its parts from the record. -/
theorem parseMessage_serialize {msg message' : SendMessage}
    (h : parseMessage msg.serialize opId clientMsg conversationId parts =
      some message') : message' = { msg with parts } := by
  simp [parseMessage, SendMessage.serialize, get_configuration, get_cons,
    bind_eq_some_iff, nonempty_eq_some, asStr_string, validDelivery_text] at h
  obtain ⟨configuration, hconf, -, -, -, rfl, rfl, -, rfl⟩ := h
  rw [validConfiguration_entries hconf]

/-- A message is read back as it was written. -/
theorem messageOrNull_serialize {msg message' : Option SendMessage}
    (h : messageOrNull (some ((msg.map SendMessage.serialize).getD .null)) opId
      clientMsg conversationId parts = some message') :
    message' = msg.map fun msg => { msg with parts } := by
  cases msg with
  | none => exact (some.inj h).symm
  | some msg =>
    obtain ⟨parsed, hparsed, rfl⟩ := map_eq_some_iff.1 h
    rw [parseMessage_serialize hparsed]
    rfl

/-- A source is read back as it was written. -/
theorem parseSource_entries
    (hdraft : nullableString ((object (source.entries ++ entries)).get "draftId") = some draftId)
    (h : parseSource (.object (source.entries ++ entries)) draftId conversationId =
      some source') : source' = source := by
  cases source with
  | existingConversation =>
    simp only [parseSource, SubmissionSource.entries, List.cons_append, get_cons,
      String.reduceEq, if_true, if_false] at h
    split at h
    · exact (some.inj h).symm
    · cases h
  | newChat draft create =>
    simp [parseSource, parseSource.newChat, SubmissionSource.entries, get_cons,
      nullableString_nullable] at h hdraft
    obtain ⟨create', hcreate, rfl⟩ := h
    rw [parseCreate_serialize hcreate, hdraft]

/-! ## Records -/

variable {record record' : PendingMessageSubmission}

/-- **A record that was written** is read back as it was, its message with
the parts that were submitted. -/
theorem parseRecord_serialize (h : parseRecord record.serialize = some record') :
    record' = { record with
      message := record.message.map fun msg =>
        { msg with parts := record.original.parts } } := by
  simp only [parseRecord, bind_eq_bind, bind_eq_some_iff, pure_def, some.injEq] at h
  obtain ⟨-, -, draftId, hdraft, snapshotKey, hsnap, original, ⟨value, hval, horig⟩,
    messageOperationId, hop, clientMsg, hcl, conversationId, hconv,
    source, hsrc, msg, hmsg, rfl⟩ := h
  rw [serialize] at *
  have hsrc := parseSource_entries hdraft hsrc
  simp [get_source, get_cons, nonempty_eq_some] at hsnap hval hop hcl
  simp [get_source, get_cons, nullableString_nullable] at hconv hmsg
  obtain rfl := hval
  obtain rfl := parseOriginal_serialize horig
  rw [hsrc, messageOrNull_serialize hmsg, ← hsnap.1, ← hop.1, ← hcl.1, hconv]

/-- A record whose message has the parts that were submitted. -/
def SharesParts (record : PendingMessageSubmission) : Prop :=
  ∀ message ∈ record.message, message.parts = record.original.parts

/-- A record is read back as it was written. -/
theorem parseRecord_serialize_eq (hparts : record.SharesParts)
    (h : parseRecord record.serialize = some record') :
    record' = record := by
  obtain ⟨source, snapshotKey, original, opId, clientId, conversationId, msg⟩ := record
  rw [parseRecord_serialize h]
  cases msg with
  | none => rfl
  | some msg =>
    have hmsg : msg.parts = original.parts := hparts msg rfl
    simp only [map_some, ← hmsg]

end PendingMessageSubmission

end Remux
