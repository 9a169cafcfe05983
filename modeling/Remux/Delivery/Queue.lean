import Remux.Delivery.Admission
import Remux.Delivery.Model.Queue

/-!
# A queued message is handed to its delivery

Which rows of the queue `prepare` takes as attempts, and that what it took
decodes wherever the journal goes. The payload repeats the row but for two
things: it has the triggers, which no allowlist knows, and it drops an
empty effort or tier, which the row has.
-/

namespace Remux

open DeliveryAttempt QueuedMessage PrepareDeliveryAttempt RootLane DeliveryState List Except

variable {tables : ScopeTables} {input : PrepareDeliveryAttempt} {s s' : DeliveryState}
variable {a : DeliveryAttempt} {queued : QueuedMessage} {nativeClientMessageId : String}
variable {extra : Entries}

/-! ## Identifiers -/

/-- What `identifier` demands of a text. -/
def isIdentifier (text : String) : Bool :=
  text ≠ "" && text.utf8ByteSize ≤ 512 &&
    (text.toList.head?.any Char.isAlphanum && text.toList.all isIdentifierChar)

/-- What is read as an identifier. -/
theorem textIdentifier_isOk (text name : String) :
    (∃ t, textIdentifier text name = .ok t) ↔ isIdentifier text = true := by
  change (∃ t, (check _ _ >>= fun _ => check _ _ >>= fun _ => pure _) = ok t) ↔ _
  simp only [bind_eq_ok, check_eq_ok]
  constructor
  · rintro ⟨t, _, h₁, _, h₂, _⟩
    exact Bool.and_eq_true_iff.2 ⟨h₁, h₂⟩
  · intro h
    obtain ⟨h₁, h₂⟩ := Bool.and_eq_true_iff.1 h
    exact ⟨text, (), h₁, (), h₂, rfl⟩

variable (field : Option String)

theorem optionalIdentifier_isOk (name : String) :
    (∃ v, optionalIdentifier field name = .ok v) ↔ field.all isIdentifier = true := by
  cases field with
  | none => exact ⟨fun _ => rfl, fun _ => ⟨none, rfl⟩⟩
  | some text =>
    rw [Option.all_some, ← textIdentifier_isOk text name]
    change (∃ v, some <$> textIdentifier text name = .ok v) ↔ _
    cases textIdentifier text name with
    | ok t => exact ⟨fun _ => ⟨t, rfl⟩, fun _ => ⟨some t, rfl⟩⟩
    | error e => exact ⟨fun ⟨_, h⟩ => (nomatch h), fun ⟨_, h⟩ => (nomatch h)⟩

/-- The row of an attempt has the identifiers of its input. -/
theorem decodeAttempt_row (hids : input.validateIdentifiers = .ok ())
    (hcompact : input.compactOperationId.all isIdentifier = true)
    (hshape : input.row.validShape = true) : input.row.decodeAttempt = .ok () := by
  have hfields : ∀ field ∈ [some input.attemptId, some input.commandId,
      some input.providerInstanceId, some input.conversationId, some input.executionId,
      input.intendedTurnId, input.clientMessageId, input.nativeClientMessageId,
      some input.nativeSessionId, input.processGeneration, some input.ownerInstanceId],
      field.all isIdentifier = true := by
    have hall := forM_eq_ok hids
    have hpure : ∃ u : PUnit, (pure () : Except String Unit) = .ok u := ⟨(), rfl⟩
    simp only [forall_mem_cons, bind_eq_ok, exists_comm, exists_and_left] at hall ⊢
    simpa [hpure, optionalIdentifier_isOk] using hall
  have hcolumns : ∀ column ∈ input.row.identifiers, column.1.all isIdentifier = true := by
    simp only [forall_mem_cons] at hfields
    simp only [DeliveryAttempt.identifiers, row, forall_mem_cons,
      hfields, hcompact, Option.all_none, not_mem_nil, false_implies, implies_true, and_self]
  unfold decodeAttempt
  rw [forM_ok_of_forall fun column hmem => ?_]
  · rw [hshape]
    rfl
  · obtain ⟨v, hv⟩ := (optionalIdentifier_isOk column.1 column.2).2 (hcolumns column hmem)
    exact ⟨_, bind_eq_ok.2 ⟨v, hv, rfl⟩⟩

/-! ## What `prepare` takes -/

theorem orFail_eq_ok {x : Except String Unit} {u : Unit} : orFail x = .ok u ↔ x = .ok () := by
  cases x with
  | ok v => exact ⟨fun _ => rfl, fun _ => rfl⟩
  | error e => exact ⟨nofun, nofun⟩

/-- A new row meets the constraints of the table when it has the frozen
identifiers of its kind. -/
theorem checks_row (hshape : input.row.validShape = true) : input.row.Checks where
  acceptance_size := by simp [row]
  rejection_size := by simp [row]
  recovery_size := by simp [row]
  updated := le_rfl
  shape := hshape
  crossed := .inl ⟨rfl, rfl⟩
  accepted_iff := by simp [row]
  rejected_iff := by simp [row]
  unknown_iff := by simp [row]
  accepted_evidence := by simp [row]
  evidence_state := by simp [row]
  rejection_iff := by simp [row]
  crossed_time := by simp [Timed, row]
  accepted_time := by simp [Timed, row]
  rejected_time := by simp [Timed, row]
  unknown_time := by simp [Timed, row]

/-- The state the journal is in, and the input, where the command is new. -/
structure NewCommand (s : DeliveryState) (input : PrepareDeliveryAttempt) : Prop where
  owner : input.ownerInstanceId = s.ownerInstanceId
  ids : input.validateIdentifiers = .ok ()
  unused : s.byCommand input.commandId = none
  fresh : s.attempts.lookup input.attemptId = none
  shape : input.row.validShape = true
  compact : input.compactOperationId.all isIdentifier = true

/-- The attempt of a new command is the step `prepare` of the machine. -/
theorem NewCommand.prepare_eq (h : NewCommand s input) : s.prepare input true =
      { s with attempts := s.attempts.insert input.attemptId ⟨input.row, [], 0, none, [],
        [], []⟩ } := by
  refine if_pos ?_
  have hunused : s.attempts.entries.all (fun entry =>
      entry.2.row.commandId ≠ input.commandId && entry.1 ≠ input.attemptId) = true := by
    have hnone := h.unused
    simp only [byCommand, Option.map_eq_none_iff, find?_eq_none] at hnone
    rw [all_eq_true]
    rintro ⟨id, record⟩ hmem
    have hcommand := hnone _ hmem
    have hkey : id ≠ input.attemptId := by
      rintro rfl
      have hget := AList.mem_lookup_iff.2 hmem
      rw [h.fresh] at hget
      cases hget
    simpa [hkey] using hcommand
  rw [hunused, h.ids]
  simp [h.owner, checks_row h.shape, Except.isOk, Except.toBool]

/-- **What `prepare` takes**: a payload that fits, that matches the rows
its scope is about, and that decodes. -/
theorem NewCommand.prepareAttempt_eq_ok (h : NewCommand s input) :
    s.prepareAttempt tables input = .ok (s', a) ↔
      charBytes (canonicalJson input.recoveryPayload) ≤ maxPayloadBytes ∧
        input.validateScope tables = .ok () ∧ input.row.validateDecodedRootPayload = .ok () ∧
        s' = s.prepare input true ∧ a = input.row := by
  have hget : (s.prepare input true).attempts.lookup input.attemptId =
      some ⟨input.row, [], 0, none, [], [], []⟩ := by
    rw [h.prepare_eq]
    exact AList.lookup_insert _
  have hdec : input.row.decodeVerified = .ok () ↔
      input.row.validateDecodedRootPayload = .ok () := by
    unfold decodeVerified
    rw [decodeAttempt_row h.ids h.compact h.shape]
    change (input.row.validateDecodedRootPayload >>= fun _ => pure ()) = .ok () ↔ _
    rw [bind_eq_ok]
    exact ⟨fun ⟨_, hpay, _⟩ => hpay, fun hpay => ⟨(), hpay, rfl⟩⟩
  have hrequire (a : DeliveryAttempt) :
      AttemptRecord.require ⟨input.row, [], 0, none, [], [], []⟩ = .ok a ↔
        input.row.validateDecodedRootPayload = .ok () ∧ a = input.row := by
    unfold AttemptRecord.require
    simp only [bind_eq_ok, orFail_eq_ok, hdec]
    constructor
    · rintro ⟨u, hpay, ha⟩
      exact ⟨hpay, (ok.inj ha).symm⟩
    · rintro ⟨hpay, rfl⟩
      exact ⟨(), hpay, rfl⟩
  unfold prepareAttempt
  simp only [bind_eq_ok, check_eq_ok, orFail_eq_ok, h.unused, hget, hrequire]
  constructor
  · rintro ⟨_, _, _, hsize, _, _, _, hsc, _, _, a', ⟨hpay, rfl⟩, heq⟩
    cases ok.inj heq
    exact ⟨of_decide_eq_true hsize, hsc, hpay, rfl, rfl⟩
  · rintro ⟨hsize, hsc, hpay, rfl, rfl⟩
    exact ⟨(), decide_eq_true h.owner, (), decide_eq_true hsize, (), h.ids, (), hsc, (),
      by simp [h.fresh, checks_row h.shape], _, ⟨hpay, rfl⟩, rfl⟩

/-! ## The payload of a queued message -/

theorem lookup_optionalEntry (key key' : String) (value : Option Value) :
    (optionalEntry key value).lookup key' = if key' = key then value else none := by
  cases value with
  | none => simp [optionalEntry]
  | some v =>
    by_cases h : key' = key
    · simp [optionalEntry, h]
    · simp [optionalEntry, lookup_cons, beq_eq_false_iff_ne.2 h, h]

/-- The fields of a recovery payload. -/
theorem get_recoveryPayload (key : String) :
    (queued.recoveryPayload nativeClientMessageId extra).get key =
      if key = "turnId" then some (.string queued.turnId)
      else if key = "clientMessageId" then some (.string queued.clientMessageId)
      else if key = "nativeClientMessageId" then some (.string nativeClientMessageId)
      else if key = "content" then some queued.content
      else if key = "origin" then some (.string queued.origin.text)
      else if key = "trigger" then queued.trigger.or (extra.lookup key)
      else if key = "triggers" then queued.triggers.or (extra.lookup key)
      else if key = "model" then some (.string queued.model)
      else if key = "effort" then
        ((queued.effort.filter (· ≠ "")).map .string).or (extra.lookup key)
      else if key = "serviceTier" then
        ((queued.serviceTier.filter (· ≠ "")).map .string).or (extra.lookup key)
      else if key = "access" then some (.string queued.access.text)
      else extra.lookup key := by
  have hcons (k : String) (v : Value) (es : Entries) :
      ((k, v) :: es).lookup key = if key = k then some v else es.lookup key := by
    rw [lookup_cons]
    by_cases h : key = k
    · simp [h]
    · simp [beq_eq_false_iff_ne.2 h, h]
  simp only [QueuedMessage.recoveryPayload, presentEntry, Value.get, lookup_append, hcons,
    lookup_nil, lookup_optionalEntry]
  by_cases h : key ∈ ["turnId", "clientMessageId", "nativeClientMessageId", "content", "origin",
    "trigger", "triggers", "model", "effort", "serviceTier", "access"]
  · simp only [mem_cons, not_mem_nil, or_false] at h
    rcases h with rfl | rfl | rfl | rfl | rfl | rfl | rfl | rfl | rfl | rfl | rfl <;> simp
  · simp only [mem_cons, not_mem_nil, or_false, not_or] at h
    obtain ⟨h₁, h₂, h₃, h₄, h₅, h₆, h₇, h₈, h₉, h₁₀, h₁₁⟩ := h
    simp only [if_neg, h₁, h₂, h₃, h₄, h₅, h₆, h₇, h₈, h₉, h₁₀, h₁₁, Option.none_or,
      not_false_eq_true]

/-- The keys of every payload but the triggers. -/
def frozenKeys : List String :=
  ["turnId", "clientMessageId", "nativeClientMessageId", "content", "origin", "trigger", "model",
    "effort", "serviceTier", "access"]

/-- **The allowlists know every key but the triggers.** -/
theorem exactKeys_recoveryPayload {allowed : List String}
    (hfrozen : ∀ key ∈ frozenKeys, key ∈ allowed)
    (htrigs : "triggers" ∉ allowed) (hextra : ∀ entry ∈ extra, entry.1 ∈ allowed) :
    exactKeys (queued.recoveryPayload nativeClientMessageId extra) allowed =
      queued.triggers.isNone := by
  have hoptional (key : String) (value : Option Value) (h : key ∈ allowed) :
      (optionalEntry key value).all (fun entry => decide (entry.1 ∈ allowed)) = true := by
    cases value <;> simp [optionalEntry, h]
  have hnotriggers : (optionalEntry "triggers" queued.triggers).all
      (fun entry => decide (entry.1 ∈ allowed)) = queued.triggers.isNone := by
    cases queued.triggers <;> simp [optionalEntry, htrigs]
  simp only [frozenKeys, forall_mem_cons] at hfrozen
  obtain ⟨h₁, h₂, h₃, h₄, h₅, h₆, h₇, h₈, h₉, h₁₀, -⟩ := hfrozen
  have hrest : extra.all (fun entry => decide (entry.1 ∈ allowed)) = true := by
    simpa [all_eq_true] using hextra
  simp [exactKeys, QueuedMessage.recoveryPayload, presentEntry, all_append, hoptional,
    hnotriggers, hrest, h₁, h₂, h₃, h₄, h₅, h₆, h₇, h₈, h₉, h₁₀]

theorem sameField_present :
    sameField ((field.filter (· ≠ "")).map .string) field = decide (field ≠ some "") := by
  cases field with
  | none => rfl
  | some text => by_cases h : text = "" <;> simp [Option.filter, h, sameField, Value.asStr]

theorem sameField_string (text : String) : sameField (some (.string text)) (some text) = true := by
  simp [sameField, Value.asStr]

theorem dropNull_getD (value : Option Value) : (dropNull value).getD .null = value.getD .null := by
  rcases value with _ | (_ | _ | _ | _ | _ | _) <;> rfl

/-- **The payload repeats the row** but for an empty effort or tier. -/
theorem matchesQueued_recoveryPayload {turnId : String}
    (hextra : ∀ key ∈ frozenKeys, extra.lookup key = none) :
    matchesQueued queued
        ({ queued with turnId }.recoveryPayload nativeClientMessageId extra) = .ok true ↔
      jsonBytes queued.content ≤ maxPayloadBytes ∧ queued.effort ≠ some "" ∧
        queued.serviceTier ≠ some "" := by
  have hget (key : String) (hkey : key ∈ frozenKeys) :=
    @get_recoveryPayload { queued with turnId } nativeClientMessageId extra key
  simp only [frozenKeys, forall_mem_cons] at hget hextra
  obtain ⟨-, -, -, hcont, horigin, htrig, hmodel, heffort, htier, haccess, -⟩ := hget
  obtain ⟨-, -, -, -, -, hnotrigger, -, hnoeffort, hnotier, -⟩ := hextra
  simp only [hnotrigger, hnoeffort, hnotier, Option.or_none, String.reduceEq, if_true, if_false]
    at hcont horigin htrig hmodel heffort htier haccess
  have hdrop (text : String) : (dropNull (some (.string text))).getD (.string "user") =
    .string text := rfl
  unfold matchesQueued
  simp only [hcont, horigin, htrig, hmodel, heffort, htier, haccess, dropNull_getD,
    hdrop, sameField_string, sameField_present, bind_eq_ok, check_eq_ok]
  constructor
  · rintro ⟨_, hsize, h⟩
    simpa [of_decide_eq_true hsize, pure, Except.pure] using h
  · rintro ⟨hsize, heffort, htier⟩
    exact ⟨(), decide_eq_true hsize, by simp [heffort, htier, pure, Except.pure]⟩

/-! ## A claimed row -/

variable {message : EnqueueTurn} {ordinal : ℕ} {state : QueuedState} {lane : RootLane}
variable {stableUuid : String → String} {activeTurnId : Option String}

/-- A claimed row is the one that was written. -/
theorem claimQueuedTurn_eq (h : claimQueuedTurn { enqueueTurn message ordinal with state } =
    some queued) : queued = { enqueueTurn message ordinal with state := .dispatching } := by
  unfold claimQueuedTurn at h
  split at h
  · cases h
  · exact (Option.some.inj h).symm

theorem triggers_enqueueTurn : (enqueueTurn message ordinal).triggers = none ↔
      message.trigger = none ∧ message.triggers = none := by
  cases htrigs : message.triggers <;> simp [enqueueTurn, htrigs]

/-- **The condition on a message**: no trigger, no text that is empty where
the payload drops it or its reader refuses it, and a body that fits. -/
structure EnqueueTurn.Deliverable (message : EnqueueTurn) (attempt : PrepareDeliveryAttempt) :
    Prop where
  trigger : message.trigger = none
  triggers : message.triggers = none
  effort : message.effort ≠ some ""
  serviceTier : message.serviceTier ≠ some ""
  model : message.model ≠ ""
  content_size :
    jsonBytes (.array (message.content.map UserContentPart.toValue)) ≤ maxPayloadBytes
  payload_size : charBytes (canonicalJson attempt.recoveryPayload) ≤ maxPayloadBytes

/-- The rows match: the journal has the lane, the accepted receipt and the
claimed row of the command, and no attempt of it. -/
structure RootLane.Rows (lane : RootLane) (tables : ScopeTables) (s : DeliveryState)
    (queued : QueuedMessage) (attempt : PrepareDeliveryAttempt) (activeTurnId : Option String) :
    Prop where
  owner : lane.ownerInstanceId = s.ownerInstanceId
  ids : attempt.validateIdentifiers = .ok ()
  unused : s.byCommand queued.commandId = none
  fresh : s.attempts.lookup lane.attemptId = none
  provider : tables.provider lane.providerInstanceId = some lane.provider
  conversation : tables.conversation lane.conversationId =
    some ⟨lane.providerInstanceId, lane.rootExecutionId, activeTurnId⟩
  execution : tables.execution lane.rootExecutionId =
    some ⟨lane.conversationId, lane.providerInstanceId⟩
  session : tables.nativeSession lane.rootExecutionId =
    some ⟨lane.nativeSessionId, lane.providerInstanceId⟩
  receipt : tables.receipt queued.commandId = some ⟨"turn.send", .accepted⟩
  row : tables.queuedMessage queued.commandId = some queued
  same : queued.conversationId = lane.conversationId

/-- The attempt is taken, and its payload decodes wherever the journal
goes. -/
def Delivers (tables : ScopeTables) (s : DeliveryState) (attempt : PrepareDeliveryAttempt) : Prop :=
  ∃ s' a, s.prepareAttempt tables attempt = .ok (s', a) ∧
    ∀ s'', deliveryMachine.Leads s' s'' → ∃ r, s''.attempts.lookup attempt.attemptId = some r ∧
      r.row.recoveryPayload = attempt.recoveryPayload ∧
      r.row.validateDecodedRootPayload = .ok ()

/-- What the payload's check reads is frozen. -/
theorem validateDecodedRootPayload_of_frozen {b : DeliveryAttempt} (h : b.frozen = a.frozen) :
    b.recoveryPayload = a.recoveryPayload ∧
      b.validateDecodedRootPayload = a.validateDecodedRootPayload := by
  simp only [DeliveryAttempt.frozen, Prod.mk.injEq] at h
  obtain ⟨⟨-, -, hkind, hprov, -, -, -⟩, hturn, hcl, hnative, hcompact, hpay, -⟩ := h
  refine ⟨hpay, ?_⟩
  unfold validateDecodedRootPayload
  rw [hkind, hprov, hturn, hcl, hnative, hcompact, hpay]

/-- **What was prepared decodes in every later read.** -/
theorem NewCommand.delivers_iff (h : NewCommand s input) (hs : deliveryMachine.Reachable s) :
    Delivers tables s input ↔ charBytes (canonicalJson input.recoveryPayload) ≤ maxPayloadBytes ∧
        input.validateScope tables = .ok () ∧ input.row.validateDecodedRootPayload = .ok () := by
  constructor
  · rintro ⟨s', a, hprep, -⟩
    obtain ⟨hsize, hsc, hpay, -⟩ := h.prepareAttempt_eq_ok.1 hprep
    exact ⟨hsize, hsc, hpay⟩
  · rintro ⟨hsize, hsc, hpay⟩
    refine ⟨_, _, h.prepareAttempt_eq_ok.2 ⟨hsize, hsc, hpay, rfl, rfl⟩, fun s'' hleads => ?_⟩
    have hreach : deliveryMachine.Reachable (s.prepare input true) :=
      hs.step (a := .prepare input true) rfl
    have hget : (s.prepare input true).attempts.lookup input.attemptId =
        some ⟨input.row, [], 0, none, [], [], []⟩ := by
      rw [h.prepare_eq]
      exact AList.lookup_insert _
    obtain ⟨r, hr, hlat⟩ := later_of_leads hreach hleads hget
    obtain ⟨hsame, hdecodes⟩ := validateDecodedRootPayload_of_frozen hlat.frozen
    exact ⟨r, hr, hsame, hdecodes.trans hpay⟩

/-! ## The scope and the decoding of the payload -/

variable {attempt : PrepareDeliveryAttempt}

/-- The rows of the lane pass their check, and the command's own follows. -/
theorem RootLane.Rows.validateScope_iff (h : lane.Rows tables s queued attempt activeTurnId)
    (hlane : attempt.provider = lane.provider ∧
      attempt.providerInstanceId = lane.providerInstanceId ∧
      attempt.conversationId = lane.conversationId ∧
      attempt.executionId = lane.rootExecutionId ∧ attempt.nativeSessionId = lane.nativeSessionId)
    {entries : Entries} (hpay : attempt.recoveryPayload = .object entries) :
    attempt.validateScope tables = .ok () ↔ (match attempt.kind with
        | .steer => attempt.validateSteer tables
        | .manualCompact => attempt.validateCompact tables
        | .rootTurn => attempt.validateRoot tables) = .ok () := by
  obtain ⟨hprov, hinstance, hconv, hexec, hsess⟩ := hlane
  have hmatches : attempt.laneMatches tables = true := by
    simp [laneMatches, hprov, hinstance, hconv, hexec,
      hsess, h.provider, h.conversation, h.execution, h.session]
  have hrec : requireRecord attempt.recoveryPayload "delivery recovery payload" = .ok () := by
    rw [hpay]
    rfl
  unfold validateScope
  rw [h.ids, hmatches, hrec]
  exact Iff.rfl

/-- A root turn is valid if its message is. -/
theorem validateRoot_iff (h : lane.Rows tables s queued (lane.rootTurn queued stableUuid)
    activeTurnId) :
    (lane.rootTurn queued stableUuid).validateRoot tables = .ok () ↔
      queued.triggers = none ∧ jsonBytes queued.content ≤ maxPayloadBytes ∧
        queued.effort ≠ some "" ∧ queued.serviceTier ≠ some "" := by
  have hqd : (lane.rootTurn queued stableUuid).queuedRow tables = some queued := by
    simp [queuedRow, rootTurn, h.row, h.same]
  have hids : (lane.rootTurn queued stableUuid).sameIdentities = true := by
    simp [sameIdentities, rootTurn, get_recoveryPayload, sameField_string]
  have hkeys : exactKeys (lane.rootTurn queued stableUuid).recoveryPayload
      ["turnId", "clientMessageId", "nativeClientMessageId", "content", "model", "effort",
        "serviceTier", "access", "origin", "trigger"] = queued.triggers.isNone :=
    exactKeys_recoveryPayload (by decide) (by decide) fun _ hmem => absurd hmem not_mem_nil
  have hrepeats : matchesQueued queued (lane.rootTurn queued stableUuid).recoveryPayload =
      .ok true ↔ _ := matchesQueued_recoveryPayload fun _ _ => rfl
  unfold validateRoot
  simp only [bind_eq_ok, check_eq_ok, hkeys, hids, hqd, Bool.and_true, Option.isNone_iff_eq_none]
  constructor
  · rintro ⟨_, htrigs, _, _, _, _, ok, hok, htrue⟩
    exact ⟨htrigs, hrepeats.1 (htrue ▸ hok)⟩
  · rintro ⟨htrigs, hrest⟩
    have hreceipt : tables.receipt (lane.rootTurn queued stableUuid).commandId =
      some ⟨"turn.send", .accepted⟩ := h.receipt
    exact ⟨(), htrigs, (), by simp [hreceipt], (), by simp [rootTurn], true, hrepeats.2 hrest, rfl⟩

/-- The active turn an input is for. -/
structure ActiveTurn (tables : ScopeTables) (lane : RootLane) (turnId nativeTurnId : String) :
    Prop where
  turn : ∃ state, tables.turn turnId =
    some ⟨lane.conversationId, lane.rootExecutionId, some nativeTurnId, state⟩ ∧
      (state = .running ∨ state = .recovering)
  identifier : isIdentifier nativeTurnId = true

/-- An input that steers is valid if its message is. -/
theorem validateSteer_iff {turnId nativeId : String} {afterBlockId : Option String}
    (h : lane.Rows tables s queued
      (lane.activeInput queued stableUuid turnId nativeId afterBlockId) (some turnId))
    (hact : ActiveTurn tables lane turnId nativeId) (hauto : queued.deliveryIntent = .auto)
    (hst : queued.state = .dispatching) :
    (lane.activeInput queued stableUuid turnId nativeId afterBlockId).validateSteer tables =
        .ok () ↔
      queued.triggers = none ∧ jsonBytes queued.content ≤ maxPayloadBytes ∧
        queued.effort ≠ some "" ∧ queued.serviceTier ≠ some "" := by
  obtain ⟨state, hturn, hrun⟩ := hact.turn
  have hqd : (lane.activeInput queued stableUuid turnId nativeId afterBlockId).queuedRow
      tables = some queued := by
    simp [queuedRow, activeInput, h.row, h.same]
  have hids : (lane.activeInput queued stableUuid turnId nativeId
      afterBlockId).sameIdentities = true := by
    simp [sameIdentities, activeInput, get_recoveryPayload, sameField_string]
  have hkeys : exactKeys (lane.activeInput queued stableUuid turnId nativeId
      afterBlockId).recoveryPayload
      ["turnId", "clientMessageId", "nativeClientMessageId", "content", "model", "effort",
        "serviceTier", "access", "expectedNativeTurnId", "afterBlockId", "origin", "trigger"] =
      queued.triggers.isNone :=
    exactKeys_recoveryPayload (by decide) (by decide) (by simp)
  have hrepeats : matchesQueued queued (lane.activeInput queued stableUuid turnId nativeId
      afterBlockId).recoveryPayload = .ok true ↔ _ :=
    matchesQueued_recoveryPayload (by simp [frozenKeys])
  have hexpected : sameField ((lane.activeInput queued stableUuid turnId nativeId
      afterBlockId).recoveryPayload.get "expectedNativeTurnId") (some nativeId) = true := by
    simp [activeInput, get_recoveryPayload, sameField_string]
  have hcl : some queued.clientMessageId = (lane.activeInput queued stableUuid turnId
      nativeId afterBlockId).clientMessageId := rfl
  unfold validateSteer
  simp only [hqd, hkeys, hids]
  have hreceipt : tables.receipt (lane.activeInput queued stableUuid turnId nativeId
      afterBlockId).commandId = some ⟨"turn.send", .accepted⟩ := h.receipt
  have hsc : (((lane.activeInput queued stableUuid turnId nativeId
      afterBlockId).intendedTurnId.bind tables.turn).any fun turn =>
        turn.conversationId = lane.conversationId && turn.executionId = lane.rootExecutionId &&
          (tables.conversation lane.conversationId).any (fun conversation =>
            conversation.activeTurnId.isSome && conversation.activeTurnId = some turnId) &&
          (turn.state = .running || turn.state = .recovering) && turn.nativeTurnId.isSome &&
          sameField ((lane.activeInput queued stableUuid turnId nativeId
            afterBlockId).recoveryPayload.get "expectedNativeTurnId")
            turn.nativeTurnId) = true := by
    simp [activeInput, hturn, h.conversation, hrun, get_recoveryPayload, sameField_string]
  rw [hreceipt]
  simp only [Option.any_some, decide_true, if_true, Option.filter_some, hauto, hst,
    Bool.and_true, Bool.true_and, ← hcl, bind_eq_ok, check_eq_ok]
  constructor
  · rintro ⟨ok, hok, hcheck⟩
    obtain ⟨hbef, -⟩ := Bool.and_eq_true_iff.1 hcheck
    obtain ⟨htrigs, hacc⟩ := Bool.and_eq_true_iff.1 hbef
    have htrue : ok = true := by simpa using hacc
    exact ⟨Option.isNone_iff_eq_none.1 htrigs, hrepeats.1 (htrue ▸ hok)⟩
  · rintro ⟨htrigs, hrest⟩
    refine ⟨true, hrepeats.2 hrest, Bool.and_eq_true_iff.2 ⟨?_, hsc⟩⟩
    simp [htrigs]

theorem includesText_text {options : List String} {text : String} (h : text ∈ options) :
    includesText options (.string text) = true := by
  simpa [includesText] using h

theorem text_access (access : Access) :
    access.text ∈ ["read-only", "workspace-write", "full-access"] := by
  cases access <;> decide

theorem text_origin (origin : TurnOrigin) :
    origin.text ∈ ["user", "native-followup", "federation-notification"] := by
  cases origin <;> decide

theorem optionalText_present : optionalText ((field.filter (· ≠ "")).map .string) = true := by
  cases field with
  | none => rfl
  | some text => by_cases h : text = "" <;> simp [Option.filter, h, optionalText, Value.asStr]

/-- The keys a decoded payload may have. -/
def decodedKeys (kind : DeliveryAttemptKind) : List String :=
  ["turnId", "clientMessageId", "nativeClientMessageId", "content", "model", "effort",
    "serviceTier", "access", "origin", "trigger"] ++
    (if kind = .steer then ["expectedNativeTurnId", "afterBlockId"] else [])

/-- **A payload without triggers decodes when its model is not empty.** -/
theorem validateDecodedRootPayload_iff {turnId : String} {values : List Value}
    (hpay : a.recoveryPayload = { queued with turnId }.recoveryPayload nativeClientMessageId extra)
    (hturn : a.intendedTurnId = some turnId) (hcl : a.clientMessageId = some queued.clientMessageId)
    (hnative : a.nativeClientMessageId = some nativeClientMessageId)
    (hallowed : ∀ entry ∈ extra, entry.1 ∈ decodedKeys a.kind)
    (hextra : ∀ key ∈ frozenKeys, extra.lookup key = none)
    (hkind : a.kind = .rootTurn ∨ a.kind = .steer ∧ ∃ nativeTurnId,
      extra.lookup "expectedNativeTurnId" = some (.string nativeTurnId) ∧
        isIdentifier nativeTurnId = true)
    (htrigs : queued.triggers = none) (htrig : queued.trigger = none)
    (hcont : queued.content = .array values) :
    a.validateDecodedRootPayload = .ok () ↔ queued.model ≠ "" := by
  have hkeys : exactKeys a.recoveryPayload (decodedKeys a.kind) = true := by
    rw [hpay, exactKeys_recoveryPayload ?_ ?_ hallowed, htrigs]
    · rfl
    · intro key hkey
      exact mem_append_left _ (by revert key; decide)
    · rcases hkind with h | ⟨h, -⟩ <;> rw [h] <;> decide
  simp only [frozenKeys, forall_mem_cons] at hextra
  obtain ⟨-, -, -, -, -, hnotrigger, -, hnoeffort, hnotier, -⟩ := hextra
  have hrec : requireRecord a.recoveryPayload "delivery recovery payload" = .ok () := by
    rw [hpay]
    rfl
  have hfields : ∀ isArray : Value → Bool, isArray (.array values) = true →
      (exactKeys a.recoveryPayload (decodedKeys a.kind) &&
      sameField (a.recoveryPayload.get "turnId") a.intendedTurnId &&
      ((a.recoveryPayload.get "origin").all
        (includesText ["user", "native-followup", "federation-notification"])) &&
      (a.recoveryPayload.get "trigger").all validTurnTrigger &&
      sameField (a.recoveryPayload.get "clientMessageId") a.clientMessageId &&
      sameField (a.recoveryPayload.get "nativeClientMessageId") a.nativeClientMessageId &&
      (a.recoveryPayload.get "content").any isArray &&
      ((a.recoveryPayload.get "model").bind Value.asStr).any (· ≠ "") &&
      optionalText (a.recoveryPayload.get "effort") &&
      optionalText (a.recoveryPayload.get "serviceTier")) = decide (queued.model ≠ "") := by
    intro isArray harray
    rw [hkeys, hpay]
    simp only [get_recoveryPayload, String.reduceEq, if_true, if_false, hnotrigger, hnoeffort,
      hnotier, harray, htrig, hcont, hturn, hcl, hnative, Option.or_none, sameField_string,
      optionalText_present, Option.all_some, Option.all_none, Option.any_some, Option.bind_some,
      includesText_text (text_origin _), Value.asStr, Bool.true_and, Bool.and_true]
  have haccess : (a.recoveryPayload.get "access").any
      (includesText ["read-only", "workspace-write", "full-access"]) = true := by
    rw [hpay]
    simp only [get_recoveryPayload, String.reduceEq, if_true, if_false, Option.any_some,
      includesText_text (text_access _)]
  unfold validateDecodedRootPayload
  rcases hkind with hkind | ⟨hkind, nativeTurnId, hget, hident⟩
  · rw [hkind] at hfields
    simp only [hkind]
    constructor
    · intro h
      obtain ⟨_, -, h⟩ := bind_eq_ok.1 h
      obtain ⟨_, hcheck, -⟩ := bind_eq_ok.1 h
      exact of_decide_eq_true ((hfields _ (by rfl)).symm.trans (check_eq_ok.1 hcheck))
    · intro h
      exact bind_eq_ok.2 ⟨(), hrec, bind_eq_ok.2 ⟨(),
        check_eq_ok.2 ((hfields _ (by rfl)).trans (decide_eq_true h)), check_eq_ok.2 haccess⟩⟩
  · have hexpected : a.recoveryPayload.get "expectedNativeTurnId" =
        some (.string nativeTurnId) := by
      rw [hpay]
      simp only [get_recoveryPayload, String.reduceEq, if_false, hget]
    obtain ⟨text, htext⟩ := (textIdentifier_isOk nativeTurnId "expectedNativeTurnId").2 hident
    rw [hkind] at hfields
    simp only [hkind]
    constructor
    · intro h
      obtain ⟨_, -, h⟩ := bind_eq_ok.1 h
      obtain ⟨_, hcheck, -⟩ := bind_eq_ok.1 h
      exact of_decide_eq_true ((hfields _ (by rfl)).symm.trans (check_eq_ok.1 hcheck))
    · intro h
      refine bind_eq_ok.2 ⟨(), hrec, bind_eq_ok.2 ⟨(),
        check_eq_ok.2 ((hfields _ (by rfl)).trans (decide_eq_true h)), ?_⟩⟩
      rw [hexpected]
      exact bind_eq_ok.2 ⟨(), rfl, bind_eq_ok.2 ⟨text, htext, check_eq_ok.2 haccess⟩⟩

/-! ## Every queued message -/

/-- The conditions of the scope and of the decoding are those on the
message. -/
theorem deliverable_iff
    (hclaim : claimQueuedTurn { enqueueTurn message ordinal with state } = some queued)
    (hdecodes : queued.triggers = none → queued.trigger = none →
      ∀ values, queued.content = .array values →
      (attempt.row.validateDecodedRootPayload = .ok () ↔ queued.model ≠ "")) :
    (charBytes (canonicalJson attempt.recoveryPayload) ≤ maxPayloadBytes ∧
      (queued.triggers = none ∧ jsonBytes queued.content ≤ maxPayloadBytes ∧
        queued.effort ≠ some "" ∧ queued.serviceTier ≠ some "") ∧
      attempt.row.validateDecodedRootPayload = .ok ()) ↔ message.Deliverable attempt := by
  obtain rfl := claimQueuedTurn_eq hclaim
  have htrigs := @triggers_enqueueTurn message ordinal
  have hdecodes (h : message.trigger = none ∧ message.triggers = none) :
      attempt.row.validateDecodedRootPayload = .ok () ↔ message.model ≠ "" :=
    hdecodes (htrigs.2 h) (by simp [enqueueTurn, h.1, h.2]) _ rfl
  constructor
  · rintro ⟨hsize, ⟨hnone, hcont, heffort, htier⟩, hpay⟩
    have hno := htrigs.1 hnone
    exact ⟨hno.1, hno.2, heffort, htier, (hdecodes hno).1 hpay, hcont, hsize⟩
  · rintro ⟨htrig, htrigs', heffort, htier, hmodel, hcont, hsize⟩
    exact ⟨hsize, ⟨htrigs.2 ⟨htrig, htrigs'⟩, hcont, heffort, htier⟩,
      (hdecodes ⟨htrig, htrigs'⟩).2 hmodel⟩

/-- **A queued message is handed to its delivery** exactly when it has no
trigger, no text that is empty, and a body that fits; as a root turn and as
active input. -/
theorem queued_message_delivers (hs : deliveryMachine.Reachable s)
    (hclaim : claimQueuedTurn { enqueueTurn message ordinal with state } = some queued) :
    (∀ activeTurnId, lane.Rows tables s queued (lane.rootTurn queued stableUuid) activeTurnId →
      (Delivers tables s (lane.rootTurn queued stableUuid) ↔
        message.Deliverable (lane.rootTurn queued stableUuid))) ∧
    ∀ turnId nativeTurnId afterBlockId, lane.Rows tables s queued
        (lane.activeInput queued stableUuid turnId nativeTurnId afterBlockId) (some turnId) →
      ActiveTurn tables lane turnId nativeTurnId → queued.deliveryIntent = .auto →
      (Delivers tables s (lane.activeInput queued stableUuid turnId nativeTurnId afterBlockId) ↔
        message.Deliverable
          (lane.activeInput queued stableUuid turnId nativeTurnId afterBlockId)) := by
  have hstate : queued.state = .dispatching := by
    rw [claimQueuedTurn_eq hclaim]
  constructor
  · intro activeTurnId hrows
    have hnew : NewCommand s (lane.rootTurn queued stableUuid) :=
      { hrows with shape := rfl, compact := rfl }
    rw [hnew.delivers_iff hs, hrows.validateScope_iff ⟨rfl, rfl, rfl, rfl, rfl⟩ rfl]
    change _ ∧ (lane.rootTurn queued stableUuid).validateRoot tables = .ok () ∧ _ ↔ _
    rw [validateRoot_iff hrows]
    refine deliverable_iff hclaim fun htriggers htrigger values hcontent => ?_
    exact validateDecodedRootPayload_iff rfl rfl rfl rfl
      (fun _ hmem => absurd hmem List.not_mem_nil) (fun _ _ => rfl) (.inl rfl) htriggers htrigger
      hcontent
  · intro turnId nativeTurnId afterBlockId hrows hactive hauto
    have hnew : NewCommand s
        (lane.activeInput queued stableUuid turnId nativeTurnId afterBlockId) :=
      { hrows with shape := rfl, compact := rfl }
    rw [hnew.delivers_iff hs, hrows.validateScope_iff ⟨rfl, rfl, rfl, rfl, rfl⟩ rfl]
    change _ ∧ (lane.activeInput queued stableUuid turnId nativeTurnId afterBlockId).validateSteer
      tables = .ok () ∧ _ ↔ _
    rw [validateSteer_iff hrows hactive hauto hstate]
    refine deliverable_iff hclaim fun htriggers htrigger values hcontent => ?_
    exact validateDecodedRootPayload_iff rfl rfl rfl rfl
      (by simp [decodedKeys, RootLane.activeInput, PrepareDeliveryAttempt.row])
      (by simp [frozenKeys]) (.inr ⟨rfl, nativeTurnId, by simp, hactive.identifier⟩) htriggers
        htrigger hcontent

/-! ## A message and a notification -/

/-- A message as the viewer sends it, or the notification of a federated
child. -/
def viewerMessage (trigger : Option TurnTrigger) : EnqueueTurn where
  origin := trigger.map fun _ => .federationNotification
  trigger := trigger
  triggers := none
  deliveryIntent := some .auto
  commandId := "command-1"
  conversationId := "conversation-1"
  turnId := "turn-1"
  clientMessageId := "client-1"
  content := [.text "Go on."]
  model := "opus"
  effort := none
  serviceTier := none
  access := .readOnly
  now := 1

/-- The lane of a Claude conversation. -/
def claudeLane : RootLane where
  provider := .claudeCode
  providerInstanceId := "provider-1"
  conversationId := "conversation-1"
  rootExecutionId := "execution-1"
  nativeSessionId := "session-1"
  attemptId := "attempt-1"
  ownerInstanceId := "owner-1"
  now := 2

/-- The journal of that conversation, with the claimed row of the command. -/
def claudeTables (trigger : Option TurnTrigger) (activeTurnId : Option String) : ScopeTables where
  provider _ := some .claudeCode
  conversation _ := some ⟨"provider-1", "execution-1", activeTurnId⟩
  execution _ := some ⟨"conversation-1", "provider-1"⟩
  nativeSession _ := some ⟨"session-1", "provider-1"⟩
  turn _ := some ⟨"conversation-1", "execution-1", some "native-0", .running⟩
  compaction _ := none
  receipt _ := some ⟨"turn.send", .accepted⟩
  queuedMessage _ := claimQueuedTurn (enqueueTurn (viewerMessage trigger) 0)

/-- The row of the queue, claimed. -/
def claimedRow (trigger : Option TurnTrigger) : QueuedMessage :=
  { enqueueTurn (viewerMessage trigger) 0 with state := .dispatching }

/-- The process has started. -/
def startedJournal : DeliveryState := deliveryMachine.run [.start "owner-1"] deliveryMachine.init

theorem claudeRows (trigger : Option TurnTrigger) (activeTurnId : Option String)
    (hids : attempt.validateIdentifiers = .ok ()) :
    claudeLane.Rows (claudeTables trigger activeTurnId) startedJournal (claimedRow trigger) attempt
      activeTurnId :=
  ⟨rfl, hids, rfl, rfl, rfl, rfl, rfl, rfl, rfl, rfl, rfl⟩

/-- A message of a viewer, as a root turn and as an input that steers. -/
theorem queued_message_delivers_viewer : Delivers (claudeTables none none) startedJournal
        (claudeLane.rootTurn (claimedRow none) fun _ => "uuid-1") ∧
      Delivers (claudeTables none (some "turn-0")) startedJournal
        (claudeLane.activeInput (claimedRow none) (fun _ => "uuid-1") "turn-0" "native-0"
          none) := by
  have hs : deliveryMachine.Reachable startedJournal :=
    ⟨_, @Machine.exec_eq_run _ _ deliveryMachine deliveryMachine.init [.start "owner-1"] rfl⟩
  constructor
  · obtain ⟨hroot, -⟩ := @queued_message_delivers (claudeTables none none) startedJournal
      (claimedRow none) (viewerMessage none) 0 .queued claudeLane (fun _ => "uuid-1") hs rfl
    exact (hroot none (claudeRows none none rfl)).2
      ⟨rfl, rfl, nofun, nofun, by decide, by decide +kernel, by decide +kernel⟩
  · obtain ⟨-, hactive⟩ := @queued_message_delivers (claudeTables none (some "turn-0"))
      startedJournal (claimedRow none) (viewerMessage none) 0 .queued claudeLane
      (fun _ => "uuid-1") hs rfl
    exact (hactive "turn-0" "native-0" none (claudeRows none (some "turn-0") rfl)
      ⟨⟨.running, rfl, .inl rfl⟩, by decide +kernel⟩ rfl).2
      ⟨rfl, rfl, nofun, nofun, by decide, by decide +kernel, by decide +kernel⟩

/-- **The notification of a federated child is refused**, with every row in
place: its trigger is in the payload a second time, as a list that no
allowlist knows. -/
theorem notification_refused :
    let trigger : Option TurnTrigger := some ⟨.federation, some "child-1", none⟩
    claimQueuedTurn (enqueueTurn (viewerMessage trigger) 0) = some (claimedRow trigger) ∧
      claudeLane.Rows (claudeTables trigger none) startedJournal (claimedRow trigger)
        (claudeLane.rootTurn (claimedRow trigger) fun _ => "uuid-1") none ∧
      ¬Delivers (claudeTables trigger none) startedJournal
        (claudeLane.rootTurn (claimedRow trigger) fun _ => "uuid-1") := by
  refine ⟨rfl, claudeRows _ none rfl, ?_⟩
  rintro ⟨s', a, hprepare, -⟩
  have hthrows : (startedJournal.prepareAttempt
      (claudeTables (some ⟨.federation, some "child-1", none⟩) none)
      (claudeLane.rootTurn (claimedRow (some ⟨.federation, some "child-1", none⟩))
        fun _ => "uuid-1")).isOk = false := by decide +kernel
  rw [hprepare] at hthrows
  cases hthrows

end Remux
