import Mathlib.Data.List.DropRight
import Remux.Common.Lists
import Remux.Providers.Model.CodexBlocks

/-!
# What a Codex session emits of a block

The mapper stores a block before the session decides on its event, and an
event that is dropped takes the block along. `Retold` leaves out the errors,
the notifications with an event that does not pass, and those that end, for
some block, on dropped events which do not repeat the latest changes of the
block. What then holds of a session (`Shown`): the events let through of a
block rise in revision within the mapper's structure of it, and the last of
them carries what the mapper holds.
-/

namespace Remux

open Prod (ext fst)
open Option hiding map_map

namespace Providers

open BlockSession TurnBlockPayload ToldChange MapperEvent List

variable {J ι : Type} {support : MapperSupport J ι}

/-! ## Where a change is stored -/

/-- A change names as its item what it is about. -/
def BlockChange.Addressed (support : MapperSupport J ι) (change : BlockChange J) : Prop :=
  ∀ subject, change.event.subject support = some subject →
    ∃ itemId, change.itemId = some itemId ∧ ∀ id, subject.2 = some id → id = itemId

/-- The notification of an error. -/
def CodexNotification.isError : CodexNotification J → Bool
  | .error .. => true
  | _ => false

/-- A block under the key it is looked up by. -/
structure BlockState.Under (key : BlockKey) (b : BlockState J) : Prop where
  blockId : b.place.blockId = key
  kind : b.block.payload.identityKind = key.kind
  owner : ∀ id, b.block.payload.owner = some id → id = key.identity

/-- Every block is stored under the key it is looked up by. -/
def BlockMapper.Filed (m : BlockMapper J) : Prop :=
  ∀ key b, m.blocks.lookup key = some b → b.Under key

variable {m : BlockMapper J} {nativeTurnId itemId delta : String} {kind : StreamKind}
variable {partIndex : ℕ} {change : BlockChange J} {changes : List (FileChange J)} {completed : Bool}
variable {item : CodexItem J} {note : CodexNotification J} {s : BlockSession J ι}
variable {fitting : DisplayFitting J} {told : List (ToldChange J ι)} {children : List RestoredChild}
variable {nextOrdinalByTurn : Assoc String ℕ}

/-- The changes of a delta name its block. -/
theorem addressed_of_mem_mapTextDelta
    (h : change ∈ (m.mapTextDelta nativeTurnId itemId delta kind partIndex).2) :
    change.Addressed support := by
  unfold BlockMapper.mapTextDelta at h
  split at h
  · simp at h
  · cases kind <;>
      · obtain rfl := mem_singleton.1 h
        rintro _ ⟨⟩
        exact ⟨itemId, rfl, by simp⟩

theorem addressed_of_mem_fileChanges {kind : String}
    (h : change ∈ BlockMapper.fileChanges kind nativeTurnId itemId changes) :
    change.Addressed support := by
  obtain ⟨i, hi, rfl⟩ := mem_mapIdx.1 h
  rintro _ ⟨⟩

theorem addressed_fileChangeStarted {kind : String} {stamp : Stamp} :
    (⟨BlockMapper.fileChangeStartedEvent support itemId changes completed, kind, nativeTurnId,
      some itemId, stamp⟩ : BlockChange J).Addressed support := by
  rintro _ ⟨⟩
  exact ⟨itemId, rfl, fun id hid => (Option.some.inj hid).symm⟩

/-- The changes of a child name its block. -/
theorem addressed_of_mem_mapSpawnedChild {spawned : SpawnedChild}
    (h : change ∈ BlockMapper.mapSpawnedChild spawned) : change.Addressed support := by
  have hch : ∀ event kind, (∀ subject, (event : MapperEvent J).subject support = some subject →
      subject.2 = some spawned.child.executionId) →
      (⟨event, kind, spawned.ownerNativeTurnId, some spawned.child.executionId,
        .snapshot⟩ : BlockChange J).Addressed support := fun event kind hevent subject hsubj =>
    ⟨_, rfl, fun id hid => Option.some.inj (hid.symm.trans (hevent subject hsubj))⟩
  rcases mem_cons.1 h with rfl | h
  · exact hch _ _ (by rintro _ ⟨⟩; rfl)
  · split at h
    · simp at h
    · rcases mem_cons.1 h with rfl | h
      · exact hch _ _ (by rintro _ ⟨⟩; rfl)
      · split at h <;> first | (simp at h; done) | skip
        all_goals
          obtain rfl := mem_singleton.1 h
          exact hch _ _ (by rintro _ ⟨⟩; rfl)

/-- The changes of an item name its blocks. -/
theorem addressed_of_mem_mapItem
    (h : change ∈ (m.mapItem support nativeTurnId itemId completed item).2) :
    change.Addressed support := by
  -- a change of the item itself names the item as what it is about
  have hitem : ∀ event kind, (∀ subject, (event : MapperEvent J).subject support = some subject →
      ∀ id, subject.2 = some id → id = itemId) →
      (⟨event, kind, nativeTurnId, some itemId, .snapshot⟩ : BlockChange J).Addressed support :=
    fun event kind hevent subject hsubj => ⟨_, rfl, hevent subject hsubj⟩
  have hmark : ∀ (event : MapperEvent J) kind, (∀ subject, event.subject support = some subject →
      subject.2 = none ∨ subject.2 = some itemId) →
      (⟨event, kind, nativeTurnId, some itemId, .snapshot⟩ : BlockChange J).Addressed support := by
    refine fun event kind hevent => hitem event kind fun subject hsubj id hid => ?_
    rcases hevent subject hsubj with h | h
    · rw [h] at hid
      cases hid
    · exact Option.some.inj (hid.symm.trans h)
  cases item with
  | userMessage content =>
    obtain ⟨x, -, rfl⟩ := mem_map.1 h
    exact hmark _ _ (by rintro _ ⟨⟩)
  | agentMessage phase text =>
    simp only [BlockMapper.mapItem, BlockMapper.mapAgentMessage,
      BlockMapper.flushPendingAgentMessage] at h
    split at h
    · split at h
      · simp at h
      · split at h
        · split at h
          · simp at h
          · exact addressed_of_mem_mapTextDelta h
        · simp at h
    · obtain rfl := mem_singleton.1 h
      exact hmark _ _ (by rintro _ ⟨⟩; exact .inl rfl)
  | plan | reasoning =>
    simp only [BlockMapper.mapItem] at h
    split at h
    · simp at h
    · obtain rfl := mem_singleton.1 h
      exact hmark _ _ (by rintro _ ⟨⟩; exact .inl rfl)
  | commandExecution title inputPreview aggregatedOutput status =>
    simp only [BlockMapper.mapItem] at h
    have hcases : (∃ display preview kind, display.callId = itemId ∧
        change = ⟨.toolStarted display preview, kind, nativeTurnId, some itemId, .snapshot⟩) ∨
        (∃ output, change = ⟨.toolUpdated itemId output true, "item/commandExecution/output",
          nativeTurnId, some itemId, .snapshot⟩) ∨
        ∃ failed kind, change =
          ⟨.toolCompleted itemId failed, kind, nativeTurnId, some itemId, .snapshot⟩ := by
      split at h
      · exact .inl ⟨_, _, _, rfl, mem_singleton.1 h⟩
      · rcases mem_cons.1 h with h | h
        · exact .inl ⟨_, _, _, rfl, h⟩
        · rcases mem_concat.1 h with h | h
          · obtain ⟨output, -, rfl⟩ := mem_map.1 h
            exact .inr (.inl ⟨output, rfl⟩)
          · exact .inr (.inr ⟨_, _, h⟩)
    rcases hcases with ⟨display, preview, kind, hcall, rfl⟩ | ⟨output, rfl⟩ | ⟨failed, kind, rfl⟩
    · exact hmark _ _ (by rintro _ ⟨⟩; exact .inr (congrArg some hcall))
    all_goals exact hmark _ _ (by rintro _ ⟨⟩; exact .inr rfl)
  | fileChange changes status =>
    rcases mem_cons.1 h with rfl | h
    · exact addressed_fileChangeStarted
    · rcases mem_append.1 h with h | h
      · exact addressed_of_mem_fileChanges h
      · split at h
        · obtain rfl := mem_singleton.1 h
          exact hmark _ _ (by rintro _ ⟨⟩; exact .inr rfl)
        · simp at h
  | toolCall type name arguments status unsuccessful =>
    simp only [BlockMapper.mapItem] at h
    split at h
    · obtain rfl := mem_singleton.1 h
      exact hmark _ _ (by rintro _ ⟨⟩; exact .inr rfl)
    · rcases mem_cons.1 h with rfl | h
      · exact hmark _ _ (by rintro _ ⟨⟩; exact .inr rfl)
      · obtain rfl := mem_singleton.1 h
        exact hmark _ _ (by rintro _ ⟨⟩; exact .inr rfl)
  | webSearch query =>
    obtain rfl := mem_singleton.1 h
    exact hmark _ _ (by rintro _ ⟨⟩; exact .inl rfl)
  | collabAgentToolCall children =>
    obtain ⟨spawned, -, hchg⟩ := mem_flatMap.1 h
    exact addressed_of_mem_mapSpawnedChild hchg
  | subAgentActivity ownerNativeTurnId child kind =>
    obtain rfl := mem_singleton.1 h
    cases kind <;> rintro _ ⟨⟩ <;> exact ⟨_, rfl, fun id hid => (Option.some.inj hid).symm⟩
  | contextCompaction ordinal =>
    simp only [BlockMapper.mapItem] at h
    split at h
    · simp at h
    · rcases mem_cons.1 h with rfl | h
      · rintro _ ⟨⟩
      · obtain rfl := mem_singleton.1 h
        exact hmark _ _ (by rintro _ ⟨⟩; exact .inl rfl)

/-- **Only an error is stored where it is not looked up.** -/
theorem addressed_of_mem_mapNotification (hno : note.isError = false)
    (h : change ∈ (m.mapNotification support note).2) : change.Addressed support := by
  cases note with
  | turnStarted | turnCompleted =>
    rcases mem_cons.1 h with rfl | h
    · rintro _ ⟨⟩
    · obtain rfl := mem_singleton.1 h
      rintro _ ⟨⟩
  | agentMessageDelta nativeTurnId itemId delta =>
    simp only [BlockMapper.mapNotification, BlockMapper.mapAgentMessageDelta] at h
    split at h
    · simp at h
    · split at h
      · exact addressed_of_mem_mapTextDelta h
      · split at h <;> simp at h
  | planDelta | reasoningDelta =>
    simp only [BlockMapper.mapNotification] at h
    exact addressed_of_mem_mapTextDelta h
  | patchUpdated nativeTurnId itemId changes =>
    rcases mem_cons.1 h with rfl | h
    · exact addressed_fileChangeStarted
    · exact addressed_of_mem_fileChanges h
  | outputDelta | mcpProgress | childTurnStarted | childTurnCompleted =>
    obtain rfl := mem_singleton.1 h
    rintro _ ⟨⟩
    exact ⟨_, rfl, fun id hid => (Option.some.inj hid).symm⟩
  | item nativeTurnId itemId item completed => exact addressed_of_mem_mapItem h
  | error => simp [CodexNotification.isError] at hno

theorem blocks_mapTextDelta :
    (m.mapTextDelta nativeTurnId itemId delta kind partIndex).1.blocks = m.blocks := by
  unfold BlockMapper.mapTextDelta
  split <;> rfl

/-- An item is mapped without a change of the blocks. -/
theorem blocks_mapItem :
    (m.mapItem support nativeTurnId itemId completed item).1.blocks = m.blocks := by
  cases item with
  | agentMessage phase text =>
    simp only [BlockMapper.mapItem, BlockMapper.mapAgentMessage,
      BlockMapper.flushPendingAgentMessage, BlockMapper.seedDeltaOffset]
    split
    · split
      · cases phase <;> rfl
      · split
        · split
          · cases phase <;> rfl
          · rw [blocks_mapTextDelta]
            cases phase <;> rfl
        · cases phase <;> rfl
    · cases phase <;> rfl
  | plan text =>
    simp only [BlockMapper.mapItem, BlockMapper.seedDeltaOffset]
    split <;> rfl
  | contextCompaction ordinal =>
    simp only [BlockMapper.mapItem]
    split <;> rfl
  | _ => rfl

/-- What the mapper notes of a notification before it makes its changes
leaves the blocks. -/
theorem blocks_mapNotification : (m.mapNotification support note).1.blocks = m.blocks := by
  cases note with
  | agentMessageDelta nativeTurnId itemId delta =>
    simp only [BlockMapper.mapNotification, BlockMapper.mapAgentMessageDelta]
    split
    · rfl
    · split
      · exact blocks_mapTextDelta
      · split <;> rfl
  | planDelta | reasoningDelta =>
    simp only [BlockMapper.mapNotification]
    exact blocks_mapTextDelta
  | item => exact blocks_mapItem
  | _ => rfl

/-! ## What a change writes -/

/-- A change that says what it is about as a whole, and not what is added
to it. -/
def MapperEvent.whole : MapperEvent J → Bool
  | .reasoningDelta _ _ | .textDelta _ _ | .toolUpdated _ _ false => false
  | _ => true

variable {event : MapperEvent J} {held : Option (TurnBlockPayload J)} {parts : List String}

/-- An event writes a block if it is about one. -/
theorem write_isSome :
    (event.write support held parts).isSome = (event.subject support).isSome := by
  cases event with
  | reasoningDelta =>
    simp only [write, subject]
    split
    · rfl
    · split <;> rfl
  | _ => rfl

theorem write_of_whole (h : event.whole = true) :
    event.write support held parts = event.write support held [] := by
  cases event <;> first | rfl | simp [whole] at h

theorem heldTool_callId {callId : String} (h : ∀ payload, held = some payload →
    ∀ id, payload.owner = some id → id = callId) :
    (heldTool callId held).1.callId = callId := by
  unfold heldTool
  split
  · exact h _ rfl _ rfl
  · rfl

theorem heldChild_executionId {executionId : String} (h : ∀ payload, held = some payload →
    ∀ id, payload.owner = some id → id = executionId) :
    (heldChild executionId held).1.executionId = executionId := by
  unfold heldChild
  split
  · exact h _ rfl _ rfl
  · rfl

/-- What a change writes is of its kind, and about what it is about, if what
is held is. -/
theorem write_spec {kind : BlockIdentityKind} {own : Option String} {payload : TurnBlockPayload J}
    {state : TurnBlockState} (hsubj : event.subject support = some (kind, own))
    (hown : ∀ id, own = some id → id = itemId)
    (hheld : ∀ payload, held = some payload → ∀ id, payload.owner = some id → id = itemId)
    (h : event.write support held parts = some (payload, state, completed)) :
    payload.identityKind = kind ∧ ∀ id, payload.owner = some id → id = itemId := by
  cases event with
  | turnStarted | turnRunning | turnCompleted | turnIdle | userMessage | fileChanged
  | compactionReport => cases h
  | reasoningDelta =>
    cases Option.some.inj hsubj
    simp only [write] at h
    split at h
    · rename_i truncated htruncated
      obtain ⟨rfl, -⟩ := Prod.mk.inj (Option.some.inj h)
      unfold heldTruncated at htruncated
      split at htruncated
      · cases htruncated
        exact ⟨rfl, by rintro _ ⟨⟩⟩
      · cases htruncated
    · split at h
      all_goals
        obtain ⟨rfl, -⟩ := Prod.mk.inj (Option.some.inj h)
        exact ⟨rfl, by rintro _ ⟨⟩⟩
  | reasoningSummary | text | textDelta | webActivity | compatibilityNotice | compactionMarker =>
    cases Option.some.inj hsubj
    obtain ⟨rfl, -⟩ := Prod.mk.inj (Option.some.inj h)
    exact ⟨rfl, by rintro _ ⟨⟩⟩
  | toolStarted | childStarted =>
    cases Option.some.inj hsubj
    obtain ⟨rfl, -⟩ := Prod.mk.inj (Option.some.inj h)
    exact ⟨rfl, hown⟩
  | toolUpdated callId | toolCompleted callId =>
    cases Option.some.inj hsubj
    obtain ⟨rfl, -⟩ := Prod.mk.inj (Option.some.inj h)
    obtain rfl := hown callId rfl
    refine ⟨rfl, fun id hid => ?_⟩
    rw [← Option.some.inj hid]
    exact heldTool_callId hheld
  | childStatus executionId | childCompleted executionId =>
    cases Option.some.inj hsubj
    obtain ⟨rfl, -⟩ := Prod.mk.inj (Option.some.inj h)
    obtain rfl := hown executionId rfl
    refine ⟨rfl, fun id hid => ?_⟩
    rw [← Option.some.inj hid]
    exact heldChild_executionId hheld

/-! ## What a change makes of its block -/

/-- **What follows of a block on a change**: its place stays, its revision
rises, the event carries it, and a whole change that is not cut is merged
with what was held. -/
structure Follows (support : MapperSupport J ι) (key : BlockKey) (previous : Option (BlockState J))
    (t : ToldChange J ι) (b : BlockState J) : Prop where
  place : ∀ p, previous = some p → b.place = p.place
  revision : ∀ p, previous = some p → p.revision < b.revision
  carries : t.envelope.event.carries key = some b
  subject : ∃ own, t.change.event.subject support = some (key.kind, own) ∧
    ∀ id, own = some id → id = key.identity
  wrote : t.change.event.whole = true → t.envelope.cut = false → ∃ completed,
    t.change.event.write support (previous.map (·.block.payload)) [] =
      some (b.block.payload, b.block.state, completed)

namespace BlockMapper

variable {m m' : BlockMapper J} {change : BlockChange J} {key : BlockKey}

@[simp] theorem blocks_sequenced : (m.sequenced change).blocks = m.blocks := by
  unfold sequenced
  split <;> rfl

@[simp] theorem blocks_commitReasoningParts :
    (m.commitReasoningParts change).blocks = m.blocks := by
  unfold commitReasoningParts
  dsimp only
  split
  · rfl
  · split <;> rfl
  · rfl

/-- A block under its key is filed. -/
theorem Filed.insert {b : BlockState J} (h : m.Filed) (hb : b.Under key)
    (hblks : m'.blocks = m.blocks.insert key b) : m'.Filed := by
  intro key' b' hget
  rw [hblks, Assoc.lookup_insert_eq] at hget
  split at hget
  · cases hget
    subst_vars
    exact hb
  · exact h key' b' hget

/-- What `blockEvent` says of a block. -/
theorem blockEvent_spec (h : m.Filed) (key : BlockKey) (payload : TurnBlockPayload J)
    (state : TurnBlockState) (completed : Bool) : ∃ type place revision,
      m.blockEvent key payload state completed = .block type place revision ⟨state, payload⟩ ∧
      place.blockId = key ∧ (∀ p, m.blocks.lookup key = some p → place = p.place) ∧
      ∀ p, m.blocks.lookup key = some p → p.revision < revision := by
  unfold blockEvent
  cases hprev : m.blocks.lookup key with
  | some prev =>
    refine ⟨_, _, _, rfl, (h key prev hprev).blockId, ?_, ?_⟩ <;> rintro _ ⟨⟩
    · rfl
    · exact Nat.lt_succ_self _
  | none =>
    cases completed
    all_goals exact ⟨_, _, _, rfl, rfl, by rintro _ ⟨⟩, by rintro _ ⟨⟩⟩

variable [DecidableEq J] {fitting : DisplayFitting J} {envelope : ProviderEventEnvelope J ι}

/-- A change that is about no block leaves the blocks, and its event is
about none. -/
theorem envelope_of_key_eq_none (hkey : change.key support = none)
    (h : m.envelope support fitting change = (m', some envelope)) :
    m'.blocks = m.blocks ∧ ∃ event, envelope.event = .other event := by
  have hnormalized : ∀ n : BlockMapper J, n.normalizeEvent support change = .other change.event :=
    fun n => by simp [normalizeEvent, hkey]
  simp only [BlockMapper.envelope, hnormalized] at h
  split at h
  · cases h
  · rename_i fitted hfit
    have hfr := fitting.keeps _ _ hfit
    cases fitted with
    | block => cases hfr
    | other event =>
      obtain ⟨rfl, heq⟩ := Prod.mk.inj h
      rw [← Option.some.inj heq]
      exact ⟨by simp [commitBlockEvent], event, rfl⟩

/-- **What a change makes of its block.** -/
theorem envelope_of_key_eq_some (hfiled : m.Filed) (haddressed : change.Addressed support)
    (hkey : change.key support = some key)
    (h : m.envelope support fitting change = (m', some envelope)) :
    ∃ b : BlockState J, b.Under key ∧ m'.blocks = m.blocks.insert key b ∧
      ∀ fresh, Follows support key (m.blocks.lookup key) ⟨change, envelope, fresh⟩ b := by
  obtain ⟨⟨kind, own⟩, hsubj, hk⟩ := map_eq_some_iff.1 hkey
  obtain ⟨itemId, hitem, hown⟩ := haddressed _ hsubj
  replace hk : (⟨change.nativeTurnId, itemId, kind⟩ : BlockKey) = key := by
    rw [← hk, hitem]
    rfl
  have hfiled' : (m.sequenced change).Filed := fun k b hb => hfiled k b (by simpa using hb)
  have hheld : ∀ payload, (m.sequenced change).held key = some payload →
      ∀ id, payload.owner = some id → id = itemId := by
    intro payload hpay id hid
    obtain ⟨b, hb, rfl⟩ := map_eq_some_iff.1 hpay
    rw [(hfiled' key b hb).owner id hid, ← hk]
  obtain ⟨⟨payload, state, completed⟩, hwrite⟩ : ∃ written,
      change.event.write support ((m.sequenced change).held key)
        (((m.sequenced change).reasoningParts.lookup key).getD []) = some written := by
    rw [← isSome_iff_exists, write_isSome, hsubj]
    rfl
  -- what is written is of the key's kind and about its item
  obtain ⟨hkind, howner⟩ := write_spec hsubj hown hheld hwrite
  obtain ⟨type, place, revision, hevent, hblockId, hplc, hrev⟩ :=
    blockEvent_spec hfiled' key payload state completed
  have hnormalized : (m.sequenced change).normalizeEvent support change =
      .block type place revision ⟨state, payload⟩ := by
    simp only [normalizeEvent, hkey, hwrite]
    exact hevent
  simp only [BlockMapper.envelope, hnormalized] at h
  split at h
  · cases h
  · rename_i fitted hfit
    have hfr := fitting.keeps _ _ hfit
    cases fitted with
    | other => cases hfr
    | block type' place' revision' block =>
      -- fitting cuts texts only
      simp only [ProviderEvent.frame, Option.some.injEq, Prod.mk.injEq] at hfr
      obtain ⟨rfl, rfl, rfl, hst, hkind', -, hown'⟩ := hfr
      obtain ⟨rfl, heq⟩ := Prod.mk.inj h
      cases heq
      have hunder : (⟨place', block, revision'⟩ : BlockState J).Under key :=
        ⟨hblockId, by rw [hkind', hkind, ← hk], fun id hid => by
          rw [howner id (hown' ▸ hid), ← hk]⟩
      have hstore : blockKey change.nativeTurnId (block.payload.owner.or change.itemId)
          block.payload.identityKind = key := by
        rw [hkind', hkind, hown', ← hk]
        cases hpay : payload.owner with
        | none => rw [hitem]; rfl
        | some id => rw [howner id hpay]; rfl
      refine ⟨⟨place', block, revision'⟩, hunder, ?_, fun fresh => ?_⟩
      · simp only [commitBlockEvent, hstore, blocks_commitReasoningParts, blocks_sequenced]
      · rw [blocks_sequenced] at hplc hrev
        refine ⟨hplc, hrev, if_pos hblockId,
          ⟨own, by rw [hsubj, ← hk], fun id hid => by rw [hown id hid, ← hk]⟩,
          fun hwhole hcut => ⟨completed, ?_⟩⟩
        have hsame : block = ⟨state, payload⟩ := by
          simpa using hcut
        have hmerged : (m.blocks.lookup key).map (·.block.payload) =
            (m.sequenced change).held key := by rw [held, blocks_sequenced]
        rw [hmerged, ← write_of_whole hwhole, hwrite, hsame]

end BlockMapper

/-! ## What a notification makes of a block -/

/-- A change is about a block. -/
def ToldChange.about (support : MapperSupport J ι) (key : BlockKey) (t : ToldChange J ι) : Bool :=
  t.change.key support = some key

/-- **What changes about a block make of it**, one after the other. -/
inductive Chain (support : MapperSupport J ι) (key : BlockKey) :
    Option (BlockState J) → List (ToldChange J ι) → Option (BlockState J) → Prop
  | nil (b : Option (BlockState J)) : Chain support key b [] b
  | cons {b c : Option (BlockState J)} {t : ToldChange J ι} {ts : List (ToldChange J ι)}
      {b' : BlockState J} : Follows support key b t b' → Chain support key (some b') ts c →
      Chain support key b (t :: ts) c

namespace Chain

variable {key : BlockKey} {b c d : Option (BlockState J)} {xs ys : List (ToldChange J ι)}

theorem append (hxs : Chain support key b xs c) (hys : Chain support key c ys d) :
    Chain support key b (xs ++ ys) d := by
  induction hxs with
  | nil => exact hys
  | cons hfol _ ih => exact .cons hfol (ih hys)

/-- A chain is cut in two. -/
theorem split (h : Chain support key b (xs ++ ys) d) :
    ∃ c, Chain support key b xs c ∧ Chain support key c ys d := by
  induction xs generalizing b with
  | nil => exact ⟨b, .nil b, h⟩
  | cons x xs ih =>
    obtain - | ⟨hfol, h⟩ := h
    obtain ⟨c, hc, hd⟩ := ih h
    exact ⟨c, .cons hfol hc, hd⟩

/-- What the events of a chain carry, from the first to the last. -/
theorem carried (h : Chain support key b xs c) :
    (∀ t ∈ xs, ∃ p, t.envelope.event.carries key = some p) ∧
    (∀ p ∈ b, ∃ q ∈ c, q.place = p.place ∧ p.revision ≤ q.revision) ∧
    (∀ p ∈ xs.filterMap (·.envelope.event.carries key),
      ∃ q ∈ c, p.place = q.place ∧ p.revision ≤ q.revision ∧ ∀ o ∈ b, o.revision < p.revision) ∧
    (xs.filterMap (·.envelope.event.carries key)).Pairwise (·.revision < ·.revision) := by
  induction h with
  | nil b => exact ⟨by simp, fun p hp => ⟨p, hp, rfl, le_rfl⟩, by simp, by simp⟩
  | @cons b c t ts b' hfol hrest ih =>
    obtain ⟨hcarries, hkept, hsh, hrising⟩ := ih
    obtain ⟨q, hq, hplc, hrev⟩ := hkept b' rfl
    have hhead := hfol.carries
    have hcons : (t :: ts).filterMap (·.envelope.event.carries key) =
        b' :: ts.filterMap (·.envelope.event.carries key) := filterMap_cons_some hhead
    refine ⟨fun t' ht' => ?_, fun p hp => ?_, fun p hp => ?_, ?_⟩
    · rcases mem_cons.1 ht' with rfl | ht'
      · exact ⟨b', hhead⟩
      · exact hcarries t' ht'
    · refine ⟨q, hq, hplc.trans (hfol.place p hp), ?_⟩
      have := hfol.revision p hp
      omega
    · rw [hcons, mem_cons] at hp
      rcases hp with rfl | hp
      · exact ⟨q, hq, hplc.symm, hrev, fun o ho => hfol.revision o ho⟩
      · obtain ⟨q', hq', hplc', hrev', hlt⟩ := hsh p hp
        refine ⟨q', hq', hplc', hrev', fun o ho => ?_⟩
        have hb' := hlt b' rfl
        have ho' := hfol.revision o ho
        omega
    · rw [hcons, pairwise_cons]
      refine ⟨fun p hp => ?_, hrising⟩
      obtain ⟨-, -, -, -, hlt⟩ := hsh p hp
      exact hlt b' rfl

/-- The last event of a chain carries what is held. -/
theorem carries_getLast (h : Chain support key b xs c) :
    ∀ t ∈ xs.getLast?, t.envelope.event.carries key = c := by
  induction h with
  | nil => simp
  | @cons b c t ts b' hfol hrest ih =>
    intro last hlast
    cases ts with
    | nil =>
      cases hlast
      obtain - | - := hrest
      exact hfol.carries
    | cons t' ts => exact ih last (by simpa using hlast)

end Chain

namespace BlockMapper

variable [DecidableEq J] [DecidableEq ι] {m m' : BlockMapper J} {fitting : DisplayFitting J}
  {changes : List (BlockChange J)} {envelopes : List (ProviderEventEnvelope J ι)}

/-- **What a notification makes of the blocks**: each follows the changes
about it, and an event is about the block its change is about. -/
theorem envelopes_spec (hfiled : m.Filed) (haddressed : ∀ c ∈ changes, c.Addressed support)
    (h : m.envelopes support fitting changes = (m', some envelopes)) (eventLog : List ι) :
    m'.Filed ∧
    (∀ t ∈ screen eventLog (changes.zip envelopes), ∀ key, t.about support key = false →
      t.envelope.event.carries key = none) ∧
    ∀ key, Chain support key (m.blocks.lookup key)
      ((screen eventLog (changes.zip envelopes)).filter (·.about support key))
      (m'.blocks.lookup key) := by
  induction changes generalizing m envelopes eventLog with
  | nil =>
    obtain ⟨rfl, heq⟩ := Prod.mk.inj h
    cases heq
    exact ⟨hfiled, by simp [screen], fun key => .nil _⟩
  | cons change changes ih =>
    simp only [BlockMapper.envelopes] at h
    split at h
    · cases h
    · rename_i n envelope henv
      obtain ⟨rfl, heq⟩ := Prod.mk.inj h
      obtain ⟨later, hlat, rfl⟩ := map_eq_some_iff.1 heq
      have hrest : ∀ log, n.Filed → _ := fun log hn =>
        ih hn (fun c hc => haddressed c (mem_cons_of_mem _ hc)) (ext rfl hlat) log
      simp only [zip_cons_cons, screen, mem_cons, filter_cons]
      cases hkey : change.key support with
      | none =>
        obtain ⟨hblks, event, hevent⟩ := envelope_of_key_eq_none hkey henv
        obtain ⟨hfiled', hother, hchain⟩ := hrest
          (if envelope.eventId ∈ eventLog then eventLog else envelope.eventId :: eventLog)
          (fun k b hb => hfiled k b (hblks ▸ hb))
        refine ⟨hfiled', ?_, fun key => ?_⟩
        · rintro t (rfl | ht) key habout
          · rw [hevent]
            rfl
          · exact hother t ht key habout
        · simpa [about, hkey, hblks] using hchain key
      | some key =>
        obtain ⟨b, hunder, hblks, hfol⟩ :=
          envelope_of_key_eq_some hfiled (haddressed _ mem_cons_self) hkey henv
        obtain ⟨hfiled', hother, hchain⟩ := hrest
          (if envelope.eventId ∈ eventLog then eventLog else envelope.eventId :: eventLog)
          (hfiled.insert hunder hblks)
        have hcarries := (hfol true).carries
        refine ⟨hfiled', ?_, fun key' => ?_⟩
        · rintro t (rfl | ht) key' habout
          · have hne : key ≠ key' := by
              simpa [about, hkey] using habout
            cases hevent : envelope.event with
            | other => rfl
            | block type place revision snapshot =>
              rw [hevent] at hcarries
              simp only [ProviderEvent.carries] at hcarries ⊢
              split at hcarries
              · rename_i hplc
                rw [if_neg (hplc ▸ hne)]
              · cases hcarries
          · exact hother t ht key' habout
        · have hget := hchain key'
          rw [hblks, Assoc.lookup_insert_eq] at hget
          by_cases hk : key = key'
          · subst hk
            simp only [about, hkey, decide_true, if_true] at hget ⊢
            exact .cons (hfol _) (by simpa using hget)
          · have hk' : key' ≠ key := fun h => hk h.symm
            simpa [about, hkey, hk, hk'] using hget

end BlockMapper

/-! ## Whole changes said again -/

/-- What whole changes make of a block's content. -/
def rewrite (support : MapperSupport J ι) (content : Option (TurnBlockSnapshot J))
    (event : MapperEvent J) : Option (TurnBlockSnapshot J) :=
  (event.write support (content.map (·.payload)) []).map fun written => ⟨written.2.1, written.1⟩

section Again

variable {es : List (MapperEvent J)}

/-- What is known of a call. -/
def toolContent (callId : String) (content : Option (TurnBlockSnapshot J)) :
    ToolDisplay × Option J × Option J :=
  TurnBlockPayload.heldTool callId (content.map (·.payload))

/-- What is known of a child. -/
def childContent (executionId : String) (content : Option (TurnBlockSnapshot J)) :
    ChildExecutionDisplay × ProviderExecutionState × Option ProviderTurnOutcome × Option String :=
  TurnBlockPayload.heldChild executionId (content.map (·.payload))

/-- The content is of a call. -/
def IsCall (content : Option (TurnBlockSnapshot J)) : Prop :=
  ∃ state display input output, content = some ⟨state, .tool display input output⟩

/-- The content is of a child. -/
def IsChild (content : Option (TurnBlockSnapshot J)) : Prop :=
  ∃ state child executionState outcome summary,
    content = some ⟨state, .nativeChild child executionState outcome summary⟩

variable {content content' : Option (TurnBlockSnapshot J)}

/-- What is known of a call tells its content. -/
theorem IsCall.ext (callId : String) (h : IsCall content) (h' : IsCall content')
    (hst : content.map (·.state) = content'.map (·.state))
    (htool : toolContent callId content = toolContent callId content') : content = content' := by
  obtain ⟨state, display, input, output, rfl⟩ := h
  obtain ⟨state', display', input', output', rfl⟩ := h'
  obtain rfl : state = state' := Option.some.inj hst
  obtain ⟨rfl, rfl, rfl⟩ : display = display' ∧ input = input' ∧ output = output' := by
    simpa [toolContent, heldTool] using htool
  rfl

variable (executionId : String)

/-- And what is known of a child. -/
theorem IsChild.ext (h : IsChild content) (h' : IsChild content')
    (hst : content.map (·.state) = content'.map (·.state))
    (hch : childContent executionId content = childContent executionId content') :
    content = content' := by
  obtain ⟨state, child, executionState, outcome, summary, rfl⟩ := h
  obtain ⟨state', child', executionState', outcome', summary', rfl⟩ := h'
  obtain rfl : state = state' := Option.some.inj hst
  obtain ⟨rfl, rfl, rfl, rfl⟩ : child = child' ∧ executionState = executionState' ∧
      outcome = outcome' ∧ summary = summary' := by
    simpa [childContent, heldChild] using hch
  rfl

/-- A property of what the last change leaves. -/
theorem foldl_rewrite_of_last (P : Option (TurnBlockSnapshot J) → Prop) (hne : es ≠ [])
    (h : ∀ content, ∀ e ∈ es, P (rewrite support content e))
    (content : Option (TurnBlockSnapshot J)) : P (es.foldl (rewrite support) content) := by
  obtain ⟨before, last, rfl⟩ := eq_nil_or_concat' es |>.resolve_left hne
  rw [foldl_append, foldl_cons, foldl_nil]
  exact h _ _ (by simp)

/-- **Whole changes of a call said twice.** Each field holds what was said
of it last. -/
theorem rewrite_twice_tool (callId : String)
    (hes : ∀ e ∈ es, e.subject support = some (.tool, some callId) ∧ e.whole = true)
    (content : Option (TurnBlockSnapshot J)) :
    es.foldl (rewrite support) (es.foldl (rewrite support) content) =
      es.foldl (rewrite support) content := by
  by_cases hne : es = []
  · subst hne
    rfl
  have htool : ∀ content, ∀ e ∈ es, IsCall (rewrite support content e) := by
    intro content e he
    obtain ⟨hsubj, -⟩ := hes e he
    cases e <;> first | (cases hsubj; done) | exact ⟨_, _, _, _, rfl⟩
  refine IsCall.ext callId (foldl_rewrite_of_last IsCall hne htool _)
    (foldl_rewrite_of_last IsCall hne htool _) ?_ (ext ?_ (ext ?_ ?_))
  · -- the state
    refine field_foldl_twice (Option.map TurnBlockSnapshot.state)
      (fun e => some ((rewrite support none e).map (·.state))) ?_ _
    intro content e he
    obtain ⟨hsubj, -⟩ := hes e he
    cases e <;> first | (cases hsubj; done) | rfl
  · refine field_foldl_twice (fun content => (toolContent callId content).1)
      (fun e => match e with | .toolStarted display _ => some display | _ => none) ?_ _
    intro content e he
    obtain ⟨hsubj, -⟩ := hes e he
    cases e <;> first | (cases hsubj; done) | (cases hsubj; rfl)
  · refine field_foldl_twice (fun content => (toolContent callId content).2.1)
      (fun e => match e with
        | .toolStarted _ input => some (some (support.fitJsonPreview input))
        | _ => none) ?_ _
    intro content e he
    obtain ⟨hsubj, -⟩ := hes e he
    cases e <;> first | (cases hsubj; done) | (cases hsubj; rfl)
  · refine field_foldl_twice (fun content => (toolContent callId content).2.2)
      (fun e => match e with
        | .toolUpdated _ output _ => some (some (support.mergeJsonPreview none output))
        | _ => none) ?_ _
    intro content e he
    obtain ⟨hsubj, hwhole⟩ := hes e he
    cases e with
    | toolUpdated id output replaces =>
      cases replaces
      · cases hwhole
      · rfl
    | _ => first | (cases hsubj; done) | (cases hsubj; rfl)

/-- **Whole changes of a child said twice.** -/
theorem rewrite_twice_child
    (hes : ∀ e ∈ es, e.subject support = some (.nativeChild, some executionId))
    (content : Option (TurnBlockSnapshot J)) :
    es.foldl (rewrite support) (es.foldl (rewrite support) content) =
      es.foldl (rewrite support) content := by
  by_cases hne : es = []
  · subst hne
    rfl
  have hch : ∀ content, ∀ e ∈ es, IsChild (rewrite support content e) := by
    intro content e he
    have hsubj := hes e he
    cases e <;> first | (cases hsubj; done) | exact ⟨_, _, _, _, _, rfl⟩
  refine IsChild.ext executionId (foldl_rewrite_of_last IsChild hne hch _)
    (foldl_rewrite_of_last IsChild hne hch _) ?_
    (ext ?_ (ext ?_ (ext ?_ ?_)))
  · -- the state
    refine field_foldl_twice (Option.map TurnBlockSnapshot.state)
      (fun e => some ((rewrite support none e).map (·.state))) ?_ _
    intro content e he
    have hsubj := hes e he
    cases e <;> first | (cases hsubj; done) | rfl
  · refine field_foldl_twice (fun content => (childContent executionId content).1)
      (fun e => match e with | .childStarted child => some child | _ => none) ?_ _
    intro content e he
    have hsubj := hes e he
    cases e <;> first | (cases hsubj; done) | (cases hsubj; rfl)
  · refine field_foldl_twice (fun content => (childContent executionId content).2.1)
      (fun e => match e with
        | .childStarted _ => some .running
        | .childStatus _ state => some state
        | .childCompleted _ outcome => some (outcomeExecutionState outcome)
        | _ => none) ?_ _
    intro content e he
    have hsubj := hes e he
    cases e <;> first | (cases hsubj; done) | (cases hsubj; rfl)
  · refine field_foldl_twice (fun content => (childContent executionId content).2.2.1)
      (fun e => match e with
        | .childStarted _ => some none
        | .childCompleted _ outcome => some (some outcome)
        | _ => none) ?_ _
    intro content e he
    have hsubj := hes e he
    cases e <;> first | (cases hsubj; done) | (cases hsubj; rfl)
  · refine field_foldl_twice (fun content => (childContent executionId content).2.2.2)
      (fun e => match e with | .childStarted _ => some none | _ => none) ?_ _
    intro content e he
    have hsubj := hes e he
    cases e <;> first | (cases hsubj; done) | (cases hsubj; rfl)

/-- **Whole changes said twice** leave what they left once. A change of
another block than a call's or a child's says all of it. -/
theorem rewrite_twice (key : BlockKey)
    (hes : ∀ e ∈ es, e.whole = true ∧ ∃ own, e.subject support = some (key.kind, own) ∧
      ∀ id, own = some id → id = key.identity) (content : Option (TurnBlockSnapshot J)) :
    es.foldl (rewrite support) (es.foldl (rewrite support) content) =
      es.foldl (rewrite support) content := by
  by_cases htool : key.kind = .tool
  · refine rewrite_twice_tool key.identity (fun e he => ?_) content
    obtain ⟨hwhole, own, hsubj, hown⟩ := hes e he
    rw [htool] at hsubj
    refine ⟨hsubj.trans ?_, hwhole⟩
    cases e <;> first | (cases hsubj; done) | (cases hsubj; rw [hown _ rfl])
  by_cases hch : key.kind = .nativeChild
  · refine rewrite_twice_child key.identity (fun e he => ?_) content
    obtain ⟨-, own, hsubj, hown⟩ := hes e he
    rw [hch] at hsubj
    refine hsubj.trans ?_
    cases e <;> first | (cases hsubj; done) | (cases hsubj; rw [hown _ rfl])
  refine field_foldl_twice id (fun e => some (rewrite support none e)) (fun content e he => ?_)
    content
  obtain ⟨hwhole, own, hsubj, -⟩ := hes e he
  have hkind := congrArg (Option.map fst) hsubj
  cases e <;> first
    | rfl
    | (cases hwhole; done)
    | exact absurd (Option.some.inj hkind).symm htool
    | exact absurd (Option.some.inj hkind).symm hch

end Again

variable {key : BlockKey} {b c d : Option (BlockState J)} {xs ys : List (ToldChange J ι)}

/-- A chain of whole changes none of which is cut rewrites the content. -/
theorem Chain.rewrites (h : Chain support key b xs c)
    (hxs : ∀ t ∈ xs, t.change.event.whole = true ∧ t.envelope.cut = false) :
    c.map (·.block) = (xs.map (·.change.event)).foldl (rewrite support) (b.map (·.block)) := by
  induction h with
  | nil => rfl
  | @cons b c t ts b' hfol hrest ih =>
    obtain ⟨completed, hwrote⟩ := hfol.wrote (hxs t mem_cons_self).1 (hxs t mem_cons_self).2
    rw [ih fun t' ht' => hxs t' (mem_cons_of_mem _ ht'), map_cons, foldl_cons]
    congr 1
    rw [rewrite, Option.map_map]
    simp only [Function.comp_def]
    rw [hwrote]
    rfl

/-- The events of a chain are about one block. -/
theorem Chain.subjects (h : Chain support key b xs c) : ∀ e ∈ xs.map (·.change.event),
    ∃ own, e.subject support = some (key.kind, own) ∧ ∀ id, own = some id → id = key.identity := by
  induction h with
  | nil => simp
  | cons hfol _ ih =>
    intro e he
    rcases mem_cons.1 he with rfl | he
    · exact hfol.subject
    · exact ih e he

/-! ## What the session lets through -/

variable [DecidableEq J] [DecidableEq ι]

omit [DecidableEq J] in
/-- The fresh events are appended. -/
theorem events_foldl_emit (s : BlockSession J ι)
    (pairs : List (BlockChange J × ProviderEventEnvelope J ι)) :
    (((screen s.eventLog pairs).map (·.envelope)).foldl emit s).events =
      s.events ++ ((screen s.eventLog pairs).filter (·.fresh)).map (·.envelope) ∧
    (((screen s.eventLog pairs).map (·.envelope)).foldl emit s).mapper = s.mapper := by
  induction pairs generalizing s with
  | nil => simp [screen]
  | cons pair pairs ih =>
    obtain ⟨change, envelope⟩ := pair
    by_cases hseen : envelope.eventId ∈ s.eventLog
    · have hemit : s.emit envelope = s := if_pos hseen
      simpa [screen, hseen, hemit] using ih s
    · have hlog : (s.emit envelope).eventLog = envelope.eventId :: s.eventLog := by
        simp [emit, hseen]
      have hevents : (s.emit envelope).events = s.events ++ [envelope] := by
        simp [emit, hseen]
      have hmapper : (s.emit envelope).mapper = s.mapper := by
        simp [emit, hseen]
      have hrest := ih (s.emit envelope)
      rw [hlog, hevents, hmapper] at hrest
      simpa [screen, hseen] using hrest

/-- What a notification whose events pass makes of a session. -/
theorem handleNotification_spec (h : (s.mapped support note fitting).2 = some told) :
    (s.handleNotification support note fitting).mapper = (s.mapped support note fitting).1 ∧
    (s.handleNotification support note fitting).told = s.told ++ told ∧
    (s.handleNotification support note fitting).events =
      s.events ++ (told.filter (·.fresh)).map (·.envelope) := by
  obtain ⟨envelopes, -, rfl⟩ := map_eq_some_iff.1 h
  obtain ⟨hevents, hmapper⟩ := events_foldl_emit
    { s with mapper := (s.mapped support note fitting).1 }
    (((s.mapper.mapNotification support note).2).zip envelopes)
  simp only [handleNotification, h, getD_some]
  exact ⟨hmapper, trivial, hevents⟩

/-! ## Dropped events that repeat -/

/-- The changes of a notification about a block, up to the last whose event
was let through. -/
def letThrough (changes : List (ToldChange J ι)) : List (ToldChange J ι) :=
  changes.rdropWhile (!·.fresh)

/-- The changes after it. -/
def dropped (changes : List (ToldChange J ι)) : List (ToldChange J ι) :=
  changes.rtakeWhile (!·.fresh)

/-- What a change says of a block, and whether it was cut. -/
def ToldChange.said (t : ToldChange J ι) : MapperEvent J × Bool := (t.change.event, t.envelope.cut)

/-- **Changes that repeat the latest ones**, word for word and as a whole. -/
def Repeats (before again : List (ToldChange J ι)) : Prop :=
  (∀ t ∈ again, t.change.event.whole = true ∧ t.envelope.cut = false) ∧
    again.map ToldChange.said <:+ before.map ToldChange.said

instance (before again : List (ToldChange J ι)) : Decidable (Repeats before again) :=
  inferInstanceAs (Decidable (_ ∧ _))

/-- **A notification that the session can tell in full.** It is no error, its
events pass, and what it drops of a block at its end repeats the latest
changes of the block. -/
def Retold (support : MapperSupport J ι) (s : BlockSession J ι)
    (a : CodexNotification J × DisplayFitting J) : Prop :=
  a.1.isError = false ∧ ∃ told ∈ (s.mapped support a.1 a.2).2,
    ∀ t ∈ told, ∀ key ∈ t.change.key support, Repeats
        (s.told.filter (·.about support key) ++ letThrough (told.filter (·.about support key)))
        (dropped (told.filter (·.about support key)))

instance (s : BlockSession J ι) (a : CodexNotification J × DisplayFitting J) :
    Decidable (Retold support s a) :=
  inferInstanceAs (Decidable (_ ∧ _))

omit [DecidableEq J] [DecidableEq ι] in
/-- What repeats the latest changes leaves the content of the block. -/
theorem Chain.content_eq_of_repeats {before again : List (ToldChange J ι)}
    (hbefore : Chain support key b before c) (hagain : Chain support key c again d)
    (h : Repeats before again) :
    c.map (·.block) = d.map (·.block) := by
  obtain ⟨hwhole, earlier, hsuffix⟩ := h
  obtain ⟨first, again', rfl, -, hsame⟩ := map_eq_append_iff.1 hsuffix.symm
  obtain ⟨b', -, hagain'⟩ := hbefore.split
  -- the latest changes are whole and not cut either, and say the same
  have hevents : again'.map (·.change.event) = again.map (·.change.event) := by
    have := congrArg (map fst) hsame
    simpa [said, Function.comp_def] using this
  have hwhole' : ∀ t ∈ again', t.change.event.whole = true ∧ t.envelope.cut = false := by
    intro t ht
    obtain ⟨t', ht', heq⟩ := mem_map.1 (hsame ▸ mem_map_of_mem (f := said) ht)
    obtain ⟨hevent, hcut⟩ := Prod.mk.inj heq
    rw [← hevent, ← hcut]
    exact hwhole t' ht'
  rw [hagain.rewrites hwhole, hagain'.rewrites hwhole', hevents]
  refine (rewrite_twice key (fun e he => ⟨?_, hagain.subjects e he⟩) _).symm
  obtain ⟨t, ht, rfl⟩ := mem_map.1 he
  exact (hwhole t ht).1

/-! ## What holds of a session -/

/-- **What a session emitted of a block determines what is held.** Its events
are within the structure of the held block and rise in revision, and the
last carries its content; what is held came of the changes told. -/
structure Shown (support : MapperSupport J ι) (s : BlockSession J ι) (key : BlockKey) : Prop where
  history : ∃ b, Chain support key b (s.told.filter (·.about support key))
    (s.mapper.blocks.lookup key)
  held : ∀ e ∈ s.shown key, ∃ b ∈ s.mapper.blocks.lookup key,
    e.place = b.place ∧ e.revision ≤ b.revision
  rising : (s.shown key).Pairwise (·.revision < ·.revision)
  last : ∀ e ∈ (s.shown key).getLast?, (s.mapper.blocks.lookup key).map (·.block) = some e.block

omit [DecidableEq J] [DecidableEq ι] in
/-- The events that a note adds to those of a block. -/
theorem filterMap_fresh
    (hother : ∀ t ∈ told, t.about support key = false → t.envelope.event.carries key = none) :
    ((told.filter (·.fresh)).map (·.envelope)).filterMap (·.event.carries key) =
      ((told.filter (·.about support key)).filter (·.fresh)).filterMap
        (·.envelope.event.carries key) := by
  induction told with
  | nil => rfl
  | cons t told ih =>
    have hrest := ih fun t ht => hother t (mem_cons_of_mem _ ht)
    have hhead := hother t mem_cons_self
    cases hfresh : t.fresh <;> cases habout : t.about support key <;>
      simp_all [filterMap_cons]

omit [DecidableEq J] [DecidableEq ι] in
/-- What the events let through of a chain carry at its end: what its first
part left. -/
theorem carries_fresh_getLast {changes : List (ToldChange J ι)}
    (h : Chain support key b (letThrough changes) c) :
    (changes.filter (·.fresh)).filterMap (·.envelope.event.carries key) = [] ∧ c = b ∨
      ((changes.filter (·.fresh)).filterMap (·.envelope.event.carries key)).getLast? = c ∧
        c.isSome := by
  have hdropped : (dropped changes).filter (·.fresh) = [] := by
    refine filter_eq_nil_iff.2 fun t ht => ?_
    simpa using mem_rtakeWhile_imp ht
  have hfresh : changes.filter (·.fresh) = (letThrough changes).filter (·.fresh) := by
    conv_lhs => rw [← rdropWhile_append_rtakeWhile (p := fun t : ToldChange J ι => !t.fresh)
      (l := changes), filter_append]
    rw [show changes.rtakeWhile (!·.fresh) = dropped changes from rfl, hdropped, append_nil]
    rfl
  rw [hfresh]
  by_cases hne : letThrough changes = []
  · rw [hne] at h ⊢
    obtain - | - := h
    exact .inl ⟨rfl, rfl⟩
  · refine .inr ?_
    have hlast : ((letThrough changes).getLast hne).fresh = true := by
      have hnot : ¬(!((letThrough changes).getLast hne).fresh) = true :=
        rdropWhile_last_not (fun t : ToldChange J ι => !t.fresh) changes hne
      simpa using hnot
    have hmem := getLast?_eq_some_getLast hne
    have hcarries := h.carries_getLast _ hmem
    obtain ⟨p, hp⟩ := h.carried.1 _ (getLast_mem hne)
    have hsplit := dropLast_append_getLast hne
    rw [← hcarries, hp]
    refine ⟨?_, rfl⟩
    rw [← hsplit, filter_append, filterMap_append]
    simp [hlast, hp]

/-- What a notification that is no error makes of the blocks. -/
theorem mapped_spec (hfiled : s.mapper.Filed) (hno : note.isError = false)
    (h : (s.mapped support note fitting).2 = some told) :
    (s.mapped support note fitting).1.Filed ∧
    (∀ t ∈ told, ∀ key, t.about support key = false → t.envelope.event.carries key = none) ∧
    ∀ key, Chain support key (s.mapper.blocks.lookup key) (told.filter (·.about support key))
      ((s.mapped support note fitting).1.blocks.lookup key) := by
  obtain ⟨envelopes, henvs, rfl⟩ := map_eq_some_iff.1 h
  have hblks : (s.mapper.mapNotification support note).1.blocks = s.mapper.blocks :=
    blocks_mapNotification
  obtain ⟨hfiled', hother, hchain⟩ := BlockMapper.envelopes_spec
    (fun k b hb => hfiled k b (hblks ▸ hb))
    (fun c hc => addressed_of_mem_mapNotification hno hc) (ext rfl henvs) s.eventLog
  rw [hblks] at hchain
  exact ⟨hfiled', hother, hchain⟩

/-- **One notification.** -/
theorem Shown.step {a : CodexNotification J × DisplayFitting J} (hfiled : s.mapper.Filed)
    (hs : ∀ key, Shown support s key) (h : Retold support s a) :
    (s.handleNotification support a.1 a.2).mapper.Filed ∧
      ∀ key, Shown support (s.handleNotification support a.1 a.2) key := by
  obtain ⟨hno, told, htold, hrepeats⟩ := h
  obtain ⟨hmapper, hhistory, hevents⟩ := handleNotification_spec htold
  obtain ⟨hfiled', hother, hchain⟩ := mapped_spec hfiled hno htold
  refine ⟨hmapper ▸ hfiled', fun key => ?_⟩
  obtain ⟨⟨first, hfst⟩, hheld, hrising, hlast⟩ := hs key
  have hpart := hchain key
  -- what the note is about the block, and what is dropped of it at its end
  set part := told.filter (·.about support key) with hpartdef
  have hcut : part = letThrough part ++ dropped part :=
    (rdropWhile_append_rtakeWhile (p := fun t : ToldChange J ι => !t.fresh)).symm
  obtain ⟨mid, hmid, hend⟩ := (hcut ▸ hpart).split
  have hsh : (s.handleNotification support a.1 a.2).shown key =
      s.shown key ++ (part.filter (·.fresh)).filterMap (·.envelope.event.carries key) := by
    rw [shown, hevents, filterMap_append, filterMap_fresh fun t ht =>
      hother t ht key]
    rfl
  have hsame : mid.map (·.block) =
      ((s.mapped support a.1 a.2).1.blocks.lookup key).map (·.block) := by
    by_cases hnone : part = []
    · have hnil : dropped part = [] := by rw [hnone]; rfl
      rw [hnil] at hend
      obtain - | - := hend
      rfl
    · obtain ⟨t, ht⟩ := exists_mem_of_ne_nil _ hnone
      obtain ⟨htmem, habout⟩ := mem_filter.1 ht
      exact (hfst.append hmid).content_eq_of_repeats hend
        (hrepeats t htmem key (by simpa [about] using habout))
  obtain ⟨-, hkept, hnew, hnewrising⟩ := hpart.carried
  have hsub : List.Sublist ((part.filter (·.fresh)).filterMap (·.envelope.event.carries key))
      (part.filterMap (·.envelope.event.carries key)) := filter_sublist.filterMap _
  constructor
  · rw [hhistory, hmapper, filter_append]
    exact ⟨first, hfst.append hpart⟩
  · intro e he
    rw [hsh, mem_append] at he
    rw [hmapper]
    rcases he with he | he
    · obtain ⟨b, hb, hplc, hrev⟩ := hheld e he
      obtain ⟨q, hq, hplc', hrev'⟩ := hkept b hb
      exact ⟨q, hq, hplc.trans hplc'.symm, hrev.trans hrev'⟩
    · obtain ⟨q, hq, hplc, hrev, -⟩ := hnew e (hsub.subset he)
      exact ⟨q, hq, hplc, hrev⟩
  · rw [hsh, pairwise_append]
    refine ⟨hrising, hnewrising.sublist hsub, fun e he e' he' => ?_⟩
    obtain ⟨b, hb, -, hrev⟩ := hheld e he
    obtain ⟨-, -, -, -, hlt⟩ := hnew e' (hsub.subset he')
    exact hrev.trans_lt (hlt b hb)
  · intro e he
    rw [hsh, getLast?_append] at he
    rw [hmapper, ← hsame]
    rcases carries_fresh_getLast hmid with ⟨hnil, rfl⟩ | ⟨hcarries, hsome⟩
    · rw [hnil] at he
      exact hlast e he
    · rw [hcarries] at he
      obtain ⟨q, rfl⟩ := isSome_iff_exists.1 hsome
      cases he
      rfl

omit [DecidableEq J] [DecidableEq ι] in
/-- A session as it is opened. -/
theorem filed_opened : (opened J ι children nextOrdinalByTurn).mapper.Filed := by
  have hfold : ∀ (children : List RestoredChild) (m : BlockMapper J), m.Filed →
      ∀ key b, (children.foldl (fun blocks restored =>
        blocks.insert restored.key (restored.blockState J)) m.blocks).lookup key = some b →
        b.Under key := by
    intro children
    induction children with
    | nil => exact fun m hm key b hb => hm key b hb
    | cons child children ih =>
      intro m hm key b hb
      have hunder : (child.blockState J).Under child.key := by
        refine ⟨rfl, rfl, ?_⟩
        rintro id ⟨⟩
        rfl
      exact ih { m with blocks := m.blocks.insert child.key (child.blockState J) }
        (hm.insert hunder rfl) key b hb
  exact hfold children
    { (opened J ι children nextOrdinalByTurn).mapper with blocks := ∅ }
    (by rintro key b ⟨⟩)

/-- Every block is shown as the invariant says. -/
theorem shown_of_reachable (h : ((blockMachine support children nextOrdinalByTurn).restrict
      (Retold support)).Reachable s) :
    s.mapper.Filed ∧ ∀ key, Shown support s key := by
  refine h.rule (P := fun s => s.mapper.Filed ∧ ∀ key, Shown support s key)
    ⟨filed_opened, fun key => ⟨⟨_, .nil _⟩, ?_, ?_, ?_⟩⟩ fun u a v _ hu hv => ?_
  · rintro e ⟨⟩
  · exact List.Pairwise.nil
  · rintro e ⟨⟩
  · obtain ⟨hretold, hstep⟩ := Machine.restrict_step_eq_some.1 hv
    cases hstep
    exact Shown.step hu.1 hu.2 hretold

/-- **What a Codex session emits determines what its mapper knows.** Where
every notification can be told in full, the events let through of a block
rise strictly in revision and have one structure, and the last of them
carries the kind, the state and the payload that the mapper holds. -/
theorem codex_blocks_shown {children : List RestoredChild} {nextOrdinalByTurn : Assoc String ℕ}
    {s : BlockSession J ι}
    (h : ((blockMachine support children nextOrdinalByTurn).restrict (Retold support)).Reachable s)
    (key : BlockKey) :
    (s.shown key).Pairwise (·.revision < ·.revision) ∧
    (∀ e ∈ s.shown key, ∀ e' ∈ s.shown key, e.place = e'.place) ∧
    ∀ e ∈ (s.shown key).getLast?,
      ∃ b, s.mapper.blocks.lookup key = some b ∧ b.place = e.place ∧ b.block = e.block := by
  obtain ⟨-, hheld, hrising, hlast⟩ := (shown_of_reachable h).2 key
  refine ⟨hrising, fun e he e' he' => ?_, fun e he => ?_⟩
  · obtain ⟨b, hb, hplace, -⟩ := hheld e he
    obtain ⟨b', hb', hplace', -⟩ := hheld e' he'
    cases hb.symm.trans hb'
    exact hplace.trans hplace'.symm
  · obtain ⟨b, hb, hblock⟩ := map_eq_some_iff.1 (hlast e he)
    obtain ⟨b', hb', hplace, -⟩ := hheld e (List.mem_of_mem_getLast? he)
    cases hb.symm.trans hb'
    exact ⟨b, hb, hplace.symm, hblock⟩

/-- Ids that are what they digest, and previews that are texts. -/
def plainSupport : MapperSupport String (EventIdentity String) where
  stableEventId := id
  noticeDigest := fun _ => "digest"
  fitJsonPreview := id
  mergeJsonPreview := fun previous next => previous.getD "" ++ next
  pathsPreview := String.join

/-- A command starts, writes and ends, and its end is told again. -/
def commandRun : List (CodexNotification String × DisplayFitting String) :=
  [(.item "turn" "item" (.commandExecution "ls" "ls" none .inProgress) false, .all _),
    (.outputDelta "turn" "item" "a", .all _),
    (.item "turn" "item" (.commandExecution "ls" "ls" (some "a") .completed) true, .all _),
    (.item "turn" "item" (.commandExecution "ls" "ls" (some "a") .completed) true, .all _)]

/-- A command with its output. -/
theorem codex_blocks_shown_command :
    ∃ s, ((blockMachine plainSupport [] ∅).restrict (Retold plainSupport)).Reachable s ∧
      (s.shown ⟨"turn", "item", .tool⟩).map (·.revision) = [0, 1, 3, 4] ∧
      ∀ e ∈ (s.shown ⟨"turn", "item", .tool⟩).getLast?,
        ∃ b, s.mapper.blocks.lookup ⟨"turn", "item", .tool⟩ = some b ∧ b.place = e.place ∧
          b.block = e.block := by
  have hrun : ((blockMachine plainSupport [] ∅).restrict (Retold plainSupport)).exec commandRun
      (.opened _ _ [] ∅) = some (((blockMachine plainSupport [] ∅).restrict
        (Retold plainSupport)).run commandRun (.opened _ _ [] ∅)) :=
    Machine.exec_eq_run (by decide +kernel)
  exact ⟨_, ⟨_, hrun⟩, by decide +kernel, (codex_blocks_shown ⟨_, hrun⟩ _).2.2⟩

/-- A message is completed with one text, with another, and with the first
again. -/
def revertedRun : List (CodexNotification String × DisplayFitting String) :=
  [(.item "turn" "item" (.agentMessage (some .final) "a") true, .all _),
    (.item "turn" "item" (.agentMessage (some .final) "b") true, .all _),
    (.item "turn" "item" (.agentMessage (some .final) "a") true, .all _)]

/-- **A message that is changed back.** The last event has the id of the
first and is dropped: what was let through last is not what is held. -/
theorem codex_reverted_message : ∃ s, (blockMachine plainSupport [] ∅).Reachable s ∧
      ((s.shown ⟨"turn", "item", .assistantText⟩).getLast?.map (·.block)) =
        some ⟨.completed, .text .final "b"⟩ ∧
      (s.mapper.blocks.lookup ⟨"turn", "item", .assistantText⟩).map (·.block) =
        some ⟨.completed, .text .final "a"⟩ := by
  have hrun : (blockMachine plainSupport [] ∅).exec revertedRun (.opened _ _ [] ∅) =
      some ((blockMachine plainSupport [] ∅).run revertedRun (.opened _ _ [] ∅)) :=
    Machine.exec_eq_run (by decide +kernel)
  exact ⟨_, ⟨_, hrun⟩, by decide +kernel, by decide +kernel⟩

end Providers

end Remux
