import Remux.Providers.ClaudeBlocks

/-!
# The messages of a Claude turn

Every step that `Plain` allows keeps what holds of the session, so that a
finalised block is shown once, under its own index, with its own content. A
message of two texts whose second was not streamed is not such a run: with
each text finalised in a message of its own, the second is written to the
block of the first.
-/

namespace Remux

open Option hiding or_self
open List hiding getElem?_eq_some_iff

namespace Providers

namespace Claude

open Function

variable {J : Type}

/-! ## Steps that keep to their blocks -/

namespace Turn

/-- **The step keeps to its blocks.** What is streamed comes before its block
is finalised, or changes nothing, and passes whole; a text that is finalised
finds its own block; a result comes in the message of its call. -/
def Plain (support : Support J) (messages : Messages J) (s : Turn J) : Action J → Prop
  | .messageStart _ => True
  | .messageStop => True
  | .blockStart text _ => ∀ id ∈ s.mapper.currentMessageId,
    ∀ shown ∈ shownAt messages id (s.startedOf id),
      text = "" ∨ shown.2 ≠ "" ∧ support.fit shown.1 text = some (text, false)
  | .delta index text => ∀ id ∈ s.mapper.currentMessageId, ∀ shown ∈ shownAt messages id index,
    text = "" ∨ shown.2 ≠ "" ∧ s.finalisedOf id ≤ index ∧
      support.fit shown.1 (s.streamedOf id index ++ text) =
        some (s.streamedOf id index ++ text, false)
  | .inputDelta index json => ∀ id ∈ s.mapper.currentMessageId,
    json = "" ∨ s.finalisedOf id ≤ index ∨
      ∀ callId ∈ s.mapper.toolByMessageBlock.lookup (id, index),
        SettledBy support s.mapper callId json
  | .blockStop index => ∀ id ∈ s.mapper.currentMessageId,
    s.finalisedOf id ≤ index ∨ ∀ callId ∈ s.mapper.toolByMessageBlock.lookup (id, index),
      Settled support s.mapper callId
  | .assistant id count => ∀ k < count,
    OwnText messages s.startedOf s.streamedOf s.finalisedOf id (s.finalisedOf id + k) ∧
      ∀ shown ∈ shownAt messages id (s.finalisedOf id + k),
        shown.2 = "" ∨ support.fit shown.1 shown.2 = some (shown.2, false)
  | .toolResult callId _ _ => ∀ key ∈ s.mapper.toolBlockKey.lookup callId,
    key.messageId = s.mapper.messageId

instance (support : Support J) (messages : Messages J) (s : Turn J) (action : Action J) :
    Decidable (s.Plain support messages action) := by
  unfold Plain
  split <;> infer_instance

end Turn

/-- **What holds of the turn.** -/
structure Tracked (messages : Messages J) (s : Turn J) : Prop where
  mapped : Mapped messages s.startedOf s.streamedOf s.finalisedOf s.mapper
  started : ∀ id, s.startedOf id ≤ (messages.content id).length
  finalised : ∀ id, s.finalisedOf id ≤ s.startedOf id
  /-- An empty text was streamed nothing of. -/
  empty : ∀ id i shown, shownAt messages id i = some shown → shown.2 = "" → s.streamedOf id i = ""
  written : ∀ id i itemId, (id, i, itemId) ∈ s.writes →
    i < s.finalisedOf id ∧ itemId = contentId i

variable {support : Support J} {messages : Messages J} {s t : Turn J} {id : String} {i : ℕ}

namespace Turn

theorem startedOf_insert (n : ℕ) : (fun id' => ((s.started.insert id n).lookup id').getD 0) =
      update s.startedOf id n := by
  funext id'
  rw [Assoc.lookup_insert_eq, update_apply]
  split <;> rfl

theorem finalisedOf_insert (n : ℕ) : (fun id' => ((s.finalised.insert id n).lookup id').getD 0) =
      update s.finalisedOf id n := by
  funext id'
  rw [Assoc.lookup_insert_eq, update_apply]
  split <;> rfl

theorem streamedOf_insert (text : String) :
    (fun id' j => ((s.streamed.insert (id, i) text).lookup (id', j)).getD "") =
      fun id' j => if id' = id ∧ j = i then text else s.streamedOf id' j := by
  funext id' j
  simp only [Assoc.lookup_insert_eq, Prod.mk.injEq]
  split <;> rfl

end Turn

/-- Nothing is tracked at first. -/
theorem tracked_empty : Tracked messages (.empty J) where
  mapped := {
    filed := by rintro key b ⟨⟩
    numbered := ⟨by rintro id n ⟨⟩, by rintro id id' n ⟨⟩⟩
    own := by rintro key b ⟨⟩
    refs := fun id => rfl
    texts := by rintro id i kind text ⟨⟩
    calls := by rintro id i callId name input ⟨⟩
    indexed := by rintro id i callId ⟨⟩
    known := by rintro callId tool ⟨⟩ }
  started := fun id => Nat.zero_le _
  finalised := fun id => le_rfl
  empty := fun id i shown _ _ => rfl
  written := by rintro id i itemId ⟨⟩

/-! ## What the events do -/

variable {started : String → ℕ} {streamed : String → ℕ → String} {finalised : String → ℕ}
  {m m' : Mapper J} {text : String}

/-- Which message is current says nothing of the blocks. -/
theorem Mapped.named (h : Mapped messages started streamed finalised m)
    (current last : Option String) : Mapped messages started streamed finalised
      { m with currentMessageId := current, lastAssistantMessageId := last } :=
  ⟨{ h with }, h.refs, h.texts, h.calls, h.indexed, h.known⟩

/-- A message that starts is mapped. -/
theorem Mapped.messageStart (h : Mapped messages started streamed finalised m) :
    Mapped messages started streamed finalised (m.messageStart id) := by
  refine ⟨{ h with }, fun id' => ?_, h.texts, h.calls, h.indexed, h.known⟩
  simp only [Mapper.messageStart, Assoc.lookup_insert_eq]
  split
  · rename_i hid
    rw [hid, getD_some]
    exact h.refs id
  · exact h.refs id'

variable {input : Option J}

/-- **The next block of the message starts.** -/
theorem Mapped.contentBlockStart {block : ContentBlock J}
    (h : Mapped messages started streamed finalised m) (hid : m.currentMessageId = some id)
    (hcont : (messages.content id)[started id]? = some block) (hle : finalised id ≤ started id)
    (hfit : ∀ shown ∈ shownAt messages id (started id),
      text = "" ∨ support.fit shown.1 text = some (text, false))
    (heq : m.contentBlockStart support (started id) (Turn.startOf text input block) = some m') :
    Mapped messages (update started id (started id + 1)) (if block.shownText.isSome then
        fun id' j => if id' = id ∧ j = started id then text else streamed id' j
      else streamed) finalised m' := by
  have hmsg : m.messageId = id := by rw [Mapper.messageId, hid]; rfl
  have hsh : shownAt messages id (started id) = block.shownText := by
    rw [shownAt, hcont, bind_some]
  cases block with
  | text | thinking =>
    exact h.streamStart hmsg hsh hle (hfit _ hsh) heq
  | toolUse callId name final =>
    obtain ⟨hcall, hname⟩ := messages.named id callId name final (mem_of_getElem? hcont)
    simp only [Mapper.contentBlockStart, Turn.startOf, hcall, hname, or_self, if_false, hid,
      Option.some.injEq] at heq
    have hstarted := h.startCall input hid hcont hle
    simp only [noteCall, hid] at hstarted
    rw [← heq]
    exact hstarted

/-- **The next blocks of a message are finalised.** -/
theorem Mapped.handleAssistantMessage {content : List (ContentBlock J)}
    {later : Mapper J × List (Option String)}
    (h : Mapped messages started streamed finalised m)
    (hcarry : Carries support messages started streamed finalised id (finalised id) content)
    (heq : m.handleAssistantMessage support id content = some later) :
    Mapped messages started streamed (update finalised id (finalised id + content.length)) later.1 ∧
      later.2.length = content.length ∧
      ∀ k item, later.2[k]? = some (some item) → item = contentId (finalised id + k) := by
  simp only [Mapper.handleAssistantMessage, map_eq_some_iff] at heq
  obtain ⟨finalised', hfinal, rfl⟩ := heq
  have hnamed := h.named (some id) (some id)
  rw [← update_eq_self id finalised] at hnamed
  obtain ⟨hmap, hlen, hitems⟩ := hnamed.finalise content rfl hcarry (Nat.zero_add _)
    (Nat.zero_add _) hfinal
  exact ⟨hmap.named _ _, hlen, hitems⟩

/-! ## What every step keeps -/

/-- The next block of the current message. -/
theorem Tracked.blockStart (h : Tracked messages s)
    (hpln : s.Plain support messages (.blockStart text input))
    (hstep : s.turnStep support messages (.blockStart text input) = some t) :
    Tracked messages t := by
  simp only [Turn.turnStep, bind_eq_some_iff, map_eq_some_iff] at hstep
  obtain ⟨id, hid, block, hcont, mapper, hmpr, rfl⟩ := hstep
  have hbeg : ∀ shown ∈ shownAt messages id (s.startedOf id),
      text = "" ∨ shown.2 ≠ "" ∧ support.fit shown.1 text = some (text, false) := hpln id hid
  have hsh : shownAt messages id (s.startedOf id) = block.shownText := by
    rw [shownAt, hcont, bind_some]
  have hlen : s.startedOf id < (messages.content id).length :=
    (getElem?_eq_some_iff.1 hcont).1
  have hmap := h.mapped.contentBlockStart hid hcont (h.finalised id)
    (fun shown hmem => (hbeg shown hmem).imp_right And.right) hmpr
  have hstarted : ∀ id', s.startedOf id' ≤ update s.startedOf id (s.startedOf id + 1) id' := by
    intro id'
    rw [update_apply]
    split
    · rename_i heq
      rw [heq]
      exact Nat.le_succ _
    · exact le_rfl
  set u : Turn J := { s with
    mapper
    started := s.started.insert id (s.startedOf id + 1)
    streamed :=
      if block.shownText.isSome then s.streamed.insert (id, s.startedOf id) text else s.streamed }
    with hu
  have hustarted : u.startedOf = update s.startedOf id (s.startedOf id + 1) :=
    Turn.startedOf_insert _
  have hustreamed : u.streamedOf = if block.shownText.isSome then
      fun id' j => if id' = id ∧ j = s.startedOf id then text else s.streamedOf id' j
      else s.streamedOf := by
    by_cases hsome : block.shownText.isSome
    · rw [if_pos hsome, ← Turn.streamedOf_insert]
      funext id' j
      simp only [Turn.streamedOf, hu, if_pos hsome]
    · funext id' j
      simp only [Turn.streamedOf, hu, if_neg hsome]
  refine ⟨?_, fun id' => ?_, fun id' => ?_, fun id' i shown hsh' hnil => ?_, h.written⟩
  · rw [hustarted, hustreamed]
    exact hmap
  · rw [hustarted, update_apply]
    split
    · rename_i heq
      rw [heq]
      exact hlen
    · exact h.started id'
  · rw [hustarted]
    exact (h.finalised id').trans (hstarted id')
  · rw [hustreamed]
    split
    · dsimp only
      split
      · rename_i hsubj
        rw [hsubj.1, hsubj.2] at hsh'
        exact (hbeg shown hsh').resolve_right fun hne => hne.1 hnil
      · exact h.empty id' i shown hsh' hnil
    · exact h.empty id' i shown hsh' hnil

/-- The block that is streamed is one of those that were started. -/
theorem Turn.streaming_eq_some {block : String × ContentBlock J}
    (h : s.streaming messages i = some block) : s.mapper.currentMessageId = some block.1 ∧
      i < s.startedOf block.1 ∧ (messages.content block.1)[i]? = some block.2 := by
  simp only [streaming, bind_eq_some_iff, ite_none_right_eq_some, map_eq_some_iff] at h
  obtain ⟨id, hid, hi, content, hcont, rfl⟩ := h
  exact ⟨hid, hi, hcont⟩

theorem messageId_of_current (h : m.currentMessageId = some id) : m.messageId = id := by
  rw [Mapper.messageId, h]
  rfl

variable (h : Tracked messages s)
include h

/-- What the session counts stays as it is. -/
theorem Tracked.set (hmap : Mapped messages s.startedOf s.streamedOf s.finalisedOf m) :
    Tracked messages { s with mapper := m } :=
  { h with mapped := hmap }

/-- A part of a text. -/
theorem Tracked.delta (hpln : s.Plain support messages (.delta i text))
    (hstep : s.turnStep support messages (.delta i text) = some t) : Tracked messages t := by
  simp only [Turn.turnStep, bind_eq_some_iff, map_eq_some_iff] at hstep
  obtain ⟨⟨id, block⟩, hblk, shown, hshownText, mapper, hmpr, rfl⟩ := hstep
  obtain ⟨hid, hi, hcont⟩ := Turn.streaming_eq_some hblk
  have hsh : shownAt messages id i = some shown := by
    rw [shownAt, hcont]
    exact hshownText
  have hpart := hpln id hid shown hsh
  have hmap := h.mapped.streamText (messageId_of_current hid) hi hsh
    (hpart.imp_right And.right) hmpr
  rw [← Turn.streamedOf_insert] at hmap
  refine { h with mapped := hmap, empty := fun id' j shown' hsh' hnil => ?_ }
  have hstreamed : ((s.streamed.insert (id, i) (s.streamedOf id i ++ text)).lookup
      (id', j)).getD "" = if id' = id ∧ j = i then s.streamedOf id i ++ text
        else s.streamedOf id' j :=
    congrFun (congrFun (Turn.streamedOf_insert _) id') j
  refine hstreamed.trans ?_
  split
  · rename_i hsubj
    obtain ⟨rfl, rfl⟩ := hsubj
    cases hsh.symm.trans hsh'
    have hnothing : text = "" := hpart.resolve_right fun hne => hne.1 hnil
    rw [h.empty id' j shown hsh hnil, hnothing]
    rfl
  · exact h.empty id' j shown' hsh' hnil

/-- The next blocks of a message are finalised. -/
theorem Tracked.assistant {count : ℕ} (hpln : s.Plain support messages (.assistant id count))
    (hstep : s.turnStep support messages (.assistant id count) = some t) :
    Tracked messages t := by
  simp only [Turn.turnStep, ite_none_right_eq_some, map_eq_some_iff] at hstep
  obtain ⟨hle, later, hlat, rfl⟩ := hstep
  have hlen : (s.carried messages id count).length = count := by
    have := h.started id
    rw [Turn.carried, length_take, length_drop]
    omega
  have hcarry : Carries support messages s.startedOf s.streamedOf s.finalisedOf id
      (s.finalisedOf id) (s.carried messages id count) := by
    refine ⟨by rw [hlen]; exact hle, fun k hk => ?_, fun k hk => ?_, fun k hk => ?_⟩
    · rw [hlen] at hk
      rw [Turn.carried, getElem?_take_of_lt hk, getElem?_drop]
    · exact (hpln k (hlen ▸ hk)).1
    · exact (hpln k (hlen ▸ hk)).2
  obtain ⟨hmap, hitems, hwrites⟩ := h.mapped.handleAssistantMessage hcarry hlat
  rw [hlen, ← Turn.finalisedOf_insert] at hmap
  have hfinal : ∀ id', ((s.finalised.insert id (s.finalisedOf id + count)).lookup id').getD 0 =
      update s.finalisedOf id (s.finalisedOf id + count) id' :=
    congrFun (Turn.finalisedOf_insert _)
  refine ⟨hmap, h.started, fun id' => ?_, h.empty, fun id' i itemId hwrite => ?_⟩
  · refine (hfinal id').trans_le ?_
    rw [update_apply]
    split
    · rename_i heq
      rw [heq]
      exact hle
    · exact h.finalised id'
  · refine And.imp_left (fun hlt => lt_of_lt_of_eq hlt (hfinal id').symm) ?_
    rcases mem_append.1 hwrite with hold | hnew
    · -- written before, and no fewer are finalised now
      obtain ⟨hlt, hitem⟩ := h.written id' i itemId hold
      refine ⟨?_, hitem⟩
      rw [update_apply]
      split
      · rename_i heq
        rw [heq] at hlt
        omega
      · exact hlt
    · obtain ⟨items, hmem, hwrite⟩ := mem_flatten.1 hnew
      obtain ⟨k, hk, rfl⟩ := mem_mapIdx.1 hmem
      obtain ⟨item, hitem, heq⟩ := mem_map.1 hwrite
      simp only [Prod.mk.injEq] at heq
      obtain ⟨rfl, rfl, rfl⟩ := heq
      have hget : later.2[k]? = some (some item) := by
        rw [getElem?_eq_getElem hk, mem_toList.1 hitem]
      refine ⟨?_, hwrites k item hget⟩
      rw [update_self]
      omega

/-- **Every step keeps what holds of the turn.** -/
theorem Tracked.step {action : Action J} (hpln : s.Plain support messages action)
    (hstep : s.turnStep support messages action = some t) : Tracked messages t := by
  cases action with
  | messageStart id =>
    cases hstep
    exact h.set h.mapped.messageStart
  | messageStop =>
    cases hstep
    exact h.set (h.mapped.named none s.mapper.lastAssistantMessageId)
  | blockStart text input => exact h.blockStart hpln hstep
  | delta index text => exact h.delta hpln hstep
  | inputDelta index json =>
    obtain ⟨block, hblk, rfl⟩ := map_eq_some_iff.1 hstep
    obtain ⟨hid, -, -⟩ := Turn.streaming_eq_some hblk
    exact h.set (h.mapped.inputJsonDelta (messageId_of_current hid) (hpln block.1 hid))
  | blockStop index =>
    obtain ⟨block, hblk, rfl⟩ := map_eq_some_iff.1 hstep
    obtain ⟨hid, hi, -⟩ := Turn.streaming_eq_some hblk
    exact h.set (h.mapped.contentBlockStop (messageId_of_current hid) hi (hpln block.1 hid))
  | assistant id count => exact h.assistant hpln hstep
  | toolResult callId output failed =>
    cases hstep
    exact h.set (h.mapped.toolResult hpln)

omit h

theorem tracked_of_reachable
    (h : ((turnMachine support messages).restrict (Turn.Plain support messages)).Reachable s) :
    Tracked messages s := by
  refine h.rule (P := Tracked messages) tracked_empty fun u action v _ hu hv => ?_
  obtain ⟨hpln, hstep⟩ := Machine.restrict_step_eq_some.1 hv
  exact hu.step hpln hstep

/-! ## What is shown of a message -/

/-- **The blocks of a message are shown once, with their own content.** -/
structure ShownOnce (messages : Messages J) (s : Turn J) (id : String) : Prop where
  /-- Every block is that of one streamed index, and at its ordinal. -/
  block : ∀ key b, s.mapper.blocks.lookup key = some b → key.messageId = id →
    ∃ i < s.startedOf id, Own messages key i ∧ b.place.blockOrdinal = i
  /-- The blocks of a message, and no others, are in its pass. -/
  pass : ∀ key b key' b', s.mapper.blocks.lookup key = some b → key.messageId = id →
    s.mapper.blocks.lookup key' = some b' →
      (key'.messageId = id ↔ b'.place.passOrdinal = b.place.passOrdinal)
  /-- A text that is to come shows what was streamed of it. -/
  streamed : ∀ i shown, s.finalisedOf id ≤ i → i < s.startedOf id →
    shownAt messages id i = some shown →
      (s.mapper.blocks.lookup ⟨id, contentId i, shown.1⟩).map (·.payload) =
        if s.streamedOf id i = "" then none
        else some (plainPayload shown.1 (s.streamedOf id i))
  /-- A finalised text shows itself, if it is not empty. -/
  text : ∀ i shown, i < s.finalisedOf id → shownAt messages id i = some shown →
    (s.mapper.blocks.lookup ⟨id, contentId i, shown.1⟩).map (·.payload) =
      if shown.2 = "" then none else some (plainPayload shown.1 shown.2)
  /-- A finalised call shows its name and its input. -/
  call : ∀ i callId name input, i < s.finalisedOf id →
    (messages.content id)[i]? = some (.toolUse callId name input) →
      ∃ b output, s.mapper.blocks.lookup ⟨id, callId, .tool⟩ = some b ∧
        b.payload = .tool callId name (some input) output
  /-- Every finalised text was written to its own block. -/
  written : ∀ i itemId, (id, i, itemId) ∈ s.writes → itemId = contentId i

/-- What is tracked is shown once. -/
theorem Tracked.shownOnce (h : Tracked messages s) (id : String) : ShownOnce messages s id where
  block key b hb hid := by
    obtain ⟨-, i, hi, hown, hord⟩ := h.mapped.own key b hb
    rw [hid] at hi
    exact ⟨i, hi, hown, hord⟩
  pass key b key' b' hb hid hb' := by
    have hpass := (h.mapped.filed key b hb).2
    have hpass' := (h.mapped.filed key' b' hb').2
    rw [hid] at hpass
    constructor
    · intro hid'
      rw [hid', hpass] at hpass'
      exact (Option.some.inj hpass').symm
    · intro hsame
      rw [hsame] at hpass'
      exact h.mapped.numbered.inj _ _ _ hpass' hpass
  streamed i shown hle hi hsh := by
    have htext := h.mapped.texts id i shown.1 shown.2 hi hsh
    rwa [shownText_of_le hle] at htext
  text i shown hi hsh := by
    have htext := h.mapped.texts id i shown.1 shown.2 (hi.trans_le (h.finalised id)) hsh
    rw [htext]
    by_cases hnil : shown.2 = ""
    · have hnothing := h.empty id i shown hsh hnil
      simp [shownText, hsh, hnil, hnothing]
    · simp [shownText, hsh, hnil, hi]
  call i callId name input hi hcont := by
    obtain ⟨-, -, ⟨b, name', input', output, hb, hpay, hfinal⟩, -⟩ :=
      h.mapped.calls id i callId name input (hi.trans_le (h.finalised id)) hcont
    obtain ⟨rfl, rfl⟩ := hfinal hi
    exact ⟨b, output, hb, hpay⟩
  written i itemId hwrite := (h.written id i itemId hwrite).2

/-- **Content blocks are shown once with their own content.** In every run
whose steps keep to their blocks, each streamed index of a message has one
block, at its own ordinal in the pass of the message, that shows what was
finalised of it, and no text is written to another. -/
theorem claude_blocks_shown
    (h : ((turnMachine support messages).restrict (Turn.Plain support messages)).Reachable s)
    (id : String) : ShownOnce messages s id :=
  (tracked_of_reachable h).shownOnce id

/-- Texts that pass as they are, and inputs that are their own digests. -/
def plainSupport : Support String where
  fit _ text := some (text, false)
  parse := some
  hashJson input := input

/-- A message of one text after another. -/
def textMessages (texts : List String) : Messages String where
  content id := if id = "message" then texts.map .text else []
  named id callId name input h := by
    split at h <;> simp at h
  calls id i id' i' callId name input name' input' h := by
    split at h <;> simp at h

/-- Two texts are streamed and finalised, each in a message of its own. -/
def textsRun (second : String) : List (Action String) :=
  [.messageStart "message", .blockStart "first" none, .blockStop 0, .blockStart "" none,
    .delta 1 second, .blockStop 1, .assistant "message" 1, .assistant "message" 1, .messageStop]

/-- A message of two texts. -/
theorem claude_blocks_shown_texts : ∃ s,
    ((turnMachine plainSupport (textMessages ["first", "second"])).restrict
      (Turn.Plain plainSupport (textMessages ["first", "second"]))).Reachable s ∧
    s.finalisedOf "message" = 2 ∧
    ShownOnce (textMessages ["first", "second"]) s "message" := by
  have hrun : ((turnMachine plainSupport (textMessages ["first", "second"])).restrict
      (Turn.Plain plainSupport (textMessages ["first", "second"]))).exec (textsRun "second")
        (.empty String) = some (((turnMachine plainSupport
          (textMessages ["first", "second"])).restrict (Turn.Plain plainSupport
            (textMessages ["first", "second"]))).run (textsRun "second") (.empty String)) :=
    Machine.exec_eq_run (by decide +kernel)
  exact ⟨_, ⟨_, hrun⟩, by decide +kernel, claude_blocks_shown ⟨_, hrun⟩ _⟩

/-- **The second text shows in the block of the first.** Nothing was streamed
of it, and alone in its assistant message it is the first of its kind there. -/
theorem claude_second_text : ∃ s,
    (turnMachine plainSupport (textMessages ["first", "second"])).Reachable s ∧
    s.finalisedOf "message" = 2 ∧
    (s.mapper.blocks.lookup ⟨"message", contentId 0, .finalMessage⟩).map (·.payload) =
      some (.message "second") ∧
    s.mapper.blocks.lookup ⟨"message", contentId 1, .finalMessage⟩ = none ∧
    ("message", 1, contentId 0) ∈ s.writes ∧
    ¬ShownOnce (textMessages ["first", "second"]) s "message" := by
  have hrun : (turnMachine plainSupport (textMessages ["first", "second"])).exec (textsRun "")
      (.empty String) = some ((turnMachine plainSupport (textMessages ["first", "second"])).run
        (textsRun "") (.empty String)) :=
    Machine.exec_eq_run (by decide +kernel)
  have hwrite : ("message", 1, contentId 0) ∈ ((turnMachine plainSupport
      (textMessages ["first", "second"])).run (textsRun "") (.empty String)).writes := by
    decide +kernel
  refine ⟨_, ⟨_, hrun⟩, by decide +kernel, by decide +kernel, by decide +kernel, hwrite,
    fun hshown => ?_⟩
  exact absurd (hshown.written 1 (contentId 0) hwrite) (by decide +kernel)

end Claude

end Providers

end Remux
