import Mathlib.Data.List.Range
import Std.Data.String.ToNat
import Remux.Providers.Model.ClaudeBlocks

/-!
# The blocks of a Claude message

A finalised text is matched to a streamed block by what that shows, and else
by its position in its own assistant message, which for a text that comes
alone is the first. `Plain` leaves out the finalised texts that either rule
takes to another block, the events that follow the finalisation of what they
are about, and the results that come in another message than their call.
What then holds of the session (`Mapped`): the blocks of a message are those
of its streamed indices, each under its own key and at its own ordinal, and
show what was finalised.
-/

namespace Remux

open Option hiding or_self

namespace Providers

namespace Claude

open Assoc BlockKey Function List

variable {J : Type}

/-! ## Keys -/

theorem contentId_injective : Function.Injective contentId := by
  intro i j h
  have htoList := congrArg String.toList h
  simp only [contentId, String.toList_append, append_cancel_left_eq] at htoList
  exact Nat.repr_injective (String.toList_injective htoList)

theorem contentId_ne {i : ℕ} {kind : BlockKind} : contentId i ≠ kind.text := by
  intro h
  have hhead := congrArg (fun s => s.toList.head?) h
  cases kind <;> simp [contentId, BlockKind.text] at hhead

/-- The key of a message's block. -/
def ContentBlock.key (id : String) (i : ℕ) : ContentBlock J → BlockKey
  | .text _ => ⟨id, contentId i, .finalMessage⟩
  | .thinking _ => ⟨id, contentId i, .reasoningSummary⟩
  | .toolUse callId _ _ => ⟨id, callId, .tool⟩

/-- A key is that of a message's block. -/
def Own (messages : Messages J) (key : BlockKey) (i : ℕ) : Prop :=
  ∃ block, (messages.content key.messageId)[i]? = some block ∧ key = block.key key.messageId i

variable {messages : Messages J} {key : BlockKey} {i j : ℕ}

/-- **A key is that of one block.** -/
theorem Own.eq (h : Own messages key i) (h' : Own messages key j) : i = j := by
  obtain ⟨block, hblk, hkey⟩ := h
  obtain ⟨block', hblk', hkey'⟩ := h'
  have heq := hkey.symm.trans hkey'
  cases block with
  | text _ | thinking _ =>
    cases block' <;> simp only [ContentBlock.key, mk.injEq, reduceCtorEq, and_false,
      and_true, true_and] at heq
    exact contentId_injective heq
  | toolUse callId name input =>
    cases block' with
    | text _ | thinking _ => simp [ContentBlock.key] at heq
    | toolUse callId' name' input' =>
      simp only [ContentBlock.key, mk.injEq, and_true, true_and] at heq
      subst heq
      exact (messages.calls _ _ _ _ _ _ _ _ _ hblk hblk').2

variable {n semanticOrdinal f : ℕ} {shown : BlockKind × String} {callId name id' : String}
variable {input : J} {b : BlockState J} {finalised' : String → ℕ} {ref : AssistantBlockRef}
variable {m' : Mapper J}

theorem firstFree_of_notMem {occupied : List ℕ} (h : n ∉ occupied) : firstFree occupied n = n := by
  rw [firstFree, range'_succ, find?_cons_of_pos (by simpa using h), getD_some]

/-! ## Committing a block -/

namespace Mapper

variable {m : Mapper J} {b : BlockState J} {itemId : Option String}

/-- A block under its key, with the call and the pass that it tells of. -/
def put (m : Mapper J) (key : BlockKey) (b : BlockState J) : Mapper J :=
  { m with
    blocks := m.blocks.insert key b
    toolBlockKey :=
      match b.payload.callId with
      | some callId => m.toolBlockKey.insert callId key
      | none => m.toolBlockKey
    passOrdinals := m.passOrdinals.insert key.messageId b.place.passOrdinal }

/-- Every block is filed under what its id digests, and its pass has the
ordinal that is known of its message. -/
def Filed (m : Mapper J) : Prop :=
  ∀ key b, m.blocks.lookup key = some b → b.place.blockId = key ∧
    m.passOrdinals.lookup key.messageId = some b.place.passOrdinal

/-- A block committed under its own key is put there. -/
theorem commitBlockEvent_eq_put (h : m.Filed)
    (hkey : m.blockKey (b.payload.callId.or itemId) b.payload.kind = b.place.blockId) :
    m.commitBlockEvent b itemId = m.put b.place.blockId b := by
  have hid : b.place.blockId.messageId = m.messageId := by rw [← hkey]; rfl
  have hfnd : ((m.blocks.entries.find? (·.2.place.blockId = b.place.blockId)).map
      (·.1)).getD (m.blockKey (b.payload.callId.or itemId) b.payload.kind) = b.place.blockId := by
    cases hfind : m.blocks.entries.find? (·.2.place.blockId = b.place.blockId) with
    | none => exact hkey
    | some entry =>
      obtain ⟨key, b'⟩ := entry
      have hsame := find?_some hfind
      have hget := mem_entries_iff.1 (mem_of_find?_eq_some hfind)
      have hplc := (h key b' hget).1
      simp only [decide_eq_true_eq] at hsame
      exact hplc.symm.trans hsame
  simp only [commitBlockEvent, hfnd]
  rw [← hid]
  rfl

variable {payload : TurnBlockPayload J} {blockIndex : Option ℕ} {state : TurnBlockState}
variable {compl : Bool} {callId : String}

/-- **A block that is there is emitted in its place.** -/
theorem emitBlock_of_lookup (h : m.Filed) {previous : BlockState J}
    (hprev : m.blocks.lookup key = some previous)
    (hkey : m.blockKey (payload.callId.or itemId) payload.kind = key) (blockIndex : Option ℕ)
    (state : TurnBlockState) (compl : Bool) :
    m.emitBlock key itemId blockIndex payload state compl =
      m.put key ⟨previous.place, payload, state, previous.revision + 1⟩ := by
  have hplc := (h key previous hprev).1
  simp only [emitBlock, hprev]
  rw [commitBlockEvent_eq_put h (hkey.trans hplc.symm), hplc]

/-- **A block that is new is emitted at its index**, if no other block of its
message has that ordinal. -/
theorem emitBlock_of_lookup_eq_none (h : m.Filed) (hnone : m.blocks.lookup key = none)
    (hitem : m.blockKey itemId payload.kind = key)
    (hkey : m.blockKey (payload.callId.or itemId) payload.kind = key) (i : ℕ)
    (hfree : ∀ key' b, m.blocks.lookup key' = some b → key'.messageId = key.messageId →
      b.place.blockOrdinal ≠ i) (state : TurnBlockState) (compl : Bool) :
    m.emitBlock key itemId (some i) payload state compl =
      m.put key ⟨⟨key, (m.passOrdinals.lookup key.messageId).getD m.passOrdinals.size, i⟩, payload,
        state, if compl then 1 else 0⟩ := by
  have hid : key.messageId = m.messageId := by rw [← hkey]; rfl
  have hord : firstFree (m.occupiedOrdinals m.messageId) i = i := by
    refine firstFree_of_notMem fun hmem => ?_
    obtain ⟨⟨key', b⟩, hent, hb⟩ := mem_map.1 hmem
    obtain ⟨hent, hmsg⟩ := mem_filter.1 hent
    have hget := mem_entries_iff.1 hent
    rw [decide_eq_true_eq, (h key' b hget).1, ← hid] at hmsg
    exact hfree key' b hget hmsg hb
  simp only [emitBlock, hnone]
  rw [commitBlockEvent_eq_put h (by simpa only [structureOf, hitem] using hkey)]
  simp only [structureOf, hitem, getD_some, hord]
  rw [hid]

/-! The message that keys are of stays while blocks are emitted. -/

theorem emitBlock_messageId :
    (m.emitBlock key itemId blockIndex payload state compl).messageId = m.messageId := by
  unfold emitBlock
  split <;> rfl

theorem emitToolUpdated_messageId {name : Option String} {input output : Option J} :
    (m.emitToolUpdated callId name input output blockIndex state compl).messageId = m.messageId :=
  emitBlock_messageId

/-- The input of a tool does not change the message. -/
theorem finalizeToolInput_messageId {support : Support J} {blockIndex : ℕ}
    {requireComplete : Bool} :
    (m.finalizeToolInput support callId blockIndex requireComplete).messageId = m.messageId := by
  unfold finalizeToolInput
  split
  · rfl
  · split
    · rfl
    · split
      · split <;> rfl
      · split
        · rfl
        · exact emitToolUpdated_messageId

/-- A tool that is finalised does not change the message. -/
theorem finaliseTool_messageId {name : String} {input : J} {position : ℕ} :
    (m.finaliseTool callId name input position).messageId = m.messageId := by
  unfold finaliseTool
  split
  · rfl
  · split
    · exact emitToolUpdated_messageId
    · exact emitBlock_messageId

end Mapper

/-! ## What holds of the session -/

/-- What a text is shown as, if it passes whole. -/
def plainPayload (kind : BlockKind) (text : String) : TurnBlockPayload J :=
  match kind with
  | .reasoningSummary => .reasoning text false
  | _ => .message text

/-- The kind and the text of a message's block. -/
def shownAt (messages : Messages J) (id : String) (i : ℕ) : Option (BlockKind × String) :=
  ((messages.content id)[i]?).bind ContentBlock.shownText

/-- **What a block shows**: its text, once that is finalised and not empty,
and before what was streamed of it. -/
def shownText (messages : Messages J) (streamed : String → ℕ → String) (finalised : String → ℕ)
    (id : String) (i : ℕ) : String :=
  let final := ((shownAt messages id i).map Prod.snd).getD ""
  if i < finalised id ∧ final ≠ "" then final else streamed id i

/-- The texts of a message that were streamed, in order. -/
def refsOf (messages : Messages J) (id : String) (n : ℕ) : List AssistantBlockRef :=
  (List.range n).filterMap fun i =>
    (shownAt messages id i).map fun shown => ⟨shown.1, contentId i, i⟩

/-- Messages have passes of their own, numbered in the order they came. -/
structure Numbered (passOrdinals : Assoc String ℕ) : Prop where
  lt : ∀ id n, passOrdinals.lookup id = some n → n < passOrdinals.size
  inj : ∀ id id' n, passOrdinals.lookup id = some n → passOrdinals.lookup id' = some n → id = id'

/-- **Every block is a started block of its message**, at its own ordinal. -/
structure Placed (messages : Messages J) (started : String → ℕ) (m : Mapper J) : Prop where
  filed : m.Filed
  numbered : Numbered m.passOrdinals
  own : ∀ key b, m.blocks.lookup key = some b → b.payload.kind = key.kind ∧
    ∃ i < started key.messageId, Own messages key i ∧ b.place.blockOrdinal = i

/-- **What holds of the session**, after so many blocks of each message were
started, streamed and finalised. -/
structure Mapped (messages : Messages J) (started : String → ℕ) (streamed : String → ℕ → String)
    (finalised : String → ℕ) (m : Mapper J) : Prop extends Placed messages started m where
  refs : ∀ id, (m.assistantBlocksByMessage.lookup id).getD [] = refsOf messages id (started id)
  texts : ∀ id i kind text, i < started id → shownAt messages id i = some (kind, text) →
    (m.blocks.lookup ⟨id, contentId i, kind⟩).map (·.payload) =
      if shownText messages streamed finalised id i = "" then none
      else some (plainPayload kind (shownText messages streamed finalised id i))
  calls : ∀ id i callId name input, i < started id →
    (messages.content id)[i]? = some (.toolUse callId name input) →
      m.toolByMessageBlock.lookup (id, i) = some callId ∧
      m.toolBlockKey.lookup callId = some ⟨id, callId, .tool⟩ ∧
      (∃ b name' input' output, m.blocks.lookup ⟨id, callId, .tool⟩ = some b ∧
        b.payload = .tool callId name' input' output ∧
        (i < finalised id → name' = name ∧ input' = some input)) ∧
      ∃ tool, m.tools.lookup callId = some tool ∧
        (i < finalised id → tool.name = name ∧ tool.input = some input)
  indexed : ∀ id i callId, m.toolByMessageBlock.lookup (id, i) = some callId →
    i < started id ∧ ∃ name input, (messages.content id)[i]? = some (.toolUse callId name input)
  known : ∀ callId tool, m.tools.lookup callId = some tool →
    ∃ id i name input, i < started id ∧
      (messages.content id)[i]? = some (.toolUse callId name input)

variable {started : String → ℕ} {streamed : String → ℕ → String} {finalised : String → ℕ}
  {m : Mapper J} {id : String} {kind : BlockKind} {text : String}

@[simp] theorem plainPayload_text : (plainPayload kind text : TurnBlockPayload J).text = text := by
  cases kind <;> rfl

@[simp] theorem plainPayload_callId :
    (plainPayload kind text : TurnBlockPayload J).callId = none := by
  cases kind <;> rfl

theorem shownAt_kind (h : shownAt messages id i = some shown) : shown.1 ≠ .tool := by
  obtain ⟨block, -, hblk⟩ := bind_eq_some_iff.1 h
  cases block <;> simp only [ContentBlock.shownText, Option.some.injEq, reduceCtorEq] at hblk <;>
    simp [← hblk]

theorem plainPayload_kind (h : kind ≠ .tool) :
    (plainPayload kind text : TurnBlockPayload J).kind = kind := by
  cases kind <;> first | rfl | exact absurd rfl h

/-- The key of a text. -/
theorem own_of_shownAt (h : shownAt messages id i = some shown) :
    Own messages ⟨id, contentId i, shown.1⟩ i := by
  obtain ⟨block, hget, hblk⟩ := bind_eq_some_iff.1 h
  refine ⟨block, hget, ?_⟩
  cases block <;> simp only [ContentBlock.shownText, Option.some.injEq, reduceCtorEq] at hblk <;>
    simp [← hblk, ContentBlock.key]

theorem own_of_toolUse (h : (messages.content id)[i]? = some (.toolUse callId name input)) :
    Own messages ⟨id, callId, .tool⟩ i := ⟨_, h, rfl⟩

/-- A message keeps its pass, or gets the next one. -/
theorem Numbered.insert {p : Assoc String ℕ} (h : Numbered p) (id : String) :
    Numbered (p.insert id ((p.lookup id).getD p.size)) := by
  cases hget : p.lookup id with
  | some n =>
    have hsame : ∀ id', (p.insert id n).lookup id' = p.lookup id' := by
      intro id'
      rw [lookup_insert_eq]
      split
      · rename_i heq
        rw [heq, hget]
      · rfl
    refine ⟨fun id' k hk => ?_, fun id' id'' k hk hk' => ?_⟩
    · rw [getD_some, hsame] at hk
      rw [getD_some, size_insert_of_lookup_eq_some hget]
      exact h.lt id' k hk
    · rw [getD_some, hsame] at hk hk'
      exact h.inj id' id'' k hk hk'
  | none =>
    refine ⟨fun id' k hk => ?_, fun id' id'' k hk hk' => ?_⟩
    · rw [getD_none, lookup_insert_eq] at hk
      rw [getD_none, size_insert_of_lookup_eq_none hget]
      split at hk
      · cases hk
        exact Nat.lt_succ_self _
      · exact Nat.lt_succ_of_lt (h.lt id' k hk)
    · rw [getD_none, lookup_insert_eq] at hk hk'
      -- the new ordinal is past those that are there
      have hnew : ∀ id', p.lookup id' ≠ some p.size := fun id' heq =>
        lt_irrefl _ (h.lt id' _ heq)
      split at hk <;> split at hk'
      · simp [*]
      · cases hk
        exact absurd hk' (hnew id'')
      · cases hk'
        exact absurd hk (hnew id')
      · exact h.inj id' id'' k hk hk'

/-- No other block of the message is at the ordinal of one that is not there. -/
theorem Placed.free (h : Placed messages started m) (hown : Own messages key i)
    (hnone : m.blocks.lookup key = none) (key' : BlockKey) (b : BlockState J)
    (hb : m.blocks.lookup key' = some b) (hid : key'.messageId = key.messageId) :
    b.place.blockOrdinal ≠ i := by
  rintro rfl
  obtain ⟨-, j, -, hown', hord⟩ := h.own key' b hb
  obtain ⟨block, hblk, hkey⟩ := hown
  obtain ⟨block', hblk', hkey'⟩ := hown'
  rw [hid, ← hord, hblk] at hblk'
  cases hblk'
  have heq : key' = key := by rw [hkey', hkey, hid, hord]
  rw [heq, hnone] at hb
  cases hb

/-- A block as it may be put in its place: at its own ordinal, and in the
pass that its message has. -/
structure Fits (messages : Messages J) (m : Mapper J) (key : BlockKey) (i : ℕ) (b : BlockState J) :
    Prop where
  own : Own messages key i
  blockId : b.place.blockId = key
  ordinal : b.place.blockOrdinal = i
  pass : (m.passOrdinals.lookup key.messageId).getD m.passOrdinals.size = b.place.passOrdinal
  kind : b.payload.kind = key.kind

/-- **What is emitted of a message's block fits.** -/
theorem Placed.emitBlock (h : Placed messages started m) (key : BlockKey)
    (hid : m.messageId = key.messageId) (hown : Own messages key i) (payload : TurnBlockPayload J)
    (hkind : payload.kind = key.kind) (hcall : ∀ callId, payload.callId = some callId →
      callId = key.itemId) (blockIndex : Option ℕ)
    (hindex : blockIndex = some i ∨ (m.blocks.lookup key).isSome) (state : TurnBlockState)
    (compl : Bool) : ∃ b : BlockState J, Fits messages m key i b ∧ b.payload = payload ∧
      m.emitBlock key (some key.itemId) blockIndex payload state compl = m.put key b := by
  have hitem : m.blockKey (some key.itemId) payload.kind = key := by
    rw [Mapper.blockKey, hid, hkind, getD_some]
  have hkey : m.blockKey (payload.callId.or (some key.itemId)) payload.kind = key := by
    cases hcallId : payload.callId with
    | none => exact hitem
    | some callId => rw [hcall callId hcallId]; exact hitem
  cases hget : m.blocks.lookup key with
  | some previous =>
    obtain ⟨-, j, -, hown', hord⟩ := h.own key previous hget
    refine ⟨⟨previous.place, payload, state, previous.revision + 1⟩,
      ⟨hown, (h.filed key previous hget).1, hord.trans (hown'.eq hown), ?_, hkind⟩, rfl,
      Mapper.emitBlock_of_lookup h.filed hget hkey blockIndex state compl⟩
    rw [(h.filed key previous hget).2, getD_some]
  | none =>
    obtain rfl : blockIndex = some i := hindex.resolve_right (by simp [hget])
    exact ⟨_, ⟨hown, rfl, rfl, rfl, hkind⟩, rfl,
      Mapper.emitBlock_of_lookup_eq_none h.filed hget hitem hkey i (h.free hown hget) state compl⟩

/-- A block that fits is filed under its key. -/
theorem Mapper.Filed.put {b : BlockState J} (h : m.Filed) (hb : Fits messages m key i b) :
    (m.put key b).Filed := by
  intro key' b' hget
  simp only [Mapper.put, lookup_insert_eq] at hget ⊢
  by_cases hkey : key' = key
  · subst hkey
    rw [if_pos rfl] at hget
    cases hget
    exact ⟨hb.blockId, if_pos rfl⟩
  · rw [if_neg hkey] at hget
    refine ⟨(h key' b' hget).1, ?_⟩
    by_cases hid : key'.messageId = key.messageId
    · rw [if_pos hid, ← hb.pass, ← hid, (h key' b' hget).2, getD_some]
    · rw [if_neg hid]
      exact (h key' b' hget).2

/-- A block that fits is put, of those that were started or one more. -/
theorem Placed.put {b : BlockState J} {started' : String → ℕ} (h : Placed messages started m)
    (hb : Fits messages m key i b) (hle : ∀ id, started id ≤ started' id)
    (hi : i < started' key.messageId) : Placed messages started' (m.put key b) := by
  refine ⟨h.filed.put hb, ?_, fun key' b' hget => ?_⟩
  · simp only [Mapper.put, ← hb.pass]
    exact h.numbered.insert _
  simp only [Mapper.put, lookup_insert_eq] at hget
  by_cases hkey : key' = key
  · subst hkey
    rw [if_pos rfl] at hget
    cases hget
    exact ⟨hb.kind, i, hi, hb.own, hb.ordinal⟩
  · rw [if_neg hkey] at hget
    obtain ⟨hkind, j, hj, hown⟩ := h.own key' b' hget
    exact ⟨hkind, j, hj.trans_le (hle _), hown⟩

variable (h : Mapped messages started streamed finalised m)
include h

/-- **A text that is shown anew.** -/
theorem Mapped.put_text {streamed' : String → ℕ → String} (hi : i < started id)
    (hsh : shownAt messages id i = some shown)
    (hb : Fits messages m ⟨id, contentId i, shown.1⟩ i b) (hne : text ≠ "")
    (hpay : b.payload = plainPayload shown.1 text)
    (hnew : shownText messages streamed' finalised' id i = text)
    (hsame : ∀ id' j, ¬(id' = id ∧ j = i) →
      shownText messages streamed' finalised' id' j = shownText messages streamed finalised id' j)
    (hfinal : ∀ id' j, ¬(id' = id ∧ j = i) → j < finalised' id' → j < finalised id') :
    Mapped messages started streamed' finalised' (m.put ⟨id, contentId i, shown.1⟩ b) where
  __ := h
  toPlaced := h.toPlaced.put hb (fun _ => le_rfl) hi
  texts id' j kind' text' hj hsh' := by
    simp only [Mapper.put, lookup_insert_eq]
    by_cases hsubj : id' = id ∧ j = i
    · obtain ⟨rfl, rfl⟩ := hsubj
      cases hsh.symm.trans hsh'
      rw [if_pos rfl, map_some, hpay, hnew, if_neg hne]
    · have hkey : (⟨id', contentId j, kind'⟩ : BlockKey) ≠ ⟨id, contentId i, shown.1⟩ := by
        intro heq
        simp only [mk.injEq] at heq
        exact hsubj ⟨heq.1, contentId_injective heq.2.1⟩
      rw [if_neg hkey, h.texts id' j kind' text' hj hsh', hsame id' j hsubj]
  calls id' j callId name input hj hcont := by
    obtain ⟨hidx, hkey, ⟨c, name', input', output, hc, hcpayload, hcfinal⟩, tool, htool,
      htoolfinal⟩ := h.calls id' j callId name input hj hcont
    have hne' : ¬(id' = id ∧ j = i) := by
      rintro ⟨rfl, rfl⟩
      simp [shownAt, hcont, ContentBlock.shownText] at hsh
    have hkey' : (⟨id', callId, .tool⟩ : BlockKey) ≠ ⟨id, contentId i, shown.1⟩ := by
      intro heq
      simp only [mk.injEq] at heq
      exact shownAt_kind hsh heq.2.2.symm
    refine ⟨hidx, ?_, ⟨c, name', input', output, ?_, hcpayload, fun hf =>
      hcfinal (hfinal id' j hne' hf)⟩, tool, htool, fun hf => htoolfinal (hfinal id' j hne' hf)⟩
    · simp only [Mapper.put, hpay, plainPayload_callId]
      exact hkey
    · simp only [Mapper.put, lookup_insert_eq, if_neg hkey']
      exact hc

/-- **A call that is shown anew.** The session knows its new name and input
already. -/
theorem Mapped.put_call {name' : String} {input' output : Option J} (hi : i < started id)
    (hcont : (messages.content id)[i]? = some (.toolUse callId name input))
    (hb : Fits messages m ⟨id, callId, .tool⟩ i b)
    (hpay : b.payload = .tool callId name' input' output)
    (hsaid : i < finalised' id → name' = name ∧ input' = some input)
    (htool : i < finalised' id → ∀ tool, m.tools.lookup callId = some tool →
      tool.name = name ∧ tool.input = some input)
    (hfinal : ∀ id' j, ¬(id' = id ∧ j = i) → (j < finalised' id' ↔ j < finalised id')) :
    Mapped messages started streamed finalised' (m.put ⟨id, callId, .tool⟩ b) where
  __ := h
  toPlaced := h.toPlaced.put hb (fun _ => le_rfl) hi
  texts id' j kind' text' hj hsh' := by
    have hne : ¬(id' = id ∧ j = i) := by
      rintro ⟨rfl, rfl⟩
      simp [shownAt, hcont, ContentBlock.shownText] at hsh'
    have hkey : (⟨id', contentId j, kind'⟩ : BlockKey) ≠ ⟨id, callId, .tool⟩ := by
      intro heq
      simp only [mk.injEq] at heq
      exact shownAt_kind hsh' heq.2.2
    have hshow : shownText messages streamed finalised' id' j =
        shownText messages streamed finalised id' j := by
      simp only [shownText, hfinal id' j hne]
    simp only [Mapper.put, lookup_insert_eq]
    rw [if_neg hkey, h.texts id' j kind' text' hj hsh', hshow]
  calls id' j callId' name₁ input₁ hj hcont' := by
    obtain ⟨hidx, hkey, ⟨c, name₂, input₂, output₂, hc, hcpayload, hcfinal⟩, tool, hget,
      htoolfinal⟩ := h.calls id' j callId' name₁ input₁ hj hcont'
    have hcall : b.payload.callId = some callId := by rw [hpay]; rfl
    by_cases hsubj : id' = id ∧ j = i
    · obtain ⟨rfl, rfl⟩ := hsubj
      obtain ⟨rfl, rfl, rfl⟩ : callId = callId' ∧ name = name₁ ∧ input = input₁ := by
        simpa using hcont.symm.trans hcont'
      refine ⟨hidx, ?_, ⟨b, name', input', output, ?_, hpay, hsaid⟩, tool, hget,
        fun hf => htool hf tool hget⟩
      · simp only [Mapper.put, hcall, lookup_insert_eq, if_true]
      · simp only [Mapper.put, lookup_insert_eq, if_true]
    · have hne : callId' ≠ callId := by
        rintro rfl
        exact hsubj (messages.calls _ _ _ _ _ _ _ _ _ hcont' hcont)
      have hne' : (⟨id', callId', .tool⟩ : BlockKey) ≠ ⟨id, callId, .tool⟩ := by simp [hne]
      refine ⟨hidx, ?_, ⟨c, name₂, input₂, output₂, ?_, hcpayload, fun hf =>
        hcfinal ((hfinal id' j hsubj).1 hf)⟩, tool, hget, fun hf =>
          htoolfinal ((hfinal id' j hsubj).1 hf)⟩
      · simp only [Mapper.put, hcall, lookup_insert_eq, if_neg hne]
        exact hkey
      · simp only [Mapper.put, lookup_insert_eq, if_neg hne']
        exact hc

/-- **What is known of a call changes**, but for what was finalised of it. -/
theorem Mapped.setTool (tool : ToolState J)
    (hi : i < started id) (hcont : (messages.content id)[i]? = some (.toolUse callId name input))
    (htool : i < finalised id → tool.name = name ∧ tool.input = some input) :
    Mapped messages started streamed finalised { m with tools := m.tools.insert callId tool } where
  __ := h
  toPlaced := { h with }
  calls id' j callId' name' input' hj hcont' := by
    obtain ⟨hidx, hkey, hblk, tool', hget, hfinal⟩ :=
      h.calls id' j callId' name' input' hj hcont'
    refine ⟨hidx, hkey, hblk, ?_⟩
    simp only [lookup_insert_eq]
    by_cases hcall : callId' = callId
    · subst hcall
      obtain ⟨rfl, rfl⟩ := messages.calls _ _ _ _ _ _ _ _ _ hcont' hcont
      obtain ⟨rfl, rfl⟩ : name = name' ∧ input = input' := by
        simpa using hcont.symm.trans hcont'
      exact ⟨tool, if_pos rfl, htool⟩
    · exact ⟨tool', by rw [if_neg hcall]; exact hget, hfinal⟩
  known callId' tool' hget := by
    simp only [lookup_insert_eq] at hget
    by_cases hcall : callId' = callId
    · subst hcall
      exact ⟨id, i, name, input, hi, hcont⟩
    · rw [if_neg hcall] at hget
      exact h.known callId' tool' hget

omit h

/-! ## The streamed blocks of a message -/

theorem refsOf_succ (id : String) (n : ℕ) : refsOf messages id (n + 1) = refsOf messages id n ++
      ((shownAt messages id n).map fun shown => ⟨shown.1, contentId n, n⟩).toList := by
  rw [refsOf, range_succ, filterMap_append]
  congr 1

theorem mem_refsOf : ref ∈ refsOf messages id n ↔
    ∃ i < n, ∃ shown, shownAt messages id i = some shown ∧ ref = ⟨shown.1, contentId i, i⟩ := by
  simp only [refsOf, mem_filterMap, mem_range, map_eq_some_iff]
  constructor
  all_goals
    rintro ⟨i, hi, shown, hsh, rfl⟩
    exact ⟨i, hi, shown, hsh, rfl⟩

/-- A streamed block is found by its index. -/
theorem find?_refsOf : (refsOf messages id n).find? (·.blockIndex = i) =
    if i < n then (shownAt messages id i).map fun shown => ⟨shown.1, contentId i, i⟩ else none := by
  have hunique : ∀ ref ∈ refsOf messages id n, ref.blockIndex = i →
      i < n ∧ (shownAt messages id i).map (fun shown => ⟨shown.1, contentId i, i⟩) = some ref := by
    intro ref href hindex
    obtain ⟨j, hj, shown, hsh, rfl⟩ := mem_refsOf.1 href
    subst hindex
    exact ⟨hj, by simp only [hsh, map_some]⟩
  cases hfind : (refsOf messages id n).find? (·.blockIndex = i) with
  | some ref =>
    obtain ⟨hi, hmap⟩ := hunique ref (mem_of_find?_eq_some hfind) (by simpa using find?_some hfind)
    rw [if_pos hi, hmap]
  | none =>
    by_cases hi : i < n
    · rw [if_pos hi]
      cases hsh : shownAt messages id i with
      | none => rfl
      | some shown =>
        have hmem := mem_refsOf.2 ⟨i, hi, shown, hsh, rfl⟩
        simpa using find?_eq_none.1 hfind _ hmem
    · rw [if_neg hi]

theorem pairwise_refsOf (id : String) (n : ℕ) :
    (refsOf messages id n).Pairwise (·.blockIndex ≤ ·.blockIndex) := by
  refine pairwise_filterMap.2 (pairwise_lt_range.imp ?_)
  rintro i j hij ref href ref' href'
  obtain ⟨-, -, rfl⟩ := map_eq_some_iff.1 href
  obtain ⟨-, -, rfl⟩ := map_eq_some_iff.1 href'
  exact hij.le

/-! ## Streaming -/

variable {support : Support J} {shown : BlockKind × String}

/-- What is shown of a text that is not finalised. -/
theorem shownText_of_le (h : finalised id ≤ i) :
    shownText messages streamed finalised id i = streamed id i := by
  simp only [shownText]
  rw [if_neg fun hlt => absurd hlt.1 (Nat.not_lt.2 h)]

/-- **A text is started**, with nothing of it yet. -/
theorem Mapped.startText (h : Mapped messages started streamed finalised m)
    (streamed' : String → ℕ → String)
    (hsh : shownAt messages id (started id) = some shown) (hle : finalised id ≤ started id)
    (hnil : streamed' id (started id) = "")
    (hsame : ∀ id' j, ¬(id' = id ∧ j = started id) → streamed' id' j = streamed id' j) :
    Mapped messages (update started id (started id + 1)) streamed' finalised
      { m with assistantBlocksByMessage :=
          m.assistantBlocksByMessage.insert id (refsOf messages id (started id + 1)) } where
  __ := h
  own key b hb := by
    obtain ⟨hkind, i, hi, hown⟩ := h.own key b hb
    refine ⟨hkind, i, ?_, hown⟩
    rw [update_apply]
    split
    · rename_i hid
      rw [hid] at hi
      exact Nat.lt_succ_of_lt hi
    · exact hi
  refs id' := by
    simp only [lookup_insert_eq, update_apply]
    by_cases hid : id' = id
    · subst hid
      rw [if_pos rfl, if_pos rfl, getD_some]
    · rw [if_neg hid, if_neg hid]
      exact h.refs id'
  texts id' j kind' text' hj hsh' := by
    by_cases hnew : id' = id ∧ j = started id
    · obtain ⟨rfl, rfl⟩ := hnew
      rw [shownText_of_le hle, hnil, if_pos rfl, map_eq_none_iff]
      by_contra hsome
      obtain ⟨b, hb⟩ := ne_none_iff_exists'.1 hsome
      obtain ⟨-, i, hi, hown, -⟩ := h.own _ b hb
      obtain rfl := hown.eq (own_of_shownAt hsh')
      exact lt_irrefl _ hi
    · have hj' : j < started id' := by
        rw [update_apply] at hj
        split at hj
        · rename_i hid
          subst hid
          have : j ≠ started id' := fun heq => hnew ⟨rfl, heq⟩
          omega
        · exact hj
      have hshow : shownText messages streamed' finalised id' j =
          shownText messages streamed finalised id' j := by
        simp only [shownText, hsame id' j hnew]
      rw [hshow]
      exact h.texts id' j kind' text' hj' hsh'
  calls id' j callId name input hj hcont := by
    refine h.calls id' j callId name input ?_ hcont
    rw [update_apply] at hj
    split at hj
    · rename_i hid
      subst hid
      have : j ≠ started id' := by
        rintro rfl
        simp [shownAt, hcont, ContentBlock.shownText] at hsh
      omega
    · exact hj
  indexed id' j callId hget := by
    obtain ⟨hj, hcont⟩ := h.indexed id' j callId hget
    refine ⟨?_, hcont⟩
    rw [update_apply]
    split
    · rename_i hid
      rw [hid] at hj
      exact Nat.lt_succ_of_lt hj
    · exact hj
  known callId tool hget := by
    obtain ⟨id', j, name, input, hj, hcont⟩ := h.known callId tool hget
    refine ⟨id', j, name, input, ?_, hcont⟩
    rw [update_apply]
    split
    · rename_i hid
      rw [hid] at hj
      exact Nat.lt_succ_of_lt hj
    · exact hj

theorem textPayload_of_fit (hfit : support.fit kind text = some (text, false)) :
    Mapper.textPayload support kind text = some (plainPayload kind text) := by
  rw [Mapper.textPayload, hfit]
  cases kind <;> rfl

include h

variable (hid : m.messageId = id)
include hid

/-- What is held of a text is what it shows. -/
theorem Mapped.findBlock (hi : i < started id) (hsh : shownAt messages id i = some shown) :
    (m.findBlock (some (contentId i)) shown.1).map (·.payload) =
      if shownText messages streamed finalised id i = "" then none
      else some (plainPayload shown.1 (shownText messages streamed finalised id i)) := by
  rw [Mapper.findBlock, Mapper.blockKey, hid]
  exact h.texts id i shown.1 shown.2 hi hsh

/-- **A part of a text is emitted.** -/
theorem Mapped.emitDelta
    (hi : i < started id) (hsh : shownAt messages id i = some shown) (hle : finalised id ≤ i)
    (hne : text ≠ "")
    (hfit : support.fit shown.1 (streamed id i ++ text) = some (streamed id i ++ text, false))
    (heq : m.emitText support shown.1 (some (contentId i)) (some i) text false = some m') :
    Mapped messages started
      (fun id' j => if id' = id ∧ j = i then streamed id i ++ text else streamed id' j)
      finalised m' := by
  have hkind := shownAt_kind hsh
  have hfnd := h.findBlock hid hi hsh
  rw [shownText_of_le hle] at hfnd
  have hkey : m.blockKey (some (contentId i)) shown.1 = ⟨id, contentId i, shown.1⟩ := by
    rw [Mapper.blockKey, hid]
    rfl
  have hprev : (((m.findBlock (some (contentId i)) shown.1).map (·.payload)).map (·.text)).getD
      "" = streamed id i := by
    rw [hfnd]
    split
    · rename_i hnil
      exact hnil.symm
    · simp
  obtain ⟨b, hb, hpay, hemit⟩ := h.toPlaced.emitBlock ⟨id, contentId i, shown.1⟩ hid
    (own_of_shownAt hsh) _ (plainPayload_kind hkind) (by simp) _ (.inl rfl) .streaming false
  have hm' : m.put ⟨id, contentId i, shown.1⟩ b = m' := by
    rw [Mapper.emitText, if_neg Bool.false_ne_true] at heq
    split at heq
    · -- nothing that was cut is held
      rename_i cut hcut
      rw [hfnd] at hcut
      split at hcut
      · cases hcut
      · cases hkind' : shown.1 <;> simp [hkind', plainPayload] at hcut
    · rw [hprev, textPayload_of_fit hfit, map_some, hkey] at heq
      rw [← hemit]
      exact Option.some.inj heq
  rw [← hm']
  have hnotempty : streamed id i ++ text ≠ "" := by
    intro hnil
    exact hne (String.append_eq_empty_iff.1 hnil).2
  refine h.put_text hi hsh hb hnotempty hpay ?_ (fun id' j hne' => ?_) fun _ _ _ hf => hf
  · rw [shownText_of_le hle, if_pos ⟨rfl, rfl⟩]
  · simp only [shownText, if_neg hne']

/-- A part of a text is streamed, of a block that was started. -/
theorem Mapped.streamText (hi : i < started id) (hsh : shownAt messages id i = some shown)
    (hfit : text = "" ∨ finalised id ≤ i ∧
      support.fit shown.1 (streamed id i ++ text) = some (streamed id i ++ text, false))
    (heq : m.streamText support shown.1 i text = some m') :
    Mapped messages started
      (fun id' j => if id' = id ∧ j = i then streamed id i ++ text else streamed id' j)
      finalised m' := by
  have hfind : ((m.assistantBlocksByMessage.lookup m.messageId).getD []).find?
      (·.blockIndex = i) = some ⟨shown.1, contentId i, i⟩ := by
    rw [hid, h.refs, find?_refsOf, if_pos hi, hsh, map_some]
  simp only [Mapper.streamText, Mapper.streamedAssistantBlock, hfind] at heq
  split at heq
  · rename_i hnil
    cases heq
    have hsame : (fun id' j => if id' = id ∧ j = i then streamed id i ++ text
        else streamed id' j) = streamed := by
      funext id' j
      split
      · rename_i hsubj
        rw [hnil, String.append_empty, hsubj.1, hsubj.2]
      · rfl
    rw [hsame]
    exact h
  · rename_i hne
    obtain ⟨hle, hwh⟩ := hfit.resolve_left hne
    exact h.emitDelta hid hi hsh hle hne hwh heq

/-- **A block of a text starts.** -/
theorem Mapped.streamStart (hsh : shownAt messages id (started id) = some shown)
    (hle : finalised id ≤ started id)
    (hfit : text = "" ∨ support.fit shown.1 text = some (text, false))
    (heq : m.streamText support shown.1 (started id) text = some m') :
    Mapped messages (update started id (started id + 1))
      (fun id' j => if id' = id ∧ j = started id then text else streamed id' j) finalised m' := by
  have hfind : ((m.assistantBlocksByMessage.lookup m.messageId).getD []).find?
      (·.blockIndex = started id) = none := by
    rw [hid, h.refs, find?_refsOf, if_neg (lt_irrefl _)]
  have hsort : ((m.assistantBlocksByMessage.lookup m.messageId).getD [] ++
      [(⟨shown.1, contentId (started id), started id⟩ : AssistantBlockRef)]).insertionSort
        (fun left right => left.blockIndex ≤ right.blockIndex) =
      refsOf messages id (started id + 1) := by
    have hrefs : (m.assistantBlocksByMessage.lookup m.messageId).getD [] ++
        [(⟨shown.1, contentId (started id), started id⟩ : AssistantBlockRef)] =
        refsOf messages id (started id + 1) := by
      rw [hid, h.refs, refsOf_succ, hsh]
      rfl
    rw [hrefs]
    exact (pairwise_refsOf id _).insertionSort_eq
  -- the block is noted first, and then its text is emitted
  have hstarted := h.startText (fun id' j =>
    if id' = id ∧ j = started id then "" else streamed id' j) hsh hle (if_pos ⟨rfl, rfl⟩)
    fun id' j hne => if_neg hne
  simp only [Mapper.streamText, Mapper.streamedAssistantBlock, hfind, hsort, hid] at heq
  have hi : started id < update started id (started id + 1) id := by
    rw [update_self]
    exact Nat.lt_succ_self _
  split at heq
  · rename_i hnil
    cases heq
    rw [hnil]
    exact hstarted
  · rename_i hne
    have hfit' : support.fit shown.1 ((if id = id ∧ started id = started id then ""
        else streamed id (started id)) ++ text) =
          some ((if id = id ∧ started id = started id then ""
            else streamed id (started id)) ++ text, false) := by
      simpa using hfit.resolve_left hne
    have hemitted := hstarted.emitDelta hid hi hsh hle hne hfit' heq
    have hsame : (fun id' j => if id' = id ∧ j = started id then
        (if id = id ∧ started id = started id then "" else streamed id (started id)) ++ text
        else if id' = id ∧ j = started id then "" else streamed id' j) =
        fun id' j => if id' = id ∧ j = started id then text else streamed id' j := by
      funext id' j
      split <;> simp
    rw [hsame] at hemitted
    exact hemitted

/-- **A block is stopped.** A text goes on to show what it shows; a call has
no block among the texts. -/
theorem Mapped.completeBlock (hi : i < started id) : Mapped messages started streamed finalised
      (m.completeBlock ((m.assistantBlockAt m.messageId i).map (·.itemId))) := by
  have hat : m.assistantBlockAt m.messageId i =
      (shownAt messages id i).map fun shown => ⟨shown.1, contentId i, i⟩ := by
    rw [Mapper.assistantBlockAt, hid, h.refs, find?_refsOf, if_pos hi]
  -- a block under the key of a text is the text's
  have hown : ∀ kind itemId b, m.findBlock itemId kind = some b → kind ≠ .tool →
      ∃ j shown, shownAt messages id j = some shown ∧ itemId.getD kind.text = contentId j ∧
        shown.1 = kind := by
    intro kind itemId b hb hkind
    rw [Mapper.findBlock, Mapper.blockKey, hid] at hb
    obtain ⟨-, j, -, ⟨block, hblk, hkey⟩, -⟩ := h.own _ b hb
    cases block with
    | text shown =>
      simp only [ContentBlock.key, mk.injEq, true_and] at hkey
      exact ⟨j, (.finalMessage, shown), by rw [shownAt, hblk]; rfl, hkey.1, hkey.2.symm⟩
    | thinking shown =>
      simp only [ContentBlock.key, mk.injEq, true_and] at hkey
      exact ⟨j, (.reasoningSummary, shown), by rw [shownAt, hblk]; rfl, hkey.1, hkey.2.symm⟩
    | toolUse callId name input =>
      simp only [ContentBlock.key, mk.injEq, true_and] at hkey
      exact absurd hkey.2 hkind
  rw [hat]
  unfold Mapper.completeBlock
  split
  · exact h
  · rename_i previous hprev
    obtain ⟨kind, hkind, hb⟩ : ∃ kind, kind ≠ .tool ∧ m.findBlock
        (((shownAt messages id i).map fun shown => (⟨shown.1, contentId i, i⟩ :
          AssistantBlockRef)).map (·.itemId)) kind = some previous := by
      rcases or_eq_some_iff.1 hprev with hb | ⟨-, hb⟩
      all_goals exact ⟨_, by simp, hb⟩
    obtain ⟨j, shown', hsh', hitem, hkind'⟩ := hown kind _ previous hb hkind
    cases hsh : shownAt messages id i with
    | none =>
      rw [hsh] at hitem
      exact absurd hitem.symm contentId_ne
    | some shown =>
      rw [hsh] at hitem hb
      obtain rfl : i = j := contentId_injective hitem
      obtain rfl := Option.some.inj (hsh.symm.trans hsh')
      subst hkind'
      have hfnd := h.findBlock hid hi hsh
      have hget : m.blocks.lookup ⟨id, contentId i, shown.1⟩ = some previous := by
        rw [← hb, Mapper.findBlock, Mapper.blockKey, hid]
        rfl
      simp only [map_some] at hb ⊢
      rw [hb, map_some] at hfnd
      split at hfnd
      · cases hfnd
      · rename_i hne
        have hpay := Option.some.inj hfnd
        obtain ⟨-, k, -, hownk, hord⟩ := h.own _ previous hget
        have hplc := (h.filed _ previous hget).1
        have hkey : m.blockKey ((previous.payload.callId).or (some (contentId i)))
            previous.payload.kind = previous.place.blockId := by
          rw [hplc, hpay, plainPayload_callId, plainPayload_kind hkind, Mapper.blockKey, hid]
          rfl
        rw [Mapper.commitBlockEvent_eq_put (b := { previous with
          state := .completed, revision := previous.revision + 1 }) h.filed hkey]
        simp only [hplc]
        refine h.put_text hi hsh ⟨own_of_shownAt hsh, hplc,
          hord.trans (hownk.eq (own_of_shownAt hsh)), ?_, ?_⟩ hne hpay rfl
          (fun _ _ _ => rfl) fun _ _ _ hf => hf
        · rw [(h.filed _ previous hget).2, getD_some]
        · rw [hpay]
          exact plainPayload_kind hkind

omit hid h

/-! ## Calls -/

variable {callId name : String} {input : J}

theorem lt_update_of_lt (h : j < started id') : j < update started id (started id + 1) id' := by
  rw [update_apply]
  split
  · rename_i hid
    rw [hid] at h
    exact Nat.lt_succ_of_lt h
  · exact h

theorem lt_of_lt_update (h : j < update started id (started id + 1) id')
    (hne : ¬(id' = id ∧ j = started id)) : j < started id' := by
  rw [update_apply] at h
  split at h
  · rename_i hid
    subst hid
    have : j ≠ started id' := fun heq => hne ⟨rfl, heq⟩
    omega
  · exact h

/-- Of what was finalised only the block itself is new. -/
theorem lt_update_iff (hfinal : finalised id = i) (hne : ¬(id' = id ∧ j = i)) :
    j < update finalised id (i + 1) id' ↔ j < finalised id' := by
  rw [update_apply]
  split
  · rename_i hsame
    subst hsame
    have : j ≠ i := fun heq => hne ⟨rfl, heq⟩
    omega
  · exact Iff.rfl

/-- A call is noted under its index. -/
def noteCall (m : Mapper J) (id : String) (i : ℕ) (callId name : String) (input : Option J) :
    Mapper J :=
  { m with
    tools := m.tools.insert callId ⟨name, input, none⟩
    toolByMessageBlock := m.toolByMessageBlock.insert (id, i) callId }

include h

/-- **A call starts.** -/
theorem Mapped.startCall (input' : Option J) (hid : m.currentMessageId = some id)
    (hcont : (messages.content id)[started id]? = some (.toolUse callId name input))
    (hle : finalised id ≤ started id) :
    Mapped messages (update started id (started id + 1)) streamed finalised
      ((noteCall m id (started id) callId name input').emitToolStarted callId name input'
        (started id)) := by
  have hmsg : m.messageId = id := by rw [Mapper.messageId, hid]; rfl
  have hnotext : shownAt messages id (started id) = none := by
    rw [shownAt, hcont]
    rfl
  have hpl : Placed messages started (noteCall m id (started id) callId name input') :=
    { h with }
  obtain ⟨b, hb, hpay, hemit⟩ := hpl.emitBlock ⟨id, callId, .tool⟩ hmsg
    (own_of_toolUse hcont) (.tool callId name input' none) rfl
    (fun _ hcall => (Option.some.inj hcall).symm) _ (.inl rfl) .running false
  have hkey : (noteCall m id (started id) callId name input').blockKey (some callId) .tool =
      ⟨id, callId, .tool⟩ := by
    rw [Mapper.blockKey, show (noteCall m id (started id) callId name input').messageId = id from
      hmsg]
    rfl
  have heq : (noteCall m id (started id) callId name input').emitToolStarted callId name input'
      (started id) = (noteCall m id (started id) callId name input').put ⟨id, callId, .tool⟩ b := by
    rw [Mapper.emitToolStarted, hkey]
    exact hemit
  have hcall : b.payload.callId = some callId := by rw [hpay]; rfl
  rw [heq]
  refine ⟨hpl.put hb (fun id' => ?_) ?_, fun id' => ?_, fun id' j kind' text' hj hsh' => ?_,
    fun id' j callId' name₁ input₁ hj hcont' => ?_, fun id' j callId' hget => ?_,
    fun callId' tool hget => ?_⟩
  · rw [update_apply]
    split
    · rename_i hsame
      rw [hsame]
      exact Nat.le_succ _
    · exact le_rfl
  · rw [update_self]
    exact Nat.lt_succ_self _
  · rw [update_apply]
    split
    · rename_i hsame
      subst hsame
      rw [refsOf_succ, hnotext, map_none, toList_none, append_nil]
      exact h.refs id'
    · exact h.refs id'
  · have hne : ¬(id' = id ∧ j = started id) := by
      rintro ⟨rfl, rfl⟩
      rw [hnotext] at hsh'
      cases hsh'
    have hkey' : (⟨id', contentId j, kind'⟩ : BlockKey) ≠ ⟨id, callId, .tool⟩ := by
      intro heq
      simp only [mk.injEq] at heq
      exact shownAt_kind hsh' heq.2.2
    simp only [noteCall, Mapper.put, lookup_insert_eq]
    rw [if_neg hkey']
    exact h.texts id' j kind' text' (lt_of_lt_update hj hne) hsh'
  · by_cases hsubj : id' = id ∧ j = started id
    · obtain ⟨rfl, rfl⟩ := hsubj
      obtain ⟨rfl, rfl, rfl⟩ : callId = callId' ∧ name = name₁ ∧ input = input₁ := by
        simpa using hcont.symm.trans hcont'
      simp only [noteCall, Mapper.put, hcall, lookup_insert_eq, if_true]
      exact ⟨trivial, trivial, ⟨b, name, input', none, rfl, hpay, fun hf =>
        absurd hf (Nat.not_lt.2 hle)⟩, _, rfl, fun hf => absurd hf (Nat.not_lt.2 hle)⟩
    · obtain ⟨hidx, hkey', ⟨c, name₂, input₂, output₂, hc, hcpayload, hcfinal⟩, tool, hget,
        htoolfinal⟩ := h.calls id' j callId' name₁ input₁ (lt_of_lt_update hj hsubj) hcont'
      have hne : callId' ≠ callId := by
        rintro rfl
        exact hsubj (messages.calls _ _ _ _ _ _ _ _ _ hcont' hcont)
      have hne' : (⟨id', callId', .tool⟩ : BlockKey) ≠ ⟨id, callId, .tool⟩ := by simp [hne]
      have hindex : (id', j) ≠ (id, started id) := by simpa using hsubj
      simp only [noteCall, Mapper.put, hcall, lookup_insert_eq, if_neg hne, if_neg hne',
        if_neg hindex]
      exact ⟨hidx, hkey', ⟨c, name₂, input₂, output₂, hc, hcpayload, hcfinal⟩, tool, hget,
        htoolfinal⟩
  · simp only [noteCall, Mapper.put, lookup_insert_eq] at hget
    split at hget
    · rename_i hindex
      cases hindex
      cases hget
      refine ⟨?_, name, input, hcont⟩
      rw [update_self]
      exact Nat.lt_succ_self _
    · obtain ⟨hj, hcont'⟩ := h.indexed id' j callId' hget
      exact ⟨lt_update_of_lt hj, hcont'⟩
  · simp only [noteCall, Mapper.put, lookup_insert_eq] at hget
    split at hget
    · rename_i hsame
      subst hsame
      refine ⟨id, started id, name, input, ?_, hcont⟩
      rw [update_self]
      exact Nat.lt_succ_self _
    · obtain ⟨id', j, name', input₁, hj, hcont'⟩ := h.known callId' tool hget
      exact ⟨id', j, name', input₁, lt_update_of_lt hj, hcont'⟩

/-- **A call is updated** in its own block, and what is not said of it stays. -/
theorem Mapped.emitToolUpdated (hid : m.messageId = id) (hi : i < started id)
    (hcont : (messages.content id)[i]? = some (.toolUse callId name input))
    (name' : Option String) (input' output' : Option J) (blockIndex : Option ℕ)
    (state : TurnBlockState) (compl : Bool) :
    ∃ b name₀ input₀ output₀, Fits messages m ⟨id, callId, .tool⟩ i b ∧
      b.payload = .tool callId (name'.getD name₀) (input'.or input₀) output₀ ∧
      (i < finalised id → name₀ = name ∧ input₀ = some input) ∧
      m.emitToolUpdated callId name' input' output' blockIndex state compl =
        m.put ⟨id, callId, .tool⟩ b := by
  obtain ⟨-, hkey, ⟨c, name₀, input₀, output₀, hc, hcpayload, hcfinal⟩, -⟩ :=
    h.calls id i callId name input hi hcont
  obtain ⟨b, hb, hpay, hemit⟩ := h.toPlaced.emitBlock ⟨id, callId, .tool⟩ hid (own_of_toolUse hcont)
    (.tool callId (name'.getD name₀) (input'.or input₀) (output'.or output₀)) rfl
    (fun _ hcall => (Option.some.inj hcall).symm) blockIndex (.inr (by rw [hc]; rfl)) state
    compl
  refine ⟨b, name₀, input₀, _, hb, hpay, hcfinal, ?_⟩
  have hheld : (m.blocks.lookup ((m.toolBlockKey.lookup callId).getD
      (m.blockKey (some callId) .tool))).map (·.payload) =
      some (.tool callId name₀ input₀ output₀) := by
    rw [hkey, getD_some, hc, map_some, hcpayload]
  dsimp only [Mapper.emitToolUpdated]
  rw [hheld, hkey]
  exact hemit

omit h

/-- What was streamed of a call's input says nothing that the call does not
have. -/
def Settled (support : Support J) (m : Mapper J) (callId : String) : Prop :=
  ∀ tool ∈ m.tools.lookup callId, ∀ json ∈ tool.partialInputJson, ∀ input ∈ support.parse json,
    tool.input.map support.hashJson = some (support.hashJson input)

instance (support : Support J) (m : Mapper J) (callId : String) :
    Decidable (Settled support m callId) :=
  inferInstanceAs (Decidable (∀ tool ∈ m.tools.lookup callId, ∀ json ∈ tool.partialInputJson,
    ∀ input ∈ support.parse json, tool.input.map support.hashJson = some (support.hashJson input)))

/-- **A call's streamed input is taken**, while the call is not finalised. -/
theorem Mapped.finalizeToolInput {requireComplete : Bool}
    (h : Mapped messages started streamed finalised m) (hid : m.messageId = id)
    (hi : i < started id)
    (hcont : (messages.content id)[i]? = some (.toolUse callId name input))
    (hsettled : finalised id ≤ i ∨ Settled support m callId) :
    Mapped messages started streamed finalised
      (m.finalizeToolInput support callId i requireComplete) := by
  obtain ⟨-, -, -, tool, htool, hfinal⟩ := h.calls id i callId name input hi hcont
  simp only [Mapper.finalizeToolInput, htool]
  split
  · exact h
  · rename_i json hjson
    split
    · split
      · exact h.setTool { tool with partialInputJson := none } hi hcont fun hf => hfinal hf
      · exact h
    · rename_i parsed hparsed
      split
      · exact h
      · rename_i hchanged
        have hle : finalised id ≤ i := hsettled.resolve_right fun hset =>
          hchanged (hset tool htool json hjson parsed hparsed)
        have hnot : ¬i < finalised id := Nat.not_lt.2 hle
        have hset := h.setTool ⟨tool.name, some parsed, none⟩ hi hcont fun hf => absurd hf hnot
        obtain ⟨b, name₀, input₀, output₀, hb, hpay, -, hemit⟩ :=
          hset.emitToolUpdated hid hi hcont (some tool.name) (some parsed) none (some i) .running
            false
        rw [hemit]
        exact hset.put_call hi hcont hb hpay (fun hf => absurd hf hnot)
          (fun hf => absurd hf hnot) fun _ _ _ => Iff.rfl

/-- A part of a call's input that comes with what was streamed of it says
nothing that the call does not have. -/
def SettledBy (support : Support J) (m : Mapper J) (callId json : String) : Prop :=
  ∀ tool ∈ m.tools.lookup callId, ∀ input ∈ support.parse (tool.partialInputJson.getD "" ++ json),
    tool.input.map support.hashJson = some (support.hashJson input)

instance (support : Support J) (m : Mapper J) (callId json : String) :
    Decidable (SettledBy support m callId json) :=
  inferInstanceAs (Decidable (∀ tool ∈ m.tools.lookup callId,
    ∀ input ∈ support.parse (tool.partialInputJson.getD "" ++ json),
      tool.input.map support.hashJson = some (support.hashJson input)))

include h

/-- **A part of a call's input is streamed.** -/
theorem Mapped.inputJsonDelta {json : String} (hid : m.messageId = id)
    (hsettled : json = "" ∨ finalised id ≤ i ∨
      ∀ callId ∈ m.toolByMessageBlock.lookup (id, i), SettledBy support m callId json) :
    Mapped messages started streamed finalised (m.inputJsonDelta support i json) := by
  unfold Mapper.inputJsonDelta
  split
  · exact h
  · rename_i callId hidx
    rw [hid] at hidx
    obtain ⟨hi, name, input, hcont⟩ := h.indexed id i callId hidx
    split
    · exact h
    · rename_i tool htool
      split
      · exact h
      · rename_i hne
        obtain ⟨-, -, -, tool', htool', hfinal⟩ := h.calls id i callId name input hi hcont
        cases htool.symm.trans htool'
        refine (h.setTool { tool with
            partialInputJson := some (tool.partialInputJson.getD "" ++ json) } hi hcont
          hfinal).finalizeToolInput hid hi hcont ?_
        refine (hsettled.resolve_left hne).imp_right fun hset => ?_
        -- the call is as it was but for what was streamed of its input
        intro grown hgrown json' hjson parsed hparsed
        simp only [lookup_insert_eq, if_true, mem_some_iff] at hgrown
        subst hgrown
        cases hjson
        exact hset callId hidx tool htool parsed hparsed

/-- **A block is stopped.** -/
theorem Mapped.contentBlockStop (hid : m.messageId = id) (hi : i < started id)
    (hsettled : finalised id ≤ i ∨
      ∀ callId ∈ m.toolByMessageBlock.lookup (id, i), Settled support m callId) :
    Mapped messages started streamed finalised (m.contentBlockStop support i) := by
  cases hidx : m.toolByMessageBlock.lookup (m.messageId, i) with
  | none =>
    simp only [Mapper.contentBlockStop, hidx]
    exact h.completeBlock hid hi
  | some callId =>
    simp only [Mapper.contentBlockStop, hidx]
    rw [hid] at hidx
    obtain ⟨-, name, input, hcont⟩ := h.indexed id i callId hidx
    exact (h.finalizeToolInput hid hi hcont (hsettled.imp_right fun hset => hset callId
      hidx)).completeBlock (Mapper.finalizeToolInput_messageId.trans hid) hi

/-- **The result of a call**, in the message of the call. -/
theorem Mapped.toolResult {output : J} {failed : Bool}
    (hkey : ∀ key ∈ m.toolBlockKey.lookup callId, key.messageId = m.messageId) :
    Mapped messages started streamed finalised (m.toolResult callId output failed) := by
  unfold Mapper.toolResult
  split
  · exact h
  · rename_i hknown
    obtain ⟨tool, htool⟩ : ∃ tool, m.tools.lookup callId = some tool := by
      cases htool : m.tools.lookup callId with
      | none => exact absurd (by rw [htool]; rfl) hknown
      | some tool => exact ⟨tool, rfl⟩
    obtain ⟨id, i, name, input, hi, hcont⟩ := h.known callId tool htool
    obtain ⟨-, hblk, -, -⟩ := h.calls id i callId name input hi hcont
    have hid : m.messageId = id := (hkey _ hblk).symm
    obtain ⟨b, name₀, input₀, output₀, hb, hpay, hfinal, hemit⟩ :=
      h.emitToolUpdated hid hi hcont none none (some output) none .running false
    have hput := h.put_call hi hcont hb hpay hfinal (fun hf tool' htool' => by
        obtain ⟨-, -, -, tool₁, htool₁, hfinal₁⟩ := h.calls id i callId name input hi hcont
        cases htool'.symm.trans htool₁
        exact hfinal₁ hf) fun _ _ _ => Iff.rfl
    rw [hemit]
    obtain ⟨c, name₁, input₁, output₁, hc, hcpayload, hcfinal, hemit'⟩ :=
      hput.emitToolUpdated hid hi hcont none none none none
        (if failed then .failed else .completed) true
    rw [hemit']
    exact hput.put_call hi hcont hc hcpayload hcfinal (fun hf tool' htool' => by
        obtain ⟨-, -, -, tool₁, htool₁, hfinal₁⟩ := hput.calls id i callId name input hi hcont
        cases htool'.symm.trans htool₁
        exact hfinal₁ hf) fun _ _ _ => Iff.rfl

/-- **A call is finalised.** -/
theorem Mapped.finaliseTool (position : ℕ) (hid : m.messageId = id)
    (hi : i < started id) (hfinal : finalised id = i)
    (hcont : (messages.content id)[i]? = some (.toolUse callId name input)) :
    Mapped messages started streamed (update finalised id (i + 1))
      (m.finaliseTool callId name input position) := by
  obtain ⟨hcall, hname⟩ := messages.named id callId name input (mem_of_getElem? hcont)
  obtain ⟨-, -, -, tool, htool, -⟩ := h.calls id i callId name input hi hcont
  simp only [Mapper.finaliseTool, hcall, hname, or_self, if_false, htool]
  have hset := h.setTool { tool with name, input := some input } hi hcont fun _ => ⟨rfl, rfl⟩
  obtain ⟨b, name₀, input₀, output₀, hb, hpay, -, hemit⟩ :=
    hset.emitToolUpdated hid hi hcont (some name) (some input) none (some position) .running false
  rw [hemit]
  refine hset.put_call hi hcont hb hpay (fun _ => ⟨rfl, rfl⟩) (fun _ tool' htool' => ?_)
    fun id' j hne => lt_update_iff hfinal hne
  simp only [lookup_insert_eq, if_true, Option.some.injEq] at htool'
  rw [← htool']
  exact ⟨rfl, rfl⟩

omit h

/-! ## Finalised texts -/

/-- The streamed texts of a kind among the first blocks of a message. -/
def refsOfKind (messages : Messages J) (id : String) (n : ℕ) (kind : BlockKind) :
    List AssistantBlockRef :=
  (refsOf messages id n).filter (·.kind = kind)

/-- A block of a message is a text of a kind. -/
def IsKind (messages : Messages J) (id : String) (i : ℕ) (kind : BlockKind) : Prop :=
  (shownAt messages id i).map Prod.fst = some kind

instance : Decidable (IsKind messages id i kind) :=
  inferInstanceAs (Decidable (_ = _))

/-- **A finalised text finds its own block**: what was streamed of it is the
text, and no block of its kind before it shows the same; or no block of its
kind shows the text, and those of its kind before it all come in the same
assistant message. -/
def OwnText (messages : Messages J) (started : String → ℕ) (streamed : String → ℕ → String)
    (finalised : String → ℕ) (id : String) (i : ℕ) : Prop :=
  ∀ shown ∈ shownAt messages id i, shown.2 ≠ "" →
    (streamed id i = shown.2 ∧ ∀ j < i, IsKind messages id j shown.1 →
      shownText messages streamed (Function.update finalised id i) id j ≠ shown.2) ∨
    ((∀ j < started id, IsKind messages id j shown.1 →
      shownText messages streamed (Function.update finalised id i) id j ≠ shown.2) ∧
      ∀ j < finalised id, ¬IsKind messages id j shown.1)

instance : Decidable (OwnText messages started streamed finalised id i) :=
  inferInstanceAs (Decidable (∀ shown ∈ shownAt messages id i, shown.2 ≠ "" → _))

/-- The references of a kind are those of its blocks. -/
theorem mem_refsOfKind : ref ∈ refsOfKind messages id n kind ↔
    ∃ i < n, IsKind messages id i kind ∧ ref = ⟨kind, contentId i, i⟩ := by
  simp only [refsOfKind, mem_filter, mem_refsOf, IsKind, decide_eq_true_eq, map_eq_some_iff]
  constructor
  · rintro ⟨⟨i, hi, shown, hsh, rfl⟩, rfl⟩
    exact ⟨i, hi, ⟨shown, hsh, rfl⟩, rfl⟩
  · rintro ⟨i, hi, ⟨shown, hsh, rfl⟩, rfl⟩
    exact ⟨⟨i, hi, shown, hsh, rfl⟩, rfl⟩

/-- The streamed texts before one, it, and those after it. -/
theorem exists_refsOf_eq (hi : i < n) (hsh : shownAt messages id i = some shown) :
    ∃ later, refsOf messages id n = refsOf messages id i ++ ⟨shown.1, contentId i, i⟩ :: later := by
  induction n with
  | zero => exact absurd hi (Nat.not_lt_zero i)
  | succ n ih =>
    rw [refsOf_succ]
    rcases Nat.lt_succ_iff_lt_or_eq.1 hi with hlt | rfl
    · obtain ⟨later, hlat⟩ := ih hlt
      exact ⟨later ++ _, by rw [hlat, append_assoc, cons_append]⟩
    · exact ⟨[], by rw [hsh]; rfl⟩

theorem exists_refsOfKind_eq (hi : i < n) (hsh : shownAt messages id i = some shown) :
    ∃ later, refsOfKind messages id n shown.1 =
      refsOfKind messages id i shown.1 ++ ⟨shown.1, contentId i, i⟩ :: later := by
  obtain ⟨later, hlat⟩ := exists_refsOf_eq hi hsh
  refine ⟨later.filter (·.kind = shown.1), ?_⟩
  rw [refsOfKind, hlat, filter_append, filter_cons_of_pos (by simp)]
  rfl

include h

/-- **The block that a finalised text is matched to.** -/
theorem Mapped.snapshotAssistantBlock (position : ℕ) (hid : m.messageId = id)
    (hi : i < started id) (hfinal : finalised id = i)
    (hsh : shownAt messages id i = some shown)
    (hord : semanticOrdinal + (refsOfKind messages id f shown.1).length =
      (refsOfKind messages id i shown.1).length) :
    (m.snapshotAssistantBlock shown.1 semanticOrdinal position shown.2).1 = m ∧
      (shown.2 ≠ "" → OwnText messages started streamed (update finalised id f) id i →
        (m.snapshotAssistantBlock shown.1 semanticOrdinal position shown.2).2 =
          ⟨shown.1, contentId i, i⟩) := by
  obtain ⟨later, hlat⟩ := exists_refsOfKind_eq hi hsh
  have hstreamed : ((m.assistantBlocksByMessage.lookup m.messageId).getD []).filter
      (·.kind = shown.1) = refsOfKind messages id (started id) shown.1 := by
    rw [hid, h.refs]
    rfl
  -- what a streamed block of the kind shows
  have hshows : ∀ ref ∈ refsOfKind messages id (started id) shown.1,
      ((m.findBlock (some ref.itemId) shown.1).map (·.payload.text)).getD "" =
        shownText messages streamed finalised id ref.blockIndex := by
    intro ref href
    obtain ⟨j, hj, hkind, rfl⟩ := mem_refsOfKind.1 href
    obtain ⟨shown', hsh', hkind'⟩ := Option.map_eq_some_iff.1 hkind
    have hfnd := congrArg (Option.map (·.text)) (h.findBlock hid hj hsh')
    rw [hkind', Option.map_map] at hfnd
    simp only [comp_def] at hfnd
    rw [hfnd]
    split
    · rename_i hnil
      exact hnil.symm
    · simp
  have hpos : (refsOfKind messages id (started id) shown.1)[semanticOrdinal]?.isSome := by
    have hlen := congrArg length hlat
    rw [length_append, length_cons] at hlen
    rw [getElem?_eq_getElem (by omega)]
    rfl
  obtain ⟨found, hfnd⟩ : ∃ found, ((refsOfKind messages id (started id) shown.1).find?
      fun block => ((m.findBlock (some block.itemId) shown.1).map (·.payload.text)).getD "" =
        shown.2).or (refsOfKind messages id (started id) shown.1)[semanticOrdinal]? =
          some found := by
    rw [← Option.isSome_iff_exists, Option.isSome_or, hpos, Bool.or_true]
  simp only [Mapper.snapshotAssistantBlock, hstreamed, hfnd]
  refine ⟨trivial, fun hne hown => ?_⟩
  have hupd : update (update finalised id f) id i = finalised := by
    rw [update_idem, ← hfinal, update_eq_self]
  rcases hown shown hsh hne with ⟨hsame, hbef⟩ | ⟨hnone, hfst⟩
  · -- it shows its text, and nothing before it does
    rw [hupd] at hbef
    have hfind : (refsOfKind messages id (started id) shown.1).find?
        (fun block => ((m.findBlock (some block.itemId) shown.1).map (·.payload.text)).getD "" =
          shown.2) = some ⟨shown.1, contentId i, i⟩ := by
      rw [find?_eq_some_iff_append]
      refine ⟨?_, refsOfKind messages id i shown.1, later, hlat, fun ref href => ?_⟩
      · rw [decide_eq_true_eq, hshows _ (by rw [hlat]; simp), shownText_of_le hfinal.le, hsame]
      · have hmem : ref ∈ refsOfKind messages id (started id) shown.1 := by
          rw [hlat]
          exact mem_append_left _ href
        obtain ⟨j, hj, hkind, rfl⟩ := mem_refsOfKind.1 href
        simpa [hshows _ hmem] using hbef j hj hkind
    rw [hfind, Option.some_or] at hfnd
    exact (Option.some.inj hfnd).symm
  · -- nothing shows it, and it has its position among its kind
    rw [hupd] at hnone
    have hnofind : (refsOfKind messages id (started id) shown.1).find?
        (fun block => ((m.findBlock (some block.itemId) shown.1).map (·.payload.text)).getD "" =
          shown.2) = none := by
      rw [find?_eq_none]
      intro ref href
      rw [decide_eq_true_eq, hshows ref href]
      obtain ⟨j, hj, hkind, rfl⟩ := mem_refsOfKind.1 href
      exact hnone j hj hkind
    have hnil : refsOfKind messages id f shown.1 = [] := by
      refine eq_nil_iff_forall_not_mem.2 fun ref href => ?_
      obtain ⟨j, hj, hkind, -⟩ := mem_refsOfKind.1 href
      exact hfst j (by rw [update_self]; exact hj) hkind
    rw [hnil, length_nil, Nat.add_zero] at hord
    rw [hnofind, Option.none_or, hlat, hord, getElem?_append_right le_rfl, Nat.sub_self] at hfnd
    exact (Option.some.inj hfnd).symm

/-- A further block of a message that shows nothing new is finalised. -/
theorem Mapped.passed (hfinal : finalised id = i) (hsh : shownAt messages id i = some shown)
    (hnil : shown.2 = "") :
    Mapped messages started streamed (update finalised id (i + 1)) m := by
  have hshow : ∀ id' j, shownText messages streamed (update finalised id (i + 1)) id' j =
      shownText messages streamed finalised id' j := by
    intro id' j
    by_cases hsubj : id' = id ∧ j = i
    · obtain ⟨rfl, rfl⟩ := hsubj
      simp [shownText, hsh, hnil]
    · simp only [shownText, lt_update_iff hfinal hsubj]
  have hnocall : ∀ id' j callId name input,
      (messages.content id')[j]? = some (ContentBlock.toolUse callId name input) →
        ¬(id' = id ∧ j = i) := by
    rintro id' j callId name input hcont ⟨rfl, rfl⟩
    simp [shownAt, hcont, ContentBlock.shownText] at hsh
  refine ⟨h.toPlaced, h.refs, fun id' j kind' text' hj hsh' => ?_,
    fun id' j callId name input hj hcont => ?_, h.indexed, h.known⟩
  · rw [hshow]
    exact h.texts id' j kind' text' hj hsh'
  · have hiff := lt_update_iff hfinal (hnocall id' j callId name input hcont)
    simpa only [hiff] using h.calls id' j callId name input hj hcont

/-- **A text is finalised**, in its own block. -/
theorem Mapped.finaliseText {position : ℕ} {written : Mapper J × Option String}
    (hid : m.messageId = id)
    (hi : i < started id) (hfinal : finalised id = i)
    (hsh : shownAt messages id i = some shown)
    (hord : semanticOrdinal + (refsOfKind messages id f shown.1).length =
      (refsOfKind messages id i shown.1).length)
    (hown : OwnText messages started streamed (update finalised id f) id i)
    (hfit : shown.2 = "" ∨ support.fit shown.1 shown.2 = some (shown.2, false))
    (heq : m.finaliseText support shown.1 semanticOrdinal position shown.2 = some written) :
    Mapped messages started streamed (update finalised id (i + 1)) written.1 ∧
      written.1.messageId = id ∧ ∀ item ∈ written.2, item = contentId i := by
  obtain ⟨hkept, hmatched⟩ := h.snapshotAssistantBlock position hid hi hfinal hsh hord
  simp only [Mapper.finaliseText] at heq
  rw [hkept] at heq
  by_cases hnil : shown.2 = ""
  · rw [if_pos hnil] at heq
    cases heq
    exact ⟨h.passed hfinal hsh hnil, hid, fun item hitem => by cases hitem⟩
  · rw [if_neg hnil, hmatched hnil hown] at heq
    have hkind := shownAt_kind hsh
    have hkey : m.blockKey (some (contentId i)) shown.1 = ⟨id, contentId i, shown.1⟩ := by
      rw [Mapper.blockKey, hid]
      rfl
    obtain ⟨b, hb, hpay, hemit⟩ := h.toPlaced.emitBlock ⟨id, contentId i, shown.1⟩ hid
      (own_of_shownAt hsh) _ (plainPayload_kind hkind) (by simp) (some i) (.inl rfl) .completed true
    have htext : m.emitText support shown.1 (some (contentId i)) (some i) shown.2 true =
        some (m.put ⟨id, contentId i, shown.1⟩ b) := by
      rw [Mapper.emitText, if_pos rfl, textPayload_of_fit (hfit.resolve_left hnil),
        map_some, hkey, hemit]
    simp only [htext, map_some] at heq
    cases heq
    refine ⟨h.put_text hi hsh hb hnil hpay ?_ (fun id' j hne => ?_)
      fun id' j hne hf => (lt_update_iff hfinal hne).1 hf, hid,
      fun item hitem => (Option.some.inj hitem).symm⟩
    · simp [shownText, hsh, hnil]
    · simp only [shownText, lt_update_iff hfinal hne]

omit h

/-- How many texts of a kind came before is counted with each block. -/
theorem length_refsOfKind_succ (id : String) (i : ℕ) (kind : BlockKind) :
    (refsOfKind messages id (i + 1) kind).length =
      (refsOfKind messages id i kind).length + if IsKind messages id i kind then 1 else 0 := by
  rw [refsOfKind, refsOf_succ, filter_append, length_append]
  congr 1
  cases hsh : shownAt messages id i with
  | none => simp [IsKind, hsh]
  | some shown =>
    by_cases hkind : shown.1 = kind <;> simp [IsKind, hsh, hkind]

/-- Blocks that an assistant message carries from an index on. Each text
finds its own block, and passes whole. -/
structure Carries (support : Support J) (messages : Messages J) (started : String → ℕ)
    (streamed : String → ℕ → String) (finalised : String → ℕ) (id : String) (i : ℕ)
    (content : List (ContentBlock J)) : Prop where
  le : i + content.length ≤ started id
  get : ∀ k < content.length, (messages.content id)[i + k]? = content[k]?
  own : ∀ k < content.length, OwnText messages started streamed finalised id (i + k)
  fit : ∀ k < content.length, ∀ shown ∈ shownAt messages id (i + k),
    shown.2 = "" ∨ support.fit shown.1 shown.2 = some (shown.2, false)

namespace Carries

variable {block : ContentBlock J} {rest : List (ContentBlock J)}

/-- The first block of a message is shown. -/
theorem head (h : Carries support messages started streamed finalised id i (block :: rest)) :
    i < started id ∧ (messages.content id)[i]? = some block ∧
      OwnText messages started streamed finalised id i ∧
      ∀ shown ∈ shownAt messages id i,
        shown.2 = "" ∨ support.fit shown.1 shown.2 = some (shown.2, false) := by
  have hpos : 0 < (block :: rest).length := by simp
  have hle := h.le
  refine ⟨by simp only [length_cons] at hle; omega, ?_, h.own 0 hpos, h.fit 0 hpos⟩
  exact h.get 0 hpos

/-- Without its first block a message is carried from the next on. -/
theorem tail (h : Carries support messages started streamed finalised id i (block :: rest)) :
    Carries support messages started streamed finalised id (i + 1) rest := by
  have hlt : ∀ k < rest.length, k + 1 < (block :: rest).length := by simp
  have hadd : ∀ k, i + 1 + k = i + (k + 1) := by omega
  refine ⟨?_, fun k hk => ?_, fun k hk => ?_, fun k hk => ?_⟩
  · have hle := h.le
    simp only [length_cons] at hle
    omega
  · rw [hadd, h.get (k + 1) (hlt k hk), getElem?_cons_succ]
  · rw [hadd]
    exact h.own (k + 1) (hlt k hk)
  · rw [hadd]
    exact h.fit (k + 1) (hlt k hk)

end Carries

/-- A text finds its own block after those before it in the assistant
message, too. -/
theorem Carries.ownText {block : ContentBlock J} {rest : List (ContentBlock J)}
    (h : Carries support messages started streamed finalised id i (block :: rest)) :
    OwnText messages started streamed (update (update finalised id i) id (finalised id)) id i := by
  rw [update_idem, update_eq_self]
  exact h.head.2.2.1

theorem isKind_iff (hsh : shownAt messages id i = some shown) :
    IsKind messages id i kind ↔ shown.1 = kind := by
  simp [IsKind, hsh]

/-- **The content of an assistant message is finalised**, each block in its
own place. -/
theorem Mapped.finalise (content : List (ContentBlock J)) :
    ∀ {m : Mapper J} {texts thinkings i position : ℕ} {later : Mapper J × List (Option String)},
    Mapped messages started streamed (update finalised id i) m → m.messageId = id →
    Carries support messages started streamed finalised id i content →
    texts + (refsOfKind messages id (finalised id) .finalMessage).length =
      (refsOfKind messages id i .finalMessage).length →
    thinkings + (refsOfKind messages id (finalised id) .reasoningSummary).length =
      (refsOfKind messages id i .reasoningSummary).length →
    Mapper.finalise support texts thinkings m position content = some later →
    Mapped messages started streamed (update finalised id (i + content.length)) later.1 ∧
      later.2.length = content.length ∧
      ∀ k item, later.2[k]? = some (some item) → item = contentId (i + k) := by
  induction content with
  | nil =>
    intro m texts thinkings i position later h _ _ _ _ heq
    cases heq
    exact ⟨h, rfl, fun k item hitem => by simp at hitem⟩
  | cons block rest ih =>
    intro m texts thinkings i position later h hid hcarry htexts hthinkings heq
    obtain ⟨hi, hget, -, hfit⟩ := hcarry.head
    have hlen : i + 1 + rest.length = i + (block :: rest).length := by
      rw [length_cons]
      omega
    -- what is written comes before what the rest writes
    have hitems : ∀ {first : Option String} {items : List (Option String)},
        (∀ item ∈ first, item = contentId i) →
        (∀ k item, items[k]? = some (some item) → item = contentId (i + 1 + k)) →
        ∀ k item, (first :: items)[k]? = some (some item) → item = contentId (i + k) := by
      intro first items hfst hrest k item hitem
      cases k with
      | zero => exact hfst item (Option.some.inj hitem)
      | succ k =>
        rw [hrest k item hitem]
        congr 1
        omega
    have hcnt : ∀ kind, (refsOfKind messages id (i + 1) kind).length =
        (refsOfKind messages id i kind).length + if IsKind messages id i kind then 1 else 0 :=
      length_refsOfKind_succ id i
    cases block with
    | text text =>
      have hsh : shownAt messages id i = some (.finalMessage, text) := by
        rw [shownAt, hget]
        rfl
      simp only [Mapper.finalise, bind_eq_some_iff, map_eq_some_iff] at heq
      obtain ⟨written, hwr, last, hlast, rfl⟩ := heq
      obtain ⟨hmap, hid', hwrote⟩ := h.finaliseText hid hi (update_self ..) hsh
        htexts hcarry.ownText (hfit _ hsh) hwr
      rw [update_idem] at hmap
      obtain ⟨hmap', hlen', hwrote'⟩ := ih hmap hid' hcarry.tail
        (by rw [hcnt, if_pos ((isKind_iff hsh).2 rfl)]; omega)
        (by rw [hcnt, if_neg (by simp [isKind_iff hsh])]; omega) hlast
      rw [hlen] at hmap'
      exact ⟨hmap', by simp [hlen'], hitems hwrote hwrote'⟩
    | thinking text =>
      have hsh : shownAt messages id i = some (.reasoningSummary, text) := by
        rw [shownAt, hget]
        rfl
      simp only [Mapper.finalise, bind_eq_some_iff, map_eq_some_iff] at heq
      obtain ⟨written, hwr, last, hlast, rfl⟩ := heq
      obtain ⟨hmap, hid', hwrote⟩ := h.finaliseText hid hi (update_self ..) hsh
        hthinkings hcarry.ownText (hfit _ hsh) hwr
      rw [update_idem] at hmap
      obtain ⟨hmap', hlen', hwrote'⟩ := ih hmap hid' hcarry.tail
        (by rw [hcnt, if_neg (by simp [isKind_iff hsh])]; omega)
        (by rw [hcnt, if_pos ((isKind_iff hsh).2 rfl)]; omega) hlast
      rw [hlen] at hmap'
      exact ⟨hmap', by simp [hlen'], hitems hwrote hwrote'⟩
    | toolUse callId name input =>
      have hnokind : ∀ kind, ¬IsKind messages id i kind := by
        intro kind
        simp [IsKind, shownAt, hget, ContentBlock.shownText]
      simp only [Mapper.finalise, map_eq_some_iff] at heq
      obtain ⟨last, hlast, rfl⟩ := heq
      have hmap := h.finaliseTool position hid hi (update_self ..) hget
      rw [update_idem] at hmap
      obtain ⟨hmap', hlen', hwrote'⟩ := ih hmap (Mapper.finaliseTool_messageId.trans hid)
        hcarry.tail (by rw [hcnt, if_neg (hnokind _)]; omega)
        (by rw [hcnt, if_neg (hnokind _)]; omega) hlast
      rw [hlen] at hmap'
      exact ⟨hmap', by simp [hlen'], hitems (by simp) hwrote'⟩

end Claude

end Providers

end Remux
