import Mathlib.Data.Int.Notation
import Mathlib.Data.List.Nodup
import Mathlib.Data.List.Pairwise

/-!
# A turn with several inputs is shown in sections

`inputSections` cuts the blocks of a turn where its additional inputs came
in. The cuts are found by two readings of an anchor: the sort takes an
anchor that is of no block for one before all blocks, the cut for one behind
all of them. A file change goes to the section of its block.
-/

namespace Remux

open List hiding getElem?_eq_some_iff
open Option

/-- What a block shows: a tool call, a child run, or anything else. -/
inductive NativeBlockPayload where
  | tool (callId : String)
  | child (executionId : String)
  | other
  deriving DecidableEq

/-- A block of a turn. -/
structure NativeOrderedTurnBlock where
  blockId : String
  payload : NativeBlockPayload
  deriving DecidableEq

/-- A pass of the assistant, with its blocks in order. -/
structure NativeAssistantPass where
  passId : String
  blocks : List NativeOrderedTurnBlock
  deriving DecidableEq

/-- A file that was changed, and the block it is of, when one is known. -/
structure NativeFileChangeView where
  path : String
  blockId : Option String
  deriving DecidableEq

/-- A message of the user, or a notice. -/
inductive NativeTurnInputType where
  | message
  | notice
  deriving DecidableEq

/-- An input that came in during a turn. -/
structure NativeTurnInput where
  type : NativeTurnInputType
  clientMessageId : String
  afterBlockId : Option String
  inputOrdinal : Option ℕ
  createdAt : Option ℕ
  deriving DecidableEq

/-- A turn as the viewer is sent it. -/
structure NativeAgentTurnFrame where
  executionId : String
  clientMessageId : String
  additionalMessages : List NativeTurnInput
  inputItems : List NativeTurnInput
  passes : List NativeAssistantPass
  finalBlockId : Option String
  assistantText : String
  fileChanges : List NativeFileChangeView
  children : List String
  deriving DecidableEq

/-- The blocks of all passes. -/
def NativeAgentTurnFrame.orderedBlocks (turn : NativeAgentTurnFrame) :
    List NativeOrderedTurnBlock :=
  turn.passes.flatMap (·.blocks)

/-- A turn as the projector makes it: no two of its blocks have the same id,
and a text that it has is that of one of them. -/
structure ProjectedTurnFrame extends NativeAgentTurnFrame where
  nodup_blocks : (toNativeAgentTurnFrame.orderedBlocks.map (·.blockId)).Nodup
  final : assistantText ≠ "" →
    ∃ block ∈ toNativeAgentTurnFrame.orderedBlocks, finalBlockId = some block.blockId

/-- A part of a turn, under the input it answers. -/
structure InputSection where
  input : Option NativeTurnInput
  turn : NativeAgentTurnFrame
  tail : Bool
  scopeId : String

namespace NativeAgentTurnFrame

variable (turn : NativeAgentTurnFrame)

/-- The block that an input came in behind. -/
def anchorIndex (input : NativeTurnInput) : Option ℕ :=
  input.afterBlockId.bind fun afterBlockId =>
    turn.orderedBlocks.findIdx? (·.blockId = afterBlockId)

/-- An input has an anchor, of no block of the turn. -/
def UnknownAnchor (input : NativeTurnInput) : Prop :=
  input.afterBlockId.isSome ∧ turn.anchorIndex input = none

/-- The index that inputs are sorted by, `-1` without a block. -/
def sortIndex (input : NativeTurnInput) : ℤ :=
  match turn.anchorIndex input with
  | some index => (index : ℤ)
  | none => -1

/-- The order of the inputs: by their anchors, then as they came in. -/
def inputLe (a b : NativeTurnInput) : Bool :=
  turn.sortIndex a < turn.sortIndex b ∨ turn.sortIndex a = turn.sortIndex b ∧
    (a.inputOrdinal.getD 0 < b.inputOrdinal.getD 0 ∨
      a.inputOrdinal.getD 0 = b.inputOrdinal.getD 0 ∧ a.createdAt.getD 0 ≤ b.createdAt.getD 0)

/-- The inputs besides the one the turn was started by. -/
def additionalInputs : List NativeTurnInput :=
  turn.additionalMessages ++
    turn.inputItems.filter fun input => input.clientMessageId ≠ turn.clientMessageId

/-- The additional inputs in their order. -/
def messages : List NativeTurnInput :=
  turn.additionalInputs.mergeSort turn.inputLe

/-- Where the section before an input ends. -/
def sectionEnd (start : ℕ) (next : NativeTurnInput) : ℕ :=
  max start <| match next.afterBlockId with
    | none => 0
    | some _ =>
      match turn.anchorIndex next with
      | some anchor => anchor + 1
      | none => turn.orderedBlocks.length

/-- The blocks from one index to another. -/
def blockSlice (start stop : ℕ) : List NativeOrderedTurnBlock :=
  (turn.orderedBlocks.take stop).drop start

/-- The turn with the blocks of a section only. -/
def scopedTurn (start stop : ℕ) : NativeAgentTurnFrame :=
  let ids := (turn.blockSlice start stop).map (·.blockId)
  let ownsFinal := turn.finalBlockId.any (· ∈ ids)
  { turn with
    additionalMessages := []
    inputItems := turn.inputItems.filter (·.clientMessageId = turn.clientMessageId)
    passes := (turn.passes.map fun pass =>
      { pass with blocks := pass.blocks.filter (·.blockId ∈ ids) }).filter (!·.blocks.isEmpty)
    finalBlockId := if ownsFinal then turn.finalBlockId else none
    assistantText := if ownsFinal then turn.assistantText else ""
    fileChanges := turn.fileChanges.filter fun change => change.blockId.any (· ∈ ids)
    children := turn.children.filter fun child => turn.orderedBlocks.any fun block =>
      block.blockId ∈ ids && block.payload = .child child }

/-- The section of some blocks. -/
def inputSection (start stop : ℕ) (input : Option NativeTurnInput) (tail : Bool) :
    InputSection where
  input
  turn := turn.scopedTurn start stop
  tail
  scopeId := match input with
    | some input => "input:" ++ input.clientMessageId
    | none => turn.executionId

/-- The sections from a block on, the first of them under an input. -/
def sectionsFrom (start : ℕ) (input : Option NativeTurnInput) : List NativeTurnInput →
    List InputSection
  | [] => [turn.inputSection start turn.orderedBlocks.length input true]
  | next :: rest =>
    let stop := turn.sectionEnd start next
    turn.inputSection start stop input false :: sectionsFrom stop (some next) rest

/-- `inputSections`. -/
def inputSections : List InputSection :=
  turn.sectionsFrom 0 none turn.messages

/-- A tool block that the change is of, by its id or by that of its call. -/
def LinksTool (change : NativeFileChangeView) : Prop :=
  ∃ block ∈ turn.orderedBlocks, ∃ callId, block.payload = .tool callId ∧
    (change.blockId = some block.blockId ∨ change.blockId = some callId)

/-- **The sections partition the turn**: its blocks, its inputs, each behind
its anchor, its text and the file changes of its tools. The work of a
section shows all file changes that the section has. -/
structure Partitioned : Prop where
  blocks : turn.inputSections.flatMap (·.turn.orderedBlocks) = turn.orderedBlocks
  inputs : turn.inputSections.map (·.input) = none :: turn.messages.map some
  once : turn.messages.Perm turn.additionalInputs
  placed : ∀ {k input anchor}, turn.messages[k]? = some input →
    turn.anchorIndex input = some anchor →
    (turn.inputSections.take (k + 1)).flatMap (·.turn.orderedBlocks) =
      turn.orderedBlocks.take (anchor + 1)
  final : turn.assistantText ≠ "" →
    turn.inputSections.countP (·.turn.assistantText = turn.assistantText) = 1 ∧
      ∀ s ∈ turn.inputSections, s.turn.assistantText = turn.assistantText ∨
        s.turn.assistantText = ""
  changes : ∀ change ∈ turn.fileChanges, turn.LinksTool change →
    turn.inputSections.countP (change ∈ ·.turn.fileChanges) = 1

end NativeAgentTurnFrame

/-! ## Lists -/

section

variable {α β γ : Type*} [DecidableEq β] [DecidableEq γ]

/-- The elements with the keys of a sublist are the sublist. -/
theorem filter_mem_keys_of_sublist {f : α → β} {part whole : List α} (h : part.Sublist whole)
    (hnodup : (whole.map f).Nodup) : whole.filter (fun x => f x ∈ part.map f) = part := by
  induction h with
  | slnil => rfl
  | cons x h ih =>
    obtain ⟨hnot, hrest⟩ := nodup_cons.1 hnodup
    rw [filter_cons_of_neg (by simpa using fun hmem => hnot ((h.map f).subset hmem)), ih hrest]
  | @cons_cons part whole x h ih =>
    obtain ⟨hnot, hrest⟩ := nodup_cons.1 hnodup
    rw [filter_cons_of_pos (by simp)]
    congr 1
    refine (filter_congr fun y hy => ?_).trans (ih hrest)
    have hne : f y ≠ f x := fun heq => hnot (heq ▸ mem_map_of_mem hy)
    simp [hne]

/-- An element of one list of several that have none in common is of one of
them. -/
theorem countP_mem_of_nodup_flatMap {f : α → List γ} {x : γ} : ∀ {lists : List α},
    (lists.flatMap f).Nodup → x ∈ lists.flatMap f → lists.countP (x ∈ f ·) = 1
  | [], _, hmem => absurd hmem not_mem_nil
  | y :: lists, hnodup, hmem => by
    obtain ⟨-, hrest, hdisjoint⟩ := nodup_append'.1 (flatMap_cons ▸ hnodup)
    rcases mem_append.1 (flatMap_cons ▸ hmem) with hx | hx
    · have hzero : lists.countP (x ∈ f ·) = 0 := countP_eq_zero.2 fun z hz hmem =>
        hdisjoint hx (mem_flatMap.2 ⟨z, hz, of_decide_eq_true hmem⟩)
      rw [countP_cons_of_pos (by simpa using hx), hzero]
    · have hnot : x ∉ f y := fun hy => hdisjoint hy hx
      rw [countP_cons_of_neg (by simpa using hnot), countP_mem_of_nodup_flatMap hrest hx]

end

namespace NativeAgentTurnFrame

variable {turn : NativeAgentTurnFrame} {start stop last : ℕ} {input : Option NativeTurnInput}
variable {rest : List NativeTurnInput} {block : NativeOrderedTurnBlock}

/-! ## The blocks of the sections -/

theorem blockSlice_append (hstart : start ≤ stop) (hstop : stop ≤ last) :
    turn.blockSlice start stop ++ turn.blockSlice stop last = turn.blockSlice start last := by
  simp only [blockSlice, drop_take]
  have hdrop : turn.orderedBlocks.drop stop =
      (turn.orderedBlocks.drop start).drop (stop - start) := by
    rw [drop_drop, Nat.add_sub_cancel' hstart]
  rw [hdrop, show last - start = stop - start + (last - stop) by omega, take_add]

/-- A scoped turn has the blocks of its slice. -/
theorem orderedBlocks_scopedTurn (hnodup : (turn.orderedBlocks.map (·.blockId)).Nodup)
    (start stop : ℕ) : (turn.scopedTurn start stop).orderedBlocks = turn.blockSlice start stop := by
  have hpasses : ∀ (keep : NativeOrderedTurnBlock → Bool) (passes : List NativeAssistantPass),
      ((passes.map fun pass => { pass with blocks := pass.blocks.filter keep }).filter
        (!·.blocks.isEmpty)).flatMap (·.blocks) = (passes.flatMap (·.blocks)).filter keep := by
    intro keep passes
    induction passes with
    | nil => rfl
    | cons pass passes ih =>
      rw [map_cons, flatMap_cons, filter_append, ← ih, filter_cons]
      split
      · rfl
      · next hempty =>
        have hnil : pass.blocks.filter keep = [] := by simpa using hempty
        rw [hnil, nil_append]
  exact (hpasses _ _).trans (filter_mem_keys_of_sublist
    ((drop_sublist _ _).trans (take_sublist _ _)) hnodup)

variable {next : NativeTurnInput}

theorem le_sectionEnd : start ≤ turn.sectionEnd start next :=
  Nat.le_max_left ..

theorem foldl_sectionEnd_le : rest.foldl turn.sectionEnd start ≤ last ↔
    start ≤ last ∧ ∀ next ∈ rest, turn.sectionEnd 0 next ≤ last := by
  induction rest generalizing start with
  | nil => simp
  | cons next rest ih =>
    rw [foldl_cons, ih, forall_mem_cons]
    simp only [sectionEnd, Nat.max_le, Nat.zero_le, true_and, and_assoc]

theorem le_foldl_sectionEnd : start ≤ rest.foldl turn.sectionEnd start :=
  (foldl_sectionEnd_le.1 (Nat.le_refl _)).1

/-- A section ends within the turn. -/
theorem sectionEnd_le_length : turn.sectionEnd 0 next ≤ turn.orderedBlocks.length := by
  unfold sectionEnd
  refine Nat.max_le.2 ⟨Nat.zero_le _, ?_⟩
  split
  · exact Nat.zero_le _
  · split
    · next anchor hanchor =>
      obtain ⟨_, -, hfind⟩ := bind_eq_some_iff.1 hanchor
      exact (findIdx?_eq_some_iff_findIdx_eq.1 hfind).1
    · exact Nat.le_refl _

theorem map_input_sectionsFrom :
    (turn.sectionsFrom start input rest).map (·.input) = input :: rest.map some := by
  induction rest generalizing start input with
  | nil => rfl
  | cons next rest ih =>
    rw [sectionsFrom, map_cons, ih]
    rfl

variable (hnodup : (turn.orderedBlocks.map (·.blockId)).Nodup)
include hnodup

/-- The sections have all blocks from the first one's start. -/
theorem flatMap_sectionsFrom (hstart : start ≤ turn.orderedBlocks.length) :
    (turn.sectionsFrom start input rest).flatMap (·.turn.orderedBlocks) =
      turn.blockSlice start turn.orderedBlocks.length := by
  induction rest generalizing start input with
  | nil =>
    rw [sectionsFrom, flatMap_singleton]
    exact orderedBlocks_scopedTurn hnodup ..
  | cons next rest ih =>
    have hstop : turn.sectionEnd start next ≤ turn.orderedBlocks.length := by
      have hle : turn.sectionEnd 0 next ≤ _ := sectionEnd_le_length
      unfold sectionEnd at hle ⊢
      omega
    rw [sectionsFrom, flatMap_cons, ih hstop]
    exact (congrArg (· ++ _) (orderedBlocks_scopedTurn hnodup ..)).trans
      (blockSlice_append le_sectionEnd hstop)

/-- The blocks before an input. -/
theorem flatMap_take_sectionsFrom {k : ℕ} (hk : k < rest.length) :
    ((turn.sectionsFrom start input rest).take (k + 1)).flatMap (·.turn.orderedBlocks) =
      turn.blockSlice start ((rest.take (k + 1)).foldl turn.sectionEnd start) := by
  induction rest generalizing start input k with
  | nil => exact absurd hk (Nat.not_lt_zero k)
  | cons next rest ih =>
    rw [sectionsFrom, take_succ_cons, flatMap_cons, take_succ_cons, foldl_cons]
    have hblocks := orderedBlocks_scopedTurn hnodup start (turn.sectionEnd start next)
    cases k with
    | zero => exact (append_nil _).trans hblocks
    | succ k =>
      rw [ih (Nat.lt_of_succ_lt_succ hk)]
      exact (congrArg (· ++ _) hblocks).trans (blockSlice_append le_sectionEnd le_foldl_sectionEnd)

omit hnodup

/-! ## The place of an input -/

variable {anchor k : ℕ} {message other : NativeTurnInput}

theorem sectionEnd_of_anchorIndex (h : turn.anchorIndex message = some anchor) :
    turn.sectionEnd 0 message = anchor + 1 := by
  obtain ⟨afterBlockId, hafter, -⟩ := bind_eq_some_iff.1 h
  unfold sectionEnd
  rw [hafter, h]
  exact Nat.max_eq_right (Nat.zero_le _)

theorem sectionEnd_of_unknown (h : turn.UnknownAnchor message) :
    turn.sectionEnd 0 message = turn.orderedBlocks.length := by
  obtain ⟨afterBlockId, hafter⟩ := isSome_iff_exists.1 h.1
  unfold sectionEnd
  rw [hafter, h.2]
  exact Nat.max_eq_right (Nat.zero_le _)

theorem messages_sorted (turn : NativeAgentTurnFrame) :
    turn.messages.Pairwise fun a b => turn.sortIndex a ≤ turn.sortIndex b := by
  refine (@List.pairwise_mergeSort _ turn.inputLe (fun a b c hab hbc => ?_)
    (fun a b => ?_) _).imp fun {a b} h => ?_
  all_goals simp only [inputLe, decide_eq_true_eq, Bool.or_eq_true] at *
  all_goals omega

theorem sortIndex_of_anchorIndex (h : turn.anchorIndex message = some anchor) :
    turn.sortIndex message = anchor := by
  unfold sortIndex
  rw [h]

theorem sortIndex_of_unknown (h : turn.UnknownAnchor message) : turn.sortIndex message = -1 := by
  unfold sortIndex
  rw [h.2]

/-- The inputs before one are sorted before it. -/
theorem sortIndex_le_of_mem_take (hk : turn.messages[k]? = some message)
    (hother : other ∈ turn.messages.take (k + 1)) :
    turn.sortIndex other ≤ turn.sortIndex message := by
  obtain ⟨j, hj, rfl⟩ := mem_take_iff_getElem.1 hother
  obtain ⟨hlt, rfl⟩ := getElem?_eq_some_iff.1 hk
  rcases Nat.lt_or_eq_of_le (show j ≤ k by omega) with hjk | rfl
  · exact pairwise_iff_getElem.1 turn.messages_sorted j k _ hlt hjk
  · exact Int.le_refl _

theorem mem_take_of_unknown (hk : turn.messages[k]? = some message)
    (hanchor : turn.anchorIndex message = some anchor) (hother : other ∈ turn.messages)
    (hunknown : turn.UnknownAnchor other) : other ∈ turn.messages.take (k + 1) := by
  obtain ⟨j, hj, rfl⟩ := mem_iff_getElem.1 hother
  obtain ⟨hlt, rfl⟩ := getElem?_eq_some_iff.1 hk
  have hjk : j ≤ k := by
    by_contra hkj
    have hle := pairwise_iff_getElem.1 turn.messages_sorted k j hlt hj (by omega)
    rw [sortIndex_of_anchorIndex hanchor, sortIndex_of_unknown hunknown] at hle
    omega
  exact mem_take_iff_getElem.2 ⟨j, by omega, rfl⟩

/-- **An input is behind its anchor** exactly if no input of an unknown
anchor is taken to the end before it. -/
theorem placed_iff (hnodup : (turn.orderedBlocks.map (·.blockId)).Nodup)
    (hk : turn.messages[k]? = some message) (hanchor : turn.anchorIndex message = some anchor) :
    (turn.inputSections.take (k + 1)).flatMap (·.turn.orderedBlocks) =
        turn.orderedBlocks.take (anchor + 1) ↔
      ∀ other ∈ turn.messages, turn.UnknownAnchor other →
        anchor + 1 = turn.orderedBlocks.length := by
  have hlt := (getElem?_eq_some_iff.1 hk).1
  have hmem : message ∈ turn.messages.take (k + 1) :=
    mem_take_iff_getElem.2 ⟨k, by omega, (getElem?_eq_some_iff.1 hk).2⟩
  have hend := sectionEnd_of_anchorIndex hanchor
  have hlen : turn.sectionEnd 0 message ≤ _ := sectionEnd_le_length
  rw [inputSections, flatMap_take_sectionsFrom hnodup hlt, blockSlice, drop_zero]
  generalize hstop : (turn.messages.take (k + 1)).foldl turn.sectionEnd 0 = stop
  have hall := (foldl_sectionEnd_le.1 (Nat.le_of_eq hstop)).2
  have hstoplen : stop ≤ turn.orderedBlocks.length :=
    hstop ▸ foldl_sectionEnd_le.2 ⟨Nat.zero_le _, fun _ _ => sectionEnd_le_length⟩
  have hmessage := hall message hmem
  constructor
  · intro heq other hother hunknown
    have htake := congrArg length heq
    rw [length_take, length_take] at htake
    have hother := hall other (mem_take_of_unknown hk hanchor hother hunknown)
    rw [sectionEnd_of_unknown hunknown] at hother
    omega
  · intro hcond
    have hle : stop ≤ anchor + 1 := by
      refine hstop ▸ foldl_sectionEnd_le.2 ⟨Nat.zero_le _, fun next hnext => ?_⟩
      have hsort := sortIndex_le_of_mem_take hk hnext
      rw [sortIndex_of_anchorIndex hanchor] at hsort
      cases hnone : turn.anchorIndex next with
      | some index =>
        rw [sortIndex_of_anchorIndex hnone] at hsort
        rw [sectionEnd_of_anchorIndex hnone]
        omega
      | none =>
        by_cases hafter : next.afterBlockId.isSome
        · have hlast := hcond next (mem_of_mem_take hnext) ⟨hafter, hnone⟩
          rw [sectionEnd_of_unknown ⟨hafter, hnone⟩]
          omega
        · unfold sectionEnd
          rw [not_isSome_iff_eq_none.1 hafter]
          exact Nat.zero_le _
    rw [show stop = anchor + 1 by omega]

/-! ## The section of a block -/

/-- Every section has a slice of the turn. -/
theorem exists_scopedTurn {s : InputSection} (h : s ∈ turn.sectionsFrom start input rest) :
    ∃ start stop, s.turn = turn.scopedTurn start stop := by
  induction rest generalizing start input with
  | nil =>
    rw [mem_singleton.1 h]
    exact ⟨_, _, rfl⟩
  | cons next rest ih =>
    rcases mem_cons.1 h with rfl | h
    · exact ⟨_, _, rfl⟩
    · exact ih h

include hnodup

theorem flatMap_inputSections :
    turn.inputSections.flatMap (·.turn.orderedBlocks) = turn.orderedBlocks := by
  rw [inputSections, flatMap_sectionsFrom hnodup (Nat.zero_le _), blockSlice, drop_zero,
    take_length]

/-- One section has the block with an id. -/
theorem countP_inputSections (hblock : block ∈ turn.orderedBlocks) {q : InputSection → Prop}
    [DecidablePred q] (hq : ∀ start stop s, s.turn = turn.scopedTurn start stop →
      (q s ↔ block.blockId ∈ (turn.blockSlice start stop).map (·.blockId))) :
    turn.inputSections.countP q = 1 := by
  have hflat := flatMap_inputSections hnodup
  have hone : turn.inputSections.countP (block ∈ ·.turn.orderedBlocks) = 1 :=
    countP_mem_of_nodup_flatMap (by rw [hflat]; exact hnodup.of_map _) (by rw [hflat]; exact hblock)
  rw [← hone]
  refine countP_congr fun s hs => ?_
  obtain ⟨start, stop, hturn⟩ := exists_scopedTurn hs
  rw [decide_eq_true_eq, decide_eq_true_eq, hq start stop s hturn, hturn,
    orderedBlocks_scopedTurn hnodup]
  constructor
  · intro h
    obtain ⟨same, hsame, heq⟩ := mem_map.1 h
    have hsub := mem_of_mem_take (mem_of_mem_drop hsame)
    exact inj_on_of_nodup_map hnodup hsub hblock heq ▸ hsame
  · exact fun h => mem_map_of_mem h

end NativeAgentTurnFrame

open NativeAgentTurnFrame in
/-- **When the sections partition the turn**: its blocks, inputs and text are
in their sections always; an input is behind its anchor exactly if no input's
anchor is unknown or its own is the last block, and a tool's file change is
shown exactly if it has the id of a block and not only that of a call. -/
theorem inputSections_partition_iff (turn : ProjectedTurnFrame) : turn.Partitioned ↔
    (∀ message ∈ turn.additionalInputs, ∀ anchor, turn.anchorIndex message = some anchor →
      ∀ other ∈ turn.additionalInputs, turn.UnknownAnchor other →
        anchor + 1 = turn.orderedBlocks.length) ∧
    ∀ change ∈ turn.fileChanges, turn.LinksTool change →
      ∃ block ∈ turn.orderedBlocks, change.blockId = some block.blockId := by
  have hmem : ∀ {message}, message ∈ turn.messages ↔ message ∈ turn.additionalInputs :=
    mem_mergeSort
  constructor
  · intro h
    refine ⟨fun message hmessage anchor hanchor other hother hunknown => ?_,
      fun change hchange hlinks => ?_⟩
    · obtain ⟨k, hk⟩ := mem_iff_getElem?.1 (hmem.2 hmessage)
      exact (placed_iff turn.nodup_blocks hk hanchor).1 (h.placed hk hanchor) other
        (hmem.2 hother) hunknown
    · obtain ⟨s, hs, hshown⟩ := countP_pos_iff.1
        (Nat.lt_of_lt_of_eq Nat.zero_lt_one (h.changes change hchange hlinks).symm)
      obtain ⟨start, stop, hturn⟩ := exists_scopedTurn hs
      rw [decide_eq_true_eq, hturn] at hshown
      have hown := of_mem_filter hshown
      cases hid : change.blockId with
      | none => simp [hid] at hown
      | some id =>
        rw [hid, Option.any_some, decide_eq_true_eq] at hown
        obtain ⟨block, hblock, rfl⟩ := mem_map.1 hown
        exact ⟨block, mem_of_mem_take (mem_of_mem_drop hblock), rfl⟩
  · rintro ⟨hanchors, hchanges⟩
    refine ⟨flatMap_inputSections turn.nodup_blocks, map_input_sectionsFrom,
      mergeSort_perm _ _, fun hk hanchor => ?_, fun htext => ?_,
      fun change hchange hlinks => ?_⟩
    · exact (placed_iff turn.nodup_blocks hk hanchor).2 fun other hother hunknown =>
        hanchors _ (hmem.1 (mem_of_getElem? hk)) _ hanchor other (hmem.1 hother) hunknown
    · obtain ⟨block, hblock, hfinal⟩ := turn.final htext
      refine ⟨countP_inputSections turn.nodup_blocks hblock fun start stop s hturn => ?_,
        fun s hs => ?_⟩
      · rw [hturn]
        simp only [scopedTurn, hfinal, Option.any_some]
        split
        · next hown => simpa using hown
        · next hown => simpa [Ne.symm htext] using hown
      · obtain ⟨start, stop, hturn⟩ := exists_scopedTurn hs
        rw [hturn]
        exact ite_eq_or_eq _ _ _
    · obtain ⟨block, hblock, heq⟩ := hchanges change hchange hlinks
      refine countP_inputSections turn.nodup_blocks hblock fun start stop s hturn => ?_
      rw [hturn]
      simp [scopedTurn, hchange, heq]

/-- A turn whose one message came in behind the first of two blocks, with a
change of the second and a text. -/
def steeredTurn : ProjectedTurnFrame where
  executionId := "execution"
  clientMessageId := "client"
  additionalMessages := [⟨.message, "first", some "read", some 0, none⟩]
  inputItems := []
  passes := [⟨"pass", [⟨"read", .tool "call-1"⟩, ⟨"edit", .tool "call-2"⟩, ⟨"text", .other⟩]⟩]
  finalBlockId := some "text"
  assistantText := "Done."
  fileChanges := [⟨"a.ts", some "edit"⟩]
  children := []
  nodup_blocks := by decide
  final := fun _ => ⟨⟨"text", .other⟩, by decide⟩

theorem inputSections_partition_steered : steeredTurn.Partitioned := by
  refine (inputSections_partition_iff steeredTurn).2 ⟨fun message hmessage anchor hanchor other
    hother hunknown => ?_, fun change hchange _ => ?_⟩
  · obtain rfl := mem_singleton.1 hother
    exact absurd hunknown.2 (by decide)
  · obtain rfl := mem_singleton.1 hchange
    exact ⟨⟨"edit", .tool "call-2"⟩, by decide, rfl⟩

/-- A steered message whose anchor is gone takes a later one to the end. -/
def lostAnchorTurn : ProjectedTurnFrame where
  executionId := "execution"
  clientMessageId := "client"
  additionalMessages := [⟨.message, "first", some "gone", some 0, none⟩,
    ⟨.message, "second", some "read", some 1, none⟩]
  inputItems := []
  passes := [⟨"pass", [⟨"read", .tool "call-1"⟩, ⟨"edit", .tool "call-2"⟩]⟩]
  finalBlockId := none
  assistantText := ""
  fileChanges := []
  children := []
  nodup_blocks := by decide
  final := fun h => absurd rfl h

/-- A change that is linked by the id of its tool's call. -/
def callLinkedTurn : ProjectedTurnFrame where
  executionId := "execution"
  clientMessageId := "client"
  additionalMessages := [⟨.message, "first", some "edit", some 0, none⟩]
  inputItems := []
  passes := [⟨"pass", [⟨"edit", .tool "call-1"⟩]⟩]
  finalBlockId := none
  assistantText := ""
  fileChanges := [⟨"a.ts", some "call-1"⟩]
  children := []
  nodup_blocks := by decide
  final := fun h => absurd rfl h

/-- The two kinds of turns that lose a block. -/
theorem inputSections_loses : ¬ lostAnchorTurn.Partitioned ∧ ¬ callLinkedTurn.Partitioned := by
  have hlost : lostAnchorTurn.messages = lostAnchorTurn.additionalMessages :=
    mergeSort_of_pairwise (by decide)
  have hlinked : callLinkedTurn.messages = callLinkedTurn.additionalMessages :=
    mergeSort_singleton _
  refine ⟨fun h => ?_, fun h => ?_⟩
  · have hplaced := @h.placed 1 _ 0 (by rw [hlost]; rfl) rfl
    rw [NativeAgentTurnFrame.inputSections, hlost] at hplaced
    exact absurd hplaced (by decide)
  · have hchanges := h.changes ⟨"a.ts", some "call-1"⟩ (by decide)
      ⟨⟨"edit", .tool "call-1"⟩, by decide, "call-1", rfl, .inr rfl⟩
    rw [NativeAgentTurnFrame.inputSections, hlinked] at hchanges
    exact absurd hchanges (by decide)

end Remux
