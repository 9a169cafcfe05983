import Remux.Journal.Model.Runs

/-!
# What an operation leaves alone

Most of what an event does has nothing to do with the transcript: it moves
the states of live turns, executions and conversations. `Gentle` says so
of two journals: the passes, the blocks and the recorded events are the
same, and so are the turns that have ended. `Gently` says it of an
operation, together with the error it may throw, which is not one about
the places of passes and blocks.
-/

namespace Remux.Journal

open Table List

/-! ## Gentle steps -/

/-- The error is not that two passes of a turn, or two blocks of a pass,
would share a place. -/
def OtherError (e : StoreError) : Prop :=
  e ≠ .unique "turn_passes" ∧ e ≠ .unique "turn_blocks"

/-- How a turn ended. -/
def TurnRow.ending (t : TurnRow) : String × TurnState × Option ProviderTurnOutcome × Option ℕ :=
  (t.turnId, t.state, t.outcome, t.completedAt)

/-- The turns that have ended, with how. -/
def ended (J : Journal) : List (String × TurnState × Option ProviderTurnOutcome × Option ℕ) :=
  (J.turns.rows.filter (·.state.terminal)).map TurnRow.ending

/-- A turn that has not ended has no outcome. -/
def Undecided (J : Journal) : Prop :=
  ∀ t ∈ J.turns.rows, t.state.terminal = false → t.outcome = none

/-- **A gentle step**: the transcript is as it was, and so are the turns
that have ended. -/
structure Gentle (J J' : Journal) : Prop where
  passes : J'.passes = J.passes
  blocks : J'.blocks = J.blocks
  events : J'.events = J.events
  ended : J'.ended = J.ended
  undecided : J.Undecided → J'.Undecided

/-- **An operation that is gentle**, and throws nothing about places. -/
def Gently (J : Journal) (x : Except StoreError Journal) : Prop := Settles x (Gentle J) OtherError

variable {J J' J'' : Journal}

theorem Gentle.refl : Gentle J J := ⟨rfl, rfl, rfl, rfl, id⟩

theorem Gentle.trans (h : Gentle J J') (h' : Gentle J' J'') : Gentle J J'' where
  passes := h'.passes.trans h.passes
  blocks := h'.blocks.trans h.blocks
  events := h'.events.trans h.events
  ended := h'.ended.trans h.ended
  undecided := h'.undecided ∘ h.undecided

/-- A step that keeps the turns as they are. -/
theorem Gentle.of_turns (hturns : J'.turns = J.turns) (hpasses : J'.passes = J.passes)
    (hblks : J'.blocks = J.blocks) (hevs : J'.events = J.events) : Gentle J J' where
  passes := hpasses
  blocks := hblks
  events := hevs
  ended := by rw [Journal.ended, hturns, Journal.ended]
  undecided h := by
    intro t ht
    rw [hturns] at ht
    exact h t ht

theorem gently_pure (h : Gentle J J') : J.Gently (pure J') := settles_pure h

variable {msg conversationId executionId turnId nativeId opId strandId : String}
variable {x : Except StoreError Journal} {f : Unit → Except StoreError Journal}
variable {p : ConversationRow → Bool} {now : ℕ} {ownership : ChildExecutionOwnership}
variable {child : ChildExecutionDisplay} {envelope : ProviderEventEnvelope}
variable {lifecycle : CompactionLifecycle} {trigger : CompactionTrigger}

theorem gently_throw : J.Gently (throw (.thrown msg)) :=
  settles_throw ⟨nofun, nofun⟩

theorem gently_bind {f : Journal → Except StoreError Journal} (hx : J.Gently x)
    (hf : ∀ J', Gentle J J' → J'.Gently (f J')) : J.Gently (x >>= f) :=
  settles_bind (hx.mono (fun J' hJ' => (hf J' hJ').mono (fun _ => hJ'.trans) fun _ => id)
    fun _ => id)

/-- What follows a gentle step is gentle from there on. -/
theorem Gentle.then (h : Gentle J J') (hx : J'.Gently x) : J.Gently x :=
  hx.mono (fun _ => h.trans) fun _ => id

/-- A statement that comes before the journal is written. -/
theorem gently_table {β : Type} {x : Except StoreError β} {Q : β → Prop}
    {f : β → Except StoreError Journal} (hx : Settles x Q OtherError)
    (hf : ∀ t, Q t → J.Gently (f t)) : J.Gently (x >>= f) :=
  settles_bind (hx.mono hf fun _ => id)

/-- A foreign key is not about places. -/
theorem gently_require {found : Bool} {table : String} (h : found = true → J.Gently (f ())) :
    J.Gently (require found table >>= f) :=
  settles_check ⟨nofun, nofun⟩ h

theorem gently_check {ok : Bool} (h : ok = true → J.Gently (f ())) :
    J.Gently (Remux.check ok (.thrown msg) >>= f) :=
  settles_check ⟨nofun, nofun⟩ h

/-! ## Statements on other tables -/

section Statements

variable {ρ : Type} [Row ρ] {t : Table ρ} {rows : List ρ} {p same : ρ → Bool} {f : ρ → ρ} {r : ρ}

/-- The table has no places of passes or blocks in it. -/
def OtherTable (ρ : Type) [Row ρ] : Prop :=
  Row.table ρ ≠ "turn_passes" ∧ Row.table ρ ≠ "turn_blocks"

variable (h : OtherTable ρ)
include h

theorem settles_write : Settles (write rows) (fun t => t.rows = rows) OtherError := by
  cases hw : write rows with
  | ok t => exact write_eq_ok.1 hw
  | error e =>
    rcases write_eq_error hw with ⟨rfl, -⟩ | ⟨rfl, -⟩
    · exact ⟨fun he => h.1 (StoreError.unique.inj he), fun he => h.2 (StoreError.unique.inj he)⟩
    · exact ⟨nofun, nofun⟩

theorem settles_update :
    Settles (t.update p f) (fun t' => t'.rows = t.rows.map fun r => if p r then f r else r)
      OtherError :=
  settles_write h

theorem settles_insert : Settles (t.insert r) (fun t' => t'.rows = t.rows ++ [r]) OtherError :=
  settles_write h

theorem settles_upsert : Settles (t.upsert r same f) (fun _ => True) OtherError := by
  refine settles_ite (fun _ => ?_) (fun _ => ?_)
  · exact (settles_update h).mono (fun _ _ => trivial) fun _ => id
  · exact (settles_insert h).mono (fun _ _ => trivial) fun _ => id

omit h

end Statements

theorem otherTable_conversations : OtherTable ConversationRow := ⟨by decide, by decide⟩
theorem otherTable_executions : OtherTable ExecutionRow := ⟨by decide, by decide⟩
theorem otherTable_strands : OtherTable StrandRow := ⟨by decide, by decide⟩
theorem otherTable_heads : OtherTable HeadRow := ⟨by decide, by decide⟩
theorem otherTable_paths : OtherTable PathRow := ⟨by decide, by decide⟩
theorem otherTable_nativeSessions : OtherTable NativeSessionRow := ⟨by decide, by decide⟩
theorem otherTable_childHandles : OtherTable ChildHandleRow := ⟨by decide, by decide⟩
theorem otherTable_turns : OtherTable TurnRow := ⟨by decide, by decide⟩
theorem otherTable_events : OtherTable EventRow := ⟨by decide, by decide⟩
theorem otherTable_bindings : OtherTable BindingRow := ⟨by decide, by decide⟩
theorem otherTable_controlEvents : OtherTable ControlEventRow := ⟨by decide, by decide⟩
theorem otherTable_compactions : OtherTable CompactionRow := ⟨by decide, by decide⟩

variable {f : ConversationRow → ConversationRow}

theorem gently_updateConversations : J.Gently (J.updateConversations p f) :=
  gently_table (settles_update otherTable_conversations) fun _ _ =>
    gently_pure (.of_turns rfl rfl rfl rfl)

theorem gently_updateExecutions {p : ExecutionRow → Bool} {f : ExecutionRow → ExecutionRow} :
    J.Gently (J.updateExecutions p f) :=
  gently_table (settles_update otherTable_executions) fun _ _ =>
    gently_pure (.of_turns rfl rfl rfl rfl)

theorem gently_updateNativeSessions {p : NativeSessionRow → Bool}
    {f : NativeSessionRow → NativeSessionRow} : J.Gently (J.updateNativeSessions p f) :=
  gently_table (settles_update otherTable_nativeSessions) fun _ _ =>
    gently_pure (.of_turns rfl rfl rfl rfl)

/-! ## Statements on turns -/

/-- An update of a turn that neither ends it nor touches how it ended. -/
structure TurnRow.Spared (t t' : TurnRow) : Prop where
  terminal : t'.state.terminal = t.state.terminal
  ending : t.state.terminal = true → t'.ending = t.ending
  outcome : t.state.terminal = false → t'.outcome = t.outcome

theorem TurnRow.Spared.refl (t : TurnRow) : t.Spared t := ⟨rfl, fun _ => rfl, fun _ => rfl⟩

/-- Turns that are spared have the same endings. -/
theorem ended_map_of_spared {turns : List TurnRow} {f : TurnRow → TurnRow}
    (h : ∀ t ∈ turns, t.Spared (f t)) :
    ((turns.map f).filter (·.state.terminal)).map TurnRow.ending =
      (turns.filter (·.state.terminal)).map TurnRow.ending := by
  induction turns with
  | nil => rfl
  | cons t turns ih =>
    have hspared := h t mem_cons_self
    have hrest := ih fun t' ht' => h t' (mem_cons_of_mem _ ht')
    rw [map_cons, filter_cons, filter_cons, hspared.terminal]
    split
    · next hterm => rw [map_cons, map_cons, hspared.ending hterm, hrest]
    · exact hrest

/-- An update of turns that spares each of them is gentle. -/
theorem gently_updateTurns {p : TurnRow → Bool} {f : TurnRow → TurnRow}
    (h : ∀ t ∈ J.turns.rows, p t = true → t.Spared (f t)) : J.Gently (J.updateTurns p f) := by
  have hspared : ∀ t ∈ J.turns.rows, t.Spared (if p t then f t else t) := by
    intro t ht
    split
    · next hp => exact h t ht hp
    · exact .refl t
  refine gently_table (settles_update otherTable_turns) fun turns hturns => gently_pure ?_
  refine ⟨rfl, rfl, rfl, ?_, ?_⟩
  · change ((turns.rows.filter _).map _) = _
    rw [hturns]
    exact ended_map_of_spared hspared
  · intro hundecided t ht hlive
    rw [hturns] at ht
    obtain ⟨old, hold, rfl⟩ := mem_map.1 ht
    have hs := hspared old hold
    rw [hs.terminal] at hlive
    rw [hs.outcome hlive]
    exact hundecided old hold hlive

/-- A new turn has not ended. -/
theorem gentle_insertTurn {input : CreateTurn} {turns : Table TurnRow}
    (h : turns.rows = J.turns.rows ++ [input.row]) : Gentle J { J with turns } := by
  have hst : input.row.state.terminal = false := by
    cases hr : input.running <;> simp [CreateTurn.row, hr, TurnState.terminal]
  refine ⟨rfl, rfl, rfl, ?_, ?_⟩
  · change ((turns.rows.filter _).map _) = _
    rw [h, filter_append, filter_singleton, hst]
    simp [Journal.ended]
  · intro hundecided t ht hlive
    rw [h] at ht
    rcases mem_concat.1 ht with ht | rfl
    · exact hundecided t ht hlive
    · rfl

/-! ## Operations that are gentle -/

theorem gently_ite {c : Prop} [Decidable c] {y : Except StoreError Journal} (hx : c → J.Gently x)
    (hy : ¬c → J.Gently y) : J.Gently (if c then x else y) := settles_ite hx hy

/-- A turn is created beside the others, -/
theorem gently_createTurn (input : CreateTurn) : J.Gently (J.createTurn input) := by
  unfold createTurn
  split
  · exact gently_throw
  · refine gently_check fun _ => ?_
    split
    · exact gently_throw
    · refine gently_require fun _ => gently_require fun _ => ?_
      refine gently_table (settles_insert otherTable_turns) fun turns hturns => ?_
      refine (gentle_insertTurn hturns).then ?_
      refine gently_table (Q := fun _ => True) ?_ fun paths _ => ?_
      · refine settles_ite (fun _ => ?_) fun _ => settles_pure trivial
        exact (settles_insert otherTable_paths).mono (fun _ _ => trivial) fun _ => id
      · have hpaths : Gentle { J with turns } { J with turns, paths } := .of_turns rfl rfl rfl rfl
        refine hpaths.then (gently_bind gently_updateConversations fun J' _ => ?_)
        exact gently_ite (fun _ => gently_updateExecutions) fun _ => gently_pure .refl

theorem gently_updateConversationOfRoot :
    J.Gently (J.updateConversationOfRoot conversationId executionId p f) :=
  gently_ite (fun _ => gently_updateConversations) fun _ => gently_pure .refl

/-- The native turn and the time of a turn are not how it ended. -/
theorem gently_bindNativeTurn : J.Gently (J.bindNativeTurn turnId nativeId now) :=
  gently_updateTurns fun _ _ _ => ⟨rfl, fun _ => rfl, fun _ => rfl⟩

theorem gently_touchTurn : J.Gently (J.touchTurn turnId now) :=
  gently_updateTurns fun _ _ _ => ⟨rfl, fun _ => rfl, fun _ => rfl⟩

theorem gently_resolveCompactionBoundaries :
    J.Gently (J.resolveCompactionBoundariesForNativeTurn executionId turnId nativeId) := by
  unfold resolveCompactionBoundariesForNativeTurn
  split
  · exact gently_pure .refl
  · exact gently_table (settles_update otherTable_controlEvents) fun _ _ =>
      gently_pure (.of_turns rfl rfl rfl rfl)

theorem gently_upsertNativeTurnBinding {providerInstanceId : String} {nativeId : Option String} :
    J.Gently (J.upsertNativeTurnBinding providerInstanceId executionId turnId nativeId now) := by
  refine gently_require fun _ => gently_require fun _ => gently_require fun _ => ?_
  refine gently_table (settles_upsert otherTable_bindings) fun bindings _ => ?_
  have hbindings : Gentle J { J with bindings } := .of_turns rfl rfl rfl rfl
  refine hbindings.then ?_
  split
  · exact gently_pure .refl
  · exact gently_bind gently_bindNativeTurn fun _ _ => gently_resolveCompactionBoundaries

theorem gently_reduceSessionHealth {health : SessionHealth} :
    J.Gently (J.reduceSessionHealth conversationId executionId health now) :=
  gently_bind gently_updateNativeSessions fun _ _ =>
    gently_bind gently_updateExecutions fun _ _ => gently_updateConversationOfRoot

/-- A turn that starts again has not ended. -/
theorem gently_reduceTurnStatus {recovering : Bool} :
    J.Gently (J.reduceTurnStatus conversationId executionId turnId recovering now) := by
  refine gently_bind (gently_updateTurns fun t _ hp => ?_) fun J' _ => ?_
  · unfold TurnRow.startable at hp
    simp only [Bool.and_eq_true, Bool.not_eq_true'] at hp
    have hlive : t.state.terminal = false := hp.1.2
    have hst : (if recovering = true then TurnState.recovering else .running).terminal = false := by
      split <;> rfl
    refine ⟨hst.trans hlive.symm, fun hterm => ?_, fun _ => rfl⟩
    rw [hlive] at hterm
    cases hterm
  · exact gently_ite (fun _ => gently_pure .refl) fun _ =>
      gently_bind gently_updateConversationOfRoot fun _ _ => gently_updateExecutions

theorem gently_bindNativeChildHandle : J.Gently (J.bindNativeChildHandle ownership child) := by
  unfold bindNativeChildHandle
  split
  · refine gently_require fun _ => ?_
    exact gently_table (settles_upsert otherTable_childHandles) fun _ _ =>
      gently_pure (.of_turns rfl rfl rfl rfl)
  · exact gently_pure .refl

/-- A child's execution leaves the turns, -/
theorem gently_upsertChildExecution {scope : ProviderEventScope} {rootTurnId : Option String}
    {state : ProviderExecutionState} {outcome : Option ProviderTurnOutcome} {doneAt : Option ℕ}
    {onConflict : ExecutionRow → ExecutionRow} :
    J.Gently (J.upsertChildExecution scope conversationId executionId rootTurnId ownership child
      state outcome doneAt now onConflict) := by
  refine gently_require fun _ => gently_require fun _ => gently_require fun _ => ?_
  refine gently_table (settles_upsert otherTable_executions) fun executions _ => ?_
  have hexecutions : Gentle J { J with executions } := .of_turns rfl rfl rfl rfl
  exact hexecutions.then gently_bindNativeChildHandle

/-- so does its block, -/
theorem gently_reduceChildBlock {isCompleted : Bool} {payload : TurnBlockPayload} :
    J.Gently (J.reduceChildBlock envelope conversationId executionId turnId isCompleted
      payload) := by
  unfold reduceChildBlock
  split
  · exact gently_pure .refl
  · exact gently_bind gently_upsertChildExecution fun _ _ =>
      gently_ite (fun _ => gently_updateExecutions) fun _ => gently_pure .refl

/-- and a compaction. -/
theorem gently_reduceCompactionEvent {providerSubjectKey : Option String} :
    J.Gently (J.reduceCompactionEvent conversationId lifecycle trigger opId now
      providerSubjectKey) := by
  unfold reduceCompactionEvent
  split
  · refine gently_require fun _ => ?_
    exact gently_table (settles_insert otherTable_compactions) fun _ _ =>
      gently_pure (.of_turns rfl rfl rfl rfl)
  all_goals exact gently_table (settles_update otherTable_compactions) fun _ _ =>
      gently_pure (.of_turns rfl rfl rfl rfl)

theorem gently_reduceCompaction :
    J.Gently (J.reduceCompaction envelope conversationId executionId lifecycle trigger opId) := by
  unfold reduceCompaction
  generalize J.controlEvents.insertOrIgnore _ = controlEvents
  have hcontrolEvents : Gentle J { J with controlEvents } := .of_turns rfl rfl rfl rfl
  exact hcontrolEvents.then gently_reduceCompactionEvent

theorem gently_bindTurnOf : J.Gently (J.bindTurnOf envelope executionId) := by
  unfold bindTurnOf
  split
  · exact gently_bind gently_bindNativeTurn fun _ _ => gently_upsertNativeTurnBinding
  · exact gently_pure .refl

/-- The events that are not the end of a turn and not about a block are
gentle. -/
theorem gently_reduceByType (hcompl : ∀ outcome, envelope.event ≠ .turnCompleted outcome)
    (hblk : envelope.isTurnBlock = false) :
    J.Gently (J.reduceByType envelope conversationId executionId) := by
  unfold reduceByType
  split
  · exact gently_ite (fun _ => gently_pure .refl) fun _ => gently_touchTurn
  · exact gently_reduceSessionHealth
  · exact gently_reduceTurnStatus
  · exact gently_ite (fun _ => gently_pure .refl) fun _ => gently_reduceTurnStatus
  · next hev _ => exact absurd hev (hcompl _)
  · next hev _ =>
    unfold ProviderEventEnvelope.isTurnBlock at hblk
    rw [hev] at hblk
    cases hblk
  · exact gently_upsertNativeTurnBinding
  · exact gently_reduceCompaction
  · exact gently_upsertChildExecution
  · exact gently_updateExecutions
  · exact gently_updateExecutions
  · exact gently_updateExecutions
  · exact gently_pure .refl

/-- A turn of the provider's own is created beside the others. -/
theorem gently_ensureNativeProviderTurn : J.Gently (J.ensureNativeProviderTurn envelope) := by
  unfold ensureNativeProviderTurn
  split
  · refine gently_ite (fun _ => gently_pure .refl) fun _ => ?_
    split
    · refine gently_ite (fun _ => gently_pure .refl) fun _ => gently_check fun _ => ?_
      exact gently_bind (gently_createTurn _) fun _ _ => gently_updateExecutions
    · exact gently_pure .refl
  · exact gently_pure .refl

/-! ## Creation and recovery -/

/-- A conversation is created beside the others. -/
theorem gently_createConversation {input : CreateConversation} :
    J.Gently (J.createConversation input) := by
  refine gently_require fun _ => ?_
  refine gently_table (settles_insert otherTable_conversations) fun _ _ => ?_
  refine gently_table (settles_insert otherTable_executions) fun _ _ => ?_
  refine gently_table (settles_insert otherTable_strands) fun _ _ => ?_
  refine gently_table (settles_insert otherTable_heads) fun _ _ => ?_
  exact gently_pure (.of_turns rfl rfl rfl rfl)

theorem gently_createConversationStrand {input : CreateConversationStrand} :
    J.Gently (J.createConversationStrand input) := by
  refine gently_check fun _ => gently_check fun _ => gently_require fun _ => ?_
  refine gently_table (settles_insert otherTable_executions) fun _ _ => ?_
  refine gently_table (settles_insert otherTable_strands) fun _ _ => ?_
  exact gently_pure (.of_turns rfl rfl rfl rfl)

theorem gently_markStrandReady : J.Gently (J.markStrandReady strandId) := by
  refine gently_check fun _ => gently_table (settles_update otherTable_strands) fun _ _ => ?_
  exact gently_pure (.of_turns rfl rfl rfl rfl)

theorem gently_failStrand : J.Gently (J.failStrand strandId) :=
  gently_table (settles_update otherTable_strands) fun _ _ =>
    gently_pure (.of_turns rfl rfl rfl rfl)

theorem gently_createFederatedExecution {input : CreateFederatedExecution} :
    J.Gently (J.createFederatedExecution input) := by
  refine gently_require fun _ => gently_require fun _ => gently_require fun _ => ?_
  exact gently_table (settles_insert otherTable_executions) fun _ _ =>
    gently_pure (.of_turns rfl rfl rfl rfl)

theorem gently_bindNativeSession {input : BindNativeSession} :
    J.Gently (J.bindNativeSession input) := by
  refine gently_require fun _ => gently_require fun _ => ?_
  refine gently_table (settles_upsert otherTable_nativeSessions) fun nativeSessions _ => ?_
  have hsess : Gentle J { J with nativeSessions } := .of_turns rfl rfl rfl rfl
  exact hsess.then (gently_bind gently_updateExecutions fun _ _ => gently_updateConversations)

/-- a strand is activated with its turns as they are, -/
theorem gently_activateConversationStrand {input : ActivateConversationStrand} :
    J.Gently (J.activateConversationStrand input) := by
  unfold activateConversationStrand
  split
  · exact gently_throw
  · refine gently_check fun _ => gently_check fun _ => ?_
    refine gently_table (settles_update otherTable_heads) fun heads _ => ?_
    have hheads : Gentle J { J with heads } := .of_turns rfl rfl rfl rfl
    refine hheads.then ?_
    dsimp only
    split
    · exact gently_throw
    · exact gently_updateConversations

/-- A live turn moved to a live state has not ended. -/
theorem TurnRow.Spared.of_live {t t' : TurnRow} (h : t.state.terminal = false)
    (h' : t'.state.terminal = false) (hout : t'.outcome = t.outcome) : t.Spared t' where
  terminal := h'.trans h.symm
  ending hterm := by
    rw [h] at hterm
    cases hterm
  outcome _ := hout

/-- a conversation recovers with its turns as they are, -/
theorem gently_markConversationRecovering {expected : Option String} :
    Settles (J.markConversationRecovering conversationId expected now)
      (fun result => Gentle J result.1) OtherError := by
  unfold markConversationRecovering
  split
  · exact settles_pure .refl
  · refine settles_ite (fun _ => settles_pure .refl) fun _ => ?_
    refine settles_bind (gently_updateConversations.mono (fun J₁ h₁ => ?_) fun _ => id)
    refine settles_bind (gently_updateExecutions.mono (fun J₂ h₂ => ?_) fun _ => id)
    refine settles_bind ((gently_updateTurns fun t _ hp => ?_).mono (fun J₃ h₃ => ?_) fun _ => id)
    · simp only [Bool.and_eq_true, beq_iff_eq] at hp
      exact .of_live (by rw [hp.2]; rfl) rfl rfl
    · exact settles_pure (h₁.trans (h₂.trans h₃))

theorem gently_markExecutionRecovering : J.Gently (J.markExecutionRecovering executionId now) := by
  refine gently_bind gently_updateExecutions fun J' _ => ?_
  refine gently_bind gently_updateNativeSessions fun J'' _ => ?_
  refine gently_updateTurns fun t _ hp => ?_
  simp only [Bool.and_eq_true, beq_iff_eq] at hp
  exact .of_live (by rw [hp.2]; rfl) rfl rfl

theorem TurnState.terminal_of_live {state : TurnState} (h : state.live = true) :
    state.terminal = false := by
  cases state <;> first | rfl | cases h

/-- and an execution runs with them. -/
theorem gently_confirmExecutionRunning :
    Settles (J.confirmExecutionRunning executionId now) (fun result => Gentle J result.1)
      OtherError := by
  unfold confirmExecutionRunning
  split
  · exact settles_pure .refl
  · refine settles_bind ((gently_updateTurns fun t _ hp => ?_).mono (fun J₁ h₁ => ?_) fun _ => id)
    · simp only [Bool.and_eq_true] at hp
      exact .of_live (TurnState.terminal_of_live hp.2) rfl rfl
    · refine settles_bind (gently_updateExecutions.mono (fun J₂ h₂ => ?_) fun _ => id)
      refine settles_bind (gently_updateConversationOfRoot.mono (fun J₃ h₃ => ?_) fun _ => id)
      exact settles_pure (h₁.trans (h₂.trans h₃))

end Remux.Journal
