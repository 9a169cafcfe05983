import Remux.Journal.Settled

/-!
# Which operations keep the endings

The operations that end turns without an event of the provider, and the
runs of all of them. Of the two that break the endings, the condition is
on the turns and passes they find (`keepsEndings`).
-/

namespace Remux.Journal

open Bool (and_eq_true)
open Settles List

variable {J J' : Journal} {blockTurn : String → String} {S T : String → Prop}

/-! ## Ending turns -/

/-- The columns of a turn that say whose it is. -/
def TurnRow.belongs (t : TurnRow) : String × String := (t.turnId, t.executionId)

/-- The turns are those of the same executions. -/
def SameTurns (J J' : Journal) : Prop :=
  J'.turns.rows.map TurnRow.belongs = J.turns.rows.map TurnRow.belongs

variable {t t' : TurnRow} {now : ℕ} {executionId : String} {ids : List String}

theorem SameTurns.turn (h : SameTurns J J') (ht : t ∈ J.turns.rows) :
    ∃ t' ∈ J'.turns.rows, t'.turnId = t.turnId ∧ t'.executionId = t.executionId := by
  have hmem : t.belongs ∈ J'.turns.rows.map TurnRow.belongs := by
    rw [h]
    exact mem_map_of_mem ht
  obtain ⟨t', ht', heq⟩ := mem_map.1 hmem
  exact ⟨t', ht', by simpa only [TurnRow.belongs, Prod.mk.injEq] using heq⟩

theorem SameTurns.symm (h : SameTurns J J') : SameTurns J' J := Eq.symm h

/-- A turn is found by its id. -/
theorem eq_of_turnId (ht : t ∈ J.turns.rows) (ht' : t' ∈ J.turns.rows)
    (hid : t.turnId = t'.turnId) :
    t = t' :=
  Table.eq_of_clash ht ht' (by simp [Row.clash, hid])

/-- The turns of some execution. -/
def OfExecution (J : Journal) (executionId : String) (turnId : String) : Prop :=
  ∃ t ∈ J.turns.rows, t.turnId = turnId ∧ t.executionId = executionId

/-- A live turn has no outcome to keep. -/
theorem ends_of_live (hundecided : J.Undecided) (ht : t ∈ J.turns.rows)
    (hlive : t.state.live = true) {state : TurnState} (hterm : state.terminal = true)
    {outcome : Option ProviderTurnOutcome} {completedAt : Option ℕ} {updatedAt : ℕ} :
    TurnRow.Ends J.events.rows t { t with state, outcome, completedAt, updatedAt } where
  turnId := rfl
  terminal := hterm
  kept old hold := by
    rw [hundecided t ht (TurnState.terminal_of_live hlive)] at hold
    cases hold

/-- The turns that `failed` picks fail. -/
def TurnRow.fail (now : ℕ) (t : TurnRow) : TurnRow := { t with
  state := .failed, outcome := some .recoveryFailed, completedAt := some now, updatedAt := now }

/-- **Live turns fail**: their endings are new, and they are the same
turns. -/
theorem keeps_failTurns {p : TurnRow → Bool} (hJ : Sound blockTurn Nowhere Nowhere J)
    (hp : ∀ t ∈ J.turns.rows, p t = true → t.state.live = true)
    (hS : ∀ t ∈ J.turns.rows, p t = true → S t.turnId ∨ ∀ q ∈ J.passes.rows, q.turnId = t.turnId →
      q.state ≠ .streaming) (hT : ∀ t ∈ J.turns.rows, p t = true → T t.turnId) :
    Settles (J.updateTurns p (TurnRow.fail now))
      (fun J' => (Sound blockTurn S T J' ∧ EndingsKept J J') ∧ SameTurns J J' ∧
        J'.passes = J.passes)
      fun _ => True := by
  refine and ?_ ?_
  · refine keeps_endTurns (hJ.weaken (fun _ => False.elim) fun _ => False.elim) fun t ht ht' => ?_
    exact ⟨ends_of_live hJ.undecided ht (hp t ht ht') rfl, hS t ht ht', hT t ht ht'⟩
  · refine settles_bind ((settles_update otherTable_turns).mono (fun turns hturns => ?_)
      fun _ _ => trivial)
    refine settles_pure ⟨?_, rfl⟩
    change turns.rows.map _ = _
    rw [hturns, map_map]
    refine map_congr_left fun t _ => ?_
    change TurnRow.belongs (if p t then t.fail now else t) = t.belongs
    split <;> rfl

/-! ## The operations -/

variable (hJ : Sound blockTurn Nowhere Nowhere J)
include hJ

/-- The failure of the active turn keeps the endings, -/
theorem keeps_failActiveTurn {conversation : ConversationRow} :
    Keeps blockTurn Nowhere Nowhere J (J.failActiveTurn conversation now) := by
  unfold failActiveTurn
  split
  · exact keeps_pure hJ
  · next activeTurnId _ =>
    refine settles_bind ((keeps_failTurns
      (S := fun id => id = activeTurnId ∧ J.OfExecution conversation.rootExecutionId id)
      (T := (· = activeTurnId)) hJ ?_ ?_ ?_).mono ?_ fun _ => id)
    · exact fun t _ hp => (and_eq_true _ _ ▸ hp).2
    · intro t ht hp
      simp only [and_eq_true, beq_iff_eq] at hp
      exact .inl ⟨hp.1.1, t, ht, rfl, hp.1.2⟩
    · intro t _ hp
      simp only [and_eq_true, beq_iff_eq] at hp
      exact hp.1.1
    · rintro J₁ ⟨⟨hJ₁, hkept⟩, hsame, -⟩
      refine mono (Q := fun J' => Sound blockTurn Nowhere Nowhere J' ∧ EndingsKept J₁ J')
        (E := fun _ => True) ?_ (fun J' hJ' => ⟨hJ'.1, hkept.trans hJ'.2⟩) fun _ => id
      refine keeps_bind (keeps_completePasses hJ₁ fun q _ hq => ?_) fun J₂ hJ₂ => ?_
      · obtain ⟨hact, t, ht, hid, hexec⟩ := hq
        obtain ⟨t', ht', hid', hexec'⟩ := hsame.turn ht
        refine any_eq_true.2 ⟨t', ht', ?_⟩
        simp only [and_eq_true, beq_iff_eq]
        exact ⟨hid'.trans hid, (hid'.trans hid).trans hact, hexec'.trans hexec⟩
      · exact keeps_settleTerminalTurnBlocks hJ₂ fun t _ ht => by simpa using ht

/-- the failure of a recovery keeps them, -/
theorem keeps_failRecovery {conversationId : String} {expected : Option String} :
    KeepsFst blockTurn J (J.failRecovery conversationId expected now) := by
  unfold failRecovery
  split
  · exact settles_pure ⟨hJ, .refl J⟩
  · refine settles_ite (fun _ => settles_pure ⟨hJ, .refl J⟩) fun _ => ?_
    refine settles_bind ((keeps_failActiveTurn hJ).mono ?_ fun _ => id)
    rintro J₁ ⟨hJ₁, hkept₁⟩
    refine settles_bind ((gently_updateConversations.keeps hJ₁).mono ?_ fun _ => id)
    rintro J₂ ⟨hJ₂, hkept₂⟩
    refine settles_bind ((gently_updateExecutions.keeps hJ₂).mono ?_ fun _ => id)
    rintro J₃ ⟨hJ₃, hkept₃⟩
    exact settles_pure ⟨hJ₃, hkept₁.trans (hkept₂.trans hkept₃)⟩

/-- Recorded ends of turns, reduced again. -/
theorem keeps_repair {rows : List EventRow} (hrows : ∀ row ∈ rows, row ∈ J.events.rows) :
    KeepsFst blockTurn J (repairRecoveryFailures.repair J rows) := by
  induction rows generalizing J with
  | nil => exact settles_pure ⟨hJ, .refl J⟩
  | cons row rest ih =>
    have hrow := hrows row mem_cons_self
    have hrest := fun r hr => hrows r (mem_cons_of_mem _ hr)
    unfold repairRecoveryFailures.repair
    split
    · refine settles_bind ((keeps_reduceEvent hJ (hJ.recorded row hrow)
        fun _ => ⟨row, hrow, rfl⟩).mono ?_ fun _ => id)
      rintro J₁ ⟨hJ₁, hkept₁⟩
      refine settles_bind ((ih hJ₁ fun r hr => hkept₁.recorded r (hrest r hr)).mono ?_ fun _ => id)
      rintro ⟨J₂, repaired⟩ ⟨hJ₂, hkept₂⟩
      exact settles_pure ⟨hJ₂, hkept₁.trans hkept₂⟩
    · exact ih hJ hrest

omit hJ

/-- The turns of an execution, before and after its live ones fail. -/
theorem SameTurns.ofExecution (h : SameTurns J J') (ht' : t' ∈ J'.turns.rows)
    (hof : J.OfExecution executionId t'.turnId) :
    t'.executionId = executionId := by
  obtain ⟨t, ht, hid, hexec⟩ := hof
  obtain ⟨t₀, ht₀, hid₀, hexecution₀⟩ := h.symm.turn ht'
  have hsame : t₀ = t := eq_of_turnId ht₀ ht (hid₀.trans hid.symm)
  rw [← hexecution₀, hsame, hexec]

/-- the failure of an execution, -/
theorem keeps_failExecution (hJ : Sound blockTurn Nowhere Nowhere J) :
    Keeps blockTurn Nowhere Nowhere J (J.failExecution executionId now) := by
  refine settles_bind ((keeps_failTurns (S := J.OfExecution executionId)
    (T := J.OfExecution executionId) hJ ?_ ?_ ?_).mono ?_ fun _ => id)
  · exact fun t _ hp => (and_eq_true _ _ ▸ hp).2
  · intro t ht hp
    simp only [and_eq_true, beq_iff_eq] at hp
    exact .inl ⟨t, ht, rfl, hp.1⟩
  · intro t ht hp
    simp only [and_eq_true, beq_iff_eq] at hp
    exact ⟨t, ht, rfl, hp.1⟩
  · rintro J₁ ⟨⟨hJ₁, hkept₁⟩, hsame, -⟩
    refine settles_bind ((and (keeps_completePasses hJ₁ fun q _ hq => ?_) settles_self).mono
      ?_ fun _ => id)
    · obtain ⟨t, ht, hid, hexec⟩ := hq
      obtain ⟨t', ht', hid', hexec'⟩ := hsame.turn ht
      refine any_eq_true.2 ⟨t', ht', ?_⟩
      simp only [and_eq_true, beq_iff_eq]
      exact ⟨hid'.trans hid, hexec'.trans hexec⟩
    · rintro J₂ ⟨⟨hJ₂, hkept₂⟩, hpasses⟩
      have hturns : J₂.turns = J₁.turns := by
        obtain ⟨passes, -, hok⟩ := bind_eq_ok.1 hpasses
        cases hok
        rfl
      refine mono (Q := fun J' => Sound blockTurn Nowhere Nowhere J' ∧ EndingsKept J₂ J')
        (E := fun _ => True) ?_ (fun J' hJ' => ⟨hJ'.1, hkept₁.trans (hkept₂.trans hJ'.2)⟩) fun _ =>
          id
      refine keeps_bind (keeps_settleTerminalTurnBlocks hJ₂ fun t ht hof => ?_) fun J₃ hJ₃ =>
        gently_updateExecutions.keeps hJ₃
      rw [hturns] at ht
      simpa using hsame.ofExecution ht hof

/-- **The condition of `closeFederatedExecution`**: the turns that it fails
have no pass that streams. -/
def closesCleanly (J : Journal) (executionId : String) : Bool :=
  J.turns.rows.all fun t => !(t.executionId == executionId && t.state.live) ||
    J.passes.rows.all fun p => p.turnId != t.turnId || p.state != .streaming

/-- the close of a federated one, if it is a clean one, -/
theorem keeps_closeFederatedExecution (hJ : Sound blockTurn Nowhere Nowhere J)
    (hclean : J.closesCleanly executionId = true) :
    Keeps blockTurn Nowhere Nowhere J (J.closeFederatedExecution executionId now) := by
  refine settles_bind ((keeps_failTurns (S := Nowhere) (T := J.OfExecution executionId) hJ
    ?_ ?_ ?_).mono ?_ fun _ => id)
  · exact fun t _ hp => (and_eq_true _ _ ▸ hp).2
  · intro t ht hp
    have ht' := all_eq_true.1 hclean t ht
    rw [hp, Bool.not_true, Bool.false_or] at ht'
    refine .inr fun q hq hid => ?_
    have hq' := all_eq_true.1 ht' q hq
    simpa [hid] using hq'
  · intro t ht hp
    simp only [and_eq_true, beq_iff_eq] at hp
    exact ⟨t, ht, rfl, hp.1⟩
  · rintro J₁ ⟨⟨hJ₁, hkept₁⟩, hsame, -⟩
    refine settles_bind ((and (gently_updateExecutions.keeps hJ₁) settles_self).mono ?_ fun _ => id)
    rintro J₂ ⟨⟨hJ₂, hkept₂⟩, hexecutions⟩
    have hturns : J₂.turns = J₁.turns := by
      obtain ⟨executions, -, hok⟩ := bind_eq_ok.1 hexecutions
      cases hok
      rfl
    refine mono (Q := fun J' => Sound blockTurn Nowhere Nowhere J' ∧ EndingsKept J₂ J')
      (E := fun _ => True) ?_ (fun J' hJ' => ⟨hJ'.1, hkept₁.trans (hkept₂.trans hJ'.2)⟩) fun _ => id
    refine keeps_bind (keeps_settleTerminalTurnBlocks hJ₂ fun t ht hof => ?_) fun J₃ hJ₃ =>
      gently_updateNativeSessions.keeps hJ₃
    rw [hturns] at ht
    simpa using hsame.ofExecution ht hof

/-- **The condition of `failTurnDispatch`**: the turn has no outcome, or
the one it is given, and no pass that streams. -/
def failsCleanly (J : Journal) (turnId : String) (now : ℕ) : Bool :=
  (J.turns.rows.all fun t => t.turnId != turnId || t.outcome.isNone ||
    t.ending == (turnId, .failed, some .failed, some now)) &&
  J.passes.rows.all fun p => p.turnId != turnId || p.state != .streaming

/-- and the failure of a dispatch, if it is a clean one. -/
theorem keeps_failTurnDispatch {turnId : String} (hJ : Sound blockTurn Nowhere Nowhere J)
    (hclean : J.failsCleanly turnId now = true) :
    Keeps blockTurn Nowhere Nowhere J (J.failTurnDispatch turnId now) := by
  obtain ⟨hturn, hpasses⟩ := Bool.and_eq_true_iff.1 hclean
  unfold failTurnDispatch
  split
  · exact keeps_pure hJ
  · refine keeps_bind (S := Nowhere) (T := (· = turnId)) (keeps_endTurns
      (hJ.weaken (fun _ => id) fun _ => False.elim) fun t ht hid => ?_) fun J₁ hJ₁ => ?_
    · have hid' : t.turnId = turnId := by simpa using hid
      have ht' := all_eq_true.1 hturn t ht
      refine ⟨⟨rfl, rfl, fun outcome hout => .inl ?_⟩, .inr fun q hq hq' => ?_, hid'⟩
      · have hsame : t.ending = (turnId, .failed, some .failed, some now) := by
          simpa [hid', hout] using ht'
        rw [hsame, ← hid']
        rfl
      · have hq'' := all_eq_true.1 hpasses q hq
        simpa [hq', hid'] using hq''
    · refine keeps_bind (keeps_settleTerminalTurnBlocks hJ₁ fun t _ ht => by simpa using ht)
        fun J₂ hJ₂ => ?_
      exact keeps_bind (gently_updateConversationOfRoot.keeps hJ₂) fun J₃ hJ₃ =>
        gently_updateExecutions.keeps hJ₃

/-! ## Runs -/

/-- **The condition of a step**: its events name no block of another turn,
and it fails turns cleanly. -/
def keepsEndings (blockTurn : String → String) (J : Journal) : JournalAction → Bool
  | .appendProviderEvents envelopes => envelopes.all (ownsBlock blockTurn)
  | .replaceSnapshot events _ => events.all (ownsBlock blockTurn)
  | .failTurnDispatch turnId now => J.failsCleanly turnId now
  | .closeFederatedExecution executionId _ => J.closesCleanly executionId
  | _ => true

/-- **A step that meets the condition** keeps the endings. -/
theorem keeps_apply {action : JournalAction} (hJ : Sound blockTurn Nowhere Nowhere J)
    (hclean : J.keepsEndings blockTurn action = true) :
    Keeps blockTurn Nowhere Nowhere J (J.apply action) := by
  have hgently : ∀ {x : Except StoreError Journal}, J.Gently x →
      Keeps blockTurn Nowhere Nowhere J x := fun h => h.keeps hJ
  have hpair : ∀ {β : Type} {x : Except StoreError (Journal × β)}, KeepsFst blockTurn J x →
      Keeps blockTurn Nowhere Nowhere J (do let (J, _) ← x; return J) := by
    intro β x hx
    refine settles_bind (hx.mono ?_ fun _ => id)
    rintro ⟨J₁, _⟩ h₁
    exact settles_pure h₁
  have hgentlyPaired : ∀ {β : Type} {x : Except StoreError (Journal × β)},
      Settles x (fun result => Gentle J result.1) OtherError → KeepsFst blockTurn J x := fun h =>
    h.mono (fun _ h => ⟨h.sound hJ, h.endingsKept hJ.undecided⟩) fun _ _ => trivial
  cases action with
  | createConversation input => exact hgently gently_createConversation
  | createConversationStrand input => exact hgently gently_createConversationStrand
  | markStrandReady strandId => exact hgently gently_markStrandReady
  | failStrand strandId => exact hgently gently_failStrand
  | activateConversationStrand input => exact hgently gently_activateConversationStrand
  | createFederatedExecution input => exact hgently gently_createFederatedExecution
  | createTurn input => exact hgently (gently_createTurn input)
  | bindNativeSession input => exact hgently gently_bindNativeSession
  | appendProviderEvents envelopes =>
    exact hpair (keeps_appendProviderEvents hJ (all_eq_true.1 hclean))
  | replaceSnapshot events completeKinds =>
    exact hpair (keeps_replaceSnapshot hJ (all_eq_true.1 hclean))
  | markConversationRecovering conversationId expected now =>
    exact hpair (hgentlyPaired gently_markConversationRecovering)
  | markExecutionRecovering executionId now => exact hgently gently_markExecutionRecovering
  | confirmExecutionRunning executionId now =>
    exact hpair (hgentlyPaired gently_confirmExecutionRunning)
  | failTurnDispatch turnId now => exact keeps_failTurnDispatch hJ hclean
  | failRecovery conversationId expected now => exact hpair (keeps_failRecovery hJ)
  | repairRecoveryFailures =>
    exact hpair (keeps_repair hJ fun row hrow => (mem_filter.1 hrow).1)
  | failExecution executionId now => exact keeps_failExecution hJ
  | closeFederatedExecution executionId now => exact keeps_closeFederatedExecution hJ hclean
  | setDeliveries | setQueue => exact hgently (gently_pure (.of_turns rfl rfl rfl rfl))

theorem sound_new : Sound blockTurn S T (new ids) where
  undecided _ ht := absurd ht not_mem_nil
  passes _ ht := absurd ht not_mem_nil
  blocks _ ht := absurd ht not_mem_nil
  owned _ hb := absurd hb not_mem_nil
  recorded _ hrow := absurd hrow not_mem_nil

/-- The run rule: what a step keeps is kept from a sound journal on. -/
theorem keeps_of_leads (hJ : Sound blockTurn Nowhere Nowhere J)
    (h : ((machine ids).restrict fun J action =>
      J.keepsEndings blockTurn action = true).Leads J J') :
    Sound blockTurn Nowhere Nowhere J' ∧ EndingsKept J J' := by
  refine h.rule (P := fun J' => Sound blockTurn Nowhere Nowhere J' ∧ EndingsKept J J')
    ⟨hJ, .refl J⟩ ?_
  rintro J₁ action J₂ - ⟨hJ₁, hkept₁⟩ hstep
  obtain ⟨hclean, hstep⟩ := Machine.restrict_step_eq_some.1 hstep
  obtain ⟨hJ₂, hkept₂⟩ := (keeps_apply hJ₁ hclean).ok (apply_of_step hstep)
  exact ⟨hJ₂, hkept₁.trans hkept₂⟩

/-- **Turns that have ended stay ended and settled**, in every run whose
steps meet the condition. -/
theorem endedTurns {ids : List String}
    (h : ((machine ids).restrict fun J action =>
      J.keepsEndings blockTurn action = true).Reachable J) :
    J.Settled ∧ ∀ J', ((machine ids).restrict fun J action =>
      J.keepsEndings blockTurn action = true).Leads J J' → J'.Settled ∧ EndingsKept J J' := by
  have hnew : Sound blockTurn Nowhere Nowhere (new ids) := sound_new
  obtain ⟨hJ, -⟩ := keeps_of_leads hnew h
  refine ⟨hJ.settled, fun J' hleads => ?_⟩
  obtain ⟨hJ', hkept⟩ := keeps_of_leads hJ hleads
  exact ⟨hJ'.settled, hkept⟩

/-- A federated execution with a running turn that has a pass. -/
def federatedRun : List JournalAction :=
  placedRun ++
  [JournalAction.createFederatedExecution
      { executionId := "f", conversationId := "c", parentExecutionId := "e", rootTurnId := "t",
        provider := .codex, providerInstanceId := "p", checkoutKey := none, access := .readOnly,
        scheduling := .background, depth := 1, now := 2 },
    .createTurn
      { turnId := "u", conversationId := "c", executionId := "f", clientMessageId := "n",
        commandId := "l", running := true, now := 2 },
    .appendProviderEvents
      [{ firstPassBlock "2" "b" "y" with
          scope := .turn "p" "c" "f" "u", inScope := rfl, bound := .inr rfl }]]

/-- An execution that is closed leaves the pass of its turn streaming: the
turn has failed, and is not settled. -/
theorem endedTurns_closed : ¬∀ J action J', (machine ["p"]).Reachable J →
    (machine ["p"]).step J action = some J' → J'.Settled ∧ EndingsKept J J' := by
  intro h
  have hreachable : (machine ["p"]).Reachable
      ((machine ["p"]).run federatedRun (machine ["p"]).init) := ⟨federatedRun, by rfl⟩
  have hstep : (machine ["p"]).step ((machine ["p"]).run federatedRun (machine ["p"]).init)
      (.closeFederatedExecution "f" 3) = some ((machine ["p"]).run
        (federatedRun ++ [.closeFederatedExecution "f" 3]) (machine ["p"]).init) := by rfl
  have hnot : ¬((machine ["p"]).run (federatedRun ++ [.closeFederatedExecution "f" 3])
      (machine ["p"]).init).Settled := by decide +kernel
  exact hnot (h _ _ _ hreachable hstep).1

/-- A turn that is completed, and then an event of its block. -/
def lateRun : List JournalAction :=
  placedRun ++
  [JournalAction.appendProviderEvents [{ firstPassBlock "2" "a" "x" with
          observedAt := 5, event := .turnCompleted .completed, inScope := rfl }],
    .appendProviderEvents [{ firstPassBlock "3" "a" "x" with
          observedAt := 6
          event := .turnBlock (.revised 1)
            { passId := "a", blockId := "x", passOrdinal := 0, blockOrdinal := 0 }
            { state := .streaming, payload := .commentary "" }
          inScope := rfl }]]

/-- The late event does not reopen the turn. -/
theorem endedTurns_lateRun : ((machine ["p"]).run lateRun (machine ["p"]).init).Settled := by
  have hreachable : ((machine ["p"]).restrict fun J action =>
      J.keepsEndings (fun _ => "t") action = true).Reachable
        ((machine ["p"]).run lateRun (machine ["p"]).init) := ⟨lateRun, by rfl⟩
  exact (endedTurns hreachable).1

end Remux.Journal
