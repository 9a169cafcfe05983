import Remux.Journal.LivePlacement

/-!
# Turns that have ended stay ended

A turn that has ended keeps its state, its outcome and its time
(`EndingsKept`), but for one whose recovery failed, which a later event
of its end replaces; and it has no live work of its own (`Settled`). Two
operations break this: `closeFederatedExecution` leaves the passes of the
turns it fails, and `failTurnDispatch` neither looks at the turn's state
nor at its passes. So does the event of a block in the scope of another
turn than the block's. Runs that stay clear of the three keep it.

An operation that ends turns settles their passes and blocks in later
statements, so that between them `Sound` leaves out the turns of `S`, whose
passes, and of `T`, whose blocks, are not settled yet.
-/

namespace Remux.Journal

open Table TurnRow Remux.Journal.ProviderEventEnvelope List Option

/-! ## The statement -/

/-- **The turns that have ended are settled**: their passes are completed,
and their live blocks are those that outlive a turn. -/
def Settled (J : Journal) : Prop :=
  ∀ t ∈ J.turns.rows, t.state.terminal = true →
    (∀ p ∈ J.passes.rows, p.turnId = t.turnId → p.state ≠ .streaming) ∧
    ∀ b ∈ J.blocks.rows, b.turnId = t.turnId → b.state.live = true → b.payload.outlivesTurn = true

instance (J : Journal) : Decidable J.Settled := by
  unfold Settled
  infer_instance

/-- The end of a turn whose recovery had failed, by a recorded event that
was observed later. -/
def Replaced (rows : List EventRow) (t t' : TurnRow) : Prop :=
  t.outcome = some .recoveryFailed ∧ ∃ row ∈ rows, ∃ outcome,
    row.envelope.event = .turnCompleted outcome ∧ row.envelope.scope.turnId = some t.turnId ∧
      (∃ time, t.completedAt = some time ∧ time < row.envelope.observedAt) ∧
      t'.state = outcome.turnState ∧ t'.outcome = some outcome ∧
      t'.completedAt = some row.envelope.observedAt

/-- **The endings are kept**: a turn with an outcome keeps its ending, or
it is replaced. -/
structure EndingsKept (J J' : Journal) : Prop where
  recorded : ∀ row ∈ J.events.rows, row ∈ J'.events.rows
  kept : ∀ t ∈ J.turns.rows, ∀ outcome, t.outcome = some outcome → ∃ t' ∈ J'.turns.rows,
    t'.turnId = t.turnId ∧ (t'.ending = t.ending ∨ Replaced J'.events.rows t t')

variable {J J' J'' : Journal} {S T : String → Prop}

variable {t t' : TurnRow} {S' T' : String → Prop} {x : Except StoreError Journal}
variable {turnId conversationId executionId : String} {outcome : ProviderTurnOutcome}
variable {envelope : ProviderEventEnvelope} {place : TurnStructure} {lifecycle : BlockLifecycle}
variable {block : TurnBlockSnapshot} {envelopes : List ProviderEventEnvelope}
variable {turnIds : List String} {completeKinds : Option (List TurnBlockKind)}

theorem TurnRow.eq_of_ending (h : t'.ending = t.ending) :
    t'.turnId = t.turnId ∧ t'.state = t.state ∧ t'.outcome = t.outcome ∧
      t'.completedAt = t.completedAt := by
  simpa only [ending, Prod.mk.injEq] using h

theorem EndingsKept.refl (J : Journal) : EndingsKept J J :=
  ⟨fun _ => id, fun t ht _ _ => ⟨t, ht, rfl, .inl rfl⟩⟩

/-- Endings kept twice are kept. -/
theorem EndingsKept.trans (h : EndingsKept J J') (h' : EndingsKept J' J'') : EndingsKept J J'' where
  recorded row hrow := h'.recorded row (h.recorded row hrow)
  kept t ht outcome hout := by
    obtain ⟨t', ht', hid, hkept⟩ := h.kept t ht outcome hout
    rcases hkept with hsame | hreplaced
    · obtain ⟨-, hst, hout', hcompl⟩ := eq_of_ending hsame
      obtain ⟨t'', ht'', hid', hkept'⟩ := h'.kept t' ht' outcome (hout'.trans hout)
      refine ⟨t'', ht'', hid'.trans hid, ?_⟩
      rcases hkept' with hsame' | ⟨hfail, row, hrow, outcome', hev, hsc, htime, hends⟩
      · exact .inl (hsame'.trans hsame)
      · refine .inr ⟨hout' ▸ hfail, row, hrow, outcome', hev, hid ▸ hsc, ?_, hends⟩
        exact hcompl ▸ htime
    · obtain ⟨hfail, row, hrow, outcome', hev, hsc, ⟨time, htime, hlt⟩, hst, hout',
        hcompl⟩ := hreplaced
      obtain ⟨t'', ht'', hid', hkept'⟩ := h'.kept t' ht' outcome' hout'
      refine ⟨t'', ht'', hid'.trans hid, .inr ⟨hfail, ?_⟩⟩
      rcases hkept' with hsame' | ⟨-, row', hrow', outcome'', hev', hsc', ⟨time', htime', hlt'⟩,
        hends⟩
      · obtain ⟨-, hst', houtcome'', hcompl'⟩ := eq_of_ending hsame'
        exact ⟨row, h'.recorded row hrow, outcome', hev, hsc, ⟨time, htime, hlt⟩,
          hst'.trans hst, houtcome''.trans hout', hcompl'.trans hcompl⟩
      · -- The second replacement was observed after the first, which was after the failure.
        have haft : time' = row.envelope.observedAt := by
          rw [hcompl] at htime'
          exact (some.inj htime').symm
        exact ⟨row', hrow', outcome'', hev', hid ▸ hsc', ⟨time, htime, by omega⟩, hends⟩

/-! ## Soundness -/

/-- The turn that a block's id belongs to: no event names it in the scope
of another one. -/
def ownsBlock (blockTurn : String → String) (envelope : ProviderEventEnvelope) : Bool :=
  match envelope.turnScopedBlock with
  | none => true
  | some event => blockTurn event.place.blockId == event.turnId

variable {blockTurn : String → String}

/-- **A sound journal**: turns that have not ended have no outcome, and
those that have are settled, but for the passes of `S` and the blocks of
`T`. -/
structure Sound (blockTurn : String → String) (S T : String → Prop) (J : Journal) : Prop where
  undecided : J.Undecided
  passes : ∀ t ∈ J.turns.rows, t.state.terminal = true → ¬S t.turnId →
    ∀ p ∈ J.passes.rows, p.turnId = t.turnId → p.state ≠ .streaming
  blocks : ∀ t ∈ J.turns.rows, t.state.terminal = true → ¬T t.turnId →
    ∀ b ∈ J.blocks.rows, b.turnId = t.turnId → b.state.live = true → b.payload.outlivesTurn = true
  owned : ∀ b ∈ J.blocks.rows, blockTurn b.blockId = b.turnId
  recorded : ∀ row ∈ J.events.rows, ownsBlock blockTurn row.envelope = true

/-- No turn is left out. -/
def Nowhere : String → Prop := fun _ => False

theorem Sound.settled (h : Sound blockTurn Nowhere Nowhere J) : J.Settled := fun t ht hterm =>
  ⟨h.passes t ht hterm id, h.blocks t ht hterm id⟩

theorem Sound.weaken (h : Sound blockTurn S T J) (hS : ∀ id, S id → S' id)
    (hT : ∀ id, T id → T' id) :
    Sound blockTurn S' T' J where
  __ := h
  passes t ht hterm hout := h.passes t ht hterm fun hin => hout (hS _ hin)
  blocks t ht hterm hout := h.blocks t ht hterm fun hin => hout (hT _ hin)

/-- A gentle step keeps the endings of turns. -/
theorem Gentle.endingsKept (h : Gentle J J') (hJ : J.Undecided) : EndingsKept J J' where
  recorded row hrow := by
    rw [h.events]
    exact hrow
  kept t ht outcome hout := by
    have hterm : t.state.terminal = true := by
      by_contra hlive
      rw [hJ t ht (Bool.not_eq_true _ ▸ hlive)] at hout
      cases hout
    have hmem : t.ending ∈ J'.ended := by
      rw [h.ended]
      exact mem_map_of_mem (mem_filter.2 ⟨ht, hterm⟩)
    obtain ⟨t', ht', heq⟩ := mem_map.1 hmem
    exact ⟨t', (mem_filter.1 ht').1, (eq_of_ending heq).1, .inl heq⟩

/-- A turn that has ended after a gentle step had before. -/
theorem Gentle.terminal (h : Gentle J J') (ht' : t' ∈ J'.turns.rows)
    (hterm : t'.state.terminal = true) :
    ∃ t ∈ J.turns.rows, t.turnId = t'.turnId ∧ t.state.terminal = true := by
  have hmem : t'.ending ∈ J.ended := by
    rw [← h.ended]
    exact mem_map_of_mem (mem_filter.2 ⟨ht', hterm⟩)
  obtain ⟨t, ht, heq⟩ := mem_map.1 hmem
  obtain ⟨hmem, hterm⟩ := mem_filter.1 ht
  exact ⟨t, hmem, (eq_of_ending heq).1, hterm⟩

/-- A gentle step keeps the turns sound. -/
theorem Gentle.sound (h : Gentle J J') (hJ : Sound blockTurn S T J) : Sound blockTurn S T J' where
  undecided := h.undecided hJ.undecided
  passes t' ht' hterm hout p hp hturn := by
    obtain ⟨t, ht, hid, hended⟩ := h.terminal ht' hterm
    rw [h.passes] at hp
    exact hJ.passes t ht hended (hid ▸ hout) p hp (hturn.trans hid.symm)
  blocks t' ht' hterm hout b hb hturn := by
    obtain ⟨t, ht, hid, hended⟩ := h.terminal ht' hterm
    rw [h.blocks] at hb
    exact hJ.blocks t ht hended (hid ▸ hout) b hb (hturn.trans hid.symm)
  owned := by
    rw [h.blocks]
    exact hJ.owned
  recorded := by
    rw [h.events]
    exact hJ.recorded

/-! ## Operations -/

/-- **An operation that keeps the endings** and leaves a sound journal, if
any. -/
def Keeps (blockTurn : String → String) (S T : String → Prop) (J : Journal)
    (x : Except StoreError Journal) : Prop :=
  Settles x (fun J' => Sound blockTurn S T J' ∧ EndingsKept J J') fun _ => True

theorem keeps_pure (hJ : Sound blockTurn S T J) : Keeps blockTurn S T J (pure J) :=
  settles_pure ⟨hJ, .refl J⟩

theorem Gently.keeps (h : J.Gently x) (hJ : Sound blockTurn S T J) : Keeps blockTurn S T J x :=
  h.mono (fun _ h => ⟨h.sound hJ, h.endingsKept hJ.undecided⟩) fun _ _ => trivial

theorem keeps_bind {f : Journal → Except StoreError Journal} (hx : Keeps blockTurn S T J x)
    (hf : ∀ J', Sound blockTurn S T J' → Keeps blockTurn S' T' J' (f J')) :
    Keeps blockTurn S' T' J (x >>= f) :=
  settles_bind (hx.mono (fun J' hJ' => (hf J' hJ'.1).mono
    (fun _ h => ⟨h.1, hJ'.2.trans h.2⟩) fun _ => id) fun _ => id)

theorem turn_eq_some (ht : t ∈ J.turns.rows) : J.turn t.turnId = some t := by
  refine find?_eq_some_of_clash ht (by simp) fun t' _ hid => ?_
  simp [Row.clash, hid]

/-- What an update that ends a turn does to it. -/
structure TurnRow.Ends (rows : List EventRow) (t t' : TurnRow) : Prop where
  turnId : t'.turnId = t.turnId
  terminal : t'.state.terminal = true
  kept : ∀ outcome, t.outcome = some outcome → t'.ending = t.ending ∨ Replaced rows t t'

/-- **The turns of an update end**, and their work is not settled yet. -/
theorem keeps_endTurns {p : TurnRow → Bool} {f : TurnRow → TurnRow} (hJ : Sound blockTurn S T J)
    (hends : ∀ t ∈ J.turns.rows, p t = true →
      t.Ends J.events.rows (f t) ∧ (S t.turnId ∨ ∀ q ∈ J.passes.rows, q.turnId = t.turnId →
        q.state ≠ .streaming) ∧ T t.turnId) :
    Keeps blockTurn S T J (J.updateTurns p f) := by
  refine settles_bind ((settles_update otherTable_turns).mono (fun turns hturns => settles_pure ?_)
    fun _ _ => trivial)
  have hmem : ∀ t' ∈ turns.rows, ∃ t ∈ J.turns.rows, (if p t then f t else t) = t' := by
    intro t' ht'
    rw [hturns] at ht'
    exact mem_map.1 ht'
  refine ⟨⟨?_, ?_, ?_, hJ.owned, hJ.recorded⟩, ⟨fun _ => id, ?_⟩⟩
  · intro t' ht' hlive
    obtain ⟨t, ht, rfl⟩ := hmem t' ht'
    by_cases hp : p t = true
    · rw [if_pos hp] at hlive
      rw [(hends t ht hp).1.terminal] at hlive
      cases hlive
    · rw [if_neg hp] at hlive ⊢
      exact hJ.undecided t ht hlive
  · intro t' ht' hterm hout q hq hturn
    obtain ⟨t, ht, rfl⟩ := hmem t' ht'
    by_cases hp : p t = true
    · rw [if_pos hp] at hout hturn
      obtain ⟨hends, hpasses, -⟩ := hends t ht hp
      rw [hends.turnId] at hout hturn
      exact (hpasses.resolve_left hout) q hq hturn
    · rw [if_neg hp] at hterm hout hturn
      exact hJ.passes t ht hterm hout q hq hturn
  · intro t' ht' hterm hout b hb hturn
    obtain ⟨t, ht, rfl⟩ := hmem t' ht'
    by_cases hp : p t = true
    · rw [if_pos hp] at hout
      obtain ⟨hends, -, hT⟩ := hends t ht hp
      rw [hends.turnId] at hout
      exact absurd hT hout
    · rw [if_neg hp] at hterm hout hturn
      exact hJ.blocks t ht hterm hout b hb hturn
  · intro t ht outcome houtcome
    have hmem' : (if p t then f t else t) ∈ turns.rows := by
      rw [hturns]
      exact mem_map_of_mem ht
    refine ⟨_, hmem', ?_⟩
    by_cases hp : p t = true
    · rw [if_pos hp]
      exact ⟨(hends t ht hp).1.turnId, (hends t ht hp).1.kept outcome houtcome⟩
    · rw [if_neg hp]
      exact ⟨rfl, .inl rfl⟩

/-- The passes of the turns left out are completed. -/
theorem keeps_completePasses {p : PassRow → Bool} (hJ : Sound blockTurn S T J)
    (hS : ∀ q ∈ J.passes.rows, S q.turnId → p q = true) :
    Keeps blockTurn Nowhere T J (J.updatePasses p fun q => { q with state := .completed }) := by
  refine settles_bind (settles_self.mono (fun passes hpasses => settles_pure ?_) fun _ => id)
  refine ⟨{ hJ with passes := ?_ }, ⟨fun _ => id, (EndingsKept.refl J).kept⟩⟩
  intro t ht hterm _ q' hq' hturn
  obtain ⟨q, hq, rfl⟩ := (mem_update hpasses).1 hq'
  by_cases hp : p q = true
  · rw [if_pos hp]
    exact nofun
  · rw [if_neg hp] at hturn ⊢
    refine hJ.passes t ht hterm (fun hin => ?_) q hq hturn
    exact hp (hS q hq (hturn ▸ hin))

/-- The blocks of the turns left out are settled. -/
theorem keeps_settleTerminalTurnBlocks {scope : TurnRow → Bool} (hJ : Sound blockTurn S T J)
    (hT : ∀ t ∈ J.turns.rows, T t.turnId → scope t = true) :
    Keeps blockTurn S Nowhere J (J.settleTerminalTurnBlocks scope) := by
  refine settles_bind (settles_self.mono (fun blocks hblks => settles_pure ?_) fun _ => id)
  have hmem := fun b' (hb' : b' ∈ blocks.rows) => (mem_update hblks).1 hb'
  refine ⟨{ hJ with blocks := ?_, owned := ?_ }, ⟨fun _ => id, (EndingsKept.refl J).kept⟩⟩
  · intro t ht hterm _ b' hb' hturn hlive
    obtain ⟨b, hb, rfl⟩ := hmem b' hb'
    split at hlive
    · next hset =>
      -- A block that was settled is not live.
      exfalso
      split at hlive
      · next hnone =>
        rw [hnone] at hset
        cases hset
      · split at hlive <;> cases hlive
    · next hleft =>
      rw [if_neg hleft] at hturn ⊢
      by_cases hin : T t.turnId
      · by_contra houtlives
        refine hleft ?_
        have hfnd : J.turn t.turnId = some t := turn_eq_some ht
        have hown : b.payload.outlivesTurn = false := by simpa using houtlives
        rw [hturn, hfnd, any_some, hT t ht hin, hterm, hlive, hown]
        rfl
      · exact hJ.blocks t ht hterm hin b hb hturn hlive
  · intro b' hb'
    obtain ⟨b, hb, rfl⟩ := hmem b' hb'
    split
    · split <;> exact hJ.owned b hb
    · exact hJ.owned b hb

/-! ## Events -/

theorem TurnState.terminal_turnState (outcome : ProviderTurnOutcome) :
    outcome.turnState.terminal = true := by
  cases outcome <;> rfl

/-- What the end of a turn does to a turn that it completes. -/
theorem ends_of_completable {row : EventRow} (hundecided : J.Undecided) (hrow : row ∈ J.events.rows)
    (hev : row.envelope.event = .turnCompleted outcome)
    (hsc : row.envelope.scope.turnId = some turnId) (ht : t ∈ J.turns.rows)
    (hcompletable : t.completable turnId row.envelope.observedAt = true) {updatedAt : ℕ} :
    t.turnId = turnId ∧ TurnRow.Ends J.events.rows t { t with
      state := outcome.turnState, outcome := some outcome
      completedAt := some row.envelope.observedAt, updatedAt } := by
  unfold completable at hcompletable
  simp only [Bool.and_eq_true, Bool.or_eq_true, Bool.not_eq_true', beq_iff_eq] at hcompletable
  obtain ⟨hid, hst⟩ := hcompletable
  refine ⟨hid, ⟨rfl, TurnState.terminal_turnState outcome, fun old hold => .inr ?_⟩⟩
  rcases hst with hlive | ⟨hfail, htime⟩
  · rw [hundecided t ht hlive] at hold
    cases hold
  · obtain ⟨time, htime, hlt⟩ := (any_eq_true _ _).1 htime
    exact ⟨hfail, row, hrow, outcome, hev, hid ▸ hsc, ⟨time, htime, by simpa using hlt⟩,
      rfl, rfl, rfl⟩

/-- The end of a turn, by a recorded event. -/
theorem keeps_reduceTurnCompleted (hJ : Sound blockTurn Nowhere Nowhere J)
    (hrec : ∃ row ∈ J.events.rows, row.envelope = envelope)
    (hev : envelope.event = .turnCompleted outcome)
    (hsc : envelope.scope.turnId = some turnId) :
    Keeps blockTurn Nowhere Nowhere J
      (J.reduceTurnCompleted conversationId executionId turnId outcome envelope.observedAt) := by
  obtain ⟨row, hrow, rfl⟩ := hrec
  by_cases hcompl : J.turns.rows.any (·.completable turnId row.envelope.observedAt) = true
  · refine keeps_bind (S := (· = turnId)) (T := (· = turnId)) ?_ fun J₁ hJ₁ => ?_
    · refine keeps_endTurns (hJ.weaken (fun _ => False.elim) fun _ => False.elim) fun t ht hp => ?_
      obtain ⟨hid, hends⟩ := ends_of_completable hJ.undecided hrow hev hsc ht hp
      exact ⟨hends, .inl hid, hid⟩
    · rw [hcompl]
      refine keeps_bind (gently_updateConversationOfRoot.keeps hJ₁) fun J₂ hJ₂ => ?_
      refine keeps_bind (gently_updateExecutions.keeps hJ₂) fun J₃ hJ₃ => ?_
      refine keeps_bind (keeps_completePasses hJ₃ fun q _ hq => by simpa using hq) fun J₄ hJ₄ => ?_
      exact keeps_settleTerminalTurnBlocks hJ₄ fun t _ ht => by simpa using ht
  · rw [Bool.not_eq_true] at hcompl
    have hnone : ∀ t ∈ J.turns.rows, t.completable turnId row.envelope.observedAt = false := by
      simpa using hcompl
    refine keeps_bind (S := Nowhere) (T := Nowhere) ?_ fun J₁ hJ₁ => ?_
    · refine keeps_endTurns hJ fun t ht hp => ?_
      rw [hnone t ht] at hp
      cases hp
    · rw [hcompl]
      exact keeps_pure hJ₁

/-- A pass of a turn that has ended starts completed. -/
theorem passes_upsertPass {passes : Table PassRow} (hJ : Sound blockTurn Nowhere T J)
    (h : J.upsertPass turnId place = .ok passes) :
    ∀ t ∈ J.turns.rows, t.state.terminal = true →
      ∀ p ∈ passes.rows, p.turnId = t.turnId → p.state ≠ .streaming := by
  intro t ht hterm p hp hturn
  rcases upsert_cases h with ⟨-, hupd⟩ | ⟨-, hins⟩
  · obtain ⟨old, hold, rfl⟩ := (mem_update hupd).1 hp
    split at hturn <;> split
    all_goals first | contradiction | exact hJ.passes t ht hterm id old hold hturn
  · rcases (mem_insert hins).1 hp with hp | rfl
    · exact hJ.passes t ht hterm id p hp hturn
    · have hfnd : J.turn turnId = some t := by
        change turnId = t.turnId at hturn
        rw [hturn]
        exact turn_eq_some ht
      rw [hfnd, any_some, hterm]
      exact nofun

variable (hJ : Sound blockTurn Nowhere Nowhere J)
include hJ

/-- The rows of the event of a block: the block may be live in a turn that
has ended, but only where the event has changed it. -/
theorem keeps_upsertBlock {now : ℕ} (hown : blockTurn place.blockId = turnId) :
    Keeps blockTurn Nowhere (fun id => id = turnId ∧
        (!J.staleBlock place.blockId lifecycle.revision && block.state.live) = true) J
      (J.upsertBlock turnId lifecycle place block now) := by
  refine settles_require fun _ =>
    settles_bind (settles_self.mono (fun passes hpasses => ?_) fun _ => id)
  refine settles_bind (settles_self.mono (fun blocks hblks => settles_pure ?_) fun _ => id)
  have hpassesSettled := passes_upsertPass hJ hpasses
  refine ⟨⟨hJ.undecided, fun t ht hterm _ => hpassesSettled t ht hterm, ?_, ?_, hJ.recorded⟩,
    ⟨fun _ => id, (EndingsKept.refl J).kept⟩⟩
  · intro t ht hterm hout b hb hturn hlive
    unfold Journal.upsertBlockRow at hblks
    split at hblks
    · cases hblks
      exact hJ.blocks t ht hterm id b hb hturn hlive
    · next hstale =>
      -- A row that the event wrote is of its turn, so that it is not live.
      have hwr : ∀ new : BlockRow, new.turnId = turnId → new.state = block.state →
          new.turnId = t.turnId → new.state.live = true → new.payload.outlivesTurn = true := by
        intro new hnew hst hturn hlive
        refine absurd ⟨hturn.symm.trans hnew, ?_⟩ hout
        rw [← hst, hlive, Bool.not_eq_true] at *
        rw [hstale]
        rfl
      rcases upsert_cases hblks with ⟨-, hupd⟩ | ⟨-, hins⟩
      · obtain ⟨old, hold, rfl⟩ := (mem_update hupd).1 hb
        split at hturn <;> split at hlive
        all_goals first | contradiction | skip
        · next hid _ =>
          have hold' := hJ.owned old hold
          rw [beq_iff_eq.1 hid, hown] at hold'
          rw [if_pos hid]
          exact hwr _ hold'.symm rfl hturn hlive
        · next hid _ =>
          rw [if_neg hid]
          exact hJ.blocks t ht hterm id old hold hturn hlive
      · rcases (mem_insert hins).1 hb with hb | rfl
        · exact hJ.blocks t ht hterm id b hb hturn hlive
        · exact hwr _ rfl rfl hturn hlive
  · intro b hb
    unfold Journal.upsertBlockRow at hblks
    split at hblks
    · cases hblks
      exact hJ.owned b hb
    · rcases upsert_cases hblks with ⟨-, hupd⟩ | ⟨-, hins⟩
      · obtain ⟨old, hold, rfl⟩ := (mem_update hupd).1 hb
        split <;> exact hJ.owned old hold
      · rcases (mem_insert hins).1 hb with hb | rfl
        · exact hJ.owned b hb
        · exact hown

/-- **The event of a block** reopens nothing: what it leaves live in a turn
that has ended is settled. -/
theorem keeps_reduceTurnBlock (hown : blockTurn place.blockId = turnId) :
    Keeps blockTurn Nowhere Nowhere J
      (J.reduceTurnBlock envelope conversationId executionId turnId lifecycle place block) := by
  refine keeps_bind (keeps_upsertBlock hJ hown) fun J₁ hJ₁ => ?_
  refine keeps_bind (S := Nowhere) (T := Nowhere) ?_ fun J₂ hJ₂ => ?_
  · by_cases hopened : (!J.staleBlock place.blockId lifecycle.revision && block.state.live) = true
    · rw [if_pos hopened]
      exact keeps_settleTerminalTurnBlocks hJ₁ fun t _ ht => by simpa using ht.1
    · rw [if_neg hopened]
      exact keeps_pure (hJ₁.weaken (fun _ => id) fun _ hin => hopened hin.2)
  · refine (gently_bind (gently_ite (fun _ => gently_reduceChildBlock) fun _ => gently_pure .refl)
      fun J₃ _ => ?_).keeps hJ₂
    split
    · exact gently_touchTurn
    · exact gently_touchTurn
    · exact gently_pure .refl

/-- **Reducing an event** keeps the endings; the end of a turn has to be a
recorded one. -/
theorem keeps_reduceEvent (hown : ownsBlock blockTurn envelope = true)
    (hrec : envelope.isTurnBlock = false → ∃ row ∈ J.events.rows, row.envelope = envelope) :
    Keeps blockTurn Nowhere Nowhere J (J.reduceEvent envelope) := by
  unfold reduceEvent
  split
  · next conversationId executionId _ _ =>
    refine settles_bind (gently_bindTurnOf.mono (fun J₁ hgentle => ?_) fun _ _ => trivial)
    have hJ₁ := hgentle.sound hJ
    have hkept := hgentle.endingsKept hJ.undecided
    refine Settles.mono (Q := fun J' => Sound blockTurn Nowhere Nowhere J' ∧ EndingsKept J₁ J')
      (E := fun _ => True) ?_ (fun J' hJ' => ⟨hJ'.1, hkept.trans hJ'.2⟩) fun _ => id
    by_cases hcompl : ∃ outcome, envelope.event = .turnCompleted outcome
    · obtain ⟨outcome, hev⟩ := hcompl
      have hnot : envelope.isTurnBlock = false := by
        unfold isTurnBlock
        rw [hev]
      have hrec' : ∃ row ∈ J₁.events.rows, row.envelope = envelope := by
        rw [hgentle.events]
        exact hrec hnot
      unfold reduceByType
      rw [hev]
      split <;> first | contradiction | skip
      · next hev' hsc =>
        cases hev'
        exact keeps_reduceTurnCompleted hJ₁ hrec' hev (by rw [hsc]; rfl)
      · exact keeps_pure hJ₁
    · cases hblk : envelope.turnScopedBlock with
      | none =>
        have hnot : envelope.isTurnBlock = false := by rw [isTurnBlock_eq_isSome, hblk]; rfl
        exact (gently_reduceByType (fun outcome h => hcompl ⟨outcome, h⟩) hnot).keeps hJ₁
      | some event =>
        unfold ownsBlock at hown
        rw [hblk] at hown
        obtain ⟨_, _, _, hsc⟩ := event.scope_eq
        have hev := event.event_eq
        rw [turnScopedBlock_eq_some hblk] at hsc hev
        unfold reduceByType
        rw [hev, hsc]
        exact keeps_reduceTurnBlock hJ₁ (by simpa using hown)
  · exact keeps_pure hJ

omit hJ

/-! ## Appending -/

theorem ownsBlock_of_not_block (h : envelope.isTurnBlock = false) :
    ownsBlock blockTurn envelope = true := by
  rw [isTurnBlock_eq_isSome, isSome_eq_false_iff, isNone_iff_eq_none] at h
  unfold ownsBlock
  rw [h]

/-- The place of a block is not whose it is. -/
theorem ownsBlock_withBlockStructure {passId : String} {passOrdinal blockOrdinal : ℕ}
    (h : ownsBlock blockTurn envelope = true) :
    ownsBlock blockTurn (envelope.withBlockStructure passId passOrdinal blockOrdinal) = true := by
  cases hblk : envelope.turnScopedBlock with
  | none =>
    have hnot : envelope.isTurnBlock = false := by rw [isTurnBlock_eq_isSome, hblk]; rfl
    have hsame : envelope.withBlockStructure passId passOrdinal blockOrdinal = envelope := by
      unfold withBlockStructure
      split
      · next hev =>
        unfold isTurnBlock at hnot
        rw [hev] at hnot
        cases hnot
      · rfl
    rw [hsame]
    exact h
  | some event =>
    obtain ⟨event', hev', hturn, -, -, hplc⟩ :=
      turnScopedBlock_withBlockStructure hblk passId passOrdinal blockOrdinal
    unfold ownsBlock at h ⊢
    rw [hblk] at h
    rw [hev']
    dsimp only at h ⊢
    rw [hplc, hturn]
    exact h

theorem ownsBlock_canonicalize (h : ownsBlock blockTurn envelope = true) :
    ownsBlock blockTurn (J.canonicalizeTurnBlockPlacement envelope) = true := by
  unfold canonicalizeTurnBlockPlacement
  split
  · exact ownsBlock_withBlockStructure h
  · exact h

/-- An event is recorded. -/
theorem sound_record {events : Table EventRow} (hJ : Sound blockTurn S T J)
    (hown : ownsBlock blockTurn envelope = true)
    (hevs : events.rows = J.events.rows ++ [⟨envelope⟩]) :
    Sound blockTurn S T { J with events } ∧ EndingsKept J { J with events } := by
  refine ⟨{ hJ with recorded := fun row hrow => ?_ }, ⟨fun row hrow => ?_, ?_⟩⟩
  · rw [hevs] at hrow
    rcases mem_concat.1 hrow with hrow | rfl
    · exact hJ.recorded row hrow
    · exact hown
  · rw [hevs]
    exact mem_append_left _ hrow
  · exact fun t ht _ _ => ⟨t, ht, rfl, .inl rfl⟩

/-- What an append returns, as an operation. -/
def KeepsFst {β : Type} (blockTurn : String → String) (J : Journal)
    (x : Except StoreError (Journal × β)) : Prop :=
  Settles x (fun result => Sound blockTurn Nowhere Nowhere result.1 ∧ EndingsKept J result.1)
    fun _ => True

include hJ

theorem keeps_insertProviderEventRow (hown : ownsBlock blockTurn envelope = true) :
    KeepsFst blockTurn J (J.insertProviderEventRow envelope) := by
  refine settles_insertProviderEventRow.mono ?_ fun _ _ => trivial
  rintro result (⟨rfl, -⟩ | ⟨events, hevs, rfl⟩)
  · exact ⟨hJ, .refl J⟩
  · exact sound_record hJ hown hevs

/-- **One append keeps the endings.** -/
theorem keeps_appendProviderEventInTransaction {candidate : ProviderEventEnvelope}
    (hown : ownsBlock blockTurn candidate = true) :
    KeepsFst blockTurn J (J.appendProviderEventInTransaction candidate) := by
  refine settles_bind (settles_canonicalizeCompactionEnvelope.mono ?_ fun _ _ => trivial)
  rintro ⟨first, envelope⟩ ⟨hfst, henv⟩
  have hown' : ownsBlock blockTurn envelope = true := by
    rcases henv with rfl | ⟨-, hblk⟩
    · exact hown
    · exact ownsBlock_of_not_block hblk
  refine settles_bind (gently_ensureNativeProviderTurn.mono (fun second hsecond => ?_)
    fun _ _ => trivial)
  have hgentle := hfst.trans hsecond
  have hsnd := hgentle.sound hJ
  have hkept := hgentle.endingsKept hJ.undecided
  have hown'' := ownsBlock_canonicalize (J := first) hown'
  refine settles_ite (fun _ => settles_pure ⟨hsnd, hkept⟩) fun _ => ?_
  refine settles_bind (settles_insertProviderEventRow.mono ?_ fun _ _ => trivial)
  rintro ⟨recorded, inserted⟩ (⟨heq, -⟩ | ⟨events, hevs, heq⟩)
  · cases heq
    exact settles_pure ⟨hsnd, hkept⟩
  · cases heq
    obtain ⟨hrec, hkept'⟩ := sound_record hsnd hown'' hevs
    have hmem : ∃ row ∈ events.rows,
      row.envelope = first.canonicalizeTurnBlockPlacement envelope := by
      rw [hevs]
      exact ⟨_, List.mem_concat_self, rfl⟩
    refine settles_bind ((keeps_reduceEvent hrec hown'' fun _ => hmem).mono
      (fun J' hJ' => settles_pure ?_) fun _ => id)
    exact ⟨hJ'.1, hkept.trans (hkept'.trans hJ'.2)⟩

/-- **A batch keeps the endings**: by induction on it. -/
theorem keeps_appendProviderEvents
    (hown : ∀ envelope ∈ envelopes, ownsBlock blockTurn envelope = true) :
    KeepsFst blockTurn J (J.appendProviderEvents envelopes) := by
  induction envelopes generalizing J with
  | nil => exact settles_pure ⟨hJ, .refl J⟩
  | cons envelope rest ih =>
    refine settles_bind ((keeps_appendProviderEventInTransaction hJ
      (hown envelope mem_cons_self)).mono ?_ fun _ => id)
    rintro ⟨J₁, inserted⟩ ⟨hJ₁, hkept₁⟩
    refine settles_bind ((ih hJ₁ fun e he => hown e (mem_cons_of_mem _ he)).mono ?_ fun _ => id)
    rintro ⟨J₂, later⟩ ⟨hJ₂, hkept₂⟩
    exact settles_pure ⟨hJ₂, hkept₁.trans hkept₂⟩

omit hJ

/-! ## A snapshot -/

include hJ

/-- Passes and blocks may go. -/
theorem sound_deletePasses : Sound blockTurn Nowhere Nowhere (J.deletePasses turnId) where
  __ := hJ
  passes t ht hterm hout p hp := hJ.passes t ht hterm hout p (mem_delete.1 hp).1
  blocks t ht hterm hout b hb := hJ.blocks t ht hterm hout b (mem_delete.1 hb).1
  owned b hb := hJ.owned b (mem_delete.1 hb).1

/-- Passes that are deleted keep the endings. -/
theorem keeps_foldl_deletePasses : Sound blockTurn Nowhere Nowhere (turnIds.foldl deletePasses J) ∧
      EndingsKept J (turnIds.foldl deletePasses J) := by
  induction turnIds generalizing J with
  | nil => exact ⟨hJ, .refl J⟩
  | cons turnId rest ih =>
    obtain ⟨hrest, hkept⟩ := ih (sound_deletePasses hJ)
    have hfst : EndingsKept J (J.deletePasses turnId) :=
      ⟨fun _ => id, fun t ht _ _ => ⟨t, ht, rfl, .inl rfl⟩⟩
    exact ⟨hrest, hfst.trans hkept⟩

variable {events : List ProviderEventEnvelope}

/-- A snapshot of a journal's own blocks keeps the endings. -/
theorem keeps_appendSnapshot (hown : ∀ envelope ∈ events, ownsBlock blockTurn envelope = true) :
    KeepsFst blockTurn J (J.appendSnapshot turnIds events) := by
  induction events generalizing J with
  | nil => exact settles_pure ⟨hJ, .refl J⟩
  | cons envelope rest ih =>
    have hown' := hown envelope mem_cons_self
    have hfst : KeepsFst blockTurn J
        (if envelope.turnScopedBlock.any fun event => turnIds.contains event.turnId then
          J.insertProviderEventRow envelope
        else J.appendProviderEventInTransaction envelope) :=
      settles_ite (fun _ => keeps_insertProviderEventRow hJ hown') fun _ =>
        keeps_appendProviderEventInTransaction hJ hown'
    refine settles_bind (hfst.mono ?_ fun _ => id)
    rintro ⟨J₁, inserted⟩ ⟨hJ₁, hkept₁⟩
    refine settles_bind ((ih hJ₁ fun e he => hown e (mem_cons_of_mem _ he)).mono ?_ fun _ => id)
    rintro ⟨J₂, count⟩ ⟨hJ₂, hkept₂⟩
    exact settles_pure ⟨hJ₂, hkept₁.trans hkept₂⟩

theorem keeps_reduceEvents

    (hown : ∀ envelope ∈ envelopes, ownsBlock blockTurn envelope = true ∧
      envelope.isTurnBlock = true) :

    Keeps blockTurn Nowhere Nowhere J (J.reduceEvents envelopes) := by
  induction envelopes generalizing J with
  | nil => exact keeps_pure hJ
  | cons envelope rest ih =>
    obtain ⟨hfst, hblk⟩ := hown envelope mem_cons_self
    refine keeps_bind (keeps_reduceEvent hJ hfst fun hnot => ?_) fun J₁ hJ₁ => ?_
    · rw [hblk] at hnot
      cases hnot
    · exact ih hJ₁ fun e he => hown e (mem_cons_of_mem _ he)

/-- The merged events of a turn are about its own blocks. -/
theorem ownsBlock_mergedSnapshotBlockEvents
    (hown : ∀ envelope ∈ events, ownsBlock blockTurn envelope = true) :
    ∀ envelope ∈ J.mergedSnapshotBlockEvents turnId
        ((snapshotBlockEvents events).filter (·.turnId == turnId)) completeKinds,
      ownsBlock blockTurn envelope = true ∧ envelope.isTurnBlock = true := by
  intro envelope henv
  obtain ⟨event, place, hev, -, passOrdinal, blockOrdinal, rfl⟩ :=
    placedFrom_mergedSnapshotBlockEvents envelope henv
  refine ⟨ownsBlock_withBlockStructure ?_, ?_⟩
  · rcases hev with hev | hev
    · obtain ⟨source, hsrc, hblk⟩ := mem_filterMap.1 (mem_filter.1 hev).1
      rw [turnScopedBlock_eq_some hblk]
      exact hown source (mem_filter.1 hsrc).1
    · obtain ⟨row, hrow, heq⟩ := hev.recorded
      exact heq ▸ hJ.recorded row hrow
  · obtain ⟨event', hev', -⟩ := turnScopedBlock_withBlockStructure
      (turnScopedBlock_eq event) place.place.passId passOrdinal blockOrdinal
    rw [isTurnBlock_eq_isSome, hev']
    rfl

/-- Turns built again keep the endings. -/
theorem keeps_rebuildTurns (hown : ∀ envelope ∈ events, ownsBlock blockTurn envelope = true) :
    Keeps blockTurn Nowhere Nowhere J (rebuildTurns events completeKinds J turnIds) := by
  induction turnIds generalizing J with
  | nil => exact keeps_pure hJ
  | cons turnId rest ih =>
    refine keeps_bind ?_ fun J₁ hJ₁ => ih hJ₁
    refine keeps_bind (keeps_reduceEvents hJ (ownsBlock_mergedSnapshotBlockEvents hJ hown))
      fun J₁ hJ₁ => ?_
    exact settles_ite (fun _ => keeps_completePasses hJ₁ fun _ _ => False.elim) fun _ =>
      keeps_pure hJ₁

/-- **A snapshot keeps the endings.** -/
theorem keeps_replaceSnapshot (hown : ∀ envelope ∈ events, ownsBlock blockTurn envelope = true) :
    KeepsFst blockTurn J (J.replaceSnapshot events completeKinds) := by
  refine settles_bind ((gently_importTurns.keeps hJ).mono ?_ fun _ => id)
  rintro imported ⟨himported, hkept⟩
  obtain ⟨hdeleted, hkeptDeleted⟩ :=
    keeps_foldl_deletePasses himported
  refine settles_bind ((keeps_appendSnapshot hdeleted hown).mono ?_ fun _ => id)
  rintro ⟨appended, count⟩ ⟨happended, hkeptAppended⟩
  refine settles_bind ((keeps_rebuildTurns happended hown).mono ?_ fun _ => id)
  rintro rebuilt ⟨hrebuilt, hkeptRebuilt⟩
  exact settles_pure ⟨hrebuilt, hkept.trans (hkeptDeleted.trans (hkeptAppended.trans hkeptRebuilt))⟩

omit hJ

end Remux.Journal
