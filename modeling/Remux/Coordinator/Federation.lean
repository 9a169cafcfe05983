import Mathlib.Data.List.Perm.Basic
import Remux.Coordinator.Model.Federation

/-!
# A completion is announced once

The completion of a federated execution reaches those who wait for it, or
else is enqueued as a notification (`Announced`), in every run that keeps
clear of these: a spawn that fails while somebody waits for its execution,
a Stop whose reconciliation journals its end, a session that is opened or
reports itself ready when no turn runs and nothing is left to finalize, the
effects of a completed turn that are lost, and a wait for an execution that
runs again after its latest turn was notified of. The first two end the
execution without finalizing it, as the other paths do.
-/

namespace Remux

open Option (ite_none_right_eq_some map_eq_some_iff)
open List

namespace Coordinator

namespace FederatedChild

/-! ## The latest turn -/

variable {turns : List ChildTurn} {turn latest : ChildTurn}

theorem latestOf_concat : latestOf (turns ++ [turn]) = match latestOf turns with
      | none => some turn
      | some latest => if latest.createdAt ≤ turn.createdAt then some turn else some latest := by
  rw [latestOf, foldl_append]
  rfl

/-- A new turn is the latest, or the latest stays. -/
theorem latestOf_concat_cases :
    latestOf (turns ++ [turn]) = some turn ∨ latestOf (turns ++ [turn]) = latestOf turns := by
  rw [latestOf_concat]
  split
  · exact .inl rfl
  · next latest heq =>
    split
    · exact .inl rfl
    · exact .inr heq.symm

/-- The latest turn is one of the turns. -/
theorem latestOf_mem : latestOf turns = some latest → latest ∈ turns := by
  induction turns using reverseRecOn with
  | nil => exact nofun
  | append_singleton turns turn ih =>
    intro h
    rcases latestOf_concat_cases with heq | heq
    · cases heq.symm.trans h
      exact mem_concat_self
    · exact mem_append_left _ (ih (heq ▸ h))

/-- What changes a turn's state leaves which one is the latest. -/
theorem latestOf_map {f : ChildTurn → ChildTurn}
    (hf : ∀ turn, (f turn).createdAt = turn.createdAt) :
    latestOf (turns.map f) = (latestOf turns).map f := by
  induction turns using reverseRecOn with
  | nil => rfl
  | append_singleton turns turn ih =>
    rw [map_append, map_singleton, latestOf_concat, latestOf_concat, ih]
    cases latestOf turns with
    | none => rfl
    | some latest =>
      simp only [Option.map_some, hf]
      split <;> rfl

/-! ## Statements -/

variable (c : FederatedChild)

/-- The ids of the turns. -/
def turnIds : List String := c.turns.map ChildTurn.turnId

/-- The id of the latest turn. -/
def latestId : Option String := c.latestTurn.map ChildTurn.turnId

/-- Something under way will finalize the execution, or start its turn. -/
def Finalizing : Prop := 0 < c.effects ∨ 0 < c.recoveries ∨ c.spawning = some .opening

instance : Decidable c.Finalizing := inferInstanceAs (Decidable (_ ∨ _ ∨ _))

/-- **A completion is announced once**: to those who wait for it, or by a
notification. -/
structure Announced : Prop where
  /-- A turn is notified of at most once. -/
  once : c.notifications.Nodup
  /-- A completion that resolved a waiter is not notified of. -/
  either : ∀ turnId ∈ c.notifications, ∀ waiter, (waiter, some turnId) ∉ c.resolved
  /-- Every wait is in one place: resolved, answered at once, aborted, ended
  by a restart, or waiting. -/
  ledger : (c.resolved.map Prod.fst ++ (c.answered ++ (c.aborted ++ (c.dropped ++
    c.executionWaiters)))).Perm (range c.nextWaiter)
  /-- Nobody waits for a completion that is there, when nothing is under way
  that finalizes it. -/
  resolves : c.executionWaiters ≠ [] → c.status = .running ∨ c.Finalizing
  /-- A wait for a completion that is there does not begin. -/
  visible : ∀ aborted, c.status ≠ .running →
    (c.wait aborted).executionWaiters = c.executionWaiters ∧
      (c.wait aborted).answered = c.answered ++ [c.nextWaiter]

/-- **The condition**: while somebody waits that nothing will resolve, no
spawn fails, no Stop's reconciliation ends the one turn that runs, no
session is opened or ready without a turn, and no effects are lost; and
nobody begins to wait for a turn that was notified of. -/
def Resolves : ChildAction → Prop
  | .spawnFailed => c.executionWaiters = []
  | .snapshotTurn turnId _ later => c.executionWaiters = [] ∨ c.Finalizing ∨
      (∀ turn ∈ c.turns, turn.turnId = turnId → completable turn later = false) ∨
      ∃ turn ∈ c.turns, turn.turnId ≠ turnId ∧ turn.state.live = true
  | .bindSession =>
    c.executionWaiters = [] ∨ c.active = true ∨ c.state ≠ .recovering ∨ c.Finalizing
  | .effectLost => c.executionWaiters = [] ∨ c.status = .running ∨ 1 < c.effects ∨
      0 < c.recoveries ∨ c.spawning = some .opening
  | .health true => c.executionWaiters = [] ∨ c.active = true ∨ c.state.live = false ∨ c.Finalizing
  | .wait _ => c.status = .running → ∀ turnId ∈ c.latestId, turnId ∉ c.notifications
  | _ => True

instance (action : ChildAction) : Decidable (c.Resolves action) := by
  unfold Resolves
  split <;> infer_instance

end FederatedChild

open FederatedChild

/-- The condition, of an action of the coordinator. -/
def ResolvesWaiters (s : String → FederatedChild) : FederationAction → Prop
  | .child executionId action => (s executionId).Resolves action
  | .restart => True

instance (s : String → FederatedChild) (action : FederationAction) :
    Decidable (ResolvesWaiters s action) := by
  unfold ResolvesWaiters
  split <;> infer_instance

namespace FederatedChild

variable {c c' : FederatedChild} {turnId : String} {now : ℕ}

/-! ## The books -/

/-- What was announced, and to whom. -/
structure Books (c : FederatedChild) : Prop where
  known : ∀ id ∈ c.notifications, id ∈ c.turnIds
  resolvedOf : ∀ waiter id, (waiter, some id) ∈ c.resolved → id ∈ c.turnIds
  /-- The latest turn is marked when it was announced. -/
  marked : ∀ id ∈ c.latestId,
    (id ∈ c.notifications ∨ ∃ waiter, (waiter, some id) ∈ c.resolved) →
      c.federationNotifiedTurnId = some id
  once : c.notifications.Nodup
  either : ∀ id ∈ c.notifications, ∀ waiter, (waiter, some id) ∉ c.resolved
  /-- Nobody waits for a turn that was notified of. -/
  unannounced : c.executionWaiters ≠ [] → ∀ id ∈ c.latestId, id ∉ c.notifications
  ledger : (c.resolved.map Prod.fst ++ (c.answered ++ (c.aborted ++ (c.dropped ++
    c.executionWaiters)))).Perm (range c.nextWaiter)

/-- Two executions with the same books. -/
structure SameBooks (c c' : FederatedChild) : Prop where
  turnIds : c'.turnIds = c.turnIds
  latestId : c'.latestId = c.latestId
  notified : c'.federationNotifiedTurnId = c.federationNotifiedTurnId
  notifications : c'.notifications = c.notifications
  waiters : c'.executionWaiters = c.executionWaiters
  resolved : c'.resolved = c.resolved
  answered : c'.answered = c.answered
  aborted : c'.aborted = c.aborted
  dropped : c'.dropped = c.dropped
  nextWaiter : c'.nextWaiter = c.nextWaiter

/-- The books are kept by what leaves their entries. -/
theorem Books.of_same (h : Books c) (hsame : SameBooks c c') : Books c' := by
  obtain ⟨h₁, h₂, h₃, h₄, h₅, h₆, h₇, h₈, h₉, h₁₀⟩ := hsame
  constructor
  · rw [h₁, h₄]
    exact h.known
  · rw [h₁, h₆]
    exact h.resolvedOf
  · rw [h₂, h₃, h₄, h₆]
    exact h.marked
  · rw [h₄]
    exact h.once
  · rw [h₄, h₆]
    exact h.either
  · rw [h₂, h₄, h₅]
    exact h.unannounced
  · rw [h₅, h₆, h₇, h₈, h₉, h₁₀]
    exact h.ledger

variable {waited : Bool} {outcome : Option Journal.ProviderTurnOutcome}

variable {state : Journal.ProviderExecutionState}

/-- What else the process and the row have is not in the books. -/
theorem Books.carry {closed : Bool} {spawning : Option SpawnPhase}
    {dispatching : List String} {effects recoveries reconciles : ℕ} (h : Books c) :
    Books { c with
      state, outcome, closed, spawning, dispatching, effects, recoveries, reconciles
      federationWaited := waited } :=
  h.of_same ⟨rfl, rfl, rfl, rfl, rfl, rfl, rfl, rfl, rfl, rfl⟩

theorem SameBooks.refl : SameBooks c c := ⟨rfl, rfl, rfl, rfl, rfl, rfl, rfl, rfl, rfl, rfl⟩

/-- The states of turns and of the execution are not in the books. -/
theorem sameBooks_map {f : ChildTurn → ChildTurn} {closed : Bool}
    (hid : ∀ turn, (f turn).turnId = turn.turnId)
    (hmade : ∀ turn, (f turn).createdAt = turn.createdAt) :
    SameBooks c { c with turns := c.turns.map f, state, outcome, closed } where
  turnIds := by
    rw [turnIds, map_map]
    exact map_congr_left fun turn _ => hid turn
  latestId := by
    show (latestOf (c.turns.map f)).map _ = _
    rw [latestOf_map hmade, Option.map_map, latestId, latestTurn]
    exact congrArg (fun g => (latestOf c.turns).map g) (funext hid)
  notified := rfl
  notifications := rfl
  waiters := rfl
  resolved := rfl
  answered := rfl
  aborted := rfl
  dropped := rfl
  nextWaiter := rfl

theorem latestId_mem (h : c.latestId = some turnId) : turnId ∈ c.turnIds := by
  obtain ⟨latest, hlatest, rfl⟩ := map_eq_some_iff.1 h
  exact mem_map_of_mem (latestOf_mem hlatest)

/-- What an execution is running by. -/
theorem status_running_iff : c.status = .running ↔ c.active = true ∨ c.state.live = true := by
  have hlive : (c.state = .running ∨ c.state = .recovering) ↔ c.state.live = true := by
    cases c.state <;> decide
  rw [status]
  split
  · next h => exact ⟨fun _ => h.imp_right hlive.1, fun _ => rfl⟩
  · next h =>
    refine ⟨fun hrun => ?_, fun hor => absurd (hor.imp_right hlive.2) h⟩
    split at hrun <;> cases hrun

/-! ## What the operations keep -/

/-- A turn that is created keeps the books. -/
theorem Books.createTurn (h : Books c) (hcreate : c.createTurn turnId now = some c') :
    Books c' := by
  unfold FederatedChild.createTurn at hcreate
  split at hcreate
  · cases hcreate
  next hnew =>
  cases hcreate
  generalize hturn : (⟨turnId, now, .running, none⟩ : ChildTurn) = turn
  obtain rfl : turn.turnId = turnId := hturn ▸ rfl
  have hids : ∀ id ∈ c.turnIds, id ∈ (c.turns ++ [turn]).map ChildTurn.turnId := by
    intro id hmem
    rw [map_append]
    exact mem_append_left _ hmem
  -- the new turn was not announced, and another latest one is the same
  have hlatest : ∀ id ∈ (latestOf (c.turns ++ [turn])).map ChildTurn.turnId,
      id = turn.turnId ∨ id ∈ c.latestId := by
    intro id hid
    rcases latestOf_concat_cases with heq | heq
    · rw [heq] at hid
      exact .inl (Option.some.inj hid).symm
    · rw [heq] at hid
      exact .inr hid
  constructor
  · exact fun id hmem => hids id (h.known id hmem)
  · exact fun waiter id hmem => hids id (h.resolvedOf waiter id hmem)
  · intro id hid hann
    rcases hlatest id hid with rfl | hid
    · rcases hann with hmem | ⟨waiter, hmem⟩
      · exact absurd (h.known _ hmem) hnew
      · exact absurd (h.resolvedOf waiter _ hmem) hnew
    · exact h.marked id hid hann
  · exact h.once
  · exact h.either
  · intro hwaiters id hid hmem
    rcases hlatest id hid with rfl | hid
    · exact hnew (h.known _ hmem)
    · exact h.unannounced hwaiters id hid hmem
  · exact h.ledger

/-- What is announced, and that it is marked. -/
theorem announce_spec (c : FederatedChild) : (c.announce.notifications = c.notifications ∨
      ∃ id, c.latestId = some id ∧ c.federationNotifiedTurnId ≠ some id ∧ c.executionWaiters = [] ∧
        c.announce.notifications = c.notifications ++ [id]) ∧
      ∀ id ∈ c.latestId, c.announce.federationNotifiedTurnId = some id := by
  unfold announce latestId
  cases hlatest : c.latestTurn with
  | none => exact ⟨.inl rfl, nofun⟩
  | some latest =>
    dsimp only
    split
    · next hmark =>
      refine ⟨.inl rfl, ?_⟩
      rintro id ⟨rfl⟩
      exact hmark
    · next hunmarked =>
      refine ⟨?_, ?_⟩
      · by_cases hnotify : c.executionWaiters = [] ∧ c.claudeRoot = true ∧
            (c.foreground = true ∨ c.federationWaited = true)
        · exact .inr ⟨latest.turnId, rfl, hunmarked, hnotify.1, if_pos hnotify⟩
        · exact .inl (if_neg hnotify)
      · rintro id ⟨rfl⟩
        rfl

/-- The announcement leaves everything else. -/
theorem announce_eq (c : FederatedChild) : c.announce = { c with
    federationNotifiedTurnId := c.announce.federationNotifiedTurnId
    notifications := c.announce.notifications } := by
  unfold announce
  split
  · rfl
  · split <;> rfl

theorem finalize_eq (h : c.status ≠ .running) : c.finalize = { c with
    federationNotifiedTurnId := c.announce.federationNotifiedTurnId
    notifications := c.announce.notifications
    executionWaiters := []
    resolved := c.resolved ++ c.executionWaiters.map fun waiter => (waiter, c.latestId) } := by
  rw [finalize, if_neg h, announce_eq]
  rfl

/-- **To finalize an execution** keeps the books: its waiters are resolved,
or its latest turn is notified of. -/
theorem Books.finalize (h : Books c) : Books c.finalize := by
  by_cases hrun : c.status = .running
  · rw [FederatedChild.finalize, if_pos hrun]
    exact h
  rw [finalize_eq hrun]
  obtain ⟨hnotes, hmark⟩ := announce_spec c
  have hmem : ∀ id ∈ c.announce.notifications, id ∈ c.notifications ∨
      id ∈ c.latestId ∧ c.federationNotifiedTurnId ≠ some id ∧ c.executionWaiters = [] := by
    intro id hid
    rcases hnotes with heq | ⟨latest, hlatest, hunmarked, hnil, heq⟩
    · exact .inl (heq ▸ hid)
    · rw [heq] at hid
      rcases mem_concat.1 hid with hid | rfl
      · exact .inl hid
      · exact .inr ⟨hlatest, hunmarked, hnil⟩
  have hresolved : ∀ waiter id, (waiter, some id) ∈ c.resolved ++
      c.executionWaiters.map (fun waiter => (waiter, c.latestId)) →
      (waiter, some id) ∈ c.resolved ∨ id ∈ c.latestId ∧ c.executionWaiters ≠ [] := by
    intro waiter id hid
    rcases mem_append.1 hid with hid | hid
    · exact .inl hid
    · obtain ⟨waiter', hwaiter, heq⟩ := mem_map.1 hid
      exact .inr ⟨(Prod.ext_iff.1 heq).2, ne_nil_of_mem hwaiter⟩
  constructor
  · intro id hid
    rcases hmem id hid with hid | ⟨hid, -⟩
    · exact h.known id hid
    · exact latestId_mem hid
  · intro waiter id hid
    rcases hresolved waiter id hid with hid | ⟨hid, -⟩
    · exact h.resolvedOf waiter id hid
    · exact latestId_mem hid
  · exact fun id hid _ => hmark id hid
  · rcases hnotes with heq | ⟨latest, hlatest, hunmarked, -, heq⟩
    · exact heq ▸ h.once
    · rw [heq]
      refine Nodup.append h.once (nodup_singleton _) ?_
      intro id hid hid'
      obtain rfl := mem_singleton.1 hid'
      exact hunmarked (h.marked id hlatest (.inl hid))
  · intro id hid waiter hwaiter
    rcases hmem id hid with hid | ⟨hlatest, hunmarked, hnil⟩
    · rcases hresolved waiter id hwaiter with hwaiter | ⟨hlatest, hne⟩
      · exact h.either id hid waiter hwaiter
      · exact h.unannounced hne id hlatest hid
    · rcases hresolved waiter id hwaiter with hwaiter | ⟨-, hne⟩
      · exact hunmarked (h.marked id hlatest (.inr ⟨waiter, hwaiter⟩))
      · exact hne hnil
  · exact fun hne => absurd rfl hne
  · refine Perm.trans ?_ h.ledger
    show ((c.resolved ++ c.executionWaiters.map fun waiter => (waiter, c.latestId)).map Prod.fst ++
      (c.answered ++ (c.aborted ++ (c.dropped ++ [])))).Perm _
    rw [map_append, map_map, append_nil, append_assoc]
    refine Perm.append_left _ ?_
    rw [show (Prod.fst ∘ fun waiter => (waiter, c.latestId)) = id from rfl, map_id]
    refine perm_append_comm.trans ?_
    simp only [append_assoc]
    exact Perm.refl _

variable {aborted : Bool}

theorem wait_of_not_running (h : c.status ≠ .running) : c.wait aborted = { c with
      federationWaited := true
      nextWaiter := c.nextWaiter + 1
      answered := c.answered ++ [c.nextWaiter] } := by
  rw [wait]
  exact if_pos h

/-- A wait for a running execution leaves a waiter. -/
theorem wait_of_running (h : c.status = .running) : c.wait aborted = { c with
      federationWaited := true
      nextWaiter := c.nextWaiter + 1
      executionWaiters :=
        if aborted then (c.executionWaiters ++ [c.nextWaiter]).erase c.nextWaiter
        else c.executionWaiters ++ [c.nextWaiter]
      aborted := if aborted then c.aborted ++ [c.nextWaiter] else c.aborted } := by
  cases aborted with
  | true =>
    rw [wait]
    exact (if_neg (not_not_intro h)).trans (if_neg (not_not_intro h))
  | false =>
    exact (if_neg (not_not_intro h)).trans (if_neg (not_not_intro h))

/-- The books, when only the waits change. -/
theorem Books.of_waits {executionWaiters answered aborted dropped : List ℕ} {nextWaiter : ℕ}
    (h : Books c) (hunann : executionWaiters ≠ [] → ∀ id ∈ c.latestId, id ∉ c.notifications)
    (hledger : (c.resolved.map Prod.fst ++ (answered ++ (aborted ++ (dropped ++
      executionWaiters)))).Perm (range nextWaiter)) :
    Books { c with
      executionWaiters, answered, aborted, dropped, nextWaiter, federationWaited := waited } where
  __ := h
  unannounced := hunann
  ledger := hledger

/-- A wait keeps the books, unless its turn was notified of. -/
theorem Books.wait (h : Books c)
    (hunann : c.status = .running → ∀ id ∈ c.latestId, id ∉ c.notifications) :
    Books (c.wait aborted) := by
  have hnext : ∀ {xs : List ℕ}, xs.Perm (c.nextWaiter ::
      (c.resolved.map Prod.fst ++ (c.answered ++ (c.aborted ++ (c.dropped ++
        c.executionWaiters))))) → xs.Perm (range (c.nextWaiter + 1)) := by
    intro xs hperm
    rw [range_succ]
    exact hperm.trans ((h.ledger.cons _).trans (perm_append_singleton _ _).symm)
  by_cases hrun : c.status = .running
  · rw [wait_of_running hrun]
    cases aborted with
    | true =>
      have herase : ((c.executionWaiters ++ [c.nextWaiter]).erase c.nextWaiter).Perm
          c.executionWaiters :=
        ((perm_append_singleton _ _).erase _).trans (by rw [erase_cons_head])
      refine h.of_waits (fun _ => hunann hrun) (hnext ?_)
      show (_ ++ (c.answered ++ ((c.aborted ++ [c.nextWaiter]) ++ (c.dropped ++ _)))).Perm _
      rw [append_assoc c.aborted]
      refine Perm.trans (Perm.append_left _ (Perm.append_left _
        (Perm.append_left _ (Perm.append_left _ (Perm.append_left _ herase))))) ?_
      rw [← append_assoc c.answered, ← append_assoc (map _ _)]
      refine perm_middle.trans ?_
      simp only [append_assoc]
      exact Perm.refl _
    | false =>
      refine h.of_waits (fun _ => hunann hrun) (hnext ?_)
      show (_ ++ (c.answered ++ (c.aborted ++ (c.dropped ++ (c.executionWaiters ++ _))))).Perm _
      simp only [← append_assoc]
      exact perm_append_singleton _ _
  · rw [wait_of_not_running hrun]
    refine h.of_waits h.unannounced (hnext ?_)
    rw [append_assoc c.answered, ← append_assoc (map _ _)]
    refine perm_middle.trans ?_
    rw [append_assoc]
    exact Perm.refl _

/-- A waiter that aborts keeps the books. -/
theorem Books.abort {waiter : ℕ} (h : Books c) (habort : c.abort waiter = some c') : Books c' := by
  unfold FederatedChild.abort at habort
  obtain ⟨hmem, ⟨⟩⟩ := ite_none_right_eq_some.1 habort
  have hne : c.executionWaiters ≠ [] := ne_nil_of_mem hmem
  refine h.of_waits (fun _ => h.unannounced hne) (Perm.trans ?_ h.ledger)
  refine Perm.append_left _ (Perm.append_left _ ?_)
  rw [append_assoc]
  refine Perm.append_left _ ?_
  show (waiter :: (c.dropped ++ c.executionWaiters.erase waiter)).Perm _
  exact perm_middle.symm.trans (Perm.append_left _ (perm_cons_erase hmem).symm)

/-- A restart keeps the books. -/
theorem Books.restart (h : Books c) : Books c.restart := by
  have hended : Books { c with
      executionWaiters := [], answered := c.answered, aborted := c.aborted
      dropped := c.dropped ++ c.executionWaiters, nextWaiter := c.nextWaiter
      federationWaited := c.federationWaited } := by
    refine h.of_waits (fun hne => absurd rfl hne) ?_
    rw [append_nil]
    exact h.ledger
  exact hended.carry

/-! ## Steps -/

/-- Whoever waits, waits for a turn that runs or for what is under way. -/
def Waits (c : FederatedChild) : Prop :=
  c.executionWaiters ≠ [] → c.status = .running ∨ c.Finalizing

theorem waits_finalize : c.finalize.Waits := by
  by_cases hrun : c.status = .running
  · rw [finalize, if_pos hrun]
    exact fun _ => .inl hrun
  · rw [finalize_eq hrun]
    exact fun hne => absurd rfl hne

theorem waits_of_live (h : c.state.live = true) : c.Waits :=
  fun _ => .inl (status_running_iff.2 (.inr h))

theorem waits_of_finalizing (h : c.Finalizing) : c.Waits := fun _ => .inr h

theorem waits_of_nil (h : c.executionWaiters = []) : c.Waits := fun hne => absurd h hne

theorem createTurn_spec (h : c.createTurn turnId now = some c') :
    c'.state = .running ∧ c'.executionWaiters = c.executionWaiters := by
  unfold createTurn at h
  split at h
  · cases h
  · cases h
    exact ⟨rfl, rfl⟩

theorem sameBooks_failExecution : SameBooks c c.failExecution :=
  sameBooks_map (fun turn => by split <;> rfl) fun turn => by split <;> rfl

theorem sameBooks_completeTurn {outcome : Journal.ProviderTurnOutcome} {later : Bool} :
    SameBooks c (c.completeTurn turnId outcome later) := by
  unfold completeTurn
  split
  · exact sameBooks_map (fun turn => by split <;> rfl) fun turn => by split <;> rfl
  · exact SameBooks.refl

theorem sameBooks_confirmRunning : SameBooks c c.confirmRunning := by
  unfold confirmRunning
  split
  · exact SameBooks.refl
  · exact sameBooks_map (fun turn => by split <;> rfl) fun turn => by split <;> rfl

theorem sameBooks_runTurn {recovering : Bool} (h : c.runTurn turnId recovering = some c') :
    SameBooks c c' ∧ c'.state.live = true := by
  unfold runTurn at h
  cases (ite_none_right_eq_some.1 h).2
  refine ⟨sameBooks_map (fun turn => by split <;> rfl) fun turn => by split <;> rfl, ?_⟩
  cases recovering <;> rfl

/-- A turn is completed that nobody waits for alone. -/
theorem waits_completeTurn {outcome : Journal.ProviderTurnOutcome} {later : Bool}
    (hwaits : c.Waits) (h : c.Resolves (.snapshotTurn turnId outcome later)) :
    (c.completeTurn turnId outcome later).Waits := by
  unfold completeTurn
  split
  · next hany =>
    intro hne
    rcases h with hnil | hfinalizing | hnot | ⟨turn, hturn, hother, hlive⟩
    · exact absurd hnil hne
    · exact .inr hfinalizing
    · obtain ⟨turn, hturn, hcompl⟩ := any_eq_true.1 hany
      rw [Bool.and_eq_true, decide_eq_true_eq] at hcompl
      rw [hnot turn hturn hcompl.1] at hcompl
      cases hcompl.2
    · -- another turn goes on
      refine .inl (status_running_iff.2 (.inl (any_eq_true.2 ⟨turn, ?_, hlive⟩)))
      exact mem_map.2 ⟨turn, hturn, if_neg fun h => hother h.1⟩
  · exact hwaits

/-- **A step keeps the books**, and leaves nobody waiting for nothing. -/
theorem step_spec {action : ChildAction} (hbooks : Books c) (hwaits : c.Waits)
    (hresolves : c.Resolves action) (hstep : c.step action = some c') : Books c' ∧ c'.Waits := by
  cases action with
  | spawn claudeRoot foreground =>
    dsimp only [step] at hstep
    split at hstep
    · cases hstep
    cases hstep
    exact ⟨⟨nofun, nofun, nofun, nodup_nil, nofun, fun hne => absurd rfl hne,
      Perm.refl _⟩, waits_of_nil rfl⟩
  | spawnTurn turnId now =>
    dsimp only [step] at hstep
    split at hstep
    swap
    · cases hstep
    obtain ⟨created, hmade, rfl⟩ := map_eq_some_iff.1 hstep
    refine ⟨(hbooks.createTurn hmade).carry, waits_of_live ?_⟩
    rw [(createTurn_spec hmade).1]
    rfl
  | spawnAccepted =>
    obtain ⟨hstarting, ⟨⟩⟩ := ite_none_right_eq_some.1 hstep
    refine ⟨hbooks.carry, fun hne => ?_⟩
    refine (hwaits hne).imp_right ?_
    rintro (heffects | hrecov | hopen)
    · exact .inl heffects
    · exact .inr (.inl hrecov)
    · rw [hstarting] at hopen
      cases hopen
  | spawnFailed =>
    cases (ite_none_right_eq_some.1 hstep).2
    exact ⟨(hbooks.of_same sameBooks_failExecution).carry, waits_of_nil hresolves⟩
  | send turnId now =>
    dsimp only [step] at hstep
    split at hstep
    · cases hstep
    obtain ⟨created, hmade, rfl⟩ := map_eq_some_iff.1 hstep
    refine ⟨(hbooks.createTurn hmade).carry, waits_of_live ?_⟩
    rw [(createTurn_spec hmade).1]
    rfl
  | sendAccepted turnId =>
    cases (ite_none_right_eq_some.1 hstep).2
    exact ⟨hbooks.carry, hwaits⟩
  | sendFailed turnId =>
    cases (ite_none_right_eq_some.1 hstep).2
    refine ⟨Books.finalize ?_, waits_finalize⟩
    have hsent : Books { c with dispatching := c.dispatching.erase turnId } :=
      hbooks.carry
    exact hsent.of_same (sameBooks_map (fun turn => by split <;> rfl) fun turn => by split <;> rfl)
  | bindSession =>
    cases (ite_none_right_eq_some.1 hstep).2
    refine ⟨hbooks.carry, fun hne => ?_⟩
    rcases hresolves with hnil | hact | hstate | hfinalizing
    · exact absurd hnil hne
    · exact .inl (status_running_iff.2 (.inl hact))
    · -- the state stays
      have hsame : c.bindSession = { c with closed := false } := by
        rw [FederatedChild.bindSession, if_neg fun h => hstate h.1]
      rw [hsame]
      exact hwaits hne
    · exact .inr hfinalizing
  | health ready =>
    cases (ite_none_right_eq_some.1 hstep).2
    refine ⟨hbooks.carry, fun hne => ?_⟩
    cases ready with
    | false => exact .inl (status_running_iff.2 (.inr rfl))
    | true =>
      rcases hresolves with hnil | hact | hlive | hfinalizing
      · exact absurd hnil hne
      · exact .inl (status_running_iff.2 (.inl hact))
      · -- the status is that of its turns, which stay
        refine (hwaits hne).imp_left fun hrun => status_running_iff.2 (.inl ?_)
        exact (status_running_iff.1 hrun).resolve_right (by rw [hlive]; exact Bool.false_ne_true)
      · exact .inr hfinalizing
  | runTurn turnId recovering =>
    obtain ⟨hsame, hlive⟩ := sameBooks_runTurn hstep
    exact ⟨hbooks.of_same hsame, waits_of_live hlive⟩
  | completeTurn turnId outcome later =>
    cases (ite_none_right_eq_some.1 hstep).2
    exact ⟨(hbooks.of_same sameBooks_completeTurn).carry,
      waits_of_finalizing (.inl (Nat.succ_pos _))⟩
  | effect =>
    cases (ite_none_right_eq_some.1 hstep).2
    refine ⟨Books.finalize ?_, waits_finalize⟩
    exact hbooks.carry
  | effectLost =>
    cases (ite_none_right_eq_some.1 hstep).2
    refine ⟨hbooks.carry, fun hne => ?_⟩
    rcases hresolves with hnil | hrun | hmore | hrecov | hopen
    · exact absurd hnil hne
    · exact .inl hrun
    · exact .inr (.inl (Nat.sub_pos_of_lt hmore))
    · exact .inr (.inr (.inl hrecov))
    · exact .inr (.inr (.inr hopen))
  | reconcile | reconciled =>
    cases (ite_none_right_eq_some.1 hstep).2
    exact ⟨hbooks.carry, hwaits⟩
  | recover =>
    cases (ite_none_right_eq_some.1 hstep).2
    have hmark : Books c.markRecovering :=
      hbooks.of_same (sameBooks_map (fun turn => by split <;> rfl) fun turn => by split <;> rfl)
    exact ⟨hmark.carry, waits_of_finalizing (.inr (.inl (Nat.succ_pos _)))⟩
  | snapshotTurn turnId outcome later =>
    cases (ite_none_right_eq_some.1 hstep).2
    exact ⟨hbooks.of_same sameBooks_completeTurn, waits_completeTurn hwaits hresolves⟩
  | confirmRunning =>
    cases (ite_none_right_eq_some.1 hstep).2
    refine ⟨hbooks.of_same sameBooks_confirmRunning, ?_⟩
    unfold confirmRunning
    split
    · exact hwaits
    · exact waits_of_live rfl
  | recovered =>
    dsimp only [step] at hstep
    split at hstep
    swap
    · cases hstep
    have hdone : Books { c with recoveries := c.recoveries - 1 } :=
      hbooks.carry
    split at hstep
    · next hlive =>
      cases hstep
      exact ⟨hdone, waits_of_live hlive⟩
    · cases hstep
      exact ⟨hdone.finalize, waits_finalize⟩
  | recoveryFailed =>
    cases (ite_none_right_eq_some.1 hstep).2
    have hdone : Books { c with recoveries := c.recoveries - 1 } :=
      hbooks.carry
    exact ⟨(hdone.of_same sameBooks_failExecution).finalize, waits_finalize⟩
  | giveUp =>
    cases (ite_none_right_eq_some.1 hstep).2
    exact ⟨(hbooks.of_same sameBooks_failExecution).finalize, waits_finalize⟩
  | finalize =>
    cases (ite_none_right_eq_some.1 hstep).2
    exact ⟨hbooks.finalize, waits_finalize⟩
  | close =>
    cases (ite_none_right_eq_some.1 hstep).2
    have hclosed : Books c.closeExecution :=
      hbooks.of_same (sameBooks_map (fun turn => by split <;> rfl) fun turn => by split <;> rfl)
    exact ⟨hclosed.finalize, waits_finalize⟩
  | wait aborted =>
    cases (ite_none_right_eq_some.1 hstep).2
    refine ⟨hbooks.wait hresolves, ?_⟩
    by_cases hrun : c.status = .running
    · rw [wait_of_running hrun]
      exact fun _ => .inl hrun
    · rw [wait_of_not_running hrun]
      exact hwaits
  | abort waiter =>
    have hbooks' := hbooks.abort hstep
    refine ⟨hbooks', ?_⟩
    change c.abort waiter = some c' at hstep
    unfold abort at hstep
    obtain ⟨hmem, ⟨⟩⟩ := ite_none_right_eq_some.1 hstep
    exact fun _ => hwaits (ne_nil_of_mem hmem)

theorem waits_restart : c.restart.Waits := waits_of_nil rfl

theorem books_absent : Books absent :=
  ⟨nofun, nofun, nofun, nodup_nil, nofun, fun hne => absurd rfl hne, Perm.refl _⟩

theorem Books.announced (h : Books c) (hwaits : c.Waits) : c.Announced where
  __ := h
  resolves := hwaits
  visible aborted hcompl := by
    rw [wait_of_not_running hcompl]
    exact ⟨rfl, rfl⟩

end FederatedChild

/-- A child is waited for while its session is opened, which fails. -/
def failedSpawn : List FederationAction :=
  [.child "child" (.spawn true true), .child "child" (.wait false), .child "child" .spawnFailed]

/-- A child is waited for while a Stop ends its turn. -/
def stoppedChild : List FederationAction :=
  [.child "child" (.spawn true true), .child "child" (.spawnTurn "first" 1),
    .child "child" .spawnAccepted, .child "child" (.wait false), .child "child" .reconcile,
    .child "child" (.snapshotTurn "first" .interrupted false), .child "child" .reconciled]

/-- A child completes with a waiter, is sent a message and completes again,
with nobody waiting. -/
def followedUp : List FederationAction :=
  [.child "child" (.spawn true true), .child "child" (.spawnTurn "first" 1),
    .child "child" .spawnAccepted,
    .child "child" (.wait false),
    .child "child" (.completeTurn "first" .completed false),
    .child "child" .effect,
    .child "child" (.send "second" 2),
    .child "child" (.completeTurn "second" .completed false),
    .restart,
    .child "child" .finalize]

end Coordinator

end Remux
