import Remux.Delivery.Model.Attempt
import Remux.Journal.Model.Kinds

/-!
# What a dispatch leaves of a queued message

`dispatchNext` claims the message at the head of the queue, opens its
session, prepares an attempt and has the provider called. One catch block
covers all of it: a message whose session never opened is left as one that
may have been sent, and no later dispatch takes it.
-/

namespace Remux

/-- What the provider's call comes to, before its result is settled. -/
inductive ProviderCall where
  /-- It throws; the flag is `providerPossiblySent(error)`. -/
  | throws (possiblySent : Bool)
  /-- The flag is what `rejectProviderResponse` makes of its evidence. -/
  | rejected (evidence : Bool)
  | unknown
  /-- The flag says that the result contradicts its evidence. -/
  | accepted (contradicts : Bool)
  deriving DecidableEq

/-- How the steps of a dispatch go: a flag that is false is a step that
throws, or a check that fails. -/
structure DispatchAnswers where
  requireConversation : Bool
  ensureSession : Bool
  assertRootDeliveryAvailable : Bool
  /-- The active turn has a native id, and still takes the message. -/
  canDeliverActiveInput : Bool
  prepare : Bool
  /-- The session has `sendActiveInput` or `steer`. -/
  sendActiveInput : Bool
  /-- The call uses its crossing marker. -/
  markPossiblySent : Bool
  call : ProviderCall
  recordAcceptance : Bool
  prepareStagedProviderEvents : Bool
  admitDelivery : Bool
  deriving DecidableEq

/-- What a dispatch writes of an attempt. -/
structure DispatchedAttempt where
  state : DeliveryAttemptState
  crossed : Bool
  deriving DecidableEq

/-- `ProviderDispatchResult['outcome']`. -/
inductive DispatchOutcome where
  | accepted
  | rejected
  | unknown
  deriving DecidableEq

/-- `DeliveryAttemptOwner.dispatch` of a prepared attempt: what it leaves of
the attempt, and its outcome, `none` where it throws. -/
def DispatchAnswers.dispatch (answers : DispatchAnswers) :
    DispatchedAttempt × Option DispatchOutcome :=
  match answers.call with
  | .throws possiblySent =>
    if answers.markPossiblySent || possiblySent then (⟨.unknown, true⟩, some .unknown)
    else (⟨.rejected, false⟩, some .rejected)
  | .rejected evidence =>
    if answers.markPossiblySent && !evidence then (⟨.unknown, true⟩, some .unknown)
    else (⟨.rejected, answers.markPossiblySent⟩, some .rejected)
  | .unknown => (⟨.unknown, true⟩, some .unknown)
  | .accepted contradicts =>
    if contradicts || !answers.recordAcceptance then (⟨.dispatching, true⟩, none)
    else if !answers.prepareStagedProviderEvents then (⟨.unknown, true⟩, some .unknown)
    else if !answers.admitDelivery then (⟨.dispatching, true⟩, none)
    else (⟨.accepted, true⟩, some .accepted)

/-- What `dispatchNext` reads before it claims. -/
structure DispatchGuards where
  closed : Bool
  initialized : Bool
  dispatchingConversation : Bool
  conversationKnown : Bool
  activeTurn : Bool
  canDeliverActiveInput : Bool
  hasConversationQueuePause : Bool
  compactionRunning : Bool
  providerReady : Bool
  hasUnresolvedRootDelivery : Bool
  /-- The message is the first entry of the queue. -/
  atHead : Bool
  deriving DecidableEq

/-- A queued message: its row, while it has one, and the attempt of its
command. -/
structure QueuedDelivery where
  row : Option QueuedState
  attempt : Option DispatchedAttempt
  deriving DecidableEq

namespace QueuedDelivery

variable (m : QueuedDelivery)

/-- `markQueuedTurnDeliveryUnknown`, of the message's row. -/
def markQueuedTurnDeliveryUnknown : QueuedDelivery :=
  if m.row = some .dispatching then { m with row := some .deliveryUnknown } else m

/-- `blockQueuedMessages`, of the message's row. -/
def blockQueuedMessages : QueuedDelivery :=
  if m.row = some .queued then { m with row := some .blocked } else m

/-- `releaseBlockedMessages`, of the message's row. -/
def releaseBlockedMessages : QueuedDelivery :=
  if m.row = some .blocked then { m with row := some .queued } else m

/-- `claimQueuedTurn`, if the row can be claimed. -/
def claimQueuedTurn : Option QueuedDelivery :=
  match m.row with
  | none | some .dispatching | some .deliveryUnknown => none
  | some .queued | some .blocked => some { m with row := some .dispatching }

/-- The attempt is dispatched; its admission deletes the row. -/
def settleDispatch (answers : DispatchAnswers) : QueuedDelivery :=
  match answers.dispatch with
  | (attempt, some .accepted) => ⟨none, some attempt⟩
  | (attempt, _) => { m with attempt := some attempt }.markQueuedTurnDeliveryUnknown

/-- `dispatchActiveQueuedInput`, of a message it has claimed. -/
def dispatchActiveQueuedInput (answers : DispatchAnswers) : QueuedDelivery :=
  if !answers.ensureSession || !answers.assertRootDeliveryAvailable ||
      !answers.requireConversation then m.markQueuedTurnDeliveryUnknown
  else if !answers.canDeliverActiveInput then { m with row := some .queued }
  else if !answers.prepare then m.markQueuedTurnDeliveryUnknown
  else if !answers.sendActiveInput then
    { m with attempt := some ⟨.preparing, false⟩ }.markQueuedTurnDeliveryUnknown
  else m.settleDispatch answers

/-- `dispatchNext` of a message it has claimed, while no turn is active. -/
def dispatchRootTurn (answers : DispatchAnswers) : QueuedDelivery :=
  if !answers.requireConversation || !answers.ensureSession || !answers.prepare then
    m.markQueuedTurnDeliveryUnknown
  else m.settleDispatch answers

/-- `dispatchNext`, with what its checks find and its calls answer. -/
def dispatchNext (guards : DispatchGuards) (answers : DispatchAnswers) : QueuedDelivery :=
  if guards.closed || !guards.initialized || guards.dispatchingConversation then m
  else if !guards.conversationKnown then m
  else if guards.activeTurn && !guards.canDeliverActiveInput then m
  else if guards.hasConversationQueuePause || guards.compactionRunning then m
  else if !guards.providerReady then m.blockQueuedMessages
  else if guards.hasUnresolvedRootDelivery then m
  else if !guards.atHead then m.releaseBlockedMessages
  else match m.releaseBlockedMessages.claimQueuedTurn with
    | none => m.releaseBlockedMessages
    | some claimed =>
      if guards.activeTurn then claimed.dispatchActiveQueuedInput answers
      else claimed.dispatchRootTurn answers

/-- The calls of `dispatchNext`, one after the other. -/
def run (calls : List (DispatchGuards × DispatchAnswers)) : QueuedDelivery :=
  calls.foldl (fun m call => m.dispatchNext call.1 call.2) m

/-- The message waits, and no attempt was made. -/
def Waits : Prop := (m.row = some .queued ∨ m.row = some .blocked) ∧ m.attempt = none

/-- **It is called unknown only if it may have been sent**, or was rejected;
unless it was taken, a later dispatch can take it. -/
structure FairlyReported : Prop where
  unknown : m.row = some .deliveryUnknown →
    ∃ attempt, m.attempt = some attempt ∧ (attempt.state ≠ .rejected → attempt.crossed = true)
  takable : m.row ≠ none → m.row ≠ some .deliveryUnknown →
    m.attempt = none ∧ m.claimQueuedTurn.isSome

end QueuedDelivery

/-- Nothing that `dispatchNext` reads keeps it from claiming the message. -/
def DispatchGuards.Claim (guards : DispatchGuards) : Prop :=
  guards.closed = false ∧ guards.initialized = true ∧ guards.dispatchingConversation = false ∧
    guards.conversationKnown = true ∧
    (guards.activeTurn = true → guards.canDeliverActiveInput = true) ∧
    guards.hasConversationQueuePause = false ∧ guards.compactionRunning = false ∧
    guards.providerReady = true ∧ guards.hasUnresolvedRootDelivery = false ∧
    guards.atHead = true

/-- No step before the provider's call throws. -/
def DispatchAnswers.ReachProvider (answers : DispatchAnswers) (activeTurn : Bool) : Prop :=
  answers.requireConversation = true ∧ answers.ensureSession = true ∧
    if activeTurn then answers.assertRootDeliveryAvailable = true ∧
      (answers.canDeliverActiveInput = true →
        answers.prepare = true ∧ answers.sendActiveInput = true)
    else answers.prepare = true

namespace QueuedDelivery

variable {m : QueuedDelivery} {guards : DispatchGuards} {answers : DispatchAnswers}
  {calls : List (DispatchGuards × DispatchAnswers)}

/-- Whenever the message is claimed, no step before the provider's call
throws. -/
def AlwaysReaches (m : QueuedDelivery) : List (DispatchGuards × DispatchAnswers) → Prop
  | [] => True
  | (guards, answers) :: calls =>
    (m.Waits → guards.Claim → answers.ReachProvider guards.activeTurn) ∧
      AlwaysReaches (m.dispatchNext guards answers) calls

/-- No dispatch takes the message again. -/
def Past (m : QueuedDelivery) : Prop := m.row = none ∨ m.row = some .deliveryUnknown

/-- A message that is past stays as it is. -/
theorem Past.dispatchNext (h : m.Past) : m.dispatchNext guards answers = m := by
  obtain ⟨row, attempt⟩ := m
  obtain rfl | rfl : row = none ∨ row = some .deliveryUnknown := h <;>
    simp [QueuedDelivery.dispatchNext, blockQueuedMessages, releaseBlockedMessages,
      claimQueuedTurn]

theorem Past.run (h : m.Past) : m.run calls = m := by
  induction calls with
  | nil => rfl
  | cons call calls ih => rwa [QueuedDelivery.run, List.foldl_cons, h.dispatchNext]

theorem Past.alwaysReaches (h : m.Past) : m.AlwaysReaches calls := by
  induction calls with
  | nil => trivial
  | cons call calls ih =>
    refine ⟨fun waits => ?_, by rwa [h.dispatchNext]⟩
    obtain ⟨row | row, -⟩ := waits <;> obtain past | past := h <;> simp [row] at past

theorem Waits.fairlyReported (h : m.Waits) : m.FairlyReported := by
  obtain ⟨row | row, attempt⟩ := h <;>
    exact ⟨by simp [row], fun _ _ => ⟨attempt, by simp [claimQueuedTurn, row]⟩⟩

/-- A call that does not claim the message leaves it waiting. -/
theorem Waits.dispatchNext (h : m.Waits) (kept : ¬guards.Claim) :
    (m.dispatchNext guards answers).Waits := by
  obtain ⟨row, attempt⟩ := m
  obtain ⟨rfl | rfl, rfl⟩ : (row = some .queued ∨ row = some .blocked) ∧ attempt = none := h <;>
    simp only [QueuedDelivery.dispatchNext, DispatchGuards.Claim] at kept ⊢ <;>
    grind [Waits, blockQueuedMessages, releaseBlockedMessages]

/-- A call that claims the message dispatches it. -/
theorem Waits.dispatchNext_claim (h : m.Waits) (claim : guards.Claim) :
    m.dispatchNext guards answers =
      if guards.activeTurn then dispatchActiveQueuedInput ⟨some .dispatching, none⟩ answers
      else dispatchRootTurn ⟨some .dispatching, none⟩ answers := by
  obtain ⟨row, attempt⟩ := m
  obtain ⟨closed, initialized, dispatching, known, active, paused, running, ready, unresolved,
    head⟩ := claim
  obtain ⟨rfl | rfl, rfl⟩ : (row = some .queued ∨ row = some .blocked) ∧ attempt = none := h <;>
    simp [QueuedDelivery.dispatchNext, closed, initialized, dispatching, known, paused, running,
      ready, unresolved, head, releaseBlockedMessages, claimQueuedTurn] <;> grind

/-- What a dispatch leaves of its attempt has crossed, or is rejected. -/
theorem dispatch_crossed : answers.dispatch.1.state ≠ .rejected →
    answers.dispatch.1.crossed = true := by
  unfold DispatchAnswers.dispatch
  grind

/-- **A provider's call settles the message**: it is taken, or it is left
unknown with an attempt that says why. -/
theorem settleDispatch_fair (row : m.row = some .dispatching) :
    (m.settleDispatch answers).Past ∧ (m.settleDispatch answers).FairlyReported := by
  have crossed : answers.dispatch.1.state ≠ .rejected → _ := dispatch_crossed
  unfold settleDispatch
  split
  · exact ⟨.inl rfl, by simp, by simp⟩
  · next attempt _ _ eq =>
    rw [eq] at crossed
    simp only [markQueuedTurnDeliveryUnknown, row, if_pos]
    exact ⟨.inr rfl, fun _ => ⟨attempt, rfl, crossed⟩, by simp⟩

/-- **A claimed message is reported fairly just if nothing throws before the
provider's call**, and otherwise is past. -/
theorem Waits.dispatchNext_reach (h : m.Waits) (claim : guards.Claim)
    (reach : answers.ReachProvider guards.activeTurn) :
    (m.dispatchNext guards answers).Waits ∨
      (m.dispatchNext guards answers).Past ∧ (m.dispatchNext guards answers).FairlyReported := by
  rw [h.dispatchNext_claim claim]
  obtain ⟨known, opened, reach⟩ := reach
  cases active : guards.activeTurn with
  | false =>
    simp only [active, Bool.false_eq_true, if_false] at reach ⊢
    exact .inr (by simpa [dispatchRootTurn, known, opened, reach] using settleDispatch_fair rfl)
  | true =>
    simp only [active, if_true] at reach ⊢
    cases takes : answers.canDeliverActiveInput with
    | false => exact .inl (by simp [dispatchActiveQueuedInput, known, opened, reach.1,
      takes, Waits])
    | true =>
      obtain ⟨prepared, sends⟩ := reach.2 takes
      exact .inr (by simpa [dispatchActiveQueuedInput, known, opened, reach.1, takes, prepared,
        sends] using settleDispatch_fair rfl)

/-- Where a step before the provider's call throws, the message is unknown,
and nothing crossed. -/
theorem Waits.dispatchNext_lost (h : m.Waits) (claim : guards.Claim)
    (lost : ¬answers.ReachProvider guards.activeTurn) :
    (m.dispatchNext guards answers).Past ∧ ¬(m.dispatchNext guards answers).FairlyReported := by
  rw [h.dispatchNext_claim claim]
  have unsent : ∀ attempt, (∀ a, attempt = some a → a = ⟨.preparing, false⟩) →
      Past ⟨some .deliveryUnknown, attempt⟩ ∧ ¬FairlyReported ⟨some .deliveryUnknown, attempt⟩ :=
    fun attempt none_or => ⟨.inr rfl, fun fair => by
      obtain ⟨a, eq, crossed⟩ := fair.unknown rfl
      cases none_or a eq
      cases crossed nofun⟩
  cases active : guards.activeTurn <;>
    simp only [DispatchAnswers.ReachProvider, active, dispatchActiveQueuedInput,
      dispatchRootTurn, markQueuedTurnDeliveryUnknown] at lost ⊢ <;> grind

/-- **A message is called unknown only if it may have been sent, as long as
nothing throws before the provider's call**: after any calls of
`dispatchNext` a message that waited is reported fairly just if each call
that claimed it reached the provider, or found it better to wait. -/
theorem run_fairlyReported_iff (h : m.Waits) :
    (m.run calls).FairlyReported ↔ m.AlwaysReaches calls := by
  induction calls generalizing m with
  | nil => exact iff_of_true h.fairlyReported trivial
  | cons call calls ih =>
    obtain ⟨guards, answers⟩ := call
    have settled : (m.dispatchNext guards answers).Past →
        ((m.run ((guards, answers) :: calls)).FairlyReported ↔
          (m.dispatchNext guards answers).FairlyReported) := fun past => by
      rw [run, List.foldl_cons, ← run, past.run]
    by_cases claim : guards.Claim
    · by_cases reach : answers.ReachProvider guards.activeTurn
      · have step : m.AlwaysReaches ((guards, answers) :: calls) ↔
            (m.dispatchNext guards answers).AlwaysReaches calls :=
          and_iff_right fun _ _ => reach
        rw [step]
        obtain waits | ⟨past, fair⟩ := h.dispatchNext_reach claim reach
        · exact ih waits
        · exact iff_of_true ((settled past).2 fair) past.alwaysReaches
      · obtain ⟨past, unfair⟩ := h.dispatchNext_lost claim reach
        exact iff_of_false (mt (settled past).1 unfair) fun always => reach (always.1 h claim)
    · have step : m.AlwaysReaches ((guards, answers) :: calls) ↔
          (m.dispatchNext guards answers).AlwaysReaches calls :=
        and_iff_right fun _ claimed => absurd claimed claim
      rw [step]
      exact ih (h.dispatchNext claim)

/-- Nothing keeps an idle conversation from claiming its message. -/
def idle : DispatchGuards :=
  ⟨false, true, false, true, false, false, false, false, true, false, true⟩

/-- Every step is done, and the provider accepts. -/
def taken : DispatchAnswers :=
  ⟨true, true, true, true, true, true, true, .accepted false, true, true, true⟩

theorem run_fairlyReported_iff_taken :
    Waits ⟨some .queued, none⟩ ∧
      (run ⟨some .queued, none⟩ [(idle, taken)]).FairlyReported :=
  have waits : Waits ⟨some .queued, none⟩ := ⟨.inl rfl, rfl⟩
  ⟨waits, (run_fairlyReported_iff waits).2 ⟨fun _ _ => ⟨rfl, rfl, rfl⟩, trivial⟩⟩

/-- A session that does not open leaves the message unknown, though no
attempt of it was ever prepared. -/
theorem run_unopened :
    ¬∀ m : QueuedDelivery, m.Waits → ∀ calls, (m.run calls).FairlyReported := fun fair => by
  obtain ⟨attempt, eq, -⟩ := (fair ⟨some .queued, none⟩ ⟨.inl rfl, rfl⟩
    [(idle, { taken with ensureSession := false })]).unknown (by decide)
  revert eq
  simp [run, dispatchNext, idle, taken, releaseBlockedMessages, claimQueuedTurn,
    dispatchRootTurn, markQueuedTurnDeliveryUnknown]

end QueuedDelivery

end Remux
