import Remux.Journal.Model.Append

/-!
# Recovery and failure

The operations of `native-journal.ts` that move the states of turns,
executions and conversations without an event of the provider, and the
switch to another strand. They write the clock into `updated_at`, and
throw where it stands before a row's `created_at`.
-/

namespace Remux.Journal

variable (J : Journal)

/-- `markConversationRecovering`: whether the conversation is still the
expected one. -/
def markConversationRecovering (conversationId : String) (expectedRootExecutionId : Option String)
    (now : ℕ) : Except StoreError (Journal × Bool) :=
  match J.conversation conversationId with
  | none => return (J, false)
  | some conversation =>
    if expectedRootExecutionId.any (· != conversation.rootExecutionId) then return (J, false)
    else do
      let J ← J.updateConversations (·.conversationId == conversationId) fun c => { c with
        state := .recovering, updatedAt := now }
      let J ← J.updateExecutions (·.executionId == conversation.rootExecutionId) fun e => { e with
        state := .recovering, updatedAt := now }
      let J ← J.updateTurns (fun t => conversation.activeTurnId == some t.turnId &&
          t.executionId == conversation.rootExecutionId && t.state == .running)
        fun t => { t with state := .recovering, updatedAt := now }
      return (J, true)

/-- `markExecutionRecovering`. -/
def markExecutionRecovering (executionId : String) (now : ℕ) : Except StoreError Journal := do
  let J ← J.updateExecutions (·.executionId == executionId) fun e => { e with
    state := .recovering, updatedAt := now }
  let J ← J.updateNativeSessions (·.executionId == executionId) fun s => { s with
    state := .recovering, lastObservedAt := now }
  J.updateTurns (fun t => t.executionId == executionId && t.state == .running) fun t => { t with
    state := .recovering, updatedAt := now }

/-- The turn created last, and of those the one inserted last. -/
def latestCreated (turns : List TurnRow) : Option TurnRow :=
  turns.foldl (fun best t =>
    match best with
    | none => some t
    | some b => if b.createdAt ≤ t.createdAt then some t else some b) none

/-- `confirmExecutionRunning`: the turn that runs. -/
def confirmExecutionRunning (executionId : String) (now : ℕ) :
    Except StoreError (Journal × Option String) :=
  match latestCreated (J.turns.rows.filter fun t => t.executionId == executionId &&
    t.state.live) with
  | none => return (J, none)
  | some active => do
    let J ← J.updateTurns (fun t => t.turnId == active.turnId && t.state.live) fun t => { t with
      state := .running, startedAt := t.startedAt <|> some now, updatedAt := now }
    let J ← J.updateExecutions (·.executionId == executionId) fun e => { e with
      state := .running, outcome := none, completedAt := none, updatedAt := now }
    let J ← J.updateConversationOfRoot active.conversationId executionId
      (fun c => c.conversationId == active.conversationId && c.rootExecutionId == executionId)
      fun c => { c with state := .running, activeTurnId := some active.turnId, updatedAt := now }
    return (J, some active.turnId)

/-- `failTurnDispatch`. -/
def failTurnDispatch (turnId : String) (now : ℕ) : Except StoreError Journal :=
  match J.turn turnId with
  | none => return J
  | some turn => do
    let J ← J.updateTurns (·.turnId == turnId) fun t => { t with
      state := .failed, outcome := some .failed, completedAt := some now, updatedAt := now }
    let J ← J.settleTerminalTurnBlocks (·.turnId == turnId)
    let J ← J.updateConversationOfRoot turn.conversationId turn.executionId
      (·.conversationId == turn.conversationId)
      fun c => { c with state := .idle, activeTurnId := none, updatedAt := now }
    J.updateExecutions (·.executionId == turn.executionId) fun e => { e with
      state := .failed, outcome := some .failed, completedAt := some now, updatedAt := now }

/-- The active turn of the root execution fails, in `failRecovery`. -/
def failActiveTurn (conversation : ConversationRow) (now : ℕ) : Except StoreError Journal :=
  match conversation.activeTurnId with
  | none => return J
  | some activeTurnId => do
    let ofRoot := fun t : TurnRow =>
      t.turnId == activeTurnId && t.executionId == conversation.rootExecutionId
    let J ← J.updateTurns (fun t => ofRoot t && t.state.live) fun t => { t with
      state := .failed, outcome := some .recoveryFailed, completedAt := some now, updatedAt := now }
    let J ← J.updatePasses (fun p => J.turns.rows.any fun t => t.turnId == p.turnId && ofRoot t)
      fun p => { p with state := .completed }
    J.settleTerminalTurnBlocks (·.turnId == activeTurnId)

/-- `failRecovery`: whether the conversation is still the expected one. -/
def failRecovery (conversationId : String) (expectedRootExecutionId : Option String) (now : ℕ) :
    Except StoreError (Journal × Bool) :=
  match J.conversation conversationId with
  | none => return (J, false)
  | some conversation =>
    if expectedRootExecutionId.any (· != conversation.rootExecutionId) then return (J, false)
    else do
      let J ← J.failActiveTurn conversation now
      let J ← J.updateConversations (·.conversationId == conversationId) fun c => { c with
        state := .failed, activeTurnId := none, updatedAt := now }
      let J ← J.updateExecutions (·.executionId == conversation.rootExecutionId) fun e => { e with
        state := .failed, outcome := some .recoveryFailed, completedAt := some now
        updatedAt := now }
      return (J, true)

/-- `repairRecoveryFailuresWithLaterNativeTerminalEvents`: the turns that
were repaired. -/
def repairRecoveryFailures : Except StoreError (Journal × List String) :=
  let rows := J.events.rows.filter fun row =>
    match row.envelope.event, row.envelope.scope.turnId with
    | .turnCompleted _, some turnId => J.turns.rows.any fun t => t.turnId == turnId &&
        t.outcome == some .recoveryFailed && t.completedAt.getD 0 < row.envelope.observedAt
    | _, _ => false
  let rec repair : Journal → List EventRow → Except StoreError (Journal × List String)
    | J, [] => return (J, [])
    | J, row :: rest =>
      match row.envelope.event, row.envelope.scope with
      | .turnCompleted outcome, .turn _ _ _ turnId => do
        let J ← J.reduceEvent row.envelope
        let (J', repaired) ← repair J rest
        return (J', if (J.turn turnId).any (·.outcome == some outcome) then repaired.insert turnId
          else repaired)
      | _, _ => repair J rest
  repair J rows

/-- `failExecution`. -/
def failExecution (executionId : String) (now : ℕ) : Except StoreError Journal := do
  let J ← J.updateTurns (fun t => t.executionId == executionId && t.state.live) fun t => { t with
    state := .failed, outcome := some .recoveryFailed, completedAt := some now, updatedAt := now }
  let J ← J.updatePasses
    (fun p => J.turns.rows.any fun t => t.turnId == p.turnId && t.executionId == executionId)
    fun p => { p with state := .completed }
  let J ← J.settleTerminalTurnBlocks (·.executionId == executionId)
  J.updateExecutions (·.executionId == executionId) fun e => { e with
    state := .failed, outcome := some .recoveryFailed, completedAt := some now, updatedAt := now }

/-- `markNativeSessionClosed`. -/
def markNativeSessionClosed (executionId : String) (now : ℕ) : Except StoreError Journal :=
  J.updateNativeSessions (·.executionId == executionId) fun s => { s with
    state := .closed, lastObservedAt := now }

/-- `closeFederatedExecution`. -/
def closeFederatedExecution (executionId : String) (now : ℕ) : Except StoreError Journal := do
  let J ← J.updateTurns (fun t => t.executionId == executionId && t.state.live) fun t => { t with
    state := .failed, outcome := some .recoveryFailed, completedAt := some now, updatedAt := now }
  let J ← J.updateExecutions (fun e => e.executionId == executionId && e.ownership == .federated)
    fun e => if e.state.live then
        { e with state := .failed, outcome := some .recoveryFailed, completedAt := some now
                 updatedAt := now }
      else { e with updatedAt := now }
  let J ← J.settleTerminalTurnBlocks (·.executionId == executionId)
  J.markNativeSessionClosed executionId now

/-- The input of `activateConversationStrand`. -/
structure ActivateConversationStrand where
  conversationId : String
  strandId : String
  expectedRevision : ℕ
  now : ℕ

/-- The last entry of a strand's path. -/
def lastOnPath (strandId : String) : Option PathRow :=
  (J.paths.rows.filter (·.strandId == strandId)).foldl (fun best p =>
    match best with
    | none => some p
    | some b => if b.ordinal ≤ p.ordinal then some p else some b) none

/-- `activateConversationStrand`. -/
def activateConversationStrand (input : ActivateConversationStrand) : Except StoreError Journal :=
  match J.strand input.strandId with
  | none => throw (.thrown "Only a ready strand belonging to the conversation can be activated.")
  | some strand => do
    Remux.check (strand.conversationId == input.conversationId && strand.state == .ready)
      (.thrown "Only a ready strand belonging to the conversation can be activated.")
    let current := fun h : HeadRow =>
      h.conversationId == input.conversationId && h.revision == input.expectedRevision
    Remux.check (J.heads.rows.any current) (.thrown "ConversationHeadConflictError")
    let heads ← J.heads.update current fun h => { h with
      strandId := input.strandId, revision := h.revision + 1 }
    let J := { J with heads }
    let latest := (J.lastOnPath input.strandId).bind fun p => J.turn p.turnId
    match J.execution strand.rootExecutionId with
    | none => throw (.thrown "The strand root execution is missing.")
    | some execution =>
      J.updateConversations (·.conversationId == input.conversationId) fun c => { c with
        rootExecutionId := strand.rootExecutionId
        latestTurnId := latest.map (·.turnId)
        activeTurnId := latest.bind fun t => if t.state.live then some t.turnId else none
        access := execution.access.getD c.access
        state := execution.state
        updatedAt := input.now }

end Remux.Journal
