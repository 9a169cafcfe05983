import Remux.Journal.Model.Reduce

/-!
# The history of a conversation

What the commands of `native-coordinator.ts` that await read of one
conversation's rows in the journal: its head, its strands with the turns
on their paths, and the root executions with their turns. Each statement
of `native-journal.ts` is here as far as it writes these. Children of a
turn are left out, and so is the repair of a turn whose recovery failed,
which is over before and after it.
-/

namespace Remux.Coordinator

/-- A row of `turns`, of a root execution. -/
structure Turn where
  turnId : String
  executionId : String
  state : TurnState
  deriving DecidableEq

/-- A row of `executions`, of a root one. -/
structure Execution where
  executionId : String
  state : Journal.ProviderExecutionState
  deriving DecidableEq

/-- A row of `conversation_strands`, with its rows of `strand_turn_path`
in order. -/
structure Strand where
  strandId : String
  rootExecutionId : String
  state : Journal.StrandState
  path : List String
  deriving DecidableEq

/-- **The history of a conversation**: its rows in `conversations` and
`conversation_heads`, its strands, executions and turns. -/
structure History where
  rootExecutionId : String
  state : Journal.ProviderExecutionState
  activeTurnId : Option String
  headStrandId : String
  headRevision : ℕ
  executions : List Execution
  strands : List Strand
  turns : List Turn
  deriving DecidableEq

namespace History

variable (H : History)

/-- The row of a turn. -/
def turn (turnId : String) : Option Turn := H.turns.find? (·.turnId == turnId)

/-- The row of a strand. -/
def strand (strandId : String) : Option Strand := H.strands.find? (·.strandId == strandId)

/-- The execution has a live turn. -/
def runs (executionId : String) : Bool :=
  H.turns.any fun t => t.executionId == executionId && t.state.live

/-- `UPDATE executions`. -/
def setExecution (executionId : String) (state : Journal.ProviderExecutionState) :
    History := { H with
  executions := H.executions.map fun e =>
    if e.executionId == executionId then { e with state } else e }

/-- `UPDATE turns SET state`, where it applies. -/
def setTurns (p : Turn → Bool) (state : TurnState) : History := { H with
  turns := H.turns.map fun t => if p t then { t with state } else t }

/-- `UPDATE conversations`, if the execution is the root. -/
def ofRoot (executionId : String) (f : History → History) : History :=
  if H.rootExecutionId = executionId then f H else H

/-- `createTurn`, of a turn that runs. -/
def createTurn (executionId turnId : String) : Option History :=
  if H.executions.any (·.executionId == executionId) && (H.turn turnId).isNone then
    let H : History := { H with
      turns := H.turns ++ [{ turnId, executionId, state := .running }]
      strands := H.strands.map fun s =>
        if s.rootExecutionId == executionId then { s with path := s.path ++ [turnId] } else s }
    some ((H.ofRoot executionId fun H => { H with
      activeTurnId := some turnId, state := .running }).setExecution executionId .running)
  else none

/-! ## Events -/

/-- `turn.started`, and `turn.status` of a live state. -/
def reduceTurnStatus (executionId turnId : String) (recovering : Bool) : History :=
  if H.turns.any fun t => t.turnId == turnId && !t.state.terminal then
    let H := H.setTurns (fun t => t.turnId == turnId && !t.state.terminal)
      (if recovering then .recovering else .running)
    let state : Journal.ProviderExecutionState := if recovering then .recovering else .running
    (H.ofRoot executionId fun H => { H with state, activeTurnId := some turnId }).setExecution
      executionId state
  else H

/-- `turn.completed`. -/
def reduceTurnCompleted (executionId turnId : String) (outcome : Journal.ProviderTurnOutcome) :
    History :=
  if H.turns.any fun t => t.turnId == turnId && !t.state.terminal then
    let H := H.setTurns (fun t => t.turnId == turnId && !t.state.terminal) outcome.turnState
    let H := H.ofRoot executionId fun H =>
      if H.activeTurnId = some turnId then { H with state := .idle, activeTurnId := none } else H
    if H.turns.any fun t => t.executionId == executionId && t.turnId != turnId &&
      t.state.live then H
    else H.setExecution executionId outcome.executionState
  else H

/-- `session.health`. -/
def reduceSessionHealth (executionId : String) (health : Journal.SessionHealth) : History :=
  let state : Journal.ProviderExecutionState :=
    if health = .ready then (if H.runs executionId then .running else .idle) else .recovering
  (H.ofRoot executionId fun H => { H with state }).setExecution executionId state

/-- `ensureNativeProviderTurn`, of a turn that the provider starts by
itself; it throws where another turn is active. -/
def ensureNativeProviderTurn (executionId turnId : String) (unresolved : Bool) : Option History :=
  if (H.turn turnId).isSome then some H
  else if H.rootExecutionId ≠ executionId ∨ H.activeTurnId.isSome ∨ unresolved then none
  else H.createTurn executionId turnId

/-! ## Recovery and failure -/

/-- `bindNativeSession`. -/
def bindNativeSession (executionId : String) : History := { H with
  executions := H.executions.map fun e =>
    if e.executionId == executionId && e.state == .recovering && !H.runs executionId then
      { e with state := .idle } else e
  state := if H.rootExecutionId = executionId ∧ H.state = .recovering ∧ H.activeTurnId = none then
      .idle
    else H.state }

/-- `markConversationRecovering`. -/
def markConversationRecovering : History :=
  (({ H with state := .recovering } : History).setExecution H.rootExecutionId .recovering).setTurns
    (fun t => H.activeTurnId == some t.turnId && t.executionId == H.rootExecutionId &&
      t.state == TurnState.running) .recovering

/-- `failRecovery`. -/
def failRecovery : History :=
  (({ H with state := .failed, activeTurnId := none } : History).setExecution H.rootExecutionId
    .failed).setTurns
    (fun t => H.activeTurnId == some t.turnId && t.executionId == H.rootExecutionId && t.state.live)
    .failed

/-- `failTurnDispatch`. -/
def failTurnDispatch (turnId : String) : History :=
  match H.turn turnId with
  | none => H
  | some turn =>
    ((H.setTurns (·.turnId == turnId) .failed).ofRoot turn.executionId fun H => { H with
      state := .idle, activeTurnId := none }).setExecution turn.executionId .failed

/-- `confirmExecutionRunning`: the live turn created last runs. -/
def confirmExecutionRunning (executionId : String) : History :=
  match (H.turns.filter fun t => t.executionId == executionId && t.state.live).getLast? with
  | none => H
  | some active =>
    ((H.setTurns (fun t => t.turnId == active.turnId && t.state.live) .running).ofRoot executionId
      fun H => { H with state := .running, activeTurnId := some active.turnId }).setExecution
      executionId .running

/-! ## Strands -/

/-- `createConversationStrand` and `copyStrandPrefix`: the first turns of
the source are those of the new strand. -/
def createConversationStrand (strandId executionId : String) (source : Strand) (count : ℕ) :
    Option History :=
  if H.strands.all (fun s => s.strandId != strandId && s.rootExecutionId != executionId) &&
      H.executions.all (·.executionId != executionId) then
    some { H with
      executions := H.executions ++ [{ executionId, state := .recovering }]
      strands := H.strands ++
        [{ strandId, rootExecutionId := executionId, state := .preparing,
           path := source.path.take count }] }
  else none

/-- `failStrand`. -/
def failStrand (strandId : String) : History := { H with
  strands := H.strands.map fun s =>
    if s.strandId == strandId && (s.state == .preparing || s.state == .ready) then
      { s with state := .failed } else s }

/-- `markStrandReady`. -/
def markStrandReady (strandId : String) : Option History :=
  if H.strands.any fun s => s.strandId == strandId && s.state == .preparing then
    some { H with strands := H.strands.map fun s =>
      if s.strandId == strandId && s.state == .preparing then { s with state := .ready } else s }
  else none

/-- `activateConversationStrand`. -/
def activateConversationStrand (strandId : String) (expectedRevision : ℕ) : Option History :=
  match H.strand strandId with
  | none => none
  | some strand =>
    if strand.state ≠ .ready ∨ H.headRevision ≠ expectedRevision then none
    else match H.executions.find? (·.executionId == strand.rootExecutionId) with
      | none => none
      | some execution =>
        let latest := strand.path.getLast?.bind H.turn
        some { H with
          headStrandId := strandId
          headRevision := H.headRevision + 1
          rootExecutionId := strand.rootExecutionId
          activeTurnId := latest.bind fun t => if t.state.live then some t.turnId else none
          state := execution.state }

end History

end Remux.Coordinator
