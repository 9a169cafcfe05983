import Remux.Common.Lists
import Remux.Common.Machine

/-!
# The pause of a queue

The stop intents of one conversation, its queue, and the commands that pause
it or send to it. A stop pauses the queue until a message is sent; the pause
is lifted in the send, and only of stops that have settled. A message that is
sent while one has not, or that steers, leaves it (`message_waits`).
-/

namespace Remux

open List

/-- The states of a row of `stop_intent_targets`. -/
inductive StopTargetState where
  | pending
  | accepted
  | terminal
  | failed
  deriving DecidableEq

/-- A row of `stop_intents`, with the states of its targets. -/
structure StopIntent where
  intentId : String
  scopeExecutionId : Option String
  outstanding : Bool
  queuePaused : Bool
  targets : List StopTargetState
  deriving DecidableEq

/-- The stop intents of a conversation, beside the messages they hold back. -/
structure PauseState where
  intents : List StopIntent
  queue : List String
  /-- What was claimed for dispatch. -/
  claimed : List String
  /-- A message has been accepted since the last queue-pausing intent was
  created. -/
  answered : Bool

namespace PauseState

variable (s : PauseState)

/-- `outstandingStopIntent`, of one scope. -/
def outstandingStopIntent (scopeExecutionId : Option String) : Option StopIntent :=
  s.intents.find? fun i => i.outstanding && i.scopeExecutionId = scopeExecutionId

/-- Whether a stop of the whole conversation is outstanding. -/
def hasOutstandingConversationStop : Bool :=
  s.intents.any fun i => i.outstanding && i.scopeExecutionId = none

/-- `hasConversationQueuePause`: settled intents hold the queue too. -/
def hasConversationQueuePause : Bool := s.intents.any (·.queuePaused)

/-- `createStopIntent`: of one id there is one, and of one scope one that is
outstanding. -/
def createStopIntent (intentId : String) (scopeExecutionId : Option String)
    (queuePaused : Bool) : PauseState :=
  if s.intents.any fun i =>
      i.intentId = intentId || i.outstanding && i.scopeExecutionId = scopeExecutionId then s
  else { s with
    intents := s.intents ++ [⟨intentId, scopeExecutionId, true, queuePaused, []⟩]
    answered := s.answered && !queuePaused }

/-- An `UPDATE` of the intents. -/
def updateIntents (p : StopIntent → Bool) (f : StopIntent → StopIntent) : PauseState :=
  { s with intents := s.intents.map fun i => if p i then f i else i }

/-- `addStopTargets`, of those that are active. -/
def addStopTargets (intentId : String) (active : ℕ) : PauseState :=
  s.updateIntents (·.intentId = intentId) fun i =>
    { i with targets := i.targets ++ List.replicate active .pending }

/-- `settleStopIntent`, once all of its targets are terminal. -/
def settleStopIntent (intentId : String) : PauseState :=
  s.updateIntents (fun i => i.intentId = intentId && i.outstanding && i.targets.all (· = .terminal))
    fun i => { i with outstanding := false }

/-- `clearSettledConversationQueuePause`, of the intents no longer outstanding. -/
def clearSettledConversationQueuePause : PauseState :=
  s.updateIntents (fun i => !i.outstanding && i.queuePaused) fun i =>
    { i with queuePaused := false }

/-- The intent of a stop, which may be there, and its targets. -/
def stop (scopeExecutionId : Option String) (queuePaused : Bool) (intentId : String) (active : ℕ) :
    PauseState :=
  match s.outstandingStopIntent scopeExecutionId with
  | some existing => s.createStopIntent existing.intentId scopeExecutionId queuePaused
  | none => (s.createStopIntent intentId scopeExecutionId queuePaused).addStopTargets
    intentId active

end PauseState

/-- What adds to the intents and the queue, settles or clears them. -/
inductive PauseAction where
  /-- `interruptConversation` and `interruptTurn`. -/
  | interrupt (intentId : String) (active : ℕ)
  | interruptExecution (executionId intentId : String) (active : ℕ)
  | resolveDelivery (intentId message : String)
  /-- `processStopIntent` finds more targets, learns of one, and settles. -/
  | capture (intentId : String) (active : ℕ)
  | updateStopTarget (intentId : String) (k : ℕ) (state : StopTargetState)
  | settle (intentId : String) (delivering : Bool)
  /-- A message is accepted, which is queued unless it steers. -/
  | sendMessage (message : String) (steers : Bool)
  | dispatchNext (ready : Bool)

namespace PauseState

/-- **The machine of the pause.** -/
def pauseMachine : Machine PauseState PauseAction where
  init := ⟨[], [], [], false⟩
  step s
    | .interrupt intentId active => some (s.stop none true intentId active)
    | .interruptExecution executionId intentId active =>
      some (s.stop (some executionId) false intentId active)
    | .resolveDelivery intentId message =>
      some { (s.createStopIntent intentId none true).settleStopIntent intentId with
        queue := s.queue.erase message }
    | .capture intentId active => some (s.addStopTargets intentId active)
    | .updateStopTarget intentId k state =>
      some (s.updateIntents (·.intentId = intentId) fun i =>
        { i with targets := i.targets.set k state })
    | .settle intentId delivering =>
      if delivering && s.intents.any fun i => i.intentId = intentId && i.targets.isEmpty then some s
      else some (s.settleStopIntent intentId)
    | .sendMessage message steers =>
      if steers then some { s with answered := true }
      else
        let cleared := if s.hasOutstandingConversationStop then s
          else s.clearSettledConversationQueuePause
        some { cleared with queue := s.queue ++ [message], answered := true }
    | .dispatchNext ready =>
      if s.hasConversationQueuePause || !ready then some s
      else some { s with queue := s.queue.tail, claimed := s.claimed ++ s.queue.head?.toList }

/-- While the queue is paused, a message is sent to it, and when every stop of
the conversation has settled. -/
def isPrompt (s : PauseState) : PauseAction → Bool
  | .sendMessage _ steers =>
    !s.hasConversationQueuePause || !steers && !s.hasOutstandingConversationStop
  | _ => true

/-- The runs whose messages are sent so. -/
def promptMachine : Machine PauseState PauseAction :=
  pauseMachine.restrict fun s a => s.isPrompt a = true

/-- **What the intents are like**: those that pause the queue are of the
conversation, and none does once a message has been accepted. -/
structure PauseInv (s : PauseState) : Prop where
  scope : ∀ i ∈ s.intents, i.queuePaused = true → i.scopeExecutionId = none
  answered : s.answered = true → ∀ i ∈ s.intents, i.queuePaused = false

variable {s s' : PauseState} {a : PauseAction}

/-- Updates that pause nothing. -/
theorem PauseInv.update (h : s.PauseInv) {p : StopIntent → Bool} {f : StopIntent → StopIntent}
    (hf : ∀ i, (f i).scopeExecutionId = i.scopeExecutionId ∧ (f i).queuePaused = i.queuePaused) :
    (s.updateIntents p f).PauseInv := by
  have hback : ∀ i ∈ (s.updateIntents p f).intents, ∃ j ∈ s.intents,
      i.scopeExecutionId = j.scopeExecutionId ∧ i.queuePaused = j.queuePaused := by
    intro i hi
    obtain ⟨j, hj, rfl⟩ := mem_map.1 hi
    by_cases hp : p j = true
    · exact ⟨j, hj, by rw [if_pos hp]; exact hf j⟩
    · exact ⟨j, hj, by rw [if_neg hp]; exact ⟨rfl, rfl⟩⟩
  refine ⟨fun i hi hpaused => ?_, fun hansd i hi => ?_⟩
  · obtain ⟨j, hj, hsc, hsame⟩ := hback i hi
    exact hsc.trans (h.scope j hj (hsame ▸ hpaused))
  · obtain ⟨j, hj, -, hsame⟩ := hback i hi
    exact hsame.trans (h.answered hansd j hj)

variable {scope : Option String} {queuePaused : Bool}

variable (h : s.PauseInv)
include h

/-- An intent that pauses is of the whole conversation. -/
theorem PauseInv.createStopIntent {intentId : String} (hsc : queuePaused = true → scope = none) :
    (s.createStopIntent intentId scope queuePaused).PauseInv := by
  unfold PauseState.createStopIntent
  split
  · exact h
  · refine ⟨fun i hi hpaused => ?_, fun hansd i hi => ?_⟩
    · rcases mem_concat.1 hi with hi | rfl
      · exact h.scope i hi hpaused
      · exact hsc hpaused
    · simp only [Bool.and_eq_true, Bool.not_eq_true'] at hansd
      rcases mem_concat.1 hi with hi | rfl
      · exact h.answered hansd.1 i hi
      · exact hansd.2

theorem PauseInv.stop (hsc : queuePaused = true → scope = none) (intentId : String) (active : ℕ) :
    (s.stop scope queuePaused intentId active).PauseInv := by
  unfold PauseState.stop
  split
  · exact h.createStopIntent hsc
  · exact (h.createStopIntent hsc).update fun _ => ⟨rfl, rfl⟩

/-- **A message that is sent so lifts the pause**: what paused the queue has
settled. -/
theorem PauseInv.cleared (hnone : s.hasOutstandingConversationStop = false) :
    ∀ i ∈ s.clearSettledConversationQueuePause.intents, i.queuePaused = false := by
  intro i hi
  obtain ⟨j, hj, rfl⟩ := mem_map.1 hi
  split
  · rfl
  · next hkept =>
    by_contra hpaused
    rw [Bool.not_eq_false] at hpaused
    have hset := any_eq_false.1 hnone j hj
    simp_all [h.scope j hj hpaused]

/-- A prompt step keeps the invariant. -/
theorem PauseInv.step (hprompt : s.isPrompt a = true)
    (hstep : pauseMachine.step s a = some s') : s'.PauseInv := by
  cases a with
  | interrupt intentId active =>
    cases hstep
    exact h.stop (fun _ => rfl) intentId active
  | interruptExecution executionId intentId active =>
    cases hstep
    exact h.stop (by simp) intentId active
  | resolveDelivery intentId msg =>
    cases hstep
    have hmade : (s.createStopIntent intentId none true).PauseInv :=
      h.createStopIntent fun _ => rfl
    have hset : ((s.createStopIntent intentId none true).settleStopIntent intentId).PauseInv :=
      hmade.update fun _ => ⟨rfl, rfl⟩
    exact { hset with }
  | capture | updateStopTarget =>
    cases hstep
    exact h.update fun _ => ⟨rfl, rfl⟩
  | settle intentId delivering =>
    simp only [pauseMachine] at hstep
    split at hstep
    · cases hstep
      exact h
    · cases hstep
      exact h.update fun _ => ⟨rfl, rfl⟩
  | sendMessage msg steers =>
    simp only [isPrompt, Bool.or_eq_true, Bool.and_eq_true, Bool.not_eq_true'] at hprompt
    have hunpaused : s.hasConversationQueuePause = false → ∀ i ∈ s.intents, i.queuePaused = false :=
      fun hnone i hi => by simpa using any_eq_false.1 hnone i hi
    simp only [pauseMachine] at hstep
    split at hstep
    · next hsteers =>
      cases hstep
      exact ⟨h.scope, fun _ => hunpaused (hprompt.resolve_right fun hboth => by simp_all)⟩
    · cases hstep
      -- the stops that paused the queue have settled, or none has paused it
      have hnone : ∀ i ∈ (if s.hasOutstandingConversationStop then s
          else s.clearSettledConversationQueuePause).intents, i.queuePaused = false := by
        split
        · next houtstanding => exact hunpaused (hprompt.resolve_right fun hboth => by simp_all)
        · next hset => exact h.cleared (Bool.eq_false_iff.2 hset)
      exact ⟨fun i hi hpaused => by simp [hnone i hi] at hpaused, fun _ => hnone⟩
  | dispatchNext ready =>
    simp only [pauseMachine] at hstep
    split at hstep <;>
    · cases hstep
      exact { h with }

omit h

theorem PauseInv.of_reachable (h : promptMachine.Reachable s) : s.PauseInv := by
  refine h.rule ⟨fun _ hi => absurd hi not_mem_nil, nofun⟩ fun u a v _ hinv hstep => ?_
  obtain ⟨hprompt, hstep⟩ := Machine.restrict_step_eq_some.1 hstep
  exact hinv.step hprompt hstep

/-- What a queue that is paused holds stays in it. -/
theorem claimed_step (hpaused : s.hasConversationQueuePause = true)
    (hstep : pauseMachine.step s a = some s') : s'.claimed = s.claimed := by
  have hcreate : ∀ {scope queuePaused intentId},
      (s.createStopIntent intentId scope queuePaused).claimed = s.claimed := by
    intros
    unfold PauseState.createStopIntent
    split <;> rfl
  cases a with
  | interrupt | interruptExecution =>
    cases hstep
    unfold PauseState.stop
    split <;> exact hcreate
  | resolveDelivery =>
    cases hstep
    exact hcreate
  | capture | updateStopTarget =>
    cases hstep
    rfl
  | settle | sendMessage =>
    simp only [pauseMachine] at hstep
    split at hstep <;> obtain ⟨⟩ := hstep <;> first | rfl | (split <;> rfl)
  | dispatchNext =>
    simp only [pauseMachine, hpaused, Bool.true_or, if_true] at hstep
    cases hstep
    rfl

/-- **A pause ends with the next message**, in every run whose messages are
sent when every stop of the conversation has settled, and do not steer, while
the queue is paused; and what is paused is not claimed. -/
theorem queue_pause_ends (h : promptMachine.Reachable s) :
    (s.hasOutstandingConversationStop = false → s.answered = true →
      s.hasConversationQueuePause = false) ∧
      ∀ a s', pauseMachine.step s a = some s' → s.hasConversationQueuePause = true →
        s'.claimed = s.claimed := by
  refine ⟨fun _ hanswered => List.any_eq_false.2 fun i hi => ?_,
    fun a s' hstep hpaused => claimed_step hpaused hstep⟩
  simp [(PauseInv.of_reachable h).answered hanswered i hi]

theorem queue_pause_ends_settled :
    (promptMachine.run [.interrupt "stop-1" 0, .settle "stop-1" false,
      .sendMessage "message-1" false]
      promptMachine.init).hasConversationQueuePause = false :=
  (queue_pause_ends ⟨_, Machine.exec_eq_run (by decide +kernel)⟩).1 (by decide +kernel)
    (by decide +kernel)

/-- **A message waits**: it is sent while the stop is outstanding, which then
settles. -/
theorem message_waits : ∃ s, pauseMachine.Reachable s ∧ s.hasOutstandingConversationStop = false ∧
    s.answered = true ∧ s.hasConversationQueuePause = true ∧ s.queue = ["message-1"] :=
  ⟨pauseMachine.run [.interrupt "stop-1" 1, .sendMessage "message-1" false,
      .updateStopTarget "stop-1" 0 .terminal, .settle "stop-1" false] pauseMachine.init,
    ⟨_, Machine.exec_eq_run (by decide +kernel)⟩, by decide +kernel⟩

end PauseState

end Remux
