import Mathlib.Logic.Basic

/-!
# The runtime of a Codex thread

`ThreadRuntimeStore` of `thread_runtime.rs`, for one thread: which turn is
active, and whether the thread is busy. The store is keyed by the thread
id, and no operation on one thread reads another. Errors and times are
left out: nothing asks them.
-/

namespace Remux

/-- `ThreadRuntimeStatus`. -/
inductive ThreadRuntimeStatus where
  | failed
  | ready
  | running
  | stopping
  deriving DecidableEq

/-- The status that a `thread/status/changed` carries: a text, or an
object with a `type`. -/
inductive ThreadStatus where
  | text (status : String)
  | object (type : String)
  deriving DecidableEq

/-- `normalize_thread_status`. -/
def normalizeThreadStatus : ThreadStatus → Option ThreadRuntimeStatus
  | .text "running" | .text "inProgress" | .text "in_progress" => some .running
  | .text "failed" | .text "error" => some .failed
  | .text "stopping" | .text "interrupting" => some .stopping
  | .text "ready" | .text "idle" | .text "completed" => some .ready
  | .text _ => none
  | .object "active" => some .running
  | .object "idle" | .object "notLoaded" => some .ready
  | .object "systemError" => some .failed
  | .object _ => none

/-- What the app server tells about the thread. The status of a completed
turn may be missing. -/
inductive CodexNotification where
  | turnStarted (turnId : Option String)
  | itemStarted (turnId : Option String)
  | turnCompleted (status : Option String)
  | error
  | threadStatusChanged (status : ThreadStatus)
  deriving DecidableEq

/-- `ThreadRuntimeState`. -/
structure ThreadRuntimeState where
  activeTurnId : Option String
  status : ThreadRuntimeStatus
  deriving DecidableEq

namespace ThreadRuntimeState

/-- The default state. -/
def new : ThreadRuntimeState := ⟨none, .ready⟩

/-- `is_busy`. -/
def isBusy (runtime : ThreadRuntimeState) : Bool :=
  decide (runtime.status = .running ∨ runtime.status = .stopping)

/-- `is_stopping`. -/
def isStopping (runtime : ThreadRuntimeState) : Bool := decide (runtime.status = .stopping)

/-- `record_turn_accepted`; without the times, `record_turn_started` is
the same. -/
def recordTurnAccepted (runtime : ThreadRuntimeState) (turnId : Option String) :
    ThreadRuntimeState :=
  ⟨turnId <|> runtime.activeTurnId, .running⟩

/-- `record_turn_stopping`. -/
def recordTurnStopping (turnId : String) : ThreadRuntimeState := ⟨some turnId, .stopping⟩

/-- `record_turn_failed`. -/
def recordTurnFailed : ThreadRuntimeState := ⟨none, .failed⟩

/-- `record_notification`. -/
def recordNotification (runtime : ThreadRuntimeState) : CodexNotification → ThreadRuntimeState
  | .turnStarted turnId => runtime.recordTurnAccepted turnId
  | .itemStarted turnId =>
    if runtime.status = .stopping then runtime else runtime.recordTurnAccepted turnId
  | .turnCompleted status =>
    if status = some "failed" then recordTurnFailed else ⟨none, .ready⟩
  | .error => recordTurnFailed
  | .threadStatusChanged status =>
    match normalizeThreadStatus status with
    | some status =>
      ⟨if status = .running then runtime.activeTurnId else none, status⟩
    | none => runtime

end ThreadRuntimeState

end Remux
