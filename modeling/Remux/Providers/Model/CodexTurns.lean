import Remux.Common.Machine
import Remux.Providers.Model.CodexMapper

/-!
# The turns of a Codex session

`CodexProviderSession` runs one command at a time: it starts a turn or a
compaction and waits for the response, while the notifications of the
thread come in. A native turn is begun by the provider, for a start or of
its own; a start that was rejected begins none, and no start begins two.
What the provider has begun, which starts ended how and every binding that
was made are kept beside what the session holds.

A session is opened with the turns that the journal has bound. Only the
notifications of its own thread are here.
-/

namespace Remux

namespace Providers

/-- How a start of a turn stands. -/
inductive StartStatus where
  | waiting
  | accepted
  /-- It was not sent, or a compaction was active. -/
  | rejected
  | unknown
  deriving DecidableEq

/-- A start of a turn, with the native turn that the provider began for
it. -/
structure TurnStart where
  turnId : String
  status : StartStatus
  nativeTurnId : Option String
  deriving DecidableEq

/-- `activeTurn`. -/
structure ActiveTurn where
  remuxTurnId : String
  nativeTurnId : Option String
  deriving DecidableEq

/-- The turns that a session is opened with: the bindings of the journal
are one to one, and the active one is among them. -/
structure RestoredTurns where
  bindings : List (String × String)
  active : Option (String × String)
  turns_nodup : (bindings.map Prod.fst).Nodup
  natives_nodup : (bindings.map Prod.snd).Nodup
  active_mem : ∀ {binding}, active = some binding → binding ∈ bindings

/-- A session with a Codex thread. -/
structure CodexProviderSession where
  mapper : CodexEventMapper
  activeTurn : Option ActiveTurn
  completedNativeTurns : List String
  /-- The compaction that waits for its response. -/
  compacting : Option String
  /-- Every start, among them one that waits for its response. -/
  starts : List TurnStart
  /-- The native turns that the provider began of its own, and those of
  them that are control turns of a compaction. -/
  created : List String
  controls : List String
  /-- The native turns whose end was reported, now or earlier. -/
  ended : List String
  /-- Every binding the mapper or the session made, native turn first. -/
  bindings : List (String × String)
  emitted : List MappedEvent

namespace CodexProviderSession

variable (digest : String → String) (conversationId nativeSessionId : String)
  (s : CodexProviderSession)

/-- The native turns there are. -/
def natives : List String := s.created ++ s.starts.filterMap (·.nativeTurnId)

/-- No command waits for its response. -/
def Free : Prop := s.compacting = none ∧ ∀ start ∈ s.starts, start.status ≠ .waiting

instance : Decidable s.Free := inferInstanceAs (Decidable (_ ∧ _))

/-- What a notification maps to is emitted. -/
def emit (mapped : CodexEventMapper × List MappedEvent) : CodexProviderSession :=
  { s with mapper := mapped.1, emitted := s.emitted ++ mapped.2 }

/-- `startTurn`, up to its request; an active turn refuses it. -/
def startTurn (turnId : String) : CodexProviderSession :=
  if s.activeTurn.isSome then s
  else
    { s with
      activeTurn := some ⟨turnId, none⟩
      mapper := s.mapper.expectTurn turnId
      starts := s.starts ++ [⟨turnId, .waiting, none⟩] }

/-- The provider begins a native turn for a start. -/
def begin (i : ℕ) (start : TurnStart) (nativeTurnId : String) : CodexProviderSession :=
  { s with starts := s.starts.set i { start with nativeTurnId := some nativeTurnId } }

/-- The response that names the native turn. -/
def startAccepted (i : ℕ) (start : TurnStart) (nativeTurnId : String) : CodexProviderSession :=
  { s with
    starts := s.starts.set i { start with status := .accepted }
    mapper := s.mapper.bindTurn start.turnId nativeTurnId
    bindings := s.bindings ++ [(nativeTurnId, start.turnId)]
    activeTurn :=
      if nativeTurnId ∈ s.completedNativeTurns then s.activeTurn
      else some ⟨start.turnId, some nativeTurnId⟩ }

/-- A start that failed, whichever way. -/
def startFailed (i : ℕ) (start : TurnStart) (status : StartStatus) : CodexProviderSession :=
  { s with starts := s.starts.set i { start with status }, activeTurn := none }

/-- `handleNotification` of `turn/started`. -/
def turnStarted (nativeTurnId : String) : CodexProviderSession :=
  let mapped := s.mapper.turnStarted digest nativeTurnId
  { s.emit mapped with
    activeTurn := s.activeTurn.map fun active => { active with nativeTurnId := some nativeTurnId }
    bindings := s.bindings ++
      (s.activeTurn.toList.map fun active => (nativeTurnId, active.remuxTurnId)) ++
      (mapped.1.remuxTurnByNative.lookup nativeTurnId).toList.map fun turnId =>
        (nativeTurnId, turnId) }

/-- `handleNotification` of `turn/completed`. -/
def turnCompleted (nativeTurnId : String) (outcome : ProviderTurnOutcome) : CodexProviderSession :=
  { s.emit (s.mapper.turnCompleted digest nativeSessionId nativeTurnId outcome) with
    completedNativeTurns := nativeTurnId :: s.completedNativeTurns
    ended := nativeTurnId :: s.ended
    activeTurn := s.activeTurn.filter fun active => active.nativeTurnId ≠ some nativeTurnId }

end CodexProviderSession

/-- What the session's owner, the provider or its notifications do. -/
inductive CodexAction where
  | startTurn (turnId : String)
  /-- The provider begins a native turn for a start. -/
  | begin (i : ℕ) (nativeTurnId : String)
  /-- It begins one of its own. -/
  | create (nativeTurnId : String) (control : Bool)
  | accepted (i : ℕ)
  | rejected (i : ℕ)
  | unknown (i : ℕ)
  | compact (commandId : String)
  | compacted (notSent : Bool)
  | turnStarted (nativeTurnId : String)
  | turnCompleted (nativeTurnId : String) (outcome : ProviderTurnOutcome)
  | item (nativeTurnId : String) (count : ℕ)
  | compactionItem (nativeTurnId itemId : String) (completed : Bool)
  | threadCompacted (nativeTurnId : String) (id : Option String)
  | tokenUsage (reportedNativeTurnId : Option String)

namespace CodexProviderSession

variable (digest : String → String) (conversationId nativeSessionId : String)

/-- What an action does. -/
def codexStep (s : CodexProviderSession) : CodexAction → Option CodexProviderSession
  | .startTurn turnId => if s.Free then some (s.startTurn turnId) else none
  | .begin i nativeTurnId =>
    match s.starts[i]? with
    | some start =>
      if start.status ≠ .rejected ∧ start.nativeTurnId = none ∧ nativeTurnId ∉ s.natives then
        some (s.begin i start nativeTurnId)
      else none
    | none => none
  | .create nativeTurnId control =>
    if nativeTurnId ∉ s.natives then
      some { s with
        created := nativeTurnId :: s.created
        controls := if control then nativeTurnId :: s.controls else s.controls }
    else none
  | .accepted i =>
    match s.starts[i]? with
    | some start =>
      if start.status = .waiting then start.nativeTurnId.map (s.startAccepted i start) else none
    | none => none
  | .rejected i =>
    match s.starts[i]? with
    | some start =>
      if start.status = .waiting ∧ start.nativeTurnId = none then
        some (s.startFailed i start .rejected)
      else none
    | none => none
  | .unknown i =>
    match s.starts[i]? with
    | some start =>
      if start.status = .waiting then some (s.startFailed i start .unknown) else none
    | none => none
  | .compact commandId =>
    if s.Free then
      some (if s.activeTurn.isSome then s else { s with
          mapper := s.mapper.expectManualCompaction commandId
          compacting := some commandId })
    else none
  | .compacted notSent =>
    s.compacting.map fun commandId => { s with
      compacting := none
      mapper := if notSent then s.mapper.clearManualCompaction commandId else s.mapper }
  | .turnStarted nativeTurnId =>
    if nativeTurnId ∈ s.natives then some (s.turnStarted digest nativeTurnId) else none
  | .turnCompleted nativeTurnId outcome =>
    if nativeTurnId ∈ s.natives then
      some (s.turnCompleted digest nativeSessionId nativeTurnId outcome)
    else none
  | .item nativeTurnId count =>
    some (s.emit (s.mapper, s.mapper.itemEvents digest nativeTurnId count))
  | .compactionItem nativeTurnId itemId completed =>
    some (s.emit
      (s.mapper.compactionItem digest conversationId nativeTurnId itemId completed false true none))
  | .threadCompacted nativeTurnId id =>
    some (s.emit (s.mapper.threadCompacted digest conversationId nativeTurnId id))
  | .tokenUsage reportedNativeTurnId =>
    some (s.emit (s.mapper, s.mapper.tokenUsageUpdated reportedNativeTurnId))

/-- A session as it is opened. -/
def opened (restored : RestoredTurns) : CodexProviderSession where
  mapper := restored.bindings.foldl (fun m binding => m.bindTurn binding.1 binding.2) .empty
  activeTurn := restored.active.map fun binding => ⟨binding.1, some binding.2⟩
  completedNativeTurns := []
  compacting := none
  starts := restored.bindings.map fun binding => ⟨binding.1, .accepted, some binding.2⟩
  created := []
  controls := []
  ended := (restored.bindings.filter fun binding => restored.active ≠ some binding).map Prod.snd
  bindings := restored.bindings.map Prod.swap
  emitted := []

end CodexProviderSession

/-- The runs of a session. -/
def codexMachine (digest : String → String) (conversationId nativeSessionId : String)
    (restored : RestoredTurns) : Machine CodexProviderSession CodexAction where
  init := .opened restored
  step := CodexProviderSession.codexStep digest conversationId nativeSessionId

end Providers

end Remux
