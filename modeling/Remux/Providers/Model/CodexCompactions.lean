import Remux.Common.Machine
import Remux.Providers.Model.CodexMapper

/-!
# The compactions of a Codex thread

Compactions occur in the native turns of a thread, one after another. Each
is an item of its turn, with one id in the notifications and another in the
snapshots, and the notification `thread/compacted` may report it too. What
occurred, which operations were registered and withdrawn, and what was
reported is kept beside the mapper; a report is kept with the compaction it
is about.
-/

namespace Remux

namespace Providers

/-- A compaction: its native turn, and which of that turn's it is. -/
abbrev Compaction := String × ℕ

/-- The ids of the items: of the notifications and of the snapshots. -/
structure CompactionItems where
  live : String → ℕ → String
  listed : String → ℕ → String
  live_injective : ∀ {t i j}, live t i = live t j → i = j
  listed_injective : ∀ {t i j}, listed t i = listed t j → i = j
  apart : ∀ {t i j}, live t i ≠ listed t j
  /-- None is what `thread/compacted` is known by. -/
  live_ne : ∀ {t i x}, live t i ≠ "thread:" ++ x
  listed_ne : ∀ {t i x}, listed t i ≠ "thread:" ++ x

/-- A turn of a snapshot lists the first of its compactions. -/
structure ListedTurn where
  nativeTurnId : String
  compactions : ℕ
  others : Bool
  deriving DecidableEq

/-- The turn as the mapper reads it. -/
def ListedTurn.snapshotTurn (items : CompactionItems) (turn : ListedTurn) : SnapshotTurn :=
  ⟨turn.nativeTurnId, (List.range' 0 turn.compactions).map (items.listed turn.nativeTurnId),
    turn.others⟩

/-- The compaction that occurred at a position. -/
def compactionAt (occurred : List String) (p : ℕ) : Option Compaction :=
  occurred[p]?.map fun t => (t, (occurred.take p).count t)

/-- A thread whose compactions one mapper is told of. -/
structure CompactionHistory where
  mapper : CodexEventMapper
  /-- The native turn of each compaction, as they occurred. -/
  occurred : List String
  /-- The operations that were registered, with how many compactions had
  occurred. -/
  registrations : List (String × ℕ)
  /-- Those that the mapper no longer holds though no compaction got
  them. -/
  withdrawn : List String
  reports : List (Compaction × MappedEvent)
  /-- The compactions whose completion the mapper was told. -/
  finished : List Compaction

namespace CompactionHistory

variable (s : CompactionHistory)

/-- A compaction has got the operation. -/
def gave (operationId : String) : Bool :=
  s.mapper.compactionOperationByOccurrence.entries.any fun entry =>
    entry.2 = (⟨operationId, .manual⟩ : CompactionOperation)

/-- What is withdrawn when the mapper lets go of the pending operation. -/
def withdraw : List String :=
  match s.mapper.pendingManualCompactionId with
  | some operationId => if s.gave operationId then s.withdrawn else operationId :: s.withdrawn
  | none => s.withdrawn

/-- The compaction that a report of a snapshot is about, by its item. -/
def listedCompaction (items : CompactionItems) (nativeTurnId itemId : String) : Compaction :=
  (nativeTurnId, ((List.range' 0 (s.occurred.count nativeTurnId)).map
    (items.listed nativeTurnId)).idxOf itemId)

/-- The reports among what a notification of a compaction maps to. -/
def reportsOf (compaction : Compaction) (events : List MappedEvent) :
    List (Compaction × MappedEvent) :=
  (events.filter fun event => (CodexEventMapper.compactionEventId event).isSome).map (compaction, ·)

/-- The reports among what a snapshot maps to. -/
def listedReports (items : CompactionItems) (events : List MappedEvent) :
    List (Compaction × MappedEvent) :=
  events.filterMap fun event =>
    match event with
    | .compaction nativeTurnId (some itemId) _ _ _ _ =>
      some (s.listedCompaction items nativeTurnId itemId, event)
    | _ => none

end CompactionHistory

/-- What the provider or the mapper's owner does. -/
inductive CompactionAction where
  | occur (nativeTurnId : String)
  | expectManual (operationId : String)
  | clearManual (operationId : String)
  | expectTurn (remuxTurnId : String)
  | bindTurn (remuxTurnId nativeTurnId : String)
  | turnStarted (nativeTurnId : String)
  | turnCompleted (nativeTurnId : String) (outcome : ProviderTurnOutcome)
  /-- `item/started` or `item/completed` of a compaction. -/
  | live (nativeTurnId : String) (i : ℕ) (completed : Bool)
  | threadCompacted (nativeTurnId : String) (i : ℕ) (id : Option String)
  | snapshot (turns : List ListedTurn)

namespace CompactionHistory

variable (digest : String → String) (conversationId nativeSessionId : String)
  (inherited : List String) (items : CompactionItems)

/-- What an action does. A command is run once, so an operation is
registered once. -/
def compactionStep (s : CompactionHistory) : CompactionAction → Option CompactionHistory
  | .occur nativeTurnId => some { s with occurred := s.occurred ++ [nativeTurnId] }
  | .expectManual operationId =>
    if operationId ∉ s.registrations.map Prod.fst then
      some { s with
        mapper := s.mapper.expectManualCompaction operationId
        registrations := s.registrations ++ [(operationId, s.occurred.length)]
        withdrawn := s.withdraw }
    else none
  | .clearManual operationId =>
    some { s with
      mapper := s.mapper.clearManualCompaction operationId
      withdrawn := if s.mapper.pendingManualCompactionId = some operationId then s.withdraw
        else s.withdrawn }
  | .expectTurn remuxTurnId => some { s with mapper := s.mapper.expectTurn remuxTurnId }
  | .bindTurn remuxTurnId nativeTurnId =>
    some { s with mapper := s.mapper.bindTurn remuxTurnId nativeTurnId }
  | .turnStarted nativeTurnId =>
    some { s with mapper := (s.mapper.turnStarted digest nativeTurnId).1 }
  | .turnCompleted nativeTurnId outcome =>
    let mapped := s.mapper.turnCompleted digest nativeSessionId nativeTurnId outcome
    some { s with
      mapper := mapped.1
      withdrawn := if mapped.1.pendingManualCompactionId = s.mapper.pendingManualCompactionId
        then s.withdrawn else s.withdraw }
  | .live nativeTurnId i completed =>
    if i < s.occurred.count nativeTurnId then
      let mapped := s.mapper.compactionItem digest conversationId nativeTurnId
        (items.live nativeTurnId i) completed false true none
      some { s with
        mapper := mapped.1
        reports := s.reports ++ reportsOf (nativeTurnId, i) mapped.2
        finished := if completed then (nativeTurnId, i) :: s.finished else s.finished }
    else none
  | .threadCompacted nativeTurnId i id =>
    if i < s.occurred.count nativeTurnId then
      let mapped := s.mapper.threadCompacted digest conversationId nativeTurnId id
      some { s with
        mapper := mapped.1
        reports := s.reports ++ reportsOf (nativeTurnId, i) mapped.2
        finished := (nativeTurnId, i) :: s.finished }
    else none
  | .snapshot turns =>
    if ∀ turn ∈ turns, turn.compactions ≤ s.occurred.count turn.nativeTurnId then
      let mapped := s.mapper.mapThreadSnapshot digest conversationId inherited
        (turns.map (·.snapshotTurn items))
      some { s with
        mapper := mapped.1
        reports := s.reports ++ s.listedReports items mapped.2
        finished := (turns.filter (·.nativeTurnId ∉ inherited)).flatMap (fun turn =>
          (List.range' 0 turn.compactions).map (turn.nativeTurnId, ·)) ++ s.finished }
    else none

/-- Nothing has occurred. -/
def empty : CompactionHistory where
  mapper := .empty
  occurred := []
  registrations := []
  withdrawn := []
  reports := []
  finished := []

end CompactionHistory

/-- The runs of a thread's compactions. -/
def compactionMachine (digest : String → String) (conversationId nativeSessionId : String)
    (inherited : List String) (items : CompactionItems) :
    Machine CompactionHistory CompactionAction where
  init := .empty
  step := CompactionHistory.compactionStep digest conversationId nativeSessionId inherited items

end Providers

end Remux
