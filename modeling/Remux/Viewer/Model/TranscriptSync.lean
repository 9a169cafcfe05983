import Remux.Common.Machine
import Mathlib.Data.List.Sort

/-!
# Synchronisations of the transcript

The part of the viewer's resource store that asks for the transcript of
the active conversation. A request waits in a record of its window, which a
later request of that window is merged into; a timer takes the records in
the order in which they are due and loads the transcript for one of them at
a time. When the load has returned, and everything else that was ready to
run has run, the requests of its record are settled: as applied, if the
store then meets what the record requires.

The clock is read anew by every action, and what a read is answered, what
the cache holds of a conversation and what the streaming refresh commits
are given with the actions.
-/

namespace Remux

/-- `AgentTranscriptSyncRequest['window']`. -/
inductive TranscriptWindow where
  | tail (count : ℕ)
  | range (startTurnId endTurnId : String)
  | around (turnId : String) (before after : ℕ)
  deriving DecidableEq

/-- The status of the transcript that is shown. -/
inductive TranscriptStatus where
  | idle
  | loading
  | ready
  | failed
  deriving DecidableEq

/-- The fields of the store that a synchronisation reads and writes; of the
turns it holds, which ones they are. -/
structure TranscriptStore where
  activeConversationId : Option String
  basisSequence : Option ℕ
  serverGeneration : Option String
  status : TranscriptStatus
  turnResources : List String
  deriving DecidableEq

/-- `historySync`: whether the history is read again, or only when it is stale. -/
inductive HistorySync where
  | ifStale
  | force
  deriving DecidableEq

/-- `windowPolicy`: the window is kept, or the tail is shown. -/
inductive WindowPolicy where
  | preserve
  | tail
  deriving DecidableEq

/-- `InternalLoadOptions`, but for the signal. -/
structure LoadOptions where
  forceFullMeasure : Option Bool
  historySync : Option HistorySync
  preserveReady : Option Bool
  requiredBasisSequence : Option ℕ
  requiredServerGeneration : Option String
  requiredTurnId : Option String
  targetTurnId : Option String
  windowPolicy : Option WindowPolicy
  forceFresh : Option Bool
  generationRetry : Option ℕ
  window : Option TranscriptWindow
  deriving DecidableEq

/-- A request and its promise. -/
structure TranscriptSyncWaiter where
  id : ℕ
  conversationId : String
  options : LoadOptions
  deriving DecidableEq

/-- `PendingTranscriptSync`: the requests that one load is to answer. -/
structure PendingTranscriptSync where
  conversationId : String
  dueAt : ℕ
  options : LoadOptions
  requiredBasisSequence : Option ℕ
  requiredServerGeneration : Option String
  requiredTurnIds : List String
  waiters : List TranscriptSyncWaiter
  deriving DecidableEq

/-- How a promise of a request settles. -/
inductive SyncOutcome where
  | applied
  | unavailable
  | rejected
  deriving DecidableEq

/-- What a load returns. -/
inductive LoadResult where
  | applied
  | unavailable
  deriving DecidableEq

/-- A load under way, with what `loadTranscript` read of the store and
whether it has returned. -/
structure TranscriptLoad where
  pending : PendingTranscriptSync
  requestEpoch : ℕ
  preserveReady : Bool
  generationRetry : ℕ
  expectedServerGeneration : Option String
  result : Option LoadResult
  deriving DecidableEq

/-- A promise that was settled, and the store at that moment. -/
structure SyncSettlement where
  waiter : TranscriptSyncWaiter
  outcome : SyncOutcome
  store : TranscriptStore
  deriving DecidableEq

/-- The result for one turn of a synchronisation. -/
inductive SyncTurn where
  | ok (turnId : String)
  | notModified (turnId : String)
  | error (turnId : String)
  deriving DecidableEq

/-- The result for the transcript in an answer to a read. -/
inductive SyncResult where
  | ok (basisSequence : ℕ) (turns : List SyncTurn)
  | notModified (basisSequence : Option ℕ)
  | missing
  deriving DecidableEq

/-- An answer to a read, with the generation of the server that gave it. -/
structure SyncResponse where
  serverGeneration : String
  result : SyncResult
  deriving DecidableEq

/-- The store with what is pending, under way and settled. -/
structure SyncState where
  store : TranscriptStore
  transcriptGenerationEpoch : ℕ
  transcriptSyncInFlight : Bool
  /-- When the timer is due. -/
  transcriptSyncTimer : Option ℕ
  pendingTranscriptSyncs : List PendingTranscriptSync
  loads : List TranscriptLoad
  nextId : ℕ
  settlements : List SyncSettlement
  deriving DecidableEq

/-- `maxOptionalInteger`. -/
def maxOptionalInteger : Option ℕ → Option ℕ → Option ℕ
  | none, right => right
  | left, none => left
  | some left, some right => some (max left right)

/-- `mergeTranscriptSyncOptions`. -/
def mergeTranscriptSyncOptions (current incoming : LoadOptions) : LoadOptions where
  forceFullMeasure := some (current.forceFullMeasure.getD false ||
    incoming.forceFullMeasure.getD false)
  historySync := some
    (if current.historySync = some .force ∨ incoming.historySync = some .force then .force
      else .ifStale)
  preserveReady := some (current.preserveReady.getD true && incoming.preserveReady.getD true)
  requiredBasisSequence :=
    maxOptionalInteger current.requiredBasisSequence incoming.requiredBasisSequence
  requiredServerGeneration := incoming.requiredServerGeneration.or current.requiredServerGeneration
  requiredTurnId := incoming.requiredTurnId.or current.requiredTurnId
  targetTurnId := incoming.targetTurnId.or current.targetTurnId
  windowPolicy := some
    (if current.windowPolicy = some .tail ∨ incoming.windowPolicy = some .tail then .tail
      else .preserve)
  forceFresh := incoming.forceFresh.or current.forceFresh
  generationRetry := incoming.generationRetry.or current.generationRetry
  window := incoming.window.or current.window

namespace PendingTranscriptSync

/-- The turns a request requires: a text that is not empty. -/
def turnIds (options : LoadOptions) : List String := (options.requiredTurnId.filter (· ≠ "")).toList

/-- The record of a request that no other is waiting with. -/
def ofRequest (dueAt : ℕ) (waiter : TranscriptSyncWaiter) : PendingTranscriptSync where
  conversationId := waiter.conversationId
  dueAt
  options := waiter.options
  requiredBasisSequence := waiter.options.requiredBasisSequence
  requiredServerGeneration := waiter.options.requiredServerGeneration
  requiredTurnIds := turnIds waiter.options
  waiters := [waiter]

variable (pending : PendingTranscriptSync)

/-- The record is of the conversation and the window of the request. -/
def compatible (waiter : TranscriptSyncWaiter) : Bool :=
  pending.conversationId = waiter.conversationId && pending.options.window = waiter.options.window

/-- A request is merged into a record. -/
def merge (dueAt : ℕ) (waiter : TranscriptSyncWaiter) : PendingTranscriptSync where
  conversationId := pending.conversationId
  dueAt := min pending.dueAt dueAt
  options := mergeTranscriptSyncOptions pending.options waiter.options
  requiredBasisSequence :=
    maxOptionalInteger pending.requiredBasisSequence waiter.options.requiredBasisSequence
  requiredServerGeneration :=
    waiter.options.requiredServerGeneration.or pending.requiredServerGeneration
  requiredTurnIds := pending.requiredTurnIds ++ turnIds waiter.options
  waiters := pending.waiters ++ [waiter]

/-- `transcriptSyncFenceSatisfied`. -/
def fenceSatisfied (store : TranscriptStore) : Bool :=
  (pending.requiredBasisSequence.all fun required =>
      store.basisSequence.any fun basis => decide (required ≤ basis)) &&
    (pending.requiredServerGeneration.all fun required => store.serverGeneration = some required) &&
    pending.requiredTurnIds.all fun turnId => decide (turnId ∈ store.turnResources)

/-- The last record of the list that the request may be merged into takes
it, if there is one. -/
def mergeInto (dueAt : ℕ) (waiter : TranscriptSyncWaiter) :
    List PendingTranscriptSync → Option (List PendingTranscriptSync)
  | [] => none
  | pending :: rest =>
    match mergeInto dueAt waiter rest with
    | some merged => some (pending :: merged)
    | none =>
      if pending.compatible waiter then some (pending.merge dueAt waiter :: rest) else none

/-- The records in the order in which they are due. -/
def sort (pendings : List PendingTranscriptSync) : List PendingTranscriptSync :=
  pendings.insertionSort fun left right => left.dueAt ≤ right.dueAt

end PendingTranscriptSync

namespace SyncTurn

/-- The turn, if it is in the store after the synchronisation. -/
def kept (known : List String) : SyncTurn → Option String
  | ok turnId => some turnId
  | error turnId => some turnId
  | notModified turnId => if turnId ∈ known then some turnId else none

end SyncTurn

namespace SyncState

variable (s : SyncState)

/-- The promises of waiters are settled. -/
def settle (waiters : List TranscriptSyncWaiter) (outcome : SyncOutcome) : SyncState :=
  { s with settlements := s.settlements ++ waiters.map fun waiter => ⟨waiter, outcome, s.store⟩ }

/-- `scheduleTranscriptSyncDrain`. -/
def scheduleTranscriptSyncDrain (now : ℕ) : SyncState :=
  if s.transcriptSyncInFlight then s
  else
    match PendingTranscriptSync.sort s.pendingTranscriptSyncs with
    | [] => s
    | pending :: rest =>
      { s with
        pendingTranscriptSyncs := pending :: rest
        transcriptSyncTimer := some (max now pending.dueAt) }

/-- `requestTranscriptSync`. -/
def requestTranscriptSync (conversationId : String) (options : LoadOptions) (delayMs now : ℕ) :
    SyncState :=
  let waiter : TranscriptSyncWaiter := ⟨s.nextId, conversationId, options⟩
  let issued := { s with nextId := s.nextId + 1 }
  if s.store.activeConversationId ≠ some conversationId then issued.settle [waiter] .unavailable
  else
    let dueAt := now + delayMs
    let pendings :=
      (PendingTranscriptSync.mergeInto dueAt waiter s.pendingTranscriptSyncs).getD
        (s.pendingTranscriptSyncs ++ [PendingTranscriptSync.ofRequest dueAt waiter])
    { issued with pendingTranscriptSyncs := pendings }.scheduleTranscriptSyncDrain now

/-- `cancelPendingTranscriptSyncs`. -/
def cancelPendingTranscriptSyncs : SyncState :=
  { s with
    transcriptSyncTimer := none
    pendingTranscriptSyncs := [] }.settle
      (s.pendingTranscriptSyncs.flatMap PendingTranscriptSync.waiters) .unavailable

/-- The start of `loadTranscript`, up to its read. -/
def startLoad (pending : PendingTranscriptSync) (requestEpoch : ℕ) (preserveReady : Bool)
    (generationRetry : ℕ) : SyncState × TranscriptLoad :=
  ({ s with
      store := { s.store with
        status := if preserveReady = false ∨ s.store.status ≠ .ready then .loading
          else s.store.status } },
    { pending
      requestEpoch
      preserveReady
      generationRetry
      expectedServerGeneration := s.store.serverGeneration
      result := none })

/-- `drainNextTranscriptSync`, up to where it waits for the load. -/
def drainNextTranscriptSync (now : ℕ) : SyncState :=
  if s.transcriptSyncInFlight then s
  else
    match PendingTranscriptSync.sort s.pendingTranscriptSyncs with
    | [] => s
    | pending :: rest =>
      if now < pending.dueAt then
        { s with pendingTranscriptSyncs := pending :: rest }.scheduleTranscriptSyncDrain now
      else if s.store.activeConversationId ≠ some pending.conversationId then
        ({ s with pendingTranscriptSyncs := rest }.settle pending.waiters
          .unavailable).scheduleTranscriptSyncDrain now
      else
        let (started, load) := { s with
          pendingTranscriptSyncs := rest
          transcriptSyncInFlight := true }.startLoad pending s.transcriptGenerationEpoch
            (pending.options.preserveReady.getD false) (pending.options.generationRetry.getD 0)
        { started with loads := started.loads ++ [load] }

/-- `isStaleSync`. -/
def isStaleSync (load : TranscriptLoad) : Bool :=
  s.store.activeConversationId ≠ some load.pending.conversationId ||
    load.requestEpoch ≠ s.transcriptGenerationEpoch

/-- `transitionTranscriptGeneration`, but for the cache. -/
def transitionTranscriptGeneration (serverGeneration : String) : SyncState :=
  if s.store.serverGeneration = some serverGeneration then s
  else
    let cancelled := { s with
      transcriptGenerationEpoch := s.transcriptGenerationEpoch + 1 }.cancelPendingTranscriptSyncs
    { cancelled with
      store := { cancelled.store with
        basisSequence := none
        serverGeneration := some serverGeneration } }

/-- `markTranscriptUnavailable`. -/
def markTranscriptUnavailable : SyncState := { s with store := { s.store with status := .failed } }

/-- `applySync`. -/
def applySync (serverGeneration : String) (basisSequence : ℕ) (turns : List SyncTurn) : SyncState :=
  if s.store.serverGeneration = some serverGeneration ∧
      s.store.basisSequence.any (fun basis => decide (basisSequence < basis)) = true then s
  else
    { s with
      store := { s.store with
        basisSequence := some basisSequence
        serverGeneration := some serverGeneration
        status := .ready
        turnResources := turns.filterMap (SyncTurn.kept s.store.turnResources) } }

/-- `loadTranscript` from where its read is answered: the state and the
load, which has returned or has begun anew in the generation it found. -/
def answerLoad (load : TranscriptLoad) (response : SyncResponse) : SyncState × TranscriptLoad :=
  if s.isStaleSync load then (s, { load with result := some .unavailable })
  else if load.expectedServerGeneration.any (· ≠ response.serverGeneration) then
    let moved := s.transitionTranscriptGeneration response.serverGeneration
    if 1 ≤ load.generationRetry then
      (moved.markTranscriptUnavailable, { load with result := some .unavailable })
    else moved.startLoad load.pending moved.transcriptGenerationEpoch true
      (load.generationRetry + 1)
  else
    match response.result with
    | .notModified basisSequence =>
      if s.store.status = .ready then
        ({ s with
          store := { s.store with
            basisSequence := some (max (s.store.basisSequence.getD 0) (basisSequence.getD 0))
            serverGeneration := some response.serverGeneration } },
          { load with result := some .applied })
      else (s.markTranscriptUnavailable, { load with result := some .unavailable })
    | .missing => (s.markTranscriptUnavailable, { load with result := some .unavailable })
    | .ok basisSequence turns =>
      (s.applySync response.serverGeneration basisSequence turns,
        { load with result := some .applied })

/-- `loadTranscript` from where its read fails. -/
def failLoad (load : TranscriptLoad) : SyncState × TranscriptLoad :=
  (if s.isStaleSync load ∨ load.preserveReady = true ∧ s.store.status = .ready then s
    else s.markTranscriptUnavailable, { load with result := some .unavailable })

/-- `drainNextTranscriptSync` from where its load has returned; its flag is
taken back whether or not it has thrown. -/
def finishLoad (pending : PendingTranscriptSync) (outcome : SyncOutcome) (i now : ℕ) : SyncState :=
  { s.settle pending.waiters outcome with
    transcriptSyncInFlight := false
    loads := s.loads.eraseIdx i }.scheduleTranscriptSyncDrain now

/-- What the requests of a load are told. -/
def outcome (pending : PendingTranscriptSync) (result : LoadResult) : SyncOutcome :=
  if result = .applied ∧ pending.fenceSatisfied s.store = true then .applied else .unavailable

/-- `setActiveConversationId`, with what the cache holds of the
conversation; the request it ends with is one of its own. -/
def setActiveConversationId (conversationId : Option String) (cached : Option TranscriptStore)
    (measured : Bool) : SyncState :=
  if s.store.activeConversationId = conversationId then s
  else
    let cancelled := { s with
      transcriptGenerationEpoch := s.transcriptGenerationEpoch + 1 }.cancelPendingTranscriptSyncs
    { cancelled with
      store :=
        match conversationId, cached with
        | none, _ => ⟨none, none, none, .idle, []⟩
        | some _, some snapshot =>
          { snapshot with activeConversationId := conversationId, status := .ready }
        | some _, none => ⟨conversationId, none, none, if measured then .loading else .idle, []⟩ }

/-- `setTranscriptLifecycleState`, when the viewer is active no more. -/
def deactivate : SyncState :=
  { s with
    transcriptGenerationEpoch := s.transcriptGenerationEpoch + 1 }.cancelPendingTranscriptSyncs

/-- `observeTranscriptServerGeneration`; the request it ends with is one of
its own. -/
def observeTranscriptServerGeneration (serverGeneration : String) : SyncState :=
  if s.store.serverGeneration = none then
    { s with store := { s.store with serverGeneration := some serverGeneration } }
  else s.transitionTranscriptGeneration serverGeneration

end SyncState

/-- The requests, the timer and the replies, as they come in. -/
inductive SyncAction where
  | request (conversationId : String) (options : LoadOptions) (delayMs now : ℕ)
  | timer (now : ℕ)
  | answer (load : ℕ) (response : SyncResponse)
  | fail (load : ℕ)
  | finish (load now : ℕ)
  | throw (load now : ℕ)
  | activate (conversationId : Option String) (cached : Option TranscriptStore) (measured : Bool)
  | deactivate
  | observe (serverGeneration : String)
  | refresh (basisSequence : ℕ) (turnResources : List String)

/-- **The runs of the synchronisation.** -/
def syncMachine : Machine SyncState SyncAction where
  init :=
    { store := ⟨none, none, none, .idle, []⟩
      transcriptGenerationEpoch := 0
      transcriptSyncInFlight := false
      transcriptSyncTimer := none
      pendingTranscriptSyncs := []
      loads := []
      nextId := 0
      settlements := [] }
  step s
    | .request conversationId options delayMs now =>
      some (s.requestTranscriptSync conversationId options delayMs now)
    | .timer now =>
      match s.transcriptSyncTimer with
      | none => none
      | some _ => some ({ s with transcriptSyncTimer := none }.drainNextTranscriptSync now)
    | .answer i response =>
      match s.loads[i]? with
      | none => none
      | some load =>
        if load.result = none then
          let (t, answered) := s.answerLoad load response
          some { t with loads := t.loads.set i answered }
        else none
    | .fail i =>
      match s.loads[i]? with
      | none => none
      | some load =>
        if load.result = none then
          let (t, failed) := s.failLoad load
          some { t with loads := t.loads.set i failed }
        else none
    | .finish i now =>
      match s.loads[i]? with
      | none => none
      | some load => load.result.map fun result =>
          s.finishLoad load.pending (s.outcome load.pending result) i now
    | .throw i now =>
      match s.loads[i]? with
      | none => none
      | some load => some (s.finishLoad load.pending .rejected i now)
    | .activate conversationId cached measured =>
      some (s.setActiveConversationId conversationId cached measured)
    | .deactivate => some s.deactivate
    | .observe serverGeneration => some (s.observeTranscriptServerGeneration serverGeneration)
    | .refresh basisSequence turnResources =>
      some { s with store := { s.store with
        basisSequence := some basisSequence
        turnResources } }

/-! ## What a request is promised -/

/-- **The request's own fence** holds of a store. -/
structure TranscriptSyncWaiter.Fenced (waiter : TranscriptSyncWaiter) (store : TranscriptStore) :
    Prop where
  conversation : store.activeConversationId = some waiter.conversationId
  basisSequence : ∀ required, waiter.options.requiredBasisSequence = some required →
    ∃ basis, store.basisSequence = some basis ∧ required ≤ basis
  serverGeneration : ∀ required, waiter.options.requiredServerGeneration = some required →
    store.serverGeneration = some required
  turn : ∀ turnId ∈ PendingTranscriptSync.turnIds waiter.options, turnId ∈ store.turnResources

namespace SyncState

variable (s : SyncState)

/-- The requests that wait. -/
def waiting : List TranscriptSyncWaiter :=
  s.pendingTranscriptSyncs.flatMap PendingTranscriptSync.waiters ++
    s.loads.flatMap fun load => load.pending.waiters

/-- **What is promised**: every request is settled once or waits, one load
is under way at most, a request that waits has a timer or a load, and one
that is told it was applied has its own fence. -/
structure Promised : Prop where
  settled : (s.settlements.map (·.waiter.id) ++ s.waiting.map (·.id)).Perm (List.range s.nextId)
  single : s.loads.length ≤ 1
  driven : s.pendingTranscriptSyncs ≠ [] →
    s.transcriptSyncTimer.isSome = true ∨ s.loads ≠ []
  fenced : ∀ settlement ∈ s.settlements, settlement.outcome = .applied →
    settlement.waiter.Fenced settlement.store

/-- **The steps that keep to the fences.** A request that requires a
generation is not merged into a record that requires another one, and when
a load has been applied the conversation is not left before its requests
are told. -/
def KeepsFences : SyncAction → Prop
  | .request conversationId options _ _ =>
    s.store.activeConversationId = some conversationId → ∀ pending ∈ s.pendingTranscriptSyncs,
      pending.compatible ⟨s.nextId, conversationId, options⟩ = true →
        pending.requiredServerGeneration = none ∨ options.requiredServerGeneration = none ∨
          pending.requiredServerGeneration = options.requiredServerGeneration
  | .finish i _ => ∀ load ∈ s.loads[i]?, load.result = some .applied →
      s.store.activeConversationId = some load.pending.conversationId
  | _ => True

instance (action : SyncAction) : Decidable (s.KeepsFences action) := by
  cases action <;> unfold KeepsFences <;> infer_instance

end SyncState

end Remux
