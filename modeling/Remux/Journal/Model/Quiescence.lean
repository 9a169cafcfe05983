import Remux.Journal.Model.Runs

/-!
# Quiescence

`readQuiescence` of `native-coordinator.ts` over the reads of the journal
that it makes: whether the harness can be restarted without destroying
work. It counts, awaits the statuses of the runtimes, and only then
reports what it has counted; the journal is written to in between. The
sessions that are open, and the time of the last activity, are left out,
for nothing is decided by them here, and with them the order in which
conversations come.
-/

namespace Remux.Journal

variable (J : Journal)

/-- The conversations of `conversations()`: those whose head strand is
ready. -/
def listed (c : ConversationRow) : Bool :=
  J.providerInstances.contains c.providerInstanceId &&
    J.heads.rows.any fun h => h.conversationId == c.conversationId &&
      J.strands.rows.any fun s => s.strandId == h.strandId && s.state == .ready

/-- `conversations`. -/
def listedConversations : List ConversationRow := J.conversations.rows.filter J.listed

/-- `queuedEntries`. -/
def queuedEntries (conversationId : String) : List QueueRow :=
  J.queue.filter (·.conversationId == conversationId)

/-- The operation comes first: `ORDER BY (state = 'running') DESC,
created_at DESC, operation_id DESC`. -/
def CompactionRow.first (a b : CompactionRow) : CompactionRow :=
  if (a.state == .running) != (b.state == .running) then (if a.state == .running then a else b)
  else if a.createdAt ≠ b.createdAt then (if b.createdAt < a.createdAt then a else b)
  else if b.operationId < a.operationId then a else b

/-- `pendingCompactionOperation`. -/
def pendingCompactionOperation (conversationId : String) : Option CompactionRow :=
  (J.compactions.rows.filter fun c => c.conversationId == conversationId &&
    (c.state == .running || c.state == .queued)).foldl
    (fun best c => some (best.elim c (·.first c))) none

/-- `AgentHarnessQuiescence`, but for what is left out. -/
structure AgentHarnessQuiescence where
  activeTurns : ℕ
  queuedMessages : ℕ
  compacting : ℕ
  recovering : ℕ
  blockers : List String
  deriving DecidableEq

/-- Nothing was counted that a restart would destroy. -/
def AgentHarnessQuiescence.quiescent (q : AgentHarnessQuiescence) : Bool :=
  q.activeTurns == 0 && q.queuedMessages == 0 && q.compacting == 0 && q.recovering == 0

/-- What is queued in a conversation. -/
def observeQueue (q : AgentHarnessQuiescence) (c : ConversationRow) : AgentHarnessQuiescence :=
  let queued := (J.queuedEntries c.conversationId).length
  { q with
    queuedMessages := q.queuedMessages + queued
    blockers := if 0 < queued then
        q.blockers ++ [c.conversationId ++ ": " ++ toString queued ++ " queued"]
      else q.blockers }

/-- Whether a conversation is compacting. -/
def observeCompaction (q : AgentHarnessQuiescence) (c : ConversationRow) : AgentHarnessQuiescence :=
  if (J.pendingCompactionOperation c.conversationId).any (·.state == .running) then
    { q with compacting := q.compacting + 1
             blockers := q.blockers ++ [c.conversationId ++ ": compacting"] }
  else q

/-- The active turn of a conversation. -/
def observeTurn (q : AgentHarnessQuiescence) (c : ConversationRow) : AgentHarnessQuiescence :=
  match c.activeTurnId with
  | none => q
  | some turnId =>
    -- a turn in any other state, or without a row, counts as in flight
    if (J.turn turnId).any (·.state == .recovering) then
      { q with recovering := q.recovering + 1
               blockers := q.blockers ++ [c.conversationId ++ ": recovering"] }
    else
      { q with activeTurns := q.activeTurns + 1
               blockers := q.blockers ++ [c.conversationId ++ ": turn in flight"] }

/-- **`readQuiescence`** as far as its `await`: what it counts. -/
def readQuiescence : AgentHarnessQuiescence :=
  J.listedConversations.foldl
    (fun q c => J.observeTurn (J.observeCompaction (J.observeQueue q c) c) c)
    { activeTurns := 0, queuedMessages := 0, compacting := 0, recovering := 0, blockers := [] }

/-! ## Calls beside the journal's writers -/

/-- A call of `readQuiescence` at `await this.readRuntimeStatuses()`: the
journal as the call has seen it, and what it has counted there. -/
structure QuiescenceCall where
  seen : Journal
  counted : AgentHarnessQuiescence
  counted_eq : counted = seen.readQuiescence

/-- The journal, and the calls that await the statuses of the runtimes. -/
structure QuiescenceReads where
  journal : Journal
  calls : List QuiescenceCall

/-- A step of a writer of the journal, or of a call. -/
inductive QuiescenceAction where
  | journal (action : JournalAction)
  | readQuiescence
  | runtimeStatuses (call : ℕ)

namespace QuiescenceReads

variable (s : QuiescenceReads)

/-- A call counts, and awaits. -/
def count : QuiescenceReads where
  journal := s.journal
  calls := s.calls ++ [⟨s.journal, s.journal.readQuiescence, rfl⟩]

/-- The statuses are there, and the call reports what it has counted; it
does not count again. -/
def report (call : ℕ) : Option (AgentHarnessQuiescence × QuiescenceReads) :=
  (s.calls[call]?).map fun c => (c.counted, { s with calls := s.calls.eraseIdx call })

/-- What a step leads to. -/
def step : QuiescenceAction → Option QuiescenceReads
  | .journal action => (s.journal.apply action).toOption.map fun journal => { s with journal }
  | .readQuiescence => some s.count
  | .runtimeStatuses call => (s.report call).map Prod.snd

/-- **The calls and the journal as a machine.** -/
def machine (providerInstances : List String) : Machine QuiescenceReads QuiescenceAction where
  init := ⟨new providerInstances, []⟩
  step := step

end QuiescenceReads

end Remux.Journal
