import Remux.Journal.EndedTurns
import Remux.Journal.Model.Quiescence

/-!
# What a quiescent harness may still be doing

`readQuiescence` looks at the conversations whose head strand is ready,
and of each at its active turn, its queue and its compactions. Work that
is not theirs (`InSight`) it does not see: a turn of a child execution,
the first turn of a conversation that is prepared, and a message that is
being delivered. Nor does it see what is begun while it awaits the
statuses of the runtimes.
-/

namespace Remux.Journal

open AgentHarnessQuiescence CompactionRow List

variable {J : Journal}

/-! ## The statement -/

/-- **It is safe to restart**: no turn runs or recovers, nothing is being
delivered, and nothing is queued or being compacted. -/
structure RestartSafe (J : Journal) : Prop where
  turns : ∀ t ∈ J.turns.rows, t.state.live = false
  deliveries : ∀ a ∈ J.deliveries,
    a.state ≠ .preparing ∧ a.state ≠ .dispatching ∧ a.state ≠ .unknown
  queue : J.queue = []
  compactions : ∀ c ∈ J.compactions.rows, c.state ≠ .running ∧ c.state ≠ .queued

/-- **The work was in sight** of a call that has read `seen`: each turn in
flight was the active turn of a conversation listed there, each entry of
the queue was queued in one and each compaction ran in one, a compaction
that is queued has an entry in the queue, and nothing is being delivered. -/
structure InSight (J seen : Journal) : Prop where
  turns : ∀ t ∈ J.turns.rows, t.state.live = true →
    ∃ c ∈ seen.listedConversations, c.activeTurnId = some t.turnId
  deliveries : ∀ a ∈ J.deliveries,
    a.state ≠ .preparing ∧ a.state ≠ .dispatching ∧ a.state ≠ .unknown
  queue : ∀ q ∈ J.queue, ∃ c ∈ seen.listedConversations,
    q.conversationId = c.conversationId ∧ q ∈ seen.queue
  running : ∀ o ∈ J.compactions.rows, o.state = .running → ∃ c ∈ seen.listedConversations,
    ∃ r ∈ seen.compactions.rows, r.operationId = o.operationId ∧ r.state = .running ∧
      r.conversationId = c.conversationId
  queued : ∀ o ∈ J.compactions.rows, o.state = .queued →
    ∃ q ∈ J.queue, q.conversationId = o.conversationId

/-! ## What is observed of a conversation -/

/-- A conversation is calm. -/
structure Calm (J : Journal) (c : ConversationRow) : Prop where
  queue : J.queuedEntries c.conversationId = []
  compaction : (J.pendingCompactionOperation c.conversationId).any (·.state == .running) = false
  turn : c.activeTurnId = none

/-- One conversation leaves an observation quiescent exactly when it is
calm. -/
theorem quiescent_observe {q : AgentHarnessQuiescence} {c : ConversationRow} :
    (J.observeTurn (J.observeCompaction (J.observeQueue q c) c) c).quiescent = true ↔
      q.quiescent = true ∧ J.Calm c := by
  have hturn : ∀ q : AgentHarnessQuiescence, (J.observeTurn q c).quiescent = true ↔
      q.quiescent = true ∧ c.activeTurnId = none := by
    intro q
    unfold observeTurn
    cases hact : c.activeTurnId with
    | none => simp
    | some turnId =>
      dsimp only
      split <;> simp [quiescent]
  have hcompaction : ∀ q : AgentHarnessQuiescence, (J.observeCompaction q c).quiescent = true ↔
      q.quiescent = true ∧
        (J.pendingCompactionOperation c.conversationId).any (·.state == .running) = false := by
    intro q
    unfold observeCompaction
    cases hpend : (J.pendingCompactionOperation c.conversationId).any (·.state == .running) with
    | false => simp
    | true => simp [quiescent]
  have hqueue : (J.observeQueue q c).quiescent = true ↔
      q.quiescent = true ∧ J.queuedEntries c.conversationId = [] := by
    unfold observeQueue quiescent
    simp only [Bool.and_eq_true, beq_iff_eq, Nat.add_eq_zero_iff, length_eq_zero_iff]
    constructor
    · rintro ⟨⟨⟨hact, hqd, hnil⟩, hcompacting⟩, hrecov⟩
      exact ⟨⟨⟨⟨hact, hqd⟩, hcompacting⟩, hrecov⟩, hnil⟩
    · rintro ⟨⟨⟨⟨hact, hqd⟩, hcompacting⟩, hrecov⟩, hnil⟩
      exact ⟨⟨⟨hact, hqd, hnil⟩, hcompacting⟩, hrecov⟩
  rw [hturn, hcompaction, hqueue]
  exact ⟨fun ⟨⟨⟨hq, hnil⟩, hpend⟩, hact⟩ => ⟨hq, hnil, hpend, hact⟩,
    fun ⟨hq, hcalm⟩ => ⟨⟨⟨hq, hcalm.queue⟩, hcalm.compaction⟩, hcalm.turn⟩⟩

/-- The harness is quiescent exactly when the listed conversations are
calm: by induction on them. -/
theorem quiescent_iff_calm :
    J.readQuiescence.quiescent = true ↔ ∀ c ∈ J.listedConversations, J.Calm c := by
  unfold readQuiescence
  have hfold : ∀ (cs : List ConversationRow) (q : AgentHarnessQuiescence),
      (cs.foldl (fun q c =>
        J.observeTurn (J.observeCompaction (J.observeQueue q c) c) c) q).quiescent
        = true ↔ q.quiescent = true ∧ ∀ c ∈ cs, J.Calm c := by
    intro cs
    induction cs with
    | nil => intro q; simp
    | cons c cs ih =>
      intro q
      rw [foldl_cons, ih, quiescent_observe, forall_mem_cons, and_assoc]
  rw [hfold]
  exact ⟨And.right, fun h => ⟨rfl, h⟩⟩

/-! ## The pending compaction -/

theorem CompactionRow.first_running {a b : CompactionRow}
    (h : a.state = .running ∨ b.state = .running) : (a.first b).state = .running := by
  unfold first
  by_cases ha : a.state = .running <;> by_cases hb : b.state = .running
  · simp only [ha, hb, bne_self_eq_false, Bool.false_eq_true, if_false]
    split
    all_goals split <;> assumption
  · simp [ha, hb]
  · simp [ha, hb]
  · exact absurd h (by simp [ha, hb])

/-- **A running compaction is the pending one**: of those that are pending,
one that runs comes first. -/
theorem pending_running {o : CompactionRow} (ho : o ∈ J.compactions.rows)
    (hrun : o.state = .running) :
    (J.pendingCompactionOperation o.conversationId).any (·.state == .running) = true := by
  have hfold : ∀ (rows : List CompactionRow) (best : Option CompactionRow),
      (best.any (·.state == .running) = true ∨ ∃ r ∈ rows, r.state = .running) →
        (rows.foldl (fun best c => some (best.elim c (·.first c))) best).any
          (·.state == .running) = true := by
    intro rows
    induction rows with
    | nil =>
      rintro best (hbest | ⟨r, hr, -⟩)
      · exact hbest
      · exact absurd hr not_mem_nil
    | cons r rows ih =>
      intro best hor
      refine ih _ ?_
      by_cases hrows : ∃ r' ∈ rows, r'.state = .running
      · exact .inr hrows
      · refine .inl ?_
        have hhead : best.any (·.state == .running) = true ∨ r.state = .running := by
          rcases hor with hbest | ⟨r', hr', hrun'⟩
          · exact .inl hbest
          · rcases mem_cons.1 hr' with rfl | hr'
            · exact .inr hrun'
            · exact absurd ⟨r', hr', hrun'⟩ hrows
        cases best with
        | none => simpa using hhead
        | some b =>
          rw [Option.any_some, beq_iff_eq]
          exact first_running (hhead.imp_left fun h => by simpa using h)
  refine hfold _ _ (.inr ⟨o, mem_filter.2 ⟨ho, ?_⟩, hrun⟩)
  simp [hrun]

/-! ## Quiescence -/

/-- What is in flight in a journal was in sight of one whose listed
conversations were calm exactly when nothing is in flight. -/
theorem restartSafe_iff_inSight {seen : Journal}
    (hcalm : ∀ c ∈ seen.listedConversations, seen.Calm c) :
    J.RestartSafe ↔ J.InSight seen := by
  constructor
  · intro hsafe
    refine ⟨fun t ht hlive => ?_, hsafe.deliveries, fun q hq => ?_, fun o ho hrunning => ?_,
      fun o ho hqueued => ?_⟩
    · rw [hsafe.turns t ht] at hlive
      cases hlive
    · rw [hsafe.queue] at hq
      exact absurd hq List.not_mem_nil
    · exact absurd hrunning (hsafe.compactions o ho).1
    · exact absurd hqueued (hsafe.compactions o ho).2
  · intro hsight
    have hqueue : J.queue = [] := by
      refine List.eq_nil_iff_forall_not_mem.2 fun q hq => ?_
      obtain ⟨c, hc, hid, hseen⟩ := hsight.queue q hq
      have hmem : q ∈ seen.queuedEntries c.conversationId :=
        List.mem_filter.2 ⟨hseen, by simp [hid]⟩
      rw [(hcalm c hc).queue] at hmem
      exact absurd hmem List.not_mem_nil
    refine ⟨fun t ht => ?_, hsight.deliveries, hqueue, fun o ho => ⟨fun hrunning => ?_,
      fun hqueued => ?_⟩⟩
    · by_contra hlive
      rw [Bool.not_eq_false] at hlive
      obtain ⟨c, hc, hactive⟩ := hsight.turns t ht hlive
      rw [(hcalm c hc).turn] at hactive
      cases hactive
    · obtain ⟨c, hc, r, hr, -, hrun, hid⟩ := hsight.running o ho hrunning
      have hnone := (hcalm c hc).compaction
      rw [← hid, pending_running hr hrun] at hnone
      cases hnone
    · obtain ⟨q, hq, -⟩ := hsight.queued o ho hqueued
      rw [hqueue] at hq
      exact absurd hq List.not_mem_nil

/-- **A report of quiescence is safe to restart on exactly when the work
there is was in sight of the call**, whatever the calls and the journal. -/
theorem quiescence {s s' : QuiescenceReads} {call : ℕ} {answer : AgentHarnessQuiescence}
    (hreport : s.report call = some (answer, s')) (h : answer.quiescent = true) :
    ∃ c, s.calls[call]? = some c ∧ (s'.journal.RestartSafe ↔ s.journal.InSight c.seen) := by
  obtain ⟨c, hcall, heq⟩ := Option.map_eq_some_iff.1 hreport
  obtain ⟨rfl, rfl⟩ := Prod.mk.inj heq
  -- the answer is what was counted, on the journal as it was then
  rw [c.counted_eq] at h
  exact ⟨c, hcall, restartSafe_iff_inSight (quiescent_iff_calm.1 h)⟩

/-- The state of the federated run, with its root turn completed: a child
runs, and the harness counts nothing. -/
def childRun : List QuiescenceAction :=
  (federatedRun ++
    [JournalAction.appendProviderEvents [{ firstPassBlock "3" "a" "x" with
      observedAt := 5, event := .turnCompleted .completed, inScope := rfl }]]).map .journal ++
  [.readQuiescence]

/-- A turn begins while a call that has counted nothing awaits the statuses
of the runtimes. -/
def begunRun : List QuiescenceAction :=
  (placedRun.take 1).map .journal ++ [.readQuiescence] ++ (placedRun.drop 1).map .journal

/-- A call that reports quiescent while a turn is live tells a wrong answer. -/
theorem exists_not_restartSafe {actions : List QuiescenceAction}
    (hrun : (((QuiescenceReads.machine ["p"]).exec actions
      (QuiescenceReads.machine ["p"]).init).bind fun s => s.report 0).any (fun r =>
        r.1.quiescent && r.2.journal.turns.rows.any fun t => t.state.live) = true) :
    ∃ s answer s',
      (QuiescenceReads.machine ["p"]).exec actions (QuiescenceReads.machine ["p"]).init = some s ∧
        s.report 0 = some (answer, s') ∧ answer.quiescent = true ∧
          ¬s'.journal.RestartSafe := by
  obtain ⟨⟨answer, s'⟩, hbind, hlive⟩ := Option.any_eq_true _ _ |>.1 hrun
  obtain ⟨s, hexec, hreport⟩ := Option.bind_eq_some_iff.1 hbind
  rw [Bool.and_eq_true, List.any_eq_true] at hlive
  obtain ⟨hquiescent, t, ht, hlive⟩ := hlive
  refine ⟨s, answer, s', hexec, hreport, hquiescent, fun hsafe => ?_⟩
  rw [hsafe.turns t ht] at hlive
  cases hlive

/-- Neither a running child nor a turn that has begun since is seen. -/
theorem quiescence_childRun :
    (∃ s answer s',
      (QuiescenceReads.machine ["p"]).exec childRun (QuiescenceReads.machine ["p"]).init = some s ∧
        s.report 0 = some (answer, s') ∧ answer.quiescent = true ∧ ¬s'.journal.RestartSafe) ∧
    ∃ s answer s',
      (QuiescenceReads.machine ["p"]).exec begunRun (QuiescenceReads.machine ["p"]).init = some s ∧
        s.report 0 = some (answer, s') ∧ answer.quiescent = true ∧ ¬s'.journal.RestartSafe :=
  ⟨exists_not_restartSafe (by decide +kernel), exists_not_restartSafe (by decide +kernel)⟩

/-- After the late run, counted and reported at its end, nothing is in
flight. -/
theorem quiescence_lateRun : ∃ s answer s',
    (QuiescenceReads.machine ["p"]).exec (lateRun.map .journal ++ [.readQuiescence])
      (QuiescenceReads.machine ["p"]).init = some s ∧
    s.report 0 = some (answer, s') ∧ answer.quiescent = true ∧ s'.journal.RestartSafe := by
  have hrun : (((QuiescenceReads.machine ["p"]).exec (lateRun.map .journal ++ [.readQuiescence])
      (QuiescenceReads.machine ["p"]).init).bind fun s => s.report 0).any (fun r =>
        r.1.quiescent && r.2.journal.turns.rows.all (fun t => !t.state.live) &&
          r.2.journal.deliveries.isEmpty && r.2.journal.queue.isEmpty &&
          r.2.journal.compactions.rows.isEmpty) = true := by
    decide +kernel
  obtain ⟨⟨answer, s'⟩, hbind, hcalm⟩ := Option.any_eq_true _ _ |>.1 hrun
  obtain ⟨s, hexec, hreport⟩ := Option.bind_eq_some_iff.1 hbind
  simp only [Bool.and_eq_true, List.all_eq_true, Bool.not_eq_eq_eq_not, Bool.not_true,
    List.isEmpty_iff] at hcalm
  obtain ⟨⟨⟨⟨hquiescent, hturns⟩, hdeliveries⟩, hqueue⟩, hcompactions⟩ := hcalm
  obtain ⟨c, -, hiff⟩ := quiescence hreport hquiescent
  obtain ⟨_, -, heq⟩ := Option.map_eq_some_iff.1 hreport
  obtain ⟨-, rfl⟩ := Prod.mk.inj heq
  refine ⟨s, answer, _, hexec, hreport, hquiescent, hiff.2 ⟨fun t ht hlive => ?_, ?_, ?_, ?_, ?_⟩⟩
  · rw [hturns t ht] at hlive
    cases hlive
  · rw [hdeliveries]
    exact fun _ h => absurd h List.not_mem_nil
  · rw [hqueue]
    exact fun _ h => absurd h List.not_mem_nil
  · rw [hcompactions]
    exact fun _ h => absurd h List.not_mem_nil
  · rw [hcompactions]
    exact fun _ h => absurd h List.not_mem_nil

end Remux.Journal
