import Mathlib.Algebra.GroupWithZero.Nat
import Remux.Rpc.Requests

/-!
# Every request is answered in the end

A run of the server's own steps ends (`length_le_remaining`), and where it
ends every job is done: what a job can wait for is its lane, a permit,
and the registration barrier of its connection. A registration is never
waited for in vain as long as no other request of its lane was ahead of
it; `registration_deadlocks` is the state in which one was.
-/

namespace Remux

open List hiding getElem?_eq_some_iff
open DispatchJob Option

/-! ## The lane of a connection -/

variable {c : ℕ}

/-- A key that does not begin like a connection's lane. -/
theorem ne_connectionLane {pre : String} (rest : String)
    (h : ∀ cs, ("control:connection:".toList.isPrefixOf (pre.toList ++ cs)) = false) :
    pre ++ rest ≠ connectionLane c := by
  intro heq
  have hprefix : "control:connection:".toList.isPrefixOf (connectionLane c).toList := by
    rw [toList_connectionLane, isPrefixOf_iff_prefix]
    exact prefix_append ..
  rw [← heq, String.toList_append, h] at hprefix
  cases hprefix

theorem ne_connectionLane_literal {key : String}
    (h : ("control:connection:".toList.isPrefixOf key.toList) = false) :
    key ≠ connectionLane c := by
  rintro rfl
  have hprefix : "control:connection:".toList.isPrefixOf (connectionLane c).toList := by
    rw [toList_connectionLane, isPrefixOf_iff_prefix]
    exact prefix_append ..
  rw [h] at hprefix
  cases hprefix

variable (method : String) (work : DispatchWork)

theorem codexLane_ne_connectionLane (c : ℕ) : (codexLane method work).1 ≠ connectionLane c := by
  unfold codexLane
  split_ifs
  any_goals exact ne_connectionLane_literal rfl
  exact ne_connectionLane _ fun _ => rfl

theorem agentLane_ne_connectionLane (c : ℕ) : (agentLane method work).1 ≠ connectionLane c := by
  unfold agentLane
  split_ifs
  · exact ne_connectionLane_literal rfl
  · exact ne_connectionLane _ fun _ => rfl

/-- A terminal's lane is not that of a connection. -/
theorem terminalLane_ne_connectionLane (c : ℕ) :
    (terminalLane method work).1 ≠ connectionLane c := by
  unfold terminalLane
  split_ifs
  · exact ne_connectionLane_literal rfl
  · dsimp only
    rw [String.append_assoc, String.append_assoc]
    exact ne_connectionLane _ fun _ => rfl

/-- **A connection's lane is its own**, and serial. -/
theorem dispatchLane_eq_connectionLane {c' : ℕ} {method : String} {work : DispatchWork}
    (h : (dispatchLane c method work).1 = connectionLane c') :
    c = c' ∧ (dispatchLane c method work).2 = .serial := by
  unfold dispatchLane at h ⊢
  split at h
  · exact absurd h (ne_connectionLane_literal rfl)
  rw [if_neg ‹_›]
  split at h
  · next hmeth =>
    rw [if_pos hmeth]
    exact ⟨connectionLane_inj h, rfl⟩
  exfalso
  split at h
  · exact absurd h (ne_connectionLane_literal rfl)
  split at h
  · exact absurd h (ne_connectionLane_literal rfl)
  split at h
  · exact absurd h (ne_connectionLane_literal rfl)
  split at h
  · exact absurd h (ne_connectionLane _ fun _ => rfl)
  split at h
  · exact codexLane_ne_connectionLane _ _ _ h
  split at h
  · exact agentLane_ne_connectionLane _ _ _ h
  split at h
  · exact terminalLane_ne_connectionLane _ _ _ h
  split at h
  · exact absurd h (ne_connectionLane _ fun _ => rfl)
  · exact absurd h (ne_connectionLane_literal rfl)

section

variable {floatText : Double → List Char}

/-! ## The registration barrier -/

/-- A registration that has not yet given up its count of the barrier. -/
def DispatchJob.holdsBarrier (c : ℕ) (job : DispatchJob) : Bool :=
  decide (job.connectionId = c) && job.isRegistration &&
    decide (job.phase ∉ [.clearing, .leaving, .done])

/-- A registration between its `fetch_sub` and its `store(0)`. -/
def DispatchJob.clears (c : ℕ) (job : DispatchJob) : Bool :=
  decide (job.connectionId = c) && decide (job.phase = .clearing)

variable {j : ℕ} {turn : Turn} {job : DispatchJob} {client : WsClient} {lanes : Assoc String Lane}
variable {permits : DispatchMode → ℕ} {moved : Moved}

/-- **What a step of a job does to its client's barrier.** -/
theorem barrier_of_jobStep (h : jobStep floatText j turn job client lanes permits = some moved) :
    (moved.client.registrationPending = client.registrationPending ∧
      moved.job.phase ≠ .clearing ∧ job.phase ≠ .clearing ∧
      (job.isRegistration → (moved.job.phase ∈ [.clearing, .leaving, .done] ↔
        job.phase ∈ [.clearing, .leaving, .done]))) ∨
    (moved.client.registrationPending = client.registrationPending - 1 ∧
      job.phase = .releasing ∧
      moved.job.phase = if client.registrationPending ≤ 1 then .clearing else .leaving) ∨
    (moved.client.registrationPending = 0 ∧ job.phase = .clearing ∧
      moved.job.phase = .leaving) := by
  have hregn : job.isRegistration → job.afterExecution = .releasing := by
    intro hreg
    rw [afterExecution, if_pos hreg]
  have haft : job.afterExecution ≠ .clearing := by
    unfold afterExecution
    split <;> simp
  have hnote : ∀ params, job.work = .notification params → job.isRegistration = false := by
    intro params hwork
    simp [isRegistration, isRequest, hwork]
  unfold jobStep at h
  split at h <;> (try dsimp only at h) <;> (try split at h) <;> (try split at h) <;>
    (try split at h) <;>
    first
      | cases h; done
      | (cases h
         simp_all)

namespace WsServer

/-- **The invariant of the barrier.** A connection's count is at most the
number of its registrations under way, unless one is about to reset
it. -/
def BarrierInv (s : WsServer) : Prop := ∀ c, s.jobs.countP (·.clears c) = 0 →
  (s.clients c).registrationPending.toNat ≤ s.jobs.countP (·.holdsBarrier c)

variable {s s' : WsServer}

/-- A step of a job keeps the barriers, -/
theorem BarrierInv.of_afterStep (h : s.BarrierInv) {j : ℕ} {turn : Turn} {job : DispatchJob}
    {moved : Moved} (hjob : s.jobs[j]? = some job)
    (hstep : jobStep floatText j turn job (s.clients job.connectionId) s.lanes s.permits =
      some moved) : (s.afterStep j job moved).BarrierInv := by
  obtain ⟨hid, hmeth, hwork, -⟩ := (slotStep_of_jobStep hstep).2.same
  have hregn : moved.job.isRegistration = job.isRegistration := by
    simp only [isRegistration, isRequest, hmeth, hwork]
  intro c hclr
  have hh := @countP_set_of_eq_some DispatchJob s.jobs j job moved.job (·.holdsBarrier c) hjob
  have hclears := @countP_set_of_eq_some DispatchJob s.jobs j job moved.job (·.clears c) hjob
  have hold := h c
  rw [clients_afterStep]
  simp only [afterStep] at hclr ⊢
  rw [hclr] at hclears
  split
  · next hc =>
    subst hc
    obtain ⟨hpend, hnot, hnot', hsame⟩ | ⟨hpend, hph, hph'⟩ |
      ⟨hpend, hph, hph'⟩ := barrier_of_jobStep hstep
    · have hh' : moved.job.holdsBarrier job.connectionId = job.holdsBarrier job.connectionId := by
        unfold holdsBarrier
        rw [hid, hregn]
        cases hreg : job.isRegistration with
        | false => simp
        | true => rw [decide_eq_decide.2 (not_congr (hsame hreg))]
      have hclears' : moved.job.clears job.connectionId = false ∧
          job.clears job.connectionId = false := by
        simp [clears, hnot, hnot']
      rw [hh'] at hh
      rw [hclears'.1, hclears'.2] at hclears
      rw [hpend]
      have := hold (by omega)
      omega
    · have hclears' : job.clears job.connectionId = false := by
        simp [clears, hph]
      have hh' : moved.job.holdsBarrier job.connectionId = false := by
        simp only [holdsBarrier, hph']
        split <;> simp
      have hle : (if job.holdsBarrier job.connectionId then 1 else 0) ≤ 1 := by split <;> omega
      rw [hclears'] at hclears
      rw [hh'] at hh
      by_cases hprev : (s.clients job.connectionId).registrationPending ≤ 1
      · -- the job goes on to reset the count
        have : moved.job.clears job.connectionId = true := by
          rw [if_pos hprev] at hph'
          simp [clears, hph', hid]
        rw [this] at hclears
        simp only [Bool.false_eq_true, if_false, if_true] at hclears
        omega
      · rw [if_neg hprev] at hph'
        have hnone : moved.job.clears job.connectionId = false := by
          simp [clears, hph']
        rw [hnone] at hclears
        simp only [Bool.false_eq_true, if_false] at hclears hh
        have hle' := hold (by omega)
        rw [hpend]
        rw [UInt64.le_iff_toNat_le] at hprev
        rw [UInt64.toNat_sub_of_le _ _ (UInt64.le_iff_toNat_le.2 (by simp at hprev ⊢; omega))]
        simp only [UInt64.toNat_one] at hprev ⊢
        omega
    · rw [hpend]
      simp
  · next hc =>
    have hne : ∀ job' : DispatchJob, job'.connectionId = job.connectionId →
        job'.clears c = false ∧ job'.holdsBarrier c = false := by
      intro job' hid'
      simp [clears, holdsBarrier, hid', Ne.symm hc]
    rw [(hne job rfl).1, (hne _ hid).1] at hclears
    rw [(hne job rfl).2, (hne _ hid).2] at hh
    have := hold (by omega)
    omega

theorem barrierInv_init : (wsMachine floatText).init.BarrierInv := by
  intro c _
  simp [wsMachine, WsClient.new]

/-- marks of the jobs keep them, -/
theorem BarrierInv.of_marks (h : s.BarrierInv) (hmarks : Marks s.jobs s'.jobs)
    (hpend : ∀ c, (s'.clients c).registrationPending = (s.clients c).registrationPending) :
    s'.BarrierInv := by
  intro c hclr
  have hsame : ∀ job job', SameJob job job' → job'.clears c = job.clears c ∧
      job'.holdsBarrier c = job.holdsBarrier c := by
    intro job job' hsame
    simp only [clears, holdsBarrier, isRegistration,
      hsame.connectionId, hsame.phase, hsame.method, hsame.isRequest, and_self]
  rw [hmarks.countP_eq fun job job' h => (hsame job job' h).1] at hclr
  rw [hmarks.countP_eq fun job job' h => (hsame job job' h).2, hpend]
  exact h c hclr

/-- and so does every step. -/
theorem BarrierInv.of_step (h : s.BarrierInv) (hls : s.LaneInv) {action : WsAction}
    (hstep : (wsMachine floatText).step s action = some s') :
    s'.BarrierInv := by
  cases action with
  | connect =>
    cases hstep
    exact h
  | frame c method work =>
    cases (ite_none_right_eq_some.1 hstep).2
    intro c' hclr
    simp only [frame, countP_append, countP_singleton] at hclr ⊢
    have hold := h c' (by omega)
    by_cases hc : c' = c
    · subst hc
      rw [Function.update_self]
      -- the frame's job holds the barrier exactly if its frame counted it
      set new : DispatchJob := ⟨c', method, work, .received, false, false, false⟩ with hnew
      have hadd : (s.clients c').registrationPending.toNat +
          (if new.isRegistration then 1 else 0) ≤ s.jobs.countP (·.holdsBarrier c') +
          (if holdsBarrier c' (if new.isRequest then new
            else { new with phase := .registered }) then 1 else 0) := by
        have hsame : holdsBarrier c' (if new.isRequest then new
            else { new with phase := .registered }) = new.isRegistration := by
          split <;> simp [holdsBarrier, isRegistration, isRequest, hnew]
        rw [hsame]
        omega
      refine le_trans ?_ hadd
      cases new.isRegistration with
      | false => simp
      | true =>
        simp only [if_true, UInt64.toNat_add, UInt64.toNat_one]
        exact Nat.mod_le _ _
    · rw [Function.update_of_ne hc]
      omega
  | cancelFrame c id =>
    cases (ite_none_right_eq_some.1 hstep).2
    refine h.of_marks marks_cancelFrame fun c' => ?_
    by_cases hc : c' = c
    · subst hc
      simp [cancelFrame]
    · simp [cancelFrame, hc]
  | markDisconnected c =>
    cases hstep
    refine h.of_marks marks_markDisconnected fun c' => ?_
    by_cases hc : c' = c
    · subst hc
      simp [markDisconnected]
    · simp [markDisconnected, hc]
  | receive key =>
    obtain ⟨mode, j, queue, job, hlane, hjob, rfl⟩ := receive_eq_some.1 hstep
    obtain ⟨job₀, hjob₀, hph, -⟩ := hls.queued hlane (mem_cons_self ..)
    rw [hjob, some.injEq] at hjob₀
    subst hjob₀
    intro c hclr
    have hsame : ∀ phase : Phase, phase = .waiting ∨ phase = .held →
        clears c { job with phase } = job.clears c ∧
        holdsBarrier c { job with phase } = job.holdsBarrier c := by
      rintro phase (rfl | rfl) <;> simp [clears, holdsBarrier, isRegistration, isRequest, hph]
    obtain ⟨hclears', hh'⟩ := hsame (if mode = .serial then .waiting else .held) (by split <;> simp)
    have hh := @countP_set_of_eq_some DispatchJob s.jobs j job
      { job with phase := if mode = .serial then .waiting else .held } (·.holdsBarrier c) hjob
    have hclears := @countP_set_of_eq_some DispatchJob s.jobs j job
      { job with phase := if mode = .serial then .waiting else .held } (·.clears c) hjob
    rw [hclears'] at hclears
    rw [hh'] at hh
    have hold := h c
    dsimp only at hclr ⊢
    rw [hclr] at hclears
    have := hold (by omega)
    omega
  | job j turn =>
    obtain ⟨job, moved, hjob, hmov, rfl⟩ := stepJob_eq_some.1 hstep
    exact h.of_afterStep hjob hmov

theorem barrierInv_of_reachable (h : (wsMachine floatText).Reachable s) : s.BarrierInv :=
  h.rule barrierInv_init fun _ _ _ hreach hinv hstep =>
    hinv.of_step (laneInv_of_reachable hreach) hstep

end WsServer

/-! ## The order of a connection's lane -/

/-- How many steps a job in the phase has left, at most. -/
def Phase.rank : Phase → ℕ
  | .received => 16
  | .counted => 15
  | .registered => 14
  | .routed => 13
  | .refused => 12
  | .queued => 11
  | .held => 10
  | .waiting => 9
  | .passed => 8
  | .entered => 7
  | .begun => 6
  | .closing => 5
  | .executed => 4
  | .releasing => 3
  | .clearing => 2
  | .leaving => 1
  | .done => 0

/-- The phases only requests go through. -/
def Phase.ofRequest : Phase → Bool
  | .received | .counted | .entered | .begun | .closing => true
  | _ => false

/-- The phases of a job on its way to the registration barrier. -/
def Phase.beforeBarrier (phase : Phase) : Bool :=
  phase.inReader || decide (phase ∈ [.queued, .held, .waiting])

/-- **Every step of a job is a step ahead.** -/
theorem phase_of_jobStep (h : jobStep floatText j turn job client lanes permits = some moved) :
    moved.job.phase.rank < job.phase.rank ∧
      (moved.job.phase = .waiting → job.phase = .held) ∧
      (moved.job.phase = .queued → job.phase = .routed) ∧
      (moved.job.phase.ofRequest → job.isRequest ∨ job.phase.ofRequest) := by
  have haft : job.afterExecution = .releasing ∨ job.afterExecution = .leaving := by
    unfold afterExecution
    split
    · exact .inl rfl
    · exact .inr rfl
  have hreq : ∀ id msg, job.work = .request id msg → job.isRequest := by
    intro id msg hwork
    rw [isRequest, hwork]
  unfold jobStep at h
  split at h <;> (try dsimp only at h) <;> (try split at h) <;> (try split at h) <;>
    (try split at h) <;>
    first
      | cases h; done
      | (cases h
         rcases haft with haft | haft <;> simp_all [Phase.rank, Phase.ofRequest])

/-- **A job that waits for nothing can go on.** -/
theorem exists_jobStep (floatText : Double → List Char) (j : ℕ) {job : DispatchJob}
    {client : WsClient} {lanes : Assoc String Lane} {permits : DispatchMode → ℕ}
    (hshape : job.phase.ofRequest → job.isRequest)
    (hmade : job.phase = .routed ∨ job.dispatched → ∃ lane, lanes.lookup job.laneKey = some lane)
    (hph : job.phase ∉ [.queued, .held, .waiting, .done]) :
    ∃ turn, (jobStep floatText j turn job client lanes permits).isSome := by
  have hrequest : job.phase.ofRequest → ∃ id message, job.work = .request id message := by
    intro h
    have hreq := hshape h
    unfold isRequest at hreq
    split at hreq
    · next id message hwork => exact ⟨id, message, hwork⟩
    · cases hreq
  cases hjob : job.phase with
  | queued | held | waiting | done => simp [hjob] at hph
  | received | counted | entered | closing =>
    obtain ⟨id, message, hwork⟩ := hrequest (by rw [hjob]; rfl)
    refine ⟨.advance, ?_⟩
    simp only [jobStep, hjob, hwork]
    first | rfl | (split <;> rfl)
  | begun => exact ⟨.answer (.result .null), by simp [jobStep, hjob]⟩
  | registered =>
    refine ⟨.advance, ?_⟩
    simp only [jobStep, hjob]
    split <;> rfl
  | routed =>
    obtain ⟨lane, hlane⟩ := hmade (.inl hjob)
    refine ⟨.advance, ?_⟩
    simp only [jobStep, hjob, hlane]
    split <;> rfl
  | refused | passed | executed =>
    refine ⟨.advance, ?_⟩
    cases hwork : job.work <;> simp [jobStep, hjob, hwork]
  | releasing | clearing => exact ⟨.advance, by simp [jobStep, hjob]⟩
  | leaving =>
    refine ⟨.advance, ?_⟩
    cases hdisp : job.dispatched with
    | false => simp [jobStep, hjob, hdisp]
    | true =>
      obtain ⟨lane, hlane⟩ := hmade (.inr hdisp)
      simp only [jobStep, hjob, hdisp, hlane, if_true]
      split <;> rfl

namespace WsServer

/-- **The invariant of the queues.** A reader handles its connection's
latest job, so a connection's lane is in the order of its frames; and a
registration in it is ahead of every other request that is still to pass
the barrier. -/
structure QueueInv (s : WsServer) : Prop where
  shape : ∀ {j : ℕ} {job : DispatchJob}, s.jobs[j]? = some job → job.phase.ofRequest →
    job.isRequest
  latest : ∀ {i j : ℕ} {job : DispatchJob}, s.jobs[i]? = some job →
    (s.clients job.connectionId).reading = some j → i ≤ j
  sorted : ∀ {c : ℕ} {lane : Lane}, s.lanes.lookup (connectionLane c) = some lane →
    lane.queue.Pairwise (· < ·) ∧ ∀ i, lane.current = some i → ∀ j ∈ lane.queue, i < j
  order : ∀ {i j : ℕ} {r x : DispatchJob}, s.jobs[i]? = some r → s.jobs[j]? = some x →
    r.isRegistration → r.phase.inReader ∨ r.phase = .queued →
    x.connectionId = r.connectionId → x.laneKey = connectionLane x.connectionId →
    x.isRegistration = false → x.phase.beforeBarrier → i < j

theorem queueInv_init : (wsMachine floatText).init.QueueInv := by
  constructor <;> simp [wsMachine]

variable {s s' : WsServer} {j : ℕ} {job : DispatchJob} {action : WsAction}

/-- A step of a job keeps the queues, -/
theorem QueueInv.of_afterStep (h : s.QueueInv) (hls : s.LaneInv) (hslots : s.SlotInv floatText)
    {turn : Turn} {moved : Moved} (hjob : s.jobs[j]? = some job)
    (hstep : jobStep floatText j turn job (s.clients job.connectionId) s.lanes s.permits =
      some moved) : (s.afterStep j job moved).QueueInv := by
  obtain ⟨hid, hmeth, hwork, -⟩ := (slotStep_of_jobStep hstep).2.same
  have hlane := laneStep_of_jobStep hstep
  obtain ⟨-, hwait, hqd, hshape⟩ := phase_of_jobStep hstep
  have hregn : moved.job.isRegistration = job.isRegistration := by
    simp only [isRegistration, isRequest, hmeth, hwork]
  have hback : ∀ {i : ℕ} {job' : DispatchJob}, (s.afterStep j job moved).jobs[i]? = some job' →
      i = j ∧ job' = moved.job ∨ i ≠ j ∧ s.jobs[i]? = some job' := by
    intro i job' hi
    rw [jobs_afterStep hjob] at hi
    split at hi
    · next heq => exact .inl ⟨heq, (some.inj hi).symm⟩
    · next hne => exact .inr ⟨hne, hi⟩
  have hreading : ∀ {c i : ℕ}, ((s.afterStep j job moved).clients c).reading = some i →
      (s.clients c).reading = some i := by
    intro c i hread
    rw [clients_afterStep] at hread
    split at hread
    · next heq =>
      obtain hsame | ⟨hnone, -⟩ := (reading_of_jobStep hstep).2
      · rw [heq, ← hsame]
        exact hread
      · rw [hnone] at hread
        cases hread
    · exact hread
  constructor
  · -- shape
    intro i job' hi hof
    obtain ⟨-, rfl⟩ | ⟨-, hi⟩ := hback hi
    · rw [isRequest, hwork, ← isRequest]
      exact (hshape hof).elim id (h.shape hjob)
    · exact h.shape hi hof
  · -- latest
    intro i k job' hi hread
    obtain ⟨rfl, rfl⟩ | ⟨-, hi⟩ := hback hi
    · rw [hid] at hread
      exact h.latest hjob (hreading hread)
    · exact h.latest hi (hreading hread)
  · -- sorted
    intro c lane' hlane'
    obtain ⟨lane, hold, -, hqueue, hcur⟩ | ⟨-, -, rfl⟩ := hlane.lanes_back hlane'
    · obtain ⟨hpairwise, hahead⟩ := h.sorted hold
      obtain heq | ⟨hkey, hph, -, heq⟩ := hqueue
      · rw [heq]
        refine ⟨hpairwise, fun i hi => ?_⟩
        obtain hsame | ⟨-, hnone⟩ := hcur
        · exact hahead i (hsame ▸ hi)
        · rw [hnone] at hi
          cases hi
      · -- the job sent is its connection's latest, and the others are the connection's
        have hread := hslots.reader hjob (withReader_of_inReader hls hjob (by rw [hph]; rfl))
        have hconnection : ∀ {i : ℕ} {other : DispatchJob}, s.jobs[i]? = some other →
            other.laneKey = connectionLane c → other.phase ≠ .routed → i < j := by
          intro i other hi hk hne
          have hc := (dispatchLane_eq_connectionLane hk).1
          have hc' := (dispatchLane_eq_connectionLane hkey.symm).1
          have hle := h.latest hi (by rw [hc, ← hc']; exact hread)
          have hij : i ≠ j := by
            rintro rfl
            rw [hjob, some.injEq] at hi
            exact hne (hi ▸ hph)
          omega
        rw [heq]
        have hqueue : ∀ i ∈ lane.queue, i < j := by
          intro i hi
          obtain ⟨other, hi', hp, hk⟩ := hls.queued hold hi
          exact hconnection hi' hk (by rw [hp]; simp)
        refine ⟨pairwise_append.2 ⟨hpairwise, pairwise_singleton .., ?_⟩, ?_⟩
        · intro i hi k hk
          rw [mem_singleton.1 hk]
          exact hqueue i hi
        · intro i hi k hk
          obtain hsame | ⟨-, hnone⟩ := hcur
          · obtain hk | rfl := mem_concat.1 hk
            · exact hahead i (hsame ▸ hi) k hk
            · obtain ⟨other, hi', hk', hp⟩ := hls.current hold (hsame ▸ hi)
              refine hconnection hi' hk' ?_
              rintro hr
              rw [hr] at hp
              obtain ⟨hp, -⟩ | ⟨hp, -⟩ := hp <;> cases hp
          · rw [hnone] at hi
            cases hi
    · exact ⟨Pairwise.nil, by rintro i hi; cases hi⟩
  · -- order
    have hr : ∀ {i : ℕ} {r : DispatchJob}, (s.afterStep j job moved).jobs[i]? = some r →
        r.phase.inReader ∨ r.phase = .queued → ∃ r', s.jobs[i]? = some r' ∧
          r'.isRegistration = r.isRegistration ∧ r'.connectionId = r.connectionId ∧
          (r'.phase.inReader ∨ r'.phase = .queued) := by
      intro i r hi hp
      obtain ⟨rfl, rfl⟩ | ⟨-, hi⟩ := hback hi
      · refine ⟨job, hjob, hregn.symm, hid.symm, .inl ?_⟩
        obtain hin | hq := hp
        · exact (hlane.inReader_back hin).1
        · rw [hqd hq]
          rfl
      · exact ⟨r, hi, rfl, rfl, hp⟩
    have hx : ∀ {i : ℕ} {x : DispatchJob}, (s.afterStep j job moved).jobs[i]? = some x →
        x.phase.beforeBarrier → ∃ x', s.jobs[i]? = some x' ∧
          x'.isRegistration = x.isRegistration ∧ x'.connectionId = x.connectionId ∧
          x'.laneKey = x.laneKey ∧ x'.phase.beforeBarrier := by
      intro i x hi hp
      obtain ⟨rfl, rfl⟩ | ⟨-, hi⟩ := hback hi
      · refine ⟨job, hjob, hregn.symm, hid.symm, hlane.laneKey_eq.symm, ?_⟩
        simp only [Phase.beforeBarrier, Bool.or_eq_true, decide_eq_true_eq, mem_cons,
          not_mem_nil, or_false] at hp ⊢
        obtain hin | hq | hheld | hw := hp
        · exact .inl (hlane.inReader_back hin).1
        · rw [hqd hq]
          exact .inl rfl
        · exact absurd hheld hlane.not_held
        · exact .inr (.inr (.inl (hwait hw)))
      · exact ⟨x, hi, rfl, rfl, rfl, hp⟩
    intro i k r x hi hk hreg hp hc hkey hnot hbef
    obtain ⟨r', hi', hreg', hc₁, hp'⟩ := hr hi hp
    obtain ⟨x', hk', hnot', hc₂, hkey', hbef'⟩ := hx hk hbef
    exact h.order hi' hk' (hreg'.trans hreg) hp' (by rw [hc₂, hc₁, hc])
      (by rw [hkey', hkey, hc₂]) (hnot'.trans hnot) hbef'

/-- marks of the jobs keep them, -/
theorem QueueInv.of_marks (h : s.QueueInv) (hmarks : Marks s.jobs s'.jobs)
    (hls : s'.lanes = s.lanes) (hreading : ∀ c, (s'.clients c).reading = (s.clients c).reading) :
    s'.QueueInv := by
  constructor
  · intro j job' hj hof
    obtain ⟨job, hj, hsame⟩ := hmarks.back hj
    rw [hsame.isRequest]
    exact h.shape hj (hsame.phase ▸ hof)
  · intro i j job' hi hread
    obtain ⟨job, hi, hsame⟩ := hmarks.back hi
    rw [hreading, hsame.connectionId] at hread
    exact h.latest hi hread
  · intro c lane hlane
    rw [hls] at hlane
    exact h.sorted hlane
  · intro i j r' x' hi hj hreg hp hc hkey hnot hbef
    obtain ⟨r, hi, hr⟩ := hmarks.back hi
    obtain ⟨x, hj, hx⟩ := hmarks.back hj
    rw [isRegistration, hr.isRequest, hr.method, ← isRegistration] at hreg
    rw [isRegistration, hx.isRequest, hx.method, ← isRegistration] at hnot
    rw [hr.phase] at hp
    rw [hx.connectionId, hr.connectionId] at hc
    rw [hx.laneKey, hx.connectionId] at hkey
    rw [hx.phase] at hbef
    exact h.order hi hj hreg hp hc hkey hnot hbef

/-- a frame of an orderly client keeps them, -/
theorem QueueInv.of_frame (h : s.QueueInv) (hls : s.LaneInv) (hslots : s.SlotInv floatText)
    {c : ℕ} {method : String} {work : DispatchWork} (hidle : (s.clients c).reading = none)
    (hordl : s.Orderly floatText (.frame c method work)) :
    (s.frame c method work).QueueInv := by
  have hreading := fun c' => (@clients_frame s c method work c').2.2
  have hlt : ∀ {i : ℕ} {job : DispatchJob}, s.jobs[i]? = some job → i < s.jobs.length :=
    fun hi => (getElem?_eq_some_iff.1 hi).1
  constructor
  · intro i job hi hof
    obtain hi | ⟨-, -, -, -, hph, -⟩ := jobs_frame hi
    · exact h.shape hi hof
    · rw [hph] at hof
      split at hof
      · assumption
      · cases hof
  · intro i j job hi hread
    rw [hreading] at hread
    split at hread
    · next hc =>
      cases hread
      obtain hi | ⟨rfl, -⟩ := jobs_frame hi
      · exact (hlt hi).le
      · exact le_rfl
    · next hc =>
      obtain hi | ⟨-, hc', -⟩ := jobs_frame hi
      · exact h.latest hi hread
      · exact absurd hc' hc
  · intro c' lane hlane
    exact h.sorted hlane
  · intro i j r x hi hj hreg hp hc hkey hnot hbef
    obtain hold | ⟨hlen, hxc, -⟩ := jobs_frame hj
    · obtain hi | ⟨-, hrc, hmeth, hwork, -⟩ := jobs_frame hi
      · exact h.order hi hold hreg hp hc hkey hnot hbef
      · -- a new registration: nothing of its lane is on its way to the barrier
        exfalso
        simp only [Phase.beforeBarrier, Bool.or_eq_true, decide_eq_true_eq] at hbef
        obtain hin | hmem := hbef
        · have hread := hslots.reader hold (withReader_of_inReader hls hold hin)
          rw [hc, hrc, hidle] at hread
          cases hread
        · simp only [isRegistration, Bool.and_eq_true, decide_eq_true_eq, hmeth] at hreg
          obtain ⟨hreq, hregister⟩ := hreg
          unfold isRequest at hreq
          rw [hwork] at hreq
          cases work with
          | notification params => cases hreq
          | request id msg =>
            exact hordl hregister x (mem_of_getElem? hold) (hc.trans hrc)
              (by rw [hkey, hc, hrc]) hnot hmem
    · obtain hi | ⟨hlen', -, hmeth, hwork, -⟩ := jobs_frame hi
      · have := hlt hi
        omega
      · -- the new job is not both
        exfalso
        obtain hj' | ⟨-, -, hmeth', hwork', -⟩ := jobs_frame (hlen ▸ hj)
        · have := hlt hj'
          omega
        · simp only [isRegistration, isRequest, hmeth', hwork'] at hnot
          simp only [isRegistration, isRequest, hmeth, hwork] at hreg
          rw [hnot] at hreg
          cases hreg

/-- a job received keeps them, -/
theorem QueueInv.of_receive (h : s.QueueInv) (hls : s.LaneInv) {key : String}
    (hrecv : s.receive key = some s') : s'.QueueInv := by
  obtain ⟨mode, j, queue, job, hlane, hjob, rfl⟩ := receive_eq_some.1 hrecv
  obtain ⟨job₀, hjob₀, hph, -⟩ := hls.queued hlane (mem_cons_self ..)
  rw [hjob, some.injEq] at hjob₀
  subst hjob₀
  have hback : ∀ {i : ℕ} {job' : DispatchJob},
      (s.jobs.set j { job with phase := if mode = .serial then .waiting else .held })[i]? =
        some job' →
      s.jobs[i]? = some job' ∨ i = j ∧
        job' = { job with phase := if mode = .serial then .waiting else .held } := by
    intro i job' hi
    rw [getElem?_set_of_eq_some hjob] at hi
    split at hi
    · next heq => exact .inr ⟨heq, (some.inj hi).symm⟩
    · exact .inl hi
  constructor
  · intro i job' hi hof
    obtain hi | ⟨-, rfl⟩ := hback hi
    · exact h.shape hi hof
    · split at hof <;> cases hof
  · intro i k job' hi hread
    obtain hi | ⟨rfl, rfl⟩ := hback hi
    · exact h.latest hi hread
    · exact h.latest hjob hread
  · intro c lane' hlane'
    rw [Assoc.lookup_insert_eq] at hlane'
    split at hlane'
    · next heq =>
      cases hlane'
      obtain ⟨hahead, hpairwise⟩ := pairwise_cons.1 (h.sorted (heq ▸ hlane)).1
      refine ⟨hpairwise, fun i hi => ?_⟩
      cases hi
      exact hahead
    · exact h.sorted hlane'
  · intro i k r x hi hk hreg hp hc hkey hnot hbef
    obtain hold | ⟨-, rfl⟩ := hback hi
    · obtain hk' | ⟨rfl, rfl⟩ := hback hk
      · exact h.order hold hk' hreg hp hc hkey hnot hbef
      · exact h.order hold hjob hreg hp hc hkey hnot (by rw [hph]; rfl)
    · split at hp <;> obtain hp | hp := hp <;> cases hp

/-- and so does every orderly step. -/
theorem QueueInv.of_step (h : s.QueueInv) (hls : s.LaneInv) (hslots : s.SlotInv floatText)
    (hordl : s.Orderly floatText action)
    (hstep : (wsMachine floatText).step s action = some s') :
    s'.QueueInv := by
  cases action with
  | connect =>
    cases hstep
    exact { h with }
  | frame c method work =>
    obtain ⟨hidle, ⟨⟩⟩ := ite_none_right_eq_some.1 hstep
    exact h.of_frame hls hslots hidle.2 hordl
  | cancelFrame c id =>
    cases (ite_none_right_eq_some.1 hstep).2
    refine h.of_marks marks_cancelFrame rfl fun c' => ?_
    by_cases hc : c' = c
    · subst hc
      simp [cancelFrame]
    · simp [cancelFrame, hc]
  | markDisconnected c =>
    cases hstep
    refine h.of_marks marks_markDisconnected rfl fun c' => ?_
    by_cases hc : c' = c
    · subst hc
      simp [markDisconnected]
    · simp [markDisconnected, hc]
  | receive key => exact h.of_receive hls hstep
  | job j turn =>
    obtain ⟨job, moved, hjob, hmov, rfl⟩ := stepJob_eq_some.1 hstep
    exact h.of_afterStep hls hslots hjob hmov

theorem queueInv_of_reachable (h : (orderlyMachine floatText).Reachable s) : s.QueueInv := by
  refine h.rule (@queueInv_init floatText) fun s _ _ hreach hinv hstep => ?_
  obtain ⟨hordl, hstep⟩ := Machine.restrict_step_eq_some.1 hstep
  exact hinv.of_step (laneInv_of_reachable hreach.of_restrict)
    (answerInv_of_reachable hreach).slots hordl hstep

/-! ## Where the server's own steps end -/

/-- The server has no step to take of itself. -/
def Idle (floatText : Double → List Char) (s : WsServer) : Prop :=
  ∀ action : WsAction, action.internal → (wsMachine floatText).step s action = none

variable (h : s.Idle floatText) (hls : s.LaneInv)
include h hls

/-- A job that can take no step waits or is done. -/
theorem Idle.phase_mem (hqueues : s.QueueInv) (hjob : s.jobs[j]? = some job) :
    job.phase ∈ [.queued, .held, .waiting, .done] := by
  by_contra hph
  obtain ⟨turn, hstep⟩ := @exists_jobStep floatText j job (s.clients job.connectionId) s.lanes
    s.permits (hqueues.shape hjob) (hls.made hjob) hph
  obtain ⟨moved, hmov⟩ := isSome_iff_exists.1 hstep
  have hnone := h (.job j turn) rfl
  have hsome : s.stepJob floatText j turn = some (s.afterStep j job moved) :=
    stepJob_eq_some.2 ⟨job, moved, hjob, hmov, rfl⟩
  simp only [wsMachine] at hnone
  rw [hnone] at hsome
  cases hsome

/-- In an idle server a lane with a queue has its task at work, on a job
that is held or waits. -/
theorem Idle.current_of_queued (hqueues : s.QueueInv)
    (hjob : s.jobs[j]? = some job) (hph : job.phase = .queued) :
    ∃ lane i other, s.lanes.lookup job.laneKey = some lane ∧
      j ∈ lane.queue ∧ lane.current = some i ∧ s.jobs[i]? = some other ∧
      other.laneKey = job.laneKey ∧ (other.phase = .held ∧ lane.mode ≠ .serial ∨
        other.phase = .waiting ∧ lane.mode = .serial) := by
  obtain ⟨lane, hlane⟩ := hls.made hjob (.inr (hls.sent hjob (.inl hph)))
  have hmem := hls.located hjob hph hlane
  obtain ⟨mode, queue, current⟩ := lane
  cases current with
  | none =>
    exfalso
    cases queue with
    | nil => cases hmem
    | cons k queue =>
      obtain ⟨first, hfst, -⟩ := hls.queued hlane (mem_cons_self ..)
      have hnone := h (.receive job.laneKey) rfl
      have hsome := receive_eq_some.2 ⟨mode, k, queue, first, hlane, hfst, rfl⟩
      simp only [wsMachine] at hnone
      rw [hnone] at hsome
      cases hsome
  | some i =>
    obtain ⟨other, hi, hkey, hheld⟩ := hls.current hlane rfl
    refine ⟨_, i, other, hlane, hmem, rfl, hi, hkey, ?_⟩
    obtain hheld | ⟨hlate, -, hmode⟩ := hheld
    · exact .inl hheld
    · right
      refine ⟨?_, hmode⟩
      have hp := h.phase_mem hls hqueues hi
      simp only [mem_cons, not_mem_nil, or_false] at hp
      obtain hp | hp | hp | hp := hp <;> rw [hp] at hlate <;> first | exact hp | cases hlate

/-- **In an idle server no job waits at the barrier.** The registration
waited for would be queued in its connection's lane behind a job that
waits for it, and that is not the order of the lane. -/
theorem Idle.not_waiting (hqueues : s.QueueInv)
    (hbarrier : s.BarrierInv) (hjob : s.jobs[j]? = some job) : job.phase ≠ .waiting := by
  have hpass : ∀ {i : ℕ} {other : DispatchJob}, s.jobs[i]? = some other →
      other.phase = .waiting → other.isRegistration = false ∧
        (s.clients other.connectionId).registrationPending ≠ 0 := by
    intro i other hi hph
    by_contra hopen
    have hguard : other.isRegistration ∨ (s.clients other.connectionId).registrationPending = 0 ∨
        (s.clients other.connectionId).connected = false := by
      rw [not_and_or, Bool.not_eq_false, not_not] at hopen
      exact hopen.imp_right .inl
    have hnone := h (.job i .advance) rfl
    simp only [wsMachine, stepJob, hi, bind_some, jobStep, hph, if_pos hguard, map_some] at hnone
    cases hnone
  intro hwait
  obtain ⟨-, hpend⟩ := hpass hjob hwait
  -- some registration of the connection is under way
  have hclr : s.jobs.countP (·.clears job.connectionId) = 0 := by
    rw [countP_eq_zero]
    intro other hne hclears
    obtain ⟨i, hi⟩ := mem_iff_getElem?.1 hne
    have hp := h.phase_mem hls hqueues hi
    simp only [clears, Bool.and_eq_true, decide_eq_true_eq] at hclears
    rw [hclears.2] at hp
    simp at hp
  have hle := hbarrier job.connectionId hclr
  have hpos : 0 < s.jobs.countP (·.holdsBarrier job.connectionId) := by
    have : (s.clients job.connectionId).registrationPending.toNat ≠ 0 := by
      intro hzero
      exact hpend (UInt64.toNat_inj.1 hzero)
    omega
  obtain ⟨r, hr, hh⟩ := countP_pos_iff.1 hpos
  obtain ⟨k, hk⟩ := mem_iff_getElem?.1 hr
  simp only [holdsBarrier, Bool.and_eq_true, decide_eq_true_eq] at hh
  obtain ⟨⟨hc, hreg⟩, hlive⟩ := hh
  have hlane : r.lane = (connectionLane r.connectionId, .serial) := by
    have hreg' := hreg
    simp only [isRegistration, Bool.and_eq_true, decide_eq_true_eq] at hreg'
    rw [lane, hreg'.2, dispatchLane, if_neg (by simp), if_pos (by simp)]
  have hkey : r.laneKey = connectionLane r.connectionId := by
    rw [laneKey, hlane]
  have hser : ∀ {lane : Lane}, s.lanes.lookup r.laneKey = some lane → lane.mode = .serial := by
    intro lane hl
    obtain ⟨c, method, work, hmade⟩ := hls.mode hl
    have := (dispatchLane_eq_connectionLane (by rw [hmade]; exact hkey)).2
    rwa [hmade] at this
  have hp := h.phase_mem hls hqueues hk
  simp only [mem_cons, not_mem_nil, or_false] at hp
  obtain hp | hp | hp | hp := hp
  · -- queued: the job its lane's task holds waits too
    obtain ⟨lane, i, x, hl, hmem, hcur, hi, hxkey, hx⟩ :=
      h.current_of_queued hls hqueues hk hp
    obtain ⟨-, hmode⟩ | ⟨hxphase, -⟩ := hx
    · exact hmode (hser hl)
    · have hxc : x.connectionId = r.connectionId :=
        (dispatchLane_eq_connectionLane (hxkey.trans hkey)).1
      have hbehind := hqueues.order hk hi hreg (.inr hp) hxc
        (by rw [hxkey, hkey, hxc]) (hpass hi hxphase).1 (by rw [hxphase]; rfl)
      have hahead := (hqueues.sorted (hkey ▸ hl)).2 i hcur k hmem
      omega
  · obtain ⟨lane, hl⟩ := hls.made hk (.inr (hls.sent hk (.inr hp)))
    exact hls.held hk hp hl (hser hl)
  · have := (hpass hk hp).1
    rw [hreg] at this
    cases this
  · rw [hp] at hlive
    simp at hlive

/-- **In an idle server every job is done.** -/
theorem Idle.phase_eq_done (hqueues : s.QueueInv)
    (hbarrier : s.BarrierInv) (hjob : s.jobs[j]? = some job) : job.phase = .done := by
  have hnot_waiting : ∀ {i : ℕ} {other : DispatchJob}, s.jobs[i]? = some other →
      other.phase ≠ .waiting := fun hi => h.not_waiting hls hqueues hbarrier hi
  -- a job that is held waits for a permit, and the jobs with permits would go on
  have hnot_held : ∀ {i : ℕ} {other : DispatchJob}, s.jobs[i]? = some other →
      other.phase ≠ .held := by
    intro i other hi hph
    obtain ⟨lane, hlane⟩ := hls.made hi (.inr (hls.sent hi (.inr hph)))
    have hmode := hls.held hi hph hlane
    have hnone := h (.job i .advance) rfl
    have hnil : s.permits lane.mode = 0 := by
      by_contra hfree
      simp only [wsMachine, stepJob, hi, bind_some, jobStep, hph, hlane,
        if_pos (Nat.pos_of_ne_zero hfree), map_some] at hnone
      cases hnone
    have hcnt := hls.permits hmode
    have hlim : 0 < permitLimit lane.mode := by
      unfold permitLimit
      split <;> decide
    rw [hnil, zero_add] at hcnt
    obtain ⟨x, hx, hexecutes⟩ := countP_pos_iff.1 (hcnt ▸ hlim)
    obtain ⟨k, hk⟩ := mem_iff_getElem?.1 hx
    simp only [executes, Bool.and_eq_true] at hexecutes
    have hp := h.phase_mem hls hqueues hk
    simp only [mem_cons, not_mem_nil, or_false] at hp
    have hlate := hexecutes.1.2
    obtain hp | hp | hp | hp := hp
    · rw [hp] at hlate
      cases hlate
    · rw [hp] at hlate
      cases hlate
    · exact hnot_waiting hk hp
    · rw [hp] at hlate
      cases hlate
  have hp := h.phase_mem hls hqueues hjob
  simp only [mem_cons, not_mem_nil, or_false] at hp
  obtain hp | hp | hp | hp := hp
  · obtain ⟨lane, i, other, -, -, -, hi, -, ⟨hheld, -⟩ | ⟨hwait, -⟩⟩ :=
      h.current_of_queued hls hqueues hjob hp
    · exact absurd hheld (hnot_held hi)
    · exact absurd hwait (hnot_waiting hi)
  · exact absurd hp (hnot_held hjob)
  · exact absurd hp (hnot_waiting hjob)
  · exact hp

omit hls h

/-- The steps the jobs have left. -/
def remaining (s : WsServer) : ℕ := (s.jobs.map fun job => job.phase.rank).sum

/-- A job that goes on has fewer steps left, and so have all together. -/
theorem sum_rank_set {jobs : List DispatchJob} {job' : DispatchJob} (hjob : jobs[j]? = some job)
    (hlt : job'.phase.rank < job.phase.rank) :
    ((jobs.set j job').map fun job => job.phase.rank).sum <
      (jobs.map fun job => job.phase.rank).sum := by
  induction jobs generalizing j with
  | nil => cases hjob
  | cons head rest ih =>
    cases j with
    | zero =>
      cases hjob
      simp only [set_cons_zero, map_cons, sum_cons]
      omega
    | succ j =>
      have := ih hjob
      simp only [set_cons_succ, map_cons, sum_cons]
      omega

/-- **Every step of the server uses up a step.** -/
theorem remaining_lt (hls : s.LaneInv) (hintl : action.internal)
    (hstep : (wsMachine floatText).step s action = some s') :
    s'.remaining < s.remaining := by
  cases action with
  | connect | frame | cancelFrame | markDisconnected => cases hintl
  | receive key =>
    obtain ⟨mode, j, queue, job, hlane, hjob, rfl⟩ := receive_eq_some.1 hstep
    obtain ⟨job₀, hjob₀, hph, -⟩ := hls.queued hlane (mem_cons_self ..)
    rw [hjob, some.injEq] at hjob₀
    subst hjob₀
    refine sum_rank_set hjob ?_
    rw [hph]
    dsimp only
    split <;> decide
  | job j turn =>
    obtain ⟨job, moved, hjob, hmov, rfl⟩ := stepJob_eq_some.1 hstep
    exact sum_rank_set hjob (phase_of_jobStep hmov).1

/-- **The server's own steps come to an end.** -/
theorem length_le_remaining {t : WsServer} {actions : List WsAction}
    (hreach : (wsMachine floatText).Reachable s) (hintl : ∀ action ∈ actions, action.internal)
    (hrun : (wsMachine floatText).exec actions s = some t) : actions.length ≤ s.remaining := by
  induction actions generalizing s with
  | nil => exact Nat.zero_le _
  | cons action actions ih =>
    obtain ⟨u, hstep, hrest⟩ := Machine.exec_cons_eq_some.1 hrun
    have hlt := remaining_lt (laneInv_of_reachable hreach) (hintl action (by simp)) hstep
    have hle := ih (hreach.step hstep) (fun a ha => hintl a (mem_cons_of_mem _ ha)) hrest
    rw [length_cons]
    omega

end WsServer

/-! ## An id in use again -/

/-- A ping begins, is cancelled, and is abandoned. -/
def pingCancelled : List WsAction :=
  [WsAction.connect, pingFrame] ++ pingQueued 0 ++ pingBegins 0 ++
    [WsAction.cancelFrame 1 (.number (.posInt 7))]

/-- The id is used again once the cancelled job is done. -/
def reuseAfterwards : List WsAction :=
  pingCancelled ++ [WsAction.job 0 .abandon] ++ replicate 3 (WsAction.job 0 .advance) ++
    [pingFrame] ++
    pingQueued 1 ++ pingBegins 1 ++ [WsAction.job 1 (.answer (.result .null))] ++
    replicate 3 (WsAction.job 1 .advance)

/-- The id is used again while the cancelled job still runs: its
`finish_request` then takes the second job's slot. -/
def reuseMeanwhile : List WsAction :=
  pingCancelled ++ [pingFrame] ++ pingQueued 1 ++ [WsAction.job 0 .abandon] ++
    replicate 3 (WsAction.job 0 .advance) ++ pingBegins 1 ++
    replicate 2 (WsAction.job 1 .advance)

/-- A connection subscribes to the logs and registers while the
subscription waits in the lane. -/
def registerBehind : List WsAction :=
  [WsAction.connect, .frame 1 "remux/extensions/logs/subscribe"
    (.request (.number (.posInt 1)) .null)] ++
    replicate 4 (WsAction.job 0 .advance) ++
    [WsAction.frame 1 "remux/clients/register" (.request (.number (.posInt 2)) .null)] ++
    replicate 4 (WsAction.job 1 .advance) ++ [WsAction.receive "control:connection:1"]

/-- **A registration can wait for a request that waits for it.** The
subscription waits at the barrier for the registration, and the
registration in the lane for the subscription: the server has no step to
take, and neither request is done. -/
theorem registration_deadlocks :
    ∃ s, (wsMachine fun _ => []).exec registerBehind (wsMachine fun _ => []).init = some s ∧
      s.Idle (fun _ => []) ∧ s.jobs.map (·.phase) = [.waiting, .queued] := by
  have hrun : ((wsMachine fun _ => []).exec registerBehind
      (wsMachine fun _ => []).init).isSome := rfl
  refine ⟨_, (some_get hrun).symm, ?_, rfl⟩
  rintro (_ | _ | _ | _ | key | ⟨j, turn⟩) hintl
  · cases hintl
  · cases hintl
  · cases hintl
  · cases hintl
  · by_cases hkey : key = "control:connection:1"
    · subst hkey
      rfl
    · -- it is the only lane
      have hls : (((wsMachine fun _ => []).exec registerBehind
          (wsMachine fun _ => []).init).get hrun).lanes.keys = ["control:connection:1"] := rfl
      have hnone := AList.lookup_eq_none.2 fun hmem => hkey (mem_singleton.1 (hls ▸ hmem))
      show WsServer.receive _ key = none
      unfold WsServer.receive
      rw [hnone]
  · match j, turn with
    | 0, .advance => rfl
    | 0, .answer _ | 0, .abandon => rfl
    | 1, .advance | 1, .answer _ | 1, .abandon => rfl
    | j + 2, _ => rfl

end

end Remux
