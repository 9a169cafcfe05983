import Remux.Rpc.Progress

/-!
# The registration barrier

`complete_registration_barrier` takes one from `registration_pending` and,
if that was the last, stores 0 in a step of its own. A registration that is
enqueued between the two steps is counted and then forgotten, and requests
pass the barrier while it is under way (`registration_forgotten`). Where
every store finds no registration of its client under way the count is kept
exactly, and it is kept all along a run just where every store does
(`barrier_kept_iff`).

That the count cannot overflow rests on where a registration can be: with
the reader of its connection, or in the lane of the connection, which has a
capacity (`PlaceInv`).
-/

namespace Remux

open DispatchJob (holdsBarrier isRegistration isRequest)
open Lane Option List

variable {floatText : Double → List Char}

namespace WsServer

variable {s s' : WsServer} {j : ℕ} {job : DispatchJob}

/-! ## Where a job is -/

/-- **Where a job is.** One that was not sent is the one that its reader
handles; one that executes in a serial lane is the one that the lane's task
holds; and no channel has more than its capacity. -/
structure PlaceInv (s : WsServer) : Prop where
  reader : ∀ {j : ℕ} {job : DispatchJob}, s.jobs[j]? = some job → job.withReader →
    (s.clients job.connectionId).reading = some j
  working : ∀ {j : ℕ} {job : DispatchJob} {lane : Lane}, s.jobs[j]? = some job →
    job.dispatched → job.phase.late → s.lanes.lookup job.laneKey = some lane →
    lane.mode = .serial → lane.current = some j
  room : ∀ {key : String} {lane : Lane}, s.lanes.lookup key = some lane →
    lane.queue.length ≤ lane.capacity

theorem placeInv_init : (wsMachine floatText).init.PlaceInv := by
  constructor <;> simp [wsMachine]

variable {lane lane' : Lane} {job' : DispatchJob} {lanes' : Assoc String Lane}
variable {permits' : DispatchMode → ℕ} {key : String} {turn : Turn} {moved : Moved} {c : ℕ}
variable {action : WsAction}

theorem capacity_eq (h : lane'.mode = lane.mode) : lane'.capacity = lane.capacity := by
  unfold capacity
  rw [h]

/-- What a step of another job does to the lane's task that holds a job. -/
theorem PlaceInv.current_of_laneStep (h : s.PlaceInv) (hls : s.LaneInv)
    (hjob : s.jobs[j]? = some job) (hstep : LaneStep j job s.lanes s.permits job' lanes' permits')
    {i : ℕ} (hne : i ≠ j) (hlane : s.lanes.lookup key = some lane)
    (hlane' : lanes'.lookup key = some lane') (hmode : lane'.mode = .serial)
    (hcur : lane.current = some i) : lane'.current = some i := by
  have hsame : ∀ {new : Assoc String Lane}, new.lookup key = s.lanes.lookup key →
      new.lookup key = some lane' → lane'.current = some i := by
    intro new heq hnew
    rw [heq, hlane, some.injEq] at hnew
    rw [← hnew, hcur]
  have hins : ∀ {old new : Lane}, s.lanes.lookup job.laneKey = some old →
      (old.current = some i → lane' = new → lane'.current = some i) →
      (s.lanes.insert job.laneKey new).lookup key = some lane' → lane'.current = some i := by
    intro old new hold hcase hnew
    rw [Assoc.lookup_insert_eq] at hnew
    split at hnew
    · next hkey =>
      rw [hkey, hold, some.injEq] at hlane
      exact hcase (hlane ▸ hcur) (some.inj hnew).symm
    · exact hsame rfl hnew
  cases hstep with
  | keep | giveUp | release => exact hsame rfl hlane'
  | route _ hsender =>
    obtain ⟨heq, -⟩ | ⟨rfl, hnone, -⟩ := LaneStep.lookup_dispatchSender hsender key
    · exact hsame heq hlane'
    · rw [hnone] at hlane
      cases hlane
  | send _ hold => exact hins hold (fun hi heq => by rw [heq]; exact hi) hlane'
  | acquire hph hold =>
    refine hins hold (fun _ heq => ?_) hlane'
    -- a job that is held is not in a serial lane
    have hser := hls.held hjob hph hold
    rw [heq] at hmode
    exact absurd hmode hser
  | serve hph hdisp hold hser =>
    refine hins hold (fun hi _ => ?_) hlane'
    have hj := h.working hjob hdisp (by rw [hph]; rfl) hold hser
    rw [hj, some.injEq] at hi
    exact absurd hi.symm hne

/-- A job comes to execute in a serial lane when its lane's task takes it. -/
theorem late_back_of_laneStep (hls : s.LaneInv) (hjob : s.jobs[j]? = some job)
    (hstep : LaneStep j job s.lanes s.permits job' lanes' permits') (hdisp : job'.dispatched)
    (hlate : job'.phase.late) (hlane' : lanes'.lookup job.laneKey = some lane')
    (hmode : lane'.mode = .serial) :
    job.dispatched ∧ job.phase.late ∧ lanes' = s.lanes := by
  cases hstep with
  | keep hph =>
    obtain ⟨hin, -⟩ | ⟨hin, -⟩ | ⟨hlate, -⟩ := hph
    · exact absurd (hls.early hjob hin) (by rw [show job.dispatched = true from hdisp]; simp)
    · exact absurd (hls.early hjob hin) (by rw [show job.dispatched = true from hdisp]; simp)
    · exact ⟨hdisp, hlate, rfl⟩
  | acquire hph hold =>
    rw [AList.lookup_insert, some.injEq] at hlane'
    have hser := hls.held hjob hph hold
    rw [← hlane'] at hmode
    exact absurd hmode hser
  | giveUp | route | send | serve | release => cases hlate

variable {permits : DispatchMode → ℕ} {lanes : Assoc String Lane}

/-- A job is sent where there is room. -/
theorem room_of_laneStep
    (h : LaneStep j job lanes permits job' lanes' permits') (hqd : job'.phase = .queued)
    (hlane : lanes.lookup job.laneKey = some lane) : lane.queue.length < lane.capacity := by
  cases h with
  | @keep phase _ hph =>
    rw [show phase = .queued from hqd] at hph
    obtain ⟨-, hin, -⟩ | ⟨-, hlate⟩ | ⟨-, hlate⟩ := hph
    · cases hin
    all_goals cases hlate
  | send _ hold hroom =>
    rw [hold, some.injEq] at hlane
    exact hlane ▸ hroom
  | giveUp | route | acquire | serve | release => cases hqd

variable (h : s.PlaceInv)
include h

/-- A step of a job keeps the places. -/
theorem PlaceInv.of_afterStep (hls : s.LaneInv) (hjob : s.jobs[j]? = some job)
    (hstep : jobStep floatText j turn job (s.clients job.connectionId) s.lanes s.permits =
      some moved) : (s.afterStep j job moved).PlaceInv := by
  have hlane := laneStep_of_jobStep hstep
  have hkey : moved.job.laneKey = job.laneKey := hlane.laneKey_eq
  obtain ⟨hid, -⟩ := (slotStep_of_jobStep hstep).2.same
  obtain ⟨hback, hread⟩ := reading_of_jobStep hstep
  have hjobs : ∀ i, (s.afterStep j job moved).jobs[i]? =
      if i = j then some moved.job else s.jobs[i]? := jobs_afterStep hjob
  constructor
  · -- reader
    intro i job' hi hrd
    rw [hjobs] at hi
    rw [clients_afterStep]
    split at hi
    · next hij =>
      cases hi
      obtain ⟨hrd, hsame⟩ := hback hrd
      rw [if_pos hid, hsame, hij]
      exact h.reader hjob hrd
    · next hij =>
      have hi' := h.reader hi hrd
      split
      · next hc =>
        obtain hsame | ⟨-, hwith⟩ := hread
        · rw [hsame, ← hc, hi']
        · have hj : (s.clients job.connectionId).reading = some j := by
            obtain hrouted | hwith := hwith
            · exact h.reader hjob (withReader_of_inReader hls hjob (by rw [hrouted]; rfl))
            · exact h.reader hjob hwith
          rw [hc, hj, some.injEq] at hi'
          exact absurd hi'.symm hij
      · exact hi'
  · -- working
    intro i job' lane' hi hdisp hlate hlane' hmode
    rw [hjobs] at hi
    split at hi
    · next hij =>
      cases hi
      rw [hkey] at hlane'
      obtain ⟨hold, hold', heq⟩ :=
        late_back_of_laneStep hls hjob hlane hdisp hlate hlane' hmode
      have hlane'' : moved.lanes.lookup job.laneKey = some lane' := hlane'
      rw [heq] at hlane''
      rw [hij]
      exact h.working hjob hold hold' hlane'' hmode
    · next hij =>
      obtain ⟨lane, hl⟩ := hls.made hi (.inr hdisp)
      obtain ⟨lane'', hl', hsame, -⟩ := hlane.lanes_kept hl
      have hlane'' : moved.lanes.lookup job'.laneKey = some lane' := hlane'
      cases hl'.symm.trans hlane''
      exact h.current_of_laneStep hls hjob hlane hij hl hl' hmode
        (h.working hi hdisp hlate hl (hsame ▸ hmode))
  · -- room
    intro key lane' hlane'
    obtain ⟨lane, hl, hmode, hq, -⟩ | ⟨-, -, rfl⟩ := hlane.lanes_back hlane'
    · rw [capacity_eq hmode]
      obtain hsame | ⟨rfl, hrouted, hqd, hmore⟩ := hq
      · rw [hsame]
        exact h.room hl
      · rw [hmore, length_append, length_singleton]
        exact room_of_laneStep hlane hqd hl
    · exact Nat.zero_le _

/-- Marking jobs leaves them where they are. -/
theorem PlaceInv.of_marks (hmarks : Marks s.jobs s'.jobs) (hls : s'.lanes = s.lanes)
    (hread : ∀ c, (s'.clients c).reading = (s.clients c).reading) : s'.PlaceInv := by
  constructor
  · intro j job' hj hrd
    obtain ⟨job, hold, hsame⟩ := hmarks.back hj
    rw [hread, hsame.connectionId]
    refine h.reader hold ?_
    unfold DispatchJob.withReader at hrd ⊢
    rwa [hsame.dispatched, hsame.phase] at hrd
  · intro j job' lane hj hdisp hlate hlane hmode
    obtain ⟨job, hold, hsame⟩ := hmarks.back hj
    rw [hls, hsame.laneKey] at hlane
    exact h.working hold (hsame.dispatched ▸ hdisp) (hsame.phase ▸ hlate) hlane hmode
  · intro key lane hlane
    exact h.room (hls ▸ hlane)

/-- The reader takes the next frame when it has none. -/
theorem PlaceInv.of_frame (method : String) (work : DispatchWork)
    (hfree : (s.clients c).reading = none) : (s.frame c method work).PlaceInv := by
  constructor
  · intro i job hi hrd
    rw [(clients_frame _).2.2]
    obtain hold | ⟨rfl, hc, -⟩ := jobs_frame hi
    · have hread := h.reader hold hrd
      have hne : job.connectionId ≠ c := by
        rintro rfl
        rw [hfree] at hread
        cases hread
      rw [if_neg hne, hread]
    · rw [if_pos hc]
  · intro i job lane hi hdisp hlate hlane hmode
    obtain hold | ⟨-, -, -, -, -, hnot, -⟩ := jobs_frame hi
    · exact h.working hold hdisp hlate hlane hmode
    · rw [hnot] at hdisp
      cases hdisp
  · exact fun hlane => h.room hlane

/-- A lane's task takes a job when it holds none. -/
theorem PlaceInv.of_receive (hls : s.LaneInv) (hrecv : s.receive key = some s') : s'.PlaceInv := by
  obtain ⟨mode, j, queue, job, hlane, hjob, rfl⟩ := receive_eq_some.1 hrecv
  obtain ⟨job₀, hjob₀, hph, hkey⟩ := hls.queued hlane mem_cons_self
  cases hjob.symm.trans hjob₀
  have hdisp := hls.sent hjob (.inl hph)
  have hkey' : DispatchJob.laneKey
      { job with phase := if mode = .serial then .waiting else .held } = key := hkey
  have hjobs := @getElem?_set_of_eq_some DispatchJob s.jobs j job
    { job with phase := if mode = .serial then .waiting else .held } hjob
  have hget : ∀ k, (s.lanes.insert key ⟨mode, queue, some j⟩).lookup k =
      if k = key then some ⟨mode, queue, some j⟩ else s.lanes.lookup k := fun k =>
    Assoc.lookup_insert_eq
  constructor
  · intro i job' hi hrd
    rw [hjobs] at hi
    split at hi
    · cases hi
      rw [DispatchJob.withReader, show DispatchJob.dispatched _ = true from hdisp] at hrd
      cases hrd
    · exact h.reader hi hrd
  · intro i job' lane' hi hdisp' hlate hlane' hmode
    rw [hjobs] at hi
    rw [hget] at hlane'
    split at hi
    · next hij =>
      cases hi
      rw [if_pos hkey', some.injEq] at hlane'
      rw [← hlane', hij]
    · split at hlane'
      · next heq =>
        -- the task held none before, so no other job of the lane executes
        cases hlane'
        have hold : s.lanes.lookup job'.laneKey = some ⟨mode, j :: queue, none⟩ := by
          rw [heq, hlane]
        have hnone := h.working hi hdisp' hlate hold hmode
        cases hnone
      · exact h.working hi hdisp' hlate hlane' hmode
  · intro k lane' hlane'
    rw [hget] at hlane'
    split at hlane'
    · cases hlane'
      have hroom := h.room hlane
      exact (Nat.le_succ _).trans hroom
    · exact h.room hlane'

/-- Every step keeps the places. -/
theorem PlaceInv.of_step (hls : s.LaneInv)
    (hstep : (wsMachine floatText).step s action = some s') : s'.PlaceInv := by
  cases action with
  | connect =>
    cases hstep
    exact { h with }
  | frame c method work =>
    obtain ⟨⟨-, hfree⟩, heq⟩ := ite_none_right_eq_some.1 hstep
    cases heq
    exact h.of_frame method work hfree
  | cancelFrame c id =>
    obtain ⟨-, heq⟩ := ite_none_right_eq_some.1 hstep
    cases heq
    refine h.of_marks marks_cancelFrame rfl fun c' => ?_
    by_cases hc : c' = c
    · subst hc
      simp [cancelFrame]
    · simp [cancelFrame, hc]
  | markDisconnected c =>
    cases hstep
    refine h.of_marks marks_markDisconnected rfl fun c' => ?_
    by_cases hc : c' = c
    · subst hc
      simp [markDisconnected]
    · simp [markDisconnected, hc]
  | receive key => exact h.of_receive hls hstep
  | job j turn =>
    obtain ⟨job, moved, hjob, hmov, rfl⟩ := stepJob_eq_some.1 hstep
    exact h.of_afterStep hls hjob hmov

omit h

theorem placeInv_of_reachable (h : (wsMachine floatText).Reachable s) : s.PlaceInv :=
  h.rule placeInv_init fun _ _ _ hreach hinv hstep =>
    hinv.of_step (laneInv_of_reachable hreach) hstep

/-- **Dispatch is bounded.** Of the jobs that serial lanes of one key gave out
one at most executes, of those of the concurrent lanes of a mode no more than
its permits; a channel holds a job once, and no more than its capacity. -/
theorem dispatch_bounded (h : (wsMachine floatText).Reachable s) :
    (∀ mode ≠ .serial, s.jobs.countP (executes s.lanes mode) ≤ permitLimit mode) ∧
    (∀ (i j : ℕ) job job', s.jobs[i]? = some job → s.jobs[j]? = some job' →
      job'.laneKey = job.laneKey → executes s.lanes .serial job → executes s.lanes .serial job' →
      i = j) ∧
    ∀ key lane, s.lanes.lookup key = some lane →
      lane.queue.Nodup ∧ lane.queue.length ≤ lane.capacity := by
  have hls := laneInv_of_reachable h
  have hplace := placeInv_of_reachable h
  refine ⟨fun mode hne => ?_, fun i j job job' hi hj hkey hex hex' => ?_,
    fun key lane hlane => ⟨hls.nodup hlane, hplace.room hlane⟩⟩
  · exact (Nat.le_add_left ..).trans_eq (hls.permits hne)
  · simp only [executes, Bool.and_eq_true, decide_eq_true_eq] at hex hex'
    obtain ⟨lane, hlane, hmode⟩ := map_eq_some_iff.1 hex.2
    have hcur := hplace.working hi hex.1.1 hex.1.2 hlane hmode
    exact some.inj (hcur.symm.trans (hplace.working hj hex'.1.1 hex'.1.2 (hkey ▸ hlane) hmode))

theorem dispatch_bounded_ping :
    let s := (wsMachine fun _ => []).run ([.connect, pingFrame] ++ pingQueued 0 ++ pingBegins 0)
      (wsMachine fun _ => []).init
    s.jobs.countP (executes s.lanes .concurrentControl) ≤ 4 :=
  (dispatch_bounded ⟨_, Machine.exec_eq_run (by decide +kernel)⟩).1 _ nofun

/-! ## How many registrations are under way -/

/-- The registrations of a client that are enqueued and not completed. -/
def registrations (s : WsServer) (c : ℕ) : ℕ := s.jobs.countP (·.holdsBarrier c)

/-- **The registrations of a client are with its reader or in its lane**, so
there are no more than the lane takes, and two. -/
theorem registrations_le (h : s.PlaceInv) (hls : s.LaneInv) (c : ℕ) :
    s.registrations c ≤ defaultLaneCapacity + 2 := by
  set lane := s.lanes.lookup (connectionLane c) with hlane
  have hplaces : ∀ i job, s.jobs[i]? = some job → job.holdsBarrier c →
      i ∈ (s.clients c).reading.toList ++ (lane.bind current).toList ++
        (lane.map queue).getD [] := by
    intro i job hi hh
    simp only [holdsBarrier, Bool.and_eq_true, decide_eq_true_eq] at hh
    obtain ⟨⟨rfl, hreg⟩, hph⟩ := hh
    have hkey : job.laneKey = connectionLane job.connectionId := by
      simp only [isRegistration, Bool.and_eq_true, decide_eq_true_eq] at hreg
      rw [DispatchJob.laneKey, DispatchJob.lane, hreg.2, dispatchLane, if_neg (by simp),
        if_pos (by simp)]
    cases hdisp : job.dispatched with
    | false =>
      have hread := h.reader hi (by
        simp only [DispatchJob.withReader, hdisp]
        simp_all)
      simp [hread]
    | true =>
      obtain ⟨l, hl⟩ := hls.made hi (.inr hdisp)
      have hser : l.mode = .serial := by
        obtain ⟨c', method, work, hmade⟩ := hls.mode hl
        have := (dispatchLane_eq_connectionLane (by rw [hmade]; exact hkey)).2
        rwa [hmade] at this
      rw [hkey] at hl
      rw [hl] at hlane
      rw [hlane]
      have hcases : job.phase = .queued ∨ job.phase = .held ∨ job.phase.late := by
        have hearly := mt (hls.early hi) (by rw [hdisp]; simp)
        revert hearly hph
        cases job.phase <;> simp [Phase.inReader, Phase.late]
      obtain hqd | hheld | hlate := hcases
      · have := hls.located hi hqd (hkey ▸ hl)
        simp [this]
      · exact absurd hser (hls.held hi hheld (hkey ▸ hl))
      · have := h.working hi hdisp hlate (hkey ▸ hl) hser
        simp [this]
  refine (countP_le_length hplaces).trans ?_
  have hrd : (s.clients c).reading.toList.length ≤ 1 := by
    cases (s.clients c).reading <;> simp
  have hcur : (lane.bind current).toList.length ≤ 1 := by
    cases lane.bind current <;> simp
  have hq : ((lane.map queue).getD []).length ≤ defaultLaneCapacity := by
    cases hl : lane with
    | none => exact Nat.zero_le _
    | some l =>
      refine (h.room (hlane ▸ hl)).trans ?_
      unfold capacity
      split <;> decide
  simp only [length_append]
  omega

/-! ## The count -/

/-- Only a registration completes the barrier. -/
theorem releasing_of_jobStep {client : WsClient}
    (h : jobStep floatText j turn job client lanes permits = some moved)
    (hph : moved.job.phase = .releasing) : job.isRegistration := by
  have haft : job.afterExecution = .releasing → job.isRegistration := by
    unfold DispatchJob.afterExecution
    intro heq
    split at heq
    · assumption
    · cases heq
  unfold jobStep at h
  split at h <;> (try dsimp only at h) <;> (try split at h) <;> (try split at h) <;>
    (try split at h) <;>
    first
      | cases h; done
      | (cases h
         simp_all)

/-- Whoever completes the barrier is a registration. -/
def Releases (s : WsServer) : Prop :=
  ∀ (j : ℕ) (job : DispatchJob), s.jobs[j]? = some job → job.phase = .releasing → job.isRegistration

theorem isRegistration_eq_of_same (hmeth : job'.method = job.method)
    (hwork : job'.work = job.work) : job'.isRegistration = job.isRegistration := by
  simp only [isRegistration, isRequest, hmeth, hwork]

theorem Releases.of_marks (h : s.Releases) (hmarks : Marks s.jobs s'.jobs) : s'.Releases := by
  intro j job' hj hph
  obtain ⟨job, hold, hsame⟩ := hmarks.back hj
  rw [isRegistration_eq_of_same hsame.method hsame.work]
  exact h j job hold (hsame.phase ▸ hph)

/-- Every step keeps a release for what waits. -/
theorem Releases.of_step (h : s.Releases) (hstep : (wsMachine floatText).step s action = some s') :
    s'.Releases := by
  cases action with
  | connect =>
    cases hstep
    exact h
  | frame c method work =>
    obtain ⟨-, heq⟩ := ite_none_right_eq_some.1 hstep
    cases heq
    intro j job hj hph
    obtain hold | ⟨-, -, -, -, hnew, -⟩ := jobs_frame hj
    · exact h j job hold hph
    · rw [hnew] at hph
      split at hph <;> cases hph
  | cancelFrame c id =>
    obtain ⟨-, heq⟩ := ite_none_right_eq_some.1 hstep
    cases heq
    exact h.of_marks marks_cancelFrame
  | markDisconnected c =>
    cases hstep
    exact h.of_marks marks_markDisconnected
  | receive key =>
    obtain ⟨mode, j, queue, job, -, hjob, rfl⟩ := receive_eq_some.1 hstep
    intro i job' hi hph
    rw [getElem?_set_of_eq_some hjob] at hi
    split at hi
    · cases hi
      split at hph <;> cases hph
    · exact h i job' hi hph
  | job j turn =>
    obtain ⟨job, moved, hjob, hmov, rfl⟩ := stepJob_eq_some.1 hstep
    obtain ⟨-, hmeth, hwork, -⟩ := (slotStep_of_jobStep hmov).2.same
    intro i job' hi hph
    rw [jobs_afterStep hjob] at hi
    split at hi
    · cases hi
      rw [isRegistration_eq_of_same hmeth hwork]
      exact releasing_of_jobStep hmov hph
    · exact h i job' hi hph

theorem releases_of_reachable (h : (wsMachine floatText).Reachable s) : s.Releases :=
  h.rule (fun j job hj => by simp [wsMachine] at hj) fun _ _ _ _ hinv hstep => hinv.of_step hstep

/-- The count of every client is the number of its registrations. -/
def Counted (s : WsServer) : Prop :=
  ∀ c, (s.clients c).registrationPending.toNat = s.registrations c

/-- The store of 0 finds no registration of its client enqueued and not
completed. -/
def StoresAlone (s : WsServer) : WsAction → Prop
  | .job j _ => ∀ job ∈ s.jobs[j]?, job.phase = .clearing → s.registrations job.connectionId = 0
  | _ => True

instance (s : WsServer) : DecidablePred s.StoresAlone
  | .job j _ => inferInstanceAs (Decidable (∀ job ∈ s.jobs[j]?,
    job.phase = .clearing → s.registrations job.connectionId = 0))
  | .connect | .frame .. | .cancelFrame .. | .markDisconnected _ | .receive _ => .isTrue trivial

/-- What a job's step does to the registrations of a client. -/
theorem registrations_afterStep {moved : Moved} (hjob : s.jobs[j]? = some job) (c : ℕ) :
    (s.afterStep j job moved).registrations c + (if job.holdsBarrier c then 1 else 0) =
      s.registrations c + (if moved.job.holdsBarrier c then 1 else 0) :=
  countP_set_of_eq_some hjob

/-- Another client's registrations are left alone. -/
theorem holdsBarrier_of_ne (h : job.connectionId ≠ c) : job.holdsBarrier c = false := by
  simp [holdsBarrier, h]

theorem one_le_registrations (hjob : s.jobs[j]? = some job) (h : job.holdsBarrier c) :
    1 ≤ s.registrations c :=
  countP_pos_iff.2 ⟨job, mem_of_getElem? hjob, h⟩

/-- **A job's step keeps the count**, but for a store: this one keeps it just
when it finds no registration. -/
theorem Counted.afterStep_iff (h : s.Counted) (hreleases : s.Releases)
    (hjob : s.jobs[j]? = some job)
    (hstep : jobStep floatText j turn job (s.clients job.connectionId) s.lanes s.permits =
      some moved) : (s.afterStep j job moved).Counted ↔ s.StoresAlone (.job j turn) := by
  obtain ⟨hid, hmeth, hwork, -⟩ := (slotStep_of_jobStep hstep).2.same
  have hregn := isRegistration_eq_of_same hmeth hwork
  have halone : s.StoresAlone (.job j turn) ↔
      (job.phase = .clearing → s.registrations job.connectionId = 0) := by
    show (∀ job ∈ s.jobs[j]?, _) ↔ _
    rw [hjob]
    exact ⟨fun hall => hall job rfl, fun hone _ hmem => some.inj hmem ▸ hone⟩
  -- the count of another client is left alone
  have hne : (s.afterStep j job moved).Counted ↔ moved.client.registrationPending.toNat =
      (s.afterStep j job moved).registrations job.connectionId := by
    constructor
    · intro hall
      have := hall job.connectionId
      rwa [clients_afterStep, if_pos rfl] at this
    · intro hone c
      rw [clients_afterStep]
      split
      · next hc => rw [hc, hone]
      · next hc =>
        have hcnt := @registrations_afterStep s j job moved hjob c
        rw [holdsBarrier_of_ne (Ne.symm hc), holdsBarrier_of_ne (hid ▸ Ne.symm hc)] at hcnt
        rw [h c]
        omega
  rw [hne, halone]
  have hcnt := @registrations_afterStep s j job moved hjob job.connectionId
  have hold := h job.connectionId
  obtain ⟨hpend, hnot, hnot', hsame⟩ | ⟨hpend, hph, hph'⟩ |
    ⟨hpend, hph, hph'⟩ := barrier_of_jobStep hstep
  · have hh : moved.job.holdsBarrier job.connectionId = job.holdsBarrier job.connectionId := by
      unfold holdsBarrier
      rw [hid, hregn]
      cases hreg : job.isRegistration with
      | false => simp
      | true => rw [decide_eq_decide.2 (not_congr (hsame hreg))]
    rw [hh] at hcnt
    rw [hpend, hold]
    exact iff_of_true (by omega) fun hclearing => absurd hclearing hnot'
  · have hh : job.holdsBarrier job.connectionId := by
      simp [holdsBarrier, hph, hreleases j job hjob hph]
    have hh' : moved.job.holdsBarrier job.connectionId = false := by
      simp only [holdsBarrier, hph']
      split <;> simp
    have hpos := one_le_registrations hjob hh
    rw [if_pos hh, hh'] at hcnt
    simp only [Bool.false_eq_true, if_false, add_zero] at hcnt
    have hle : (1 : UInt64) ≤ (s.clients job.connectionId).registrationPending := by
      rw [UInt64.le_iff_toNat_le, hold]
      exact hpos
    rw [hpend, UInt64.toNat_sub_of_le _ _ hle, hold, UInt64.toNat_one]
    exact iff_of_true (by omega) fun hclearing => by rw [hph] at hclearing; cases hclearing
  · have hh : job.holdsBarrier job.connectionId = false := by
      simp [holdsBarrier, hph]
    have hh' : moved.job.holdsBarrier job.connectionId = false := by
      simp [holdsBarrier, hph']
    rw [hh, hh'] at hcnt
    simp only [Bool.false_eq_true, if_false, add_zero] at hcnt
    rw [hpend, hcnt, UInt64.toNat_zero]
    exact ⟨fun hzero _ => hzero.symm, fun hzero => (hzero hph).symm⟩

/-- A frame's registration is counted as it is enqueued. -/
theorem Counted.frame (h : s.Counted) (method : String) (work : DispatchWork)
    (hroom : s.registrations c + 1 < 2 ^ 64) : (s.frame c method work).Counted := by
  set new : DispatchJob := ⟨c, method, work, .received, false, false, false⟩ with hnew
  have hh : ∀ c', holdsBarrier c' (if new.isRequest then new
      else { new with phase := .registered }) = (decide (c = c') && new.isRegistration) := by
    intro c'
    split <;> simp [holdsBarrier, isRegistration, isRequest, hnew]
  intro c'
  have hcnt : (s.frame c method work).registrations c' = s.registrations c' +
      (if decide (c = c') && new.isRegistration then 1 else 0) := by
    rw [← hh c']
    simp only [registrations, WsServer.frame, countP_append, countP_singleton]
    rfl
  rw [hcnt]
  by_cases hc : c' = c
  · subst hc
    rw [← h c'] at hroom ⊢
    have hpend : ((s.frame c' method work).clients c').registrationPending =
        (s.clients c').registrationPending + if new.isRegistration then 1 else 0 := by
      simp only [WsServer.frame, Function.update_self]
      rfl
    rw [hpend]
    cases new.isRegistration with
    | false => simp
    | true =>
      simp only [if_true, UInt64.toNat_add, UInt64.toNat_one, decide_true, Bool.and_self]
      exact Nat.mod_eq_of_lt hroom
  · have hpend : ((s.frame c method work).clients c').registrationPending =
        (s.clients c').registrationPending := by
      simp only [WsServer.frame, Function.update_of_ne hc]
    rw [hpend, h c']
    simp [Ne.symm hc]

/-- Where the registrations and the counts are left alone, so is what they
say of each other. -/
theorem counted_iff_of_eq (hpend : ∀ c, (s'.clients c).registrationPending =
    (s.clients c).registrationPending) (hcnt : ∀ c, s'.registrations c = s.registrations c) :
    s'.Counted ↔ s.Counted := by
  unfold Counted
  simp only [hpend, hcnt]

theorem registrations_of_marks (hmarks : Marks s.jobs s'.jobs) (c : ℕ) :
    s'.registrations c = s.registrations c := by
  refine hmarks.countP_eq fun job job' hsame => ?_
  simp only [holdsBarrier, isRegistration, hsame.connectionId, hsame.phase,
    hsame.method, hsame.isRequest]

/-- A job that a lane's task takes keeps its count. -/
theorem registrations_of_receive (hls : s.LaneInv) (hrecv : s.receive key = some s') (c : ℕ) :
    s'.clients = s.clients ∧ s'.registrations c = s.registrations c := by
  obtain ⟨mode, j, queue, job, hlane, hjob, rfl⟩ := receive_eq_some.1 hrecv
  obtain ⟨job₀, hjob₀, hph, -⟩ := hls.queued hlane mem_cons_self
  cases hjob.symm.trans hjob₀
  have hsame : ∀ phase : Phase, phase = .waiting ∨ phase = .held →
      holdsBarrier c { job with phase } = job.holdsBarrier c := by
    rintro phase (rfl | rfl) <;> simp [holdsBarrier, isRegistration, isRequest, hph]
  have hh := hsame (if mode = .serial then .waiting else .held) (by split <;> simp)
  have hcnt := @countP_set_of_eq_some DispatchJob s.jobs j job
    { job with phase := if mode = .serial then .waiting else .held } (·.holdsBarrier c) hjob
  rw [hh] at hcnt
  exact ⟨rfl, Nat.add_right_cancel hcnt⟩

/-- **A step keeps the count just when it is no store that finds a
registration.** -/
theorem Counted.step_iff (h : s.Counted) (hreach : (wsMachine floatText).Reachable s)
    (hstep : (wsMachine floatText).step s action = some s') :
    s'.Counted ↔ s.StoresAlone action := by
  have hls := laneInv_of_reachable hreach
  cases action with
  | connect =>
    cases hstep
    exact iff_of_true h trivial
  | frame c method work =>
    obtain ⟨-, heq⟩ := ite_none_right_eq_some.1 hstep
    cases heq
    refine iff_of_true (h.frame method work ?_) trivial
    have hle := registrations_le (placeInv_of_reachable hreach) hls c
    unfold defaultLaneCapacity at hle
    omega
  | cancelFrame c id =>
    obtain ⟨-, heq⟩ := ite_none_right_eq_some.1 hstep
    cases heq
    refine iff_of_true ((counted_iff_of_eq (fun c' => ?_)
      (registrations_of_marks marks_cancelFrame)).2 h) trivial
    by_cases hc : c' = c
    · subst hc
      simp [cancelFrame]
    · simp [cancelFrame, hc]
  | markDisconnected c =>
    cases hstep
    refine iff_of_true ((counted_iff_of_eq (fun c' => ?_)
      (registrations_of_marks marks_markDisconnected)).2 h) trivial
    by_cases hc : c' = c
    · subst hc
      simp [markDisconnected]
    · simp [markDisconnected, hc]
  | receive key =>
    have hrecv := registrations_of_receive hls hstep
    exact iff_of_true ((counted_iff_of_eq (fun c => by rw [(hrecv c).1])
      fun c => (hrecv c).2).2 h) trivial
  | job j turn =>
    obtain ⟨job, moved, hjob, hmov, rfl⟩ := stepJob_eq_some.1 hstep
    exact h.afterStep_iff (releases_of_reachable hreach) hjob hmov

/-- **The barrier is kept**: the count of a client is the number of its
registrations that are enqueued and not completed, no other job of a
connected client passes the wait while there is one, and neither
`fetch_add` nor `fetch_sub` wraps. -/
structure BarrierKept (floatText : Double → List Char) (s : WsServer) : Prop where
  counted : s.Counted
  passes : ∀ {j : ℕ} {turn : Turn} {job : DispatchJob}, s.jobs[j]? = some job →
    job.phase = .waiting →
    job.isRegistration = false → (s.clients job.connectionId).connected →
    (s.stepJob floatText j turn).isSome → s.registrations job.connectionId = 0
  adds : ∀ c, (s.clients c).registrationPending.toNat + 1 < 2 ^ 64
  takes : ∀ {j : ℕ} {job : DispatchJob}, s.jobs[j]? = some job → job.phase = .releasing →
    0 < (s.clients job.connectionId).registrationPending.toNat

/-- What the count is good for. -/
theorem Counted.barrierKept (h : s.Counted) (hreach : (wsMachine floatText).Reachable s) :
    s.BarrierKept floatText := by
  refine ⟨h, fun {j turn job} hjob hph hreg hconn hstep => ?_, fun c => ?_,
    fun {j job} hjob hph => ?_⟩
  · obtain ⟨s', hs'⟩ := isSome_iff_exists.1 hstep
    obtain ⟨job', moved, hjob', hmov, -⟩ := stepJob_eq_some.1 hs'
    cases hjob.symm.trans hjob'
    have hturn : job.isRegistration ∨ (s.clients job.connectionId).registrationPending = 0 ∨
        (s.clients job.connectionId).connected = false := by
      by_contra hclosed
      unfold jobStep at hmov
      rw [hph] at hmov
      cases turn <;> simp [hclosed] at hmov
    rw [hreg, hconn] at hturn
    simp only [Bool.false_eq_true, Bool.true_eq_false, false_or, or_false] at hturn
    rw [← h, hturn, UInt64.toNat_zero]
  · have hle := registrations_le (placeInv_of_reachable hreach) (laneInv_of_reachable hreach) c
    unfold defaultLaneCapacity at hle
    rw [h c]
    omega
  · have hh : job.holdsBarrier job.connectionId := by
      simp [holdsBarrier, hph, releases_of_reachable hreach j job hjob hph]
    rw [h]
    exact one_le_registrations hjob hh

theorem counted_init : (wsMachine floatText).init.Counted := by
  intro c
  simp [wsMachine, WsClient.new, registrations]

/-- **The registration barrier is kept all along a run** just where every
store of 0 finds no registration of its client enqueued and not
completed. -/
theorem barrier_kept_iff {actions : List WsAction}
    (h : (wsMachine floatText).exec actions (wsMachine floatText).init = some s) :
    (∀ before t, before <+: actions →
      (wsMachine floatText).exec before (wsMachine floatText).init = some t →
      t.BarrierKept floatText) ↔
    ((wsMachine floatText).restrict StoresAlone).exec actions (wsMachine floatText).init =
      some s := by
  have hiff : ∀ {t}, (wsMachine floatText).Reachable t → (t.Counted ↔ t.BarrierKept floatText) :=
    fun ht => ⟨fun hcounted => hcounted.barrierKept ht, BarrierKept.counted⟩
  rw [← Machine.holds_along_iff counted_init ?_ h]
  · exact forall₄_congr fun before t _ ht => (hiff ⟨before, ht⟩).symm
  · intro u action v hu hv
    have hcounted : u.Counted := hu.rule (@counted_init floatText) fun x a y hx hcounted hy => by
      obtain ⟨hstores, hy⟩ := Machine.restrict_step_eq_some.1 hy
      exact (hcounted.step_iff hx.of_restrict hy).2 hstores
    exact hcounted.step_iff hu.of_restrict hv

/-! ## A registration that is forgotten -/

/-- A frame of a registration. -/
def registerFrame (id : UInt64) : WsAction :=
  .frame 1 "remux/clients/register" (.request (.number (.posInt id)) .null)

/-- A registration is executed up to its `fetch_sub`, of which the store is
still to come. -/
def registered : List WsAction :=
  [WsAction.connect, registerFrame 1] ++ List.replicate 4 (WsAction.job 0 .advance) ++
    [WsAction.receive "control:connection:1"] ++ List.replicate 3 (WsAction.job 0 .advance) ++
    [WsAction.job 0 (.answer (.result .null))] ++ List.replicate 3 (WsAction.job 0 .advance)

/-- Another one is enqueued before the store, and a ping after it. -/
def registeredAgain : List WsAction :=
  registered ++ [registerFrame 2] ++ List.replicate 4 (WsAction.job 1 .advance) ++
    [WsAction.job 0 .advance] ++
    [pingFrame] ++ pingQueued 2 ++ [WsAction.receive "control:liveness"] ++
    List.replicate 2 (WsAction.job 2 .advance)

/-- **The second registration is enqueued, and not counted**, and the ping
passes the barrier. -/
theorem registration_forgotten :
    ∃ s job, (wsMachine fun _ => []).exec registeredAgain (wsMachine fun _ => []).init = some s ∧
      s.registrations 1 = 1 ∧ s.jobs[2]? = some job ∧ job.phase = .passed ∧
      ¬ BarrierKept (fun _ => []) s := by
  have hrun : ((wsMachine fun _ => []).exec registeredAgain
      (wsMachine fun _ => []).init).isSome := rfl
  refine ⟨_, _, (Option.some_get hrun).symm, rfl, rfl, rfl, fun h => ?_⟩
  have hzero : (0 : ℕ) = 1 := h.counted 1
  cases hzero

/-- A run with one registration, up to its store. -/
theorem barrier_kept_once : ∃ s, (wsMachine fun _ => []).exec (registered ++ [.job 0 .advance])
    (wsMachine fun _ => []).init = some s ∧
    ((∀ before t, before <+: registered ++ [.job 0 .advance] →
      (wsMachine fun _ => []).exec before (wsMachine fun _ => []).init = some t →
      BarrierKept (fun _ => []) t) ↔
    ((wsMachine fun _ => []).restrict StoresAlone).exec (registered ++ [.job 0 .advance])
      (wsMachine fun _ => []).init = some s) := by
  have hrun : (wsMachine fun _ => []).exec (registered ++ [.job 0 .advance])
      (wsMachine fun _ => []).init = some _ := Machine.exec_eq_run (by decide +kernel)
  exact ⟨_, hrun, barrier_kept_iff hrun⟩

end WsServer

end Remux
