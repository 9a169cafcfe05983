import Mathlib.Data.Finset.Preimage
import Remux.Rpc.Lanes

/-!
# The limit on the lanes

No step removes a lane. In a server whose jobs are all done the lanes are
the keys of the jobs that were ever sent to one (`keys_eq_servedLanes`),
so the limit is one on everything served so far and not on the work there
is: `dispatchSender_isSome_iff` says when no key is refused, and
`lanes_refuse_idle` is a run of registrations that ends idle and refused.
-/

namespace Remux

open AList Option

section

variable {floatText : Double → List Char}

variable {j : ℕ} {job : DispatchJob} {client : WsClient} {lanes : Assoc String Lane}
variable {permits : DispatchMode → ℕ}

/-- A job that has found its lane is sent, or finds the lane's channel
full. -/
theorem sent_or_full_of_routed {turn : Turn} {moved : Moved}
    (h : jobStep floatText j turn job client lanes permits = some moved)
    (hph : job.phase = .routed) : moved.job.dispatched ∨
      ∃ lane, lanes.lookup job.laneKey = some lane ∧ lane.queue ≠ [] := by
  unfold jobStep at h
  rw [hph] at h
  cases turn with
  | answer | abandon => cases h
  | advance =>
    dsimp only at h
    split at h
    · next lane hlane =>
      split at h
      · cases h
        exact .inl rfl
      · next hfull =>
        refine .inr ⟨lane, hlane, ?_⟩
        rintro hnil
        rw [hnil] at hfull
        refine hfull ?_
        unfold Lane.capacity
        split <;> decide
    · cases h

theorem jobStep_registered {lanes' : Assoc String Lane} (hph : job.phase = .registered)
    (hsender : dispatchSender lanes job.lane.1 job.lane.2 = some lanes') :
    jobStep floatText j .advance job client lanes permits =
      some ⟨{ job with phase := .routed }, client, lanes', permits, none⟩ := by
  unfold jobStep
  rw [hph]
  rw [hsender]

/-- A routed job enters a lane with room. -/
theorem jobStep_routed {j : ℕ} {job : DispatchJob} {client : WsClient}
    {lanes : Assoc String Lane} {permits : DispatchMode → ℕ} {lane : Lane}
    (hph : job.phase = .routed) (hlane : lanes.lookup job.laneKey = some lane)
    (hroom : lane.queue.length < lane.capacity) :
    jobStep floatText j .advance job client lanes permits =
      some ⟨{ job with phase := .queued, dispatched := true }, { client with reading := none },
        lanes.insert job.laneKey { lane with queue := lane.queue ++ [j] }, permits, none⟩ := by
  unfold jobStep
  rw [hph]
  rw [hlane]
  exact if_pos hroom

theorem jobStep_entered {id msg : Value} (hph : job.phase = .entered)
    (hwork : job.work = .request id msg)
    (hslot : (client.activeRequests.lookup (requestKey floatText id)).isSome) :
    jobStep floatText j .advance job client lanes permits =
      some ⟨{ job with phase := .begun, notified := false },
        { client with activeRequests :=
            client.activeRequests.insert (requestKey floatText id) (some j) },
        lanes, permits, none⟩ := by
  unfold jobStep
  rw [hph, hwork]
  exact if_pos hslot

theorem jobStep_releasing (hph : job.phase = .releasing) (hlast : client.registrationPending = 1) :
    jobStep floatText j .advance job client lanes permits =
      some ⟨{ job with phase := .clearing }, { client with registrationPending := 0 },
        lanes, permits, none⟩ := by
  unfold jobStep
  rw [hph]
  rw [hlast, if_pos (UInt64.le_refl 1), UInt64.sub_self]

/-- A job that leaves frees its lane. -/
theorem jobStep_leaving {j : ℕ} {job : DispatchJob} {client : WsClient}
    {lanes : Assoc String Lane} {permits : DispatchMode → ℕ} {lane : Lane}
    (hph : job.phase = .leaving) (hdisp : job.dispatched)
    (hlane : lanes.lookup job.laneKey = some lane) (hmode : lane.mode = .serial) :
    jobStep floatText j .advance job client lanes permits =
      some ⟨{ job with phase := .done }, client,
        lanes.insert job.laneKey { lane with current := none }, permits, none⟩ := by
  unfold jobStep
  rw [hph]
  rw [if_pos hdisp, hlane]
  exact if_pos hmode

namespace LaneStep

variable {j : ℕ} {job job' : DispatchJob} {lanes lanes' : Assoc String Lane}
  {permits permits' : DispatchMode → ℕ}

variable (h : LaneStep j job lanes permits job' lanes' permits')
include h

/-- A new lane is the one a job has just been given. -/
theorem routed_of_new {key : String}
    {lane' : Lane} (hnone : lanes.lookup key = none) (hlane : lanes'.lookup key = some lane') :
    job'.phase = .routed ∧ job.laneKey = key := by
  have hins : ∀ {lane new : Lane}, lanes.lookup job.laneKey = some lane →
      (lanes.insert job.laneKey new).lookup key ≠ some lane' := by
    intro lane new hold
    rw [Assoc.lookup_insert_eq]
    split
    · next heq =>
      rw [heq, hold] at hnone
      cases hnone
    · rw [hnone]
      simp
  cases h with
  | keep | giveUp | release =>
    rw [hnone] at hlane
    cases hlane
  | route _ hsender =>
    obtain ⟨heq, -⟩ | ⟨hkey, -, -⟩ := lookup_dispatchSender hsender key
    · rw [← heq, hlane] at hnone
      cases hnone
    · exact ⟨rfl, hkey.symm⟩
  | send _ hold | acquire _ hold | serve _ _ hold => exact absurd hlane (hins hold)

theorem dispatched_kept (hdisp : job.dispatched) : job'.dispatched := by
  cases h with
  | send => rfl
  | keep | giveUp | route | acquire | serve | release => exact hdisp

omit h

end LaneStep

namespace WsServer

/-! ## What the lanes were made for -/

/-- The job has been given the lane it needs: it is about to be sent
there, or was. -/
def Placed (job : DispatchJob) : Prop := job.phase = .routed ∨ job.dispatched

/-- **Every lane was made for a job.** -/
def ServedInv (s : WsServer) : Prop :=
  ∀ key lane, s.lanes.lookup key = some lane →
    ∃ (j : ℕ) (job : DispatchJob), s.jobs[j]? = some job ∧ job.laneKey = key ∧ Placed job

variable {s s' : WsServer} {job : DispatchJob}

variable (h : s.ServedInv)
include h

/-- Marks of the jobs keep what was served. -/
theorem ServedInv.of_marks (hmarks : Marks s.jobs s'.jobs)
    (hls : s'.lanes = s.lanes) : s'.ServedInv := by
  intro key lane hlane
  rw [hls] at hlane
  obtain ⟨j, job, hjob, hkey, hpl⟩ := h key lane hlane
  obtain ⟨job', hjob', hsame⟩ := hmarks.forth hjob
  refine ⟨j, job', hjob', hsame.laneKey.trans hkey, ?_⟩
  unfold Placed
  rw [hsame.phase, hsame.dispatched]
  exact hpl

/-- A job that has been given its lane leaves another one there when it
cannot be sent. -/
theorem ServedInv.of_afterStep (hls : s.LaneInv) {j : ℕ} {turn : Turn}
    {moved : Moved} (hjob : s.jobs[j]? = some job)
    (hstep : jobStep floatText j turn job (s.clients job.connectionId) s.lanes s.permits =
      some moved) : (s.afterStep j job moved).ServedInv := by
  have hlane := laneStep_of_jobStep hstep
  intro key lane hkey
  have hself : ∀ {i : ℕ} {other : DispatchJob}, s.jobs[i]? = some other → i ≠ j →
      other.laneKey = key → Placed other →
      ∃ (i : ℕ) (job' : DispatchJob), (s.afterStep j job moved).jobs[i]? = some job' ∧
        job'.laneKey = key ∧ Placed job' := by
    intro i other hi hne hother hpl
    exact ⟨i, other, by rw [jobs_afterStep hjob, if_neg hne, hi], hother, hpl⟩
  have hmov : (s.afterStep j job moved).jobs[j]? = some moved.job := by
    rw [jobs_afterStep hjob, if_pos rfl]
  by_cases hnew : s.lanes.lookup key = none
  · obtain ⟨hph, rfl⟩ := hlane.routed_of_new hnew hkey
    exact ⟨j, moved.job, hmov, hlane.laneKey_eq, .inl hph⟩
  · obtain ⟨lane₀, hlane₀⟩ := ne_none_iff_exists'.1 hnew
    obtain ⟨i, other, hi, hother, hpl⟩ := h key lane₀ hlane₀
    by_cases hij : i = j
    · subst hij
      cases hjob.symm.trans hi
      have hlaneKey : moved.job.laneKey = key := hlane.laneKey_eq.trans hother
      obtain hph | hdisp := hpl
      · obtain hsent | ⟨lane₁, hlane₁, hfull⟩ := sent_or_full_of_routed hstep hph
        · exact ⟨i, moved.job, hmov, hlaneKey, .inr hsent⟩
        · -- the channel is full of jobs that were sent
          obtain ⟨k, queue, hq⟩ := List.exists_cons_of_ne_nil hfull
          obtain ⟨first, hk, hfst, hfirstKey⟩ :=
            hls.queued hlane₁ (by rw [hq]; exact List.mem_cons_self ..)
          refine hself hk ?_ (hfirstKey.trans hother) (.inr (hls.sent hk (.inl hfst)))
          rintro rfl
          rw [hjob, some.injEq] at hk
          rw [← hk, hph] at hfst
          cases hfst
      · exact ⟨i, moved.job, hmov, hlaneKey, .inr (hlane.dispatched_kept hdisp)⟩
    · exact hself hi hij hother hpl

theorem ServedInv.of_frame (c : ℕ) (method : String) (work : DispatchWork) :
    (s.frame c method work).ServedInv := by
  intro key lane hlane
  obtain ⟨j, job, hjob, hrest⟩ := h key lane hlane
  refine ⟨j, job, ?_, hrest⟩
  rw [frame, List.getElem?_append_left (List.getElem?_eq_some_iff.1 hjob).1, hjob]

/-- A job received keeps what was served. -/
theorem ServedInv.of_receive (hls : s.LaneInv) {key : String}
    (hrecv : s.receive key = some s') : s'.ServedInv := by
  obtain ⟨mode, j, queue, job, hlane, hjob, rfl⟩ := receive_eq_some.1 hrecv
  obtain ⟨job₀, hjob₀, hph, hkey⟩ := hls.queued hlane (List.mem_cons_self ..)
  cases hjob.symm.trans hjob₀
  have hsent := hls.sent hjob (.inl hph)
  intro key' lane' hlane'
  have hold : ∃ lane₀, s.lanes.lookup key' = some lane₀ := by
    rw [Assoc.lookup_insert_eq] at hlane'
    split at hlane'
    · next heq => exact ⟨_, heq ▸ hlane⟩
    · exact ⟨_, hlane'⟩
  obtain ⟨lane₀, hlane₀⟩ := hold
  obtain ⟨i, other, hi, hne, hpl⟩ := h key' lane₀ hlane₀
  by_cases hij : i = j
  · subst hij
    cases hjob.symm.trans hi
    exact ⟨i, { job with phase := if mode = .serial then .waiting else .held },
      by rw [getElem?_set_of_eq_some hjob, if_pos rfl], hne, .inr hsent⟩
  · exact ⟨i, other, by rw [getElem?_set_of_eq_some hjob, if_neg hij, hi], hne, hpl⟩

/-- Every step keeps what was served. -/
theorem ServedInv.of_step (hls : s.LaneInv) {action : WsAction}
    (hstep : (wsMachine floatText).step s action = some s') :
    s'.ServedInv := by
  cases action with
  | connect =>
    cases hstep
    exact h
  | frame c method work =>
    cases (ite_none_right_eq_some.1 hstep).2
    exact h.of_frame c method work
  | cancelFrame c id =>
    cases (ite_none_right_eq_some.1 hstep).2
    exact h.of_marks marks_cancelFrame rfl
  | markDisconnected c =>
    cases hstep
    exact h.of_marks marks_markDisconnected rfl
  | receive key => exact h.of_receive hls hstep
  | job j turn =>
    obtain ⟨job, moved, hjob, hmov, rfl⟩ := stepJob_eq_some.1 hstep
    exact h.of_afterStep hls hjob hmov

omit h

theorem servedInv_of_reachable (h : (wsMachine floatText).Reachable s) : s.ServedInv := by
  refine h.rule ?_ fun _ _ _ hreach hinv hstep =>
    hinv.of_step (laneInv_of_reachable hreach) hstep
  intro key lane hlane
  cases hlane

/-! ## When no lane is refused -/

/-- The keys of the lanes that a job was ever sent to. -/
def servedLanes (s : WsServer) : Finset String :=
  ((s.jobs.filter (·.dispatched)).map (·.laneKey)).toFinset

/-- **Once every job is done the lanes are those ever served.** -/
theorem keys_eq_servedLanes (hreach : (wsMachine floatText).Reachable s)
    (hdone : ∀ job ∈ s.jobs, job.phase = .done) : s.lanes.keys.toFinset = s.servedLanes := by
  ext key
  rw [List.mem_toFinset, ← mem_keys, ← lookup_isSome, isSome_iff_exists]
  simp only [servedLanes, List.mem_toFinset, List.mem_map, List.mem_filter]
  constructor
  · rintro ⟨lane, hlane⟩
    obtain ⟨j, job, hjob, hkey, hph | hdisp⟩ :=
      servedInv_of_reachable hreach key lane hlane
    · rw [hdone job (List.mem_of_getElem? hjob)] at hph
      cases hph
    · exact ⟨job, ⟨List.mem_of_getElem? hjob, hdisp⟩, hkey⟩
  · rintro ⟨job, ⟨hmem, hdisp⟩, rfl⟩
    obtain ⟨j, hjob⟩ := List.mem_iff_getElem?.1 hmem
    exact (laneInv_of_reachable hreach).made hjob (.inr hdisp)

theorem size_eq_card_servedLanes (hreach : (wsMachine floatText).Reachable s)
    (hdone : ∀ job ∈ s.jobs, job.phase = .done) : s.lanes.size = s.servedLanes.card := by
  rw [← keys_eq_servedLanes hreach hdone, List.toFinset_card_of_nodup s.lanes.keys_nodup]
  simp [Assoc.size, keys, List.keys]

/-- Some connection has no lane. -/
theorem exists_lookup_eq_none (lanes : Assoc String Lane) :
    ∃ c, lanes.lookup (connectionLane c) = none := by
  have hinj : Set.InjOn connectionLane (Set.preimage connectionLane lanes.keys.toFinset) :=
    fun _ _ _ _ heq => connectionLane_inj heq
  obtain ⟨c, hc⟩ := Infinite.exists_notMem_finset (lanes.keys.toFinset.preimage _ hinj)
  refine ⟨c, lookup_eq_none.2 fun hmem => hc ?_⟩
  rwa [Finset.mem_preimage, List.mem_toFinset, ← mem_keys]

/-- **When every job is done, no lane is refused as long as fewer lanes
than the limit were ever served**, and only so long. -/
theorem dispatchSender_isSome_iff {s : WsServer} (hreach : (wsMachine floatText).Reachable s)
    (hdone : ∀ job ∈ s.jobs, job.phase = .done) :
    (∀ key mode, (dispatchSender s.lanes key mode).isSome) ↔
      s.servedLanes.card < maxRouteLanes := by
  rw [← size_eq_card_servedLanes hreach hdone]
  constructor
  · intro hall
    by_contra hlimit
    obtain ⟨c, hc⟩ := exists_lookup_eq_none s.lanes
    have hsome := hall (connectionLane c) .serial
    simp only [dispatchSender, hc] at hsome
    rw [if_pos (by omega)] at hsome
    cases hsome
  · intro hlimit key mode
    unfold dispatchSender
    split
    · rfl
    · rw [if_neg (by omega)]
      rfl

/-- A ping is served. -/
def pingServed : List WsAction :=
  [WsAction.connect, pingFrame] ++ pingQueued 0 ++ pingBegins 0 ++
    [WsAction.job 0 (.answer (.result .null))] ++
    List.replicate 3 (WsAction.job 0 .advance)

/-- A ping that was served. -/
theorem dispatchSender_isSome_served : ∃ s, (wsMachine fun _ => []).exec pingServed
    (wsMachine fun _ => []).init = some s ∧ s.lanes.keys = ["control:liveness"] ∧
      ∀ key mode, (dispatchSender s.lanes key mode).isSome := by
  have hrun : ((wsMachine fun _ => []).exec pingServed (wsMachine fun _ => []).init).isSome := rfl
  refine ⟨_, (Option.some_get hrun).symm, rfl, ?_⟩
  refine (dispatchSender_isSome_iff (s := Option.get _ hrun)
    ⟨pingServed, (Option.some_get hrun).symm⟩ ?_).2 ?_
  · have hphases : (Option.get _ hrun).jobs.map (·.phase) = [.done] := rfl
    intro job hjob
    exact List.mem_singleton.1 (hphases ▸ List.mem_map_of_mem hjob)
  · exact (List.toFinset_card_le _).trans_lt (show 1 < maxRouteLanes by decide)

/-! ## A server that is idle and refuses -/

/-- The register request of a connection. -/
def registration (c : ℕ) (phase : Phase) (dispatched : Bool) : DispatchJob where
  connectionId := c
  method := "remux/clients/register"
  work := .request (.number (.posInt 1)) (.object [])
  phase := phase
  dispatched := dispatched
  notified := false
  cancelled := false

/-- A server, with one job more. -/
def withJob (s : WsServer) (job : DispatchJob) (client : WsClient) (lanes : Assoc String Lane)
    (responses : List Response) : WsServer where
  clients := Function.update s.clients job.connectionId client
  nextConnectionId := s.nextConnectionId
  jobs := s.jobs ++ [job]
  lanes := lanes
  permits := s.permits
  responses := responses

/-- The server with the job leads to the server with the job further
on. -/
def Serves (floatText : Double → List Char) (s : WsServer) (job : DispatchJob)
    (client : WsClient) (lanes : Assoc String Lane) (job' : DispatchJob) (client' : WsClient)
    (lanes' : Assoc String Lane) : Prop :=
  ∀ responses, ∃ responses', (wsMachine floatText).Leads (s.withJob job client lanes responses)
    (s.withJob job' client' lanes' responses')

/-- Served on and on. -/
theorem Serves.trans {job₁ job₂ job₃ : DispatchJob} {client₁ client₂ client₃ : WsClient}
    {lanes₁ lanes₂ lanes₃ : Assoc String Lane}
    (h : s.Serves floatText job₁ client₁ lanes₁ job₂ client₂ lanes₂)
    (h' : s.Serves floatText job₂ client₂ lanes₂ job₃ client₃ lanes₃) :
    s.Serves floatText job₁ client₁ lanes₁ job₃ client₃ lanes₃ := by
  intro responses
  obtain ⟨responses₂, h₂⟩ := h responses
  obtain ⟨responses₃, h₃⟩ := h' responses₂
  exact ⟨responses₃, h₂.trans h₃⟩

/-- A step of the job is a step of the server with the job. -/
theorem serves_of_jobStep (turn : Turn) {job' : DispatchJob} {client client' : WsClient}
    {lanes lanes' : Assoc String Lane} {answer : Option RpcOutcome}
    (h : jobStep floatText s.jobs.length turn job client lanes s.permits =
      some ⟨job', client', lanes', s.permits, answer⟩) (hc : job'.connectionId = job.connectionId) :
    s.Serves floatText job client lanes job' client' lanes' := by
  intro responses
  have hget : (s.withJob job client lanes responses).jobs[s.jobs.length]? = some job := by
    show (s.jobs ++ [job])[s.jobs.length]? = some job
    rw [List.getElem?_append_right (Nat.le_refl _), Nat.sub_self]
    rfl
  have hcl : (s.withJob job client lanes responses).clients job.connectionId = client :=
    Function.update_self ..
  have hstep : (wsMachine floatText).step (s.withJob job client lanes responses)
      (.job s.jobs.length turn) = some ((s.withJob job client lanes responses).afterStep
        s.jobs.length job ⟨job', client', lanes', s.permits, answer⟩) :=
    stepJob_eq_some.2 ⟨job, _, hget, by rw [hcl]; exact h, rfl⟩
  refine ⟨responses ++ reply job s.jobs.length client.connected answer, ?_⟩
  have heq : (s.withJob job client lanes responses).afterStep s.jobs.length job
      ⟨job', client', lanes', s.permits, answer⟩ = s.withJob job' client' lanes'
          (responses ++ reply job s.jobs.length client.connected answer) := by
    unfold afterStep
    unfold withJob
    simp [hc]
  rw [← heq]
  exact Machine.Leads.head hstep .refl

/-- A registration of a new connection finds its way to a new lane. -/
theorem serves_queued {s : WsServer} {c : ℕ} (hnone : s.lanes.lookup (connectionLane c) = none)
    (hsize : s.lanes.size < maxRouteLanes) :
    s.Serves floatText (registration c .received false) ⟨∅, 1, 0, true, some s.jobs.length⟩ s.lanes
      (registration c .queued true)
      ⟨insert (requestKey floatText (.number (.posInt 1))) none ∅, 1, 1, true, none⟩
      (s.lanes.insert (connectionLane c) ⟨.serial, [s.jobs.length], none⟩) := by
  have hcnt : s.Serves floatText
      (registration c .received false) ⟨∅, 1, 0, true, some s.jobs.length⟩ s.lanes
      (registration c .counted false) ⟨∅, 1, 1, true, some s.jobs.length⟩ s.lanes :=
    serves_of_jobStep .advance rfl rfl
  have hreg : s.Serves floatText
      (registration c .counted false) ⟨∅, 1, 1, true, some s.jobs.length⟩ s.lanes
      (registration c .registered false)
      ⟨insert (requestKey floatText (.number (.posInt 1))) none ∅, 1, 1, true,
        some s.jobs.length⟩ s.lanes :=
    serves_of_jobStep .advance rfl rfl
  have hsender : dispatchSender s.lanes (connectionLane c) .serial =
      some (s.lanes.insert (connectionLane c) ⟨.serial, [], none⟩) := by
    unfold dispatchSender
    rw [hnone]
    exact if_neg (by omega)
  have hrouted : ∀ client, s.Serves floatText (registration c .registered false) client s.lanes
      (registration c .routed false) client
      (s.lanes.insert (connectionLane c) ⟨.serial, [], none⟩) :=
    fun _ => serves_of_jobStep .advance (jobStep_registered rfl hsender) rfl
  have hqd : ∀ active, s.Serves floatText
      (registration c .routed false) ⟨active, 1, 1, true, some s.jobs.length⟩
      (s.lanes.insert (connectionLane c) ⟨.serial, [], none⟩)
      (registration c .queued true) ⟨active, 1, 1, true, none⟩
      (s.lanes.insert (connectionLane c) ⟨.serial, [s.jobs.length], none⟩) := by
    intro active
    have hstep := @jobStep_routed floatText s.jobs.length (registration c .routed false)
      ⟨active, 1, 1, true, some s.jobs.length⟩ _ s.permits _ rfl
      (lookup_insert (a := connectionLane c) (b := ⟨.serial, [], none⟩) s.lanes) (by decide)
    rw [show (registration c .routed false).laneKey = connectionLane c from rfl,
      insert_insert] at hstep
    exact serves_of_jobStep .advance hstep rfl
  exact hcnt.trans (hreg.trans ((hrouted _).trans (hqd _)))

/-- A registration that its lane's task has taken is served. -/
theorem serves_done {s : WsServer} {c : ℕ} : ∃ client, s.Serves floatText
    (registration c .waiting true)
    ⟨insert (requestKey floatText (.number (.posInt 1))) none ∅, 1, 1, true, none⟩
    (s.lanes.insert (connectionLane c) ⟨.serial, [], some s.jobs.length⟩)
    (registration c .done true) client
    (s.lanes.insert (connectionLane c) ⟨.serial, [], none⟩) := by
  have hpassed : ∀ active lanes, s.Serves floatText
      (registration c .waiting true) ⟨active, 1, 1, true, none⟩ lanes
      (registration c .passed true) ⟨active, 1, 1, true, none⟩ lanes :=
    fun _ _ => serves_of_jobStep .advance rfl rfl
  have hent : ∀ active lanes, s.Serves floatText
      (registration c .passed true) ⟨active, 1, 1, true, none⟩ lanes
      (registration c .entered true) ⟨active, 1, 1, true, none⟩ lanes :=
    fun _ _ => serves_of_jobStep .advance rfl rfl
  have hbegun : ∀ lanes, ∃ active, s.Serves floatText
      (registration c .entered true)
      ⟨insert (requestKey floatText (.number (.posInt 1))) none ∅, 1, 1, true, none⟩ lanes
      (registration c .begun true) ⟨active, 1, 1, true, none⟩ lanes := fun _ =>
    ⟨_, serves_of_jobStep .advance
      (jobStep_entered rfl rfl (by rw [lookup_insert]; rfl)) rfl⟩
  have hclosing : ∀ active lanes, s.Serves floatText
      (registration c .begun true) ⟨active, 1, 1, true, none⟩ lanes
      (registration c .closing true) ⟨active, 1, 1, true, none⟩ lanes :=
    fun _ _ => serves_of_jobStep (.answer (.result .null)) rfl rfl
  have hexecuted : ∀ active lanes, s.Serves floatText
      (registration c .closing true) ⟨active, 1, 1, true, none⟩ lanes
      (registration c .executed true)
      ⟨active.erase (requestKey floatText (.number (.posInt 1))), 1, 1, true, none⟩ lanes :=
    fun _ _ => serves_of_jobStep .advance rfl rfl
  have hreleasing : ∀ active lanes, s.Serves floatText
      (registration c .executed true) ⟨active, 1, 1, true, none⟩ lanes
      (registration c .releasing true) ⟨active, 1, 0, true, none⟩ lanes :=
    fun _ _ => serves_of_jobStep .advance rfl rfl
  have hclearing : ∀ active lanes, s.Serves floatText
      (registration c .releasing true) ⟨active, 1, 0, true, none⟩ lanes
      (registration c .clearing true) ⟨active, 0, 0, true, none⟩ lanes :=
    fun _ _ => serves_of_jobStep .advance (jobStep_releasing rfl rfl) rfl
  have hleaving : ∀ active lanes, s.Serves floatText
      (registration c .clearing true) ⟨active, 0, 0, true, none⟩ lanes
      (registration c .leaving true) ⟨active, 0, 0, true, none⟩ lanes :=
    fun _ _ => serves_of_jobStep .advance rfl rfl
  have hdone : ∀ client, s.Serves floatText
      (registration c .leaving true) client
      (s.lanes.insert (connectionLane c) ⟨.serial, [], some s.jobs.length⟩)
      (registration c .done true) client
      (s.lanes.insert (connectionLane c) ⟨.serial, [], none⟩) := by
    intro client
    have hstep := @jobStep_leaving floatText s.jobs.length (registration c .leaving true) client
      (s.lanes.insert (connectionLane c) ⟨.serial, [], some s.jobs.length⟩) s.permits _ rfl rfl
      (lookup_insert s.lanes) rfl
    rw [show (registration c .leaving true).laneKey = connectionLane c from rfl,
      insert_insert] at hstep
    exact serves_of_jobStep .advance hstep rfl
  obtain ⟨active, hbegun⟩ := hbegun (s.lanes.insert (connectionLane c) ⟨.serial, [],
    some s.jobs.length⟩)
  exact ⟨_, (hpassed _ _).trans <| (hent _ _).trans <| hbegun.trans <|
    (hclosing _ _).trans <| (hexecuted _ _).trans <| (hreleasing _ _).trans <|
    (hclearing _ _).trans <| (hleaving _ _).trans (hdone _)⟩

/-- A server that has served its connections, and no others, and holds a
lane for each. -/
structure Served (s : WsServer) (n : ℕ) : Prop where
  connections : s.nextConnectionId = n + 1
  fresh : ∀ c, n < c → s.clients c = WsClient.new
  done : ∀ job ∈ s.jobs, job.phase = .done
  size : s.lanes.size = n
  free : ∀ c, n < c → s.lanes.lookup (connectionLane c) = none

/-- **A connection more, and a lane more.** -/
theorem Served.leads {n : ℕ} (h : s.Served n) (hlt : n < maxRouteLanes) :
    ∃ s', (wsMachine floatText).Leads s s' ∧ s'.Served (n + 1) := by
  -- the connection, its frame, and the way of its job
  let opened : WsServer := { s with nextConnectionId := n + 2 }
  have hconnect : (wsMachine floatText).step s .connect = some opened := by
    show some { s with nextConnectionId := s.nextConnectionId + 1 } = _
    rw [h.connections]
  have hnone : opened.lanes.lookup (connectionLane (n + 1)) = none := h.free _ (by omega)
  have hfr : (wsMachine floatText).step opened
      (.frame (n + 1) "remux/clients/register" (.request (.number (.posInt 1)) (.object []))) =
      some (opened.withJob (registration (n + 1) .received false)
        ⟨∅, 1, 0, true, some s.jobs.length⟩ s.lanes s.responses) := by
    have hnew : opened.clients (n + 1) = WsClient.new := h.fresh _ (by omega)
    have hguard : (0 < n + 1 ∧ n + 1 < opened.nextConnectionId) ∧
        (opened.clients (n + 1)).reading = none :=
      ⟨⟨by omega, Nat.lt_succ_self _⟩, by rw [hnew]; rfl⟩
    simp only [wsMachine]
    rw [if_pos hguard, frame, hnew]
    rfl
  have hrecv : ∀ client responses,
      (wsMachine floatText).step (opened.withJob (registration (n + 1) .queued true) client
        (s.lanes.insert (connectionLane (n + 1)) ⟨.serial, [s.jobs.length], none⟩) responses)
        (.receive (connectionLane (n + 1))) =
      some (opened.withJob (registration (n + 1) .waiting true) client
        (s.lanes.insert (connectionLane (n + 1)) ⟨.serial, [], some s.jobs.length⟩) responses) := by
    intro client responses
    refine receive_eq_some.2 ⟨.serial, s.jobs.length, [], registration (n + 1) .queued true,
      lookup_insert _, ?_, ?_⟩
    · show (s.jobs ++ [_])[s.jobs.length]? = _
      rw [List.getElem?_append_right (Nat.le_refl _), Nat.sub_self]
      rfl
    · unfold withJob
      simp [insert_insert, opened, registration]
  obtain ⟨responses, hqd⟩ :=
    @serves_queued floatText opened (n + 1) hnone (h.size ▸ hlt) s.responses
  obtain ⟨client, hsrv⟩ := @serves_done floatText opened (n + 1)
  obtain ⟨responses', hdone⟩ := hsrv responses
  refine ⟨_, (Machine.Leads.head hconnect (.head hfr hqd)).trans
    (.head (hrecv _ _) hdone), ⟨rfl, ?_, ?_, ?_, ?_⟩⟩
  · intro c hc
    show Function.update s.clients (n + 1) client c = _
    rw [Function.update_of_ne (by omega), h.fresh c (by omega)]
  · intro job hjob
    obtain hjob | rfl := mem_concat.1 hjob
    · exact h.done job hjob
    · rfl
  · show Assoc.size (s.lanes.insert (connectionLane (n + 1)) _) = n + 1
    rw [Assoc.size_insert_of_lookup_eq_none hnone, h.size]
  · intro c hc
    show (s.lanes.insert (connectionLane (n + 1)) _).lookup _ = none
    rw [Assoc.lookup_insert_eq, if_neg fun heq => by have := connectionLane_inj heq; omega]
    exact h.free c (by omega)

/-- **A server that idles and refuses.** Once as many connections as
there may be lanes have registered, every job is done and the next
connection cannot register. -/
theorem lanes_refuse_idle : ∃ s, (wsMachine fun _ => []).Reachable s ∧
    (∀ job ∈ s.jobs, job.phase = .done) ∧
    dispatchSender s.lanes (connectionLane 513) .serial = none := by
  have hserved : ∀ n ≤ maxRouteLanes, ∃ s, (wsMachine fun _ => []).Reachable s ∧ s.Served n := by
    intro n
    induction n with
    | zero =>
      exact fun _ => ⟨_, .init, rfl, fun _ _ => rfl, by simp [wsMachine], rfl, fun _ _ => rfl⟩
    | succ n ih =>
      intro hle
      obtain ⟨s, hreach, hs⟩ := ih (by omega)
      obtain ⟨s', hleads, hs'⟩ := hs.leads (by omega)
      exact ⟨s', hreach.leads hleads, hs'⟩
  obtain ⟨s, hreach, hs⟩ := hserved maxRouteLanes (Nat.le_refl _)
  refine ⟨s, hreach, hs.done, ?_⟩
  unfold dispatchSender
  rw [hs.free 513 (by decide)]
  exact if_pos (by rw [hs.size])

end WsServer

end

end Remux
