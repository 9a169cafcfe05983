import Remux.Common.Lists
import Remux.Rpc.Model.Requests

/-!
# The state after a step

For each step of the server, what its jobs and its clients are
afterwards.
-/

namespace Remux

open Option List

variable {floatText : Double → List Char}

/-- The phases in which a job is still with the reader of its frame. -/
def Phase.inReader : Phase → Bool
  | .received | .counted | .registered | .routed | .refused => true
  | _ => false

/-- The phases from the registration barrier on. -/
def Phase.late : Phase → Bool
  | .waiting | .passed | .entered | .begun | .closing | .executed | .releasing | .clearing
  | .leaving => true
  | _ => false

theorem Phase.late_eq_false {phase : Phase} (h : phase.inReader) : phase.late = false := by
  cases phase <;> first | rfl | cases h

namespace WsServer

variable {s s' : WsServer} {j c i : ℕ} {job job' : DispatchJob} {jobs' : List DispatchJob}

/-- A step of the server by a job is a step of the job. -/
theorem stepJob_eq_some {turn : Turn} :
    s.stepJob floatText j turn = some s' ↔ ∃ job moved, s.jobs[j]? = some job ∧
      jobStep floatText j turn job (s.clients job.connectionId) s.lanes s.permits = some moved ∧
      s' = s.afterStep j job moved := by
  rw [stepJob, bind_eq_some_iff]
  constructor
  · rintro ⟨job, hjob, hmap⟩
    obtain ⟨moved, hmov, rfl⟩ := map_eq_some_iff.1 hmap
    exact ⟨job, moved, hjob, hmov, rfl⟩
  · rintro ⟨job, moved, hjob, hmov, rfl⟩
    exact ⟨job, hjob, map_eq_some_iff.2 ⟨moved, hmov, rfl⟩⟩

theorem jobs_afterStep {s : WsServer} {j : ℕ} {job : DispatchJob} {moved : Moved}
    (hjob : s.jobs[j]? = some job) (i : ℕ) :
    (s.afterStep j job moved).jobs[i]? = if i = j then some moved.job else s.jobs[i]? :=
  getElem?_set_of_eq_some hjob i

theorem clients_afterStep {moved : Moved} (c : ℕ) : (s.afterStep j job moved).clients c =
      if c = job.connectionId then moved.client else s.clients c :=
  Function.update_apply ..

/-- A frame adds one job. -/
theorem jobs_frame {method : String} {work : DispatchWork}
    (h : (s.frame c method work).jobs[i]? = some job) :
    s.jobs[i]? = some job ∨
      i = s.jobs.length ∧ job.connectionId = c ∧ job.method = method ∧ job.work = work ∧
        job.phase = (if job.isRequest then .received else .registered) ∧
        job.dispatched = false ∧ job.notified = false ∧ job.cancelled = false := by
  rw [frame, getElem?_append] at h
  split at h
  · exact .inl h
  · next hge =>
    right
    rw [getElem?_singleton] at h
    obtain ⟨heq, h⟩ := ite_none_right_eq_some.1 h
    rw [some.injEq] at h
    refine ⟨by omega, ?_⟩
    split at h <;> subst h
    · next hreq => exact ⟨rfl, rfl, rfl, (if_pos hreq).symm, rfl, rfl, rfl⟩
    · next hreq => exact ⟨rfl, rfl, rfl, (if_neg hreq).symm, rfl, rfl, rfl⟩

theorem clients_frame {s : WsServer} {c : ℕ} {method : String} {work : DispatchWork} (c' : ℕ) :
    ((s.frame c method work).clients c').activeRequests = (s.clients c').activeRequests ∧
      ((s.frame c method work).clients c').connected = (s.clients c').connected ∧
      ((s.frame c method work).clients c').reading =
        if c' = c then some s.jobs.length else (s.clients c').reading := by
  by_cases h : c' = c
  · subst h
    simp [frame]
  · simp [frame, h]

/-- The jobs are notified or cancelled, and otherwise left alone. -/
def Marks (jobs jobs' : List DispatchJob) : Prop :=
  ∃ notified cancelled : ℕ → DispatchJob → Bool, jobs' = jobs.mapIdx fun i job =>
    { job with notified := notified i job, cancelled := cancelled i job }

/-- A job and its mark differ in their flags only. -/
structure SameJob (job job' : DispatchJob) : Prop where
  connectionId : job'.connectionId = job.connectionId
  method : job'.method = job.method
  work : job'.work = job.work
  phase : job'.phase = job.phase
  dispatched : job'.dispatched = job.dispatched

theorem SameJob.laneKey (h : SameJob job job') : job'.laneKey = job.laneKey := by
  rw [DispatchJob.laneKey, DispatchJob.laneKey, DispatchJob.lane, DispatchJob.lane,
    h.connectionId, h.method, h.work]

theorem SameJob.isRequest (h : SameJob job job') : job'.isRequest = job.isRequest := by
  rw [DispatchJob.isRequest, DispatchJob.isRequest, h.work]

theorem SameJob.requestKey (h : SameJob job job') :
    job'.requestKey floatText = job.requestKey floatText := by
  rw [DispatchJob.requestKey, DispatchJob.requestKey, h.work]

variable {jobs : List DispatchJob}

theorem Marks.back (h : Marks jobs jobs') (hi : jobs'[i]? = some job') :
    ∃ job, jobs[i]? = some job ∧ SameJob job job' := by
  obtain ⟨notified, cancelled, rfl⟩ := h
  rw [getElem?_mapIdx, map_eq_some_iff] at hi
  obtain ⟨job, hi, rfl⟩ := hi
  exact ⟨job, hi, rfl, rfl, rfl, rfl, rfl⟩

theorem Marks.forth (h : Marks jobs jobs') (hi : jobs[i]? = some job) :
    ∃ job', jobs'[i]? = some job' ∧ SameJob job job' := by
  obtain ⟨notified, cancelled, rfl⟩ := h
  rw [getElem?_mapIdx, hi]
  exact ⟨_, rfl, rfl, rfl, rfl, rfl, rfl⟩

/-- What the flags do not decide is counted the same. -/
theorem Marks.countP_eq (h : Marks jobs jobs') {p : DispatchJob → Bool}
    (hp : ∀ job job', SameJob job job' → p job' = p job) :
    jobs'.countP p = jobs.countP p := by
  obtain ⟨notified, cancelled, rfl⟩ := h
  induction jobs generalizing notified cancelled with
  | nil => rfl
  | cons job jobs ih =>
    have hhead : p { job with notified := notified 0 job, cancelled := cancelled 0 job } = p job :=
      hp job _ ⟨rfl, rfl, rfl, rfl, rfl⟩
    rw [mapIdx_cons, countP_cons, countP_cons, hhead,
      ih (fun i => notified (i + 1)) (fun i => cancelled (i + 1))]

theorem marks_cancelFrame {id : Value} : Marks s.jobs (s.cancelFrame floatText c id).jobs :=
  ⟨_, _, rfl⟩

theorem marks_markDisconnected : Marks s.jobs (s.markDisconnected c).jobs :=
  ⟨_, fun _ job => job.cancelled, rfl⟩

/-- The flags after a cancel frame. -/
theorem jobs_cancelFrame {id : Value} (h : (s.cancelFrame floatText c id).jobs[i]? = some job') :
    ∃ job, s.jobs[i]? = some job ∧ SameJob job job' ∧
      job'.notified = (job.notified || decide ((s.clients c).activeRequests.lookup
        (requestKey floatText id) = some (some i))) ∧
      job'.cancelled = (job.cancelled || (decide (job.connectionId = c) &&
        decide (job.requestKey floatText = some (requestKey floatText id)) &&
        job.phase.unanswered)) := by
  rw [cancelFrame, getElem?_mapIdx, map_eq_some_iff] at h
  obtain ⟨job, hi, rfl⟩ := h
  exact ⟨job, hi, ⟨rfl, rfl, rfl, rfl, rfl⟩, rfl, rfl⟩

/-- The flags after a disconnection. -/
theorem jobs_markDisconnected (h : (s.markDisconnected c).jobs[i]? = some job') :
    ∃ job, s.jobs[i]? = some job ∧ SameJob job job' ∧ job'.cancelled = job.cancelled ∧
      job'.notified = (job.notified ||
        decide (some i ∈ (s.clients c).activeRequests.entries.map Sigma.snd)) := by
  rw [markDisconnected, getElem?_mapIdx, map_eq_some_iff] at h
  obtain ⟨job, hi, rfl⟩ := h
  exact ⟨job, hi, ⟨rfl, rfl, rfl, rfl, rfl⟩, rfl, by rw [← contains_eq_mem]⟩

/-- What a lane's task does when it takes a job. -/
theorem receive_eq_some {key : String} : s.receive key = some s' ↔ ∃ mode j queue job,
      s.lanes.lookup key = some ⟨mode, j :: queue, none⟩ ∧ s.jobs[j]? = some job ∧
      s' = { s with
        lanes := s.lanes.insert key ⟨mode, queue, some j⟩
        jobs := s.jobs.set j
          { job with phase := if mode = .serial then .waiting else .held } } := by
  unfold receive
  constructor
  · intro h
    split at h
    · next mode j queue hlane =>
      obtain ⟨job, hjob, rfl⟩ := map_eq_some_iff.1 h
      exact ⟨mode, j, queue, job, hlane, hjob, rfl⟩
    · cases h
  · rintro ⟨mode, j, queue, job, hlane, hjob, rfl⟩
    simp only [hlane, hjob, map_some]

end WsServer

/-! ## A ping, for the examples -/

/-- A frame of a `remux/system/ping` request with the id 7. -/
def pingFrame : WsAction :=
  .frame 1 "remux/system/ping" (.request (.number (.posInt 7)) (.object []))

/-- A job's steps from its frame to the channel of the pings' lane. -/
def pingQueued (j : ℕ) : List WsAction := List.replicate 4 (.job j .advance)

/-- A job's steps from there to its `begin_request`. -/
def pingBegins (j : ℕ) : List WsAction :=
  .receive "control:liveness" :: List.replicate 4 (.job j .advance)

end Remux
