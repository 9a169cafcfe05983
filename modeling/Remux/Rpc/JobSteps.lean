import Remux.Common.Lists
import Remux.Rpc.Model.Jobs

/-!
# What a step does to the jobs

For a task, a start and a cancel, what one step of it does: which phase
it enters, and what it writes into the records (`TaskMove`, `StartMove`,
`CancelMove`). Everything about the jobs is read off these.
-/

namespace Remux

open Option

/-! ## What a task's record says -/

/-- The state of the record of a task that stands here, until the task
has written its outcome. -/
def TaskPhase.expects : TaskPhase → Option JobStatus
  | .spawned | .starting => some .accepted
  | .started | .calling | .awaiting | .finishing _ => some .running
  | .finished | .over => none

variable {state state' : JobStatus}

theorem TaskPhase.of_expects {phase : TaskPhase} (h : phase.expects = some state) :
    state = .accepted ∨ state = .running := by
  unfold TaskPhase.expects at h
  split at h
  · exact .inl (some.inj h).symm
  · exact .inl (some.inj h).symm
  · exact .inr (some.inj h).symm
  · exact .inr (some.inj h).symm
  · exact .inr (some.inj h).symm
  · exact .inr (some.inj h).symm
  all_goals cases h

/-- The task writes its outcome next. -/
def TaskPhase.settles : TaskPhase → Bool
  | .finishing _ => true
  | _ => false

/-- The cancel has taken a handle and will write `canceled`. -/
def CancelPhase.pending : CancelPhase → Bool
  | .aborting _ | .updating => true
  | _ => false

/-- The revision of a record in this state. -/
def JobStatus.revision : JobStatus → UInt64
  | .accepted => 1
  | .running => 2
  | .completed | .failed | .canceled => 3

/-- From accepted to running, and from there to a terminal state. -/
inductive JobStatus.Next : JobStatus → JobStatus → Prop where
  | run : Next .accepted .running
  | settle {state : JobStatus} (h : state.terminal) : Next .running state

theorem JobStatus.Next.not_terminal (h : Next state state') : state.terminal = false := by
  cases h <;> rfl

theorem JobStatus.Next.nextRevision_eq (h : Next state state') :
    nextRevision state.revision = state'.revision := by
  cases h with
  | run => rfl
  | settle hterm =>
    cases state' with
    | accepted | running => cases hterm
    | completed | failed | canceled => rfl

theorem JobStatus.Next.revision_lt (h : Next state state') : state.revision < state'.revision := by
  rw [← h.nextRevision_eq]
  cases h <;> decide

/-- The records differ in the abort handle at most. -/
structure JobState.Same (job job' : JobState) : Prop where
  start : job'.start = job.start
  revision : job'.revision = job.revision
  state : job'.state = job.state
  error : job'.error = job.error
  result : job'.result = job.result

/-- **What a task does in a step**: the phase it enters and what it
writes into its record. -/
inductive TaskMove (task : JobTask) :
    TaskPhase → Option (JobStatus × Option String × Option Value) → Prop where
  | goOn {phase : TaskPhase} (h : phase.expects = task.phase.expects) : TaskMove task phase none
  | drop (h : task.aborted) : TaskMove task .over none
  | run (h : task.phase.expects = some .accepted) :
    TaskMove task .started (some (.running, none, none))
  | settle {outcome : RpcOutcome} {state : JobStatus} {error : Option String}
    {result : Option Value} (h : task.phase = .finishing outcome) (hstate : state.terminal) :
    TaskMove task .finished (some (state, error, result))

/-- The jobs after something is written into a record. -/
def writeJob (jobs : Assoc String JobState) (operationId : String) :
    Option (JobStatus × Option String × Option Value) → Assoc String JobState
  | some (state, error, result) => jobs.modify operationId (JobState.update state error result)
  | none => jobs

namespace JobServer

variable (s : JobServer) (opId : String)

@[simp] theorem jobs_broadcastJob : (s.broadcastJob opId).jobs = s.jobs := by
  unfold broadcastJob
  split <;> rfl

@[simp] theorem starts_broadcastJob : (s.broadcastJob opId).starts = s.starts := by
  unfold broadcastJob
  split <;> rfl

@[simp] theorem tasks_broadcastJob : (s.broadcastJob opId).tasks = s.tasks := by
  unfold broadcastJob
  split <;> rfl

@[simp] theorem cancels_broadcastJob : (s.broadcastJob opId).cancels = s.cancels := by
  unfold broadcastJob
  split <;> rfl

variable {s s' : JobServer}

/-- The step of a task. -/
theorem stepTask_cases {t : ℕ} {turn : TaskTurn} (h : s.stepTask t turn = some s') :
    ∃ task phase write, s.tasks[t]? = some task ∧ TaskMove task phase write ∧
      s'.jobs = writeJob s.jobs task.operationId write ∧ s'.starts = s.starts ∧
      s'.tasks = s.tasks.set t { task with phase } ∧ s'.cancels = s.cancels := by
  rw [stepTask, bind_eq_some_iff] at h
  obtain ⟨task, htask, h⟩ := h
  refine ⟨task, ?_⟩
  split at h
  · next hph =>
    cases h
    cases haborted : task.aborted with
    | true => exact ⟨.over, none, htask, .drop haborted, rfl, rfl, rfl, rfl⟩
    | false => exact ⟨.starting, none, htask, .goOn (by rw [hph]; rfl), rfl, rfl, rfl, rfl⟩
  · next hph =>
    cases h
    exact ⟨.started, some (.running, none, none), htask, .run (by rw [hph]; rfl),
      rfl, rfl, rfl, rfl⟩
  · next hph =>
    cases h
    exact ⟨.calling, none, htask, .goOn (by rw [hph]; rfl), by simp [writeJob]⟩
  · next hph =>
    cases h
    exact ⟨.awaiting, none, htask, .goOn (by rw [hph]; rfl), rfl, rfl, rfl, rfl⟩
  · next outcome hph =>
    cases h
    exact ⟨.finishing outcome, none, htask, .goOn (by rw [hph]; rfl), rfl, rfl, rfl, rfl⟩
  · next hph =>
    cases h
    cases haborted : task.aborted with
    | true => exact ⟨.over, none, htask, .drop haborted, rfl, rfl, rfl, rfl⟩
    | false => exact ⟨.calling, none, htask, .goOn (by rw [hph]; rfl), rfl, rfl, rfl, rfl⟩
  · next result hph =>
    cases h
    exact ⟨.finished, some (.completed, none, some result), htask, .settle hph rfl,
      rfl, rfl, rfl, rfl⟩
  · next error hph =>
    cases h
    exact ⟨.finished, some (.failed, some error.message, none), htask, .settle hph rfl,
      rfl, rfl, rfl, rfl⟩
  · next hph =>
    cases h
    exact ⟨.over, none, htask, .goOn (by rw [hph]; rfl), by simp [writeJob]⟩
  · cases h

/-! ## The other steps -/

/-- **What a call of `start_job` does in a step.** -/
inductive StartMove (s : JobServer) (i : ℕ) (start : JobStart) :
    Assoc String JobState → StartPhase → List JobTask → Prop where
  | known {existing : JobState} (hphase : start.phase = .locking)
    (hjob : s.jobs.lookup start.operationId = some existing) :
    StartMove s i start s.jobs .over s.tasks
  | refuse (hphase : start.phase = .locking) :
    StartMove s i start (evictTerminal s.jobs) .over s.tasks
  | accept {job : JobState} (hphase : start.phase = .locking)
    (hnone : s.jobs.lookup start.operationId = none) (hjob : job.revision = 1 ∧
      job.state = .accepted ∧ job.abort = none ∧ job.start = i) :
    StartMove s i start ((evictTerminal s.jobs).insert start.operationId job) .announcing s.tasks
  | announce (hphase : start.phase = .announcing) : StartMove s i start s.jobs .spawning s.tasks
  | spawn (hphase : start.phase = .spawning) :
    StartMove s i start s.jobs (.storing s.tasks.length)
      (s.tasks ++ [⟨i, start.operationId, .spawned, false⟩])
  | store {t : ℕ} (hphase : start.phase = .storing t) :
    StartMove s i start (s.jobs.modify start.operationId fun job =>
      if job.state.terminal then job else { job with abort := some t }) .over s.tasks

/-- What a step of a start does. -/
theorem stepStart_cases {i : ℕ} (h : s.stepStart i = some s') :
    ∃ start jobs phase tasks reply, s.starts[i]? = some start ∧
      StartMove s i start jobs phase tasks ∧ s'.jobs = jobs ∧ s'.tasks = tasks ∧
      s'.starts = s.starts.set i { start with phase, reply } ∧ s'.cancels = s.cancels := by
  rw [stepStart, bind_eq_some_iff] at h
  obtain ⟨start, hbeg, h⟩ := h
  refine ⟨start, ?_⟩
  split at h
  · next hph =>
    split at h
    · next existing hjob =>
      cases h
      exact ⟨_, _, _, _, hbeg, .known hph hjob, rfl, rfl, rfl, rfl⟩
    · next hnone =>
      dsimp only at h
      split at h
      · cases h
        exact ⟨_, _, _, _, hbeg, .refuse hph, rfl, rfl, rfl, rfl⟩
      · cases h
        exact ⟨_, _, _, _, hbeg, .accept hph hnone ⟨rfl, rfl, rfl, rfl⟩, rfl, rfl, rfl, rfl⟩
  · next hph =>
    cases h
    exact ⟨s.jobs, .spawning, s.tasks, start.reply, hbeg, .announce hph,
      by simp, by simp, rfl, by simp⟩
  · next hph =>
    cases h
    exact ⟨_, _, _, _, hbeg, .spawn hph, rfl, rfl, rfl, rfl⟩
  · next t hph =>
    cases h
    exact ⟨_, _, _, _, hbeg, .store hph, rfl, rfl, rfl, rfl⟩
  · cases h

/-- **What a cancel does in a step.** -/
inductive CancelMove (s : JobServer) (cancel : JobCancel) :
    Assoc String JobState → List JobTask → CancelPhase → Option ℕ → Prop where
  | take {operationId : String} {job : JobState} {t : ℕ} (hphase : cancel.phase = .locking)
    (hid : cancel.operationId = some operationId) (hjob : s.jobs.lookup operationId = some job)
    (habort : job.abort = some t) :
    CancelMove s cancel (s.jobs.modify operationId fun job => { job with abort := none }) s.tasks
      (.aborting t) (some t)
  | abort {t : ℕ} {task : JobTask} (hphase : cancel.phase = .aborting t)
    (htask : s.tasks[t]? = some task) :
    CancelMove s cancel s.jobs (s.tasks.set t { task with aborted := true }) .updating
      cancel.handle
  | update {operationId : String} (hphase : cancel.phase = .updating)
    (hid : cancel.operationId = some operationId) :
    CancelMove s cancel (s.jobs.modify operationId (JobState.update .canceled none none)) s.tasks
      .announcing cancel.handle
  | finish (hphase : cancel.phase = .locking ∨ cancel.phase = .announcing) :
    CancelMove s cancel s.jobs s.tasks .over cancel.handle

/-- What a step of a cancellation does. -/
theorem stepCancel_cases {c : ℕ} (h : s.stepCancel c = some s') :
    ∃ cancel jobs tasks phase handle reply, s.cancels[c]? = some cancel ∧
      CancelMove s cancel jobs tasks phase handle ∧ s'.jobs = jobs ∧ s'.tasks = tasks ∧
      s'.cancels = s.cancels.set c { cancel with phase, handle, reply } ∧
      s'.starts = s.starts := by
  rw [stepCancel, bind_eq_some_iff] at h
  obtain ⟨cancel, hcan, h⟩ := h
  refine ⟨cancel, ?_⟩
  split at h
  · next hph =>
    split at h
    · next t ht =>
      cases h
      obtain ⟨opId, hid, ht⟩ := bind_eq_some_iff.1 ht
      obtain ⟨job, hjob, habort⟩ := bind_eq_some_iff.1 ht
      exact ⟨_, _, .aborting t, some t, cancel.reply, hcan, .take hph hid hjob habort,
        by rw [hid]; rfl, rfl, rfl, rfl⟩
    · cases h
      exact ⟨_, _, .over, cancel.handle, _, hcan, .finish (.inl hph), rfl, rfl, rfl, rfl⟩
  · next t _ hph =>
    obtain ⟨task, htask, h⟩ := bind_eq_some_iff.1 h
    cases h
    exact ⟨_, _, .updating, cancel.handle, cancel.reply, hcan, .abort hph htask, rfl, rfl, rfl, rfl⟩
  · next opId hph hid =>
    cases h
    exact ⟨_, _, .announcing, cancel.handle, cancel.reply, hcan, .update hph hid,
      rfl, rfl, rfl, rfl⟩
  · next opId hph hid =>
    cases h
    exact ⟨s.jobs, s.tasks, .over, cancel.handle, some (cancelReply true (some opId)),
      hcan, .finish (.inr hph), by simp, by simp, by simp, by simp⟩
  · cases h

end JobServer

end Remux
