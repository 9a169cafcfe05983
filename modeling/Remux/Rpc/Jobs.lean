import Remux.Rpc.Handles

/-!
# Jobs settle once

`update_job` writes whatever it is given, and a cancel takes the abort
handle, aborts and writes in three steps, so that a record's states are
in order only if its writers are. Where a cancel takes the handle of the
record's own task, and that only once the task has written `running`,
and no task writes its outcome after its handle was taken (`Orderly`),
every record goes from accepted to running to one terminal state
(`job_settles_once`); `canceled_over_completed` is a run that breaks the
last condition.
-/

namespace Remux

namespace JobServer

open Assoc Option

/-! ## The runs in which records settle -/

/-- **The condition on a step**: a task whose handle was taken writes no
outcome, and a cancel takes the handle of the record's own task only, and
that once the task has written `running`. -/
def Orderly (s : JobServer) : JobAction → Prop
  | .task t _ => ∀ task ∈ s.tasks[t]?, task.phase.settles → ¬s.Taken t
  | .cancel c => ∀ cancel ∈ s.cancels[c]?, cancel.phase = .locking →
      ∀ op ∈ cancel.operationId, ∀ job ∈ s.jobs.lookup op, ∀ t ∈ job.abort,
        ∀ task ∈ s.tasks[t]?, task.start = job.start ∧ task.phase.expects ≠ some .accepted
  | _ => True

instance (s : JobServer) : (action : JobAction) → Decidable (s.Orderly action)
  | .task t _ =>
    inferInstanceAs (Decidable (∀ task ∈ s.tasks[t]?, task.phase.settles → ¬s.Taken t))
  | .cancel c =>
    inferInstanceAs (Decidable (∀ cancel ∈ s.cancels[c]?, cancel.phase = .locking →
      ∀ op ∈ cancel.operationId, ∀ job ∈ s.jobs.lookup op, ∀ t ∈ job.abort,
        ∀ task ∈ s.tasks[t]?, task.start = job.start ∧ task.phase.expects ≠ some .accepted))
  | .startJob .. | .cancelJob _ | .start _ | .rehash _ => .isTrue trivial

/-- The machine of the orderly runs. -/
abbrev orderlyJobs : Machine JobServer JobAction :=
  jobMachine.restrict fun s action => s.Orderly action

/-- The start has made its record and not yet spawned its task. -/
def Waits (s : JobServer) (i : ℕ) : Prop :=
  ∃ start, s.starts[i]? = some start ∧ (start.phase = .announcing ∨ start.phase = .spawning)

/-- **Who will go on with a record that is not terminal**: the start that
made it, the task it spawned, or the cancel that took the task's
handle. -/
inductive Owned (s : JobServer) (job : JobState) : Prop where
  | start (h : s.Waits job.start)
  | task {t : ℕ} {task : JobTask} (htask : s.tasks[t]? = some task)
    (hstart : task.start = job.start) (hfree : ¬s.Taken t) (hlive : task.phase.expects.isSome)
  | cancel {c t : ℕ} {cancel : JobCancel} {task : JobTask} (hcancel : s.cancels[c]? = some cancel)
    (hpending : cancel.phase.pending) (hhandle : cancel.handle = some t)
    (htask : s.tasks[t]? = some task) (hstart : task.start = job.start)

/-- **The invariant of the orderly runs.** -/
structure Settles (s : JobServer) : Prop where
  record : ∀ {op : String} {job : JobState}, s.jobs.lookup op = some job →
    job.revision = job.state.revision ∧ (job.state.terminal → job.abort = none)
  waiting : ∀ {i : ℕ} {start : JobStart}, s.starts[i]? = some start →
    start.phase = .announcing ∨ start.phase = .spawning →
    ∃ job, s.jobs.lookup start.operationId = some job ∧ job.start = i ∧ job.state = .accepted
  live : ∀ {t : ℕ} {task : JobTask} {state : JobStatus}, s.tasks[t]? = some task →
    ¬s.Taken t → task.phase.expects = some state →
    ∃ job, s.jobs.lookup task.operationId = some job ∧ job.start = task.start ∧ job.state = state
  fresh : ∀ {t : ℕ} {task : JobTask}, s.tasks[t]? = some task →
    task.phase.expects = some .accepted → ¬s.Taken t
  pending : ∀ {c t : ℕ} {cancel : JobCancel} {task : JobTask}, s.cancels[c]? = some cancel →
    cancel.phase.pending → cancel.handle = some t → s.tasks[t]? = some task →
    ∃ job, s.jobs.lookup task.operationId = some job ∧ job.start = task.start ∧
      job.state = .running
  owned : ∀ {op : String} {job : JobState}, s.jobs.lookup op = some job →
    job.state.terminal = false → s.Owned job

/-- **What may become of a record in a step.** -/
inductive JobLaw : Option JobState → Option JobState → Prop where
  | absent : JobLaw none none
  | accept {job : JobState} (hstate : job.state = .accepted) (hrevision : job.revision = 1) :
    JobLaw none (some job)
  | evict {job : JobState} (h : job.state.terminal) : JobLaw (some job) none
  | keep {job job' : JobState} (h : job.Same job') : JobLaw (some job) (some job')
  | advance {job job' : JobState} (hstart : job'.start = job.start)
    (hstate : job.state.Next job'.state) (hrevision : job.revision < job'.revision) :
    JobLaw (some job) (some job')

theorem jobLaw_refl : (job : Option JobState) → JobLaw job job
  | none => .absent
  | some _ => .keep ⟨rfl, rfl, rfl, rfl, rfl⟩

variable {s s' : JobServer} {op : String} {job job' : JobState} {state : JobStatus}
variable {error : Option String} {result : Option Value} {t i c : ℕ} {task : JobTask}
variable {turn : TaskTurn} {start : JobStart} {phase : StartPhase} {cancel cancel' : JobCancel}
variable {action : JobAction}

/-- A record belongs to the operation of its start. -/
theorem Wired.operation_eq (h : s.Wired) {op' : String} (hjob : s.jobs.lookup op = some job)
    (hjob' : s.jobs.lookup op' = some job') (heq : job.start = job'.start) : op = op' := by
  obtain ⟨start, hbeg, hop, -⟩ := h.made hjob
  obtain ⟨start', hbeg', hop', -⟩ := h.made hjob'
  rw [← heq, hbeg, some.injEq] at hbeg'
  rw [← hop, hbeg', hop']

/-- A record that was advanced from `job`, and no other. -/
theorem jobLaw_of_update {jobs : Assoc String JobState} (hjob : jobs.lookup op = some job)
    (hrev : job.revision = job.state.revision) (hnext : job.state.Next state) (op' : String) :
    JobLaw (jobs.lookup op')
      ((jobs.modify op (JobState.update state error result)).lookup op') := by
  rw [lookup_modify_eq]
  split
  · next heq =>
    rw [heq, hjob]
    refine .advance rfl hnext ?_
    show job.revision < nextRevision job.revision
    rw [hrev, hnext.nextRevision_eq]
    exact hnext.revision_lt
  · exact jobLaw_refl _

/-- **What a task writes is the next state of its own record.** -/
theorem Settles.writes (h : s.Settles) {phase : TaskPhase} (htask : s.tasks[t]? = some task)
    (hmove : TaskMove task phase (some (state, error, result)))
    (hordl : task.phase.settles → ¬s.Taken t) :
    ¬s.Taken t ∧ ∃ job, s.jobs.lookup task.operationId = some job ∧ job.start = task.start ∧
      job.state.Next state := by
  cases hmove with
  | run hexpects =>
    have hfree := h.fresh htask hexpects
    obtain ⟨job, hjob, hbeg, hst⟩ := h.live htask hfree hexpects
    exact ⟨hfree, job, hjob, hbeg, hst ▸ .run⟩
  | settle hph hterm =>
    have hfree := hordl (by rw [hph]; rfl)
    obtain ⟨job, hjob, hbeg, hst⟩ := h.live htask hfree (by rw [hph]; rfl)
    exact ⟨hfree, job, hjob, hbeg, hst ▸ .settle hterm⟩

/-- A step of a task advances a record as the law says. -/
theorem jobLaw_of_task (h : s.Settles) (hordl : s.Orderly (.task t turn))
    (hstep : s.stepTask t turn = some s') (op : String) :
    JobLaw (s.jobs.lookup op) (s'.jobs.lookup op) := by
  obtain ⟨task, phase, write, htask, hmove, hjobs, -⟩ := stepTask_cases hstep
  rw [hjobs]
  cases write with
  | none => exact jobLaw_refl _
  | some write =>
    obtain ⟨state, error, result⟩ := write
    obtain ⟨-, job, hjob, -, hnext⟩ := h.writes htask hmove (hordl task htask)
    exact jobLaw_of_update hjob (h.record hjob).1 hnext op

/-- The tasks after one of them entered another phase. -/
structure Entered (s s' : JobServer) (t : ℕ) (task : JobTask) (phase : TaskPhase) : Prop where
  before : s.tasks[t]? = some task
  after : s'.tasks[t]? = some { task with phase }
  other : ∀ {k : ℕ}, k ≠ t → s'.tasks[k]? = s.tasks[k]?
  starts : s'.starts = s.starts
  cancels : s'.cancels = s.cancels

namespace Entered

variable {s s' : JobServer} {t : ℕ} {task : JobTask} {phase : TaskPhase}

variable {k : ℕ}

variable (h : Entered s s' t task phase)
include h

theorem taken_iff : s'.Taken k ↔ s.Taken k := by
  unfold Taken
  rw [h.cancels]

theorem waits_iff {i : ℕ} : s'.Waits i ↔ s.Waits i := by
  unfold Waits
  rw [h.starts]

/-- A task is where it was, or it is the one that entered the phase. -/
theorem back {new : JobTask} (hk : s'.tasks[k]? = some new) :
    k = t ∧ new = { task with phase } ∨ k ≠ t ∧ s.tasks[k]? = some new := by
  by_cases heq : k = t
  · rw [heq, h.after] at hk
    exact .inl ⟨heq, (some.inj hk).symm⟩
  · exact .inr ⟨heq, h.other heq ▸ hk⟩

/-- A record keeps who goes on with it, if the task that moved does. -/
theorem owned {job job' : JobState} (hold : s.Owned job) (hsame : job'.start = job.start)
    (hkeep : task.start = job.start → ¬s.Taken t → task.phase.expects.isSome →
      phase.expects.isSome) : s'.Owned job' := by
  cases hold with
  | start hwaits => exact .start (by rw [hsame]; exact h.waits_iff.2 hwaits)
  | @task k own hk hbeg hfree hlive =>
    have hfree' : ¬s'.Taken k := fun hk' => hfree (h.taken_iff.1 hk')
    by_cases heq : k = t
    · subst heq
      cases h.before.symm.trans hk
      exact .task h.after (hbeg.trans hsame.symm) hfree' (hkeep hbeg hfree hlive)
    · exact .task (by rw [h.other heq, hk]) (hbeg.trans hsame.symm) hfree' hlive
  | @cancel c k cancel own hc hpend hhan hk hbeg =>
    have hc' : s'.cancels[c]? = some cancel := by rw [h.cancels, hc]
    by_cases heq : k = t
    · subst heq
      cases h.before.symm.trans hk
      exact .cancel hc' hpend hhan h.after (hbeg.trans hsame.symm)
    · exact .cancel hc' hpend hhan (by rw [h.other heq, hk]) (hbeg.trans hsame.symm)

omit h

end Entered

/-- A step of a task that writes nothing. -/
theorem Settles.of_entered (h : s.Settles) {phase : TaskPhase}
    (hent : Entered s s' t task phase) (hjobs : s'.jobs = s.jobs)
    (hexpects : phase.expects = task.phase.expects ∨ s.Taken t ∧ phase.expects = none) :
    s'.Settles := by
  constructor
  · rw [hjobs]
    exact fun {_ _} hjob => h.record hjob
  · rw [hjobs, hent.starts]
    exact fun {_ _} hi => h.waiting hi
  · intro k new state hk hfree hlive
    rw [hent.taken_iff] at hfree
    rw [hjobs]
    obtain ⟨rfl, rfl⟩ | ⟨-, hk⟩ := hent.back hk
    · obtain hsame | ⟨htaken, -⟩ := hexpects
      · have hold := h.live hent.before hfree (hsame.symm.trans hlive)
        exact hold
      · exact absurd htaken hfree
    · exact h.live hk hfree hlive
  · intro k new hk hnew
    rw [hent.taken_iff]
    obtain ⟨rfl, rfl⟩ | ⟨-, hk⟩ := hent.back hk
    · obtain hsame | ⟨-, hnone⟩ := hexpects
      · exact h.fresh hent.before (hsame ▸ hnew)
      · rw [show phase.expects = some .accepted from hnew] at hnone
        cases hnone
    · exact h.fresh hk hnew
  · intro c k cancel new hc hpend hhan hk
    rw [hent.cancels] at hc
    rw [hjobs]
    obtain ⟨rfl, rfl⟩ | ⟨-, hk⟩ := hent.back hk
    · have hold := h.pending hc hpend hhan hent.before
      exact hold
    · exact h.pending hc hpend hhan hk
  · intro op job hjob hopen
    rw [hjobs] at hjob
    refine hent.owned (h.owned hjob hopen) rfl fun _ hfree hlive => ?_
    obtain hsame | ⟨htaken, -⟩ := hexpects
    · rwa [hsame]
    · exact absurd htaken hfree

/-- A step of a task that writes into its own record. -/
theorem Settles.of_written (h : s.Settles) (hwired : s.Wired) {phase : TaskPhase}
    (hent : Entered s s' t task phase)
    (hjobs : s'.jobs = s.jobs.modify task.operationId (JobState.update state error result))
    (hfree : ¬s.Taken t) (hjob : s.jobs.lookup task.operationId = some job)
    (hbeg : job.start = task.start) (hnext : job.state.Next state)
    (hexpects : ∀ state', phase.expects = some state' → state' = state ∧ state ≠ .accepted)
    (hlive : state.terminal = false → phase.expects.isSome) : s'.Settles := by
  have hrev := (h.record hjob).1
  -- the record is that of no other task
  have hnot : ∀ {k : ℕ} {other : JobTask}, s.tasks[k]? = some other → k ≠ t →
      other.start ≠ job.start := by
    intro k other hk hne heq
    exact hne (hwired.unique hk hent.before (heq.trans hbeg))
  have hsame : ∀ {op : String}, op ≠ task.operationId → s'.jobs.lookup op = s.jobs.lookup op := by
    intro op hop
    rw [hjobs, lookup_modify_eq, if_neg hop]
  have hnew : s'.jobs.lookup task.operationId = some (job.update state error result) := by
    rw [hjobs, lookup_modify_eq, if_pos rfl, hjob]
    rfl
  -- every other record is as it was
  have hkept : ∀ {op : String} {i : ℕ} {old : JobState}, s.jobs.lookup op = some old →
      old.start = i → i ≠ job.start → s'.jobs.lookup op = some old := by
    intro op i old hold hi hne
    rw [hsame, hold]
    rintro rfl
    rw [hjob, some.injEq] at hold
    exact hne (hold ▸ hi.symm)
  constructor
  · intro op new hop
    by_cases heq : op = task.operationId
    · rw [heq, hnew, some.injEq] at hop
      subst hop
      constructor
      · show nextRevision job.revision = state.revision
        rw [hrev, hnext.nextRevision_eq]
      · intro hterm
        exact if_pos hterm
    · exact h.record (hsame heq ▸ hop)
  · intro i start hi hwait
    rw [hent.starts] at hi
    obtain ⟨old, hold, hi', hst⟩ := h.waiting hi hwait
    refine ⟨old, hkept hold hi' ?_, hi', hst⟩
    rintro rfl
    refine hwired.early hi ?_ hent.before hbeg.symm
    obtain hph | hph := hwait <;> rw [hph] <;> simp
  · intro k new state' hk hfree' hlive'
    rw [hent.taken_iff] at hfree'
    obtain ⟨rfl, rfl⟩ | ⟨hne, hk⟩ := hent.back hk
    · exact ⟨_, hnew, hbeg, (hexpects state' hlive').1.symm⟩
    · obtain ⟨old, hold, hi, hst⟩ := h.live hk hfree' hlive'
      exact ⟨old, hkept hold hi (hnot hk hne), hi, hst⟩
  · intro k new hk hfresh
    rw [hent.taken_iff]
    obtain ⟨rfl, rfl⟩ | ⟨-, hk⟩ := hent.back hk
    · obtain ⟨heq, hne⟩ := hexpects _ hfresh
      exact absurd heq.symm hne
    · exact h.fresh hk hfresh
  · intro c k cancel new hc hpend hhan hk
    rw [hent.cancels] at hc
    have htaken : s.Taken k := taken_iff.2 ⟨c, cancel, hc, hhan⟩
    obtain ⟨rfl, -⟩ | ⟨hne, hk⟩ := hent.back hk
    · exact absurd htaken hfree
    · obtain ⟨old, hold, hi, hst⟩ := h.pending hc hpend hhan hk
      exact ⟨old, hkept hold hi (hnot hk hne), hi, hst⟩
  · intro op new hop hopen
    by_cases heq : op = task.operationId
    · rw [heq, hnew, some.injEq] at hop
      subst hop
      exact .task hent.after hbeg.symm (fun ht => hfree (hent.taken_iff.1 ht)) (hlive hopen)
    · have hold := hsame heq ▸ hop
      refine hent.owned (h.owned hold hopen) rfl fun hmine _ _ => ?_
      exact absurd (hwired.operation_eq hold hjob (hmine.symm.trans hbeg.symm)) heq

/-- A step of a task keeps that each job settles once. -/
theorem Settles.of_task (h : s.Settles) (hwired : s.Wired) (hordl : s.Orderly (.task t turn))
    (hstep : s.stepTask t turn = some s') : s'.Settles := by
  obtain ⟨task, phase, write, htask, hmove, hjobs, hsts, htasks, hcancels⟩ :=
    stepTask_cases hstep
  have hent : Entered s s' t task phase :=
    ⟨htask, by rw [htasks, getElem?_set_of_eq_some htask, if_pos rfl],
      fun hk => by rw [htasks, getElem?_set_of_eq_some htask, if_neg hk], hsts, hcancels⟩
  cases write with
  | none =>
    refine h.of_entered hent hjobs ?_
    cases hmove with
    | goOn hexpects => exact .inl hexpects
    | drop haborted => exact .inr ⟨hwired.aborted htask haborted, rfl⟩
  | some write =>
    obtain ⟨state, error, result⟩ := write
    obtain ⟨hfree, job, hjob, hbeg, hnext⟩ := h.writes htask hmove (hordl task htask)
    refine h.of_written hwired hent hjobs hfree hjob hbeg hnext ?_ ?_
    · intro state' hst'
      cases hmove with
      | run =>
        cases hst'
        exact ⟨rfl, nofun⟩
      | settle => cases hst'
    · intro hopen
      cases hmove with
      | run => rfl
      | settle _ hterm =>
        rw [hterm] at hopen
        cases hopen

theorem jobLaw_of_evict (jobs : Assoc String JobState) (op : String) :
    JobLaw (jobs.lookup op) ((evictTerminal jobs).lookup op) := by
  obtain heq | ⟨hnone, job, hjob, hterm⟩ := @lookup_evictTerminal jobs op
  · rw [heq]
    exact jobLaw_refl _
  · rw [hnone, hjob]
    exact .evict hterm

variable {jobs : Assoc String JobState} {tasks : List JobTask}

/-- **What a start does to the records.** -/
theorem StartMove.jobLaw (h : StartMove s i start jobs phase tasks) (op : String) :
    JobLaw (s.jobs.lookup op) (jobs.lookup op) := by
  cases h with
  | known | announce | spawn => exact jobLaw_refl _
  | refuse => exact jobLaw_of_evict _ _
  | accept _ hnone hnew =>
    rw [lookup_insert_eq]
    split
    · next heq =>
      rw [heq, hnone]
      exact .accept hnew.2.1 hnew.1
    · exact jobLaw_of_evict _ _
  | store =>
    rw [lookup_modify_eq]
    split
    · next heq =>
      rw [heq]
      cases s.jobs.lookup start.operationId with
      | none => exact .absent
      | some job =>
        refine .keep ?_
        dsimp only
        split <;> exact ⟨rfl, rfl, rfl, rfl, rfl⟩
    · exact jobLaw_refl _

/-- A start that waits goes on to spawn its task. -/
theorem StartMove.handsOver (h : StartMove s i start jobs phase tasks)
    (hph : start.phase = .announcing ∨ start.phase = .spawning) :
    phase = .spawning ∨ phase = .storing s.tasks.length := by
  cases h with
  | known hne | refuse hne | accept hne | store hne =>
    rw [hne] at hph
    simp at hph
  | announce => exact .inl rfl
  | spawn => exact .inr rfl

/-- A record that is not terminal is left where it is. -/
theorem StartMove.jobs_forth
    (h : StartMove s i start jobs phase tasks) (hjob : s.jobs.lookup op = some job)
    (hopen : job.state.terminal = false) :
    ∃ job', jobs.lookup op = some job' ∧ job.Same job' := by
  have hevict : (evictTerminal s.jobs).lookup op = some job := by
    obtain heq | ⟨-, old, hold, hterm⟩ := @lookup_evictTerminal s.jobs op
    · rw [heq, hjob]
    · rw [hjob, some.injEq] at hold
      rw [← hold, hopen] at hterm
      cases hterm
  cases h with
  | known | announce | spawn => exact ⟨job, hjob, rfl, rfl, rfl, rfl, rfl⟩
  | refuse => exact ⟨job, hevict, rfl, rfl, rfl, rfl, rfl⟩
  | accept _ hnone =>
    refine ⟨job, ?_, rfl, rfl, rfl, rfl, rfl⟩
    rw [lookup_insert_eq, if_neg, hevict]
    rintro rfl
    rw [hjob] at hnone
    cases hnone
  | @store t =>
    rw [lookup_modify_eq]
    split
    · next heq =>
      rw [← heq, hjob]
      refine ⟨_, rfl, ?_⟩
      dsimp only
      split <;> exact ⟨rfl, rfl, rfl, rfl, rfl⟩
    · exact ⟨job, hjob, rfl, rfl, rfl, rfl, rfl⟩

/-- A start waits because it has made its record, or announced it. -/
theorem StartMove.waits_back
    (h : StartMove s i start jobs phase tasks) (hph : phase = .announcing ∨ phase = .spawning) :
    (∃ job, jobs.lookup start.operationId = some job ∧ job.start = i ∧ job.state = .accepted) ∨
      start.phase = .announcing := by
  cases h with
  | known | refuse | spawn | store => simp at hph
  | accept _ _ hnew => exact .inl ⟨_, AList.lookup_insert _, hnew.2.2.2, hnew.2.1⟩
  | announce hann => exact .inr hann

/-- A step of a start keeps it. -/
theorem Settles.of_start (h : s.Settles) (hwired : s.Wired) (hstep : s.stepStart i = some s') :
    s'.Settles := by
  obtain ⟨start, jobs, phase, tasks, reply, hbeg, hmove, rfl, rfl, hsts, hcancels⟩ :=
    stepStart_cases hstep
  have htaken : ∀ {t}, s'.Taken t ↔ s.Taken t := by
    intro t
    unfold Taken
    rw [hcancels]
  have hself : s'.starts[i]? = some { start with phase, reply } := by
    rw [hsts, getElem?_set_of_eq_some hbeg, if_pos rfl]
  have hne : ∀ {k : ℕ}, k ≠ i → s'.starts[k]? = s.starts[k]? := by
    intro k hk
    rw [hsts, getElem?_set_of_eq_some hbeg, if_neg hk]
  have hfst : ¬s.Taken s.tasks.length := by
    intro hmem
    obtain ⟨c, cancel, hc, hhan⟩ := taken_iff.1 hmem
    obtain ⟨-, -, task, -, htask, -⟩ := hwired.taken hc hhan
    have := (List.getElem?_eq_some_iff.1 htask).1
    omega
  -- who goes on with a record still does, or has handed it to the task
  have howned : ∀ {job job' : JobState}, s.Owned job → job'.start = job.start → s'.Owned job' := by
    intro job job' hold hsame
    cases hold with
    | start hwaits =>
      obtain ⟨st, hst, hph⟩ := hwaits
      by_cases heq : job.start = i
      · rw [heq, hbeg, some.injEq] at hst
        subst hst
        obtain hspawning | hstoring := hmove.handsOver hph
        · exact .start ⟨_, by rw [hsame, heq]; exact hself, .inr hspawning⟩
        · exact .task (hmove.tasks_of_storing hstoring) (by rw [hsame, heq])
            (fun ht => hfst (htaken.1 ht)) rfl
      · exact .start ⟨st, by rw [hsame, hne heq, hst], hph⟩
    | task hk hmine hfree hlive =>
      exact .task (hmove.tasks_forth hk) (hmine.trans hsame.symm) (fun ht => hfree (htaken.1 ht))
        hlive
    | cancel hc hpend hhan hk hmine =>
      exact .cancel (hcancels ▸ hc) hpend hhan (hmove.tasks_forth hk) (hmine.trans hsame.symm)
  constructor
  · intro op job' hjob'
    obtain hjob | ⟨-, -, -, -, hrev, hstate, habort, -⟩ | ⟨t, job, -, -, -, hjob, hopen, rfl⟩ :=
      hmove.jobs_back hjob'
    · exact h.record hjob
    · exact ⟨by rw [hrev, hstate]; rfl, fun _ => habort⟩
    · refine ⟨(h.record hjob).1, fun hterm => ?_⟩
      rw [show job.state.terminal from hterm] at hopen
      cases hopen
  · intro k st hk hwait
    by_cases hki : k = i
    · subst hki
      cases hself.symm.trans hk
      -- it has just made the record, or announced it
      obtain hmade | hann := hmove.waits_back hwait
      · exact hmade
      · obtain ⟨job, hjob, hst, hstate⟩ := h.waiting hbeg (.inl hann)
        obtain ⟨job', hjob', hsame⟩ := hmove.jobs_forth hjob (by rw [hstate]; rfl)
        exact ⟨job', hjob', hsame.start.trans hst, hsame.state.trans hstate⟩
    · rw [hne hki] at hk
      obtain ⟨job, hjob, hst, hstate⟩ := h.waiting hk hwait
      obtain ⟨job', hjob', hsame⟩ := hmove.jobs_forth hjob (by rw [hstate]; rfl)
      exact ⟨job', hjob', hsame.start.trans hst, hsame.state.trans hstate⟩
  · intro t task state ht hfree hlive
    rw [htaken] at hfree
    have hopen : state.terminal = false := by
      obtain heq | heq := TaskPhase.of_expects hlive <;> rw [heq] <;> rfl
    obtain ⟨job, hjob, hst, hstate⟩ : ∃ job, s.jobs.lookup task.operationId = some job ∧
        job.start = task.start ∧ job.state = state := by
      obtain ht | ⟨rfl, rfl, hspawning, -⟩ := hmove.tasks_back ht
      · exact h.live ht hfree hlive
      · cases hlive
        exact h.waiting hbeg (.inr hspawning)
    obtain ⟨job', hjob', hsame⟩ := hmove.jobs_forth hjob (by rw [hstate, hopen])
    exact ⟨job', hjob', hsame.start.trans hst, hsame.state.trans hstate⟩
  · intro t task ht hnew
    rw [htaken]
    obtain ht | ⟨rfl, -, -, -⟩ := hmove.tasks_back ht
    · exact h.fresh ht hnew
    · exact hfst
  · intro c t cancel task hc hpend hhan ht
    rw [hcancels] at hc
    obtain ht | ⟨rfl, -, -, -⟩ := hmove.tasks_back ht
    · obtain ⟨job, hjob, hst, hstate⟩ := h.pending hc hpend hhan ht
      obtain ⟨job', hjob', hsame⟩ := hmove.jobs_forth hjob (by rw [hstate]; rfl)
      exact ⟨job', hjob', hsame.start.trans hst, hsame.state.trans hstate⟩
    · exact absurd (taken_iff.2 ⟨c, cancel, hc, hhan⟩) hfst
  · intro op job' hjob' hopen
    obtain hjob | ⟨-, -, hann, -, -, -, -, hst⟩ | ⟨t, job, -, -, -, hjob, hold, rfl⟩ :=
      hmove.jobs_back hjob'
    · exact howned (h.owned hjob hopen) rfl
    · exact .start ⟨_, by rw [hst]; exact hself, .inl hann⟩
    · exact howned (h.owned hjob hold) rfl

/-- **An orderly cancel takes the handle of a running record's own
task.** -/
theorem Settles.running_of_take (h : s.Settles) (hwired : s.Wired)
    (hordl : s.Orderly (.cancel c)) (hcan : s.cancels[c]? = some cancel)
    (hph : cancel.phase = .locking) (hid : cancel.operationId = some op)
    (hjob : s.jobs.lookup op = some job) (habort : job.abort = some t) :
    ∃ task, s.tasks[t]? = some task ∧ task.operationId = op ∧
      task.start = job.start ∧ task.phase.expects ≠ some .accepted ∧ job.state = .running := by
  obtain ⟨hfree, task, start, htask, hop, hbeg, hover⟩ := hwired.abort hjob habort
  obtain ⟨hmine, hran⟩ := hordl cancel hcan hph op hid job hjob t habort task htask
  refine ⟨task, htask, hop, hmine, hran, ?_⟩
  have hopen : job.state.terminal = false := by
    by_contra hterm
    rw [Bool.not_eq_false] at hterm
    rw [(h.record hjob).2 hterm] at habort
    cases habort
  -- its task owns the record, and has written `running`
  cases h.owned hjob hopen with
  | start hwaits =>
    obtain ⟨st, hst, hwait⟩ := hwaits
    refine absurd hmine (hwired.early hst ?_ htask)
    obtain hph | hph := hwait <;> rw [hph] <;> simp
  | @task k own hk hown _ hlive =>
    obtain rfl := hwired.unique hk htask (hown.trans hmine.symm)
    cases htask.symm.trans hk
    obtain ⟨state, hstate⟩ := isSome_iff_exists.1 hlive
    obtain ⟨job', hjob', -, rfl⟩ := h.live htask hfree hstate
    rw [hop, hjob, some.injEq] at hjob'
    subst hjob'
    obtain heq | heq := TaskPhase.of_expects hstate
    · exact absurd (by rw [hstate, heq]) hran
    · exact heq
  | @cancel c' k cancel' own hc' _ hhan hk hown =>
    obtain rfl := hwired.unique hk htask (hown.trans hmine.symm)
    exact absurd (taken_iff.2 ⟨c', cancel', hc', hhan⟩) hfree

/-- The record an orderly cancel writes `canceled` into. -/
theorem Settles.running_of_update (h : s.Settles) (hwired : s.Wired)
    (hcan : s.cancels[c]? = some cancel) (hph : cancel.phase = .updating)
    (hid : cancel.operationId = some op) :
    ∃ t task job, cancel.handle = some t ∧ s.tasks[t]? = some task ∧ s.jobs.lookup op = some job ∧
      job.start = task.start ∧ job.state = .running := by
  obtain ⟨t, hhan⟩ := isSome_iff_exists.1 ((hwired.handled hcan).updating hph)
  obtain ⟨op', hid', task, -, htask, hop, -⟩ := hwired.taken hcan hhan
  cases hid.symm.trans hid'
  obtain ⟨job, hjob, hbeg, hst⟩ :=
    h.pending hcan (by rw [hph]; rfl) hhan htask
  exact ⟨t, task, job, hhan, htask, hop ▸ hjob, hbeg, hst⟩

/-- A cancellation advances a record as the law says. -/
theorem jobLaw_of_cancel (h : s.Settles) (hwired : s.Wired) (hstep : s.stepCancel c = some s')
    (op : String) :
    JobLaw (s.jobs.lookup op) (s'.jobs.lookup op) := by
  obtain ⟨cancel, jobs, tasks, phase, handle, reply, hcan, hmove, hjobs, -⟩ :=
    stepCancel_cases hstep
  rw [hjobs]
  cases hmove with
  | @take op' job t hph hid hjob habort =>
    rw [lookup_modify_eq]
    split
    · next heq =>
      rw [heq, hjob]
      exact .keep ⟨rfl, rfl, rfl, rfl, rfl⟩
    · exact jobLaw_refl _
  | abort | finish => exact jobLaw_refl _
  | update hph hid =>
    obtain ⟨t, task, job, -, -, hjob, -, hst⟩ := h.running_of_update hwired hcan hph hid
    exact jobLaw_of_update hjob (h.record hjob).1 (hst ▸ .settle rfl) op

/-- The state after a cancel's step that writes no record: the records
and the tasks are the same but for handles and marks. -/
structure Quiet (s s' : JobServer) (c : ℕ) (cancel cancel' : JobCancel) : Prop where
  before : s.cancels[c]? = some cancel
  after : s'.cancels[c]? = some cancel'
  other : ∀ {k : ℕ}, k ≠ c → s'.cancels[k]? = s.cancels[k]?
  starts : s'.starts = s.starts
  taken : ∀ {t : ℕ}, s'.Taken t ↔ s.Taken t ∨ cancel'.handle = some t
  jobsBack : ∀ {op : String} {job' : JobState}, s'.jobs.lookup op = some job' →
    ∃ job, s.jobs.lookup op = some job ∧ job.Same job' ∧ (job.abort = none → job'.abort = none)
  jobsForth : ∀ {op : String} {job : JobState}, s.jobs.lookup op = some job →
    ∃ job', s'.jobs.lookup op = some job' ∧ job.Same job'
  tasksBack : ∀ {t : ℕ} {task' : JobTask}, s'.tasks[t]? = some task' → ∃ task,
    s.tasks[t]? = some task ∧ task'.start = task.start ∧ task'.operationId = task.operationId ∧
      task'.phase = task.phase
  tasksForth : ∀ {t : ℕ} {task : JobTask}, s.tasks[t]? = some task → ∃ task',
    s'.tasks[t]? = some task' ∧ task'.start = task.start ∧ task'.phase = task.phase
  pending : cancel.phase.pending → cancel'.phase.pending ∧ cancel'.handle = cancel.handle
  /-- A handle that is new is that of a running record's own task. -/
  handle : ∀ {t : ℕ}, cancel'.handle = some t → s.Taken t ∧
      (cancel'.phase.pending → cancel.phase.pending ∧ cancel'.handle = cancel.handle) ∨
    cancel'.phase.pending ∧ ∃ task job, s.tasks[t]? = some task ∧
      task.phase.expects ≠ some .accepted ∧ s.jobs.lookup task.operationId = some job ∧
      job.start = task.start ∧ job.state = .running

variable (h : s.Settles)
include h

/-- A step that touches no record keeps it. -/
theorem Settles.of_quiet (hqt : Quiet s s' c cancel cancel') : s'.Settles := by
  have hsame : ∀ {op : String} {i : ℕ} {state : JobStatus},
      (∃ job, s.jobs.lookup op = some job ∧ job.start = i ∧ job.state = state) →
      ∃ job, s'.jobs.lookup op = some job ∧ job.start = i ∧ job.state = state := by
    rintro op i state ⟨job, hjob, hbeg, hstate⟩
    obtain ⟨job', hjob', hkept⟩ := hqt.jobsForth hjob
    exact ⟨job', hjob', hkept.start.trans hbeg, hkept.state.trans hstate⟩
  constructor
  · intro op job' hjob'
    obtain ⟨job, hjob, hkept, habort⟩ := hqt.jobsBack hjob'
    rw [hkept.revision, hkept.state]
    exact ⟨(h.record hjob).1, fun hterm => habort ((h.record hjob).2 hterm)⟩
  · intro i start hi hwait
    exact hsame (h.waiting (hqt.starts ▸ hi) hwait)
  · intro t task' state ht hfree hlive
    obtain ⟨task, ht, hbeg, hid, hph⟩ := hqt.tasksBack ht
    rw [hid, hbeg]
    exact hsame (h.live ht (fun hmem => hfree (hqt.taken.2 (.inl hmem))) (hph ▸ hlive))
  · intro t task' ht hnew hmem
    obtain ⟨task, ht, -, -, hph⟩ := hqt.tasksBack ht
    rw [hph] at hnew
    obtain hmem | hhan := hqt.taken.1 hmem
    · exact h.fresh ht hnew hmem
    · obtain ⟨hmem, -⟩ | ⟨-, own, -, hown, hran, -⟩ := hqt.handle hhan
      · exact h.fresh ht hnew hmem
      · rw [ht, some.injEq] at hown
        exact hran (hown ▸ hnew)
  · intro k t other task' hk hpend hhan ht
    obtain ⟨task, ht, hbeg, hid, -⟩ := hqt.tasksBack ht
    rw [hid, hbeg]
    by_cases heq : k = c
    · rw [heq, hqt.after, some.injEq] at hk
      subst hk
      obtain ⟨-, hold⟩ | ⟨-, own, job, hown, -, hjob, hmine, hstate⟩ := hqt.handle hhan
      · obtain ⟨hpend', hsameHandle⟩ := hold hpend
        exact hsame (h.pending hqt.before hpend' (hsameHandle ▸ hhan) ht)
      · cases ht.symm.trans hown
        exact hsame ⟨job, hjob, hmine, hstate⟩
    · exact hsame (h.pending (hqt.other heq ▸ hk) hpend hhan ht)
  · intro op job' hjob' hopen
    obtain ⟨job, hjob, hkept, -⟩ := hqt.jobsBack hjob'
    cases h.owned hjob (hkept.state ▸ hopen) with
    | start hwaits =>
      obtain ⟨start, hst, hwait⟩ := hwaits
      exact .start ⟨start, by rw [hqt.starts, hkept.start, hst], hwait⟩
    | @task t task ht hmine hfree hlive =>
      obtain ⟨task', ht', hbeg, hph⟩ := hqt.tasksForth ht
      have hmine' : task'.start = job'.start := by rw [hbeg, hmine, hkept.start]
      by_cases hhan : cancel'.handle = some t
      · obtain ⟨hmem, -⟩ | ⟨hpend, -⟩ := hqt.handle hhan
        · exact absurd hmem hfree
        · exact .cancel hqt.after hpend hhan ht' hmine'
      · refine .task ht' hmine' (fun hmem => ?_) (by rw [hph, hlive])
        exact (hqt.taken.1 hmem).elim hfree hhan
    | @cancel k t other task hk hpend hhan ht hmine =>
      obtain ⟨task', ht', hbeg, -⟩ := hqt.tasksForth ht
      have hmine' : task'.start = job'.start := by rw [hbeg, hmine, hkept.start]
      by_cases heq : k = c
      · rw [heq, hqt.before, some.injEq] at hk
        subst hk
        obtain ⟨hpend', hsameHandle⟩ := hqt.pending hpend
        exact .cancel hqt.after hpend' (hsameHandle.trans hhan) ht' hmine'
      · exact .cancel (by rw [hqt.other heq, hk]) hpend hhan ht' hmine'

/-- The cancel writes `canceled` into the running record it holds the
handle of. -/
theorem Settles.of_canceled (hwired : s.Wired)
    (hcan : s.cancels[c]? = some cancel) (hph : cancel.phase = .updating)
    (hid : cancel.operationId = some op) (hhan : cancel'.handle = cancel.handle)
    (hnot : cancel'.phase.pending = false)
    (hjobs : s'.jobs = s.jobs.modify op (JobState.update .canceled none none))
    (htasks : s'.tasks = s.tasks) (hsts : s'.starts = s.starts)
    (hcancels : s'.cancels = s.cancels.set c cancel') : s'.Settles := by
  obtain ⟨t, task, job, hown, htask, hjob, hmine, hstate⟩ :=
    h.running_of_update hwired hcan hph hid
  have htaken : ∀ {k}, s'.Taken k ↔ s.Taken k := by
    intro k
    rw [taken_of_set hcan hcancels fun k hk => hhan.trans hk, or_iff_left_iff_imp, hhan]
    exact fun hk => taken_iff.2 ⟨c, cancel, hcan, hk⟩
  have hmember : s.Taken t := taken_iff.2 ⟨c, cancel, hcan, hown⟩
  have hnew : s'.jobs.lookup op = some (job.update .canceled none none) := by
    rw [hjobs, lookup_modify_eq, if_pos rfl, hjob]
    rfl
  have hsame : ∀ {op' : String}, op' ≠ op → s'.jobs.lookup op' = s.jobs.lookup op' := by
    intro op' hop
    rw [hjobs, lookup_modify_eq, if_neg hop]
  have hkept : ∀ {op' : String} {old : JobState}, s.jobs.lookup op' = some old →
      old.start ≠ job.start → s'.jobs.lookup op' = some old := by
    intro op' old hold hne
    rw [hsame, hold]
    rintro rfl
    rw [hjob, some.injEq] at hold
    exact hne (hold ▸ rfl)
  -- the record is that of the task whose handle the cancel holds
  have honly : ∀ {k : ℕ} {other : JobTask}, s.tasks[k]? = some other →
      other.start = job.start → k = t := fun hk heq => hwired.unique hk htask (heq.trans hmine)
  have hback : ∀ {k : ℕ} {other : JobCancel}, s'.cancels[k]? = some other →
      other.phase.pending → k ≠ c ∧ s.cancels[k]? = some other := by
    intro k other hk hpend
    rw [hcancels, getElem?_set_of_eq_some hcan] at hk
    split at hk
    · cases hk
      rw [hnot] at hpend
      cases hpend
    · next hne => exact ⟨hne, hk⟩
  constructor
  · intro op' new hop
    by_cases heq : op' = op
    · rw [heq, hnew, some.injEq] at hop
      subst hop
      refine ⟨?_, fun _ => rfl⟩
      show nextRevision job.revision = _
      rw [(h.record hjob).1, hstate]
      rfl
    · exact h.record (hsame heq ▸ hop)
  · intro i start hi hwaiting
    obtain ⟨old, hold, hi', hwait⟩ := h.waiting (hsts ▸ hi) hwaiting
    refine ⟨old, hkept hold fun heq => ?_, hi', hwait⟩
    have hop := hwired.operation_eq hold hjob heq
    rw [hop, hjob, some.injEq] at hold
    rw [← hold, hstate] at hwait
    cases hwait
  · intro k other state hk hfree hlive
    rw [htasks] at hk
    rw [htaken] at hfree
    obtain ⟨old, hold, hi, hold'⟩ := h.live hk hfree hlive
    refine ⟨old, hkept hold fun heq => ?_, hi, hold'⟩
    exact hfree (honly hk (hi.symm.trans heq) ▸ hmember)
  · intro k other hk hfresh
    rw [htaken]
    exact h.fresh (htasks ▸ hk) hfresh
  · intro k u other own hk hpend hother hu
    obtain ⟨hne, hk⟩ := hback hk hpend
    rw [htasks] at hu
    obtain ⟨old, hold, hi, hold'⟩ := h.pending hk hpend hother hu
    refine ⟨old, hkept hold fun heq => ?_, hi, hold'⟩
    obtain rfl := honly hu (hi.symm.trans heq)
    exact hne (hwired.single hk hcan hother hown)
  · intro op' new hop hopen
    have heq : op' ≠ op := by
      rintro rfl
      rw [hnew, some.injEq] at hop
      rw [← hop] at hopen
      cases hopen
    rw [hsame heq] at hop
    cases h.owned hop hopen with
    | start hwaits =>
      obtain ⟨start, hst, hwaiting⟩ := hwaits
      exact .start ⟨start, by rw [hsts, hst], hwaiting⟩
    | task hk hi hfree hlive =>
      exact .task (htasks ▸ hk) hi (fun hmem => hfree (htaken.1 hmem)) hlive
    | @cancel k u other own hk hpend hother hu hi =>
      refine .cancel (c := k) ?_ hpend hother (htasks ▸ hu) hi
      rw [hcancels, getElem?_set_of_eq_some hcan, if_neg, hk]
      rintro rfl
      cases hcan.symm.trans hk
      cases hown.symm.trans hother
      cases htask.symm.trans hu
      exact heq (hwired.operation_eq hop hjob (hi.symm.trans hmine.symm))

/-- A step of a cancellation keeps it. -/
theorem Settles.of_cancel (hwired : s.Wired) (hordl : s.Orderly (.cancel c))
    (hstep : s.stepCancel c = some s') : s'.Settles := by
  obtain ⟨cancel, jobs, tasks, phase, handle, reply, hcan, hmove, hjobs, htasks, hcancels,
    hsts⟩ := stepCancel_cases hstep
  have haft : s'.cancels[c]? = some { cancel with phase, handle, reply } := by
    rw [hcancels, getElem?_set_of_eq_some hcan, if_pos rfl]
  have hne : ∀ {k : ℕ}, k ≠ c → s'.cancels[k]? = s.cancels[k]? := by
    intro k hk
    rw [hcancels, getElem?_set_of_eq_some hcan, if_neg hk]
  have hmember : ∀ {t}, cancel.handle = some t → s.Taken t :=
    fun ht => taken_iff.2 ⟨c, cancel, hcan, ht⟩
  have hjobsBack : s'.jobs = s.jobs → ∀ {op : String} {job' : JobState},
      s'.jobs.lookup op = some job' → ∃ job, s.jobs.lookup op = some job ∧ job.Same job' ∧
        (job.abort = none → job'.abort = none) :=
    fun heq _ job' hjob' => ⟨job', heq ▸ hjob', ⟨rfl, rfl, rfl, rfl, rfl⟩, id⟩
  have hjobsForth : s'.jobs = s.jobs → ∀ {op : String} {job : JobState},
      s.jobs.lookup op = some job → ∃ job', s'.jobs.lookup op = some job' ∧ job.Same job' :=
    fun heq _ job hjob => ⟨job, heq ▸ hjob, rfl, rfl, rfl, rfl, rfl⟩
  cases hmove with
  | @take op job t hph hid hjob habort =>
    obtain ⟨task, htask, hop, hmine, hran, hst⟩ :=
      h.running_of_take hwired hordl hcan hph hid hjob habort
    have hnone := (hwired.handled hcan).locking hph
    refine h.of_quiet ⟨hcan, haft, hne, hsts, ?_, ?_, ?_, ?_, ?_, ?_, ?_⟩
    · exact taken_of_set hcan hcancels fun k hk => by rw [hnone] at hk; cases hk
    · intro op' job' hjob'
      rw [hjobs, lookup_modify_eq] at hjob'
      split at hjob'
      · next heq =>
        obtain ⟨old, hold, rfl⟩ := map_eq_some_iff.1 hjob'
        exact ⟨old, heq ▸ hold, ⟨rfl, rfl, rfl, rfl, rfl⟩, fun _ => rfl⟩
      · exact ⟨job', hjob', ⟨rfl, rfl, rfl, rfl, rfl⟩, id⟩
    · intro op' old hold
      rw [hjobs, lookup_modify_eq]
      split
      · next heq =>
        rw [← heq, hold]
        exact ⟨_, rfl, rfl, rfl, rfl, rfl, rfl⟩
      · exact ⟨old, hold, rfl, rfl, rfl, rfl, rfl⟩
    · exact fun {_ task'} ht => ⟨task', htasks ▸ ht, rfl, rfl, rfl⟩
    · exact fun {_ task'} ht => ⟨task', htasks ▸ ht, rfl, rfl⟩
    · intro hpend
      rw [hph] at hpend
      cases hpend
    · intro k hk
      cases hk
      exact .inr ⟨rfl, task, job, htask, hran, hop ▸ hjob, hmine.symm, hst⟩
  | @abort t task hph htask =>
    refine h.of_quiet ⟨hcan, haft, hne, hsts,
      taken_of_set hcan hcancels fun _ hk => hk, hjobsBack hjobs, hjobsForth hjobs, ?_, ?_,
      fun _ => ⟨rfl, rfl⟩, fun hk => .inl ⟨hmember hk, fun _ => ⟨by rw [hph]; rfl, rfl⟩⟩⟩
    · intro k task' hk
      rw [htasks, getElem?_set_of_eq_some htask] at hk
      split at hk
      · next heq =>
        cases hk
        exact ⟨task, heq ▸ htask, rfl, rfl, rfl⟩
      · exact ⟨task', hk, rfl, rfl, rfl⟩
    · intro k own hk
      rw [htasks, getElem?_set_of_eq_some htask]
      split
      · next heq =>
        rw [heq, htask, some.injEq] at hk
        exact ⟨_, rfl, hk ▸ rfl, hk ▸ rfl⟩
      · exact ⟨own, hk, rfl, rfl⟩
  | update hph hid =>
    refine h.of_canceled hwired hcan hph hid ?_ ?_ hjobs htasks hsts hcancels
    all_goals rfl
  | finish hph =>
    refine h.of_quiet ⟨hcan, haft, hne, hsts,
      taken_of_set hcan hcancels fun _ hk => hk, hjobsBack hjobs, hjobsForth hjobs,
      fun {_ task'} ht => ⟨task', htasks ▸ ht, rfl, rfl, rfl⟩,
      fun {_ task'} ht => ⟨task', htasks ▸ ht, rfl, rfl⟩, ?_, fun hk => .inl ⟨hmember hk, nofun⟩⟩
    intro hpend
    obtain hph | hph := hph <;> rw [hph] at hpend <;> cases hpend

/-- A start that comes in keeps it. -/
theorem Settles.of_startJob (hph : start.phase = .locking ∨ start.phase = .over) :
    ({ s with starts := s.starts ++ [start] } : JobServer).Settles := by
  refine { h with waiting := ?_, owned := ?_ }
  · intro i st hi hwait
    obtain hi | ⟨-, rfl⟩ := getElem?_concat_eq_some.1 hi
    · exact h.waiting hi hwait
    · obtain hph | hph := hph <;> rw [hph] at hwait <;> simp at hwait
  · intro op job hjob hopen
    cases h.owned hjob hopen with
    | start hwaits =>
      obtain ⟨st, hst, hwait⟩ := hwaits
      exact .start ⟨st, getElem?_concat_eq_some.2 (.inl hst), hwait⟩
    | task ht hmine hfree hlive => exact .task ht hmine hfree hlive
    | cancel hc hpend hhan ht hmine => exact .cancel hc hpend hhan ht hmine

/-- A cancellation that comes in keeps it. -/
theorem Settles.of_cancelJob (opId : Option String) :
    ({ s with cancels := s.cancels ++ [⟨opId, .locking, none, none⟩] } : JobServer).Settles := by
  refine ⟨h.record, h.waiting, ?_, ?_, ?_, ?_⟩
  · intro t task state ht hfree hlive
    rw [taken_concat rfl] at hfree
    exact h.live ht hfree hlive
  · intro t task ht hnew
    rw [taken_concat rfl]
    exact h.fresh ht hnew
  · intro c t cancel task hc hpend hhan ht
    obtain hc | ⟨-, rfl⟩ := getElem?_concat_eq_some.1 hc
    · exact h.pending hc hpend hhan ht
    · cases hpend
  · intro op job hjob hopen
    cases h.owned hjob hopen with
    | start hwaits => exact .start hwaits
    | task ht hmine hfree hlive =>
      exact .task ht hmine (fun hmem => hfree ((taken_concat rfl).1 hmem)) hlive
    | cancel hc hpend hhan ht hmine =>
      exact .cancel (getElem?_concat_eq_some.2 (.inl hc)) hpend hhan ht hmine

/-- A record inserted anew keeps it. -/
theorem Settles.of_rehash (hjob : s.jobs.lookup op = some job) :
    ({ s with jobs := s.jobs.insert op job } : JobServer).Settles := by
  refine ⟨?_, ?_, ?_, h.fresh, ?_, ?_⟩
  · intro op' job' hjob'
    exact h.record (lookup_rehash hjob op' ▸ hjob')
  · intro i start hi hwait
    rw [lookup_rehash hjob]
    exact h.waiting hi hwait
  · intro t task state ht hfree hlive
    rw [lookup_rehash hjob]
    exact h.live ht hfree hlive
  · intro c t cancel task hc hpend hhan ht
    rw [lookup_rehash hjob]
    exact h.pending hc hpend hhan ht
  · intro op' job' hjob' hopen
    cases h.owned (lookup_rehash hjob op' ▸ hjob') hopen with
    | start hwaits => exact .start hwaits
    | task ht hmine hfree hlive => exact .task ht hmine hfree hlive
    | cancel hc hpend hhan ht hmine => exact .cancel hc hpend hhan ht hmine

omit h

theorem settles_init : jobMachine.init.Settles := by
  constructor <;> simp [jobMachine]

/-- Every orderly step keeps that each job settles once. -/
theorem Settles.of_step (h : s.Settles) (hwired : s.Wired) (hordl : s.Orderly action)
    (hstep : jobMachine.step s action = some s') : s'.Settles := by
  cases action with
  | startJob method msg =>
    cases hstep
    refine h.of_startJob ?_
    split
    · exact .inl rfl
    · exact .inr rfl
  | cancelJob params =>
    cases hstep
    exact h.of_cancelJob _
  | start i => exact h.of_start hwired hstep
  | task t turn => exact h.of_task hwired hordl hstep
  | cancel c => exact h.of_cancel hwired hordl hstep
  | rehash op =>
    obtain ⟨job, hjob, rfl⟩ := map_eq_some_iff.1 hstep
    exact h.of_rehash hjob

theorem settles_of_reachable (h : orderlyJobs.Reachable s) : s.Settles := by
  refine h.rule settles_init fun s _ _ hreach hinv hstep => ?_
  obtain ⟨hordl, hstep⟩ := Machine.restrict_step_eq_some.1 hstep
  exact hinv.of_step (wired_of_reachable hreach.of_restrict) hordl hstep

/-- **Every step of an orderly run is lawful for every record.** -/
theorem jobLaw_of_step (hreach : orderlyJobs.Reachable s)
    (hstep : orderlyJobs.step s action = some s') (op : String) :
    JobLaw (s.jobs.lookup op) (s'.jobs.lookup op) := by
  have hinv := settles_of_reachable hreach
  have hwired := wired_of_reachable hreach.of_restrict
  obtain ⟨hordl, hstep⟩ := Machine.restrict_step_eq_some.1 hstep
  cases action with
  | startJob | cancelJob =>
    cases hstep
    exact jobLaw_refl _
  | start i =>
    obtain ⟨start, jobs, phase, tasks, reply, -, hmove, hjobs, -⟩ := stepStart_cases hstep
    rw [hjobs]
    exact hmove.jobLaw op
  | task t turn => exact jobLaw_of_task hinv hordl hstep op
  | cancel c => exact jobLaw_of_cancel hinv hwired hstep op
  | rehash op' =>
    obtain ⟨job, hjob, rfl⟩ := map_eq_some_iff.1 hstep
    rw [show AList.lookup op _ = _ from lookup_rehash hjob op]
    exact jobLaw_refl _

/-! ## From one state to a later one -/

/-- A new record is that of a start that was still to take the lock. -/
theorem locking_of_new (hstep : jobMachine.step s action = some s')
    (hnone : s.jobs.lookup op = none) (hjob' : s'.jobs.lookup op = some job') :
    ∃ start, s.starts[job'.start]? = some start ∧ start.phase = .locking := by
  have hmodify : ∀ {op' : String} {f : JobState → JobState},
      (s.jobs.modify op' f).lookup op ≠ some job' := by
    intro op' f hget
    rw [lookup_modify_eq] at hget
    split at hget
    · next heq =>
      rw [← heq, hnone] at hget
      cases hget
    · rw [hnone] at hget
      cases hget
  cases action with
  | startJob | cancelJob =>
    cases hstep
    rw [show AList.lookup op _ = _ from hnone] at hjob'
    cases hjob'
  | start i =>
    obtain ⟨start, jobs, phase, tasks, reply, hbeg, hmove, rfl, -⟩ := stepStart_cases hstep
    obtain hjob | ⟨-, hlocking, -, -, -, -, -, hi⟩ | ⟨t, job, -, -, -, hjob, -⟩ :=
      hmove.jobs_back hjob'
    · rw [hnone] at hjob
      cases hjob
    · exact ⟨start, by rw [hi, hbeg], hlocking⟩
    · rw [hnone] at hjob
      cases hjob
  | task t turn =>
    obtain ⟨task, phase, write, -, -, hjobs, -⟩ := stepTask_cases hstep
    rw [hjobs] at hjob'
    obtain ⟨job, hjob, -⟩ := writeJob_back hjob'
    rw [hnone] at hjob
    cases hjob
  | cancel c =>
    obtain ⟨cancel, jobs, tasks, phase, handle, reply, -, hmove, hjobs, -⟩ :=
      stepCancel_cases hstep
    rw [hjobs] at hjob'
    cases hmove with
    | take | update => exact absurd hjob' hmodify
    | abort | finish =>
      rw [hnone] at hjob'
      cases hjob'
  | rehash op' =>
    obtain ⟨job, hjob, rfl⟩ := map_eq_some_iff.1 hstep
    rw [show AList.lookup op _ = _ from lookup_rehash hjob op, hnone] at hjob'
    cases hjob'

/-- A start that has taken the lock has. -/
theorem locked_kept (hstep : jobMachine.step s action = some s')
    (hbeg : s.starts[i]? = some start) (hph : start.phase ≠ .locking) :
    ∃ start', s'.starts[i]? = some start' ∧ start'.phase ≠ .locking := by
  cases action with
  | startJob =>
    cases hstep
    exact ⟨start, getElem?_concat_eq_some.2 (.inl hbeg), hph⟩
  | cancelJob =>
    cases hstep
    exact ⟨start, hbeg, hph⟩
  | start k =>
    obtain ⟨other, jobs, phase, tasks, reply, hne, hmove, -, -, hsts, -⟩ :=
      stepStart_cases hstep
    rw [hsts, getElem?_set_of_eq_some hne]
    split
    · exact ⟨_, rfl, hmove.phase_ne.2⟩
    · exact ⟨start, hbeg, hph⟩
  | task t turn =>
    obtain ⟨task, phase, write, -, -, -, hsts, -⟩ := stepTask_cases hstep
    exact ⟨start, hsts ▸ hbeg, hph⟩
  | cancel c =>
    obtain ⟨cancel, jobs, tasks, phase, handle, reply, -, -, -, -, -, hsts⟩ :=
      stepCancel_cases hstep
    exact ⟨start, hsts ▸ hbeg, hph⟩
  | rehash op =>
    obtain ⟨job, -, rfl⟩ := map_eq_some_iff.1 hstep
    exact ⟨start, hbeg, hph⟩

/-- **A terminal record stays as it is** for as long as it is retained. -/
theorem same_of_terminal {t : JobServer} (hreach : orderlyJobs.Reachable s)
    (hleads : orderlyJobs.Leads s t) (hjob : s.jobs.lookup op = some job)
    (hterm : job.state.terminal) (hjob' : t.jobs.lookup op = some job')
    (hbeg : job'.start = job.start) : job.Same job' := by
  suffices h : (∃ start, t.starts[job.start]? = some start ∧ start.phase ≠ .locking) ∧
      ∀ job', t.jobs.lookup op = some job' → job'.start = job.start → job.Same job' from
    h.2 job' hjob' hbeg
  refine Machine.Leads.rule (P := fun u : JobServer =>
    (∃ start, u.starts[job.start]? = some start ∧ start.phase ≠ .locking) ∧
      ∀ job', u.jobs.lookup op = some job' → job'.start = job.start → job.Same job') hleads ?_
    fun u action v hu ⟨⟨start, hlocked, hph⟩, hsame⟩ hstep => ?_
  · obtain ⟨start, hlocked, -, hph⟩ := (wired_of_reachable hreach.of_restrict).made hjob
    refine ⟨⟨start, hlocked, hph⟩, fun job' hjob' _ => ?_⟩
    cases hjob.symm.trans hjob'
    exact ⟨rfl, rfl, rfl, rfl, rfl⟩
  · have hlaw := jobLaw_of_step (hreach.leads hu) hstep op
    have hfree := (Machine.restrict_step_eq_some.1 hstep).2
    refine ⟨locked_kept hfree hlocked hph, fun new hnew hmine => ?_⟩
    generalize hold : u.jobs.lookup op = old at hlaw
    rw [hnew] at hlaw
    cases hlaw with
    | accept =>
      obtain ⟨start', hbeg', hlocking⟩ := locking_of_new hfree hold hnew
      rw [hmine, hlocked, some.injEq] at hbeg'
      exact absurd (hbeg' ▸ hlocking) hph
    | @keep job' _ hkept =>
      have hfst := hsame _ hold (hkept.start.symm.trans hmine)
      exact ⟨hmine, hkept.revision.trans hfst.revision, hkept.state.trans hfst.state,
        hkept.error.trans hfst.error, hkept.result.trans hfst.result⟩
    | @advance job' _ hown hnext =>
      have hfst := hsame _ hold (hown.symm.trans hmine)
      rw [hfst.state] at hnext
      rw [hnext.not_terminal] at hterm
      cases hterm

/-- Nothing that is under way has a step to take. -/
def Idle (s : JobServer) : Prop := ∀ action, action.internal → jobMachine.step s action = none

/-- **Once nothing is under way every record is terminal.** -/
theorem Idle.terminal (h : s.Idle) (hreach : orderlyJobs.Reachable s)
    (hjob : s.jobs.lookup op = some job) : job.state.terminal := by
  have hwired := wired_of_reachable hreach.of_restrict
  by_contra hopen
  rw [Bool.not_eq_true] at hopen
  cases (settles_of_reachable hreach).owned hjob hopen with
  | start hwaits =>
    obtain ⟨start, hbeg, hph⟩ := hwaits
    have hnone := h (.start job.start) rfl
    simp only [jobMachine, stepStart, hbeg, bind_some] at hnone
    obtain hph | hph := hph <;> rw [hph] at hnone <;> cases hnone
  | @task t task htask hmine hfree hlive =>
    have hadvance := h (.task t .advance) rfl
    have hsuspend := h (.task t .suspend) rfl
    simp only [jobMachine, stepTask, htask, bind_some] at hadvance hsuspend
    cases hph : task.phase with
    | spawned | starting | started | awaiting =>
      rw [hph] at hadvance
      cases hadvance
    | calling =>
      rw [hph] at hsuspend
      cases hsuspend
    | finishing outcome =>
      rw [hph] at hadvance
      cases outcome <;> cases hadvance
    | _ =>
      rw [hph] at hlive
      cases hlive
  | @cancel c t cancel task hcan hpend hhan htask hmine =>
    have hnone := h (.cancel c) rfl
    obtain ⟨op', hid, -⟩ := hwired.taken hcan hhan
    simp only [jobMachine, stepCancel, hcan, bind_some] at hnone
    cases hph : cancel.phase with
    | aborting k =>
      have hk := (hwired.handled hcan).aborting hph
      cases hhan.symm.trans hk
      rw [hph] at hnone
      simp only [htask, bind_some] at hnone
      cases hnone
    | updating =>
      rw [hph, hid] at hnone
      cases hnone
    | _ =>
      rw [hph] at hpend
      cases hpend

/-- **Jobs settle once.** In every orderly run each step does to each
record what the law allows, from accepted to running and from there to
one terminal state, with a greater revision; a record that is terminal
stays as it is until it is evicted; and once nothing is under way every
record is terminal. -/
theorem job_settles_once {s : JobServer} (hreach : orderlyJobs.Reachable s) :
    (∀ action s', orderlyJobs.step s action = some s' →
      ∀ op, JobLaw (s.jobs.lookup op) (s'.jobs.lookup op)) ∧
    (∀ t op job job', orderlyJobs.Leads s t → s.jobs.lookup op = some job → job.state.terminal →
      t.jobs.lookup op = some job' → job'.start = job.start → job.Same job') ∧
    (s.Idle → ∀ op job, s.jobs.lookup op = some job → job.state.terminal) :=
  ⟨fun _ _ hstep op => jobLaw_of_step hreach hstep op,
    fun _ _ _ _ hleads hjob hterminal hjob' hstart =>
      same_of_terminal hreach hleads hjob hterminal hjob' hstart,
    fun hidle _ _ hjob => hidle.terminal hreach hjob⟩

/-! ## A cancel and a completion -/

/-- A `job-start` with the operation `op`. -/
def exampleStart : JobAction :=
  .startJob "remux/codex/files" (.object [("remuxContract", .object
    [("kind", .string "job-start"), ("operationId", .string "op")])])

/-- The job runs, and its handler suspends. -/
def exampleRunning : List JobAction :=
  exampleStart :: List.replicate 4 (JobAction.start 0) ++
    [JobAction.task 0 .advance, .task 0 .advance, .task 0 .advance, .task 0 .suspend]

/-- A cancel of the job takes the handle. -/
def exampleTaken : List JobAction :=
  [.cancelJob (some (.object [("operationId", .string "op")])), .cancel 0]

/-- A job that is canceled while it runs. -/
theorem job_settles_once_example : ∃ s, orderlyJobs.exec (exampleRunning ++ exampleTaken ++
    [.cancel 0, .cancel 0, .cancel 0, .task 0 .advance]) orderlyJobs.init = some s ∧
      (s.jobs.lookup "op").map (·.state) = some .canceled ∧
      ∀ action s', orderlyJobs.step s action = some s' →
        ∀ op, JobLaw (s.jobs.lookup op) (s'.jobs.lookup op) := by
  have hrun : (orderlyJobs.exec (exampleRunning ++ exampleTaken ++
    [.cancel 0, .cancel 0, .cancel 0, .task 0 .advance]) orderlyJobs.init).isSome := rfl
  exact ⟨_, (Option.some_get hrun).symm, rfl, (job_settles_once ⟨_, (Option.some_get hrun).symm⟩).1⟩

/-- The handler returns after the cancel has taken the handle, and its
outcome is written before the cancel's. -/
def exampleCompleted : List JobAction :=
  exampleRunning ++ [JobAction.task 0 .advance] ++ exampleTaken ++
    [JobAction.task 0 (.answer (.result (.bool true))), .task 0 .advance]

/-- **A completed job can become canceled**, and lose its result. -/
theorem canceled_over_completed : ∃ s t, jobMachine.exec exampleCompleted jobMachine.init = some s ∧
    jobMachine.exec [.cancel 0, .cancel 0] s = some t ∧
    (s.jobs.lookup "op").map (fun job => (job.state, job.result.isSome)) = some (.completed, true) ∧
    (t.jobs.lookup "op").map (fun job => (job.state, job.result.isSome)) =
      some (.canceled, false) := by
  have hrun : (jobMachine.exec exampleCompleted jobMachine.init).isSome := rfl
  exact ⟨_, _, (Option.some_get hrun).symm, rfl, rfl, rfl⟩

end JobServer

end Remux
