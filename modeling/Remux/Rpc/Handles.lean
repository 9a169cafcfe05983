import Remux.Rpc.JobSteps

/-!
# Abort handles

In every run an abort handle is stored by the start that spawned its
task, in a record of the task's operation, and is taken at most once
(`Wired`).
-/

namespace Remux

namespace JobServer

open Assoc Option

/-! ## Handles, in every run -/

/-- A cancel has taken the task's abort handle. -/
def Taken (s : JobServer) (t : ℕ) : Prop := ∃ cancel ∈ s.cancels, cancel.handle = some t

instance (s : JobServer) (t : ℕ) : Decidable (s.Taken t) :=
  inferInstanceAs (Decidable (∃ cancel ∈ s.cancels, cancel.handle = some t))

/-- The start that spawned the task has stored its abort handle. -/
def Stored (s : JobServer) (t : ℕ) (operationId : String) : Prop :=
  ∃ (task : JobTask) (start : JobStart), s.tasks[t]? = some task ∧
    task.operationId = operationId ∧ s.starts[task.start]? = some start ∧ start.phase = .over

/-- A cancel has a handle exactly where its phase needs one. -/
structure Handled (cancel : JobCancel) : Prop where
  locking : cancel.phase = .locking → cancel.handle = none
  aborting : ∀ {t : ℕ}, cancel.phase = .aborting t → cancel.handle = some t
  updating : cancel.phase = .updating → cancel.handle.isSome

/-- **The invariant of the handles.** -/
structure Wired (s : JobServer) : Prop where
  made : ∀ {op : String} {job : JobState}, s.jobs.lookup op = some job →
    ∃ start, s.starts[job.start]? = some start ∧ start.operationId = op ∧ start.phase ≠ .locking
  early : ∀ {i t : ℕ} {start : JobStart} {task : JobTask}, s.starts[i]? = some start →
    start.phase ∈ [.locking, .announcing, .spawning] → s.tasks[t]? = some task → task.start ≠ i
  spawned : ∀ {t : ℕ} {task : JobTask}, s.tasks[t]? = some task →
    ∃ start, s.starts[task.start]? = some start ∧ start.operationId = task.operationId
  unique : ∀ {t t' : ℕ} {task task' : JobTask}, s.tasks[t]? = some task →
    s.tasks[t']? = some task' → task.start = task'.start → t = t'
  storing : ∀ {i t : ℕ} {start : JobStart}, s.starts[i]? = some start →
    start.phase = .storing t → ∃ task, s.tasks[t]? = some task ∧ task.start = i
  handled : ∀ {c : ℕ} {cancel : JobCancel}, s.cancels[c]? = some cancel → Handled cancel
  taken : ∀ {c t : ℕ} {cancel : JobCancel}, s.cancels[c]? = some cancel →
    cancel.handle = some t → ∃ op, cancel.operationId = some op ∧ s.Stored t op
  single : ∀ {c c' t : ℕ} {cancel cancel' : JobCancel}, s.cancels[c]? = some cancel →
    s.cancels[c']? = some cancel' → cancel.handle = some t → cancel'.handle = some t → c = c'
  abort : ∀ {op : String} {job : JobState} {t : ℕ}, s.jobs.lookup op = some job →
    job.abort = some t → ¬s.Taken t ∧ s.Stored t op
  aborted : ∀ {t : ℕ} {task : JobTask}, s.tasks[t]? = some task → task.aborted → s.Taken t

variable {s s' : JobServer} {t c : ℕ} {cancel : JobCancel} {op : String} {job : JobState}

/-- A handle was taken by a cancellation. -/
theorem taken_iff : s.Taken t ↔ ∃ (c : ℕ) (cancel : JobCancel), s.cancels[c]? = some cancel ∧
      cancel.handle = some t := by
  constructor
  · rintro ⟨cancel, hmem, hhan⟩
    obtain ⟨c, hc⟩ := List.mem_iff_getElem?.1 hmem
    exact ⟨c, cancel, hc, hhan⟩
  · rintro ⟨c, cancel, hc, hhan⟩
    exact ⟨cancel, List.mem_of_getElem? hc, hhan⟩

/-- The tasks are the same but for their phases and their marks. -/
structure TasksKept (tasks tasks' : List JobTask) : Prop where
  back : ∀ {t : ℕ} {task' : JobTask}, tasks'[t]? = some task' →
    ∃ task, tasks[t]? = some task ∧ task'.start = task.start ∧
      task'.operationId = task.operationId
  forth : ∀ {t : ℕ} {task : JobTask}, tasks[t]? = some task →
    ∃ task', tasks'[t]? = some task' ∧ task'.start = task.start ∧
      task'.operationId = task.operationId

theorem TasksKept.refl (tasks : List JobTask) : TasksKept tasks tasks :=
  ⟨fun h => ⟨_, h, rfl, rfl⟩, fun h => ⟨_, h, rfl, rfl⟩⟩

/-- A task set in its place keeps the tasks. -/
theorem TasksKept.set {tasks : List JobTask} {task task' : JobTask} (htask : tasks[t]? = some task)
    (hbeg : task'.start = task.start) (hid : task'.operationId = task.operationId) :
    TasksKept tasks (tasks.set t task') := by
  constructor
  · intro k new hk
    rw [getElem?_set_of_eq_some htask] at hk
    split at hk
    · next heq =>
      cases hk
      exact ⟨task, heq ▸ htask, hbeg, hid⟩
    · exact ⟨new, hk, rfl, rfl⟩
  · intro k old hk
    rw [getElem?_set_of_eq_some htask]
    split
    · next heq =>
      rw [heq, htask, some.injEq] at hk
      subst hk
      exact ⟨task', rfl, hbeg, hid⟩
    · exact ⟨old, hk, rfl, rfl⟩

/-- **Steps that leave the starts alone** keep the invariant, if the
cancels hold only handles that were stored, each once, and the records
only handles that are still free. -/
theorem Wired.of_kept (h : s.Wired) (hsts : s'.starts = s.starts)
    (htasks : TasksKept s.tasks s'.tasks)
    (hjobs : ∀ op job', s'.jobs.lookup op = some job' → ∃ job, s.jobs.lookup op = some job ∧
      job'.start = job.start ∧ ∀ t, job'.abort = some t → job.abort = some t ∧ ¬s'.Taken t)
    (hhandled : ∀ (c : ℕ) cancel, s'.cancels[c]? = some cancel → Handled cancel)
    (htaken : ∀ (c t : ℕ) (cancel : JobCancel), s'.cancels[c]? = some cancel →
      cancel.handle = some t → ∃ op, cancel.operationId = some op ∧ s.Stored t op)
    (hsingle : ∀ (c c' t : ℕ) (cancel cancel' : JobCancel), s'.cancels[c]? = some cancel →
      s'.cancels[c']? = some cancel' → cancel.handle = some t → cancel'.handle = some t → c = c')
    (haborted : ∀ (t : ℕ) (task : JobTask), s'.tasks[t]? = some task → task.aborted → s'.Taken t) :
    s'.Wired := by
  have hstore : ∀ {t : ℕ} {op : String}, s.Stored t op → s'.Stored t op := by
    rintro t op ⟨task, start, htask, hop, hbeg, hover⟩
    obtain ⟨task', htask', hsame, hid⟩ := htasks.forth htask
    exact ⟨task', start, htask', hid.trans hop, by rw [hsts, hsame, hbeg], hover⟩
  constructor
  · intro op job' hjob'
    obtain ⟨job, hjob, hbeg, -⟩ := hjobs op job' hjob'
    rw [hsts, hbeg]
    exact h.made hjob
  · intro i t start task' hi hph ht
    obtain ⟨task, htask, hsame, -⟩ := htasks.back ht
    rw [hsame]
    exact h.early (hsts ▸ hi) hph htask
  · intro t task' ht
    obtain ⟨task, htask, hsame, hid⟩ := htasks.back ht
    rw [hsts, hsame, hid]
    exact h.spawned htask
  · intro t t' task task' ht ht' heq
    obtain ⟨old, hold, hsame, -⟩ := htasks.back ht
    obtain ⟨old', hold', hsame', -⟩ := htasks.back ht'
    exact h.unique hold hold' (by rw [← hsame, heq, hsame'])
  · intro i t start hi hph
    obtain ⟨task, htask, hbeg⟩ := h.storing (hsts ▸ hi) hph
    obtain ⟨task', htask', hsame, -⟩ := htasks.forth htask
    exact ⟨task', htask', hsame.trans hbeg⟩
  · exact fun {_ _} hc => hhandled _ _ hc
  · intro c t cancel hc ht
    obtain ⟨op, hop, hst⟩ := htaken c t cancel hc ht
    exact ⟨op, hop, hstore hst⟩
  · exact fun {_ _ _ _ _} hc hc' ht ht' => hsingle _ _ _ _ _ hc hc' ht ht'
  · intro op job' t hjob' habort
    obtain ⟨job, hjob, -, hfree⟩ := hjobs op job' hjob'
    obtain ⟨hold, hnot⟩ := hfree t habort
    exact ⟨hnot, hstore (h.abort hjob hold).2⟩
  · exact fun {_ _} ht hmark => haborted _ _ ht hmark

variable {jobs : Assoc String JobState}

/-- A written record comes from a record of the same start. -/
theorem writeJob_back {opId op : String}
    {write : Option (JobStatus × Option String × Option Value)} {job' : JobState}
    (h : (writeJob jobs opId write).lookup op = some job') :
    ∃ job, jobs.lookup op = some job ∧ job'.start = job.start ∧
      ∀ t, job'.abort = some t → job.abort = some t := by
  cases write with
  | none => exact ⟨job', h, rfl, fun _ ht => ht⟩
  | some write =>
    obtain ⟨state, error, result⟩ := write
    rw [writeJob, lookup_modify_eq] at h
    split at h
    · next heq =>
      obtain ⟨job, hjob, rfl⟩ := map_eq_some_iff.1 h
      refine ⟨job, heq ▸ hjob, rfl, fun t ht => ?_⟩
      unfold JobState.update at ht
      split at ht
      · cases ht
      · exact ht
    · exact ⟨job', h, rfl, fun _ ht => ht⟩

/-- A step of a task keeps the handles, -/
theorem Wired.of_task (h : s.Wired) {turn : TaskTurn} (hstep : s.stepTask t turn = some s') :
    s'.Wired := by
  obtain ⟨task, phase, write, htask, -, hjobs, hsts, htasks, hcancels⟩ := stepTask_cases hstep
  have htaken : ∀ k, s'.Taken k ↔ s.Taken k := by
    intro k
    unfold Taken
    rw [hcancels]
  refine h.of_kept hsts (htasks ▸ TasksKept.set htask rfl rfl) ?_ ?_ ?_ ?_ ?_
  · intro op job' hjob'
    rw [hjobs] at hjob'
    obtain ⟨job, hjob, hbeg, habort⟩ := writeJob_back hjob'
    exact ⟨job, hjob, hbeg, fun k hk =>
      ⟨habort k hk, fun hk' => (h.abort hjob (habort k hk)).1 ((htaken k).1 hk')⟩⟩
  · rw [hcancels]
    exact fun _ _ hc => h.handled hc
  · rw [hcancels]
    exact fun _ _ _ hc => h.taken hc
  · rw [hcancels]
    exact fun _ _ _ _ _ hc => h.single hc
  · intro k new hk hmark
    rw [htasks, getElem?_set_of_eq_some htask] at hk
    rw [htaken]
    split at hk
    · next heq =>
      cases hk
      have hold : s.tasks[k]? = some task := by rw [heq, htask]
      exact h.aborted hold hmark
    · exact h.aborted hk hmark

/-- The cancels after one of them took a step. -/
theorem taken_of_set {cancel' : JobCancel} (hcan : s.cancels[c]? = some cancel)
    (hcancels : s'.cancels = s.cancels.set c cancel')
    (hkeep : ∀ t, cancel.handle = some t → cancel'.handle = some t) :
    s'.Taken t ↔ s.Taken t ∨ cancel'.handle = some t := by
  rw [taken_iff, taken_iff, hcancels]
  constructor
  · rintro ⟨k, other, hk, hhan⟩
    rw [getElem?_set_of_eq_some hcan] at hk
    split at hk
    · cases hk
      exact .inr hhan
    · exact .inl ⟨k, other, hk, hhan⟩
  · rintro (⟨k, other, hk, hhan⟩ | hhan)
    · by_cases heq : k = c
      · rw [heq, hcan, some.injEq] at hk
        subst hk
        exact ⟨c, cancel', by rw [getElem?_set_of_eq_some hcan, if_pos rfl], hkeep t hhan⟩
      · exact ⟨k, other, by rw [getElem?_set_of_eq_some hcan, if_neg heq, hk], hhan⟩
    · exact ⟨c, cancel', by rw [getElem?_set_of_eq_some hcan, if_pos rfl], hhan⟩

/-- a step of a cancellation keeps them, -/
theorem Wired.of_cancel (h : s.Wired) (hstep : s.stepCancel c = some s') : s'.Wired := by
  obtain ⟨cancel, jobs, tasks, phase, handle, reply, hcan, hmove, hjobs, htasks, hcancels,
    hsts⟩ := stepCancel_cases hstep
  have hold := h.handled hcan
  -- a handle that is new was free, and its record's own
  have hnew : handle = cancel.handle ∨ ∃ t op job, handle = some t ∧ cancel.handle = none ∧
      cancel.operationId = some op ∧ s.jobs.lookup op = some job ∧ job.abort = some t := by
    cases hmove with
    | take hph hid hjob habort =>
      exact .inr ⟨_, _, _, rfl, hold.locking hph, hid, hjob, habort⟩
    | abort | update | finish => exact .inl rfl
  have hkeep : ∀ t, cancel.handle = some t → handle = some t := by
    intro t ht
    obtain heq | ⟨-, -, -, -, hnone, -⟩ := hnew
    · rw [heq, ht]
    · rw [hnone] at ht
      cases ht
  have htakenIff : ∀ {t}, s'.Taken t ↔ s.Taken t ∨ handle = some t :=
    taken_of_set hcan hcancels hkeep
  have hcases : ∀ {k : ℕ} {other : JobCancel}, s'.cancels[k]? = some other →
      k = c ∧ other = { cancel with phase, handle, reply } ∨ s.cancels[k]? = some other := by
    intro k other hk
    rw [hcancels, getElem?_set_of_eq_some hcan] at hk
    split at hk
    · next heq => exact .inl ⟨heq, (some.inj hk).symm⟩
    · exact .inr hk
  -- only one cancel ever has a handle
  have hone : ∀ {t k : ℕ} {other : JobCancel}, handle = some t → s.cancels[k]? = some other →
      other.handle = some t → k = c := by
    intro t k other ht hk hother
    obtain heq | ⟨t', op, job, ht', -, -, hjob, habort⟩ := hnew
    · exact h.single hk hcan hother (by rw [← heq, ht])
    · cases ht'.symm.trans ht
      exact absurd (taken_iff.2 ⟨k, other, hk, hother⟩) (h.abort hjob habort).1
  refine h.of_kept hsts ?_ ?_ ?_ ?_ ?_ ?_
  · rw [htasks]
    cases hmove with
    | abort _ htask => exact TasksKept.set htask rfl rfl
    | take | update | finish => exact .refl _
  · intro op job' hjob'
    rw [hjobs] at hjob'
    have hunchanged : handle = cancel.handle → ∀ {k : ℕ}, s'.Taken k → s.Taken k := by
      intro heq k hk
      obtain hk | hk := htakenIff.1 hk
      · exact hk
      · exact taken_iff.2 ⟨c, cancel, hcan, heq ▸ hk⟩
    cases hmove with
    | @take op' job t hph hid hjob habort =>
      rw [lookup_modify_eq] at hjob'
      split at hjob'
      · next heq =>
        obtain ⟨old, hold', rfl⟩ := map_eq_some_iff.1 hjob'
        exact ⟨old, heq ▸ hold', rfl, fun k hk => by cases hk⟩
      · next hne =>
        refine ⟨job', hjob', rfl, fun k hk => ⟨hk, fun htaken => ?_⟩⟩
        obtain ⟨hnot, task, -, htask, hop, -⟩ := h.abort hjob' hk
        obtain htaken | htaken := htakenIff.1 htaken
        · exact hnot htaken
        · -- a handle belongs to one operation
          rw [some.injEq] at htaken
          subst htaken
          obtain ⟨-, task', -, htask', hop', -⟩ := h.abort hjob habort
          rw [htask, some.injEq] at htask'
          exact hne (by rw [← hop, htask', hop'])
    | abort | finish =>
      exact ⟨job', hjob', rfl, fun k hk =>
        ⟨hk, fun htaken => (h.abort hjob' hk).1 (hunchanged rfl htaken)⟩⟩
    | @update op' hph hid =>
      obtain ⟨old, hold', hbeg, habort⟩ :=
        @writeJob_back _ op' op (some (.canceled, none, none)) _ hjob'
      exact ⟨old, hold', hbeg, fun k hk =>
        ⟨habort k hk, fun htaken => (h.abort hold' (habort k hk)).1 (hunchanged rfl htaken)⟩⟩
  · intro k other hk
    obtain ⟨-, rfl⟩ | hk := hcases hk
    · cases hmove with
      | take => exact ⟨nofun, fun heq => by cases heq; rfl, nofun⟩
      | abort hph => exact ⟨nofun, nofun, fun _ => by rw [hold.aborting hph]; rfl⟩
      | update | finish => exact ⟨nofun, nofun, nofun⟩
    · exact h.handled hk
  · intro k t other hk ht
    obtain ⟨-, rfl⟩ | hk := hcases hk
    · obtain heq | ⟨t', op, job, ht', -, hid, hjob, habort⟩ := hnew
      · have hsame := h.taken hcan (by rw [← heq]; exact ht)
        exact hsame
      · rw [show handle = some t from ht, some.injEq] at ht'
        exact ⟨op, hid, ht' ▸ (h.abort hjob habort).2⟩
    · exact h.taken hk ht
  · intro k k' t other other' hk hk' ht ht'
    obtain ⟨rfl, rfl⟩ | hk := hcases hk
    · obtain ⟨rfl, rfl⟩ | hk' := hcases hk'
      · rfl
      · exact (hone ht hk' ht').symm
    · obtain ⟨rfl, rfl⟩ | hk' := hcases hk'
      · exact hone ht' hk ht
      · exact h.single hk hk' ht ht'
  · intro k task hk hmark
    rw [htasks] at hk
    rw [htakenIff]
    cases hmove with
    | take | update | finish => exact .inl (h.aborted hk hmark)
    | abort hph htask =>
      rw [getElem?_set_of_eq_some htask] at hk
      split at hk
      · next heq => exact .inr (by rw [heq]; exact hold.aborting hph)
      · exact .inl (h.aborted hk hmark)

/-- Eviction removes at most one record, and a terminal one. -/
theorem lookup_evictTerminal {op : String} :
    (evictTerminal jobs).lookup op = jobs.lookup op ∨ (evictTerminal jobs).lookup op = none ∧
      ∃ job, jobs.lookup op = some job ∧ job.state.terminal := by
  unfold evictTerminal
  split
  · split
    · next entry hent =>
      have hterm := List.find?_some hent
      have hmem := mem_entries_iff.1 (List.mem_of_find?_eq_some hent)
      rw [lookup_erase_eq]
      split
      · next heq => exact .inr ⟨rfl, entry.2, heq ▸ hmem, hterm⟩
      · exact .inl rfl
    · exact .inl rfl
  · exact .inl rfl

theorem lookup_of_evictTerminal
    (h : (evictTerminal jobs).lookup op = some job) : jobs.lookup op = some job := by
  obtain heq | ⟨hnone, -⟩ := @lookup_evictTerminal jobs op
  · rw [← heq, h]
  · rw [hnone] at h
    cases h

namespace StartMove

variable {s : JobServer} {i : ℕ} {start : JobStart} {jobs : Assoc String JobState}
  {phase : StartPhase} {tasks : List JobTask}

theorem phase_ne (h : StartMove s i start jobs phase tasks) :
    start.phase ≠ .over ∧ phase ≠ .locking := by
  cases h with
  | known hph | refuse hph | accept hph | announce hph | spawn hph
  | store hph =>
    rw [hph]
    exact ⟨nofun, nofun⟩

variable {t : ℕ} {task : JobTask}

variable (h : StartMove s i start jobs phase tasks)
include h

theorem tasks_back (ht : tasks[t]? = some task) :
    s.tasks[t]? = some task ∨ t = s.tasks.length ∧ task = ⟨i, start.operationId, .spawned, false⟩ ∧
        start.phase = .spawning ∧ phase = .storing t := by
  cases h with
  | spawn hph =>
    obtain ht | ⟨rfl, rfl⟩ := getElem?_concat_eq_some.1 ht
    · exact .inl ht
    · exact .inr ⟨rfl, rfl, hph, rfl⟩
  | known | refuse | accept | announce | store => exact .inl ht

theorem tasks_forth (ht : s.tasks[t]? = some task) : tasks[t]? = some task := by
  cases h with
  | spawn => exact getElem?_concat_eq_some.2 (.inl ht)
  | known | refuse | accept | announce | store => exact ht

theorem early_back (hph : phase ∈ [.locking, .announcing, .spawning]) :
    start.phase ∈ [.locking, .announcing, .spawning] := by
  cases h with
  | known | refuse | spawn | store => simp at hph
  | accept hlocking => simp [hlocking]
  | announce hann => simp [hann]

theorem tasks_of_storing (hph : phase = .storing t) :
    tasks[t]? = some ⟨i, start.operationId, .spawned, false⟩ := by
  cases h with
  | spawn =>
    obtain rfl := StartPhase.storing.inj hph
    exact getElem?_concat_eq_some.2 (.inr ⟨rfl, rfl⟩)
  | known | refuse | accept | announce | store => cases hph

/-- Where the records after a step come from. -/
theorem jobs_back {op : String} {job' : JobState} (hjob : jobs.lookup op = some job') :
    s.jobs.lookup op = some job' ∨
    (op = start.operationId ∧ start.phase = .locking ∧ phase = .announcing ∧
      s.jobs.lookup op = none ∧ job'.revision = 1 ∧ job'.state = .accepted ∧
      job'.abort = none ∧ job'.start = i) ∨
    ∃ t job, op = start.operationId ∧ start.phase = .storing t ∧ phase = .over ∧
      s.jobs.lookup op = some job ∧ job.state.terminal = false ∧
      job' = { job with abort := some t } := by
  cases h with
  | known | announce | spawn => exact .inl hjob
  | refuse => exact .inl (lookup_of_evictTerminal hjob)
  | accept hph hnone hnew =>
    rw [lookup_insert_eq] at hjob
    split at hjob
    · next heq =>
      cases hjob
      exact .inr (.inl ⟨heq, hph, rfl, heq ▸ hnone, hnew⟩)
    · exact .inl (lookup_of_evictTerminal hjob)
  | @store t hph =>
    rw [lookup_modify_eq] at hjob
    split at hjob
    · next heq =>
      obtain ⟨job, hold, rfl⟩ := map_eq_some_iff.1 hjob
      cases hterm : job.state.terminal with
      | true => exact .inl (by rw [heq, hold, if_pos rfl])
      | false =>
        exact .inr (.inr ⟨t, job, heq, hph, rfl, heq ▸ hold, hterm, if_neg nofun⟩)
    · exact .inl hjob

omit h

end StartMove

/-- and so does a step of a start. -/
theorem Wired.of_start (h : s.Wired) {i : ℕ} (hstep : s.stepStart i = some s') : s'.Wired := by
  obtain ⟨start, jobs, phase, tasks, reply, hbeg, hmove, rfl, rfl, hsts, hcancels⟩ :=
    stepStart_cases hstep
  obtain ⟨hnot_over, hnot_locking⟩ := hmove.phase_ne
  have htaken : ∀ {t}, s'.Taken t ↔ s.Taken t := by
    intro t
    unfold Taken
    rw [hcancels]
  have hself : s'.starts[i]? = some { start with phase, reply } := by
    rw [hsts, getElem?_set_of_eq_some hbeg, if_pos rfl]
  have hne : ∀ {k : ℕ}, k ≠ i → s'.starts[k]? = s.starts[k]? := by
    intro k hk
    rw [hsts, getElem?_set_of_eq_some hbeg, if_neg hk]
  have hforth : ∀ {k : ℕ} {st : JobStart}, s.starts[k]? = some st →
      ∃ st', s'.starts[k]? = some st' ∧ st'.operationId = st.operationId ∧
        (st.phase ≠ .locking → st'.phase ≠ .locking) ∧ (st.phase = .over → st'.phase = .over) := by
    intro k st hk
    by_cases heq : k = i
    · subst heq
      cases hbeg.symm.trans hk
      exact ⟨_, hself, rfl, fun _ => hnot_locking, fun hover => absurd hover hnot_over⟩
    · exact ⟨st, by rw [hne heq, hk], rfl, id, id⟩
  have hstore : ∀ {t : ℕ} {op : String}, s.Stored t op → s'.Stored t op := by
    rintro t op ⟨task, st, htask, hop, hst, hover⟩
    obtain ⟨st', hst', -, -, hover'⟩ := hforth hst
    exact ⟨task, st', hmove.tasks_forth htask, hop, hst', hover' hover⟩
  constructor
  · intro op job' hjob'
    obtain hjob | ⟨hop, -, -, -, -, -, -, hi⟩ | ⟨t, job, -, -, -, hjob, -, rfl⟩ :=
      hmove.jobs_back hjob'
    · obtain ⟨st, hst, hid, hph⟩ := h.made hjob
      obtain ⟨st', hst', hid', hph', -⟩ := hforth hst
      exact ⟨st', hst', hid'.trans hid, hph' hph⟩
    · exact ⟨{ start with phase, reply }, by rw [hi]; exact hself, hop.symm, hnot_locking⟩
    · obtain ⟨st, hst, hid, hph⟩ := h.made hjob
      obtain ⟨st', hst', hid', hph', -⟩ := hforth hst
      exact ⟨st', hst', hid'.trans hid, hph' hph⟩
  · intro k t st task hk hph ht heq
    by_cases hki : k = i
    · subst hki
      cases hself.symm.trans hk
      obtain ht | ⟨-, -, -, hstoring⟩ := hmove.tasks_back ht
      · exact h.early hbeg (hmove.early_back hph) ht heq
      · rw [show phase = .storing t from hstoring] at hph
        simp at hph
    · rw [hne hki] at hk
      obtain ht | ⟨-, rfl, -, -⟩ := hmove.tasks_back ht
      · exact h.early hk hph ht heq
      · exact hki heq.symm
  · intro t task ht
    obtain ht | ⟨-, rfl, -, -⟩ := hmove.tasks_back ht
    · obtain ⟨st, hst, hid⟩ := h.spawned ht
      obtain ⟨st', hst', hid', -⟩ := hforth hst
      exact ⟨st', hst', hid'.trans hid⟩
    · exact ⟨_, hself, rfl⟩
  · intro t t' task task' ht ht' heq
    -- before a start spawns its task there is none
    have hfst : ∀ {k : ℕ} {old : JobTask}, start.phase = .spawning →
        s.tasks[k]? = some old → old.start ≠ i :=
      fun hspawning hk => h.early hbeg (by rw [hspawning]; simp) hk
    obtain ht | ⟨rfl, rfl, hspawning, -⟩ := hmove.tasks_back ht
    · obtain ht' | ⟨rfl, rfl, hspawning, -⟩ := hmove.tasks_back ht'
      · exact h.unique ht ht' heq
      · exact absurd heq (hfst hspawning ht)
    · obtain ht' | ⟨rfl, rfl, -, -⟩ := hmove.tasks_back ht'
      · exact absurd heq.symm (hfst hspawning ht')
      · rfl
  · intro k t st hk hph
    by_cases hki : k = i
    · subst hki
      cases hself.symm.trans hk
      exact ⟨_, hmove.tasks_of_storing hph, rfl⟩
    · rw [hne hki] at hk
      obtain ⟨task, htask, hst⟩ := h.storing hk hph
      exact ⟨task, hmove.tasks_forth htask, hst⟩
  · rw [hcancels]
    exact fun {_ _} hc => h.handled hc
  · rw [hcancels]
    intro c t cancel hc ht
    obtain ⟨op, hid, hst⟩ := h.taken hc ht
    exact ⟨op, hid, hstore hst⟩
  · rw [hcancels]
    exact fun {_ _ _ _ _} hc => h.single hc
  · intro op job' t hjob' habort
    rw [htaken]
    obtain hjob | ⟨-, -, -, -, -, -, hnone, -⟩ | ⟨t', job, rfl, hstoring, rfl, hjob, -, rfl⟩ :=
      hmove.jobs_back hjob'
    · obtain ⟨hnot, hst⟩ := h.abort hjob habort
      exact ⟨hnot, hstore hst⟩
    · rw [hnone] at habort
      cases habort
    · cases habort
      obtain ⟨task, htask, rfl⟩ := h.storing hbeg hstoring
      constructor
      · intro hmem
        obtain ⟨c, cancel, hc, hhan⟩ := taken_iff.1 hmem
        obtain ⟨-, -, task', st, htask', -, hst, hover⟩ := h.taken hc hhan
        cases htask.symm.trans htask'
        rw [hbeg, some.injEq] at hst
        exact hnot_over (hst ▸ hover)
      · obtain ⟨st, hst, hid⟩ := h.spawned htask
        rw [hbeg, some.injEq] at hst
        exact ⟨task, _, hmove.tasks_forth htask, by rw [← hid, hst], hself, rfl⟩
  · intro t task ht hmark
    rw [htaken]
    obtain ht | ⟨-, rfl, -, -⟩ := hmove.tasks_back ht
    · exact h.aborted ht hmark
    · cases hmark

/-- A start that has just come. -/
theorem Wired.of_startJob (h : s.Wired) {start : JobStart}
    (hph : start.phase = .locking ∨ start.phase = .over) :
    ({ s with starts := s.starts ++ [start] } : JobServer).Wired := by
  have hold : ∀ {i : ℕ} {st : JobStart}, s.starts[i]? = some st →
      (s.starts ++ [start])[i]? = some st := fun hi => getElem?_concat_eq_some.2 (.inl hi)
  have hstore : ∀ {t : ℕ} {op : String}, s.Stored t op →
      ({ s with starts := s.starts ++ [start] } : JobServer).Stored t op := by
    rintro t op ⟨task, st, htask, hop, hst, hover⟩
    exact ⟨task, st, htask, hop, hold hst, hover⟩
  refine ⟨?_, ?_, ?_, h.unique, ?_, h.handled, ?_, h.single, ?_, h.aborted⟩
  · intro op job hjob
    obtain ⟨st, hst, hrest⟩ := h.made hjob
    exact ⟨st, hold hst, hrest⟩
  · intro i t st task hi hearly ht heq
    obtain hi | ⟨rfl, -⟩ := getElem?_concat_eq_some.1 hi
    · exact h.early hi hearly ht heq
    · obtain ⟨st', hst', -⟩ := h.spawned ht
      have := (List.getElem?_eq_some_iff.1 hst').1
      omega
  · intro t task ht
    obtain ⟨st, hst, hid⟩ := h.spawned ht
    exact ⟨st, hold hst, hid⟩
  · intro i t st hi hstoring
    obtain hi | ⟨-, rfl⟩ := getElem?_concat_eq_some.1 hi
    · exact h.storing hi hstoring
    · obtain hph | hph := hph <;> rw [hph] at hstoring <;> cases hstoring
  · intro c t cancel hc ht
    obtain ⟨op, hid, hst⟩ := h.taken hc ht
    exact ⟨op, hid, hstore hst⟩
  · intro op job t hjob habort
    obtain ⟨hnot, hst⟩ := h.abort hjob habort
    exact ⟨hnot, hstore hst⟩

theorem taken_concat (hnone : cancel.handle = none) :
    ({ s with cancels := s.cancels ++ [cancel] } : JobServer).Taken t ↔ s.Taken t := by
  unfold Taken
  simp [hnone]

/-- A cancel that has just come. -/
theorem Wired.of_cancelJob (h : s.Wired) (opId : Option String) :
    ({ s with cancels := s.cancels ++ [⟨opId, .locking, none, none⟩] } : JobServer).Wired := by
  refine h.of_kept rfl (.refl _) ?_ ?_ ?_ ?_ ?_
  · intro op job hjob
    refine ⟨job, hjob, rfl, fun t ht => ⟨ht, ?_⟩⟩
    rw [taken_concat rfl]
    exact (h.abort hjob ht).1
  · intro c cancel hc
    obtain hc | ⟨-, rfl⟩ := getElem?_concat_eq_some.1 hc
    · exact h.handled hc
    · exact ⟨fun _ => rfl, nofun, nofun⟩
  · intro c t cancel hc ht
    obtain hc | ⟨-, rfl⟩ := getElem?_concat_eq_some.1 hc
    · exact h.taken hc ht
    · cases ht
  · intro c c' t cancel cancel' hc hc' ht ht'
    obtain hc | ⟨-, rfl⟩ := getElem?_concat_eq_some.1 hc
    · obtain hc' | ⟨-, rfl⟩ := getElem?_concat_eq_some.1 hc'
      · exact h.single hc hc' ht ht'
      · cases ht'
    · cases ht
  · intro t task ht hmark
    rw [taken_concat rfl]
    exact h.aborted ht hmark

/-- Another order of iteration changes no lookup. -/
theorem lookup_rehash {jobs : Assoc String JobState} (h : jobs.lookup op = some job)
    (op' : String) :

    AList.lookup op' (jobs.insert op job) = jobs.lookup op' := by
  rw [lookup_insert_eq]
  split
  · next heq => rw [heq, h]
  · rfl

theorem wired_init : jobMachine.init.Wired := by
  constructor <;> simp [jobMachine]

/-- **The invariant of the handles holds in every run.** -/
theorem Wired.of_step (h : s.Wired) {action : JobAction}
    (hstep : jobMachine.step s action = some s') : s'.Wired := by
  cases action with
  | startJob method msg =>
    cases hstep
    refine h.of_startJob ?_
    split
    · exact .inl rfl
    · exact .inr rfl
  | cancelJob params =>
    cases hstep
    exact h.of_cancelJob _
  | start i => exact h.of_start hstep
  | task t turn => exact h.of_task hstep
  | cancel c => exact h.of_cancel hstep
  | rehash op =>
    obtain ⟨job, hjob, rfl⟩ := map_eq_some_iff.1 hstep
    refine h.of_kept rfl (.refl _) ?_ (fun _ _ hc => h.handled hc) (fun _ _ _ hc => h.taken hc)
      (fun _ _ _ _ _ hc => h.single hc) (fun _ _ ht => h.aborted ht)
    intro op' job' hjob'
    rw [lookup_rehash hjob] at hjob'
    exact ⟨job', hjob', rfl, fun t ht => ⟨ht, (h.abort hjob' ht).1⟩⟩

theorem wired_of_reachable (h : jobMachine.Reachable s) : s.Wired :=
  h.rule wired_init fun _ _ _ _ hinv hstep => hinv.of_step hstep

end JobServer

end Remux
