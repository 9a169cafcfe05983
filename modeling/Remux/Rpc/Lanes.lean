import Remux.Rpc.Steps
import Std.Data.String.ToNat

/-!
# The lanes

A job is in the channel of its lane exactly while it is queued, a lane's
task holds a job of the lane, and the permits given out are held by jobs
that execute (`LaneInv`).
-/

namespace Remux

open List hiding getElem?_eq_some_iff
open Phase Option Function

theorem toList_connectionLane (c : ℕ) :
    (connectionLane c).toList = "control:connection:".toList ++ c.repr.toList :=
  String.toList_append

theorem connectionLane_inj {c c' : ℕ} (h : connectionLane c = connectionLane c') : c = c' := by
  have := congrArg String.toList h
  rw [toList_connectionLane, toList_connectionLane, append_cancel_left_eq] at this
  exact Nat.repr_injective (String.toList_inj.1 this)

section

variable {floatText : Double → List Char}

/-! ## The step of a job, for the lanes -/

/-- **What a step of a job does to the lanes and the permits.** -/
inductive LaneStep (j : ℕ) (job : DispatchJob) (lanes : Assoc String Lane)
    (permits : DispatchMode → ℕ) :
    DispatchJob → Assoc String Lane → (DispatchMode → ℕ) → Prop where
  /-- The lanes are left alone, in the reader or in execution. -/
  | keep {phase : Phase} {notified : Bool}
    (hphase : job.phase.inReader ∧ phase.inReader ∧ phase ≠ .routed ∨
      job.phase.inReader ∧ phase.late ∨ job.phase.late ∧ phase.late) :
    LaneStep j job lanes permits { job with phase, notified } lanes permits
  | giveUp (hphase : job.phase = .leaving) (hdispatched : job.dispatched = false) :
    LaneStep j job lanes permits { job with phase := .done } lanes permits
  | route {lanes' : Assoc String Lane} (hphase : job.phase = .registered)
    (hsender : dispatchSender lanes job.lane.1 job.lane.2 = some lanes') :
    LaneStep j job lanes permits { job with phase := .routed } lanes' permits
  | send {lane : Lane} (hphase : job.phase = .routed)
    (hlane : lanes.lookup job.laneKey = some lane) (hroom : lane.queue.length < lane.capacity) :
    LaneStep j job lanes permits { job with phase := .queued, dispatched := true }
      (lanes.insert job.laneKey { lane with queue := lane.queue ++ [j] }) permits
  | acquire {lane : Lane} (hphase : job.phase = .held)
    (hlane : lanes.lookup job.laneKey = some lane) (hpermit : permits lane.mode > 0) :
    LaneStep j job lanes permits { job with phase := .waiting }
      (lanes.insert job.laneKey { lane with current := none })
      (Function.update permits lane.mode (permits lane.mode - 1))
  | serve {lane : Lane} (hphase : job.phase = .leaving) (hdispatched : job.dispatched)
    (hlane : lanes.lookup job.laneKey = some lane) (hmode : lane.mode = .serial) :
    LaneStep j job lanes permits { job with phase := .done }
      (lanes.insert job.laneKey { lane with current := none }) permits
  | release {lane : Lane} (hphase : job.phase = .leaving) (hdispatched : job.dispatched)
    (hlane : lanes.lookup job.laneKey = some lane) (hmode : lane.mode ≠ .serial) :
    LaneStep j job lanes permits { job with phase := .done } lanes
      (Function.update permits lane.mode (permits lane.mode + 1))

/-- What a step of a job does to the lanes. -/
theorem laneStep_of_jobStep {j : ℕ} {turn : Turn} {job : DispatchJob} {client : WsClient}
    {lanes : Assoc String Lane} {permits : DispatchMode → ℕ} {moved : Moved}
    (h : jobStep floatText j turn job client lanes permits = some moved) :
    LaneStep j job lanes permits moved.job moved.lanes moved.permits := by
  have haft : job.afterExecution.late := by
    unfold DispatchJob.afterExecution
    split <;> rfl
  unfold jobStep at h
  split at h
  · -- received
    next hph _ =>
    split at h <;> cases h
    · exact .keep (.inl ⟨by rw [hph]; rfl, rfl, by simp⟩)
    · exact .keep (.inr (.inl ⟨by rw [hph]; rfl, haft⟩))
  · -- counted
    next hph _ =>
    dsimp only at h
    split at h <;> cases h
    · exact .keep (.inl ⟨by rw [hph]; rfl, rfl, by simp⟩)
    · exact .keep (.inr (.inl ⟨by rw [hph]; rfl, haft⟩))
  · -- registered
    next hph =>
    split at h
    · next hsender =>
      cases h
      exact .route hph hsender
    · cases h
      exact .keep (.inl ⟨by rw [hph]; rfl, rfl, by simp⟩)
  · -- routed
    next hph =>
    split at h
    · next lane hlane =>
      split at h
      · next hroom =>
        cases h
        exact .send hph hlane hroom
      · cases h
        exact .keep (.inl ⟨by rw [hph]; rfl, rfl, by simp⟩)
    · cases h
  · -- refused, a note
    next hph _ =>
    cases h
    exact .keep (.inr (.inl ⟨by rw [hph]; rfl, rfl⟩))
  · -- refused, a request
    next hph _ =>
    cases h
    exact .keep (.inr (.inl ⟨by rw [hph]; rfl, haft⟩))
  · -- held
    next hph =>
    split at h
    · next lane hlane =>
      obtain ⟨hpermit, ⟨⟩⟩ := ite_none_right_eq_some.1 h
      exact .acquire hph hlane hpermit
    · cases h
  · -- waiting
    next hph =>
    cases (ite_none_right_eq_some.1 h).2
    exact .keep (.inr (.inr ⟨by rw [hph]; rfl, rfl⟩))
  · -- passed, a note
    next hph _ =>
    cases h
    exact .keep (.inr (.inr ⟨by rw [hph]; rfl, rfl⟩))
  · -- passed, a request
    next hph _ =>
    cases h
    exact .keep (.inr (.inr ⟨by rw [hph]; rfl, by split <;> rfl⟩))
  · -- entered
    next hph _ =>
    dsimp only at h
    split at h <;> obtain rfl := some.inj h <;> exact .keep (.inr (.inr ⟨by rw [hph]; rfl, rfl⟩))
  · -- begun, answered
    next hph =>
    cases h
    exact .keep (.inr (.inr ⟨by rw [hph]; rfl, rfl⟩))
  · -- begun, abandoned
    next hph _ =>
    cases (ite_none_right_eq_some.1 h).2
    exact .keep (.inr (.inr ⟨by rw [hph]; rfl, rfl⟩))
  · -- closing
    next hph _ =>
    cases h
    exact .keep (.inr (.inr ⟨by rw [hph]; rfl, rfl⟩))
  · -- executed, a note
    next hph _ =>
    cases h
    exact .keep (.inr (.inr ⟨by rw [hph]; rfl, haft⟩))
  · -- executed, a request
    next hph _ =>
    cases h
    exact .keep (.inr (.inr ⟨by rw [hph]; rfl, haft⟩))
  · -- releasing
    next hph =>
    cases h
    exact .keep (.inr (.inr ⟨by rw [hph]; rfl, by split <;> rfl⟩))
  · -- clearing
    next hph =>
    cases h
    exact .keep (.inr (.inr ⟨by rw [hph]; rfl, rfl⟩))
  · -- leaving
    next hph =>
    split at h
    · next hdisp =>
      split at h
      · next lane hlane =>
        split at h <;> cases h
        · next hmode => exact .serve hph hdisp hlane hmode
        · next hmode => exact .release hph hdisp hlane hmode
      · cases h
    · next hdisp =>
      cases h
      exact .giveUp hph (by simpa using hdisp)
  · cases h

namespace LaneStep

variable {j : ℕ} {job job' : DispatchJob} {lanes lanes' : Assoc String Lane}
  {permits permits' : DispatchMode → ℕ}

theorem laneKey_eq (h : LaneStep j job lanes permits job' lanes' permits') :
    job'.laneKey = job.laneKey := by
  cases h <;> rfl

variable {key : String} {lane : Lane}

/-- A lane that is asked for is there, or is opened. -/
theorem lookup_dispatchSender {mode : DispatchMode}
    (h : dispatchSender lanes key mode = some lanes') (key' : String) :
    lanes'.lookup key' = lanes.lookup key' ∧ lanes'.lookup key ≠ none ∨
      key' = key ∧ lanes.lookup key = none ∧ lanes'.lookup key = some ⟨mode, [], none⟩ := by
  unfold dispatchSender at h
  split at h
  · next lane hlane =>
    rw [← some.inj h, hlane]
    exact .inl ⟨rfl, by simp⟩
  · next hnone =>
    split at h
    · cases h
    · rw [← some.inj h, Assoc.lookup_insert_eq, Assoc.lookup_insert_eq, if_pos rfl]
      split
      · next heq => exact .inr ⟨heq, hnone, rfl⟩
      · exact .inl ⟨rfl, by simp⟩

variable (h : LaneStep j job lanes permits job' lanes' permits')
include h

/-- Where the lanes after a step come from. -/
theorem lanes_back {lane' : Lane} (hlane : lanes'.lookup key = some lane') :
    (∃ lane, lanes.lookup key = some lane ∧ lane'.mode = lane.mode ∧
      (lane'.queue = lane.queue ∨ key = job.laneKey ∧ job.phase = .routed ∧
        job'.phase = .queued ∧ lane'.queue = lane.queue ++ [j]) ∧
      (lane'.current = lane.current ∨ key = job.laneKey ∧ lane'.current = none)) ∨
    key = job.laneKey ∧ lanes.lookup key = none ∧ lane' = ⟨job.lane.2, [], none⟩ := by
  have hins : ∀ {lane new : Lane}, lanes.lookup job.laneKey = some lane →
      (lanes.insert job.laneKey new).lookup key = some lane' → key = job.laneKey ∧
        lanes.lookup key = some lane ∧ lane' = new ∨ lanes.lookup key = some lane' := by
    intro lane new hold hnew
    rw [Assoc.lookup_insert_eq] at hnew
    split at hnew
    · next heq => exact .inl ⟨heq, by rw [heq, hold], (some.inj hnew).symm⟩
    · exact .inr hnew
  cases h with
  | keep | giveUp | release => exact .inl ⟨lane', hlane, rfl, .inl rfl, .inl rfl⟩
  | route _ hsender =>
    obtain ⟨heq, -⟩ | ⟨rfl, hnone, hnew⟩ := lookup_dispatchSender hsender key
    · exact .inl ⟨lane', by rw [← heq, hlane], rfl, .inl rfl, .inl rfl⟩
    · rw [hnew, some.injEq] at hlane
      exact .inr ⟨rfl, hnone, hlane.symm⟩
  | send hph hold =>
    obtain ⟨heq, hkey, rfl⟩ | hkey := hins hold hlane
    · exact .inl ⟨_, hkey, rfl, .inr ⟨heq, hph, rfl, rfl⟩, .inl rfl⟩
    · exact .inl ⟨lane', hkey, rfl, .inl rfl, .inl rfl⟩
  | acquire _ hold | serve _ _ hold =>
    obtain ⟨heq, hkey, rfl⟩ | hkey := hins hold hlane
    · exact .inl ⟨_, hkey, rfl, .inl rfl, .inr ⟨heq, rfl⟩⟩
    · exact .inl ⟨lane', hkey, rfl, .inl rfl, .inl rfl⟩

/-- **No step removes a lane**, changes its mode or takes a job out of
its channel. -/
theorem lanes_kept (hlane : lanes.lookup key = some lane) :
    ∃ lane', lanes'.lookup key = some lane' ∧ lane'.mode = lane.mode ∧
      ∀ i ∈ lane.queue, i ∈ lane'.queue := by
  have hins : ∀ {lane₀ new : Lane}, lanes.lookup job.laneKey = some lane₀ →
      new.mode = lane₀.mode → (∀ i ∈ lane₀.queue, i ∈ new.queue) →
      ∃ lane', (lanes.insert job.laneKey new).lookup key = some lane' ∧ lane'.mode = lane.mode ∧
        ∀ i ∈ lane.queue, i ∈ lane'.queue := by
    intro lane₀ new hold hmode hq
    rw [Assoc.lookup_insert_eq]
    split
    · next heq =>
      rw [heq, hold, some.injEq] at hlane
      subst hlane
      exact ⟨new, rfl, hmode, hq⟩
    · exact ⟨lane, hlane, rfl, fun _ hi => hi⟩
  cases h with
  | keep | giveUp | release => exact ⟨lane, hlane, rfl, fun _ hi => hi⟩
  | route _ hsender =>
    obtain ⟨heq, -⟩ | ⟨rfl, hnone, -⟩ := lookup_dispatchSender hsender key
    · exact ⟨lane, by rw [heq, hlane], rfl, fun _ hi => hi⟩
    · rw [hnone] at hlane
      cases hlane
  | send _ hold => exact hins hold rfl fun _ hi => mem_append_left _ hi
  | acquire _ hold | serve _ _ hold => exact hins hold rfl fun _ hi => hi

/-- A queued job waits for its lane's task. -/
theorem phase_ne_queued : job.phase ≠ .queued := by
  intro hph
  cases h with
  | keep hcases =>
    rw [hph] at hcases
    obtain ⟨hin, -⟩ | ⟨hin, -⟩ | ⟨hin, -⟩ := hcases <;> cases hin
  | giveUp hph' | route hph' | send hph' | acquire hph' | serve hph'
  | release hph' =>
    rw [hph] at hph'
    cases hph'

theorem inReader_back
    (hin : job'.phase.inReader) : job.phase.inReader ∧ job'.dispatched = job.dispatched := by
  cases h with
  | @keep phase _ hph =>
    obtain ⟨hin', -⟩ | ⟨hin', -⟩ | ⟨-, hlate⟩ := hph
    · exact ⟨hin', rfl⟩
    · exact ⟨hin', rfl⟩
    · rw [late_eq_false (show phase.inReader from hin)] at hlate
      cases hlate
  | route hph => exact ⟨by rw [hph]; rfl, rfl⟩
  | giveUp | send | acquire | serve | release => cases hin

/-- A step leaves no job held. -/
theorem not_held : job'.phase ≠ .held := by
  cases h with
  | keep hph =>
    rintro rfl
    obtain ⟨-, hin, -⟩ | ⟨-, hlate⟩ | ⟨-, hlate⟩ := hph
    · cases hin
    all_goals cases hlate
  | route | giveUp | send | acquire | serve | release => simp

/-- A job comes into a channel when it is sent. -/
theorem queued_back
    (hph : job'.phase = .queued) : job'.dispatched ∧ ∃ lane, lanes.lookup job.laneKey = some lane ∧
      lanes'.lookup job.laneKey = some { lane with queue := lane.queue ++ [j] } := by
  cases h with
  | @keep phase _ hcases =>
    rw [show phase = .queued from hph] at hcases
    obtain ⟨-, hin, -⟩ | ⟨-, hlate⟩ | ⟨-, hlate⟩ := hcases
    · cases hin
    all_goals cases hlate
  | send _ hlane => exact ⟨rfl, _, hlane, AList.lookup_insert _⟩
  | route | giveUp | acquire | serve | release => cases hph

/-- A job is routed once its lane is there. -/
theorem made_back (hmade : job'.phase = .routed ∨ job'.dispatched) :
    job.phase = .routed ∨ job.dispatched ∨ ∃ lane, lanes'.lookup job.laneKey = some lane := by
  cases h with
  | @keep phase _ hcases =>
    obtain hph | hdisp := hmade
    · rw [show phase = .routed from hph] at hcases
      obtain ⟨-, -, hne⟩ | ⟨-, hlate⟩ | ⟨-, hlate⟩ := hcases
      · exact absurd rfl hne
      all_goals cases hlate
    · exact .inr (.inl hdisp)
  | route _ hsender =>
    obtain ⟨-, hne⟩ | ⟨-, -, hnew⟩ := lookup_dispatchSender hsender job.laneKey
    · exact .inr (.inr (ne_none_iff_exists'.1 hne))
    · exact .inr (.inr ⟨_, hnew⟩)
  | send hph => exact .inl hph
  | giveUp | acquire | serve | release =>
    obtain hph | hdisp := hmade
    · cases hph
    · exact .inr (.inl hdisp)

/-- The lane's task keeps the job it holds. -/
theorem current_kept (hlane : lanes.lookup job.laneKey = some lane)
    (hheld : job.phase = .held ∧ lane.mode ≠ .serial ∨
      job.phase.late ∧ job.dispatched ∧ lane.mode = .serial) :
    (∃ lane', lanes'.lookup job.laneKey = some lane' ∧ lane'.current = none) ∨
      job'.phase.late ∧ job'.dispatched ∧ lane.mode = .serial := by
  cases h with
  | @keep phase _ hcases =>
    obtain ⟨hph, -⟩ | ⟨hlate, hdisp, hmode⟩ := hheld
    · rw [hph] at hcases
      obtain ⟨hin, -⟩ | ⟨hin, -⟩ | ⟨hin, -⟩ := hcases <;> cases hin
    · obtain ⟨hin, -⟩ | ⟨hin, -⟩ | ⟨-, hlate'⟩ := hcases
      · rw [late_eq_false hin] at hlate
        cases hlate
      · rw [late_eq_false hin] at hlate
        cases hlate
      · exact .inr ⟨hlate', hdisp, hmode⟩
  | giveUp hph hnot =>
    obtain ⟨hph', -⟩ | ⟨-, hdisp, -⟩ := hheld
    · rw [hph] at hph'
      cases hph'
    · rw [hnot] at hdisp
      cases hdisp
  | route hph | send hph =>
    rw [hph] at hheld
    obtain ⟨hph', -⟩ | ⟨hlate, -⟩ := hheld
    · cases hph'
    · cases hlate
  | acquire | serve => exact .inl ⟨_, AList.lookup_insert _, rfl⟩
  | release hph _ hold hmode =>
    obtain ⟨hph', -⟩ | ⟨-, -, hser⟩ := hheld
    · rw [hph] at hph'
      cases hph'
    · rw [hold, some.injEq] at hlane
      exact absurd (hlane ▸ hser) hmode

omit h

end LaneStep

/-! ## The invariant of the lanes -/

namespace WsServer

/-- A job that executes and was taken from a lane of the mode. -/
def executes (lanes : Assoc String Lane) (mode : DispatchMode) (job : DispatchJob) : Bool :=
  job.dispatched && job.phase.late && decide ((lanes.lookup job.laneKey).map Lane.mode = some mode)

/-- The permits of a mode. -/
def permitLimit (mode : DispatchMode) : ℕ :=
  if mode = .concurrentControl then controlConcurrency else businessConcurrency

/-- **The invariant of the lanes.** -/
structure LaneInv (s : WsServer) : Prop where
  early : ∀ {j : ℕ} {job : DispatchJob}, s.jobs[j]? = some job → job.phase.inReader →
    job.dispatched = false
  sent : ∀ {j : ℕ} {job : DispatchJob}, s.jobs[j]? = some job →
    job.phase = .queued ∨ job.phase = .held → job.dispatched
  made : ∀ {j : ℕ} {job : DispatchJob}, s.jobs[j]? = some job →
    job.phase = .routed ∨ job.dispatched → ∃ lane, s.lanes.lookup job.laneKey = some lane
  queued : ∀ {key : String} {lane : Lane} {j : ℕ}, s.lanes.lookup key = some lane →
    j ∈ lane.queue → ∃ job, s.jobs[j]? = some job ∧ job.phase = .queued ∧ job.laneKey = key
  nodup : ∀ {key : String} {lane : Lane}, s.lanes.lookup key = some lane → lane.queue.Nodup
  located : ∀ {j : ℕ} {job : DispatchJob} {lane : Lane}, s.jobs[j]? = some job →
    job.phase = .queued → s.lanes.lookup job.laneKey = some lane → j ∈ lane.queue
  current : ∀ {key : String} {lane : Lane} {j : ℕ}, s.lanes.lookup key = some lane →
    lane.current = some j → ∃ job, s.jobs[j]? = some job ∧ job.laneKey = key ∧
      (job.phase = .held ∧ lane.mode ≠ .serial ∨
        job.phase.late ∧ job.dispatched ∧ lane.mode = .serial)
  held : ∀ {j : ℕ} {job : DispatchJob} {lane : Lane}, s.jobs[j]? = some job →
    job.phase = .held → s.lanes.lookup job.laneKey = some lane → lane.mode ≠ .serial
  mode : ∀ {key : String} {lane : Lane}, s.lanes.lookup key = some lane →
    ∃ c method work, dispatchLane c method work = (key, lane.mode)
  permits : ∀ {mode : DispatchMode}, mode ≠ .serial →
    s.permits mode + s.jobs.countP (executes s.lanes mode) = permitLimit mode

theorem laneInv_init : (wsMachine floatText).init.LaneInv := by
  constructor <;> simp [wsMachine, permitLimit]

/-- The count of the executing jobs when one of them changes. -/
theorem countP_executes_set {jobs : List DispatchJob} {j : ℕ} {job job' : DispatchJob}
    {lanes lanes' : Assoc String Lane} {mode : DispatchMode} (hjob : jobs[j]? = some job)
    (hsame : ∀ other ∈ jobs, executes lanes' mode other = executes lanes mode other) :
    (jobs.set j job').countP (executes lanes' mode) + (if executes lanes mode job then 1 else 0) =
      jobs.countP (executes lanes mode) + (if executes lanes' mode job' then 1 else 0) := by
  have hcnt := @countP_set_of_eq_some DispatchJob jobs j job job' (executes lanes' mode) hjob
  have hbef : jobs.countP (executes lanes' mode) = jobs.countP (executes lanes mode) :=
    countP_congr fun other hne => by rw [hsame other hne]
  rwa [hsame job (mem_of_getElem? hjob), hbef] at hcnt

variable {s s' : WsServer} {lanes' : Assoc String Lane} {mode : DispatchMode} {j : ℕ}
variable {job job' : DispatchJob}

/-- Lanes that are kept keep who executes in them. -/
theorem executes_kept (h : s.LaneInv) (hkept : ∀ {key lane}, s.lanes.lookup key = some lane →
      ∃ lane', lanes'.lookup key = some lane' ∧ lane'.mode = lane.mode) {other : DispatchJob}
    (hne : other ∈ s.jobs) :
    executes lanes' mode other = executes s.lanes mode other := by
  obtain ⟨i, hi⟩ := mem_iff_getElem?.1 hne
  unfold executes
  cases hdisp : other.dispatched with
  | false => rfl
  | true =>
    obtain ⟨lane, hlane⟩ := h.made hi (.inr hdisp)
    obtain ⟨lane', hlane', hmode⟩ := hkept hlane
    rw [hlane, hlane', map_some, map_some, hmode]

/-- **A job's step keeps the account of the permits.** -/
theorem LaneInv.permits_afterStep (h : s.LaneInv) {permits' : DispatchMode → ℕ}
    (hjob : s.jobs[j]? = some job) (hstep : LaneStep j job s.lanes s.permits job' lanes' permits')
    (hmode : mode ≠ .serial) :
    permits' mode + (s.jobs.set j job').countP (executes lanes' mode) = permitLimit mode := by
  have hcnt := @countP_executes_set s.jobs j job job' s.lanes lanes' mode hjob fun other hne =>
    executes_kept h (fun hlane => (hstep.lanes_kept hlane).imp fun _ hl => ⟨hl.1, hl.2.1⟩) hne
  have hbef := h.permits hmode
  have hkey := hstep.laneKey_eq
  have hget : ∀ {lane : Lane}, s.lanes.lookup job.laneKey = some lane →
      (lanes'.lookup job.laneKey).map Lane.mode = some lane.mode := by
    intro lane hlane
    obtain ⟨lane', hlane', hmode', -⟩ := hstep.lanes_kept hlane
    rw [hlane', map_some, hmode']
  have hidle : ∀ {lanes : Assoc String Lane} {other : DispatchJob},
      other.phase.late = false ∨ other.dispatched = false →
      executes lanes mode other = false := by
    rintro lanes other (hp | hp) <;> simp [executes, hp]
  cases hstep with
  | @keep phase notified hph =>
    have hsame : executes s.lanes mode { job with phase, notified } =
        executes s.lanes mode job := by
      have hrd : job.phase.inReader → executes s.lanes mode { job with phase, notified } =
          executes s.lanes mode job := by
        intro hin
        have hdisp := h.early hjob hin
        have hold : executes s.lanes mode job = false := hidle (.inr hdisp)
        rw [hold]
        exact hidle (.inr hdisp)
      obtain ⟨hin, -⟩ | ⟨hin, -⟩ | ⟨hlate, hlate'⟩ := hph
      · exact hrd hin
      · exact hrd hin
      · unfold executes
        rw [hkey, hlate, hlate']
    rw [hsame] at hcnt
    omega
  | giveUp hph hdisp =>
    rw [hidle (.inr hdisp), hidle (.inl rfl)] at hcnt
    omega
  | route hph =>
    rw [hidle (.inl (by rw [hph]; rfl)), hidle (.inl rfl)] at hcnt
    omega
  | send hph =>
    rw [hidle (.inl (by rw [hph]; rfl)), hidle (.inl rfl)] at hcnt
    omega
  | @acquire lane hph hlane hpermit =>
    have hdisp := h.sent hjob (.inr hph)
    have hnew : executes (s.lanes.insert job.laneKey { lane with current := none }) mode
        { job with phase := .waiting } = decide (lane.mode = mode) := by
      unfold executes
      rw [hkey, hget hlane, hdisp]
      simp [late]
    rw [hidle (.inl (by rw [hph]; rfl)), hnew] at hcnt
    by_cases heq : lane.mode = mode
    · subst heq
      simp only [update_self, decide_true, if_true, Bool.false_eq_true, if_false] at *
      omega
    · rw [update_of_ne (Ne.symm heq)]
      simp only [heq, decide_false, Bool.false_eq_true, if_false] at hcnt
      omega
  | @serve lane hph hdisp hlane hser =>
    have hold : executes s.lanes mode job = false := by
      simp only [executes, hlane, hser, map_some, some.injEq, Ne.symm hmode,
        decide_false, Bool.and_false]
    rw [hold, hidle (.inl rfl)] at hcnt
    omega
  | @release lane hph hdisp hlane hconcurrent =>
    have hold : executes s.lanes mode job = decide (lane.mode = mode) := by
      simp only [executes, hdisp, hph, hlane, late, Bool.true_and, map_some, some.injEq]
    rw [hold, hidle (.inl rfl)] at hcnt
    by_cases heq : lane.mode = mode
    · subst heq
      simp only [update_self, decide_true, if_true, Bool.false_eq_true, if_false] at *
      omega
    · rw [update_of_ne (Ne.symm heq)]
      simp only [heq, decide_false, Bool.false_eq_true, if_false] at hcnt
      omega

/-- **A job's step keeps the invariant of the lanes.** -/
theorem LaneInv.of_afterStep (h : s.LaneInv) {moved : Moved} (hjob : s.jobs[j]? = some job)
    (hstep : LaneStep j job s.lanes s.permits moved.job moved.lanes moved.permits) :
    (s.afterStep j job moved).LaneInv := by
  have hkey := hstep.laneKey_eq
  have hjobs : ∀ i, (s.afterStep j job moved).jobs[i]? =
      if i = j then some moved.job else s.jobs[i]? := jobs_afterStep hjob
  -- a job that moves is not in a channel
  have hfresh : ∀ {key lane}, s.lanes.lookup key = some lane → j ∉ lane.queue := by
    intro key lane hlane hmem
    obtain ⟨job', hj, hph, -⟩ := h.queued hlane hmem
    rw [hjob, some.injEq] at hj
    exact hstep.phase_ne_queued (hj ▸ hph)
  have hkept : ∀ {key}, (∃ lane, s.lanes.lookup key = some lane) →
      ∃ lane, moved.lanes.lookup key = some lane := by
    rintro key ⟨lane, hlane⟩
    obtain ⟨lane', hlane', -⟩ := hstep.lanes_kept hlane
    exact ⟨lane', hlane'⟩
  constructor
  · -- early
    intro i job' hi hin
    rw [hjobs] at hi
    split at hi
    · cases hi
      obtain ⟨hin', hsame⟩ := hstep.inReader_back hin
      rw [hsame]
      exact h.early hjob hin'
    · exact h.early hi hin
  · -- sent
    intro i job' hi hsent
    rw [hjobs] at hi
    split at hi
    · cases hi
      obtain hph | hph := hsent
      · exact (hstep.queued_back hph).1
      · exact absurd hph hstep.not_held
    · exact h.sent hi hsent
  · -- made
    intro i job' hi hmade
    rw [hjobs] at hi
    split at hi
    · cases hi
      rw [hkey]
      obtain hph | hdisp | hnew := hstep.made_back hmade
      · exact hkept (h.made hjob (.inl hph))
      · exact hkept (h.made hjob (.inr hdisp))
      · exact hnew
    · exact hkept (h.made hi hmade)
  · -- queued
    intro key lane' i hlane' hmem
    rw [hjobs]
    obtain ⟨lane, hlane, -, hq, -⟩ | ⟨-, -, rfl⟩ := hstep.lanes_back hlane'
    · obtain heq | ⟨hk, -, hph, heq⟩ := hq
      · rw [heq] at hmem
        have hne : i ≠ j := by
          rintro rfl
          exact hfresh hlane hmem
        rw [if_neg hne]
        exact h.queued hlane hmem
      · rw [heq, mem_append, mem_singleton] at hmem
        obtain hmem | rfl := hmem
        · have hne : i ≠ j := by
            rintro rfl
            exact hfresh hlane hmem
          rw [if_neg hne]
          exact h.queued hlane hmem
        · rw [if_pos rfl]
          exact ⟨_, rfl, hph, hkey.trans hk.symm⟩
    · cases hmem
  · -- nodup
    intro key lane' hlane'
    obtain ⟨lane, hlane, -, hq, -⟩ | ⟨-, -, rfl⟩ := hstep.lanes_back hlane'
    · obtain heq | ⟨-, -, -, heq⟩ := hq
      · rw [heq]
        exact h.nodup hlane
      · rw [heq, nodup_append]
        refine ⟨h.nodup hlane, nodup_singleton j, ?_⟩
        intro x hx y hy hxy
        rw [mem_singleton] at hy
        exact hfresh hlane (by rw [← hy, ← hxy]; exact hx)
    · exact nodup_nil
  · -- located
    intro i job' lane' hi hph hlane'
    rw [hjobs] at hi
    split at hi
    · next heq =>
      cases hi
      obtain ⟨-, lane, -, hnew⟩ := hstep.queued_back hph
      rw [hkey] at hlane'
      have hlane'' : moved.lanes.lookup job.laneKey = some lane' := hlane'
      rw [hnew, some.injEq] at hlane''
      rw [← hlane'', heq]
      simp
    · obtain ⟨lane, hlane⟩ := h.made hi (.inr (h.sent hi (.inl hph)))
      obtain ⟨lane'', hlane'', -, hq⟩ := hstep.lanes_kept hlane
      have hlane' : moved.lanes.lookup job'.laneKey = some lane' := hlane'
      rw [hlane'', some.injEq] at hlane'
      rw [← hlane']
      exact hq i (h.located hi hph hlane)
  · -- current
    intro key lane' i hlane' hcur
    rw [hjobs]
    obtain ⟨lane, hlane, hmode, -, hold⟩ | ⟨-, -, rfl⟩ := hstep.lanes_back hlane'
    · obtain heq | ⟨-, heq⟩ := hold
      · rw [heq] at hcur
        obtain ⟨job', hi, hk, hheld⟩ := h.current hlane hcur
        split
        · next hij =>
          rw [hij, hjob, some.injEq] at hi
          subst hi hk
          obtain ⟨lane'', hlane'', hnone⟩ | hlate := hstep.current_kept hlane hheld
          · have hlane' : moved.lanes.lookup job.laneKey = some lane' := hlane'
            rw [hlane'', some.injEq] at hlane'
            rw [← heq, ← hlane', hnone] at hcur
            cases hcur
          · rw [hmode]
            exact ⟨_, rfl, hkey, .inr hlate⟩
        · rw [hmode]
          exact ⟨job', hi, hk, hheld⟩
      · rw [heq] at hcur
        cases hcur
    · cases hcur
  · -- held
    intro i job' lane' hi hph hlane'
    rw [hjobs] at hi
    split at hi
    · cases hi
      exact absurd hph hstep.not_held
    · obtain ⟨lane, hlane⟩ := h.made hi (.inr (h.sent hi (.inr hph)))
      obtain ⟨lane'', hlane'', hmode, -⟩ := hstep.lanes_kept hlane
      have hlane' : moved.lanes.lookup job'.laneKey = some lane' := hlane'
      rw [hlane'', some.injEq] at hlane'
      rw [← hlane', hmode]
      exact h.held hi hph hlane
  · -- mode
    intro key lane' hlane'
    obtain ⟨lane, hlane, hmode, -⟩ | ⟨rfl, -, rfl⟩ := hstep.lanes_back hlane'
    · rw [hmode]
      exact h.mode hlane
    · exact ⟨_, _, _, rfl⟩
  · -- permits
    intro mode hmode
    exact h.permits_afterStep hjob hstep hmode

theorem executes_sameJob {lanes : Assoc String Lane} (h : SameJob job job') :
    executes lanes mode job' = executes lanes mode job := by
  unfold executes
  rw [h.dispatched, h.phase, h.laneKey]

/-- Marking jobs keeps the invariant of the lanes. -/
theorem LaneInv.of_marks (h : s.LaneInv) (hmarks : Marks s.jobs s'.jobs)
    (hls : s'.lanes = s.lanes) (hpermits : s'.permits = s.permits) : s'.LaneInv := by
  constructor
  · intro j job' hj hin
    obtain ⟨job, hj, hsame⟩ := hmarks.back hj
    rw [hsame.dispatched]
    exact h.early hj (hsame.phase ▸ hin)
  · intro j job' hj hsent
    obtain ⟨job, hj, hsame⟩ := hmarks.back hj
    rw [hsame.phase] at hsent
    rw [hsame.dispatched]
    exact h.sent hj hsent
  · intro j job' hj hmade
    obtain ⟨job, hj, hsame⟩ := hmarks.back hj
    rw [hsame.phase, hsame.dispatched] at hmade
    rw [hls, hsame.laneKey]
    exact h.made hj hmade
  · intro key lane j hlane hmem
    rw [hls] at hlane
    obtain ⟨job, hj, hph, hkey⟩ := h.queued hlane hmem
    obtain ⟨job', hj', hsame⟩ := hmarks.forth hj
    exact ⟨job', hj', hsame.phase.trans hph, hsame.laneKey.trans hkey⟩
  · intro key lane hlane
    rw [hls] at hlane
    exact h.nodup hlane
  · intro j job' lane hj hph hlane
    obtain ⟨job, hj, hsame⟩ := hmarks.back hj
    rw [hls, hsame.laneKey] at hlane
    exact h.located hj (hsame.phase.symm.trans hph) hlane
  · intro key lane j hlane hcur
    rw [hls] at hlane
    obtain ⟨job, hj, hkey, hheld⟩ := h.current hlane hcur
    obtain ⟨job', hj', hsame⟩ := hmarks.forth hj
    refine ⟨job', hj', hsame.laneKey.trans hkey, ?_⟩
    rw [hsame.phase, hsame.dispatched]
    exact hheld
  · intro j job' lane hj hph hlane
    obtain ⟨job, hj, hsame⟩ := hmarks.back hj
    rw [hls, hsame.laneKey] at hlane
    exact h.held hj (hsame.phase.symm.trans hph) hlane
  · intro key lane hlane
    rw [hls] at hlane
    exact h.mode hlane
  · intro mode hmode
    rw [hls, hpermits, hmarks.countP_eq fun _ _ => executes_sameJob]
    exact h.permits hmode

/-- A frame's job is not in a lane yet. -/
theorem LaneInv.of_frame (h : s.LaneInv) (c : ℕ) (method : String) (work : DispatchWork) :
    (s.frame c method work).LaneInv := by
  have hold : ∀ {i : ℕ} {job : DispatchJob}, s.jobs[i]? = some job →
      (s.frame c method work).jobs[i]? = some job := by
    intro i job hi
    rw [frame, getElem?_append_left (getElem?_eq_some_iff.1 hi).1, hi]
  have hnew : ∀ {i : ℕ} {job : DispatchJob}, (s.frame c method work).jobs[i]? = some job →
      s.jobs[i]? = some job ∨ job.phase.inReader ∧ job.phase ≠ .routed ∧
        job.dispatched = false := by
    intro i job hi
    obtain hi | ⟨-, -, -, -, hph, hdisp, -⟩ := jobs_frame hi
    · exact .inl hi
    · refine .inr ⟨?_, ?_, hdisp⟩ <;> rw [hph] <;> split <;> simp [inReader]
  constructor
  · intro i job hi hin
    obtain hi | ⟨-, -, hdisp⟩ := hnew hi
    · exact h.early hi hin
    · exact hdisp
  · intro i job hi hsent
    obtain hi | ⟨hin, -⟩ := hnew hi
    · exact h.sent hi hsent
    · obtain hph | hph := hsent <;> rw [hph] at hin <;> cases hin
  · intro i job hi hmade
    obtain hi | ⟨-, hne, hdisp⟩ := hnew hi
    · exact h.made hi hmade
    · rw [hdisp] at hmade
      exact absurd hmade (by simp [hne])
  · intro key lane i hlane hmem
    obtain ⟨job, hi, hrest⟩ := h.queued hlane hmem
    exact ⟨job, hold hi, hrest⟩
  · intro key lane hlane
    exact h.nodup hlane
  · intro i job lane hi hph hlane
    obtain hi | ⟨hin, -⟩ := hnew hi
    · exact h.located hi hph hlane
    · rw [hph] at hin
      cases hin
  · intro key lane i hlane hcur
    obtain ⟨job, hi, hrest⟩ := h.current hlane hcur
    exact ⟨job, hold hi, hrest⟩
  · intro i job lane hi hph hlane
    obtain hi | ⟨hin, -⟩ := hnew hi
    · exact h.held hi hph hlane
    · rw [hph] at hin
      cases hin
  · intro key lane hlane
    exact h.mode hlane
  · intro mode hmode
    rw [← h.permits hmode]
    simp only [frame, countP_append, Nat.add_right_inj, Nat.add_eq_left]
    split <;> simp [executes]

/-- A lane's task takes a job of the lane. -/
theorem LaneInv.of_receive (h : s.LaneInv) {key : String} (hrecv : s.receive key = some s') :
    s'.LaneInv := by
  obtain ⟨mode, j, queue, job, hlane, hjob, rfl⟩ := receive_eq_some.1 hrecv
  obtain ⟨job₀, hjob₀, hph, hkey⟩ := h.queued hlane (mem_cons_self ..)
  cases hjob.symm.trans hjob₀
  have hdisp := h.sent hjob (.inl hph)
  obtain ⟨hjqueue, hnd⟩ := nodup_cons.1 (h.nodup hlane)
  have hjobs := @getElem?_set_of_eq_some DispatchJob s.jobs j job
    { job with phase := if mode = .serial then .waiting else .held } hjob
  have hget : ∀ k, (s.lanes.insert key ⟨mode, queue, some j⟩).lookup k =
      if k = key then some ⟨mode, queue, some j⟩ else s.lanes.lookup k := fun k =>
    Assoc.lookup_insert_eq
  have hkept : ∀ {k lane}, s.lanes.lookup k = some lane →
      ∃ lane', (s.lanes.insert key ⟨mode, queue, some j⟩).lookup k = some lane' ∧
        lane'.mode = lane.mode := by
    intro k lane hk
    rw [hget]
    split
    · next heq =>
      rw [heq, hlane, some.injEq] at hk
      exact ⟨_, rfl, hk ▸ rfl⟩
    · exact ⟨lane, hk, rfl⟩
  constructor
  · -- early
    intro i job' hi hin
    rw [hjobs] at hi
    split at hi
    · cases hi
      split at hin <;> cases hin
    · exact h.early hi hin
  · -- sent
    intro i job' hi hsent
    rw [hjobs] at hi
    split at hi
    · cases hi
      exact hdisp
    · exact h.sent hi hsent
  · -- made
    intro i job' hi hmade
    rw [hjobs] at hi
    split at hi
    · cases hi
      obtain ⟨lane', hlane', -⟩ := hkept hlane
      exact ⟨lane', hkey ▸ hlane'⟩
    · obtain ⟨lane, hl⟩ := h.made hi hmade
      obtain ⟨lane', hlane', -⟩ := hkept hl
      exact ⟨lane', hlane'⟩
  · -- queued
    intro k lane' i hlane' hmem
    rw [hget] at hlane'
    rw [hjobs]
    split at hlane'
    · next heq =>
      cases hlane'
      have hne : i ≠ j := by
        rintro rfl
        exact hjqueue hmem
      rw [if_neg hne, heq]
      exact h.queued hlane (mem_cons_of_mem _ hmem)
    · next hk =>
      obtain ⟨job', hi, hph', hkey'⟩ := h.queued hlane' hmem
      have hne : i ≠ j := by
        rintro rfl
        rw [hjob, some.injEq] at hi
        exact hk (by rw [← hkey', ← hi, hkey])
      rw [if_neg hne]
      exact ⟨job', hi, hph', hkey'⟩
  · -- nodup
    intro k lane' hlane'
    rw [hget] at hlane'
    split at hlane'
    · cases hlane'
      exact hnd
    · exact h.nodup hlane'
  · -- located
    intro i job' lane' hi hph' hlane'
    rw [hjobs] at hi
    split at hi
    · cases hi
      split at hph' <;> cases hph'
    · next hne =>
      rw [hget] at hlane'
      split at hlane'
      · next heq =>
        cases hlane'
        have hmem := h.located hi hph' (heq ▸ hlane)
        exact (mem_cons.1 hmem).resolve_left hne
      · exact h.located hi hph' hlane'
  · -- current
    intro k lane' i hlane' hcur
    rw [hget] at hlane'
    rw [hjobs]
    split at hlane'
    · next heq =>
      cases hlane'
      cases hcur
      rw [if_pos rfl]
      refine ⟨_, rfl, hkey.trans heq.symm, ?_⟩
      by_cases hmode : mode = .serial
      · rw [if_pos hmode]
        exact .inr ⟨rfl, hdisp, hmode⟩
      · rw [if_neg hmode]
        exact .inl ⟨rfl, hmode⟩
    · next hk =>
      obtain ⟨job', hi, hkey', hheld⟩ := h.current hlane' hcur
      have hne : i ≠ j := by
        rintro rfl
        rw [hjob, some.injEq] at hi
        exact hk (by rw [← hkey', ← hi, hkey])
      rw [if_neg hne]
      exact ⟨job', hi, hkey', hheld⟩
  · -- held
    intro i job' lane' hi hph' hlane'
    rw [hjobs] at hi
    split at hi
    · cases hi
      split at hph'
      · cases hph'
      · next hmode =>
        have hnew : (s.lanes.insert key ⟨mode, queue, some j⟩).lookup job.laneKey = some lane' :=
          hlane'
        rw [hget, if_pos hkey, some.injEq] at hnew
        rw [← hnew]
        exact hmode
    · rw [hget] at hlane'
      split at hlane'
      · next heq =>
        cases hlane'
        have hmode := h.held hi hph' (heq ▸ hlane)
        exact hmode
      · exact h.held hi hph' hlane'
  · -- mode
    intro k lane' hlane'
    rw [hget] at hlane'
    split at hlane'
    · next heq =>
      cases hlane'
      obtain ⟨c, method, work, hmade⟩ := h.mode hlane
      exact ⟨c, method, work, heq ▸ hmade⟩
    · exact h.mode hlane'
  · -- permits: a serial lane's job needs none, and a concurrent one's has none yet
    intro m hm
    have hcnt := @countP_executes_set s.jobs j job
      { job with phase := if mode = .serial then .waiting else .held } s.lanes
      (s.lanes.insert key ⟨mode, queue, some j⟩) m hjob
      fun other hother => executes_kept h (fun hl => hkept hl) hother
    have hold : executes s.lanes m job = false := by
      simp [executes, hph, late]
    have hnew : executes (s.lanes.insert key ⟨mode, queue, some j⟩) m
        { job with phase := if mode = .serial then .waiting else .held } = false := by
      by_cases hmode : mode = .serial
      · have hk : DispatchJob.laneKey
            { job with phase := if mode = .serial then .waiting else .held } = key := hkey
        unfold executes
        rw [hk, hget, if_pos rfl, map_some, hmode]
        simp [Ne.symm hm]
      · simp [executes, hmode, late]
    rw [hold, hnew] at hcnt
    have := h.permits hm
    dsimp only at hcnt ⊢
    omega

/-- Every step keeps the invariant of the lanes. -/
theorem LaneInv.of_step (h : s.LaneInv) {action : WsAction}
    (hstep : (wsMachine floatText).step s action = some s') : s'.LaneInv := by
  cases action with
  | connect =>
    cases hstep
    exact { h with }
  | frame c method work =>
    cases (ite_none_right_eq_some.1 hstep).2
    exact h.of_frame c method work
  | cancelFrame c id =>
    cases (ite_none_right_eq_some.1 hstep).2
    exact h.of_marks marks_cancelFrame rfl rfl
  | markDisconnected c =>
    cases hstep
    exact h.of_marks marks_markDisconnected rfl rfl
  | receive key => exact h.of_receive hstep
  | job j turn =>
    obtain ⟨job, moved, hjob, hmov, rfl⟩ := stepJob_eq_some.1 hstep
    exact h.of_afterStep hjob (laneStep_of_jobStep hmov)

/-- **The lanes' invariant holds in every run.** -/
theorem laneInv_of_reachable (h : (wsMachine floatText).Reachable s) : s.LaneInv :=
  h.rule laneInv_init fun _ _ _ _ hinv hstep => hinv.of_step hstep

end WsServer

end

end Remux
