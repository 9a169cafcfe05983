import Remux.Rpc.Lanes

/-!
# One response for one request

What a job's step does to the slots of its client and to the responses
is said once (`SlotStep`), and the invariant of the slots is read off
it. The slot of a request that is neither begun nor cancelled stays in
`active_requests` only as long as no other job finishes under its id;
`FinishesAlone` is that condition on a step, and `idReused_unanswered`
is a run that breaks it.
-/

namespace Remux

open List hiding getElem?_eq_some_iff
open Phase Assoc Option

/-- The phases in which a request is in `active_requests` and its handler
has not begun. -/
def Phase.unbegun : Phase → Bool
  | .registered | .routed | .refused | .queued | .held | .waiting | .passed | .entered => true
  | _ => false

theorem Phase.unanswered_of_unbegun {phase : Phase} (h : phase.unbegun) : phase.unanswered := by
  cases phase <;> first | rfl | cases h

namespace DispatchJob

variable {floatText : Double → List Char} {job : DispatchJob}

theorem unanswered_afterExecution : job.afterExecution.unanswered = false := by
  unfold afterExecution
  split <;> rfl

theorem requestKey_eq_some {key : String} (h : job.requestKey floatText = some key) :
    job.isRequest := by
  unfold requestKey at h
  unfold isRequest
  split at h
  · rfl
  · cases h

end DispatchJob

section

variable {floatText : Double → List Char}

/-! ## The step of a job, for its slot -/

/-- **What a step of a job does to its client's slots and how it
answers.** Its job and client before the step are the indices. -/
inductive SlotStep (floatText : Double → List Char) (j : ℕ) (job : DispatchJob)
    (client : WsClient) : DispatchJob → WsClient → Option RpcOutcome → Prop where
  /-- The slots are left alone and nothing is sent. -/
  | keep {phase : Phase} {dispatched : Bool} {client' : WsClient}
    (hslots : client'.activeRequests = client.activeRequests)
    (hunbegun : phase.unbegun → job.phase.unbegun ∨ job.isRequest = false)
    (hunanswered : phase.unanswered = job.phase.unanswered ∨ job.isRequest = false)
    (hbegun : phase ≠ .begun ∧ job.phase ≠ .begun) :
    SlotStep floatText j job client { job with phase, dispatched } client' none
  | register {key : String} {client' : WsClient} (hphase : job.phase = .counted)
    (hkey : job.requestKey floatText = some key)
    (hfresh : client.activeRequests.lookup key = none)
    (hslots : client'.activeRequests = client.activeRequests.insert key none) :
    SlotStep floatText j job client { job with phase := .registered } client' none
  | duplicate {key : String} {client' : WsClient} {outcome : RpcOutcome}
    (hphase : job.phase = .counted) (hkey : job.requestKey floatText = some key)
    (hslots : client'.activeRequests = client.activeRequests.insert key none) :
    SlotStep floatText j job client { job with phase := job.afterExecution } client' (some outcome)
  | overload {client' : WsClient} {outcome : RpcOutcome}
    (hphase : job.phase = .received) (hslots : client'.activeRequests = client.activeRequests) :
    SlotStep floatText j job client { job with phase := job.afterExecution } client' (some outcome)
  | refuse {key : String} {client' : WsClient} {outcome : RpcOutcome}
    (hphase : job.phase = .refused) (hkey : job.requestKey floatText = some key)
    (hslots : client'.activeRequests = client.activeRequests.erase key) :
    SlotStep floatText j job client { job with phase := job.afterExecution } client' (some outcome)
  | orphan (hphase : job.phase = .passed) (hrequest : job.isRequest)
    (hconnected : client.connected = false) :
    SlotStep floatText j job client { job with phase := .executed } client none
  | miss {key : String} (hphase : job.phase = .entered) (hkey : job.requestKey floatText = some key)
    (hmiss : client.activeRequests.lookup key = none) :
    SlotStep floatText j job client { job with phase := .executed } client none
  | begin {key : String} {client' : WsClient} (hphase : job.phase = .entered)
    (hkey : job.requestKey floatText = some key)
    (hslots : client'.activeRequests = client.activeRequests.insert key (some j)) :
    SlotStep floatText j job client { job with phase := .begun, notified := false } client' none
  | answer {outcome : RpcOutcome} (hphase : job.phase = .begun) :
    SlotStep floatText j job client { job with phase := .closing } client (some outcome)
  | abandon (hphase : job.phase = .begun) (hnotified : job.notified) :
    SlotStep floatText j job client { job with phase := .closing } client none
  | finish {key : String} {client' : WsClient} (hphase : job.phase = .closing)
    (hkey : job.requestKey floatText = some key)
    (hslots : client'.activeRequests = client.activeRequests.erase key) :
    SlotStep floatText j job client { job with phase := .executed } client' none

variable {j : ℕ} {turn : Turn} {job : DispatchJob} {client : WsClient} {lanes : Assoc String Lane}
variable {permits : DispatchMode → ℕ} {moved : Moved}

/-- What a step of a job leaves alone, and what it does to the slots. -/
theorem slotStep_of_jobStep (h : jobStep floatText j turn job client lanes permits = some moved) :
    moved.client.connected = client.connected ∧
      SlotStep floatText j job client moved.job moved.client moved.reply := by
  unfold jobStep at h
  have hreq : ∀ {id msg}, job.work = .request id msg → job.isRequest := by
    intro id msg hwork
    rw [DispatchJob.isRequest, hwork]
  have hnote : ∀ {params}, job.work = .notification params → job.isRequest = false := by
    intro params hwork
    rw [DispatchJob.isRequest, hwork]
  have hkey : ∀ {id msg}, job.work = .request id msg →
      job.requestKey floatText = some (requestKey floatText id) := by
    intro id msg hwork
    rw [DispatchJob.requestKey, hwork]
  split at h
  · -- received
    next hph hwork =>
    split at h <;> cases h
    · exact ⟨rfl, .keep rfl (by simp [unbegun]) (.inl (by rw [hph]; rfl)) (by simp [hph])⟩
    · exact ⟨rfl, .overload hph rfl⟩
  · -- counted
    next hph hwork =>
    dsimp only at h
    split at h <;> cases h
    · next hnone => exact ⟨rfl, .register hph (hkey hwork) (isNone_iff_eq_none.1 hnone) rfl⟩
    · exact ⟨rfl, .duplicate hph (hkey hwork) rfl⟩
  · -- registered
    next hph =>
    split at h <;> obtain rfl := some.inj h <;>
      exact ⟨rfl, .keep rfl (fun _ => .inl (by rw [hph]; rfl)) (.inl (by rw [hph]; rfl))
        (by simp [hph])⟩
  · -- routed
    next hph =>
    split at h
    · split at h <;> obtain rfl := some.inj h <;>
        exact ⟨rfl, .keep rfl (fun _ => .inl (by rw [hph]; rfl)) (.inl (by rw [hph]; rfl))
          (by simp [hph])⟩
    · cases h
  · -- refused, a note
    next hph hwork =>
    cases h
    exact ⟨rfl, .keep rfl (by simp [unbegun]) (.inr (hnote hwork)) (by simp [hph])⟩
  · -- refused, a request
    next hph hwork =>
    cases h
    exact ⟨rfl, .refuse hph (hkey hwork) rfl⟩
  · -- held
    next hph =>
    split at h
    · cases (ite_none_right_eq_some.1 h).2
      exact ⟨rfl, .keep rfl (fun _ => .inl (by rw [hph]; rfl)) (.inl (by rw [hph]; rfl))
        (by simp [hph])⟩
    · cases h
  · -- waiting
    next hph =>
    cases (ite_none_right_eq_some.1 h).2
    exact ⟨rfl, .keep rfl (fun _ => .inl (by rw [hph]; rfl)) (.inl (by rw [hph]; rfl))
      (by simp [hph])⟩
  · -- passed, a note
    next hph hwork =>
    cases h
    exact ⟨rfl, .keep rfl (by simp [unbegun]) (.inr (hnote hwork)) (by simp [hph])⟩
  · -- passed, a request
    next hph hwork =>
    cases h
    refine ⟨rfl, ?_⟩
    cases hconn : client.connected with
    | true =>
      exact .keep rfl (fun _ => .inl (by rw [hph]; rfl)) (.inl (by rw [hph]; rfl)) (by simp [hph])
    | false => exact .orphan hph (hreq hwork) hconn
  · -- entered
    next hph hwork =>
    dsimp only at h
    split at h <;> cases h
    · exact ⟨rfl, .begin hph (hkey hwork) rfl⟩
    · next hnone =>
      exact ⟨rfl, .miss hph (hkey hwork) (by simpa using hnone)⟩
  · -- begun, answered
    next hph =>
    cases h
    exact ⟨rfl, .answer hph⟩
  · -- begun, abandoned
    next hph hwork =>
    obtain ⟨hnotified, ⟨⟩⟩ := ite_none_right_eq_some.1 h
    exact ⟨rfl, .abandon hph hnotified.1⟩
  · -- closing
    next hph hwork =>
    cases h
    exact ⟨rfl, .finish hph (hkey hwork) rfl⟩
  · -- executed, a note
    next hph hwork =>
    cases h
    have := job.unanswered_afterExecution
    refine ⟨rfl, .keep rfl (fun _ => .inr (hnote hwork)) (.inr (hnote hwork))
      ⟨fun heq => ?_, by simp [hph]⟩⟩
    rw [heq] at this
    cases this
  · -- executed, a request
    next hph hwork =>
    cases h
    have := job.unanswered_afterExecution
    refine ⟨rfl, .keep rfl ?_ (.inl (by rw [hph, this]; rfl)) ⟨?_, by simp [hph]⟩⟩
    · intro hunbegun
      rw [unanswered_of_unbegun hunbegun] at this
      cases this
    · intro heq
      rw [heq] at this
      cases this
  · -- releasing
    next hph =>
    cases h
    refine ⟨rfl, .keep rfl ?_ (.inl ?_) ?_⟩ <;> split <;> simp [unbegun, unanswered, hph]
  · -- clearing
    next hph =>
    cases h
    exact ⟨rfl, .keep rfl (by simp [unbegun]) (.inl (by rw [hph]; rfl)) (by simp [hph])⟩
  · -- leaving
    next hph =>
    split at h
    · split at h
      · split at h <;> obtain rfl := some.inj h <;>
          exact ⟨rfl, .keep rfl (by simp [unbegun]) (.inl (by rw [hph]; rfl)) (by simp [hph])⟩
      · cases h
    · cases h
      exact ⟨rfl, .keep rfl (by simp [unbegun]) (.inl (by rw [hph]; rfl)) (by simp [hph])⟩
  · cases h

/-- A step keeps what its job was made with. -/
theorem SlotStep.same {job' : DispatchJob} {client' : WsClient} {reply : Option RpcOutcome}
    (h : SlotStep floatText j job client job' client' reply) :
    job'.connectionId = job.connectionId ∧ job'.method = job.method ∧ job'.work = job.work ∧
      job'.cancelled = job.cancelled := by
  cases h <;> exact ⟨rfl, rfl, rfl, rfl⟩

/-- The job is with the reader of its frame: it has not been sent to a
lane, nor given up. -/
def DispatchJob.withReader (job : DispatchJob) : Bool :=
  !job.dispatched && decide (job.phase ≠ .done)

/-- The reader is left alone, but by the job it is handling. -/
theorem reading_of_jobStep (h : jobStep floatText j turn job client lanes permits = some moved) :
    (moved.job.withReader → job.withReader ∧ moved.client.reading = client.reading) ∧
      (moved.client.reading = client.reading ∨
        moved.client.reading = none ∧ (job.phase = .routed ∨ job.withReader)) := by
  have hnot : job.phase ≠ .done := by
    intro hph
    simp [jobStep, hph] at h
  unfold jobStep at h
  split at h <;> (try dsimp only at h) <;> (try split at h) <;> (try split at h) <;>
    (try split at h) <;>
    first
      | cases h; done
      | (cases h
         refine ⟨fun hin => ?_, ?_⟩ <;> simp_all [DispatchJob.withReader])

namespace SlotStep

variable {j : ℕ} {job job' : DispatchJob} {client client' : WsClient}
  {reply : Option RpcOutcome}

/-- A request comes to await its turn when it is registered under a free
id, and then leaves the slots alone. -/
theorem unbegun (h : SlotStep floatText j job client job' client' reply) (hreq : job.isRequest)
    (hunbegun : job'.phase.unbegun) :
    job.phase.unbegun ∧ client'.activeRequests = client.activeRequests ∨
      ∃ key, job.requestKey floatText = some key ∧
      client.activeRequests.lookup key = none ∧
      client'.activeRequests = client.activeRequests.insert key none := by
  have haft : job.afterExecution.unbegun = false := by
    unfold DispatchJob.afterExecution
    split <;> rfl
  cases h with
  | keep hslots hold =>
    obtain hold | hno := hold hunbegun
    · exact .inl ⟨hold, hslots⟩
    · rw [hreq] at hno
      cases hno
  | register _ hkey hnew hslots => exact .inr ⟨_, hkey, hnew, hslots⟩
  | duplicate | overload | refuse => simp [haft] at hunbegun
  | orphan | miss | begin | answer | abandon | finish => cases hunbegun

variable {key : String}

variable (h : SlotStep floatText j job client job' client' reply)
include h

/-- A slot goes when the job of its id is refused or finishes. -/
theorem slot_kept (hslot : client.activeRequests.lookup key ≠ none) :
    client'.activeRequests.lookup key ≠ none ∨
      job.requestKey floatText = some key ∧ (job.phase = .refused ∨ job.phase = .closing) := by
  have hins : ∀ {key' : String} {slot : Option ℕ},
      (client.activeRequests.insert key' slot).lookup key ≠ none := by
    intro key' slot
    rw [lookup_insert_eq]
    split
    · simp
    · exact hslot
  have herase : ∀ key' : String, (client.activeRequests.erase key').lookup key ≠ none ∨
      key' = key := by
    intro key'
    rw [lookup_erase_eq]
    split
    · next heq => exact .inr heq.symm
    · exact .inl hslot
  cases h with
  | keep hslots | overload _ hslots => exact .inl (by rw [hslots]; exact hslot)
  | register _ _ _ hslots | duplicate _ _ hslots | begin _ _ hslots =>
    exact .inl (by rw [hslots]; exact hins)
  | orphan | miss | answer | abandon => exact .inl hslot
  | refuse hph hkey hslots =>
    rw [hslots]
    exact (herase _).imp_right fun heq => ⟨by rw [hkey, heq], .inl hph⟩
  | finish hph hkey hslots =>
    rw [hslots]
    exact (herase _).imp_right fun heq => ⟨by rw [hkey, heq], .inr hph⟩

/-- The `Notify` in a slot was there, or the job has just begun. -/
theorem owner {n : ℕ} (hslot : client'.activeRequests.lookup key = some (some n)) :
    client.activeRequests.lookup key = some (some n) ∨
      n = j ∧ job.requestKey floatText = some key ∧ job'.phase = .begun := by
  cases h with
  | keep hslots | overload _ hslots => exact .inl (by rw [← hslots]; exact hslot)
  | register _ _ _ hslots | duplicate _ _ hslots =>
    rw [hslots, lookup_insert_eq] at hslot
    split at hslot
    · cases hslot
    · exact .inl hslot
  | begin _ hkey hslots =>
    rw [hslots, lookup_insert_eq] at hslot
    split at hslot
    · next heq =>
      rw [some.injEq, some.injEq] at hslot
      exact .inr ⟨hslot.symm, by rw [hkey, heq], rfl⟩
    · exact .inl hslot
  | orphan | miss | answer | abandon => exact .inl hslot
  | refuse _ _ hslots | finish _ _ hslots =>
    rw [hslots, lookup_erase_eq] at hslot
    split at hslot
    · cases hslot
    · exact .inl hslot

theorem notified_of_begun (hbegun : job'.phase = .begun) : job'.notified = false := by
  have haft : job.afterExecution ≠ .begun := by
    unfold DispatchJob.afterExecution
    split <;> simp
  cases h with
  | keep _ _ _ hnot => exact absurd hbegun hnot.1
  | duplicate | overload | refuse => exact absurd hbegun haft
  | begin => rfl
  | register | orphan | miss | answer | abandon | finish => cases hbegun

/-- A handler that has begun only returns, and what is answered stays so. -/
theorem begun_or_answered (hreq : job.isRequest) (hold : job.phase.unanswered → job.phase = .begun)
    (hnew : job'.phase.unanswered) : False := by
  cases h with
  | keep _ _ hsame hbegun =>
    obtain hsame | hno := hsame
    · exact hbegun.2 (hold (by rw [← hsame]; exact hnew))
    · rw [hreq] at hno
      cases hno
  | register hph | duplicate hph | overload hph | refuse hph | orphan hph
  | miss hph | begin hph =>
    rw [hph] at hold
    cases hold rfl
  | answer | abandon | finish => cases hnew

/-- A request that is not answered has sent nothing and was not answered. -/
theorem unanswered_back (hreq : job.isRequest) (hunans : job'.phase.unanswered) :
    job.phase.unanswered ∧ reply = none := by
  have haft := job.unanswered_afterExecution
  cases h with
  | keep _ _ hsame =>
    obtain hsame | hno := hsame
    · exact ⟨hsame ▸ hunans, rfl⟩
    · rw [hreq] at hno
      cases hno
  | register hph | begin hph => exact ⟨by rw [hph]; rfl, rfl⟩
  | duplicate | overload | refuse =>
    rw [show job.afterExecution.unanswered = true from hunans] at haft
    cases haft
  | orphan | miss | answer | abandon | finish => cases hunans

theorem unanswered_of_reply
    {outcome : RpcOutcome} (hrpl : reply = some outcome) : job.phase.unanswered := by
  subst hrpl
  cases h with
  | duplicate hph | overload hph | refuse hph | answer hph =>
    rw [hph]
    rfl

omit h

end SlotStep

namespace WsServer

/-- The response frames that answer a job. -/
def responsesTo (s : WsServer) (j : ℕ) : List Response := s.responses.filter (·.job = j)

/-- A request that counts on its slot: neither begun, nor cancelled, nor
orphaned. -/
def awaits (s : WsServer) (job : DispatchJob) : Bool :=
  job.isRequest && job.phase.unbegun && !job.cancelled && (s.clients job.connectionId).connected

variable {s s' : WsServer} {job : DispatchJob} {j c : ℕ} {turn : Turn} {moved : Moved}
variable {action : WsAction}

theorem awaits_iff : s.awaits job ↔ job.isRequest ∧ job.phase.unbegun ∧ job.cancelled = false ∧
      (s.clients job.connectionId).connected := by
  simp [awaits, and_assoc]

/-! ## The invariant of the slots -/

/-- **The invariant of the slots.** A request that awaits its turn has a
slot, of its own; and the `Notify` in a slot is that of a request with
the slot's id. -/
structure SlotInv (floatText : Double → List Char) (s : WsServer) : Prop where
  reader : ∀ {j : ℕ} {job : DispatchJob}, s.jobs[j]? = some job → job.withReader →
    (s.clients job.connectionId).reading = some j
  uncancelled : ∀ {j : ℕ} {job : DispatchJob}, s.jobs[j]? = some job → job.phase.inReader →
    job.cancelled = false
  slot : ∀ {j : ℕ} {job : DispatchJob} {key : String}, s.jobs[j]? = some job → s.awaits job →
    job.requestKey floatText = some key →
    (s.clients job.connectionId).activeRequests.lookup key ≠ none
  unique : ∀ {j j' : ℕ} {job job' : DispatchJob}, s.jobs[j]? = some job →
    s.jobs[j']? = some job' → s.awaits job → s.awaits job' →
    job.connectionId = job'.connectionId →
    job.requestKey floatText = job'.requestKey floatText → j = j'
  owner : ∀ {c : ℕ} {key : String} {n : ℕ},
    (s.clients c).activeRequests.lookup key = some (some n) →
    ∃ job, s.jobs[n]? = some job ∧ job.connectionId = c ∧ job.requestKey floatText = some key ∧
      (job.phase.unanswered → job.phase = .begun)
  quiet : ∀ {j : ℕ} {job : DispatchJob}, s.jobs[j]? = some job → job.phase = .begun →
    job.cancelled = false →
    (s.clients job.connectionId).connected → job.notified = false

theorem slotInv_init : (wsMachine floatText).init.SlotInv floatText := by
  constructor <;> simp [wsMachine, WsClient.new]

theorem withReader_of_inReader (h : s.LaneInv) (hj : s.jobs[j]? = some job)
    (hin : job.phase.inReader) : job.withReader := by
  have hne : job.phase ≠ .done := by
    intro hph
    rw [hph] at hin
    cases hin
  simp [DispatchJob.withReader, h.early hj hin, hne]

/-- No other request counts on the slot that a finishing job takes. -/
def FinishesAlone (floatText : Double → List Char) (s : WsServer) (job : DispatchJob) : Prop :=
  job.phase = .closing → ∀ other ∈ s.jobs, other.connectionId = job.connectionId →
    other.requestKey floatText = job.requestKey floatText → s.awaits other = false

instance (s : WsServer) (job : DispatchJob) : Decidable (s.FinishesAlone floatText job) :=
  inferInstanceAs (Decidable (job.phase = .closing → ∀ other ∈ s.jobs,
    other.connectionId = job.connectionId →
    other.requestKey floatText = job.requestKey floatText → s.awaits other = false))

variable (h : s.SlotInv floatText)
include h

/-- **A job's step keeps the invariant of the slots**, if it takes no
slot that another request counts on. -/
theorem SlotInv.of_afterStep (hls : s.LaneInv) (hjob : s.jobs[j]? = some job)
    (hstep : jobStep floatText j turn job (s.clients job.connectionId) s.lanes s.permits =
      some moved) (halone : s.FinishesAlone floatText job) :
    (s.afterStep j job moved).SlotInv floatText := by
  obtain ⟨hconn, hslot⟩ := slotStep_of_jobStep hstep
  obtain ⟨hid, hmeth, hwork, hcanc⟩ := hslot.same
  obtain ⟨hrd, hread⟩ := reading_of_jobStep hstep
  have hrequest : moved.job.isRequest = job.isRequest := by
    rw [DispatchJob.isRequest, DispatchJob.isRequest, hwork]
  have hkey : moved.job.requestKey floatText = job.requestKey floatText := by
    rw [DispatchJob.requestKey, DispatchJob.requestKey, hwork]
  have hconnected : ∀ c, ((s.afterStep j job moved).clients c).connected =
      (s.clients c).connected := by
    intro c
    rw [clients_afterStep]
    split
    · next heq => rw [hconn, heq]
    · rfl
  have hawaits : ∀ other, (s.afterStep j job moved).awaits other = s.awaits other := by
    intro other
    rw [awaits, awaits, hconnected]
  -- who awaits a turn after the step did so before, or has just been registered
  have hold : ∀ {i job'}, (s.afterStep j job moved).jobs[i]? = some job' → s.awaits job' →
      (i ≠ j ∧ s.jobs[i]? = some job') ∨ (i = j ∧ job' = moved.job ∧
        (s.awaits job ∧ moved.client.activeRequests = (s.clients job.connectionId).activeRequests ∨
          ∃ key, job.requestKey floatText = some key ∧
          (s.clients job.connectionId).activeRequests.lookup key = none ∧
          moved.client.activeRequests =
            (s.clients job.connectionId).activeRequests.insert key none)) := by
    intro i job' hi hawait
    rw [jobs_afterStep hjob] at hi
    split at hi
    · next heq =>
      cases hi
      obtain ⟨hreq, hunbegun, hnot, hc⟩ := awaits_iff.1 hawait
      rw [hrequest] at hreq
      refine .inr ⟨heq, rfl, ?_⟩
      obtain ⟨hunbegun, hsame⟩ | hnew := hslot.unbegun hreq hunbegun
      · exact .inl ⟨awaits_iff.2 ⟨hreq, hunbegun, by rw [← hcanc]; exact hnot,
          by rw [← hid]; exact hc⟩, hsame⟩
      · exact .inr hnew
    · next hne => exact .inl ⟨hne, hi⟩
  constructor
  · -- reader
    intro i job' hi hin
    rw [jobs_afterStep hjob] at hi
    split at hi
    · next heq =>
      cases hi
      obtain ⟨hin', hsame⟩ := hrd hin
      rw [hid, clients_afterStep, if_pos rfl, hsame, heq]
      exact h.reader hjob hin'
    · next hne =>
      have hr := h.reader hi hin
      rw [clients_afterStep]
      split
      · next heq =>
        rw [heq] at hr
        -- were it the job's own reader, it would be handling the job
        have hother : ¬ job.withReader := by
          intro hj
          rw [h.reader hjob hj, some.injEq] at hr
          exact hne hr.symm
        obtain hsame | ⟨-, hrouted | hj⟩ := hread
        · rw [hsame, hr]
        · exact absurd (withReader_of_inReader hls hjob (by rw [hrouted]; rfl)) hother
        · exact absurd hj hother
      · exact hr
  · -- uncancelled
    intro i job' hi hin
    rw [jobs_afterStep hjob] at hi
    split at hi
    · cases hi
      rw [hcanc]
      exact h.uncancelled hjob ((laneStep_of_jobStep hstep).inReader_back hin).1
    · exact h.uncancelled hi hin
  · -- slot
    intro i job' key hi hawait hk
    rw [hawaits] at hawait
    rw [clients_afterStep]
    obtain ⟨hne, hi'⟩ | ⟨rfl, rfl, ⟨hawait', hsame⟩ | ⟨key', hk', -, hslots⟩⟩ := hold hi hawait
    · have hpresent := h.slot hi' hawait hk
      split
      · next heq =>
        rw [heq] at hpresent
        obtain hkept | ⟨hk', hph⟩ := hslot.slot_kept hpresent
        · exact hkept
        · exfalso
          obtain hph | hph := hph
          · -- a request refused is still with its reader, so it awaits its turn itself
            have hreq := DispatchJob.requestKey_eq_some hk'
            have hc := h.uncancelled hjob (by rw [hph]; rfl)
            have hconn' := (awaits_iff.1 hawait).2.2.2
            refine hne (h.unique hi' hjob hawait ?_ heq (by rw [hk, hk']))
            exact awaits_iff.2 ⟨hreq, by rw [hph]; rfl, hc, by rw [← heq]; exact hconn'⟩
          · have := halone hph _ (mem_of_getElem? hi') heq (by rw [hk, hk'])
            rw [hawait] at this
            cases this
      · exact hpresent
    · rw [hid, if_pos rfl, hsame]
      rw [hkey] at hk
      exact h.slot hjob hawait' hk
    · rw [hid, if_pos rfl, hslots]
      rw [hkey, hk', some.injEq] at hk
      rw [hk, AList.lookup_insert]
      simp
  · -- unique
    have hfresh : ∀ {i job'}, s.jobs[i]? = some job' → s.awaits job' →
        job'.connectionId = job.connectionId →
        job'.requestKey floatText = job.requestKey floatText →
        s.awaits job ∨ (∃ key, job.requestKey floatText = some key ∧
          (s.clients job.connectionId).activeRequests.lookup key = none) → i = j := by
      intro i job' hi hawait hc hk hnew
      obtain hnew | ⟨key, hkey', hnone⟩ := hnew
      · exact h.unique hi hjob hawait hnew hc hk
      · have hpresent := h.slot hi hawait (hk.trans hkey')
        rw [hc] at hpresent
        exact absurd hnone hpresent
    intro i i' job₁ job₂ hi hi' hawait hawait' hc hk
    rw [hawaits] at hawait hawait'
    obtain ⟨-, hi₁⟩ | ⟨rfl, rfl, hnew⟩ := hold hi hawait <;>
      obtain ⟨-, hi₂⟩ | ⟨rfl, rfl, hnew'⟩ := hold hi' hawait'
    · exact h.unique hi₁ hi₂ hawait hawait' hc hk
    · rw [hid] at hc
      rw [hkey] at hk
      exact hfresh hi₁ hawait hc hk (hnew'.imp And.left (Exists.imp fun _ h => ⟨h.1, h.2.1⟩))
    · rw [hid] at hc
      rw [hkey] at hk
      exact (hfresh hi₂ hawait' hc.symm hk.symm
        (hnew.imp And.left (Exists.imp fun _ h => ⟨h.1, h.2.1⟩))).symm
    · rfl
  · -- owner
    intro c key n hslot'
    have hown : ∀ job', s.jobs[n]? = some job' → job'.requestKey floatText = some key →
        (job'.phase.unanswered → job'.phase = .begun) → ∀ job'',
        (s.afterStep j job moved).jobs[n]? = some job'' → job''.connectionId = job'.connectionId ∧
          job''.requestKey floatText = some key ∧
          (job''.phase.unanswered → job''.phase = .begun) := by
      intro job' hn hk hbegun job'' hn'
      rw [jobs_afterStep hjob] at hn'
      split at hn'
      · next heq =>
        subst heq
        rw [hn, some.injEq] at hjob
        subst hjob
        cases hn'
        refine ⟨hid, hkey.trans hk, fun hun => ?_⟩
        exact (hslot.begun_or_answered (DispatchJob.requestKey_eq_some hk) hbegun hun).elim
      · rw [hn, some.injEq] at hn'
        subst hn'
        exact ⟨rfl, hk, hbegun⟩
    have haft : ∀ {n' : ℕ} {job' : DispatchJob}, s.jobs[n']? = some job' →
        ∃ job'', (s.afterStep j job moved).jobs[n']? = some job'' := by
      intro n' job' hn'
      rw [jobs_afterStep hjob]
      split
      · exact ⟨_, rfl⟩
      · exact ⟨_, hn'⟩
    rw [clients_afterStep] at hslot'
    split at hslot'
    · next heq =>
      subst heq
      obtain hslot' | ⟨rfl, hk, hbegun⟩ := hslot.owner hslot'
      · obtain ⟨job', hn, hc, hk, hbegun⟩ := h.owner hslot'
        obtain ⟨job'', hn'⟩ := haft hn
        obtain ⟨hc', hrest⟩ := hown job' hn hk hbegun job'' hn'
        exact ⟨job'', hn', hc'.trans hc, hrest⟩
      · refine ⟨moved.job, ?_, hid, hkey.trans hk, fun _ => hbegun⟩
        rw [jobs_afterStep hjob, if_pos rfl]
    · obtain ⟨job', hn, hc, hk, hbegun⟩ := h.owner hslot'
      obtain ⟨job'', hn'⟩ := haft hn
      obtain ⟨hc', hrest⟩ := hown job' hn hk hbegun job'' hn'
      exact ⟨job'', hn', hc'.trans hc, hrest⟩
  · -- quiet
    intro i job' hi hbegun hnot hc
    rw [hconnected] at hc
    rw [jobs_afterStep hjob] at hi
    split at hi
    · cases hi
      exact hslot.notified_of_begun hbegun
    · exact h.quiet hi hbegun hnot hc

/-- A frame keeps the slots, -/
theorem SlotInv.of_frame (method : String) (work : DispatchWork)
    (hidle : (s.clients c).reading = none) :
    (s.frame c method work).SlotInv floatText := by
  have hcls := @clients_frame s c method work
  have hnew : ∀ {i : ℕ} {job : DispatchJob}, (s.frame c method work).jobs[i]? = some job →
      s.jobs[i]? = some job ∨ i = s.jobs.length ∧ job.connectionId = c ∧
        (job.isRequest → job.phase.unbegun = false) ∧ job.phase ≠ .begun ∧
        job.cancelled = false := by
    intro i job hi
    obtain hi | ⟨hlen, hc, -, -, hph, -, -, hcanc⟩ := jobs_frame hi
    · exact .inl hi
    · refine .inr ⟨hlen, hc, ?_, ?_, hcanc⟩
      · intro hreq
        rw [hph, if_pos hreq]
        rfl
      · rw [hph]
        split <;> simp
  have hawaits : ∀ {i : ℕ} {job : DispatchJob},
      (s.frame c method work).jobs[i]? = some job → (s.frame c method work).awaits job →
      s.jobs[i]? = some job ∧ s.awaits job := by
    intro i job hi hawait
    obtain ⟨hreq, hunbegun, hcanc, hconn⟩ := awaits_iff.1 hawait
    rw [(hcls _).2.1] at hconn
    obtain hi | ⟨-, -, hno, -⟩ := hnew hi
    · exact ⟨hi, awaits_iff.2 ⟨hreq, hunbegun, hcanc, hconn⟩⟩
    · rw [hno hreq] at hunbegun
      cases hunbegun
  constructor
  · intro i job hi hin
    rw [(hcls _).2.2]
    obtain hi | ⟨hlen, hc, -⟩ := hnew hi
    · have hr := h.reader hi hin
      rw [if_neg, hr]
      intro heq
      rw [heq, hidle] at hr
      cases hr
    · rw [if_pos hc, hlen]
  · intro i job hi hin
    obtain hi | ⟨-, -, -, -, hcanc⟩ := hnew hi
    · exact h.uncancelled hi hin
    · exact hcanc
  · intro i job key hi hawait hkey
    obtain ⟨hi, hawait⟩ := hawaits hi hawait
    rw [(hcls _).1]
    exact h.slot hi hawait hkey
  · intro i i' job job' hi hi' hawait hawait' hc hkey
    obtain ⟨hi, hawait⟩ := hawaits hi hawait
    obtain ⟨hi', hawait'⟩ := hawaits hi' hawait'
    exact h.unique hi hi' hawait hawait' hc hkey
  · intro c' key n hslot
    rw [(hcls _).1] at hslot
    obtain ⟨job, hn, hrest⟩ := h.owner hslot
    refine ⟨job, ?_, hrest⟩
    rw [frame, getElem?_append_left (getElem?_eq_some_iff.1 hn).1, hn]
  · intro i job hi hbegun hcanc hconn
    rw [(hcls _).2.1] at hconn
    obtain hi | ⟨-, -, -, hno, -⟩ := hnew hi
    · exact h.quiet hi hbegun hcanc hconn
    · exact absurd hbegun hno

/-- **A step that sets flags** and takes slots of requests that are then no
longer awaited. -/
theorem SlotInv.of_flags (hforth : ∀ {i : ℕ} {job : DispatchJob}, s.jobs[i]? = some job →
      ∃ job', s'.jobs[i]? = some job' ∧ SameJob job job')
    (hread : ∀ c, (s'.clients c).reading = (s.clients c).reading)
    (hslots : ∀ {c : ℕ} {key : String} {n : ℕ},
      (s'.clients c).activeRequests.lookup key = some (some n) →
        (s.clients c).activeRequests.lookup key = some (some n))
    (hback : ∀ {i : ℕ} {job' : DispatchJob}, s'.jobs[i]? = some job' →
      ∃ job, s.jobs[i]? = some job ∧ SameJob job job' ∧
        (job.phase.inReader → job'.cancelled = job.cancelled) ∧
        (s'.awaits job' → s.awaits job ∧ ∀ key, job.requestKey floatText = some key →
          (s'.clients job.connectionId).activeRequests.lookup key =
            (s.clients job.connectionId).activeRequests.lookup key) ∧
        (job.phase = .begun → job'.cancelled = false →
          (s'.clients job.connectionId).connected → job'.notified = false)) :
    s'.SlotInv floatText := by
  constructor
  · intro i job' hi hin
    obtain ⟨job, hi, hsame, -⟩ := hback hi
    rw [DispatchJob.withReader, hsame.dispatched, hsame.phase] at hin
    rw [hread, hsame.connectionId]
    exact h.reader hi hin
  · intro i job' hi hin
    obtain ⟨job, hi, hsame, hcanc, -⟩ := hback hi
    rw [hsame.phase] at hin
    rw [hcanc hin]
    exact h.uncancelled hi hin
  · intro i job' key hi hawait hkey
    obtain ⟨job, hi, hsame, -, hawaits, -⟩ := hback hi
    obtain ⟨hawait, hget⟩ := hawaits hawait
    rw [hsame.requestKey] at hkey
    rw [hsame.connectionId, hget key hkey]
    exact h.slot hi hawait hkey
  · intro i i' job₁ job₂ hi hi' hawait hawait' hc hkey
    obtain ⟨job, hi, hsame, -, hawaits, -⟩ := hback hi
    obtain ⟨job', hi', hsame', -, hawaits', -⟩ := hback hi'
    rw [hsame.connectionId, hsame'.connectionId] at hc
    rw [hsame.requestKey, hsame'.requestKey] at hkey
    exact h.unique hi hi' (hawaits hawait).1 (hawaits' hawait').1 hc hkey
  · intro c key n hslot
    obtain ⟨job, hn, hc, hkey, hbegun⟩ := h.owner (hslots hslot)
    obtain ⟨job', hn', hsame⟩ := hforth hn
    refine ⟨job', hn', hsame.connectionId.trans hc, hsame.requestKey.trans hkey, ?_⟩
    rw [hsame.phase]
    exact hbegun
  · intro i job' hi hbegun hnot hconn
    obtain ⟨job, hi, hsame, -, -, hqt⟩ := hback hi
    rw [hsame.phase] at hbegun
    rw [hsame.connectionId] at hconn
    exact hqt hbegun hnot hconn

/-- A cancel frame takes a slot, and cancels whoever counts on it. -/
theorem SlotInv.of_cancelFrame (id : Value)
    (hidle : (s.clients c).reading = none) (hls : s.LaneInv) :
    (s.cancelFrame floatText c id).SlotInv floatText := by
  have hcls : ∀ c', ((s.cancelFrame floatText c id).clients c').connected =
      (s.clients c').connected ∧
      ((s.cancelFrame floatText c id).clients c').reading = (s.clients c').reading ∧
      ((s.cancelFrame floatText c id).clients c').activeRequests =
        if c' = c then (s.clients c').activeRequests.erase (requestKey floatText id)
        else (s.clients c').activeRequests := by
    intro c'
    by_cases hc : c' = c
    · subst hc
      simp [cancelFrame]
    · simp [cancelFrame, hc]
  refine h.of_flags marks_cancelFrame.forth (fun c' => (hcls c').2.1)
    (fun {c' key n} hslot => ?_) fun {i job'} hi => ?_
  · rw [(hcls _).2.2] at hslot
    split at hslot
    · rw [lookup_erase_eq] at hslot
      split at hslot
      · cases hslot
      · exact hslot
    · exact hslot
  · obtain ⟨job, hi, hsame, hnotified, hcanc⟩ := jobs_cancelFrame hi
    refine ⟨job, hi, hsame, fun hin => ?_, fun hawait => ?_, fun hbegun hnot hconn => ?_⟩
    · have hc : job.connectionId ≠ c := by
        intro hc
        have hr := h.reader hi (withReader_of_inReader hls hi hin)
        rw [hc, hidle] at hr
        cases hr
      rw [hcanc]
      simp [hc]
    · obtain ⟨hreq, hunbegun, hnot, hconn⟩ := awaits_iff.1 hawait
      rw [(hcls _).1, hsame.connectionId] at hconn
      rw [hsame.phase] at hunbegun
      rw [hcanc, Bool.or_eq_false_iff, unanswered_of_unbegun hunbegun] at hnot
      refine ⟨awaits_iff.2 ⟨hsame.isRequest ▸ hreq, hunbegun, hnot.1, hconn⟩, fun key hkey => ?_⟩
      rw [(hcls _).2.2]
      split
      · next hc =>
        rw [lookup_erase_eq, if_neg]
        rintro rfl
        simp [hc, hkey] at hnot
      · rfl
    · rw [(hcls _).1] at hconn
      rw [hcanc, Bool.or_eq_false_iff] at hnot
      rw [hnotified, h.quiet hi hbegun hnot.1 hconn, Bool.false_or, decide_eq_false_iff_not]
      -- the `Notify` notified is that of a request with this id, which is cancelled
      intro hslot
      obtain ⟨owner, hi', hc, hkey, -⟩ := h.owner hslot
      rw [hi, some.injEq] at hi'
      subst hi'
      simp [hc, hkey, hbegun, unanswered] at hnot

/-- a connection that ends keeps them, -/
theorem SlotInv.of_markDisconnected (c : ℕ) : (s.markDisconnected c).SlotInv floatText := by
  have hcls : ∀ c', ((s.markDisconnected c).clients c').reading = (s.clients c').reading ∧
      (((s.markDisconnected c).clients c').connected → c' ≠ c ∧ (s.clients c').connected) ∧
      ((s.markDisconnected c).clients c').activeRequests =
        if c' = c then ∅ else (s.clients c').activeRequests := by
    intro c'
    by_cases hc : c' = c
    · subst hc
      simp [markDisconnected]
    · simp [markDisconnected, hc]
  refine h.of_flags marks_markDisconnected.forth (fun c' => (hcls c').1)
    (fun {c' key n} hslot => ?_) fun {i job'} hi => ?_
  · rw [(hcls _).2.2] at hslot
    split at hslot
    · cases hslot
    · exact hslot
  · obtain ⟨job, hi, hsame, hcanc, hnotified⟩ := jobs_markDisconnected hi
    refine ⟨job, hi, hsame, fun _ => hcanc, fun hawait => ?_, fun hbegun hnot hconn => ?_⟩
    · obtain ⟨hreq, hunbegun, hnot, hconn⟩ := awaits_iff.1 hawait
      obtain ⟨hne, hconn⟩ := (hcls _).2.1 hconn
      rw [hsame.connectionId] at hne hconn
      refine ⟨awaits_iff.2 ⟨hsame.isRequest ▸ hreq, hsame.phase ▸ hunbegun,
        hcanc ▸ hnot, hconn⟩, fun key _ => ?_⟩
      rw [(hcls _).2.2, if_neg hne]
    · obtain ⟨hne, hconn⟩ := (hcls _).2.1 hconn
      rw [hcanc] at hnot
      rw [hnotified, h.quiet hi hbegun hnot hconn, Bool.false_or, decide_eq_false_iff_not]
      -- the slots drained are those of the client disconnected
      intro hmem
      obtain ⟨⟨key, slot⟩, hent, heq⟩ := mem_map.1 hmem
      obtain rfl : slot = some i := heq
      obtain ⟨owner, hi', hc, -⟩ := h.owner (mem_entries_iff.1 hent)
      rw [hi, some.injEq] at hi'
      exact hne (hi' ▸ hc)

/-- and so does a job received. -/
theorem SlotInv.of_receive (hls : s.LaneInv) {key : String}
    (hrecv : s.receive key = some s') : s'.SlotInv floatText := by
  obtain ⟨mode, j, queue, job, hlane, hjob, rfl⟩ := receive_eq_some.1 hrecv
  obtain ⟨job₀, hjob₀, hph, -⟩ := hls.queued hlane (mem_cons_self ..)
  rw [hjob, some.injEq] at hjob₀
  subst hjob₀
  have hdisp := hls.sent hjob (.inl hph)
  have hjobs := @getElem?_set_of_eq_some DispatchJob s.jobs j job
    { job with phase := if mode = .serial then .waiting else .held } hjob
  have hback : ∀ {i : ℕ} {job' : DispatchJob},
      (s.jobs.set j { job with phase := if mode = .serial then .waiting else .held })[i]? =
        some job' →
      s.jobs[i]? = some job' ∨ i = j ∧
        job' = { job with phase := if mode = .serial then .waiting else .held } := by
    intro i job' hi
    rw [hjobs] at hi
    split at hi
    · next heq => exact .inr ⟨heq, (some.inj hi).symm⟩
    · exact .inl hi
  have hawaits : ∀ {i : ℕ} {job' : DispatchJob},
      (s.jobs.set j { job with phase := if mode = .serial then .waiting else .held })[i]? =
        some job' → s.awaits job' →
      ∃ job₀, s.jobs[i]? = some job₀ ∧ s.awaits job₀ ∧ job₀.connectionId = job'.connectionId ∧
        job₀.requestKey floatText = job'.requestKey floatText := by
    intro i job' hi hawait
    obtain hi | ⟨rfl, rfl⟩ := hback hi
    · exact ⟨job', hi, hawait, rfl, rfl⟩
    · obtain ⟨hreq, -, hcanc, hconn⟩ := awaits_iff.1 hawait
      exact ⟨job, hjob, awaits_iff.2 ⟨hreq, by rw [hph]; rfl, hcanc, hconn⟩, rfl, rfl⟩
  constructor
  · intro i job' hi hin
    obtain hi | ⟨-, rfl⟩ := hback hi
    · exact h.reader hi hin
    · simp [DispatchJob.withReader, hdisp] at hin
  · intro i job' hi hin
    obtain hi | ⟨-, rfl⟩ := hback hi
    · exact h.uncancelled hi hin
    · split at hin <;> cases hin
  · intro i job' key hi hawait hkey
    obtain ⟨job₀, hi, hawait, hc, hk⟩ := hawaits hi hawait
    rw [← hc]
    exact h.slot hi hawait (hk.trans hkey)
  · intro i i' job₁ job₂ hi hi' hawait hawait' hc hkey
    obtain ⟨job₀, hi, hawait, hc₀, hk₀⟩ := hawaits hi hawait
    obtain ⟨job₀', hi', hawait', hc₀', hk₀'⟩ := hawaits hi' hawait'
    exact h.unique hi hi' hawait hawait' ((hc₀.trans hc).trans hc₀'.symm)
      ((hk₀.trans hkey).trans hk₀'.symm)
  · intro c' key n hslot
    obtain ⟨job', hn, hc, hkey, hbegun⟩ := h.owner hslot
    refine ⟨job', ?_, hc, hkey, hbegun⟩
    rw [hjobs, if_neg, hn]
    -- a queued job has no `Notify` yet
    rintro rfl
    rw [hjob, some.injEq] at hn
    subst hn
    rw [hph] at hbegun
    cases hbegun rfl
  · intro i job' hi hbegun hcanc hconn
    obtain hi | ⟨-, rfl⟩ := hback hi
    · exact h.quiet hi hbegun hcanc hconn
    · split at hbegun <;> cases hbegun

omit h

/-! ## The responses -/

/-- A step adds a response to its own job only. -/
theorem responsesTo_afterStep (i : ℕ) : (s.afterStep j job moved).responsesTo i = s.responsesTo i ++
      if i = j then reply job j (s.clients job.connectionId).connected moved.reply else [] := by
  have hmine : ∀ r ∈ reply job j (s.clients job.connectionId).connected moved.reply, r.job = j := by
    intro r hr
    unfold reply at hr
    split at hr
    · split at hr
      · split at hr
        · rw [mem_singleton.1 hr]
        · cases hr
      · cases hr
    · cases hr
  rw [responsesTo, afterStep, filter_append, responsesTo]
  congr 1
  split
  · next heq =>
    rw [filter_eq_self]
    intro r hr
    simp [hmine r hr, heq]
  · next hne =>
    rw [filter_eq_nil_iff]
    intro r hr
    simp [hmine r hr, Ne.symm hne]

/-- There is one reply at most. -/
theorem length_reply_le (job : DispatchJob) (j : ℕ) (connected : Bool)
    (outcome : Option RpcOutcome) :
    (reply job j connected outcome).length ≤ 1 := by
  unfold reply
  split
  · split
    · split <;> simp
    · simp
  · simp

/-- A notification has no reply. -/
theorem reply_notification (h : job.isRequest = false) (j : ℕ) (connected : Bool)
    (outcome : Option RpcOutcome) : reply job j connected outcome = [] := by
  unfold reply
  unfold DispatchJob.isRequest at h
  split
  · split
    · next hwork =>
      rw [hwork] at h
      cases h
    · rfl
  · rfl

/-- **The invariant of the responses**, in every run: a job is answered at
most once, and not before its handler returns. -/
structure ResponseInv (s : WsServer) : Prop where
  known : ∀ {r : Response}, r ∈ s.responses → ∃ job message, s.jobs[r.job]? = some job ∧
    job.connectionId = r.connectionId ∧ job.work = .request r.id message
  unanswered : ∀ {j : ℕ} {job : DispatchJob}, s.jobs[j]? = some job → job.isRequest →
    job.phase.unanswered → s.responsesTo j = []
  once : ∀ j, (s.responsesTo j).length ≤ 1

theorem responseInv_init : (wsMachine floatText).init.ResponseInv := by
  constructor <;> simp [wsMachine, responsesTo]

/-- Steps that send nothing and answer no job keep the responses. -/
theorem ResponseInv.of_quiet (h : s.ResponseInv) (hresps : s'.responses = s.responses)
    (hforth : ∀ {j : ℕ} {job : DispatchJob}, s.jobs[j]? = some job →
      ∃ job', s'.jobs[j]? = some job' ∧
      job'.connectionId = job.connectionId ∧ job'.work = job.work)
    (hback : ∀ {j : ℕ} {job' : DispatchJob}, s'.jobs[j]? = some job' → job'.isRequest →
      job'.phase.unanswered →
      (∃ job, s.jobs[j]? = some job ∧ job.isRequest ∧ job.phase.unanswered) ∨ s.jobs[j]? = none) :
    s'.ResponseInv := by
  have hto : ∀ j, s'.responsesTo j = s.responsesTo j := fun j => by
    rw [responsesTo, responsesTo, hresps]
  constructor
  · intro r hr
    rw [hresps] at hr
    obtain ⟨job, msg, hj, hc, hwork⟩ := h.known hr
    obtain ⟨job', hj', hc', hwork'⟩ := hforth hj
    exact ⟨job', msg, hj', hc'.trans hc, hwork'.trans hwork⟩
  · intro j job' hj hreq hunans
    rw [hto]
    obtain ⟨job, hj, hreq, hunans⟩ | hnone := hback hj hreq hunans
    · exact h.unanswered hj hreq hunans
    · rw [responsesTo, filter_eq_nil_iff]
      intro r hr
      obtain ⟨job, msg, hj', -⟩ := h.known hr
      simp only [decide_eq_true_eq]
      rintro rfl
      rw [hnone] at hj'
      cases hj'
  · intro j
    rw [hto]
    exact h.once j

/-- Marks of the jobs keep the responses. -/
theorem ResponseInv.of_marks (h : s.ResponseInv) (hmarks : Marks s.jobs s'.jobs)
    (hresps : s'.responses = s.responses) :
    s'.ResponseInv := by
  refine h.of_quiet hresps ?_ ?_
  · intro j job hj
    obtain ⟨job', hj', hsame⟩ := hmarks.forth hj
    exact ⟨job', hj', hsame.connectionId, hsame.work⟩
  · intro j job' hj hreq hunans
    obtain ⟨job, hj', hsame⟩ := hmarks.back hj
    exact .inl ⟨job, hj', hsame.isRequest ▸ hreq, hsame.phase ▸ hunans⟩

/-- **A job's step answers at most the job**, and a job that is answered
goes on answered. -/
theorem ResponseInv.of_afterStep (h : s.ResponseInv) (hjob : s.jobs[j]? = some job)
    (hstep : jobStep floatText j turn job (s.clients job.connectionId) s.lanes s.permits =
      some moved) : (s.afterStep j job moved).ResponseInv := by
  obtain ⟨-, hslot⟩ := slotStep_of_jobStep hstep
  obtain ⟨hid, -, hwork, -⟩ := hslot.same
  have hjobs := @jobs_afterStep s j job moved hjob
  constructor
  · intro r hr
    have hforth : ∀ {i : ℕ} {job' : DispatchJob}, s.jobs[i]? = some job' → ∃ job'',
        (s.afterStep j job moved).jobs[i]? = some job'' ∧
        job''.connectionId = job'.connectionId ∧ job''.work = job'.work := by
      intro i job' hi
      rw [hjobs]
      split
      · next heq =>
        rw [heq, hjob, some.injEq] at hi
        subst hi
        exact ⟨_, rfl, hid, hwork⟩
      · exact ⟨job', hi, rfl, rfl⟩
    obtain hr | hr := mem_append.1 hr
    · obtain ⟨job', msg, hj, hc, hw⟩ := h.known hr
      obtain ⟨job'', hj', hc', hw'⟩ := hforth hj
      exact ⟨job'', msg, hj', hc'.trans hc, hw'.trans hw⟩
    · obtain ⟨job'', hj', hc', hw'⟩ := hforth hjob
      unfold reply at hr
      split at hr
      · split at hr
        · next id msg hreq =>
          split at hr
          · rw [mem_singleton.1 hr]
            exact ⟨job'', msg, hj', hc', hw'.trans hreq⟩
          · cases hr
        · cases hr
      · cases hr
  · intro i job' hi hreq hunans
    rw [hjobs] at hi
    rw [responsesTo_afterStep]
    split at hi
    · next heq =>
      cases hi
      rw [DispatchJob.isRequest, hwork, ← DispatchJob.isRequest] at hreq
      obtain ⟨hold, hnone⟩ := hslot.unanswered_back hreq hunans
      rw [heq, if_pos rfl, h.unanswered hjob hreq hold, hnone]
      rfl
    · next hne =>
      rw [if_neg hne, append_nil]
      exact h.unanswered hi hreq hunans
  · intro i
    rw [responsesTo_afterStep]
    split
    · next heq =>
      subst heq
      cases hrpl : moved.reply with
      | none =>
        rw [reply, append_nil]
        exact h.once i
      | some outcome =>
        cases hreq : job.isRequest with
        | true =>
          rw [h.unanswered hjob hreq (hslot.unanswered_of_reply hrpl), nil_append]
          exact length_reply_le ..
        | false =>
          rw [reply_notification hreq, append_nil]
          exact h.once i
    · rw [append_nil]
      exact h.once i

/-- Every step keeps the responses. -/
theorem ResponseInv.of_step (h : s.ResponseInv) (hls : s.LaneInv)
    (hstep : (wsMachine floatText).step s action = some s') :
    s'.ResponseInv := by
  cases action with
  | connect =>
    cases hstep
    exact { h with }
  | frame c method work =>
    cases (ite_none_right_eq_some.1 hstep).2
    refine h.of_quiet rfl ?_ ?_
    · intro j job hj
      refine ⟨job, ?_, rfl, rfl⟩
      rw [frame, getElem?_append_left (getElem?_eq_some_iff.1 hj).1, hj]
    · intro j job' hj hreq hunans
      obtain hj | ⟨hlen, -⟩ := jobs_frame hj
      · exact .inl ⟨job', hj, hreq, hunans⟩
      · exact .inr (getElem?_eq_none (by omega))
  | cancelFrame c id =>
    cases (ite_none_right_eq_some.1 hstep).2
    exact h.of_marks marks_cancelFrame rfl
  | markDisconnected c =>
    cases hstep
    exact h.of_marks marks_markDisconnected rfl
  | receive key =>
    obtain ⟨mode, i, queue, job, hlane, hjob, rfl⟩ := receive_eq_some.1 hstep
    obtain ⟨job₀, hjob₀, hph, -⟩ := hls.queued hlane (mem_cons_self ..)
    rw [hjob, some.injEq] at hjob₀
    subst hjob₀
    have hjobs := @getElem?_set_of_eq_some DispatchJob s.jobs i job
      { job with phase := if mode = .serial then .waiting else .held } hjob
    refine h.of_quiet rfl ?_ ?_
    · intro j job' hj
      rw [hjobs]
      split
      · next heq =>
        rw [heq, hjob, some.injEq] at hj
        subst hj
        exact ⟨_, rfl, rfl, rfl⟩
      · exact ⟨job', hj, rfl, rfl⟩
    · intro j job' hj hreq hunans
      rw [hjobs] at hj
      split at hj
      · next heq =>
        cases hj
        exact .inl ⟨job, heq ▸ hjob, hreq, by rw [hph]; rfl⟩
      · exact .inl ⟨job', hj, hreq, hunans⟩
  | job j turn =>
    obtain ⟨job, moved, hjob, hmov, rfl⟩ := stepJob_eq_some.1 hstep
    exact h.of_afterStep hjob hmov

theorem responseInv_of_reachable (h : (wsMachine floatText).Reachable s) : s.ResponseInv :=
  h.rule responseInv_init fun _ _ _ hreach hinv hstep =>
    hinv.of_step (laneInv_of_reachable hreach) hstep

/-! ## The runs in which no slot is taken from another request -/

/-- Nothing but registrations of the connection's own lane is still to
pass the registration barrier. -/
def LaneClear (s : WsServer) (c : ℕ) : Prop :=
  ∀ other ∈ s.jobs, other.connectionId = c → other.laneKey = connectionLane c →
    other.isRegistration = false → other.phase ∉ [.queued, .held, .waiting]

instance (s : WsServer) (c : ℕ) : Decidable (s.LaneClear c) :=
  inferInstanceAs (Decidable (∀ other ∈ s.jobs, other.connectionId = c →
    other.laneKey = connectionLane c → other.isRegistration = false →
    other.phase ∉ [.queued, .held, .waiting]))

/-- **The condition on a step**: a job that finishes takes no slot another
request counts on, and a registration frame comes when no other request
of the connection's own lane is still to pass the registration
barrier. -/
def Orderly (floatText : Double → List Char) (s : WsServer) : WsAction → Prop
  | .job j _ => ∀ job ∈ s.jobs[j]?, s.FinishesAlone floatText job
  | .frame c method (.request _ _) => method = "remux/clients/register" → s.LaneClear c
  | _ => True

instance (s : WsServer) : (action : WsAction) → Decidable (s.Orderly floatText action)
  | .job j _ => inferInstanceAs (Decidable (∀ job ∈ s.jobs[j]?, s.FinishesAlone floatText job))
  | .frame c method (.request _ _) =>
    inferInstanceAs (Decidable (method = "remux/clients/register" → s.LaneClear c))
  | .frame _ _ (.notification _) => .isTrue trivial
  | .connect | .cancelFrame .. | .markDisconnected _ | .receive _ => .isTrue trivial

/-- **The invariant of the orderly runs**: the slots', and every request
that was answered, is connected and was not cancelled has its
response. -/
structure AnswerInv (floatText : Double → List Char) (s : WsServer) : Prop where
  slots : s.SlotInv floatText
  answered : ∀ {j : ℕ} {job : DispatchJob}, s.jobs[j]? = some job → job.isRequest →
    job.phase.unanswered = false → job.cancelled = false →
    (s.clients job.connectionId).connected → (s.responsesTo j).length = 1

/-- **Where a request stops being unanswered, its response is sent**,
unless it is cancelled or orphaned. -/
theorem AnswerInv.of_afterStep (h : s.AnswerInv floatText) (hls : s.LaneInv)
    (hresps : s.ResponseInv) (hjob : s.jobs[j]? = some job)
    (hstep : jobStep floatText j turn job (s.clients job.connectionId) s.lanes s.permits =
      some moved) (halone : s.FinishesAlone floatText job) :
    (s.afterStep j job moved).AnswerInv floatText := by
  refine ⟨h.slots.of_afterStep hls hjob hstep halone, ?_⟩
  obtain ⟨hconn, hslot⟩ := slotStep_of_jobStep hstep
  obtain ⟨hid, -, hwork, hcanc⟩ := hslot.same
  intro i job' hi hreq hansd hnot hconnected
  have hconn' : (s.clients job'.connectionId).connected := by
    rw [clients_afterStep] at hconnected
    split at hconnected
    · next heq => rwa [heq, ← hconn]
    · exact hconnected
  rw [jobs_afterStep hjob] at hi
  rw [responsesTo_afterStep]
  split at hi
  · next heq =>
    subst heq
    cases hi
    rw [if_pos rfl]
    rw [hid] at hconn'
    rw [hcanc] at hnot
    rw [DispatchJob.isRequest, hwork, ← DispatchJob.isRequest] at hreq
    have hsend : ∀ outcome, job.phase.unanswered → moved.reply = some outcome →
        (s.responsesTo i ++ reply job i (s.clients job.connectionId).connected
          moved.reply).length = 1 := by
      intro outcome hunans hrpl
      rw [hresps.unanswered hjob hreq hunans, nil_append, hrpl, reply]
      unfold DispatchJob.isRequest at hreq
      split
      · rw [hconn', if_pos rfl]
        rfl
      · next hwork =>
        rw [hwork] at hreq
        cases hreq
    have hold : job.phase.unanswered = false → moved.reply = none →
        (s.responsesTo i ++ reply job i (s.clients job.connectionId).connected
          moved.reply).length = 1 := by
      intro hansd hrpl
      rw [hrpl, reply, append_nil]
      exact h.answered hjob hreq hansd hnot hconn'
    have hawaits : job.phase.unbegun → s.awaits job := fun hunbegun =>
      awaits_iff.2 ⟨hreq, hunbegun, hnot, hconn'⟩
    obtain ⟨job', client', lanes', permits', reply'⟩ := moved
    replace hslot : SlotStep floatText i job _ job' client' reply' := hslot
    cases hslot with
    | keep _ _ hsame =>
      obtain hsame | hno := hsame
      · exact hold (hsame ▸ hansd) rfl
      · rw [hreq] at hno
        cases hno
    | register | begin => cases hansd
    | duplicate hph | overload hph | refuse hph | answer hph =>
      exact hsend _ (by rw [hph]; rfl) rfl
    | orphan _ _ hgone =>
      rw [hgone] at hconn'
      cases hconn'
    | miss hph hkey hmiss =>
      exact absurd hmiss (h.slots.slot hjob (hawaits (by rw [hph]; rfl)) hkey)
    | abandon hph hnotified =>
      rw [h.slots.quiet hjob hph hnot hconn'] at hnotified
      cases hnotified
    | finish hph => exact hold (by rw [hph]; rfl) rfl
  · next hne =>
    rw [if_neg hne, append_nil]
    exact h.answered hi hreq hansd hnot hconn'

theorem answerInv_init : (wsMachine floatText).init.AnswerInv floatText :=
  ⟨slotInv_init, by simp [wsMachine]⟩

/-- Every orderly step keeps the answers. -/
theorem AnswerInv.of_step (h : s.AnswerInv floatText) (hls : s.LaneInv)
    (hresps : s.ResponseInv) (hordl : s.Orderly floatText action)
    (hstep : (wsMachine floatText).step s action = some s') : s'.AnswerInv floatText := by
  cases action with
  | connect =>
    cases hstep
    exact ⟨⟨h.slots.reader, h.slots.uncancelled, h.slots.slot, h.slots.unique, h.slots.owner,
      h.slots.quiet⟩, h.answered⟩
  | frame c method work =>
    obtain ⟨hidle, ⟨⟩⟩ := ite_none_right_eq_some.1 hstep
    refine ⟨h.slots.of_frame method work hidle.2, ?_⟩
    intro j job hj hreq hansd hnot hconn
    rw [(clients_frame _).2.1] at hconn
    obtain hj | ⟨-, -, -, -, hph, -⟩ := jobs_frame hj
    · exact h.answered hj hreq hansd hnot hconn
    · rw [hph, if_pos hreq] at hansd
      cases hansd
  | cancelFrame c id =>
    obtain ⟨hidle, ⟨⟩⟩ := ite_none_right_eq_some.1 hstep
    refine ⟨h.slots.of_cancelFrame id hidle.2 hls, ?_⟩
    intro j job' hj hreq hansd hnot hconn
    obtain ⟨job, hj, hsame, -, hcanc⟩ := jobs_cancelFrame hj
    rw [hcanc, Bool.or_eq_false_iff] at hnot
    rw [hsame.phase] at hansd
    rw [hsame.connectionId] at hconn
    refine h.answered hj (hsame.isRequest ▸ hreq) hansd hnot.1 ?_
    by_cases hc : job.connectionId = c
    · rw [hc] at hconn ⊢
      simpa [cancelFrame] using hconn
    · simpa [cancelFrame, hc] using hconn
  | markDisconnected c =>
    cases hstep
    refine ⟨h.slots.of_markDisconnected c, ?_⟩
    intro j job' hj hreq hansd hnot hconn
    obtain ⟨job, hj, hsame, hcanc, -⟩ := jobs_markDisconnected hj
    rw [hsame.phase] at hansd
    rw [hsame.connectionId] at hconn
    refine h.answered hj (hsame.isRequest ▸ hreq) hansd (hcanc ▸ hnot) ?_
    by_cases hc : job.connectionId = c
    · simp [markDisconnected, hc] at hconn
    · simpa [markDisconnected, hc] using hconn
  | receive key =>
    refine ⟨h.slots.of_receive hls hstep, ?_⟩
    obtain ⟨mode, i, queue, job, hlane, hjob, rfl⟩ := receive_eq_some.1 hstep
    intro j job' hj hreq hansd hnot hconn
    rw [getElem?_set_of_eq_some hjob] at hj
    split at hj
    · cases hj
      split at hansd <;> cases hansd
    · exact h.answered hj hreq hansd hnot hconn
  | job j turn =>
    obtain ⟨job, moved, hjob, hmov, rfl⟩ := stepJob_eq_some.1 hstep
    exact h.of_afterStep hls hresps hjob hmov (hordl job hjob)

/-- The machine of the orderly runs. -/
abbrev orderlyMachine (floatText : Double → List Char) : Machine WsServer WsAction :=
  (wsMachine floatText).restrict fun s action => s.Orderly floatText action

theorem answerInv_of_reachable (h : (orderlyMachine floatText).Reachable s) :
    s.AnswerInv floatText := by
  refine h.rule answerInv_init fun s _ _ hreach hinv hstep => ?_
  obtain ⟨hordl, hstep⟩ := Machine.restrict_step_eq_some.1 hstep
  exact hinv.of_step (laneInv_of_reachable hreach.of_restrict)
    (responseInv_of_reachable hreach.of_restrict) hordl hstep

end WsServer

end

end Remux
