import Remux.Common.Lists
import Remux.Common.Machine

/-!
# Waiting for the history of a conversation

The readers of one execution's native history share a job and leave it as
their signals are aborted; the last one to leave aborts the job. An aborted
job can be joined until its promise settles, and a reader that does so is
told of a cancellation that was not its own (`cancellation_inherited`).
-/

namespace Remux

open Machine
open List hiding getElem?_eq_some_iff
open Option

/-- How a promise has settled. -/
inductive HistoryResult where
  | done
  | failed
  /-- With an abort error. -/
  | aborted
  deriving DecidableEq

/-- Where the run of a job stands. -/
inductive HydrationPhase where
  | running
  /-- `runHistorySynchronization` has ended, its `finally` is due. -/
  | finished (result : HistoryResult)
  | settled (result : HistoryResult)
  deriving DecidableEq

/-- `HistoryHydrationJob`. -/
structure HydrationJob where
  waiters : ℕ
  aborted : Bool
  phase : HydrationPhase

/-- Where a call stands that waits for a job. -/
inductive ReaderPhase where
  | waiting
  /-- The awaited promise has settled, the `finally` is due. -/
  | leaving (result : HistoryResult)
  | left (result : HistoryResult)
  deriving DecidableEq

/-- A call of `synchronizeConversationHistory`, and whether its own signal has
been aborted. -/
structure HistoryReader where
  job : ℕ
  aborted : Bool
  phase : ReaderPhase
  deriving DecidableEq

namespace HydrationPhase

/-- What the run came to, once it has ended. -/
def result : HydrationPhase → Option HistoryResult
  | running => none
  | finished result | settled result => some result

/-- The promise of the job has settled. -/
def isSettled : HydrationPhase → Bool
  | settled _ => true
  | _ => false

end HydrationPhase

namespace HistoryReader

/-- It has not run its `finally`. -/
def stays (r : HistoryReader) : Bool :=
  match r.phase with
  | .left _ => false
  | _ => true

/-- What the call came to, once it has stopped waiting. -/
def result (r : HistoryReader) : Option HistoryResult :=
  match r.phase with
  | .waiting => none
  | .leaving result | .left result => some result

end HistoryReader

/-- The jobs of one conversation and the calls that wait for them. -/
structure HistoryState where
  jobs : List HydrationJob
  /-- The entry of `hydrationJobs`. -/
  current : Option ℕ
  readers : List HistoryReader
  closed : Bool

/-- The steps of the calls, of the runs and of the coordinator. -/
inductive HistoryAction where
  /-- With a signal that is not aborted; another is refused at once. -/
  | join
  | abort (r : ℕ)
  | deliver (r : ℕ)
  | leave (r : ℕ)
  /-- A run ends; what it threw, if it threw, is an abort error or not. -/
  | finish (j : ℕ) (thrown : Option Bool)
  | settle (j : ℕ)
  | close

namespace HydrationJob

/-- The `catch` of `runHistorySynchronization`. -/
def ends (job : HydrationJob) (closed : Bool) : Option Bool → HydrationJob
  | none => { job with phase := .finished .done }
  | some abortError =>
    { job with
      phase := .finished (if abortError || job.aborted || closed then .aborted else .failed) }

/-- The `finally` of a reader. -/
def release (job : HydrationJob) : HydrationJob :=
  { job with
    waiters := job.waiters - 1
    aborted := job.aborted || job.waiters - 1 = 0 && !job.phase.isSettled }

end HydrationJob

/-- **The machine of the readers.** -/
def historyMachine : Machine HistoryState HistoryAction where
  init := ⟨[], none, [], false⟩
  step s
    | .join =>
      match s.current with
      | none => some { s with
          jobs := s.jobs ++ [⟨1, false, .running⟩], current := some s.jobs.length
          readers := s.readers ++ [⟨s.jobs.length, false, .waiting⟩] }
      | some j => (s.jobs[j]?).map fun job => { s with
          jobs := s.jobs.set j { job with waiters := job.waiters + 1 }
          readers := s.readers ++ [⟨j, false, .waiting⟩] }
    | .abort r => (s.readers[r]?).map fun reader => { s with
        readers := s.readers.set r { reader with
          aborted := true
          phase := if reader.phase = .waiting then .leaving .aborted else reader.phase } }
    | .deliver r => (s.readers[r]?).bind fun reader => (s.jobs[reader.job]?).bind fun job =>
        match reader.phase, job.phase with
        | .waiting, .settled result =>
          some { s with readers := s.readers.set r { reader with phase := .leaving result } }
        | _, _ => none
    | .leave r => (s.readers[r]?).bind fun reader => (s.jobs[reader.job]?).bind fun job =>
        match reader.phase with
        | .leaving result => some { s with
            readers := s.readers.set r { reader with phase := .left result }
            jobs := s.jobs.set reader.job job.release }
        | _ => none
    | .finish j thrown => (s.jobs[j]?).bind fun job =>
        if job.phase = .running then some { s with jobs := s.jobs.set j (job.ends s.closed thrown) }
        else none
    | .settle j => (s.jobs[j]?).bind fun job =>
        match job.phase with
        | .finished result => some { s with
            jobs := s.jobs.set j { job with phase := .settled result }
            current := if s.current = some j then none else s.current }
        | _ => none
    | .close => some { s with
        closed := true
        jobs := s.jobs.mapIdx fun j job =>
          if s.current = some j then { job with aborted := true } else job }

namespace HistoryState

variable (s : HistoryState)

/-- No reader joins a job that has been aborted, and a run that has not been
throws no abort error of its own. -/
def isHeeded : HistoryAction → Bool
  | .join => s.current.all fun j => (s.jobs[j]?).all (!·.aborted)
  | .finish j (some true) => s.closed || (s.jobs[j]?).all (·.aborted)
  | _ => true

/-- Who counts as waiting for a job. -/
def staysFor (j : ℕ) (r : HistoryReader) : Bool := r.job = j && r.stays

/-- A job has been aborted for a reason: all have left it, or the coordinator
was closed. -/
structure Kept (readers : List HistoryReader) (closed : Bool) (j : ℕ)
    (job : HydrationJob) : Prop where
  waiters : job.waiters = readers.countP (staysFor j)
  aborted : job.aborted = true → closed = true ∨ job.waiters = 0
  result : job.phase.result = some .aborted → closed = true ∨ job.aborted = true

/-- **The invariant**: each job counts the calls that stay with it. -/
structure HistoryInv (s : HistoryState) : Prop where
  jobs : ∀ j job, s.jobs[j]? = some job → Kept s.readers s.closed j job
  known : ∀ r ∈ s.readers, r.job < s.jobs.length
  told : ∀ r ∈ s.readers, r.result = some .aborted → s.closed = true ∨ r.aborted = true

end HistoryState

namespace HistoryState

variable {s s' : HistoryState} {a : HistoryAction} {j r : ℕ} {job job' : HydrationJob}
variable {reader reader' : HistoryReader}

/-- A job that is kept may be set in its place. -/
theorem HistoryInv.setJob (h : s.HistoryInv) (hjob : Kept s.readers s.closed j job')
    (current : Option ℕ) : HistoryInv { s with jobs := s.jobs.set j job', current } where
  jobs i job hi := by
    rw [getElem?_set] at hi
    split at hi
    · next hij =>
      obtain ⟨-, hi⟩ := ite_none_right_eq_some.1 hi
      cases hi
      exact hij ▸ hjob
    · exact h.jobs i job hi
  known r hr := by
    rw [length_set]
    exact h.known r hr
  told := h.told

/-- A reader that stays as it was, or not. -/
theorem countP_set (hr : s.readers[r]? = some reader) (hsame : reader'.job = reader.job) (j : ℕ) :
    (s.readers.set r reader').countP (staysFor j) +
        (if reader.job = j ∧ reader.stays = true then 1 else 0) =
      s.readers.countP (staysFor j) + if reader.job = j ∧ reader'.stays = true then 1 else 0 := by
  simpa [staysFor, hsame] using countP_set_of_eq_some (p := staysFor j) (y := reader') hr

/-- A call that stays where it was may be set in its place. -/
theorem HistoryInv.setReader (h : s.HistoryInv) (hr : s.readers[r]? = some reader)
    (hsame : reader'.job = reader.job) (hstays : reader'.stays = reader.stays)
    (htold : reader'.result = some .aborted → s.closed = true ∨ reader'.aborted = true) :
    HistoryInv { s with readers := s.readers.set r reader' } where
  jobs j job hj := by
    have hcnt := countP_set hr hsame j
    rw [hstays, Nat.add_right_cancel_iff] at hcnt
    exact { h.jobs j job hj with waiters := (h.jobs j job hj).waiters.trans hcnt.symm }
  known q hq := by
    rcases mem_or_eq_of_mem_set hq with hq | rfl
    · exact h.known q hq
    · exact hsame ▸ h.known reader (mem_of_getElem? hr)
  told q hq := by
    rcases mem_or_eq_of_mem_set hq with hq | rfl
    · exact h.told q hq
    · exact htold

/-- A new reader, of a job that may be new. -/
theorem HistoryInv.join (h : s.HistoryInv) {jobs : List HydrationJob} {current : Option ℕ}
    (hlen : s.jobs.length ≤ jobs.length) (hj : j < jobs.length)
    (hold : ∀ i job, i ≠ j → jobs[i]? = some job → s.jobs[i]? = some job)
    (hnew : ∀ job, jobs[j]? = some job → job.waiters = s.readers.countP (staysFor j) + 1 ∧
      job.aborted = false ∧ (job.phase.result = some .aborted → s.closed = true)) :
    HistoryInv { s with jobs, current, readers := s.readers ++ [⟨j, false, .waiting⟩] } where
  jobs i job hi := by
    have hcnt : (s.readers ++ [HistoryReader.mk j false .waiting]).countP (staysFor i) =
        s.readers.countP (staysFor i) + if j = i then 1 else 0 := by
      simp [countP_append, countP_singleton, staysFor, HistoryReader.stays]
    by_cases hij : i = j
    · subst hij
      obtain ⟨hwait, hfresh, hres⟩ := hnew job hi
      refine ⟨?_, by simp [hfresh], fun hab => .inl (hres hab)⟩
      rw [hcnt, if_pos rfl, hwait]
    · have hkept := h.jobs i job (hold i job hij hi)
      refine { hkept with waiters := ?_ }
      rw [hcnt, if_neg (Ne.symm hij), hkept.waiters, Nat.add_zero]
  known := forall_mem_append.2 ⟨fun q hq => Nat.lt_of_lt_of_le (h.known q hq) hlen, by
    simpa using hj⟩
  told := forall_mem_append.2 ⟨h.told, by simp [HistoryReader.result]⟩

/-- A step that heeds the aborts keeps the invariant. -/
theorem HistoryInv.step (h : s.HistoryInv) (hheed : s.isHeeded a = true)
    (hstep : historyMachine.step s a = some s') : s'.HistoryInv := by
  cases a with
  | join =>
    simp only [historyMachine] at hstep
    split at hstep
    · cases hstep
      have hnone : s.readers.countP (staysFor s.jobs.length) = 0 := by
        refine countP_eq_zero.2 fun q hq hstays => ?_
        exact absurd (h.known q hq) (by simp_all [staysFor])
      refine h.join (by simp) (by simp) (fun i job hij hi => ?_) fun job hi => ?_
      · rw [getElem?_concat_eq_some] at hi
        exact hi.resolve_right fun hlast => hij hlast.1
      · rw [getElem?_concat_length] at hi
        cases hi
        exact ⟨by rw [hnone], rfl, by simp [HydrationPhase.result]⟩
    · next j hcur =>
      obtain ⟨job, hj, rfl⟩ := map_eq_some_iff.1 hstep
      have hlt := (getElem?_eq_some_iff.1 hj).1
      have hnew : job.aborted = false := by simpa [isHeeded, hcur, hj] using hheed
      have hset : s.jobs.length ≤ (s.jobs.set j { job with waiters := job.waiters + 1 }).length :=
        Nat.le_of_eq length_set.symm
      refine h.join hset (Nat.lt_of_lt_of_le hlt hset) (fun i old hij hi => ?_) fun new hi => ?_
      · rwa [getElem?_set_ne (Ne.symm hij)] at hi
      · have hkept := h.jobs j job hj
        obtain rfl : _ = new := by simpa [hlt] using hi
        exact ⟨congrArg (· + 1) hkept.waiters, hnew, fun hab =>
          (hkept.result hab).resolve_right (by simp [hnew])⟩
  | abort r =>
    obtain ⟨reader, hr, rfl⟩ := map_eq_some_iff.1 hstep
    refine h.setReader hr rfl ?_ fun _ => .inr rfl
    cases hph : reader.phase <;> simp [HistoryReader.stays, hph]
  | deliver r =>
    obtain ⟨reader, hr, hstep⟩ := bind_eq_some_iff.1 hstep
    obtain ⟨job, hj, hstep⟩ := bind_eq_some_iff.1 hstep
    split at hstep
    · next hwait hset =>
      cases hstep
      refine h.setReader hr rfl (by simp [HistoryReader.stays, hwait]) fun hab => ?_
      -- the job was aborted while this reader stayed, so that the coordinator was closed
      have hkept := h.jobs _ job hj
      have hres : job.phase.result = some .aborted := hset ▸ hab
      refine .inl ((hkept.result hres).elim id fun hjob => (hkept.aborted hjob).resolve_right ?_)
      have hpos : 0 < s.readers.countP (staysFor reader.job) := countP_pos_iff.2
        ⟨reader, mem_of_getElem? hr, by simp [staysFor, HistoryReader.stays, hwait]⟩
      have hwaiters := hkept.waiters
      omega
    · cases hstep
  | leave r =>
    obtain ⟨reader, hr, hstep⟩ := bind_eq_some_iff.1 hstep
    obtain ⟨job, hj, hstep⟩ := bind_eq_some_iff.1 hstep
    split at hstep
    · next result hleave =>
      cases hstep
      have hcnt := countP_set hr
        (show ({ reader with phase := .left result } : HistoryReader).job = reader.job from rfl)
      have hmem := mem_of_getElem? hr
      refine ⟨fun i old hi => ?_, fun q hq => ?_, fun q hq => ?_⟩
      · specialize hcnt i
        simp only [HistoryReader.stays, hleave, and_true, Bool.false_eq_true, and_false, if_false,
          Nat.add_zero] at hcnt
        rw [getElem?_set] at hi
        split at hi
        · next hi' =>
          subst hi'
          obtain ⟨-, hi⟩ := ite_none_right_eq_some.1 hi
          cases hi
          have hkept := h.jobs _ job hj
          have hwaiters := hkept.waiters
          rw [if_pos rfl] at hcnt
          refine ⟨by simp only [HydrationJob.release]; omega, fun hab => ?_, fun hab => ?_⟩
          · -- the reader counted, so that a job of no waiters has none now
            simp only [HydrationJob.release, Bool.or_eq_true, Bool.and_eq_true,
              decide_eq_true_eq] at hab ⊢
            exact hab.elim (fun hjob => (hkept.aborted hjob).imp_right fun _ => by omega) (.inr ·.1)
          · exact (hkept.result hab).imp_right fun hjob => by simp [HydrationJob.release, hjob]
        · next hne =>
          rw [if_neg hne, Nat.add_zero] at hcnt
          exact { h.jobs i old hi with waiters := (h.jobs i old hi).waiters.trans hcnt.symm }
      · rw [length_set]
        rcases mem_or_eq_of_mem_set hq with hq | rfl
        · exact h.known q hq
        · exact h.known reader hmem
      · rcases mem_or_eq_of_mem_set hq with hq | rfl
        · exact h.told q hq
        · exact fun hab => h.told reader hmem (by simpa [HistoryReader.result, hleave] using hab)
    · cases hstep
  | finish j thrown =>
    obtain ⟨job, hj, hstep⟩ := bind_eq_some_iff.1 hstep
    obtain ⟨hrun, hstep⟩ := ite_none_right_eq_some.1 hstep
    cases hstep
    have hkept := h.jobs j job hj
    refine h.setJob ?_ s.current
    cases thrown with
    | none => exact ⟨hkept.waiters, hkept.aborted, by simp [HydrationJob.ends,
      HydrationPhase.result]⟩
    | some abortError =>
      refine ⟨hkept.waiters, hkept.aborted, fun hab => ?_⟩
      have hheed' : abortError = true → s.closed = true ∨ job.aborted = true := by
        rintro rfl
        simpa [isHeeded, hj] using hheed
      simp only [HydrationJob.ends, HydrationPhase.result] at hab ⊢
      split at hab
      · next hwhy =>
        rw [Bool.or_eq_true, Bool.or_eq_true] at hwhy
        exact (hwhy.elim (fun h => h.elim hheed' .inr) .inl)
      · cases hab
  | settle j =>
    obtain ⟨job, hj, hstep⟩ := bind_eq_some_iff.1 hstep
    split at hstep
    · next result hfin =>
      cases hstep
      have hkept := h.jobs j job hj
      have hset : Kept s.readers s.closed j { job with phase := .settled result } :=
        ⟨hkept.waiters, hkept.aborted, fun hab => hkept.result (hfin ▸ hab)⟩
      exact h.setJob hset _
    · cases hstep
  | close =>
    cases hstep
    refine ⟨fun j job hj => ?_, fun q hq => by simpa using h.known q hq, fun _ _ _ => .inl rfl⟩
    rw [getElem?_mapIdx] at hj
    obtain ⟨old, hold, rfl⟩ := map_eq_some_iff.1 hj
    have hkept := h.jobs j old hold
    split <;> exact ⟨hkept.waiters, fun _ => .inl rfl, fun _ => .inl rfl⟩

end HistoryState

/-- The runs in which aborted jobs are not joined, and runs are aborted by
their job. -/
def heededMachine : Machine HistoryState HistoryAction :=
  historyMachine.restrict fun s a => s.isHeeded a = true

/-- **Nobody inherits a cancellation**, in every run in which no reader joins
a job that has been aborted, and no run throws an abort error of its own: a
reader is told of one only if its own signal was aborted, and a job has been
aborted only when nobody waits for it, unless the coordinator was closed. -/
theorem cancellation_own {s : HistoryState} (h : heededMachine.Reachable s) :
    (∀ r ∈ s.readers, r.result = some .aborted → s.closed = true ∨ r.aborted = true) ∧
      ∀ (j : ℕ) job, s.jobs[j]? = some job → job.aborted = true →
        s.closed = true ∨ ∀ r ∈ s.readers, r.job = j → r.phase ≠ .waiting := by
  have hinv : s.HistoryInv := by
    refine h.rule ⟨by simp [heededMachine, restrict, historyMachine],
      by simp [heededMachine, restrict, historyMachine],
      by simp [heededMachine, restrict, historyMachine]⟩ fun u a v _ hu hstep => ?_
    obtain ⟨hheed, hstep⟩ := restrict_step_eq_some.1 hstep
    exact hu.step hheed hstep
  refine ⟨hinv.told, fun j job hj hab => ?_⟩
  have hkept := hinv.jobs j job hj
  refine (hkept.aborted hab).imp_right fun hnone r hr hrj hwait => ?_
  have hstays := countP_eq_zero.1 (hkept.waiters.symm.trans hnone) r hr
  exact hstays (by simp [HistoryState.staysFor, HistoryReader.stays, hrj, hwait])

/-- Two readers, of whom the second comes when the first has left and the job
has not yet settled. -/
def lateReaderRun : List HistoryAction :=
  [.join, .abort 0, .leave 0, .join, .finish 0 (some false), .settle 0, .deliver 1]

theorem cancellation_inherited : ∃ s, historyMachine.Reachable s ∧ s.closed = false ∧
    ∃ r ∈ s.readers, r.result = some .aborted ∧ r.aborted = false :=
  ⟨historyMachine.run lateReaderRun historyMachine.init, ⟨_, exec_eq_run (by decide +kernel)⟩,
    by decide +kernel⟩

theorem cancellation_own_reader : ∃ s, heededMachine.Reachable s ∧
    ∀ r ∈ s.readers, r.result = some .aborted → r.aborted = true :=
  have h : heededMachine.Reachable (heededMachine.run (lateReaderRun.take 3) heededMachine.init) :=
    ⟨_, exec_eq_run (by decide +kernel)⟩
  ⟨_, h, fun r hr hab => ((cancellation_own h).1 r hr hab).resolve_left (by decide +kernel)⟩

end Remux
