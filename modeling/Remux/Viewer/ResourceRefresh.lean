import Remux.Common.Lists
import Remux.Common.Machine
import Mathlib.Data.List.Count

/-!
# The refresh queue of the resources

A drain takes what is queued, the keys and the waiters together, and runs a
refresh for it; what comes in meanwhile waits for the next one. A call is in
one place (`RefreshQueue.Inv`): its waiter is queued with its keys, or with
the run that covers them, or it has been settled as that run ended. A call
for no keys is not queued at all.
-/

namespace Remux

open List

variable {Key : Type*}

/-- A call of `run`: with the keys, or for everything, and whether it went
well. -/
structure RefreshRun (Key : Type*) where
  keys : Option (List Key)
  outcome : Option Bool

/-- A call of `enqueue`: what for, how many runs had started, and how its
promise has settled. -/
structure RefreshCall (Key : Type*) where
  keys : Option (List Key)
  after : ℕ
  settled : List Bool

/-- A call of `drain`. -/
inductive Drain where
  /-- At the condition of the loop, or scheduled. -/
  | checking
  /-- Awaiting a run, for the waiters it has taken. -/
  | awaiting (run : ℕ) (waiters : List ℕ)

/-- `ResourceRefreshQueue`, its drains and what has happened so far. -/
structure RefreshQueue (Key : Type*) where
  refreshAll : Bool
  keys : List Key
  waiters : List ℕ
  running : Bool
  drains : List Drain
  runs : List (RefreshRun Key)
  calls : List (RefreshCall Key)

/-- A call of `enqueue`, or what a drain does next. -/
inductive RefreshAction (Key : Type*) where
  | enqueue (keys : Option (List Key))
  | check (drain : ℕ)
  | finish (drain : ℕ) (ok : Bool)

namespace RefreshQueue

section

variable [DecidableEq Key]

/-- `Set.add`. -/
def addKey (keys : List Key) (key : Key) : List Key := if key ∈ keys then keys else keys ++ [key]

/-- The keys are asked for, or everything. -/
def request (s : RefreshQueue Key) : Option (List Key) → RefreshQueue Key
  | none => { s with refreshAll := true, keys := [] }
  | some asked => if s.refreshAll then s else { s with keys := asked.foldl addKey s.keys }

/-- A call that is not for no keys. -/
def enqueue (s : RefreshQueue Key) (asked : Option (List Key)) : RefreshQueue Key :=
  { s.request asked with
    calls := s.calls ++ [⟨asked, s.runs.length, []⟩]
    waiters := s.waiters ++ [s.calls.length]
    running := true
    drains := if s.running then s.drains else s.drains ++ [.checking] }

end

/-- What the next run is called with. -/
def queued (s : RefreshQueue Key) : Option (List Key) := if s.refreshAll then none else some s.keys

/-- The promise of a waiter settles. -/
def settle (ok : Bool) (waiters : List ℕ) (p : ℕ) (call : RefreshCall Key) : RefreshCall Key :=
  { call with settled := call.settled ++ replicate (waiters.count p) ok }

end RefreshQueue

open RefreshQueue in
/-- **The queue and its drains as a machine.** -/
def refreshMachine (Key : Type*) [DecidableEq Key] :
    Machine (RefreshQueue Key) (RefreshAction Key) where
  init := ⟨false, [], [], false, [], [], []⟩
  step s
    | .enqueue asked => some <|
        if asked = some [] then { s with calls := s.calls ++ [⟨asked, s.runs.length, [true]⟩] }
        else s.enqueue asked
    | .check drain =>
      match s.drains[drain]? with
      | some .checking =>
        if s.refreshAll ∨ s.keys ≠ [] then some { s with
          refreshAll := false, keys := [], waiters := []
          drains := s.drains.set drain (.awaiting s.runs.length s.waiters)
          runs := s.runs ++ [⟨s.queued, none⟩] }
        else some { s with running := false, drains := s.drains.eraseIdx drain }
      | _ => none
    | .finish drain ok =>
      match s.drains[drain]? with
      | some (.awaiting run waiters) => some { s with
          drains := s.drains.set drain .checking
          runs := s.runs.modify run fun r => { r with outcome := some ok }
          calls := s.calls.mapIdx (settle ok waiters) }
      | _ => none

/-- A run is for all that was asked for. -/
def Covers : Option (List Key) → Option (List Key) → Prop
  | none, _ => True
  | some _, none => False
  | some keys, some asked => asked ⊆ keys

namespace RefreshQueue

/-- A run that started after the call and is for all it asked for. -/
def CoversCall (s : RefreshQueue Key) (call : RefreshCall Key) (run : ℕ) (outcome : Option Bool) :
    Prop :=
  call.after ≤ run ∧ ∃ keys, s.runs[run]? = some ⟨keys, outcome⟩ ∧ Covers keys call.keys

/-- Whom the run is awaited for. -/
def inFlight (s : RefreshQueue Key) : List ℕ :=
  match s.drains with
  | [.awaiting _ waiters] => waiters
  | _ => []

/-- A call is in one place. -/
structure Placed (s : RefreshQueue Key) (p : ℕ) (call : RefreshCall Key) : Prop where
  once : (s.waiters ++ s.inFlight).count p + call.settled.length = 1
  after : call.after ≤ s.runs.length
  queued : p ∈ s.waiters → Covers s.queued call.keys
  taken : ∀ run ws, s.drains = [.awaiting run ws] → p ∈ ws → s.CoversCall call run none
  settled : ∀ ok ∈ call.settled,
    call.keys = some [] ∧ ok = true ∨ ∃ run, s.CoversCall call run (some ok)
  idle : call.keys = some [] → call.settled = [true]

/-- **The invariant**: there is at most one drain, which has what is queued
before it and is all that awaits a run. -/
structure Inv (s : RefreshQueue Key) : Prop where
  drain : s.drains = [] ∧ s.running = false ∧ s.refreshAll = false ∧ s.keys = [] ∨
    s.running = true ∧ (s.drains = [.checking] ∨ ∃ run ws, s.drains = [.awaiting run ws])
  work : s.refreshAll = false → s.keys = [] → s.waiters = []
  single : ∀ run r, s.runs[run]? = some r → (r.outcome = none ↔ ∃ ws, s.drains = [.awaiting run ws])
  known : ∀ p ∈ s.waiters ++ s.inFlight, p < s.calls.length
  calls : ∀ p call, s.calls[p]? = some call → s.Placed p call
  asked : ∀ (run : ℕ) (r : RefreshRun Key), s.runs[run]? = some r → r.keys ≠ some []

variable {s t : RefreshQueue Key} {call : RefreshCall Key} {asked : Option (List Key)}

/-- The place of the next call is nobody's. -/
theorem Inv.notMem (h : s.Inv) : (s.waiters ++ s.inFlight).count s.calls.length = 0 :=
  count_eq_zero_of_not_mem fun hmem => Nat.lt_irrefl _ (h.known _ hmem)

/-- The keys asked for are added to those there are. -/
theorem mem_foldl_addKey [DecidableEq Key] {asked keys : List Key} :
    asked ⊆ asked.foldl addKey keys ∧ keys ⊆ asked.foldl addKey keys := by
  induction asked generalizing keys with
  | nil => exact ⟨nil_subset _, Subset.refl _⟩
  | cons key asked ih =>
    have hadd : key ∈ addKey keys key ∧ keys ⊆ addKey keys key := by
      unfold addKey
      split
      · next hmem => exact ⟨hmem, Subset.refl _⟩
      · exact ⟨mem_append_right _ mem_cons_self, subset_append_left _ _⟩
    exact ⟨cons_subset.2 ⟨ih.2 hadd.1, ih.1⟩, List.Subset.trans hadd.2 ih.2⟩

variable [DecidableEq Key]

/-- What is queued covers what was, and the new request. -/
theorem covers_request (s : RefreshQueue Key) : Covers (s.request asked).queued asked ∧
      ∀ {other}, Covers s.queued other → Covers (s.request asked).queued other := by
  cases asked with
  | none => exact ⟨trivial, fun _ => trivial⟩
  | some asked =>
    by_cases hall : s.refreshAll
    · simp only [request, if_pos hall, queued]
      exact ⟨trivial, id⟩
    · simp only [request, queued, if_neg hall]
      refine ⟨mem_foldl_addKey.1, fun {other} hcov => ?_⟩
      cases other with
      | none => exact hcov
      | some other => exact List.Subset.trans hcov mem_foldl_addKey.2

/-- A request is queued, unless it is for nothing. -/
theorem request_work (hne : asked ≠ some []) :
    ¬((s.request asked).refreshAll = false ∧ (s.request asked).keys = []) := by
  rintro ⟨hall, hkeys⟩
  have hcov : Covers (s.request asked).queued asked := (covers_request s).1
  rw [queued, hall, if_neg (by decide), hkeys] at hcov
  cases asked with
  | none => exact hcov
  | some asked => exact hne (congrArg some (subset_nil.1 hcov))

/-- What is asked for starts no run. -/
theorem request_runs (s : RefreshQueue Key) : (s.request asked).runs = s.runs := by
  unfold request
  repeat' split
  all_goals rfl

/-- A call is queued, or settled at once. -/
theorem Inv.enqueue (h : s.Inv) (hstep : (refreshMachine Key).step s (.enqueue asked) = some t) :
    t.Inv := by
  have hlt : ∀ p ∈ s.waiters ++ s.inFlight, p < s.calls.length + 1 :=
    fun p hp => Nat.lt_succ_of_lt (h.known p hp)
  have hnot := h.notMem
  cases hstep
  by_cases hnil : asked = some []
  · rw [if_pos hnil]
    refine { h with
      known := fun p hp => length_append ▸ hlt p hp, calls := fun p call hcall => ?_ }
    rcases getElem?_concat_eq_some.1 hcall with hcall | ⟨rfl, rfl⟩
    · exact { h.calls p call hcall with }
    · exact ⟨congrArg (· + 1) hnot, Nat.le_refl _,
        fun hp => absurd (h.known _ (mem_append_left _ hp)) (Nat.lt_irrefl _),
        fun run ws hd hp => absurd (h.known _ (mem_append_right _ (by rw [inFlight, hd]; exact hp)))
          (Nat.lt_irrefl _),
        fun ok hok => .inl ⟨hnil, mem_singleton.1 hok⟩, fun _ => rfl⟩
  · rw [if_neg hnil]
    have hruns : (s.enqueue asked).runs = s.runs := request_runs s
    obtain ⟨hfly, hdrains, hrunning⟩ : (s.enqueue asked).inFlight = s.inFlight ∧
        (∀ run ws, (s.enqueue asked).drains = [.awaiting run ws] ↔ s.drains = [.awaiting run ws]) ∧
        ((s.enqueue asked).drains = [.checking] ∨
          ∃ run ws, (s.enqueue asked).drains = [.awaiting run ws]) := by
      rw [inFlight, inFlight, enqueue]
      rcases h.drain with ⟨hd, hr, -⟩ | ⟨hr, hd⟩
      · rw [hr, if_neg (by decide), hd]
        exact ⟨rfl, fun _ _ => ⟨nofun, nofun⟩, .inl rfl⟩
      · rw [hr, if_pos rfl]
        exact ⟨rfl, fun _ _ => Iff.rfl, hd⟩
    refine ⟨.inr ⟨rfl, hrunning⟩, fun hall hkeys => absurd ⟨hall, hkeys⟩ (request_work hnil),
      fun run r hrun => ?_, fun p hp => ?_, fun p call hcall => ?_, hruns ▸ h.asked⟩
    · rw [hruns] at hrun
      simp only [hdrains]
      exact h.single run r hrun
    · rw [hfly, enqueue, append_assoc, mem_append, mem_append, mem_singleton] at hp
      rw [enqueue, length_append]
      rcases hp with hp | rfl | hp
      · exact hlt p (mem_append_left _ hp)
      · exact Nat.lt_succ_self _
      · exact hlt p (mem_append_right _ hp)
    · have hcount : ((s.enqueue asked).waiters ++ (s.enqueue asked).inFlight).count p =
          (s.waiters ++ s.inFlight).count p + if s.calls.length = p then 1 else 0 := by
        rw [hfly, enqueue, count_append, count_append, count_append, count_singleton,
          Nat.add_right_comm]
        simp only [beq_iff_eq]
      rcases getElem?_concat_eq_some.1 hcall with hcall | ⟨rfl, rfl⟩
      · have hp := (List.getElem?_eq_some_iff.1 hcall).1
        have hplaced := h.calls p call hcall
        refine ⟨?_, hruns ▸ hplaced.after, fun hmem => (covers_request s).2 (hplaced.queued ?_),
          fun run ws hd hmem => ?_, ?_, hplaced.idle⟩
        · rw [hcount, if_neg (Nat.ne_of_gt hp)]
          exact hplaced.once
        · exact (mem_concat.1 hmem).resolve_right (Nat.ne_of_lt hp)
        · rw [CoversCall, hruns]
          exact hplaced.taken run ws ((hdrains run ws).1 hd) hmem
        · simp only [CoversCall, hruns]
          exact hplaced.settled
      · refine ⟨?_, Nat.le_of_eq (hruns ▸ rfl), fun _ => (covers_request s).1,
          fun run ws hd hmem => ?_, nofun, fun hasked => absurd hasked hnil⟩
        · rw [hcount, if_pos rfl, hnot]
          rfl
        · exact absurd (h.known _ (mem_append_right _
            (by rw [inFlight, (hdrains run ws).1 hd]; exact hmem))) (Nat.lt_irrefl _)

omit [DecidableEq Key] in
/-- The one drain. -/
theorem Inv.drains_eq (h : s.Inv) {i : ℕ} {d : Drain} (hget : s.drains[i]? = some d) :
    i = 0 ∧ s.drains = [d] ∧ s.running = true := by
  obtain ⟨d', hd', hr⟩ : ∃ d', s.drains = [d'] ∧ s.running = true := by
    rcases h.drain with ⟨hd, -⟩ | ⟨hr, hd | ⟨run, ws, hd⟩⟩
    · exact nomatch (hd ▸ hget : ([] : List Drain)[i]? = some d)
    all_goals exact ⟨_, hd, hr⟩
  rw [hd'] at hget
  cases i with
  | zero => exact ⟨rfl, hd'.trans (congrArg (fun d => [d]) (Option.some.inj hget)), hr⟩
  | succ i => cases hget

/-- The drain takes what is queued, or ends. -/
theorem Inv.check (h : s.Inv) {i : ℕ}
    (hstep : (refreshMachine Key).step s (.check i) = some t) : t.Inv := by
  simp only [refreshMachine] at hstep
  split at hstep
  · next hget =>
    obtain ⟨rfl, hd, hr⟩ := h.drains_eq hget
    have hfly : s.inFlight = [] := by rw [inFlight, hd]
    have hended : ∀ (run : ℕ) (r : RefreshRun Key), s.runs[run]? = some r → r.outcome ≠ none := by
      intro run r hrun hnone
      obtain ⟨ws, hws⟩ := (h.single run r hrun).1 hnone
      exact nomatch hd.symm.trans hws
    split at hstep
    · next hwork =>
      cases hstep
      rw [hd]
      refine ⟨.inr ⟨hr, .inr ⟨_, _, rfl⟩⟩, fun _ _ => rfl, fun run r hrun => ?_,
        fun p hp => h.known p (mem_append_left _ hp), fun p call hcall => ?_,
        fun run r hrun => ?_⟩
      · rcases getElem?_concat_eq_some.1 hrun with hrun | ⟨rfl, rfl⟩
        · refine iff_of_false (hended run r hrun) fun ⟨ws, hws⟩ => ?_
          obtain ⟨rfl, -⟩ := Drain.awaiting.inj (cons.inj hws).1
          exact Nat.lt_irrefl _ (List.getElem?_eq_some_iff.1 hrun).1
        · exact iff_of_true rfl ⟨_, rfl⟩
      · have hp := h.calls p call hcall
        refine ⟨?_, Nat.le_trans hp.after (length_append ▸ Nat.le_add_right _ _), nofun, ?_,
          fun ok hok => (hp.settled ok hok).imp_right ?_, hp.idle⟩
        · have honce := hp.once
          rw [hfly, append_nil] at honce
          exact honce
        · intro run ws hws hmem
          obtain ⟨rfl, rfl⟩ := Drain.awaiting.inj (cons.inj hws).1
          exact ⟨hp.after, _, getElem?_concat_length, hp.queued hmem⟩
        · exact fun ⟨run, hafter, keys, hrun, hcov⟩ =>
            ⟨run, hafter, keys, getElem?_concat_eq_some.2 (.inl hrun), hcov⟩
      · rcases getElem?_concat_eq_some.1 hrun with hrun | ⟨rfl, rfl⟩
        · exact h.asked run r hrun
        · intro hnothing
          change (if s.refreshAll then none else some s.keys) = some [] at hnothing
          split at hnothing
          · cases hnothing
          · next hall => exact hwork.resolve_left hall (Option.some.inj hnothing)
    · next hnone =>
      cases hstep
      obtain ⟨hall, hkeys⟩ := not_or.1 hnone
      have hall : s.refreshAll = false := Bool.eq_false_iff.2 hall
      have hkeys : s.keys = [] := not_not.1 hkeys
      rw [hd]
      refine ⟨.inl ⟨rfl, rfl, hall, hkeys⟩, h.work,
        fun run r hrun => iff_of_false (hended run r hrun) nofun,
        fun p hp => h.known p (mem_append_left _ ((mem_append.1 hp).resolve_right not_mem_nil)),
        fun p call hcall => ?_, h.asked⟩
      have hp := h.calls p call hcall
      exact { hp with once := by rw [← hp.once, hfly]; rfl, taken := fun _ _ => nofun }
  · cases hstep

/-- A run ends, and settles the promises it was awaited for. -/
theorem Inv.finish (h : s.Inv) {i : ℕ} {ok : Bool}
    (hstep : (refreshMachine Key).step s (.finish i ok) = some t) : t.Inv := by
  simp only [refreshMachine] at hstep
  split at hstep
  · next run ws hget =>
    obtain ⟨rfl, hd, hr⟩ := h.drains_eq hget
    cases hstep
    have hfly : s.inFlight = ws := by rw [inFlight, hd]
    rw [hd]
    have hmodify : ∀ {run' r}, s.runs[run']? = some r →
        (s.runs.modify run fun r => { r with outcome := some ok })[run']? =
          some (if run = run' then { r with outcome := some ok } else r) := fun hrun => by
      rw [getElem?_modify, hrun]
      rfl
    refine ⟨.inr ⟨hr, .inl rfl⟩, h.work, fun run' r hrun => iff_of_false (fun hnone => ?_) nofun,
      fun p hp => ?_, fun p call hcall => ?_, fun run' r hrun => ?_⟩
    · rw [getElem?_modify] at hrun
      obtain ⟨r', hr', rfl⟩ := Option.map_eq_some_iff.1 hrun
      split at hnone
      · cases hnone
      · next hne =>
        obtain ⟨ws', hws⟩ := (h.single run' r' hr').1 hnone
        exact absurd (Drain.awaiting.inj (cons.inj (hd.symm.trans hws)).1).1 hne
    · rw [length_mapIdx]
      exact h.known p (mem_append_left _ ((mem_append.1 hp).resolve_right not_mem_nil))
    · rw [getElem?_mapIdx] at hcall
      obtain ⟨call, hget, rfl⟩ := Option.map_eq_some_iff.1 hcall
      have hp := h.calls p call hget
      have honce := hp.once
      rw [hfly, count_append] at honce
      refine ⟨?_, (length_modify ..).symm ▸ hp.after, hp.queued, fun _ _ => nofun,
        fun ok' hok => ?_, fun hasked => ?_⟩
      · change (s.waiters ++ []).count p + (call.settled ++ _).length = 1
        rw [append_nil, length_append, length_replicate]
        omega
      · rcases mem_append.1 hok with hok | hok
        · refine (hp.settled ok' hok).imp_right fun ⟨run', hafter, keys, hrun, hcov⟩ =>
            ⟨run', hafter, keys, ?_, hcov⟩
          rw [hmodify hrun, if_neg]
          rintro rfl
          exact nomatch (h.single _ _ hrun).2 ⟨ws, hd⟩
        · obtain ⟨hne, rfl⟩ := mem_replicate.1 hok
          obtain ⟨hafter, keys, hrun, hcov⟩ :=
            hp.taken run ws hd (count_pos_iff.1 (Nat.pos_of_ne_zero hne))
          exact .inr ⟨run, hafter, keys, by rw [hmodify hrun, if_pos rfl], hcov⟩
      · have hidle := hp.idle hasked
        rw [hidle, length_singleton] at honce
        change call.settled ++ replicate (ws.count p) ok = [true]
        rw [hidle, show ws.count p = 0 by omega, replicate_zero, append_nil]
    · rw [getElem?_modify] at hrun
      obtain ⟨r', hr', rfl⟩ := Option.map_eq_some_iff.1 hrun
      split
      all_goals exact h.asked run' r' hr'
  · cases hstep

/-- The invariant holds in every run. -/
theorem Inv.of_reachable (h : (refreshMachine Key).Reachable s) : s.Inv := by
  refine h.rule ⟨.inl ⟨rfl, rfl, rfl, rfl⟩, fun _ _ => rfl, nofun, nofun, nofun, nofun⟩ ?_
  intro u a v _ hu hv
  cases a with
  | enqueue => exact hu.enqueue hv
  | check => exact hu.check hv
  | finish => exact hu.finish hv

/-- **Every refresh that was asked for is run, and its promise waits for
it.** A promise settles as the one run that ends, started after the call and
for all it asked for; until then the keys are queued for a drain, or that run
is awaited. A call for no keys has settled at once, and no run is for none. -/
theorem refresh_covers (h : (refreshMachine Key).Reachable s) :
    (∀ (i j : ℕ) (r r' : RefreshRun Key), s.runs[i]? = some r → s.runs[j]? = some r' →
      r.outcome = none → r'.outcome = none → i = j) ∧
    (∀ call ∈ s.calls, call.settled.length ≤ 1 ∧ ∀ ok ∈ call.settled,
      call.keys = some [] ∧ ok = true ∨ ∃ run, s.CoversCall call run (some ok)) ∧
    (∀ call ∈ s.calls, call.settled = [] →
      s.drains ≠ [] ∧ Covers s.queued call.keys ∨ ∃ run, s.CoversCall call run none) ∧
    (s.running = false → s.refreshAll = false ∧ s.keys = [] ∧ s.waiters = [] ∧ s.drains = [] ∧
      ∀ call ∈ s.calls, call.settled.length = 1) ∧
    (∀ call ∈ s.calls, call.keys = some [] → call.settled = [true]) ∧
    ∀ run ∈ s.runs, run.keys ≠ some [] := by
  have hinv := Inv.of_reachable h
  have hidle : s.running = false → s.refreshAll = false ∧ s.keys = [] ∧ s.waiters = [] ∧
      s.drains = [] := by
    intro hr
    rcases hinv.drain with ⟨hd, -, hall, hkeys⟩ | ⟨hr', -⟩
    · exact ⟨hall, hkeys, hinv.work hall hkeys, hd⟩
    · exact nomatch hr.symm.trans hr'
  refine ⟨fun i j r r' hi hj hr hr' => ?_, fun call hcall => ?_, fun call hcall hopen => ?_,
    fun hr => ?_, fun call hcall => ?_, fun run hrun => ?_⟩
  · obtain ⟨ws, hws⟩ := (hinv.single i r hi).1 hr
    obtain ⟨ws', hws'⟩ := (hinv.single j r' hj).1 hr'
    exact (Drain.awaiting.inj (cons.inj (hws.symm.trans hws')).1).1
  · obtain ⟨p, hp⟩ := getElem?_of_mem hcall
    have hplaced := hinv.calls p call hp
    exact ⟨hplaced.once ▸ Nat.le_add_left _ _, hplaced.settled⟩
  · obtain ⟨p, hp⟩ := getElem?_of_mem hcall
    have hplaced := hinv.calls p call hp
    have honce := hplaced.once
    rw [hopen, length_nil, Nat.add_zero] at honce
    have hmem : p ∈ s.waiters ++ s.inFlight := count_pos_iff.1 (honce ▸ Nat.one_pos)
    rcases hinv.drain with ⟨hd, hr, -⟩ | ⟨-, hd | ⟨run, ws, hd⟩⟩
    · rw [inFlight, (hidle hr).2.2.1, hd] at hmem
      exact nomatch hmem
    · rw [inFlight, hd, append_nil] at hmem
      exact .inl ⟨hd ▸ cons_ne_nil _ _, hplaced.queued hmem⟩
    · rw [inFlight, hd] at hmem
      exact (mem_append.1 hmem).imp (fun hw => ⟨hd ▸ cons_ne_nil _ _, hplaced.queued hw⟩)
        fun hw => ⟨run, hplaced.taken run ws hd hw⟩
  · obtain ⟨hall, hkeys, hwaiters, hd⟩ := hidle hr
    refine ⟨hall, hkeys, hwaiters, hd, fun call hcall => ?_⟩
    obtain ⟨p, hp⟩ := getElem?_of_mem hcall
    have honce := (hinv.calls p call hp).once
    rw [inFlight, hwaiters, hd] at honce
    exact (Nat.zero_add _).symm.trans honce
  · obtain ⟨p, hp⟩ := getElem?_of_mem hcall
    exact (hinv.calls p call hp).idle
  · obtain ⟨i, hi⟩ := getElem?_of_mem hrun
    exact hinv.asked i run hi

/-- A run that fails settles the promise it is for. -/
theorem refresh_covers_failed : ∃ s, (refreshMachine ℕ).Reachable s ∧
    s.calls.map (·.settled) = [[false]] ∧ ∀ call ∈ s.calls, call.settled.length = 1 :=
  have h : (refreshMachine ℕ).exec [.enqueue (some [1]), .check 0, .finish 0 false, .check 0]
      (refreshMachine ℕ).init = some ⟨false, [], [], false, [], [⟨some [1], some false⟩],
        [⟨some [1], 0, [false]⟩]⟩ := rfl
  ⟨_, ⟨_, h⟩, rfl, ((refresh_covers ⟨_, h⟩).2.2.2.1 rfl).2.2.2.2⟩

/-- A promise settles without a run, if its call is for no keys. -/
theorem refresh_uncovered :
    ∃ s, (refreshMachine ℕ).Reachable s ∧ ∃ call ∈ s.calls, call.settled ≠ [] ∧ s.runs = [] :=
  ⟨_, ⟨[.enqueue (some [])], rfl⟩, _, mem_cons_self, cons_ne_nil _ _, rfl⟩

/-- How many steps the drains have yet to take, if nothing is enqueued. -/
def stepsLeft (s : RefreshQueue Key) : ℕ :=
  (if s.refreshAll ∨ s.keys ≠ [] then 2 else 0) + match s.drains with
    | [] => 0
    | .checking :: _ => 1
    | .awaiting .. :: _ => 2

omit [DecidableEq Key] in
/-- A drain has at most four steps to take. -/
theorem stepsLeft_le (s : RefreshQueue Key) : s.stepsLeft ≤ 4 := by
  unfold RefreshQueue.stepsLeft
  split
  all_goals split <;> decide

/-- A step of a drain leaves one step less. -/
theorem Inv.stepsLeft {a : RefreshAction Key} (h : s.Inv) (ha : ∀ asked, a ≠ .enqueue asked)
    (hstep : (refreshMachine Key).step s a = some t) : t.stepsLeft + 1 = s.stepsLeft := by
  unfold RefreshQueue.stepsLeft
  cases a with
  | enqueue asked => exact absurd rfl (ha asked)
  | check i | finish i ok =>
    rcases h.drain with ⟨hd, -⟩ | ⟨-, hd | ⟨run, ws, hd⟩⟩ <;> cases i <;>
      simp only [refreshMachine, hd, getElem?_nil, getElem?_cons_zero, getElem?_cons_succ,
        reduceCtorEq] at hstep
    all_goals
      try split at hstep
      all_goals
        cases hstep
        simp [*]

/-- **The queue comes to rest**: with nothing enqueued a run takes the steps
that are left, at most four, in any order of completions and failures; while any is left one
can be taken; and where none is, every promise has settled. -/
theorem refresh_rests (h : (refreshMachine Key).Reachable s) :
    s.stepsLeft ≤ 4 ∧
    (∀ as t, (∀ a ∈ as, ∀ asked, a ≠ .enqueue asked) → (refreshMachine Key).exec as s = some t →
      as.length + t.stepsLeft = s.stepsLeft) ∧
    (s.stepsLeft ≠ 0 → ∃ a, (∀ asked, a ≠ .enqueue asked) ∧
      ((refreshMachine Key).step s a).isSome) ∧
    (s.stepsLeft = 0 → s.running = false ∧ ∀ call ∈ s.calls, call.settled.length = 1) := by
  have hinv := Inv.of_reachable h
  refine ⟨s.stepsLeft_le, fun as => ?_, fun hleft => ?_, fun hleft => ?_⟩
  · induction as generalizing s with
    | nil =>
      rintro _ - ⟨⟩
      exact Nat.zero_add _
    | cons a as ih =>
      intro t has hrun
      obtain ⟨u, hu, hrest⟩ := Machine.exec_cons_eq_some.1 hrun
      have hstep := hinv.stepsLeft (has a mem_cons_self) hu
      have := ih (h.step hu) (Inv.of_reachable (h.step hu)) t (fun b hb => has b (.tail _ hb)) hrest
      rw [length_cons]
      omega
  · rcases hinv.drain with ⟨hd, -, hall, hkeys⟩ | ⟨-, hd | ⟨run, ws, hd⟩⟩
    · simp [RefreshQueue.stepsLeft, hd, hall, hkeys] at hleft
    · refine ⟨.check 0, nofun, ?_⟩
      simp only [refreshMachine, hd, getElem?_cons_zero]
      split <;> rfl
    · exact ⟨.finish 0 true, nofun, by simp [refreshMachine, hd]⟩
  · rcases hinv.drain with ⟨hd, hr, hall, hkeys⟩ | ⟨-, hd | ⟨run, ws, hd⟩⟩
    · refine ⟨hr, fun call hcall => ?_⟩
      obtain ⟨p, hp⟩ := getElem?_of_mem hcall
      have honce := (hinv.calls p call hp).once
      rw [hinv.work hall hkeys, inFlight, hd] at honce
      exact (Nat.zero_add _).symm.trans honce
    all_goals
      simp [RefreshQueue.stepsLeft, hd] at hleft

/-- A drain that is scheduled can go on. -/
theorem refresh_rests_enqueued :
    let s := (refreshMachine ℕ).run [.enqueue (some [1])] (refreshMachine ℕ).init
    ∃ a, (∀ asked, a ≠ .enqueue asked) ∧ ((refreshMachine ℕ).step s a).isSome :=
  (refresh_rests ⟨[.enqueue (some [1])], rfl⟩).2.2.1 (by decide)

end RefreshQueue
end Remux
