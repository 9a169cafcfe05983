import Remux.Common.Totals
import Remux.Rpc.Commands

/-!
# What the registry of commands retains

`retained_bytes` is counted with saturating arithmetic, in `complete`, in
`remove_record` and in the evictions. It is the total of the records, each
outcome is within the limit after `complete` has replaced one that is too
large, and a record that runs retains nothing (`Retained`). So the
eviction that ends `complete` comes below the limit before it reaches the
outcome that was just stored.
-/

namespace Remux

open Assoc Option List Nat

/-- **The invariant of the counter**: it is the total of the records, a
running record retains nothing, an outcome is within the limit, and the
records are within theirs. -/
structure RegistryState.Counted (state : RegistryState) : Prop where
  total : state.retainedBytes = state.records.total CommandRecord.retainedBytes
  running : ∀ {key record}, state.records.lookup key = some record →
    record.completedAt = none → record.retainedBytes = 0
  within : ∀ {key record}, state.records.lookup key = some record →
    record.retainedBytes ≤ maxOutcomeBytes
  size : state.records.size ≤ maxCommandRecords

namespace RegistryState.Counted

variable {state : RegistryState}

variable (h : state.Counted)
include h

/-- Removing a record keeps the count, and does not raise it. -/
theorem removeRecord (key : CommandKey) : (Remux.removeRecord state key).Counted ∧
      (Remux.removeRecord state key).retainedBytes ≤ state.retainedBytes := by
  cases hget : state.records.lookup key with
  | none =>
    have heq : Remux.removeRecord state key = state := by rw [Remux.removeRecord, hget]
    rw [heq]
    exact ⟨h, le_rfl⟩
  | some record =>
    have hsub : ∀ {key' record'}, (Remux.removeRecord state key).records.lookup key' =
        some record' → state.records.lookup key' = some record' := by
      intro key' record' h'
      rw [lookup_removeRecord] at h'
      split at h'
      · cases h'
      · exact h'
    have herase := total_erase (f := CommandRecord.retainedBytes) hget
    have hcnt := h.total
    have hbytes : (Remux.removeRecord state key).retainedBytes =
        state.retainedBytes - record.retainedBytes := by rw [Remux.removeRecord, hget]
    have hrecords : (Remux.removeRecord state key).records = state.records.erase key := by
      rw [Remux.removeRecord, hget]
    refine ⟨⟨?_, fun h' => h.running (hsub h'), fun h' => h.within (hsub h'), ?_⟩, ?_⟩
    · rw [hbytes, hrecords]
      omega
    · have hsize := size_removeRecord hget
      have hbnd := h.size
      omega
    · rw [hbytes]
      exact sub_le _ _

/-- Records that are removed are counted off. -/
theorem foldl_removeRecord (keys : List CommandKey) :
    (keys.foldl Remux.removeRecord state).Counted ∧
      (keys.foldl Remux.removeRecord state).retainedBytes ≤ state.retainedBytes := by
  induction keys generalizing state with
  | nil => exact ⟨h, le_rfl⟩
  | cons key keys ih =>
    obtain ⟨hcnt, hle⟩ := h.removeRecord key
    obtain ⟨hcnt', hle'⟩ := ih hcnt
    exact ⟨hcnt', hle'.trans hle⟩

/-- The cleanup keeps the count. -/
theorem cleanupExpired (now : ℕ) : (Remux.cleanupExpired now state).Counted ∧
      (Remux.cleanupExpired now state).retainedBytes ≤ state.retainedBytes :=
  h.foldl_removeRecord _

/-- An eviction keeps the count. -/
theorem evictRounds (incomingRecords incomingBytes rounds : ℕ) :
    (Remux.evictRounds incomingRecords incomingBytes rounds state).Counted ∧
      (Remux.evictRounds incomingRecords incomingBytes rounds state).retainedBytes ≤
        state.retainedBytes := by
  induction rounds generalizing state with
  | zero => exact ⟨h, le_rfl⟩
  | succ rounds ih =>
    unfold Remux.evictRounds
    split
    · cases evictionCandidate state with
      | none => exact ⟨h, le_rfl⟩
      | some key =>
        obtain ⟨hcnt, hle⟩ := h.removeRecord key
        obtain ⟨hcnt', hle'⟩ := ih hcnt
        exact ⟨hcnt', hle'.trans hle⟩
    · exact ⟨h, le_rfl⟩

/-- Where nothing is complete, nothing is retained. -/
theorem retainedBytes_eq_zero (hnone : evictionCandidate state = none) :
    state.retainedBytes = 0 := by
  have hrun : ∀ key record, state.records.lookup key = some record → record.completedAt = none := by
    intro key record hrec
    rw [evictionCandidate, map_eq_none_iff, argmin_eq_none] at hnone
    by_contra hdone
    obtain ⟨doneAt, hcompl⟩ := ne_none_iff_exists'.1 hdone
    have hmem : (key, doneAt) ∈ state.records.entries.filterMap fun entry =>
        entry.2.completedAt.map fun doneAt => (entry.1, doneAt) :=
      mem_filterMap.2 ⟨⟨key, record⟩, mem_entries_iff.2 hrec, by
        rw [hcompl]
        rfl⟩
    rw [hnone] at hmem
    exact not_mem_nil hmem
  have hle := total_le_of_forall (f := CommandRecord.retainedBytes)
    (m := state.records) (k := ⟨"", ""⟩) (v := ⟨"", none, 0, 0⟩)
    (fun record hrec => (h.running hrec (hrun _ _ hrec)).le)
    fun _ record _ hrec => h.running hrec (hrun _ _ hrec)
  rw [h.total]
  exact le_zero.1 hle

/-- **The eviction of `complete` comes below the limit**, since at its end
it is below it or has nothing complete left. -/
theorem evictToFit_le : (evictToFit state 0 0).retainedBytes ≤ maxOutcomeBytes := by
  suffices ∀ rounds state, state.Counted → state.records.size ≤ rounds →
      (Remux.evictRounds 0 0 rounds state).retainedBytes ≤ maxOutcomeBytes from
    this _ _ h le_rfl
  intro rounds
  induction rounds with
  | zero =>
    intro state h hsize
    have hnone : evictionCandidate state = none := by
      cases hc : evictionCandidate state with
      | none => rfl
      | some key =>
        obtain ⟨record, hrec, -⟩ := lookup_evictionCandidate hc
        have hpos := size_removeRecord hrec
        omega
    rw [Remux.evictRounds, h.retainedBytes_eq_zero hnone]
    exact zero_le _
  | succ rounds ih =>
    intro state h hsize
    unfold Remux.evictRounds
    split
    · cases hc : evictionCandidate state with
      | none =>
        rw [h.retainedBytes_eq_zero hc]
        exact zero_le _
      | some key =>
        obtain ⟨record, hrec, -⟩ := lookup_evictionCandidate hc
        have hrem := size_removeRecord hrec
        exact ih _ (h.removeRecord key).1 (by omega)
    · next hover =>
      rw [not_or, saturatingAdd, saturatingAdd, maxOutcomeBytes] at hover
      rw [maxOutcomeBytes]
      omega

/-- **The latest outcome is not evicted**, where every other one was
stored before it: while another is there, that one is older, and alone it
is within the limit. -/
theorem lookup_evictToFit {key : CommandKey} {record : CommandRecord}
    {now : ℕ} (hrec : state.records.lookup key = some record)
    (hnow : record.completedAt = some now)
    (hbef : ∀ key' record' doneAt, key' ≠ key →
      state.records.lookup key' = some record' → record'.completedAt = some doneAt → doneAt < now) :
    (evictToFit state 0 0).records.lookup key = some record := by
  suffices ∀ rounds state, state.Counted → state.records.lookup key = some record →
      (∀ key' record' doneAt, key' ≠ key → state.records.lookup key' = some record' →
        record'.completedAt = some doneAt → doneAt < now) →
      (Remux.evictRounds 0 0 rounds state).records.lookup key = some record from
    this _ _ h hrec hbef
  intro rounds
  induction rounds with
  | zero => exact fun _ _ hrec _ => hrec
  | succ rounds ih =>
    intro state h hrec hbef
    unfold Remux.evictRounds
    split
    · next hover =>
      cases hc : evictionCandidate state with
      | none => exact hrec
      | some candidate =>
        have hne : candidate ≠ key := by
          rintro rfl
          -- The record is the oldest, so that it is the only complete one.
          have hothers : ∀ key' record', key' ≠ candidate →
              state.records.lookup key' = some record' → record'.retainedBytes = 0 := by
            intro key' record' hne hrec'
            refine h.running hrec' ?_
            by_contra hdone
            obtain ⟨doneAt, hcompl⟩ := ne_none_iff_exists'.1 hdone
            have hlt := hbef key' record' doneAt hne hrec' hcompl
            rw [evictionCandidate, map_eq_some_iff] at hc
            obtain ⟨⟨candidate', oldest⟩, hmin, rfl⟩ := hc
            obtain ⟨⟨_, record''⟩, hent, hsome⟩ := mem_filterMap.1 (argmin_mem hmin)
            obtain ⟨_, holdest, heq⟩ := map_eq_some_iff.1 hsome
            obtain ⟨rfl, rfl⟩ := Prod.mk.inj heq
            obtain rfl := some.inj (hrec.symm.trans (mem_entries_iff.1 hent))
            obtain rfl := some.inj (hnow.symm.trans holdest)
            have hmem : (key', doneAt) ∈ state.records.entries.filterMap fun entry =>
                entry.2.completedAt.map fun doneAt => (entry.1, doneAt) :=
              mem_filterMap.2 ⟨⟨key', record'⟩, mem_entries_iff.2 hrec', by
                rw [hcompl]
                rfl⟩
            exact absurd hlt (not_lt.2 (le_of_mem_argmin hmem hmin))
          have hown : state.retainedBytes ≤ record.retainedBytes := by
            rw [h.total]
            refine total_le_of_forall (fun w hw => ?_) hothers
            rw [some.inj (hrec.symm.trans hw)]
          have hwithin := h.within hrec
          have hsize := h.size
          rw [saturatingAdd, saturatingAdd] at hover
          omega
        refine ih _ (h.removeRecord candidate).1 ?_ fun key' record' doneAt hne' h' => ?_
        · rw [lookup_removeRecord, if_neg hne.symm]
          exact hrec
        · rw [lookup_removeRecord] at h'
          split at h'
          · cases h'
          · exact hbef key' record' doneAt hne' h'
    · exact hrec

omit h

end RegistryState.Counted

section

variable {serde : Serde} {w w' : CommandWorld}

set_option maxRecDepth 2000 in
theorem retainedBytes_durableOutcomeTooLarge (serde : Serde) :
    (RpcOutcome.error durableOutcomeTooLarge).retainedBytes serde = 126 := rfl

/-- Whatever `complete` is given, what it keeps is within the limit. -/
theorem retainedBytes_retainedOutcome (serde : Serde) (outcome : RpcOutcome) :
    (retainedOutcome serde outcome).retainedBytes serde ≤ maxOutcomeBytes := by
  unfold retainedOutcome
  split
  · rw [retainedBytes_durableOutcomeTooLarge]
    decide
  · omega

/-- The registry counts what it retains, and is within the limit. -/
def RegistryState.Retains (state : RegistryState) : Prop :=
  state.Counted ∧ state.retainedBytes ≤ maxOutcomeBytes

variable {registry : Registry} {record : CommandRecord}

/-- **`admit` keeps the count**: a record it makes retains nothing. -/
theorem RegistryState.Retains.admitCommand (h : registry.state.Retains) (now : ℕ)
    (method opId : String) (params : Option Json) :
    (admitCommand serde now method opId params registry).2.state.Retains := by
  obtain ⟨hcnt, hlim⟩ := h
  obtain ⟨hcleaned, hle⟩ := hcnt.cleanupExpired now
  obtain ⟨hevicted, hle'⟩ :=
    hcleaned.evictRounds 1 0 (cleanupExpired now registry.state).records.size
  unfold Remux.admitCommand
  split
  · dsimp only
    split
    · split
      all_goals exact ⟨hcleaned, hle.trans hlim⟩
    · next hfree =>
      split
      · exact ⟨hevicted, hle'.trans (hle.trans hlim)⟩
      · next hroom =>
        have hnone : (evictToFit (cleanupExpired now registry.state) 1 0).records.lookup
            ⟨method, opId⟩ = none := by
          cases hget : (evictToFit (cleanupExpired now registry.state) 1 0).records.lookup
            ⟨method, opId⟩ with
          | none => rfl
          | some record =>
            rw [(shrinks_evictToFit _ 1 0).sub hget] at hfree
            cases hfree
        refine ⟨⟨?_, ?_, ?_, ?_⟩, hle'.trans (hle.trans hlim)⟩
        · rw [total_insert_of_lookup_eq_none hnone]
          exact hevicted.total
        · intro key record hrec hrun
          rw [lookup_insert_eq] at hrec
          split at hrec
          · rw [← some.inj hrec]
          · exact hevicted.running hrec hrun
        · intro key record hrec
          rw [lookup_insert_eq] at hrec
          split at hrec
          · rw [← some.inj hrec]
            exact zero_le _
          · exact hevicted.within hrec
        · rw [size_insert_of_lookup_eq_none hnone]
          omega
  · exact ⟨hcnt, hlim⟩

/-- The state of `complete` before its eviction. -/
def RegistryState.stored (state : RegistryState) (key : CommandKey) (record : CommandRecord)
    (now retainedBytes : ℕ) : RegistryState where
  records := state.records.insert key { record with completedAt := some now, retainedBytes }
  retainedBytes := saturatingAdd (state.retainedBytes - record.retainedBytes) retainedBytes

/-- **Storing an outcome keeps the count**: the counter saturates at a
bound far above two limits. -/
theorem RegistryState.Retains.stored {state : RegistryState} (h : state.Retains) {key : CommandKey}
    (hrec : state.records.lookup key = some record) (now : ℕ) {retainedBytes : ℕ}
    (hbytes : retainedBytes ≤ maxOutcomeBytes) :
    (state.stored key record now retainedBytes).Counted := by
  obtain ⟨hcounted, hlim⟩ := h
  have hget : ∀ {key' record'}, (state.stored key record now retainedBytes).records.lookup key' =
      some record' → record' = { record with completedAt := some now, retainedBytes } ∨
        state.records.lookup key' = some record' := by
    intro key' record' h'
    rw [RegistryState.stored, lookup_insert_eq] at h'
    split at h'
    · exact .inl (some.inj h').symm
    · exact .inr h'
  refine ⟨?_, ?_, ?_, ?_⟩
  · have htotal := total_insert (f := CommandRecord.retainedBytes)
      (w := { record with completedAt := some now, retainedBytes }) hrec
    have hown := le_total (f := CommandRecord.retainedBytes) hrec
    have hcnt := hcounted.total
    rw [maxOutcomeBytes] at hlim hbytes
    rw [RegistryState.stored, saturatingAdd]
    dsimp only at htotal ⊢
    omega
  · intro key' record' h' hrun
    obtain rfl | h' := hget h'
    · cases hrun
    · exact hcounted.running h' hrun
  · intro key' record' h'
    obtain rfl | h' := hget h'
    · exact hbytes
    · exact hcounted.within h'
  · have hsize : (state.stored key record now retainedBytes).records.size = state.records.size := by
      have herase := size_erase_of_lookup_eq_some hrec
      exact herase
    rw [hsize]
    exact hcounted.size

/-- **`complete`, where the execution has its record**: the outcome is
stored, and then evicted for. -/
theorem complete_eq {execution : CommandExecution}
    (hrec : registry.state.records.lookup execution.key = some record) (now : ℕ)
    (outcome : RpcOutcome) :
    complete serde now execution outcome registry =
      let kept := retainedOutcome serde outcome
      ((kept, kept.retainedBytes serde),
        { state := evictToFit
            (registry.state.stored execution.key record now (kept.retainedBytes serde)) 0 0
          channels := registry.channels.set record.outcome (some kept) }) := by
  rw [complete, hrec]
  rfl

/-- `complete` keeps the count and the limit. -/
theorem RegistryState.Retains.complete {registry : Registry} (h : registry.state.Retains)
    (now : ℕ) (execution : CommandExecution) (outcome : RpcOutcome) :
    (complete serde now execution outcome registry).2.state.Retains := by
  cases hget : registry.state.records.lookup execution.key with
  | some record =>
    have hstore := h.stored hget now (retainedBytes_retainedOutcome serde outcome)
    rw [complete_eq hget]
    exact ⟨(hstore.evictRounds 0 0 _).1, hstore.evictToFit_le⟩
  | none =>
    rw [Remux.complete, hget]
    exact ⟨(h.1.evictRounds 0 0 _).1, h.1.evictToFit_le⟩

/-- **Every step keeps the count and the limit.** -/
theorem retains_of_step {action : CommandAction} (h : w.registry.state.Retains)
    (hstep : (commandMachine serde).step w action = some w') : w'.registry.state.Retains := by
  cases action with
  | admitCommand now method opId params =>
    cases hstep
    exact h.admitCommand now method opId params
  | complete now execution outcome =>
    cases (ite_none_right_eq_some.1 hstep).2
    exact h.complete now execution outcome
  | rehash recs =>
    obtain ⟨hperm, ⟨⟩⟩ := ite_none_right_eq_some.1 hstep
    obtain ⟨hcnt, hlim⟩ := h
    have hget := hperm.lookup_eq
    refine ⟨⟨hcnt.total.trans hperm.total_eq, fun hrec => ?_, fun hrec => ?_, ?_⟩, hlim⟩
    · exact hcnt.running ((hget _).trans hrec)
    · exact hcnt.within ((hget _).trans hrec)
    · exact hperm.size_eq ▸ hcnt.size

theorem retains_of_reachable (h : (commandMachine serde).Reachable w) :
    w.registry.state.Retains := by
  refine h.rule ⟨⟨rfl, ?_, ?_, zero_le _⟩, zero_le _⟩ fun _ _ _ _ h' hstep =>
    retains_of_step h' hstep
  all_goals
    intro key record hrec
    cases hrec

/-- **A replay sees the outcome its record has**, and there is no second
execution while the record is not expired. -/
theorem admit_of_completed {registry : Registry} {method opId : String}
    {record : CommandRecord} {outcome : RpcOutcome} {now later : ℕ}
    (hrec : registry.state.records.lookup ⟨method, opId⟩ = some record)
    (hnow : record.completedAt = some now)
    (hout : registry.channel record.outcome = some outcome) (hlat : later - now < outcomeTtl)
    {params : Option Json} {admission : CommandAdmission}
    (h : (admitCommand serde later method opId params registry).1 = .ok admission) :
    ∃ receiver, admission = .replay true receiver ∧ registry.channel receiver = some outcome := by
  have hkept : (cleanupExpired later registry.state).records.lookup ⟨method, opId⟩ =
      some record := by
    refine lookup_cleanupExpired_eq_some.2 ⟨hrec, ?_⟩
    rw [CommandRecord.expired, hnow]
    exact decide_eq_false (not_le.2 hlat)
  unfold admitCommand at h
  split at h
  · simp only [hkept] at h
    split at h
    · cases h
    · rw [hout] at h
      exact ⟨record.outcome, (Except.ok.inj h).symm, hout⟩
  · cases h

/-- **The registry counts what it retains.** In every reachable state the
counter is the total of the records and there are at most 256 of them, and
after `complete` the counter is at most 8 MiB. Where the outcomes that are
there were stored before, `complete` does not evict the one it stores: what
is admitted for the operation before the outcome expires is a replay that
has it. -/
theorem retained_bytes_counted (h : (commandMachine serde).Reachable w) :
    w.registry.state.retainedBytes =
        w.registry.state.records.total CommandRecord.retainedBytes ∧
      w.registry.state.records.size ≤ maxCommandRecords ∧
      ∀ now execution outcome, execution ∈ w.executions →
        let completed := complete serde now execution outcome w.registry
        completed.2.state.retainedBytes ≤ maxOutcomeBytes ∧
          ((∀ key record completedAt, w.registry.state.records.lookup key = some record →
              record.completedAt = some completedAt → completedAt < now) →
            (∃ record, completed.2.state.records.lookup execution.key = some record ∧
              record.completedAt = some now ∧
              completed.2.channel record.outcome = some completed.1.1) ∧
            ∀ later params admission, later - now < outcomeTtl →
              (admitCommand serde later execution.key.method execution.key.operationId params
                completed.2).1 = .ok admission →
              ∃ receiver, admission = .replay true receiver ∧
                completed.2.channel receiver = some completed.1.1) := by
  have hretains := retains_of_reachable h
  refine ⟨hretains.1.total, hretains.1.size, fun now execution outcome hheld => ?_⟩
  refine ⟨(hretains.complete now execution outcome).2, fun hbefore => ?_⟩
  obtain ⟨record, hrecord⟩ := (inv_of_reachable h).recorded hheld
  have hstored := hretains.stored hrecord now
    (retainedBytes_retainedOutcome serde outcome)
  rw [complete_eq hrecord]
  have hkept := @RegistryState.Counted.lookup_evictToFit _ hstored execution.key _ now
    (AList.lookup_insert _) rfl fun key record' completedAt hne h' hcompleted => by
      rw [RegistryState.stored, Assoc.lookup_insert_eq, if_neg hne] at h'
      exact hbefore key record' completedAt h' hcompleted
  have hchannel := channel_set w.registry (evictToFit (w.registry.state.stored execution.key record
    now ((retainedOutcome serde outcome).retainedBytes serde)) 0 0)
    (retainedOutcome serde outcome) ((inv_of_reachable h).bound hrecord) record.outcome
  rw [if_pos rfl] at hchannel
  exact ⟨⟨_, hkept, rfl, hchannel⟩, fun later params admission hlater hadmit =>
    @admit_of_completed serde _ _ _ { record with completedAt := some now, retainedBytes := _ } _
      now later hkept rfl hchannel hlater _ _ hadmit⟩

/-- An operation is admitted and completed, and what comes after it is a
replay. -/
theorem retained_bytes_counted_example :
    ∃ w registry, (commandMachine exampleSerde).step (commandMachine exampleSerde).init
        (.admitCommand 0 "remux/example/write" "op-1" (some paramsA)) = some w ∧
      (complete exampleSerde 1 ⟨⟨"remux/example/write", "op-1"⟩⟩ (.result .null) w.registry).2 =
        registry ∧
      registry.state.retainedBytes = 4 ∧ registry.state.retainedBytes ≤ maxOutcomeBytes ∧
      ∃ receiver, CommandAdmission.replay true 0 = .replay true receiver ∧
        registry.channel receiver = some (.result .null) := by
  obtain ⟨-, -, h⟩ := @retained_bytes_counted exampleSerde _ (Machine.Reachable.init.step
    (a := .admitCommand 0 "remux/example/write" "op-1" (some paramsA)) rfl)
  obtain ⟨hlimit, hkept⟩ := h 1 ⟨⟨"remux/example/write", "op-1"⟩⟩ (.result .null)
    List.mem_cons_self
  refine ⟨_, _, rfl, rfl, rfl, hlimit, ?_⟩
  refine (hkept ?_).2 2 (some paramsA) _ (by decide) rfl
  intro key record completedAt hrecord hcompleted
  obtain ⟨-, heq⟩ := List.mem_singleton.1 (Assoc.mem_entries_iff.2 hrecord)
  cases hcompleted

end

end Remux
