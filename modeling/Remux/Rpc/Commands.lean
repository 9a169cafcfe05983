import Remux.Json.Canonical
import Remux.Json.Text
import Remux.Rpc.Model.Commands

/-!
# What the command registry promises

`admit` and `complete` remove records in two places, the cleanup of
expired outcomes and the eviction loop. What both can do is said once
(`Shrinks`: a record that goes was complete), what `admit` can answer
once (`admit_cases`), and the invariants of the machine are read off
these two.

The main result follows one admission through the runs after it. Its
record is named by its channel, which no other record ever gets; while
the channel is empty the record stays, and once it is filled its value
stays.
-/

namespace Remux

open Registry Assoc Option

/-! ## Removing records -/

/-- **What a removal may do**: the records left are unchanged, and every
record that went was complete. -/
structure Shrinks (state state' : RegistryState) : Prop where
  sub : ∀ {key record}, state'.records.lookup key = some record →
    state.records.lookup key = some record
  keeps : ∀ {key record}, state.records.lookup key = some record →
    record.completedAt = none → state'.records.lookup key = some record

namespace Shrinks

variable {state state' state'' : RegistryState}

theorem refl : Shrinks state state := ⟨fun h => h, fun h _ => h⟩

theorem trans (h : Shrinks state state') (h' : Shrinks state' state'') : Shrinks state state'' :=
  ⟨fun hr => h.sub (h'.sub hr), fun hr hopen => h'.keeps (h.keeps hr hopen) hopen⟩

end Shrinks

/-- One record is removed, the others stay. -/
theorem lookup_removeRecord (state : RegistryState) (key key' : CommandKey) :
    (removeRecord state key).records.lookup key' =
      if key' = key then none else state.records.lookup key' := by
  unfold removeRecord
  cases h : state.records.lookup key with
  | some record => exact lookup_erase_eq
  | none =>
    by_cases hk : key' = key
    · rw [if_pos hk, hk, h]
    · rw [if_neg hk]

variable {state : RegistryState} {key : CommandKey} {record : CommandRecord} {now : ℕ}

/-- Removing a complete record is a removal. -/
theorem shrinks_removeRecord (h : state.records.lookup key = some record)
    (hdone : record.completedAt ≠ none) :
    Shrinks state (removeRecord state key) := by
  constructor
  · intro key' record' h'
    rw [lookup_removeRecord] at h'
    split at h'
    · cases h'
    · exact h'
  · intro key' record' h' hopen
    rw [lookup_removeRecord]
    split
    · next hk =>
      subst hk
      rw [h] at h'
      exact absurd hopen (some.inj h' ▸ hdone)
    · exact h'

/-- Some records are removed, the others stay. -/
theorem lookup_foldl_removeRecord (keys : List CommandKey) (state : RegistryState)
    (key : CommandKey) :
    (keys.foldl removeRecord state).records.lookup key =
      if key ∈ keys then none else state.records.lookup key := by
  induction keys generalizing state with
  | nil => rfl
  | cons k keys ih =>
    rw [List.foldl_cons, ih, lookup_removeRecord]
    by_cases hk : key = k
    all_goals simp [hk]

/-- **The cleanup removes exactly the expired records.** -/
theorem lookup_cleanupExpired (now : ℕ) (state : RegistryState) (key : CommandKey) :
    (cleanupExpired now state).records.lookup key =
      (state.records.lookup key).filter fun record => !record.expired now := by
  rw [cleanupExpired, lookup_foldl_removeRecord]
  have hmem : key ∈ (state.records.entries.filter fun entry => entry.2.expired now).map Sigma.fst ↔
      ∃ record, state.records.lookup key = some record ∧ record.expired now = true := by
    simp only [List.mem_map, List.mem_filter]
    constructor
    · rintro ⟨⟨k, record⟩, ⟨hent, hexp⟩, rfl⟩
      exact ⟨record, mem_entries_iff.1 hent, hexp⟩
    · rintro ⟨record, hrec, hexp⟩
      exact ⟨⟨key, record⟩, ⟨mem_entries_iff.2 hrec, hexp⟩, rfl⟩
  cases h : state.records.lookup key with
  | none =>
    rw [if_neg (by rw [hmem, h]; simp)]
    rfl
  | some record =>
    cases hexp : record.expired now with
    | true =>
      rw [if_pos (hmem.2 ⟨record, h, hexp⟩), filter_some, hexp]
      rfl
    | false =>
      rw [if_neg]
      · rw [filter_some, hexp]
        rfl
      · rw [hmem, h]
        rintro ⟨record', hrec', hexp'⟩
        rw [← some.inj hrec', hexp] at hexp'
        cases hexp'

theorem completedAt_ne_none_of_expired (h : record.expired now = true) :
    record.completedAt ≠ none := by
  intro hopen
  simp [CommandRecord.expired, hopen] at h

theorem lookup_cleanupExpired_eq_some :
    (cleanupExpired now state).records.lookup key = some record ↔
      state.records.lookup key = some record ∧ record.expired now = false := by
  rw [lookup_cleanupExpired, filter_eq_some_iff]
  simp

/-- A cleanup only removes. -/
theorem shrinks_cleanupExpired (now : ℕ) (state : RegistryState) :
    Shrinks state (cleanupExpired now state) := by
  constructor
  · intro key record h
    exact (lookup_cleanupExpired_eq_some.1 h).1
  · intro key record h hopen
    refine lookup_cleanupExpired_eq_some.2 ⟨h, ?_⟩
    rw [← Bool.not_eq_true]
    exact fun hexp => completedAt_ne_none_of_expired hexp hopen

/-- The eviction candidate is a complete record. -/
theorem lookup_evictionCandidate (h : evictionCandidate state = some key) :
    ∃ record, state.records.lookup key = some record ∧ record.completedAt ≠ none := by
  rw [evictionCandidate, map_eq_some_iff] at h
  obtain ⟨⟨k, at'⟩, hmin, rfl⟩ := h
  obtain ⟨⟨k', record⟩, hent, hsome⟩ := List.mem_filterMap.1 (List.argmin_mem hmin)
  rw [map_eq_some_iff] at hsome
  obtain ⟨doneAt, hcompl, heq⟩ := hsome
  cases heq
  exact ⟨record, mem_entries_iff.1 hent, by rw [hcompl]; simp⟩

/-- An eviction only removes. -/
theorem shrinks_evictRounds (incomingRecords incomingBytes rounds : ℕ) (state : RegistryState) :
    Shrinks state (evictRounds incomingRecords incomingBytes rounds state) := by
  induction rounds generalizing state with
  | zero => exact Shrinks.refl
  | succ rounds ih =>
    unfold evictRounds
    split
    · cases h : evictionCandidate state with
      | none => exact Shrinks.refl
      | some key =>
        obtain ⟨record, hrec, hdone⟩ := lookup_evictionCandidate h
        exact (shrinks_removeRecord hrec hdone).trans (ih _)
    · exact Shrinks.refl

theorem shrinks_evictToFit (state : RegistryState) (incomingRecords incomingBytes : ℕ) :
    Shrinks state (evictToFit state incomingRecords incomingBytes) :=
  shrinks_evictRounds _ _ _ _

theorem size_removeRecord (h : state.records.lookup key = some record) :
    (removeRecord state key).records.size + 1 = state.records.size := by
  rw [removeRecord, h]
  exact size_erase_of_lookup_eq_some h

/-- **The eviction loop runs to its end**: more rounds than there are
records change nothing. -/
theorem evictRounds_stable {incomingRecords incomingBytes rounds : ℕ}
    (h : state.records.size ≤ rounds) :
    evictRounds incomingRecords incomingBytes rounds state =
      evictToFit state incomingRecords incomingBytes := by
  suffices ∀ n m state, state.records.size ≤ n → state.records.size ≤ m →
      evictRounds incomingRecords incomingBytes n state =
        evictRounds incomingRecords incomingBytes m state from
    this _ _ _ h le_rfl
  intro n
  induction n with
  | zero =>
    intro m state hn _
    have hnil : evictionCandidate state = none := by
      cases hc : evictionCandidate state with
      | none => rfl
      | some key =>
        obtain ⟨record, hrec, -⟩ := lookup_evictionCandidate hc
        have := size_removeRecord hrec
        omega
    cases m with
    | zero => rfl
    | succ m => simp [evictRounds, hnil]
  | succ n ih =>
    intro m state hn hm
    cases hc : evictionCandidate state with
    | none => cases m <;> simp [evictRounds, hc]
    | some key =>
      obtain ⟨record, hrec, -⟩ := lookup_evictionCandidate hc
      have hsize := size_removeRecord hrec
      cases m with
      | zero => omega
      | succ m =>
        simp only [evictRounds, hc]
        split
        · exact ih m _ (by omega) (by omega)
        · rfl

/-! ## Fingerprints -/

/-- The digits tell the bytes. -/
theorem flatMap_hexByte_inj : ∀ {xs ys : List UInt8},
    xs.flatMap hexByte = ys.flatMap hexByte → xs = ys
  | [], [], _ => rfl
  | [], _ :: _, h => by simp [hexByte] at h
  | _ :: _, [], h => by simp [hexByte] at h
  | x :: xs, y :: ys, h => by
    obtain ⟨hxy, hrest⟩ := List.append_inj h rfl
    rw [hexByte_inj hxy, flatMap_hexByte_inj hrest]

theorem hexLower_inj {xs ys : List UInt8} (h : hexLower xs = hexLower ys) : xs = ys :=
  flatMap_hexByte_inj (String.ofList_injective h)

section

variable {serde : Serde}

/-- SHA-256 does not collide on the texts of two values. -/
def CollisionFree (serde : Serde) (v w : Value) : Prop :=
  serde.sha256 (serde.toVec v) = serde.sha256 (serde.toVec w) → serde.toVec v = serde.toVec w

/-- Parameters equal up to the order of object keys, absent ones counting
as null. -/
def SameParameters (params params' : Option Json) : Prop :=
  (parametersOrNull params).SameUpToOrder (parametersOrNull params')

theorem wellFormed_parametersOrNull : ∀ params : Option Json, (parametersOrNull params).WellFormed
  | none => trivial
  | some params => params.2

variable {method : String} {params params' : Option Json} {w w' : CommandWorld}
variable {state : RegistryState} {execution : CommandExecution} {now : ℕ} {outcome : RpcOutcome}

theorem parameterIdentity_eq_iff :
    parameterIdentity method params = parameterIdentity method params' ↔
      SameParameters params params' := by
  rw [SameParameters, ← canonicalValue_eq_iff (wellFormed_parametersOrNull _)
    (wellFormed_parametersOrNull _)]
  simp [parameterIdentity]

/-- Parameters the same up to key order have one fingerprint. -/
theorem parameterFingerprint_eq_of_same {method : String} {params params' : Option Json}
    (h : SameParameters params params') :
    parameterFingerprint serde method params = parameterFingerprint serde method params' := by
  rw [parameterFingerprint, parameterFingerprint, parameterIdentity_eq_iff.2 h]

/-- Other parameters have another fingerprint, short of a collision. -/
theorem parameterFingerprint_ne (hfl : PrintsDoubles serde.floatText)
    (hfree : CollisionFree serde (parameterIdentity method params)
      (parameterIdentity method params')) (h : ¬ SameParameters params params') :
    parameterFingerprint serde method params ≠ parameterFingerprint serde method params' := by
  intro heq
  rw [parameterFingerprint, parameterFingerprint, String.append_right_inj] at heq
  exact h (parameterIdentity_eq_iff.1 (toVec_inj hfl (hfree (hexLower_inj heq))))

/-! ## What `admit` answers -/

/-- The registry after the cleanup of expired outcomes. -/
def Registry.cleaned (registry : Registry) (now : ℕ) : Registry :=
  { registry with state := cleanupExpired now registry.state }

/-- **The answers of `admit`**, each with the registry it leaves. -/
theorem admit_cases (serde : Serde) (now : ℕ) (method opId : String)
    (params : Option Json) (registry : Registry) :
    (validOperationId opId = false ∧
      admitCommand serde now method opId params registry = (.error invalidOperationId, registry)) ∨
    (validOperationId opId = true ∧ ∃ record,
      (registry.cleaned now).state.records.lookup ⟨method, opId⟩ = some record ∧
      ((record.fingerprint ≠ parameterFingerprint serde method params ∧
          admitCommand serde now method opId params registry =
            (.error operationIdConflict, registry.cleaned now)) ∨
        (record.fingerprint = parameterFingerprint serde method params ∧
          admitCommand serde now method opId params registry =
            (.ok (.replay (registry.channel record.outcome).isSome record.outcome),
              registry.cleaned now)))) ∨
    (validOperationId opId = true ∧
      (registry.cleaned now).state.records.lookup ⟨method, opId⟩ = none ∧
      ∃ state, Shrinks (registry.cleaned now).state state ∧
        (admitCommand serde now method opId params registry =
            (.error serverBusy, { registry with state }) ∨
          admitCommand serde now method opId params registry =
            (.ok (.execute ⟨⟨method, opId⟩⟩),
              { state :=
                  { state with
                    records := state.records.insert ⟨method, opId⟩
                      { fingerprint := parameterFingerprint serde method params
                        completedAt := none
                        outcome := registry.channels.length
                        retainedBytes := 0 } }
                channels := registry.channels ++ [none] }))) := by
  cases hvalid : validOperationId opId with
  | false => exact .inl ⟨rfl, by simp [admitCommand, hvalid]⟩
  | true =>
    right
    cases hget : (registry.cleaned now).state.records.lookup ⟨method, opId⟩ with
    | some record =>
      left
      have hget' : (cleanupExpired now registry.state).records.lookup ⟨method, opId⟩ =
          some record := hget
      refine ⟨rfl, record, rfl, ?_⟩
      by_cases hfp : record.fingerprint = parameterFingerprint serde method params
      · exact .inr ⟨hfp, by simp [admitCommand, hvalid, hget', hfp, cleaned]⟩
      · exact .inl ⟨hfp, by simp [admitCommand, hvalid, hget', hfp, cleaned]⟩
    | none =>
      right
      have hget' : (cleanupExpired now registry.state).records.lookup ⟨method, opId⟩ =
          none := hget
      refine ⟨rfl, rfl, _, shrinks_evictToFit _ 1 0, ?_⟩
      by_cases hfull : (evictToFit (registry.cleaned now).state 1 0).records.size ≥
        maxCommandRecords
      · refine .inl ?_
        simp only [cleaned] at hfull
        simp [admitCommand, hvalid, hget', cleaned, hfull]
      · refine .inr ?_
        simp only [cleaned] at hfull
        simp [admitCommand, hvalid, hget', cleaned, hfull]

/-! ## One step -/

/-- **What a step can do** to a registry and its callers: remove records,
admit an execution after removals, or complete one and then remove
records. -/
inductive CommandChange (w : CommandWorld) : CommandWorld → Prop where
  | shrink {state : RegistryState} (hshrinks : Shrinks w.registry.state state) :
    CommandChange w ⟨⟨state, w.registry.channels⟩, w.executions⟩
  | execute {state : RegistryState} {key : CommandKey} {fingerprint : String}
    (hshrinks : Shrinks w.registry.state state) (hnone : state.records.lookup key = none)
    {state' : RegistryState} (hstate' : state'.records =
      state.records.insert key ⟨fingerprint, none, w.registry.channels.length, 0⟩) :
    CommandChange w ⟨⟨state', w.registry.channels ++ [none]⟩, ⟨key⟩ :: w.executions⟩
  | complete {execution : CommandExecution} {record : CommandRecord} {now retainedBytes : ℕ}
    {outcome : RpcOutcome} (hheld : execution ∈ w.executions)
    (hrecord : w.registry.state.records.lookup execution.key = some record)
    {state state' : RegistryState} (hstate : state.records =
      w.registry.state.records.insert execution.key
        { record with completedAt := some now, retainedBytes })
    (hshrinks : Shrinks state state') :
    CommandChange w
      ⟨⟨state', w.registry.channels.set record.outcome (some outcome)⟩,
        w.executions.erase execution⟩
  | orphan {execution : CommandExecution} {state : RegistryState}
    (hheld : execution ∈ w.executions)
    (hnone : w.registry.state.records.lookup execution.key = none) :
    CommandChange w ⟨⟨state, w.registry.channels⟩, w.executions.erase execution⟩

variable (registry : Registry)

theorem shrinks_cleaned (now : ℕ) : Shrinks registry.state (registry.cleaned now).state :=
  shrinks_cleanupExpired now registry.state

/-- What a step changes of the registry. -/
theorem commandChange_of_step {action : CommandAction}
    (h : (commandMachine serde).step w action = some w') : CommandChange w w' := by
  cases action with
  | admitCommand now method opId params =>
    simp only [commandMachine, some.injEq] at h
    obtain ⟨-, heq⟩ | ⟨-, record, -, ⟨-, heq⟩ | ⟨-, heq⟩⟩ | ⟨-, hnone, state, hst, heq | heq⟩ :=
      admit_cases serde now method opId params w.registry
    · rw [heq] at h
      exact h ▸ CommandChange.shrink Shrinks.refl
    · rw [heq] at h
      exact h ▸ CommandChange.shrink (shrinks_cleaned _ now)
    · rw [heq] at h
      exact h ▸ CommandChange.shrink (shrinks_cleaned _ now)
    · rw [heq] at h
      exact h ▸ CommandChange.shrink ((shrinks_cleaned _ now).trans hst)
    · rw [heq] at h
      refine h ▸ CommandChange.execute ((shrinks_cleaned _ now).trans hst) ?_ rfl
      -- the key was free after the cleanup, so it is free after the eviction
      cases hget : state.records.lookup ⟨method, opId⟩ with
      | none => rfl
      | some record =>
        rw [hst.sub hget] at hnone
        cases hnone
  | complete now execution outcome =>
    simp only [commandMachine] at h
    obtain ⟨hheld, h⟩ := ite_none_right_eq_some.1 h
    rw [some.injEq] at h
    cases hget : w.registry.state.records.lookup execution.key with
    | some record =>
      simp only [complete, hget] at h
      exact h ▸ CommandChange.complete hheld hget rfl (shrinks_evictToFit _ 0 0)
    | none =>
      simp only [complete, hget] at h
      exact h ▸ CommandChange.orphan hheld hget
  | rehash recs =>
    simp only [commandMachine] at h
    obtain ⟨hperm, h⟩ := ite_none_right_eq_some.1 h
    rw [some.injEq] at h
    have hget := hperm.lookup_eq
    refine h ▸ CommandChange.shrink ⟨?_, ?_⟩
    · intro key record hrec
      rw [hget key]
      exact hrec
    · intro key record hrec _
      rw [← hget key]
      exact hrec

/-! ## The invariant -/

/-- **The invariant of the registry**: every record has a channel of its
own, and it is open exactly while the channel is empty and exactly while
its execution is held. -/
structure CommandWorld.Inv (w : CommandWorld) : Prop where
  bound : ∀ {key record}, w.registry.state.records.lookup key = some record →
    record.outcome < w.registry.channels.length
  distinct : ∀ {key key' record record'}, w.registry.state.records.lookup key = some record →
    w.registry.state.records.lookup key' = some record' → record.outcome = record'.outcome →
    key = key'
  empty : ∀ {key record}, w.registry.state.records.lookup key = some record →
    (record.completedAt = none ↔ w.registry.channel record.outcome = none)
  held : ∀ {key record}, w.registry.state.records.lookup key = some record →
    (record.completedAt = none ↔ ⟨key⟩ ∈ w.executions)
  recorded : ∀ {execution}, execution ∈ w.executions →
    ∃ record, w.registry.state.records.lookup execution.key = some record
  nodup : w.executions.Nodup

/-- A new channel holds nothing. -/
theorem channel_append (state : RegistryState) (receiver : ℕ) :
    (mk state (registry.channels ++ [none])).channel receiver = registry.channel receiver := by
  simp only [channel, List.getD_eq_getElem?_getD]
  by_cases h : receiver < registry.channels.length
  · rw [List.getElem?_append_left h]
  · have hge : registry.channels.length ≤ receiver := by omega
    rw [List.getElem?_append_right hge, List.getElem?_eq_none hge]
    cases receiver - registry.channels.length <;> rfl

/-- One channel is set, the others stay. -/
theorem channel_set (state : RegistryState) {receiver : ℕ}
    (outcome : RpcOutcome) (h : receiver < registry.channels.length) (receiver' : ℕ) :
    (mk state (registry.channels.set receiver (some outcome))).channel receiver' =
      if receiver' = receiver then some outcome else registry.channel receiver' := by
  simp only [channel, List.getD_eq_getElem?_getD, List.getElem?_set]
  by_cases hr : receiver' = receiver
  · simp [hr, h]
  · simp [hr, Ne.symm hr]

theorem inv_init : (commandMachine serde).init.Inv := by
  constructor <;> simp [commandMachine]

/-- Removals keep the invariant. -/
theorem CommandWorld.Inv.of_shrinks (h : w.Inv) (hs : Shrinks w.registry.state state) :
    CommandWorld.Inv ⟨⟨state, w.registry.channels⟩, w.executions⟩ where
  bound hr := h.bound (hs.sub hr)
  distinct hr hr' := h.distinct (hs.sub hr) (hs.sub hr')
  empty hr := h.empty (hs.sub hr)
  held hr := h.held (hs.sub hr)
  recorded := by
    intro execution hexec
    obtain ⟨record, hr⟩ := h.recorded hexec
    exact ⟨record, hs.keeps hr ((h.held hr).2 hexec)⟩
  nodup := h.nodup

/-- An admission keeps the invariant: the new record's channel is the
next one, and its key was free. -/
theorem CommandWorld.Inv.of_execute (h : w.Inv) {key : CommandKey} {fingerprint : String}
    {channels : List (Option RpcOutcome)} (hchannels : channels = w.registry.channels)
    (hst : w.registry.state = state) (hnone : state.records.lookup key = none)
    {state' : RegistryState}
    (hst' : state'.records = state.records.insert key ⟨fingerprint, none, channels.length, 0⟩) :
    CommandWorld.Inv ⟨⟨state', channels ++ [none]⟩, ⟨key⟩ :: w.executions⟩ := by
  subst hchannels hst
  have hget : ∀ key', state'.records.lookup key' =
      if key' = key then some ⟨fingerprint, none, w.registry.channels.length, 0⟩
      else w.registry.state.records.lookup key' := fun key' => by
    rw [hst', lookup_insert_eq]
  have hnew : ⟨key⟩ ∉ w.executions := by
    intro hexec
    obtain ⟨record, hr⟩ := h.recorded hexec
    rw [hnone] at hr
    cases hr
  have hold : ∀ {key' record}, state'.records.lookup key' = some record →
      key' = key ∧ record = ⟨fingerprint, none, w.registry.channels.length, 0⟩ ∨
      key' ≠ key ∧ w.registry.state.records.lookup key' = some record := by
    intro key' record hr
    rw [hget] at hr
    split at hr
    · next hk => exact .inl ⟨hk, (some.inj hr).symm⟩
    · next hk => exact .inr ⟨hk, hr⟩
  constructor
  · intro key' record hr
    rw [List.length_append, List.length_singleton]
    obtain ⟨-, rfl⟩ | ⟨-, hr⟩ := hold hr
    · exact Nat.lt_succ_self _
    · exact Nat.lt_succ_of_lt (h.bound hr)
  · intro key₁ key₂ record₁ record₂ hr₁ hr₂ heq
    obtain ⟨rfl, rfl⟩ | ⟨-, hold₁⟩ := hold hr₁ <;> obtain ⟨rfl, rfl⟩ | ⟨-, hold₂⟩ := hold hr₂
    · rfl
    · exact absurd (h.bound hold₂) (by rw [← heq]; exact Nat.lt_irrefl _)
    · exact absurd (h.bound hold₁) (by rw [heq]; exact Nat.lt_irrefl _)
    · exact h.distinct hold₁ hold₂ heq
  · intro key' record hr
    rw [channel_append w.registry]
    obtain ⟨-, rfl⟩ | ⟨-, hr⟩ := hold hr
    · simp [channel]
    · exact h.empty hr
  · intro key' record hr
    obtain ⟨rfl, rfl⟩ | ⟨hk, hr⟩ := hold hr
    · simp
    · rw [h.held hr]
      simp [hk]
  · intro execution hexec
    obtain rfl | hexec := List.mem_cons.1 hexec
    · exact ⟨_, by rw [hget, if_pos rfl]⟩
    · obtain ⟨record, hr⟩ := h.recorded hexec
      refine ⟨record, ?_⟩
      rw [hget, if_neg, hr]
      intro hk
      exact hnew (hk ▸ hexec)
  · exact List.nodup_cons.2 ⟨hnew, h.nodup⟩

/-- A completion keeps the invariant: the record is closed, its channel
filled and its execution given up at once. -/
theorem CommandWorld.Inv.of_complete (h : w.Inv) {record : CommandRecord} {retainedBytes : ℕ}
    (hrec : w.registry.state.records.lookup execution.key = some record)
    (hst : state.records = w.registry.state.records.insert execution.key
        { record with completedAt := some now, retainedBytes }) :
    CommandWorld.Inv ⟨⟨state, w.registry.channels.set record.outcome (some outcome)⟩,
        w.executions.erase execution⟩ := by
  have hold : ∀ {key record'}, state.records.lookup key = some record' →
      key = execution.key ∧ record' = { record with completedAt := some now, retainedBytes } ∨
      key ≠ execution.key ∧ w.registry.state.records.lookup key = some record' := by
    intro key record' hr
    rw [hst, lookup_insert_eq] at hr
    split at hr
    · next hk => exact .inl ⟨hk, (some.inj hr).symm⟩
    · next hk => exact .inr ⟨hk, hr⟩
  have hbnd := h.bound hrec
  constructor
  · intro key record' hr
    rw [List.length_set]
    obtain ⟨-, rfl⟩ | ⟨-, hr⟩ := hold hr
    · exact hbnd
    · exact h.bound hr
  · intro key₁ key₂ record₁ record₂ hr₁ hr₂ heq
    obtain ⟨rfl, rfl⟩ | ⟨-, hold₁⟩ := hold hr₁ <;> obtain ⟨rfl, rfl⟩ | ⟨-, hold₂⟩ := hold hr₂
    · rfl
    · exact h.distinct hrec hold₂ heq
    · exact h.distinct hold₁ hrec heq
    · exact h.distinct hold₁ hold₂ heq
  · intro key record' hr
    rw [channel_set w.registry _ _ hbnd]
    obtain ⟨-, rfl⟩ | ⟨hk, hr⟩ := hold hr
    · simp
    · rw [if_neg fun heq => hk (h.distinct hr hrec heq)]
      exact h.empty hr
  · intro key record' hr
    obtain ⟨rfl, rfl⟩ | ⟨hk, hr⟩ := hold hr
    · simp [h.nodup.mem_erase_iff]
    · rw [h.held hr, h.nodup.mem_erase_iff]
      simp only [ne_eq, iff_and_self]
      rintro - rfl
      exact hk rfl
  · intro execution' hexec
    obtain ⟨hne, hexec⟩ := (h.nodup.mem_erase_iff).1 hexec
    obtain ⟨record', hr⟩ := h.recorded hexec
    refine ⟨record', ?_⟩
    rw [hst, lookup_insert_eq, if_neg, hr]
    intro hk
    cases execution
    cases execution'
    exact hne (by rw [CommandExecution.mk.injEq]; exact hk)
  · exact h.nodup.erase execution

/-- **Every step keeps the invariant.** -/
theorem CommandWorld.Inv.of_change (h : w.Inv) (hchg : CommandChange w w') : w'.Inv := by
  cases hchg with
  | shrink hshrinks => exact h.of_shrinks hshrinks
  | execute hshrinks hnone hst' => exact (h.of_shrinks hshrinks).of_execute rfl rfl hnone hst'
  | complete _ hrec hst hshrinks => exact (h.of_complete hrec hst).of_shrinks hshrinks
  | orphan hheld hnone =>
    obtain ⟨record, hr⟩ := h.recorded hheld
    rw [hnone] at hr
    cases hr

/-- **The invariant holds in every run.** -/
theorem inv_of_reachable (h : (commandMachine serde).Reachable w) : w.Inv :=
  h.rule inv_init fun _ _ _ _ hinv hstep => hinv.of_change (commandChange_of_step hstep)

/-! ## One admission and the runs after it -/

/-- **What stays known of an admission** of `key` with a fingerprint,
answered with a receiver: the channel belongs to no other record, and
while it is empty its record is there. -/
structure CommandWorld.Tracks (key : CommandKey) (fingerprint : String) (receiver : ℕ)
    (w : CommandWorld) : Prop where
  made : receiver < w.registry.channels.length
  only : ∀ {key' record}, w.registry.state.records.lookup key' = some record →
    record.outcome = receiver → key' = key ∧ record.fingerprint = fingerprint
  kept : w.registry.channel receiver = none →
    ∃ record, w.registry.state.records.lookup key = some record ∧ record.outcome = receiver

variable {key : CommandKey} {fingerprint : String} {receiver : ℕ}

theorem CommandWorld.Tracks.of_shrinks (hinv : w.Inv) (h : w.Tracks key fingerprint receiver)
    (hs : Shrinks w.registry.state state) {executions : List CommandExecution} :
    CommandWorld.Tracks key fingerprint receiver ⟨⟨state, w.registry.channels⟩, executions⟩ where
  made := h.made
  only hr := h.only (hs.sub hr)
  kept := by
    intro hnil
    obtain ⟨record, hr, hout⟩ := h.kept hnil
    exact ⟨record, hs.keeps hr ((hinv.empty hr).2 (by rw [hout]; exact hnil)), hout⟩

/-- Every step keeps track of an admission. -/
theorem CommandWorld.Tracks.of_change (hinv : w.Inv) (h : w.Tracks key fingerprint receiver)
    (hchg : CommandChange w w') :
    w'.Tracks key fingerprint receiver := by
  cases hchg with
  | shrink hshrinks => exact h.of_shrinks hinv hshrinks
  | @execute state key₀ fingerprint₀ hshrinks hnone state' hst' =>
    have hold : CommandWorld.Tracks key fingerprint receiver ⟨⟨state, w.registry.channels⟩, []⟩ :=
      h.of_shrinks hinv hshrinks
    constructor
    · rw [List.length_append]
      exact Nat.lt_add_right _ h.made
    · intro key' record hr hout
      simp only at hr
      rw [hst', lookup_insert_eq] at hr
      split at hr
      · -- the new record's channel was not made before
        rw [← some.inj hr] at hout
        exact absurd h.made (by rw [← hout]; exact Nat.lt_irrefl _)
      · exact hold.only hr hout
    · intro hnil
      rw [channel_append w.registry] at hnil
      obtain ⟨record, hr, hout⟩ := hold.kept hnil
      refine ⟨record, ?_, hout⟩
      simp only at hr ⊢
      rw [hst', lookup_insert_eq, if_neg, hr]
      rintro rfl
      rw [hnone] at hr
      cases hr
  | @complete execution record now retainedBytes outcome hheld hrec state state' hst hshrinks =>
    refine CommandWorld.Tracks.of_shrinks (hinv.of_complete hrec hst) ?_ hshrinks
    constructor
    · rw [List.length_set]
      exact h.made
    · intro key' record' hr hout
      simp only at hr
      rw [hst, lookup_insert_eq] at hr
      split at hr
      · next hk =>
        cases hr
        obtain ⟨hkey, hfp⟩ := h.only hrec hout
        exact ⟨hk.trans hkey, hfp⟩
      · exact h.only hr hout
    · intro hnil
      rw [channel_set w.registry _ _ (hinv.bound hrec)] at hnil
      split at hnil
      · cases hnil
      · next hne =>
        obtain ⟨record', hr, hout⟩ := h.kept hnil
        refine ⟨record', ?_, hout⟩
        simp only
        rw [hst, lookup_insert_eq, if_neg, hr]
        rintro rfl
        rw [hrec, some.injEq] at hr
        exact hne (by rw [hr, hout])
  | orphan hheld hnone =>
    obtain ⟨record, hr⟩ := hinv.recorded hheld
    rw [hnone] at hr
    cases hr

/-- **An outcome is final**: no step changes the value of a channel. -/
theorem channel_of_change (hinv : w.Inv) (hchg : CommandChange w w')
    (h : w.registry.channel receiver = some outcome) :
    w'.registry.channel receiver = some outcome := by
  cases hchg with
  | shrink | orphan => exact h
  | execute => rwa [channel_append w.registry]
  | complete hheld hrec =>
    rw [channel_set w.registry _ _ (hinv.bound hrec), if_neg]
    · exact h
    · rintro rfl
      have hopen := (hinv.held hrec).2 hheld
      rw [(hinv.empty hrec).1 hopen] at h
      cases h

theorem channel_of_leads (hreach : (commandMachine serde).Reachable w)
    (hrun : (commandMachine serde).Leads w w') (h : w.registry.channel receiver = some outcome) :
    w'.registry.channel receiver = some outcome :=
  hrun.rule h fun _ _ _ hlead hout hstep =>
    channel_of_change (inv_of_reachable (hreach.leads hlead)) (commandChange_of_step hstep) hout

/-- An admission that is to be executed has made its record. -/
theorem tracks_of_execute {opId : String}
    (hexecute : (admitCommand serde now method opId params w.registry).1 =
      .ok (.execute execution))
    (hstep : (commandMachine serde).step w (.admitCommand now method opId params) = some w')
    (hinv : w.Inv) :
    execution = ⟨⟨method, opId⟩⟩ ∧
      w'.Tracks ⟨method, opId⟩ (parameterFingerprint serde method params)
        w.registry.channels.length := by
  simp only [commandMachine, some.injEq] at hstep
  obtain ⟨-, heq⟩ | ⟨-, record, -, ⟨-, heq⟩ | ⟨-, heq⟩⟩ | ⟨-, hnone, state, hst, heq | heq⟩ :=
    admit_cases serde now method opId params w.registry <;>
    rw [heq] at hexecute <;> try cases hexecute
  refine ⟨rfl, ?_⟩
  rw [heq] at hstep
  subst hstep
  constructor
  · simp
  · intro key' record hr hout
    simp only [lookup_insert_eq] at hr
    split at hr
    · next hk =>
      rw [← some.inj hr]
      exact ⟨hk, rfl⟩
    · -- the channels of the recs kept are older than this one
      have hbnd := hinv.bound ((shrinks_cleaned _ now).sub (hst.sub hr))
      omega
  · intro _
    exact ⟨_, AList.lookup_insert _, rfl⟩

/-- **A durable command is executed at most once while it is retained.**
Take any admission that is to be executed, and any state a run leads to
after it. While the execution is not complete its record is there and
the execution is held by a caller; once it is complete its outcome is
the same ever after. And while the record is there and not expired, an
admission of the key replays that outcome if the parameters are the same
up to key order, and is a conflict if they are not and SHA-256 does not
collide on them; the registry then only loses its expired outcomes. -/
theorem command_executes_at_most_once {w w₁ w₂ : CommandWorld} {now : ℕ}
    {method operationId : String} {params : Option Json} {execution : CommandExecution}
    (hfloat : PrintsDoubles serde.floatText) (hreach : (commandMachine serde).Reachable w)
    (hexecute : (admitCommand serde now method operationId params w.registry).1 =
      .ok (.execute execution))
    (hstep : (commandMachine serde).step w (.admitCommand now method operationId params) = some w₁)
    (hrun : (commandMachine serde).Leads w₁ w₂) :
    (w₂.registry.channel w.registry.channels.length = none → execution ∈ w₂.executions ∧
      ∃ record, w₂.registry.state.records.lookup ⟨method, operationId⟩ = some record ∧
        record.outcome = w.registry.channels.length) ∧
    (∀ w₃ outcome, (commandMachine serde).Leads w₂ w₃ →
      w₂.registry.channel w.registry.channels.length = some outcome →
      w₃.registry.channel w.registry.channels.length = some outcome) ∧
    ∀ record, w₂.registry.state.records.lookup ⟨method, operationId⟩ = some record →
      record.outcome = w.registry.channels.length →
      ∀ now' params', record.expired now' = false → (SameParameters params params' →
          admitCommand serde now' method operationId params' w₂.registry =
            (.ok (.replay (w₂.registry.channel w.registry.channels.length).isSome
              w.registry.channels.length), w₂.registry.cleaned now')) ∧
        (¬ SameParameters params params' → CollisionFree serde (parameterIdentity method params)
            (parameterIdentity method params') →
          admitCommand serde now' method operationId params' w₂.registry =
            (.error operationIdConflict, w₂.registry.cleaned now')) := by
  obtain ⟨rfl, htracks₁⟩ := tracks_of_execute hexecute hstep (inv_of_reachable hreach)
  have hreach₁ := hreach.step hstep
  have hreach₂ := hreach₁.leads hrun
  have hinv := inv_of_reachable hreach₂
  have htracks : w₂.Tracks ⟨method, operationId⟩ (parameterFingerprint serde method params)
      w.registry.channels.length :=
    hrun.rule htracks₁ fun u _ _ hlead htracks hu =>
      htracks.of_change (inv_of_reachable (hreach₁.leads hlead)) (commandChange_of_step hu)
  refine ⟨?_, fun w₃ outcome hrun₃ => channel_of_leads hreach₂ hrun₃, ?_⟩
  · intro hempty
    obtain ⟨record, hr, hout⟩ := htracks.kept hempty
    refine ⟨?_, record, hr, hout⟩
    rw [← hinv.held hr, hinv.empty hr, hout]
    exact hempty
  · intro record hr hout now' params' hexp
    have hfp := (htracks.only hr hout).2
    have hr' : (w₂.registry.cleaned now').state.records.lookup ⟨method, operationId⟩ =
        some record := lookup_cleanupExpired_eq_some.2 ⟨hr, hexp⟩
    have hvalid : validOperationId operationId = true := by
      cases hv : validOperationId operationId with
      | true => rfl
      | false => simp [admitCommand, hv] at hexecute
    obtain ⟨hv, -⟩ | ⟨-, record', hr'', hcases⟩ | ⟨-, hnone, -⟩ :=
      admit_cases serde now' method operationId params' w₂.registry
    · rw [hvalid] at hv
      cases hv
    · obtain rfl : record' = record := by
        rw [hr'] at hr''
        exact (Option.some.inj hr'').symm
      rw [hfp] at hcases
      constructor
      · intro hsame
        obtain ⟨hne, -⟩ | ⟨-, heq⟩ := hcases
        · exact absurd (parameterFingerprint_eq_of_same hsame) hne
        · rw [heq, hout]
      · intro hdiff hfree
        obtain ⟨-, heq⟩ | ⟨hfp', -⟩ := hcases
        · exact heq
        · exact absurd hfp' (parameterFingerprint_ne hfloat hfree hdiff)
    · rw [hr'] at hnone
      cases hnone

end

section

/-- `{"b":2,"a":1}`. -/
def paramsBA : Json := ⟨.object [("b", .number (.posInt 2)), ("a", .number (.posInt 1))],
  by simp [Value.WellFormed, Value.WellFormedEntries]⟩

/-- `{"a":1,"b":2}`, the same object. -/
def paramsAB : Json := ⟨.object [("a", .number (.posInt 1)), ("b", .number (.posInt 2))],
  by simp [Value.WellFormed, Value.WellFormedEntries]⟩

/-- `{"a":2}`, another one. -/
def paramsA : Json := ⟨.object [("a", .number (.posInt 2))],
  by simp [Value.WellFormed, Value.WellFormedEntries]⟩

/-- The digests SHA-256 has for the texts of the requests with these
parameters, in which no double is printed. -/
def exampleSerde : Serde where
  floatText double := double.val.toNat.repr.toList ++ ['.', '0']
  sha256 bytes :=
    if bytes = List.flatMap String.utf8EncodeChar
        "\x7b\"method\":\"remux/example/write\",\"params\":\x7b\"a\":1,\"b\":2\x7d\x7d".toList then
      [202, 236, 176, 185, 119, 149, 31, 136, 34, 167, 15,
        113, 12, 243, 96, 148, 192, 51, 187, 79, 96, 145,
        61, 26, 222, 125, 161, 98, 65, 186, 104, 220]
    else if bytes = List.flatMap String.utf8EncodeChar
        "\x7b\"method\":\"remux/example/write\",\"params\":\x7b\"a\":2\x7d\x7d".toList then
      [36, 82, 212, 131, 87, 1, 39, 142, 52, 254, 244,
        232, 250, 95, 57, 42, 14, 44, 221, 126, 125, 204,
        176, 173, 99, 7, 144, 240, 175, 200, 154, 177]
    else []

theorem printsDoubles_exampleSerde : PrintsDoubles exampleSerde.floatText :=
  printsDoubles_bitsText

/-- A second request of the same parameters in another order replays the
first, and one of other parameters is a conflict. -/
theorem command_executes_at_most_once_example :
    ∃ w, (commandMachine exampleSerde).step (commandMachine exampleSerde).init
        (.admitCommand 0 "remux/example/write" "op-1" (some paramsBA)) = some w ∧
      (admitCommand exampleSerde 1 "remux/example/write" "op-1" (some paramsAB) w.registry).1 =
        .ok (.replay false 0) ∧
      (admitCommand exampleSerde 1 "remux/example/write" "op-1" (some paramsA) w.registry).1 =
        .error operationIdConflict := by
  obtain ⟨-, -, h⟩ := @command_executes_at_most_once exampleSerde _ _ _ 0 "remux/example/write"
    "op-1" (some paramsBA) _ printsDoubles_exampleSerde .init rfl rfl .refl
  have h := h _ rfl rfl 1
  refine ⟨_, rfl, ?_, ?_⟩
  · rw [(h (some paramsAB) rfl).1]
    · rfl
    · exact .object (List.Perm.swap ..) (.cons (.refl _) (.cons (.refl _) .nil))
  · rw [(h (some paramsA) rfl).2]
    · intro hsame
      exact absurd (@parameterFingerprint_eq_of_same exampleSerde "remux/example/write"
        _ _ hsame) (by decide)
    · intro hcollide
      exact absurd hcollide (by decide)

/-- A conflicting request still drops the expired outcome of another
operation. -/
theorem conflict_drops_expired : ∃ w registry, (commandMachine exampleSerde).exec
        [.admitCommand 0 "remux/example/write" "op-1" (some paramsA),
          .complete 0 ⟨⟨"remux/example/write", "op-1"⟩⟩ (.result .null),
          .admitCommand 1 "remux/example/write" "op-2" (some paramsAB)]
        (commandMachine exampleSerde).init = some w ∧
      admitCommand exampleSerde outcomeTtl "remux/example/write" "op-2" (some paramsA) w.registry =
        (.error operationIdConflict, registry) ∧
      w.registry.state.records.size = 2 ∧ registry.state.records.size = 1 :=
  ⟨_, _, rfl, rfl, rfl, rfl⟩

end

end Remux
