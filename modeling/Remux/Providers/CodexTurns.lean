import Remux.Common.Lists
import Remux.Providers.Model.CodexTurns

/-!
# The native turns of a Codex session belong to its starts

The mapper gives the next `turn/started` to the turn that is pending, and
the session gives it to its active turn, whichever native turn it is of.
`Attributed` leaves out the native turns that were not begun for that turn,
a completion that precedes everything that names the native turn, and a
turn that is started again though an earlier start was not rejected. What
then holds of a session (`Tracked`): its bindings are between the starts
and the native turns that were begun for them, and a turn is active as long
as its start has not failed and its native turn has not ended.
-/

namespace Remux

open List Option

namespace Providers

namespace CodexProviderSession

variable {digest : String → String} {conversationId nativeSessionId : String}
  {s s' : CodexProviderSession}

/-- The provider began the native turn for a start of the turn. -/
def BegunFor (s : CodexProviderSession) (nativeTurnId turnId : String) : Prop :=
  ∃ start ∈ s.starts, start.nativeTurnId = some nativeTurnId ∧ start.turnId = turnId

instance (s : CodexProviderSession) (nativeTurnId turnId : String) :
    Decidable (s.BegunFor nativeTurnId turnId) := by
  unfold BegunFor
  infer_instance

/-- No step gives a native turn to a turn that it was not begun for. -/
def Attributed (s : CodexProviderSession) : CodexAction → Prop
  | .startTurn turnId => ∀ start ∈ s.starts, start.turnId = turnId → start.status = .rejected
  | .turnStarted nativeTurnId =>
    (nativeTurnId ∉ s.mapper.compactionNativeTurns →
      ∀ turnId ∈ s.mapper.pendingRemuxTurnId, s.BegunFor nativeTurnId turnId) ∧
    ∀ active ∈ s.activeTurn, s.BegunFor nativeTurnId active.remuxTurnId
  | .turnCompleted nativeTurnId _ =>
    ∀ active ∈ s.activeTurn, s.BegunFor nativeTurnId active.remuxTurnId → active.nativeTurnId ≠ none
  | _ => True

instance (s : CodexProviderSession) (action : CodexAction) : Decidable (s.Attributed action) := by
  unfold Attributed
  split <;> infer_instance

end CodexProviderSession

/-! ## What the mapper emits -/

namespace CodexEventMapper

variable {digest : String → String} {conversationId nativeSessionId : String}
  {m : CodexEventMapper} {nativeTurnId : String}

/-- An event of a turn is of a bound one, by a map of the bindings. -/
def ScopedBy (bound : String → Option String) : MappedEvent → Prop
  | .turn nativeTurnId turnId => bound nativeTurnId = some turnId
  | .usage _ turnId => ∃ nativeTurnId, bound nativeTurnId = some turnId
  | .compaction .. => True

theorem scopedBy_envelope (h : (m.remuxTurnByNative.lookup nativeTurnId).isSome) :
    ScopedBy m.remuxTurnByNative.lookup (m.envelope digest nativeTurnId) := by
  obtain ⟨turnId, hturn⟩ := isSome_iff_exists.1 h
  show m.remuxTurnByNative.lookup nativeTurnId = some _
  rw [hturn]
  rfl

/-- **A start of a native turn** binds it or leaves the bindings. -/
theorem turnStarted_bound (digest : String → String) (m : CodexEventMapper)
    (nativeTurnId n : String) :
    (m.turnStarted digest nativeTurnId).1.remuxTurnByNative.lookup n =
      m.remuxTurnByNative.lookup n ∨ n = nativeTurnId ∧
        nativeTurnId ∉ m.compactionNativeTurns ∧ ∃ turnId,
          (m.turnStarted digest nativeTurnId).1.remuxTurnByNative.lookup n = some turnId ∧
            (m.pendingRemuxTurnId = some turnId ∨
              m.remuxTurnByNative.lookup nativeTurnId = some turnId) := by
  unfold turnStarted
  split
  · exact .inl rfl
  · split
    · exact .inl rfl
    · next hctl =>
      split
      · exact .inl rfl
      · next turnId hturn =>
        by_cases hn : n = nativeTurnId
        · refine .inr ⟨hn, hctl, turnId, ?_, ?_⟩
          · subst hn
            exact AList.lookup_insert _
          · rcases or_eq_some_iff.1 hturn with hpend | ⟨-, hbnd⟩
            · exact .inl hpend
            · exact .inr hbnd
        · exact .inl (AList.lookup_insert_ne hn)

/-- The events of a turn's start are of the turn it is bound to, -/
theorem turnStarted_scoped : ∀ event ∈ (m.turnStarted digest nativeTurnId).2,
    ScopedBy (m.turnStarted digest nativeTurnId).1.remuxTurnByNative.lookup event := by
  unfold turnStarted
  split
  · nofun
  · split
    · nofun
    · split
      · nofun
      · next turnId hturn =>
        have hbnd : ((m.bindTurn turnId nativeTurnId).remuxTurnByNative.lookup
            nativeTurnId).isSome := by
          show ((m.remuxTurnByNative.insert nativeTurnId turnId).lookup nativeTurnId).isSome
          rw [AList.lookup_insert]
          rfl
        intro event hev
        have heq : event = (m.bindTurn turnId nativeTurnId).envelope digest nativeTurnId := by
          simpa using hev
        rw [heq]
        exact scopedBy_envelope hbnd

variable {outcome : ProviderTurnOutcome} {itemId : String} {hint : Option ℕ}
variable {claim completed snapshot : Bool}

theorem turnCompleted_bound :
    (m.turnCompleted digest nativeSessionId nativeTurnId outcome).1.remuxTurnByNative =
      m.remuxTurnByNative := by
  unfold turnCompleted
  repeat' split
  all_goals rfl

/-- so are those of its end, -/
theorem turnCompleted_scoped :
    ∀ event ∈ (m.turnCompleted digest nativeSessionId nativeTurnId outcome).2,
      ScopedBy m.remuxTurnByNative.lookup event := by
  unfold turnCompleted
  split
  · split
    · nofun
    · split
      · nofun
      · intro event hev
        obtain rfl := mem_singleton.1 hev
        trivial
  · split
    · next hbnd =>
      intro event hev
      have heq : event = m.envelope digest nativeTurnId := by simpa using hev
      rw [heq]
      exact scopedBy_envelope hbnd
    · nofun

/-- The events of an item are of the turn it is bound to. -/
theorem itemEvents_scoped {count : ℕ} : ∀ event ∈ m.itemEvents digest nativeTurnId count,
    ScopedBy m.remuxTurnByNative.lookup event := by
  unfold itemEvents
  split
  · nofun
  · next hbnd =>
    intro event hev
    rw [eq_of_mem_replicate hev]
    refine scopedBy_envelope ?_
    rw [not_or, Bool.not_eq_true, isNone_eq_false_iff] at hbnd
    exact hbnd.2

/-- that of its usage, -/
theorem tokenUsageUpdated_scoped {reported : Option String} :
    ∀ event ∈ m.tokenUsageUpdated reported, ScopedBy m.remuxTurnByNative.lookup event := by
  unfold tokenUsageUpdated
  dsimp only
  split
  · nofun
  · split
    · nofun
    · next turnId hturn =>
      intro event hev
      obtain rfl := mem_singleton.1 hev
      exact ⟨_, hturn⟩

theorem compactionOrdinal_bound :
    (m.compactionOrdinal nativeTurnId itemId hint).2.remuxTurnByNative = m.remuxTurnByNative := by
  unfold compactionOrdinal
  split <;> rfl

theorem compactionOperation_bound {ordinal : ℕ} :
    (m.compactionOperation digest conversationId nativeTurnId ordinal claim).2.remuxTurnByNative =
      m.remuxTurnByNative := by
  unfold compactionOperation
  split <;> rfl

/-- A compaction binds no turn. -/
theorem compactionItem_bound :
    (m.compactionItem digest conversationId nativeTurnId itemId completed snapshot claim
      hint).1.remuxTurnByNative = m.remuxTurnByNative := by
  unfold compactionItem
  split
  · rfl
  · split
    all_goals exact compactionOperation_bound.trans compactionOrdinal_bound

/-- and those of its compactions. -/
theorem compactionItem_scoped :
    ∀ event ∈ (m.compactionItem digest conversationId nativeTurnId itemId completed snapshot claim
      hint).2, ScopedBy m.remuxTurnByNative.lookup event := by
  unfold compactionItem
  split
  · nofun
  · intro event hev
    rcases mem_cons.1 hev with rfl | hmarker
    · trivial
    · split at hmarker
      · next hbnd =>
        rw [mem_singleton.1 hmarker]
        exact scopedBy_envelope hbnd.2
      · cases hmarker

theorem threadCompacted_bound {id : Option String} :
    (m.threadCompacted digest conversationId nativeTurnId id).1.remuxTurnByNative =
      m.remuxTurnByNative := by
  unfold threadCompacted
  split
  · rfl
  · refine (compactionOperation_bound.trans compactionOrdinal_bound).trans ?_
    split <;> rfl

/-- The event of a compacted thread names no turn. -/
theorem threadCompacted_scoped {id : Option String} (bound : String → Option String) :
    ∀ event ∈ (m.threadCompacted digest conversationId nativeTurnId id).2,
      ScopedBy bound event := by
  unfold threadCompacted
  split
  · nofun
  · intro event hev
    rw [mem_singleton.1 hev]
    trivial

end CodexEventMapper

open CodexEventMapper (ScopedBy)

/-! ## The session -/

namespace TurnStart

/-- Two starts that were not both needed: of one turn one was rejected, and
they have no native turn in common. -/
def Apart (start other : TurnStart) : Prop :=
  (start.turnId = other.turnId → start.status = .rejected ∨ other.status = .rejected) ∧
    ∀ nativeTurnId, start.nativeTurnId = some nativeTurnId → other.nativeTurnId ≠ some nativeTurnId

/-- The start has not failed, and its native turn has not ended. -/
def Live (ended : List String) (start : TurnStart) : Prop :=
  (start.status = .waiting ∨ start.status = .accepted) ∧
    ∀ nativeTurnId, start.nativeTurnId = some nativeTurnId → nativeTurnId ∉ ended

variable {start : TurnStart}

theorem Apart.symm {other : TurnStart} (h : start.Apart other) : other.Apart start :=
  ⟨fun heq => (h.1 heq.symm).symm, fun n hne hbeg => h.2 n hbeg hne⟩

instance : Std.Symm Apart := ⟨fun _ _ => Apart.symm⟩

theorem not_apart_self (h : start.status ≠ .rejected) : ¬ start.Apart start :=
  fun hself => (hself.1 rfl).elim h h

theorem Live.not_rejected {ended : List String} (h : start.Live ended) :
    start.status ≠ .rejected := by
  rcases h.1 with hstat | hstat <;> rw [hstat] <;> nofun

end TurnStart

namespace CodexProviderSession

variable {digest : String → String} {conversationId nativeSessionId : String}
  {s s' : CodexProviderSession}

/-- An event of a turn is of one that was bound, and so is the one that the
usage is anchored to. -/
def Scoped (bindings : List (String × String)) : MappedEvent → Prop
  | .turn nativeTurnId turnId => (nativeTurnId, turnId) ∈ bindings
  | .usage _ turnId => ∃ nativeTurnId, (nativeTurnId, turnId) ∈ bindings
  | .compaction .. => True

/-- **What a session keeps** about its starts and the native turns that
were begun for them. -/
structure Ordered (s : CodexProviderSession) : Prop where
  apart : s.starts.Pairwise TurnStart.Apart
  created : ∀ start ∈ s.starts, ∀ n, start.nativeTurnId = some n → n ∉ s.created
  rejected : ∀ start ∈ s.starts, start.status = .rejected → start.nativeTurnId = none
  ended : ∀ n ∈ s.ended, n ∈ s.natives
  completed : ∀ start ∈ s.starts, start.status = .waiting →
    ∀ n, start.nativeTurnId = some n → n ∈ s.ended → n ∈ s.completedNativeTurns
  recorded : ∀ n ∈ s.completedNativeTurns, n ∈ s.ended
  waiting : ∀ start ∈ s.starts, start.status = .waiting →
    ∀ other ∈ s.starts, other.Live s.ended → other = start
  controls : ∀ n ∈ s.controls, n ∈ s.created

/-- **What a session keeps** about its bindings and the active turn. -/
structure Tracked (s : CodexProviderSession) : Prop where
  ordered : s.Ordered
  bindings : ∀ binding ∈ s.bindings, s.BegunFor binding.1 binding.2
  mapper : ∀ {n turnId}, s.mapper.remuxTurnByNative.lookup n = some turnId →
    (n, turnId) ∈ s.bindings
  active : ∀ {active}, s.activeTurn = some active → ∃ start ∈ s.starts,
    start.turnId = active.remuxTurnId ∧ start.Live s.ended ∧
      ∀ n, active.nativeTurnId = some n → start.nativeTurnId = some n
  live : ∀ start ∈ s.starts, start.Live s.ended →
    ∃ active, s.activeTurn = some active ∧ active.remuxTurnId = start.turnId
  emitted : ∀ event ∈ s.emitted, Scoped s.bindings event

variable {n turnId : String} {start other new : TurnStart} {i : ℕ}

theorem mem_natives :
    n ∈ s.natives ↔ n ∈ s.created ∨ ∃ start ∈ s.starts, start.nativeTurnId = some n := by
  rw [natives, mem_append, mem_filterMap]

/-- Of one turn there is one start that was not rejected. -/
theorem Ordered.eq_of_turnId (h : s.Ordered) (hbeg : start ∈ s.starts) (hother : other ∈ s.starts)
    (heq : start.turnId = other.turnId) (hkept : start.status ≠ .rejected)
    (hkept' : other.status ≠ .rejected) : start = other := by
  by_contra hne
  exact ((h.apart.forall hbeg hother hne).1 heq).elim hkept hkept'

/-- A native turn was begun for one start. -/
theorem Ordered.eq_of_native (h : s.Ordered) (hbeg : start ∈ s.starts) (hother : other ∈ s.starts)
    (hn : start.nativeTurnId = some n) (hn' : other.nativeTurnId = some n) : start = other := by
  by_contra hne
  exact (h.apart.forall hbeg hother hne).2 n hn hn'

theorem Ordered.not_rejected (h : s.Ordered) (hbeg : start ∈ s.starts)
    (hn : start.nativeTurnId = some n) :
    start.status ≠ .rejected := fun hstat => by
  rw [h.rejected start hbeg hstat] at hn
  cases hn

/-- The starts after one that was not rejected changed. -/
theorem Ordered.mem_set (h : s.Ordered) (hi : s.starts[i]? = some start)
    (hkept : start.status ≠ .rejected) :
    other ∈ s.starts.set i new ↔ other = new ∨ other ∈ s.starts ∧ other ≠ start :=
  mem_set_iff h.apart hi (TurnStart.not_apart_self hkept)

/-- **A start goes on**: it keeps its turn and its native turn, gets at
most a new one, and is not alive again. -/
theorem Ordered.set (h : s.Ordered) (hi : s.starts[i]? = some start)
    (hkept : start.status ≠ .rejected) (hsts : s'.starts = s.starts.set i new)
    (hturn : new.turnId = start.turnId)
    (hnative : ∀ n, start.nativeTurnId = some n → new.nativeTurnId = some n)
    (hfresh : ∀ n, new.nativeTurnId = some n → start.nativeTurnId = some n ∨ n ∉ s.natives)
    (hrej : new.status = .rejected → new.nativeTurnId = none)
    (hwait : new.status = .waiting → start.status = .waiting)
    (hlive : new.Live s.ended → start.Live s.ended) (hmade : s'.created = s.created)
    (hended : s'.ended = s.ended) (hcompl : s'.completedNativeTurns = s.completedNativeTurns)
    (hcontrols : s'.controls = s.controls) : s'.Ordered := by
  have hmem := mem_of_getElem? hi
  -- What a start of the new ones was before.
  have hwas : ∀ {other : TurnStart}, other ∈ s'.starts →
      other = new ∨ other ∈ s.starts ∧ other ≠ start := fun hother =>
    (h.mem_set hi hkept).1 (hsts ▸ hother)
  have hapart : ∀ z ∈ s.starts, z.Apart start → z.Apart new := fun z hz hz' => by
    refine ⟨fun heq => .inl ((hz'.1 (heq.trans hturn)).resolve_right hkept), fun n hn hn' => ?_⟩
    rcases hfresh n hn' with hold | hnew
    · exact hz'.2 n hn hold
    · exact hnew (mem_natives.2 (.inr ⟨z, hz, hn⟩))
  refine ⟨?_, fun other hother n hn => ?_, fun other hother => ?_, fun n hn => ?_,
    fun other hother hother' n hn hn' => ?_, ?_, fun one hone hone' other hother hother' => ?_, ?_⟩
  · rw [hsts]
    exact pairwise_set h.apart hi hapart fun z hz hz' => (hapart z hz hz'.symm).symm
  · rw [hmade]
    rcases hwas hother with rfl | ⟨hold, -⟩
    · rcases hfresh n hn with hold | hnew
      · exact h.created start hmem n hold
      · exact fun hmade' => hnew (mem_natives.2 (.inl hmade'))
    · exact h.created other hold n hn
  · rcases hwas hother with rfl | ⟨hold, -⟩
    · exact hrej
    · exact h.rejected other hold
  · rw [hended] at hn
    rw [mem_natives, hmade, hsts]
    refine (mem_natives.1 (h.ended n hn)).imp_right ?_
    rintro ⟨other, hother, hother'⟩
    by_cases heq : other = start
    · subst heq
      exact ⟨new, (h.mem_set hi hkept).2 (.inl rfl), hnative n hother'⟩
    · exact ⟨other, (h.mem_set hi hkept).2 (.inr ⟨hother, heq⟩), hother'⟩
  · rw [hended] at hn'
    rw [hcompl]
    rcases hwas hother with rfl | ⟨hold, -⟩
    · rcases hfresh n hn with hold | hnew
      · exact h.completed start hmem (hwait hother') n hold hn'
      · exact absurd (h.ended n hn') hnew
    · exact h.completed other hold hother' n hn hn'
  · rw [hcompl, hended]
    exact h.recorded
  · rw [hended] at hother'
    rcases hwas hone with rfl | ⟨hold, hne⟩
    · rcases hwas hother with rfl | ⟨hold', hne'⟩
      · rfl
      · exact absurd (h.waiting start hmem (hwait hone') other hold' hother') hne'
    · rcases hwas hother with rfl | ⟨hold', -⟩
      · exact absurd (h.waiting one hold hone' start hmem (hlive hother')).symm hne
      · exact h.waiting one hold hone' other hold' hother'
  · rw [hcontrols, hmade]
    exact h.controls

/-- What is emitted is of what is bound. -/
theorem scoped_of_scopedBy {bound : String → Option String} {bindings : List (String × String)}
    (hbnd : ∀ {n turnId}, bound n = some turnId → (n, turnId) ∈ bindings) {event : MappedEvent}
    (h : ScopedBy bound event) : Scoped bindings event := by
  cases event with
  | turn n turnId => exact hbnd h
  | usage n turnId =>
    obtain ⟨n', hn'⟩ := h
    exact ⟨n', hbnd hn'⟩
  | compaction => trivial

/-- **A notification that binds nothing** and leaves the turns alone only
adds to what is emitted. -/
theorem Tracked.emit (h : s.Tracked) {mapped : CodexEventMapper × List MappedEvent}
    (hbnd : mapped.1.remuxTurnByNative = s.mapper.remuxTurnByNative)
    (hscoped : ∀ event ∈ mapped.2, ScopedBy s.mapper.remuxTurnByNative.lookup event) :
    (s.emit mapped).Tracked := by
  have hord : (s.emit mapped).Ordered := ⟨h.ordered.apart, h.ordered.created,
    h.ordered.rejected, h.ordered.ended, h.ordered.completed, h.ordered.recorded,
    h.ordered.waiting, h.ordered.controls⟩
  refine ⟨hord, h.bindings, fun {n turnId} hget => ?_, h.active, h.live, fun event hev => ?_⟩
  · have hget : mapped.1.remuxTurnByNative.lookup n = some turnId := hget
    rw [hbnd] at hget
    exact h.mapper hget
  · rcases mem_append.1 hev with hold | hnew
    · exact h.emitted event hold
    · exact scoped_of_scopedBy h.mapper (hscoped event hnew)

/-- Other starts may come; what is begun stays begun. -/
theorem BegunFor.mono (h : s.BegunFor n turnId)
    (hsts : ∀ start ∈ s.starts, start.nativeTurnId = some n →
      ∃ start' ∈ s'.starts, start'.nativeTurnId = some n ∧ start'.turnId = start.turnId) :
    s'.BegunFor n turnId := by
  obtain ⟨start, hbeg, hn, rfl⟩ := h
  exact hsts start hbeg hn

/-- **A start of a turn** that has none, or rejected ones only. -/
theorem Tracked.startTurn (h : s.Tracked) (hfree : s.Free)
    (hattr : s.Attributed (.startTurn turnId)) : (s.startTurn turnId).Tracked := by
  unfold CodexProviderSession.startTurn
  split
  · exact h
  · next hact =>
    rw [not_isSome_iff_eq_none] at hact
    have hnone : ∀ start ∈ s.starts, ¬ start.Live s.ended := fun start hbeg hlive => by
      obtain ⟨active, hact', -⟩ := h.live start hbeg hlive
      rw [hact] at hact'
      cases hact'
    have hmem : ∀ {start : TurnStart}, start ∈ s.starts ++ [⟨turnId, .waiting, none⟩] →
        start ∈ s.starts ∨ start = ⟨turnId, .waiting, none⟩ := fun hbeg =>
      mem_concat.1 hbeg
    have hnew : (⟨turnId, .waiting, none⟩ : TurnStart) ∈
        s.starts ++ [⟨turnId, .waiting, none⟩] := mem_concat_self
    have hlive : (⟨turnId, .waiting, none⟩ : TurnStart).Live s.ended := ⟨.inl rfl, nofun⟩
    have hord : Ordered { s with
        activeTurn := some ⟨turnId, none⟩
        mapper := s.mapper.expectTurn turnId
        starts := s.starts ++ [⟨turnId, .waiting, none⟩] } := by
      refine ⟨?_, fun start hbeg => ?_, fun start hbeg => ?_, fun n hn => ?_,
        fun start hbeg => ?_, h.ordered.recorded,
        fun start hbeg hwait other hne hlive' => ?_, h.ordered.controls⟩
      · refine pairwise_append.2 ⟨h.ordered.apart, pairwise_singleton _ _,
          fun start hbeg other hne => ?_⟩
        obtain rfl := mem_singleton.1 hne
        exact ⟨fun heq => .inl (hattr start hbeg heq), fun _ _ => nofun⟩
      · rcases hmem hbeg with hold | rfl
        · exact h.ordered.created start hold
        · exact fun _ => nofun
      · rcases hmem hbeg with hold | rfl
        · exact h.ordered.rejected start hold
        · exact fun _ => rfl
      · refine mem_natives.2 ((mem_natives.1 (h.ordered.ended n hn)).imp_right ?_)
        rintro ⟨start, hbeg, hbeg'⟩
        exact ⟨start, mem_append_left _ hbeg, hbeg'⟩
      · rcases hmem hbeg with hold | rfl
        · exact h.ordered.completed start hold
        · exact fun _ _ => nofun
      · rcases hmem hne with hold | rfl
        · exact absurd hlive' (hnone other hold)
        · rcases hmem hbeg with hold' | rfl
          · exact absurd hwait (hfree.2 start hold')
          · rfl
    refine ⟨hord, fun binding hbind => ?_, h.mapper, fun hsome => ?_,
      fun start hbeg hlive' => ?_, h.emitted⟩
    · exact (h.bindings binding hbind).mono fun start hbeg hn =>
        ⟨start, mem_append_left _ hbeg, hn, rfl⟩
    · cases hsome
      exact ⟨_, hnew, rfl, hlive, nofun⟩
    · rcases hmem hbeg with hold | rfl
      · exact absurd hlive' (hnone start hold)
      · exact ⟨_, rfl, rfl⟩

/-- What was begun for a turn stays so when a start goes on. -/
theorem BegunFor.set (h : s.BegunFor n turnId) (hord : s.Ordered)
    (hi : s.starts[i]? = some start) (hkept : start.status ≠ .rejected)
    (hsts : s'.starts = s.starts.set i new) (hturn : new.turnId = start.turnId)
    (hnative : ∀ n, start.nativeTurnId = some n → new.nativeTurnId = some n) :
    s'.BegunFor n turnId := by
  refine h.mono fun other hne hn => ?_
  rw [hsts]
  by_cases heq : other = start
  · subst heq
    exact ⟨new, (hord.mem_set hi hkept).2 (.inl rfl), hnative n hn, hturn⟩
  · exact ⟨other, (hord.mem_set hi hkept).2 (.inr ⟨hne, heq⟩), hn, rfl⟩

variable (h : s.Tracked)
include h

/-- **The provider begins a native turn** for a start that has none. -/
theorem Tracked.begin (hi : s.starts[i]? = some start)
    (hkept : start.status ≠ .rejected) (hnone : start.nativeTurnId = none)
    (hfresh : n ∉ s.natives) :

    (s.begin i start n).Tracked := by
  have hmem := mem_of_getElem? hi
  have hnative : ∀ k, start.nativeTurnId = some k → some n = some k := fun k hk => by
    rw [hnone] at hk
    cases hk
  -- Whether it is alive does not depend on a native turn that has not ended.
  have hlive : ({ start with nativeTurnId := some n } : TurnStart).Live s.ended ↔
      start.Live s.ended := by
    refine ⟨fun hlive => ⟨hlive.1, fun k hk => absurd (hnone.symm.trans hk) nofun⟩,
      fun hlive => ⟨hlive.1, fun k hk => ?_⟩⟩
    cases hk
    exact fun hended => hfresh (h.ordered.ended _ hended)
  have hord : (s.begin i start n).Ordered := by
    refine h.ordered.set hi hkept rfl rfl hnative (fun k hk => .inr ?_) (fun hstat => ?_) id
      hlive.1 rfl rfl rfl rfl
    · cases hk
      exact hfresh
    · exact absurd hstat hkept
  have hnew : ∀ {other : TurnStart}, other ∈ (s.begin i start n).starts ↔
      other = { start with nativeTurnId := some n } ∨ other ∈ s.starts ∧ other ≠ start :=
    h.ordered.mem_set hi hkept
  refine ⟨hord, fun binding hbind => ?_, h.mapper, fun {active} hact => ?_,
    fun other hne hlive' => ?_, h.emitted⟩
  · exact (h.bindings binding hbind).set h.ordered hi hkept rfl rfl hnative
  · obtain ⟨other, hne, hturn, hlive', hsome⟩ := h.active hact
    by_cases heq : other = start
    · subst heq
      refine ⟨_, hnew.2 (.inl rfl), hturn, hlive.2 hlive', fun k hk => ?_⟩
      exact absurd (hnone.symm.trans (hsome k hk)) nofun
    · exact ⟨other, hnew.2 (.inr ⟨hne, heq⟩), hturn, hlive', hsome⟩
  · rcases hnew.1 hne with rfl | ⟨hold, -⟩
    · exact h.live start hmem (hlive.1 hlive')
    · exact h.live other hold hlive'

/-- **The provider begins a native turn of its own.** -/
theorem Tracked.create {control : Bool} (hnew : n ∉ s.natives) : ({ s with
      created := n :: s.created
      controls := if control then n :: s.controls else s.controls } :
        CodexProviderSession).Tracked := by
  refine { h with
      ordered := ⟨h.ordered.apart, fun start hbeg k hk => ?_, h.ordered.rejected, fun k hk => ?_,
    h.ordered.completed, h.ordered.recorded, h.ordered.waiting, fun k hk => ?_⟩ }
  · rintro (_ | ⟨_, hold⟩)
    · exact hnew (mem_natives.2 (.inr ⟨start, hbeg, hk⟩))
    · exact h.ordered.created start hbeg k hk hold
  · exact mem_natives.2 ((mem_natives.1 (h.ordered.ended k hk)).imp_left (mem_cons_of_mem _))
  · have hk : k ∈ if control then n :: s.controls else s.controls := hk
    split at hk
    · rcases mem_cons.1 hk with rfl | hold
      · exact mem_cons_self
      · exact mem_cons_of_mem _ (h.ordered.controls k hold)
    · exact mem_cons_of_mem _ (h.ordered.controls k hk)

/-- **The response that names the native turn.** The turn is active unless
its native turn has ended, and then it is not active any more. -/
theorem Tracked.startAccepted (hi : s.starts[i]? = some start)
    (hwait : start.status = .waiting) (hn : start.nativeTurnId = some n) :
    (s.startAccepted i start n).Tracked := by
  have hmem := mem_of_getElem? hi
  have hkept : start.status ≠ .rejected := by rw [hwait]; nofun
  have hlive : ({ start with status := .accepted } : TurnStart).Live s.ended ↔ start.Live s.ended :=
    ⟨fun hlive => ⟨.inl hwait, hlive.2⟩, fun hlive => ⟨.inr rfl, hlive.2⟩⟩
  have hord : (s.startAccepted i start n).Ordered :=
    h.ordered.set hi hkept rfl rfl (fun _ => id) (fun _ => .inl) nofun nofun hlive.1 rfl rfl rfl rfl
  have hnew : ∀ {other : TurnStart}, other ∈ (s.startAccepted i start n).starts ↔
      other = { start with status := .accepted } ∨ other ∈ s.starts ∧ other ≠ start :=
    h.ordered.mem_set hi hkept
  have hbegun : (s.startAccepted i start n).BegunFor n start.turnId :=
    ⟨_, hnew.2 (.inl rfl), hn, rfl⟩
  have hmono : ∀ event, Scoped s.bindings event →
      Scoped (s.startAccepted i start n).bindings event := by
    intro event
    cases event with
    | turn k turnId => exact mem_append_left _
    | usage k turnId =>
      rintro ⟨k', hk'⟩
      exact ⟨k', mem_append_left _ hk'⟩
    | compaction => exact id
  refine ⟨hord, fun binding hbind => ?_, fun {k turnId} hget => ?_,
    fun {active} hact => ?_, fun other hother hlive' => ?_,
    fun event hev => hmono event (h.emitted event hev)⟩
  · rcases mem_concat.1 hbind with hold | rfl
    · exact (h.bindings binding hold).set h.ordered hi hkept rfl rfl fun _ => id
    · exact hbegun
  · have hget : (s.mapper.remuxTurnByNative.insert n start.turnId).lookup k = some turnId :=
      hget
    rw [Assoc.lookup_insert_eq] at hget
    split at hget
    · next heq =>
      cases hget
      subst heq
      exact mem_concat_self
    · exact mem_append_left _ (h.mapper hget)
  · have hact : (if n ∈ s.completedNativeTurns then s.activeTurn
      else some ⟨start.turnId, some n⟩) = some active := hact
    split at hact
    · next hcompl =>
      obtain ⟨other, hother, hturn, hlive', hsome⟩ := h.active hact
      refine ⟨other, hnew.2 (.inr ⟨hother, ?_⟩), hturn, hlive', hsome⟩
      rintro rfl
      exact hlive'.2 n hn (h.ordered.recorded n hcompl)
    · next hcompl =>
      cases hact
      refine ⟨_, hnew.2 (.inl rfl), rfl, ⟨.inr rfl, fun k hk hended => hcompl ?_⟩,
        fun k hk => hn.trans hk⟩
      obtain rfl : n = k := Option.some.inj (hn.symm.trans hk)
      exact h.ordered.completed start hmem hwait n hn hended
  · show ∃ active, (if n ∈ s.completedNativeTurns then s.activeTurn
      else some ⟨start.turnId, some n⟩) = some active ∧ _
    rcases hnew.1 hother with rfl | ⟨hold, hne⟩
    · rw [if_neg fun hcompl => hlive'.2 n hn (h.ordered.recorded n hcompl)]
      exact ⟨_, rfl, rfl⟩
    · exact absurd (h.ordered.waiting start hmem hwait other hold hlive') hne

/-- **A start that failed**: no other one was alive. -/
theorem Tracked.startFailed {status : StartStatus} (hi : s.starts[i]? = some start)
    (hwait : start.status = .waiting)
    (hstat : status = .unknown ∨ status = .rejected ∧ start.nativeTurnId = none) :
    (s.startFailed i start status).Tracked := by
  have hmem := mem_of_getElem? hi
  have hkept : start.status ≠ .rejected := by rw [hwait]; nofun
  have hdead : ¬ ({ start with status } : TurnStart).Live s.ended := by
    rintro ⟨hlive | hlive, -⟩ <;> rcases hstat with hstat | ⟨hstat, -⟩ <;>
      exact absurd (hlive.symm.trans hstat) nofun
  have hord : (s.startFailed i start status).Ordered := by
    refine h.ordered.set hi hkept rfl rfl (fun _ => id) (fun _ => .inl) (fun hrej => ?_)
      (fun hwaits => ?_) (fun hlive => absurd hlive hdead) rfl rfl rfl rfl
    · exact (hstat.resolve_left fun hunk => absurd (hunk.symm.trans hrej) nofun).2
    · rcases hstat with hstat | ⟨hstat, -⟩ <;> exact absurd (hwaits.symm.trans hstat) nofun
  refine ⟨hord, fun binding hbind => ?_, h.mapper, nofun, fun other hother hlive => ?_, h.emitted⟩
  · exact (h.bindings binding hbind).set h.ordered hi hkept rfl rfl fun _ => id
  · rcases (h.ordered.mem_set hi hkept).1 hother with rfl | ⟨hold, hne⟩
    · exact absurd hlive hdead
    · exact absurd (h.ordered.waiting start hmem hwait other hold hlive) hne

/-- **A start of a native turn** that was begun for the turn it is given
to. -/
theorem Tracked.turnStarted (hattr : s.Attributed (.turnStarted n)) :
    (s.turnStarted digest n).Tracked := by
  obtain ⟨hpend, hact⟩ := hattr
  have hbegun : ∀ {turnId}, (s.mapper.turnStarted digest n).1.remuxTurnByNative.lookup n =
      some turnId → s.BegunFor n turnId := fun {turnId} hturn => by
    rcases CodexEventMapper.turnStarted_bound digest s.mapper n n with
      hsame | ⟨-, hctl, turnId', hturn', hof⟩
    · exact h.bindings _ (h.mapper (hsame.symm.trans hturn))
    · cases hturn.symm.trans hturn'
      rcases hof with hof | hof
      · exact hpend hctl turnId hof
      · exact h.bindings _ (h.mapper hof)
  have hold : ∀ binding ∈ s.bindings, binding ∈ (s.turnStarted digest n).bindings :=
    fun binding hbind => mem_append_left _ (mem_append_left _ hbind)
  have hmpr : ∀ {k turnId}, (s.mapper.turnStarted digest n).1.remuxTurnByNative.lookup k =
      some turnId → (k, turnId) ∈ (s.turnStarted digest n).bindings := fun {k turnId} hturn => by
    rcases CodexEventMapper.turnStarted_bound digest s.mapper n k with hsame | ⟨rfl, -, -⟩
    · exact hold _ (h.mapper (hsame.symm.trans hturn))
    · refine mem_append_right _ (mem_map.2 ⟨turnId, ?_, rfl⟩)
      rw [hturn]
      exact mem_cons_self
  refine ⟨⟨h.ordered.apart, h.ordered.created, h.ordered.rejected, h.ordered.ended,
    h.ordered.completed, h.ordered.recorded, h.ordered.waiting, h.ordered.controls⟩,
    fun binding hbind => ?_, hmpr, fun {active} hsome => ?_, fun start hbeg hlive => ?_,
    fun event hev => ?_⟩
  · rcases mem_append.1 hbind with hbind | hlast
    · rcases mem_append.1 hbind with hbind | hlast
      · exact h.bindings binding hbind
      · obtain ⟨active, hmem, rfl⟩ := mem_map.1 hlast
        exact hact active (mem_toList.1 hmem)
    · obtain ⟨turnId, hmem, rfl⟩ := mem_map.1 hlast
      exact hbegun (mem_toList.1 hmem)
  · obtain ⟨old, hsome', rfl⟩ := map_eq_some_iff.1 hsome
    obtain ⟨start, hbeg, hturn, hlive, -⟩ := h.active hsome'
    obtain ⟨other, hne, hn, hturn'⟩ := hact old hsome'
    obtain rfl := h.ordered.eq_of_turnId hbeg hne (hturn.trans hturn'.symm)
      hlive.not_rejected (h.ordered.not_rejected hne hn)
    exact ⟨start, hbeg, hturn, hlive, fun k hk => hn.trans hk⟩
  · obtain ⟨active, hsome, hturn⟩ := h.live start hbeg hlive
    refine ⟨{ active with nativeTurnId := some n }, ?_, hturn⟩
    show s.activeTurn.map _ = _
    rw [hsome]
    rfl
  · rcases mem_append.1 hev with hev | hnew
    · have hscoped := h.emitted event hev
      cases event with
      | turn => exact hold _ hscoped
      | usage =>
        obtain ⟨k, hk⟩ := hscoped
        exact ⟨k, hold _ hk⟩
      | compaction => trivial
    · exact scoped_of_scopedBy hmpr (CodexEventMapper.turnStarted_scoped event hnew)

/-- **The end of a native turn** ends the active turn that it was begun
for, and no other. -/
theorem Tracked.turnCompleted {outcome : ProviderTurnOutcome} (hn : n ∈ s.natives)
    (hattr : s.Attributed (.turnCompleted n outcome)) :
    (s.turnCompleted digest nativeSessionId n outcome).Tracked := by
  have hlive : ∀ {start : TurnStart}, start.Live (n :: s.ended) ↔
      start.Live s.ended ∧ start.nativeTurnId ≠ some n := fun {start} => by
    constructor
    · rintro ⟨hstat, hended⟩
      exact ⟨⟨hstat, fun k hk hmem => hended k hk (mem_cons_of_mem _ hmem)⟩,
        fun hk => hended n hk mem_cons_self⟩
    · rintro ⟨⟨hstat, hended⟩, hne⟩
      refine ⟨hstat, fun k hk hmem => ?_⟩
      rcases mem_cons.1 hmem with rfl | hmem
      · exact hne hk
      · exact hended k hk hmem
  have hord : (s.turnCompleted digest nativeSessionId n outcome).Ordered := by
    refine ⟨h.ordered.apart, h.ordered.created, h.ordered.rejected, fun k hk => ?_,
      fun start hbeg hwait k hk hended => ?_, fun k hk => ?_,
      fun start hbeg hwait other hother hne' => ?_, h.ordered.controls⟩
    · rcases mem_cons.1 hk with rfl | hk
      · exact hn
      · exact h.ordered.ended k hk
    · rcases mem_cons.1 hended with rfl | hended
      · exact mem_cons_self
      · exact mem_cons_of_mem _ (h.ordered.completed start hbeg hwait k hk hended)
    · rcases mem_cons.1 hk with rfl | hk
      · exact mem_cons_self
      · exact mem_cons_of_mem _ (h.ordered.recorded k hk)
    · exact h.ordered.waiting start hbeg hwait other hother (hlive.1 hne').1
  refine ⟨hord, h.bindings, fun {k turnId} hget => ?_, fun {active} hact => ?_,
    fun start hbeg hbeg' => ?_, fun event hev => ?_⟩
  · have hget : (s.mapper.turnCompleted digest nativeSessionId n
        outcome).1.remuxTurnByNative.lookup k = some turnId := hget
    rw [CodexEventMapper.turnCompleted_bound] at hget
    exact h.mapper hget
  · obtain ⟨hact, hne⟩ := filter_eq_some_iff.1 hact
    obtain ⟨start, hbeg, hturn, hbeg', hsome⟩ := h.active hact
    refine ⟨start, hbeg, hturn, hlive.2 ⟨hbeg', fun hown => ?_⟩, hsome⟩
    cases hnative : active.nativeTurnId with
    | none => exact hattr active hact ⟨start, hbeg, hown, hturn⟩ hnative
    | some k =>
      rw [decide_eq_true_iff, hnative] at hne
      exact hne ((hsome k hnative).symm.trans hown)
  · obtain ⟨hbeg', hown⟩ := hlive.1 hbeg'
    obtain ⟨active, hact, hturn⟩ := h.live start hbeg hbeg'
    refine ⟨active, filter_eq_some_iff.2 ⟨hact, decide_eq_true fun hnative => ?_⟩, hturn⟩
    obtain ⟨other, hother, hturn', hne', hsome⟩ := h.active hact
    obtain rfl := h.ordered.eq_of_turnId hbeg hother (hturn.symm.trans hturn'.symm)
      hbeg'.not_rejected hne'.not_rejected
    exact hown (hsome n hnative)
  · rcases mem_append.1 hev with hev | hnew
    · exact h.emitted event hev
    · exact scoped_of_scopedBy h.mapper (CodexEventMapper.turnCompleted_scoped event hnew)

/-- A command of a compaction leaves the turns alone. -/
theorem Tracked.congr (hbnd : s'.mapper.remuxTurnByNative =
      s.mapper.remuxTurnByNative) (hact : s'.activeTurn = s.activeTurn)
    (hcompl : s'.completedNativeTurns = s.completedNativeTurns)
    (hsts : s'.starts = s.starts) (hmade : s'.created = s.created)
    (hcontrols : s'.controls = s.controls) (hended : s'.ended = s.ended)
    (hbindings : s'.bindings = s.bindings) (hemitted : s'.emitted = s.emitted) : s'.Tracked := by
  obtain ⟨⟨h1, h2, h3, h4, h5, h6, h7, h8⟩, hb, hm, ha, hl, he⟩ := h
  refine ⟨⟨?_, ?_, ?_, ?_, ?_, ?_, ?_, ?_⟩, ?_, ?_, ?_, ?_, ?_⟩ <;>
    simp only [natives, BegunFor, hbnd, hact, hcompl, hsts, hmade, hcontrols, hended,
      hbindings, hemitted] <;>
    assumption

/-- **Every attributed step keeps the turns.** -/
theorem Tracked.codexStep {action : CodexAction} (hattr : s.Attributed action)
    (hstep : s.codexStep digest conversationId nativeSessionId action = some s') :
    s'.Tracked := by
  cases action with
  | startTurn turnId =>
    obtain ⟨hfree, hs'⟩ := ite_none_right_eq_some.1 hstep
    cases hs'
    exact h.startTurn hfree hattr
  | begin i n =>
    unfold CodexProviderSession.codexStep at hstep
    dsimp only at hstep
    split at hstep
    · next start hi =>
      obtain ⟨⟨hkept, hnone, hnew⟩, hs'⟩ := ite_none_right_eq_some.1 hstep
      cases hs'
      exact h.begin hi hkept hnone hnew
    · cases hstep
  | create n control =>
    obtain ⟨hnew, hs'⟩ := ite_none_right_eq_some.1 hstep
    cases hs'
    exact h.create hnew
  | accepted i =>
    unfold CodexProviderSession.codexStep at hstep
    dsimp only at hstep
    split at hstep
    · next start hi =>
      obtain ⟨hwait, hs'⟩ := ite_none_right_eq_some.1 hstep
      obtain ⟨n, hn, rfl⟩ := map_eq_some_iff.1 hs'
      exact h.startAccepted hi hwait hn
    · cases hstep
  | rejected i =>
    unfold CodexProviderSession.codexStep at hstep
    dsimp only at hstep
    split at hstep
    · next start hi =>
      obtain ⟨⟨hwait, hnone⟩, hs'⟩ := ite_none_right_eq_some.1 hstep
      cases hs'
      exact h.startFailed hi hwait (.inr ⟨rfl, hnone⟩)
    · cases hstep
  | unknown i =>
    unfold CodexProviderSession.codexStep at hstep
    dsimp only at hstep
    split at hstep
    · next start hi =>
      obtain ⟨hwait, hs'⟩ := ite_none_right_eq_some.1 hstep
      cases hs'
      exact h.startFailed hi hwait (.inl rfl)
    · cases hstep
  | compact commandId =>
    obtain ⟨-, hs'⟩ := ite_none_right_eq_some.1 hstep
    cases hs'
    split
    · exact h
    · exact h.congr rfl rfl rfl rfl rfl rfl rfl rfl rfl
  | compacted notSent =>
    obtain ⟨commandId, -, rfl⟩ := map_eq_some_iff.1 hstep
    refine h.congr ?_ rfl rfl rfl rfl rfl rfl rfl rfl
    show (if notSent then s.mapper.clearManualCompaction commandId
      else s.mapper).remuxTurnByNative = _
    unfold CodexEventMapper.clearManualCompaction
    split
    · split <;> rfl
    · rfl
  | turnStarted n =>
    obtain ⟨-, hs'⟩ := ite_none_right_eq_some.1 hstep
    cases hs'
    exact h.turnStarted hattr
  | turnCompleted n outcome =>
    obtain ⟨hn, hs'⟩ := ite_none_right_eq_some.1 hstep
    cases hs'
    exact h.turnCompleted hn hattr
  | item n count =>
    cases hstep
    exact h.emit rfl CodexEventMapper.itemEvents_scoped
  | compactionItem n itemId completed =>
    cases hstep
    exact h.emit CodexEventMapper.compactionItem_bound CodexEventMapper.compactionItem_scoped
  | threadCompacted n id =>
    cases hstep
    exact h.emit CodexEventMapper.threadCompacted_bound (CodexEventMapper.threadCompacted_scoped _)
  | tokenUsage reported =>
    cases hstep
    exact h.emit rfl CodexEventMapper.tokenUsageUpdated_scoped

omit h

/-- The mapper is opened with the bindings of the journal, and no others. -/
theorem lookup_foldl_bindTurn (bindings : List (String × String)) {m : CodexEventMapper}
    (h : (bindings.foldl (fun m binding => m.bindTurn binding.1 binding.2)
      m).remuxTurnByNative.lookup n = some turnId) :
    (turnId, n) ∈ bindings ∨ m.remuxTurnByNative.lookup n = some turnId := by
  induction bindings generalizing m with
  | nil => exact .inr h
  | cons binding bindings ih =>
    rcases ih h with hmem | hget
    · exact .inl (mem_cons_of_mem _ hmem)
    · have hget : (m.remuxTurnByNative.insert binding.2 binding.1).lookup n = some turnId :=
        hget
      rw [Assoc.lookup_insert_eq] at hget
      split at hget
      · next heq =>
        cases hget
        rw [heq]
        exact .inl mem_cons_self
      · exact .inr hget

/-- **A session as it is opened**: every turn of the journal but the active
one has ended. -/
theorem Tracked.opened (restored : RestoredTurns) : (opened restored).Tracked := by
  have hbeg : ∀ {start}, start ∈ (CodexProviderSession.opened restored).starts →
      ∃ binding ∈ restored.bindings, (⟨binding.1, .accepted, some binding.2⟩ : TurnStart) = start :=
    fun hbeg => mem_map.1 hbeg
  have hended : ∀ {n}, n ∈ (CodexProviderSession.opened restored).ended →
      ∃ binding ∈ restored.bindings, restored.active ≠ some binding ∧ binding.2 = n :=
    fun hn => by
    obtain ⟨binding, hmem, rfl⟩ := mem_map.1 hn
    obtain ⟨hmem, hne⟩ := mem_filter.1 hmem
    exact ⟨binding, hmem, of_decide_eq_true hne, rfl⟩
  refine ⟨⟨?_, fun _ _ _ _ => nofun, fun start hs hrej => ?_, fun n hn => ?_,
    fun start hs hwait => ?_, nofun, fun start hs hwait => ?_, nofun⟩,
    fun binding hbind => ?_, fun {n turnId} hget => ?_, fun {active} hact => ?_,
    fun start hs hlive => ?_, nofun⟩
  · have hturns := pairwise_map.1 restored.turns_nodup
    have hnatives := pairwise_map.1 restored.natives_nodup
    refine pairwise_map.2 ((hturns.and hnatives).imp ?_)
    rintro ⟨turnId, n⟩ ⟨turnId', n'⟩ ⟨hturn, hnative⟩
    refine ⟨fun heq => absurd heq hturn, fun k hk hk' => hnative ?_⟩
    exact Option.some.inj (hk.trans hk'.symm)
  · obtain ⟨binding, -, rfl⟩ := hbeg hs
    cases hrej
  · obtain ⟨binding, hmem, -, rfl⟩ := hended hn
    exact mem_natives.2 (.inr ⟨_, mem_map.2 ⟨binding, hmem, rfl⟩, rfl⟩)
  · obtain ⟨binding, -, rfl⟩ := hbeg hs
    cases hwait
  · obtain ⟨binding, -, rfl⟩ := hbeg hs
    cases hwait
  · obtain ⟨⟨turnId, n⟩, hmem, rfl⟩ := mem_map.1 hbind
    exact ⟨_, mem_map.2 ⟨_, hmem, rfl⟩, rfl, rfl⟩
  · rcases lookup_foldl_bindTurn restored.bindings hget with hmem | hnone
    · exact mem_map.2 ⟨_, hmem, rfl⟩
    · cases hnone
  · obtain ⟨binding, hbind, rfl⟩ := map_eq_some_iff.1 hact
    refine ⟨_, mem_map.2 ⟨binding, restored.active_mem hbind, rfl⟩, rfl,
      ⟨.inr rfl, fun n hn hmem => ?_⟩, fun n hn => hn⟩
    obtain ⟨other, hother, hne, heq⟩ := hended hmem
    cases hn
    obtain rfl := inj_on_of_nodup_map restored.natives_nodup hother (restored.active_mem hbind) heq
    exact hne hbind
  · obtain ⟨binding, hmem, rfl⟩ := hbeg hs
    by_cases hact : restored.active = some binding
    · refine ⟨⟨binding.1, some binding.2⟩, ?_, rfl⟩
      show restored.active.map _ = _
      rw [hact]
      rfl
    · refine absurd ?_ (hlive.2 binding.2 rfl)
      exact mem_map.2 ⟨binding, mem_filter.2 ⟨hmem, decide_eq_true hact⟩, rfl⟩

theorem tracked {restored : RestoredTurns}
    (h : ((codexMachine digest conversationId nativeSessionId restored).restrict
      Attributed).Reachable s) : s.Tracked := by
  refine h.rule (.opened restored) fun u action v _ htrack hstep => ?_
  obtain ⟨hattr, hstep⟩ := Machine.restrict_step_eq_some.1 hstep
  exact htrack.codexStep hattr hstep

end CodexProviderSession

open CodexProviderSession

/-- **The turns of a Codex session.** Where no native turn is given to a
turn that it was not begun for, the bindings are one to one; what is bound
was begun for a start of its turn that was not rejected; no control turn is
bound; every event of a turn is of a bound one; and a turn is active as
long as its start has not failed and its native turn has not ended. -/
theorem codex_turns_bound {digest : String → String} {conversationId nativeSessionId : String}
    {restored : RestoredTurns} {s : CodexProviderSession}
    (h : ((codexMachine digest conversationId nativeSessionId restored).restrict
      Attributed).Reachable s) :
    (∀ binding ∈ s.bindings, ∀ other ∈ s.bindings, binding.1 = other.1 ↔ binding.2 = other.2) ∧
    (∀ binding ∈ s.bindings, ∃ start ∈ s.starts, start.turnId = binding.2 ∧
      start.nativeTurnId = some binding.1 ∧ start.status ≠ .rejected) ∧
    (∀ binding ∈ s.bindings, binding.1 ∉ s.controls) ∧
    (∀ event ∈ s.emitted, Scoped s.bindings event) ∧
    (∀ active, s.activeTurn = some active → ∃ start ∈ s.starts,
      start.turnId = active.remuxTurnId ∧ start.Live s.ended) ∧
    ∀ start ∈ s.starts, start.Live s.ended →
      ∃ active, s.activeTurn = some active ∧ active.remuxTurnId = start.turnId := by
  have htracked := tracked h
  have hordered := htracked.ordered
  refine ⟨fun binding hbinding other hother => ?_, fun binding hbinding => ?_,
    fun binding hbinding hcontrol => ?_, htracked.emitted, fun active hactive => ?_, htracked.live⟩
  · obtain ⟨start, hstart, hn, hturn⟩ := htracked.bindings binding hbinding
    obtain ⟨start', hstart', hn', hturn'⟩ := htracked.bindings other hother
    constructor
    · intro heq
      obtain rfl := hordered.eq_of_native hstart hstart' hn (heq ▸ hn')
      exact hturn.symm.trans hturn'
    · intro heq
      obtain rfl := hordered.eq_of_turnId hstart hstart' (hturn.trans (heq.trans hturn'.symm))
        (hordered.not_rejected hstart hn) (hordered.not_rejected hstart' hn')
      exact Option.some.inj (hn.symm.trans hn')
  · obtain ⟨start, hstart, hn, hturn⟩ := htracked.bindings binding hbinding
    exact ⟨start, hstart, hturn, hn, hordered.not_rejected hstart hn⟩
  · obtain ⟨start, hstart, hn, -⟩ := htracked.bindings binding hbinding
    exact hordered.created start hstart _ hn (hordered.controls _ hcontrol)
  · obtain ⟨start, hstart, hturn, hlive, -⟩ := htracked.active hactive
    exact ⟨start, hstart, hturn, hlive⟩

/-- A session that is opened with no turns. -/
def noTurns : RestoredTurns where
  bindings := []
  active := none
  turns_nodup := nodup_nil
  natives_nodup := nodup_nil
  active_mem := nofun

/-- A turn is started, announced before the response names it, and done. -/
def turnRun : List CodexAction :=
  [.startTurn "turn", .begin 0 "native", .turnStarted "native", .accepted 0,
    .turnCompleted "native" .completed]

/-- A turn that was bound. -/
theorem codex_turns_bound_turn :
    ∃ s, ((codexMachine id "conversation" "session" noTurns).restrict Attributed).Reachable s ∧
      ("native", "turn") ∈ s.bindings ∧ s.activeTurn = none ∧
      (∀ binding ∈ s.bindings, binding.1 ∉ s.controls) := by
  have hrun : ((codexMachine id "conversation" "session" noTurns).restrict Attributed).exec
      turnRun (.opened noTurns) = some (((codexMachine id "conversation" "session"
        noTurns).restrict Attributed).run turnRun (.opened noTurns)) :=
    Machine.exec_eq_run (by decide +kernel)
  exact ⟨_, ⟨_, hrun⟩, by decide +kernel, by decide +kernel, (codex_turns_bound ⟨_, hrun⟩).2.2.1⟩

/-- **A turn that is bound to another's native turn.** Its start is
rejected, the mapper still expects it, and the next native turn, which the
provider began of its own, is bound to it. -/
theorem codex_rejected_turn_bound :
    ∃ s, (codexMachine id "conversation" "session" noTurns).Reachable s ∧
      ("native", "turn") ∈ s.bindings ∧
      ∀ start ∈ s.starts, start.turnId = "turn" → start.status = .rejected := by
  have hrun : (codexMachine id "conversation" "session" noTurns).exec
      [.startTurn "turn", .rejected 0, .create "native" false, .turnStarted "native"]
      (.opened noTurns) = some ((codexMachine id "conversation" "session" noTurns).run
        [.startTurn "turn", .rejected 0, .create "native" false, .turnStarted "native"]
        (.opened noTurns)) :=
    Machine.exec_eq_run (by decide +kernel)
  exact ⟨_, ⟨_, hrun⟩, by decide +kernel, by decide +kernel⟩

end Providers

end Remux
