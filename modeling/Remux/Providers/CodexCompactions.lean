import Mathlib.Data.List.Count
import Std.Data.String.ToNat
import Remux.Providers.CodexTurns
import Remux.Providers.Model.CodexCompactions

/-!
# One compaction, one operation

The mapper counts the compactions of a native turn as they are first
reported, and gives the operation that is pending to the first occurrence
it does not know. `Placed` says when that is right: an occurrence is first
reported live when those before it have been, `thread/compacted` comes after
the item or in its place, and a first report claims what is pending exactly
if it is of the first compaction that occurred after the registration.
Then every compaction is known by its own occurrence (`Identified`).
-/

namespace Remux

open Option hiding map_map
open List hiding getElem?_eq_some_iff isEmpty_iff

namespace Providers

namespace CompactionHistory

open CodexEventMapper (compactionEnvelope compactionEventId reportKey automaticOperation)

/-! ## When reports are placed -/

variable (s : CompactionHistory)

/-- The compaction that an operation is meant for: the first to occur after
it was registered. -/
def meantFor (operationId : String) : Option Compaction :=
  (s.registrations.find? (·.1 = operationId)).bind fun registration =>
    compactionAt s.occurred registration.2

/-- A report of an occurrence that is not known claims the pending operation
exactly if it is meant for it. -/
def ClaimsRightly (m : CodexEventMapper) (compaction : Compaction) (claims : Bool) : Prop :=
  m.compactionOperationByOccurrence.lookup compaction = none →
    ∀ operationId ∈ m.pendingManualCompactionId,
      (claims = true ↔ s.meantFor operationId = some compaction)

/-- The occurrence is the next of its turn that is not known. -/
def IsNext (m : CodexEventMapper) (compaction : Compaction) : Prop :=
  m.compactionOperationByOccurrence.lookup compaction = none ∧
    ∀ j < compaction.2, (m.compactionOperationByOccurrence.lookup (compaction.1, j)).isSome

variable (digest : String → String) (conversationId : String) (inherited : List String)
  (items : CompactionItems)

instance (m : CodexEventMapper) (compaction : Compaction) (claims : Bool) :
    Decidable (s.ClaimsRightly m compaction claims) := by
  unfold ClaimsRightly
  infer_instance

instance (m : CodexEventMapper) (compaction : Compaction) : Decidable (IsNext m compaction) := by
  unfold IsNext
  infer_instance

/-- The items of a snapshot's turn claim rightly, each after those before
it. -/
def CompactionsPlaced (nativeTurnId : String) (claims : String → Bool) :
    CodexEventMapper → List String → ℕ → Prop
  | _, [], _ => True
  | m, itemId :: itemIds, ordinal =>
    s.ClaimsRightly m (nativeTurnId, ordinal) (claims itemId) ∧
      CompactionsPlaced nativeTurnId claims
        (m.compactionItem digest conversationId nativeTurnId itemId true true (claims itemId)
          (some ordinal)).1 itemIds (ordinal + 1)

/-- So do the turns of a snapshot. -/
def TurnsPlaced (latest : Option (String × String)) :
    CodexEventMapper → List (SnapshotTurn × Bool) → Prop
  | _, [] => True
  | m, (turn, control) :: turns =>
    (match m.prepareSnapshotTurn digest inherited latest control turn with
      | some (claims, prepared) =>
        s.CompactionsPlaced digest conversationId turn.nativeTurnId claims prepared
          turn.compactions 0
      | none => True) ∧
    TurnsPlaced latest
      (m.mapSnapshotTurn digest conversationId inherited latest control turn).1 turns

/-- **A report is placed**: the mapper takes it for the compaction that it
is about. -/
def Placed : CompactionAction → Prop
  | .live nativeTurnId i _ =>
    ((s.mapper.compactionOrdinalByItem.lookup (nativeTurnId, items.live nativeTurnId i)).isNone →
      IsNext s.mapper (nativeTurnId, i)) ∧ s.ClaimsRightly s.mapper (nativeTurnId, i) true
  | .threadCompacted nativeTurnId i _ =>
    if nativeTurnId ∈ s.mapper.nativeTurnsWithCompletedCompactionItem then
      (nativeTurnId, i) ∈ s.finished
    else IsNext s.mapper (nativeTurnId, i) ∧ s.ClaimsRightly s.mapper (nativeTurnId, i) true
  | .snapshot turns =>
    s.TurnsPlaced digest conversationId inherited
      (CodexEventMapper.latestCompactionIdentity (turns.map (·.snapshotTurn items))) s.mapper
      ((turns.map (·.snapshotTurn items)).map fun turn => (turn, s.mapper.snapshotControl turn))
  | _ => True

instance instDecidableCompactionsPlaced (nativeTurnId : String) (claims : String → Bool) :
    ∀ (m : CodexEventMapper) (itemIds : List String) (ordinal : ℕ),
      Decidable (s.CompactionsPlaced digest conversationId nativeTurnId claims m itemIds ordinal)
  | _, [], _ => .isTrue trivial
  | m, itemId :: itemIds, ordinal =>
    have := instDecidableCompactionsPlaced nativeTurnId claims
      (m.compactionItem digest conversationId nativeTurnId itemId true true (claims itemId)
        (some ordinal)).1 itemIds (ordinal + 1)
    inferInstanceAs (Decidable (_ ∧ _))

instance instDecidableTurnsPlaced (latest : Option (String × String)) :
    ∀ (m : CodexEventMapper) (turns : List (SnapshotTurn × Bool)),
      Decidable (s.TurnsPlaced digest conversationId inherited latest m turns)
  | _, [] => .isTrue trivial
  | m, (turn, control) :: turns =>
    have := instDecidableTurnsPlaced latest
      (m.mapSnapshotTurn digest conversationId inherited latest control turn).1 turns
    have : Decidable (match m.prepareSnapshotTurn digest inherited latest control turn with
      | some (claims, prepared) =>
        s.CompactionsPlaced digest conversationId turn.nativeTurnId claims prepared
          turn.compactions 0
      | none => True) := by split <;> infer_instance
    inferInstanceAs (Decidable (_ ∧ _))

instance (action : CompactionAction) :
    Decidable (s.Placed digest conversationId inherited items action) := by
  unfold Placed
  split <;> infer_instance

/-! ## What the mapper knows -/

variable {digest conversationId inherited items} {s} {m m' : CodexEventMapper}

variable {p i k : ℕ} {compaction : Compaction} {t operationId x nativeSessionId : String}
variable {s' : CompactionHistory} {hint : Option ℕ} {claims completed : Bool}
variable {mapped : CodexEventMapper × List MappedEvent} {event : MappedEvent}
variable {latest : Option (String × String)} {turn : SnapshotTurn} {events : List MappedEvent}

variable {occurred : List String}

theorem compactionAt_append (t : String) (h : compactionAt occurred p = some compaction) :
    compactionAt (occurred ++ [t]) p = some compaction := by
  unfold compactionAt at h ⊢
  obtain ⟨u, hu, rfl⟩ := map_eq_some_iff.1 h
  have hlt := (getElem?_eq_some_iff.1 hu).1
  rw [getElem?_append_left hlt, hu, take_append_of_le_length (by omega)]
  rfl

/-- A position that a compaction occurs at now either had it or is the
last. -/
theorem compactionAt_concat (h : compactionAt (occurred ++ [t]) p = some compaction) :
    compactionAt occurred p = some compaction ∨ compaction = (t, occurred.count t) := by
  unfold compactionAt at h ⊢
  obtain ⟨u, hu, rfl⟩ := map_eq_some_iff.1 h
  rcases getElem?_concat_eq_some.1 hu with hold | ⟨rfl, rfl⟩
  · have hlt := (getElem?_eq_some_iff.1 hold).1
    left
    rw [hold, take_append_of_le_length (by omega)]
    rfl
  · right
    rw [take_left]

/-- The mapper knows the same occurrences. -/
structure SameOccurrences (m m' : CodexEventMapper) : Prop where
  item : m'.compactionOrdinalByItem = m.compactionOrdinalByItem
  operation : m'.compactionOperationByOccurrence = m.compactionOperationByOccurrence
  counter : m'.nextCompactionOrdinalByTurn = m.nextCompactionOrdinalByTurn

/-- It knows the same of the compactions, but for what is pending. -/
structure SameCompactions (m m' : CodexEventMapper) : Prop extends SameOccurrences m m' where
  completed : m'.completedCompactionItems = m.completedCompactionItems
  turns : m'.nativeTurnsWithCompletedCompactionItem = m.nativeTurnsWithCompletedCompactionItem

/-- **Every compaction is known by its own occurrence**, and its operation
is the one that was registered before it, or its own. -/
structure Identified (digest : String → String) (conversationId : String)
    (items : CompactionItems) (s : CompactionHistory) (m : CodexEventMapper) : Prop where
  item : ∀ {t x k}, m.compactionOrdinalByItem.lookup (t, x) = some k →
    ∀ i, x = items.live t i ∨ x = items.listed t i → k = i
  known : ∀ {t x k}, m.compactionOrdinalByItem.lookup (t, x) = some k →
    (m.compactionOperationByOccurrence.lookup (t, k)).isSome
  next : ∀ t j, (m.compactionOperationByOccurrence.lookup (t, j)).isSome ↔
    j < (m.nextCompactionOrdinalByTurn.lookup t).getD 0
  occurred : ∀ t j, (m.compactionOperationByOccurrence.lookup (t, j)).isSome →
    j < s.occurred.count t
  operation : ∀ {c operation}, m.compactionOperationByOccurrence.lookup c = some operation →
    operation = automaticOperation digest conversationId c.1 c.2 ∨
      ∃ operationId p, operation = ⟨operationId, .manual⟩ ∧
        (operationId, p) ∈ s.registrations ∧ compactionAt s.occurred p = some c
  pending : ∀ operationId, m.pendingManualCompactionId = some operationId →
    ∃ p, (operationId, p) ∈ s.registrations
  given : ∀ {operationId p}, (operationId, p) ∈ s.registrations → operationId ∉ s.withdrawn →
    (∃ c, compactionAt s.occurred p = some c ∧
      m.compactionOperationByOccurrence.lookup c = some ⟨operationId, .manual⟩) ∨
    (m.pendingManualCompactionId = some operationId ∧
      ∀ c, compactionAt s.occurred p = some c →
        m.compactionOperationByOccurrence.lookup c = none)
  ids : (s.registrations.map Prod.fst).Nodup
  bound : ∀ {operationId p}, (operationId, p) ∈ s.registrations → p ≤ s.occurred.length

variable (h : Identified digest conversationId items s m)
include h

/-- An operation is registered once. -/
theorem Identified.eq_of_registered {q : ℕ}
    (hp : (operationId, p) ∈ s.registrations) (hq : (operationId, q) ∈ s.registrations) : p = q :=
  congrArg Prod.snd (inj_on_of_nodup_map h.ids hp hq rfl)

/-- The compaction that an operation is meant for occurred where it was
registered. -/
theorem Identified.meantFor_eq (hp : (operationId, p) ∈ s.registrations) :
    s.meantFor operationId = compactionAt s.occurred p := by
  unfold meantFor
  cases hfind : s.registrations.find? (·.1 = operationId) with
  | none =>
    have := find?_eq_none.1 hfind _ hp
    simp at this
  | some registration =>
    have hmem := mem_of_find?_eq_some hfind
    have heq : registration.1 = operationId := by simpa using find?_some hfind
    obtain ⟨id, q⟩ := registration
    obtain rfl : id = operationId := heq
    rw [h.eq_of_registered hp hmem]
    rfl

/-- What does not touch the compactions of the mapper leaves what it
knows. -/
theorem Identified.congr (same : SameOccurrences m m')
    (hpend : m'.pendingManualCompactionId = m.pendingManualCompactionId) :
    Identified digest conversationId items s m' := by
  obtain ⟨h1, h2, h3, h4, h5, h6, h7, h8, h9⟩ := h
  refine ⟨?_, ?_, ?_, ?_, ?_, ?_, ?_, h8, h9⟩ <;>
    simp only [same.item, same.operation, same.counter, hpend] <;> assumption

/-- It depends on what occurred and on the registrations only. -/
theorem Identified.world
    (hoccurred : s'.occurred = s.occurred) (hregs : s'.registrations = s.registrations)
    (hwith : s'.withdrawn = s.withdrawn) : Identified digest conversationId items s' m := by
  obtain ⟨h1, h2, h3, h4, h5, h6, h7, h8, h9⟩ := h
  refine ⟨h1, h2, h3, ?_, ?_, ?_, ?_, ?_, ?_⟩ <;> simp only [hoccurred, hregs, hwith] <;> assumption

/-- A turn's counter is past the occurrences known. -/
theorem Identified.le_counter
    (hbef : ∀ j < i, (m.compactionOperationByOccurrence.lookup (t, j)).isSome) :
    i ≤ (m.nextCompactionOrdinalByTurn.lookup t).getD 0 := by
  by_contra hlt
  have := (h.next t _).1 (hbef ((m.nextCompactionOrdinalByTurn.lookup t).getD 0) (by omega))
  omega

/-- The ordinal that a report takes, where it is the occurrence's own or
the item is known. -/
theorem Identified.ordinal_eq
    (hknown : ∀ k, m.compactionOrdinalByItem.lookup (t, x) = some k → k = i)
    (hhint : m.compactionOrdinalByItem.lookup (t, x) = none →
      hint = some i ∨ hint = none ∧ IsNext m (t, i)) :
    (m.compactionOrdinal t x hint).1 = i := by
  unfold CodexEventMapper.compactionOrdinal
  split
  · next k hk => exact hknown k hk
  · next hnone =>
    rcases hhint hnone with rfl | ⟨rfl, hnone, hbef⟩
    · rfl
    · -- The turn's counter stands at the number of the occurrences known.
      have hle : (m.nextCompactionOrdinalByTurn.lookup t).getD 0 ≤ i := by
        by_contra hlt
        have hsome := (h.next t i).2 (by omega)
        rw [hnone] at hsome
        cases hsome
      exact le_antisymm hle (h.le_counter hbef)

omit h

/-- What taking an ordinal leaves. -/
theorem compactionOrdinal_rest (t x : String) (hint : Option ℕ) :
    (m.compactionOrdinal t x hint).2.compactionOperationByOccurrence =
        m.compactionOperationByOccurrence ∧
      (m.compactionOrdinal t x hint).2.pendingManualCompactionId = m.pendingManualCompactionId := by
  unfold CodexEventMapper.compactionOrdinal
  split <;> exact ⟨rfl, rfl⟩

/-- What an item that takes an ordinal leaves of the items and the
counters. -/
structure OrdinalTaken (m m' : CodexEventMapper) (t x : String) (i : ℕ) : Prop where
  items : ∀ {u y k}, m'.compactionOrdinalByItem.lookup (u, y) = some k →
    m.compactionOrdinalByItem.lookup (u, y) = some k ∨ (u, y) = (t, x) ∧ k = i
  counter : ∀ u, (m'.nextCompactionOrdinalByTurn.lookup u).getD 0 =
    if u = t then max ((m.nextCompactionOrdinalByTurn.lookup t).getD 0) (i + 1)
      else (m.nextCompactionOrdinalByTurn.lookup u).getD 0

/-- The items after an ordinal is taken. -/
theorem lookup_compactionOrdinal (hord : (m.compactionOrdinal t x hint).1 = i) {u y : String}
    (hk : (m.compactionOrdinal t x hint).2.compactionOrdinalByItem.lookup (u, y) = some k) :
    m.compactionOrdinalByItem.lookup (u, y) = some k ∨ (u, y) = (t, x) ∧ k = i := by
  unfold CodexEventMapper.compactionOrdinal at hk hord
  split at hk
  · exact .inl hk
  · next hnone =>
    rw [hnone] at hord
    have hk : (m.compactionOrdinalByItem.insert (t, x) _).lookup (u, y) = some k := hk
    rw [Assoc.lookup_insert_eq] at hk
    split at hk
    · next heq => exact .inr ⟨heq, (Option.some.inj hk).symm.trans hord⟩
    · exact .inl hk

include h

/-- An ordinal given to an item is taken. -/
theorem Identified.ordinalTaken (hord : (m.compactionOrdinal t x hint).1 = i) :
    OrdinalTaken m (m.compactionOrdinal t x hint).2 t x i := by
  refine ⟨lookup_compactionOrdinal hord, fun u => ?_⟩
  cases hitem : m.compactionOrdinalByItem.lookup (t, x) with
  | some k =>
    have heq : m.compactionOrdinal t x hint = (k, m) := by
      unfold CodexEventMapper.compactionOrdinal
      rw [hitem]
    rw [heq] at hord ⊢
    obtain rfl : k = i := hord
    have hlt := (h.next t k).1 (h.known hitem)
    split
    · next hu =>
      rw [hu]
      exact (max_eq_left hlt).symm
    · rfl
  | none =>
    have heq : m.compactionOrdinal t x hint = (hint.getD ((m.nextCompactionOrdinalByTurn.lookup
        t).getD 0), { m with
          compactionOrdinalByItem := m.compactionOrdinalByItem.insert (t, x)
            (hint.getD ((m.nextCompactionOrdinalByTurn.lookup t).getD 0))
          nextCompactionOrdinalByTurn := m.nextCompactionOrdinalByTurn.insert t
            (max ((m.nextCompactionOrdinalByTurn.lookup t).getD 0)
              (hint.getD ((m.nextCompactionOrdinalByTurn.lookup t).getD 0) + 1)) }) := by
      unfold CodexEventMapper.compactionOrdinal
      rw [hitem]
    rw [heq] at hord ⊢
    have hord : hint.getD ((m.nextCompactionOrdinalByTurn.lookup t).getD 0) = i := hord
    rw [hord, Assoc.lookup_insert_eq]
    split <;> rfl

/-- The counter of a turn whose occurrences before one are known. -/
theorem Identified.lt_counter
    (hbef : ∀ j < i, (m.compactionOperationByOccurrence.lookup (t, j)).isSome) (j : ℕ) :
    j < max ((m.nextCompactionOrdinalByTurn.lookup t).getD 0) (i + 1) ↔
      (m.compactionOperationByOccurrence.lookup (t, j)).isSome ∨ j = i := by
  have hle := h.le_counter hbef
  rw [h.next]
  omega

/-- The item has the ordinal of its occurrence. -/
theorem Identified.item_taken (htaken : OrdinalTaken m m' t x i)
    (hnames : ∀ j, x = items.live t j ∨ x = items.listed t j → j = i) {u y : String}
    (hk : m'.compactionOrdinalByItem.lookup (u, y) = some k) (j : ℕ)
    (hj : y = items.live u j ∨ y = items.listed u j) : k = j := by
  rcases htaken.items hk with hold | ⟨heq, rfl⟩
  · exact h.item hold j hj
  · cases heq
    exact (hnames j hj).symm

/-- **A known occurrence is reported again**, perhaps by a new item. -/
theorem Identified.again (hnames : ∀ j, x = items.live t j ∨ x = items.listed t j → j = i)
    (hknown : (m.compactionOperationByOccurrence.lookup (t, i)).isSome)
    (htaken : OrdinalTaken m m' t x i)
    (hop : m'.compactionOperationByOccurrence = m.compactionOperationByOccurrence)
    (hpend : m'.pendingManualCompactionId = m.pendingManualCompactionId) :
    Identified digest conversationId items s m' := by
  refine ⟨h.item_taken htaken hnames, fun {u y k} hk => ?_, fun u j => ?_, ?_, ?_, ?_, ?_, h.ids,
    h.bound⟩
  · rw [hop]
    rcases htaken.items hk with hold | ⟨heq, rfl⟩
    · exact h.known hold
    · cases heq
      exact hknown
  · have hlt := (h.next t i).1 hknown
    rw [hop, htaken.counter, h.next]
    split
    · next hu =>
      rw [hu]
      omega
    · rfl
  · rw [hop]
    exact h.occurred
  · rw [hop]
    exact h.operation
  · rw [hpend]
    exact h.pending
  · rw [hop, hpend]
    exact h.given

/-- **A new occurrence is reported**: it gets what is pending if that is
meant for it, and its own otherwise. -/
theorem Identified.new (hcnt : i < s.occurred.count t)
    (hnames : ∀ j, x = items.live t j ∨ x = items.listed t j → j = i)
    (hnone : m.compactionOperationByOccurrence.lookup (t, i) = none)
    (hbef : ∀ j < i, (m.compactionOperationByOccurrence.lookup (t, j)).isSome)
    (hclm : s.ClaimsRightly m (t, i) claims)
    (htaken : OrdinalTaken m m' t x i)
    (hop : ∀ c, m'.compactionOperationByOccurrence.lookup c =
      if c = (t, i) then some (m.newOperation digest conversationId t i claims)
        else m.compactionOperationByOccurrence.lookup c)
    (hpend : m'.pendingManualCompactionId = m.pendingManualCompactionId) :
    Identified digest conversationId items s m' := by
  refine ⟨h.item_taken htaken hnames, fun {u y k} hk => ?_, fun u j => ?_, fun u j hj => ?_,
    fun {c o} ho => ?_, ?_, fun {operationId p} hp hkept => ?_, h.ids, h.bound⟩
  · rw [hop]
    split
    · rfl
    · next hne =>
      rcases htaken.items hk with hold | ⟨heq, rfl⟩
      · exact h.known hold
      · cases heq
        exact absurd rfl hne
  · rw [hop, htaken.counter]
    by_cases heq : u = t
    · subst heq
      rw [if_pos rfl, h.lt_counter hbef]
      by_cases hj : j = i
      · subst hj
        rw [if_pos rfl]
        exact ⟨fun _ => .inr rfl, fun _ => rfl⟩
      · rw [if_neg fun hpair => hj (Prod.mk.inj hpair).2]
        exact ⟨.inl, fun hor => hor.resolve_right hj⟩
    · rw [if_neg fun hpair => heq (Prod.mk.inj hpair).1, if_neg heq]
      exact h.next u j
  · rw [hop] at hj
    split at hj
    · next heq =>
      cases heq
      exact hcnt
    · exact h.occurred u j hj
  · rw [hop] at ho
    split at ho
    · next heq =>
      cases ho
      subst heq
      unfold CodexEventMapper.newOperation
      split
      · next operationId hclaim =>
        obtain ⟨hclm', hpend'⟩ := ite_none_right_eq_some.1 hclaim
        obtain ⟨p, hp⟩ := h.pending operationId hpend'
        have hmeant := (hclm hnone operationId hpend').1 hclm'
        rw [h.meantFor_eq hp] at hmeant
        exact .inr ⟨operationId, p, rfl, hp, hmeant⟩
      · exact .inl rfl
    · exact h.operation ho
  · rw [hpend]
    exact h.pending
  · rw [hpend]
    rcases h.given hp hkept with ⟨c, hc, hgot⟩ | ⟨hpend', hnot⟩
    · refine .inl ⟨c, hc, ?_⟩
      rw [hop, if_neg, hgot]
      rintro rfl
      exact absurd (hgot.symm.trans hnone) nofun
    · have hmeant := hclm hnone operationId hpend'
      rw [h.meantFor_eq hp] at hmeant
      by_cases hc : compactionAt s.occurred p = some (t, i)
      · refine .inl ⟨(t, i), hc, ?_⟩
        rw [hop, if_pos rfl, CodexEventMapper.newOperation, if_pos (hmeant.2 hc), hpend']
      · refine .inr ⟨hpend', fun c hat => ?_⟩
        rw [hop, if_neg, hnot c hat]
        rintro rfl
        exact hc hat

/-- **An occurrence is reported**: it is known from then on, by the
operation that is reported, and the others are what they were. -/
theorem Identified.occurrence (hcnt : i < s.occurred.count t)
    (hnames : ∀ j, x = items.live t j ∨ x = items.listed t j → j = i)
    (hord : (m.compactionOrdinal t x hint).1 = i)
    (hbef : ∀ j < i, (m.compactionOperationByOccurrence.lookup (t, j)).isSome)
    (hclm : s.ClaimsRightly m (t, i) claims) {reported : CompactionOperation × CodexEventMapper}
    (hrep : (m.compactionOrdinal t x hint).2.compactionOperation digest conversationId t i
      claims = reported) :
    Identified digest conversationId items s reported.2 ∧
      reported.2.compactionOperationByOccurrence.lookup (t, i) = some reported.1 ∧
      (∀ c operation, m.compactionOperationByOccurrence.lookup c = some operation →
        reported.2.compactionOperationByOccurrence.lookup c = some operation) ∧
      reported.2.pendingManualCompactionId = m.pendingManualCompactionId ∧
      (claims = true → m.compactionOperationByOccurrence.lookup (t, i) = none →
        ∀ operationId, m.pendingManualCompactionId = some operationId →
          reported.1 = ⟨operationId, .manual⟩) := by
  obtain ⟨hsame, hpend⟩ := compactionOrdinal_rest (m := m) t x hint
  unfold CodexEventMapper.compactionOperation at hrep
  rw [hsame] at hrep
  cases hget : m.compactionOperationByOccurrence.lookup (t, i) with
  | some operation =>
    rw [hget] at hrep
    subst hrep
    refine ⟨h.again hnames (by rw [hget]; rfl) (h.ordinalTaken hord) hsame hpend,
      by rw [hsame]; exact hget, fun c o ho => by rw [hsame]; exact ho, hpend, nofun⟩
  | none =>
    rw [hget] at hrep
    subst hrep
    have hins : ∀ c, (m.compactionOperationByOccurrence.insert (t, i)
        (m.newOperation digest conversationId t i claims)).lookup c =
          if c = (t, i) then some (m.newOperation digest conversationId t i claims)
            else m.compactionOperationByOccurrence.lookup c := fun c => Assoc.lookup_insert_eq
    have hop : (m.compactionOrdinal t x hint).2.newOperation digest conversationId t i
        claims = m.newOperation digest conversationId t i claims := by
      unfold CodexEventMapper.newOperation
      rw [hpend]
    rw [hop]
    obtain ⟨hitems, hctr⟩ := h.ordinalTaken hord
    refine ⟨h.new hcnt hnames hget hbef hclm ⟨hitems, hctr⟩ hins hpend, (hins _).trans (if_pos rfl),
      fun c o ho => ?_,
      hpend, fun hclm' _ operationId hpend' => ?_⟩
    · refine (hins c).trans ?_
      rw [if_neg, ho]
      rintro rfl
      exact absurd (ho.symm.trans hget) nofun
    · unfold CodexEventMapper.newOperation
      rw [if_pos hclm', hpend']

omit h

/-! ## The operation that is pending -/

/-- What is pending may be let go of once a compaction has got it. -/
theorem Identified.release (h : Identified digest conversationId items s m)
    (same : SameOccurrences m m') (hpend : m'.pendingManualCompactionId = none)
    (hgiven : ∀ operationId, m.pendingManualCompactionId = some operationId →
      ∃ c, m.compactionOperationByOccurrence.lookup c = some ⟨operationId, .manual⟩ ∧
        s.meantFor operationId = some c) :
    Identified digest conversationId items s m' := by
  obtain ⟨h1, h2, h3, h4, h5, h6, h7, h8, h9⟩ := h
  refine ⟨?_, ?_, ?_, ?_, ?_, ?_, fun {operationId p} hp hkept => ?_, h8, h9⟩
  iterate 5 simp only [same.item, same.operation, same.counter]; assumption
  · rw [hpend]
    nofun
  · rw [same.operation, hpend]
    rcases h7 hp hkept with hgot | ⟨hpend', -⟩
    · exact .inl hgot
    · obtain ⟨c, hc, hmeant⟩ := hgiven operationId hpend'
      have hmeant' := Identified.meantFor_eq ⟨h1, h2, h3, h4, h5, h6, h7, h8, h9⟩ hp
      exact .inl ⟨c, hmeant'.symm.trans hmeant, hc⟩

/-- An operation that is not withdrawn when the mapper lets go of what is
pending was given to the compaction it is meant for. -/
theorem Identified.given_of_not_withdrawn (h : Identified digest conversationId items s s.mapper)
    (hp : (operationId, p) ∈ s.registrations) (hkept : operationId ∉ s.withdraw) :
    ∃ c, compactionAt s.occurred p = some c ∧
      s.mapper.compactionOperationByOccurrence.lookup c = some ⟨operationId, .manual⟩ := by
  have hsub : operationId ∉ s.withdrawn := fun hmem => by
    refine hkept ?_
    unfold withdraw
    split
    · split
      · exact hmem
      · exact mem_cons_of_mem _ hmem
    · exact hmem
  rcases h.given hp hsub with hgot | ⟨hpend, -⟩
  · exact hgot
  · unfold withdraw at hkept
    rw [hpend] at hkept
    dsimp only at hkept
    split at hkept
    · next hgave =>
      obtain ⟨⟨c, operation⟩, hmem, heq⟩ := any_eq_true.1 hgave
      obtain rfl : operation = ⟨operationId, .manual⟩ := of_decide_eq_true heq
      have hget := Assoc.mem_entries_iff.1 hmem
      rcases h.operation hget with hauto | ⟨id, q, heq, hq, hat⟩
      · cases congrArg CompactionOperation.trigger hauto
      · obtain rfl := congrArg CompactionOperation.operationId heq
        rw [h.eq_of_registered hp hq]
        exact ⟨c, hat, hget⟩
    · exact absurd mem_cons_self hkept

/-- **A compaction occurs**: it is not known, and what was known stays. -/
theorem Identified.occur (h : Identified digest conversationId items s m) (t : String) :
    Identified digest conversationId items { s with occurred := s.occurred ++ [t] } m := by
  refine ⟨h.item, h.known, h.next, fun u j hj => ?_, fun {c o} ho => ?_, h.pending,
    fun {operationId p} hp hkept => ?_, h.ids, fun {operationId p} hp => ?_⟩
  · rw [count_append]
    exact Nat.lt_add_right _ (h.occurred u j hj)
  · refine (h.operation ho).imp_right ?_
    rintro ⟨operationId, p, heq, hp, hat⟩
    exact ⟨operationId, p, heq, hp, compactionAt_append t hat⟩
  · rcases h.given hp hkept with ⟨c, hc, hgot⟩ | ⟨hpend, hnot⟩
    · exact .inl ⟨c, compactionAt_append t hc, hgot⟩
    · refine .inr ⟨hpend, fun c hc => ?_⟩
      rcases compactionAt_concat hc with hold | rfl
      · exact hnot c hold
      · cases hget : m.compactionOperationByOccurrence.lookup (t, s.occurred.count t) with
        | none => rfl
        | some o =>
          have := h.occurred t _ (by rw [hget]; rfl)
          omega
  · rw [length_append]
    have := h.bound hp
    omega

/-- **An operation is registered**: no compaction that it is meant for has
occurred. -/
theorem Identified.expectManual (h : Identified digest conversationId items s s.mapper)
    (hfresh : operationId ∉ s.registrations.map Prod.fst) :
    Identified digest conversationId items { s with
        mapper := s.mapper.expectManualCompaction operationId
        registrations := s.registrations ++ [(operationId, s.occurred.length)]
        withdrawn := s.withdraw }
      (s.mapper.expectManualCompaction operationId) := by
  refine ⟨h.item, h.known, h.next, h.occurred, fun {c o} ho => ?_, fun id hid => ?_,
    fun {id p} hp hkept => ?_, ?_, fun {id p} hp => ?_⟩
  · refine (h.operation ho).imp_right ?_
    rintro ⟨id, p, heq, hp, hat⟩
    exact ⟨id, p, heq, mem_append_left _ hp, hat⟩
  · cases hid
    exact ⟨_, mem_concat_self⟩
  · rcases mem_concat.1 hp with hold | hnew
    · exact .inl (h.given_of_not_withdrawn hold hkept)
    · cases hnew
      refine .inr ⟨rfl, fun c hc => ?_⟩
      unfold compactionAt at hc
      rw [getElem?_eq_none le_rfl] at hc
      cases hc
  · rw [map_append]
    exact nodup_append.2 ⟨h.ids, nodup_singleton _, fun id hid other hne => by
      rw [mem_singleton.1 hne]
      rintro rfl
      exact hfresh hid⟩
  · rcases mem_concat.1 hp with hold | hnew
    · exact h.bound hold
    · cases hnew
      exact le_rfl

/-- **The mapper lets go of what is pending**: it is withdrawn unless a
compaction has got it. -/
theorem Identified.letGo (h : Identified digest conversationId items s s.mapper)
    (same : SameOccurrences s.mapper m') (hpend : m'.pendingManualCompactionId = none) :
    Identified digest conversationId items { s with mapper := m', withdrawn := s.withdraw } m' := by
  obtain ⟨h1, h2, h3, h4, h5, h6, h7, h8, h9⟩ := h
  refine ⟨?_, ?_, ?_, ?_, ?_, ?_, fun {operationId p} hp hkept => .inl ?_, h8, h9⟩
  iterate 5 simp only [same.item, same.operation, same.counter]; assumption
  · rw [hpend]
    nofun
  · rw [same.operation]
    exact Identified.given_of_not_withdrawn ⟨h1, h2, h3, h4, h5, h6, h7, h8, h9⟩ hp hkept

/-! ## Items and snapshots -/

/-- **What a mapper has learnt since**: the occurrences it knew keep their
operations, and the items that it got are among some. -/
structure Extends (own : String → String → Prop) (m m' : CodexEventMapper) : Prop where
  known : ∀ c operation, m.compactionOperationByOccurrence.lookup c = some operation →
    m'.compactionOperationByOccurrence.lookup c = some operation
  items : ∀ u x, (m'.compactionOrdinalByItem.lookup (u, x)).isSome →
    (m.compactionOrdinalByItem.lookup (u, x)).isSome ∨ own u x
  completed : ∀ u x, (u, x) ∈ m'.completedCompactionItems →
    (u, x) ∈ m.completedCompactionItems ∨ own u x
  turns : ∀ u ∈ m.nativeTurnsWithCompletedCompactionItem,
    u ∈ m'.nativeTurnsWithCompletedCompactionItem

variable {own : String → String → Prop}

theorem Extends.trans {m'' : CodexEventMapper} (h : Extends own m m') (h' : Extends own m' m'') :
    Extends own m m'' where
  known c operation hc := h'.known c operation (h.known c operation hc)
  items u x hx := (h'.items u x hx).elim (h.items u x) .inr
  completed u x hx := (h'.completed u x hx).elim (h.completed u x) .inr
  turns u hu := h'.turns u (h.turns u hu)

/-- What does not touch the compactions teaches nothing. -/
theorem Extends.congr (same : SameCompactions m m') : Extends own m m' where
  known _ _ hc := same.operation ▸ hc
  items _ _ hx := .inl (same.item ▸ hx)
  completed _ _ hx := .inl (same.completed ▸ hx)
  turns _ hu := same.turns ▸ hu

theorem Extends.refl : Extends own m m := .congr ⟨⟨rfl, rfl, rfl⟩, rfl, rfl⟩

/-- The phase of a report of an item. -/
def phaseOf (completed : Bool) : CompactionPhase := if completed then .completed else .started

/-- **An item of a compaction is mapped**: it reports its occurrence by its
operation. -/
theorem Identified.compactionItem (h : Identified digest conversationId items s m) {snapshot : Bool}
    (hskip : (!snapshot && completed && m.completedCompactionItems.contains (t, x)) = false)
    (hcnt : i < s.occurred.count t)
    (hnames : ∀ j, x = items.live t j ∨ x = items.listed t j → j = i)
    (hord : (m.compactionOrdinal t x hint).1 = i)
    (hbef : ∀ j < i, (m.compactionOperationByOccurrence.lookup (t, j)).isSome)
    (hclm : s.ClaimsRightly m (t, i) claims)
    (hmap : m.compactionItem digest conversationId t x completed snapshot claims hint = mapped) :
    Identified digest conversationId items s mapped.1 ∧
      Extends (fun u y => u = t ∧ y = x) m mapped.1 ∧
      ∃ operation, mapped.1.compactionOperationByOccurrence.lookup (t, i) = some operation ∧
        mapped.2.filter (fun event => (compactionEventId event).isSome) =
          [compactionEnvelope digest conversationId t (some x) (phaseOf completed)
            operation i] := by
  unfold CodexEventMapper.compactionItem at hmap
  rw [hskip, if_neg (by decide)] at hmap
  dsimp only at hmap
  rw [hord] at hmap
  generalize hrep : (m.compactionOrdinal t x hint).2.compactionOperation digest
    conversationId t i claims = reported at hmap
  obtain ⟨hident, hknown, hkept, hpend, -⟩ :=
    h.occurrence hcnt hnames hord hbef hclm hrep
  have hitems : ∀ u y, (reported.2.compactionOrdinalByItem.lookup (u, y)).isSome →
      (m.compactionOrdinalByItem.lookup (u, y)).isSome ∨ u = t ∧ y = x := by
    intro u y hy
    have hsame : reported.2.compactionOrdinalByItem =
        (m.compactionOrdinal t x hint).2.compactionOrdinalByItem := by
      rw [← hrep]
      unfold CodexEventMapper.compactionOperation
      split <;> rfl
    rw [hsame] at hy
    obtain ⟨k, hk⟩ := isSome_iff_exists.1 hy
    rcases lookup_compactionOrdinal hord hk with hold | ⟨heq, -⟩
    · rw [hold]
      exact .inl rfl
    · exact .inr (Prod.mk.inj heq)
  have hcompl : reported.2.completedCompactionItems = m.completedCompactionItems ∧
      reported.2.nativeTurnsWithCompletedCompactionItem =
        m.nativeTurnsWithCompletedCompactionItem := by
    rw [← hrep]
    unfold CodexEventMapper.compactionOperation CodexEventMapper.compactionOrdinal
    repeat' split
    all_goals exact ⟨rfl, rfl⟩
  -- A completed item is done with the operation that it carries.
  have hdone : Identified digest conversationId items s
      (reported.2.completeCompaction t x reported.1) := by
    by_cases hman : reported.1.trigger = .manual ∧
        reported.2.pendingManualCompactionId = some reported.1.operationId
    · refine hident.release ⟨rfl, rfl, rfl⟩ ?_ fun operationId hid => ?_
      · exact if_pos hman
      · cases hman.2.symm.trans hid
        refine ⟨(t, i), ?_, ?_⟩
        · rw [hknown, ← hman.1]
        · rcases hident.operation hknown with hauto | ⟨id, p, heq, hp, hat⟩
          · have htrig := hman.1
            rw [hauto] at htrig
            cases htrig
          · have hid' : reported.1.operationId = id := congrArg CompactionOperation.operationId heq
            rw [hid', hident.meantFor_eq hp, hat]
    · exact hident.congr ⟨rfl, rfl, rfl⟩ (if_neg hman)
  have hmarker : ∀ marker : List MappedEvent, (marker = [m.envelope digest t] ∨ marker = []) →
      marker.filter (fun event => (compactionEventId event).isSome) = [] := by
    rintro marker (rfl | rfl) <;> rfl
  subst hmap
  refine ⟨?_, ?_, reported.1, ?_, ?_⟩
  · show Identified digest conversationId items s (if completed then
      reported.2.completeCompaction t x reported.1 else reported.2)
    split
    · exact hdone
    · exact hident
  · show Extends _ m
      (if completed then reported.2.completeCompaction t x reported.1 else reported.2)
    split
    · refine ⟨hkept, hitems, fun u y hy => ?_, fun u hu => mem_cons_of_mem _ ?_⟩
      · rcases mem_cons.1 hy with heq | hold
        · exact .inr (Prod.mk.inj heq)
        · rw [hcompl.1] at hold
          exact .inl hold
      · rw [hcompl.2]
        exact hu
    · refine ⟨hkept, hitems, fun u y hy => ?_, fun u hu => ?_⟩
      · rw [hcompl.1] at hy
        exact .inl hy
      · rw [hcompl.2]
        exact hu
  · show (if completed then reported.2.completeCompaction t x reported.1
      else reported.2).compactionOperationByOccurrence.lookup (t, i) = _
    split <;> exact hknown
  · rw [filter_cons_of_pos rfl, hmarker]
    · rfl
    · split
      · exact .inl rfl
      · exact .inr rfl

/-- An event that reports the completion of an occurrence by the operation
it is known by, with the item of a snapshot. -/
def ListedReport (digest : String → String) (conversationId : String) (items : CompactionItems)
    (m : CodexEventMapper) (t : String) (k : ℕ) (event : MappedEvent) : Prop :=
  ∃ operation, m.compactionOperationByOccurrence.lookup (t, k) = some operation ∧
    event = compactionEnvelope digest conversationId t (some (items.listed t k))
      .completed operation k

theorem ListedReport.mono (h : ListedReport digest conversationId items m t k event)
    (hext : Extends own m m') :
    ListedReport digest conversationId items m' t k event := by
  obtain ⟨operation, hget, heq⟩ := h
  exact ⟨operation, hext.known _ _ hget, heq⟩

/-- The items that only a snapshot has. -/
def IsListed (items : CompactionItems) (u x : String) : Prop := ∃ j, x = items.listed u j

/-- What is mapped of a snapshot: every event of a compaction reports one
that occurred. -/
def ListedReports (digest : String → String) (conversationId : String) (items : CompactionItems)
    (s : CompactionHistory) (m : CodexEventMapper) (events : List MappedEvent) : Prop :=
  ∀ event ∈ events, (compactionEventId event).isSome →
    ∃ t k, k < s.occurred.count t ∧ ListedReport digest conversationId items m t k event

theorem ListedReports.append {events events' : List MappedEvent}
    (h : ListedReports digest conversationId items s m events) (hext : Extends own m m')
    (h' : ListedReports digest conversationId items s m' events') :
    ListedReports digest conversationId items s m' (events ++ events') := by
  intro event hev hsome
  rcases mem_append.1 hev with hold | hnew
  · obtain ⟨t, k, hcnt, hrep⟩ := h event hold hsome
    exact ⟨t, k, hcnt, hrep.mono hext⟩
  · exact h' event hnew hsome

variable {claims : String → Bool}

/-- **The compactions of a snapshot's turn**, from one on whose predecessors
are known. -/
theorem Identified.mapCompactions {n : ℕ}
    (h : Identified digest conversationId items s m) (hcnt : k + n ≤ s.occurred.count t)
    (hbef : ∀ j < k, (m.compactionOperationByOccurrence.lookup (t, j)).isSome)
    (hpl : s.CompactionsPlaced digest conversationId t claims m
      ((range' k n).map (items.listed t)) k)
    (hmap : CodexEventMapper.mapCompactions digest conversationId t claims m
      ((range' k n).map (items.listed t)) k = mapped) :
    Identified digest conversationId items s mapped.1 ∧ Extends (IsListed items) m mapped.1 ∧
      ListedReports digest conversationId items s mapped.1 mapped.2 ∧
      ∀ j, k ≤ j → j < k + n → ∃ event ∈ mapped.2,
        ListedReport digest conversationId items mapped.1 t j event := by
  induction n generalizing k m mapped with
  | zero =>
    subst hmap
    exact ⟨h, .refl, nofun, fun j hle hlt => absurd hlt (by omega)⟩
  | succ n ih =>
    obtain ⟨hclm, hpl⟩ := hpl
    generalize hitem : m.compactionItem digest conversationId t (items.listed t k) true true
      (claims (items.listed t k)) (some k) = item at hpl
    have hnames : ∀ j, items.listed t k = items.live t j ∨ items.listed t k = items.listed t j →
        j = k := by
      rintro j (heq | heq)
      · exact absurd heq.symm items.apart
      · exact (items.listed_injective heq).symm
    have hord : (m.compactionOrdinal t (items.listed t k) (some k)).1 = k :=
      h.ordinal_eq (fun k' hk' => h.item hk' k (.inr rfl)) fun _ => .inl rfl
    obtain ⟨hident, hext, operation, hknown, hreports⟩ :=
      h.compactionItem rfl (by omega) hnames hord hbef hclm hitem
    have hext : Extends (IsListed items) m item.1 := by
      refine ⟨hext.known, fun u x hx => (hext.items u x hx).imp_right ?_,
        fun u x hx => (hext.completed u x hx).imp_right ?_, hext.turns⟩ <;>
      · rintro ⟨rfl, rfl⟩
        exact ⟨k, rfl⟩
    generalize hrest : CodexEventMapper.mapCompactions digest conversationId t claims item.1
      ((range' (k + 1) n).map (items.listed t)) (k + 1) = rest
    have hmap : (rest.1, item.2 ++ rest.2) = mapped := by
      rw [← hmap, ← hrest, ← hitem]
      rfl
    have hbef' : ∀ j < k + 1, (item.1.compactionOperationByOccurrence.lookup (t, j)).isSome := by
      intro j hj
      rcases Nat.lt_succ_iff_lt_or_eq.1 hj with hlt | rfl
      · obtain ⟨o, ho⟩ := isSome_iff_exists.1 (hbef j hlt)
        rw [hext.known _ _ ho]
        rfl
      · rw [hknown]
        rfl
    obtain ⟨hident', hext', hreports', hall⟩ :=
      ih hident (by omega) hbef' hpl hrest
    have hmem : ∀ event, event ∈ item.2 ∧ (compactionEventId event).isSome ↔
        event = compactionEnvelope digest conversationId t
          (some (items.listed t k)) .completed operation k := by
      intro event
      have hfilter : event ∈ item.2.filter (fun event =>
          (compactionEventId event).isSome) ↔ _ := mem_filter
      rw [← hfilter, hreports, mem_singleton]
      rfl
    subst hmap
    refine ⟨hident', hext.trans hext', ?_, fun j hle hlt => ?_⟩
    · have hfst : ListedReports digest conversationId items s item.1 item.2 :=
        fun event hev hsome =>
          ⟨t, k, by omega, operation, hknown, (hmem event).1 ⟨hev, hsome⟩⟩
      exact hfst.append hext' hreports'
    · by_cases hj : j = k
      · subst hj
        refine ⟨_, mem_append_left _ ((hmem _).2 rfl).1, ?_⟩
        exact ⟨operation, hext'.known _ _ hknown, rfl⟩
      · obtain ⟨event, hev, hrep⟩ := hall j (by omega) (by omega)
        exact ⟨event, mem_append_right _ hev, hrep⟩

variable {control : Bool}

/-- A turn is prepared without a word on its compactions. -/
theorem prepareSnapshotTurn_rest
    (h : m.prepareSnapshotTurn digest inherited latest control turn = some (claims, m')) :
    SameCompactions m m' ∧ m'.pendingManualCompactionId = m.pendingManualCompactionId := by
  unfold CodexEventMapper.prepareSnapshotTurn at h
  repeat' split at h
  all_goals first
    | cases h; done
    | (obtain ⟨-, rfl⟩ := Prod.mk.inj (Option.some.inj h); exact ⟨⟨⟨rfl, rfl, rfl⟩, rfl, rfl⟩, rfl⟩)

/-- A turn that is skipped is inherited or has no compactions. -/
theorem prepareSnapshotTurn_eq_none
    (h : m.prepareSnapshotTurn digest inherited latest control turn = none) :
    turn.nativeTurnId ∈ inherited ∨ turn.compactions = [] := by
  unfold CodexEventMapper.prepareSnapshotTurn at h
  split at h
  · next hinherited => exact .inl hinherited
  · repeat' split at h
    all_goals first
      | cases h; done
      | skip
    next hnil =>
      rw [Bool.and_eq_true, List.isEmpty_iff] at hnil
      exact .inr hnil.1

include h

/-- **A turn of a snapshot.** -/
theorem Identified.mapSnapshotTurn
    {turn : ListedTurn} (hcnt : turn.compactions ≤ s.occurred.count turn.nativeTurnId)
    (hpl : match m.prepareSnapshotTurn digest inherited latest control
        (turn.snapshotTurn items) with
      | some (claims, prepared) =>
        s.CompactionsPlaced digest conversationId turn.nativeTurnId claims prepared
          (turn.snapshotTurn items).compactions 0
      | none => True) (hmap : m.mapSnapshotTurn digest conversationId inherited latest control
      (turn.snapshotTurn items) = mapped) :
    Identified digest conversationId items s mapped.1 ∧ Extends (IsListed items) m mapped.1 ∧
      ListedReports digest conversationId items s mapped.1 mapped.2 ∧
      (turn.nativeTurnId ∉ inherited → ∀ j < turn.compactions, ∃ event ∈ mapped.2,
        ListedReport digest conversationId items mapped.1 turn.nativeTurnId j event) := by
  unfold CodexEventMapper.mapSnapshotTurn at hmap
  split at hmap
  · next claims prepared hprep =>
    rw [hprep] at hpl
    obtain ⟨hsame, hpend⟩ := prepareSnapshotTurn_rest hprep
    obtain ⟨hident, hext, hreports, hall⟩ :=
      (h.congr hsame.toSameOccurrences hpend).mapCompactions (by omega)
        (fun _ hj => absurd hj (by omega)) hpl hmap
    exact ⟨hident, (Extends.congr hsame).trans hext, hreports,
      fun _ j hj => hall j (by omega) (by omega)⟩
  · next hprep =>
    subst hmap
    refine ⟨h, .refl, (by rintro _ ⟨⟩), fun hown j hj => ?_⟩
    have hnil := (prepareSnapshotTurn_eq_none hprep).resolve_left hown
    have hlen : turn.compactions = 0 := by
      simpa [ListedTurn.snapshotTurn] using congrArg length hnil
    omega

/-- **The turns of a snapshot.** -/
theorem Identified.mapSnapshotTurns {turns : List (ListedTurn × Bool)}
    (hcnt : ∀ turn ∈ turns, turn.1.compactions ≤ s.occurred.count turn.1.nativeTurnId)
    (hpl : s.TurnsPlaced digest conversationId inherited latest m
      (turns.map fun turn => (turn.1.snapshotTurn items, turn.2)))
    (hmap : CodexEventMapper.mapSnapshotTurns digest conversationId inherited latest m
      (turns.map fun turn => (turn.1.snapshotTurn items, turn.2)) = mapped) :
    Identified digest conversationId items s mapped.1 ∧ Extends (IsListed items) m mapped.1 ∧
      ListedReports digest conversationId items s mapped.1 mapped.2 ∧
      ∀ turn ∈ turns, turn.1.nativeTurnId ∉ inherited → ∀ j < turn.1.compactions,
        ∃ event ∈ mapped.2,
          ListedReport digest conversationId items mapped.1 turn.1.nativeTurnId j event := by
  induction turns generalizing m mapped with
  | nil =>
    subst hmap
    exact ⟨h, .refl, nofun, nofun⟩
  | cons turn turns ih =>
    obtain ⟨turn, control⟩ := turn
    obtain ⟨hfst, hpl⟩ := hpl
    generalize hturn : m.mapSnapshotTurn digest conversationId inherited latest control
      (turn.snapshotTurn items) = first at hpl
    generalize hrest : CodexEventMapper.mapSnapshotTurns digest conversationId inherited latest
      first.1 (turns.map fun turn => (turn.1.snapshotTurn items, turn.2)) = rest
    have hmap : (rest.1, first.2 ++ rest.2) = mapped := by
      rw [← hmap, ← hrest, ← hturn]
      rfl
    obtain ⟨hident, hext, hreports, hall⟩ :=
      h.mapSnapshotTurn (hcnt _ mem_cons_self) hfst hturn
    obtain ⟨hident', hext', hreports', hall'⟩ :=
      ih hident (fun turn hmem => hcnt turn (mem_cons_of_mem _ hmem)) hpl hrest
    subst hmap
    refine ⟨hident', hext.trans hext', hreports.append hext' hreports',
      fun other hne hown j hj => ?_⟩
    rcases mem_cons.1 hne with rfl | hne
    · obtain ⟨event, hev, hrep⟩ := hall hown j hj
      exact ⟨event, mem_append_left _ hev, hrep.mono hext'⟩
    · obtain ⟨event, hev, hrep⟩ := hall' other hne hown j hj
      exact ⟨event, mem_append_right _ hev, hrep⟩

omit h

/-- A deduplicated list has no other events. -/
theorem mem_of_mem_dedupe (h : event ∈ CodexEventMapper.dedupe events) : event ∈ events := by
  have hstep : ∀ (old : List MappedEvent) (new : MappedEvent),
      ∀ e ∈ CodexEventMapper.replaceSame old new, e ∈ old ∨ e = new := by
    intro old new e he
    unfold CodexEventMapper.replaceSame at he
    split at he
    · exact mem_or_eq_of_mem_set he
    · exact mem_concat.1 he
  have hfold : ∀ (events old : List MappedEvent),
      ∀ e ∈ events.foldl CodexEventMapper.replaceSame old, e ∈ old ∨ e ∈ events := by
    intro events
    induction events with
    | nil => exact fun old e he => .inl he
    | cons new events ih =>
      intro old e he
      rcases ih _ e he with hold | hmem
      · rcases hstep old new e hold with hold | rfl
        · exact .inl hold
        · exact .inr mem_cons_self
      · exact .inr (mem_cons_of_mem _ hmem)
  exact (hfold events [] event h).resolve_left nofun

/-- Of the events with one id, a deduplicated list has one. -/
theorem exists_mem_dedupe (h : event ∈ events) :
    ∃ e ∈ CodexEventMapper.dedupe events, compactionEventId e = compactionEventId event := by
  have hnew : ∀ (old : List MappedEvent) (new : MappedEvent),
      new ∈ CodexEventMapper.replaceSame old new := by
    intro old new
    unfold CodexEventMapper.replaceSame
    split
    · next i hi =>
      exact mem_set (findIdx?_eq_some_iff_getElem.1 hi).1 new
    · exact mem_concat_self
  have hkept : ∀ (old : List MappedEvent) (new : MappedEvent), ∀ e ∈ old,
      ∃ e' ∈ CodexEventMapper.replaceSame old new, compactionEventId e' = compactionEventId e := by
    intro old new e he
    unfold CodexEventMapper.replaceSame
    split
    · next i hi =>
      obtain ⟨hlt, hsame, -⟩ := findIdx?_eq_some_iff_getElem.1 hi
      obtain ⟨k, hk⟩ := mem_iff_getElem?.1 he
      have hget : old[i]? = some old[i] := getElem?_eq_getElem hlt
      by_cases heq : k = i
      · subst heq
        obtain rfl : old[k] = e := Option.some.inj (hget.symm.trans hk)
        rw [Bool.and_eq_true, decide_eq_true_iff] at hsame
        exact ⟨new, mem_set hlt new, hsame.2.symm⟩
      · refine ⟨e, mem_iff_getElem?.2 ⟨k, ?_⟩, rfl⟩
        rw [getElem?_set_of_eq_some hget, if_neg heq, hk]
    · exact ⟨e, mem_append_left _ he, rfl⟩
  have hfold : ∀ (events old : List MappedEvent), ∀ e, (e ∈ old ∨ e ∈ events) →
      ∃ e' ∈ events.foldl CodexEventMapper.replaceSame old,
        compactionEventId e' = compactionEventId e := by
    intro events
    induction events with
    | nil => exact fun old e he => ⟨e, he.resolve_right nofun, rfl⟩
    | cons new events ih =>
      intro old e he
      have hor : e ∈ old ∨ e = new ∨ e ∈ events := he.imp_right mem_cons.1
      rcases hor with hold | rfl | hmem
      · obtain ⟨e', he', heq⟩ := hkept old new e hold
        obtain ⟨e'', he'', heq'⟩ := ih _ e' (.inl he')
        exact ⟨e'', he'', heq'.trans heq⟩
      · exact ih _ e (.inl (hnew old e))
      · exact ih _ e (.inr hmem)
  exact hfold events [] event (.inr h)

/-- **`thread/compacted`** in the place of an item. -/
theorem Identified.threadCompacted (h : Identified digest conversationId items s m)
    {id : Option String} (hfst : t ∉ m.nativeTurnsWithCompletedCompactionItem)
    (hcnt : i < s.occurred.count t)
    (hunk : m.compactionOrdinalByItem.lookup (t, "thread:" ++ id.getD "completed") = none)
    (hnext : IsNext m (t, i)) (hclm : s.ClaimsRightly m (t, i) true)
    (hmap : m.threadCompacted digest conversationId t id = mapped) :
    Identified digest conversationId items s mapped.1 ∧
      Extends (fun u y => u = t ∧ y = "thread:" ++ id.getD "completed") m mapped.1 ∧
      t ∈ mapped.1.nativeTurnsWithCompletedCompactionItem ∧
      ∃ operation, mapped.1.compactionOperationByOccurrence.lookup (t, i) = some operation ∧
        mapped.2 = [compactionEnvelope digest conversationId t none .completed operation i] := by
  unfold CodexEventMapper.threadCompacted at hmap
  rw [if_neg hfst] at hmap
  dsimp only at hmap
  generalize hmark : (if (m.remuxTurnByNative.lookup t).isNone then
    { m with compactionNativeTurns := t :: m.compactionNativeTurns } else m) = marked at hmap
  have hrest : SameCompactions m marked ∧
      marked.pendingManualCompactionId = m.pendingManualCompactionId := by
    subst hmark
    split <;> exact ⟨⟨⟨rfl, rfl, rfl⟩, rfl, rfl⟩, rfl⟩
  obtain ⟨⟨hoccurrences, hcompl, hturns⟩, hpend⟩ := hrest
  have hident := h.congr hoccurrences hpend
  obtain ⟨hitem, hop, -⟩ := hoccurrences
  have hnext' : IsNext marked (t, i) := by
    unfold IsNext
    rw [hop]
    exact hnext
  have hclm' : s.ClaimsRightly marked (t, i) true := by
    unfold ClaimsRightly
    rw [hop, hpend]
    exact hclm
  have hord : (marked.compactionOrdinal t ("thread:" ++ id.getD "completed") none).1 = i := by
    refine hident.ordinal_eq (fun k hk => ?_) fun _ => .inr ⟨rfl, hnext'⟩
    rw [hitem, hunk] at hk
    cases hk
  rw [hord] at hmap
  generalize hrep : (marked.compactionOrdinal t ("thread:" ++ id.getD "completed")
    none).2.compactionOperation digest conversationId t i true = reported at hmap
  obtain ⟨hident', hknown, hkept, hpend', hgot⟩ := hident.occurrence hcnt
    (by rintro j (heq | heq) <;> [exact absurd heq.symm items.live_ne;
      exact absurd heq.symm items.listed_ne]) hord hnext'.2 hclm' hrep
  have hsame : reported.2.compactionOrdinalByItem = (marked.compactionOrdinal t
        ("thread:" ++ id.getD "completed") none).2.compactionOrdinalByItem ∧
      reported.2.completedCompactionItems = m.completedCompactionItems ∧
      reported.2.nativeTurnsWithCompletedCompactionItem =
        m.nativeTurnsWithCompletedCompactionItem := by
    rw [← hrep, ← hcompl, ← hturns]
    unfold CodexEventMapper.compactionOperation CodexEventMapper.compactionOrdinal
    repeat' split
    all_goals exact ⟨rfl, rfl, rfl⟩
  subst hmap
  refine ⟨?_, ⟨fun c operation hc => hkept c operation (hop ▸ hc), fun u y hy => ?_,
    fun u y hy => .inl (hsame.2.1 ▸ hy), fun u hu => mem_cons_of_mem _ ?_⟩,
    mem_cons_self, reported.1, hknown, rfl⟩
  · refine hident'.release ⟨rfl, rfl, rfl⟩ rfl fun operationId hid => ?_
    have hid := hpend'.symm.trans hid
    have hop' := hgot rfl hnext'.1 operationId hid
    rw [hop'] at hknown
    exact ⟨_, hknown, (hclm' hnext'.1 operationId hid).1 rfl⟩
  · have hy : (reported.2.compactionOrdinalByItem.lookup (u, y)).isSome := hy
    rw [hsame.1] at hy
    obtain ⟨k, hk⟩ := isSome_iff_exists.1 hy
    rcases lookup_compactionOrdinal hord hk with hold | ⟨heq, -⟩
    · rw [← hitem, hold]
      exact .inl rfl
    · exact .inr (Prod.mk.inj heq)
  · rw [hsame.2.2]
    exact hu

/-! ## The reports -/

/-- **Every report is of the compaction it is about**, by the operation the
mapper knows it by, and a compaction that was completed was reported so. -/
structure Reported (digest : String → String) (conversationId : String) (items : CompactionItems)
    (s : CompactionHistory) : Prop where
  identified : Identified digest conversationId items s s.mapper
  thread : ∀ t x, (s.mapper.compactionOrdinalByItem.lookup (t, "thread:" ++ x)).isSome →
    t ∈ s.mapper.nativeTurnsWithCompletedCompactionItem
  items : ∀ t i, (t, items.live t i) ∈ s.mapper.completedCompactionItems → (t, i) ∈ s.finished
  reports : ∀ report ∈ s.reports, ∃ x phase operation,
    report.2 = compactionEnvelope digest conversationId report.1.1 x phase operation
      report.1.2 ∧ s.mapper.compactionOperationByOccurrence.lookup report.1 = some operation
  finished : ∀ c ∈ s.finished, c.2 < s.occurred.count c.1 ∧ ∃ report ∈ s.reports,
    compactionEventId report.2 =
      some ("codex-event-" ++ digest (reportKey conversationId c.1 .completed c.2))

/-- What does not touch the reports keeps them, with what the mapper
knows. -/
theorem Reported.congr (h : Reported digest conversationId items s)
    (hident : Identified digest conversationId items s' s'.mapper)
    (same : SameCompactions s.mapper s'.mapper) (hreports : s'.reports = s.reports)
    (hfin : s'.finished = s.finished)
    (hcnt : ∀ t, s.occurred.count t ≤ s'.occurred.count t) :
    Reported digest conversationId items s' := by
  obtain ⟨-, h2, h3, h4, h5⟩ := h
  refine ⟨hident, ?_, ?_, ?_, fun c hc => ?_⟩
  iterate 3
    simp only [same.item, same.operation, same.completed, same.turns, hreports, hfin]; assumption
  rw [hreports]
  exact (h5 c (hfin ▸ hc)).imp_left fun hlt => Nat.lt_of_lt_of_le hlt (hcnt c.1)

theorem turnStarted_rest (digest : String → String) (m : CodexEventMapper) (t : String) :
    SameCompactions m (m.turnStarted digest t).1 ∧
      (m.turnStarted digest t).1.pendingManualCompactionId = m.pendingManualCompactionId := by
  unfold CodexEventMapper.turnStarted
  repeat' split
  all_goals exact ⟨⟨⟨rfl, rfl, rfl⟩, rfl, rfl⟩, rfl⟩

/-- The end of a native turn lets go of what is pending, or leaves it. -/
theorem turnCompleted_rest (digest : String → String) (m : CodexEventMapper)
    (nativeSessionId t : String) (outcome : ProviderTurnOutcome) :
    (m.turnCompleted digest nativeSessionId t outcome).1 = m ∨
      (m.turnCompleted digest nativeSessionId t outcome).1 =
        { m with pendingManualCompactionId := none } := by
  unfold CodexEventMapper.turnCompleted
  repeat' split
  all_goals first
    | exact .inl rfl
    | exact .inr rfl

/-- **What one notification reports** is added to the reports. -/
theorem Reported.add (h : Reported digest conversationId items s)
    (hident : Identified digest conversationId items s' s'.mapper)
    (hext : Extends own s.mapper s'.mapper) (hthr : ∀ u x, own u ("thread:" ++ x) →
      u ∈ s'.mapper.nativeTurnsWithCompletedCompactionItem)
    (hitems : ∀ u i, own u (items.live u i) →
      (u, items.live u i) ∈ s'.mapper.completedCompactionItems → (u, i) ∈ s'.finished)
    (hoccurred : s'.occurred = s.occurred) {new : List (Compaction × MappedEvent)}
    (hreports : s'.reports = s.reports ++ new) (hnew : ∀ report ∈ new, ∃ x phase operation,
      report.2 = compactionEnvelope digest conversationId report.1.1 x phase operation report.1.2 ∧
      s'.mapper.compactionOperationByOccurrence.lookup report.1 = some operation)
    (hsub : ∀ c ∈ s.finished, c ∈ s'.finished)
    (hfin : ∀ c ∈ s'.finished, c ∈ s.finished ∨ c.2 < s.occurred.count c.1 ∧ ∃ report ∈ new,
      compactionEventId report.2 = some ("codex-event-" ++
        digest (reportKey conversationId c.1 .completed c.2))) :
    Reported digest conversationId items s' := by
  refine ⟨hident, fun u x hx => ?_, fun u i hi => ?_, fun report hrep => ?_, fun c hc => ?_⟩
  · rcases hext.items u _ hx with hold | hown
    · exact hext.turns u (h.thread u x hold)
    · exact hthr u x hown
  · rcases hext.completed u _ hi with hold | hown
    · exact hsub _ (h.items u i hold)
    · exact hitems u i hown hi
  · rw [hreports] at hrep
    rcases mem_append.1 hrep with hold | hlast
    · obtain ⟨x, phase, operation, heq, hget⟩ := h.reports report hold
      exact ⟨x, phase, operation, heq, hext.known _ _ hget⟩
    · exact hnew report hlast
  · rw [hreports, hoccurred]
    rcases hfin c hc with hold | ⟨hlt, report, hlast, heq⟩
    · obtain ⟨hlt, report, hmem, heq⟩ := h.finished c hold
      exact ⟨hlt, report, mem_append_left _ hmem, heq⟩
    · exact ⟨hlt, report, mem_append_right _ hlast, heq⟩

/-- A compaction whose completion was reported is not reported again. -/
theorem Reported.again {c : Compaction} (h : Reported digest conversationId items s)
    (hc : c ∈ s.finished) : Reported digest conversationId items
      { s with reports := s.reports ++ [], finished := c :: s.finished } :=
  h.add (h.identified.world rfl rfl rfl)
    (show Extends (fun _ _ => False) s.mapper s.mapper from .refl) nofun nofun rfl rfl nofun
    (fun _ => mem_cons_of_mem _) fun _ hc' => .inl <| (mem_cons.1 hc').elim (fun heq => heq ▸ hc) id

/-- The reports of one notification. -/
theorem reportsOf_eq {c : Compaction}
    (h : events.filter (fun event => (compactionEventId event).isSome) = [event]) :
    reportsOf c events = [(c, event)] := by
  unfold reportsOf
  rw [h]
  rfl

/-- **A live report of an item.** -/
theorem Reported.live (h : Reported digest conversationId items s) (hcnt : i < s.occurred.count t)
    (hpl : s.Placed digest conversationId inherited items (.live t i completed))
    (hmap : s.mapper.compactionItem digest conversationId t (items.live t i) completed false true
      none = mapped) :
    Reported digest conversationId items { s with
      mapper := mapped.1
      reports := s.reports ++ reportsOf (t, i) mapped.2
      finished := if completed then (t, i) :: s.finished else s.finished } := by
  obtain ⟨hnext, hclm⟩ := hpl
  have hid := h.identified
  by_cases hskip : (!false && completed &&
      s.mapper.completedCompactionItems.contains (t, items.live t i)) = true
  · -- The item's completion was reported before.
    rw [Bool.not_false, Bool.true_and, Bool.and_eq_true, contains_eq_mem,
      decide_eq_true_iff] at hskip
    obtain ⟨rfl, hdone⟩ := hskip
    have hmem := h.items t i hdone
    have hnone : mapped = (s.mapper, []) := by
      rw [← hmap]
      unfold CodexEventMapper.compactionItem
      simpa using hdone
    subst hnone
    exact h.again hmem
  · have hnames : ∀ j, items.live t i = items.live t j ∨ items.live t i = items.listed t j →
        j = i := by
      rintro j (heq | heq)
      · exact (items.live_injective heq).symm
      · exact absurd heq items.apart
    have hord : (s.mapper.compactionOrdinal t (items.live t i) none).1 = i :=
      hid.ordinal_eq (fun k hk => hid.item hk i (.inl rfl)) fun hnone =>
        .inr ⟨rfl, hnext (by rw [hnone]; rfl)⟩
    have hbef : ∀ j < i, (s.mapper.compactionOperationByOccurrence.lookup (t, j)).isSome := by
      intro j hj
      cases hitem : s.mapper.compactionOrdinalByItem.lookup (t, items.live t i) with
      | none => exact (hnext (by rw [hitem]; rfl)).2 j hj
      | some k =>
        obtain rfl := hid.item hitem i (.inl rfl)
        exact (hid.next t j).2 (Nat.lt_trans hj ((hid.next t k).1 (hid.known hitem)))
    obtain ⟨hident, hext, operation, hknown, hreports⟩ :=
      hid.compactionItem (Bool.not_eq_true _ ▸ hskip) hcnt hnames hord hbef hclm hmap
    refine h.add (hident.world rfl rfl rfl) hext ?_ ?_ rfl rfl ?_ ?_ ?_
    · rintro u x ⟨-, heq⟩
      exact absurd heq.symm items.live_ne
    · rintro u j ⟨rfl, heq⟩ hdone
      obtain rfl := items.live_injective heq
      split
      · exact mem_cons_self
      · next hnot =>
        -- What is only started is not among the completed items.
        obtain rfl : completed = false := Bool.not_eq_true _ ▸ hnot
        rcases hext.completed u _ hdone with hold | -
        · exact h.items u j hold
        · refine h.items u j ?_
          rw [← hmap] at hdone
          unfold CodexEventMapper.compactionItem CodexEventMapper.compactionOperation
            CodexEventMapper.compactionOrdinal at hdone
          simp only [Bool.not_false, Bool.and_false, Bool.false_and, Bool.false_eq_true,
            if_false] at hdone
          repeat' split at hdone
          all_goals exact hdone
    · intro report hrep
      rw [reportsOf_eq hreports] at hrep
      obtain rfl := mem_singleton.1 hrep
      exact ⟨_, _, operation, rfl, hknown⟩
    · intro c hc
      split
      · exact mem_cons_of_mem _ hc
      · exact hc
    · intro c hc
      have hc : c ∈ if completed then (t, i) :: s.finished else s.finished := hc
      split at hc
      · next hcompl =>
        rcases mem_cons.1 hc with rfl | hc
        · refine .inr ⟨hcnt, _, by rw [reportsOf_eq hreports]; exact mem_cons_self, ?_⟩
          rw [hcompl]
          rfl
        · exact .inl hc
      · exact .inl hc

/-- **A report by `thread/compacted`.** -/
theorem Reported.threadCompacted (h : Reported digest conversationId items s) {id : Option String}
    (hcnt : i < s.occurred.count t)
    (hpl : s.Placed digest conversationId inherited items (.threadCompacted t i id))
    (hmap : s.mapper.threadCompacted digest conversationId t id = mapped) :
    Reported digest conversationId items { s with
      mapper := mapped.1
      reports := s.reports ++ reportsOf (t, i) mapped.2
      finished := (t, i) :: s.finished } := by
  have hid := h.identified
  have hpl : if t ∈ s.mapper.nativeTurnsWithCompletedCompactionItem then (t, i) ∈ s.finished
    else IsNext s.mapper (t, i) ∧ s.ClaimsRightly s.mapper (t, i) true := hpl
  split at hpl
  · next hdone =>
    have hnone : mapped = (s.mapper, []) := by
      rw [← hmap]
      exact if_pos hdone
    subst hnone
    exact h.again hpl
  · next hfst =>
    obtain ⟨hnext, hclm⟩ := hpl
    have hunk : s.mapper.compactionOrdinalByItem.lookup
        (t, "thread:" ++ id.getD "completed") = none := by
      rw [← not_isSome_iff_eq_none]
      exact fun hsome => hfst (h.thread t _ hsome)
    obtain ⟨hident, hext, hdone, operation, hknown, hreports⟩ :=
      hid.threadCompacted hfst hcnt hunk hnext hclm hmap
    have hone : reportsOf (t, i) mapped.2 = [((t, i), compactionEnvelope digest
        conversationId t none .completed operation i)] := by
      rw [hreports]
      rfl
    refine h.add (hident.world rfl rfl rfl) hext ?_ ?_ rfl rfl ?_
      (fun c hc => mem_cons_of_mem _ hc) ?_
    · rintro u x ⟨rfl, -⟩
      exact hdone
    · rintro u j ⟨-, heq⟩
      exact absurd heq items.live_ne
    · intro report hrep
      rw [hone] at hrep
      obtain rfl := mem_singleton.1 hrep
      exact ⟨_, _, operation, rfl, hknown⟩
    · intro c hc
      rcases mem_cons.1 hc with rfl | hc
      · exact .inr ⟨hcnt, _, by rw [hone]; exact mem_cons_self, rfl⟩
      · exact .inl hc

/-- The compaction that an item of a snapshot stands for. -/
theorem listedCompaction_eq (h : k < s.occurred.count t) :
    s.listedCompaction items t (items.listed t k) = (t, k) := by
  unfold listedCompaction
  have hnd : ((range' 0 (s.occurred.count t)).map (items.listed t)).Nodup :=
    (nodup_map_iff_inj_on nodup_range').2 fun _ _ _ _ heq => items.listed_injective heq
  have hlen : k < ((range' 0 (s.occurred.count t)).map (items.listed t)).length := by
    simpa using h
  have hget : ((range' 0 (s.occurred.count t)).map (items.listed t))[k] = items.listed t k := by
    simp
  rw [← hget, hnd.idxOf_getElem]

/-- **A snapshot.** -/
theorem Reported.snapshot (h : Reported digest conversationId items s) {turns : List ListedTurn}
    (hcnt : ∀ turn ∈ turns, turn.compactions ≤ s.occurred.count turn.nativeTurnId)
    (hpl : s.Placed digest conversationId inherited items (.snapshot turns))
    (hmap : s.mapper.mapThreadSnapshot digest conversationId inherited
      (turns.map (·.snapshotTurn items)) = mapped) :
    Reported digest conversationId items { s with
      mapper := mapped.1
      reports := s.reports ++ s.listedReports items mapped.2
      finished := (turns.filter (·.nativeTurnId ∉ inherited)).flatMap (fun turn =>
        (range' 0 turn.compactions).map (turn.nativeTurnId, ·)) ++ s.finished } := by
  have hturns : (turns.map (·.snapshotTurn items)).map
      (fun turn => (turn, s.mapper.snapshotControl turn)) =
        (turns.map fun turn => (turn, s.mapper.snapshotControl (turn.snapshotTurn items))).map
          fun turn => (turn.1.snapshotTurn items, turn.2) := by
    rw [map_map, map_map]
    rfl
  unfold CodexEventMapper.mapThreadSnapshot at hmap
  rw [hturns] at hmap
  unfold Placed at hpl
  dsimp only at hpl
  rw [hturns] at hpl
  generalize hall : CodexEventMapper.mapSnapshotTurns digest conversationId inherited _ s.mapper _ =
    all at hmap
  obtain ⟨hident, hext, hreports, hevery⟩ :=
    h.identified.mapSnapshotTurns (fun turn hturn => by
      obtain ⟨turn, hmem, rfl⟩ := mem_map.1 hturn
      exact hcnt turn hmem) hpl hall
  subst hmap
  have htag : ∀ event ∈ CodexEventMapper.dedupe all.2,
      (compactionEventId event).isSome → ∃ c : Compaction, ∃ operation,
        (c, event) ∈ s.listedReports items (CodexEventMapper.dedupe all.2) ∧
        event = compactionEnvelope digest conversationId c.1
          (some (items.listed c.1 c.2)) .completed operation c.2 ∧
        all.1.compactionOperationByOccurrence.lookup c = some operation := by
    intro event hev hsome
    obtain ⟨t, k, hk, operation, hget, rfl⟩ := hreports event (mem_of_mem_dedupe hev) hsome
    refine ⟨(t, k), operation, mem_filterMap.2 ⟨_, hev, ?_⟩, rfl, hget⟩
    show some (s.listedCompaction items t (items.listed t k), _) = _
    rw [listedCompaction_eq hk]
  refine h.add (hident.world rfl rfl rfl) hext ?_ ?_ rfl rfl ?_
    (fun c hc => mem_append_right _ hc) ?_
  · rintro u x ⟨j, heq⟩
    exact absurd heq.symm items.listed_ne
  · rintro u i ⟨j, heq⟩
    exact absurd heq items.apart
  · intro report hrep
    obtain ⟨event, hev, htagged⟩ := mem_filterMap.1 hrep
    have hsome : (compactionEventId event).isSome := by
      cases event with
      | compaction => rfl
      | turn | usage => cases htagged
    obtain ⟨t, k, hk, operation, hget, rfl⟩ := hreports event (mem_of_mem_dedupe hev) hsome
    have htagged : some (s.listedCompaction items t (items.listed t k), _) = some report := htagged
    rw [listedCompaction_eq hk] at htagged
    cases htagged
    exact ⟨_, _, operation, rfl, hget⟩
  · intro c hc
    rcases mem_append.1 hc with hlist | hold
    · obtain ⟨turn, hturn, hc⟩ := mem_flatMap.1 hlist
      obtain ⟨hturn, hown⟩ := mem_filter.1 hturn
      obtain ⟨j, hj, rfl⟩ := mem_map.1 hc
      have hj : j < turn.compactions := by
        rw [mem_range'_1] at hj
        omega
      obtain ⟨event, hev, operation, -, heq⟩ := hevery _
        (mem_map.2 ⟨turn, hturn, rfl⟩) (of_decide_eq_true hown) j hj
      obtain ⟨event', hev', hsame⟩ := exists_mem_dedupe hev
      have hsome : (compactionEventId event').isSome := by
        rw [hsame, heq]
        rfl
      obtain ⟨c, operation', htagged, -, -⟩ := htag event' hev' hsome
      refine .inr ⟨Nat.lt_of_lt_of_le hj (hcnt turn hturn), _, htagged, ?_⟩
      rw [hsame, heq]
      rfl
    · exact .inl hold

/-- **Every placed step keeps the reports.** -/
theorem Reported.compactionStep (h : Reported digest conversationId items s)
    {action : CompactionAction} (hpl : s.Placed digest conversationId inherited items action)
    (hstep : s.compactionStep digest conversationId nativeSessionId inherited items action =
      some s') : Reported digest conversationId items s' := by
  have hid := h.identified
  cases action with
  | occur t =>
    cases hstep
    refine h.congr (hid.occur t) ⟨⟨rfl, rfl, rfl⟩, rfl, rfl⟩ rfl rfl fun u => ?_
    rw [count_append]
    exact Nat.le_add_right _ _
  | expectManual operationId =>
    obtain ⟨hnew, hs'⟩ := ite_none_right_eq_some.1 hstep
    cases hs'
    exact h.congr (hid.expectManual hnew) ⟨⟨rfl, rfl, rfl⟩, rfl, rfl⟩ rfl rfl fun _ => le_rfl
  | clearManual operationId =>
    cases hstep
    unfold CodexEventMapper.clearManualCompaction
    split
    · exact h.congr (hid.letGo ⟨rfl, rfl, rfl⟩ rfl) ⟨⟨rfl, rfl, rfl⟩, rfl, rfl⟩ rfl rfl
        fun _ => le_rfl
    · exact h.congr hid ⟨⟨rfl, rfl, rfl⟩, rfl, rfl⟩ rfl rfl fun _ => le_rfl
  | expectTurn remuxTurnId =>
    cases hstep
    have hid' : Identified digest conversationId items s (s.mapper.expectTurn remuxTurnId) :=
      hid.congr ⟨rfl, rfl, rfl⟩ rfl
    exact h.congr (hid'.world rfl rfl rfl) ⟨⟨rfl, rfl, rfl⟩, rfl, rfl⟩ rfl rfl fun _ => le_rfl
  | bindTurn remuxTurnId t =>
    cases hstep
    have hid' : Identified digest conversationId items s (s.mapper.bindTurn remuxTurnId t) :=
      hid.congr ⟨rfl, rfl, rfl⟩ rfl
    exact h.congr (hid'.world rfl rfl rfl) ⟨⟨rfl, rfl, rfl⟩, rfl, rfl⟩ rfl rfl fun _ => le_rfl
  | turnStarted t =>
    cases hstep
    obtain ⟨hsame, hpend⟩ := turnStarted_rest digest s.mapper t
    exact h.congr ((hid.congr hsame.toSameOccurrences hpend).world rfl rfl rfl) hsame rfl rfl
      fun _ => le_rfl
  | turnCompleted t outcome =>
    cases hstep
    rcases turnCompleted_rest digest s.mapper nativeSessionId t outcome with heq | heq <;> rw [heq]
    · rw [if_pos rfl]
      exact h.congr hid ⟨⟨rfl, rfl, rfl⟩, rfl, rfl⟩ rfl rfl fun _ => le_rfl
    · split
      · next hnone =>
        have hid' : Identified digest conversationId items s
            { s.mapper with pendingManualCompactionId := none } := hid.congr ⟨rfl, rfl, rfl⟩ hnone
        exact h.congr (hid'.world rfl rfl rfl) ⟨⟨rfl, rfl, rfl⟩, rfl, rfl⟩ rfl rfl fun _ => le_rfl
      · exact h.congr (hid.letGo ⟨rfl, rfl, rfl⟩ rfl) ⟨⟨rfl, rfl, rfl⟩, rfl, rfl⟩ rfl rfl
          fun _ => le_rfl
  | live t i completed =>
    obtain ⟨hcnt, hs'⟩ := ite_none_right_eq_some.1 hstep
    cases hs'
    exact h.live hcnt hpl rfl
  | threadCompacted t i id =>
    obtain ⟨hcnt, hs'⟩ := ite_none_right_eq_some.1 hstep
    cases hs'
    exact h.threadCompacted hcnt hpl rfl
  | snapshot turns =>
    obtain ⟨hcnt, hs'⟩ := ite_none_right_eq_some.1 hstep
    cases hs'
    exact h.snapshot hcnt hpl rfl

theorem Reported.empty : Reported digest conversationId items empty := by
  refine ⟨⟨nofun, nofun, fun t j => ?_, fun t j hj => ?_, nofun, nofun, nofun, nodup_nil,
    nofun⟩, fun t x hx => ?_, nofun, nofun, nofun⟩
  · show (none : Option CompactionOperation).isSome ↔ j < (none : Option ℕ).getD 0
    simp
  · cases hj
  · cases hx

theorem reported
    (h : ((compactionMachine digest conversationId nativeSessionId inherited items).restrict
      fun s => s.Placed digest conversationId inherited items).Reachable s) :
    Reported digest conversationId items s := by
  refine h.rule .empty fun u action v _ hrep hstep => ?_
  obtain ⟨hpl, hstep⟩ := Machine.restrict_step_eq_some.1 hstep
  exact hrep.compactionStep hpl hstep

end CompactionHistory

/-! ## The ids -/

namespace CodexEventMapper

variable {conversationId t t' : String} {i i' : ℕ} {phase phase' : CompactionPhase}

theorem notMem_digits {c : Char} (hc : c.isDigit = false) (n : ℕ) : c ∉ (toString n).toList := by
  intro hmem
  have hmem : c ∈ n.repr.toList := hmem
  rw [Nat.toList_repr] at hmem
  rw [Nat.isDigit_of_mem_toDigits (by decide) (by decide) hmem] at hc
  cases hc

theorem digits_inj (h : (toString i).toList = (toString i').toList) : i = i' :=
  Nat.repr_injective (String.toList_inj.1 h)

theorem append_digits_inj {before : String} (h : before ++ toString i = before ++ toString i') :
    i = i' := by
  have hchars := congrArg String.toList h
  simp only [String.toList_append] at hchars
  exact digits_inj (append_cancel_left hchars)

/-- A number at the end of a text can be told, behind what is no digit. -/
theorem concat_digits_inj {c : Char} (hc : c.isDigit = false) {before before' : List Char}
    (h : before ++ c :: (toString i).toList = before' ++ c :: (toString i').toList) :
    before = before' ∧ i = i' :=
  (append_cons_inj (notMem_digits hc i) (notMem_digits hc i') h).imp_right digits_inj

/-- **The key of an occurrence** has its turn and its ordinal. -/
theorem occurrenceKey_inj
    (h : occurrenceKey conversationId t i = occurrenceKey conversationId t' i') :
    t = t' ∧ i = i' := by
  have hkey : ∀ u n, (occurrenceKey conversationId u n).toList =
      (conversationId.toList ++ '\x00' :: u.toList ++ '\x00' :: "occurrence".toList) ++
        '-' :: (toString n).toList := fun u n => by
    unfold occurrenceKey
    simp
  have hchars := congrArg String.toList h
  rw [hkey, hkey] at hchars
  obtain ⟨hturn, hi⟩ := concat_digits_inj (by decide) hchars
  have hturn := append_cancel_right hturn
  exact ⟨String.toList_inj.1 (cons.inj (append_cancel_left hturn)).2, hi⟩

theorem phase_text_inj (h : phase.text.toList = phase'.text.toList) : phase = phase' := by
  cases phase <;> cases phase' <;> first | rfl | (revert h; decide)

/-- The id of an automatic operation has the digest of its occurrence. -/
theorem automaticOperation_inj {digest : String → String}
    (h : (automaticOperation digest conversationId t i).operationId =
      (automaticOperation digest conversationId t' i').operationId) :
    (digest (occurrenceKey conversationId t i)).toList.take 24 =
      (digest (occurrenceKey conversationId t' i')).toList.take 24 := by
  have hid : ∀ u n, (automaticOperation digest conversationId u n).operationId =
      "codex-auto-compact-" ++
        String.ofList ((digest (occurrenceKey conversationId u n)).toList.take 24) :=
    fun _ _ => rfl
  rw [hid, hid] at h
  have hchars := congrArg String.toList h
  simp only [String.toList_append, String.toList_ofList] at hchars
  exact append_cancel_left hchars

/-- **The key of a report** has its turn, its phase and its ordinal. -/
theorem reportKey_inj
    (h : reportKey conversationId t phase i = reportKey conversationId t' phase' i') :
    t = t' ∧ phase = phase' ∧ i = i' := by
  have hkey : ∀ u p n, (reportKey conversationId u p n).toList =
      ((conversationId.toList ++ '\x00' :: u.toList ++ "\x00\x00context/compaction".toList) ++
        '/' :: (CompactionPhase.text p).toList ++ '\x00' :: "occurrence".toList) ++
          '-' :: (toString n).toList := fun u p n => by
    unfold reportKey
    simp
  have hslash : ∀ p, '/' ∉ (CompactionPhase.text p).toList := fun p => by cases p <;> decide
  have hchars := congrArg String.toList h
  rw [hkey, hkey] at hchars
  obtain ⟨hrest, hi⟩ := concat_digits_inj (by decide) hchars
  obtain ⟨hturn, hph⟩ := append_cons_inj (hslash phase) (hslash phase') (append_cancel_right hrest)
  have hturn := append_cancel_right hturn
  exact ⟨String.toList_inj.1 (cons.inj (append_cancel_left hturn)).2, phase_text_inj hph, hi⟩

/-- **The subject of a compaction** has its turn and its ordinal. -/
theorem compactionSubject_inj (h : compactionSubject t i = compactionSubject t' i') :
    t = t' ∧ i = i' := by
  have hkey : ∀ u n, (compactionSubject u n).toList =
      ("codex:context-compaction:".toList ++ u.toList) ++
        ':' :: (toString n).toList := fun u n => by
    unfold compactionSubject
    simp
  have hchars := congrArg String.toList h
  rw [hkey, hkey] at hchars
  obtain ⟨hturn, hi⟩ := concat_digits_inj (by decide) hchars
  exact ⟨String.toList_inj.1 (append_cancel_left hturn), hi⟩

end CodexEventMapper

/-! ## One compaction, one operation -/

namespace CompactionHistory

/-- A report of a compaction. -/
def IsReport (s : CompactionHistory) (c : Compaction) (phase : CompactionPhase)
    (operation : CompactionOperation) (subject : Option String) (eventId : String) : Prop :=
  ∃ t x, (c, MappedEvent.compaction t x phase operation subject eventId) ∈ s.reports

/-- The digest tells what is hashed for the compactions of a thread apart,
by 24 digits where those are taken, and no registered operation has the id
of an automatic one. -/
structure Uncollided (digest : String → String) (conversationId : String)
    (s : CompactionHistory) : Prop where
  operation : ∀ t i, i < s.occurred.count t → ∀ t' i', i' < s.occurred.count t' →
    (digest (CodexEventMapper.occurrenceKey conversationId t i)).toList.take 24 =
      (digest (CodexEventMapper.occurrenceKey conversationId t' i')).toList.take 24 →
    CodexEventMapper.occurrenceKey conversationId t i =
      CodexEventMapper.occurrenceKey conversationId t' i'
  report : ∀ t phase i, i < s.occurred.count t → ∀ t' phase' i', i' < s.occurred.count t' →
    digest (CodexEventMapper.reportKey conversationId t phase i) =
      digest (CodexEventMapper.reportKey conversationId t' phase' i') →
    CodexEventMapper.reportKey conversationId t phase i =
      CodexEventMapper.reportKey conversationId t' phase' i'
  registered : ∀ registration ∈ s.registrations, ∀ t i, i < s.occurred.count t →
    (CodexEventMapper.automaticOperation digest conversationId t i).operationId ≠ registration.1

variable {digest : String → String} {conversationId : String} {items : CompactionItems}
  {s : CompactionHistory}

variable {c c' : Compaction} {phase : CompactionPhase} {operation : CompactionOperation}

/-- What a report carries, by its compaction. -/
theorem Reported.report_eq (h : Reported digest conversationId items s) {subject : Option String}
    {eventId : String} (hrep : s.IsReport c phase operation subject eventId) :
    s.mapper.compactionOperationByOccurrence.lookup c = some operation ∧
      subject = some (CodexEventMapper.compactionSubject c.1 c.2) ∧
      eventId = "codex-event-" ++
        digest (CodexEventMapper.reportKey conversationId c.1 phase c.2) := by
  obtain ⟨t, x, hmem⟩ := hrep
  obtain ⟨y, phase', operation', heq, hget⟩ := h.reports _ hmem
  obtain ⟨-, -, hph, hop, hsubj, heventId⟩ := MappedEvent.compaction.inj heq
  subst hph hop
  exact ⟨hget, hsubj, heventId⟩

/-- **An operation is of one compaction.** -/
theorem Reported.eq_of_operation (h : Reported digest conversationId items s)
    (huncollided : Uncollided digest conversationId s) {operation' : CompactionOperation}
    (hc : s.mapper.compactionOperationByOccurrence.lookup c = some operation)
    (hc' : s.mapper.compactionOperationByOccurrence.lookup c' = some operation')
    (heq : operation.operationId = operation'.operationId) : c = c' := by
  have hid := h.identified
  have hcnt := hid.occurred c.1 c.2 (by rw [hc]; rfl)
  have hcnt' := hid.occurred c'.1 c'.2 (by rw [hc']; rfl)
  rcases hid.operation hc with hauto | ⟨id, p, hman, hp, hat⟩
  · rcases hid.operation hc' with hauto' | ⟨id', p', hman', hp', hat'⟩
    · rw [hauto, hauto'] at heq
      obtain ⟨ht, hi⟩ := CodexEventMapper.occurrenceKey_inj
        (huncollided.operation _ _ hcnt _ _ hcnt' (CodexEventMapper.automaticOperation_inj heq))
      exact Prod.ext ht hi
    · rw [hauto, hman'] at heq
      exact absurd heq (huncollided.registered (id', p') hp' _ _ hcnt)
  · rcases hid.operation hc' with hauto' | ⟨id', p', hman', hp', hat'⟩
    · rw [hman, hauto'] at heq
      exact absurd heq.symm (huncollided.registered (id, p) hp _ _ hcnt')
    · rw [hman, hman'] at heq
      obtain rfl : id = id' := heq
      rw [hid.eq_of_registered hp hp'] at hat
      exact Option.some.inj (hat.symm.trans hat')

/-- **An event is of one compaction and one phase.** -/
theorem eq_of_eventId (huncollided : Uncollided digest conversationId s) {phase' : CompactionPhase}
    (hc : c.2 < s.occurred.count c.1) (hc' : c'.2 < s.occurred.count c'.1)
    (heq : "codex-event-" ++ digest (CodexEventMapper.reportKey conversationId c.1 phase c.2) =
      "codex-event-" ++ digest (CodexEventMapper.reportKey conversationId c'.1 phase' c'.2)) :
    c = c' ∧ phase = phase' := by
  have hchars := congrArg String.toList heq
  simp only [String.toList_append] at hchars
  have hdigest := String.toList_inj.1 (append_cancel_left hchars)
  obtain ⟨ht, hph, hi⟩ :=
    CodexEventMapper.reportKey_inj (huncollided.report _ _ _ hc _ _ _ hc' hdigest)
  exact ⟨Prod.ext ht hi, hph⟩

end CompactionHistory

open CompactionHistory

/-- **One compaction, one operation.** Where the reports are placed, those
of one compaction carry one operation and subject and one event id for each
phase, and those of different ones different ones; a compaction that was
completed is reported so; and an operation that was registered is only
given to the first compaction that occurred afterwards, and to that one
unless the mapper let go of it before. -/
theorem one_compaction_one_operation {digest : String → String}
    {conversationId nativeSessionId : String} {inherited : List String} {items : CompactionItems}
    {s : CompactionHistory}
    (h : ((compactionMachine digest conversationId nativeSessionId inherited items).restrict
      fun s => s.Placed digest conversationId inherited items).Reachable s)
    (huncollided : Uncollided digest conversationId s) :
    (∀ c phase operation subject eventId phase' operation' subject' eventId',
      s.IsReport c phase operation subject eventId →
      s.IsReport c phase' operation' subject' eventId' →
      operation = operation' ∧ subject = subject' ∧ (phase = phase' → eventId = eventId')) ∧
    (∀ c phase operation subject eventId c' phase' operation' subject' eventId',
      s.IsReport c phase operation subject eventId →
      s.IsReport c' phase' operation' subject' eventId' → c ≠ c' →
      operation.operationId ≠ operation'.operationId ∧ subject ≠ subject' ∧ eventId ≠ eventId') ∧
    (∀ c ∈ s.finished, ∃ operation subject eventId,
      s.IsReport c .completed operation subject eventId) ∧
    (∀ operationId p, (operationId, p) ∈ s.registrations →
      ∀ c phase operation subject eventId, s.IsReport c phase operation subject eventId →
      (operation.operationId = operationId → compactionAt s.occurred p = some c) ∧
      (operationId ∉ s.withdrawn → compactionAt s.occurred p = some c →
        operation.operationId = operationId)) := by
  have hreported := reported h
  have hid := hreported.identified
  have hcount : ∀ {c operation}, s.mapper.compactionOperationByOccurrence.lookup c =
      some operation → c.2 < s.occurred.count c.1 := fun {c _} hc =>
    hid.occurred c.1 c.2 (by rw [hc]; rfl)
  refine ⟨?_, ?_, fun c hc => ?_, ?_⟩
  · intro c phase operation subject eventId phase' operation' subject' eventId' hreport hreport'
    obtain ⟨hlookup, rfl, rfl⟩ := hreported.report_eq hreport
    obtain ⟨hlookup', rfl, rfl⟩ := hreported.report_eq hreport'
    exact ⟨Option.some.inj (hlookup.symm.trans hlookup'), rfl, fun hphase => by rw [hphase]⟩
  · intro c phase operation subject eventId c' phase' operation' subject' eventId' hreport hreport'
      hne
    obtain ⟨hlookup, rfl, rfl⟩ := hreported.report_eq hreport
    obtain ⟨hlookup', rfl, rfl⟩ := hreported.report_eq hreport'
    refine ⟨fun heq => hne (hreported.eq_of_operation huncollided hlookup hlookup' heq),
      fun heq => hne ?_, fun heq => hne ?_⟩
    · obtain ⟨ht, hi⟩ := CodexEventMapper.compactionSubject_inj (Option.some.inj heq)
      exact Prod.ext ht hi
    · exact (eq_of_eventId huncollided (hcount hlookup) (hcount hlookup') heq).1
  · obtain ⟨hlt, ⟨c', event⟩, hmem, hsame⟩ := hreported.finished c hc
    obtain ⟨x, phase, operation, heq, hlookup⟩ := hreported.reports _ hmem
    dsimp only at heq hlookup hsame
    subst heq
    obtain ⟨rfl, rfl⟩ := eq_of_eventId huncollided (hcount hlookup) hlt (Option.some.inj hsame)
    exact ⟨_, _, _, _, _, hmem⟩
  · intro operationId p hp c phase operation subject eventId hreport
    obtain ⟨hlookup, -, -⟩ := hreported.report_eq hreport
    constructor
    · rintro rfl
      rcases hid.operation hlookup with hauto | ⟨id, q, hmanual, hq, hat⟩
      · exact absurd (congrArg CompactionOperation.operationId hauto).symm
          (huncollided.registered _ hp _ _ (hcount hlookup))
      · obtain rfl : operation.operationId = id := congrArg CompactionOperation.operationId hmanual
        rw [hid.eq_of_registered hp hq]
        exact hat
    · intro hkept hat
      rcases hid.given hp hkept with ⟨c', hat', hgot⟩ | ⟨-, hnot⟩
      · cases hat.symm.trans hat'
        rw [Option.some.inj (hlookup.symm.trans hgot)]
      · exact absurd (hlookup.symm.trans (hnot c hat)) nofun

/-- Items with numbers for ids. -/
def numberedItems : CompactionItems where
  live _ i := "live-" ++ toString i
  listed _ i := "item-" ++ toString i
  live_injective h := CodexEventMapper.append_digits_inj h
  listed_injective h := CodexEventMapper.append_digits_inj h
  apart h := by
    have hchars := congrArg String.toList h
    simp at hchars
  live_ne h := by
    have hchars := congrArg String.toList h
    simp at hchars
  listed_ne h := by
    have hchars := congrArg String.toList h
    simp at hchars

/-- A compaction that was asked for is reported live and in a snapshot. -/
def manualRun : List CompactionAction :=
  [.expectManual "command", .occur "turn", .live "turn" 0 false, .live "turn" 0 true,
    .threadCompacted "turn" 0 none, .snapshot [⟨"turn", 1, true⟩]]

/-- A compaction that was asked for: all its reports carry its operation. -/
theorem one_compaction_one_operation_manual :
    ∃ s, ((compactionMachine id "conversation" "session" [] numberedItems).restrict fun s =>
        s.Placed id "conversation" [] numberedItems).Reachable s ∧
      ("turn", 0) ∈ s.finished ∧ ∀ phase operation subject eventId,
        s.IsReport ("turn", 0) phase operation subject eventId →
          operation.operationId = "command" := by
  have hrun : ((compactionMachine id "conversation" "session" [] numberedItems).restrict fun s =>
      s.Placed id "conversation" [] numberedItems).exec manualRun .empty =
        some (((compactionMachine id "conversation" "session" [] numberedItems).restrict fun s =>
          s.Placed id "conversation" [] numberedItems).run manualRun .empty) :=
    Machine.exec_eq_run (by decide +kernel)
  generalize hs : ((compactionMachine id "conversation" "session" [] numberedItems).restrict
    fun s => s.Placed id "conversation" [] numberedItems).run manualRun .empty = s at hrun
  have hoccurred : s.occurred = ["turn"] := by
    rw [← hs]
    decide +kernel
  have hregistrations : s.registrations = [("command", 0)] := by
    rw [← hs]
    decide +kernel
  -- There is one compaction, so that nothing is there to be taken for it.
  have hone : ∀ t i, i < s.occurred.count t → t = "turn" ∧ i = 0 := by
    intro t i hi
    rw [hoccurred, count_singleton] at hi
    split at hi
    · next heq => exact ⟨(beq_iff_eq.1 heq).symm, by omega⟩
    · exact absurd hi (Nat.not_lt_zero i)
  have huncollided : Uncollided id "conversation" s := by
    refine ⟨fun t i hi t' i' hi' _ => ?_, fun t phase i hi t' phase' i' hi' heq => heq,
      fun registration hmem t i hi => ?_⟩
    · obtain ⟨rfl, rfl⟩ := hone t i hi
      obtain ⟨rfl, rfl⟩ := hone t' i' hi'
      rfl
    · obtain ⟨rfl, rfl⟩ := hone t i hi
      rw [hregistrations] at hmem
      obtain rfl := mem_singleton.1 hmem
      decide +kernel
  refine ⟨s, ⟨manualRun, hrun⟩, ?_, fun phase operation subject eventId hreport => ?_⟩
  · rw [← hs]
    decide +kernel
  · refine ((one_compaction_one_operation ⟨manualRun, hrun⟩ huncollided).2.2.2 "command" 0 ?_ _ _ _
      _ _ hreport).2 ?_ ?_
    · rw [hregistrations]
      exact mem_cons_self
    · rw [← hs]
      decide +kernel
    · rw [hoccurred]
      rfl

/-- **An operation that goes to an older compaction.** The compaction
occurs, and an operation is registered before a snapshot that lists it is
read: the compaction gets the operation, and no compaction has occurred
since it was registered. -/
theorem older_compaction_gets_operation :
    ∃ s, (compactionMachine id "conversation" "session" [] numberedItems).Reachable s ∧
      ("command", 1) ∈ s.registrations ∧ compactionAt s.occurred 1 = none ∧
      ∃ subject eventId,
        s.IsReport ("turn", 0) .completed ⟨"command", .manual⟩ subject eventId := by
  have hrun : (compactionMachine id "conversation" "session" [] numberedItems).exec
      [.occur "turn", .expectManual "command", .snapshot [⟨"turn", 1, true⟩]] .empty =
        some ((compactionMachine id "conversation" "session" [] numberedItems).run
          [.occur "turn", .expectManual "command", .snapshot [⟨"turn", 1, true⟩]] .empty) :=
    Machine.exec_eq_run (by decide +kernel)
  refine ⟨_, ⟨_, hrun⟩, by decide +kernel, by decide +kernel,
    some (CodexEventMapper.compactionSubject "turn" 0),
    "codex-event-" ++ CodexEventMapper.reportKey "conversation" "turn" .completed 0, "turn",
    some "item-0", ?_⟩
  decide +kernel

end Providers

end Remux
