import Remux.Codex.Model.OperationQueue

/-!
# The operations on the queue

What each operation on a pending queue makes of its entries and of the
marks, and what a step of a drive can do to the thread.
-/

namespace Remux

namespace ThreadPendingQueue

variable {queue queue' : ThreadPendingQueue} {entry : PendingQueueEntry} {id id' : ℕ}

/-- The ids of the entries, in order. -/
def ids (queue : ThreadPendingQueue) : List ℕ := queue.entries.map PendingQueueEntry.id

@[simp] theorem bump_entries : queue.bump.entries = queue.entries := rfl

@[simp] theorem bump_outcomeUnknown : queue.bump.outcomeUnknown = queue.outcomeUnknown := rfl

theorem mem_ids : id ∈ queue.ids ↔ ∃ entry ∈ queue.entries, entry.id = id := List.mem_map

theorem contains_iff : queue.contains id = true ↔ id ∈ queue.ids := by
  simp only [contains, List.any_eq_true, decide_eq_true_eq, mem_ids]

@[simp] theorem clear_entries : queue.clear.entries = [] := by
  unfold clear
  split
  · assumption
  · rfl

@[simp] theorem clear_ids : queue.clear.ids = [] := by rw [ids, clear_entries, List.map_nil]

theorem remove_entries :
    (queue.remove id).entries = queue.entries.filter fun entry => entry.id ≠ id := by
  unfold remove
  dsimp only
  split <;> rfl

@[simp] theorem remove_outcomeUnknown :
    (queue.remove id).outcomeUnknown = queue.outcomeUnknown.erase id := by
  unfold remove
  dsimp only
  split <;> rfl

theorem mem_remove_ids : id' ∈ (queue.remove id).ids ↔ id' ∈ queue.ids ∧ id' ≠ id := by
  simp only [mem_ids, remove_entries, List.mem_filter, decide_eq_true_eq]
  constructor
  · rintro ⟨entry, ⟨hent, hne⟩, rfl⟩
    exact ⟨⟨entry, hent, rfl⟩, hne⟩
  · rintro ⟨⟨entry, hent, rfl⟩, hne⟩
    exact ⟨entry, ⟨hent, hne⟩, rfl⟩

theorem remove_ids_sublist : (queue.remove id).ids.Sublist queue.ids := by
  rw [ids, remove_entries]
  exact List.filter_sublist.map _

@[simp] theorem markOutcomeUnknown_entries :
    (queue.markOutcomeUnknown id).entries = queue.entries := by
  unfold markOutcomeUnknown
  split <;> rfl

@[simp] theorem markOutcomeUnknown_ids : (queue.markOutcomeUnknown id).ids = queue.ids := by
  rw [ids, markOutcomeUnknown_entries, ids]

/-- Marking adds the mark, if the entry is there. -/
theorem mem_markOutcomeUnknown : id' ∈ (queue.markOutcomeUnknown id).outcomeUnknown ↔
      id' ∈ queue.outcomeUnknown ∨ id' = id ∧ id ∈ queue.ids := by
  unfold markOutcomeUnknown
  by_cases hid : id ∈ queue.ids
  · rw [contains_iff.2 hid]
    by_cases hmark : id ∈ queue.outcomeUnknown
    · have hself : id' = id → id' ∈ queue.outcomeUnknown := fun h => h ▸ hmark
      simp only [hmark, hid, and_true, decide_true, Bool.not_true, Bool.false_or, if_true]
      tauto
    · simp only [hmark, hid, and_true, decide_false, Bool.not_true, Bool.false_or,
        Bool.false_eq_true, if_false, bump_outcomeUnknown, Finset.mem_insert]
      tauto
  · rw [Bool.eq_false_iff.2 fun h => hid (contains_iff.1 h)]
    simp only [hid, and_false, or_false, Bool.not_false, Bool.true_or, if_true]

theorem append_entries (h : entry.id ∉ queue.ids) :
    (queue.append entry).entries = queue.entries ++ [entry] := by
  unfold append
  rw [if_neg fun hin => h (contains_iff.1 hin)]
  rfl

theorem append_ids (h : entry.id ∉ queue.ids) :
    (queue.append entry).ids = queue.ids ++ [entry.id] := by
  rw [ids, append_entries h, List.map_append]
  rfl

@[simp] theorem append_outcomeUnknown :
    (queue.append entry).outcomeUnknown = queue.outcomeUnknown := by
  unfold append
  split <;> rfl

/-- What is popped is the front entry, and it is not marked. -/
theorem popFront_eq_some (h : queue.popFront = some (entry, queue')) :
    queue.entries = entry :: queue'.entries ∧ entry.id ∉ queue.outcomeUnknown ∧
      queue'.outcomeUnknown = queue.outcomeUnknown := by
  unfold popFront at h
  split at h
  · cases h
  · next front entries hents =>
    split at h
    · cases h
    · next hmark =>
      cases h
      exact ⟨hents, hmark, rfl⟩

/-- A queue is drivable when its front entry is not marked. -/
theorem hasDrivableEntries_iff : queue.hasDrivableEntries = true ↔
      ∃ entry entries, queue.entries = entry :: entries ∧ entry.id ∉ queue.outcomeUnknown := by
  unfold hasDrivableEntries
  cases queue.entries <;> simp

@[simp] theorem hasDrivableEntries_clear : queue.clear.hasDrivableEntries = false := by
  rw [hasDrivableEntries, clear_entries]
  rfl

end ThreadPendingQueue

variable {t t' : CodexThread} {answer : AppServerAnswer}

variable {entry : PendingQueueEntry}

@[simp] theorem CodexThread.hand_queue : (t.hand entry).queue = t.queue := by
  unfold hand
  split <;> rfl

@[simp] theorem CodexThread.hand_driving : (t.hand entry).driving = t.driving := by
  unfold hand
  split <;> rfl

@[simp] theorem CodexThread.hand_entryCounter : (t.hand entry).entryCounter = t.entryCounter := by
  unfold hand
  split <;> rfl

/-- A dispatch changes nothing but the runtime. -/
theorem DispatchPhase.step_fst (phase : DispatchPhase) :
    ∃ runtime, (phase.step t answer).1 = { t with runtime } := by
  rcases phase with kind | kind | turnId | _ | result
  · cases answer <;> exact ⟨_, rfl⟩
  · cases kind <;> rcases answer with (_ | turnId) | _ <;> exact ⟨_, rfl⟩
  all_goals exact ⟨_, rfl⟩

/-- A step of a drive leaves the queue as it is, or clears it, or pops the
front entry and hands it over. -/
theorem DrivePhase.step_fst (phase : DrivePhase) :
    (∃ runtime driving, (phase.step t answer).1 = { t with runtime, driving }) ∨
    (phase.step t answer).1 = { t with queue := t.queue.clear } ∨
    (phase = .popping ∧ ∃ entry queue, t.queue.popFront = some (entry, queue) ∧
      (phase.step t answer).1 = ({ t with queue } : CodexThread).hand entry) := by
  rcases phase with _ | _ | _ | _ | dispatch | effect | effect | effect | effect
  · exact .inl ⟨_, _, rfl⟩
  · simp only [step]
    split <;> exact .inl ⟨_, _, rfl⟩
  · exact .inl ⟨_, _, rfl⟩
  · simp only [step]
    cases hpop : t.queue.popFront with
    | none => exact .inl ⟨_, _, rfl⟩
    | some popped => exact .inr (.inr ⟨trivial, popped.1, popped.2, rfl, rfl⟩)
  · obtain ⟨runtime, hdispatch⟩ := @DispatchPhase.step_fst t answer dispatch
    rcases dispatch with kind | kind | turnId | _ | (_ | result)
    · exact .inl ⟨_, _, hdispatch⟩
    · exact .inl ⟨_, _, hdispatch⟩
    · exact .inl ⟨_, _, hdispatch⟩
    · exact .inl ⟨_, _, hdispatch⟩
    · exact .inr (.inl rfl)
    · exact .inl ⟨_, _, rfl⟩
  all_goals exact .inl ⟨_, _, rfl⟩

end Remux
