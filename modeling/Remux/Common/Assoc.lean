import Mathlib.Data.List.AList
import Mathlib.Data.List.Dedup

/-!
# Finite maps

A hash map is modelled by Mathlib's association list with distinct keys
(`AList`), whose entries stand in the order the map is iterated in. What
the language leaves open, that order, a model opens too: `Assoc.Reorder`
relates two lists with the same entries, and every lookup agrees across
it.
-/

namespace Remux

open AList Option

/-- A finite map from `K` to `V`. -/
abbrev Assoc (K V : Type*) := AList fun _ : K => V

namespace Assoc

variable {K V : Type*} [DecidableEq K]

/-- The number of keys. -/
def size (m : Assoc K V) : ℕ := m.entries.length

/-- The same entries, in another order of iteration. -/
def Reorder (m m' : Assoc K V) : Prop := m.entries.Perm m'.entries

instance [DecidableEq V] (m m' : Assoc K V) : Decidable (Reorder m m') :=
  inferInstanceAs (Decidable (m.entries.Perm m'.entries))

/-- Change the value at a key, if there is one. -/
def modify (k : K) (f : V → V) (m : Assoc K V) : Assoc K V :=
  match m.lookup k with
  | some v => m.insert k (f v)
  | none => m

/-- `retain` together with a change of the values: a key for whose value
there is no other goes. -/
def filterMapValues (f : V → Option V) (m : Assoc K V) : Assoc K V where
  entries := m.entries.filterMap fun entry => (f entry.2).map fun v => ⟨entry.1, v⟩
  nodupKeys := by
    refine List.nodupKeys_iff_pairwise.2 (m.nodupKeys.pairwise_ne.filterMap _ ?_)
    rintro ⟨k, v⟩ ⟨k', v'⟩ hne ⟨_, w⟩ hw ⟨_, w'⟩ hw'
    obtain ⟨_, _, heq⟩ := Option.map_eq_some_iff.1 hw
    obtain ⟨_, _, heq'⟩ := Option.map_eq_some_iff.1 hw'
    cases heq
    cases heq'
    exact hne

/-- Every value changes, as by `values_mut`. -/
def mapValues (f : V → V) (m : Assoc K V) : Assoc K V := m.filterMapValues fun v => some (f v)

/-- `entry(..).or_default().push(..)`: a value more in the list at a key. -/
def push {α : Type*} (k : K) (a : α) (m : Assoc K (List α)) : Assoc K (List α) :=
  m.insert k ((m.lookup k).getD [] ++ [a])

variable {m m' : Assoc K V} {k k' : K} {v w : V} {f : V → V}

omit [DecidableEq K] in
theorem Reorder.size_eq (h : Reorder m m') : size m = size m' := List.Perm.length_eq h

theorem Reorder.lookup_eq (h : Reorder m m') (k : K) : m.lookup k = m'.lookup k :=
  perm_lookup h

theorem mem_entries_iff : (⟨k, v⟩ : Σ _ : K, V) ∈ m.entries ↔ m.lookup k = some v :=
  mem_lookup_iff.symm

theorem lookup_insert_eq : (m.insert k v).lookup k' = if k' = k then some v else m.lookup k' := by
  by_cases h : k' = k
  · rw [if_pos h, h, lookup_insert]
  · rw [if_neg h, lookup_insert_ne h]

theorem lookup_erase_eq : (m.erase k).lookup k' = if k' = k then none else m.lookup k' := by
  by_cases h : k' = k
  · rw [if_pos h, h, lookup_erase]
  · rw [if_neg h, lookup_erase_ne h]

/-- One value is modified, the others stay. -/
theorem lookup_modify_eq :
    (m.modify k f).lookup k' = if k' = k then (m.lookup k).map f else m.lookup k' := by
  unfold modify
  cases h : m.lookup k with
  | some v => rw [lookup_insert_eq]; rfl
  | none =>
    by_cases hk : k' = k
    · rw [if_pos hk, hk, h]; rfl
    · rw [if_neg hk]

theorem lookup_push {α : Type*} {m : Assoc K (List α)} {a : α} : (m.push k a).lookup k' =
      if k' = k then some ((m.lookup k').getD [] ++ [a]) else m.lookup k' := by
  rw [push, lookup_insert_eq]
  by_cases h : k' = k
  · rw [if_pos h, if_pos h, h]
  · rw [if_neg h, if_neg h]

/-- What a key has is what the map makes of its value. -/
theorem lookup_filterMapValues {f : V → Option V} :
    (m.filterMapValues f).lookup k = (m.lookup k).bind f := by
  refine ext fun v => ?_
  rw [← mem_entries_iff, bind_eq_some_iff]
  show _ ∈ List.filterMap _ _ ↔ _
  rw [List.mem_filterMap]
  constructor
  · rintro ⟨⟨k, w⟩, hmem, heq⟩
    obtain ⟨v, hv, heq⟩ := map_eq_some_iff.1 heq
    cases heq
    exact ⟨w, mem_entries_iff.1 hmem, hv⟩
  · rintro ⟨w, hw, hv⟩
    exact ⟨⟨k, w⟩, mem_entries_iff.2 hw, map_eq_some_iff.2 ⟨v, hv, rfl⟩⟩

theorem lookup_mapValues : (m.mapValues f).lookup k = (m.lookup k).map f := by
  rw [mapValues, lookup_filterMapValues]
  cases m.lookup k <;> rfl

theorem size_insert_of_lookup_eq_none (h : m.lookup k = none) :
    size (m.insert k v) = size m + 1 := by
  rw [size, entries_insert_of_notMem (lookup_eq_none.1 h)]
  rfl

/-- Erasing a key that is there shrinks the map by one. -/
theorem size_erase_of_lookup_eq_some (h : m.lookup k = some v) : size (m.erase k) + 1 = size m := by
  have hmem : k ∈ m.keys := mem_keys.1 (lookup_isSome.1 (by rw [h]; rfl))
  have hlen : ∀ m : Assoc K V, size m = m.keys.length := fun m => by
    simp [size, keys, List.keys]
  rw [hlen, hlen, keys_erase, List.length_erase_of_mem hmem]
  have := List.length_pos_of_mem hmem
  omega

theorem size_insert_of_lookup_eq_some (h : m.lookup k = some v) : size (m.insert k w) = size m := by
  rw [← size_erase_of_lookup_eq_some h, size, entries_insert, List.length_cons]
  rfl

/-! ## The map of a list -/

section

variable {α : Type*} (key : α → K) (value : α → V)

/-- The map that a list of entries is inserted into, one after another. -/
def insertAll (m : Assoc K V) (entries : List α) : Assoc K V :=
  entries.foldl (fun m entry => m.insert (key entry) (value entry)) m

variable {key value} {entries : List α}

/-- The keys are the old ones and those inserted. -/
theorem mem_insertAll_iff : k ∈ insertAll key value m entries ↔ k ∈ m ∨
    ∃ e ∈ entries, key e = k := by
  induction entries generalizing m with
  | nil => simp [insertAll]
  | cons entry entries ih =>
    rw [show insertAll key value m (entry :: entries) =
      insertAll key value (m.insert (key entry) (value entry)) entries from rfl, ih]
    simp only [mem_insert, List.mem_cons, exists_eq_or_imp, eq_comm (a := k)]
    tauto

/-- What is not inserted stays. -/
theorem lookup_insertAll_of_notMem (h : ∀ e ∈ entries, key e ≠ k) :
    (insertAll key value m entries).lookup k = m.lookup k := by
  induction entries generalizing m with
  | nil => rfl
  | cons entry entries ih =>
    rw [show insertAll key value m (entry :: entries) =
      insertAll key value (m.insert (key entry) (value entry)) entries from rfl,
      ih fun e he => h e (List.mem_cons_of_mem _ he), lookup_insert_eq,
      if_neg fun heq => h entry List.mem_cons_self heq.symm]

/-- Where the key determines the entry, each entry is found under its
key. -/
theorem lookup_insertAll_iff (hkey : key.Injective) :
    (insertAll key value ∅ entries).lookup k = some v ↔ ∃ e ∈ entries, key e = k ∧ value e = v := by
  suffices h : ∀ e ∈ entries, ∀ m : Assoc K V,
      (insertAll key value m entries).lookup (key e) = some (value e) by
    constructor
    · intro hget
      have hmem : k ∈ insertAll key value ∅ entries := lookup_isSome.1 (by rw [hget]; rfl)
      rcases mem_insertAll_iff.1 hmem with hnil | ⟨e, he, rfl⟩
      · exact absurd hnil (notMem_empty k)
      · rw [h e he, some.injEq] at hget
        exact ⟨e, he, rfl, hget⟩
    · rintro ⟨e, he, rfl, rfl⟩
      exact h e he ∅
  induction entries with
  | nil => exact fun e he => absurd he List.not_mem_nil
  | cons entry entries ih =>
    intro e he m
    show (insertAll key value (m.insert (key entry) (value entry)) entries).lookup (key e) = _
    by_cases hmem : e ∈ entries
    · exact ih e hmem _
    · obtain rfl := (List.mem_cons.1 he).resolve_right hmem
      have hne : ∀ e' ∈ entries, key e' ≠ key e := fun e' he' heq => hmem (hkey heq ▸ he')
      rw [lookup_insertAll_of_notMem hne, lookup_insert_eq, if_pos rfl]

/-- And there are as many as there are distinct ones. -/
theorem size_insertAll [DecidableEq α] (hkey : key.Injective) :
    size (insertAll key value ∅ entries) = entries.dedup.length := by
  have hkeys : ((insertAll key value ∅ entries).keys).Perm (entries.dedup.map key) := by
    refine (List.perm_ext_iff_of_nodup (keys_nodup _) ((List.nodup_dedup _).map hkey)).2 fun k => ?_
    rw [← mem_keys, mem_insertAll_iff]
    simp only [notMem_empty, false_or, List.mem_map, List.mem_dedup]
  have hlen := hkeys.length_eq
  rw [List.length_map] at hlen
  rw [← hlen]
  simp [size, keys, List.keys]

end

end Assoc

end Remux
