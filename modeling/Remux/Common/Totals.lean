import Mathlib.Algebra.BigOperators.Group.List.Basic
import Mathlib.Algebra.GroupWithZero.Nat
import Remux.Common.Assoc

/-!
# Totals over a finite map

A program that keeps a counter beside a map, adding a value's weight when
it goes in and subtracting it when it goes out, keeps the counter equal to
the total of the weights. `total` is that total, and the lemmas say what
each operation of the map does to it; an erasure and a replacement are
stated by addition, so that no weight is ever subtracted.
-/

namespace Remux

open List

namespace Assoc

variable {K V : Type*} [DecidableEq K] {m m' : Assoc K V} {k : K} {v w : V} {f : V → ℕ}

/-- The total of a weight over the values of a map. -/
def total (f : V → ℕ) (m : Assoc K V) : ℕ := (m.entries.map fun entry => f entry.2).sum

omit [DecidableEq K] in
@[simp] theorem total_empty : total f (∅ : Assoc K V) = 0 := rfl

omit [DecidableEq K] in
theorem Reorder.total_eq (h : Reorder m m') : total f m = total f m' :=
  (Perm.map _ h).sum_eq

/-- Erasing a key takes its weight out of the total. -/
theorem total_erase (h : m.lookup k = some v) : total f (m.erase k) + f v = total f m := by
  have hmem : (⟨k, v⟩ : Σ _ : K, V) ∈ m.entries := mem_entries_iff.2 h
  obtain ⟨v', before, after, -, hents, herase⟩ :=
    exists_of_kerase (mem_keys_of_mem hmem)
  have hval : v' = v := by
    refine m.nodupKeys.eq_of_mk_mem (a := k) ?_ hmem
    rw [hents]
    exact mem_append_right _ mem_cons_self
  have hsplit : total f m = (before.map fun entry => f entry.2).sum +
      (f v' + (after.map fun entry => f entry.2).sum) := by
    rw [total, hents, map_append, sum_append, map_cons, sum_cons]
  have hrest : total f (m.erase k) = (before.map fun entry => f entry.2).sum +
      (after.map fun entry => f entry.2).sum := by
    rw [total, show (m.erase k).entries = m.entries.kerase k from rfl, herase, map_append,
      sum_append]
  rw [hsplit, hrest, hval]
  omega

/-- A new key brings its weight. -/
theorem total_insert_of_lookup_eq_none (h : m.lookup k = none) :
    total f (m.insert k v) = total f m + f v := by
  rw [total, AList.entries_insert_of_notMem (AList.lookup_eq_none.1 h), map_cons,
    sum_cons, Nat.add_comm]
  rfl

/-- A replaced value takes its weight with it. -/
theorem total_insert (h : m.lookup k = some v) :
    total f (m.insert k w) + f v = total f m + f w := by
  have hins : total f (m.insert k w) = f w + total f (m.erase k) := by
    rfl
  rw [hins, ← total_erase h]
  omega

/-- One value's weight is within the total. -/
theorem le_total (h : m.lookup k = some v) : f v ≤ total f m := by
  rw [← total_erase h]
  exact Nat.le_add_left _ _

/-- Where only one key may have a weight, the total is at most its
weight. -/
theorem total_le_of_forall (hv : ∀ w, m.lookup k = some w → f w ≤ f v)
    (hother : ∀ k' w, k' ≠ k → m.lookup k' = some w → f w = 0) : total f m ≤ f v := by
  have hzero : ∀ m : Assoc K V, (∀ k' w, m.lookup k' = some w → f w = 0) → total f m = 0 := by
    intro m hm
    refine List.sum_eq_zero_iff_forall_eq_nat.2 fun weight hweight => ?_
    obtain ⟨⟨k', w⟩, hent, rfl⟩ := List.mem_map.1 hweight
    exact hm k' w (mem_entries_iff.1 hent)
  cases hget : m.lookup k with
  | none =>
    refine (hzero m fun k' w hw => hother k' w ?_ hw).trans_le (Nat.zero_le _)
    rintro rfl
    rw [hget] at hw
    cases hw
  | some w =>
    have hrest : total f (m.erase k) = 0 := by
      refine hzero _ fun k' w' hw' => ?_
      rw [lookup_erase_eq] at hw'
      split at hw'
      · cases hw'
      · next hne => exact hother k' w' hne hw'
    rw [← total_erase hget, hrest, Nat.zero_add]
    exact hv w hget

end Assoc

end Remux
