import Remux.Json.Model.Value
import Mathlib.Data.List.Perm.Basic

/-!
# Canonical form decides equality up to key order

`canonicalValue` sends two well-formed values to the same value exactly
when they are the same up to the order of their object keys
(`canonicalValue_eq_iff`). One direction follows the value, the other
the derivation of `SameUpToOrder`; both meet at an object, where the
entries of the two sides are permutations of one sorted list.
-/

namespace Remux

open List Value

/-- A permutation of a mapped list is the map of a permutation. -/
theorem exists_perm_of_perm_map {α β : Type*} {f : α → β} {l : List β} {xs : List α}
    (h : l.Perm (xs.map f)) : ∃ ys, xs.Perm ys ∧ l = ys.map f := by
  have hmap : Forall₂ (fun b a => b = f a) (xs.map f) xs := by
    rw [forall₂_map_left_iff]
    exact forall₂_same.2 fun _ _ => rfl
  obtain ⟨ys, hys, hperm⟩ := perm_comp_forall₂ h hmap
  refine ⟨ys, hperm.symm, ?_⟩
  rw [← forall₂_eq_eq_eq, forall₂_map_right_iff]
  exact hys

variable (es : List (String × Value))

theorem sortEntries_perm : (sortEntries es).Perm es :=
  perm_insertionSort _ es

/-- With no key twice, the sorted entries do not depend on the order the
entries came in. -/
theorem sortEntries_eq_of_perm {es fs : List (String × Value)} (hes : (es.map Prod.fst).Nodup)
    (h : es.Perm fs) : sortEntries es = sortEntries fs := by
  have hsort : ∀ l : List (String × Value),
      (sortEntries l).Pairwise fun left right => left.1 ≤ right.1 :=
    fun l => pairwise_insertionSort (fun left right : String × Value => left.1 ≤ right.1) l
  have hperm : (sortEntries es).Perm (sortEntries fs) :=
    (sortEntries_perm es).trans (h.trans (sortEntries_perm fs).symm)
  refine Perm.eq_of_pairwise ?_ (hsort es) (hsort fs) hperm
  intro a b ha hb hab hba
  have ha' : a ∈ es := (sortEntries_perm es).mem_iff.1 ha
  have hb' : b ∈ es := h.mem_iff.2 ((sortEntries_perm fs).mem_iff.1 hb)
  exact inj_on_of_nodup_map hes ha' hb' (le_antisymm hab hba)

theorem canonicalEntries_eq_map :
    canonicalEntries es = es.map fun e => (e.1, canonicalValue e.2) := by
  induction es with
  | nil => rfl
  | cons e es ih => rw [canonicalEntries, ih, map_cons]

/-- Rewriting the values keeps the keys. -/
theorem map_fst_canonicalEntries : (canonicalEntries es).map Prod.fst = es.map Prod.fst := by
  rw [canonicalEntries_eq_map, map_map]
  rfl

/-! ## Equal canonical forms -/

mutual

/-- **Values with one canonical form are the same up to key order.** The
recursion is on the left value; at an object the right side's entries
are first put in the order of the left side's. -/
theorem sameUpToOrder_of_canonicalValue_eq : ∀ {v w : Value},
    canonicalValue v = canonicalValue w → v.SameUpToOrder w
  | .array vs, w, h => by
    cases w with
    | array ws =>
      simp only [canonicalValue, array.injEq] at h
      exact .array (sameValues_of_canonicalValues_eq h)
    | _ => simp [canonicalValue] at h
  | .object es, w, h => by
    cases w with
    | object fs =>
      simp only [canonicalValue, object.injEq] at h
      have hperm : (canonicalEntries es).Perm (canonicalEntries fs) :=
        (sortEntries_perm _).symm.trans (h ▸ sortEntries_perm _)
      rw [canonicalEntries_eq_map fs] at hperm
      obtain ⟨fs', hfs, heq⟩ := exists_perm_of_perm_map hperm
      rw [← canonicalEntries_eq_map] at heq
      exact .object hfs (sameEntries_of_canonicalEntries_eq heq)
    | _ => simp [canonicalValue] at h
  | .null, w, h => by cases w <;> simp [canonicalValue] at h; exact .refl _
  | .bool b, w, h => by
    cases w <;> simp only [canonicalValue, bool.injEq, reduceCtorEq] at h
    exact h ▸ .refl _
  | .number n, w, h => by
    cases w <;> simp only [canonicalValue, number.injEq, reduceCtorEq] at h
    exact h ▸ .refl _
  | .string s, w, h => by
    cases w <;> simp only [canonicalValue, string.injEq, reduceCtorEq] at h
    exact h ▸ .refl _

/-- Arrays of one canonical form are the same, -/
theorem sameValues_of_canonicalValues_eq : ∀ {vs ws : List Value},
    canonicalValues vs = canonicalValues ws → Value.SameValues vs ws
  | [], [], _ => .nil
  | [], _ :: _, h => by simp [canonicalValues] at h
  | _ :: _, [], h => by simp [canonicalValues] at h
  | _ :: _, _ :: _, h => by
    simp only [canonicalValues, cons.injEq] at h
    exact .cons (sameUpToOrder_of_canonicalValue_eq h.1) (sameValues_of_canonicalValues_eq h.2)

/-- and so are objects. -/
theorem sameEntries_of_canonicalEntries_eq : ∀ {es fs : List (String × Value)},
    canonicalEntries es = canonicalEntries fs → Value.SameEntries es fs
  | [], [], _ => .nil
  | [], _ :: _, h => by simp [canonicalEntries] at h
  | _ :: _, [], h => by simp [canonicalEntries] at h
  | (k, v) :: es, (k', v') :: fs, h => by
    simp only [canonicalEntries, cons.injEq, Prod.mk.injEq] at h
    obtain ⟨⟨rfl, hv⟩, hes⟩ := h
    exact .cons (sameUpToOrder_of_canonicalValue_eq hv) (sameEntries_of_canonicalEntries_eq hes)

end

/-! ## Values the same up to key order -/

theorem wellFormedEntries_iff (es : List (String × Value)) :
    Value.WellFormedEntries es ↔ ∀ e ∈ es, e.2.WellFormed := by
  induction es with
  | nil => simp [Value.WellFormedEntries]
  | cons e es ih => simp [Value.WellFormedEntries, ih]

mutual

/-- **Values the same up to key order have one canonical form**, where
no object has a key twice. -/
theorem canonicalValue_eq_of_sameUpToOrder : ∀ {v w : Value},
    v.SameUpToOrder w → v.WellFormed → w.WellFormed → canonicalValue v = canonicalValue w
  | _, _, .refl _, _, _ => rfl
  | _, _, .array h, hv, hw => by
    simp only [canonicalValue, array.injEq]
    exact canonicalValues_eq_of_sameValues h hv hw
  | .object es, .object fs, @Value.SameUpToOrder.object _ _ fs' hperm h, hv, hw => by
    simp only [canonicalValue, object.injEq]
    have hw' : Value.WellFormedEntries fs' := by
      rw [wellFormedEntries_iff]
      exact fun e he => (wellFormedEntries_iff fs).1 hw.2 e (hperm.mem_iff.2 he)
    have heq : canonicalEntries es = canonicalEntries fs' :=
      canonicalEntries_eq_of_sameEntries h hv.2 hw'
    rw [heq]
    refine (sortEntries_eq_of_perm ?_ ?_).symm
    · rw [map_fst_canonicalEntries]
      exact hw.1
    · rw [canonicalEntries_eq_map, canonicalEntries_eq_map]
      exact hperm.map _

/-- Arrays that are the same have one canonical form, -/
theorem canonicalValues_eq_of_sameValues : ∀ {vs ws : List Value},
    Value.SameValues vs ws → Value.WellFormedValues vs → Value.WellFormedValues ws →
      canonicalValues vs = canonicalValues ws
  | _, _, .nil, _, _ => rfl
  | _, _, .cons h hs, hv, hw => by
    simp only [canonicalValues, cons.injEq]
    exact ⟨canonicalValue_eq_of_sameUpToOrder h hv.1 hw.1,
      canonicalValues_eq_of_sameValues hs hv.2 hw.2⟩

/-- and so have objects. -/
theorem canonicalEntries_eq_of_sameEntries : ∀ {es fs : List (String × Value)},
    Value.SameEntries es fs → Value.WellFormedEntries es → Value.WellFormedEntries fs →
      canonicalEntries es = canonicalEntries fs
  | _, _, .nil, _, _ => rfl
  | _, _, .cons h hs, hv, hw => by
    simp only [canonicalEntries, cons.injEq, Prod.mk.injEq, true_and]
    exact ⟨canonicalValue_eq_of_sameUpToOrder h hv.1 hw.1,
      canonicalEntries_eq_of_sameEntries hs hv.2 hw.2⟩

end

/-- **The canonical form decides equality up to key order.** -/
theorem canonicalValue_eq_iff {v w : Value} (hv : v.WellFormed) (hw : w.WellFormed) :
    canonicalValue v = canonicalValue w ↔ v.SameUpToOrder w :=
  ⟨sameUpToOrder_of_canonicalValue_eq, fun h => canonicalValue_eq_of_sameUpToOrder h hv hw⟩

end Remux
