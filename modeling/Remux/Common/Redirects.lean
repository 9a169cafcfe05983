import Remux.Common.Assoc

/-!
# Redirects

A finite map from keys to keys says which key stands for another one now.
Following it ends, since no key is met twice. Where no value is a key (the
map is `Flat`) one step is enough, and pointing one end at another keeps
the map flat: it joins the two, and what went together still does.
-/

namespace Remux

open List Option

/-- A map of redirects. -/
abbrev Redirects (K : Type*) := Assoc K K

namespace Redirects

variable {K : Type*} [DecidableEq K]

/-- The rounds in which a redirect is followed, until there is none, it
leads nowhere, or a key comes a second time. -/
def followLoop (m : Redirects K) : ℕ → K → List K → Option K
  | 0, _, _ => none
  | fuel + 1, current, seen =>
    if current ∈ seen then some current
    else
      match m.lookup current with
      | none => some current
      | some next => if next = current then some current else followLoop m fuel next
        (current :: seen)

variable {m : Redirects K} {fuel : ℕ} {k v a b current : K} {seen : List K}

/-- One round more than there are keys is enough. -/
theorem followLoop_isSome (hfuel : m.size < fuel + seen.length) (hnd : seen.Nodup)
    (hkeys : ∀ k ∈ seen, k ∈ m.keys) : (followLoop m fuel current seen).isSome := by
  have hlen : ∀ seen : List K, seen.Nodup → (∀ k ∈ seen, k ∈ m.keys) → seen.length ≤ m.size := by
    intro seen hnd hkeys
    have hle := (subperm_of_subset hnd hkeys).length_le
    simpa [Assoc.size, AList.keys, keys] using hle
  induction fuel generalizing current seen with
  | zero =>
    have := hlen seen hnd hkeys
    omega
  | succ fuel ih =>
    unfold followLoop
    split
    · rfl
    · next hseen =>
      cases hnext : m.lookup current with
      | none => rfl
      | some next =>
        dsimp only
        split
        · rfl
        · -- the current key is one more that is not met again
          have hcur : current ∈ m.keys :=
            AList.mem_keys.1 (AList.lookup_isSome.1 (by rw [hnext]; rfl))
          refine ih ?_ (nodup_cons.2 ⟨hseen, hnd⟩) ?_
          · rw [length_cons]
            omega
          · rintro k (_ | ⟨_, hk⟩)
            · exact hcur
            · exact hkeys k hk

/-- **Where a key leads.** -/
def follow (m : Redirects K) (k : K) : K :=
  (followLoop m (m.size + 1) k []).get
    (followLoop_isSome (by rw [List.length_nil]; omega) List.nodup_nil nofun)

/-- No value is a key. -/
def Flat (m : Redirects K) : Prop := ∀ k v, m.lookup k = some v → m.lookup v = none

/-- One end is pointed at another, and so is all that led to it. -/
def redirect (m : Redirects K) (a b : K) : Redirects K :=
  Assoc.mapValues (fun v => if v = a then b else v) (m.insert a b)

theorem flat_empty : Flat (∅ : Redirects K) := fun k v h => by
  cases h

variable (h : Flat m)
include h

/-- In a flat map two rounds are enough. -/
theorem Flat.followLoop_eq : followLoop m (fuel + 2) k [] = some ((m.lookup k).getD k) := by
  unfold followLoop
  rw [if_neg not_mem_nil]
  cases hk : m.lookup k with
  | none => rfl
  | some v =>
    have hv := h k v hk
    have hne : v ≠ k := fun heq => by
      rw [heq, hk] at hv
      cases hv
    dsimp only
    rw [if_neg hne]
    unfold followLoop
    rw [if_neg (by simpa using hne), hv]
    rfl

/-- In a flat map one step is the whole way. -/
theorem Flat.follow_eq : follow m k = (m.lookup k).getD k := by
  refine get_of_eq_some _ ?_
  cases hsize : m.size with
  | zero =>
    have hk : m.lookup k = none := by
      refine eq_none_iff_forall_ne_some.2 fun v hv => ?_
      have hmem := Assoc.mem_entries_iff.2 hv
      rw [eq_nil_of_length_eq_zero hsize] at hmem
      exact absurd hmem not_mem_nil
    unfold followLoop
    rw [if_neg not_mem_nil, hk]
    rfl
  | succ n => exact h.followLoop_eq

/-- Where a key leads, nothing leads on. -/
theorem Flat.lookup_follow : m.lookup (follow m k) = none := by
  rw [h.follow_eq]
  cases hk : m.lookup k with
  | none => exact hk
  | some v => exact h k v hk

theorem Flat.follow_of_lookup (hk : m.lookup k = none) : follow m k = k := by
  rw [h.follow_eq, hk]
  rfl

/-- **Following twice is following once.** -/
theorem Flat.follow_follow : follow m (follow m k) = follow m k :=
  h.follow_of_lookup h.lookup_follow

/-- **A flat map has no cycle.** -/
theorem Flat.not_cycle : ¬ Relation.TransGen (fun x y => m.lookup x = some y) k k := by
  have hkey : ∀ x y, Relation.TransGen (fun x y => m.lookup x = some y) x y →
    m.lookup x ≠ none := by
    intro x y hxy
    induction hxy using Relation.TransGen.head_induction_on with
    | single hstep => rw [hstep]; nofun
    | head hstep _ _ => rw [hstep]; nofun
  intro hcycle
  obtain ⟨x, -, hlast⟩ := Relation.TransGen.tail'_iff.1 hcycle
  exact hkey k k hcycle (h x k hlast)

omit h

theorem lookup_redirect (hne : a ≠ b) : (redirect m a b).lookup k =
      if k = a then some b else (m.lookup k).map fun v => if v = a then b else v := by
  rw [redirect, Assoc.lookup_mapValues, Assoc.lookup_insert_eq]
  by_cases hk : k = a
  · rw [if_pos hk, if_pos hk, map_some, if_neg hne.symm]
  · rw [if_neg hk, if_neg hk]

/-- **Redirecting keeps the map flat.** -/
theorem Flat.redirect (h : Flat m) (hb : m.lookup b = none) (hne : a ≠ b) :
    Flat (redirect m a b) := by
  have hb' : (m.redirect a b).lookup b = none := by
    rw [lookup_redirect hne, if_neg hne.symm, hb]
    rfl
  intro k v hk
  rw [lookup_redirect hne] at hk
  split at hk
  · exact some.inj hk ▸ hb'
  · obtain ⟨w, hw, rfl⟩ := map_eq_some_iff.1 hk
    by_cases hwa : w = a
    · rw [if_pos hwa]
      exact hb'
    · rw [if_neg hwa, lookup_redirect hne, if_neg hwa, h k w hw]
      rfl

/-- **What led to the one end leads to the other now**, and the rest where
it did. -/
theorem Flat.follow_redirect (h : Flat m) (ha : m.lookup a = none) (hb : m.lookup b = none)
    (hne : a ≠ b) :
    follow (m.redirect a b) k = if follow m k = a then b else follow m k := by
  rw [(h.redirect hb hne).follow_eq, h.follow_eq, lookup_redirect hne]
  by_cases hk : k = a
  · rw [if_pos hk, hk, ha]
    exact (if_pos rfl).symm
  · rw [if_neg hk]
    cases hget : m.lookup k with
    | none => exact (if_neg hk).symm
    | some v => rfl

end Redirects

end Remux
