import Mathlib.Data.List.Induction

/-!
# Tables

A list whose positions name its elements: an element is changed in its
place, and new ones come at the end.
-/

namespace Remux

open List hiding getElem?_eq_some_iff

variable {α : Type*} {xs : List α} {i : ℕ} {x y : α}

/-- The elements after one of them changed. -/
theorem getElem?_set_of_eq_some (h : xs[i]? = some x) (k : ℕ) :
    (xs.set i y)[k]? = if k = i then some y else xs[k]? := by
  have hlt := (getElem?_eq_some_iff.1 h).1
  rw [getElem?_set]
  by_cases hk : k = i
  · rw [if_pos hk.symm, if_pos hlt, if_pos hk]
  · rw [if_neg (Ne.symm hk), if_neg hk]

/-- A count of the elements when one of them changes. -/
theorem countP_set_of_eq_some {p : α → Bool} (h : xs[i]? = some x) :
    (xs.set i y).countP p + (if p x then 1 else 0) = xs.countP p + (if p y then 1 else 0) := by
  obtain ⟨hlt, hget⟩ := getElem?_eq_some_iff.1 h
  have hle := boole_getElem_le_countP (p := p) hlt
  rw [countP_set hlt, hget]
  rw [hget] at hle
  omega

variable {p : α → Bool} {R : α → α → Prop}

/-- A count of the elements at given positions. -/
theorem countP_le_length {places : List ℕ} (h : ∀ i x, xs[i]? = some x → p x → i ∈ places) :
    xs.countP p ≤ places.length := by
  induction xs using reverseRecOn generalizing places with
  | nil => exact Nat.zero_le _
  | append_singleton xs x ih =>
    have hold : ∀ i y, xs[i]? = some y → p y → i ∈ places.erase xs.length := by
      intro i y hi hy
      have hlt := (getElem?_eq_some_iff.1 hi).1
      refine (mem_erase_of_ne (Nat.ne_of_lt hlt)).2 (h i y ?_ hy)
      rw [getElem?_append_left hlt, hi]
    have hcnt := ih hold
    rw [countP_append, countP_singleton]
    cases hx : p x with
    | false => exact Nat.le_trans hcnt length_erase_le
    | true =>
      have hmem : xs.length ∈ places := h xs.length x getElem?_concat_length hx
      have hpos := length_pos_of_mem hmem
      rw [length_erase_of_mem hmem] at hcnt
      simp only [if_true]
      omega

/-- What is in a list after a new element came. -/
theorem mem_concat : y ∈ xs ++ [x] ↔ y ∈ xs ∨ y = x := by
  rw [mem_append, mem_singleton]

/-- The elements after a new one came. -/
theorem getElem?_concat_eq_some {k : ℕ} :
    (xs ++ [x])[k]? = some y ↔ xs[k]? = some y ∨ k = xs.length ∧ x = y := by
  rw [getElem?_append]
  split
  · next hlt =>
    refine ⟨.inl, fun h => h.resolve_right ?_⟩
    rintro ⟨rfl, -⟩
    omega
  · next hge =>
    have hnone : xs[k]? = none := getElem?_eq_none (by omega)
    rw [hnone, getElem?_singleton]
    constructor
    · intro h
      split at h
      · exact .inr ⟨by omega, Option.some.inj h⟩
      · cases h
    · rintro (h | ⟨rfl, rfl⟩)
      · cases h
      · rw [Nat.sub_self, if_pos rfl]

/-- A relation between the elements holds when one of them changes, if the
changed one bears it to those the old one bore it to. -/
theorem pairwise_set (h : xs.Pairwise R) (hx : xs[i]? = some x) (hleft : ∀ z ∈ xs, R z x → R z y)
    (hright : ∀ z ∈ xs, R x z → R y z) :
    (xs.set i y).Pairwise R := by
  induction xs generalizing i with
  | nil => cases hx
  | cons z xs ih =>
    obtain ⟨hz, hxs⟩ := pairwise_cons.1 h
    cases i with
    | zero =>
      cases hx
      exact pairwise_cons.2 ⟨fun w hw => hright w (mem_cons_of_mem _ hw) (hz w hw), hxs⟩
    | succ i =>
      have hx : xs[i]? = some x := hx
      refine pairwise_cons.2 ⟨fun w hw => ?_, ih hxs hx (fun w hw => hleft w (mem_cons_of_mem _ hw))
        fun w hw => hright w (mem_cons_of_mem _ hw)⟩
      rcases mem_or_eq_of_mem_set hw with hold | rfl
      · exact hz w hold
      · exact hleft z mem_cons_self (hz x (mem_of_getElem? hx))

/-- The elements after one of them changed that stands there once only. -/
theorem mem_set_iff (h : xs.Pairwise R) (hx : xs[i]? = some x) (hirrefl : ¬ R x x) {z : α} :
    z ∈ xs.set i y ↔ z = y ∨ z ∈ xs ∧ z ≠ x := by
  constructor
  · intro hz
    obtain ⟨k, hk⟩ := mem_iff_getElem?.1 hz
    rw [getElem?_set_of_eq_some hx] at hk
    split at hk
    · exact .inl (Option.some.inj hk).symm
    · next hne =>
      refine .inr ⟨mem_of_getElem? hk, ?_⟩
      rintro rfl
      obtain ⟨hk', hgetk⟩ := getElem?_eq_some_iff.1 hk
      obtain ⟨hi', hgeti⟩ := getElem?_eq_some_iff.1 hx
      have hrel := pairwise_iff_getElem.1 h
      rcases Nat.lt_or_gt_of_ne hne with hlt | hgt
      · have hki := hrel k i hk' hi' hlt
        rw [hgetk, hgeti] at hki
        exact hirrefl hki
      · have hik := hrel i k hi' hk' hgt
        rw [hgetk, hgeti] at hik
        exact hirrefl hik
  · rintro (rfl | ⟨hz, hne⟩)
    · exact mem_iff_getElem?.2 ⟨i, by rw [getElem?_set_of_eq_some hx, if_pos rfl]⟩
    · obtain ⟨k, hk⟩ := mem_iff_getElem?.1 hz
      refine mem_iff_getElem?.2 ⟨k, ?_⟩
      rw [getElem?_set_of_eq_some hx, if_neg, hk]
      rintro rfl
      rw [hx] at hk
      exact hne (Option.some.inj hk).symm

/-- Two lists are split the same way by the last occurrence of an
element. -/
theorem append_cons_inj {a b ys : List α} {c : α} (hxs : c ∉ xs) (hys : c ∉ ys)
    (h : a ++ c :: xs = b ++ c :: ys) : a = b ∧ xs = ys := by
  rcases append_eq_append_iff.1 h with ⟨d, rfl, hd⟩ | ⟨d, rfl, hd⟩
  · cases d with
    | nil => exact ⟨(append_nil a).symm, (cons.inj hd).2⟩
    | cons e d =>
      cases hd
      exact absurd (mem_append_right _ mem_cons_self) hxs
  · cases d with
    | nil => exact ⟨append_nil b, (cons.inj hd).2.symm⟩
    | cons e d =>
      cases hd
      exact absurd (mem_append_right _ mem_cons_self) hys

/-- The results of the elements, when one of them changes: its own, and
the same rest. -/
theorem exists_flatMap_set {β : Type*} {f : α → List β} (h : xs[i]? = some x) :
    ∃ rest, (xs.flatMap f).Perm (f x ++ rest) ∧
      ∀ y, ((xs.set i y).flatMap f).Perm (f y ++ rest) := by
  obtain ⟨hlt, hget⟩ := getElem?_eq_some_iff.1 h
  have hperm : ∀ y, (take i xs ++ y :: drop (i + 1) xs).flatMap f
      |>.Perm (f y ++ ((take i xs).flatMap f ++ (drop (i + 1) xs).flatMap f)) := by
    intro y
    rw [flatMap_append, flatMap_cons]
    exact perm_append_comm_assoc _ _ _
  refine ⟨(take i xs).flatMap f ++ (drop (i + 1) xs).flatMap f, ?_, fun y => ?_⟩
  · have hsplit : xs = take i xs ++ x :: drop (i + 1) xs := by
      rw [← hget, getElem_cons_drop, take_append_drop]
    simpa only [← hsplit] using hperm x
  · rw [set_eq_take_append_cons_drop, if_pos hlt]
    exact hperm y

/-- A condition that one element meets and a stronger one does not is met
more often. -/
theorem countP_lt_countP {q : α → Bool} (himp : ∀ a ∈ xs, p a = true → q a = true) (hmem : x ∈ xs)
    (hp : p x = false) (hq : q x = true) : xs.countP p < xs.countP q := by
  obtain ⟨before, after, rfl⟩ := append_of_mem hmem
  have hbef : before.countP p ≤ before.countP q :=
    countP_mono_left fun a ha => himp a (mem_append_left _ ha)
  have haft : after.countP p ≤ after.countP q :=
    countP_mono_left fun a ha => himp a (mem_append_right _ (mem_cons_of_mem _ ha))
  rw [countP_append, countP_append, countP_cons_of_neg (by simp [hp]), countP_cons_of_pos hq]
  omega

/-! ## Assignments -/

section Assignments

variable {S E A : Type*} {f : S → E → S} {es : List E} (field : S → A) (assigned : E → Option A)

variable (h : ∀ s, ∀ e ∈ es, field (f s e) = (assigned e).getD (field s))
include h

/-- A field that each step assigns or leaves holds what was assigned to it
last. -/
theorem field_foldl (s : S) :
    field (es.foldl f s) = (es.foldl (fun last e => (assigned e).or last) none).getD (field s) := by
  induction es using reverseRecOn with
  | nil => rfl
  | append_singleton es e ih =>
    have hinit := ih fun s e he => h s e (mem_append_left _ he)
    simp only [foldl_append, foldl_cons, foldl_nil]
    rw [h _ e (by simp), hinit]
    cases assigned e <;> rfl

/-- The same assignments once more change nothing. -/
theorem field_foldl_twice (s : S) : field (es.foldl f (es.foldl f s)) = field (es.foldl f s) := by
  rw [field_foldl field assigned h, field_foldl field assigned h]
  cases es.foldl (fun last e => (assigned e).or last) none <;> rfl

omit h

end Assignments

end Remux
