import Mathlib.Data.List.Basic

/-!
# Segments of a list

The elements of a list from one position up to another. Segments that
meet make up a segment, what is put at the end of the list leaves those
before alone, and a filter that tells positions apart is a segment.
-/

namespace Remux

open List hiding getElem?_eq_some_iff

variable {α : Type*} {xs ys : List α} {a b c : ℕ} {x : α}

/-- **The elements from position `a` up to position `b`**, which is not
one of them. -/
def segment (xs : List α) (a b : ℕ) : List α := (xs.take b).drop a

@[simp] theorem segment_self : segment xs a a = [] := by
  rw [segment, drop_eq_nil_iff, length_take]
  omega

theorem length_segment (hb : b ≤ xs.length) : (segment xs a b).length = b - a := by
  rw [segment, length_drop, length_take]
  omega

/-- **Two segments that meet** make up one. -/
theorem segment_append_segment (hab : a ≤ b) (hbc : b ≤ c) :
    segment xs a b ++ segment xs b c = segment xs a c := by
  have htake : xs.take b = (xs.take c).take b := by rw [take_take, Nat.min_eq_left hbc]
  rw [segment, segment, segment, htake, drop_take, ← Nat.add_sub_of_le hab,
    Nat.add_sub_cancel_left, ← drop_drop, take_append_drop]

/-- What comes at the end of the list is in no segment before it. -/
theorem segment_append_right (hb : b ≤ xs.length) : segment (xs ++ ys) a b = segment xs a b := by
  rw [segment, segment, take_append_of_le_length hb]

/-- A segment one longer has one more element. -/
theorem segment_succ (hab : a ≤ b) (hx : xs[b]? = some x) :
    segment xs a (b + 1) = segment xs a b ++ [x] := by
  obtain ⟨hlt, rfl⟩ := getElem?_eq_some_iff.1 hx
  rw [segment, segment, take_add_one, hx, Option.toList_some, drop_append_of_le_length]
  rw [length_take]
  omega

/-- The elements of a segment, by position. -/
theorem getElem?_segment {i : ℕ} (hi : a + i < b) : (segment xs a b)[i]? = xs[a + i]? := by
  rw [segment, getElem?_drop, getElem?_take, if_pos hi]

/-- **A segment's first elements** are a segment. -/
theorem eq_segment_of_prefix (hpre : ys <+: segment xs a b) :
    ys = segment xs a (a + ys.length) := by
  have hlen := hpre.length_le
  rw [segment, length_drop, length_take] at hlen
  have heq := prefix_iff_eq_take.1 hpre
  rcases Nat.eq_zero_or_pos ys.length with hzero | hpos
  · rw [hzero, Nat.add_zero, segment_self]
    exact length_eq_zero_iff.1 hzero
  · conv_lhs => rw [heq]
    rw [segment, segment, take_drop, take_take, Nat.min_eq_left (by omega)]

variable {p : α → Bool}

variable (hp : ∀ i x, xs[i]? = some x → (p x = true ↔ a ≤ i ∧ i < b))
include hp

/-- **A filter that tells positions apart** keeps a segment. By induction on
the list, which moves the positions by one. -/
theorem filter_eq_segment : xs.filter p = segment xs a b := by
  induction xs generalizing a b with
  | nil => rw [segment, take_nil, drop_nil, filter_nil]
  | cons x xs ih =>
    have hrest : xs.filter p = segment xs (a - 1) (b - 1) :=
      ih fun i y hy => (hp (i + 1) y hy).trans (by omega)
    have hfst := hp 0 x rfl
    rw [filter_cons, hrest]
    rcases b with _ | b
    · rw [if_neg fun h => absurd (hfst.1 h).2 (by omega), segment, segment]
      simp
    · rcases a with _ | a
      · rw [if_pos (hfst.2 (by omega))]
        rfl
      · rw [if_neg fun h => absurd (hfst.1 h).1 (by omega)]
        rfl

/-- The same on what is left of a list whose first elements are gone. -/
theorem filter_drop_eq_segment {d : ℕ} (hd : d ≤ a) : (xs.drop d).filter p = segment xs a b := by
  have hgone : (xs.take d).filter p = [] := by
    refine filter_eq_nil_iff.2 fun x hx hpx => ?_
    obtain ⟨i, hi⟩ := getElem?_of_mem hx
    have hlt : i < d := by
      have := (getElem?_eq_some_iff.1 hi).1
      rw [length_take] at this
      omega
    rw [getElem?_take, if_pos hlt] at hi
    exact absurd ((hp i x hi).1 hpx).1 (by omega)
  rw [← filter_eq_segment hp, ← take_append_drop d xs, filter_append, hgone,
    nil_append, take_append_drop]

omit hp

end Remux
