import Mathlib.Order.Lattice
import Remux.Common.Lists

/-!
# The latest of the highest rank

A register that takes a write unless the value it holds has a higher rank
holds, after any sequence of writes, the latest one among those of the
highest rank. `LatestHighest` is that value, and the three lemmas are the
ways a write goes: it is the first one, it is taken, or it is stale.
-/

namespace Remux

variable {α β : Type*} [LinearOrder β] {rank : α → β} {xs : List α} {x y : α}

/-- **The latest among the elements of the highest rank.** -/
def LatestHighest (rank : α → β) (xs : List α) (x : α) : Prop :=
  ∃ earlier later, xs = earlier ++ x :: later ∧ (∀ y ∈ earlier, rank y ≤ rank x) ∧
    ∀ y ∈ later, rank y < rank x

/-- Nothing in the list has a higher rank. -/
theorem LatestHighest.le (h : LatestHighest rank xs x) (hy : y ∈ xs) : rank y ≤ rank x := by
  obtain ⟨earlier, later, rfl, hearlier, hlat⟩ := h
  rcases List.mem_append.1 hy with hy | hy
  · exact hearlier y hy
  · rcases List.mem_cons.1 hy with rfl | hy
    · exact le_rfl
    · exact (hlat y hy).le

theorem latestHighest_singleton : LatestHighest rank [x] x :=
  ⟨[], [], rfl, nofun, nofun⟩

/-- A write of no lower rank is taken. -/
theorem LatestHighest.taken (h : LatestHighest rank xs x) (hy : rank x ≤ rank y) :
    LatestHighest rank (xs ++ [y]) y :=
  ⟨xs, [], rfl, fun _ hz => (h.le hz).trans hy, nofun⟩

/-- A write of a lower rank is stale. -/
theorem LatestHighest.stale (h : LatestHighest rank xs x) (hy : rank y < rank x) :
    LatestHighest rank (xs ++ [y]) x := by
  obtain ⟨earlier, later, rfl, hearlier, hlat⟩ := h
  refine ⟨earlier, later ++ [y], by simp, hearlier, fun z hz => ?_⟩
  rcases mem_concat.1 hz with hz | rfl
  · exact hlat z hz
  · exact hy

end Remux
