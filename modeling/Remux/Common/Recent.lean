import Mathlib.Data.List.Basic
import Mathlib.Tactic.Linarith

/-!
# Counting in a sliding window

The times of some events are kept in order, and those older than a
window are dropped from the front. What is left of a list of times is
what lies in the window (`recent_eq_filter`), so a list that is part of
it stays part of it as the window moves (`Sublist.recent_append`).
-/

namespace Remux

open List

/-- The times that lie no further back than the window. -/
def recent (window now : ℕ) (times : List ℕ) : List ℕ :=
  times.dropWhile fun time => window < now - time

variable {window now last k : ℕ} {times events : List ℕ}

variable (h : times.Pairwise (· ≤ ·))
include h

/-- Of times in order, those are left that lie in the window. -/
theorem recent_eq_filter :
    recent window now times = times.filter fun time => now ≤ time + window := by
  induction times with
  | nil => rfl
  | cons time times ih =>
    obtain ⟨hle, hrest⟩ := pairwise_cons.1 h
    rw [recent, dropWhile_cons]
    split
    · next hold =>
      have hold : ¬ now ≤ time + window := by
        have := of_decide_eq_true hold
        omega
      rw [filter_cons_of_neg (by simpa using hold)]
      exact ih hrest
    · next hrecent =>
      have hrecent : now ≤ time + window := by
        have := of_decide_eq_false (Bool.not_eq_true _ ▸ hrecent)
        omega
      rw [filter_cons_of_pos (by simpa using hrecent), filter_eq_self.2]
      intro later hlat
      have := hle later hlat
      exact decide_eq_true (by omega)

theorem pairwise_append_now (hle : ∀ time ∈ times, time ≤ now) :
    (times ++ [now]).Pairwise (· ≤ ·) :=
  pairwise_append.2 ⟨h, pairwise_singleton _ _, fun time htime other hne => by
    rw [mem_singleton.1 hne]
    exact hle time htime⟩

/-- **The window moves** with an event: what of the events was kept in
the old window is kept in the new one, and so is the new event. -/
theorem sublist_recent_append (hle : ∀ time ∈ times, time ≤ now) (hlast : last ≤ now)
    (hsub : (events.filter fun time => last ≤ time + window).Sublist times) :
    ((events ++ [now]).filter fun time => now ≤ time + window).Sublist
      (recent window now (times ++ [now])) := by
  rw [recent_eq_filter (pairwise_append_now h hle), filter_append, filter_append]
  refine List.Sublist.append ?_ (List.Sublist.refl _)
  have hmov := hsub.filter fun time => decide (now ≤ time + window)
  rw [filter_filter] at hmov
  have hsame : (events.filter fun time => decide (now ≤ time + window) &&
      decide (last ≤ time + window)) = events.filter fun time => now ≤ time + window := by
    refine filter_congr fun time _ => ?_
    by_cases hnow : now ≤ time + window
    · have : last ≤ time + window := by omega
      simp [hnow, this]
    · simp [hnow]
  rwa [hsame] at hmov

omit h

/-- How many of the events lie in the window that starts at a time. -/
def countIn (window start : ℕ) (events : List ℕ) : ℕ :=
  events.countP fun time => start ≤ time && time ≤ start + window

/-- **An event more**: a window that has it has no more events than are
kept, where all of them that lie no further back are. -/
theorem countIn_append_le (hcnt : ∀ start, countIn window start events ≤ k)
    (hlen : times.length ≤ k)
    (hsub : ((events ++ [last]).filter fun time => last ≤ time + window).Sublist times)
    (start : ℕ) : countIn window start (events ++ [last]) ≤ k := by
  by_cases hin : start ≤ last ∧ last ≤ start + window
  · have hwin : ((events ++ [last]).filter fun time =>
        start ≤ time && time ≤ start + window).Sublist
        ((events ++ [last]).filter fun time => last ≤ time + window) := by
      refine monotone_filter_right _ fun time htime => ?_
      simp only [Bool.and_eq_true, decide_eq_true_eq] at htime ⊢
      omega
    rw [countIn, countP_eq_length_filter]
    exact (hwin.trans hsub).length_le.trans hlen
  · have hout : (decide (start ≤ last) && decide (last ≤ start + window)) = false := by
      rw [Bool.and_eq_false_iff, decide_eq_false_iff_not, decide_eq_false_iff_not]
      omega
    rw [countIn, countP_append, countP_singleton, hout]
    exact hcnt start

/-- **Counting by the ends.** Of intervals one after another, at most one
more ends in a window than begins there. -/
theorem countIn_snd_le {intervals : List (ℕ × ℕ)}
    (horder : intervals.Pairwise fun p q => p.2 ≤ q.1) (hforward : ∀ p ∈ intervals, p.1 ≤ p.2)
    (hcnt : ∀ start, countIn window start (intervals.map Prod.fst) ≤ k) (start : ℕ) :
    countIn window start (intervals.map Prod.snd) ≤ k + 1 := by
  induction intervals with
  | nil => simp [countIn]
  | cons p intervals ih =>
    obtain ⟨hle, hrest⟩ := pairwise_cons.1 horder
    have htail : ∀ start, countIn window start (intervals.map Prod.fst) ≤ k := fun start =>
      ((sublist_cons_self _ _).map Prod.fst).countP_le.trans (hcnt start)
    have hforward' : ∀ q ∈ intervals, q.1 ≤ q.2 :=
      fun q hq => hforward q (mem_cons_of_mem _ hq)
    rw [map_cons, countIn, countP_cons]
    split
    · next hin =>
      rw [Bool.and_eq_true, decide_eq_true_iff, decide_eq_true_iff] at hin
      -- the intervals after this one begin in the window where they end in it
      have hends : countIn window start (intervals.map Prod.snd) ≤
          countIn window start (intervals.map Prod.fst) := by
        rw [countIn, countIn, countP_map, countP_map]
        refine countP_mono_left fun q hq hend => ?_
        have hbegin := hle q hq
        have hforward := hforward' q hq
        simp only [Function.comp_apply, Bool.and_eq_true, decide_eq_true_eq] at hend ⊢
        omega
      have hbeg := htail start
      rw [countIn] at hends
      omega
    · exact ih hrest hforward' htail

end Remux
