import Mathlib.Data.List.Basic
import Mathlib.Tactic.Linarith

/-!
# Lines of a stream that arrives in chunks

A stream arrives in chunks, cut wherever whoever feeds it likes. A reader
collects the chunks up to a delimiter, or up to a limit of how much it
takes (`readUntil`). Where the cuts are makes no difference: what is read
is the first line of what the limit leaves of the stream
(`readUntil_fst`), and what is left is the rest of it (`readUntil_snd`).
-/

namespace Remux

namespace Lines

open List

variable {α : Type*} [DecidableEq α] {delimiter : α} {xs ys : List α} {chunks : List (List α)}
variable {limit : ℕ}

/-- **The first line**: everything up to the first delimiter, which
belongs to it, or everything where there is none. -/
def line (delimiter : α) (xs : List α) : List α := xs.take (xs.idxOf delimiter + 1)

/-- **The limited read of a line.** A chunk without the delimiter is used
up and the reading goes on with the next, as long as the limit lasts. -/
def readUntil (delimiter : α) : ℕ → List (List α) → List α × List (List α)
  | _, [] => ([], [])
  | limit, chunk :: chunks =>
    let available := chunk.take limit
    if delimiter ∈ available then
      (line delimiter available, chunk.drop (line delimiter available).length :: chunks)
    else if chunk.length < limit then
      let (read, left) := readUntil delimiter (limit - chunk.length) chunks
      (available ++ read, left)
    else (available, chunk.drop limit :: chunks)

theorem isPrefix_line : line delimiter xs <+: xs := take_prefix ..

theorem line_append_of_mem (h : delimiter ∈ xs) :
    line delimiter (xs ++ ys) = line delimiter xs := by
  have hlt := idxOf_lt_length_iff.2 h
  rw [line, line, idxOf_append, if_pos h, take_append_of_le_length (by omega)]

theorem line_append_of_not_mem (h : delimiter ∉ xs) :
    line delimiter (xs ++ ys) = xs ++ line delimiter ys := by
  rw [line, line, idxOf_append, if_neg h, take_append, take_of_length_le (by omega)]
  congr 2
  omega

/-- A line that ends in its delimiter, and what comes after it. -/
theorem line_append_cons (h : delimiter ∉ xs) :
    line delimiter (xs ++ delimiter :: ys) = xs ++ [delimiter] := by
  rw [line_append_of_not_mem h, line, idxOf_cons_self]
  rfl

/-- **What is read**, wherever the stream is cut. -/
theorem readUntil_fst : ∀ {limit : ℕ} {chunks : List (List α)},
    (readUntil delimiter limit chunks).1 = line delimiter (chunks.flatten.take limit)
  | limit, [] => by simp [readUntil, line]
  | limit, chunk :: chunks => by
    rw [readUntil, flatten_cons, take_append]
    split
    · next hmem => rw [line_append_of_mem hmem]
    · next hmem =>
      rw [line_append_of_not_mem hmem]
      split
      · -- the chunk is used up: the rest is read by the rest of the limit
        exact congrArg (chunk.take limit ++ ·) readUntil_fst
      · next hlong =>
        have hzero : limit - chunk.length = 0 := by omega
        simp [hzero, line]

/-- **What is left**, wherever the stream is cut. -/
theorem readUntil_snd : ∀ {limit : ℕ} {chunks : List (List α)},
    (readUntil delimiter limit chunks).2.flatten =
      chunks.flatten.drop (readUntil delimiter limit chunks).1.length
  | limit, [] => by simp [readUntil]
  | limit, chunk :: chunks => by
    rw [readUntil]
    split
    · have hle := (@isPrefix_line α _ delimiter (chunk.take limit)).length_le
      rw [length_take] at hle
      exact (drop_append_of_le_length (hle.trans (Nat.min_le_right ..))).symm
    · split
      · next hsho =>
        have hall : chunk.take limit = chunk := take_of_length_le hsho.le
        rw [readUntil_snd, hall, length_append, flatten_cons, ← drop_drop, drop_left]
      · next hlong =>
        rw [flatten_cons, flatten_cons, length_take, Nat.min_eq_left (by omega),
          drop_append_of_le_length (by omega)]

/-- What is read is gone from the stream. -/
theorem length_readUntil_lt (h : (readUntil delimiter limit chunks).1 ≠ []) :
    (readUntil delimiter limit chunks).2.flatten.length < chunks.flatten.length := by
  have hpos := length_pos_iff.2 h
  have hle : (readUntil delimiter limit chunks).1.length ≤ chunks.flatten.length := by
    rw [readUntil_fst]
    exact isPrefix_line.length_le.trans (length_take_le' _ _)
  rw [readUntil_snd, length_drop]
  omega

/-- **A line within the limit** is read whole, with its delimiter. -/
theorem readUntil_line (h : delimiter ∉ xs) (hfits : xs.length < limit)
    (hchks : chunks.flatten = xs ++ delimiter :: ys) :
    (readUntil delimiter limit chunks).1 = xs ++ [delimiter] ∧
      (readUntil delimiter limit chunks).2.flatten = ys := by
  have hfst : (readUntil delimiter limit chunks).1 = xs ++ [delimiter] := by
    rw [readUntil_fst, hchks, take_append, take_of_length_le hfits.le]
    obtain ⟨n, hn⟩ : ∃ n, limit - xs.length = n + 1 := ⟨limit - xs.length - 1, by omega⟩
    rw [hn, take_succ_cons, line_append_cons h]
  refine ⟨hfst, ?_⟩
  rw [readUntil_snd, hfst, hchks, append_cons xs delimiter ys, drop_left]

end Lines

end Remux
