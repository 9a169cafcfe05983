import Mathlib.Data.List.Infix

/-!
# The merge of streamed text

`merge_streamed_text` of `live_transcript.rs` is given what is there of a text
and a chunk of it, and not where the chunk stands: it takes the longest overlap
of the two for theirs. Overlaps that end within a character are passed over, so
a text is its characters here.

What is there is never lost, and the merge is right just where the overlap is
the one that was meant (`streamed_text_kept`).
-/

namespace Remux

open List

/-- The loop over the overlaps, the longest first. -/
def mergeOverlap (existing delta : List Char) : ℕ → List Char
  | 0 => existing ++ delta
  | overlap + 1 =>
    if existing.drop (existing.length - (overlap + 1)) = delta.take (overlap + 1) then
      existing ++ delta.drop (overlap + 1)
    else mergeOverlap existing delta overlap

/-- `merge_streamed_text`. -/
def mergeStreamedText (existing delta : List Char) : List Char :=
  if delta = [] ∨ delta <:+ existing ∨ delta <+: existing then existing
  else if existing = [] ∨ existing <+: delta then delta
  else mergeOverlap existing delta (min existing.length delta.length)

/-- The chunk of a text between two positions. -/
def chunk (T : List Char) (i j : ℕ) : List Char := (T.take j).drop i

/-- The end of what is there is the beginning of the chunk. -/
def Overlaps (existing delta : List Char) (k : ℕ) : Prop :=
  existing.drop (existing.length - k) = delta.take k

/-- **Where a chunk is merged rightly**: one of what is there is its beginning
or its end; one that goes beyond is all from the start on, or what is there
neither ends nor begins with it, nor it with what is there, and no overlap is
longer than theirs. -/
def ChunkPlaced (T : List Char) (p i j : ℕ) : Prop :=
  if j ≤ p then chunk T i j <:+ T.take p ∨ chunk T i j <+: T.take p
  else i = 0 ∨ ¬ chunk T i j <:+ T.take p ∧ ¬ chunk T i j <+: T.take p ∧
    ¬ T.take p <+: chunk T i j ∧
      ∀ k, p - i < k → k ≤ min p (j - i) → ¬ Overlaps (T.take p) (chunk T i j) k

variable {T existing delta : List Char} {p i j : ℕ}

/-- The longest overlap is taken. -/
theorem mergeOverlap_spec (n : ℕ) : ∃ k ≤ n, Overlaps existing delta k ∧
    mergeOverlap existing delta n = existing ++ delta.drop k ∧
    ∀ k', k < k' → k' ≤ n → ¬ Overlaps existing delta k' := by
  induction n with
  | zero =>
    refine ⟨0, le_rfl, ?_, rfl, fun k' hlt hle => by omega⟩
    rw [Overlaps, Nat.sub_zero, drop_length, take_zero]
  | succ n ih =>
    by_cases hover : Overlaps existing delta (n + 1)
    · exact ⟨n + 1, le_rfl, hover, if_pos hover, fun k' hlt hle => by omega⟩
    · obtain ⟨k, hk, hkover, heq, hmax⟩ := ih
      refine ⟨k, by omega, hkover, (if_neg hover).trans heq, fun k' hlt hle => ?_⟩
      rcases Nat.le_succ_iff.1 hle with hle | rfl
      · exact hmax k' hlt hle
      · exact hover

/-- **What is there stays.** -/
theorem prefix_mergeStreamedText : existing <+: mergeStreamedText existing delta := by
  unfold mergeStreamedText
  split
  · exact prefix_rfl
  · split
    · next h => exact h.elim (fun h => h ▸ nil_prefix) id
    · obtain ⟨k, -, -, heq, -⟩ := @mergeOverlap_spec existing delta
        (min existing.length delta.length)
      rw [heq]
      exact prefix_append ..

theorem length_chunk (hj : j ≤ T.length) : (chunk T i j).length = j - i := by
  rw [chunk, length_drop, length_take, min_eq_left hj]

/-- The chunk overlaps what is there as it was meant to. -/
theorem overlaps_chunk (hi : i ≤ p) (hp : p ≤ T.length) (hpj : p < j) :
    Overlaps (T.take p) (chunk T i j) (p - i) := by
  rw [Overlaps, chunk, length_take, min_eq_left hp, ← drop_take, take_take,
    min_eq_left (by omega), Nat.sub_sub_self hi]

/-- **When a merge is right.** -/
theorem mergeStreamedText_eq_iff (hi : i ≤ p) (hij : i ≤ j) (hj : j ≤ T.length)
    (hp : p ≤ T.length) :
    mergeStreamedText (T.take p) (chunk T i j) = T.take (max p j) ↔ ChunkPlaced T p i j := by
  have hchk := @length_chunk T i j hj
  have hexist : (T.take p).length = p := by rw [length_take, min_eq_left hp]
  have hwanted : (T.take (max p j)).length = max p j := by
    rw [length_take, min_eq_left (by omega)]
  have hbeg : i = 0 → chunk T i j = T.take j := fun h => by rw [chunk, h, drop_zero]
  unfold mergeStreamedText ChunkPlaced
  by_cases hpart : chunk T i j = [] ∨ chunk T i j <:+ T.take p ∨ chunk T i j <+: T.take p
  · rw [if_pos hpart]
    by_cases hjp : j ≤ p
    · rw [if_pos hjp, max_eq_left hjp]
      exact iff_of_true rfl (hpart.elim (fun h => .inl (h ▸ nil_suffix)) id)
    · -- what goes beyond is not kept
      have hlost : T.take p ≠ T.take (max p j) := fun h => by
        have := congrArg length h
        omega
      have hlong : i ≠ 0 := by
        rintro rfl
        rcases hpart with h | h | h
        · rw [h, length_nil] at hchk
          omega
        all_goals
          have := h.length_le
          omega
      rw [if_neg hjp, iff_false_intro hlost, false_iff]
      rintro (h | ⟨hsuffix, hprefix, -⟩)
      · exact hlong h
      · rcases hpart with h | h | h
        · rw [h, length_nil] at hchk
          omega
        · exact hsuffix h
        · exact hprefix h
  · rw [if_neg hpart]
    obtain ⟨-, hsuffix, hprefix⟩ := (by tauto : ¬ chunk T i j = [] ∧
      ¬ chunk T i j <:+ T.take p ∧ ¬ chunk T i j <+: T.take p)
    by_cases hjp : j ≤ p
    · rw [if_pos hjp, max_eq_left hjp]
      refine iff_of_false (fun h => ?_) (by tauto)
      split at h
      · exact hprefix (h ▸ prefix_rfl)
      · obtain ⟨k, hk, hover, heq, -⟩ := @mergeOverlap_spec (T.take p) (chunk T i j)
          (min (T.take p).length (chunk T i j).length)
        have hlen := congrArg length (heq.symm.trans h)
        rw [length_append, length_drop, hexist, hchk] at hlen
        -- the whole chunk overlaps, so it is the end of what is there
        obtain rfl : k = (chunk T i j).length := by omega
        rw [Overlaps, take_length] at hover
        exact hsuffix (hover ▸ drop_suffix ..)
    · rw [if_neg hjp, max_eq_right (by omega)]
      by_cases hwh : T.take p = [] ∨ T.take p <+: chunk T i j
      · rw [if_pos hwh]
        have hbegin : T.take p <+: chunk T i j :=
          hwh.elim (fun h => h ▸ nil_prefix) id
        refine ⟨fun h => .inl ?_, fun h => ?_⟩
        · have hlen := congrArg length h
          rw [hchk, length_take, min_eq_left hj] at hlen
          omega
        · exact hbeg (h.resolve_right fun h => h.2.2.1 hbegin)
      · rw [if_neg hwh]
        obtain ⟨k, hk, hover, heq, hmax⟩ := @mergeOverlap_spec (T.take p) (chunk T i j)
          (min (T.take p).length (chunk T i j).length)
        rw [hexist, hchk] at hk hmax heq ⊢
        have hmeant := @overlaps_chunk T p i j hi hp (by omega)
        have hle : p - i ≤ k := by
          by_contra hlt
          exact hmax (p - i) (by omega) (by omega) hmeant
        have hbegin : i ≠ 0 := by
          rintro rfl
          refine hwh (.inr ?_)
          exact (take_prefix_take_left (by omega))
        have hright : mergeOverlap (T.take p) (chunk T i j) (min p (j - i)) = T.take j ↔
            k = p - i := by
          rw [heq]
          refine ⟨fun h => ?_, ?_⟩
          · have hlen := congrArg length h
            rw [length_append, length_drop, hexist, hchk, length_take, min_eq_left hj] at hlen
            omega
          · rintro rfl
            rw [chunk, drop_drop, show i + (p - i) = p by omega]
            conv_rhs => rw [← take_append_drop p (T.take j)]
            rw [take_take, min_eq_left (by omega)]
        rw [hright]
        refine ⟨?_, fun h => ?_⟩
        · rintro rfl
          exact .inr ⟨hsuffix, hprefix, fun h => hwh (.inr h), hmax⟩
        · obtain ⟨-, -, -, hnone⟩ := h.resolve_left hbegin
          by_contra hne
          exact hnone k (by omega) hk hover

/-! ## Streams of chunks -/

/-- How much of a text the chunks have come to. -/
def covered (p : ℕ) (chunks : List (ℕ × ℕ)) : ℕ := chunks.foldl (fun p c => max p c.2) p

/-- What a text is merged to from its chunks. -/
def mergeChunks (T existing : List Char) (chunks : List (ℕ × ℕ)) : List Char :=
  chunks.foldl (fun existing c => mergeStreamedText existing (chunk T c.1 c.2)) existing

/-- Chunks that leave no gap, each perhaps come before. -/
def Streams (T : List Char) : ℕ → List (ℕ × ℕ) → Prop
  | _, [] => True
  | p, (i, j) :: chunks => i ≤ p ∧ i ≤ j ∧ j ≤ T.length ∧ Streams T (max p j) chunks

/-- Each chunk is placed. -/
def AllPlaced (T : List Char) : ℕ → List (ℕ × ℕ) → Prop
  | _, [] => True
  | p, (i, j) :: chunks => ChunkPlaced T p i j ∧ AllPlaced T (max p j) chunks

/-- **A stream is merged rightly all along just when each chunk is placed.** By
induction on the chunks. -/
theorem mergeChunks_eq_iff {chunks : List (ℕ × ℕ)} (hp : p ≤ T.length)
    (hstreams : Streams T p chunks) :
    (∀ before, before <+: chunks →
      mergeChunks T (T.take p) before = T.take (covered p before)) ↔ AllPlaced T p chunks := by
  induction chunks generalizing p with
  | nil =>
    refine iff_of_true (fun before hbef => ?_) trivial
    rw [prefix_nil.1 hbef]
    rfl
  | cons c chunks ih =>
    obtain ⟨i, j⟩ := c
    obtain ⟨hi, hij, hj, hrest⟩ := hstreams
    have hnext := ih (max_le hp hj) hrest
    rw [AllPlaced, ← mergeStreamedText_eq_iff hi hij hj hp, ← hnext]
    constructor
    · intro hall
      have hfst := hall [(i, j)] ⟨chunks, rfl⟩
      refine ⟨hfst, fun before hbef => ?_⟩
      rw [show T.take (max p j) = mergeStreamedText (T.take p) (chunk T i j) from hfst.symm]
      exact hall ((i, j) :: before) (cons_prefix_cons.2 ⟨rfl, hbef⟩)
    · rintro ⟨hfst, hall⟩ before hbef
      cases before with
      | nil => rfl
      | cons c before =>
        obtain ⟨rfl, hsame⟩ := cons_prefix_cons.1 hbef
        show mergeChunks T (mergeStreamedText (T.take p) (chunk T i j)) before = _
        rw [hfst]
        exact hall before hsame

/-- **Streamed text**: what is there is never lost; the merge of a chunk is
right just when the chunk is placed, and so is that of a stream. -/
theorem streamed_text_kept (hi : i ≤ p) (hij : i ≤ j) (hj : j ≤ T.length) (hp : p ≤ T.length) :
    (∀ delta, T.take p <+: mergeStreamedText (T.take p) delta) ∧
      (mergeStreamedText (T.take p) (chunk T i j) = T.take (max p j) ↔ ChunkPlaced T p i j) ∧
      ∀ chunks, Streams T p chunks → ((∀ before, before <+: chunks →
          mergeChunks T (T.take p) before = T.take (covered p before)) ↔ AllPlaced T p chunks) :=
  ⟨fun _ => prefix_mergeStreamedText, mergeStreamedText_eq_iff hi hij hj hp,
    fun _ => mergeChunks_eq_iff hp⟩

theorem streamed_text_kept_hello :
    mergeStreamedText ("hello".toList.take 2) (chunk "hello".toList 1 4) = "hell".toList ∧
      ChunkPlaced "hello".toList 2 1 4 :=
  have h : mergeStreamedText ("hello".toList.take 2) (chunk "hello".toList 1 4) =
      "hello".toList.take 4 := by decide
  ⟨h, (@streamed_text_kept "hello".toList 2 1 4 (by decide) (by decide) (by decide)
    (by decide)).2.1.1 h⟩

/-- **A repeated chunk is dropped**, though it is the next of its text. -/
theorem repeated_chunk_dropped :
    mergeStreamedText ("haha".toList.take 2) (chunk "haha".toList 2 4) ≠
      "haha".toList.take (max 2 4) := by
  decide

end Remux
