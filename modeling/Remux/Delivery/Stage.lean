import Remux.Common.Lists
import Remux.Delivery.Changes

/-!
# The stage of an attempt

The ordinals of the staged rows are always `0 .. n-1` in the order they
were observed. A deletion takes the rows it names and numbers the others
anew, and is never refused.
-/

namespace Remux

open StagedRow List

variable {rows acc retained : List StagedRow} {row : StagedRow} {ids : List String}

/-- **The invariant of a stage.** -/
structure StageInv (rows : List StagedRow) : Prop where
  ordinals : rows.map StagedRow.ordinal = List.range rows.length
  nodup : (rows.map StagedRow.observationId).Nodup
  small : rows.length ≤ 256
  fits : ∀ row ∈ rows, row.byteLength ≤ maxStageRowBytes
  named : ∀ row ∈ rows, row.observationId = row.envelope.eventId

theorem StageInv.nil : StageInv [] :=
  ⟨rfl, nodup_nil, Nat.zero_le _, fun _ h => absurd h not_mem_nil, fun _ h => absurd h not_mem_nil⟩

theorem StageInv.pairwise (h : StageInv rows) : rows.Pairwise fun a b => a.ordinal < b.ordinal := by
  rw [← pairwise_map, h.ordinals]
  exact pairwise_lt_range

/-- Rows whose ordinals grow are in order. -/
theorem orderedStage_of_pairwise (h : rows.Pairwise fun a b => a.ordinal < b.ordinal) :
    orderedStage rows = rows :=
  (h.imp fun hlt => hlt.le).insertionSort_eq

/-- **The stage is in order.** -/
theorem StageInv.orderedStage_eq (h : StageInv rows) : orderedStage rows = rows :=
  orderedStage_of_pairwise h.pairwise

/-- The row after the last one. -/
theorem StageInv.concat (h : StageInv rows) (hord : row.ordinal = rows.length)
    (hlen : rows.length < 256) (hnew : row.observationId ∉ rows.map observationId)
    (hfits : row.byteLength ≤ maxStageRowBytes)
    (hnamed : row.observationId = row.envelope.eventId) : StageInv (rows ++ [row]) where
  ordinals := by
    rw [map_append, h.ordinals, map_singleton, hord, length_append, length_singleton, range_succ]
  nodup := by
    rw [map_append, map_singleton]
    exact nodup_append.2 ⟨h.nodup, nodup_singleton _, fun id hid id' hid' heq =>
      hnew (mem_singleton.1 hid' ▸ heq ▸ hid)⟩
  small := by
    rw [length_append, length_singleton]
    exact hlen
  fits row' hmem := by
    rcases mem_concat.1 hmem with hmem | hmem
    · exact h.fits row' hmem
    · exact hmem ▸ hfits
  named row' hmem := by
    rcases mem_concat.1 hmem with hmem | hmem
    · exact h.named row' hmem
    · exact hmem ▸ hnamed

/-- What an insertion that was not refused has found. -/
theorem insertStaged_eq_ok {rows' : List StagedRow} (h : insertStaged rows row = .ok rows') :
    rows' = rows ++ [row] ∧ row.observationId ∉ rows.map observationId ∧
      row.byteLength ≤ maxStageRowBytes := by
  obtain ⟨_, hcheck, hrows⟩ := bind_eq_ok.1 h
  have hguard := check_eq_ok.1 hcheck
  simp only [Bool.and_eq_true, decide_eq_true_eq, all_eq_true, ne_eq] at hguard
  refine ⟨(Except.ok.inj hrows).symm, fun hmem => ?_, hguard.2⟩
  obtain ⟨old, hold, heq⟩ := mem_map.1 hmem
  exact (hguard.1.1 old hold).2 heq

/-- The row after the last one is inserted. -/
theorem StageInv.insertStaged_ok (h : StageInv rows) (hord : row.ordinal = rows.length)
    (hlen : rows.length < 256) (hnew : row.observationId ∉ rows.map observationId)
    (hfits : row.byteLength ≤ maxStageRowBytes) : insertStaged rows row = .ok (rows ++ [row]) := by
  have hall : ∀ old ∈ rows, old.ordinal ≠ row.ordinal ∧ old.observationId ≠ row.observationId := by
    intro old hold
    refine ⟨fun heq => ?_, fun heq => hnew (mem_map.2 ⟨old, hold, heq⟩)⟩
    have hmem : old.ordinal ∈ range rows.length :=
      h.ordinals ▸ mem_map_of_mem (f := ordinal) hold
    rw [heq, hord] at hmem
    exact absurd (mem_range.1 hmem) (lt_irrefl _)
  unfold insertStaged
  rw [check, if_pos]
  · rfl
  · simp only [Bool.and_eq_true, decide_eq_true_eq, all_eq_true, ne_eq]
    exact ⟨⟨hall, hord ▸ hlen⟩, hfits⟩

/-- **The retained rows are numbered on**, and nothing refuses it. By
induction on them: each comes after the last row. -/
theorem StageInv.renumberStaged_ok (h : StageInv acc) (hlen : acc.length + retained.length ≤ 256)
    (hnd : ((acc ++ retained).map observationId).Nodup)
    (hfits : ∀ row ∈ retained, row.byteLength ≤ maxStageRowBytes)
    (hnamed : ∀ row ∈ retained, row.observationId = row.envelope.eventId) :
    ∃ rows, renumberStaged acc acc.length retained = .ok rows ∧ StageInv rows ∧
      rows.map envelope = (acc ++ retained).map envelope := by
  induction retained generalizing acc with
  | nil => exact ⟨acc, rfl, h, by rw [append_nil]⟩
  | cons row retained ih =>
    rw [length_cons] at hlen
    have hsplit : ((acc ++ row :: retained).map observationId).Nodup := hnd
    rw [map_append, nodup_append] at hsplit
    have hnew : row.observationId ∉ acc.map observationId := fun hmem =>
      hsplit.2.2 _ hmem _ (mem_cons_self ..) rfl
    have hrow := hfits row mem_cons_self
    have hname := hnamed row mem_cons_self
    have hnext : StageInv (acc ++ [{ row with ordinal := acc.length }]) :=
      h.concat rfl (by omega) hnew hrow hname
    obtain ⟨rows, hok, hrows, henvs⟩ := ih hnext (by rw [length_append, length_singleton]; omega)
      (by simpa only [append_assoc, map_append, map_cons, map_nil,
        cons_append, nil_append] using hnd)
      (fun row' hmem => hfits row' (mem_cons_of_mem _ hmem))
      (fun row' hmem => hnamed row' (mem_cons_of_mem _ hmem))
    refine ⟨rows, ?_, hrows, ?_⟩
    · have hins : insertStaged acc { row with ordinal := acc.length } =
          .ok (acc ++ [{ row with ordinal := acc.length }]) :=
        h.insertStaged_ok rfl (by omega) hnew hrow
      rw [renumberStaged, hins]
      rw [length_append, length_singleton] at hok
      exact hok
    · rw [henvs]
      simp only [map_append, map_cons, append_assoc, cons_append, nil_append]

/-- **A deletion takes the rows it names**, keeps the order of the others,
and is not refused. -/
theorem StageInv.deleteStagedPrefix_ok (h : StageInv rows) (ids : List String) :
    ∃ rows', deleteStagedPrefix rows ids = .ok rows' ∧ StageInv rows' ∧ rows'.map envelope =
        (rows.filter fun row => !ids.contains row.observationId).map envelope := by
  unfold deleteStagedPrefix
  split
  · next hnil =>
    subst hnil
    refine ⟨rows, rfl, h, ?_⟩
    congr 1
    exact (filter_eq_self.2 fun _ _ => rfl).symm
  · have hsub := @List.filter_sublist _ (fun row => !ids.contains row.observationId) rows
    rw [orderedStage_of_pairwise (h.pairwise.sublist hsub)]
    have hlen := hsub.length_le
    have hsmall := h.small
    exact StageInv.nil.renumberStaged_ok (by rw [length_nil, Nat.zero_add]; omega)
      (h.nodup.sublist (hsub.map _)) (fun row hmem => h.fits row (hsub.subset hmem))
      (fun row hmem => h.named row (hsub.subset hmem))

/-- What is left when the first rows are deleted. -/
theorem filter_of_first {first : List StagedRow}
    (hnd : (rows.map observationId).Nodup) (hfst : first <+: rows) :
    first ++ rows.filter (fun row => !(first.map observationId).contains
      row.observationId) = rows := by
  obtain ⟨rest, rfl⟩ := hfst
  rw [map_append, nodup_append] at hnd
  rw [filter_append, filter_eq_nil_iff.2, nil_append, filter_eq_self.2]
  · intro row hmem
    simp only [Bool.not_eq_true', contains_eq_mem, decide_eq_false_iff_not]
    exact fun hid => hnd.2.2 _ hid _ (mem_map_of_mem hmem) rfl
  · intro row hmem
    simp only [Bool.not_eq_true', contains_eq_mem, decide_eq_false_iff_not, not_not]
    exact mem_map_of_mem hmem

end Remux
