import Remux.Journal.Model.Snapshot

/-!
# Where the events of a rebuilt turn come from

The merge of a snapshot with the live blocks makes up no events: each is
one of a block of the snapshot, or a live one that is recorded, at the
place of a block that is, too. `Group.From` says it of a group of events,
and every step of the merge keeps it.
-/

namespace Remux.Journal

open List

variable {J : Journal} {P : TurnScopedBlockEnvelope → Prop}

/-- The events of a group are from some source. -/
structure BlockLifecycleGroup.From (P : TurnScopedBlockEnvelope → Prop)
    (group : BlockLifecycleGroup) :
    Prop where
  latest : P group.latest
  lifecycles : ∀ row ∈ group.lifecycles, P row.event

/-- An event of a source, at the place of another one. -/
def PlacedFrom (P : TurnScopedBlockEnvelope → Prop) (envelope : ProviderEventEnvelope) : Prop :=
  ∃ event place, P event ∧ P place ∧ ∃ passOrdinal blockOrdinal, envelope =
    event.envelope.withBlockStructure place.place.passId passOrdinal blockOrdinal

/-! ## Groups -/

variable {row : SequencedBlockEnvelope} {groups snapshotBlocks : List BlockLifecycleGroup}
variable {rows : List SequencedBlockEnvelope} {passId turnId : String}
variable {completeKinds : Option (List TurnBlockKind)}

/-- A row added to a group comes from where the row does. -/
theorem BlockLifecycleGroup.From.add {group : BlockLifecycleGroup} (h : group.From P)
    (hrow : P row.event) : (group.add row).From P where
  latest := by
    have hlatest : ∀ newer : Bool, P (if newer then row.event else group.latest) := by
      intro newer
      cases newer
      · exact h.latest
      · exact hrow
    exact hlatest _
  lifecycles := by
    unfold BlockLifecycleGroup.add
    split
    · exact h.lifecycles
    · intro other hne
      rw [mem_insertionSort] at hne
      rcases mem_concat.1 hne with hne | rfl
      · exact h.lifecycles other hne
      · exact hrow

/-- Another row adds to the group of its block, or a group of its own. -/
theorem from_addToGroups (h : ∀ group ∈ groups, group.From P) (hrow : P row.event) :
    ∀ group ∈ addToGroups groups row, group.From P := by
  intro group hgrp
  unfold addToGroups at hgrp
  dsimp only at hgrp
  split at hgrp
  · obtain ⟨old, hold, rfl⟩ := mem_map.1 hgrp
    split
    · exact (h old hold).add hrow
    · exact h old hold
  · rcases mem_concat.1 hgrp with hgrp | rfl
    · exact h group hgrp
    · exact ⟨hrow, fun other hne => by rwa [mem_singleton.1 hne]⟩

/-- The groups come from where their rows do. -/
theorem from_foldl_addToGroups (hgroups : ∀ group ∈ groups, group.From P)
    (h : ∀ row ∈ rows, P row.event) :
    ∀ group ∈ rows.foldl addToGroups groups, group.From P := by
  induction rows generalizing groups with
  | nil => exact hgroups
  | cons row rows ih =>
    exact ih (from_addToGroups hgroups (h row mem_cons_self))
      fun other hne => h other (mem_cons_of_mem _ hne)

theorem from_groupBlockLifecycles (h : ∀ row ∈ rows, P row.event) :
    ∀ group ∈ groupBlockLifecycles rows, group.From P :=
  from_foldl_addToGroups (fun _ hgrp => absurd hgrp not_mem_nil) h

/-! ## Places -/

/-- The passes that blocks are in, and what was there before. -/
theorem mem_passes_foldl {passIds : List String} (h : passId ∈ groups.foldl (fun passIds group =>
      if passIds.contains group.latest.place.passId then passIds
      else passIds ++ [group.latest.place.passId]) passIds) :
    passId ∈ passIds ∨ ∃ group ∈ groups, group.latest.place.passId = passId := by
  induction groups generalizing passIds with
  | nil => exact .inl h
  | cons group groups ih =>
    rcases ih h with hmem | ⟨other, hne, hid⟩
    · dsimp only at hmem
      split at hmem
      · exact .inl hmem
      · rcases mem_concat.1 hmem with hmem | hmem
        · exact .inl hmem
        · exact .inr ⟨group, mem_cons_self, hmem.symm⟩
    · exact .inr ⟨other, mem_cons_of_mem _ hne, hid⟩

/-- A pass has a block in it. -/
theorem mem_passesOf (h : passId ∈ passesOf groups) :
    ∃ group ∈ groups, group.latest.place.passId = passId :=
  (mem_passes_foldl h).resolve_left not_mem_nil

variable {blocks : List BlockLifecycleGroup}

/-- What is placed in a pass is from where its blocks are. -/
theorem placedFrom_placeBlocks {passOrdinal : ℕ}
    (hpass : ∃ place, P place ∧ place.place.passId = passId) (h : ∀ block ∈ blocks, block.From P) :
    ∀ envelope ∈ placeBlocks passId passOrdinal blocks, PlacedFrom P envelope := by
  intro envelope henv
  obtain ⟨place, hplc, rfl⟩ := hpass
  obtain ⟨⟨block, blockOrdinal⟩, hblk, hmem⟩ := mem_flatMap.1 henv
  obtain ⟨row, hrow, rfl⟩ := mem_map.1 hmem
  have hfrom := h block (fst_mem_of_mem_zipIdx hblk)
  exact ⟨row.event, place, hfrom.lifecycles row hrow, hplc, passOrdinal, blockOrdinal, rfl⟩

/-- Merged by ordinal, every event comes from a group. -/
theorem placedFrom_mergeByOrdinal {retainedBlocks : List BlockLifecycleGroup}
    (hsnap : ∀ group ∈ snapshotBlocks, group.From P)
    (hretained : ∀ group ∈ retainedBlocks, group.From P) :
    ∀ envelope ∈ mergeSnapshotAndRetainedBlocksByOrdinal snapshotBlocks retainedBlocks,
      PlacedFrom P envelope := by
  have hall : ∀ group ∈ snapshotBlocks ++ retainedBlocks, group.From P := by
    intro group hgrp
    rcases mem_append.1 hgrp with hgrp | hgrp
    · exact hsnap group hgrp
    · exact hretained group hgrp
  intro envelope henv
  obtain ⟨passId, hpass, hmem⟩ := mem_flatMap.1 henv
  obtain ⟨group, hgrp, hid⟩ := mem_passesOf hpass
  refine placedFrom_placeBlocks ⟨group.latest, (hall group hgrp).latest, hid⟩ ?_ envelope hmem
  intro block hblk
  rw [mem_insertionSort] at hblk
  exact hall block (mem_filter.1 hblk).1

/-! ## Retained blocks -/

/-- What is left is some of the blocks. -/
theorem dropMatching_subset {fingerprints : List TurnBlockPayload} :
    ∀ group ∈ dropMatching blocks fingerprints, group ∈ blocks := by
  induction blocks generalizing fingerprints with
  | nil => exact fun _ => id
  | cons live rest ih =>
    intro group hgrp
    unfold dropMatching at hgrp
    dsimp only at hgrp
    split at hgrp
    · exact mem_cons_of_mem _ (ih group hgrp)
    · rcases mem_cons.1 hgrp with rfl | hgrp
      · exact mem_cons_self
      · exact mem_cons_of_mem _ (ih group hgrp)

/-- A live event of a block of the turn is recorded. -/
structure LiveEvent (J : Journal) (turnId : String) (event : TurnScopedBlockEnvelope) : Prop where
  recorded : ∃ row ∈ J.events.rows, row.envelope = event.envelope
  turn : event.turnId = turnId
  live : event.envelope.inSnapshot = false

/-- A live row holds a live event. -/
theorem liveEvent_of_liveRows (h : row ∈ J.liveRows turnId) : J.LiveEvent turnId row.event := by
  obtain ⟨⟨stored, sequence⟩, hstore, heq⟩ := mem_filterMap.1 h
  dsimp only at heq
  obtain ⟨hlive, heq⟩ := Option.ite_none_right_eq_some.1 heq
  simp only [Bool.and_eq_true, beq_iff_eq, Bool.not_eq_true'] at hlive
  obtain ⟨event, hev, rfl⟩ := Option.map_eq_some_iff.1 heq
  have henv : event.envelope = stored.envelope := by
    unfold ProviderEventEnvelope.turnScopedBlock at hev
    split at hev
    · cases hev
      rfl
    · cases hev
  obtain ⟨_, _, _, hsc⟩ := event.scope_eq
  refine ⟨⟨stored, fst_mem_of_mem_zipIdx hstore, henv.symm⟩, ?_, ?_⟩
  · rw [← henv, hsc] at hlive
    exact Option.some.inj hlive.1
  · rw [henv]
    exact hlive.2

/-- What is retained comes from live events. -/
theorem from_retainedBlocks {hasMarkers : Bool} :
    ∀ group ∈ J.retainedBlocks turnId snapshotBlocks completeKinds hasMarkers,
      group.From (J.LiveEvent turnId) := by
  intro group hgrp
  have hlive := (mem_filter.1 (dropMatching_subset group hgrp)).1
  have hsort := (mem_filter.1 hlive).1
  rw [mem_insertionSort] at hsort
  exact from_groupBlockLifecycles (fun row => liveEvent_of_liveRows) group hsort

/-! ## The merge -/

/-- The blocks of a pass are all that is put in order. -/
theorem orderPass_subset {epoch : ℕ}
    {pending : List (ℕ × BlockLifecycleGroup)} : ∀ group ∈ orderPass blocks epoch pending,
      group ∈ blocks ∨ ∃ e, (e, group) ∈ pending := by
  induction blocks generalizing epoch pending with
  | nil =>
    intro group hgrp
    rcases mem_append.1 hgrp with hgrp | hgrp
    · obtain ⟨⟨e, _⟩, he, rfl⟩ := mem_map.1 hgrp
      exact .inr ⟨e, (mem_filter.1 he).1⟩
    · obtain ⟨⟨e, _⟩, he, rfl⟩ := mem_map.1 hgrp
      rw [mem_insertionSort] at he
      exact .inr ⟨e, (mem_filter.1 he).1⟩
  | cons block rest ih =>
    have hfiltered : ∀ {p : ℕ × BlockLifecycleGroup → Bool} {group : BlockLifecycleGroup},
        group ∈ (pending.filter p).map (·.2) → ∃ e, (e, group) ∈ pending := by
      intro p group hgrp
      obtain ⟨⟨e, _⟩, he, rfl⟩ := mem_map.1 hgrp
      exact ⟨e, (mem_filter.1 he).1⟩
    have hrest : ∀ {next : ℕ} {p : ℕ × BlockLifecycleGroup → Bool} {group : BlockLifecycleGroup},
        group ∈ block :: orderPass rest next (pending.filter p) →
          group ∈ block :: rest ∨ ∃ e, (e, group) ∈ pending := by
      intro next p group hgrp
      rcases mem_cons.1 hgrp with rfl | hgrp
      · exact .inl mem_cons_self
      · rcases ih group hgrp with hmem | ⟨e, he⟩
        · exact .inl (mem_cons_of_mem _ hmem)
        · exact .inr ⟨e, (mem_filter.1 he).1⟩
    intro group hgrp
    unfold orderPass at hgrp
    split at hgrp
    · rcases mem_append.1 hgrp with hgrp | hgrp
      · exact .inr (hfiltered hgrp)
      · exact hrest hgrp
    · split at hgrp
      · rcases mem_append.1 hgrp with hgrp | hgrp
        · exact .inr (hfiltered hgrp)
        · exact hrest hgrp
      · rcases mem_cons.1 hgrp with rfl | hgrp
        · exact .inl mem_cons_self
        · rcases ih group hgrp with hmem | hmem
          · exact .inl (mem_cons_of_mem _ hmem)
          · exact .inr hmem

/-- Merged by epoch, every event comes from a group or a marker. -/
theorem placedFrom_mergeByEpoch {compactionMarkers retained : List BlockLifecycleGroup}
    (hsnap : ∀ group ∈ snapshotBlocks, group.From P)
    (hretained : ∀ group ∈ retained, group.From P) :
    ∀ envelope ∈ J.mergeByEpoch turnId snapshotBlocks compactionMarkers retained,
      PlacedFrom P envelope := by
  intro envelope henv
  obtain ⟨passId, hpass, hmem⟩ := mem_flatMap.1 henv
  obtain ⟨group, hgrp, hid⟩ := mem_passesOf hpass
  refine placedFrom_placeBlocks ⟨group.latest, (hsnap group hgrp).latest, hid⟩ ?_ envelope hmem
  intro block hblk
  rcases orderPass_subset block hblk with hblk | ⟨e, he⟩
  · exact hsnap block (mem_filter.1 hblk).1
  · obtain ⟨live, hlive, heq⟩ := mem_map.1 he
    cases heq
    exact hretained _ (mem_filter.1 hlive).1

/-- **A rebuilt turn is made of the events of the snapshot and the live
ones.** -/
theorem placedFrom_mergedSnapshotBlockEvents {snapshotEvents : List TurnScopedBlockEnvelope} :
    ∀ envelope ∈ J.mergedSnapshotBlockEvents turnId snapshotEvents completeKinds,
      PlacedFrom (fun event => event ∈ snapshotEvents ∨ J.LiveEvent turnId event) envelope := by
  have hsnap : ∀ group ∈ (groupBlockLifecycles (snapshotEvents.zipIdx.map fun row =>
      { sequence := row.2, event := row.1 })).insertionSort snapshotBlockOrder,
      group.From fun event => event ∈ snapshotEvents ∨ J.LiveEvent turnId event := by
    intro group hgrp
    rw [mem_insertionSort] at hgrp
    refine from_groupBlockLifecycles (fun row hrow => ?_) group hgrp
    obtain ⟨⟨event, sequence⟩, hev, rfl⟩ := mem_map.1 hrow
    exact .inl (fst_mem_of_mem_zipIdx hev)
  have hretained : ∀ {snapshotBlocks : List BlockLifecycleGroup} {hasMarkers : Bool},
      ∀ group ∈ J.retainedBlocks turnId snapshotBlocks completeKinds hasMarkers,
        group.From fun event => event ∈ snapshotEvents ∨ J.LiveEvent turnId event := by
    intro snapshotBlocks hasMarkers group hgrp
    have hfrom := from_retainedBlocks group hgrp
    exact ⟨.inr hfrom.latest, fun row hrow => .inr (hfrom.lifecycles row hrow)⟩
  have hnone : ∀ group ∈ ([] : List BlockLifecycleGroup),
      group.From fun event => event ∈ snapshotEvents ∨ J.LiveEvent turnId event :=
    fun _ hgrp => absurd hgrp not_mem_nil
  unfold mergedSnapshotBlockEvents
  dsimp only
  split
  · exact placedFrom_mergeByOrdinal hsnap hnone
  · split
    · exact placedFrom_mergeByOrdinal hsnap hnone
    · split
      · exact placedFrom_mergeByOrdinal hsnap hretained
      · exact placedFrom_mergeByEpoch hsnap hretained

end Remux.Journal
