import Remux.Delivery.Model.Recovery
import Remux.Delivery.Admission

/-!
# Accepted suffixes after a start

The loop comes to every accepted attempt with staged observations, in the
order of the ids, and drains it if those of its execution that were created
before it are drained by then. So it drains them all just when the ids of
each execution follow the order of creation; an attempt that comes before
one that was created earlier is passed over for good.
-/

namespace Remux

open AttemptRecord StagedRow List Except

variable {answer : String → RecoveryAnswer} {table : DeliveryTable} {done : List String}
variable {x y : String}

/-! ## The drain of one attempt -/

/-- The record when its suffix is drained. -/
def AttemptRecord.emptied (r : AttemptRecord) (answer : RecoveryAnswer) : AttemptRecord :=
  { r with
    staging := []
    history := { r.history with
      handed := r.history.handed ++
        (match answer.outcomes >>= prepareStagedProviderEvents r.staged with
          | .ok prepared => prepared.handings
          | .error _ => []) } }

/-- The records when some attempts are drained. -/
def drainedAt (answer : String → RecoveryAnswer) (done : List String) (r : AttemptRecord) :
    AttemptRecord :=
  if r.row.attemptId ∈ done then r.emptied (answer r.row.attemptId) else r

@[simp] theorem drainedAt_row (r : AttemptRecord) : (drainedAt answer done r).row = r.row := by
  unfold drainedAt
  split <;> rfl

@[simp] theorem drainable_drainedAt (r : AttemptRecord) :
    (drainedAt answer done r).drainable = (r.drainable && !done.contains r.row.attemptId) := by
  unfold drainedAt
  split
  · next hmem => simp [drainable, emptied, hmem]
  · next hmem => simp [hmem]

/-- A deletion of every staged row leaves none. -/
theorem StageInv.deleteStagedPrefix_all {rows : List StagedRow} (h : StageInv rows) :
    deleteStagedPrefix rows (rows.map observationId) = .ok [] := by
  obtain ⟨rows', hok, -, henvs⟩ :=
    h.deleteStagedPrefix_ok (rows.map observationId)
  have hnone : rows.filter (fun row => !(rows.map observationId).contains
      row.observationId) = [] := by
    refine filter_eq_nil_iff.2 fun row hmem => ?_
    simp only [Bool.not_eq_true', contains_eq_mem, decide_eq_false_iff_not, not_not]
    exact mem_map_of_mem hmem
  rw [hnone, map_nil] at henvs
  rw [hok, map_eq_nil_iff.1 henvs]

variable {r r' : AttemptRecord} {records records' : List AttemptRecord} {j k : ℕ}

/-- **What a drain of everything leaves.** -/
theorem drainAccepted_emptied {answer : RecoveryAnswer} {prepared : Prepared}
    (hstg : StageInv r.staging)
    (hprep : answer.outcomes >>= prepareStagedProviderEvents r.staged = .ok prepared)
    (hall : prepared.map Prod.fst = r.staged)
    (h : r.drainAccepted prepared answer.append = .ok r') :
    r' = r.emptied answer := by
  obtain ⟨_, -, h⟩ := bind_eq_ok.1 h
  obtain ⟨_, -, h⟩ := bind_eq_ok.1 h
  obtain ⟨_, -, h⟩ := bind_eq_ok.1 h
  have hids : prepared.sourceObservationIds = r.staging.map observationId := by
    have hstaged : r.staged = r.staging := hstg.orderedStage_eq
    rw [Prepared.sourceObservationIds, ← hstaged, ← hall, map_map]
    rfl
  rw [hids, hstg.deleteStagedPrefix_all] at h
  rw [emptied, hprep]
  exact (ok.inj h).symm

/-! ## The order of creation -/

theorem mem_byCreation : r ∈ byCreation records ↔ r ∈ records :=
  (perm_insertionSort _ records).mem_iff

variable (records : List AttemptRecord)

/-- The order does not change when attempts are drained. -/
theorem byCreation_drainedAt : byCreation (records.map (drainedAt answer done)) =
      (byCreation records).map (drainedAt answer done) := by
  refine (map_insertionSort _ _ _ _ fun r _ r' _ => ?_).symm
  rw [drainedAt_row, drainedAt_row]

/-- The ids name the attempts. -/
theorem DeliveryTable.eq_of_attemptId (table : DeliveryTable) (hr : r ∈ table.records)
    (hr' : r' ∈ table.records) (h : r.row.attemptId = r'.row.attemptId) : r = r' :=
  inj_on_of_nodup_map table.nodup hr hr' h

/-- An index of the order stands for its id. -/
theorem DeliveryTable.index_eq (table : DeliveryTable) {i : ℕ}
    (hi : i < (byCreation table.records).length) (hj : j < (byCreation table.records).length)
    (h : (byCreation table.records)[i].row.attemptId =
      (byCreation table.records)[j].row.attemptId) : i = j := by
  have hnd : ((byCreation table.records).map fun r => r.row.attemptId).Nodup :=
    ((perm_insertionSort _ table.records).map _).nodup_iff.2 table.nodup
  have hi' : i < ((byCreation table.records).map fun r => r.row.attemptId).length := by
    rwa [length_map]
  have hj' : j < ((byCreation table.records).map fun r => r.row.attemptId).length := by
    rwa [length_map]
  have hget : ((byCreation table.records).map fun r => r.row.attemptId)[i] =
      ((byCreation table.records).map fun r => r.row.attemptId)[j] := by
    rw [getElem_map, getElem_map]
    exact h
  exact (List.Nodup.getElem_inj_iff hnd).1 hget

/-! ## The visit of an attempt -/

/-- The attempt is the first of its execution that is not drained. -/
def IsNext (table : DeliveryTable) (done : List String) (k : ℕ)
    (hk : k < (byCreation table.records).length) : Prop :=
  ∀ i (hi : i < k), (byCreation table.records)[i].drainable = true →
    (byCreation table.records)[i].row.executionId = (byCreation table.records)[k].row.executionId →
    (byCreation table.records)[i].row.attemptId ∈ done

/-- **The loop has come to an id**: an attempt is drained if the loop came
to it when those created before it in its execution were drained. -/
def Visited (table : DeliveryTable) (x : String) (done : List String) : Prop :=
  ∀ j (hj : j < (byCreation table.records).length), (byCreation table.records)[j].drainable = true →
    ((byCreation table.records)[j].row.attemptId ∈ done ↔
      (byCreation table.records)[j].row.attemptId ≤ x ∧
        ∀ i (hi : i < j), (byCreation table.records)[i].drainable = true →
          (byCreation table.records)[i].row.executionId =
            (byCreation table.records)[j].row.executionId →
          (byCreation table.records)[i].row.attemptId ∈ done ∧
            (byCreation table.records)[i].row.attemptId <
              (byCreation table.records)[j].row.attemptId)

/-- No attempt lies between two visits. -/
def Adjacent (table : DeliveryTable) (x y : String) : Prop :=
  ∀ r ∈ table.records, r.drainable = true → r.row.attemptId ≤ y →
    r.row.attemptId ≤ x ∨ r.row.attemptId = y

theorem Visited.le (h : Visited table x done) (hj : j < (byCreation table.records).length)
    (hdrain : (byCreation table.records)[j].drainable = true)
    (hmem : (byCreation table.records)[j].row.attemptId ∈ done) :
    (byCreation table.records)[j].row.attemptId ≤ x :=
  ((h j hj hdrain).1 hmem).1

/-- At the start the loop has come to none. -/
theorem Visited.init (table : DeliveryTable) : Visited table "" [] := by
  intro j hj _
  have hnamed := table.named _ (mem_byCreation.1 (getElem_mem hj))
  refine ⟨fun hmem => absurd hmem not_mem_nil, fun hle => absurd ?_ hnamed⟩
  exact le_antisymm hle.1 (not_lt.1 fun hlt => not_lt_nil _ (String.lt_iff_toList_lt.1 hlt))

/-- **A visit that drains.** -/
theorem Visited.drain (h : Visited table x done) (hk : k < (byCreation table.records).length)
    (hlt : x < (byCreation table.records)[k].row.attemptId)
    (hadj : Adjacent table x (byCreation table.records)[k].row.attemptId)
    (hnext : IsNext table done k hk) :
    Visited table (byCreation table.records)[k].row.attemptId
      ((byCreation table.records)[k].row.attemptId :: done) := by
  intro j hj hdrain
  by_cases hjk : (byCreation table.records)[j].row.attemptId =
      (byCreation table.records)[k].row.attemptId
  · obtain rfl := table.index_eq hj hk hjk
    refine iff_of_true mem_cons_self ⟨le_rfl, fun i hi hdr hexec => ?_⟩
    have hmem := hnext i hi hdr hexec
    exact ⟨mem_cons_of_mem _ hmem, (h.le (by omega) hdr hmem).trans_lt hlt⟩
  · -- the others are judged as before: what comes before them has a smaller id
    rw [mem_cons, or_iff_right hjk, h j hj hdrain]
    constructor
    · rintro ⟨hle, hbef⟩
      exact ⟨hle.trans hlt.le, fun i hi hdr hexec =>
        ⟨mem_cons_of_mem _ (hbef i hi hdr hexec).1, (hbef i hi hdr hexec).2⟩⟩
    · rintro ⟨hle, hbef⟩
      have hx := (hadj _ (mem_byCreation.1 (getElem_mem hj)) hdrain hle).resolve_right hjk
      refine ⟨hx, fun i hi hdr hexec => ?_⟩
      obtain ⟨hmem, hid⟩ := hbef i hi hdr hexec
      refine ⟨(mem_cons.1 hmem).resolve_left fun heq => ?_, hid⟩
      rw [heq] at hid
      exact absurd (hid.trans_le hx) hlt.asymm

/-- **A visit that passes an attempt over.** -/
theorem Visited.pass (h : Visited table x done) (hk : k < (byCreation table.records).length)
    (hlt : x < (byCreation table.records)[k].row.attemptId)
    (hadj : Adjacent table x (byCreation table.records)[k].row.attemptId)
    (hnext : ¬IsNext table done k hk) :
    Visited table (byCreation table.records)[k].row.attemptId done := by
  intro j hj hdrain
  rw [h j hj hdrain]
  by_cases hjk : (byCreation table.records)[j].row.attemptId =
      (byCreation table.records)[k].row.attemptId
  · obtain rfl := table.index_eq hj hk hjk
    refine iff_of_false (fun hle => absurd hle.1 (not_le.2 hlt)) fun hle => hnext ?_
    exact fun i hi hdr hexec => (hle.2 i hi hdr hexec).1
  · refine and_congr_left fun _ => ⟨fun hle => hle.trans hlt.le, fun hle => ?_⟩
    exact (hadj _ (mem_byCreation.1 (getElem_mem hj)) hdrain hle).resolve_right hjk

/-- What `acceptedWithStage` finds when some attempts are drained. -/
theorem acceptedWithStage_drainedAt (executionId : String) :
    acceptedWithStage (records.map (drainedAt answer done)) executionId =
      match (byCreation records).find? fun r => r.row.executionId = executionId &&
          (r.drainable && !done.contains r.row.attemptId) with
      | some r => do
        let _ ← r.require
        return some r
      | none => return none := by
  unfold acceptedWithStage
  rw [byCreation_drainedAt, find?_map]
  have hcomp : ((fun r : AttemptRecord => decide (r.row.executionId = executionId) && r.drainable) ∘
      drainedAt answer done) = fun r => decide (r.row.executionId = executionId) &&
        (r.drainable && !done.contains r.row.attemptId) := by
    funext r
    simp only [Function.comp_apply, drainedAt_row, drainable_drainedAt]
  rw [hcomp]
  cases hfind : (byCreation records).find? fun r => decide (r.row.executionId = executionId) &&
      (r.drainable && !done.contains r.row.attemptId) with
  | none => rfl
  | some r =>
    have hr := find?_some hfind
    simp only [Bool.and_eq_true, Bool.not_eq_true', contains_eq_mem, decide_eq_false_iff_not] at hr
    have hsame : drainedAt answer done r = r := if_neg hr.2.2
    rw [Option.map_some, hsame]

/-- **A row of a page**: its attempt is drained or passed over. -/
theorem recoverStage_spec (hv : Visited table x done) (hr : r ∈ table.records)
    (hdrain : r.drainable = true) (hlt : x < r.row.attemptId)
    (hadj : Adjacent table x r.row.attemptId) (hprepares : (answer r.row.attemptId).Prepares r)
    (h : recoverStage (answer r.row.attemptId) (table.records.map (drainedAt answer done))
      r.row.attemptId r.row.executionId = .ok records') :
    ∃ done', records' = table.records.map (drainedAt answer done') ∧
      Visited table r.row.attemptId done' := by
  obtain ⟨k, hk, rfl⟩ := getElem_of_mem (mem_byCreation.2 hr)
  have hnew : (byCreation table.records)[k].row.attemptId ∉ done := fun hmem =>
    absurd (hv.le hk hdrain hmem) (not_le.2 hlt)
  obtain ⟨found, hfnd, h⟩ := bind_eq_ok.1 h
  rw [acceptedWithStage_drainedAt] at hfnd
  split at hfnd
  · next r₁ hfind =>
    obtain ⟨_, -, hfnd⟩ := bind_eq_ok.1 hfnd
    obtain rfl := ok.inj hfnd
    obtain ⟨hpred, i, hi, rfl, hfst⟩ := find?_eq_some_iff_getElem.1 hfind
    simp only [Bool.and_eq_true, decide_eq_true_eq, Bool.not_eq_true', contains_eq_mem,
      decide_eq_false_iff_not, Bool.and_eq_false_iff, Bool.not_eq_false'] at hpred hfst
    dsimp only at h
    split at h
    · -- another attempt of the execution is found: it comes before this one
      next hne =>
      obtain rfl := ok.inj h
      refine ⟨done, rfl, hv.pass hk hlt hadj fun hnext => ?_⟩
      rcases lt_trichotomy i k with hik | rfl | hik
      · exact hpred.2.2 (hnext i hik hpred.2.1 hpred.1)
      · exact hne rfl
      · rcases hfst k hik with hexec | hdr | hmem
        · exact hexec rfl
        · rw [hdrain] at hdr
          cases hdr
        · exact hnew hmem
    · next hsame =>
      obtain rfl := table.index_eq hi hk (not_not.1 hsame)
      obtain ⟨prepared, hprepared, h⟩ := bind_eq_ok.1 h
      obtain ⟨drained, hdrained, h⟩ := bind_eq_ok.1 h
      obtain ⟨_, -, h⟩ := bind_eq_ok.1 h
      obtain rfl := ok.inj h
      obtain ⟨prepared', hprep', hall⟩ := hprepares
      have hprep : prepared' = prepared := by
        rw [hprep'] at hprepared
        exact ok.inj hprepared
      obtain rfl := hprep
      have hstg := table.stage _ hr
      obtain rfl := drainAccepted_emptied hstg hprep' hall hdrained
      refine ⟨_ :: done, ?_, hv.drain hk hlt hadj fun j hj hdr hexec => ?_⟩
      · rw [map_map]
        refine map_congr_left fun r' hr' => ?_
        rw [Function.comp_apply, drainedAt_row]
        split
        · next hid =>
          obtain rfl := table.eq_of_attemptId hr' hr hid
          rw [drainedAt, if_pos mem_cons_self]
        · next hid =>
          unfold drainedAt
          simp only [mem_cons, hid, false_or]
      · rcases hfst j hj with hexec' | hdr' | hmem
        · exact absurd hexec hexec'
        · rw [hdr] at hdr'
          cases hdr'
        · exact hmem
  · next hnone =>
    refine absurd (find?_eq_none.1 hnone _ (getElem_mem hk)) (not_not.2 ?_)
    simp only [decide_true, Bool.true_and, hdrain, Bool.not_eq_true', contains_eq_mem,
      decide_eq_false_iff_not]
    exact hnew

/-! ## The pages -/

/-- An attempt behind the ids of a page, or on it. -/
def OnPage (table : DeliveryTable) (x : String) (page : List AttemptRecord) : Prop :=
  ∀ r ∈ table.records, r.drainable = true → x < r.row.attemptId →
    r ∈ page ∨ ∀ row ∈ page, row.row.attemptId < r.row.attemptId

/-- **A page**, row by row. By induction on it: the row that comes next is
adjacent to where the loop has come to. -/
theorem recoverPage_spec {page : List AttemptRecord} (hv : Visited table x done)
    (hsort : page.Pairwise fun r r' => r.row.attemptId < r'.row.attemptId)
    (hpage : ∀ r ∈ page, r ∈ table.records ∧ r.drainable = true ∧ x < r.row.attemptId)
    (hon : OnPage table x page)
    (hprepares : ∀ r ∈ table.records, r.drainable = true → (answer r.row.attemptId).Prepares r)
    (h : recoverPage answer (table.records.map (drainedAt answer done)) page = .ok records') :
    ∃ done', records' = table.records.map (drainedAt answer done') ∧
      Visited table ((page.map fun r => r.row.attemptId).getLastD x) done' := by
  induction page generalizing x done with
  | nil => exact ⟨done, (ok.inj h).symm, hv⟩
  | cons row page ih =>
    obtain ⟨records, hrow, h⟩ := bind_eq_ok.1 h
    obtain ⟨haft, hsort⟩ := pairwise_cons.1 hsort
    obtain ⟨hr, hdrain, hlt⟩ := hpage row mem_cons_self
    have hadj : Adjacent table x row.row.attemptId := by
      intro r hmem hdr hle
      refine or_iff_not_imp_left.2 fun hx => ?_
      rcases hon r hmem hdr (not_le.1 hx) with hin | hbehind
      · rcases mem_cons.1 hin with rfl | hin
        · rfl
        · exact absurd (haft r hin) (not_lt.2 hle)
      · exact absurd (hbehind row mem_cons_self) (not_lt.2 hle)
    obtain ⟨done', rfl, hv'⟩ :=
      recoverStage_spec hv hr hdrain hlt hadj (hprepares row hr hdrain) hrow
    have hrest : ∀ r ∈ page, r ∈ table.records ∧ r.drainable = true ∧
        row.row.attemptId < r.row.attemptId := fun r hmem =>
      have hfacts := hpage r (mem_cons_of_mem _ hmem)
      ⟨hfacts.1, hfacts.2.1, haft r hmem⟩
    have hon' : OnPage table row.row.attemptId page := by
      intro r hmem hdr hbehind
      rcases hon r hmem hdr (hlt.trans hbehind) with hin | hall
      · rcases mem_cons.1 hin with rfl | hin
        · exact absurd hbehind (lt_irrefl _)
        · exact .inl hin
      · exact .inr fun row' hrow' => hall row' (mem_cons_of_mem _ hrow')
    rw [map_cons, getLastD_cons]
    exact ih hv' hsort hrest hon' h

/-- The rows behind the cursor are the ones that were there at the start. -/
theorem mem_stagePage (h : r ∈ stagePage (table.records.map (drainedAt answer done)) x) :
    r ∈ table.records ∧ r.drainable = true ∧ x < r.row.attemptId := by
  have hmem := (perm_insertionSort _ _).mem_iff.1 (mem_of_mem_take h)
  obtain ⟨hmap, hpred⟩ := mem_filter.1 hmem
  obtain ⟨r₀, hr₀, rfl⟩ := mem_map.1 hmap
  simp only [drainable_drainedAt, drainedAt_row, Bool.and_eq_true, Bool.not_eq_true',
    contains_eq_mem, decide_eq_false_iff_not, decide_eq_true_eq] at hpred
  have hsame : drainedAt answer done r₀ = r₀ := if_neg hpred.1.2
  rw [hsame]
  exact ⟨hr₀, hpred.1.1, hpred.2⟩

/-- An attempt behind the cursor is not drained yet. -/
theorem Visited.notMem (hv : Visited table x done) (hr : r ∈ table.records)
    (hdrain : r.drainable = true) (hlt : x < r.row.attemptId) : r.row.attemptId ∉ done := by
  obtain ⟨k, hk, rfl⟩ := getElem_of_mem (mem_byCreation.2 hr)
  exact fun hmem => absurd (hv.le hk hdrain hmem) (not_le.2 hlt)

variable (answer : String → RecoveryAnswer)

/-- The rows behind the cursor, before the page is cut. -/
theorem mem_behind (hv : Visited table x done)
    (hr : r ∈ table.records) (hdrain : r.drainable = true) (hlt : x < r.row.attemptId) :
    r ∈ ((table.records.map (drainedAt answer done)).filter fun r =>
      r.drainable && x < r.row.attemptId).insertionSort
        fun r r' => r.row.attemptId ≤ r'.row.attemptId := by
  have hnew := hv.notMem hr hdrain hlt
  have hsame : drainedAt answer done r = r := if_neg hnew
  refine (perm_insertionSort _ _).mem_iff.2 (mem_filter.2 ⟨?_, ?_⟩)
  · exact mem_map.2 ⟨r, hr, hsame⟩
  · rw [hdrain, Bool.true_and, decide_eq_true_eq]
    exact hlt

/-- Every attempt behind the cursor is on its page or behind it. -/
theorem stagePage_spec (hv : Visited table x done) :
    (stagePage (table.records.map (drainedAt answer done)) x).Pairwise
        (fun r r' => r.row.attemptId < r'.row.attemptId) ∧
      OnPage table x (stagePage (table.records.map (drainedAt answer done)) x) := by
  set rows := ((table.records.map (drainedAt answer done)).filter fun r =>
    r.drainable && x < r.row.attemptId).insertionSort
      fun r r' => r.row.attemptId ≤ r'.row.attemptId with hrows
  have hids : ((table.records.map (drainedAt answer done)).map fun r => r.row.attemptId) =
      table.records.map fun r => r.row.attemptId := by
    rw [map_map]
    exact map_congr_left fun r _ => by rw [Function.comp_apply, drainedAt_row]
  have hnd : (rows.map fun r => r.row.attemptId).Nodup := by
    rw [((perm_insertionSort _ _).map _).nodup_iff]
    exact (hids ▸ table.nodup).sublist (filter_sublist.map _)
  have hsort : rows.Pairwise fun r r' => r.row.attemptId < r'.row.attemptId := by
    have : Std.Total fun r r' : AttemptRecord => r.row.attemptId ≤ r'.row.attemptId :=
      ⟨fun r r' => le_total _ _⟩
    have : IsTrans AttemptRecord fun r r' => r.row.attemptId ≤ r'.row.attemptId :=
      ⟨fun _ _ _ => le_trans⟩
    exact ((pairwise_insertionSort _ _).and (pairwise_map.1 hnd)).imp
      fun ⟨hle, hne⟩ => lt_of_le_of_ne hle hne
  refine ⟨hsort.sublist (take_sublist _ _), fun r hr hdrain hlt => ?_⟩
  have hmem := mem_behind answer hv hr hdrain hlt
  rw [← hrows, ← take_append_drop 256 rows] at hmem
  rw [← take_append_drop 256 rows] at hsort
  rcases mem_append.1 hmem with hin | hbehind
  · exact .inl hin
  · exact .inr fun row hrow => (pairwise_append.1 hsort).2.2 row hrow r hbehind

/-! ## The loop -/

/-- The attempts the loop has not come to. -/
def behind (table : DeliveryTable) (x : String) : ℕ :=
  table.records.countP fun r => r.drainable && x < r.row.attemptId

/-- **The loop ends behind every attempt.** By induction on the fuel, of
which there is more than attempts are left. -/
theorem recoverStages_settles (fuel : ℕ) (hv : Visited table x done) (hfuel : behind table x < fuel)
    (hprepares : ∀ r ∈ table.records, r.drainable = true → (answer r.row.attemptId).Prepares r) :
    Settles (recoverStages answer fuel x (table.records.map (drainedAt answer done)))
      (fun records => ∃ y done', records = table.records.map (drainedAt answer done') ∧
        Visited table y done' ∧
        ∀ r ∈ table.records, r.drainable = true → r.row.attemptId ≤ y)
      fun failure => failure ≠ .outOfFuel := by
  induction fuel generalizing x done with
  | zero => exact absurd hfuel (Nat.not_lt_zero _)
  | succ fuel ih =>
    obtain ⟨hsort, hon⟩ := stagePage_spec answer hv
    unfold recoverStages
    split
    · next hnone =>
      -- nothing is behind the cursor
      refine settles_pure ⟨x, done, rfl, hv, fun r hr hdrain => not_lt.1 fun hlt => ?_⟩
      rw [getLast?_eq_none_iff] at hnone
      have hmem := mem_behind answer hv hr hdrain hlt
      refine ne_nil_of_mem hmem (eq_nil_of_length_eq_zero ?_)
      have hlen := congrArg length hnone
      rw [stagePage, length_take, length_nil] at hlen
      omega
    · next last hlast =>
      refine settles_bind ?_
      cases hpage : recoverPage answer (table.records.map (drainedAt answer done))
          (stagePage (table.records.map (drainedAt answer done)) x) with
      | error thrown => exact nofun
      | ok records =>
        obtain ⟨done', rfl, hv'⟩ := recoverPage_spec hv hsort (fun r => mem_stagePage) hon
          hprepares hpage
        obtain ⟨before, hpages⟩ := getLast?_eq_some_iff.1 hlast
        rw [hpages, map_append, map_singleton, getLastD_concat] at hv'
        have hmem : last ∈ stagePage (table.records.map (drainedAt answer done)) x :=
          mem_of_getLast? hlast
        obtain ⟨hr, hdrain, hlt⟩ := mem_stagePage hmem
        have hless : behind table last.row.attemptId < behind table x := by
          refine countP_lt_countP (fun r _ hr => ?_) hr ?_ ?_
          · simp only [Bool.and_eq_true, decide_eq_true_eq] at hr ⊢
            exact ⟨hr.1, hlt.trans hr.2⟩
          · simp only [lt_irrefl, decide_false, Bool.and_false]
          · simp only [hdrain, hlt, decide_true, Bool.and_self]
        exact ih hv' (by omega)

/-! ## Who is drained in the end -/

/-- **Everything is drained just when the ids follow the creation.** By
induction on the order of creation. -/
theorem Visited.drained_iff (hv : Visited table y done)
    (hall : ∀ r ∈ table.records, r.drainable = true → r.row.attemptId ≤ y) :
    (∀ r ∈ table.records, r.drainable = true → r.row.attemptId ∈ done) ↔
      CreatedInOrder table.records := by
  unfold CreatedInOrder
  rw [pairwise_filter, pairwise_iff_getElem]
  constructor
  · intro hdone i j hi hj hij hdri hdrj hexec
    have hmem := hdone _ (mem_byCreation.1 (getElem_mem hj)) hdrj
    exact (((hv j hj hdrj).1 hmem).2 i hij hdri hexec).2
  · intro horder
    have hdone : ∀ j (hj : j < (byCreation table.records).length),
        (byCreation table.records)[j].drainable = true →
        (byCreation table.records)[j].row.attemptId ∈ done := by
      intro j
      induction j using Nat.strong_induction_on with
      | _ j ih =>
        intro hj hdrj
        refine (hv j hj hdrj).2 ⟨hall _ (mem_byCreation.1 (getElem_mem hj)) hdrj, ?_⟩
        intro i hi hdri hexec
        exact ⟨ih i hi (hi.trans hj) hdri, horder i j (hi.trans hj) hj hi hdri hdrj hexec⟩
    intro r hr hdr
    obtain ⟨k, hk, rfl⟩ := getElem_of_mem (mem_byCreation.2 hr)
    exact hdone k hk hdr

/-- An attempt that is drained has no stage, and is accepted. -/
theorem drainable_eq_true : r.drainable = true ↔ r.row.state = .accepted ∧ r.staging ≠ [] := by
  simp only [drainable, Bool.and_eq_true, decide_eq_true_eq, Bool.not_eq_true',
    isEmpty_eq_false_iff, ne_eq]

/-- The claim about what is unresolved comes with the stages. -/
theorem recovered_iff : Recovered records ↔ ∀ r ∈ records, r.drainable = false := by
  constructor
  · intro h r hr
    refine Bool.eq_false_iff.2 fun hdrain => ?_
    obtain ⟨hacc, hstgs⟩ := drainable_eq_true.1 hdrain
    exact hstgs (h.1 r hr hacc)
  · intro h
    refine ⟨fun r hr hacc => ?_, fun conversationId hunresolved => ?_⟩
    · by_contra hstgs
      exact Bool.eq_false_iff.1 (h r hr) (drainable_eq_true.2 ⟨hacc, hstgs⟩)
    · obtain ⟨r, hr, hst⟩ := any_eq_true.1 hunresolved
      simp only [h r hr, Bool.or_false, Bool.and_eq_true, Bool.or_eq_true, decide_eq_true_eq] at hst
      exact ⟨r, hr, hst.1, or_assoc.1 hst.2⟩

/-- **Recovery drains every suffix just when the ids follow the creation**,
and it is never stopped by its own loop. -/
theorem recovery_drains (table : DeliveryTable) (answer : String → RecoveryAnswer)
    (hprepares : ∀ r ∈ table.records, r.drainable = true → (answer r.row.attemptId).Prepares r) :
    recoverAcceptedDeliveryStages answer table.records ≠ .error .outOfFuel ∧
      ∀ records, recoverAcceptedDeliveryStages answer table.records = .ok records →
        (Recovered records ↔ CreatedInOrder table.records) := by
  have hstart : table.records.map (drainedAt answer []) = table.records :=
    (List.map_congr_left fun r _ => if_neg List.not_mem_nil).trans (List.map_id _)
  have hsettles := recoverStages_settles answer (table.records.length + 1)
    (Visited.init table) (Nat.lt_succ_of_le List.countP_le_length) hprepares
  rw [hstart] at hsettles
  refine ⟨fun herror => hsettles.error herror rfl, fun records hok => ?_⟩
  obtain ⟨y, done, rfl, hv, hall⟩ := hsettles.ok hok
  rw [recovered_iff, ← hv.drained_iff hall, List.forall_mem_map]
  refine forall₂_congr fun r _ => ?_
  rw [drainable_drainedAt]
  cases r.drainable with
  | false | true => simp

/-! ## Two suffixes of one execution -/

instance (answer : RecoveryAnswer) (r : AttemptRecord) : Decidable (answer.Prepares r) :=
  decidable_of_iff
    (((answer.outcomes >>= prepareStagedProviderEvents r.staged).toOption.any fun prepared =>
      decide (prepared.map Prod.fst = r.staged)) = true)
    (by
      unfold RecoveryAnswer.Prepares
      cases answer.outcomes >>= prepareStagedProviderEvents r.staged with
      | error _ => simp [Except.toOption]
      | ok prepared => simp [Except.toOption])

/-- An accepted turn with an event that came in while it was admitted. -/
def suffixRecord (attemptId turnId : String) (now : ℕ) : AttemptRecord :=
  let input := { queuedTurn with
    attemptId, commandId := attemptId, intendedTurnId := some turnId,
    clientMessageId := some turnId, nativeClientMessageId := some turnId,
    recoveryPayload := .object [("turnId", .string turnId), ("clientMessageId", .string turnId),
      ("nativeClientMessageId", .string turnId), ("content", .array []),
      ("model", .string "gpt"), ("access", .string "read-only")],
    now }
  let event := { turnEvent turnId "suffix" with
    scope := .turn "provider-1" "conversation-1" "execution-1" turnId }
  { row := ((input.row.cross now none none).prove now
      (.codexTurnStartResponse "thread-1" turnId turnId) (some turnId) none).accept now
    staging := [⟨0, turnId, event⟩]
    history := ⟨1, none, [event], [], []⟩ }

/-- Two turns of an execution, in the order of their creation. -/
def suffixTable (first second : String) (hfirst : first ≠ "") (hsecond : second ≠ "")
    (hne : first ≠ second) : DeliveryTable where
  records := [suffixRecord first "turn-1" 1, suffixRecord second "turn-2" 2]
  nodup := List.nodup_cons.2 ⟨fun h => hne (List.mem_singleton.1 h), List.nodup_singleton _⟩
  named r hr := by
    rcases List.mem_cons.1 hr with rfl | hr
    · exact hfirst
    · rw [List.mem_singleton.1 hr]
      exact hsecond
  stage r hr := by
    have hstage : ∀ id turnId now, StageInv (suffixRecord id turnId now).staging := fun _ _ _ =>
      StageInv.nil.concat rfl (by decide) List.not_mem_nil
        (by decide : "suffix".utf8ByteSize ≤ maxStageRowBytes) rfl
    rcases List.mem_cons.1 hr with rfl | hr
    · exact hstage first "turn-1" 1
    · rw [List.mem_singleton.1 hr]
      exact hstage second "turn-2" 2

/-- The preparation hands the event on as it is. -/
def handOn (table : DeliveryTable) (attemptId : String) : RecoveryAnswer where
  outcomes := .ok (((table.records.find? fun r => r.row.attemptId = attemptId).map fun r =>
    r.staged.map fun row => some [row.envelope]).getD [])
  append := .ok ()
  effects := .ok ()

/-- The second turn has the smaller id. -/
def passedOver : DeliveryTable :=
  suffixTable "attempt-2" "attempt-1" (by decide) (by decide) (by decide)

/-- **A suffix is passed over for good**, and its conversation is
unresolved because of nothing else. -/
theorem suffix_passed_over : (∀ r ∈ passedOver.records, r.drainable = true →
      (handOn passedOver r.row.attemptId).Prepares r) ∧
    ∃ records, recoverAcceptedDeliveryStages (handOn passedOver) passedOver.records = .ok records ∧
      (∃ r ∈ records, r.row.attemptId = "attempt-1" ∧ r.row.state = .accepted ∧
        r.staging.length = 1) ∧
      hasUnresolvedRootDelivery records "conversation-1" = true ∧
      ¬∃ r ∈ records, r.row.state = .preparing ∨ r.row.state = .dispatching ∨
        r.row.state = .unknown := by
  refine ⟨by decide +kernel, ?_⟩
  have hrun : (recoverAcceptedDeliveryStages (handOn passedOver)
      passedOver.records).toOption.any (fun records => decide
        ((∃ r ∈ records, r.row.attemptId = "attempt-1" ∧ r.row.state = .accepted ∧
          r.staging.length = 1) ∧
        hasUnresolvedRootDelivery records "conversation-1" = true ∧
        ¬∃ r ∈ records, r.row.state = .preparing ∨ r.row.state = .dispatching ∨
          r.row.state = .unknown)) = true := by
    decide +kernel
  obtain ⟨records, hrecords, hfacts⟩ := (Option.any_eq_true _ _).1 hrun
  rw [decide_eq_true_eq] at hfacts
  exact ⟨records, toOption_eq_some.1 hrecords, hfacts⟩

/-- The second turn has the greater id. -/
def createdInOrder : DeliveryTable :=
  suffixTable "attempt-1" "attempt-2" (by decide) (by decide) (by decide)

/-- Two attempts are drained, in the order they were created. -/
theorem recovery_drains_two : ∃ records, recoverAcceptedDeliveryStages (handOn createdInOrder)
        createdInOrder.records = .ok records ∧ records.length = 2 ∧ Recovered records := by
  have hrun : (recoverAcceptedDeliveryStages (handOn createdInOrder)
      createdInOrder.records).toOption.any (fun records => decide (records.length = 2)) = true := by
    decide +kernel
  obtain ⟨records, hrecords, hlength⟩ := (Option.any_eq_true _ _).1 hrun
  have hok := toOption_eq_some.1 hrecords
  have horder : CreatedInOrder createdInOrder.records := by
    unfold CreatedInOrder
    decide +kernel
  exact ⟨records, hok, of_decide_eq_true hlength,
    ((recovery_drains createdInOrder (handOn createdInOrder)
      (by decide +kernel)).2 records hok).2 horder⟩

end Remux
