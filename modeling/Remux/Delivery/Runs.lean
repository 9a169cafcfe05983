import Remux.Delivery.Operations
import Remux.Delivery.Stage

/-!
# The runs of the delivery drivers

A step changes at most one record, and by one change; what a driver goes by
(`DeliveryDriver.Knows`) stays true of its record while other drivers work
on it. From this the invariant of every record holds in every run
(`DeliveryInv.of_reachable`).
-/

namespace Remux

open DeliveryAttempt AttemptRecord Relation AList Option StagedRow

variable {orderly short : Prop} {r r' : AttemptRecord} {s s' : DeliveryState} {a : DeliveryAction}
variable {id : String} {d : DeliveryDriver} {β : Type}

/-! ## Records -/

/-- **The invariant of a record.** -/
structure RecordInv (r : AttemptRecord) : Prop where
  checks : r.row.Checks
  stage : StageInv r.staging
  admissions : r.history.admissions = if r.row.state = .accepted then 1 else 0
  proof : r.row.state = .accepted →
    ∃ e ∈ r.row.acceptanceEvidence, r.row.validateEvidence e = .ok ()
  refusal : r.row.state = .rejected → r.row.crossedAt.isSome →
    ∃ evidence error, r.history.responseRejection = some (evidence, error) ∧
      error.message = codexActiveCompactRejection ∧ evidence.threadId = r.row.nativeSessionId ∧
      r.row.provider = .codex ∧ r.row.kind = .rootTurn
  gap : r.history.refused ≠ [] → r.row.transcriptGap = true

/-- **What was observed is handed on or staged**, in order, and is handed on
as what has its identity. -/
structure Kept (r : AttemptRecord) : Prop where
  order : r.history.handed.map Handing.source ++ r.staging.map envelope =
    r.history.observed
  forms : ∀ handing ∈ r.history.handed, ∀ form ∈ handing.forms,
    form.eventId = handing.source.eventId

theorem map_source_handings (prepared : Prepared) : prepared.handings.map Handing.source =
      (prepared.map Prod.fst).map envelope := by
  rw [Prepared.handings, List.map_map, List.map_map]
  rfl

theorem sourceObservationIds_eq (prepared : Prepared) :
    prepared.sourceObservationIds = (prepared.map Prod.fst).map observationId := by
  rw [Prepared.sourceObservationIds, List.map_map]
  rfl

variable {prepared : Prepared} {now i : ℕ} {source : List StagedRow} {d' : DeliveryDriver}

/-- The forms of what was prepared from the stage name their sources. -/
theorem forms_of_first (hstg : StageInv r.staging)
    (hforms : ∀ item ∈ prepared, ∀ form ∈ item.2, form.eventId = item.1.observationId)
    (hfst : prepared.map Prod.fst <+: r.staged) :
    ∀ handing ∈ prepared.handings, ∀ form ∈ handing.forms,
      form.eventId = handing.source.eventId := by
  intro handing hmem form hform
  obtain ⟨item, hitem, rfl⟩ := List.mem_map.1 hmem
  rw [AttemptRecord.staged, hstg.orderedStage_eq] at hfst
  have hnamed := hstg.named item.1 (hfst.subset (List.mem_map_of_mem hitem))
  exact (hforms item hitem form hform).trans hnamed

/-- The first rows of a stage are handed on. -/
theorem Kept.hand {first : List StagedRow} {staging : List StagedRow} (h : Kept r)
    (handed : List Handing) (hstg : StageInv r.staging) (hfst : first <+: r.staged)
    (hhanded : handed.map Handing.source = first.map envelope)
    (hforms : ∀ handing ∈ handed, ∀ form ∈ handing.forms, form.eventId = handing.source.eventId)
    (hstgs : deleteStagedPrefix r.staging (first.map observationId) = .ok staging)
    (hobserved : r'.history.observed = r.history.observed)
    (hhanded' : r'.history.handed = r.history.handed ++ handed) (hstgs' : r'.staging = staging) :
    Kept r' := by
  rw [AttemptRecord.staged, hstg.orderedStage_eq] at hfst
  obtain ⟨rows, hok, -, henvs⟩ :=
    hstg.deleteStagedPrefix_ok (first.map observationId)
  obtain rfl := Except.ok.inj (hstgs.symm.trans hok)
  have hsplit := filter_of_first hstg.nodup hfst
  constructor
  · rw [hobserved, hhanded', hstgs', List.map_append, hhanded, henvs, List.append_assoc,
      ← List.map_append, hsplit]
    exact h.order
  · intro handing hmem
    rw [hhanded'] at hmem
    exact (List.mem_append.1 hmem).elim (h.forms handing) (hforms handing)

/-- A change keeps what was observed. -/
theorem DeliveryChange.kept (hchg : DeliveryChange orderly r r') (ho : orderly)
    (hstg : StageInv r.staging) (h : Kept r) : Kept r' := by
  cases hchg with
  | crossed | refused | held | gapped | turnedAway | noted | proven | abandoned =>
    exact { h with }
  | accepted now prepared staging hdec hst hev hforms hfst hstgs =>
    rw [sourceObservationIds_eq] at hstgs
    exact h.hand _ hstg hfst (map_source_handings prepared)
      (forms_of_first hstg hforms hfst) hstgs rfl rfl rfl
  | responseRefused now evidence error staging hst hprov hkind hthr hmsg hnone hfits hstgs =>
    refine h.hand (r.staged.map fun row => ⟨row.envelope, [row.envelope]⟩) hstg
      List.prefix_rfl ?_ ?_ hstgs rfl rfl rfl
    · rw [List.map_map]
      rfl
    · intro handing hmem form hform
      obtain ⟨row, -, rfl⟩ := List.mem_map.1 hmem
      rw [List.mem_singleton.1 hform]
  | staged envelope staging hlen hstgs =>
    obtain ⟨rfl, -, -⟩ := insertStaged_eq_ok hstgs
    refine ⟨?_, h.forms⟩
    show r.history.handed.map Handing.source ++ (r.staging ++ [_]).map StagedRow.envelope =
      r.history.observed ++ [envelope]
    rw [List.map_append, ← List.append_assoc, List.map_singleton]
    exact congrArg (· ++ [envelope]) h.order
  | drained prepared staging hst hforms hfst hstgs =>
    rw [sourceObservationIds_eq] at hstgs
    exact h.hand _ hstg (hfst ho) (map_source_handings prepared)
      (forms_of_first hstg hforms (hfst ho)) hstgs rfl rfl rfl

/-- A change of a record keeps its stage. -/
theorem DeliveryChange.stage (hchg : DeliveryChange orderly r r') (h : StageInv r.staging) :
    StageInv r'.staging := by
  have hdelete : ∀ ids staging, deleteStagedPrefix r.staging ids = .ok staging →
      StageInv staging := by
    intro ids staging hstgs
    obtain ⟨rows, hok, hrows, -⟩ := h.deleteStagedPrefix_ok ids
    exact Except.ok.inj (hstgs.symm.trans hok) ▸ hrows
  cases hchg with
  | crossed | refused | held | gapped | turnedAway | noted | proven | abandoned => exact h
  | accepted now prepared staging hdec hst hev hforms hfst hstgs =>
    exact hdelete _ _ hstgs
  | responseRefused now evidence error staging hst hprov hkind hthr hmsg hnone hfits hstgs =>
    exact hdelete _ _ hstgs
  | staged envelope staging hlen hstgs =>
    obtain ⟨rfl, hnew, hfits⟩ := insertStaged_eq_ok hstgs
    exact h.concat rfl hlen hnew hfits rfl
  | drained prepared staging hst hforms hfst hstgs => exact hdelete _ _ hstgs

/-- What an attempt that is decided stays. -/
def Decided (state : DeliveryAttemptState) : Prop :=
  state = .accepted ∨ state = .rejected ∨ state = .abandoned

/-- **A decided attempt stays as it was decided.** -/
theorem DeliveryChange.decided (hchg : DeliveryChange orderly r r')
    (h : Decided r.row.state) : r'.row.state = r.row.state := by
  have hnot : ∀ state, ¬ Decided state → r.row.state ≠ state := by
    rintro state hst rfl
    exact hst h
  have hprep := hnot .preparing (by simp [Decided])
  have hdisp := hnot .dispatching (by simp [Decided])
  have hunk := hnot .unknown (by simp [Decided])
  cases hchg with
  | crossed now gen recovery hst => exact absurd hst hprep
  | refused now error hst => exact absurd hst hprep
  | held now recovery hst => exact absurd hst hdisp
  | gapped | turnedAway => exact if_neg hdisp
  | accepted now prepared staging hdec hst =>
    exact absurd hst (not_or.2 ⟨hdisp, hunk⟩)
  | responseRefused now evidence error staging hst =>
    exact absurd hst (not_or.2 ⟨hdisp, hunk⟩)
  | abandoned now detail hst => exact absurd hst hunk
  | noted | proven | staged | drained => rfl

/-- The validity of evidence is a matter of the frozen scope and the turn. -/
theorem decode_evidence {e : ProviderAcceptanceEvidence} (h : r.row.decodeVerified = .ok ())
    (he : r.row.acceptanceEvidence = some e) : r.row.validateEvidence e = .ok () := by
  obtain ⟨_, -, hrest⟩ := bind_eq_ok.1 h
  obtain ⟨_, -, hev⟩ := bind_eq_ok.1 hrest
  rw [he] at hev
  exact hev

/-- A gap moves no attempt into or out of a decided state. -/
theorem gap_state_eq_iff {state : DeliveryAttemptState} {now : ℕ} {reason : String}
    (h : Decided state) : (r.row.gap now reason).state = state ↔ r.row.state = state := by
  by_cases hst : r.row.state = .dispatching
  · have hgap : (r.row.gap now reason).state = .unknown := if_pos hst
    rw [hgap, hst]
    constructor <;> rintro rfl <;> simp [Decided] at h
  · have hgap : (r.row.gap now reason).state = r.row.state := if_neg hst
    rw [hgap]

/-- A gap keeps the invariant of a record. -/
theorem RecordInv.gapped (h : RecordInv r) {reason : String} {history : DeliveryHistory}
    (hadms : history.admissions = r.history.admissions)
    (hrejn : history.responseRejection = r.history.responseRejection) :
    RecordInv ⟨r.row.gap now reason, r.staging, history⟩ where
  checks := h.checks.gap reason
  stage := h.stage
  admissions := by
    have hiff := @gap_state_eq_iff r .accepted now reason (.inl rfl)
    have hold := h.admissions
    rw [hadms, hold]
    by_cases hst : r.row.state = .accepted
    · rw [if_pos hst, if_pos (hiff.2 hst)]
    · rw [if_neg hst, if_neg fun hcontra => hst (hiff.1 hcontra)]
  proof hst := h.proof ((gap_state_eq_iff (.inl rfl)).1 hst)
  refusal hst hcrossed := by
    obtain ⟨evidence, error, hlog, hrest⟩ :=
      h.refusal ((gap_state_eq_iff (.inr (.inl rfl))).1 hst) hcrossed
    exact ⟨evidence, error, hrejn.trans hlog, hrest⟩
  gap _ := rfl

/-- **The invariant of a record goes along a change.** -/
theorem DeliveryChange.recordInv (hchg : DeliveryChange orderly r r') (h : RecordInv r) :
    RecordInv r' := by
  have hchecks := hchg.checks h.checks
  have hstg := hchg.stage h.stage
  cases hchg with
  | crossed now gen recovery hst =>
    have hadms := h.admissions
    rw [hst, if_neg (by decide)] at hadms
    exact ⟨hchecks, hstg, hadms, nofun, nofun, h.gap⟩
  | refused now error hst =>
    have hadms := h.admissions
    rw [hst, if_neg (by decide)] at hadms
    have hcrossed := h.checks.crossedAt_eq_none hst
    refine ⟨hchecks, hstg, hadms, nofun, fun _ hsome => ?_, h.gap⟩
    exact absurd (hcrossed ▸ hsome : (none : Option ℕ).isSome) (by decide)
  | held now recovery hst =>
    have hadms := h.admissions
    rw [hst, if_neg (by decide)] at hadms
    exact ⟨hchecks, hstg, hadms, nofun, nofun, h.gap⟩
  | gapped | turnedAway => exact h.gapped rfl rfl
  | noted | staged | drained => exact { h with checks := hchecks, stage := hstg }
  | proven now evidence turn op hst =>
    have hnot : ∀ state, Decided state → r.row.state ≠ state := by
      rintro state hdecided rfl
      rcases hst with h | h <;> rw [h] at hdecided <;> simp [Decided] at hdecided
    exact ⟨hchecks, hstg, h.admissions, fun hacc => absurd hacc (hnot _ (.inl rfl)),
      fun hrej => absurd hrej (hnot _ (.inr (.inl rfl))), h.gap⟩
  | accepted now prepared staging hdec hst hev =>
    have hadms := h.admissions
    rw [if_neg (by rcases hst with h | h <;> rw [h] <;> decide)] at hadms
    obtain ⟨e, he⟩ := isSome_iff_exists.1 hev
    refine ⟨hchecks, hstg, ?_, fun _ => ⟨e, he, ?_⟩, nofun, h.gap⟩
    · show r.history.admissions + 1 = 1
      rw [hadms]
    · have hvalid := decode_evidence hdec he
      cases e <;> exact hvalid
  | responseRefused now evidence error staging hst hprov hkind hthr hmsg =>
    have hadms := h.admissions
    rw [if_neg (by rcases hst with h | h <;> rw [h] <;> decide)] at hadms
    exact ⟨hchecks, hstg, hadms, nofun,
      fun _ _ => ⟨evidence, error, rfl, hmsg, hthr, hprov, hkind⟩, h.gap⟩
  | abandoned now detail hst =>
    have hadms := h.admissions
    rw [hst, if_neg (by decide)] at hadms
    exact ⟨hchecks, hstg, hadms, nofun, nofun, h.gap⟩

/-! ## Drivers -/

/-- The code of a rejection with evidence is as short as a bounded one. -/
def ProviderDispatchResult.Short : ProviderDispatchResult → Prop
  | rejected error (some _) => utf16Length error.code ≤ 256
  | _ => True

namespace DeliveryDriver

/-- The attempt a driver works on. -/
def attemptId : DeliveryDriver → Option String
  | invoking id _ | caught id _ _ | returned id _ | holding id _ | accepting id .. | reading id
  | snapshotting id _ | preparing id .. | draining id _ => some id
  | finished => none

/-- **What a driver goes by**: the attempt whose stage it prepares has its
evidence, and what it prepares is first in the stage until the attempt is
accepted. -/
def Knows (d : DeliveryDriver) (r : AttemptRecord) : Prop :=
  match d with
  | snapshotting .. => r.row.acceptanceEvidence.isSome
  | preparing _ _ source => r.row.acceptanceEvidence.isSome ∧
      (r.row.state ≠ .accepted → source <+: r.staged)
  | _ => True

/-- A driver carries a short code. -/
def Short : DeliveryDriver → Prop
  | returned _ result => result.Short
  | _ => True

end DeliveryDriver

/-- Evidence that is recorded stays. -/
theorem DeliveryChange.evidence (hchg : DeliveryChange orderly r r')
    (h : r.row.acceptanceEvidence.isSome) : r'.row.acceptanceEvidence.isSome := by
  cases hchg with
  | proven => rfl
  | _ => exact h

/-- **A change keeps what another driver goes by.** Evidence leaves only an
admission to take rows out of the stage, and then the attempt is accepted. -/
theorem DeliveryChange.knows (hchg : DeliveryChange orderly r r') (hstg : StageInv r.staging)
    (h : d.Knows r) : d.Knows r' := by
  cases d with
  | snapshotting id flow => exact hchg.evidence h
  | preparing id flow source =>
    obtain ⟨hev, hsrc⟩ := h
    refine ⟨hchg.evidence hev, fun hst => ?_⟩
    have hsome : r.row.acceptanceEvidence ≠ none := fun hnone => by
      rw [hnone] at hev
      cases hev
    cases hchg with
    | crossed now gen recovery hprep =>
      exact hsrc (by rw [hprep]; decide)
    | refused now error hprep => exact hsrc (by rw [hprep]; decide)
    | held now recovery hdisp => exact hsrc (by rw [hdisp]; decide)
    | gapped | turnedAway =>
      exact hsrc fun hacc => hst ((gap_state_eq_iff (.inl rfl)).2 hacc)
    | noted => exact hsrc hst
    | proven now evidence turn op hopen hnone => exact absurd hnone hsome
    | accepted => exact absurd rfl hst
    | responseRefused now evidence error staging hopen hprov hkind hthr hmsg hnone =>
      exact absurd hnone hsome
    | abandoned now detail hunk hnone => exact absurd hnone hsome
    | staged envelope staging hlen hstgs =>
      have hprefix := hsrc hst
      obtain ⟨rfl, hnew, hfits⟩ := insertStaged_eq_ok hstgs
      have hconcat : StageInv (r.staging ++ [⟨r.staging.length, envelope.eventId, envelope⟩]) :=
        hstg.concat rfl hlen hnew hfits rfl
      rw [AttemptRecord.staged, hstg.orderedStage_eq] at hprefix
      show source <+: orderedStage (r.staging ++ [_])
      rw [hconcat.orderedStage_eq]
      exact hprefix.trans (List.prefix_append _ _)
    | drained prepared staging hacc => exact absurd hacc hst
  | _ => exact trivial

theorem Next.knows (hnext : Next orderly r r') (hstg : StageInv r.staging) (h : d.Knows r) :
    d.Knows r' := by
  cases hnext with
  | refl => exact h
  | single hchg => exact hchg.knows hstg h

theorem Next.recordInv (hnext : Next orderly r r') (h : RecordInv r) : RecordInv r' := by
  cases hnext with
  | refl => exact h
  | single hchg => exact hchg.recordInv h

/-- What the preparation has made keeps the identity of its sources, and
they are the first of what it was given. -/
theorem prepareStagedProviderEvents_spec {outcomes : List (Option (List ProviderEventEnvelope))}
    (h : prepareStagedProviderEvents source outcomes = .ok prepared) :
    (∀ item ∈ prepared, ∀ form ∈ item.2, form.eventId = item.1.observationId) ∧
      prepared.map Prod.fst <+: source := by
  induction source generalizing outcomes prepared with
  | nil =>
    obtain rfl := Except.ok.inj h
    exact ⟨fun _ hmem => absurd hmem List.not_mem_nil, List.nil_prefix⟩
  | cons item source ih =>
    match outcomes with
    | [] | none :: _ =>
      obtain rfl := Except.ok.inj h
      exact ⟨fun _ hmem => absurd hmem List.not_mem_nil, List.nil_prefix⟩
    | some forms :: outcomes =>
      obtain ⟨_, hcheck, hrest⟩ := bind_eq_ok.1 h
      obtain ⟨rest, hmore, hok⟩ := bind_eq_ok.1 hrest
      obtain rfl := Except.ok.inj hok
      obtain ⟨hforms, hfst⟩ := ih hmore
      have hall := check_eq_ok.1 hcheck
      simp only [List.all_eq_true, decide_eq_true_eq] at hall
      refine ⟨fun item' hmem => ?_, List.prefix_cons_iff.2 (.inr ⟨_, rfl, hfst⟩)⟩
      rcases List.mem_cons.1 hmem with rfl | hmem
      · exact hall
      · exact hforms item' hmem

/-- **The specification of a driver's step**: its record is changed at most
once, and the driver goes by what is true of it. -/
def Drives (orderly : Prop) (d : DeliveryDriver) (r : AttemptRecord)
    (x : Except Thrown (AttemptRecord × DeliveryDriver)) : Prop :=
  Commits orderly d.Short r x fun r' d' => d'.Knows r' ∧ d'.Short ∧
    (d'.attemptId = none ∨ d'.attemptId = d.attemptId)

/-- An operation of the owner, and the phase that comes after it. -/
theorem CommitsRecord.drives {x : Except Thrown AttemptRecord}
    (h : CommitsRecord orderly d.Short r x) (hknow : ∀ r', d'.Knows r') (hsho : d'.Short)
    (hid : d'.attemptId = none ∨ d'.attemptId = d.attemptId) :
    Drives orderly d r (x >>= fun r' => pure (r', d')) :=
  h.andThen fun r' _ _ => ⟨hknow r', hsho, hid⟩

namespace DeliveryDriver

variable {now : ℕ} {answer : JournalAnswer}
variable {op : AttemptRecord → Except Thrown (AttemptRecord × DeliveryDriver)}

theorem caughtResult_short (id : String) (sent : Bool) (msg : String) :
    (returned id (caughtResult sent msg)).Short := by
  cases sent <;> exact trivial

theorem settleThrow_drives (h : r.row.Checks) (signalled : Bool) (msg : String) :
    Drives orderly (caught id signalled msg) r (settleThrow id signalled msg now r) := by
  refine settles_bind (settles_require fun _ => ?_)
  have hsho := caughtResult_short id (r.row.crossedAt.isSome || signalled) msg
  refine settles_ite (fun _ => ?_) fun _ => ?_
  · exact (markProviderSignalledCrossing_commits h _).drives (fun _ => trivial) hsho (.inr rfl)
  · exact ⟨.refl, trivial, hsho, .inr rfl⟩

/-- What a dispatch returned is settled by the steps of a record. -/
theorem settleResult_drives (h : r.row.Checks) (result : ProviderDispatchResult) :
    Drives orderly (returned id result) r (settleResult id result now answer r) := by
  refine settles_bind (settles_require fun _ => ?_)
  cases result with
  | rejected error evidence =>
    refine settles_ite (fun _ => ?_) fun _ => ?_
    · cases evidence with
      | none => exact ⟨.refl, trivial, trivial, .inr rfl⟩
      | some evidence =>
        have hcommits := @rejectProviderResponse_commits orderly _ r now h answer evidence error
          fun hsho : (returned id (.rejected error (some evidence))).Short => hsho
        refine settles_bind (hcommits.mono (fun result hnext => ?_) fun _ h => h)
        obtain ⟨r', rejected⟩ := result
        cases rejected with
        | true => exact ⟨hnext, trivial, trivial, .inl rfl⟩
        | false => exact ⟨hnext, trivial, trivial, .inr rfl⟩
    · exact (reject_commits h _).drives (fun _ => trivial) trivial (.inl rfl)
  | unknown | accepted =>
    refine settles_ite (fun _ => ⟨.refl, trivial, trivial, .inr rfl⟩) fun _ => ?_
    exact (markProviderSignalledCrossing_commits h _).drives (fun _ => trivial) trivial (.inr rfl)

theorem attemptId_of_proceed (hop : d.proceed now answer = some (id, op)) :
    d.attemptId = some id := by
  cases d <;> cases hop <;> rfl

variable {outcomes : Except String (List (Option (List ProviderEventEnvelope)))}
variable {callback : Except String Unit}

theorem attemptId_of_finishPreparing
    (hop : d.finishPreparing now outcomes callback = some (id, op)) :
    d.attemptId = some id := by
  cases d <;> cases hop <;> rfl

/-- **A driver that waits for nothing goes on.** -/
theorem proceed_drives (h : r.row.Checks) (hknow : d.Knows r)
    (hop : d.proceed now answer = some (id, op)) : Drives orderly d r (op r) := by
  cases d with
  | caught id' signalled msg =>
    cases hop
    exact settleThrow_drives h signalled msg
  | returned id' result =>
    cases hop
    exact settleResult_drives h result
  | holding id' error =>
    cases hop
    exact (unknown_commits h error).drives (fun _ => trivial) trivial (.inl rfl)
  | accepting id' flow evidence nativeId nativeOperationId =>
    cases hop
    refine settles_check (failed_ne _ _) fun _ => ?_
    have hcommits := @recordAcceptance_commits orderly True r now h evidence nativeId
      nativeOperationId
    refine settles_bind (hcommits.mono (fun r' hr' => ?_) fun _ h _ => h trivial)
    exact ⟨hr'.1, hr'.2, trivial, .inr rfl⟩
  | snapshotting id' flow =>
    cases hop
    have hnext : Drives orderly (snapshotting id flow) r (pure (r, preparing id flow r.staged)) :=
      ⟨.refl, ⟨hknow, fun _ => List.prefix_rfl⟩, trivial, .inr rfl⟩
    cases flow with
    | dispatch => exact hnext
    | reconcile => exact settles_bind (settles_require fun _ => hnext)
  | _ => cases hop

/-- **The end of a preparation.** An admission takes what its driver knows
to be first; a drain does if the run is orderly. -/
theorem finishPreparing_drives (h : r.row.Checks) (hknow : d.Knows r)
    (ho : orderly → ∀ id source prepared, d = draining id source →
      (outcomes >>= prepareStagedProviderEvents source) = .ok prepared →
      prepared.map Prod.fst <+: r.staged)
    (hop : d.finishPreparing now outcomes callback = some (id, op)) :
    Drives orderly d r (op r) := by
  cases d with
  | preparing id' flow source =>
    cases hop
    split
    · next prepared hok =>
      obtain ⟨outcomes', -, hprep⟩ := bind_eq_ok.1 hok
      obtain ⟨hforms, hfst⟩ := prepareStagedProviderEvents_spec hprep
      exact (admitAttempt_commits hforms h fun hst => hfst.trans (hknow.2 hst)).drives
        (fun _ => trivial) trivial (.inl rfl)
    · refine settles_ite (fun _ => ?_) fun _ => failed_ne _ _
      exact (markGap_commits h _).drives (fun _ => trivial) trivial (.inl rfl)
  | draining id' source =>
    cases hop
    refine settles_bind (settles_orFail fun prepared hok => ?_)
    obtain ⟨outcomes', -, hprep⟩ := bind_eq_ok.1 hok
    obtain ⟨hforms, -⟩ := prepareStagedProviderEvents_spec hprep
    exact (drainAccepted_commits hforms fun hr => ho hr id source prepared rfl hok).drives
      (fun _ => trivial) trivial (.inl rfl)
  | _ => cases hop

end DeliveryDriver

/-! ## Steps -/

/-- **Every record follows**: it is changed at most once, and a new one is
that of an attempt just prepared. -/
structure Follows (orderly : Prop) (s s' : DeliveryState) : Prop where
  old : ∀ id r, s.attempts.lookup id = some r →
    ∃ r', s'.attempts.lookup id = some r' ∧ Next orderly r r'
  new : ∀ id r', s'.attempts.lookup id = some r' → s.attempts.lookup id = none →
    ∃ input : PrepareDeliveryAttempt, input.row.Checks ∧
      r' = ⟨input.row, [], 0, none, [], [], []⟩

theorem Follows.of_eq (h : s'.attempts = s.attempts) : Follows orderly s s' where
  old id r hr := ⟨r, h ▸ hr, .refl⟩
  new id r' hr' hnone := by
    rw [h, hnone] at hr'
    cases hr'

/-- The invariant of the journal and its drivers. -/
structure DeliveryInv (s : DeliveryState) : Prop where
  records : ∀ id r, s.attempts.lookup id = some r → RecordInv r
  drivers : ∀ d ∈ s.drivers, ∀ id, d.attemptId = some id →
    ∃ r, s.attempts.lookup id = some r ∧ d.Knows r

/-- A result that comes in has a short code. -/
def DeliveryAction.Short : DeliveryAction → Prop
  | invoked _ result => result.Short
  | _ => True

/-- Every driver carries a short code. -/
def DeliveryState.Short (s : DeliveryState) : Prop := ∀ d ∈ s.drivers, d.Short

/-- A record that was prepared has its invariant. -/
theorem recordInv_prepared {input : PrepareDeliveryAttempt} (h : input.row.Checks) :
    RecordInv ⟨input.row, [], 0, none, [], [], []⟩ where
  checks := h
  stage := StageInv.nil
  admissions := rfl
  proof := nofun
  refusal := nofun
  gap hne := absurd rfl hne

/-- **The invariant follows the records**, for the drivers that were there
and for those that go by the new ones. -/
theorem DeliveryInv.follows (h : DeliveryInv s) (hf : Follows orderly s s')
    (hdrivers : ∀ d ∈ s'.drivers, d ∈ s.drivers ∨ ∀ id, d.attemptId = some id →
      ∃ r, s'.attempts.lookup id = some r ∧ d.Knows r) : DeliveryInv s' where
  records id r' hr' := by
    cases hr : s.attempts.lookup id with
    | none =>
      obtain ⟨input, hchecks, rfl⟩ := hf.new id r' hr' hr
      exact recordInv_prepared hchecks
    | some r =>
      obtain ⟨r'', hr'', hnext⟩ := hf.old id r hr
      cases hr'.symm.trans hr''
      exact hnext.recordInv (h.records id r hr)
  drivers d hmem id hid := by
    rcases hdrivers d hmem with hold | hnew
    · obtain ⟨r, hr, hknow⟩ := h.drivers d hold id hid
      obtain ⟨r', hr', hnext⟩ := hf.old id r hr
      exact ⟨r', hr', hnext.knows (h.records id r hr).stage hknow⟩
    · exact hnew id hid

/-- **An operation on an attempt.** -/
theorem onAttempt_spec {op : AttemptRecord → Except Thrown (AttemptRecord × β)}
    {Q : AttemptRecord → β → Prop}
    (hop : ∀ r, s.attempts.lookup id = some r → Commits orderly short r (op r) Q) :
    Follows orderly s (s.onAttempt id op).1 ∧ (s.onAttempt id op).1.drivers = s.drivers ∧
      (short → (s.onAttempt id op).1.violated = s.violated) ∧
      ∀ b, (s.onAttempt id op).2 = some b →
        ∃ r', (s.onAttempt id op).1.attempts.lookup id = some r' ∧ Q r' b := by
  unfold DeliveryState.onAttempt
  cases hr : s.attempts.lookup id with
  | none => exact ⟨.of_eq rfl, rfl, fun _ => rfl, nofun⟩
  | some r =>
    have hcommits := hop r hr
    dsimp only
    cases hx : op r with
    | ok result =>
      obtain ⟨hnext, hQ⟩ := hcommits.ok hx
      refine ⟨⟨fun id' r₁ hr₁ => ?_, fun id' r₁ hr₁ hnone => ?_⟩, rfl, fun _ => rfl, ?_⟩
      · by_cases hid : id' = id
        · subst hid
          cases hr.symm.trans hr₁
          exact ⟨result.1, lookup_insert _, hnext⟩
        · exact ⟨r₁, (lookup_insert_ne hid).trans hr₁, .refl⟩
      · have hid : id' ≠ id := fun heq => by
          rw [heq, hr] at hnone
          cases hnone
        rw [lookup_insert_ne hid, hnone] at hr₁
        cases hr₁
      · intro b hb
        cases hb
        exact ⟨result.1, lookup_insert _, hQ⟩
    | error thrown =>
      have hne := hcommits.error hx
      refine ⟨.of_eq rfl, rfl, fun hs => ?_, nofun⟩
      have hfalse : decide (thrown = .constraint) = false := decide_eq_false (hne hs)
      show (s.violated || decide (thrown = .constraint)) = s.violated
      rw [hfalse, Bool.or_false]

/-- What a step keeps. -/
structure StepSpec (orderly : Prop) (s s' : DeliveryState) (a : DeliveryAction) : Prop where
  follows : Follows orderly s s'
  inv : DeliveryInv s'
  short : a.Short → s.Short → s'.Short ∧ s'.violated = s.violated

/-- An operation that no driver makes. -/
theorem DeliveryInv.perform (h : DeliveryInv s) {op : AttemptRecord → Except Thrown AttemptRecord}
    (hop : ∀ r, r.row.Checks → CommitsRecord orderly True r (op r)) :
    StepSpec orderly s (s.perform id op) a := by
  obtain ⟨hfol, hdrivers, hviol, -⟩ := @onAttempt_spec orderly True s id Unit
    (fun r => op r >>= fun r' => pure (r', ())) (fun _ _ => True) fun r hr =>
      (hop r (h.records id r hr).checks).andThen fun _ _ _ => trivial
  refine ⟨hfol, h.follows hfol fun d hmem => .inl ?_, fun _ hsho => ⟨?_, ?_⟩⟩
  · exact hdrivers ▸ hmem
  · intro d hmem
    exact hsho d (hdrivers ▸ hmem)
  · exact hviol trivial

variable {op : AttemptRecord → Except Thrown (AttemptRecord × DeliveryDriver)}

/-- A driver that begins. -/
theorem DeliveryInv.spawn (h : DeliveryInv s)
    (hop : ∀ r, Commits orderly True r (op r) fun r' d => d.Knows r' ∧ d.Short ∧
      d.attemptId = some id) :
    StepSpec orderly s (s.spawn id op) a := by
  obtain ⟨hfol, hdrivers, hviol, hnext⟩ :=
    @onAttempt_spec orderly True s id _ op _ fun r _ => hop r
  have hmem_iff : ∀ d, d ∈ (s.spawn id op).drivers →
      d ∈ s.drivers ∨ (s.onAttempt id op).2 = some d := by
    intro d hmem
    rcases List.mem_append.1 hmem with hmem | hmem
    · exact .inl (hdrivers ▸ hmem)
    · exact .inr (mem_toList.1 hmem)
  have hfol' : Follows orderly s (s.spawn id op) := { hfol with }
  refine ⟨hfol', h.follows hfol' fun d hmem => ?_, fun _ hsho => ⟨fun d hmem => ?_, ?_⟩⟩
  · refine (hmem_iff d hmem).imp_right fun hd id' hid' => ?_
    obtain ⟨r', hr', hknow, -, hid⟩ := hnext d hd
    cases hid.symm.trans hid'
    exact ⟨r', hr', hknow⟩
  · rcases hmem_iff d hmem with hold | hd
    · exact hsho d hold
    · obtain ⟨-, -, -, hd, -⟩ := hnext d hd
      exact hd
  · exact hviol trivial

/-- **The step of a driver.** -/
theorem DeliveryInv.advance (h : DeliveryInv s) {i : ℕ} {thrown : DeliveryDriver}
    (hd : s.drivers[i]? = some d) (hid : d.attemptId = some id)
    (hop : ∀ r, s.attempts.lookup id = some r → r.row.Checks → d.Knows r →
      Drives orderly d r (op r))
    (hthrown : thrown = .finished ∨ thrown = d) :
    StepSpec orderly s (s.advance i id thrown op) a := by
  have hmem := List.mem_of_getElem? hd
  obtain ⟨r, hr, hknow⟩ := h.drivers d hmem id hid
  obtain ⟨hfol, hdrivers, hviol, hnext⟩ :=
    @onAttempt_spec orderly d.Short s id _ op _ fun r₁ hr₁ => by
      cases hr.symm.trans hr₁
      exact hop r hr (h.records id r hr).checks hknow
  have hmem_iff : ∀ d', d' ∈ (s.advance i id thrown op).drivers →
      d' ∈ s.drivers ∨ (s.onAttempt id op).2 = some d' ∨ d' = .finished := by
    intro d' hmem'
    rcases List.mem_or_eq_of_mem_set hmem' with hmem' | heq
    · exact .inl (hdrivers ▸ hmem')
    · change d' = (s.onAttempt id op).2.getD thrown at heq
      cases hres : (s.onAttempt id op).2 with
      | some next =>
        rw [hres] at heq
        exact .inr (.inl (congrArg some heq.symm))
      | none =>
        rw [hres] at heq
        obtain rfl : d' = thrown := heq
        rcases hthrown with rfl | rfl
        · exact .inr (.inr rfl)
        · exact .inl hmem
  have hfol' : Follows orderly s (s.advance i id thrown op) := { hfol with }
  refine ⟨hfol', h.follows hfol' fun d' hmem' => ?_,
    fun _ hsho => ⟨fun d' hmem' => ?_, hviol (hsho d hmem)⟩⟩
  · refine (hmem_iff d' hmem').imp_right fun hd' id' hid' => ?_
    rcases hd' with hd' | rfl
    · obtain ⟨r', hr', hknow', -, hnone | hsame⟩ := hnext d' hd'
      · rw [hnone] at hid'
        cases hid'
      · cases (hid.symm.trans hsame.symm).trans hid'
        exact ⟨r', hr', hknow'⟩
    · cases hid'
  · rcases hmem_iff d' hmem' with hold | hd' | rfl
    · exact hsho d' hold
    · obtain ⟨-, -, -, hd', -⟩ := hnext d' hd'
      exact hd'
    · exact trivial

/-- **The condition on a drain**: what it prepared is still first in the
stage. -/
def DeliveryState.isOrderly (s : DeliveryState) : DeliveryAction → Bool
  | .prepared i _ outcomes _ =>
    match s.drivers[i]? with
    | some (.draining id source) =>
      match outcomes >>= prepareStagedProviderEvents source, s.attempts.lookup id with
      | .ok prepared, some r => (prepared.map Prod.fst).isPrefixOf r.staged
      | _, _ => true
    | _ => true
  | _ => true

theorem orderly_draining {outcomes : Except String (List (Option (List ProviderEventEnvelope)))}
    {callback : Except String Unit} (ho : s.isOrderly (.prepared i now outcomes callback) = true)
    (hd : s.drivers[i]? = some (.draining id source))
    (hok : (outcomes >>= prepareStagedProviderEvents source) = .ok prepared)
    (hr : s.attempts.lookup id = some r) : prepared.map Prod.fst <+: r.staged := by
  simp only [DeliveryState.isOrderly, hd, hok, hr] at ho
  exact List.isPrefixOf_iff_prefix.1 ho

variable (h : DeliveryInv s)
include h

/-- A step that changes no record. -/
theorem DeliveryInv.phase (hattempts : s'.attempts = s.attempts) (hviol : s'.violated = s.violated)
    (hdrivers : ∀ d ∈ s'.drivers, d ∈ s.drivers ∨
      (∃ id, d.attemptId = some id ∧ (∃ r, s.attempts.lookup id = some r) ∧ ∀ r, d.Knows r) ∧
        (a.Short → d.Short) ∨ d = .finished) :
    StepSpec orderly s s' a := by
  have hfol : Follows orderly s s' := .of_eq hattempts
  refine ⟨hfol, h.follows hfol fun d hmem => ?_, fun ha hsho => ⟨fun d hmem => ?_, hviol⟩⟩
  · refine (hdrivers d hmem).imp_right fun hd id' hid' => ?_
    rcases hd with ⟨⟨id, hid, ⟨r, hr⟩, hknow⟩, -⟩ | rfl
    · cases hid.symm.trans hid'
      exact ⟨r, hattempts ▸ hr, hknow r⟩
    · cases hid'
  · rcases hdrivers d hmem with hold | ⟨-, hd⟩ | rfl
    · exact hsho d hold
    · exact hd ha
    · exact trivial

/-- A driver goes to another phase for the same attempt. -/
theorem DeliveryInv.set (hd : s.drivers[i]? = some d) (hid : d.attemptId = some id)
    (hd' : d'.attemptId = some id ∧ (∀ r, d'.Knows r) ∧ (a.Short → d'.Short) ∨ d' = .finished) :
    StepSpec orderly s { s with drivers := s.drivers.set i d' } a := by
  obtain ⟨r, hr, -⟩ := h.drivers d (List.mem_of_getElem? hd) id hid
  refine h.phase rfl rfl fun d'' hmem => ?_
  rcases List.mem_or_eq_of_mem_set hmem with hmem | rfl
  · exact .inl hmem
  · rcases hd' with ⟨hid', hknow, hsho⟩ | hfin
    · exact .inr (.inl ⟨⟨id, hid', ⟨r, hr⟩, hknow⟩, hsho⟩)
    · exact .inr (.inr hfin)

/-- A new record. -/
theorem DeliveryInv.prepare (input : PrepareDeliveryAttempt)
    (scopeValid : Bool) : StepSpec orderly s (s.prepare input scopeValid) a := by
  unfold DeliveryState.prepare
  dsimp only
  split
  · next hguard =>
    simp only [Bool.and_eq_true, decide_eq_true_eq, List.all_eq_true, ne_eq] at hguard
    obtain ⟨⟨⟨-, hunused⟩, -⟩, hchecks⟩ := hguard
    have hnew : s.attempts.lookup input.attemptId = none := by
      cases hr : s.attempts.lookup input.attemptId with
      | none => rfl
      | some r => exact absurd rfl (hunused ⟨_, r⟩ (Assoc.mem_entries_iff.2 hr)).2
    have hfol : Follows orderly s { s with
        attempts := s.attempts.insert input.attemptId ⟨input.row, [], 0, none, [], [], []⟩ } := by
      refine ⟨fun id r hr => ⟨r, ?_, .refl⟩, fun id r hr hnone => ⟨input, hchecks, ?_⟩⟩
      · have hid : id ≠ input.attemptId := fun heq => by
          rw [heq, hnew] at hr
          cases hr
        exact (lookup_insert_ne hid).trans hr
      · by_cases hid : id = input.attemptId
        · subst hid
          rw [lookup_insert] at hr
          exact (some.inj hr).symm
        · rw [lookup_insert_ne hid, hnone] at hr
          cases hr
    exact ⟨hfol, h.follows hfol fun d hmem => .inl hmem, fun _ hsho => ⟨hsho, rfl⟩⟩
  · exact h.phase rfl rfl fun d hmem => .inl hmem

/-- An observation. -/
theorem DeliveryInv.observe {envelope : ProviderEventEnvelope} :
    StepSpec orderly s (s.onAttempt id fun r => r.observe now envelope).1 a := by
  obtain ⟨hfol, hdrivers, hviol, -⟩ :=
    @onAttempt_spec orderly True s id _ (fun r => r.observe now envelope) _ fun r hr =>
      observe_commits (h.records id r hr).checks envelope
  refine ⟨hfol, h.follows hfol fun d hmem => .inl ?_, fun _ hsho => ⟨?_, ?_⟩⟩
  · exact hdrivers ▸ hmem
  · intro d hmem
    exact hsho d (hdrivers ▸ hmem)
  · exact hviol trivial

/-- **The step lemma.** One case for each action. -/
theorem DeliveryInv.step (hstep : deliveryMachine.step s a = some s') :
    StepSpec (s.isOrderly a = true) s s' a := by
  cases a with
  | start owner =>
    cases hstep
    exact h.phase rfl rfl fun d hmem => absurd hmem List.not_mem_nil
  | prepare input scopeValid =>
    cases hstep
    exact h.prepare input scopeValid
  | dispatch id =>
    cases hstep
    refine h.spawn fun r => ?_
    refine settles_bind (settles_require fun _ => ?_)
    refine settles_check (failed_ne _ _) fun _ => ?_
    refine settles_check (failed_ne _ _) fun _ => ?_
    exact ⟨.refl, trivial, trivial, rfl⟩
  | markPossiblySent i sid gen now =>
    simp only [deliveryMachine] at hstep
    split at hstep
    · next id crossed hd =>
      cases hstep
      refine h.advance hd rfl (fun r _ hchecks _ => ?_) (.inr rfl)
      refine settles_check (failed_ne _ _) fun _ => ?_
      exact (markPossiblySent_commits hchecks _ _ _).drives (fun _ => trivial) trivial (.inr rfl)
    · cases hstep
  | invoked i result =>
    simp only [deliveryMachine] at hstep
    split at hstep
    · next id crossed hd =>
      cases hstep
      exact h.set hd rfl (.inl ⟨rfl, fun _ => trivial, fun hsho => hsho⟩)
    · cases hstep
  | threw i signalled msg =>
    simp only [deliveryMachine] at hstep
    split at hstep
    · next id crossed hd =>
      cases hstep
      exact h.set hd rfl (.inl ⟨rfl, fun _ => trivial, fun _ => trivial⟩)
    · cases hstep
  | proceed i now answer =>
    obtain ⟨⟨id, op⟩, hbind, rfl⟩ := map_eq_some_iff.1 hstep
    obtain ⟨d, hd, hop⟩ := bind_eq_some_iff.1 hbind
    exact h.advance hd (DeliveryDriver.attemptId_of_proceed hop)
      (fun r _ hchecks hknow => DeliveryDriver.proceed_drives hchecks hknow hop) (.inl rfl)
  | reconcile id =>
    cases hstep
    refine h.spawn fun r => ?_
    refine settles_bind (settles_require fun _ => ?_)
    refine ⟨.refl, ?_⟩
    split
    · next hev => exact ⟨hev, trivial, rfl⟩
    · exact ⟨trivial, trivial, rfl⟩
  | read i evidence =>
    simp only [deliveryMachine] at hstep
    split at hstep
    · next id hd =>
      cases hstep
      cases evidence with
      | none => exact h.set hd rfl (.inr rfl)
      | some evidence => exact h.set hd rfl (.inl ⟨rfl, fun _ => trivial, fun _ => trivial⟩)
    · cases hstep
  | prepared i now outcomes callback =>
    obtain ⟨⟨id, op⟩, hbind, rfl⟩ := map_eq_some_iff.1 hstep
    obtain ⟨d, hd, hop⟩ := bind_eq_some_iff.1 hbind
    have hid := DeliveryDriver.attemptId_of_finishPreparing hop
    refine h.advance hd hid (fun r hr hchecks hknow => ?_) (.inl rfl)
    refine DeliveryDriver.finishPreparing_drives hchecks hknow (fun ho id' source prepared hdraining
      hok => ?_) hop
    subst hdraining
    cases hid
    exact orderly_draining ho hd hok hr
  | drain id =>
    cases hstep
    refine h.spawn fun r => ?_
    refine settles_check (failed_ne _ _) fun _ => ?_
    exact settles_bind (settles_require fun _ => ⟨.refl, trivial, trivial, rfl⟩)
  | observe id now envelope =>
    cases hstep
    exact h.observe
  | markStreamGap id now executionId gen reason =>
    cases hstep
    exact h.perform fun r hchecks => markStreamGap_commits hchecks _ _ _
  | recoverCompactionEvidence id now =>
    cases hstep
    exact h.perform fun r hchecks => recoverCompactionEvidence_commits hchecks
  | recoverRejected id now answer =>
    cases hstep
    exact h.perform fun r hchecks => recoverRejected_commits hchecks answer
  | recoverHeld id now =>
    cases hstep
    exact h.perform fun r hchecks => recoverHeld_commits hchecks _
  | abandon id now command =>
    cases hstep
    exact h.perform fun r hchecks => abandon_commits hchecks command

omit h

theorem DeliveryInv.init : DeliveryInv deliveryMachine.init :=
  ⟨fun _ _ hr => (nomatch hr), fun _ hmem => absurd hmem List.not_mem_nil⟩

/-- **The invariant holds in every run.** -/
theorem DeliveryInv.of_reachable (h : deliveryMachine.Reachable s) : DeliveryInv s :=
  h.rule DeliveryInv.init fun _ _ _ _ hu hv => (hu.step hv).inv

end Remux
