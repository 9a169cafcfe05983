import Remux.Delivery.Columns
import Remux.Delivery.Model.Drivers

/-!
# What an operation does to an attempt

Every operation that commits leaves the record as it was or makes one of
the changes of `DeliveryChange`; where the constraints of the table hold of
the row before, no statement is refused but the rejection of a response
whose code is a long one. What the callers of the operations rely on is
read off the changes.
-/

namespace Remux

open DeliveryAttempt Option

variable {a : DeliveryAttempt} {now : ℕ} {generation : Option String} {recovery : Option Entries}

namespace DeliveryAttempt

/-! ## The constraints of an updated row -/

theorem createdAt_le_transitionTime (a : DeliveryAttempt) (now : ℕ) :
    a.createdAt ≤ a.transitionTime now := by
  unfold transitionTime
  omega

theorem updatedAt_le_transitionTime (a : DeliveryAttempt) (now : ℕ) :
    a.updatedAt ≤ a.transitionTime now := by
  unfold transitionTime
  omega

/-- A column that is written at the time of the update. -/
theorem timed_now (a : DeliveryAttempt) (now : ℕ) :
    ∀ u ∈ some (a.transitionTime now), a.createdAt ≤ u ∧ u ≤ a.transitionTime now := by
  rintro u hu
  cases hu
  exact ⟨a.createdAt_le_transitionTime now, le_rfl⟩

/-- A column that keeps its time. -/
theorem Timed.later {time : Option ℕ} {t : ℕ} (h : a.Timed time) (ht : a.updatedAt ≤ t) :
    ∀ u ∈ time, a.createdAt ≤ u ∧ u ≤ t :=
  fun u hu => ⟨(h u hu).1, (h u hu).2.trans ht⟩

variable (h : a.Checks)
include h

/-- The columns of the states an attempt is not in. -/
theorem Checks.acceptedAt_eq_none (hst : a.state ≠ .accepted) : a.acceptedAt = none :=
  not_isSome_iff_eq_none.1 fun hsome => hst (h.accepted_iff.2 hsome)

theorem Checks.rejectedAt_eq_none (hst : a.state ≠ .rejected) : a.rejectedAt = none :=
  not_isSome_iff_eq_none.1 fun hsome => hst (h.rejected_iff.2 hsome)

theorem Checks.rejection_eq_none (hst : a.state ≠ .rejected) : a.rejection = none :=
  not_isSome_iff_eq_none.1 fun hsome => hst (h.rejection_iff.2 hsome)

theorem Checks.unknownAt_eq_none (hst : a.state ≠ .unknown)
    (hst' : a.state ≠ .abandoned) : a.unknownAt = none :=
  not_isSome_iff_eq_none.1 fun hsome => (h.unknown_iff.2 hsome).elim hst hst'

theorem Checks.evidence_eq_none
    (hst : a.state = .preparing ∨ a.state = .rejected ∨ a.state = .abandoned) :
    a.acceptanceEvidence = none := by
  refine not_isSome_iff_eq_none.1 fun hsome => ?_
  rcases h.evidence_state hsome with h' | h' | h' <;> rcases hst with h | h | h <;>
    rw [h] at h' <;> cases h'

/-- An attempt that is under way or was accepted has crossed. -/
theorem Checks.crossedAt_isSome (hprep : a.state ≠ .preparing)
    (hrej : a.state ≠ .rejected) : a.crossedAt.isSome := by
  rcases h.crossed with h | h | h
  · exact absurd h.1 hprep
  · exact absurd h.1 hrej
  · exact h.2

theorem Checks.crossedAt_eq_none (hst : a.state = .preparing) : a.crossedAt = none := by
  rcases h.crossed with h | h | h
  · exact h.2
  · exact absurd (hst.symm.trans h.1) (by decide)
  · rcases h.1 with h | h | h | h <;> exact absurd (hst.symm.trans h) (by decide)

omit h

/-- What fits in the recovery column. -/
def Fits (entries : Option Entries) : Prop :=
  ∀ e ∈ entries, jsonBytes (.object e) ≤ maxColumnBytes

theorem fits_recoveryDetail (a : DeliveryAttempt) (detail : Entries) :
    Fits (some (a.recoveryDetail detail)) := by
  intro e he
  cases he
  exact recoveryDetail_fits a

/-- An update that keeps the state. -/
theorem Checks.touch (h : a.Checks) (now : ℕ) (hrec : Fits recovery) :
    { a with recovery, updatedAt := a.transitionTime now : DeliveryAttempt }.Checks :=
  have hle := a.updatedAt_le_transitionTime now
  { h with
    recovery_size := hrec
    updated := a.createdAt_le_transitionTime now
    crossed_time := h.crossed_time.later hle
    accepted_time := h.accepted_time.later hle
    rejected_time := h.rejected_time.later hle
    unknown_time := h.unknown_time.later hle }

/-- The checks of a row hold once it is dispatched, -/
theorem Checks.cross (h : a.Checks) (hst : a.state = .preparing) (hrec : Fits recovery) :
    (a.cross now generation recovery).Checks := by
  have hacc := h.acceptedAt_eq_none (by rw [hst]; decide)
  have hrej := h.rejectedAt_eq_none (by rw [hst]; decide)
  have hunk := h.unknownAt_eq_none (by rw [hst]; decide) (by rw [hst]; decide)
  have hrejn := h.rejection_eq_none (by rw [hst]; decide)
  exact { h.touch now hrec with
    crossed := .inr (.inr ⟨.inl rfl, rfl⟩)
    accepted_iff := by simp [DeliveryAttempt.cross, hacc]
    rejected_iff := by simp [DeliveryAttempt.cross, hrej]
    unknown_iff := by simp [DeliveryAttempt.cross, hunk]
    accepted_evidence := fun hcontra => nomatch hcontra
    evidence_state := fun _ => .inl rfl
    rejection_iff := by simp [DeliveryAttempt.cross, hrejn]
    crossed_time := a.timed_now now }

theorem Checks.recovery_fits (h : a.Checks) : Fits a.recovery := h.recovery_size

/-- once it is refused before its dispatch, -/
theorem Checks.refuse (h : a.Checks) (hst : a.state = .preparing) (error : Entries) :
    (a.refuse now (boundedDeliveryError error)).Checks := by
  have hcrossed := h.crossedAt_eq_none hst
  have hacc := h.acceptedAt_eq_none (by rw [hst]; decide)
  have hunk := h.unknownAt_eq_none (by rw [hst]; decide) (by rw [hst]; decide)
  have hnone := h.evidence_eq_none (.inl hst)
  exact { h.touch now h.recovery_fits with
    rejection_size := by
      intro e he
      cases he
      exact boundedDeliveryError_fits error
    crossed := .inr (.inl ⟨rfl, .inl hcrossed⟩)
    accepted_iff := by simp [DeliveryAttempt.refuse, hacc]
    rejected_iff := by simp [DeliveryAttempt.refuse]
    unknown_iff := by simp [DeliveryAttempt.refuse, hunk]
    accepted_evidence := fun hcontra => nomatch hcontra
    evidence_state := by simp [DeliveryAttempt.refuse, hnone]
    rejection_iff := by simp [DeliveryAttempt.refuse]
    rejected_time := a.timed_now now }

variable {error : ProviderDeliveryError} {evidence : ProviderRejectionEvidence}

/-- The kind of the evidence in a written rejection. -/
theorem rejectionEvidenceKind_refuseResponse :
    (a.refuseResponse now (refusalEntries error evidence)).rejectionEvidenceKind =
      some "codex-active-compact-rejection" := by
  have hents : (refusalEntries error evidence).lookup "evidence" =
      some (.object evidence.toEntries) := by
    rw [refusalEntries_eq, ProviderDeliveryError.toEntries]
    cases error.retryable <;> rfl
  show ((refusalEntries error evidence).lookup "evidence").bind _ = _
  rw [hents]
  rfl

include h

/-- once the provider's response refuses it, -/
theorem Checks.refuseResponse (hst : a.state = .dispatching ∨ a.state = .unknown)
    (hprov : a.provider = .codex) (hkind : a.kind = .rootTurn)
    (hnone : a.acceptanceEvidence = none)
    (hfits : jsonBytes (.object (refusalEntries error evidence)) ≤ maxColumnBytes) :
    (a.refuseResponse now (refusalEntries error evidence)).Checks := by
  have hacc := h.acceptedAt_eq_none (by rcases hst with h | h <;> rw [h] <;> decide)
  exact { h.touch now h.recovery_fits with
    rejection_size := by
      intro e he
      cases he
      exact hfits
    crossed := .inr (.inl ⟨rfl, .inr ⟨hprov, hkind, rejectionEvidenceKind_refuseResponse⟩⟩)
    accepted_iff := by simp [DeliveryAttempt.refuseResponse, DeliveryAttempt.refuse, hacc]
    rejected_iff := by simp [DeliveryAttempt.refuseResponse, DeliveryAttempt.refuse]
    unknown_iff := by simp [DeliveryAttempt.refuseResponse, DeliveryAttempt.refuse]
    accepted_evidence := fun hcontra => nomatch hcontra
    evidence_state := by
      simp [DeliveryAttempt.refuseResponse, DeliveryAttempt.refuse, hnone]
    rejection_iff := by simp [DeliveryAttempt.refuseResponse, DeliveryAttempt.refuse]
    rejected_time := a.timed_now now
    unknown_time := fun u hu => nomatch hu }

/-- once its fate is unknown, -/
theorem Checks.hold (hst : a.state = .dispatching) (hrec : Fits recovery) :
    (a.hold now recovery).Checks := by
  have hcrossed := h.crossedAt_isSome (by rw [hst]; decide) (by rw [hst]; decide)
  have hacc := h.acceptedAt_eq_none (by rw [hst]; decide)
  have hrej := h.rejectedAt_eq_none (by rw [hst]; decide)
  have hrejn := h.rejection_eq_none (by rw [hst]; decide)
  exact { h.touch now hrec with
    crossed := .inr (.inr ⟨.inr (.inr (.inl rfl)), hcrossed⟩)
    accepted_iff := by simp [DeliveryAttempt.hold, hacc]
    rejected_iff := by simp [DeliveryAttempt.hold, hrej]
    unknown_iff := by simp [DeliveryAttempt.hold]
    accepted_evidence := fun hcontra => nomatch hcontra
    evidence_state := fun _ => .inr (.inl rfl)
    rejection_iff := by simp [DeliveryAttempt.hold, hrejn]
    unknown_time := a.timed_now now }

/-- once its transcript has a gap, -/
theorem Checks.gap (reason : String) : (a.gap now reason).Checks := by
  by_cases hst : a.state = .dispatching
  · have hhold : (a.hold now _).Checks := h.hold hst (fits_recoveryDetail a
      [("stage_overflow", .object [("reason", .string (sliceText 4096 reason))])])
    unfold DeliveryAttempt.gap
    rw [if_pos hst, if_pos hst]
    exact { hhold with }
  · have htouch := h.touch now (fits_recoveryDetail a
      [("stage_overflow", .object [("reason", .string (sliceText 4096 reason))])])
    unfold DeliveryAttempt.gap
    rw [if_neg hst, if_neg hst]
    exact { htouch with }

theorem Checks.note (reason : String) : (a.note now reason).Checks :=
  h.touch now (fits_recoveryDetail a _)

variable (hst : a.state = .dispatching ∨ a.state = .unknown)
include hst

/-- The checks hold once there is evidence. -/
theorem Checks.prove
    {evidence : ProviderAcceptanceEvidence} {nativeId nativeOperationId : Option String}
    (hsize : jsonBytes evidence.toValue ≤ maxColumnBytes) :
    (a.prove now evidence nativeId nativeOperationId).Checks :=
  { h.touch now h.recovery_fits with
    acceptance_size := by
      intro e he
      cases he
      exact hsize
    accepted_evidence := fun _ => rfl
    evidence_state := fun _ => hst.imp_right .inl }

/-- once it is accepted, -/
theorem Checks.accept (hev : a.acceptanceEvidence.isSome) : (a.accept now).Checks := by
  have hcrossed := h.crossedAt_isSome (by rcases hst with h | h <;> rw [h] <;> decide)
    (by rcases hst with h | h <;> rw [h] <;> decide)
  have hrej := h.rejectedAt_eq_none (by rcases hst with h | h <;> rw [h] <;> decide)
  have hrejn := h.rejection_eq_none (by rcases hst with h | h <;> rw [h] <;> decide)
  exact { h.touch now h.recovery_fits with
    crossed := .inr (.inr ⟨.inr (.inl rfl), hcrossed⟩)
    accepted_iff := by simp [DeliveryAttempt.accept]
    rejected_iff := by simp [DeliveryAttempt.accept, hrej]
    unknown_iff := by simp [DeliveryAttempt.accept]
    accepted_evidence := fun _ => hev
    evidence_state := fun _ => .inr (.inr rfl)
    rejection_iff := by simp [DeliveryAttempt.accept, hrejn]
    accepted_time := a.timed_now now
    unknown_time := fun u hu => nomatch hu }

omit hst

/-- and once it is given up. -/
theorem Checks.giveUp (hst : a.state = .unknown)
    (hnone : a.acceptanceEvidence = none) (detail : Entries) :
    (a.giveUp now (a.recoveryDetail detail)).Checks := by
  have hcrossed := h.crossedAt_isSome (by rw [hst]; decide) (by rw [hst]; decide)
  have hacc := h.acceptedAt_eq_none (by rw [hst]; decide)
  have hrej := h.rejectedAt_eq_none (by rw [hst]; decide)
  have hrejn := h.rejection_eq_none (by rw [hst]; decide)
  have hunk := h.unknown_iff.1 (.inl hst)
  exact { h.touch now (fits_recoveryDetail a detail) with
    crossed := .inr (.inr ⟨.inr (.inr (.inr rfl)), hcrossed⟩)
    accepted_iff := by simp [DeliveryAttempt.giveUp, hacc]
    rejected_iff := by simp [DeliveryAttempt.giveUp, hrej]
    unknown_iff := by simp [DeliveryAttempt.giveUp, hunk]
    accepted_evidence := fun hcontra => nomatch hcontra
    evidence_state := by simp [DeliveryAttempt.giveUp, hnone]
    rejection_iff := by simp [DeliveryAttempt.giveUp, hrejn] }

omit h

end DeliveryAttempt

/-! ## The changes -/

/-- **What an operation does to a record.** A drain hands on what is first in
the stage if the run is orderly; an admission always does. -/
inductive DeliveryChange (orderly : Prop) (r : AttemptRecord) : AttemptRecord → Prop
  | crossed (now : ℕ) (generation : Option String) (recovery : Option Entries)
      (hstate : r.row.state = .preparing) (hrec : Fits recovery) :
      DeliveryChange orderly r { r with row := r.row.cross now generation recovery }
  | refused (now : ℕ) (error : Entries) (hstate : r.row.state = .preparing) :
      DeliveryChange orderly r { r with row := r.row.refuse now (boundedDeliveryError error) }
  | held (now : ℕ) (recovery : Option Entries) (hstate : r.row.state = .dispatching)
      (hrec : Fits recovery) :
      DeliveryChange orderly r { r with row := r.row.hold now recovery }
  | gapped (now : ℕ) (reason : String) :
      DeliveryChange orderly r { r with row := r.row.gap now reason }
  | turnedAway (now : ℕ) (reason : String) (envelope : ProviderEventEnvelope) :
      DeliveryChange orderly r
        { r with
          row := r.row.gap now reason
          history := { r.history with refused := r.history.refused ++ [envelope] } }
  | noted (now : ℕ) (reason : String) :
      DeliveryChange orderly r { r with row := r.row.note now reason }
  | proven (now : ℕ) (evidence : ProviderAcceptanceEvidence)
      (nativeTurnId nativeOperationId : Option String)
      (hstate : r.row.state = .dispatching ∨ r.row.state = .unknown)
      (hnone : r.row.acceptanceEvidence = none)
      (hsize : jsonBytes evidence.toValue ≤ maxColumnBytes) :
      DeliveryChange orderly r
        { r with row := r.row.prove now evidence nativeTurnId nativeOperationId }
  | accepted (now : ℕ) (prepared : Prepared) (staging : List StagedRow)
      (hdecode : r.row.decodeVerified = .ok ())
      (hstate : r.row.state = .dispatching ∨ r.row.state = .unknown)
      (hevidence : r.row.acceptanceEvidence.isSome)
      (hforms : ∀ item ∈ prepared, ∀ form ∈ item.2, form.eventId = item.1.observationId)
      (hfirst : prepared.map Prod.fst <+: r.staged)
      (hstaging : deleteStagedPrefix r.staging prepared.sourceObservationIds = .ok staging) :
      DeliveryChange orderly r
        { row := r.row.accept now
          staging
          history := { r.history with
            admissions := r.history.admissions + 1
            handed := r.history.handed ++ prepared.handings } }
  | responseRefused (now : ℕ) (evidence : ProviderRejectionEvidence)
      (error : ProviderDeliveryError) (staging : List StagedRow)
      (hstate : r.row.state = .dispatching ∨ r.row.state = .unknown)
      (hprovider : r.row.provider = .codex) (hkind : r.row.kind = .rootTurn)
      (hthread : evidence.threadId = r.row.nativeSessionId)
      (hmessage : error.message = codexActiveCompactRejection)
      (hnone : r.row.acceptanceEvidence = none)
      (hfits : jsonBytes (.object (refusalEntries error evidence)) ≤ maxColumnBytes)
      (hstaging : deleteStagedPrefix r.staging (r.staged.map StagedRow.observationId) =
        .ok staging) :
      DeliveryChange orderly r
        { row := r.row.refuseResponse now (refusalEntries error evidence)
          staging
          history := { r.history with
            responseRejection := some (evidence, error)
            handed := r.history.handed ++
              r.staged.map fun row => ⟨row.envelope, [row.envelope]⟩ } }
  | abandoned (now : ℕ) (detail : Entries) (hstate : r.row.state = .unknown)
      (hnone : r.row.acceptanceEvidence = none) :
      DeliveryChange orderly r { r with row := r.row.giveUp now (r.row.recoveryDetail detail) }
  | staged (envelope : ProviderEventEnvelope) (staging : List StagedRow)
      (hlength : r.staging.length < 256)
      (hstaging : insertStaged r.staging ⟨r.staging.length, envelope.eventId, envelope⟩ =
        .ok staging) :
      DeliveryChange orderly r
        { r with
          staging
          history := { r.history with observed := r.history.observed ++ [envelope] } }
  | drained (prepared : Prepared) (staging : List StagedRow) (hstate : r.row.state = .accepted)
      (hforms : ∀ item ∈ prepared, ∀ form ∈ item.2, form.eventId = item.1.observationId)
      (hfirst : orderly → prepared.map Prod.fst <+: r.staged)
      (hstaging : deleteStagedPrefix r.staging prepared.sourceObservationIds = .ok staging) :
      DeliveryChange orderly r
        { r with
          staging
          history := { r.history with handed := r.history.handed ++ prepared.handings } }

variable {orderly : Prop} {r r' : AttemptRecord} {β : Type}

/-- The constraints of the table go along a change. -/
theorem DeliveryChange.checks (hchg : DeliveryChange orderly r r') (h : r.row.Checks) :
    r'.row.Checks := by
  cases hchg with
  | crossed now generation recovery hst hrec => exact h.cross hst hrec
  | refused now error hst => exact h.refuse hst error
  | held now recovery hst hrec => exact h.hold hst hrec
  | gapped now reason => exact h.gap reason
  | turnedAway now reason envelope => exact h.gap reason
  | noted now reason => exact h.note reason
  | proven now evidence turn op hst hnone hsize => exact h.prove hst hsize
  | accepted now prepared staging hdec hst hev hforms hfst hstgs =>
    exact h.accept hst hev
  | responseRefused now evidence error staging hst hprov hkind hthr hmsg hnone hfits hstgs =>
    exact h.refuseResponse hst hprov hkind hnone hfits
  | abandoned now detail hst hnone => exact h.giveUp hst hnone detail
  | staged | drained => exact h

/-! ## What the operations do -/

/-- At most one change. -/
abbrev Next (orderly : Prop) (r r' : AttemptRecord) : Prop :=
  Relation.ReflGen (DeliveryChange orderly) r r'

/-- **The specification of an operation**: it leaves the record or changes
it once, with `Q` of the result; and no constraint has refused it if the
codes of its rejections are short ones. -/
def Commits (orderly short : Prop) (r : AttemptRecord)
    (x : Except Thrown (AttemptRecord × β)) (Q : AttemptRecord → β → Prop) : Prop :=
  Settles x (fun result => Next orderly r result.1 ∧ Q result.1 result.2)
    fun thrown => short → thrown ≠ .constraint

theorem failed_ne (short : Prop) (msg : String) : short → Thrown.failed msg ≠ .constraint :=
  fun _ => nofun

variable {short : Prop} {row : DeliveryAttempt} {Q : AttemptRecord → Prop}

/-- An error with a text is no refusal by a constraint. -/
theorem settles_orFail {α : Type} {x : Except String α} {Q : α → Prop} (h : ∀ a, x = .ok a → Q a) :
    Settles (orFail x) Q fun t => short → t ≠ .constraint := by
  cases x with
  | ok a => exact h a rfl
  | error msg => exact failed_ne short msg

theorem settles_require {Q : DeliveryAttempt → Prop} (h : r.row.decodeVerified = .ok () → Q r.row) :
    Settles r.require Q fun t => short → t ≠ .constraint := by
  refine settles_bind (settles_orFail fun _ hdec => ?_)
  exact h hdec

/-- A statement is refused where its row does not meet the constraints. -/
theorem settles_write_or {E : Thrown → Prop} (h : row.Checks → Q { r with row })
    (hrefused : ¬row.Checks → E .constraint) :
    Settles (r.write row) Q E := by
  refine settles_bind ?_
  by_cases hchecks : row.Checks
  · rw [check, if_pos (decide_eq_true hchecks)]
    exact h hchecks
  · rw [check, if_neg (by simpa using hchecks)]
    exact hrefused hchecks

/-- A statement whose row meets the constraints is not refused. -/
theorem settles_write (hchecks : row.Checks) (h : Q { r with row }) :
    Settles (r.write row) Q fun t => short → t ≠ .constraint :=
  settles_write_or (fun _ => h) fun hnot => absurd hchecks hnot

end Remux
