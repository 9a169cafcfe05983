import Remux.Delivery.Changes

/-!
# What the operations commit

One specification for each operation of the owner, on a record whose row
meets the constraints of the table.
-/

namespace Remux

open DeliveryAttempt AttemptRecord Relation ReflGen

variable {orderly short : Prop} {r r' : AttemptRecord} {now : ℕ} {β : Type}

/-- **The specification of an operation** without a result. -/
def CommitsRecord (orderly short : Prop) (r : AttemptRecord) (x : Except Thrown AttemptRecord) :
    Prop :=
  Settles x (Next orderly r) fun thrown => short → thrown ≠ .constraint

/-- An operation may be followed by something that returns its record. -/
theorem CommitsRecord.andThen {x : Except Thrown AttemptRecord} {b : β}
    {Q : AttemptRecord → β → Prop} (h : CommitsRecord orderly short r x)
    (hQ : ∀ r', x = .ok r' → Next orderly r r' → Q r' b) :
    Commits orderly short r (x >>= fun r' => pure (r', b)) Q := by
  refine settles_bind ?_
  cases x with
  | ok r' => exact ⟨h, hQ r' rfl h⟩
  | error thrown => exact h

variable (h : r.row.Checks)
include h

/-- An attempt that may have been sent is dispatched. -/
theorem markPossiblySent_commits (owner sid : String) (gen : Option String) :
    CommitsRecord orderly short r (r.markPossiblySent owner now sid gen) := by
  refine settles_bind (settles_require fun _ => ?_)
  refine settles_check (failed_ne _ _) fun _ => ?_
  refine settles_check (failed_ne _ _) fun _ => ?_
  refine settles_check (failed_ne _ _) fun hst => ?_
  have hst' := of_decide_eq_true hst
  exact settles_write (h.cross hst' h.recovery_fits)
    (.single (.crossed now gen _ hst' h.recovery_fits))

theorem markProviderSignalledCrossing_commits (violation : String) :
    CommitsRecord orderly short r (r.markProviderSignalledCrossing now violation) := by
  refine settles_bind (settles_require fun _ => ?_)
  refine settles_check (failed_ne _ _) fun hst => ?_
  have hst' := of_decide_eq_true hst
  have hfits := fits_recoveryDetail r.row [("boundary_violation", .string violation)]
  exact settles_write (h.cross hst' hfits) (.single (.crossed now none _ hst' hfits))

theorem reject_commits (error : Entries) : CommitsRecord orderly short r (r.reject now error) := by
  refine settles_check (failed_ne _ _) fun hst => ?_
  have hst' := of_decide_eq_true hst
  exact settles_write (h.refuse hst' error) (.single (.refused now error hst'))

theorem unknown_commits (error : Entries) :
    CommitsRecord orderly short r (r.unknown now error) := by
  refine settles_ite (fun hst => ?_) fun _ => refl
  have hfits := fits_recoveryDetail r.row [("transport", .object (boundedDeliveryError error))]
  exact settles_write (h.hold hst hfits) (.single (.held now _ hst hfits))

theorem markGap_commits (reason : String) : CommitsRecord orderly short r (r.markGap now reason) :=
  settles_write (h.gap reason) (.single (.gapped now reason))

/-- An acceptance is recorded once, with its evidence. -/
theorem recordAcceptance_commits (evidence : ProviderAcceptanceEvidence)
    (nativeId nativeOperationId : Option String) :
    Settles (r.recordAcceptance now evidence nativeId nativeOperationId)
      (fun r' => Next orderly r r' ∧ r'.row.acceptanceEvidence.isSome)
      fun thrown => short → thrown ≠ .constraint := by
  refine settles_bind (settles_require fun _ => ?_)
  refine settles_check (failed_ne _ _) fun _ => ?_
  refine settles_bind (settles_orFail fun _ _ => ?_)
  refine settles_check (failed_ne _ _) fun hsize => ?_
  cases hcur : r.row.acceptanceEvidence with
  | some current =>
    refine settles_bind (settles_orFail fun _ _ => ?_)
    refine settles_check (failed_ne _ _) fun _ => ?_
    refine settles_check (failed_ne _ _) fun _ => ?_
    exact ⟨.refl, hcur ▸ rfl⟩
  | none =>
    refine settles_check (failed_ne _ _) fun hst => ?_
    have hst' : r.row.state = .dispatching ∨ r.row.state = .unknown := by simpa using hst
    have hsize' := of_decide_eq_true hsize
    exact settles_write (h.prove hst' hsize')
      ⟨.single (.proven now evidence _ _ hst' hcur hsize'), rfl⟩

omit h

/-- An identifier is short. -/
theorem utf8ByteSize_of_textIdentifier {text name text' : String}
    (h : textIdentifier text name = .ok text') : text.utf8ByteSize ≤ 512 := by
  obtain ⟨_, hcheck, -⟩ := bind_eq_ok.1 h
  have hbounds := check_eq_ok.1 hcheck
  simp only [Bool.and_eq_true, decide_eq_true_eq] at hbounds
  exact hbounds.2

/-- The session an attempt names is an identifier. -/
theorem utf16Length_nativeSessionId (h : r.row.decodeVerified = .ok ()) :
    utf16Length r.row.nativeSessionId ≤ 512 := by
  obtain ⟨_, hdec, -⟩ := bind_eq_ok.1 h
  obtain ⟨_, hall, -⟩ := bind_eq_ok.1 hdec
  have hmem : (some r.row.nativeSessionId, "native_session_id") ∈ r.row.identifiers := by
    simp [DeliveryAttempt.identifiers]
  obtain ⟨_, hoptional⟩ := forM_eq_ok hall _ hmem
  obtain ⟨_, hsome, -⟩ := bind_eq_ok.1 hoptional
  cases htext : textIdentifier r.row.nativeSessionId "native_session_id" with
  | ok text => exact (utf16Length_le _).trans (utf8ByteSize_of_textIdentifier htext)
  | error msg =>
    simp only [optionalIdentifier, htext] at hsome
    cases hsome

/-- A rejection by the provider is recorded once. -/
theorem rejectProviderResponse_commits (h : r.row.Checks) (answer : JournalAnswer)
    (evidence : ProviderRejectionEvidence) (error : ProviderDeliveryError)
    (hsho : short → utf16Length error.code ≤ 256) :
    Settles (r.rejectProviderResponse now answer evidence error)
      (fun result => Next orderly r result.1) fun thrown => short → thrown ≠ .constraint := by
  refine settles_bind (settles_require fun hdec => ?_)
  refine settles_ite (fun _ => refl) fun hguard => ?_
  simp only [Bool.or_eq_true, not_or, decide_eq_true_eq, ne_eq, not_not, Bool.and_eq_true,
    Bool.not_eq_true, Option.isSome_eq_false_iff] at hguard
  refine settles_bind (settles_orFail fun _ _ => ?_)
  refine settles_bind (settles_orFail fun staging hstgs => ?_)
  obtain ⟨⟨⟨⟨⟨⟨⟨⟨⟨hprov, hkind⟩, hst⟩, hthr⟩, -⟩, hmsg⟩, hnone⟩, -⟩, -⟩, -⟩ := hguard
  have hst' : r.row.state = .dispatching ∨ r.row.state = .unknown := by
    by_contra hcontra
    exact hst (not_or.1 hcontra)
  have hnone' := Option.isNone_iff_eq_none.1 hnone
  refine settles_bind (settles_write_or (fun hchecks => ?_) fun hrefused hs => ?_)
  · have hfits := hchecks.rejection_size _ rfl
    exact .single (.responseRefused now evidence error staging hst' hprov hkind hthr
      hmsg hnone' hfits hstgs)
  · have hthreadLength := utf16Length_nativeSessionId hdec
    rw [← hthr] at hthreadLength
    have hfits := refusal_fits (hsho hs) hmsg hthreadLength
    exact absurd (h.refuseResponse hst' hprov hkind hnone' hfits) hrefused

/-! ## Admission and observation -/

variable {prepared : Prepared}

variable (hforms : ∀ item ∈ prepared, ∀ form ∈ item.2, form.eventId = item.1.observationId)
include hforms

/-- An admission delivers the staged events in their order. -/
theorem admitAttempt_commits (h : r.row.Checks) {callback : Except String Unit}
    (hfst : r.row.state ≠ .accepted → prepared.map Prod.fst <+: r.staged) :
    CommitsRecord orderly short r (r.admitAttempt now prepared callback) := by
  refine settles_bind (settles_require fun hdec => ?_)
  refine settles_ite (fun _ => refl) fun hacc => ?_
  refine settles_check (failed_ne _ _) fun hev => ?_
  refine settles_bind (settles_orFail fun _ _ => ?_)
  refine settles_check (failed_ne _ _) fun hst => ?_
  have hst' : r.row.state = .dispatching ∨ r.row.state = .unknown := by simpa using hst
  refine settles_bind (settles_write (h.accept hst' hev) ?_)
  refine settles_bind (settles_orFail fun staging hstgs => ?_)
  exact .single (.accepted now prepared staging hdec hst' hev hforms (hfst hacc) hstgs)

/-- A drained attempt is admitted. -/
theorem drainAccepted_commits {append : Except String Unit}
    (hfst : orderly → prepared.map Prod.fst <+: r.staged) :
    CommitsRecord orderly short r (r.drainAccepted prepared append) := by
  refine settles_bind (settles_require fun _ => ?_)
  refine settles_check (failed_ne _ _) fun hst => ?_
  refine settles_bind (settles_orFail fun _ _ => ?_)
  refine settles_bind (settles_orFail fun staging hstgs => ?_)
  exact .single (.drained prepared staging (of_decide_eq_true hst) hforms hfst hstgs)

omit hforms

include h

/-- An event observed is staged, or the gap is recorded. -/
theorem observe_commits (envelope : ProviderEventEnvelope) :
    Commits orderly short r (r.observe now envelope) fun r' result =>
      (result = .conflict ∨ result = .overflow → r'.row.transcriptGap = true) := by
  refine settles_bind (settles_require fun _ => ?_)
  refine settles_bind (settles_orFail fun _ _ => ?_)
  have hgap : ∀ reason, Settles (markGap { r with
        history := { r.history with refused := r.history.refused ++ [envelope] } } now reason)
      (fun r' => Next orderly r r' ∧ r'.row.transcriptGap = true)
      fun thrown => short → thrown ≠ .constraint :=
    fun reason => settles_write (h.gap reason) ⟨.single (.turnedAway now reason envelope), rfl⟩
  split
  · refine settles_ite (fun _ => ?_) fun _ => ?_
    · exact ⟨.refl, fun hres => by rcases hres with h | h <;> cases h⟩
    · refine settles_bind ((hgap _).mono (fun r' hr' => ?_) fun _ h => h)
      exact ⟨hr'.1, fun _ => hr'.2⟩
  · refine settles_ite (fun _ => ?_) fun hroom => ?_
    · refine settles_bind ((hgap _).mono (fun r' hr' => ?_) fun _ h => h)
      exact ⟨hr'.1, fun _ => hr'.2⟩
    · simp only [Bool.or_eq_true, decide_eq_true_eq, not_or, not_le] at hroom
      refine settles_bind (settles_orFail fun staging hstgs => ?_)
      exact ⟨.single (.staged envelope staging hroom.1.1 hstgs), fun hres => by
        rcases hres with h | h <;> cases h⟩

theorem markStreamGap_commits (executionId gen reason : String) :
    CommitsRecord orderly short r (r.markStreamGap now executionId gen reason) :=
  settles_ite (fun _ => markGap_commits h reason) fun _ => refl

theorem recoverCompactionEvidence_commits :
    CommitsRecord orderly short r (r.recoverCompactionEvidence now) := by
  refine settles_bind (settles_require fun _ => ?_)
  split
  · refine settles_ite (fun _ => ?_) fun _ => refl
    exact (recordAcceptance_commits h _ _ _).mono (fun _ h => h.1) fun _ h => h
  · exact refl

theorem recoverRejected_commits (answer : JournalAnswer) :
    CommitsRecord orderly short r (r.recoverRejected now answer) := by
  refine settles_ite (fun _ => ?_) fun _ => refl
  refine settles_bind ?_
  exact rejectProviderResponse_commits h answer _ _ fun _ => by decide

/-- An attempt that was dispatched becomes unknown. -/
theorem recoverHeld_commits (owner : String) :
    CommitsRecord orderly short r (r.recoverHeld owner now) := by
  unfold recoverHeld
  split
  · refine settles_bind (settles_require fun _ => ?_)
    refine settles_ite (fun _ => ?_) fun _ => refl
    exact settles_write (h.note _) (.single (.noted now _))
  · next hst =>
    refine settles_bind (settles_require fun _ => ?_)
    exact settles_write (h.hold hst h.recovery_fits) (.single (.held now _ hst h.recovery_fits))
  · exact refl

theorem abandon_commits (command : String) :
    CommitsRecord orderly short r (r.abandon now command) := by
  refine settles_bind (settles_require fun _ => ?_)
  refine settles_check (failed_ne _ _) fun hguard => ?_
  simp only [Bool.and_eq_true, decide_eq_true_eq, Option.isNone_iff_eq_none] at hguard
  obtain ⟨⟨⟨⟨hst, hnone⟩, -⟩, -⟩, -⟩ := hguard
  exact settles_write (h.giveUp hst hnone _) (.single (.abandoned now _ hst hnone))

omit h

end Remux
