import Remux.Delivery.Queue

/-!
# The turn that acceptance evidence names

Evidence is held against the first that was stored, which may name no turn,
and is not merged with it. So the calls of `recordAcceptance` that succeed
agree on the turn, and it is the one stored, just when the first passes the
turn its evidence names and no later one names a turn while none is stored
(`acceptance_turns`).
-/

namespace Remux

open DeliveryAttempt AttemptRecord ProviderAcceptanceEvidence

/-- A call of `recordAcceptance`. -/
structure AcceptanceCall where
  now : ℕ
  evidence : ProviderAcceptanceEvidence
  nativeTurnId : Option String
  nativeOperationId : Option String

/-- The turn that evidence names. -/
def ProviderAcceptanceEvidence.turn : ProviderAcceptanceEvidence → Option String
  | .codexTurnStartResponse _ turnId _ | .codexTurnSteerResponse _ turnId _ => some turnId
  | .claudeInputReplay _ _ turnId _ => some turnId
  | .codexHistoryClientId _ _ turnId | .fixtureCorrelatedAcceptance _ _ turnId => turnId
  | _ => none

/-- The turns that a call names. An empty argument names none. -/
def AcceptanceCall.names (c : AcceptanceCall) : List String :=
  c.evidence.turn.toList ++ (c.nativeTurnId.filter (· ≠ "")).toList

/-- **The calls of an attempt that succeeded**, each with the record it came
upon. One that throws leaves the record; between them it may change in all
that records no evidence. -/
inductive AcceptanceRun (r : AttemptRecord) :
    List (AttemptRecord × AcceptanceCall) → AttemptRecord → Prop
  | init : AcceptanceRun r [] r
  | call {calls s s'} {c : AcceptanceCall} (h : AcceptanceRun r calls s)
      (hcall : s.recordAcceptance c.now c.evidence c.nativeTurnId c.nativeOperationId = .ok s') :
      AcceptanceRun r (calls ++ [(s, c)]) s'
  | change {calls s s'} (h : AcceptanceRun r calls s) (hchange : DeliveryChange False s s')
      (hsame : s'.row.acceptanceEvidence = s.row.acceptanceEvidence) :
      AcceptanceRun r calls s'

/-- The calls name one turn, and it is stored. -/
structure TurnsAgree (calls : List (AttemptRecord × AcceptanceCall)) (r : AttemptRecord) :
    Prop where
  same : ∀ c ∈ calls, ∀ c' ∈ calls, ∀ turnId ∈ c.2.names, ∀ turnId' ∈ c'.2.names,
    turnId = turnId'
  stored : ∀ c ∈ calls, ∀ turnId ∈ c.2.names, r.row.nativeTurnId = some turnId

/-- **A call passes the turn on**: the first one that its evidence names; a
later one names none while none is stored. -/
def PassesTurn (a : DeliveryAttempt) (c : AcceptanceCall) : Prop :=
  if a.acceptanceEvidence = none then ∀ turnId ∈ c.evidence.turn, c.nativeTurnId = some turnId
  else a.nativeTurnId.getD "" = "" → c.names = []

variable {r r' s : AttemptRecord} {a : DeliveryAttempt} {e e' : ProviderAcceptanceEvidence}
variable {c : AcceptanceCall} {calls : List (AttemptRecord × AcceptanceCall)} {turnId : String}

/-! ## One call -/

/-- **What a call that succeeds has checked.** -/
theorem recordAcceptance_eq_ok
    (h : r.recordAcceptance c.now c.evidence c.nativeTurnId c.nativeOperationId = .ok r') :
    r.row.validateEvidence c.evidence = .ok () ∧ (r.row.acceptanceEvidence = none ∧ r'.row =
          r.row.prove c.now c.evidence c.nativeTurnId c.nativeOperationId ∨
        ∃ e, r.row.acceptanceEvidence = some e ∧ r.row.validateEvidence e = .ok () ∧
          evidenceCompatible e c.evidence = true ∧ (c.nativeTurnId.getD "" = "" ∨
            r.row.nativeTurnId.getD "" = "" ∨ c.nativeTurnId = r.row.nativeTurnId) ∧ r' = r) := by
  have hfail : ∀ {x : Except String Unit}, orFail x = .ok () → x = .ok () := by
    rintro (_ | _) h
    · cases h
    · rfl
  obtain ⟨attempt, hattempt, h⟩ := bind_eq_ok.1 h
  obtain ⟨_, -, ⟨⟩⟩ := bind_eq_ok.1 hattempt
  obtain ⟨_, -, h⟩ := bind_eq_ok.1 h
  obtain ⟨_, hvalid, h⟩ := bind_eq_ok.1 h
  obtain ⟨_, -, h⟩ := bind_eq_ok.1 h
  refine ⟨hfail hvalid, ?_⟩
  cases hev : r.row.acceptanceEvidence with
  | none =>
    rw [hev] at h
    obtain ⟨_, -, h⟩ := bind_eq_ok.1 h
    obtain ⟨_, -, ⟨⟩⟩ := bind_eq_ok.1 h
    exact .inl ⟨rfl, rfl⟩
  | some e =>
    rw [hev] at h
    obtain ⟨_, hcur, h⟩ := bind_eq_ok.1 h
    obtain ⟨_, hcompat, h⟩ := bind_eq_ok.1 h
    obtain ⟨_, hturn, ⟨⟩⟩ := bind_eq_ok.1 h
    refine .inr ⟨e, rfl, hfail hcur, check_eq_ok.1 hcompat, ?_, rfl⟩
    simpa [or_assoc] using check_eq_ok.1 hturn

/-- Evidence that is valid names no empty turn. -/
theorem turn_ne_empty (h : a.validateEvidence e = .ok ()) (hturn : e.turn = some turnId) :
    turnId ≠ "" := by
  rintro rfl
  have hnil : ∀ name u, textIdentifier "" name ≠ .ok u := fun name u h => by
    simpa [isIdentifier] using (textIdentifier_isOk "" name).1 ⟨u, h⟩
  have hnone : ∀ name u, optionalIdentifier (some "") name ≠ .ok u := fun name u h => by
    simpa [isIdentifier] using (optionalIdentifier_isOk (some "") name).1 ⟨u, h⟩
  cases e <;> cases hturn <;> simp [validateEvidence, bind_eq_ok, hnil, hnone] at h

variable {name tid clientId stored : String}

theorem textIdentifier_eq {text text' : String} (h : textIdentifier text name = .ok text') :
    text' = text := by
  obtain ⟨_, -, h⟩ := bind_eq_ok.1 h
  obtain ⟨_, -, ⟨⟩⟩ := bind_eq_ok.1 h
  rfl

/-- An optional identifier is read as it is. -/
theorem optionalIdentifier_eq {field field' : Option String}
    (h : optionalIdentifier field name = .ok field') : field' = field := by
  cases field with
  | none =>
    cases h
    rfl
  | some text =>
    cases htext : textIdentifier text name with
    | error msg =>
      rw [optionalIdentifier, htext] at h
      cases h
    | ok text' =>
      rw [optionalIdentifier, htext] at h
      cases h
      rw [textIdentifier_eq htext]

/-- The start of a turn is that of the one stored. -/
theorem stored_of_start
    (h : a.validateEvidence (.codexTurnStartResponse tid turnId clientId) = .ok ())
    (hstore : a.nativeTurnId = some stored) : stored = turnId := by
  obtain ⟨_, -, h⟩ := bind_eq_ok.1 h
  obtain ⟨turnId', hturn, h⟩ := bind_eq_ok.1 h
  obtain ⟨_, -, h⟩ := bind_eq_ok.1 h
  have hcheck := check_eq_ok.1 h
  rw [textIdentifier_eq hturn, hstore] at hcheck
  simp only [Bool.and_eq_true, Option.all_some, decide_eq_true_eq] at hcheck
  exact hcheck.2.symm

/-- History names the turn of a steer, and no other than the one stored of a
root turn. -/
theorem turn_of_history {named : Option String}
    (h : a.validateEvidence (.codexHistoryClientId tid clientId named) = .ok ()) :
    a.kind = .steer ∧ named.isSome ∨
      a.kind = .rootTurn ∧ (a.nativeTurnId = none ∨ named = none ∨ named = a.nativeTurnId) := by
  obtain ⟨_, -, h⟩ := bind_eq_ok.1 h
  obtain ⟨_, -, h⟩ := bind_eq_ok.1 h
  obtain ⟨named', hnamed, h⟩ := bind_eq_ok.1 h
  have hcheck := check_eq_ok.1 h
  rw [optionalIdentifier_eq hnamed] at hcheck
  simp only [Bool.and_eq_true, Bool.or_eq_true, decide_eq_true_eq, Option.isNone_iff_eq_none]
    at hcheck
  obtain ⟨⟨⟨⟨⟨hkind, hturn⟩ | ⟨⟨hkind, hsome⟩, -⟩, -⟩, -⟩, -⟩, -⟩ := hcheck
  · exact .inr ⟨hkind, or_assoc.1 hturn⟩
  · exact .inl ⟨hkind, hsome⟩

/-- **A later call that names a turn** names that of the evidence it is held
against, or the one stored. -/
theorem turn_of_compatible (he : a.validateEvidence e = .ok ())
    (he' : a.validateEvidence e' = .ok ()) (hcompat : evidenceCompatible e e' = true)
    (hturn : e'.turn = some turnId) (hstore : a.nativeTurnId = some stored) :
    e.turn = some turnId ∨ stored = turnId := by
  have hne := turn_ne_empty he' hturn
  cases e with
  | codexHistoryClientId tid clientId named =>
    cases named with
    | some named =>
      -- two turns that are named are the same
      have hnamed := turn_ne_empty he rfl
      cases e' <;> simp_all [evidenceCompatible, codexIdentity, turn]
    | none =>
      right
      have hkind : a.kind = .rootTurn := by
        rcases turn_of_history he with ⟨-, hsome⟩ | ⟨hkind, -⟩
        · cases hsome
        · exact hkind
      cases e' with
      | codexTurnStartResponse _ turnId' _ =>
        cases hturn
        exact stored_of_start he' hstore
      | codexHistoryClientId _ _ named =>
        obtain rfl : named = some turnId := hturn
        rcases turn_of_history he' with ⟨hsteer, -⟩ | ⟨-, hnone | hnone | hsame⟩
        · rw [hkind] at hsteer
          cases hsteer
        · rw [hstore] at hnone
          cases hnone
        · cases hnone
        · exact (Option.some.inj (hsame.trans hstore)).symm
      | _ => cases hcompat
  | codexTurnStartResponse =>
    have hnamed := turn_ne_empty he rfl
    cases e' <;> simp_all [evidenceCompatible, codexIdentity, turn]
  | _ =>
    cases e' <;> simp_all [evidenceCompatible, codexIdentity, turn]

theorem turnsAgree_iff : TurnsAgree calls r ↔
    ∀ c ∈ calls, ∀ turnId ∈ c.2.names, r.row.nativeTurnId = some turnId := by
  refine ⟨fun h => h.stored, fun h => ⟨fun c hc c' hc' turnId hturn turnId' hturn' => ?_, h⟩⟩
  exact Option.some.inj ((h c hc turnId hturn).symm.trans (h c' hc' turnId' hturn'))

theorem AcceptanceCall.mem_names : turnId ∈ c.names ↔
    c.evidence.turn = some turnId ∨ c.nativeTurnId = some turnId ∧ turnId ≠ "" := by
  simp [AcceptanceCall.names, Option.filter_eq_some_iff]

/-- **A later call**: it names what is stored, if it names nothing while
nothing is. -/
theorem stored_of_call (hev : r.row.acceptanceEvidence = some e)
    (hknown : ∀ turnId, e.turn = some turnId → r.row.nativeTurnId = some turnId)
    (he : r.row.validateEvidence e = .ok ()) (hc : r.row.validateEvidence c.evidence = .ok ())
    (hcompat : evidenceCompatible e c.evidence = true)
    (hturn : c.nativeTurnId.getD "" = "" ∨ r.row.nativeTurnId.getD "" = "" ∨
      c.nativeTurnId = r.row.nativeTurnId) :
    (∀ turnId ∈ c.names, r.row.nativeTurnId = some turnId) ↔ PassesTurn r.row c := by
  rw [PassesTurn, if_neg (by rw [hev]; simp)]
  constructor
  · intro h hnil
    refine List.eq_nil_iff_forall_not_mem.2 fun turnId hnamed => ?_
    rw [h turnId hnamed] at hnil
    rcases AcceptanceCall.mem_names.1 hnamed with hnamed | hnamed
    · exact turn_ne_empty hc hnamed hnil
    · exact hnamed.2 hnil
  · intro h turnId hnamed
    have hset : r.row.nativeTurnId.getD "" ≠ "" := fun hnil => by
      rw [h hnil] at hnamed
      cases hnamed
    cases hstore : r.row.nativeTurnId with
    | none =>
      rw [hstore] at hset
      exact absurd rfl hset
    | some stored =>
      rw [hstore] at hset hturn
      rcases AcceptanceCall.mem_names.1 hnamed with hnamed | ⟨hnamed, hne⟩
      · rcases turn_of_compatible he hc hcompat hnamed hstore with hsame | hsame
        · exact hstore.symm.trans (hknown turnId hsame)
        · rw [hsame]
      · rw [hnamed] at hturn
        exact (hturn.resolve_left hne).resolve_left hset |>.symm

/-! ## Runs -/

/-- What records no evidence leaves the turn. -/
theorem DeliveryChange.nativeTurnId_eq (h : DeliveryChange False r r')
    (hsame : r'.row.acceptanceEvidence = r.row.acceptanceEvidence) :
    r'.row.nativeTurnId = r.row.nativeTurnId := by
  cases h with
  | gapped | turnedAway =>
    simp only [DeliveryAttempt.gap]
  | proven now evidence _ _ _ hnone =>
    rw [hnone] at hsame
    cases hsame
  | _ => rfl

/-- What the calls have left: the evidence is of one of them, and there was
none while there is none. -/
structure EvidenceInv (calls : List (AttemptRecord × AcceptanceCall)) (s : AttemptRecord) :
    Prop where
  fresh : s.row.acceptanceEvidence = none → calls = [] ∧ s.row.nativeTurnId = none
  held : ∀ e, s.row.acceptanceEvidence = some e → ∃ c ∈ calls, c.2.evidence = e

/-- **The calls of a run** agree just when each passes its turn on. By
induction on the run. -/
theorem AcceptanceRun.spec (hnone : r.row.acceptanceEvidence = none)
    (hturn : r.row.nativeTurnId = none) (h : AcceptanceRun r calls s) :
    EvidenceInv calls s ∧ (TurnsAgree calls s ↔ ∀ c ∈ calls, PassesTurn c.1.row c.2) := by
  simp only [turnsAgree_iff]
  induction h with
  | init =>
    exact ⟨⟨fun _ => ⟨rfl, hturn⟩, fun e he => by simp [hnone] at he⟩, by simp⟩
  | @change calls s s' h hchg hsame ih =>
    have hstore := hchg.nativeTurnId_eq hsame
    rw [hstore]
    exact ⟨⟨fun h => hstore ▸ ih.1.fresh (hsame ▸ h), fun e he => ih.1.held e (hsame ▸ he)⟩, ih.2⟩
  | @call calls s s' c h hcall ih =>
    obtain ⟨⟨hnew, hheld⟩, hagree⟩ := ih
    obtain ⟨hc, ⟨hnone, hrow⟩ | ⟨e, hev, he, hcompat, hpassed, rfl⟩⟩ :=
      recordAcceptance_eq_ok hcall
    · -- the first call: what it passes is stored
      obtain ⟨rfl, hunset⟩ := hnew hnone
      have hstore : s'.row.nativeTurnId = c.nativeTurnId := by
        rw [hrow]
        exact (congrArg c.nativeTurnId.or hunset).trans Option.or_none
      refine ⟨⟨fun hnone' => ?_, fun e he => ⟨(s, c), by simp, ?_⟩⟩, ?_⟩
      · rw [hrow] at hnone'
        cases hnone'
      · rw [hrow] at he
        exact Option.some.inj he
      · simp only [List.nil_append, List.forall_mem_singleton, PassesTurn, if_pos hnone, hstore]
        refine ⟨fun h turnId hnamed => h turnId (AcceptanceCall.mem_names.2 (.inl hnamed)),
          fun h turnId hnamed => ?_⟩
        exact (AcceptanceCall.mem_names.1 hnamed).elim (h turnId) And.left
    · -- a later call: nothing is stored
      refine ⟨⟨fun hnone' => ?_, fun e' he' => ?_⟩, ?_⟩
      · rw [hev] at hnone'
        cases hnone'
      · obtain ⟨c', hc', heq⟩ := hheld e' he'
        exact ⟨c', List.mem_append_left _ hc', heq⟩
      · simp only [List.forall_mem_append, List.forall_mem_singleton]
        rw [← hagree]
        refine and_congr_right fun hall => stored_of_call hev (fun turnId hnamed => ?_)
          he hc hcompat hpassed
        obtain ⟨c', hc', rfl⟩ := hheld e hev
        exact hall c' hc' turnId (AcceptanceCall.mem_names.2 (.inl hnamed))

/-- **Acceptance evidence**: in every run of a new attempt the calls that
succeeded name one turn and it is stored, just when each passed its turn
on. -/
theorem acceptance_turns (hnone : r.row.acceptanceEvidence = none)
    (hturn : r.row.nativeTurnId = none) (h : AcceptanceRun r calls s) :
    TurnsAgree calls s ↔ ∀ c ∈ calls, PassesTurn c.1.row c.2 :=
  (h.spec hnone hturn).2

/-- A turn that was sent. -/
def sentAttempt : AttemptRecord :=
  ⟨{ queuedTurn.row with state := .dispatching, crossedAt := some 2, updatedAt := 2 },
    [], 0, none, [], [], []⟩

/-- Its input is found in the history of its thread, in a turn that may not
be named. -/
def foundInHistory (nativeTurnId : Option String) : AcceptanceCall :=
  ⟨3, .codexHistoryClientId "thread-1" "turn-1" nativeTurnId, nativeTurnId, none⟩

/-- The record once it was found so. -/
def foundAttempt (nativeTurnId : Option String) : AttemptRecord :=
  { sentAttempt with
    row := sentAttempt.row.prove 3 (foundInHistory nativeTurnId).evidence nativeTurnId none }

set_option maxRecDepth 4000 in
/-- A turn that was found in the history. -/
theorem acceptance_turns_found :
    TurnsAgree [(sentAttempt, foundInHistory (some "native-1"))] (foundAttempt (some "native-1")) :=
  have hfound : sentAttempt.recordAcceptance 3 (foundInHistory (some "native-1")).evidence
      (some "native-1") none = .ok (foundAttempt (some "native-1")) := by rfl
  (acceptance_turns (r := sentAttempt) rfl rfl
    (.call (c := foundInHistory (some "native-1")) .init hfound)).2
    (by simp [PassesTurn, sentAttempt, PrepareDeliveryAttempt.row, foundInHistory,
      ProviderAcceptanceEvidence.turn])

set_option maxRecDepth 4000 in
/-- **Two turns are named**, after evidence that named none, and neither is
stored. -/
theorem two_turns_named : ∃ calls s, AcceptanceRun sentAttempt calls s ∧
    (∃ c ∈ calls, "native-1" ∈ c.2.names) ∧ (∃ c ∈ calls, "native-2" ∈ c.2.names) ∧
      s.row.nativeTurnId = none := by
  have hfirst : sentAttempt.recordAcceptance 3 (foundInHistory none).evidence none none =
      .ok (foundAttempt none) := by rfl
  have hsecond : (foundAttempt none).recordAcceptance 3
      (foundInHistory (some "native-1")).evidence (some "native-1") none =
        .ok (foundAttempt none) := by rfl
  have hthird : (foundAttempt none).recordAcceptance 3
      (foundInHistory (some "native-2")).evidence (some "native-2") none =
        .ok (foundAttempt none) := by rfl
  have hrun := AcceptanceRun.call (c := foundInHistory (some "native-2"))
    (.call (c := foundInHistory (some "native-1"))
      (.call (c := foundInHistory none) .init hfirst) hsecond) hthird
  exact ⟨_, _, hrun, ⟨(foundAttempt none, foundInHistory (some "native-1")), by simp, by decide⟩,
    ⟨(foundAttempt none, foundInHistory (some "native-2")), by simp, by decide⟩, rfl⟩

end Remux
