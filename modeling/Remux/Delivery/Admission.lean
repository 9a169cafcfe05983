import Remux.Delivery.Runs

/-!
# A delivery attempt is admitted once and on proof

What the callback of an admission does takes effect at most once for an
attempt, with valid evidence and after the crossing; a decided attempt
stays as it was decided; and the constraints of the table hold, of every
row and of every statement that is tried.
-/

namespace Remux

open DeliveryAttempt List

variable {orderly : Prop} {r r' : AttemptRecord} {s s' : DeliveryState} {id : String}
variable {actions : List DeliveryAction}

/-- The columns `prepare` has written for good. -/
def DeliveryAttempt.frozen (a : DeliveryAttempt) :=
  ((a.attemptId, a.commandId, a.kind, a.provider, a.providerInstanceId, a.conversationId,
    a.executionId), a.intendedTurnId, a.clientMessageId, a.nativeClientMessageId,
    a.compactOperationId, a.recoveryPayload, a.nativeSessionId, a.ownerInstanceId, a.createdAt)

theorem DeliveryChange.frozen (hchg : DeliveryChange orderly r r') :
    r'.row.frozen = r.row.frozen := by
  cases hchg <;> rfl

/-- An attempt in a run from a state. -/
structure Later (r r' : AttemptRecord) : Prop where
  frozen : r'.row.frozen = r.row.frozen
  decided : Decided r.row.state → r'.row.state = r.row.state

theorem Later.refl : Later r r := ⟨rfl, fun _ => rfl⟩

/-- A step later is later. -/
theorem Later.next {r'' : AttemptRecord} (h : Later r r') (hnext : Next orderly r' r'') :
    Later r r'' := by
  cases hnext with
  | refl => exact h
  | single hchg =>
    refine ⟨hchg.frozen.trans h.frozen, fun hdecided => ?_⟩
    have hsame := h.decided hdecided
    exact (hchg.decided (hsame ▸ hdecided)).trans hsame

/-- **Frozen columns stay, and so does a decided state.** -/
theorem later_of_leads (h : deliveryMachine.Reachable s) (hleads : deliveryMachine.Leads s s')
    (hr : s.attempts.lookup id = some r) :
    ∃ r', s'.attempts.lookup id = some r' ∧ Later r r' := by
  refine hleads.rule (P := fun u => ∃ r', u.attempts.lookup id = some r' ∧ Later r r')
    ⟨r, hr, .refl⟩ fun u a v hu hlat hstep => ?_
  obtain ⟨r', hr', hlat⟩ := hlat
  have hinv := DeliveryInv.of_reachable (h.leads hu)
  obtain ⟨r'', hr'', hnext⟩ := (hinv.step hstep).follows.old id r' hr'
  exact ⟨r'', hr'', hlat.next hnext⟩

/-- **No constraint refuses a statement**, in a run whose rejections have
short codes. -/
theorem violated_eq_false (hinv : DeliveryInv s) (hsho : s.Short) (hs : s.violated = false)
    (hactions : ∀ a ∈ actions, a.Short) (hrun : deliveryMachine.exec actions s = some s') :
    s'.violated = false := by
  induction actions generalizing s with
  | nil => exact Option.some.inj hrun ▸ hs
  | cons a actions ih =>
    obtain ⟨u, hstep, hrest⟩ := Machine.exec_cons_eq_some.1 hrun
    have hspec := hinv.step hstep
    obtain ⟨hsho', hviol⟩ := hspec.short (hactions a mem_cons_self) hsho
    exact ih hspec.inv hsho' (hviol.trans hs)
      (fun a' hmem => hactions a' (mem_cons_of_mem _ hmem)) hrest

/-- What comes in is returned by an adapter. -/
def DeliveryAction.FromAdapter : DeliveryAction → Prop
  | invoked _ result => result.FromAdapter
  | _ => True

/-- The adapters' codes are short. -/
theorem DeliveryAction.FromAdapter.short {a : DeliveryAction} (h : a.FromAdapter) : a.Short := by
  cases a with
  | invoked d result =>
    cases h with
    | accepted | rejected | unknown => trivial
    | activeCompaction sessionId requestId =>
      show utf16Length "codex_active_compaction" ≤ 256
      decide
  | _ => trivial

/-- **A delivery attempt is admitted at most once and only on proof**, in
every run; and no constraint of the table refuses a statement, whatever the
adapters return. -/
theorem admitted_once (hrun : deliveryMachine.exec actions deliveryMachine.init = some s) :
    (∀ id r, s.attempts.lookup id = some r →
      r.history.admissions ≤ 1 ∧ (r.row.state = .accepted ↔ r.history.admissions = 1) ∧
      (r.row.state = .accepted → r.row.crossedAt.isSome ∧
        ∃ e ∈ r.row.acceptanceEvidence, r.row.validateEvidence e = .ok ()) ∧
      (r.row.state = .rejected → r.row.crossedAt.isSome →
        ∃ evidence error, r.history.responseRejection = some (evidence, error) ∧
          error.message = codexActiveCompactRejection ∧
          evidence.threadId = r.row.nativeSessionId ∧ r.row.provider = .codex ∧
          r.row.kind = .rootTurn) ∧
      r.row.Checks ∧
      ∀ s', deliveryMachine.Leads s s' → ∃ r', s'.attempts.lookup id = some r' ∧
        r'.row.frozen = r.row.frozen ∧
        (r.row.state = .accepted ∨ r.row.state = .rejected ∨ r.row.state = .abandoned →
          r'.row.state = r.row.state)) ∧
      ((∀ a ∈ actions, a.FromAdapter) → s.violated = false) := by
  have hreachable : deliveryMachine.Reachable s := ⟨actions, hrun⟩
  refine ⟨fun id r hr => ?_, fun hadapter => ?_⟩
  · have hinv := (DeliveryInv.of_reachable hreachable).records id r hr
    have hadmissions := hinv.admissions
    refine ⟨?_, ?_, fun haccepted => ⟨?_, hinv.proof haccepted⟩, hinv.refusal, hinv.checks,
      fun s' hleads => ?_⟩
    · rw [hadmissions]
      split <;> decide
    · rw [hadmissions]
      by_cases hstate : r.row.state = .accepted
      all_goals simp [hstate]
    · exact hinv.checks.crossedAt_isSome (by rw [haccepted]; decide) (by rw [haccepted]; decide)
    · obtain ⟨r', hr', hlater⟩ := later_of_leads hreachable hleads hr
      exact ⟨r', hr', hlater.frozen, hlater.decided⟩
  · exact violated_eq_false .init (fun d hmem => absurd hmem List.not_mem_nil) rfl
      (fun a hmem => (hadapter a hmem).short) hrun

/-- The input of a turn that was queued. -/
def queuedTurn : PrepareDeliveryAttempt where
  attemptId := "attempt-1"
  commandId := "command-1"
  kind := .rootTurn
  provider := .codex
  providerInstanceId := "provider-1"
  conversationId := "conversation-1"
  executionId := "execution-1"
  intendedTurnId := some "turn-1"
  clientMessageId := some "client-1"
  nativeClientMessageId := some "turn-1"
  compactOperationId := none
  recoveryPayload := .object [("turnId", .string "turn-1"), ("clientMessageId", .string "client-1"),
    ("nativeClientMessageId", .string "turn-1"), ("content", .array []), ("model", .string "gpt"),
    ("access", .string "read-only")]
  nativeSessionId := "thread-1"
  processGeneration := none
  ownerInstanceId := "owner-1"
  now := 1

/-- An event of that turn. -/
def turnEvent (eventId json : String) : ProviderEventEnvelope where
  eventId := eventId
  provider := .codex
  scope := .turn "provider-1" "conversation-1" "execution-1" "turn-1"
  nativeSessionId := some "thread-1"
  nativeMessageId := none
  nativeKind := "item/completed"
  nativeSequence := true
  nativeSubjectKey := none
  observedAt := 2
  event := .other
  json := json

/-- The turn is sent, and its response is recorded; then its stage is being
prepared. -/
def acceptedRun : List DeliveryAction :=
  [DeliveryAction.start "owner-1", .prepare queuedTurn true, .dispatch "attempt-1",
    .markPossiblySent 0 "thread-1" none 2,
    .invoked 0 (.accepted (.codexTurnStartResponse "thread-1" "native-1" "turn-1")
      (some "native-1") none)] ++
    List.replicate 3 (DeliveryAction.proceed 0 3 ⟨fun _ => none, .ok ()⟩)

/-- An attempt that was accepted and is admitted. -/
theorem admitted_once_accepted :
    let s := deliveryMachine.run (acceptedRun ++ [.prepared 0 4 (.ok []) (.ok ())])
      deliveryMachine.init
    (∃ r, s.attempts.lookup "attempt-1" = some r ∧ r.row.state = .accepted ∧
      r.history.admissions = 1) ∧ s.violated = false := by
  have hrun := @Machine.exec_eq_run _ _ deliveryMachine deliveryMachine.init
    (acceptedRun ++ [.prepared 0 4 (.ok []) (.ok ())]) (by decide +kernel)
  obtain ⟨hrecords, hviolated⟩ := admitted_once hrun
  have hstate : ((deliveryMachine.run (acceptedRun ++ [.prepared 0 4 (.ok []) (.ok ())])
      deliveryMachine.init).attempts.lookup "attempt-1").map (fun r => r.row.state) =
      some .accepted := by
    decide +kernel
  obtain ⟨r, hr, haccepted⟩ := Option.map_eq_some_iff.1 hstate
  refine ⟨⟨r, hr, haccepted, (hrecords _ r hr).2.1.1 haccepted⟩, hviolated ?_⟩
  intro a ha
  simp only [acceptedRun, List.replicate, List.mem_append, List.mem_cons, List.not_mem_nil,
    or_false] at ha
  rcases ha with ((rfl | rfl | rfl | rfl | rfl) | (rfl | rfl | rfl)) | rfl
  all_goals first | exact trivial | exact .accepted ..

end Remux
