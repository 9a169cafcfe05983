import Remux.Common.Joined
import Remux.Notifications.Audiences

/-!
# Which target a bucket is of

The key of a bucket is made of the eight fields of its target, joined by a
colon that the fields may have in them. Of two targets with one key the
fields agree exactly if each field of the one has as many colons as that of
the other; a bucket holds the audiences of one target if its audiences are
so, and an intent goes to those who are subscribed to its target.
-/

namespace Remux

open AudienceTarget Option

/-- The eight fields that identify a target; the view is by default the main
one, and a handler or a launch there need not be. -/
def AudienceTarget.fields (target : AudienceTarget) : List String :=
  [(nonEmpty target.extensionId).getD "", (nonEmpty target.viewId).getD "main",
    (nonEmpty target.handlerId).getD "", (nonEmpty target.launch).getD "",
    (nonEmpty target.resourceKind).getD "", (nonEmpty target.resourceId).getD "",
    (nonEmpty target.focusKind).getD "", (nonEmpty target.focusId).getD ""]

/-- How many colons each of them has. -/
def AudienceTarget.colons (target : AudienceTarget) : List ℕ :=
  target.fields.map (countChar ':')

/-- The target that an intent is for: the conversation, if it is the agent's. -/
def NotificationIntent.audienceTarget (intent : NotificationIntent) : AudienceTarget :=
  let own : AudienceTarget := ⟨some intent.extensionId, some intent.viewId, intent.handlerId,
    intent.launch, intent.resourceKind, intent.resourceId, intent.focusKind, intent.focusId⟩
  match agentConversationTarget intent with
  | some target => if (audienceKeyForTarget target).isSome then target else own
  | none => own

variable {target target' : AudienceTarget} {key : String} {s : Audiences}

/-- The key is made of the fields. -/
theorem eq_intercalate_of_audienceKey (h : audienceKeyForTarget target = some key) :
    key = ":".intercalate target.fields := by
  obtain ⟨extensionId, hext, h⟩ := bind_eq_some_iff.1 h
  obtain ⟨resourceKind, hresourceKind, h⟩ := bind_eq_some_iff.1 h
  obtain ⟨resourceId, hresourceId, h⟩ := bind_eq_some_iff.1 h
  obtain ⟨focusKind, hfocusKind, h⟩ := bind_eq_some_iff.1 h
  obtain ⟨focusId, hfocusId, h⟩ := bind_eq_some_iff.1 h
  rw [fields, hext, hresourceKind, hresourceId, hfocusKind, hfocusId]
  exact (some.inj h).symm

/-- **Two targets of one key are the same**, exactly if their fields have the
same colons. -/
theorem fields_eq_iff_of_key (h : audienceKeyForTarget target = some key)
    (h' : audienceKeyForTarget target' = some key) :
    target.fields = target'.fields ↔ target.colons = target'.colons := by
  constructor
  · intro heq
    rw [colons, colons, heq]
  · intro hcolons
    have hkey := eq_intercalate_of_audienceKey h
    rw [eq_intercalate_of_audienceKey h'] at hkey
    exact (intercalate_text_inj_of_count hcolons.symm hkey).symm

/-- An intent goes to the bucket of its target. -/
theorem audienceKey_of_intentKey {intent : NotificationIntent} (h : intentKey intent = some key) :
    audienceKeyForTarget intent.audienceTarget = some key := by
  unfold intentKey at h
  unfold NotificationIntent.audienceTarget
  cases htgt : agentConversationTarget intent with
  | none =>
    rw [htgt] at h
    exact h
  | some target =>
    rw [htgt, bind_some] at h
    dsimp only
    cases hkey : audienceKeyForTarget target with
    | none =>
      rw [hkey] at h
      exact h
    | some key' =>
      rw [hkey] at h
      simp only [isSome_some, if_true, hkey]
      exact h

/-- **Audience keys identify their target** as far as colons do. Two targets
of one key agree in their fields exactly if they do in the colons of each;
so do the targets of the audiences in one bucket, in every state reached,
and the target of an intent and those of the audiences it is delivered to. -/
theorem audience_keys_identify (h : audienceMachine.Reachable s) :
    (∀ target target' key, audienceKeyForTarget target = some key →
      audienceKeyForTarget target' = some key →
        (target.fields = target'.fields ↔ target.colons = target'.colons)) ∧
    (∀ key clientId clientId' a b, findAudience s.audiences key clientId = some a →
      findAudience s.audiences key clientId' = some b →
        (a.target.fields = b.target.fields ↔ a.target.colons = b.target.colons)) ∧
    ∀ intent key bucket, intentKey intent = some key → s.audiences.lookup key = some bucket →
      ∀ receipt ∈ s.delivery key intent.id bucket,
        (receipt.audience.target.fields = intent.audienceTarget.fields ↔
          receipt.audience.target.colons = intent.audienceTarget.colons) := by
  have hinv := audiencesInv_of_reachable h
  refine ⟨fun target target' key hkey hkey' => fields_eq_iff_of_key hkey hkey',
    fun key clientId clientId' a b ha hb => fields_eq_iff_of_key
      (hinv.placed key clientId a ha).key (hinv.placed key clientId' b hb).key, ?_⟩
  intro intent key bucket hkey hbucket receipt hreceipt
  obtain ⟨clientId, a, b, ha, hdeliver, rfl⟩ := mem_delivery_iff.1 hreceipt
  have hfind : findAudience s.audiences key clientId = some a := by
    rw [findAudience, hbucket]
    exact ha
  refine fields_eq_iff_of_key ?_ (audienceKey_of_intentKey hkey)
  rw [(deliverTo_eq_some hdeliver).1.target]
  exact (hinv.placed key clientId a hfind).key

/-- A turn of a thread is asked for. -/
def turnRequest (threadId turnId : String) : Value × Value :=
  (.object [("method", .string "remux/codex/thread/message/send")],
    .object [("threadId", .string threadId), ("turnId", .string turnId)])

/-- Two clients ask for a turn each. -/
def turnsRun (threadId turnId threadId' turnId' : String) : List AudienceAction :=
  [.recordClientRequest "phone" none (turnRequest threadId turnId).1
      (turnRequest threadId turnId).2,
    .recordClientRequest "tablet" none (turnRequest threadId' turnId').1
      (turnRequest threadId' turnId').2]

/-- Two clients in the audience of one turn. -/
theorem audience_keys_identify_turns : ∃ s, audienceMachine.Reachable s ∧
    ∃ a b, findAudience s.audiences "codex:main:::thread:a:turn:b" "phone" = some a ∧
      findAudience s.audiences "codex:main:::thread:a:turn:b" "tablet" = some b ∧
      (a.target.fields = b.target.fields ↔ a.target.colons = b.target.colons) := by
  have hrun : audienceMachine.exec (turnsRun "a" "b" "a" "b") audienceMachine.init =
      some (audienceMachine.run (turnsRun "a" "b" "a" "b") audienceMachine.init) :=
    Machine.exec_eq_run (by decide +kernel)
  have hphone : (findAudience (audienceMachine.run (turnsRun "a" "b" "a" "b")
      audienceMachine.init).audiences "codex:main:::thread:a:turn:b" "phone").isSome := by
    decide +kernel
  have htablet : (findAudience (audienceMachine.run (turnsRun "a" "b" "a" "b")
      audienceMachine.init).audiences "codex:main:::thread:a:turn:b" "tablet").isSome := by
    decide +kernel
  obtain ⟨a, ha⟩ := Option.isSome_iff_exists.1 hphone
  obtain ⟨b, hb⟩ := Option.isSome_iff_exists.1 htablet
  exact ⟨_, ⟨_, hrun⟩, a, b, ha, hb, (audience_keys_identify ⟨_, hrun⟩).2.1 _ _ _ a b ha hb⟩

/-- **One bucket for two targets.** The turn `b:turn:c` of the thread `a` and
the turn `c` of the thread `a:turn:b` have one key, and the intent of the one
is delivered to both clients. -/
theorem audience_key_of_two_targets : ∃ s, audienceMachine.Reachable s ∧
    ((findAudience s.audiences "codex:main:::thread:a:turn:b:turn:c" "phone").map
      fun a => (a.target.resourceId, a.target.focusId)) = some (some "a", some "b:turn:c") ∧
    ((findAudience s.audiences "codex:main:::thread:a:turn:b:turn:c" "tablet").map
      fun a => (a.target.resourceId, a.target.focusId)) = some (some "a:turn:b", some "c") ∧
    ∃ intent bucket, intent.resourceId = some "a" ∧
      intentKey intent = some "codex:main:::thread:a:turn:b:turn:c" ∧
      s.audiences.lookup "codex:main:::thread:a:turn:b:turn:c" = some bucket ∧
      "tablet" ∈ (s.delivery "codex:main:::thread:a:turn:b:turn:c" intent.id bucket).map
        (·.audience.clientId) := by
  have hrun : audienceMachine.exec (turnsRun "a" "b:turn:c" "a:turn:b" "c") audienceMachine.init =
      some (audienceMachine.run (turnsRun "a" "b:turn:c" "a:turn:b" "c") audienceMachine.init) :=
    Machine.exec_eq_run (by decide +kernel)
  refine ⟨_, ⟨_, hrun⟩, by decide +kernel, by decide +kernel,
    ⟨"turn", "Done", none, "codex", "main", none, none, none, none, some "thread", some "a",
      some "turn", some "b:turn:c"⟩, ((audienceMachine.run (turnsRun "a" "b:turn:c" "a:turn:b" "c")
        audienceMachine.init).audiences.lookup "codex:main:::thread:a:turn:b:turn:c").getD ∅, rfl,
    by decide +kernel, ?_, by decide +kernel⟩
  have hsome : ((audienceMachine.run (turnsRun "a" "b:turn:c" "a:turn:b" "c")
      audienceMachine.init).audiences.lookup "codex:main:::thread:a:turn:b:turn:c").isSome := by
    decide +kernel
  obtain ⟨bucket, hbucket⟩ := Option.isSome_iff_exists.1 hsome
  rw [hbucket, Option.getD_some]

end Remux
