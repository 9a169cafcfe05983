import Remux.Common.Lists
import Remux.Notifications.Model.Audiences

/-!
# Delivered at most once

A receipt of the agent's is taken only from an audience that does not have
the intent among its delivered ones, and marks it there; the mark is in
the file before anything is delivered. So it survives what the process
does and where it ends, until the client is removed: `AudiencesInv` says
where the mark of each receipt is.

The buckets of the agent's conversations hold no other audience, since no
two extensions have a key in common.
-/

namespace Remux

open Nat hiding ne_of_lt
open List hiding getElem?_eq_some_iff
open Audiences Assoc Option

variable {audiences : Buckets} {key key' clientId clientId' id : String} {a b : Audience}

/-! ## The buckets -/

/-- One audience is inserted, the others stay. -/
theorem findAudience_insertAudience : findAudience (insertAudience audiences key a) key' clientId' =
      if key' = key ∧ clientId' = a.clientId then some a
      else findAudience audiences key' clientId' := by
  unfold findAudience insertAudience
  rw [lookup_insert_eq]
  by_cases hkey : key' = key
  · subst hkey
    rw [if_pos rfl, bind_some, lookup_insert_eq]
    by_cases hcl : clientId' = a.clientId
    · rw [if_pos hcl, if_pos ⟨rfl, hcl⟩]
    · rw [if_neg hcl, if_neg fun h => hcl h.2]
      cases audiences.lookup key' <;> rfl
  · rw [if_neg hkey, if_neg fun h => hkey h.1]

/-- Buckets are erased, the others stay. -/
theorem findAudience_eraseAll {keys : List String} :
    findAudience (keys.foldl (fun audiences key => audiences.erase key) audiences) key clientId =
      if key ∈ keys then none else findAudience audiences key clientId := by
  induction keys generalizing audiences with
  | nil => rfl
  | cons erased keys ih =>
    rw [foldl_cons, ih]
    unfold findAudience
    rw [lookup_erase_eq]
    by_cases hkey : key = erased
    all_goals simp [hkey]

variable {bucket : Assoc String Audience} {lifetime : Lifetime} {target : AudienceTarget}
variable {recordings' c : ℕ} {r : Receipt}

/-- A bucket without entries has no client. -/
theorem lookup_eq_none_of_isEmpty (h : bucket.entries.isEmpty = true) :
    bucket.lookup clientId = none := by
  rcases hget : bucket.lookup clientId with _ | a
  · rfl
  · rw [← mem_entries_iff, isEmpty_iff.1 h] at hget
    cases hget

/-- Where empty buckets go, no audience does. -/
theorem findAudience_filterMapValues {f : Assoc String Audience → Assoc String Audience} :
    findAudience (audiences.filterMapValues fun bucket =>
        if (f bucket).entries.isEmpty then none else some (f bucket)) key clientId =
      (audiences.lookup key).bind fun bucket => (f bucket).lookup clientId := by
  unfold findAudience
  rw [lookup_filterMapValues]
  cases audiences.lookup key with
  | none => rfl
  | some bucket =>
    rw [bind_some, bind_some]
    split
    · next hnil => exact (lookup_eq_none_of_isEmpty hnil).symm
    · rfl

theorem findAudience_withoutClient : findAudience (withoutClient audiences clientId') key clientId =
      if clientId = clientId' then none else findAudience audiences key clientId := by
  rw [withoutClient, findAudience_filterMapValues]
  unfold findAudience
  cases audiences.lookup key with
  | none => exact (ite_self none).symm
  | some bucket => exact lookup_erase_eq

/-- A bucket after an intent, and the other ones. -/
theorem findAudience_insert_filterMapValues {f : Audience → Option Audience}
    (h : audiences.lookup key = some bucket) :
    findAudience (audiences.insert key (bucket.filterMapValues f)) key' clientId =
      if key' = key then (findAudience audiences key clientId).bind f
      else findAudience audiences key' clientId := by
  unfold findAudience
  rw [lookup_insert_eq]
  by_cases hkey : key' = key
  · rw [if_pos hkey, if_pos hkey, bind_some, lookup_filterMapValues, h, bind_some]
  · rw [if_neg hkey, if_neg hkey]

/-- The audiences stored are those of agent conversations. -/
theorem mem_agentAudiences_iff :
    a ∈ agentAudiences audiences ↔ isAgentConversationTarget a.target = true ∧
      ∃ key clientId, findAudience audiences key clientId = some a := by
  unfold agentAudiences
  rw [mem_flatMap]
  constructor
  · rintro ⟨⟨key, bucket⟩, hbucket, hmem⟩
    obtain ⟨hmem, hagent⟩ := mem_filter.1 hmem
    obtain ⟨⟨clientId, a⟩, hent, rfl⟩ := mem_map.1 hmem
    refine ⟨hagent, key, clientId, ?_⟩
    rw [findAudience, mem_entries_iff.1 hbucket]
    exact mem_entries_iff.1 hent
  · rintro ⟨hagent, key, clientId, hfind⟩
    obtain ⟨bucket, hbucket, hget⟩ := bind_eq_some_iff.1 hfind
    refine ⟨⟨key, bucket⟩, mem_entries_iff.2 hbucket, mem_filter.2 ⟨?_, hagent⟩⟩
    exact mem_map.2 ⟨⟨clientId, a⟩, mem_entries_iff.2 hget, rfl⟩

/-! ## Which audience belongs where -/

/-- **What is recorded**: conversations with the agent until they are
removed, and targets of the two other extensions. -/
def Recorded (lifetime : Lifetime) (target : AudienceTarget) : Prop :=
  (lifetime = .target ∧ ∃ conversationId, target = agentTarget conversationId) ∨
    target.extensionId = some "codex" ∨ target.extensionId = some "terminal"

/-- A request records the lifetime of its kind. -/
theorem recorded_of_change {method : String} {request result : Value}
    (h : audienceChangeForClientRequest method request result = some (.record lifetime target)) :
    Recorded lifetime target := by
  unfold audienceChangeForClientRequest at h
  split at h
  · dsimp only at h
    split at h
    · cases h
    split at h
    · cases h
    obtain ⟨conversationId, -, heq⟩ := map_eq_some_iff.1 h
    cases heq
    exact .inl ⟨rfl, conversationId, rfl⟩
  split at h
  · obtain ⟨tid, -, h⟩ := bind_eq_some_iff.1 h
    obtain ⟨turnId, -, heq⟩ := map_eq_some_iff.1 h
    cases heq
    exact .inr (.inl rfl)
  split at h
  · obtain ⟨tid, -, heq⟩ := map_eq_some_iff.1 h
    cases heq
    exact .inr (.inl rfl)
  split at h
  · obtain ⟨sid, -, h⟩ := bind_eq_some_iff.1 h
    split at h
    · cases h
    · cases h
      exact .inr (.inr rfl)
  split at h
  · obtain ⟨sid, -, heq⟩ := map_eq_some_iff.1 h
    cases heq
  · cases h

/-- What is recorded of an agent's conversation. -/
theorem Recorded.of_agent (h : Recorded lifetime target)
    (hagent : isAgentConversationTarget target = true) :
    lifetime = .target ∧ ∃ conversationId, target = agentTarget conversationId := by
  have hext : target.extensionId = some "agent" := by
    simp only [isAgentConversationTarget, Bool.and_eq_true, beq_iff_eq] at hagent
    exact hagent.1.1.1
  rcases h with h | h | h
  · exact h
  all_goals
    rw [h] at hext
    simp at hext

/-- A key begins with the extension. -/
theorem eq_append_of_audienceKey (h : audienceKeyForTarget target = some key) :
    ∃ extensionId rest, target.extensionId = some extensionId ∧
      key = extensionId ++ ":" ++ rest := by
  obtain ⟨extensionId, hext, h⟩ := bind_eq_some_iff.1 h
  obtain ⟨_, -, h⟩ := bind_eq_some_iff.1 h
  obtain ⟨_, -, h⟩ := bind_eq_some_iff.1 h
  obtain ⟨_, -, h⟩ := bind_eq_some_iff.1 h
  obtain ⟨_, -, h⟩ := bind_eq_some_iff.1 h
  rw [String.intercalate_cons_cons] at h
  exact ⟨extensionId, _, (filter_eq_some_iff.1 hext).1, (some.inj h).symm⟩

/-- **The buckets of conversations are the agent's own.** -/
theorem Recorded.agent_of_key_eq {conversationId : String} (h : Recorded lifetime target)
    (hkey : audienceKeyForTarget target = some key)
    (hagent : audienceKeyForTarget (agentTarget conversationId) = some key) :
    lifetime = .target ∧ ∃ conversationId, target = agentTarget conversationId := by
  obtain ⟨extensionId, rest, hext, rfl⟩ := eq_append_of_audienceKey hkey
  obtain ⟨_, rest', heq, hsame⟩ := eq_append_of_audienceKey hagent
  cases heq
  have hchars := congrArg String.toList hsame
  rcases h with h | h | h
  · exact h
  all_goals
    rw [h] at hext
    cases hext
    simp at hchars

/-- **An audience in its place**: in the bucket of its target, under its
client, and recorded. -/
structure WellPlaced (recordings : ℕ) (key clientId : String) (a : Audience) : Prop where
  client : a.clientId = clientId
  key : audienceKeyForTarget a.target = some key
  recorded : Recorded a.lifetime a.target
  recording : a.recording < recordings

variable {recordings : ℕ}

theorem WellPlaced.mono (h : WellPlaced recordings key clientId a)
    (hle : recordings ≤ recordings') : WellPlaced recordings' key clientId a where
  __ := h
  recording := lt_of_lt_of_le h.recording hle

/-- An audience with the place of one of the agent's is one of the
agent's. -/
theorem WellPlaced.agent (h : WellPlaced recordings key clientId a)
    (h' : WellPlaced recordings' key clientId' b)
    (hagent : isAgentConversationTarget b.target = true) :
    a.lifetime = .target ∧ isAgentConversationTarget a.target = true := by
  obtain ⟨-, conversationId, heq⟩ := h'.recorded.of_agent hagent
  have hkey := h'.key
  rw [heq] at hkey
  obtain ⟨hlife, conversationId', heq'⟩ := h.recorded.agent_of_key_eq h.key hkey
  refine ⟨hlife, ?_⟩
  rw [heq']
  simp [isAgentConversationTarget, agentTarget]

/-! ## The file -/

/-- The agent's audiences in a file, each in its place and no place
twice. -/
structure WellStored (recordings : ℕ) (stored : List Audience) : Prop where
  agent : ∀ a ∈ stored, isAgentConversationTarget a.target = true
  placed : ∀ a ∈ stored, ∃ key, WellPlaced recordings key a.clientId a
  unique : ∀ a ∈ stored, ∀ b ∈ stored, audienceKeyForTarget a.target =
    audienceKeyForTarget b.target →
    a.clientId = b.clientId → a = b

variable {stored : List Audience}

theorem WellStored.mono (h : WellStored recordings stored) (hle : recordings ≤ recordings') :
    WellStored recordings' stored where
  __ := h
  placed := fun a ha => (h.placed a ha).imp fun _ hpl => hpl.mono hle

/-- **What is loaded is what is in the file.** -/
theorem findAudience_loadAgentAudiences (h : WellStored recordings stored) :
    findAudience (loadAgentAudiences stored) key clientId = some a ↔
      a ∈ stored ∧ audienceKeyForTarget a.target = some key ∧ a.clientId = clientId := by
  suffices hload : ∀ audiences,
      findAudience (stored.foldl loadAgentAudience audiences) key clientId = some a ↔
        (a ∈ stored ∧ audienceKeyForTarget a.target = some key ∧ a.clientId = clientId) ∨
          findAudience audiences key clientId = some a ∧ ∀ b ∈ stored,
            ¬ (audienceKeyForTarget b.target = some key ∧ b.clientId = clientId) by
    rw [loadAgentAudiences, hload ∅, or_iff_left]
    rintro ⟨hnil, -⟩
    cases hnil
  obtain ⟨hagent, hpl, hunique⟩ := h
  induction stored with
  | nil => intro audiences; simp
  | cons b stored ih =>
    intro audiences
    obtain ⟨keyB, hb⟩ := hpl b mem_cons_self
    have hagentB := hagent b mem_cons_self
    have hlife := (hb.recorded.of_agent hagentB).1
    have hins : loadAgentAudience audiences b = insertAudience audiences keyB b := by
      rw [loadAgentAudience, if_neg (by simp [hlife, hagentB]), hb.key]
    rw [foldl_cons, hins]
    rw [ih (fun c hc => hagent c (mem_cons_of_mem _ hc)) (fun c hc => hpl c (mem_cons_of_mem _ hc))
      fun c hc d hd => hunique c (mem_cons_of_mem _ hc) d (mem_cons_of_mem _ hd)]
    rw [findAudience_insertAudience]
    by_cases hplc : key = keyB ∧ clientId = b.clientId
    · -- the place is that of the first one, which is the only one there
      obtain ⟨rfl, rfl⟩ := hplc
      rw [if_pos ⟨rfl, rfl⟩]
      constructor
      · rintro (⟨hmem, hkey, hcl⟩ | ⟨heq, hother⟩)
        · exact .inl ⟨mem_cons_of_mem _ hmem, hkey, hcl⟩
        · cases heq
          exact .inl ⟨mem_cons_self, hb.key, rfl⟩
      · rintro (⟨hmem, hkey, hcl⟩ | ⟨-, hother⟩)
        · rcases mem_cons.1 hmem with rfl | hmem'
          · by_cases hmem' : a ∈ stored
            · exact .inl ⟨hmem', hkey, rfl⟩
            · refine .inr ⟨rfl, fun c hc hplc => hmem' ?_⟩
              rwa [hunique a mem_cons_self c (mem_cons_of_mem _ hc)
                (hkey.trans hplc.1.symm) hplc.2.symm]
          · exact .inl ⟨hmem', hkey, hcl⟩
        · exact absurd ⟨hb.key, rfl⟩ (hother b mem_cons_self)
    · rw [if_neg hplc]
      have hne : ¬ (audienceKeyForTarget b.target = some key ∧ b.clientId = clientId) := by
        rintro ⟨hkey, rfl⟩
        rw [hb.key] at hkey
        exact hplc ⟨(some.inj hkey).symm, rfl⟩
      constructor
      · rintro (⟨hmem, hkey, hcl⟩ | ⟨hfind, hother⟩)
        · exact .inl ⟨mem_cons_of_mem _ hmem, hkey, hcl⟩
        · refine .inr ⟨hfind, fun c hc => ?_⟩
          rcases mem_cons.1 hc with rfl | hc
          · exact hne
          · exact hother c hc
      · rintro (⟨hmem, hkey, hcl⟩ | ⟨hfind, hother⟩)
        · rcases mem_cons.1 hmem with rfl | hmem
          · exact absurd ⟨hkey, hcl⟩ hne
          · exact .inl ⟨hmem, hkey, hcl⟩
        · exact .inr ⟨hfind, fun c hc => hother c (mem_cons_of_mem _ hc)⟩

/-! ## The invariant -/

/-- The receipts that a call has selected and not handed on. -/
def AudienceCall.receipts : AudienceCall → List Receipt
  | .selected delivery | .delivering delivery => delivery
  | .persisting | .done => []

/-- Those of a call that has persisted. -/
def AudienceCall.persisted : AudienceCall → List Receipt
  | .delivering delivery => delivery
  | .selected _ | .persisting | .done => []

namespace Audiences

/-- All receipts: those delivered, and those of the calls at work. -/
def receipts (s : Audiences) : List Receipt :=
  s.deliveries ++ s.calls.flatMap AudienceCall.receipts

/-- The receipts whose marks were persisted. -/
def persisted (s : Audiences) : List Receipt :=
  s.deliveries ++ s.calls.flatMap AudienceCall.persisted

end Audiences

/-- The receipt is of the agent's, and its client was not removed
since. -/
def Audiences.Current (s : Audiences) (r : Receipt) : Prop :=
  isAgentConversationTarget r.audience.target = true ∧
    r.removals = s.removals r.key r.audience.clientId

/-- **Receipts apart**: not two of the agent's for one intent of one
client, unless the client was removed in between, and not two of an
audience for once. -/
def Apart (r r' : Receipt) : Prop :=
  (isAgentConversationTarget r.audience.target = true →
    isAgentConversationTarget r'.audience.target = true → r.key = r'.key →
    r.audience.clientId = r'.audience.clientId → r.intentId = r'.intentId →
      r.removals ≠ r'.removals) ∧
  (r.audience.lifetime = .once → r'.audience.lifetime = .once →
    r.audience.recording ≠ r'.audience.recording)

theorem Apart.symm {r' : Receipt} (h : Apart r r') : Apart r' r :=
  ⟨fun hagent' hagent hkey hcl hid heq =>
      h.1 hagent hagent' hkey.symm hcl.symm hid.symm heq.symm,
    fun honce' honce heq => h.2 honce honce' heq.symm⟩

/-- **Where the marks are**: the audience of a current receipt has its
intent among the delivered ones, in the process, and in the file once
it was persisted. -/
structure AudiencesInv (s : Audiences) : Prop where
  placed : ∀ key clientId a, findAudience s.audiences key clientId = some a →
    WellPlaced s.recordings key clientId a
  distinct : ∀ key clientId a key' clientId' b, findAudience s.audiences key clientId = some a →
    findAudience s.audiences key' clientId' = some b → a.lifetime = .once → b.lifetime = .once →
      a.recording = b.recording → key = key' ∧ clientId = clientId'
  stored : WellStored s.recordings s.stored
  receipts : ∀ r ∈ s.receipts, WellPlaced s.recordings r.key r.audience.clientId r.audience ∧
    r.removals ≤ s.removals r.key r.audience.clientId
  marked : ∀ r ∈ s.receipts, s.Current r →
    ∃ a, findAudience s.audiences r.key r.audience.clientId = some a ∧ r.intentId ∈ a.deliveredIds
  kept : ∀ r ∈ s.persisted, s.Current r → ∃ a ∈ s.stored,
    audienceKeyForTarget a.target = some r.key ∧ a.clientId = r.audience.clientId ∧
      r.intentId ∈ a.deliveredIds
  /-- An audience for once that has a receipt is no audience any more. -/
  taken : ∀ r ∈ s.receipts, r.audience.lifetime = .once → ∀ key clientId a,
    findAudience s.audiences key clientId = some a → a.lifetime = .once →
      a.recording ≠ r.audience.recording
  apart : s.receipts.Pairwise Apart

/-! ## Steps that remove, deliver or end -/

variable {s s' : Audiences}

theorem mem_receipts_of_persisted (hr : r ∈ s.persisted) : r ∈ s.receipts := by
  refine mem_append.2 ((mem_append.1 hr).imp_right fun hr => ?_)
  obtain ⟨call, hcall, hr⟩ := mem_flatMap.1 hr
  refine mem_flatMap.2 ⟨call, hcall, ?_⟩
  cases call with
  | delivering _ => exact hr
  | selected | persisting | done => cases hr

/-- A step that takes audiences away and counts them, and that only moves
receipts. -/
theorem AudiencesInv.of_sub (h : AudiencesInv s) (hfind : ∀ key clientId,
      (findAudience s'.audiences key clientId = findAudience s.audiences key clientId ∧
        s'.removals key clientId = s.removals key clientId) ∨
      findAudience s'.audiences key clientId = none ∧
        s.removals key clientId < s'.removals key clientId)
    (hstore : s'.stored = s.stored) (hrecs : s'.recordings = s.recordings)
    (hrcpts : s'.receipts.Perm s.receipts) (hpers : s'.persisted.Perm s.persisted) :
    AudiencesInv s' := by
  have hold : ∀ key clientId a, findAudience s'.audiences key clientId = some a →
      findAudience s.audiences key clientId = some a := by
    intro key clientId a ha
    rcases hfind key clientId with ⟨heq, -⟩ | ⟨hnone, -⟩
    · rwa [heq] at ha
    · rw [hnone] at ha
      cases ha
  have hcurrent : ∀ r ∈ s.receipts, s'.Current r → s.Current r ∧
      findAudience s'.audiences r.key r.audience.clientId =
        findAudience s.audiences r.key r.audience.clientId := by
    rintro r hr ⟨hagent, hcnt⟩
    rcases hfind r.key r.audience.clientId with ⟨heq, hsame⟩ | ⟨-, hlt⟩
    · exact ⟨⟨hagent, hcnt.trans hsame⟩, heq⟩
    · have hle := (h.receipts r hr).2
      omega
  refine ⟨?_, ?_, ?_, ?_, ?_, ?_, ?_, ?_⟩
  · rw [hrecs]
    exact fun key clientId a ha => h.placed key clientId a (hold _ _ _ ha)
  · exact fun key clientId a key' clientId' b ha hb =>
      h.distinct key clientId a key' clientId' b (hold _ _ _ ha) (hold _ _ _ hb)
  · rw [hrecs, hstore]
    exact h.stored
  · intro r hr
    obtain ⟨hpl, hle⟩ := h.receipts r (hrcpts.mem_iff.1 hr)
    rw [hrecs]
    refine ⟨hpl, ?_⟩
    rcases hfind r.key r.audience.clientId with ⟨-, hsame⟩ | ⟨-, hlt⟩
    · rwa [hsame]
    · exact le_of_lt (lt_of_le_of_lt hle hlt)
  · intro r hr hcur
    have hr := hrcpts.mem_iff.1 hr
    obtain ⟨hcur, heq⟩ := hcurrent r hr hcur
    rw [heq]
    exact h.marked r hr hcur
  · intro r hr hcur
    have hr := hpers.mem_iff.1 hr
    rw [hstore]
    exact h.kept r hr (hcurrent r (mem_receipts_of_persisted hr) hcur).1
  · exact fun r hr honce key clientId a ha =>
      h.taken r (hrcpts.mem_iff.1 hr) honce key clientId a (hold _ _ _ ha)
  · exact (hrcpts.pairwise_iff Apart.symm).2 h.apart

variable {agent : Bool}

theorem receipts_change : (s.change audiences agent).receipts = s.receipts := by
  cases agent <;> simp [change, Audiences.receipts, AudienceCall.receipts]

theorem persisted_change : (s.change audiences agent).persisted = s.persisted := by
  cases agent <;> simp [change, Audiences.persisted, AudienceCall.persisted]

variable (h : AudiencesInv s)
include h

/-- Audiences are taken away. -/
theorem AudiencesInv.change_of_sub (hsub : ∀ key clientId,
      findAudience audiences key clientId = findAudience s.audiences key clientId ∨
        findAudience audiences key clientId = none) : AudiencesInv (s.change audiences agent) := by
  refine h.of_sub (fun key clientId => ?_) rfl rfl (.of_eq receipts_change)
    (.of_eq persisted_change)
  show (findAudience audiences key clientId = _ ∧ s.countRemovals audiences key clientId = _) ∨
    findAudience audiences key clientId = none ∧ _ < s.countRemovals audiences key clientId
  unfold countRemovals
  rcases hsub key clientId with heq | hnone
  · rw [heq]
    refine .inl ⟨rfl, if_neg ?_⟩
    cases findAudience s.audiences key clientId <;> simp
  · rw [hnone]
    cases hfind : findAudience s.audiences key clientId with
    | none => exact .inl ⟨rfl, if_neg (by simp)⟩
    | some a =>
      exact .inr ⟨rfl, lt_succ_self _⟩

theorem AudiencesInv.remove : AudiencesInv (s.remove target) := by
  refine h.change_of_sub fun key clientId => ?_
  rw [findAudience_eraseAll]
  split
  · exact .inr rfl
  · exact .inl rfl

theorem AudiencesInv.clearToken : AudiencesInv (s.clearToken clientId) := by
  refine h.change_of_sub fun key clientId => ?_
  rw [findAudience_withoutClient]
  split
  · exact .inr rfl
  · exact .inl rfl

/-- The end of a call keeps the invariant. -/
theorem AudiencesInv.finish (hstep : s.finish c = some s') : AudiencesInv s' := by
  unfold Audiences.finish at hstep
  split at hstep
  next hcall =>
    obtain ⟨rest, hrcpts, hset⟩ := exists_flatMap_set (f := AudienceCall.receipts) hcall
    obtain ⟨rest', hpers, hset'⟩ := exists_flatMap_set (f := AudienceCall.persisted) hcall
    cases hstep
    refine h.of_sub (fun key clientId => .inl ⟨?_, rfl⟩) rfl rfl ?_ ?_
    · exact findAudience_filterMapValues
    · exact Perm.append_left _ ((hset .done).trans hrcpts.symm)
    · exact Perm.append_left _ ((hset' .done).trans hpers.symm)
  next => cases hstep

/-- A receipt is handed on. -/
theorem AudiencesInv.deliver {i : ℕ} (hstep : s.deliver c i = some s') : AudiencesInv s' := by
  unfold Audiences.deliver at hstep
  split at hstep
  next delivery hcall =>
    obtain ⟨r, hr, rfl⟩ := map_eq_some_iff.1 hstep
    obtain ⟨rest, hrcpts, hset⟩ := exists_flatMap_set (f := AudienceCall.receipts) hcall
    obtain ⟨rest', hpers, hset'⟩ := exists_flatMap_set (f := AudienceCall.persisted) hcall
    obtain ⟨hlt, rfl⟩ := getElem?_eq_some_iff.1 hr
    have hmove : ∀ deliveries rest : List Receipt,
        (deliveries ++ [delivery[i]] ++ (delivery.eraseIdx i ++ rest)).Perm
          (deliveries ++ (delivery ++ rest)) := by
      intro deliveries rest
      rw [append_assoc, singleton_append, ← cons_append]
      exact ((getElem_cons_eraseIdx_perm hlt).append_right rest).append_left deliveries
    refine h.of_sub (fun key clientId => .inl ⟨rfl, rfl⟩) rfl rfl ?_ ?_
    · exact ((hset _).append_left _).trans
        ((hmove s.deliveries rest).trans (hrcpts.symm.append_left _))
    · exact ((hset' _).append_left _).trans
        ((hmove s.deliveries rest').trans (hpers.symm.append_left _))
  next => cases hstep

omit h

/-! ## Recording -/

/-- Recording again keeps what was delivered. -/
theorem AudiencesInv.record {sid : Option String} {origin : Option String × Option String}
    (h : AudiencesInv s) (hrec : Recorded lifetime target) :
    AudiencesInv (s.record clientId sid lifetime origin target) := by
  unfold Audiences.record
  split
  · exact h
  next key hkey =>
  have hfresh : ∀ key clientId a, findAudience s.audiences key clientId = some a →
      a.recording ≠ s.recordings :=
    fun key clientId a ha => Nat.ne_of_lt (h.placed key clientId a ha).recording
  dsimp only
  generalize hnew : (Audience.mk clientId lifetime origin.1 origin.2 sid target
    (((findAudience s.audiences key clientId).map Audience.deliveredIds).getD ∅) s.recordings) = a
  have hpl : WellPlaced (s.recordings + 1) key clientId a := by
    subst hnew
    exact ⟨rfl, hkey, hrec, lt_succ_self _⟩
  have hrecording : a.recording = s.recordings := by rw [← hnew]
  have hcl : a.clientId = clientId := hpl.client
  have hfind : ∀ key' clientId', findAudience (insertAudience s.audiences key a) key' clientId' =
        if key' = key ∧ clientId' = clientId then some a
        else findAudience s.audiences key' clientId' := by
    intro key' clientId'
    rw [findAudience_insertAudience, hcl]
  have hremovals : s.countRemovals (insertAudience s.audiences key a) = s.removals := by
    funext key' clientId'
    unfold countRemovals
    rw [hfind, if_neg]
    by_cases hplc : key' = key ∧ clientId' = clientId
    · simp [hplc]
    · rw [if_neg hplc]
      cases findAudience s.audiences key' clientId' <;> simp
  suffices hst : ∀ s' : Audiences, s'.audiences = insertAudience s.audiences key a →
      s'.removals = s.removals → s'.stored = s.stored → s'.recordings = s.recordings + 1 →
      s'.receipts = s.receipts → s'.persisted = s.persisted → AudiencesInv s' from
    hst _ rfl hremovals rfl rfl (@receipts_change (insertAudience s.audiences key a) s _)
      (@persisted_change (insertAudience s.audiences key a) s _)
  intro s' haudiences hremovals hstore hrecs hrcpts hpers
  rw [← haudiences] at hfind
  have hcurrent : ∀ r, s'.Current r → s.Current r := by
    intro r hcur
    unfold Current at hcur ⊢
    rwa [hremovals] at hcur
  refine ⟨?_, ?_, ?_, ?_, ?_, ?_, ?_, ?_⟩
  · intro key' clientId' b hb
    rw [hrecs]
    rw [hfind] at hb
    split at hb
    · next hplc =>
      obtain ⟨rfl, rfl⟩ := hplc
      cases hb
      exact hpl
    · exact (h.placed key' clientId' b hb).mono (le_succ _)
  · intro key₁ clientId₁ b₁ key₂ clientId₂ b₂ hb₁ hb₂ honce₁ honce₂ heq
    rw [hfind] at hb₁ hb₂
    split at hb₁ <;> split at hb₂
    · next hplace₁ hplace₂ =>
      exact ⟨hplace₁.1.trans hplace₂.1.symm, hplace₁.2.trans hplace₂.2.symm⟩
    · cases hb₁
      exact absurd (heq.symm.trans hrecording) (hfresh _ _ _ hb₂)
    · cases hb₂
      exact absurd (heq.trans hrecording) (hfresh _ _ _ hb₁)
    · exact h.distinct key₁ clientId₁ b₁ key₂ clientId₂ b₂ hb₁ hb₂ honce₁ honce₂ heq
  · rw [hstore, hrecs]
    exact h.stored.mono (le_succ _)
  · intro r hr
    rw [hrcpts] at hr
    rw [hremovals, hrecs]
    exact ⟨(h.receipts r hr).1.mono (le_succ _), (h.receipts r hr).2⟩
  · intro r hr hcur
    rw [hrcpts] at hr
    obtain ⟨b, hb, hid⟩ := h.marked r hr (hcurrent r hcur)
    rw [hfind]
    split
    · next hplc =>
      -- the audience in its place takes over what it had delivered
      refine ⟨a, rfl, ?_⟩
      rw [hplc.1, hplc.2] at hb
      rw [← hnew, hb]
      exact hid
    · exact ⟨b, hb, hid⟩
  · intro r hr hcur
    rw [hpers] at hr
    rw [hstore]
    exact h.kept r hr (hcurrent r hcur)
  · intro r hr honce key' clientId' b hb honce'
    rw [hrcpts] at hr
    rw [hfind] at hb
    split at hb
    · cases hb
      rw [hrecording]
      exact (Nat.ne_of_lt (h.receipts r hr).1.recording).symm
    · exact h.taken r hr honce key' clientId' b hb honce'
  · rw [hrcpts]
    exact h.apart

/-! ## Selecting -/

/-- What an intent leaves of an audience as it is. -/
structure SameAudience (a b : Audience) : Prop where
  client : b.clientId = a.clientId
  lifetime : b.lifetime = a.lifetime
  target : b.target = a.target
  recording : b.recording = a.recording

theorem WellPlaced.of_same {recordings : ℕ} (h : WellPlaced recordings key clientId a)
    (hsame : SameAudience a b) : WellPlaced recordings key clientId b where
  client := hsame.client.trans h.client
  key := hsame.target ▸ h.key
  recorded := by
    rw [hsame.lifetime, hsame.target]
    exact h.recorded
  recording := hsame.recording ▸ h.recording

/-- A delivery adds its id to the audience. -/
theorem deliverTo_eq_some (h : deliverTo id a = some b) :
    SameAudience a b ∧ (isAgentConversationTarget a.target = true → id ∉ a.deliveredIds) := by
  unfold deliverTo at h
  split at h
  · obtain ⟨hid, ⟨⟩⟩ := ite_none_left_eq_some.1 h
    exact ⟨⟨rfl, rfl, rfl, rfl⟩, fun _ => hid⟩
  · next hagent =>
    cases h
    exact ⟨⟨rfl, rfl, rfl, rfl⟩, fun h => absurd h hagent⟩

/-- An audience that stays after an intent is not for once. -/
theorem afterIntent_eq_some (h : afterIntent id a = some b) :
    SameAudience a b ∧ a.lifetime ≠ .once ∧ a.deliveredIds ⊆ b.deliveredIds := by
  unfold afterIntent at h
  split at h
  · cases h
  next honce =>
  split at h
  · cases h
    exact ⟨⟨rfl, rfl, rfl, rfl⟩, honce, Finset.subset_insert _ _⟩
  · cases h
    exact ⟨⟨rfl, rfl, rfl, rfl⟩, honce, Finset.Subset.refl _⟩

/-- An audience of the agent's stays, with the intent marked. -/
theorem afterIntent_of_agent (hlife : a.lifetime = .target)
    (hagent : isAgentConversationTarget a.target = true) :
    afterIntent id a = some { a with deliveredIds := insert id a.deliveredIds } := by
  rw [afterIntent, hlife, if_neg nofun, if_pos hagent]

/-- Whom a delivery of a bucket reaches. -/
theorem mem_delivery_iff :
    r ∈ s.delivery key id bucket ↔ ∃ clientId a b, bucket.lookup clientId = some a ∧
      deliverTo id a = some b ∧ r = ⟨key, b, id, s.removals key clientId⟩ := by
  unfold delivery
  rw [mem_filterMap]
  constructor
  · rintro ⟨⟨clientId, a⟩, hent, heq⟩
    obtain ⟨b, hb, rfl⟩ := map_eq_some_iff.1 heq
    exact ⟨clientId, a, b, mem_entries_iff.1 hent, hb, rfl⟩
  · rintro ⟨clientId, a, b, ha, hb, rfl⟩
    exact ⟨⟨clientId, a⟩, mem_entries_iff.2 ha, map_eq_some_iff.2 ⟨b, hb, rfl⟩⟩

/-- **The receipts of one intent are apart**: each client of the bucket
has one. -/
theorem AudiencesInv.apart_delivery (h : AudiencesInv s)
    (hbucket : s.audiences.lookup key = some bucket) :
    (s.delivery key id bucket).Pairwise Apart := by
  have hfind : ∀ entry ∈ bucket.entries, findAudience s.audiences key entry.1 = some entry.2 := by
    rintro ⟨clientId, a⟩ hent
    rw [findAudience, hbucket]
    exact mem_entries_iff.1 hent
  refine (Pairwise.and_mem.1 bucket.nodupKeys.pairwise_ne).filterMap _ ?_
  rintro ⟨clientId, a⟩ ⟨clientId', a'⟩ ⟨hent, hent', hne⟩ r hr r' hr'
  obtain ⟨b, hb, rfl⟩ := map_eq_some_iff.1 hr
  obtain ⟨b', hb', rfl⟩ := map_eq_some_iff.1 hr'
  have hsame := (deliverTo_eq_some hb).1
  have hsame' := (deliverTo_eq_some hb').1
  have ha := hfind _ hent
  have ha' := hfind _ hent'
  refine ⟨fun _ _ _ hcl => absurd ?_ hne, fun honce honce' heq => hne ?_⟩
  · rw [hsame.client, hsame'.client, (h.placed _ _ _ ha).client, (h.placed _ _ _ ha').client] at hcl
    exact hcl
  · rw [hsame.lifetime] at honce
    rw [hsame'.lifetime] at honce'
    rw [hsame.recording, hsame'.recording] at heq
    exact (h.distinct _ _ _ _ _ _ ha ha' honce honce' heq).2

/-- **An intent takes its receipts apart from the earlier ones**, and
marks them. -/
theorem AudiencesInv.select {intent : NotificationIntent} (h : AudiencesInv s) :
    AudiencesInv (s.select intent) := by
  unfold Audiences.select
  split
  · exact h
  next key _ =>
  split
  · exact h
  next bucket hbucket =>
  dsimp only
  have hfind : ∀ key' clientId,
      findAudience (s.audiences.insert key (bucket.filterMapValues (afterIntent intent.id))) key'
          clientId =
        if key' = key then (findAudience s.audiences key clientId).bind (afterIntent intent.id)
        else findAudience s.audiences key' clientId :=
    fun key' clientId => findAudience_insert_filterMapValues hbucket
  -- every audience that is left was there, with no more delivered than now
  have hold : ∀ key' clientId b,
      findAudience (s.audiences.insert key (bucket.filterMapValues (afterIntent intent.id))) key'
          clientId = some b →
        ∃ a, findAudience s.audiences key' clientId = some a ∧ SameAudience a b ∧
          (key' = key → a.lifetime ≠ .once) := by
    intro key' clientId b hb
    rw [hfind] at hb
    split at hb
    · next heq =>
      obtain ⟨a, ha, haft⟩ := bind_eq_some_iff.1 hb
      obtain ⟨hsame, honce, -⟩ := afterIntent_eq_some haft
      exact ⟨a, heq ▸ ha, hsame, fun _ => honce⟩
    · next hne => exact ⟨b, hb, ⟨rfl, rfl, rfl, rfl⟩, fun heq => absurd heq hne⟩
  have hdelivery : ∀ r ∈ s.delivery key intent.id bucket, ∃ a,
      findAudience s.audiences key r.audience.clientId = some a ∧ SameAudience a r.audience ∧
        (isAgentConversationTarget a.target = true → intent.id ∉ a.deliveredIds) ∧
        r.key = key ∧ r.intentId = intent.id ∧
        r.removals = s.removals key r.audience.clientId := by
    intro r hr
    obtain ⟨clientId, a, b, ha, hdeliver, rfl⟩ := mem_delivery_iff.1 hr
    obtain ⟨hsame, hid⟩ := deliverTo_eq_some hdeliver
    have ha : findAudience s.audiences key clientId = some a := by
      rw [findAudience, hbucket]
      exact ha
    have hcl : b.clientId = clientId := hsame.client.trans (h.placed _ _ _ ha).client
    subst hcl
    exact ⟨a, ha, hsame, hid, rfl, rfl, rfl⟩
  suffices hst : ∀ s' : Audiences,
      s'.audiences = s.audiences.insert key (bucket.filterMapValues (afterIntent intent.id)) →
      s'.stored = s.stored → s'.removals = s.removals → s'.recordings = s.recordings →
      s'.receipts = s.receipts ++ s.delivery key intent.id bucket →
      (∀ r ∈ s'.persisted, r ∈ s.persisted ∨ ¬ isAgentConversationTarget r.audience.target = true) →
      AudiencesInv s' by
    refine hst _ rfl rfl rfl rfl ?_ ?_
    · split
      · next hnil =>
        rw [isEmpty_iff.1 hnil, append_nil]
        rfl
      · split <;> simp [Audiences.receipts, AudienceCall.receipts]
    · intro r hr
      split at hr
      · exact .inl hr
      split at hr
      · simp only [Audiences.persisted, AudienceCall.persisted, flatMap_append,
          flatMap_singleton, append_nil] at hr
        exact .inl hr
      · next hnone =>
        simp only [Audiences.persisted, AudienceCall.persisted, flatMap_append,
          flatMap_singleton, ← append_assoc] at hr
        refine (mem_append.1 hr).imp_right fun hr hagent => hnone ?_
        exact any_eq_true.2 ⟨r, hr, hagent⟩
  intro s' haudiences hstore hremovals hrecs hrcpts hpers
  rw [← haudiences] at hfind hold
  have hcurrent : ∀ r, s'.Current r → s.Current r := by
    intro r hcur
    unfold Current at hcur ⊢
    rwa [hremovals] at hcur
  refine ⟨?_, ?_, ?_, ?_, ?_, ?_, ?_, ?_⟩
  · intro key' clientId b hb
    obtain ⟨a, ha, hsame, -⟩ := hold _ _ _ hb
    rw [hrecs]
    exact (h.placed _ _ _ ha).of_same hsame
  · intro key₁ clientId₁ b₁ key₂ clientId₂ b₂ hb₁ hb₂ honce₁ honce₂ heq
    obtain ⟨a₁, ha₁, hsame₁, -⟩ := hold _ _ _ hb₁
    obtain ⟨a₂, ha₂, hsame₂, -⟩ := hold _ _ _ hb₂
    rw [hsame₁.lifetime] at honce₁
    rw [hsame₂.lifetime] at honce₂
    rw [hsame₁.recording, hsame₂.recording] at heq
    exact h.distinct _ _ _ _ _ _ ha₁ ha₂ honce₁ honce₂ heq
  · rw [hstore, hrecs]
    exact h.stored
  · intro r hr
    rw [hremovals, hrecs]
    rw [hrcpts] at hr
    rcases mem_append.1 hr with hr | hr
    · exact h.receipts r hr
    · obtain ⟨a, ha, hsame, -, hkey, -, hcnt⟩ := hdelivery r hr
      rw [hkey, hcnt]
      refine ⟨?_, le_refl _⟩
      have hpl := h.placed _ _ _ ha
      exact hpl.of_same hsame
  · intro r hr hcur
    rw [hrcpts] at hr
    rw [hfind]
    rcases mem_append.1 hr with hr | hr
    · obtain ⟨a, ha, hid⟩ := h.marked r hr (hcurrent r hcur)
      split
      · next heq =>
        rw [heq] at ha
        obtain ⟨hlife, hagent⟩ :=
          (heq ▸ h.placed _ _ _ ha).agent (h.receipts r hr).1 hcur.1
        rw [ha, bind_some, afterIntent_of_agent hlife hagent]
        exact ⟨_, rfl, Finset.mem_insert_of_mem hid⟩
      · exact ⟨a, ha, hid⟩
    · obtain ⟨a, ha, hsame, -, hkey, hid, -⟩ := hdelivery r hr
      have hagent : isAgentConversationTarget a.target = true := hsame.target ▸ hcur.1
      have hlife := ((h.placed _ _ _ ha).recorded.of_agent hagent).1
      rw [if_pos hkey, ha, bind_some, afterIntent_of_agent hlife hagent, hid]
      exact ⟨_, rfl, Finset.mem_insert_self _ _⟩
  · intro r hr hcur
    rw [hstore]
    exact h.kept r ((hpers r hr).resolve_right fun hnot => hnot hcur.1) (hcurrent r hcur)
  · intro r hr honce key' clientId b hb honce'
    rw [hrcpts] at hr
    obtain ⟨a, ha, hsame, hgone⟩ := hold _ _ _ hb
    rw [hsame.lifetime] at honce'
    rw [hsame.recording]
    rcases mem_append.1 hr with hr | hr
    · exact h.taken r hr honce key' clientId a ha honce'
    · obtain ⟨a', ha', hsame', -⟩ := hdelivery r hr
      rw [hsame'.lifetime] at honce
      rw [hsame'.recording]
      exact fun heq => hgone (h.distinct _ _ _ _ _ _ ha ha' honce' honce heq).1 honce'
  · rw [hrcpts]
    refine pairwise_append.2 ⟨h.apart, h.apart_delivery hbucket, fun r hr r' hr' => ?_⟩
    obtain ⟨a, ha, hsame, hid, hkey, hintent, hcnt⟩ := hdelivery r' hr'
    refine ⟨fun hagent hagent' hkey' hcl hid' heq => ?_, fun honce honce' heq => ?_⟩
    · -- a current receipt is marked, and then there is no other
      obtain ⟨b, hb, hmem⟩ := h.marked r hr ⟨hagent, by rw [heq, hcnt, hkey', hkey, hcl]⟩
      rw [hkey', hkey, hcl, ha] at hb
      cases hb
      refine hid (hsame.target ▸ hagent') ?_
      rwa [hid', hintent] at hmem
    · rw [hsame.lifetime] at honce'
      exact h.taken r hr honce _ _ _ ha honce' (heq.trans hsame.recording).symm

/-! ## The file and the process -/

/-- What would be stored is stored well. -/
theorem AudiencesInv.wellStored (h : AudiencesInv s) :
    WellStored s.recordings (agentAudiences s.audiences) := by
  have hpl : ∀ a ∈ agentAudiences s.audiences, ∃ key,
      findAudience s.audiences key a.clientId = some a ∧
        WellPlaced s.recordings key a.clientId a := by
    intro a ha
    obtain ⟨-, key, clientId, hfind⟩ := mem_agentAudiences_iff.1 ha
    have hpl := h.placed _ _ _ hfind
    obtain rfl := hpl.client
    exact ⟨key, hfind, hpl⟩
  refine ⟨fun a ha => (mem_agentAudiences_iff.1 ha).1, fun a ha => ?_, fun a ha b hb hkey hcl => ?_⟩
  · obtain ⟨key, -, hpl⟩ := hpl a ha
    exact ⟨key, hpl⟩
  · obtain ⟨key, hfind, hplacedA⟩ := hpl a ha
    obtain ⟨key', hfind', hplacedB⟩ := hpl b hb
    rw [hplacedA.key, hplacedB.key, some.injEq] at hkey
    subst hkey
    rw [hcl, hfind', some.injEq] at hfind
    exact hfind.symm

/-- **Once the audiences are written, every mark is in the file.** -/
theorem AudiencesInv.persist (h : AudiencesInv s) (hstep : s.persist c = some s') :
    AudiencesInv s' := by
  obtain ⟨call, call', hcall, hsame, rfl⟩ : ∃ call call', s.calls[c]? = some call ∧
      call'.receipts = call.receipts ∧
        s' = { s with stored := agentAudiences s.audiences, calls := s.calls.set c call' } := by
    unfold Audiences.persist at hstep
    split at hstep
    · next hcall =>
      cases hstep
      exact ⟨_, .done, hcall, rfl, rfl⟩
    · next delivery hcall =>
      cases hstep
      exact ⟨_, .delivering delivery, hcall, rfl, rfl⟩
    · cases hstep
  obtain ⟨rest, hrcpts, hset⟩ := exists_flatMap_set (f := AudienceCall.receipts) hcall
  have hperm : (Audiences.receipts { s with
      stored := agentAudiences s.audiences, calls := s.calls.set c call' }).Perm s.receipts := by
    refine Perm.append_left _ ((hset call').trans ?_)
    rw [hsame]
    exact hrcpts.symm
  refine ⟨h.placed, h.distinct, h.wellStored, fun r hr => h.receipts r (hperm.mem_iff.1 hr),
    fun r hr => h.marked r (hperm.mem_iff.1 hr), fun r hr hcur => ?_,
    fun r hr => h.taken r (hperm.mem_iff.1 hr), (hperm.pairwise_iff Apart.symm).2 h.apart⟩
  have hr := hperm.mem_iff.1 (mem_receipts_of_persisted hr)
  obtain ⟨a, ha, hid⟩ := h.marked r hr hcur
  have hpl := h.placed _ _ _ ha
  have hagent := (hpl.agent (h.receipts r hr).1 hcur.1).2
  exact ⟨a, mem_agentAudiences_iff.2 ⟨hagent, _, _, ha⟩, hpl.key, hpl.client, hid⟩

/-- **Every mark outlives the process.** -/
theorem AudiencesInv.restart (h : AudiencesInv s) : AudiencesInv s.restart := by
  have hload : ∀ {key clientId a}, findAudience s.restart.audiences key clientId = some a →
      WellPlaced s.recordings key clientId a ∧ a.lifetime = .target := by
    intro key clientId a ha
    obtain ⟨hmem, hkey, rfl⟩ := (findAudience_loadAgentAudiences h.stored).1 ha
    obtain ⟨key', hpl⟩ := h.stored.placed a hmem
    obtain rfl : key' = key := some.inj (hpl.key.symm.trans hkey)
    exact ⟨hpl, (hpl.recorded.of_agent (h.stored.agent a hmem)).1⟩
  have hrcpts : s.restart.receipts = s.deliveries := append_nil _
  have hpers : s.restart.persisted = s.deliveries := append_nil _
  have hmem : ∀ r ∈ s.deliveries, r ∈ s.receipts := fun r hr => mem_append_left _ hr
  refine ⟨fun _ _ _ ha => (hload ha).1, fun _ _ a _ _ _ ha _ honce => ?_, h.stored,
    ?_, ?_, ?_, ?_, ?_⟩
  · rw [(hload ha).2] at honce
    cases honce
  · exact fun r hr => h.receipts r (hmem r (hrcpts ▸ hr))
  · intro r hr hcur
    obtain ⟨a, ha, hkey, hcl, hid⟩ :=
      h.kept r (mem_append_left _ (hrcpts ▸ hr)) hcur
    exact ⟨a, (findAudience_loadAgentAudiences h.stored).2 ⟨ha, hkey, hcl⟩, hid⟩
  · exact fun r hr => h.kept r (mem_append_left _ (hpers ▸ hr))
  · intro r _ _ key clientId a ha honce
    rw [(hload ha).2] at honce
    cases honce
  · rw [hrcpts]
    exact (pairwise_append.1 h.apart).1

/-! ## Every run -/

/-- There is no audience at first. -/
theorem audiencesInv_init : AudiencesInv audienceMachine.init := by
  have hfind : ∀ key clientId, findAudience audienceMachine.init.audiences key clientId = none :=
    fun _ _ => rfl
  have hnone : ∀ {α : Type} {P : α → Prop}, ∀ a ∈ ([] : List α), P a :=
    fun _ hmem => absurd hmem not_mem_nil
  refine ⟨?_, ?_, ⟨hnone, hnone, hnone⟩, hnone, hnone, hnone, hnone, .nil⟩
  · intro key clientId a ha
    cases ha
  · intro key clientId a _ _ _ ha
    cases ha

/-- A notification removes, or selects, or does neither. -/
theorem handleExtensionNotification_cases (s : Audiences) (msg : Value) :
    s.handleExtensionNotification msg = s ∨
      (∃ target, s.handleExtensionNotification msg = s.remove target) ∨
      ∃ intent, s.handleExtensionNotification msg = s.select intent := by
  unfold handleExtensionNotification
  dsimp only
  split
  · split
    · exact .inl rfl
    · exact .inr (.inl ⟨_, rfl⟩)
  split
  · exact .inl rfl
  split
  · exact .inl rfl
  · exact .inr (.inr ⟨_, rfl⟩)

/-- Every step keeps the invariant. -/
theorem AudiencesInv.step {action : AudienceAction} (h : AudiencesInv s)
    (hstep : audienceMachine.step s action = some s') : AudiencesInv s' := by
  cases action with
  | recordClientRequest clientId sid request result =>
    cases hstep
    unfold recordClientRequest
    dsimp only
    split
    · exact h
    · exact h.remove
    · next hchg => exact h.record (recorded_of_change hchg)
  | clearToken clientId =>
    cases hstep
    exact h.clearToken
  | handleExtensionNotification msg =>
    cases hstep
    rcases handleExtensionNotification_cases s msg with heq | ⟨target, heq⟩ | ⟨intent, heq⟩
    · rw [heq]
      exact h
    · rw [heq]
      exact h.remove
    · rw [heq]
      exact h.select
  | persist c => exact h.persist hstep
  | deliver c i => exact h.deliver hstep
  | finish c => exact h.finish hstep
  | restart =>
    cases hstep
    exact h.restart

theorem audiencesInv_of_reachable (h : audienceMachine.Reachable s) : AudiencesInv s :=
  h.rule audiencesInv_init fun _ _ _ _ hinv hstep => hinv.step hstep

/-- **Two deliveries apart**: not of one intent to a client of one
conversation with the agent, unless the client was removed between the two
selections, and not to one audience for once. -/
def DeliveredApart (r r' : Receipt) : Prop :=
  (isAgentConversationTarget r.audience.target = true →
    isAgentConversationTarget r'.audience.target = true →
    r.audience.clientId = r'.audience.clientId →
    r.audience.target.resourceId = r'.audience.target.resourceId →
    r.intentId = r'.intentId → r.removals ≠ r'.removals) ∧
  (r.audience.lifetime = .once → r'.audience.lifetime = .once →
    r.audience.recording ≠ r'.audience.recording)

/-- **Delivered at most once.** However the calls and the restarts of the
process interleave, any two deliveries are apart. -/
theorem delivered_at_most_once (h : audienceMachine.Reachable s) :
    s.deliveries.Pairwise DeliveredApart := by
  have hinv := audiencesInv_of_reachable h
  have hmem : ∀ r ∈ s.deliveries, r ∈ s.receipts := fun r hr => mem_append_left _ hr
  refine (Pairwise.and_mem.1 (pairwise_append.1 hinv.apart).1).imp ?_
  rintro r r' ⟨hr, hr', hapart⟩
  refine ⟨fun hagent hagent' hclient hresource => ?_, hapart.2⟩
  refine hapart.1 hagent hagent' ?_ hclient
  have hplaced := (hinv.receipts r (hmem r hr)).1
  have hplaced' := (hinv.receipts r' (hmem r' hr')).1
  -- the conversation determines the target, and the target the bucket
  obtain ⟨-, conversationId, heq⟩ := hplaced.recorded.of_agent hagent
  obtain ⟨-, conversationId', heq'⟩ := hplaced'.recorded.of_agent hagent'
  rw [heq, heq'] at hresource
  cases hresource
  have hkey := hplaced.key
  have hkey' := hplaced'.key
  rw [heq] at hkey
  rw [heq', hkey] at hkey'
  exact Option.some.inj hkey'

/-- A message to a conversation, and its intent, seen by a process and by
the next one. -/
def exampleDelivery : List AudienceAction :=
  let request : Value := .object [("method", .string "remux/agent/conversation/message/send"),
      ("params", .object [("conversationId", .string "chat")])]
  let intent : Value := .object [("method", .string "remux/notifications/request"),
      ("params", .object
        [("id", .string "turn"), ("extensionId", .string "agent"), ("title", .string "Done"),
          ("target", .object
            [("resourceKind", .string "agentConversation"), ("resourceId", .string "chat")])])]
  [.recordClientRequest "phone" none request (.object [("accepted", .bool true)]), .persist 0,
    .handleExtensionNotification intent, .handleExtensionNotification intent, .persist 1,
    .deliver 1 0, .restart, .handleExtensionNotification intent]

theorem delivered_at_most_once_example :
    (audienceMachine.run exampleDelivery audienceMachine.init).deliveries.length = 1 ∧
      (audienceMachine.run exampleDelivery audienceMachine.init).deliveries.Pairwise
        DeliveredApart :=
  ⟨by decide +kernel,
    delivered_at_most_once ⟨exampleDelivery, Machine.exec_eq_run (by decide +kernel)⟩⟩

end Remux
