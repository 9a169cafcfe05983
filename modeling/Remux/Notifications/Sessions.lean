import Remux.Notifications.Model.Sessions

/-!
# Who releases a push session

An entry goes in two ways: at the disconnection of its connection, and
at a registration that follows the identity its own connection remembers
from before. The first asks whose the entry is, the second does not. A
connection that another one has taken a session over from still remembers
the session, so its next registration under another identity takes the
entry of the other one away (`taken_over_released`).

`orderlySessions` is the machine without such registrations. There every
step that removes an entry without replacing it is one of the entry's
own connection (`session_released_by_owner`); and any other registration
does remove an entry of another connection (`released_by_stranger`), so
that the condition is no stronger than it must be.
-/

namespace Remux

open Assoc Option Machine

variable {clients : Assoc String ClientState} {registration : Registration}
variable {clientId sessionId : String} {identity : String × String}

namespace NotificationManager

/-! ## What the changes of the clients do to an entry -/

/-- A token does not change the sessions. -/
@[simp] theorem findSession_withToken :
    findSession (withToken clients registration) clientId sessionId =
      findSession clients clientId sessionId := by
  unfold findSession withToken
  rw [lookup_insert_eq]
  by_cases hcl : clientId = registration.clientId
  · subst hcl
    rw [if_pos rfl]
    cases clients.lookup registration.clientId with
    | none | some => split <;> rfl
  · rw [if_neg hcl]

/-- One session is removed, the others stay. -/
theorem findSession_withoutSession :
    findSession (withoutSession clients identity) clientId sessionId =
      if (clientId, sessionId) = identity then none
      else findSession clients clientId sessionId := by
  obtain ⟨previousClientId, previousSessionId⟩ := identity
  unfold findSession withoutSession
  simp only [lookup_modify_eq, Prod.mk.injEq]
  by_cases hcl : clientId = previousClientId
  · subst hcl
    simp only [if_true, true_and]
    cases clients.lookup clientId with
    | none => split <;> rfl
    | some state => exact lookup_erase_eq
  · rw [if_neg hcl, if_neg fun h => hcl h.1]

/-- The client of a registration is among the clients. -/
theorem lookup_withToken_isSome :
    ((withToken clients registration).lookup registration.clientId).isSome := by
  unfold withToken
  rw [lookup_insert_eq, if_pos rfl]
  rfl

theorem lookup_withoutSession_isSome (h : (clients.lookup clientId).isSome) :
    ((withoutSession clients identity).lookup clientId).isSome := by
  unfold withoutSession
  rw [lookup_modify_eq]
  split
  · next heq => rw [isSome_map, ← heq, h]
  · exact h

variable {s s' : NotificationManager} {k : ℕ}

/-- What a registration leaves, up to its entry: the entry of the
identity it releases is gone, and no other. -/
theorem session_register : (s.register k registration).session clientId sessionId =
      if s.isStale registration = false ∧
          s.previousIdentity k registration = some (clientId, sessionId) then none
      else s.session clientId sessionId := by
  unfold register
  by_cases hstale : s.isStale registration = true
  · rw [if_pos hstale, if_neg fun h => by rw [hstale] at h; cases h.1]
  · rw [if_neg hstale]
    simp only [hstale, true_and]
    unfold session
    cases hprev : s.previousIdentity k registration with
    | none => rw [if_neg (by simp)]; exact findSession_withToken
    | some prev =>
      simp only [findSession_withoutSession, findSession_withToken, some.injEq, eq_comm (a := prev)]

/-- The released identity is another than the registered one. -/
theorem previousIdentity_ne (h : s.previousIdentity k registration = some identity) :
    identity ≠ (registration.clientId, registration.sessionId) := by
  unfold previousIdentity at h
  split at h
  · obtain ⟨hne, ⟨⟩⟩ := ite_none_right_eq_some.1 h
    rintro heq
    rw [Prod.mk.injEq] at heq
    exact hne.elim (· heq.1) (· heq.2)
  · cases h

/-- The entry that ends a registration replaces the one that was there,
and no other. -/
theorem session_registered (hcl : (s.clients.lookup registration.clientId).isSome) :
    (s.registered k registration).session clientId sessionId =
      if (clientId, sessionId) = (registration.clientId, registration.sessionId) then
        some ⟨k, registration.connectionGeneration, registration.registrationRevision⟩
      else s.session clientId sessionId := by
  obtain ⟨state, hst⟩ := isSome_iff_exists.1 hcl
  unfold session registered findSession
  simp only [lookup_modify_eq, Prod.mk.injEq]
  by_cases hid : clientId = registration.clientId
  · subst hid
    simp only [if_true, true_and, hst]
    exact lookup_insert_eq
  · rw [if_neg hid, if_neg fun h => hid h.1]

/-- A disconnection removes the entry if it is of its connection, and no
other. -/
theorem session_release {otherClient otherSession : String} :
    (s.release k otherClient otherSession).session clientId sessionId =
      if (clientId, sessionId) = (otherClient, otherSession) ∧
          ((s.session clientId sessionId).any fun session => session.connectionKey == k) then none
      else s.session clientId sessionId := by
  unfold release
  by_cases heq : (clientId, sessionId) = (otherClient, otherSession)
  · cases heq
    simp only [true_and]
    by_cases hown : ((s.session clientId sessionId).any fun session => session.connectionKey == k)
    · rw [if_pos hown, if_pos hown]
      exact findSession_withoutSession.trans (if_pos rfl)
    · rw [if_neg hown, if_neg hown]
  · have hne : ¬ ((clientId, sessionId) = (otherClient, otherSession) ∧
        ((s.session clientId sessionId).any fun session => session.connectionKey == k)) :=
      fun h => heq h.1
    split
    · exact findSession_withoutSession.trans (if_neg heq)
    · rfl

/-! ## The registration that holds the lock -/

/-- What holds of the registration at work: its client is there, and the
entry it is about to replace is not newer. -/
def Held (s : NotificationManager) : Prop :=
  ∀ k registration, s.registering = some (k, registration) →
    (s.clients.lookup registration.clientId).isSome ∧
      ∀ entry, s.session registration.clientId registration.sessionId = some entry →
        entry.revision ≤ registration.revision

theorem held_of_free (h : s.registering = none) : s.Held := by
  intro k registration hregs
  rw [h] at hregs
  cases hregs

/-- A registration holds its session. -/
theorem held_register (hfree : s.registering = none) : (s.register k registration).Held := by
  by_cases hstale : s.isStale registration = true
  · unfold register
    rw [if_pos hstale]
    exact held_of_free hfree
  · have hcl : ((s.register k registration).clients.lookup registration.clientId).isSome := by
      unfold register
      rw [if_neg hstale]
      split
      · exact lookup_withoutSession_isSome lookup_withToken_isSome
      · exact lookup_withToken_isSome
    have hregs : (s.register k registration).registering = some (k, registration) := by
      unfold register
      rw [if_neg hstale]
    rintro k' registration' heq
    cases some.inj (hregs.symm.trans heq)
    refine ⟨hcl, fun entry hent => ?_⟩
    rw [session_register, if_neg fun h => previousIdentity_ne h.2 rfl] at hent
    unfold isStale at hstale
    rw [hent] at hstale
    simpa using hstale

@[simp] theorem registering_release :
    (s.release k clientId sessionId).registering = s.registering := by
  unfold release
  split <;> rfl

end NotificationManager

open NotificationManager

variable {tokens : List (String × Option String)} {s s' : NotificationManager}
variable {action : SessionAction}

/-- Every step keeps what holds of the registration at work. -/
theorem held_step (h : s.Held) (hstep : (sessionMachine tokens).step s action = some s') :
    s'.Held := by
  cases action with
  | register k registration =>
    obtain ⟨hfree, ⟨⟩⟩ := ite_none_right_eq_some.1 hstep
    exact held_register (isNone_iff_eq_none.1 hfree)
  | registered =>
    obtain ⟨_, _, rfl⟩ := map_eq_some_iff.1 hstep
    exact held_of_free rfl
  | disconnect k =>
    cases hstep
    exact h
  | disconnecting d =>
    obtain ⟨disconnect, -, hstep⟩ := bind_eq_some_iff.1 hstep
    split at hstep
    · cases hstep
      exact h
    · split at hstep
      all_goals
        cases hstep
        exact h
    · obtain ⟨hfree, ⟨⟩⟩ := ite_none_right_eq_some.1 hstep
      refine held_of_free ?_
      show (s.release _ _ _).registering = none
      rw [registering_release]
      exact isNone_iff_eq_none.1 hfree
    · cases hstep

/-! ## Who releases an entry -/

namespace NotificationManager

/-- The action is one of the connection, by which it gives the session up:
a registration under another identity, or a step of its disconnection. -/
def Releases (s : NotificationManager) (k : ℕ) (clientId sessionId : String) : SessionAction → Prop
  | .register connectionKey registration =>
    connectionKey = k ∧ (registration.clientId, registration.sessionId) ≠ (clientId, sessionId)
  | .disconnecting d => (s.disconnects[d]?).map Disconnect.connectionKey = some k
  | .registered | .disconnect _ => False

/-- The action ends a registration of the session, by the connection of
the new entry and with its revision. -/
def Replaces (s : NotificationManager) (entry : SessionState) (clientId sessionId : String)
    (action : SessionAction) : Prop :=
  action = .registered ∧ ∃ registration, s.registering = some (entry.connectionKey, registration) ∧
    (registration.clientId, registration.sessionId) = (clientId, sessionId) ∧
    entry.revision = registration.revision

/-- **The condition on a step**: a registration releases no entry of
another connection. -/
def Orderly (s : NotificationManager) : SessionAction → Prop
  | .register k registration => s.isStale registration = false →
      ∀ identity ∈ s.previousIdentity k registration,
        ∀ entry ∈ s.session identity.1 identity.2, entry.connectionKey = k
  | .registered | .disconnect _ | .disconnecting _ => True

instance (s : NotificationManager) : (action : SessionAction) → Decidable (s.Orderly action)
  | .register k registration =>
    inferInstanceAs (Decidable (s.isStale registration = false →
      ∀ identity ∈ s.previousIdentity k registration,
        ∀ entry ∈ s.session identity.1 identity.2, entry.connectionKey = k))
  | .registered | .disconnect _ | .disconnecting _ => .isTrue trivial

end NotificationManager

/-- The machine whose registrations are all orderly. -/
abbrev orderlySessions (tokens : List (String × Option String)) :
    Machine NotificationManager SessionAction :=
  (sessionMachine tokens).restrict fun s action => s.Orderly action

/-- What an orderly step does to an entry. -/
theorem session_step (hheld : s.Held) (hordl : s.Orderly action)
    (hstep : (sessionMachine tokens).step s action = some s') {entry : SessionState}
    (hent : s.session clientId sessionId = some entry) :
    s'.session clientId sessionId = some entry ∨
      (s'.session clientId sessionId = none ∧
        s.Releases entry.connectionKey clientId sessionId action) ∨
      ∃ newer, s'.session clientId sessionId = some newer ∧
        s.Replaces newer clientId sessionId action ∧ entry.revision ≤ newer.revision := by
  cases action with
  | register k registration =>
    cases (ite_none_right_eq_some.1 hstep).2
    rw [session_register]
    split
    · next h =>
      obtain ⟨hnew, hprev⟩ := h
      have hown := hordl hnew _ hprev entry hent
      exact .inr (.inl ⟨rfl, hown.symm, fun heq => previousIdentity_ne hprev heq.symm⟩)
    · exact .inl hent
  | registered =>
    obtain ⟨⟨k, registration⟩, hregs, rfl⟩ := map_eq_some_iff.1 hstep
    obtain ⟨hcl, hnewer⟩ := hheld k registration hregs
    rw [session_registered hcl]
    split
    · next heq =>
      cases heq
      exact .inr (.inr ⟨_, rfl, ⟨rfl, registration, hregs, rfl, rfl⟩, hnewer _ hent⟩)
    · exact .inl hent
  | disconnect k =>
    cases hstep
    exact .inl hent
  | disconnecting d =>
    obtain ⟨disconnect, hdisconnect, hstep⟩ := bind_eq_some_iff.1 hstep
    split at hstep
    · cases hstep
      exact .inl hent
    · split at hstep
      all_goals
        cases hstep
        exact .inl hent
    · cases (ite_none_right_eq_some.1 hstep).2
      show (s.release _ _ _).session _ _ = _ ∨ (s.release _ _ _).session _ _ = _ ∧ _ ∨ _
      rw [session_release]
      split
      · next h =>
        refine .inr (.inl ⟨rfl, ?_⟩)
        have hown : entry.connectionKey = disconnect.connectionKey := by
          simpa [hent] using h.2
        show (s.disconnects[d]?).map Disconnect.connectionKey = some entry.connectionKey
        rw [hdisconnect, hown]
        rfl
      · exact .inl hent
    · cases hstep

/-- **A session is released by its owner.** A step of an orderly run
keeps an entry, or removes it and is one by which the entry's connection
gives the session up, or replaces it by a registration that is not
older. -/
theorem session_released_by_owner (hreach : (orderlySessions tokens).Reachable s)
    (hstep : (orderlySessions tokens).step s action = some s') {entry : SessionState}
    (hentry : s.session clientId sessionId = some entry) :
    s'.session clientId sessionId = some entry ∨ (s'.session clientId sessionId = none ∧
        s.Releases entry.connectionKey clientId sessionId action) ∨
      ∃ newer, s'.session clientId sessionId = some newer ∧
        s.Replaces newer clientId sessionId action ∧ entry.revision ≤ newer.revision := by
  have hheld : s.Held := hreach.rule (held_of_free rfl) fun _ _ _ _ hu hv =>
    held_step hu (restrict_step_eq_some.1 hv).2
  obtain ⟨horderly, hstep⟩ := restrict_step_eq_some.1 hstep
  exact session_step hheld horderly hstep hentry

/-- **And the condition is no stronger than it must be**: any other step
is a registration that removes an entry of another connection. -/
theorem released_by_stranger (hstep : (sessionMachine tokens).step s action = some s')
    (hordl : ¬ s.Orderly action) :
    ∃ k registration clientId sessionId entry, action = .register k registration ∧
      s.session clientId sessionId = some entry ∧ entry.connectionKey ≠ k ∧
      s'.session clientId sessionId = none := by
  cases action with
  | register k registration =>
    simp only [Orderly, not_forall] at hordl
    obtain ⟨hnew, ⟨clientId, sessionId⟩, hprev, entry, hent, hown⟩ := hordl
    cases (ite_none_right_eq_some.1 hstep).2
    exact ⟨k, registration, clientId, sessionId, entry, rfl, hent, hown,
      session_register.trans (if_pos ⟨hnew, hprev⟩)⟩
  | registered | disconnect _ | disconnecting _ => exact absurd trivial hordl

/-! ## A session that was taken over -/

/-- A registration of the client `c`, without a token. -/
def exampleRegistration (sessionId : String) (registrationRevision : ℕ) : Registration :=
  ⟨"c", sessionId, 1, registrationRevision, none, false⟩

/-- A connection registers a session, and another takes it over. -/
def exampleTakeover : NotificationManager :=
  (orderlySessions []).run [.register 1 (exampleRegistration "s" 1), .registered,
      .register 2 (exampleRegistration "s" 2), .registered] (orderlySessions []).init

/-- The second connection registers another session. -/
def exampleMoved : NotificationManager :=
  (orderlySessions []).run [.register 2 (exampleRegistration "t" 3)] exampleTakeover

/-- A session that was moved and released. -/
theorem session_released_by_owner_example : exampleMoved.session "c" "s" = none := by
  have hreach : (orderlySessions []).Reachable exampleTakeover :=
    ⟨_, exec_eq_run (by decide +kernel)⟩
  have hmove : (orderlySessions []).exec [.register 2 (exampleRegistration "t" 3)]
      exampleTakeover = some exampleMoved := exec_eq_run (by decide +kernel)
  obtain ⟨moved, hstep, hmoved⟩ := exec_cons_eq_some.1 hmove
  cases hmoved
  have hentry : exampleTakeover.session "c" "s" = some ⟨2, 1, 2⟩ := by decide +kernel
  rcases session_released_by_owner hreach hstep hentry with h | ⟨h, -⟩ | ⟨_, -, h, -⟩
  · exact absurd h (by decide +kernel)
  · exact h
  · cases h.1

/-- **The first connection takes the session away again**: it registers
another session, and the entry of the second connection goes. -/
theorem taken_over_released : exampleTakeover.session "c" "s" = some ⟨2, 1, 2⟩ ∧
      (((sessionMachine []).step exampleTakeover
        (.register 1 (exampleRegistration "t" 3))).map fun s => s.session "c" "s") = some none := by
  decide +kernel

end Remux
