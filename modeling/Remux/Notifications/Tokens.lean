import Remux.Common.Lists
import Remux.Notifications.Model.Tokens
import Remux.Notifications.Sessions

/-!
# What becomes of a push token

A push reads the token of a client, and what its ticket says of the device
is applied to the client, whatever is stored for it by then. So a ticket that
answers another token than the stored one clears it, just when the one that
was stored last since the push read its own is another
(`cleared_token_is_pushed_iff`).

The snapshot that a call of `persist_clients` takes is written without the
lock. Of two calls the one with the older may write last, and the file then
stays behind the memory. Where no write puts other tokens over those of the
last snapshot, but for one that is made good by a call that still has to
write, the file ends as the last snapshot (`persisted_clients_are_last`).
-/

namespace Remux

open Machine NotificationManager
open List hiding getElem?_eq_some_iff
open Option

variable {tokens : List (String × Option String)} {clients : Assoc String ClientState}
variable {registration : Registration} {clientId : String}

/-! ## What the steps do to a stored token -/

/-- A token is stored if one was provided. -/
theorem storedToken_withToken : storedToken (withToken clients registration) clientId =
      if clientId = registration.clientId ∧ registration.tokenProvided then
        registration.expoPushToken
      else storedToken clients clientId := by
  unfold storedToken withToken
  rw [Assoc.lookup_insert_eq]
  by_cases hcl : clientId = registration.clientId
  · subst hcl
    cases hprovided : registration.tokenProvided with
    | true => simp
    | false => cases clients.lookup registration.clientId <;> simp
  · rw [if_neg hcl, if_neg fun h => hcl h.1]

/-- A change of the sessions of a client leaves the tokens. -/
theorem storedToken_modify_sessions {id : String} {f : Assoc String SessionState → _} :
    storedToken (clients.modify id fun state => { state with sessions := f state.sessions })
      clientId = storedToken clients clientId := by
  unfold storedToken
  rw [Assoc.lookup_modify_eq]
  by_cases hcl : clientId = id
  · rw [if_pos hcl, hcl]
    cases clients.lookup id <;> rfl
  · rw [if_neg hcl]

theorem storedToken_modify_clear {id : String} :
    storedToken (clients.modify id fun state => { state with expoPushToken := none })
      clientId = if clientId = id then none else storedToken clients clientId := by
  unfold storedToken
  rw [Assoc.lookup_modify_eq]
  by_cases hcl : clientId = id
  · rw [if_pos hcl, if_pos hcl]
    cases clients.lookup id <;> rfl
  · rw [if_neg hcl, if_neg hcl]

namespace NotificationManager

variable {s s' : NotificationManager} {k : ℕ}

/-- A stale registration stores no token. -/
theorem storedToken_register : storedToken (s.register k registration).clients clientId =
      if clientId = registration.clientId ∧ s.isStale registration = false ∧
          registration.tokenProvided then
        registration.expoPushToken
      else storedToken s.clients clientId := by
  unfold register
  cases hstale : s.isStale registration with
  | true => simp
  | false =>
    rw [if_neg (by simp)]
    have htok := @storedToken_withToken s.clients registration clientId
    simp only [true_and] at htok ⊢
    rw [← htok]
    split
    · exact storedToken_modify_sessions
    · rfl

theorem storedToken_registered : storedToken (s.registered k registration).clients clientId =
      storedToken s.clients clientId := storedToken_modify_sessions

/-- A disconnection leaves the tokens. -/
theorem storedToken_stepDisconnect {d : ℕ} (h : s.stepDisconnect d = some s') :
    storedToken s'.clients clientId = storedToken s.clients clientId := by
  obtain ⟨disconnect, -, h⟩ := bind_eq_some_iff.1 h
  have hrelease : ∀ {k : ℕ} {id sid : String},
      storedToken (s.release k id sid).clients clientId = storedToken s.clients clientId := by
    intro k id sid
    unfold release
    split
    · exact storedToken_modify_sessions
    · rfl
  cases hph : disconnect.phase with
  | readingClient =>
    rw [hph] at h
    cases h
    rfl
  | readingSession id =>
    rw [hph] at h
    dsimp only at h
    split at h <;> (obtain rfl := some.inj h; rfl)
  | releasing id sid =>
    rw [hph] at h
    dsimp only at h
    cases (ite_none_right_eq_some.1 h).2
    exact hrelease
  | done => rw [hph] at h; cases h

end NotificationManager

/-! ## The pushes in flight -/

/-- What is stored for the client of a push, by what was stored since the
push read its token. -/
def ExpoPush.last (push : ExpoPush) : Option String := push.since.getD (some push.token)

/-- Since a push read its token none was stored for its client, or the same or
none at all was stored last. -/
def ExpoPush.Current (push : ExpoPush) : Prop :=
  push.since = none ∨ push.since = some none ∨ push.since = some (some push.token)

theorem ExpoPush.current_iff {push : ExpoPush} :
    push.Current ↔ ∀ stored, push.last = some stored → stored = push.token := by
  obtain ⟨id, token, since⟩ := push
  unfold ExpoPush.Current ExpoPush.last
  rcases since with _ | _ | stored
  all_goals simp

namespace TokenStore

variable {s s' : TokenStore} {pushes : List ExpoPush} {push : ExpoPush} {token : Option String}

/-- Every push in flight knows what is stored for its client. -/
def Told (s : TokenStore) : Prop :=
  ∀ push ∈ s.pushes, s.token push.clientId = push.last

theorem mem_stored (h : push ∈ stored pushes clientId token) :
    push.clientId = clientId ∧ push.last = token ∨ push.clientId ≠ clientId ∧ push ∈ pushes := by
  obtain ⟨old, hmem, rfl⟩ := mem_map.1 h
  by_cases hcl : old.clientId = clientId
  · rw [if_pos hcl]
    exact Or.inl ⟨hcl, rfl⟩
  · rw [if_neg hcl]
    exact Or.inr ⟨hcl, hmem⟩

/-- A token is stored for a client, and the pushes are told. -/
theorem Told.of_stored (h : Told s)
    (hpushes : ∀ push ∈ s'.pushes, push ∈ stored s.pushes clientId token)
    (htok : ∀ id, s'.token id = if id = clientId then token else s.token id) : Told s' := by
  intro push hmem
  rw [htok]
  rcases mem_stored (hpushes push hmem) with ⟨hcl, hlast⟩ | ⟨hcl, hold⟩
  · rw [if_pos hcl, hlast]
  · rw [if_neg hcl, h push hold]

/-- A step that leaves the tokens tells nothing. -/
theorem Told.of_unchanged (h : Told s) (hpushes : ∀ push ∈ s'.pushes, push ∈ s.pushes)
    (htok : ∀ id, s'.token id = s.token id) : Told s' := by
  intro push hmem
  rw [htok, h push (hpushes push hmem)]

/-- A registration keeps what was told, -/
theorem Told.register {k : ℕ} (h : Told s) : Told (s.register k registration) := by
  have htok : ∀ id, (s.register k registration).token id =
      if id = registration.clientId ∧ s.manager.isStale registration = false ∧
          registration.tokenProvided then
        registration.expoPushToken
      else s.token id := fun id => storedToken_register
  by_cases hkept : s.manager.isStale registration ∨ registration.tokenProvided = false
  · have hpushes : (s.register k registration).pushes = s.pushes := if_pos hkept
    refine h.of_unchanged (fun push hmem => hpushes ▸ hmem) fun id => ?_
    rw [htok, if_neg]
    rintro ⟨-, hstale, hprovided⟩
    rcases hkept with hkept | hkept
    · exact absurd (hkept.symm.trans hstale) (by simp)
    · exact absurd (hprovided.symm.trans hkept) (by simp)
  · have hpushes : (s.register k registration).pushes =
        stored s.pushes registration.clientId registration.expoPushToken := if_neg hkept
    simp only [not_or, Bool.not_eq_true, Bool.not_eq_false] at hkept
    refine h.of_stored (fun push hmem => hpushes ▸ hmem) fun id => ?_
    rw [htok]
    simp only [hkept, and_true]

variable {i : ℕ}

/-- What a ticket leaves of the client's token. -/
theorem ticket_deviceNotRegistered (hpush : s.pushes[i]? = some push)
    (h : s.ticket i .deviceNotRegistered = some s') :
    s'.pushes = stored (s.pushes.eraseIdx i) push.clientId none ∧
      ∀ id, s'.token id = if id = push.clientId then none else s.token id := by
  unfold ticket at h
  rw [hpush, bind_some] at h
  dsimp only at h
  split at h
  · cases h
  · cases h
    exact ⟨rfl, fun id => storedToken_modify_clear⟩

/-- a ticket keeps it, -/
theorem Told.ticket {answer : Ticket} (h : Told s) (h' : s.ticket i answer = some s') :
    Told s' := by
  obtain ⟨push, hpush, hstep⟩ := bind_eq_some_iff.1 h'
  have hleft : ∀ {other}, other ∈ s.pushes.eraseIdx i → other ∈ s.pushes :=
    fun hmem => mem_of_mem_eraseIdx hmem
  cases answer with
  | accepted =>
    cases hstep
    exact h.of_unchanged (fun push hmem => hleft hmem) fun _ => rfl
  | deviceNotRegistered =>
    obtain ⟨hpushes, htok⟩ := ticket_deviceNotRegistered hpush h'
    refine h.of_stored (fun other hmem => ?_) htok
    rw [hpushes] at hmem
    obtain ⟨old, hold, rfl⟩ := mem_map.1 hmem
    exact mem_map.2 ⟨old, hleft hold, rfl⟩

/-- A token that is read keeps what was told. -/
theorem Told.readToken (h : Told s) (h' : s.readToken clientId = some s') : Told s' := by
  unfold TokenStore.readToken at h'
  split at h'
  · cases h'
  · obtain ⟨token, htok, rfl⟩ := map_eq_some_iff.1 h'
    intro push hmem
    rcases mem_concat.1 hmem with hmem | rfl
    · exact h push hmem
    · exact htok

/-- and so does every step. -/
theorem Told.of_step {action : TokenAction} (h : Told s)
    (h' : (tokenMachine tokens).step s action = some s') : Told s' := by
  cases action with
  | register k registration =>
    obtain ⟨-, heq⟩ := ite_none_right_eq_some.1 h'
    cases heq
    exact h.register
  | registered =>
    obtain ⟨⟨k, registration⟩, -, rfl⟩ := map_eq_some_iff.1 h'
    exact h.of_unchanged (fun _ hmem => hmem) fun _ => storedToken_registered
  | disconnect k =>
    cases h'
    exact h.of_unchanged (fun _ hmem => hmem) fun _ => rfl
  | disconnecting d =>
    obtain ⟨manager, hmanager, rfl⟩ := map_eq_some_iff.1 h'
    exact h.of_unchanged (fun _ hmem => hmem) fun _ => storedToken_stepDisconnect hmanager
  | readToken clientId => exact h.readToken h'
  | ticket i answer => exact h.ticket h'
  | snapshot c =>
    have hsnap : s.snapshot c = some s' := h'
    unfold TokenStore.snapshot at hsnap
    split at hsnap
    · cases hsnap
    · split at hsnap
      · cases hsnap
        exact h.of_unchanged (fun _ hmem => hmem) fun _ => rfl
      · cases hsnap
  | write c =>
    have hwrite : s.write c = some s' := h'
    unfold TokenStore.write at hwrite
    split at hwrite
    · obtain ⟨_, -, rfl⟩ := map_eq_some_iff.1 hwrite
      exact h.of_unchanged (fun _ hmem => hmem) fun _ => rfl
    · cases hwrite

theorem Told.of_reachable (h : (tokenMachine tokens).Reachable s) : Told s :=
  h.rule (fun _ hmem => absurd hmem not_mem_nil) fun _ _ _ _ hu hv => hu.of_step hv

end TokenStore

/-- **Which tokens a ticket clears.** Of a push in flight the ticket says that
the device is not registered. What it clears is the token of the push just
when no other token was stored for the client last, since the push read
its own. -/
theorem cleared_token_is_pushed_iff {s s' : TokenStore} {i : ℕ} {push : ExpoPush}
    (h : (tokenMachine tokens).Reachable s) (hpush : s.pushes[i]? = some push)
    (h' : (tokenMachine tokens).step s (.ticket i .deviceNotRegistered) = some s') :
    (∀ stored, s.token push.clientId = some stored → s'.token push.clientId = none →
      stored = push.token) ↔ push.Current := by
  have hcleared : s'.token push.clientId = none :=
    ((TokenStore.ticket_deviceNotRegistered hpush h').2 _).trans (if_pos rfl)
  have htold : s.token push.clientId = push.last :=
    TokenStore.Told.of_reachable h push (mem_of_getElem? hpush)
  rw [ExpoPush.current_iff, htold]
  simp only [hcleared, true_imp_iff]

namespace TokenStore

/-- A client registers with a token, of a revision. -/
def provides (token : String) (revision : ℕ) : Registration :=
  ⟨"phone", "app", 0, revision, some token, true⟩

/-- A push reads the token of a client. -/
def pushing : List TokenAction :=
  [.register 0 (provides "old" 1), .registered, .readToken "phone"]

/-- And the client registers with another one. -/
def refreshed : List TokenAction :=
  pushing ++ [TokenAction.register 0 (provides "new" 2), .registered]

end TokenStore

open TokenStore in
/-- The device of the new token is registered, and the new token is
cleared. -/
theorem refreshed_token_cleared :
    ¬ ∀ (s s' : TokenStore) (i : ℕ) (push : ExpoPush), (tokenMachine []).Reachable s →
      s.pushes[i]? = some push →
      (tokenMachine []).step s (.ticket i .deviceNotRegistered) = some s' →
      ∀ stored, s.token push.clientId = some stored → s'.token push.clientId = none →
        stored = push.token := by
  intro h
  have hrun : (tokenMachine []).exec refreshed (tokenMachine []).init = some _ :=
    exec_eq_run (by decide +kernel)
  have hstep : (tokenMachine []).exec (refreshed ++ [.ticket 0 .deviceNotRegistered])
      (tokenMachine []).init = some _ := exec_eq_run (by decide +kernel)
  rw [exec_append, hrun, Option.bind_some] at hstep
  obtain ⟨s', hs', heq⟩ := exec_cons_eq_some.1 hstep
  cases heq
  have hnew := h _ _ 0 ⟨"phone", "old", some (some "new")⟩ ⟨refreshed, hrun⟩ (by decide +kernel) hs'
    "new" (by decide +kernel) (by decide +kernel)
  exact absurd hnew (by decide)

open TokenStore in
/-- The ticket of a push, before another token is stored. -/
theorem cleared_token_is_pushed_once :
    ∃ s s' : TokenStore, (tokenMachine []).exec pushing (tokenMachine []).init = some s ∧
      (tokenMachine []).step s (.ticket 0 .deviceNotRegistered) = some s' ∧
      ((∀ stored, s.token "phone" = some stored → s'.token "phone" = none → stored = "old") ↔
        (⟨"phone", "old", none⟩ : ExpoPush).Current) := by
  have hrun : (tokenMachine []).exec pushing (tokenMachine []).init = some _ :=
    exec_eq_run (by decide +kernel)
  have hstep : (tokenMachine []).exec (pushing ++ [.ticket 0 .deviceNotRegistered])
      (tokenMachine []).init = some _ := exec_eq_run (by decide +kernel)
  rw [exec_append, hrun, Option.bind_some] at hstep
  obtain ⟨s', hs', heq⟩ := exec_cons_eq_some.1 hstep
  exact ⟨_, s', hrun, hs', @cleared_token_is_pushed_iff [] _ s' 0 ⟨"phone", "old", none⟩
    ⟨pushing, hrun⟩ (by decide +kernel) hs'⟩

/-! ## The file -/

namespace TokenStore

variable {s s' : TokenStore} {c : ℕ}

/-- What a call of `persist_clients` has to write, if it is at work. -/
def toWrite (s : TokenStore) (c : ℕ) : Option ClientTokens :=
  match s.persists[c]? with
  | some (.writing n) => s.snapshots[n]?
  | _ => none

/-- The file has the tokens of the last snapshot, or a call at work has. -/
def LastKept (s : TokenStore) : Prop :=
  s.snapshots ≠ [] ∧ (s.snapshots.getLast? = some s.file ∨ ∃ c, s.toWrite c = s.snapshots.getLast?)

/-- A write puts other tokens over those of the last snapshot only while
another call that took these has still to write. -/
def KeepsLast (s : TokenStore) : TokenAction → Prop
  | .write c => s.snapshots.getLast? = some s.file → s.toWrite c = s.snapshots.getLast? ∨
        ∃ c' < s.persists.length, c' ≠ c ∧ s.toWrite c' = s.snapshots.getLast?
  | _ => True

instance (s : TokenStore) (action : TokenAction) : Decidable (s.KeepsLast action) := by
  cases action <;> unfold KeepsLast <;> infer_instance

/-- More calls are due. -/
theorem toWrite_due (hpersists : s'.persists = s.persists ++ [.due])
    (hsnaps : s'.snapshots = s.snapshots) : s'.toWrite c = s.toWrite c := by
  unfold toWrite
  rw [hpersists, hsnaps]
  rcases lt_trichotomy c s.persists.length with h | h | h
  · rw [getElem?_append_left h]
  · subst h; simp
  · have hlast : ¬ c - s.persists.length < 1 := by omega
    rw [getElem?_append_right (by omega), getElem?_eq_none (by simpa using by omega),
      getElem?_eq_none (l := s.persists) (by omega)]

theorem LastKept.of_due (h : LastKept s) (hpersists : s'.persists = s.persists ++ [.due])
    (hsnaps : s'.snapshots = s.snapshots) (hfile : s'.file = s.file) : LastKept s' := by
  unfold LastKept
  simp only [hsnaps, hfile, toWrite_due hpersists hsnaps]
  exact h

theorem LastKept.of_unchanged (h : LastKept s) (hpersists : s'.persists = s.persists)
    (hsnaps : s'.snapshots = s.snapshots) (hfile : s'.file = s.file) : LastKept s' := by
  unfold LastKept toWrite
  simp only [hpersists, hsnaps, hfile]
  exact h

/-- A call that takes its snapshot holds the last one. -/
theorem LastKept.of_snapshot (h : s.snapshot c = some s') : LastKept s' := by
  unfold TokenStore.snapshot at h
  split at h
  · cases h
  · split at h
    · next hdue =>
      cases h
      refine ⟨by simp, Or.inr ⟨c, ?_⟩⟩
      unfold toWrite
      rw [getElem?_set_self (getElem?_eq_some_iff.1 hdue).1]
      simp
    · cases h

/-- What a write leaves. -/
theorem write_cases (h : s.write c = some s') :
    s.toWrite c = some s'.file ∧ s'.snapshots = s.snapshots ∧
      ∀ c', c' ≠ c → s'.toWrite c' = s.toWrite c' := by
  unfold TokenStore.write at h
  split at h
  · next n hwriting =>
    obtain ⟨tokens, htokens, rfl⟩ := map_eq_some_iff.1 h
    refine ⟨?_, rfl, fun c' hne => ?_⟩
    · unfold toWrite
      rw [hwriting]
      exact htokens
    · unfold toWrite
      rw [getElem?_set_ne hne.symm]
  · cases h

/-- A write of the last snapshot keeps the last, -/
theorem LastKept.of_write (h : LastKept s) (hkeeps : s.KeepsLast (.write c))
    (h' : s.write c = some s') : LastKept s' := by
  obtain ⟨hwr, hsnaps, hothers⟩ := write_cases h'
  obtain ⟨hne, hlast⟩ := h
  refine ⟨hsnaps ▸ hne, ?_⟩
  rw [hsnaps]
  have hother : ∀ c', c' ≠ c → s.toWrite c' = s.snapshots.getLast? →
      ∃ c', s'.toWrite c' = s.snapshots.getLast? :=
    fun c' hc' hlast => ⟨c', (hothers c' hc').trans hlast⟩
  rcases hlast with hfile | ⟨c', hc'⟩
  · rcases hkeeps hfile with hsame | ⟨c', -, hc', hlast⟩
    · exact Or.inl (hsame.symm.trans hwr)
    · exact Or.inr (hother c' hc' hlast)
  · by_cases hself : c' = c
    · subst hself
      exact Or.inl (hc'.symm.trans hwr)
    · exact Or.inr (hother c' hself hc')

/-- and so does every step that keeps it. -/
theorem LastKept.of_step {action : TokenAction} (h : LastKept s) (hkeeps : s.KeepsLast action)
    (h' : (tokenMachine tokens).step s action = some s') : LastKept s' := by
  cases action with
  | register k registration =>
    obtain ⟨-, heq⟩ := ite_none_right_eq_some.1 h'
    cases heq
    exact h.of_unchanged rfl rfl rfl
  | registered =>
    obtain ⟨⟨k, registration⟩, -, rfl⟩ := map_eq_some_iff.1 h'
    cases hprovided : registration.tokenProvided with
    | true => exact h.of_due (if_pos hprovided) rfl rfl
    | false => exact h.of_unchanged (if_neg (by simp [hprovided])) rfl rfl
  | disconnect k =>
    cases h'
    exact h.of_unchanged rfl rfl rfl
  | disconnecting d =>
    obtain ⟨manager, -, rfl⟩ := map_eq_some_iff.1 h'
    exact h.of_unchanged rfl rfl rfl
  | readToken clientId =>
    obtain ⟨-, hread⟩ := ite_none_left_eq_some.1 h'
    obtain ⟨token, -, rfl⟩ := map_eq_some_iff.1 hread
    exact h.of_unchanged rfl rfl rfl
  | ticket i answer =>
    obtain ⟨push, -, hstep⟩ := bind_eq_some_iff.1 h'
    cases answer with
    | accepted =>
      cases hstep
      exact h.of_unchanged rfl rfl rfl
    | deviceNotRegistered =>
      obtain ⟨-, heq⟩ := ite_none_left_eq_some.1 hstep
      cases heq
      exact h.of_due rfl rfl rfl
  | snapshot c => exact LastKept.of_snapshot h'
  | write c => exact h.of_write hkeeps h'

end TokenStore

/-- **The file ends as the last snapshot.** In a run whose writes keep to the
condition, whenever no call of `persist_clients` is at work, the file has
the tokens that the last of them found in memory. -/
theorem persisted_clients_are_last {s : TokenStore}
    (h : ((tokenMachine tokens).restrict TokenStore.KeepsLast).Reachable s)
    (hdone : ∀ n, PersistCall.writing n ∉ s.persists) : s.snapshots.getLast? = some s.file := by
  have hkept : TokenStore.LastKept s :=
    h.rule ⟨by simp [tokenMachine], Or.inl rfl⟩ fun u a v _ hu hv =>
      have hv := restrict_step_eq_some.1 hv
      hu.of_step hv.1 hv.2
  obtain ⟨hne, hfile | ⟨c, hc⟩⟩ := hkept
  · exact hfile
  · unfold TokenStore.toWrite at hc
    split at hc
    · next n hwriting => exact absurd (mem_of_getElem? hwriting) (hdone n)
    · exact absurd (getLast?_eq_none_iff.1 hc.symm) hne

namespace TokenStore

/-- Two registrations, of which the first takes its snapshot before the
second. -/
def twoSnapshots : List TokenAction :=
  [.register 0 (provides "old" 1), .registered, .snapshot 0,
    .register 0 (provides "new" 2), .registered, .snapshot 1]

end TokenStore

open TokenStore in
/-- The call that took the older snapshot writes last. -/
theorem persisted_clients_older :
    ¬ ∀ s, (tokenMachine []).Reachable s → (∀ n, PersistCall.writing n ∉ s.persists) →
      s.snapshots.getLast? = some s.file := by
  intro h
  have hrun : (tokenMachine []).exec (twoSnapshots ++ [.write 1, .write 0])
      (tokenMachine []).init = some _ := exec_eq_run (by decide +kernel)
  have hdone : ((tokenMachine []).run (twoSnapshots ++ [.write 1, .write 0])
      (tokenMachine []).init).persists = [.done, .done] := by decide +kernel
  have hlast := h _ ⟨_, hrun⟩ (by rw [hdone]; simp)
  exact absurd hlast (by decide +kernel)

open TokenStore in
/-- The two calls write in order. -/
theorem persisted_clients_in_order :
    ∃ s, ((tokenMachine []).restrict KeepsLast).exec (twoSnapshots ++ [.write 0, .write 1])
      (tokenMachine []).init = some s ∧ s.snapshots.getLast? = some s.file := by
  have hrun : ((tokenMachine []).restrict KeepsLast).exec (twoSnapshots ++ [.write 0, .write 1])
      (tokenMachine []).init = some _ := exec_eq_run (by decide +kernel)
  have hdone : (((tokenMachine []).restrict KeepsLast).run (twoSnapshots ++ [.write 0, .write 1])
      (tokenMachine []).init).persists = [.done, .done] := by decide +kernel
  exact ⟨_, hrun, @persisted_clients_are_last [] _ ⟨_, hrun⟩ (by rw [hdone]; simp)⟩

end Remux
