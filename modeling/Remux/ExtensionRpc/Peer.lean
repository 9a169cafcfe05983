import Std.Data.String.ToNat
import Remux.Common.Lists
import Remux.ExtensionRpc.Model.Peer

/-!
# Progress in order, one result

A pending request and its caller tell the same story: as many frames were
put on the progress channel as the request counts, and nothing was sent
on the response channel yet. `PeerInv` says so, and every step is shown to
keep it: those of the callers, and those that a frame makes of a pending
request. A caller that has its result is no longer pending, and since ids
are not used twice, no frame reaches it or another one in its place.
-/

namespace Remux

open Peer Assoc Option List

variable {floatText : Double → List Char} {idPrefix id id' : String} {s s' : Peer}
variable {c k : ℕ} {caller caller' : Caller} {r : PendingRequest} {result : RpcResult}

/-! ## Small facts of the operations -/

variable {f : Caller → Caller} {value : Option Value} {trySend : TrySend} {message : Value}

/-- One caller is updated, the others stay. -/
theorem getElem?_updateCaller :
    (s.updateCaller c f).callers[k]? = if k = c then (s.callers[k]?).map f else s.callers[k]? := by
  unfold updateCaller
  rw [getElem?_modify]
  by_cases h : k = c
  · simp only [h, if_true]
    rfl
  · simp only [h, Ne.symm h, if_false]
    exact id_map _

theorem length_updateCaller : (s.updateCaller c f).callers.length = s.callers.length :=
  length_modify _ _ _

/-- What a caller returns was sent to it, or is an error of its own. -/
def OwnResult (responses : List RpcResult) : CallerPhase → Prop
  | .returned result => result ∈ responses ∨ ∃ message, result = .error (.transport message)
  | .removing error => ∃ message, error = .transport message
  | .inserting | .emitting | .receiving => True

/-- **The invariant**: the callers have the ids in order, and each pending
request is that of its caller. -/
structure PeerInv (idPrefix : String) (s : Peer) : Prop where
  nextId : s.nextId = s.callers.length + 1
  ids : ∀ (c : ℕ) (caller : Caller), s.callers[c]? = some caller →
    caller.id = idPrefix ++ (c + 1).repr
  frames : ∀ (c : ℕ) (caller : Caller), s.callers[c]? = some caller →
    caller.frames.map Prod.fst = List.range caller.frames.length
  responses : ∀ (c : ℕ) (caller : Caller), s.callers[c]? = some caller →
    caller.responses.length ≤ 1 ∧
    ∀ result ∈ caller.responses, caller.progress = true → ∀ n, progressFrames result = some n →
      caller.frames.length = n
  inserting : ∀ (c : ℕ) (caller : Caller), s.callers[c]? = some caller → caller.phase = .inserting →
    caller.responses = [] ∧ caller.frames = []
  returned : ∀ (c : ℕ) (caller : Caller), s.callers[c]? = some caller →
    OwnResult caller.responses caller.phase
  pending : ∀ id request, s.pending.lookup id = some request →
    ∃ caller, s.callers[request.caller]? = some caller ∧ caller.id = id ∧
      request.progress = caller.progress ∧ request.nextProgressSequence = caller.frames.length ∧
      caller.responses = [] ∧ caller.phase ≠ .inserting ∧
      (∀ result, caller.phase ≠ .returned result) ∧
      ∀ result n, request.deferredTerminal = some (result, n) → progressFrames result = some n

/-- Different callers have different ids. -/
theorem PeerInv.caller_eq (h : PeerInv idPrefix s) (hc : s.callers[c]? = some caller)
    (hk : s.callers[k]? = some caller') (hid : caller.id = caller'.id) : c = k := by
  rw [h.ids c caller hc, h.ids k caller' hk, ← String.toList_inj, String.toList_append,
    String.toList_append, append_cancel_left_eq, String.toList_inj] at hid
  have := Nat.repr_injective hid
  omega

/-- What the invariant says of one caller. -/
structure CallerInv (idPrefix : String) (c : ℕ) (caller : Caller) : Prop where
  id : caller.id = idPrefix ++ (c + 1).repr
  frames : caller.frames.map Prod.fst = List.range caller.frames.length
  responses : caller.responses.length ≤ 1 ∧
    ∀ result ∈ caller.responses, caller.progress = true → ∀ n, progressFrames result = some n →
      caller.frames.length = n
  inserting : caller.phase = .inserting → caller.responses = [] ∧ caller.frames = []
  returned : OwnResult caller.responses caller.phase

theorem PeerInv.callerInv (h : PeerInv idPrefix s) (hc : s.callers[c]? = some caller) :
    CallerInv idPrefix c caller :=
  ⟨h.ids c caller hc, h.frames c caller hc, h.responses c caller hc, h.inserting c caller hc,
    h.returned c caller hc⟩

/-- One caller changes, and keeps to the invariant. -/
theorem PeerInv.of_updated {new : Caller} (h : PeerInv idPrefix s)
    (hnext : s'.nextId = s'.callers.length + 1)
    (hget : ∀ k, s'.callers[k]? = if k = c then some new else s.callers[k]?)
    (hnew : CallerInv idPrefix c new)
    (hpend : ∀ id request, s'.pending.lookup id = some request →
      ∃ caller, s'.callers[request.caller]? = some caller ∧ caller.id = id ∧
        request.progress = caller.progress ∧ request.nextProgressSequence = caller.frames.length ∧
        caller.responses = [] ∧ caller.phase ≠ .inserting ∧
        (∀ result, caller.phase ≠ .returned result) ∧
        ∀ result n, request.deferredTerminal = some (result, n) → progressFrames result = some n) :
    PeerInv idPrefix s' := by
  have hall : ∀ k caller', s'.callers[k]? = some caller' → CallerInv idPrefix k caller' := by
    intro k caller' hk
    rw [hget] at hk
    split at hk
    · next heq =>
      cases hk
      exact heq ▸ hnew
    · exact h.callerInv hk
  exact ⟨hnext, fun k _ hk => (hall k _ hk).id, fun k _ hk => (hall k _ hk).frames,
    fun k _ hk => (hall k _ hk).responses, fun k _ hk => (hall k _ hk).inserting,
    fun k _ hk => (hall k _ hk).returned, hpend⟩

/-! ## The callers -/

/-- A caller goes on. It may return only if it is no longer pending. -/
theorem PeerInv.enter {phase : CallerPhase} (h : PeerInv idPrefix s)
    (hc : s.callers[c]? = some caller) (hinserting : phase ≠ .inserting)
    (hown : OwnResult caller.responses phase)
    (hret : ∀ result, phase = .returned result → s.pending.lookup caller.id = none) :
    PeerInv idPrefix (s.enter c phase) := by
  have hold := h.callerInv hc
  have hget : ∀ k, (s.enter c phase).callers[k]? =
      if k = c then some { caller with phase } else s.callers[k]? := by
    intro k
    rw [Peer.enter, getElem?_updateCaller]
    split
    · next heq =>
      rw [heq, hc]
      rfl
    · rfl
  refine h.of_updated ?_ hget ⟨hold.id, hold.frames, hold.responses,
    fun heq => absurd heq hinserting, hown⟩ ?_
  · rw [Peer.enter, length_updateCaller]
    exact h.nextId
  · intro id request hpend
    obtain ⟨caller', hcaller', hid, hprog, hnext, hresps, hph, hnot, hdefer⟩ :=
      h.pending id request hpend
    rw [hget]
    split
    · next heq =>
      rw [heq, hc] at hcaller'
      cases hcaller'
      refine ⟨_, rfl, hid, hprog, hnext, hresps, hinserting, fun result hreturn => ?_, hdefer⟩
      have hnone := hret result hreturn
      rw [hid, show s.pending.lookup id = some request from hpend] at hnone
      cases hnone
    · exact ⟨caller', hcaller', hid, hprog, hnext, hresps, hph, hnot, hdefer⟩

/-- A request keeps the invariant. -/
theorem PeerInv.request {progress : Bool} (h : PeerInv idPrefix s) :
    PeerInv idPrefix (s.request idPrefix progress) := by
  have hold : ∀ k caller', (s.request idPrefix progress).callers[k]? = some caller' →
      s.callers[k]? = some caller' ∨
        k = s.callers.length ∧
          ⟨idPrefix ++ s.nextId.repr, progress, .inserting, [], []⟩ = caller' :=
    fun k caller' hk => getElem?_concat_eq_some.1 hk
  refine ⟨?_, ?_, ?_, ?_, ?_, ?_, ?_⟩
  · show s.nextId + 1 = (s.callers ++ [_]).length + 1
    rw [length_append, length_singleton, h.nextId]
  · intro k caller' hk
    rcases hold k caller' hk with hk | ⟨rfl, rfl⟩
    · exact h.ids k caller' hk
    · rw [h.nextId]
  · intro k caller' hk
    rcases hold k caller' hk with hk | ⟨rfl, rfl⟩
    · exact h.frames k caller' hk
    · rfl
  · intro k caller' hk
    rcases hold k caller' hk with hk | ⟨rfl, rfl⟩
    · exact h.responses k caller' hk
    · exact ⟨Nat.zero_le _, fun _ hmem => absurd hmem not_mem_nil⟩
  · intro k caller' hk
    rcases hold k caller' hk with hk | ⟨rfl, rfl⟩
    · exact h.inserting k caller' hk
    · exact fun _ => ⟨rfl, rfl⟩
  · intro k caller' hk
    rcases hold k caller' hk with hk | ⟨rfl, rfl⟩
    · exact h.returned k caller' hk
    · trivial
  · intro id request hpend
    obtain ⟨caller', hcaller', hrest⟩ := h.pending id request hpend
    exact ⟨caller', getElem?_concat_eq_some.2 (.inl hcaller'), hrest⟩

/-- The request of an inserting caller becomes pending. -/
theorem PeerInv.insert (h : PeerInv idPrefix s) (hstep : s.insert c = some s') :
    PeerInv idPrefix s' := by
  obtain ⟨caller, hc, hstep⟩ := bind_eq_some_iff.1 hstep
  split at hstep
  next hph =>
    have hnone : s.pending.lookup caller.id = none := by
      rcases hget : s.pending.lookup caller.id with _ | r
      · rfl
      · obtain ⟨caller', hcaller', hid, -, -, -, hnot, -⟩ := h.pending _ _ hget
        obtain rfl := h.caller_eq hcaller' hc hid
        rw [hc] at hcaller'
        cases hcaller'
        exact absurd hph hnot
    split at hstep
    · cases hstep
      exact h.enter hc nofun (.inr ⟨_, rfl⟩) fun _ _ => hnone
    · cases hstep
      obtain ⟨hresps, hfrs⟩ := h.inserting c caller hc hph
      -- first the caller goes on, and then its request is the pending one
      have henter := @PeerInv.enter _ _ _ _ .emitting h hc nofun trivial nofun
      refine { henter with pending := fun id r hr => ?_ }
      have hr : (s.pending.insert caller.id ⟨c, caller.progress, 0, none⟩).lookup id = some r := hr
      rw [lookup_insert_eq] at hr
      split at hr
      · next heq =>
        cases hr
        refine ⟨{ caller with phase := .emitting }, ?_, heq.symm, rfl, ?_, hresps, nofun, nofun,
          nofun⟩
        · show (s.enter c .emitting).callers[c]? = _
          rw [Peer.enter, getElem?_updateCaller, if_pos rfl, hc]
          rfl
        · rw [hfrs]
          rfl
      · exact henter.pending id r hr
  next => cases hstep

/-- A request that is written keeps the invariant. -/
theorem PeerInv.emit {error : Option String} (h : PeerInv idPrefix s)
    (hstep : s.emit c error = some s') : PeerInv idPrefix s' := by
  obtain ⟨caller, hc, hstep⟩ := bind_eq_some_iff.1 hstep
  split at hstep
  · split at hstep
    · cases hstep
      exact h.enter hc nofun trivial nofun
    · cases hstep
      exact h.enter hc nofun ⟨_, rfl⟩ nofun
  · cases hstep

/-- **A caller that has received is not pending**: nothing is sent to one
that is. -/
theorem PeerInv.receive (h : PeerInv idPrefix s) (hstep : s.receive c = some s') :
    PeerInv idPrefix s' := by
  obtain ⟨caller, hc, hstep⟩ := bind_eq_some_iff.1 hstep
  split at hstep
  · next result rest _ hresps =>
    cases hstep
    have hmem : result ∈ caller.responses := by
      rw [hresps]
      exact mem_cons_self
    refine h.enter hc nofun (.inl hmem) fun _ _ => ?_
    rcases hget : s.pending.lookup caller.id with _ | r
    · rfl
    · obtain ⟨caller', hcaller', hid, -, -, hnone, -⟩ := h.pending _ _ hget
      obtain rfl := h.caller_eq hcaller' hc hid
      rw [hc] at hcaller'
      cases hcaller'
      rw [hnone] at hresps
      cases hresps
  · cases hstep

theorem PeerInv.timeout (h : PeerInv idPrefix s) (hstep : s.timeout c = some s') :
    PeerInv idPrefix s' := by
  obtain ⟨caller, hc, hstep⟩ := bind_eq_some_iff.1 hstep
  split at hstep
  · cases hstep
    exact h.enter hc nofun ⟨_, rfl⟩ nofun
  · cases hstep

/-- A connection that ends keeps the invariant. -/
theorem PeerInv.disconnected (h : PeerInv idPrefix s) (hstep : s.disconnected c = some s') :
    PeerInv idPrefix s' := by
  obtain ⟨caller, hc, hstep⟩ := bind_eq_some_iff.1 hstep
  split at hstep
  · split at hstep
    · cases hstep
      exact h.enter hc nofun ⟨_, rfl⟩ nofun
    · cases hstep
  · cases hstep

/-- Fewer requests are pending. -/
theorem PeerInv.erase (h : PeerInv idPrefix s) :
    PeerInv idPrefix { s with pending := s.pending.erase id } := by
  refine { h with pending := fun id' r hr => ?_ }
  have hr : (s.pending.erase id).lookup id' = some r := hr
  rw [lookup_erase_eq] at hr
  split at hr
  · cases hr
  · exact h.pending id' r hr

/-- An entry that its caller removes keeps the invariant. -/
theorem PeerInv.remove (h : PeerInv idPrefix s) (hstep : s.remove c = some s') :
    PeerInv idPrefix s' := by
  obtain ⟨caller, hc, hstep⟩ := bind_eq_some_iff.1 hstep
  split at hstep
  next error hph =>
    cases hstep
    have hown := h.returned c caller hc
    rw [hph] at hown
    obtain ⟨message, rfl⟩ := hown
    refine PeerInv.enter h.erase hc nofun (.inr ⟨message, rfl⟩) fun _ _ => ?_
    exact lookup_erase_eq.trans (if_pos rfl)
  next => cases hstep

/-! ## The frames -/

/-- **A request is completed** with a result whose count of frames is that
of the request. -/
theorem PeerInv.complete (h : PeerInv idPrefix s) (hr : s.pending.lookup id = some r)
    (hres : r.progress = true → ∀ n, progressFrames result = some n →
      r.nextProgressSequence = n) : PeerInv idPrefix (s.complete id result) := by
  obtain ⟨caller, hc, hid, hprog, hnext, hresps, hph, hret, -⟩ := h.pending id r hr
  rw [Peer.complete, hr]
  have hold := h.callerInv hc
  have hget : ∀ k, (({ s with pending := s.pending.erase id } : Peer).updateCaller r.caller
      fun caller => { caller with responses := caller.responses ++ [result] }).callers[k]? =
        if k = r.caller then some { caller with responses := [result] } else s.callers[k]? := by
    intro k
    rw [getElem?_updateCaller]
    split
    · next heq =>
      rw [heq, show s.callers[r.caller]? = some caller from hc]
      dsimp only [Option.map_some]
      rw [hresps]
      rfl
    · rfl
  refine h.of_updated ?_ hget ⟨hold.id, hold.frames, ⟨Nat.le_refl _, ?_⟩,
    fun heq => absurd heq hph, ?_⟩ ?_
  · rw [length_updateCaller]
    exact h.nextId
  · intro result' hmem hopted n hn
    obtain rfl := mem_singleton.1 hmem
    rw [← hnext]
    exact hres (hprog.trans hopted) n hn
  · have hown := hold.returned
    dsimp only
    cases heq : caller.phase with
    | returned result' => exact absurd heq (hret result')
    | removing error =>
      rw [heq] at hown
      exact hown
    | inserting | emitting | receiving => trivial
  · intro id' r' hr'
    have hr' : (s.pending.erase id).lookup id' = some r' := hr'
    rw [lookup_erase_eq] at hr'
    split at hr'
    · cases hr'
    next hne =>
    obtain ⟨caller', hc', hid', hrest⟩ := h.pending id' r' hr'
    rw [hget]
    split
    · next heq =>
      rw [heq, hc] at hc'
      cases hc'
      exact absurd (hid'.symm.trans hid) hne
    · exact ⟨caller', hc', hid', hrest⟩

/-- A failure counts no frames. -/
theorem PeerInv.failPending {message : String} (h : PeerInv idPrefix s)
    (hr : s.pending.lookup id = some r) : PeerInv idPrefix (s.failPending id message) :=
  h.complete hr fun _ _ => nofun

/-- A success waits for its frames. -/
theorem PeerInv.defer {n : ℕ} (h : PeerInv idPrefix s) (hr : s.pending.lookup id = some r)
    (hn : progressFrames result = some n) :
    PeerInv idPrefix (s.updateRequest id { r with deferredTerminal := some (result, n) }) := by
  refine { h with pending := fun id' r' hr' => ?_ }
  have hr' : (s.pending.insert id { r with deferredTerminal := some (result, n) }).lookup id' =
    some r' := hr'
  rw [lookup_insert_eq] at hr'
  split at hr'
  · next heq =>
    cases hr'
    obtain ⟨caller, hc, hid, hprog, hnext, hresps, hph, hret, -⟩ := h.pending id r hr
    refine ⟨caller, hc, hid.trans heq.symm, hprog, hnext, hresps, hph, hret, ?_⟩
    intro result' n' hdefer
    cases hdefer
    exact hn
  · exact h.pending id' r' hr'

/-- **A value is put on the channel**, with the next sequence. -/
theorem PeerInv.put {value : Value} (h : PeerInv idPrefix s) (hr : s.pending.lookup id = some r) :
    PeerInv idPrefix (s.put id r (r.nextProgressSequence, value)) := by
  obtain ⟨caller, hc, hid, hprog, hnext, hresps, hph, hret, hdefer⟩ :=
    h.pending id r hr
  have hget : ∀ k, (s.put id r (r.nextProgressSequence, value)).callers[k]? = if k = r.caller then
        some { caller with frames := caller.frames ++ [(r.nextProgressSequence, value)] }
      else s.callers[k]? := by
    intro k
    rw [Peer.put, getElem?_updateCaller]
    split
    · next heq =>
      rw [heq, show (s.updateRequest _ _).callers[r.caller]? = some caller from hc]
      rfl
    · rfl
  have hold := h.callerInv hc
  refine h.of_updated ?_ hget ⟨hold.id, ?_, ?_, fun heq => absurd heq hph, hold.returned⟩ ?_
  · rw [Peer.put, length_updateCaller]
    exact h.nextId
  · dsimp only
    rw [map_append, hold.frames, length_append, length_singleton, range_succ, hnext]
    rfl
  · dsimp only
    rw [hresps]
    exact ⟨Nat.zero_le _, fun _ hmem => absurd hmem not_mem_nil⟩
  · intro id' r' hr'
    have hr' : (s.pending.insert id
      { r with nextProgressSequence := r.nextProgressSequence + 1 }).lookup id' = some r' := hr'
    rw [lookup_insert_eq] at hr'
    split at hr'
    · next heq =>
      cases hr'
      rw [hget, if_pos rfl]
      refine ⟨_, rfl, hid.trans heq.symm, hprog, ?_, hresps, hph, hret, hdefer⟩
      rw [length_append, length_singleton, hnext]
    · next hne =>
      obtain ⟨caller', hc', hid', hrest⟩ := h.pending id' r' hr'
      rw [hget]
      split
      · next heq =>
        rw [heq, hc] at hc'
        cases hc'
        exact absurd (hid'.symm.trans hid) hne
      · exact ⟨caller', hc', hid', hrest⟩

/-- A frame sent to its caller keeps the invariant. -/
theorem PeerInv.sendProgress {value : Value} (h : PeerInv idPrefix s)
    (hr : s.pending.lookup id = some r) :
    PeerInv idPrefix (s.sendProgress id r (r.nextProgressSequence, value)) := by
  have hput := @PeerInv.put _ _ _ _ value h hr
  unfold Peer.sendProgress
  split
  · next terminal expected hdefer =>
    split
    · next hready =>
      refine hput.complete (r := { r with nextProgressSequence := r.nextProgressSequence + 1 })
        (lookup_insert_eq.trans (if_pos rfl)) fun _ n hn => ?_
      -- the terminal resp waited for as many frames as it declares
      obtain ⟨_, -, -, -, -, -, -, -, hwait⟩ := h.pending id r hr
      rw [hwait _ _ hdefer, some.injEq] at hn
      exact hready.trans hn
    · exact hput
  · exact hput

variable {sequence : Option ℕ}

/-- Only the next frame is accepted. -/
theorem sequence_of_progressFailure (h : progressFailure floatText r sequence value = none) :
    sequence = some r.nextProgressSequence := by
  unfold progressFailure at h
  split at h
  · cases h
  · next hnot => exact not_not.1 hnot

variable (h : PeerInv idPrefix s)
include h

/-- A progress frame keeps the invariant. -/
theorem PeerInv.resolveFrame (hr : s.pending.lookup id = some r) :
    PeerInv idPrefix (s.resolveFrame floatText id r sequence value trySend) := by
  unfold Peer.resolveFrame
  split
  · exact h.failPending hr
  · next hacc =>
    cases sequence_of_progressFailure hacc
    cases trySend with
    | sent => exact h.sendProgress hr
    | full | disconnected => exact h.failPending hr
  · exact h

/-- A terminal response keeps the invariant. -/
theorem PeerInv.resolveTerminal (hr : s.pending.lookup id = some r) :
    PeerInv idPrefix (s.resolveTerminal id r result) := by
  unfold Peer.resolveTerminal
  split
  · split
    · next n hn =>
      split
      · exact h.failPending hr
      next hle =>
      split
      · exact h.defer hr hn
      next hge =>
      refine h.complete hr fun _ n' hn' => ?_
      rw [hn, some.injEq] at hn'
      omega
    · next hnone =>
      refine h.complete hr fun _ n hn => ?_
      rw [hnone] at hn
      cases hn
  · next hprog => exact h.complete hr fun hopted => absurd hopted hprog

/-- A message that is resolved keeps the invariant. -/
theorem PeerInv.resolve : PeerInv idPrefix (s.resolve floatText idPrefix message trySend).2 := by
  unfold Peer.resolve
  split
  · exact h
  split
  · exact h
  next id _ r hr =>
  split
  · exact h.resolveFrame hr
  · exact h.resolveTerminal hr

omit h

/-! ## Every run -/

theorem peerInv_init : PeerInv idPrefix (peerMachine floatText idPrefix).init := by
  refine ⟨rfl, nofun, nofun, nofun, nofun, nofun, fun id r hr => ?_⟩
  have hr : (∅ : Assoc String PendingRequest).lookup id = some r := hr
  rw [AList.lookup_empty] at hr
  cases hr

/-- Every step keeps the invariant. -/
theorem PeerInv.step {action : PeerAction} (h : PeerInv idPrefix s)
    (hstep : (peerMachine floatText idPrefix).step s action = some s') : PeerInv idPrefix s' := by
  cases action with
  | request progress =>
    cases hstep
    exact h.request
  | insert c => exact h.insert hstep
  | emit c error => exact h.emit hstep
  | resolve message trySend =>
    cases hstep
    exact h.resolve
  | receive c => exact h.receive hstep
  | timeout c => exact h.timeout hstep
  | disconnected c => exact h.disconnected hstep
  | remove c => exact h.remove hstep

theorem peerInv_of_reachable (h : (peerMachine floatText idPrefix).Reachable s) :
    PeerInv idPrefix s :=
  h.rule peerInv_init fun _ _ _ _ hinv hstep => hinv.step hstep

/-! ## The values that are put -/

/-- The frame of a request that a message is, with its sequence and value. -/
def FrameOf (idPrefix id : String) (message : Value) (frame : ℕ × Value) : Prop :=
  let param key := (message.get "params").bind fun params => params.get key
  messageId idPrefix message = some id ∧ (message.get "method").isSome = true ∧
    ((param "sequence").bind Value.asU64).map UInt64.toNat = some frame.1 ∧
    param "value" = some frame.2

/-- The messages that were fed while the progress channels had room. -/
def fed (actions : List PeerAction) : List Value :=
  actions.filterMap fun
    | .resolve message .sent => some message
    | _ => none

/-- **The frames of each caller are those of messages fed for it**, in the
order in which they were fed. -/
def FramesFed (idPrefix : String) (messages : List Value) (s : Peer) : Prop :=
  ∀ (c : ℕ) (caller : Caller), s.callers[c]? = some caller → ∃ frames, frames <+ messages ∧
    Forall₂ (FrameOf idPrefix caller.id) frames caller.frames

/-- No caller gets a frame. -/
def FramesKept (s s' : Peer) : Prop :=
  ∀ (c : ℕ) (caller' : Caller), s'.callers[c]? = some caller' → ∃ caller,
    s.callers[c]? = some caller ∧ caller.id = caller'.id ∧ caller.frames = caller'.frames

variable {messages : List Value}

theorem FramesKept.refl (s : Peer) : FramesKept s s := fun _ caller' h => ⟨caller', h, rfl, rfl⟩

theorem FramesFed.of_kept (h : FramesFed idPrefix messages s) (hkept : FramesKept s s') :
    FramesFed idPrefix messages s' := by
  intro c caller' hc
  obtain ⟨caller, hcaller, hid, hframes⟩ := hkept c caller' hc
  rw [← hid, ← hframes]
  exact h c caller hcaller

theorem FramesFed.more {further : List Value} (h : FramesFed idPrefix messages s) :
    FramesFed idPrefix (messages ++ further) s := by
  intro c caller hc
  obtain ⟨frames, hsub, hall⟩ := h c caller hc
  exact ⟨frames, hsub.trans (sublist_append_left _ _), hall⟩

theorem framesKept_updateCaller
    (hf : ∀ caller, (f caller).id = caller.id ∧ (f caller).frames = caller.frames) :
    FramesKept s (s.updateCaller c f) := by
  intro k caller' hk
  rw [getElem?_updateCaller] at hk
  split at hk
  · obtain ⟨caller, hcaller, rfl⟩ := map_eq_some_iff.1 hk
    exact ⟨caller, hcaller, (hf caller).1.symm, (hf caller).2.symm⟩
  · exact ⟨caller', hk, rfl, rfl⟩

theorem framesKept_enter {phase : CallerPhase} : FramesKept s (s.enter c phase) :=
  framesKept_updateCaller fun _ => ⟨rfl, rfl⟩

theorem framesKept_complete : FramesKept s (s.complete id result) := by
  unfold Peer.complete
  split
  · exact framesKept_updateCaller (s := { s with pending := s.pending.erase id })
      (f := fun caller => { caller with responses := caller.responses ++ [result] })
      fun _ => ⟨rfl, rfl⟩
  · exact .refl s

theorem framesKept_resolveTerminal : FramesKept s (s.resolveTerminal id r result) := by
  unfold Peer.resolveTerminal
  split
  · split
    · split
      · exact framesKept_complete
      · split
        · exact .refl s
        · exact framesKept_complete
    · exact framesKept_complete
  · exact framesKept_complete

/-- A new caller has no frames yet. -/
theorem FramesFed.request {progress : Bool} (h : FramesFed idPrefix messages s) :
    FramesFed idPrefix messages (s.request idPrefix progress) := by
  intro k caller hk
  rcases getElem?_concat_eq_some.1 hk with hk | ⟨-, rfl⟩
  · exact h k caller hk
  · exact ⟨[], nil_sublist _, .nil⟩

/-- A frame that was put was fed, with that sequence and value. -/
theorem FramesFed.put {frame : ℕ × Value} (h : FramesFed idPrefix messages s)
    (hinv : PeerInv idPrefix s) (hr : s.pending.lookup id = some r)
    (hframe : FrameOf idPrefix id message frame) :
    FramesFed idPrefix (messages ++ [message]) (s.put id r frame) := by
  intro k caller' hk
  rw [Peer.put, getElem?_updateCaller] at hk
  split at hk
  · next heq =>
    obtain ⟨caller, hcaller, rfl⟩ := map_eq_some_iff.1 hk
    obtain ⟨same, hsame, hid, -⟩ := hinv.pending id r hr
    have hcaller : s.callers[k]? = some caller := hcaller
    rw [heq, hsame] at hcaller
    cases hcaller
    obtain ⟨frames, hsub, hall⟩ := h _ _ hsame
    exact ⟨frames ++ [message], hsub.append (.refl _),
      rel_append hall (.cons (hid.symm ▸ hframe) .nil)⟩
  · exact h.more k caller' hk

/-- A message that is resolved puts what it was fed with. -/
theorem FramesFed.resolve (h : FramesFed idPrefix messages s) (hinv : PeerInv idPrefix s) :
    FramesFed idPrefix (messages ++ fed [.resolve message trySend])
      (s.resolve floatText idPrefix message trySend).2 := by
  unfold Peer.resolve
  split
  · exact h.more
  next id hid =>
  split
  · exact h.more
  next r hr =>
  split
  · next hmethod =>
    dsimp only
    unfold Peer.resolveFrame
    split
    · exact h.more.of_kept framesKept_complete
    · next sequence value hacc hsequence hvalue =>
      cases trySend with
      | sent =>
        have hput := @FramesFed.put _ _ _ _ message _ (sequence, value) h hinv hr
          ⟨hid, hmethod, hsequence, hvalue⟩
        show FramesFed _ (messages ++ [message]) (s.sendProgress id r (sequence, value))
        unfold Peer.sendProgress
        split
        · split
          · exact hput.of_kept framesKept_complete
          · exact hput
        · exact hput
      | full | disconnected => exact h.more.of_kept framesKept_complete
    · exact h.more
  · exact h.more.of_kept framesKept_resolveTerminal

/-- Every step puts only what was fed. -/
theorem FramesFed.step {actions : List PeerAction} {action : PeerAction}
    (h : FramesFed idPrefix (fed actions) s) (hinv : PeerInv idPrefix s)
    (hstep : (peerMachine floatText idPrefix).step s action = some s') :
    FramesFed idPrefix (fed (actions ++ [action])) s' := by
  rw [fed, filterMap_append]
  cases action with
  | request progress =>
    cases hstep
    exact h.request.more
  | insert c =>
    obtain ⟨caller, hc, hstep⟩ := bind_eq_some_iff.1 hstep
    split at hstep
    · split at hstep
      all_goals cases hstep
      · exact h.more.of_kept framesKept_enter
      · exact h.more.of_kept fun k => framesKept_enter (s := s) k
    · cases hstep
  | emit c error =>
    obtain ⟨caller, hc, hstep⟩ := bind_eq_some_iff.1 hstep
    split at hstep
    · split at hstep
      all_goals cases hstep; exact h.more.of_kept framesKept_enter
    · cases hstep
  | resolve message trySend =>
    cases hstep
    exact h.resolve hinv
  | receive c | timeout c =>
    obtain ⟨caller, hc, hstep⟩ := bind_eq_some_iff.1 hstep
    split at hstep
    · cases hstep
      exact h.more.of_kept framesKept_enter
    · cases hstep
  | disconnected c =>
    obtain ⟨caller, hc, hstep⟩ := bind_eq_some_iff.1 hstep
    split at hstep
    · split at hstep
      all_goals cases hstep
      exact h.more.of_kept framesKept_enter
    · cases hstep
  | remove c =>
    obtain ⟨caller, hc, hstep⟩ := bind_eq_some_iff.1 hstep
    split at hstep
    · cases hstep
      exact h.more.of_kept fun k => framesKept_enter (s := s) k
    · cases hstep

/-- **What is put was fed.** -/
theorem framesFed_of_exec {actions : List PeerAction}
    (h : (peerMachine floatText idPrefix).exec actions (peerMachine floatText idPrefix).init =
      some s) : FramesFed idPrefix (fed actions) s :=
  Machine.exec_rule (P := fun actions => FramesFed idPrefix (fed actions)) h nofun
    fun _ _ _ _ hrun hfed hstep => hfed.step (peerInv_of_reachable ⟨_, hrun⟩) hstep

/-! ## Progress and its end -/

/-- A message for a request that is not pending changes nothing. -/
theorem resolve_of_not_pending (hid : messageId idPrefix message = some id)
    (hnone : s.pending.lookup id = none) :
    (s.resolve floatText idPrefix message trySend).2 = s := by
  unfold Peer.resolve
  rw [hid]
  dsimp only
  rw [hnone]

/-- **Progress and terminal ordering.** Of a request that opted into
progress, whatever frames are fed: the values put on the channel are those
of the frames 0, 1, and so on, of messages fed for it in that order; one result at most is sent, and
what the caller returns is that one or an error of its own; a success that
declares a count of frames has that count of them; and once anything is
sent or returned the request is not pending, and no message for it changes
anything. -/
theorem progress_in_order {actions : List PeerAction}
    (h : (peerMachine floatText idPrefix).exec actions (peerMachine floatText idPrefix).init =
      some s) (hcaller : s.callers[c]? = some caller) (hprogress : caller.progress = true) :
    caller.frames.map Prod.fst = List.range caller.frames.length ∧
      (∃ messages, messages <+ fed actions ∧
        Forall₂ (FrameOf idPrefix caller.id) messages caller.frames) ∧
      caller.responses.length ≤ 1 ∧
      (∀ result, caller.phase = .returned result →
        result ∈ caller.responses ∨ ∃ message, result = .error (.transport message)) ∧
      (∀ result ∈ caller.responses, ∀ n, progressFrames result = some n →
        caller.frames.length = n) ∧
      (caller.responses ≠ [] ∨ (∃ result, caller.phase = .returned result) →
        s.pending.lookup caller.id = none ∧ ∀ message trySend,
          messageId idPrefix message = some caller.id →
          (s.resolve floatText idPrefix message trySend).2 = s) := by
  have hinv := peerInv_of_reachable ⟨_, h⟩
  obtain ⟨hle, hcount⟩ := hinv.responses c caller hcaller
  refine ⟨hinv.frames c caller hcaller, framesFed_of_exec h c caller hcaller, hle,
    fun result hreturned => ?_,
    fun result hmem => hcount result hmem hprogress, fun hended => ?_⟩
  · have hown := hinv.returned c caller hcaller
    rwa [hreturned] at hown
  · have hnone : s.pending.lookup caller.id = none := by
      rcases hlookup : s.pending.lookup caller.id with _ | r
      · rfl
      · obtain ⟨caller', hc', hid, -, -, hresponses, -, hnot, -⟩ := hinv.pending _ _ hlookup
        obtain rfl := hinv.caller_eq hc' hcaller hid
        rw [hcaller] at hc'
        cases hc'
        rcases hended with hsent | ⟨result, hreturned⟩
        · exact absurd hresponses hsent
        · exact absurd hreturned (hnot result)
    exact ⟨hnone, fun message trySend hid => resolve_of_not_pending hid hnone⟩

/-- A success that declares one frame, and then the frame. -/
def exampleProgress : List PeerAction :=
  [.request true, .insert 0, .emit 0 none, .resolve (.object [("id", .string "host:1"),
      ("result", .object [("progressFrames", .number (.posInt 1))])]) .sent,
    .resolve (.object [("method", .string "$/progress"),
      ("params", .object [("id", .string "host:1"), ("sequence", .number (.posInt 0)),
        ("value", .string "done")])]) .sent,
    .receive 0]

/-- A caller that was sent a frame and the response. -/
theorem progress_in_order_example : ∃ (s : Peer) (caller : Caller), s.callers[0]? = some caller ∧
    caller.responses.length = 1 ∧ caller.frames.length = 1 ∧ ∃ messages,
      messages <+ fed exampleProgress ∧
        Forall₂ (FrameOf "host:" caller.id) messages caller.frames := by
  let M := peerMachine (fun _ => []) "host:"
  have hrun : M.exec exampleProgress M.init = some (M.run exampleProgress M.init) :=
    Machine.exec_eq_run (by decide +kernel)
  have hcaller := (Option.some_get (x := (M.run exampleProgress M.init).callers[0]?)
    (by decide +kernel)).symm
  exact ⟨_, _, hcaller, by decide +kernel, by decide +kernel,
    (progress_in_order hrun hcaller (by decide +kernel)).2.1⟩

end Remux
