import Remux.Terminal.Input

/-!
# No terminal process is lost

A child that runs is with the start that spawned it, with the record of
its session, or with the kill that removed that record (`Tended`), as long
as the threads do not cross (`Careful`): no start of a session begins
while another start or a kill of it is under way, and neither the opening
of a spawned terminal nor a kill fails. A start that is repeated gets the
answer it got before, where the session still runs and has its stream.
-/

namespace Remux

open List Prod

namespace Terminal

namespace TerminalServer

open Assoc Remux.Terminal.SessionRecord Remux.Terminal.StartPhase Option

/-- A child that was spawned and has not ended. -/
def Runs (s : TerminalServer) (child : ChildProcess) : Prop :=
  child ∈ s.spawned ∧ child.pid ∉ s.ended

/-- A session runs and has the stream, by its lease. -/
def keepsStream (s : TerminalServer) (sessionId : String) (stream : InputStreamId) : Bool :=
  (s.sessions.lookup sessionId).any fun session =>
    session.status = .running &&
      (session.inputStreams.lookup stream).any (SessionRecord.leased s.clock)

/-- **Threads that do not cross.** A start begins while no other start and
no kill of the session is under way, and with the operation of a start
that was answered only where its session still has the stream; what is
spawned is recorded, and what is to be killed is. -/
def Careful (s : TerminalServer) : ServerAction → Prop
  | .start sessionId operationId _ _ _ =>
    (∀ call ∈ s.starts, call.sessionId ≠ sessionId) ∧
      (∀ call ∈ s.kills, call.sessionId ≠ sessionId) ∧
      ∀ answer ∈ s.started, answer.sessionId = sessionId → answer.operationId = operationId →
        s.keepsStream sessionId answer.inputStreamId
  | .startRecord call opened => opened.isOk ∨ ∃ pid ∈ s.ended, call.phase = .spawned pid
  | .killed call result => result.isOk ∨ call.pid ∈ s.ended
  | _ => True

instance (s : TerminalServer) (action : ServerAction) : Decidable (s.Careful action) := by
  cases action <;> unfold Careful <;> infer_instance

/-- What a session says of its process. -/
def process (session : SessionRecord) : ℕ × Option ℕ × SessionStatus :=
  (session.generation, session.killer, session.status)

/-- **Every process is tended**: the sessions, the starts and the kills
each have children of their own. -/
structure Tended (s : TerminalServer) : Prop where
  pids : s.spawned.map ChildProcess.pid = range s.spawned.length
  exited : ∀ id session, s.sessions.lookup id = some session → session.status = .exited →
    session.killer = none
  recorded : ∀ id session pid, s.sessions.lookup id = some session → session.killer = some pid →
    ⟨pid, id⟩ ∈ s.spawned
  waited : ∀ thread ∈ s.waits, thread.sessionGeneration ≤ s.nextSessionGeneration ∧
    ∀ session pid, s.sessions.lookup thread.sessionId = some session →
      session.generation = thread.sessionGeneration → session.killer = some pid →
      pid = thread.pid
  startsApart : (s.starts.map StartCall.sessionId).Nodup
  startIdle : ∀ call ∈ s.starts, ∀ session, s.sessions.lookup call.sessionId = some session →
    session.killer = none ∧ call.phase = .checked
  startSpawned : ∀ call ∈ s.starts, ∀ pid, call.phase = .spawned pid →
    ⟨pid, call.sessionId⟩ ∈ s.spawned
  startNoKill : ∀ call ∈ s.starts, ∀ kill ∈ s.kills, kill.sessionId ≠ call.sessionId
  killsApart : ∀ kill ∈ s.kills, ∀ kill' ∈ s.kills, kill.sessionId = kill'.sessionId → kill = kill'
  killRemoved : ∀ kill ∈ s.kills, s.sessions.lookup kill.sessionId = none
  killSpawned : ∀ kill ∈ s.kills, ⟨kill.pid, kill.sessionId⟩ ∈ s.spawned
  held : ∀ child, s.Runs child →
    (∃ session, s.sessions.lookup child.sessionId = some session ∧
      session.killer = some child.pid) ∨
    (∃ call ∈ s.starts, call.sessionId = child.sessionId ∧ call.phase = .spawned child.pid) ∨
    ∃ kill ∈ s.kills, kill = ⟨child.sessionId, child.pid⟩

variable {s s' : TerminalServer}

variable {child child' : ChildProcess} {sessionId operationId : String}
variable {session session' allotted : SessionRecord} {call : StartCall} {pid nextSeq : ℕ}
variable {cwd resized subbed : Except String Unit} {action : ServerAction}
variable {stream : InputStreamId}

theorem Tended.eq_of_pid (hs : s.Tended) (h : child ∈ s.spawned) (h' : child' ∈ s.spawned)
    (hpid : child.pid = child'.pid) : child = child' :=
  inj_on_of_nodup_map (hs.pids ▸ nodup_range) h h' hpid

/-- **One child a session.** -/
theorem Tended.one (hs : s.Tended) (h : s.Runs child) (h' : s.Runs child')
    (hid : child.sessionId = child'.sessionId) : child = child' := by
  refine hs.eq_of_pid h.1 h'.1 ?_
  rcases hs.held child h with ⟨session, hsess, hkiller⟩ | ⟨call, hcall, hcallId, hph⟩ |
    ⟨kill, hkill, rfl⟩
  · rw [hid] at hsess
    rcases hs.held child' h' with ⟨session', hsess', hkiller'⟩ | ⟨call', hcall', hcallId', -⟩ |
      ⟨kill', hkill', rfl⟩
    · rw [hsess] at hsess'
      rw [← some.inj hsess', hkiller] at hkiller'
      exact some.inj hkiller'
    · rw [← hcallId'] at hsess
      rw [(hs.startIdle call' hcall' session hsess).1] at hkiller
      cases hkiller
    · have hrem := hs.killRemoved _ hkill'
      rw [hsess] at hrem
      cases hrem
  · rcases hs.held child' h' with ⟨session', hsess', hkiller'⟩ |
      ⟨call', hcall', hcallId', hph'⟩ | ⟨kill', hkill', rfl⟩
    · rw [← hid, ← hcallId] at hsess'
      rw [(hs.startIdle call hcall session' hsess').1] at hkiller'
      cases hkiller'
    · have hsame : call = call' :=
        inj_on_of_nodup_map hs.startsApart hcall hcall' (by rw [hcallId, hcallId', hid])
      rw [hsame, hph'] at hph
      exact (spawned.inj hph).symm
    · exact absurd (hid.symm.trans hcallId.symm) (hs.startNoKill call hcall _ hkill')
  · rcases hs.held child' h' with ⟨session', hsess', hkiller'⟩ |
      ⟨call', hcall', hcallId', hph'⟩ | ⟨kill', hkill', rfl⟩
    · have hrem := hs.killRemoved _ hkill
      rw [hid, hsess'] at hrem
      cases hrem
    · exact absurd (hid.trans hcallId'.symm) (hs.startNoKill call' hcall' _ hkill)
    · exact congrArg KillCall.pid (hs.killsApart _ hkill _ hkill' hid)

/-- **Requests that leave the processes alone**: each session says what it
said. -/
theorem Tended.congr (hs : s.Tended) (hspawn : s'.spawned = s.spawned) (hended : s'.ended = s.ended)
    (hsts : s'.starts = s.starts) (hkills : s'.kills = s.kills) (hwaits : s'.waits = s.waits)
    (hnext : s'.nextSessionGeneration = s.nextSessionGeneration)
    (hsessions : ∀ id, (s'.sessions.lookup id).map process = (s.sessions.lookup id).map process) :
    s'.Tended := by
  have hback : ∀ {id : String} {session' : SessionRecord},
      s'.sessions.lookup id = some session' → ∃ session, s.sessions.lookup id = some session ∧
        session.generation = session'.generation ∧ session.killer = session'.killer ∧
        session.status = session'.status := fun {id session'} h => by
    have heq := hsessions id
    rw [h, map_some] at heq
    obtain ⟨session, hsess, hproc⟩ := map_eq_some_iff.1 heq.symm
    simp only [process, Prod.mk.injEq] at hproc
    exact ⟨session, hsess, hproc⟩
  refine ⟨hspawn ▸ hs.pids, fun id session' h hexited => ?_, fun id session' pid h hkiller => ?_,
    hwaits ▸ fun thread hthr => ⟨hnext ▸ (hs.waited thread hthr).1,
      fun session' pid h hgeneration hkiller => ?_⟩,
    hsts ▸ hs.startsApart, hsts ▸ fun call hcall session' h => ?_,
    hsts ▸ hspawn ▸ hs.startSpawned, hsts ▸ hkills ▸ hs.startNoKill, hkills ▸ hs.killsApart,
    hkills ▸ fun kill hkill => ?_, hkills ▸ hspawn ▸ hs.killSpawned, fun child hruns => ?_⟩
  · obtain ⟨session, hsess, -, hkiller, hstat⟩ := hback h
    rw [← hkiller]
    exact hs.exited id session hsess (hstat.trans hexited)
  · obtain ⟨session, hsess, -, hsame, -⟩ := hback h
    rw [hspawn]
    exact hs.recorded id session pid hsess (hsame.trans hkiller)
  · obtain ⟨session, hsess, hgen, hsame, -⟩ := hback h
    exact (hs.waited thread hthr).2 session pid hsess (hgen.trans hgeneration) (hsame.trans hkiller)
  · obtain ⟨session, hsess, -, hsame, -⟩ := hback h
    rw [← hsame]
    exact hs.startIdle call hcall session hsess
  · have heq := hsessions kill.sessionId
    rw [hs.killRemoved kill hkill, map_none] at heq
    exact map_eq_none_iff.1 heq
  · rw [Runs, hspawn, hended] at hruns
    rw [hsts, hkills]
    refine (hs.held child hruns).imp_left ?_
    rintro ⟨session, hsess, hkiller⟩
    have heq := hsessions child.sessionId
    rw [hsess, map_some] at heq
    obtain ⟨session', hsess', hproc⟩ := map_eq_some_iff.1 heq
    simp only [process, Prod.mk.injEq] at hproc
    exact ⟨session', hsess', hproc.2.1.trans hkiller⟩

/-- A session is put in the place of one that says the same. -/
theorem map_process_putSession (h : s.sessions.lookup sessionId = some session)
    (hproc : process session' = process session) (id : String) :
    ((s.putSession sessionId session').sessions.lookup id).map process =
      (s.sessions.lookup id).map process := by
  rw [putSession, lookup_insert_eq]
  split
  · next heq => rw [heq, h, map_some, map_some, hproc]
  · rfl

theorem Tended.putSession (hs : s.Tended) (h : s.sessions.lookup sessionId = some session)
    (hproc : process session' = process session) :
    (s.putSession sessionId session').Tended :=
  hs.congr rfl rfl rfl rfl rfl rfl (map_process_putSession h hproc)

/-- A new stream does not change the process. -/
theorem process_allocateInputStream (session : SessionRecord) (now : ℕ)
    (requested : Option InputStreamId) :
    process (session.allocateInputStream now requested).2 = process session ∧
      (session.allocateInputStream now requested).2.startOperations = session.startOperations := by
  rw [allocateInputStream]
  split
  · exact ⟨rfl, rfl⟩
  · split <;> exact ⟨rfl, rfl⟩

/-! ## Starts -/

section

variable {call other : StartCall} {starts : List StartCall}

theorem perm_cons_erase_map (hcall : call ∈ starts) : (starts.map StartCall.sessionId).Perm
      (call.sessionId :: (starts.erase call).map StartCall.sessionId) :=
  (perm_cons_erase hcall).map StartCall.sessionId

variable (h : (starts.map StartCall.sessionId).Nodup)
include h

/-- Of starts of sessions of their own, the others are of others. -/
theorem mem_of_mem_erase (hcall : call ∈ starts)
    (hne : other ∈ starts.erase call) : other ∈ starts ∧ other.sessionId ≠ call.sessionId := by
  refine ⟨List.mem_of_mem_erase hne, fun heq => ?_⟩
  have hnd := (perm_cons_erase_map hcall).nodup_iff.1 h
  rw [List.nodup_cons, ← heq] at hnd
  exact hnd.1 (List.mem_map_of_mem hne)

theorem nodup_erase (hcall : call ∈ starts) : ((starts.erase call).map StartCall.sessionId).Nodup :=
  (nodup_cons.1 ((perm_cons_erase_map hcall).nodup_iff.1 h)).2

/-- A start that goes on is the one of its session. -/
theorem nodup_erase_append {phase : StartPhase} (hcall : call ∈ starts) :
    ((starts.erase call ++ [{ call with phase }]).map StartCall.sessionId).Nodup := by
  have hnd := (perm_cons_erase_map hcall).nodup_iff.1 h
  rw [map_append]
  exact (perm_append_singleton _ _).nodup_iff.2 hnd

omit h

end

/-- **A start begins** where no session runs. -/
theorem Tended.begin (hs : s.Tended) (hapart : ∀ call ∈ s.starts, call.sessionId ≠ sessionId)
    (hkills : ∀ call ∈ s.kills, call.sessionId ≠ sessionId)
    (hidle : ∀ session, s.sessions.lookup sessionId = some session → session.killer = none) :
    Tended { s with starts := s.starts ++ [⟨sessionId, operationId, .checked⟩] } := by
  refine ⟨hs.pids, hs.exited, hs.recorded, hs.waited, ?_, fun call hcall => ?_,
    fun call hcall pid hph => ?_, fun call hcall kill hkill => ?_, hs.killsApart, hs.killRemoved,
    hs.killSpawned, fun child hruns => ?_⟩
  · rw [map_append]
    refine (perm_append_singleton _ _).nodup_iff.2 (nodup_cons.2 ⟨fun hmem => ?_, hs.startsApart⟩)
    obtain ⟨call, hcall, heq⟩ := mem_map.1 hmem
    exact hapart call hcall heq
  · rcases mem_concat.1 hcall with hcall | rfl
    · exact hs.startIdle call hcall
    · exact fun session h => ⟨hidle session h, rfl⟩
  · rcases mem_concat.1 hcall with hcall | rfl
    · exact hs.startSpawned call hcall pid hph
    · cases hph
  · rcases mem_concat.1 hcall with hcall | rfl
    · exact hs.startNoKill call hcall kill hkill
    · exact hkills kill hkill
  · refine (hs.held child hruns).imp_right (Or.imp_left ?_)
    rintro ⟨call, hcall, hrest⟩
    exact ⟨call, mem_append_left _ hcall, hrest⟩

/-- **A start removes** what its session left. -/
theorem Tended.remove (hs : s.Tended) (hcall : call ∈ s.starts) (hph : call.phase = .checked) :
    Tended { s with
      sessions := s.sessions.erase call.sessionId
      starts := s.starts.erase call ++ [{ call with phase := .removed }] } := by
  have hback : ∀ {id : String} {session : SessionRecord},
      (s.sessions.erase call.sessionId).lookup id = some session →
      s.sessions.lookup id = some session := lookup_of_lookup_erase
  refine ⟨hs.pids, fun id session h => hs.exited id session (hback h),
    fun id session pid h => hs.recorded id session pid (hback h),
    fun thread hthr => ⟨(hs.waited thread hthr).1, fun session pid h =>
      (hs.waited thread hthr).2 session pid (hback h)⟩,
    nodup_erase_append hs.startsApart hcall, fun other hne => ?_, fun other hne pid hspawn => ?_,
    fun other hne kill hkill => ?_, hs.killsApart, fun kill hkill => ?_, hs.killSpawned,
    fun child hruns => ?_⟩
  · rcases mem_concat.1 hne with hne | rfl
    · exact fun session h => hs.startIdle other (List.mem_of_mem_erase hne) session (hback h)
    · intro session h
      rw [lookup_erase_eq, if_pos rfl] at h
      cases h
  · rcases mem_concat.1 hne with hne | rfl
    · exact hs.startSpawned other (List.mem_of_mem_erase hne) pid hspawn
    · cases hspawn
  · rcases mem_concat.1 hne with hne | rfl
    · exact hs.startNoKill other (List.mem_of_mem_erase hne) kill hkill
    · exact hs.startNoKill call hcall kill hkill
  · rw [lookup_erase_eq]
    split
    · rfl
    · exact hs.killRemoved kill hkill
  · rcases hs.held child hruns with ⟨session, hsess, hkiller⟩ | ⟨other, hne, hid, hspawn⟩ | hkill
    · refine .inl ⟨session, ?_, hkiller⟩
      rw [lookup_erase_eq, if_neg, hsess]
      intro heq
      rw [heq] at hsess
      rw [(hs.startIdle call hcall session hsess).1] at hkiller
      cases hkiller
    · refine .inr (.inl ⟨other, List.mem_append_left _ (List.mem_erase_of_ne ?_ |>.2 hne), hid,
        hspawn⟩)
      rintro rfl
      rw [hph] at hspawn
      cases hspawn
    · exact .inr (.inr hkill)

/-- A start ends that has nothing to lose. -/
theorem Tended.giveUp (hs : s.Tended) (hcall : call ∈ s.starts)
    (hlost : ∀ pid, call.phase = .spawned pid → pid ∈ s.ended) :
    Tended { s with starts := s.starts.erase call } := by
  refine ⟨hs.pids, hs.exited, hs.recorded, hs.waited, nodup_erase hs.startsApart hcall,
    fun other hne => hs.startIdle other (List.mem_of_mem_erase hne),
    fun other hne => hs.startSpawned other (List.mem_of_mem_erase hne),
    fun other hne => hs.startNoKill other (List.mem_of_mem_erase hne), hs.killsApart,
    hs.killRemoved, hs.killSpawned, fun child hruns => ?_⟩
  refine (hs.held child hruns).imp_right (Or.imp_left ?_)
  rintro ⟨other, hne, hid, hspawn⟩
  refine ⟨other, List.mem_erase_of_ne ?_ |>.2 hne, hid, hspawn⟩
  rintro rfl
  exact hruns.2 (hlost _ hspawn)

/-- **A shell is spawned**, and is with its start. -/
theorem Tended.spawn (hs : s.Tended) (hcall : call ∈ s.starts) (hph : call.phase = .removed) :
    Tended { s with
      spawned := s.spawned ++ [⟨s.spawned.length, call.sessionId⟩]
      starts := s.starts.erase call ++ [{ call with phase := .spawned s.spawned.length }] } := by
  have hnone : s.sessions.lookup call.sessionId = none := by
    refine eq_none_iff_forall_ne_some.2 fun session hsess => ?_
    have hchecked := (hs.startIdle call hcall session hsess).2
    rw [hph] at hchecked
    cases hchecked
  have hmore : ∀ {child : ChildProcess}, child ∈ s.spawned →
      child ∈ s.spawned ++ [⟨s.spawned.length, call.sessionId⟩] := List.mem_append_left _
  refine ⟨?_, hs.exited, fun id session pid h hkiller =>
    hmore (hs.recorded id session pid h hkiller),
    hs.waited, nodup_erase_append hs.startsApart hcall, fun other hne => ?_,
    fun other hne pid hspawn => ?_, fun other hne kill hkill => ?_, hs.killsApart,
    hs.killRemoved, fun kill hkill => hmore (hs.killSpawned kill hkill), fun child hruns => ?_⟩
  · rw [List.map_append, hs.pids, List.length_append, List.length_singleton, List.range_succ]
    rfl
  · rcases mem_concat.1 hne with hne | rfl
    · exact hs.startIdle other (List.mem_of_mem_erase hne)
    · intro session h
      exact absurd (hnone.symm.trans h) nofun
  · rcases mem_concat.1 hne with hne | rfl
    · exact hmore (hs.startSpawned other (List.mem_of_mem_erase hne) pid hspawn)
    · rw [← spawned.inj hspawn]
      exact List.mem_concat_self
  · rcases mem_concat.1 hne with hne | rfl
    · exact hs.startNoKill other (List.mem_of_mem_erase hne) kill hkill
    · exact hs.startNoKill call hcall kill hkill
  · rcases mem_concat.1 hruns.1 with hch | rfl
    · refine (hs.held child ⟨hch, hruns.2⟩).imp_right (Or.imp_left ?_)
      rintro ⟨other, hne, hid, hspawn⟩
      refine ⟨other, List.mem_append_left _ (List.mem_erase_of_ne ?_ |>.2 hne), hid, hspawn⟩
      rintro rfl
      rw [hph] at hspawn
      cases hspawn
    · exact .inr (.inl ⟨_, List.mem_concat_self, rfl, rfl⟩)

/-- What a start records. -/
theorem recordSession_eq : s.recordSession sessionId operationId pid = { s with
      nextSessionGeneration := s.nextSessionGeneration + 1
      channels := s.channels.insert (s.nextSessionGeneration + 1) ⟨[], 0, true⟩
      sessions := s.sessions.insert sessionId
        { runningSession sessionId (s.nextSessionGeneration + 1) pid with
          inputStreams := (∅ : Assoc InputStreamId InputStreamState).insert
            ⟨s.nextSessionGeneration + 1, 1⟩ ⟨s.clock, 1⟩
          nextInputStreamId := 1
          startOperations := (∅ : Assoc String InputStreamId).insert operationId
            ⟨s.nextSessionGeneration + 1, 1⟩ }
      waits := s.waits ++ [⟨sessionId, s.nextSessionGeneration + 1, pid⟩]
      started := s.started ++ [⟨sessionId, operationId, s.nextSessionGeneration + 1,
        ⟨s.nextSessionGeneration + 1, 1⟩, 1⟩] } := by
  rw [recordSession]
  rfl

/-- **A start records its shell.** -/
theorem Tended.record (hs : s.Tended) (hcall : call ∈ s.starts) (hph : call.phase = .spawned pid) :
    (recordSession { s with starts := s.starts.erase call } call.sessionId call.operationId
      pid).Tended := by
  rw [recordSession_eq]
  have hold : ∀ {id : String} {session : SessionRecord} {made : SessionRecord},
      (s.sessions.insert call.sessionId made).lookup id = some session →
      (id = call.sessionId ∧ session = made) ∨
        (id ≠ call.sessionId ∧ s.sessions.lookup id = some session) := fun h => by
    rw [lookup_insert_eq] at h
    split at h
    · next heq => exact .inl ⟨heq, (some.inj h).symm⟩
    · next hne => exact .inr ⟨hne, h⟩
  refine ⟨hs.pids, fun id session h hexited => ?_, fun id session pid' h hkiller => ?_,
    fun thread hthr => ?_, nodup_erase hs.startsApart hcall, fun other hother session h => ?_,
    fun other hother => hs.startSpawned other (List.mem_of_mem_erase hother),
    fun other hother => hs.startNoKill other (List.mem_of_mem_erase hother), hs.killsApart,
    fun kill hkill => ?_, hs.killSpawned, fun child hruns => ?_⟩
  · rcases hold h with ⟨-, rfl⟩ | ⟨-, h⟩
    · cases hexited
    · exact hs.exited id session h hexited
  · rcases hold h with ⟨rfl, rfl⟩ | ⟨-, h⟩
    · rw [← some.inj hkiller]
      exact hs.startSpawned call hcall pid hph
    · exact hs.recorded id session pid' h hkiller
  · rcases mem_concat.1 hthr with hthr | rfl
    · obtain ⟨hle, hsame⟩ := hs.waited thread hthr
      refine ⟨hle.trans (Nat.le_succ _), fun session pid' h hgen hkiller => ?_⟩
      rcases hold h with ⟨-, rfl⟩ | ⟨-, h⟩
      · -- the gen is a new one
        have heq : s.nextSessionGeneration + 1 = thread.sessionGeneration := hgen
        omega
      · exact hsame session pid' h hgen hkiller
    · refine ⟨le_rfl, fun session pid' h hgen hkiller => ?_⟩
      rcases hold h with ⟨-, rfl⟩ | ⟨hne, -⟩
      · exact (some.inj hkiller).symm
      · exact absurd rfl hne
  · obtain ⟨hmem, hne⟩ := mem_of_mem_erase hs.startsApart hcall hother
    rcases hold h with ⟨heq, -⟩ | ⟨-, h⟩
    · exact absurd heq hne
    · exact hs.startIdle other hmem session h
  · rw [lookup_insert_eq, if_neg (hs.startNoKill call hcall kill hkill)]
    exact hs.killRemoved kill hkill
  · rcases hs.held child hruns with ⟨session, hsess, hkiller⟩ | ⟨other, hother, hid, hspawn⟩ | hkill
    · refine .inl ⟨session, ?_, hkiller⟩
      rw [lookup_insert_eq, if_neg, hsess]
      intro heq
      rw [heq] at hsess
      rw [(hs.startIdle call hcall session hsess).1] at hkiller
      cases hkiller
    · by_cases heq : other = call
      · rw [heq] at hid hspawn
        rw [hph] at hspawn
        have hpid := congrArg some (spawned.inj hspawn)
        exact .inl ⟨_, lookup_insert_eq.trans (if_pos hid.symm), hpid⟩
      · exact .inr (.inl ⟨other, List.mem_erase_of_ne heq |>.2 hother, hid, hspawn⟩)
    · exact .inr (.inr hkill)

/-! ## Kills and ends -/

variable (hs : s.Tended)
include hs

variable {kills : List KillCall}

/-- **Sessions are removed to be killed.** -/
theorem Tended.kill {sessions : Assoc String SessionRecord}
    (hsub : ∀ id session, sessions.lookup id = some session → s.sessions.lookup id = some session)
    (hkills : ∀ kill, kill ∈ kills ↔ ∃ session, s.sessions.lookup kill.sessionId = some session ∧
      session.killer = some kill.pid ∧ sessions.lookup kill.sessionId = none)
    (hheld : ∀ id session pid, s.sessions.lookup id = some session → session.killer = some pid →
      sessions.lookup id = some session ∨ sessions.lookup id = none) :
    Tended { s with sessions, kills := s.kills ++ kills } := by
  refine ⟨hs.pids, fun id session h => hs.exited id session (hsub id session h),
    fun id session pid h => hs.recorded id session pid (hsub id session h),
    fun thread hthr => ⟨(hs.waited thread hthr).1, fun session pid h =>
      (hs.waited thread hthr).2 session pid (hsub _ session h)⟩, hs.startsApart,
    fun call hcall session h => hs.startIdle call hcall session (hsub _ session h), hs.startSpawned,
    fun call hcall kill hkill => ?_, fun kill hkill kill' hkill' hid => ?_, fun kill hkill => ?_,
    fun kill hkill => ?_, fun child hruns => ?_⟩
  · rcases mem_append.1 hkill with hkill | hkill
    · exact hs.startNoKill call hcall kill hkill
    · obtain ⟨session, hsess, hkiller, -⟩ := (hkills kill).1 hkill
      intro hid
      rw [hid] at hsess
      rw [(hs.startIdle call hcall session hsess).1] at hkiller
      cases hkiller
  · -- a session that is being killed has no record any more
    rcases mem_append.1 hkill with hkill | hkill
    · rcases mem_append.1 hkill' with hkill' | hkill'
      · exact hs.killsApart kill hkill kill' hkill' hid
      · obtain ⟨session, hsess, -⟩ := (hkills kill').1 hkill'
        rw [← hid, hs.killRemoved kill hkill] at hsess
        cases hsess
    · obtain ⟨session, hsess, hkiller, -⟩ := (hkills kill).1 hkill
      rcases mem_append.1 hkill' with hkill' | hkill'
      · rw [hid, hs.killRemoved kill' hkill'] at hsess
        cases hsess
      · obtain ⟨session', hsess', hkiller', -⟩ := (hkills kill').1 hkill'
        rw [← hid, hsess] at hsess'
        rw [← some.inj hsess', hkiller] at hkiller'
        cases kill
        cases kill'
        cases hid
        cases hkiller'
        rfl
  · rcases mem_append.1 hkill with hkill | hkill
    · refine eq_none_iff_forall_ne_some.2 fun session h => ?_
      have hnone := hs.killRemoved kill hkill
      rw [hsub _ session h] at hnone
      cases hnone
    · obtain ⟨-, -, -, hnone⟩ := (hkills kill).1 hkill
      exact hnone
  · rcases mem_append.1 hkill with hkill | hkill
    · exact hs.killSpawned kill hkill
    · obtain ⟨session, hsess, hkiller, -⟩ := (hkills kill).1 hkill
      exact hs.recorded _ session _ hsess hkiller
  · rcases hs.held child hruns with ⟨session, hsess, hkiller⟩ | hcall | ⟨kill, hkill, heq⟩
    · rcases hheld _ session _ hsess hkiller with hkept | hgone
      · exact .inl ⟨session, hkept, hkiller⟩
      · exact .inr (.inr ⟨_, mem_append_right _
          ((hkills { child with }).2 ⟨session, hsess, hkiller, hgone⟩), rfl⟩)
    · exact .inr (.inl hcall)
    · exact .inr (.inr ⟨kill, mem_append_left _ hkill, heq⟩)

/-- A kill leaves the processes tended. -/
theorem Tended.killSession {gen : ℕ} : (s.killSession sessionId gen).Tended := by
  rw [TerminalServer.killSession]
  split
  · exact hs
  next session hsess =>
  split
  · exact hs
  refine hs.kill (fun _ _ => lookup_of_lookup_erase) (fun kill => ?_) fun id session pid h _ => ?_
  · rw [mem_toList, map_eq_some_iff]
    constructor
    · rintro ⟨pid, hpid, rfl⟩
      exact ⟨session, hsess, hpid, by rw [lookup_erase_eq, if_pos rfl]⟩
    · rintro ⟨other, hne, hkill, hnone⟩
      rw [lookup_erase_eq] at hnone
      split at hnone
      · next hid =>
        rw [hid, hsess] at hne
        rw [← some.inj hne] at hkill
        exact ⟨kill.pid, hkill, by rw [← hid]⟩
      · rw [hne] at hnone
        cases hnone
  · rw [lookup_erase_eq]
    split
    · exact .inr rfl
    · exact .inl h

/-- A shutdown leaves the processes tended. -/
theorem Tended.killAll : s.killAll.Tended := by
  refine hs.kill nofun (fun kill => ?_) fun _ _ _ _ _ => .inr rfl
  rw [mem_filterMap]
  constructor
  · rintro ⟨⟨id, session⟩, hmem, hkill⟩
    obtain ⟨pid, hpid, rfl⟩ := map_eq_some_iff.1 hkill
    exact ⟨session, mem_entries_iff.1 hmem, hpid, rfl⟩
  · rintro ⟨session, hsess, hkiller, -⟩
    exact ⟨⟨kill.sessionId, session⟩, mem_entries_iff.2 hsess,
      map_eq_some_iff.2 ⟨kill.pid, hkiller, rfl⟩⟩

/-- More children have ended. -/
theorem Tended.ends {ended : List ℕ}
    (hended : ∀ pid ∈ s.ended, pid ∈ ended) (hsub : ∀ kill ∈ kills, kill ∈ s.kills)
    (hkills : ∀ kill ∈ s.kills, kill ∈ kills ∨ kill.pid ∈ ended) :
    Tended { s with ended, kills } := by
  refine ⟨hs.pids, hs.exited, hs.recorded, hs.waited, hs.startsApart, hs.startIdle, hs.startSpawned,
    fun call hcall kill hkill => hs.startNoKill call hcall kill (hsub kill hkill),
    fun kill hkill kill' hkill' => hs.killsApart kill (hsub kill hkill) kill' (hsub kill' hkill'),
    fun kill hkill => hs.killRemoved kill (hsub kill hkill),
    fun kill hkill => hs.killSpawned kill (hsub kill hkill), fun child hruns => ?_⟩
  refine (hs.held child ⟨hruns.1, fun hmem => hruns.2 (hended _ hmem)⟩).imp_right (Or.imp_right ?_)
  rintro ⟨kill, hkill, rfl⟩
  rcases hkills _ hkill with hmem | hgone
  · exact ⟨_, hmem, rfl⟩
  · exact absurd hgone hruns.2

/-- **An exit is noticed** of a child that has ended. -/
theorem Tended.notice {thread : WaitThread} (hthr : thread ∈ s.waits)
    (hended : thread.pid ∈ s.ended) :
    Tended { s.waited thread with waits := s.waits.erase thread } := by
  have hfewer : Tended { s with waits := s.waits.erase thread } :=
    ⟨hs.pids, hs.exited, hs.recorded, fun other hne => hs.waited other
      (List.mem_of_mem_erase hne), hs.startsApart, hs.startIdle, hs.startSpawned, hs.startNoKill,
      hs.killsApart, hs.killRemoved, hs.killSpawned, hs.held⟩
  rw [TerminalServer.waited]
  split
  · exact hfewer
  next session hsess =>
  split
  · exact hfewer
  next hgeneration =>
  have hgeneration := not_ne_iff.1 hgeneration
  have hold : ∀ {id : String} {found : SessionRecord},
      (s.sessions.insert thread.sessionId session.markExited).lookup id = some found →
      (id = thread.sessionId ∧ found = session.markExited) ∨
        s.sessions.lookup id = some found := fun h => by
    rw [lookup_insert_eq] at h
    split at h
    · next heq => exact .inl ⟨heq, (some.inj h).symm⟩
    · exact .inr h
  refine ⟨hs.pids, fun id found h hexited => ?_, fun id found pid h hkiller => ?_,
    fun other hne => ⟨(hfewer.waited other hne).1, fun found pid h hgen hkiller => ?_⟩,
    hs.startsApart, fun call hcall found h => ?_, hs.startSpawned, hs.startNoKill, hs.killsApart,
    fun kill hkill => ?_, hs.killSpawned, fun child hruns => ?_⟩
  · rcases hold h with ⟨-, rfl⟩ | h
    · rfl
    · exact hs.exited id found h hexited
  · rcases hold h with ⟨-, rfl⟩ | h
    · cases hkiller
    · exact hs.recorded id found pid h hkiller
  · rcases hold h with ⟨-, rfl⟩ | h
    · cases hkiller
    · exact (hfewer.waited other hne).2 found pid h hgen hkiller
  · rcases hold h with ⟨heq, rfl⟩ | h
    · rw [← heq] at hsess
      exact ⟨rfl, (hs.startIdle call hcall session hsess).2⟩
    · exact hs.startIdle call hcall found h
  · dsimp only [TerminalServer.putSession]
    rw [lookup_insert_eq]
    split
    · next heq =>
      have hnone := hs.killRemoved kill hkill
      rw [heq, hsess] at hnone
      cases hnone
    · exact hs.killRemoved kill hkill
  · refine (hs.held child hruns).imp_left ?_
    rintro ⟨found, hfnd, hkiller⟩
    refine ⟨found, ?_, hkiller⟩
    dsimp only [TerminalServer.putSession]
    rw [lookup_insert_eq, if_neg, hfnd]
    intro heq
    rw [heq] at hfnd
    have hpid := (hs.waited thread hthr).2 found child.pid hfnd
      (by rw [hsess] at hfnd; exact some.inj hfnd ▸ hgeneration) hkiller
    exact hruns.2 (hpid ▸ hended)

omit hs

/-! ## Runs -/

/-- A write leaves the processes alone. -/
theorem writeSession_processes (params : SessionWriteParams) :
    ∃ sessions channels, (s.writeSession params).2 = { s with sessions, channels } ∧
      ∀ id, (sessions.lookup id).map process = (s.sessions.lookup id).map process ∧
        (sessions.lookup id).map startOperations = (s.sessions.lookup id).map startOperations := by
  have hput : ∀ {session session' : SessionRecord},
      s.sessions.lookup params.sessionId = some session → process session' = process session →
      session'.startOperations = session.startOperations → ∀ id,
      ((s.sessions.insert params.sessionId session').lookup id).map process =
        (s.sessions.lookup id).map process ∧
      ((s.sessions.insert params.sessionId session').lookup id).map startOperations =
        (s.sessions.lookup id).map startOperations :=
    fun {session session'} hsess hproc hops id => by
      refine ⟨map_process_putSession hsess hproc id, ?_⟩
      rw [lookup_insert_eq]
      split
      · next heq => rw [heq, hsess, map_some, map_some, hops]
      · rfl
  rcases s.writeSession_spec params with ⟨-, hsame | ⟨session, stream, hsess, -, hsame⟩⟩ |
    ⟨bytes, session, stream, -, hsess, -, -, ⟨-, heq⟩ | ⟨-, -, channels, heq, -⟩⟩
  · exact ⟨_, _, hsame, fun _ => ⟨rfl, rfl⟩⟩
  · exact ⟨_, _, hsame, hput hsess rfl rfl⟩
  · exact ⟨_, _, congrArg snd heq, hput hsess rfl rfl⟩
  · exact ⟨_, channels, heq, hput hsess rfl rfl⟩

/-- So does a start of a session that no call is about. -/
theorem Tended.startSession (hs : s.Tended) (hapart : ∀ call ∈ s.starts, call.sessionId ≠ sessionId)
    (hkills : ∀ call ∈ s.kills, call.sessionId ≠ sessionId) :
    (s.startSession sessionId operationId cwd resized subbed).Tended := by
  rcases @startSession_spec s sessionId operationId cwd resized subbed with heq |
    ⟨session, hsess, -, heq⟩ | ⟨session, stream, nextSeq, allotted, hsess, -, hallot, heq⟩ |
    ⟨hidle, heq⟩
  · exact heq.symm ▸ hs
  · rw [heq]
    exact hs.putSession hsess (process_allocateInputStream session _ _).1
  · rw [heq]
    obtain ⟨hproc, -⟩ := process_allocateInputStream session s.clock
      (session.startOperations.lookup operationId)
    rw [hallot] at hproc
    exact hs.congr rfl rfl rfl rfl rfl rfl (map_process_putSession hsess hproc)
  · rw [heq]
    exact hs.begin hapart hkills fun session h => hs.exited sessionId session h (hidle session h)

/-- **Threads that do not cross keep every process tended.** -/
theorem Tended.step (hs : s.Tended) (hcareful : s.Careful action)
    (hstep : s.serverStep action = some s') : s'.Tended := by
  cases action with
  | elapse millis =>
    exact some.inj hstep ▸ hs.congr rfl rfl rfl rfl rfl rfl fun _ => rfl
  | start sessionId operationId cwd resized subbed =>
    exact some.inj hstep ▸ hs.startSession hcareful.1 hcareful.2.1
  | startRemove call =>
    dsimp only [serverStep] at hstep
    split at hstep
    · next h => exact some.inj hstep ▸ hs.remove h.1 h.2
    · cases hstep
  | startSpawn call spawned =>
    dsimp only [serverStep] at hstep
    obtain ⟨h, hstep⟩ := ite_none_right_eq_some.1 hstep
    split at hstep
    · refine some.inj hstep ▸ hs.giveUp h.1 fun pid hph => ?_
      rw [h.2] at hph
      cases hph
    · exact some.inj hstep ▸ hs.spawn h.1 h.2
  | startRecord call opened =>
    dsimp only [serverStep] at hstep
    split at hstep
    · next pid hph =>
      obtain ⟨hcall, hstep⟩ := ite_none_right_eq_some.1 hstep
      split at hstep
      · refine some.inj hstep ▸ hs.giveUp hcall fun pid' hph' => ?_
        rcases hcareful with hok | ⟨ended, hended, hphase''⟩
        · cases hok
        · rw [hphase''] at hph'
          exact spawned.inj hph' ▸ hended
      · exact some.inj hstep ▸ hs.record hcall hph
    · cases hstep
  | attach sessionId gen requested subbed =>
    rw [← some.inj hstep, attachSession]
    split
    · exact hs
    next session hsess =>
    split
    · exact hs
    split
    · exact hs
    · exact hs.putSession hsess (process_allocateInputStream session s.clock requested).1
  | detach sessionId gen stream =>
    rw [← some.inj hstep, detachSession]
    split
    · exact hs
    next session hsess =>
    split
    · exact hs
    · exact hs.putSession hsess rfl
  | write params =>
    rw [← some.inj hstep]
    obtain ⟨sessions, channels, heq, hsame⟩ := @writeSession_processes s params
    rw [heq]
    exact hs.congr rfl rfl rfl rfl rfl rfl fun id => (hsame id).1
  | take gen written =>
    dsimp only [serverStep] at hstep
    split at hstep
    · cases hstep
    split at hstep
    · exact some.inj hstep ▸ hs.congr rfl rfl rfl rfl rfl rfl fun _ => rfl
    · cases hstep
  | kill sessionId gen => exact some.inj hstep ▸ hs.killSession
  | killed call result =>
    dsimp only [serverStep] at hstep
    obtain ⟨-, hstep⟩ := ite_none_right_eq_some.1 hstep
    rw [← some.inj hstep]
    refine hs.ends (fun pid hpid => ?_) (fun kill => List.mem_of_mem_erase) fun kill hkill => ?_
    · cases result with
      | error error => exact hpid
      | ok => exact List.mem_cons_of_mem _ hpid
    · by_cases heq : kill = call
      · rw [heq]
        refine .inr ?_
        cases result with
        | error error => exact hcareful.resolve_left (by rintro ⟨⟩)
        | ok => exact List.mem_cons_self
      · exact .inl (List.mem_erase_of_ne heq |>.2 hkill)
  | killAll => exact some.inj hstep ▸ hs.killAll
  | childEnds pid =>
    dsimp only [serverStep] at hstep
    split at hstep
    · exact some.inj hstep ▸ hs.ends (fun _ => List.mem_cons_of_mem _) (fun _ => id) fun _ => .inl
    · cases hstep
  | waited thread =>
    dsimp only [serverStep] at hstep
    split at hstep
    · next h => exact some.inj hstep ▸ hs.notice h.1 h.2
    · cases hstep

/-- There is no process at first. -/
theorem tended_init : init.Tended where
  pids := rfl
  exited := nofun
  recorded := nofun
  waited := nofun
  startsApart := nodup_nil
  startIdle := nofun
  startSpawned := nofun
  startNoKill := nofun
  killsApart := nofun
  killRemoved := nofun
  killSpawned := nofun
  held _ hruns := absurd hruns.1 not_mem_nil

/-! ## Starts that are repeated -/

/-- What is given is a stream of the session, the one that was asked for
if it is there and leased. -/
theorem allocateInputStream_ok {now : ℕ} {requested : Option InputStreamId}
    (h : session.allocateInputStream now requested = (.ok (stream, nextSeq), allotted)) :
    (allotted.inputStreams.lookup stream).isSome ∧
      ∀ id state, requested = some id → session.inputStreams.lookup id = some state →
        leased now state → stream = id := by
  rw [allocateInputStream] at h
  split at h
  · next id state hfnd =>
    obtain ⟨heq, rfl⟩ := Prod.mk.inj h
    obtain ⟨rfl, -⟩ := Prod.mk.inj (Except.ok.inj heq)
    obtain ⟨id', hrequested, hmap⟩ := bind_eq_some_iff.1 hfnd
    obtain ⟨_, -, heq⟩ := map_eq_some_iff.1 hmap
    refine ⟨by rw [lookup_insert_eq, if_pos rfl]; rfl, fun other _ hne _ _ => ?_⟩
    rw [hrequested] at hne
    exact (Prod.mk.inj heq).1.symm.trans (some.inj hne)
  · next hnone =>
    split at h
    · cases (Prod.mk.inj h).1
    · obtain ⟨heq, rfl⟩ := Prod.mk.inj h
      obtain ⟨rfl, -⟩ := Prod.mk.inj (Except.ok.inj heq)
      refine ⟨by rw [lookup_insert_eq, if_pos rfl]; rfl, fun other state hne hst hleased =>
        ?_⟩
      -- a stream that is asked for and leased would have been found
      rw [hne, bind_some, lookup_filterMapValues, hst, bind_some, if_pos hleased] at hnone
      cases hnone

/-- **A start is answered one way.** -/
structure Consistent (s : TerminalServer) : Prop where
  given : ∀ answer ∈ s.started, answer.inputStreamId.generation = answer.sessionGeneration ∧
    answer.sessionGeneration ≤ s.nextSessionGeneration
  operations : ∀ answer ∈ s.started, ∀ session,
    s.sessions.lookup answer.sessionId = some session →
    session.generation = answer.sessionGeneration →
    session.startOperations.lookup answer.operationId = some answer.inputStreamId
  begun : ∀ call ∈ s.starts, ∀ answer ∈ s.started, answer.sessionId = call.sessionId →
    answer.operationId ≠ call.operationId
  agree : ∀ answer ∈ s.started, ∀ answer' ∈ s.started, answer.sessionId = answer'.sessionId →
    answer.operationId = answer'.operationId →
    answer.sessionGeneration = answer'.sessionGeneration ∧
      answer.inputStreamId = answer'.inputStreamId

/-- Sessions are removed or keep their operations, and starts go on. -/
theorem Consistent.congr (hs : s.Consistent) (hstarted : s'.started = s.started)
    (hnext : s'.nextSessionGeneration = s.nextSessionGeneration)
    (hsts : ∀ call ∈ s'.starts, ∃ call' ∈ s.starts, call'.sessionId = call.sessionId ∧
      call'.operationId = call.operationId)
    (hsessions : ∀ id session', s'.sessions.lookup id = some session' → ∃ session,
      s.sessions.lookup id = some session ∧ session.generation = session'.generation ∧
        session.startOperations = session'.startOperations) : s'.Consistent := by
  refine ⟨hstarted ▸ hnext ▸ hs.given, hstarted ▸ fun answer hans session' h hgeneration => ?_,
    hstarted ▸ fun call hcall answer hans hid => ?_, hstarted ▸ hs.agree⟩
  · obtain ⟨session, hsess, hgen, hops⟩ := hsessions _ session' h
    rw [← hops]
    exact hs.operations answer hans session hsess (hgen.trans hgeneration)
  · obtain ⟨call', hcall', hid', hop⟩ := hsts call hcall
    rw [← hop]
    exact hs.begun call' hcall' answer hans (hid.trans hid'.symm)

/-- A session is put in the place of one with its operations. -/
theorem exists_operations_putSession (h : s.sessions.lookup sessionId = some session)
    (hgen : session'.generation = session.generation)
    (hops : session'.startOperations = session.startOperations) :
    ∀ id found', (s.putSession sessionId session').sessions.lookup id = some found' → ∃ found,
      s.sessions.lookup id = some found ∧ found.generation = found'.generation ∧
        found.startOperations = found'.startOperations := by
  intro id found' hfnd
  rw [putSession, lookup_insert_eq] at hfnd
  split at hfnd
  · next heq =>
    rw [heq, ← some.inj hfnd]
    exact ⟨session, h, hgen.symm, hops.symm⟩
  · exact ⟨found', hfnd, rfl, rfl⟩

/-- **A start is answered again** as it was before. -/
theorem Consistent.answer (hs : s.Consistent) (horder : s.InOrder)
    (hcareful : ∀ answer ∈ s.started, answer.sessionId = sessionId →
      answer.operationId = operationId → s.keepsStream sessionId answer.inputStreamId)
    (hsess : s.sessions.lookup sessionId = some session)
    (hallot : session.allocateInputStream s.clock (session.startOperations.lookup operationId) =
      (.ok (stream, nextSeq), allotted)) (hsts : ∀ call ∈ s.starts, call.sessionId ≠ sessionId) :
    Consistent { s.putSession sessionId { allotted with
        startOperations := allotted.startOperations.insert operationId stream } with
      started := s.started ++
        [⟨sessionId, operationId, session.generation, stream, nextSeq⟩] } := by
  have hallots := session.allocateInputStream_allots s.clock
    (session.startOperations.lookup operationId)
  obtain ⟨hproc, hops⟩ := process_allocateInputStream session s.clock
    (session.startOperations.lookup operationId)
  rw [hallot] at hallots hproc hops
  obtain ⟨hgiven, hasked⟩ := allocateInputStream_ok hallot
  have hgeneration : stream.generation = session.generation := by
    have horder' := horder.putSession hsess hallots
    obtain ⟨state, hst⟩ := isSome_iff_exists.1 hgiven
    have hget : (s.putSession sessionId allotted).sessions.lookup sessionId = some allotted := by
      rw [putSession, lookup_insert_eq, if_pos rfl]
    exact (horder'.streams _ _ _ _ hget hst).1.trans hallots.generation
  -- what was answered before was of this session, and its stream is given again
  have hsame : ∀ answer ∈ s.started, answer.sessionId = sessionId →
      answer.operationId = operationId → answer.sessionGeneration = session.generation ∧
        answer.inputStreamId = stream := fun answer hans hid hop => by
    have hkeeps := hcareful answer hans hid hop
    rw [keepsStream, hsess, any_some, Bool.and_eq_true] at hkeeps
    obtain ⟨hthere, hleased⟩ := (any_eq_true_iff_get _ _).1 hkeeps.2
    have hst := eq_some_of_isSome hthere
    have hgen := (horder.streams _ _ _ _ hsess hst).1.symm.trans (hs.given answer hans).1
    have hlooked := hs.operations answer hans session (hid ▸ hsess) hgen
    rw [hop] at hlooked
    exact ⟨hgen.symm, (hasked _ _ hlooked hst hleased).symm⟩
  refine ⟨fun answer hans => ?_, fun answer hans found h hfnd => ?_,
    fun call hcall answer hans hid => ?_, fun answer hans answer' hans' hid hop => ?_⟩
  · rcases mem_concat.1 hans with hans | rfl
    · exact hs.given answer hans
    · exact ⟨hgeneration, horder.generations _ _ hsess⟩
  · dsimp only [putSession] at h
    rw [lookup_insert_eq] at h
    rcases mem_concat.1 hans with hans | rfl
    · split at h
      · next hid =>
        rw [← some.inj h] at hfnd ⊢
        rw [lookup_insert_eq]
        split
        · next hop => rw [(hsame answer hans hid hop).2]
        · rw [hops]
          exact hs.operations answer hans session (hid ▸ hsess) (hallots.generation.symm.trans hfnd)
      · exact hs.operations answer hans found h hfnd
    · rw [if_pos rfl] at h
      rw [← some.inj h]
      rw [lookup_insert_eq, if_pos rfl]
  · rcases mem_concat.1 hans with hans | rfl
    · exact hs.begun call hcall answer hans hid
    · exact absurd hid.symm (hsts call hcall)
  · rcases mem_concat.1 hans with hans | rfl
    · rcases mem_concat.1 hans' with hans' | rfl
      · exact hs.agree answer hans answer' hans' hid hop
      · exact hsame answer hans hid hop
    · rcases mem_concat.1 hans' with hans' | rfl
      · obtain ⟨hgen, hstrm⟩ := hsame answer' hans' hid.symm hop.symm
        exact ⟨hgen.symm, hstrm.symm⟩
      · exact ⟨rfl, rfl⟩

/-- A start that records its shell is the first of its operation. -/
theorem Consistent.record (hs : s.Consistent) (htended : s.Tended) (hcall : call ∈ s.starts) :
    (recordSession { s with starts := s.starts.erase call } call.sessionId call.operationId
      pid).Consistent := by
  rw [recordSession_eq]
  refine ⟨fun answer hans => ?_, fun answer hans session h hgen => ?_,
    fun other hother answer hans hid => ?_,
    fun answer hans answer' hans' hid hop => ?_⟩
  · rcases mem_concat.1 hans with hans | rfl
    · exact ⟨(hs.given answer hans).1, (hs.given answer hans).2.trans (Nat.le_succ _)⟩
    · exact ⟨rfl, le_rfl⟩
  · rw [lookup_insert_eq] at h
    rcases mem_concat.1 hans with hans | rfl
    · split at h
      · -- the gen is a new one
        rw [← some.inj h] at hgen
        have heq : s.nextSessionGeneration + 1 = answer.sessionGeneration := hgen
        have := (hs.given answer hans).2
        omega
      · exact hs.operations answer hans session h hgen
    · rw [if_pos rfl] at h
      rw [← some.inj h]
      rw [lookup_insert_eq, if_pos rfl]
  · obtain ⟨hmem, hne⟩ := mem_of_mem_erase htended.startsApart hcall hother
    rcases mem_concat.1 hans with hans | rfl
    · exact hs.begun other hmem answer hans hid
    · exact absurd hid.symm hne
  · rcases mem_concat.1 hans with hans | rfl
    · rcases mem_concat.1 hans' with hans' | rfl
      · exact hs.agree answer hans answer' hans' hid hop
      · exact absurd hop (hs.begun call hcall answer hans hid)
    · rcases mem_concat.1 hans' with hans' | rfl
      · exact absurd hop.symm (hs.begun call hcall answer' hans' hid.symm)
      · exact ⟨rfl, rfl⟩

/-- A start answers as it did before, with the same stream. -/
theorem Consistent.startSession (hs : s.Consistent) (horder : s.InOrder)
    (hapart : ∀ call ∈ s.starts, call.sessionId ≠ sessionId)
    (hcareful : ∀ answer ∈ s.started, answer.sessionId = sessionId →
      answer.operationId = operationId → s.keepsStream sessionId answer.inputStreamId) :
    (s.startSession sessionId operationId cwd resized subbed).Consistent := by
  rcases @startSession_spec s sessionId operationId cwd resized subbed with heq |
    ⟨session, hsess, -, heq⟩ | ⟨session, stream, nextSeq, allotted, hsess, -, hallot, heq⟩ |
    ⟨hidle, heq⟩
  · exact heq.symm ▸ hs
  · rw [heq]
    obtain ⟨hproc, hops⟩ := process_allocateInputStream session s.clock
      (session.startOperations.lookup operationId)
    exact hs.congr rfl rfl (fun call hcall => ⟨call, hcall, rfl, rfl⟩)
      (exists_operations_putSession hsess (congrArg fst hproc) hops)
  · rw [heq]
    exact hs.answer horder hcareful hsess hallot hapart
  · rw [heq]
    refine { hs with begun := fun call hcall answer hans hid => ?_ }
    rcases mem_concat.1 hcall with hcall | rfl
    · exact hs.begun call hcall answer hans hid
    · intro hop
      have hkeeps := hcareful answer hans hid hop
      obtain ⟨hthere, hrun⟩ := (any_eq_true_iff_get _ _).1 hkeeps
      rw [hidle _ (eq_some_of_isSome hthere)] at hrun
      cases hrun

/-- Every careful step keeps the starts consistent. -/
theorem Consistent.step (hs : s.Consistent) (htended : s.Tended) (horder : s.InOrder)
    (hcareful : s.Careful action) (hstep : s.serverStep action = some s') :
    s'.Consistent := by
  have hcalls : ∀ call ∈ s.starts, ∃ call' ∈ s.starts, call'.sessionId = call.sessionId ∧
      call'.operationId = call.operationId := fun call hcall => ⟨call, hcall, rfl, rfl⟩
  -- a start that goes on is one that has begun
  have hgoes : ∀ {call : StartCall} {phase : StartPhase}, call ∈ s.starts →
      ∀ other ∈ s.starts.erase call ++ [{ call with phase }], ∃ call' ∈ s.starts,
        call'.sessionId = other.sessionId ∧ call'.operationId = other.operationId := by
    intro call phase hcall other hne
    rcases mem_concat.1 hne with hne | rfl
    · exact hcalls other (List.mem_of_mem_erase hne)
    · exact ⟨call, hcall, rfl, rfl⟩
  have hends : ∀ {call : StartCall}, ∀ other ∈ s.starts.erase call, ∃ call' ∈ s.starts,
      call'.sessionId = other.sessionId ∧ call'.operationId = other.operationId :=
    fun other hne => hcalls other (List.mem_of_mem_erase hne)
  have hsame : ∀ {sessions : Assoc String SessionRecord},
      (∀ id session, sessions.lookup id = some session → s.sessions.lookup id = some session) →
      ∀ id session', sessions.lookup id = some session' → ∃ session,
        s.sessions.lookup id = some session ∧ session.generation = session'.generation ∧
          session.startOperations = session'.startOperations :=
    fun hsub id session' h => ⟨session', hsub id session' h, rfl, rfl⟩
  cases action with
  | elapse millis => exact some.inj hstep ▸ hs.congr rfl rfl hcalls (hsame fun _ _ => id)
  | start sessionId operationId cwd resized subbed =>
    exact some.inj hstep ▸ hs.startSession horder hcareful.1 hcareful.2.2
  | startRemove call =>
    dsimp only [serverStep] at hstep
    split at hstep
    · next h =>
      exact some.inj hstep ▸ hs.congr rfl rfl (hgoes h.1) (hsame fun _ _ => lookup_of_lookup_erase)
    · cases hstep
  | startSpawn call spawned =>
    dsimp only [serverStep] at hstep
    obtain ⟨h, hstep⟩ := ite_none_right_eq_some.1 hstep
    split at hstep
    · exact some.inj hstep ▸ hs.congr rfl rfl hends (hsame fun _ _ => id)
    · exact some.inj hstep ▸ hs.congr rfl rfl (hgoes h.1) (hsame fun _ _ => id)
  | startRecord call opened =>
    dsimp only [serverStep] at hstep
    split at hstep
    · obtain ⟨hcall, hstep⟩ := ite_none_right_eq_some.1 hstep
      split at hstep
      · exact some.inj hstep ▸ hs.congr rfl rfl hends (hsame fun _ _ => id)
      · exact some.inj hstep ▸ hs.record htended hcall
    · cases hstep
  | attach sessionId gen requested subbed =>
    rw [← some.inj hstep, attachSession]
    split
    · exact hs
    next session hsess =>
    split
    · exact hs
    split
    · exact hs
    · obtain ⟨hproc, hops⟩ := process_allocateInputStream session s.clock requested
      exact hs.congr rfl rfl hcalls (exists_operations_putSession hsess (congrArg fst hproc) hops)
  | detach sessionId gen stream =>
    rw [← some.inj hstep, detachSession]
    split
    · exact hs
    next session hsess =>
    split
    · exact hs
    · exact hs.congr rfl rfl hcalls (exists_operations_putSession hsess rfl rfl)
  | write params =>
    rw [← some.inj hstep]
    obtain ⟨sessions, channels, heq, hkept⟩ := @writeSession_processes s params
    rw [heq]
    refine hs.congr rfl rfl hcalls fun id session' h => ?_
    obtain ⟨hproc, hops⟩ := hkept id
    rw [show sessions.lookup id = some session' from h] at hproc hops
    obtain ⟨session, hsess, heq⟩ := map_eq_some_iff.1 hops.symm
    rw [hsess] at hproc
    exact ⟨session, hsess, (congrArg fst (some.inj hproc)).symm, heq⟩
  | take gen written =>
    dsimp only [serverStep] at hstep
    split at hstep
    · cases hstep
    split at hstep
    · exact some.inj hstep ▸ hs.congr rfl rfl hcalls (hsame fun _ _ => id)
    · cases hstep
  | kill sessionId gen =>
    rw [← some.inj hstep, killSession]
    split
    · exact hs
    split
    · exact hs
    · exact hs.congr rfl rfl hcalls (hsame fun _ _ => lookup_of_lookup_erase)
  | killed | childEnds =>
    dsimp only [serverStep] at hstep
    split at hstep
    · exact some.inj hstep ▸ hs.congr rfl rfl hcalls (hsame fun _ _ => id)
    · cases hstep
  | killAll => exact some.inj hstep ▸ hs.congr rfl rfl hcalls (by rintro _ _ ⟨⟩)
  | waited thread =>
    dsimp only [serverStep] at hstep
    split at hstep
    · rw [← some.inj hstep, TerminalServer.waited]
      split
      · exact hs.congr rfl rfl hcalls (hsame fun _ _ => id)
      next session hsess =>
      split
      · exact hs.congr rfl rfl hcalls (hsame fun _ _ => id)
      · exact hs.congr rfl rfl hcalls (exists_operations_putSession hsess rfl rfl)
    · cases hstep

theorem consistent_init : init.Consistent where
  given := nofun
  operations := nofun
  begun := nofun
  agree := nofun

/-- Both hold in every reachable state. -/
theorem tended_of_reachable (hs : (serverMachine.restrict Careful).Reachable s) :
    s.Tended ∧ s.Consistent := by
  have hinit : init.Tended ∧ init.Consistent := ⟨tended_init, consistent_init⟩
  refine hs.rule (P := fun s => s.Tended ∧ s.Consistent) hinit
    fun s action s' hreach hinv hstep => ?_
  obtain ⟨hcareful, hstep⟩ := Machine.restrict_step_eq_some.1 hstep
  have horder := inOrder_of_reachable hreach.of_restrict
  exact ⟨hinv.1.step hcareful hstep, hinv.2.step hinv.1 horder hcareful hstep⟩

end TerminalServer

open TerminalServer

/-- **No terminal process is lost**, in runs whose threads do not cross:
each session has one child that runs; a child that runs is its session's,
once no start and no kill of the session is under way; and starts with one
session id and one operation are answered the same. -/
theorem no_process_lost {s : TerminalServer} (hs : (serverMachine.restrict Careful).Reachable s) :
    (∀ child child', s.Runs child → s.Runs child' → child.sessionId = child'.sessionId →
      child = child') ∧
    (∀ child, s.Runs child → (∃ session, s.sessions.lookup child.sessionId = some session ∧
        session.killer = some child.pid) ∨
      (∃ call ∈ s.starts, call.sessionId = child.sessionId ∧ call.phase = .spawned child.pid) ∨
      ∃ kill ∈ s.kills, kill = ⟨child.sessionId, child.pid⟩) ∧
    ∀ answer ∈ s.started, ∀ answer' ∈ s.started, answer.sessionId = answer'.sessionId →
      answer.operationId = answer'.operationId →
      answer.sessionGeneration = answer'.sessionGeneration ∧
        answer.inputStreamId = answer'.inputStreamId := by
  obtain ⟨htended, hconsistent⟩ := tended_of_reachable hs
  exact ⟨fun _ _ => htended.one, htended.held, hconsistent.agree⟩

/-- A start up to where it has spawned. -/
def startTerminal (pid : ℕ) : List ServerAction :=
  [.startRemove ⟨"terminal", "start", .checked⟩,
    .startSpawn ⟨"terminal", "start", .removed⟩ (.ok ()),
    .startRecord ⟨"terminal", "start", .spawned pid⟩ (.ok ())]

/-- A start of the terminal, up to the check. -/
def checkTerminal : ServerAction := .start "terminal" "start" (.ok ()) (.ok ()) (.ok ())

/-- A start that is repeated once it was answered. -/
def repeatedStart : List ServerAction := checkTerminal :: startTerminal 0 ++ [checkTerminal]

theorem no_process_lost_example : let s := (serverMachine.restrict Careful).run repeatedStart .init
    s.started.length = 2 ∧ ∀ answer ∈ s.started, ∀ answer' ∈ s.started,
      answer.sessionId = answer'.sessionId → answer.operationId = answer'.operationId →
      answer.sessionGeneration = answer'.sessionGeneration ∧
        answer.inputStreamId = answer'.inputStreamId :=
  ⟨by decide +kernel,
    (no_process_lost ⟨repeatedStart, Machine.exec_eq_run (by decide +kernel)⟩).2.2⟩

/-- Two starts with one operation, that both find no session. -/
def crossedStarts : List ServerAction :=
  [checkTerminal, checkTerminal] ++ startTerminal 0 ++ startTerminal 1

/-- **A shell that nothing holds**: of two starts with one operation, the
second takes the session of the first away, whose shell runs on without a
record, a start or a kill that knows of it, and answers with another
session. -/
theorem crossed_starts_lose_process : ∃ s, serverMachine.Reachable s ∧
      (∃ child ∈ s.spawned, child.pid ∉ s.ended ∧
        (s.sessions.lookup child.sessionId).bind SessionRecord.killer ≠ some child.pid ∧
        s.starts = [] ∧ s.kills = []) ∧
      (∃ child ∈ s.spawned, ∃ child' ∈ s.spawned, child.pid ∉ s.ended ∧ child'.pid ∉ s.ended ∧
        child.sessionId = child'.sessionId ∧ child ≠ child') ∧
      ∃ answer ∈ s.started, ∃ answer' ∈ s.started, answer.sessionId = answer'.sessionId ∧
        answer.operationId = answer'.operationId ∧
        answer.sessionGeneration ≠ answer'.sessionGeneration :=
  ⟨serverMachine.run crossedStarts .init,
    ⟨crossedStarts, Machine.exec_eq_run (by decide +kernel)⟩, by decide +kernel,
    by decide +kernel, by decide +kernel⟩

end Terminal

end Remux
