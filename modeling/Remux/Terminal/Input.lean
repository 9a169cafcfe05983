import Mathlib.Data.List.Range
import Remux.Common.Lists
import Remux.Terminal.Model.Server

/-!
# Terminal input is written once and in order

A write is accepted where its number is the next of its stream. So the
chunks accepted on a stream have the numbers from one on (`accepted`), what
is queued for the terminal is those chunks, and the next number of a stream
that is there counts them. A stream's id is never given out again, in its
session or in another. All other requests only drop streams or give out
new ones (`Allots`).
-/

namespace Remux

open Prod (fst snd)
open Nat

namespace Terminal

open Assoc InputStreamState Option List

/-! ## Streams given out -/

/-- Streams are dropped, or left with their next number, or new. -/
structure SessionRecord.Allots (session session' : SessionRecord) : Prop where
  generation : session'.generation = session.generation
  ids : session.nextInputStreamId ≤ session'.nextInputStreamId
  streams : ∀ id stream', session'.inputStreams.lookup id = some stream' →
    (∃ stream, session.inputStreams.lookup id = some stream ∧ stream.nextSeq = stream'.nextSeq) ∨
    (id.generation = session.generation ∧ session.nextInputStreamId < id.id ∧
      id.id ≤ session'.nextInputStreamId ∧ stream'.nextSeq = 1)

namespace SessionRecord

variable {session session' : SessionRecord}

theorem Allots.of_eq (hgen : session'.generation = session.generation)
    (hids : session'.nextInputStreamId = session.nextInputStreamId)
    (hstreams : session'.inputStreams = session.inputStreams) : session.Allots session' where
  generation := hgen
  ids := hids.ge
  streams _ stream' h := .inl ⟨stream', hstreams ▸ h, rfl⟩

variable {now : ℕ}

/-- A stream is seen. -/
theorem Allots.seen {id : InputStreamId} {stream : InputStreamState}
    (h : session.inputStreams.lookup id = some stream) :
    session.Allots { session with
      inputStreams := session.inputStreams.insert id { stream with lastSeen := now } } where
  generation := rfl
  ids := le_rfl
  streams id' stream' h' := by
    rw [lookup_insert_eq] at h'
    split at h'
    · next heq =>
      rw [heq, ← some.inj h']
      exact .inl ⟨stream, h, rfl⟩
    · exact .inl ⟨stream', h', rfl⟩

/-- **What is allotted**: the stream that was asked for and is still
leased, or a new one, or none for want of room. -/
theorem allocateInputStream_allots (session : SessionRecord) (now : ℕ)
    (requested : Option InputStreamId) :
    session.Allots (session.allocateInputStream now requested).2 := by
  have hretained : ∀ {id : InputStreamId} {stream : InputStreamState},
      (session.inputStreams.filterMapValues fun stream =>
        if leased now stream then some stream else none).lookup id = some stream →
      session.inputStreams.lookup id = some stream := fun h => by
    rw [lookup_filterMapValues, bind_eq_some_iff] at h
    obtain ⟨stream, hstrm, h⟩ := h
    split at h
    · rw [hstrm, h]
    · cases h
  rw [allocateInputStream]
  split
  · next id stream hfnd =>
    -- the stream is there
    obtain ⟨_, -, hfnd⟩ := bind_eq_some_iff.1 hfnd
    obtain ⟨_, hstrm, heq⟩ := map_eq_some_iff.1 hfnd
    cases heq
    refine ⟨rfl, le_rfl, fun id' stream' h' => .inl ?_⟩
    rw [lookup_insert_eq] at h'
    split at h'
    · next heq =>
      rw [heq, ← some.inj h']
      exact ⟨stream, hretained hstrm, rfl⟩
    · exact ⟨stream', hretained h', rfl⟩
  · split
    · exact ⟨rfl, le_rfl, fun id' stream' h' => .inl ⟨stream', hretained h', rfl⟩⟩
    · refine ⟨rfl, le_succ _, fun id' stream' h' => ?_⟩
      rw [lookup_insert_eq] at h'
      split at h'
      · next heq =>
        rw [heq, ← some.inj h']
        exact .inr ⟨rfl, lt_succ_self _, le_rfl, rfl⟩
      · exact .inl ⟨stream', hretained h', rfl⟩

end SessionRecord

/-! ## Chunks accepted and queued -/

/-- The number and the bytes of a write that was accepted on a stream. -/
def WriteCall.chunk (generation : ℕ) (stream : InputStreamId) (call : WriteCall) :
    Option (ℕ × List UInt8) :=
  match call.answer, call.params.data with
  | .ok answer, .ok bytes =>
    if answer.duplicate = false ∧ call.params.sessionGeneration = generation ∧
        call.params.inputStreamId = stream then some (call.params.inputSeq, bytes)
    else none
  | _, _ => none

namespace TerminalServer

variable {s s' : TerminalServer}

/-- **The chunks of a stream**: those of the writes that were accepted, a
retry of a chunk that was accepted before apart. -/
def accepted (s : TerminalServer) (generation : ℕ) (stream : InputStreamId) :
    List (ℕ × List UInt8) :=
  s.writes.filterMap (WriteCall.chunk generation stream)

/-- The bytes a channel was sent on a stream. -/
def channelBytes (channel : Option WriterChannel) (stream : InputStreamId) : List UInt8 :=
  (((channel.elim [] WriterChannel.queued).filter fun entry => entry.1 = stream).map snd).flatten

/-- **The bytes queued** for the terminal of a generation, on a stream. -/
def queuedFor (s : TerminalServer) (generation : ℕ) (stream : InputStreamId) : List UInt8 :=
  channelBytes (s.channels.lookup generation) stream

/-- **Input is in order.** -/
structure InOrder (s : TerminalServer) : Prop where
  generations : ∀ id session, s.sessions.lookup id = some session →
    session.generation ≤ s.nextSessionGeneration
  apart : ∀ id id' session session', s.sessions.lookup id = some session →
    s.sessions.lookup id' = some session' → session.generation = session'.generation → id = id'
  fresh : ∀ generation stream, s.nextSessionGeneration < generation →
    s.accepted generation stream = []
  unused : ∀ generation stream, s.nextSessionGeneration < generation →
    s.queuedFor generation stream = []
  streams : ∀ id session stream state, s.sessions.lookup id = some session →
    session.inputStreams.lookup stream = some state →
    stream.generation = session.generation ∧ stream.id ≤ session.nextInputStreamId ∧
      state.nextSeq = (s.accepted session.generation stream).length + 1
  unallotted : ∀ id session stream, s.sessions.lookup id = some session →
    stream.generation = session.generation → session.nextInputStreamId < stream.id →
    s.accepted session.generation stream = []
  numbered : ∀ generation stream, (s.accepted generation stream).map fst =
    List.range' 1 (s.accepted generation stream).length
  queued : ∀ generation stream, s.queuedFor generation stream =
    ((s.accepted generation stream).map snd).flatten
  answered : ∀ call ∈ s.writes, ∀ answer, call.answer = .ok answer →
    call.params.inputSeq ≤
      (s.accepted call.params.sessionGeneration call.params.inputStreamId).length ∧
    (call.params.inputSeq = 0 → answer.duplicate = true)

/-- **Requests that write nothing** drop streams or give out new ones. -/
theorem InOrder.allots (hs : s.InOrder) (hwrites : s'.writes = s.writes)
    (hnext : s'.nextSessionGeneration = s.nextSessionGeneration)
    (hqd : ∀ generation stream, s'.queuedFor generation stream = s.queuedFor generation stream)
    (hsess : ∀ id session', s'.sessions.lookup id = some session' →
      ∃ session, s.sessions.lookup id = some session ∧ session.Allots session') : s'.InOrder := by
  have hacc : ∀ generation stream,
      s'.accepted generation stream = s.accepted generation stream := fun generation stream => by
    rw [accepted, hwrites, accepted]
  refine ⟨fun id session' h' => ?_, fun id id' session' other' h' hne heq => ?_,
    fun generation stream h => ?_, fun generation stream h => ?_,
    fun id session' stream state h' hst => ?_, fun id session' stream h' hgeneration hid => ?_,
    fun generation stream => ?_, fun generation stream => ?_, ?_⟩
  · obtain ⟨session, h, hallots⟩ := hsess id session' h'
    rw [hallots.generation, hnext]
    exact hs.generations id session h
  · obtain ⟨session, h, hallots⟩ := hsess id session' h'
    obtain ⟨other, hne, hallots'⟩ := hsess id' other' hne
    rw [hallots.generation, hallots'.generation] at heq
    exact hs.apart id id' session other h hne heq
  · rw [hacc]
    exact hs.fresh generation stream (hnext ▸ h)
  · rw [hqd]
    exact hs.unused generation stream (hnext ▸ h)
  · obtain ⟨session, h, hallots⟩ := hsess id session' h'
    rw [hacc, hallots.generation]
    rcases hallots.streams stream state hst with ⟨old, hold, hnextSeq⟩ | ⟨hgen, hlow, hhigh, hone⟩
    · obtain ⟨hgen, hid, hcnt⟩ := hs.streams id session stream old h hold
      exact ⟨hgen, hid.trans hallots.ids, hnextSeq ▸ hcnt⟩
    · rw [hs.unallotted id session stream h hgen hlow]
      exact ⟨hgen, hhigh, hone⟩
  · obtain ⟨session, h, hallots⟩ := hsess id session' h'
    rw [hallots.generation] at hgeneration
    rw [hacc, hallots.generation]
    exact hs.unallotted id session stream h hgeneration (hallots.ids.trans_lt hid)
  · rw [hacc]
    exact hs.numbered generation stream
  · rw [hacc, hqd]
    exact hs.queued generation stream
  · rw [hwrites]
    intro call hcall answer hans
    rw [hacc]
    exact hs.answered call hcall answer hans

variable {sid : String} {session session' : SessionRecord} {channel sent : WriterChannel}
variable {stream : InputStreamId} {bytes : List UInt8} {params : SessionWriteParams}
variable {call : WriteCall} {generation : ℕ}

/-- One session is put in the place of one whose streams it has. -/
theorem exists_allots_putSession (h : s.sessions.lookup sid = some session)
    (hallots : session.Allots session') :
    ∀ id other', (s.putSession sid session').sessions.lookup id = some other' →
      ∃ other, s.sessions.lookup id = some other ∧ other.Allots other' := by
  intro id other' hne
  rw [putSession, lookup_insert_eq] at hne
  split at hne
  · next heq =>
    rw [heq, ← some.inj hne]
    exact ⟨session, h, hallots⟩
  · exact ⟨other', hne, .of_eq rfl rfl rfl⟩

theorem InOrder.putSession (hs : s.InOrder) (h : s.sessions.lookup sid = some session)
    (hallots : session.Allots session') : (s.putSession sid session').InOrder :=
  hs.allots rfl rfl (fun _ _ => rfl) (exists_allots_putSession h hallots)

theorem lookup_of_lookup_erase {sessions : Assoc String SessionRecord} {id : String}
    (h : (sessions.erase sid).lookup id = some session) :
    sessions.lookup id = some session := by
  rw [lookup_erase_eq] at h
  split at h
  · cases h
  · exact h

/-! ## Starts -/

/-- What is queued does not change where no channel does, but for one of
a generation that had none. -/
theorem queuedFor_insert_new {generation generation' : ℕ} {stream : InputStreamId}
    (h : s.queuedFor generation stream = []) :
    queuedFor { s with channels := s.channels.insert generation ⟨[], 0, true⟩ } generation' stream =
      s.queuedFor generation' stream := by
  rw [queuedFor]
  rw [lookup_insert_eq]
  split
  · next heq =>
    rw [heq, h]
    rfl
  · rfl

/-- **A start records a session** of a generation of its own. -/
theorem InOrder.recordSession {opId : String} {pid : ℕ} (hs : s.InOrder) :
    (s.recordSession sid opId pid).InOrder := by
  have hnew := fun stream => hs.unused (s.nextSessionGeneration + 1) stream (lt_succ_self _)
  have hqd := fun generation stream =>
    @queuedFor_insert_new s (s.nextSessionGeneration + 1) generation stream (hnew stream)
  rw [TerminalServer.recordSession]
  -- what is there under an id is the new session or was there before
  have hold : ∀ {id : String} {session : SessionRecord},
      (s.sessions.insert sid { runningSession sid (s.nextSessionGeneration + 1) pid with
        inputStreams := (∅ : Assoc InputStreamId InputStreamState).insert
          ⟨s.nextSessionGeneration + 1, 1⟩ ⟨s.clock, 1⟩
        nextInputStreamId := 1
        startOperations := (∅ : Assoc String InputStreamId).insert opId
          ⟨s.nextSessionGeneration + 1, 1⟩ }).lookup id = some session →
      (id = sid ∧ session.generation = s.nextSessionGeneration + 1 ∧ session.nextInputStreamId = 1 ∧
        session.inputStreams = (∅ : Assoc InputStreamId InputStreamState).insert
          ⟨s.nextSessionGeneration + 1, 1⟩ ⟨s.clock, 1⟩) ∨
      s.sessions.lookup id = some session := fun h => by
    rw [lookup_insert_eq] at h
    split at h
    · next heq =>
      rw [← some.inj h]
      exact .inl ⟨heq, rfl, rfl, rfl⟩
    · exact .inr h
  have hfresh := fun stream => hs.fresh (s.nextSessionGeneration + 1) stream (lt_succ_self _)
  refine ⟨fun id session h => ?_, fun id id' session session' h h' heq => ?_,
    fun generation stream h => hs.fresh generation stream ((lt_succ_self _).trans h),
    fun generation stream h => ?_, fun id session stream state h hst => ?_,
    fun id session stream h hgeneration hid => ?_, hs.numbered, fun generation stream => ?_,
    hs.answered⟩
  · rcases hold h with ⟨-, hgen, -⟩ | h
    · exact hgen.le
    · exact (hs.generations id session h).trans (le_succ _)
  · -- a generation before is no greater than the count of them
    rcases hold h with ⟨hid, hgen, -⟩ | h
    · rcases hold h' with ⟨hid', -⟩ | h'
      · rw [hid, hid']
      · have := hs.generations id' session' h'
        omega
    · rcases hold h' with ⟨hid', hgen', -⟩ | h'
      · have := hs.generations id session h
        omega
      · exact hs.apart id id' session session' h h' heq
  · exact (hqd generation stream).trans (hs.unused generation stream ((lt_succ_self _).trans h))
  · rcases hold h with ⟨-, hgen, hnext, hstreams⟩ | h
    · rw [hstreams, lookup_insert_eq] at hst
      obtain ⟨heq, hst⟩ := ite_none_right_eq_some.1 hst
      rw [hgen, hnext, heq, ← some.inj hst]
      exact ⟨rfl, le_rfl, (congrArg (length · + 1) (hfresh _)).symm⟩
    · exact hs.streams id session stream state h hst
  · rcases hold h with ⟨-, hgen, -⟩ | h
    · rw [hgen]
      exact hfresh stream
    · exact hs.unallotted id session stream h hgeneration hid
  · exact (hqd generation stream).trans (hs.queued generation stream)

/-! ## Writes -/

/-- What is sent is the last that is queued. -/
theorem queued_of_trySend (h : channel.trySend stream bytes = .ok sent) :
    sent.queued = channel.queued ++ [(stream, bytes)] := by
  rw [WriterChannel.trySend] at h
  split at h
  · cases h
  split at h
  · cases h
  · rw [← Except.ok.inj h]

/-- What is sent is appended to its stream. -/
theorem channelBytes_of_trySend {id : InputStreamId} (h : channel.trySend stream bytes = .ok sent) :
    channelBytes (some sent) id =
      channelBytes (some channel) id ++ if id = stream then bytes else [] := by
  rw [channelBytes, elim_some, queued_of_trySend h, filter_append, map_append, flatten_append]
  refine congrArg (_ ++ ·) ?_
  by_cases heq : id = stream
  · rw [if_pos heq, filter_cons_of_pos (by simp [heq])]
    simp
  · rw [if_neg heq, filter_cons_of_neg (by simpa using fun h => heq h.symm)]
    rfl

/-- The stream of a write is seen, and nothing else changes. -/
def seen (s : TerminalServer) (params : SessionWriteParams) (session : SessionRecord)
    (stream : InputStreamState) : TerminalServer :=
  s.putSession params.sessionId { session with
    inputStreams := session.inputStreams.insert params.inputStreamId
      { stream with lastSeen := s.clock } }

/-- The write of a stream that comes next is taken, and its bytes are the
last that are queued. -/
def Takes (s : TerminalServer) (params : SessionWriteParams) (session : SessionRecord)
    (stream : InputStreamState) (bytes : List UInt8) (s' : TerminalServer) : Prop :=
  ∃ channels, s' = { s.putSession params.sessionId { session with
      inputStreams := session.inputStreams.insert params.inputStreamId
        ⟨s.clock, stream.nextSeq + 1⟩ } with channels } ∧
    ∀ generation id, channelBytes (channels.lookup generation) id = s.queuedFor generation id ++
        if generation = session.generation ∧ id = params.inputStreamId then bytes else []

/-- A write that is next fails, or is taken. -/
theorem writeNext_spec (s : TerminalServer) (params : SessionWriteParams)
    (session : SessionRecord) (stream : InputStreamState) (bytes : List UInt8) :
    ((∃ error, (s.writeNext params session stream bytes).1 = .error error) ∧
      (s.writeNext params session stream bytes).2 = s.seen params session stream) ∨
    ((s.writeNext params session stream bytes).1 =
        .ok ⟨params.inputSeq, false, stream.nextSeq + 1, session.generation⟩ ∧
      s.Takes params session stream bytes (s.writeNext params session stream bytes).2) := by
  rw [writeNext]
  split
  · next channel _ hchannel =>
    split
    · next hnil =>
      -- nothing is sent for an empty chunk
      refine .inr ⟨rfl, s.channels, rfl, fun generation id => ?_⟩
      rw [hnil, ite_self, append_nil]
      rfl
    · split
      · exact .inl ⟨⟨_, rfl⟩, rfl⟩
      · exact .inl ⟨⟨_, rfl⟩, rfl⟩
      · next sent hsent =>
        refine .inr ⟨rfl, s.channels.insert session.generation sent, rfl, fun generation id => ?_⟩
        rw [lookup_insert_eq]
        split
        · next heq =>
          rw [channelBytes_of_trySend hsent, queuedFor, heq, hchannel]
          simp
        · next hne =>
          rw [if_neg (fun h => hne h.1), append_nil]
          rfl
  · exact .inl ⟨⟨_, rfl⟩, rfl⟩

/-- **What a write can do**: it is refused, and changes no more than when
its stream was seen, or it names its session and its stream, and is a
duplicate or the next of its stream. -/
theorem writeSession_spec (s : TerminalServer) (params : SessionWriteParams) :
    ((∃ error, (s.writeSession params).1 = .error error) ∧
      ((s.writeSession params).2 = s ∨ ∃ session stream,
        s.sessions.lookup params.sessionId = some session ∧
        session.inputStreams.lookup params.inputStreamId = some stream ∧
        (s.writeSession params).2 = s.seen params session stream)) ∨
    (∃ bytes session stream, params.data = .ok bytes ∧
      s.sessions.lookup params.sessionId = some session ∧
      params.sessionGeneration = session.generation ∧
      session.inputStreams.lookup params.inputStreamId = some stream ∧
      ((params.inputSeq < stream.nextSeq ∧ s.writeSession params =
          (.ok ⟨params.inputSeq, true, stream.nextSeq, session.generation⟩,
            s.seen params session stream)) ∨
      (params.inputSeq = stream.nextSeq ∧ (s.writeSession params).1 =
          .ok ⟨params.inputSeq, false, stream.nextSeq + 1, session.generation⟩ ∧
        s.Takes params session stream bytes (s.writeSession params).2))) := by
  rw [writeSession]
  split
  · exact .inl ⟨⟨_, rfl⟩, .inl rfl⟩
  next bytes hbytes =>
  split
  · exact .inl ⟨⟨_, rfl⟩, .inl rfl⟩
  split
  · exact .inl ⟨⟨_, rfl⟩, .inl rfl⟩
  next session hsess =>
  split
  · exact .inl ⟨⟨_, rfl⟩, .inl rfl⟩
  next hgen =>
  split
  · exact .inl ⟨⟨_, rfl⟩, .inl rfl⟩
  next stream hstrm =>
  split
  · next hlt =>
    exact .inr ⟨bytes, session, stream, hbytes, hsess, not_ne_iff.1 hgen, hstrm, .inl ⟨hlt, rfl⟩⟩
  next hge =>
  split
  · exact .inl ⟨⟨_, rfl⟩, .inr ⟨session, stream, hsess, hstrm, rfl⟩⟩
  next hle =>
  have heq : params.inputSeq = stream.nextSeq := by omega
  rcases s.writeNext_spec params session stream bytes with ⟨herror, hseen⟩ | ⟨hok, htakes⟩
  · exact .inl ⟨herror, .inr ⟨session, stream, hsess, hstrm, hseen⟩⟩
  · exact .inr ⟨bytes, session, stream, hbytes, hsess, not_ne_iff.1 hgen, hstrm,
      .inr ⟨heq, hok, htakes⟩⟩

theorem InOrder.seen {stream : InputStreamState} (hs : s.InOrder)
    (h : s.sessions.lookup params.sessionId = some session)
    (hstrm : session.inputStreams.lookup params.inputStreamId = some stream) :
    (s.seen params session stream).InOrder :=
  hs.putSession h (SessionRecord.Allots.seen hstrm)

theorem accepted_append : accepted { s with writes := s.writes ++ [call] } generation stream =
      s.accepted generation stream ++ (call.chunk generation stream).toList := by
  rw [accepted, filterMap_append, accepted]
  refine congrArg (_ ++ ·) ?_
  cases h : call.chunk generation stream <;> simp [h]

/-- **A write that queues nothing** is told of a chunk that was queued
before, if of any. -/
theorem InOrder.told (hs : s.InOrder)
    (hchk : ∀ generation stream, call.chunk generation stream = none)
    (htold : ∀ answer, call.answer = .ok answer → call.params.inputSeq ≤
        (s.accepted call.params.sessionGeneration call.params.inputStreamId).length ∧
      (call.params.inputSeq = 0 → answer.duplicate = true)) :
    InOrder { s with writes := s.writes ++ [call] } := by
  have hacc : ∀ generation stream,
      accepted { s with writes := s.writes ++ [call] } generation stream =
        s.accepted generation stream := fun generation stream => by
    rw [accepted_append, hchk, toList_none, append_nil]
  refine ⟨hs.generations, hs.apart, fun generation stream h => ?_, hs.unused,
    fun id session stream state h hst => ?_, fun id session stream h hgen hid => ?_,
    fun generation stream => ?_, fun generation stream => ?_, fun other hne answer hok => ?_⟩
  · rw [hacc]
    exact hs.fresh generation stream h
  · rw [hacc]
    exact hs.streams id session stream state h hst
  · rw [hacc]
    exact hs.unallotted id session stream h hgen hid
  · rw [hacc]
    exact hs.numbered generation stream
  · rw [hacc]
    exact hs.queued generation stream
  · rw [hacc]
    rcases mem_concat.1 hne with hne | rfl
    · exact hs.answered other hne answer hok
    · exact htold answer hok

/-- **A chunk that comes next** is queued after those before it. -/
theorem InOrder.takes {stream : InputStreamState} (hs : s.InOrder) (hdata : params.data = .ok bytes)
    (hsess : s.sessions.lookup params.sessionId = some session)
    (hgeneration : params.sessionGeneration = session.generation)
    (hstrm : session.inputStreams.lookup params.inputStreamId = some stream)
    (hseq : params.inputSeq = stream.nextSeq) (htakes : s.Takes params session stream bytes s') :
    InOrder { s' with writes := s.writes ++ [⟨params,
      .ok ⟨params.inputSeq, false, stream.nextSeq + 1, session.generation⟩⟩] } := by
  obtain ⟨channels, rfl, hqd⟩ := htakes
  obtain ⟨hgen, hid, hcnt⟩ := hs.streams _ _ _ _ hsess hstrm
  have hlive := hs.generations _ _ hsess
  generalize hcall : WriteCall.mk params
    (.ok ⟨params.inputSeq, false, stream.nextSeq + 1, session.generation⟩) = call
  have hchk : ∀ generation id, call.chunk generation id =
      if generation = session.generation ∧ id = params.inputStreamId then
        some (params.inputSeq, bytes) else none := fun generation id => by
    rw [← hcall, WriteCall.chunk, hdata]
    simp [hgeneration, eq_comm]
  have hacc : ∀ generation id, accepted { s with writes := s.writes ++ [call] } generation id =
        s.accepted generation id ++
          if generation = session.generation ∧ id = params.inputStreamId then
            [(params.inputSeq, bytes)] else [] := fun generation id => by
    rw [accepted_append, hchk]
    split <;> rfl
  have hother : ∀ {generation : ℕ} {id : InputStreamId},
      ¬ (generation = session.generation ∧ id = params.inputStreamId) →
      accepted { s with writes := s.writes ++ [call] } generation id =
        s.accepted generation id := fun h => by
    rw [hacc, if_neg h, append_nil]
  have hsame : accepted { s with writes := s.writes ++ [call] } session.generation
      params.inputStreamId = s.accepted session.generation params.inputStreamId ++
        [(params.inputSeq, bytes)] := by
    rw [hacc, if_pos ⟨rfl, rfl⟩]
  have hold : ∀ {id : String} {found : SessionRecord},
      (s.sessions.insert params.sessionId { session with
        inputStreams := session.inputStreams.insert params.inputStreamId
          ⟨s.clock, stream.nextSeq + 1⟩ }).lookup id = some found →
      (id = params.sessionId ∧ found = { session with
        inputStreams := session.inputStreams.insert params.inputStreamId
          ⟨s.clock, stream.nextSeq + 1⟩ }) ∨
      (s.sessions.lookup id = some found ∧ found.generation ≠ session.generation) := by
    intro id found h
    rw [lookup_insert_eq] at h
    split at h
    · next heq => exact .inl ⟨heq, (some.inj h).symm⟩
    · next hne => exact .inr ⟨h, fun heq => hne (hs.apart _ _ _ _ h hsess heq)⟩
  refine ⟨fun id found h => ?_, fun id id' found found' h h' heq => ?_,
    fun generation id h => ?_, fun generation id h => ?_, fun id found id' state h hst => ?_,
    fun id found id' h hgeneration hlt => ?_, fun generation id => ?_, fun generation id => ?_,
    fun other hmem answer hok => ?_⟩
  · rcases hold h with ⟨-, rfl⟩ | ⟨h, -⟩
    · exact hlive
    · exact hs.generations id found h
  · rcases hold h with ⟨rfl, rfl⟩ | ⟨h, hne⟩
    · rcases hold h' with ⟨rfl, -⟩ | ⟨-, hne'⟩
      · rfl
      · exact absurd heq.symm hne'
    · rcases hold h' with ⟨rfl, rfl⟩ | ⟨h', -⟩
      · exact absurd heq hne
      · exact hs.apart id id' found found' h h' heq
  · refine (hother fun hsame => ?_).trans (hs.fresh generation id h)
    rw [hsame.1] at h
    exact absurd hlive (Nat.not_le.2 h)
  · refine (hqd generation id).trans ?_
    rw [if_neg, append_nil]
    · exact hs.unused generation id h
    · rintro ⟨rfl, -⟩
      exact absurd hlive (Nat.not_le.2 h)
  · rcases hold h with ⟨-, rfl⟩ | ⟨h, hne⟩
    · rw [lookup_insert_eq] at hst
      split at hst
      · next heq =>
        rw [heq, ← some.inj hst]
        refine ⟨hgen, hid, ?_⟩
        refine Eq.trans ?_ (congrArg (length · + 1) hsame.symm)
        rw [length_append, length_singleton, ← hcnt]
      · next hne =>
        obtain ⟨hgen', hid', hcnt'⟩ := hs.streams _ _ _ _ hsess hst
        exact ⟨hgen', hid', hcnt'.trans (congrArg (length · + 1) (hother fun h => hne h.2).symm)⟩
    · obtain ⟨hgen', hid', hcnt'⟩ := hs.streams _ _ _ _ h hst
      exact ⟨hgen', hid', hcnt'.trans (congrArg (length · + 1) (hother fun h => hne h.1).symm)⟩
  · rcases hold h with ⟨-, rfl⟩ | ⟨h, hne⟩
    · have hnone := hs.unallotted _ session _ hsess hgeneration hlt
      refine (hother fun h => ?_).trans hnone
      rw [h.2] at hlt
      exact absurd hid (Nat.not_le.2 hlt)
    · exact (hother fun h => hne h.1).trans (hs.unallotted _ _ _ h hgeneration hlt)
  · by_cases h : generation = session.generation ∧ id = params.inputStreamId
    · obtain ⟨rfl, rfl⟩ := h
      refine (congrArg (map fst) hsame).trans (Eq.trans ?_
        (congrArg (fun chunks => range' 1 chunks.length) hsame.symm))
      rw [map_append, hs.numbered, length_append, length_singleton,
        range'_1_concat, hseq, hcnt, Nat.add_comm 1]
      rfl
    · refine (congrArg (map fst) (hother h)).trans (Eq.trans (hs.numbered _ _) ?_)
      exact congrArg (fun chunks => range' 1 chunks.length) (hother h).symm
  · refine (hqd generation id).trans (Eq.trans ?_ (congrArg (fun chunks => (chunks.map snd).flatten)
        (hacc generation id).symm))
    rw [map_append, flatten_append, hs.queued]
    split <;> simp
  · have hle : ∀ generation id, (s.accepted generation id).length ≤
        (accepted { s with writes := s.writes ++ [call] } generation id).length :=
      fun generation id => by
        rw [hacc, length_append]
        exact Nat.le_add_right _ _
    rcases mem_concat.1 hmem with hmem | hmem
    · exact (hs.answered other hmem answer hok).imp_left fun h => h.trans (hle _ _)
    · have hparams : other.params = params := by rw [hmem, ← hcall]
      rw [hparams, hgeneration]
      refine ⟨le_of_eq (Eq.trans ?_ (congrArg length hsame).symm), fun hzero => ?_⟩
      · rw [length_append, hseq, hcnt]
        rfl
      · -- streams begin at one
        rw [hseq, hcnt] at hzero
        cases hzero

/-! ## Runs -/

/-- **A write keeps input in order.** -/
theorem InOrder.write (hs : s.InOrder) (params : SessionWriteParams) :
    InOrder { (s.writeSession params).2 with
      writes := s.writes ++ [⟨params, (s.writeSession params).1⟩] } := by
  rcases s.writeSession_spec params with ⟨⟨error, herror⟩, hsame⟩ |
    ⟨bytes, session, stream, hdata, hsess, hgen, hstrm, ⟨hlt, heq⟩ | ⟨heq, hok, htakes⟩⟩
  · -- refused
    rw [herror]
    rcases hsame with hsame | ⟨session, stream, hsess, hstrm, hsame⟩
    · rw [hsame]
      exact hs.told (fun _ _ => rfl) nofun
    · rw [hsame]
      exact (hs.seen hsess hstrm).told (fun _ _ => rfl) nofun
  · -- a duplicate
    rw [heq]
    refine (hs.seen hsess hstrm).told (fun generation id => ?_) fun answer hanswer => ?_
    · rw [WriteCall.chunk, hdata]
      simp
    · obtain ⟨-, -, hcnt⟩ := hs.streams _ _ _ _ hsess hstrm
      have hle : params.inputSeq ≤ (s.accepted session.generation params.inputStreamId).length := by
        omega
      rw [← hgen] at hle
      exact ⟨hle, fun _ => Except.ok.inj hanswer ▸ rfl⟩
  · rw [hok]
    exact hs.takes hdata hsess hgen hstrm heq htakes

/-- Taking a chunk from a channel does not change what was queued. -/
theorem queuedFor_take {taken : ℕ} {connected : Bool}
    (h : s.channels.lookup generation = some channel) (generation' : ℕ) (stream : InputStreamId) :
    queuedFor { s with
        channels := s.channels.insert generation { channel with taken, connected } }
      generation' stream = s.queuedFor generation' stream := by
  rw [queuedFor]
  rw [lookup_insert_eq]
  split
  · next heq =>
    rw [heq, queuedFor, h]
    rfl
  · rfl

/-- **What a start can do** before it spawns: nothing, or make an answer of
a session that runs, or fail for want of a stream, or begin. -/
theorem startSession_spec {sid operationId : String} {cwd resized subbed : Except String Unit} :
    s.startSession sid operationId cwd resized subbed = s ∨
    (∃ session, s.sessions.lookup sid = some session ∧ session.status = .running ∧
      s.startSession sid operationId cwd resized subbed = s.putSession sid
        (session.allocateInputStream s.clock (session.startOperations.lookup operationId)).2) ∨
    (∃ session stream nextSeq allotted, s.sessions.lookup sid = some session ∧
      session.status = .running ∧
      session.allocateInputStream s.clock (session.startOperations.lookup operationId) =
        (.ok (stream, nextSeq), allotted) ∧
      s.startSession sid operationId cwd resized subbed = { s.putSession sid { allotted with
            startOperations := allotted.startOperations.insert operationId stream } with
          started := s.started ++ [⟨sid, operationId, session.generation, stream, nextSeq⟩] }) ∨
    ((∀ session, s.sessions.lookup sid = some session → session.status = .exited) ∧
      s.startSession sid operationId cwd resized subbed =
        { s with starts := s.starts ++ [⟨sid, operationId, .checked⟩] }) := by
  unfold startSession
  split
  · exact .inl rfl
  split
  · exact .inl rfl
  unfold runningSessionResponse
  cases hsess : s.sessions.lookup sid with
  | none => exact .inr (.inr (.inr ⟨nofun, rfl⟩))
  | some session =>
    dsimp only
    cases hstat : session.status with
    | exited =>
      refine .inr (.inr (.inr ⟨fun session' h => ?_, rfl⟩))
      rw [← some.inj h]
      exact hstat
    | running =>
      rw [if_neg (not_ne_iff.2 rfl)]
      cases resized with
      | error error => exact .inl rfl
      | ok =>
        cases subbed with
        | error error => exact .inl rfl
        | ok =>
          cases hallot : session.allocateInputStream s.clock
            (session.startOperations.lookup operationId) with
          | mk result allotted =>
            cases result with
            | error error => exact .inr (.inl ⟨session, rfl, hstat, by rw [hallot]⟩)
            | ok given =>
              exact .inr (.inr (.inl ⟨session, given.1, given.2, allotted, rfl, hstat, hallot,
                rfl⟩))

variable (hs : s.InOrder)
include hs

/-- A start keeps the input in order. -/
theorem InOrder.startSession (sid opId : String) (cwd resized subbed : Except String Unit) :
    (s.startSession sid opId cwd resized subbed).InOrder := by
  rcases @startSession_spec s sid opId cwd resized subbed with heq |
    ⟨session, hsess, -, heq⟩ | ⟨session, stream, nextSeq, allotted, hsess, -, hallot, heq⟩ |
    ⟨-, heq⟩
  · exact heq.symm ▸ hs
  · rw [heq]
    exact hs.putSession hsess (session.allocateInputStream_allots _ _)
  · rw [heq]
    have hallots := session.allocateInputStream_allots s.clock (session.startOperations.lookup opId)
    rw [hallot] at hallots
    exact hs.allots rfl rfl (fun _ _ => rfl) (exists_allots_putSession hsess { hallots with })
  · rw [heq]
    exact hs.allots rfl rfl (fun _ _ => rfl) fun id session h => ⟨session, h, .of_eq rfl rfl rfl⟩

variable (sid : String) (generation : ℕ)

/-- An attach keeps the input in order. -/
theorem InOrder.attachSession (requested : Option InputStreamId) (subbed : Except String Unit) :
    (s.attachSession sid generation requested subbed).InOrder := by
  rw [TerminalServer.attachSession]
  split
  · exact hs
  next session hsess =>
  split
  · exact hs
  split
  · exact hs
  · exact hs.putSession hsess (session.allocateInputStream_allots s.clock requested)

/-- A detach keeps the input in order. -/
theorem InOrder.detachSession
    (stream : InputStreamId) : (s.detachSession sid generation stream).InOrder := by
  rw [TerminalServer.detachSession]
  split
  · exact hs
  next session hsess =>
  split
  · exact hs
  · refine hs.putSession hsess ⟨rfl, le_rfl, fun id state h => .inl ⟨state, ?_, rfl⟩⟩
    rw [lookup_erase_eq] at h
    split at h
    · cases h
    · exact h

/-- An exit keeps the input in order. -/
theorem InOrder.waited (thread : WaitThread) : (s.waited thread).InOrder := by
  rw [TerminalServer.waited]
  split
  · exact hs
  next session hsess =>
  split
  · exact hs
  · exact hs.putSession hsess (.of_eq rfl rfl rfl)

/-- A kill keeps the input in order. -/
theorem InOrder.killSession : (s.killSession sid generation).InOrder := by
  rw [TerminalServer.killSession]
  split
  · exact hs
  split
  · exact hs
  · exact hs.allots rfl rfl (fun _ _ => rfl) fun id session h =>
      ⟨session, lookup_of_lookup_erase h, .of_eq rfl rfl rfl⟩

/-- What input is made of, but for which sessions are there. -/
theorem InOrder.frame {clock : ℕ} {spawned : List ChildProcess} {ended : List ℕ}
    {starts : List StartCall} {kills : List KillCall} {waits : List WaitThread} :
    InOrder { s with clock, spawned, ended, starts, kills, waits } :=
  { hs with }

/-- **Whatever a thread does**, input stays in order. -/
theorem InOrder.step {action : ServerAction}
    (hstep : s.serverStep action = some s') : s'.InOrder := by
  cases action with
  | elapse millis => exact some.inj hstep ▸ hs.frame
  | start sid opId cwd resized subbed =>
    exact some.inj hstep ▸ hs.startSession sid opId cwd resized subbed
  | startRemove call =>
    dsimp only [serverStep] at hstep
    split at hstep
    · rw [← some.inj hstep]
      exact hs.allots rfl rfl (fun _ _ => rfl) fun id session h =>
        ⟨session, lookup_of_lookup_erase h, .of_eq rfl rfl rfl⟩
    · cases hstep
  | startSpawn call spawned =>
    dsimp only [serverStep] at hstep
    split at hstep
    · split at hstep <;> exact some.inj hstep ▸ hs.frame
    · cases hstep
  | startRecord call opened =>
    dsimp only [serverStep] at hstep
    split at hstep
    · split at hstep
      · split at hstep
        · exact some.inj hstep ▸ hs.frame
        · rw [← some.inj hstep]
          exact InOrder.recordSession hs.frame
      · cases hstep
    · cases hstep
  | attach sid generation requested subbed =>
    exact some.inj hstep ▸ hs.attachSession sid generation requested subbed
  | detach sid generation stream =>
    exact some.inj hstep ▸ hs.detachSession sid generation stream
  | write params => exact some.inj hstep ▸ hs.write params
  | take generation written =>
    dsimp only [serverStep] at hstep
    split at hstep
    · cases hstep
    next channel hchannel =>
    split at hstep
    · rw [← some.inj hstep]
      exact hs.allots rfl rfl (queuedFor_take hchannel) fun id session h =>
        ⟨session, h, .of_eq rfl rfl rfl⟩
    · cases hstep
  | kill sid generation => exact some.inj hstep ▸ hs.killSession sid generation
  | killed | childEnds =>
    dsimp only [serverStep] at hstep
    split at hstep
    · exact some.inj hstep ▸ hs.frame
    · cases hstep
  | killAll =>
    rw [← some.inj hstep]
    exact hs.allots rfl rfl (fun _ _ => rfl) nofun
  | waited thread =>
    dsimp only [serverStep] at hstep
    split at hstep
    · rw [← some.inj hstep]
      exact InOrder.frame (hs.waited thread)
    · cases hstep

omit hs

/-- There is no input at first. -/
theorem inOrder_init : init.InOrder where
  generations := nofun
  apart := nofun
  fresh _ _ _ := rfl
  unused _ _ _ := rfl
  streams := nofun
  unallotted := nofun
  numbered _ _ := rfl
  queued _ _ := rfl
  answered := nofun

theorem inOrder_of_reachable (hs : serverMachine.Reachable s) : s.InOrder :=
  hs.rule inOrder_init fun _ _ _ _ hs hstep => hs.step hstep

/-- A write that is refused changes no more than when its stream was seen. -/
theorem refused_of_error {error : String} (h : (s.writeSession params).1 = .error error) :
    (s.writeSession params).2.channels = s.channels ∧
      ∀ id stream, (((s.writeSession params).2.sessions.lookup id).bind
          (·.inputStreams.lookup stream)).map nextSeq =
        ((s.sessions.lookup id).bind (·.inputStreams.lookup stream)).map nextSeq := by
  rcases s.writeSession_spec params with ⟨-, hsame | ⟨session, stream, hsess, hstrm, hsame⟩⟩ |
    ⟨bytes, session, stream, -, -, -, -, ⟨-, heq⟩ | ⟨-, hok, -⟩⟩
  · rw [hsame]
    exact ⟨rfl, fun _ _ => rfl⟩
  · rw [hsame]
    refine ⟨rfl, fun id id' => ?_⟩
    rw [seen, TerminalServer.putSession, lookup_insert_eq]
    split
    · next heq =>
      rw [heq, hsess, bind_some, bind_some, lookup_insert_eq]
      split
      · next heq =>
        rw [heq, hstrm]
        rfl
      · rfl
    · rfl
  · rw [heq] at h
    cases h
  · rw [hok] at h
    cases h

end TerminalServer

open TerminalServer

/-- **Input is written once and in order.** The chunks accepted on a stream
of a generation are numbered from one on, and what is queued for its
terminal is these chunks, one after another; the next number of a stream
that is there counts them. A write that is answered well, under a number
from one on, has its number among theirs, or is told to be a duplicate under
zero, and one that is refused changes neither a queue nor a next number. -/
theorem input_once_in_order {s : TerminalServer} (hs : serverMachine.Reachable s) :
    (∀ generation stream, (s.accepted generation stream).map fst =
        List.range' 1 (s.accepted generation stream).length ∧
      s.queuedFor generation stream = ((s.accepted generation stream).map snd).flatten) ∧
    (∀ id session stream state, s.sessions.lookup id = some session →
      session.inputStreams.lookup stream = some state →
      state.nextSeq = (s.accepted session.generation stream).length + 1) ∧
    (∀ call ∈ s.writes, call.answer.isOk → 1 ≤ call.params.inputSeq → call.params.inputSeq ∈
        (s.accepted call.params.sessionGeneration call.params.inputStreamId).map fst) ∧
    (∀ call ∈ s.writes, ∀ answer, call.answer = .ok answer → call.params.inputSeq = 0 →
      answer.duplicate = true) ∧
    ∀ params error, (s.writeSession params).1 = .error error →
      (s.writeSession params).2.channels = s.channels ∧
      ∀ id stream, (((s.writeSession params).2.sessions.lookup id).bind
          (·.inputStreams.lookup stream)).map InputStreamState.nextSeq =
        ((s.sessions.lookup id).bind (·.inputStreams.lookup stream)).map
          InputStreamState.nextSeq := by
  have horder := inOrder_of_reachable hs
  refine ⟨fun generation stream => ⟨horder.numbered generation stream,
    horder.queued generation stream⟩, fun id session stream state h hstate =>
    (horder.streams id session stream state h hstate).2.2, fun call hcall hok hpos => ?_,
    fun call hcall answer hanswer => (horder.answered call hcall answer hanswer).2,
    fun params error h => refused_of_error h⟩
  rw [horder.numbered, List.mem_range'_1]
  cases hanswer : call.answer with
  | error error =>
    rw [hanswer] at hok
    cases hok
  | ok answer =>
    have hle := (horder.answered call hcall answer hanswer).1
    omega

/-- A session is started and writes. -/
def startAndWrite (params : SessionWriteParams) : List ServerAction :=
  [.start "terminal" "start" (.ok ()) (.ok ()) (.ok ()),
    .startRemove ⟨"terminal", "start", .checked⟩,
    .startSpawn ⟨"terminal", "start", .removed⟩ (.ok ()),
    .startRecord ⟨"terminal", "start", .spawned 0⟩ (.ok ()), .write params]

/-- A write under a number. -/
def numberedWrite (inputSeq : ℕ) : SessionWriteParams :=
  ⟨.ok [108, 115, 13], inputSeq, ⟨1, 1⟩, "terminal", 1⟩

theorem reachable_startAndWrite (inputSeq : ℕ)
    (h : (serverMachine.exec (startAndWrite (numberedWrite inputSeq)) .init).isSome) :
    serverMachine.Reachable (serverMachine.run (startAndWrite (numberedWrite inputSeq)) .init) :=
  ⟨_, Machine.exec_eq_run h⟩

theorem input_once_in_order_example :
    let s := serverMachine.run (startAndWrite (numberedWrite 1)) .init
    s.queuedFor 1 ⟨1, 1⟩ = ((s.accepted 1 ⟨1, 1⟩).map snd).flatten ∧
      (s.accepted 1 ⟨1, 1⟩).length = 1 :=
  ⟨((input_once_in_order (reachable_startAndWrite 1 (by decide +kernel))).1 1 ⟨1, 1⟩).2,
    by decide +kernel⟩

/-- **Number zero is a duplicate of nothing**: the write is answered well,
and no chunk was accepted. -/
theorem zero_answered_ok :
    ∃ s, serverMachine.Reachable s ∧ ∃ call ∈ s.writes, call.answer.isOk = true ∧
      call.params.inputSeq ∉
        (s.accepted call.params.sessionGeneration call.params.inputStreamId).map fst :=
  ⟨_, reachable_startAndWrite 0 (by decide +kernel), by decide +kernel⟩

end Terminal

end Remux
