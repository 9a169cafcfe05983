import Mathlib.Data.List.Nodup
import Mathlib.Data.List.Range
import Remux.Common.Lists
import Remux.Terminal.Model.Surface

/-!
# The viewer's input queue

The numbers in the queue follow one another up to the next one, and what
was sent under a number on the stream that is bound is what the queue
still has under it, or a number below (`Numbered`). A queue that is not
empty is served: a write is waited for, or a pump or a resync is to come
(`Served`).

Both hold as long as a stream is bound again only under a number that
counts what was sent on it and is not kept, and no write or sync ends with
nothing to come after it (`InputKept`).
-/

namespace Remux

open Bool hiding or_assoc or_true true_or
open List hiding getElem?_eq_some_iff

namespace Terminal

namespace TerminalSurface

open InputChunk

/-- A pump or a resync is to come: a resync is scheduled, the terminal is
to be mounted, or a sync has not called the pump yet. -/
def resumes (s : TerminalSurface) (syncs : List TerminalSync) : Bool :=
  0 < s.timers || s.remount || syncs.any (·.awaited)

/-- **Input is kept**: a stream that is bound counts what was sent on it
and is not kept; a write is answered for the first of the queue, or fails
for a reattach; a sync that calls the pump was rendered connected, and one
that fails before it is a resync that is tried again; a resync that was
scheduled is not refused, as it is where a start has failed that left
`syncInFlight`. Elsewhere nothing is queued, or a pump or a resync is still
to come. -/
def InputKept (s : TerminalSurface) : SurfaceAction → Prop
  | .bindSync _ _ protocol => ∀ sent ∈ s.sent, sent.sessionGeneration = protocol.sessionGeneration →
      sent.inputStreamId = protocol.inputStreamId →
      sent.seq < protocol.nextInputSeq ∨ sent.seq ∈ (s.keptInput protocol).map InputChunk.seq
  | .writeAnswered sessionGeneration => ∀ write ∈ s.inputPump,
      (sessionGeneration = write.sessionGeneration ∧ s.pendingInput.head? = some write.chunk) ∨
        s.pendingInput = [] ∨ s.resumes s.syncs
  | .writeFailed needsReattach => needsReattach ∨ s.pendingInput = [] ∨ s.resumes s.syncs
  | .syncRestored i => ∀ sync ∈ s.syncs[i]?,
      sync.connected ∨ s.inputPump.isSome ∨ s.pendingInput = [] ∨ s.resumes (s.syncs.eraseIdx i)
  | .startFlushed i gap => ∀ sync ∈ s.syncs[i]?,
      sync.connected ∨ gap ∨ s.inputPump.isSome ∨ s.pendingInput = [] ∨
        s.resumes (s.syncs.eraseIdx i)
  | .syncFailed i sessionMissing => ∀ sync ∈ s.syncs[i]?, sync.awaited = false ∨
      (sync.kind = .resync ∧ sessionMissing = false ∧ sync.connected) ∨
        s.inputPump.isSome ∨ s.pendingInput = [] ∨ s.resumes (s.syncs.eraseIdx i)
  | .timer => s.syncInFlight = false ∨ s.inputPump.isSome ∨ s.pendingInput = [] ∨
      resumes { s with timers := s.timers - 1 } s.syncs
  | _ => True

instance (s : TerminalSurface) (action : SurfaceAction) : Decidable (s.InputKept action) := by
  cases action <;> unfold InputKept <;> infer_instance

/-! ## Numbers -/

/-- Chunks under consecutive numbers, up to the next. -/
def Consecutive (chunks : List InputChunk) (next : ℕ) : Prop :=
  ∃ first, chunks.map InputChunk.seq = range' first chunks.length ∧ first + chunks.length = next

theorem Consecutive.nil (next : ℕ) : Consecutive [] next := ⟨next, rfl, rfl⟩

variable {chunks : List InputChunk} {sync : TerminalSync} {i : ℕ} {gap : Bool}
variable {action : SurfaceAction} {next : ℕ}

theorem Consecutive.lt (h : Consecutive chunks next) {chunk : InputChunk}
    (hchk : chunk ∈ chunks) : chunk.seq < next := by
  obtain ⟨first, hseqs, hnext⟩ := h
  have hmem := mem_map_of_mem (f := seq) hchk
  rw [hseqs, mem_range'_1] at hmem
  omega

theorem Consecutive.eq_of_seq (h : Consecutive chunks next) {chunk chunk' : InputChunk}
    (hchk : chunk ∈ chunks) (hchk' : chunk' ∈ chunks) (hseq : chunk.seq = chunk'.seq) :
    chunk = chunk' := by
  obtain ⟨first, hseqs, -⟩ := h
  exact inj_on_of_nodup_map (hseqs ▸ nodup_range' ..) hchk hchk' hseq

/-- The next number follows the last. -/
theorem Consecutive.push (h : Consecutive chunks next) (id : ℕ) (data : List UInt8) :
    Consecutive (chunks ++ [⟨id, data, next⟩]) (next + 1) := by
  obtain ⟨first, hseqs, hnext⟩ := h
  refine ⟨first, ?_, ?_⟩
  · rw [map_append, hseqs, length_append, length_singleton, range'_1_concat, hnext]
    rfl
  · rw [length_append, length_singleton]
    omega

theorem Consecutive.tail (h : Consecutive chunks next) : Consecutive chunks.tail next := by
  obtain ⟨first, hseqs, hnext⟩ := h
  cases chunks with
  | nil => exact .nil next
  | cons chunk chunks =>
    rw [length_cons] at hnext
    exact ⟨first + 1, (cons.inj hseqs).2, by rw [tail_cons]; omega⟩

/-- What is left from a number on are the last chunks. -/
theorem filter_le_seq {n : ℕ} : ∀ {chunks : List InputChunk} {first : ℕ},
    chunks.map seq = range' first chunks.length →
    (chunks.filter fun chunk => n ≤ chunk.seq).map seq =
      range' (max n first) (first + chunks.length - max n first)
  | [], first, _ => by
    have hnone : first + 0 - max n first = 0 := by omega
    rw [length_nil, hnone]
    rfl
  | chunk :: chunks, first, h => by
    obtain ⟨hseq, hrest⟩ := cons.inj h
    by_cases hle : n ≤ first
    · -- all are left
      have hall : (chunk :: chunks).filter (fun chunk => n ≤ chunk.seq) = chunk :: chunks := by
        refine filter_eq_self.2 fun other hne => ?_
        have hmem := mem_map_of_mem (f := seq) hne
        rw [map_cons, hseq, hrest, ← range'_succ, mem_range'_1] at hmem
        exact decide_eq_true (hle.trans hmem.1)
      rw [hall, map_cons, hseq, hrest, ← range'_succ, max_eq_right hle,
        length_cons, Nat.add_sub_cancel_left]
    · have hnot : ¬ n ≤ chunk.seq := by omega
      rw [filter_cons_of_neg (by simpa using hnot), filter_le_seq hrest,
        max_eq_left (by omega), max_eq_left (by omega), length_cons]
      congr 1
      omega

/-- **A queue that is cut** at a number goes on from its last. -/
theorem Consecutive.filter {next n : ℕ} (h : Consecutive chunks next) :
    Consecutive (chunks.filter fun chunk => n ≤ chunk.seq)
      (max n (match (chunks.filter fun chunk => n ≤ chunk.seq).getLast? with
        | some last => if last.seq = 0 then 1 else last.seq + 1
        | none => 1)) := by
  obtain ⟨first, hseqs, hnext⟩ := h
  have hkept := @filter_le_seq n chunks first hseqs
  generalize chunks.filter (fun chunk => n ≤ chunk.seq) = kept at hkept
  have hlen : kept.length = first + chunks.length - max n first := by
    simpa using congrArg length hkept
  rw [← hlen] at hkept
  cases hlast : kept.getLast? with
  | none =>
    rw [getLast?_eq_none_iff.1 hlast]
    exact .nil _
  | some last =>
    refine ⟨max n first, hkept, ?_⟩
    have hseq : last.seq + 1 = max n first + kept.length := by
      obtain ⟨init, rfl⟩ := getLast?_eq_some_iff.1 hlast
      rw [map_append, length_append, length_singleton, range'_1_concat] at hkept
      have hlastSeq := (append_inj' hkept rfl).2
      rw [length_append, length_singleton]
      have := (cons.inj hlastSeq).1
      omega
    have hone : (if last.seq = 0 then 1 else last.seq + 1) = last.seq + 1 := by
      split <;> omega
    have hle : n ≤ last.seq + 1 := by omega
    dsimp only
    rw [hone, max_eq_right hle, hseq]

/-! ## What was sent -/

/-- A number of the stream that is bound. -/
def Ours (s : TerminalSurface) (sent : SentInput) : Prop :=
  s.sessionGeneration = some sent.sessionGeneration ∧ s.inputStreamId = some sent.inputStreamId

/-- **The queue and what was sent agree.** -/
structure Numbered (s : TerminalSurface) : Prop where
  consecutive : Consecutive s.pendingInput s.nextInputSeq
  fresh : ∀ sent ∈ s.sent, s.Ours sent → sent.seq < s.nextInputSeq
  agrees : ∀ sent ∈ s.sent, s.Ours sent → ∀ chunk ∈ s.pendingInput, chunk.seq = sent.seq →
    chunk.data = sent.data
  unique : ∀ sent ∈ s.sent, ∀ sent' ∈ s.sent, sent.sessionGeneration = sent'.sessionGeneration →
    sent.inputStreamId = sent'.inputStreamId → sent.seq = sent'.seq → sent.data = sent'.data

variable {s s' : TerminalSurface}

/-- What is not of the queue does not matter. -/
theorem Numbered.congr (hs : s.Numbered) (hpend : s'.pendingInput = s.pendingInput)
    (hnext : s'.nextInputSeq = s.nextInputSeq) (hsent : s'.sent = s.sent)
    (hgen : s'.sessionGeneration = s.sessionGeneration)
    (hstrm : s'.inputStreamId = s.inputStreamId) : s'.Numbered := by
  refine ⟨?_, ?_, ?_, hsent ▸ hs.unique⟩
  · rw [hpend, hnext]
    exact hs.consecutive
  · intro sent hmem hours
    rw [hsent] at hmem
    rw [Ours, hgen, hstrm] at hours
    rw [hnext]
    exact hs.fresh sent hmem hours
  · intro sent hmem hours
    rw [hsent] at hmem
    rw [Ours, hgen, hstrm] at hours
    rw [hpend]
    exact hs.agrees sent hmem hours

/-- The loop of the pump writes the first chunk, where there is one and a
stream is bound, or ends. -/
theorem pumpNext_spec (s : TerminalSurface) :
    (∃ chunk chunks sessionId generation stream, s.pendingInput = chunk :: chunks ∧
      s.sessionGeneration = some generation ∧ s.inputStreamId = some stream ∧
      s.pumpNext = { s with
        inputPump := some ⟨chunk, sessionId, generation, stream⟩
        sent := s.sent ++ [⟨generation, stream, chunk.seq, chunk.data⟩] }) ∨
    (s.pumpNext = { s with inputPump := none } ∧ (s.bound = true → s.pendingInput = [])) := by
  rw [pumpNext]
  split
  · next chunk chunks sessionId generation stream hpend hid hgen hstrm =>
    exact .inl ⟨chunk, chunks, sessionId, generation, stream, hpend, hgen,
      (Option.filter_eq_some_iff.1 hstrm).1, rfl⟩
  · next hnone =>
    refine .inr ⟨rfl, fun hbnd => ?_⟩
    rw [bound, and_eq_true, and_eq_true] at hbnd
    obtain ⟨sessionId, hid⟩ := Option.isSome_iff_exists.1 hbnd.1.1
    obtain ⟨generation, hgen⟩ := Option.isSome_iff_exists.1 hbnd.1.2
    obtain ⟨stream, hstrm⟩ := Option.isSome_iff_exists.1 hbnd.2
    cases hpend : s.pendingInput with
    | nil => rfl
    | cons chunk chunks =>
      exact (hnone chunk chunks sessionId generation stream hpend hid hgen hstrm).elim

/-- The pump keeps the numbers. -/
theorem Numbered.pumpNext (hs : s.Numbered) : s.pumpNext.Numbered := by
  rcases s.pumpNext_spec with ⟨chunk, chunks, sessionId, generation, stream, hpend, hgeneration,
    hstrm, heq⟩ | ⟨heq, -⟩
  · rw [heq]
    have hchk : chunk ∈ s.pendingInput := hpend ▸ mem_cons_self
    have hsame : ∀ {sent : SentInput}, sent ∈ s.sent → sent.sessionGeneration = generation →
        sent.inputStreamId = stream → sent.seq = chunk.seq → chunk.data = sent.data :=
      fun hmem hgen hid hseq =>
        hs.agrees _ hmem ⟨hgeneration.trans (congrArg some hgen.symm),
          hstrm.trans (congrArg some hid.symm)⟩ chunk hchk hseq.symm
    refine ⟨hs.consecutive, fun sent hmem hours => ?_, fun sent hmem hours other hne hseq => ?_,
      fun sent hmem sent' hmem' hgen hid hseq => ?_⟩
    · rcases mem_concat.1 hmem with hmem | rfl
      · exact hs.fresh sent hmem hours
      · exact hs.consecutive.lt hchk
    · rcases mem_concat.1 hmem with hmem | rfl
      · exact hs.agrees sent hmem hours other hne hseq
      · rw [hs.consecutive.eq_of_seq hne hchk hseq]
    · rcases mem_concat.1 hmem with hmem | rfl
      · rcases mem_concat.1 hmem' with hmem' | rfl
        · exact hs.unique sent hmem sent' hmem' hgen hid hseq
        · exact (hsame hmem hgen hid hseq).symm
      · rcases mem_concat.1 hmem' with hmem' | hmem'
        · exact hsame hmem' hgen.symm hid.symm hseq.symm
        · rw [hmem']
  · rw [heq]
    exact hs.congr rfl rfl rfl rfl rfl

theorem Numbered.pumpInput (hs : s.Numbered) (connected : Bool) :
    (s.pumpInput connected).Numbered := by
  rw [TerminalSurface.pumpInput]
  split
  · exact hs
  · exact hs.pumpNext

/-- The chunk that was written is taken from the queue. -/
theorem Numbered.tail {pendingInputBytes : ℕ} (hs : s.Numbered) :
    Numbered { s with pendingInput := s.pendingInput.tail, pendingInputBytes } :=
  ⟨hs.consecutive.tail, hs.fresh,
    fun sent hmem hours chunk hchk => hs.agrees sent hmem hours chunk (mem_of_mem_tail hchk),
    hs.unique⟩

/-- What is queued is numbered on. -/
theorem Numbered.queueChunks : ∀ (chunks : List (List UInt8)) {s : TerminalSurface}, s.Numbered →
    (queueChunks chunks s).Numbered
  | [], _, hs => hs
  | data :: chunks, s, hs => by
    rw [TerminalSurface.queueChunks]
    split
    · exact hs
    · refine Numbered.queueChunks chunks ⟨hs.consecutive.push _ _,
        fun sent hmem hours => (hs.fresh sent hmem hours).trans (Nat.lt_succ_self _),
        fun sent hmem hours chunk hchk hseq => ?_, hs.unique⟩
      rcases mem_concat.1 hchk with hchk | rfl
      · exact hs.agrees sent hmem hours chunk hchk hseq
      · have hlt := hs.fresh sent hmem hours
        dsimp only at hseq
        omega

theorem Numbered.sendBytes (hs : s.Numbered) (data : List UInt8) : (s.sendBytes data).Numbered := by
  rw [TerminalSurface.sendBytes]
  split
  · exact hs
  · exact (Numbered.queueChunks _ hs).pumpInput _

/-- **A stream is bound** under a number that counts what was sent on it
and is not kept. -/
theorem Numbered.bindSessionProtocol {protocol : SessionProtocol} (hs : s.Numbered)
    (hcounts : ∀ sent ∈ s.sent, sent.sessionGeneration = protocol.sessionGeneration →
      sent.inputStreamId = protocol.inputStreamId →
      sent.seq < protocol.nextInputSeq ∨ sent.seq ∈ (s.keptInput protocol).map seq) :
    (s.bindSessionProtocol protocol).Numbered := by
  have hconsecutive : Consecutive (s.keptInput protocol)
      (s.bindSessionProtocol protocol).nextInputSeq := by
    rw [TerminalSurface.bindSessionProtocol]
    rw [keptInput]
    split
    · exact hs.consecutive.filter
    · exact .nil _
  refine ⟨hconsecutive, fun sent hmem hours => ?_, fun sent hmem hours chunk hchk hseq => ?_,
    hs.unique⟩
  · obtain ⟨hgen, hstrm⟩ := hours
    rcases hcounts sent hmem (Option.some.inj hgen).symm (Option.some.inj hstrm).symm with
      hlt | hkept
    · exact hlt.trans_le (le_max_left _ _)
    · obtain ⟨chunk, hchk, hseq⟩ := mem_map.1 hkept
      exact hseq ▸ hconsecutive.lt hchk
  · -- what is kept is of the stream that was bound before
    change chunk ∈ s.keptInput protocol at hchk
    rw [keptInput] at hchk
    split at hchk
    · next hsame =>
      rw [sameProducer, and_eq_true, decide_eq_true_iff, decide_eq_true_iff] at hsame
      exact hs.agrees sent hmem ⟨hsame.1.trans hours.1, hsame.2.trans hours.2⟩ chunk
        (mem_of_mem_filter hchk) hseq
    · cases hchk

/-! ## Syncs -/

section

variable {syncs : List TerminalSync} {sync sync' other : TerminalSync} {i : ℕ}

theorem mem_set_of_getElem? (hi : syncs[i]? = some sync) : sync' ∈ syncs.set i sync' := by
  obtain ⟨hlt, -⟩ := getElem?_eq_some_iff.1 hi
  exact mem_set hlt sync'

/-- The other syncs stay when one ends. -/
theorem mem_eraseIdx_or_eq (hi : syncs[i]? = some sync) (hne : other ∈ syncs) :
    other = sync ∨ other ∈ syncs.eraseIdx i := by
  obtain ⟨j, hj⟩ := mem_iff_getElem?.1 hne
  by_cases heq : j = i
  · rw [heq, hi] at hj
    exact .inl (Option.some.inj hj).symm
  · exact .inr (mem_eraseIdx_iff_getElem?.2 ⟨j, heq, hj⟩)

theorem mem_set_of_mem_eraseIdx (hother : other ∈ syncs.eraseIdx i) :
    other ∈ syncs.set i sync' := by
  obtain ⟨j, hne, hj⟩ := mem_eraseIdx_iff_getElem?.1 hother
  refine mem_iff_getElem?.2 ⟨j, ?_⟩
  rw [getElem?_set_ne hne.symm, hj]

end

/-- **A queue that is not empty is served.** -/
structure Served (s : TerminalSurface) : Prop where
  served : s.connected = true → s.bound = true → s.pendingInput ≠ [] →
    s.inputPump.isSome = true ∨ s.resumes s.syncs = true

theorem resumes_of_mem {syncs : List TerminalSync} (hsync : sync ∈ syncs)
    (hph : sync.awaited = true) : s.resumes syncs = true := by
  rw [resumes, or_eq_true]
  exact .inr (any_eq_true.2 ⟨sync, hsync, hph⟩)

theorem resumes_of_timers {syncs : List TerminalSync} (h : 0 < s.timers) :
    s.resumes syncs = true := by
  rw [resumes, decide_eq_true h]
  rfl

/-- What is to come is not less where nothing is taken from it. -/
theorem resumes_mono {syncs syncs' : List TerminalSync} (h : s.resumes syncs = true)
    (htimers : s.timers ≤ s'.timers) (hremount : s.remount = true → s'.remount = true)
    (hsyncs : ∀ sync ∈ syncs, sync.awaited = true → sync ∈ syncs') :
    s'.resumes syncs' = true := by
  rw [resumes, or_eq_true, or_eq_true, decide_eq_true_iff, any_eq_true] at h
  rcases h with (h | h) | ⟨sync, hsync, hph⟩
  · exact resumes_of_timers (h.trans_le htimers)
  · rw [resumes, hremount h, Bool.or_true]
    rfl
  · exact resumes_of_mem (hsyncs sync hsync hph) hph

/-- A sync that is under way serves the queue. -/
theorem Served.of_sync (hsync : sync ∈ s.syncs)
    (hph : sync.awaited = true) : s.Served where
  served _ _ _ := .inr (resumes_of_mem hsync hph)

variable {connected : Bool}

/-- **The pump of a connected render** writes what is queued. -/
theorem isSome_pumpInput (hconn : connected = true)
    (hbnd : s.bound = true) (hpend : s.pendingInput ≠ []) :
    (s.pumpInput connected).inputPump.isSome = true := by
  rw [pumpInput, hconn]
  split
  · next h => simpa using h
  · rcases s.pumpNext_spec with ⟨_, _, _, _, _, -, -, -, heq⟩ | ⟨-, hnone⟩
    · rw [heq]
      rfl
    · exact absurd (hnone hbnd) hpend

/-- The pump changes what is sent and waited for. -/
theorem pumpInput_eq (s : TerminalSurface) (connected : Bool) :
    ∃ inputPump sent, s.pumpInput connected = { s with inputPump, sent } ∧
      (s.inputPump.isSome = true → inputPump.isSome = true) := by
  rw [pumpInput]
  split
  · exact ⟨_, _, rfl, id⟩
  · next h =>
    have hidle : s.inputPump.isSome = false := by
      rw [not_eq_true, or_eq_false_iff] at h
      exact h.1
    rcases s.pumpNext_spec with ⟨_, _, _, _, _, -, -, -, heq⟩ | ⟨heq, -⟩
    · exact ⟨_, _, heq, fun _ => rfl⟩
    · exact ⟨_, _, heq, fun h => absurd (hidle.symm.trans h) nofun⟩

/-- **A sync has called the pump**: what is queued is written, or was
waited for, or another sync is to come. -/
theorem served_pumpInput {syncs : List TerminalSync}
    (h : connected = true ∨ s.inputPump.isSome = true ∨ s.pendingInput = [] ∨
      s'.resumes syncs = true)
    (hpump : s'.inputPump = (s.pumpInput connected).inputPump)
    (hbnd : s'.bound = true → s.bound = true) (hpend : s'.pendingInput = s.pendingInput) :
    s'.bound = true → s'.pendingInput ≠ [] →
      s'.inputPump.isSome = true ∨ s'.resumes syncs = true := by
  intro hb hp
  rw [hpend] at hp
  rcases h with h | h | h | h
  · rw [hpump]
    exact .inl (isSome_pumpInput h (hbnd hb) hp)
  · obtain ⟨inputPump, sent, heq, hsome⟩ := s.pumpInput_eq connected
    rw [hpump, heq]
    exact .inl (hsome h)
  · exact absurd h hp
  · exact .inr h

/-- **A resync serves the queue**, unless a sync is in flight. -/
theorem served_resyncSession (hkept : s.syncInFlight = false ∨ s.inputPump.isSome = true ∨
      s.pendingInput = [] ∨ s.resumes s.syncs = true) : (s.resyncSession connected).Served := by
  rw [TerminalSurface.resyncSession]
  split
  · next hid =>
    refine ⟨fun _ hbnd _ => ?_⟩
    rw [bound, Option.isSome_eq_false_iff.2 hid] at hbnd
    cases hbnd
  split
  · next hflight =>
    refine ⟨fun _ _ hpend => ?_⟩
    rcases hkept with h | h | h | h
    · exact absurd (hflight.symm.trans h) nofun
    · exact .inl h
    · exact absurd h hpend
    · exact .inr h
  · exact Served.of_sync mem_concat_self rfl

/-- Where no sync goes on or ends, and nothing to come is taken away. -/
theorem served_congr (hsyncs : s'.syncs = s.syncs) (htimers : s.timers ≤ s'.timers)
    (hremount : s'.remount = s.remount)
    (hsrv : s'.connected = true → s'.bound = true → s'.pendingInput ≠ [] →
      s'.inputPump.isSome = true ∨ s.resumes s.syncs = true) : s'.Served where
  served hconn hbnd hpend := (hsrv hconn hbnd hpend).imp_right fun h =>
    resumes_mono h htimers (fun h => hremount.trans h) fun _ hsync _ => hsyncs ▸ hsync

/-- A write that failed leaves the queue served. -/
theorem served_writeFailed {needsReattach : Bool}
    (hkept : needsReattach = true ∨ s.pendingInput = [] ∨ s.resumes s.syncs = true) :
    (s.writeFailed needsReattach).Served := by
  refine ⟨fun _ _ hpend => .inr ?_⟩
  rcases hkept with hneeds | hnil | hresumes
  · refine resumes_of_timers ?_
    rw [hneeds]
    exact Nat.succ_pos _
  · exact absurd hnil hpend
  · exact resumes_mono hresumes (Nat.le_add_right _ _) id fun _ hsync _ => hsync

/-- A write that is answered leaves the queue served. -/
theorem served_writeAnswered {write : InputWrite} {sessionGeneration : ℕ}
    (hkept : (sessionGeneration = write.sessionGeneration ∧
      s.pendingInput.head? = some write.chunk) ∨ s.pendingInput = [] ∨ s.resumes s.syncs = true) :
    (s.writeAnswered write sessionGeneration).Served := by
  rw [TerminalSurface.writeAnswered]
  split
  · next hstale =>
    refine served_congr rfl le_rfl rfl fun _ _ hpend => ?_
    rcases hkept with ⟨hgen, hhead⟩ | hnil | hresumes
    · exact absurd hstale (not_or.2 ⟨not_ne_iff.2 hgen, not_ne_iff.2 hhead⟩)
    · exact absurd hnil hpend
    · exact .inr hresumes
  · rcases pumpNext_spec { s with
        pendingInput := s.pendingInput.tail
        pendingInputBytes := s.pendingInputBytes - write.chunk.data.length } with
      ⟨_, _, _, _, _, -, -, -, heq⟩ | ⟨heq, hnone⟩
    · rw [heq]
      exact served_congr rfl le_rfl rfl fun _ _ _ => .inl rfl
    · rw [heq]
      exact served_congr rfl le_rfl rfl fun _ hbnd hpend => absurd (hnone hbnd) hpend

variable (hs : s.Served)
include hs

/-- Bytes sent leave the queue served. -/
theorem Served.sendBytes (data : List UInt8) : (s.sendBytes data).Served := by
  have hqd : ∀ (chunks : List (List UInt8)) (s : TerminalSurface),
      ∃ pendingInput nextInputSeq pendingInputBytes nextChunk, queueChunks chunks s = { s with
        pendingInput, nextInputSeq, pendingInputBytes, nextChunk } := by
    intro chunks
    induction chunks with
    | nil => exact fun s => ⟨_, _, _, _, rfl⟩
    | cons chunk chunks ih =>
      intro s
      rw [queueChunks]
      split
      · exact ⟨_, _, _, _, rfl⟩
      · obtain ⟨_, _, _, _, heq⟩ := ih { s with
          pendingInput := s.pendingInput ++ [⟨s.nextChunk, chunk, s.nextInputSeq⟩]
          nextInputSeq := s.nextInputSeq + 1
          pendingInputBytes := s.pendingInputBytes + chunk.length
          nextChunk := s.nextChunk + 1 }
        exact ⟨_, _, _, _, heq⟩
  rw [TerminalSurface.sendBytes]
  split
  · exact hs
  obtain ⟨pendingInput, nextInputSeq, pendingInputBytes, nextChunk, heq⟩ :=
    hqd (inputChunks data.length data) s
  rw [heq]
  obtain ⟨inputPump, sent, hpump, -⟩ := pumpInput_eq { s with
    pendingInput, nextInputSeq, pendingInputBytes, nextChunk } s.connected
  rw [hpump]
  refine served_congr rfl le_rfl rfl fun hconn hbnd hpend => .inl ?_
  have hsome := @isSome_pumpInput { s with
    pendingInput, nextInputSeq, pendingInputBytes, nextChunk } _ hconn hbnd hpend
  rwa [hpump] at hsome

/-- A resync leaves the queue served. -/
theorem Served.resyncSession : (s.resyncSession connected).Served := by
  by_cases hidle : s.syncInFlight = false
  · exact served_resyncSession (.inl hidle)
  · rw [TerminalSurface.resyncSession]
    split
    · exact hs
    · rw [if_pos (not_eq_false _ ▸ hidle)]
      exact ⟨hs.served⟩

/-- A connection that changes leaves the queue served. -/
theorem Served.hostConnection {gen : ℕ} : (s.hostConnection connected gen).Served := by
  have htold : Served { s with
      connected
      hostConnectionGeneration := max s.hostConnectionGeneration gen
      remount := s.remount || connected != s.connected } := by
    refine ⟨fun hconn hbnd hpend => ?_⟩
    by_cases hsame : connected = s.connected
    · have hremount : s.remount = true → (s.remount || connected != s.connected) = true :=
        fun h => by rw [h, Bool.true_or]
      rcases hs.served (hsame.symm.trans hconn) hbnd hpend with h | h
      · exact .inl h
      · exact .inr (@resumes_mono s _ _ _ h le_rfl hremount fun _ hsync _ => hsync)
    · refine .inr ?_
      have hchanged : (connected != s.connected) = true := by simpa using hsame
      rw [resumes, hchanged, Bool.or_true, Bool.or_true]
      rfl
  rw [TerminalSurface.hostConnection]
  split
  · exact htold.resyncSession
  · exact htold

omit hs

/-- A sync that has called the pump leaves the queue served. -/
theorem served_syncRestored (hkept : sync.connected = true ∨
      s.inputPump.isSome = true ∨ s.pendingInput = [] ∨
      s.resumes (s.syncs.eraseIdx i) = true) : (s.syncRestored i sync).Served := by
  obtain ⟨inputPump, sent, heq, hsome⟩ := s.pumpInput_eq sync.connected
  refine ⟨fun _ hbnd hpend => ?_⟩
  refine @served_pumpInput s _ sync.connected _ (hkept.imp_right (Or.imp_right
    (Or.imp_right fun h => ?_))) rfl (fun h => ?_) ?_ hbnd hpend
  · rw [TerminalSurface.syncRestored, heq]
    exact resumes_mono h le_rfl id fun _ hsync _ => mem_set_of_mem_eraseIdx hsync
  · rw [TerminalSurface.syncRestored, heq] at h
    exact h
  · rw [TerminalSurface.syncRestored, heq]

/-- Nothing to come is lost with a sync that has called the pump. -/
theorem mem_eraseIdx_of_awaited (hi : s.syncs[i]? = some sync) (hph : sync.awaited = false) :
    ∀ other ∈ s.syncs, other.awaited = true → other ∈ s.syncs.eraseIdx i := by
  intro other hother hawaited
  refine (mem_eraseIdx_or_eq hi hother).resolve_left fun heq => ?_
  rw [heq, hph] at hawaited
  cases hawaited

/-- A flush leaves the queue served. -/
theorem Served.syncFlushed (hs : s.Served) (hi : s.syncs[i]? = some sync)
    (hph : sync.phase = .flushing) :
    (s.syncFlushed i sync gap).Served := by
  have hothers := mem_eraseIdx_of_awaited hi (by rw [TerminalSync.awaited, hph])
  rw [TerminalSurface.syncFlushed]
  split
  · exact ⟨fun hconn hbnd hpend => (hs.served hconn hbnd hpend).imp_right
      fun h => resumes_mono h (Nat.le_add_right _ _) id hothers⟩
  all_goals exact ⟨fun hconn hbnd hpend => (hs.served hconn hbnd hpend).imp_right
      fun h => resumes_mono h (Nat.le_add_right _ _) id fun other hother hne =>
        mem_set_of_mem_eraseIdx (hothers other hother hne)⟩

/-- A sync that fails and is tried again, or was not needed. -/
theorem Served.syncFailed {sessionMissing : Bool} (hs : s.Served) (hi : s.syncs[i]? = some sync)
    (hkept : sync.awaited = false ∨ (sync.kind = .resync ∧ sessionMissing = false ∧
      sync.connected = true) ∨
      s.inputPump.isSome = true ∨ s.pendingInput = [] ∨ s.resumes (s.syncs.eraseIdx i) = true) :
    (s.syncFailed i sync sessionMissing).Served := by
  rw [TerminalSurface.syncFailed]
  cases hph : sync.awaited with
  | false =>
    have hothers := mem_eraseIdx_of_awaited hi hph
    split
    · contradiction
    all_goals exact ⟨fun hconn hbnd hpend => (hs.served hconn hbnd hpend).imp_right
        fun h => resumes_mono h le_rfl id hothers⟩
  | true =>
    have hkept := hkept.resolve_left (by rw [hph]; nofun)
    have hleft : sync.kind ≠ .resync → s.pendingInput ≠ [] →
        s.inputPump.isSome = true ∨ s.resumes (s.syncs.eraseIdx i) = true := by
      intro hkind hpend
      rcases hkept with ⟨hresync, -⟩ | h | h | h
      · exact absurd hresync hkind
      · exact .inl h
      · exact absurd h hpend
      · exact .inr h
    split
    · refine ⟨fun _ _ hpend => ?_⟩
      rcases hkept with ⟨-, hmissing, hconn⟩ | h | h | h
      · refine .inr (resumes_of_timers ?_)
        rw [hmissing, hconn]
        exact Nat.succ_pos _
      · exact .inl h
      · exact absurd h hpend
      · exact .inr (resumes_mono h (Nat.le_add_right _ _) id fun _ hsync _ => hsync)
    · next hkind => exact ⟨fun _ _ hpend => hleft (hkind ▸ nofun) hpend⟩
    · contradiction
    · next hkind => exact ⟨fun _ _ hpend => hleft (hkind ▸ nofun) hpend⟩

theorem served_startReady {ready : Bool} (hi : s.syncs[i]? = some sync) :
    (s.startReady i sync ready).Served := by
  rw [TerminalSurface.startReady]
  split
  · exact ⟨fun _ _ _ => .inr (resumes_of_mem (mem_set_of_getElem? hi) rfl)⟩
  · exact ⟨fun _ _ _ => .inr (resumes_of_timers (Nat.succ_pos _))⟩

/-- A start that was flushed leaves the queue served. -/
theorem served_startFlushed
    (hkept : sync.connected = true ∨ gap = true ∨ s.inputPump.isSome = true ∨
      s.pendingInput = [] ∨ s.resumes (s.syncs.eraseIdx i) = true) :
    (s.startFlushed i sync gap).Served := by
  obtain ⟨inputPump, sent, heq, hsome⟩ := s.pumpInput_eq sync.connected
  refine ⟨fun _ hbnd hpend => ?_⟩
  have hresumes : (s.startFlushed i sync gap).resumes (s.syncs.eraseIdx i) = true ∨
      sync.connected = true ∨ s.inputPump.isSome = true ∨ s.pendingInput = [] := by
    rcases hkept with h | h | h | h | h
    · exact .inr (.inl h)
    · refine .inl (resumes_of_timers ?_)
      rw [TerminalSurface.startFlushed, heq, h]
      exact Nat.succ_pos _
    · exact .inr (.inr (.inl h))
    · exact .inr (.inr (.inr h))
    · refine .inl (resumes_mono h ?_ (fun h => ?_) fun _ hsync _ => hsync)
      · exact Nat.le_add_right _ _
      · rw [TerminalSurface.startFlushed, heq]
        exact h
  refine @served_pumpInput s _ sync.connected _ ?_ rfl (fun h => ?_) ?_ hbnd hpend
  · rcases hresumes with h | h | h | h
    · exact .inr (.inr (.inr h))
    · exact .inl h
    · exact .inr (.inl h)
    · exact .inr (.inr (.inl h))
  · rw [TerminalSurface.startFlushed, heq] at h
    exact h
  · rw [TerminalSurface.startFlushed, heq]

/-! ## Runs -/

theorem exists_of_withSync {allowed : TerminalSync → Bool} {f : TerminalSync → TerminalSurface}
    (h : s.withSync i allowed f = some s') :
    ∃ sync, s.syncs[i]? = some sync ∧ allowed sync = true ∧ f sync = s' := by
  rw [withSync] at h
  split at h
  · next sync hi =>
    split at h
    · next hallowed => exact ⟨sync, hi, hallowed, Option.some.inj h⟩
    · cases h
  · cases h

/-- Every step that keeps the input leaves the queue served. -/
theorem Served.step (hs : s.Served) (hkept : s.InputKept action)
    (hstep : s.surfaceStep action = some s') : s'.Served := by
  cases action with
  | sendBytes data => exact Option.some.inj hstep ▸ hs.sendBytes data
  | writeAnswered sessionGeneration =>
    obtain ⟨write, hwrite, rfl⟩ := Option.map_eq_some_iff.1 hstep
    exact served_writeAnswered (hkept write hwrite)
  | writeFailed needsReattach =>
    dsimp only [surfaceStep] at hstep
    split at hstep
    · exact Option.some.inj hstep ▸ served_writeFailed hkept
    · cases hstep
  | hostConnection connected gen => exact Option.some.inj hstep ▸ hs.hostConnection
  | resync => exact Option.some.inj hstep ▸ hs.resyncSession
  | timer =>
    dsimp only [surfaceStep] at hstep
    split at hstep
    · exact Option.some.inj hstep ▸ served_resyncSession hkept
    · cases hstep
  | mount attachSessionId =>
    dsimp only [surfaceStep] at hstep
    split at hstep
    · exact Option.some.inj hstep ▸ Served.of_sync mem_concat_self rfl
    · cases hstep
  | restart connected =>
    exact Option.some.inj hstep ▸ Served.of_sync mem_concat_self rfl
  | bindSync i sid protocol =>
    obtain ⟨sync, hi, -, rfl⟩ := exists_of_withSync hstep
    exact Served.of_sync (mem_set_of_getElem? hi) rfl
  | retry i =>
    obtain ⟨sync, hi, -, rfl⟩ := exists_of_withSync hstep
    exact Served.of_sync (mem_set_of_getElem? hi) rfl
  | syncRestored i =>
    obtain ⟨sync, hi, -, rfl⟩ := exists_of_withSync hstep
    exact served_syncRestored (hkept sync hi)
  | syncFlushed i gap =>
    obtain ⟨sync, hi, hph, rfl⟩ := exists_of_withSync hstep
    exact hs.syncFlushed hi (of_decide_eq_true hph)
  | syncFailed i sessionMissing =>
    obtain ⟨sync, hi, -, rfl⟩ := exists_of_withSync hstep
    exact hs.syncFailed hi (hkept sync hi)
  | attachMissing i =>
    obtain ⟨sync, hi, -, rfl⟩ := exists_of_withSync hstep
    exact Served.of_sync (mem_set_of_getElem? hi) rfl
  | hostTabUpdated i =>
    obtain ⟨sync, hi, hph, rfl⟩ := exists_of_withSync hstep
    have hothers := mem_eraseIdx_of_awaited hi
      (by rw [TerminalSync.awaited, of_decide_eq_true hph])
    exact ⟨fun hconn hbnd hpend => (hs.served hconn hbnd hpend).imp_right
      fun h => resumes_mono h le_rfl id hothers⟩
  | startReady i ready =>
    obtain ⟨sync, hi, -, rfl⟩ := exists_of_withSync hstep
    exact served_startReady hi
  | startFlushed i gap =>
    obtain ⟨sync, hi, -, rfl⟩ := exists_of_withSync hstep
    exact served_startFlushed (hkept sync hi)

theorem Numbered.resyncSession (hs : s.Numbered) : (s.resyncSession connected).Numbered := by
  rw [TerminalSurface.resyncSession]
  split
  · exact hs
  split <;> exact hs.congr rfl rfl rfl rfl rfl

/-- Every step that keeps the input keeps the numbers. -/
theorem Numbered.step (hs : s.Numbered) (hkept : s.InputKept action)
    (hstep : s.surfaceStep action = some s') : s'.Numbered := by
  cases action with
  | sendBytes data => exact Option.some.inj hstep ▸ hs.sendBytes data
  | writeAnswered sessionGeneration =>
    obtain ⟨write, -, rfl⟩ := Option.map_eq_some_iff.1 hstep
    rw [writeAnswered]
    split
    · exact hs.congr rfl rfl rfl rfl rfl
    · exact hs.tail.pumpNext
  | writeFailed | mount =>
    dsimp only [surfaceStep] at hstep
    split at hstep
    · exact Option.some.inj hstep ▸ hs.congr rfl rfl rfl rfl rfl
    · cases hstep
  | hostConnection connected gen =>
    rw [← Option.some.inj hstep, hostConnection]
    split
    · exact Numbered.resyncSession (hs.congr rfl rfl rfl rfl rfl)
    · exact hs.congr rfl rfl rfl rfl rfl
  | resync => exact Option.some.inj hstep ▸ hs.resyncSession
  | timer =>
    dsimp only [surfaceStep] at hstep
    split at hstep
    · exact Option.some.inj hstep ▸ Numbered.resyncSession (hs.congr rfl rfl rfl rfl rfl)
    · cases hstep
  | restart connected => exact Option.some.inj hstep ▸ hs.congr rfl rfl rfl rfl rfl
  | bindSync i sid protocol =>
    obtain ⟨sync, -, -, rfl⟩ := exists_of_withSync hstep
    exact Numbered.bindSessionProtocol (hs.congr rfl rfl rfl rfl rfl) hkept
  | retry | attachMissing | hostTabUpdated =>
    obtain ⟨sync, -, -, rfl⟩ := exists_of_withSync hstep
    exact hs.congr rfl rfl rfl rfl rfl
  | syncRestored | startFlushed =>
    obtain ⟨sync, -, -, rfl⟩ := exists_of_withSync hstep
    exact (hs.pumpInput sync.connected).congr rfl rfl rfl rfl rfl
  | syncFlushed i gap =>
    obtain ⟨sync, -, -, rfl⟩ := exists_of_withSync hstep
    rw [syncFlushed]
    split <;> exact hs.congr rfl rfl rfl rfl rfl
  | syncFailed i sessionMissing =>
    obtain ⟨sync, -, -, rfl⟩ := exists_of_withSync hstep
    rw [syncFailed]
    split <;> exact hs.congr rfl rfl rfl rfl rfl
  | startReady i ready =>
    obtain ⟨sync, -, -, rfl⟩ := exists_of_withSync hstep
    rw [startReady]
    split
    · exact hs.congr rfl rfl rfl rfl rfl
    · exact (hs.pumpInput sync.connected).congr rfl rfl rfl rfl rfl

theorem inputKept_of_reachable (hs : (surfaceMachine.restrict InputKept).Reachable s) :
    s.Numbered ∧ s.Served := by
  have hinit : init.Numbered ∧ init.Served :=
    ⟨⟨.nil 1, nofun, nofun, nofun⟩, ⟨fun _ _ h => absurd rfl h⟩⟩
  refine hs.rule (P := fun s => s.Numbered ∧ s.Served) hinit fun s action s' _ hinv hstep => ?_
  obtain ⟨hkept, hstep⟩ := Machine.restrict_step_eq_some.1 hstep
  exact ⟨hinv.1.step hkept hstep, hinv.2.step hkept hstep⟩

/-! ## What leaves the queue -/

variable {chunk : InputChunk}

theorem mem_pumpInput (h : chunk ∈ s.pendingInput) :
    chunk ∈ (s.pumpInput connected).pendingInput := by
  obtain ⟨_, _, heq, -⟩ := s.pumpInput_eq connected
  rw [heq]
  exact h

/-- What was queued stays queued. -/
theorem mem_queueChunks : ∀ (chunks : List (List UInt8)) {s : TerminalSurface},
    chunk ∈ s.pendingInput → chunk ∈ (queueChunks chunks s).pendingInput
  | [], _, h => h
  | data :: chunks, s, h => by
    rw [queueChunks]
    split
    · exact h
    · exact mem_queueChunks chunks (mem_append_left _ h)

theorem mem_resyncSession (h : chunk ∈ s.pendingInput) :
    chunk ∈ (s.resyncSession connected).pendingInput := by
  rw [resyncSession]
  split
  · exact h
  split <;> exact h

/-- **A chunk leaves the queue** as its write is answered, or as a stream
is bound that has it or is another. -/
theorem answered_or_bound_of_gone (hstep : s.surfaceStep action = some s')
    (hchk : chunk ∈ s.pendingInput) (hgone : chunk ∉ s'.pendingInput) :
    (∃ sessionGeneration write, action = .writeAnswered sessionGeneration ∧
      s.inputPump = some write ∧ write.chunk = chunk) ∨
    ∃ i sessionId protocol, action = .bindSync i sessionId protocol ∧
      (chunk.seq < protocol.nextInputSeq ∨ s.sameProducer protocol = false) := by
  cases action with
  | sendBytes data =>
    rw [← Option.some.inj hstep, sendBytes] at hgone
    split at hgone
    · exact absurd hchk hgone
    · exact absurd (mem_pumpInput (mem_queueChunks _ hchk)) hgone
  | writeAnswered sessionGeneration =>
    obtain ⟨write, hwrite, rfl⟩ := Option.map_eq_some_iff.1 hstep
    rw [writeAnswered] at hgone
    split at hgone
    · exact absurd hchk hgone
    next hnew =>
    refine .inl ⟨sessionGeneration, write, rfl, hwrite, ?_⟩
    have hhead := not_ne_iff.1 (not_or.1 hnew).2
    cases hpend : s.pendingInput with
    | nil =>
      rw [hpend] at hchk
      cases hchk
    | cons first chunks =>
      rw [hpend] at hchk hhead
      rcases mem_cons.1 hchk with heq | hrest
      · rw [heq]
        exact (Option.some.inj hhead).symm
      · -- what is behind the first stays
        refine absurd ?_ hgone
        rcases pumpNext_spec { s with
            pendingInput := s.pendingInput.tail
            pendingInputBytes := s.pendingInputBytes - write.chunk.data.length } with
          ⟨_, _, _, _, _, -, -, -, heq⟩ | ⟨heq, -⟩
        all_goals
          rw [heq, hpend]
          exact hrest
  | writeFailed | mount =>
    dsimp only [surfaceStep] at hstep
    split at hstep
    · exact absurd (Option.some.inj hstep ▸ hchk) hgone
    · cases hstep
  | hostConnection connected gen =>
    rw [← Option.some.inj hstep, hostConnection] at hgone
    split at hgone
    · exact (hgone (mem_resyncSession hchk)).elim
    · exact absurd hchk hgone
  | resync => exact absurd (Option.some.inj hstep ▸ mem_resyncSession hchk) hgone
  | timer =>
    dsimp only [surfaceStep] at hstep
    split at hstep
    · exact absurd (Option.some.inj hstep ▸ mem_resyncSession hchk) hgone
    · cases hstep
  | restart connected => exact absurd (Option.some.inj hstep ▸ hchk) hgone
  | bindSync i sessionId protocol =>
    obtain ⟨sync, -, -, rfl⟩ := exists_of_withSync hstep
    refine .inr ⟨i, sessionId, protocol, rfl, ?_⟩
    by_cases hsame : s.sameProducer protocol = true
    · refine .inl (Nat.not_le.1 fun hle => hgone ?_)
      change chunk ∈ s.keptInput protocol
      rw [keptInput, if_pos hsame]
      exact mem_filter.2 ⟨hchk, decide_eq_true hle⟩
    · exact .inr (not_eq_true _ ▸ hsame)
  | retry | attachMissing | hostTabUpdated =>
    obtain ⟨sync, -, -, rfl⟩ := exists_of_withSync hstep
    exact absurd hchk hgone
  | syncRestored | startFlushed =>
    obtain ⟨sync, -, -, rfl⟩ := exists_of_withSync hstep
    exact absurd (mem_pumpInput hchk) hgone
  | syncFlushed i gap =>
    obtain ⟨sync, -, -, rfl⟩ := exists_of_withSync hstep
    rw [syncFlushed] at hgone
    split at hgone <;> exact absurd hchk hgone
  | syncFailed i sessionMissing =>
    obtain ⟨sync, -, -, rfl⟩ := exists_of_withSync hstep
    rw [syncFailed] at hgone
    split at hgone <;> exact absurd hchk hgone
  | startReady i ready =>
    obtain ⟨sync, -, -, rfl⟩ := exists_of_withSync hstep
    rw [startReady] at hgone
    split at hgone
    · exact absurd hchk hgone
    · exact absurd (mem_pumpInput hchk) hgone

end TerminalSurface

open TerminalSurface

/-- **Input is neither repeated, nor reordered, nor stranded**, in runs
that keep it. A number of a stream is sent with one chunk only, and the
numbers in the queue follow one another; a chunk leaves the queue only as
its write is answered or as a stream is bound that has it or is another;
and while the viewer is connected, a stream is bound and the queue is not
empty, a write is waited for, or a pump or a resync is to come. -/
theorem input_neither_repeated_nor_stranded {s : TerminalSurface}
    (hs : (surfaceMachine.restrict InputKept).Reachable s) :
    (∀ sent ∈ s.sent, ∀ sent' ∈ s.sent, sent.sessionGeneration = sent'.sessionGeneration →
      sent.inputStreamId = sent'.inputStreamId → sent.seq = sent'.seq →
      sent.data = sent'.data) ∧
    (∃ first, s.pendingInput.map InputChunk.seq = range' first s.pendingInput.length) ∧
    (∀ action s' chunk, s.surfaceStep action = some s' → chunk ∈ s.pendingInput →
      chunk ∉ s'.pendingInput →
      (∃ sessionGeneration write, action = .writeAnswered sessionGeneration ∧
        s.inputPump = some write ∧ write.chunk = chunk) ∨
      ∃ i sessionId protocol, action = .bindSync i sessionId protocol ∧
        (chunk.seq < protocol.nextInputSeq ∨ s.sameProducer protocol = false)) ∧
    (s.connected = true → s.bound = true → s.pendingInput ≠ [] →
      s.inputPump.isSome = true ∨ 0 < s.timers ∨ s.remount = true ∨
        ∃ sync ∈ s.syncs, sync.awaited = true) := by
  obtain ⟨hnumbered, hserved⟩ := inputKept_of_reachable hs
  obtain ⟨first, hseqs, -⟩ := hnumbered.consecutive
  refine ⟨hnumbered.unique, ⟨first, hseqs⟩, fun action s' chunk => answered_or_bound_of_gone,
    fun hconnected hbound hpending => (hserved.served hconnected hbound hpending).imp_right
      fun h => ?_⟩
  rw [resumes, or_eq_true, or_eq_true, decide_eq_true_iff, any_eq_true, or_assoc] at h
  exact h

/-- A session is started, and its stream is bound. -/
def startedSurface : List SurfaceAction :=
  [.mount none, .bindSync 0 "terminal" ⟨"stream", 1, 1⟩, .startReady 0 true, .startFlushed 0 false]

/-- Two keys are typed, and a resync that has the first finds the pump
waiting for its write. -/
def crossedWrite : List SurfaceAction :=
  [.sendBytes [97], .sendBytes [98], .resync, .bindSync 0 "terminal" ⟨"stream", 2, 1⟩,
    .syncRestored 0, .syncFlushed 0 false]

/-- A write that crosses a resync. -/
theorem input_neither_repeated_nor_stranded_example :
    let s := (surfaceMachine.restrict InputKept).run (startedSurface ++ crossedWrite) .init
    (s.pendingInput.map InputChunk.seq = [2]) ∧
      (s.connected = true → s.bound = true → s.pendingInput ≠ [] →
        s.inputPump.isSome = true ∨ 0 < s.timers ∨ s.remount = true ∨
          ∃ sync ∈ s.syncs, sync.awaited = true) :=
  ⟨by decide +kernel, (input_neither_repeated_nor_stranded ⟨startedSurface ++ crossedWrite,
    Machine.exec_eq_run (by decide +kernel)⟩).2.2.2⟩

/-- **Input is stranded, and a number is used twice.** The write that is
answered after the resync is no longer the first of the queue, and the
pump stops before the second key. A resync that was told the next number
before a write, and binds it after the write was answered, gives its
number to the key that is typed next. After a start that failed, the resync
that a write asks for is refused. -/
theorem crossed_write_strands_input :
    (∀ actions ∈ [crossedWrite ++ [SurfaceAction.writeAnswered 1],
        [.restart true, .syncFailed 0 false, .sendBytes [97], .writeFailed true, .timer]],
      ∃ s, surfaceMachine.exec (startedSurface ++ actions) .init = some s ∧
        s.connected = true ∧ s.bound = true ∧ s.pendingInput ≠ [] ∧ s.inputPump = none ∧
        s.timers = 0 ∧ s.remount = false ∧ s.syncs = []) ∧
    ∃ s, surfaceMachine.Reachable s ∧ ∃ sent ∈ s.sent, ∃ sent' ∈ s.sent,
      sent.sessionGeneration = sent'.sessionGeneration ∧
      sent.inputStreamId = sent'.inputStreamId ∧ sent.seq = sent'.seq ∧ sent.data ≠ sent'.data :=
  ⟨forall_mem_cons.2 ⟨⟨_, Machine.exec_eq_run (by decide +kernel), by decide +kernel⟩,
    forall_mem_singleton.2 ⟨_, Machine.exec_eq_run (by decide +kernel), by decide +kernel⟩⟩,
  ⟨surfaceMachine.run (startedSurface ++ [SurfaceAction.sendBytes [97], .resync, .writeAnswered 1,
      .bindSync 0 "terminal" ⟨"stream", 1, 1⟩, .syncRestored 0, .syncFlushed 0 false,
      .sendBytes [98]]) .init,
    ⟨_, Machine.exec_eq_run (by decide +kernel)⟩, by decide +kernel⟩⟩

end Terminal

end Remux
