import Remux.Common.Lists
import Remux.Common.Segments
import Remux.Terminal.Model.Session

/-!
# Terminal output reaches a viewer

The replay of a session is the end of its output, so that every page is a
segment of the output and the reply of an attach, the pages after it and
the frames of `ready` meet. From then on a viewer is told each frame, but
not each one once: a frame that the reader sends after it let go of the
lock may be one that a reply or `ready` brought before. A viewer that drops
the frames it has had sees the output without a gap.
-/

namespace Remux

open Assoc OutputNotification List Except Nat SessionRecord TerminalViewer

variable {output frames : List OutputFrame} {a b through : ℕ}

/-! ## Frames that are new -/

/-- The frames that a viewer has not had: it drops those up to the last one
it took. -/
def fresh : ℕ → List OutputFrame → List OutputFrame
  | _, [] => []
  | last, frame :: rest =>
      if last < frame.seq then frame :: fresh frame.seq rest else fresh last rest

/-- The last frame a viewer took. -/
def reach (last : ℕ) (frames : List OutputFrame) : ℕ :=
  frames.foldl (fun last frame => max last frame.seq) last

variable (frames more : List OutputFrame)

/-- What is new of two lists of frames. -/
theorem fresh_append (last : ℕ) :
    fresh last (frames ++ more) = fresh last frames ++ fresh (reach last frames) more := by
  induction frames generalizing last with
  | nil => rfl
  | cons frame rest ih =>
    have hreach : reach last (frame :: rest) = reach (max last frame.seq) rest := rfl
    rw [cons_append, fresh, fresh, hreach]
    by_cases hlt : last < frame.seq
    · rw [if_pos hlt, if_pos hlt, ih, max_eq_right (le_of_lt hlt), cons_append]
    · rw [if_neg hlt, if_neg hlt, ih, max_eq_left (not_lt.1 hlt)]

theorem reach_append (last : ℕ) :
    reach last (frames ++ more) = reach (reach last frames) more := foldl_append

/-- **The numbers of the output** count its frames from one on. -/
def Numbered (output : List OutputFrame) : Prop :=
  ∀ i frame, output[i]? = some frame → frame.seq = i + 1

theorem Numbered.concat (h : Numbered output) {frame : OutputFrame}
    (hseq : frame.seq = output.length + 1) : Numbered (output ++ [frame]) := by
  intro i found hfnd
  rcases getElem?_concat_eq_some.1 hfnd with hold | ⟨rfl, rfl⟩
  · exact h i found hold
  · exact hseq

/-- **A segment to a viewer that has had some of it.** By induction on the
length of the segment: its first frame is either dropped or the next one. -/
theorem fresh_segment (h : Numbered output) (ha : a ≤ through) (hb : b ≤ output.length) :
    fresh through (segment output a b) = segment output through b ∧
      reach through (segment output a b) = max through b := by
  induction hn : b - a generalizing a through with
  | zero =>
    -- nothing is sent: the segment ends where the viewer already is
    have hnil : ∀ c, b ≤ c → segment output c b = [] := fun c hc => by
      rw [← length_eq_zero_iff, length_segment hb]
      omega
    rw [hnil a (by omega), hnil through (by omega)]
    exact ⟨rfl, (max_eq_left (by omega : b ≤ through)).symm⟩
  | succ n ih =>
    have hlt : a < output.length := by omega
    have hsplit : segment output a b = output[a] :: segment output (a + 1) b := by
      rw [← segment_append_segment (le_succ a) (by omega : a + 1 ≤ b),
        segment_succ le_rfl (getElem?_eq_getElem hlt), segment_self]
      rfl
    have hseq : output[a].seq = a + 1 := h a _ (getElem?_eq_getElem hlt)
    have hreach : reach through (segment output a b) =
        reach (max through (a + 1)) (segment output (a + 1) b) := by
      rw [hsplit, ← hseq]
      rfl
    rw [hreach, hsplit, fresh, hseq]
    rcases lt_or_ge through (a + 1) with hnext | hhad
    · obtain rfl : a = through := by omega
      obtain ⟨hnew, hmax⟩ := ih (a := a + 1) le_rfl (by omega)
      rw [if_pos hnext, max_eq_right (le_of_lt hnext), hmax, hnew, ← hsplit]
      exact ⟨rfl, by omega⟩
    · obtain ⟨hnew, hmax⟩ := ih (a := a + 1) hhad (by omega)
      rw [if_neg (by omega), max_eq_left hhad, hmax, hnew]
      exact ⟨rfl, rfl⟩

/-! ## The replay of a session -/

namespace SessionRecord

variable {session : SessionRecord} {d fromSeq toSeqExclusive maxBytes : ℕ}

/-- Only the oldest frames are dropped. -/
theorem trimReplay_eq_drop (replay : List ReplayFrame) (bytes : ℕ) :
    ∃ k ≤ replay.length, (trimReplay replay bytes).1 = replay.drop k := by
  induction replay generalizing bytes with
  | nil => exact ⟨0, le_rfl, rfl⟩
  | cons frame rest ih =>
    rw [trimReplay]
    split
    · obtain ⟨k, hk, heq⟩ := ih (bytes - frame.byteLen)
      exact ⟨k + 1, succ_le_succ hk, heq⟩
    · exact ⟨0, zero_le _, rfl⟩

/-- **The replay is the end of the output**, whose first `d` frames are
trimmed. -/
structure Keeps (session : SessionRecord) (output : List OutputFrame) (d : ℕ) : Prop where
  numbered : Numbered output
  nextSeq : session.nextSeq = output.length + 1
  trimmed : d ≤ output.length
  replay : session.replay.map ReplayFrame.frame = output.drop d

/-- The first frame retained is the one after those dropped. -/
theorem Keeps.firstAvailableSeq (h : Keeps session output d) :
    session.firstAvailableSeq = d + 1 := by
  have hreplay := h.replay
  unfold SessionRecord.firstAvailableSeq
  rcases hfront : session.replay with _ | ⟨replay, rest⟩
  · rw [hfront, map_nil] at hreplay
    have hlen := drop_eq_nil_iff.1 hreplay.symm
    have hle := h.trimmed
    show session.nextSeq = d + 1
    rw [h.nextSeq]
    omega
  · rw [hfront, map_cons] at hreplay
    have hget : output[d]? = some replay.frame := by
      have hhead : (output.drop d)[0]? = some replay.frame := by rw [← hreplay]; rfl
      rwa [getElem?_drop, add_zero] at hhead
    exact h.numbered d _ hget

variable {session' subscribed : SessionRecord} {viewerKey origin : Option String} {millis : ℕ}
variable {token : Option SubscriptionToken} {notifications : List OutputNotification}

/-- A session with the same frames keeps the same output. -/
theorem Keeps.of_eq (h : Keeps session output d) (hseq : session'.nextSeq = session.nextSeq)
    (hreplay : session'.replay = session.replay) :
    Keeps session' output d :=
  ⟨h.numbered, hseq ▸ h.nextSeq, h.trimmed, hreplay ▸ h.replay⟩

/-- **A frame is appended** to the output, and others may be trimmed. -/
theorem Keeps.appendOutput (h : Keeps session output d) (bytes : List UInt8) :
    ∃ d', Keeps (session.appendOutput bytes).2 (output ++ [(session.appendOutput bytes).1]) d' := by
  obtain ⟨k, hk, htrim⟩ := trimReplay_eq_drop
    (session.replay ++ [⟨bytes.length, ⟨bytes, session.generation, session.nextSeq⟩⟩])
    (session.replayBytes + bytes.length)
  have hlen := congrArg length h.replay
  rw [length_map, length_drop] at hlen
  rw [length_append, length_singleton] at hk
  have hd := h.trimmed
  refine ⟨d + k, h.numbered.concat h.nextSeq, ?_, ?_, ?_⟩
  · show session.nextSeq + 1 = _
    rw [h.nextSeq, length_append, length_singleton]
  · rw [length_append, length_singleton]
    omega
  · show map ReplayFrame.frame (trimReplay _ _).1 = _
    rw [htrim, map_drop, map_append, h.replay, ← drop_drop, drop_append_of_le_length hd]
    rfl

/-- A page takes the first frames. -/
theorem takeFrames_prefix (maxBytes : ℕ) (replay : List ReplayFrame) (bytes : ℕ) (first : Bool) :
    takeFrames maxBytes replay bytes first <+: replay.map ReplayFrame.frame := by
  induction replay generalizing bytes first with
  | nil => exact prefix_rfl
  | cons replay rest ih =>
    rw [takeFrames]
    split
    · exact nil_prefix
    · exact cons_prefix_cons.2 ⟨rfl, ih _ _⟩

/-- The first frame is taken, whatever it holds. -/
theorem takeFrames_ne_nil {replay : List ReplayFrame} (h : replay ≠ []) :
    takeFrames maxBytes replay 0 true ≠ [] := by
  cases replay with
  | nil => exact absurd rfl h
  | cons replay rest =>
    exact cons_ne_nil _ _

/-- **A page is a segment of the output**, from where it was asked for up to
where the next one starts, and is empty only when nothing was asked for. -/
theorem Keeps.collectReplayPage (h : Keeps session output d) (maxBytes : ℕ)
    (hfrom : d + 1 ≤ fromSeq) (hto : fromSeq ≤ toSeqExclusive)
    (hnext : toSeqExclusive ≤ session.nextSeq) {page : ReplayPage}
    (hpage : session.collectReplayPage fromSeq toSeqExclusive maxBytes = page) :
    page.frames = segment output (fromSeq - 1) (page.nextSeq - 1) ∧ fromSeq ≤ page.nextSeq ∧
      page.nextSeq ≤ toSeqExclusive ∧
      (page.complete = true ↔ page.nextSeq = toSeqExclusive) ∧
      (fromSeq < toSeqExclusive → fromSeq < page.nextSeq) := by
  subst hpage
  have hlen := h.nextSeq
  have hfilter : ((session.replay.filter fun replay =>
      decide (fromSeq ≤ replay.frame.seq ∧ replay.frame.seq < toSeqExclusive)).map
        ReplayFrame.frame) = segment output (fromSeq - 1) (toSeqExclusive - 1) := by
    have hmap := filter_map (f := ReplayFrame.frame) (l := session.replay)
      (p := fun frame => decide (fromSeq ≤ frame.seq ∧ frame.seq < toSeqExclusive))
    rw [h.replay] at hmap
    refine hmap.symm.trans (filter_drop_eq_segment (fun i frame hfr => ?_) (by omega))
    rw [decide_eq_true_iff, h.numbered i frame hfr]
    omega
  have hprefix := takeFrames_prefix maxBytes (session.replay.filter fun replay =>
    decide (fromSeq ≤ replay.frame.seq ∧ replay.frame.seq < toSeqExclusive)) 0 true
  rw [hfilter] at hprefix
  have hfrs := eq_segment_of_prefix hprefix
  have hcnt := hprefix.length_le
  rw [length_segment (by omega)] at hcnt
  have hnonempty : fromSeq < toSeqExclusive →
    takeFrames maxBytes (session.replay.filter fun replay =>
      decide (fromSeq ≤ replay.frame.seq ∧ replay.frame.seq < toSeqExclusive)) 0 true ≠ [] := by
    intro hlt
    refine takeFrames_ne_nil fun hnil => ?_
    rw [hnil, map_nil] at hfilter
    have hzero := congrArg length hfilter
    rw [length_segment (by omega), length_nil] at hzero
    omega
  unfold SessionRecord.collectReplayPage
  generalize takeFrames maxBytes _ 0 true = frames at hfrs hcnt hnonempty ⊢
  -- the last frame's number is that of its position in the output
  have hnextSeq : (frames.getLast?.map fun frame => frame.seq + 1).getD fromSeq =
      fromSeq + frames.length := by
    rcases eq_nil_or_concat frames with rfl | ⟨init, last, rfl⟩
    · rfl
    · rw [concat_eq_append, getLast?_concat]
      have hlast : output[fromSeq - 1 + init.length]? = some last := by
        rw [← getElem?_segment (b := fromSeq - 1 + (init.concat last).length) (by simp), ← hfrs,
          concat_eq_append, getElem?_concat_length]
      have hseq := h.numbered _ _ hlast
      show last.seq + 1 = _
      rw [hseq, length_append, length_singleton]
      omega
  dsimp only
  rw [hnextSeq]
  refine ⟨?_, by omega, by omega, ?_, fun hlt => ?_⟩
  · rw [show fromSeq + frames.length - 1 = fromSeq - 1 + frames.length by omega]
    exact hfrs
  · rw [decide_eq_true_iff]
    omega
  · have := length_pos_iff.2 (hnonempty hlt)
    omega

/-! ## Subscriptions -/

/-- **The subscriptions of a session** have tokens of their own, and a
pending one stands where its viewer attached. -/
structure Subscribed (session : SessionRecord) : Prop where
  issued : ∀ {key subscription}, session.subscriptions.lookup key = some subscription →
    subscription.token.id ≤ session.nextSubscriptionId
  unique : ∀ {key key' subscription subscription'},
    session.subscriptions.lookup key = some subscription →
    session.subscriptions.lookup key' = some subscription' →
    subscription.token = subscription'.token → key = key'
  pending : ∀ {key subscription}, session.subscriptions.lookup key = some subscription →
    1 ≤ subscription.catchupEndSeq ∧ subscription.catchupEndSeq ≤ session.nextSeq ∧
      (subscription.active = false → subscription.nextSeq = subscription.catchupEndSeq)

/-- **What a request does to the subscriptions** leaves the output alone, and
a subscription afterwards is one from before or has a new token. -/
structure Resubscribed (session session' : SessionRecord) : Prop where
  nextSeq : session'.nextSeq = session.nextSeq
  replay : session'.replay = session.replay
  issued : session.nextSubscriptionId ≤ session'.nextSubscriptionId
  lookup : ∀ {key subscription}, session'.subscriptions.lookup key = some subscription →
    session.subscriptions.lookup key = some subscription ∨
      session.nextSubscriptionId < subscription.token.id

theorem Resubscribed.refl (session : SessionRecord) : Resubscribed session session :=
  ⟨rfl, rfl, le_rfl, .inl⟩

/-- A subscription is made, with a token of its own, if the viewer has an
origin. -/
theorem subscribePending_spec {nextSeq : ℕ}
    (h : session.subscribePending viewerKey origin nextSeq millis = .ok (token, subscribed)) :
    token = none ∧ subscribed = session ∨ ∃ key name new, origin = some name ∧ token = some new ∧
        new.id = session.nextSubscriptionId + 1 ∧
        subscribed = { session with
          nextSubscriptionId := session.nextSubscriptionId + 1
          subscriptions := session.subscriptions.insert key ⟨false, nextSeq, nextSeq, name,
            new⟩ } := by
  unfold subscribePending at h
  split at h
  · obtain ⟨rfl, rfl⟩ := Prod.mk.injEq .. ▸ ok.inj h
    exact .inl ⟨rfl, rfl⟩
  · next name hname =>
    have horigin : origin = some name := (Option.filter_eq_some_iff.1 hname).1
    dsimp only at h
    split at h
    · cases h
    · obtain ⟨rfl, rfl⟩ := Prod.mk.injEq .. ▸ ok.inj h
      exact .inr ⟨_, name, _, horigin, rfl, rfl, rfl⟩

theorem resubscribed_subscribePending {nextSeq : ℕ}
    (h : session.subscribePending viewerKey origin nextSeq millis = .ok (token, subscribed)) :
    Resubscribed session subscribed := by
  rcases subscribePending_spec h with ⟨-, rfl⟩ | ⟨key, name, new, -, -, hid, rfl⟩
  · exact Resubscribed.refl _
  · refine ⟨rfl, rfl, le_succ _, fun {key' subscription} hget => ?_⟩
    rw [lookup_insert_eq] at hget
    split at hget
    · cases hget
      exact .inr (by show _ < new.id; omega)
    · exact .inl hget

/-- A new subscription is pending at the next number. -/
theorem Subscribed.subscribePending (h : Subscribed session) (hpos : 1 ≤ session.nextSeq)
    (hsubs : session.subscribePending viewerKey origin session.nextSeq millis =
      .ok (token, subscribed)) : Subscribed subscribed := by
  rcases subscribePending_spec hsubs with ⟨-, rfl⟩ | ⟨key, name, new, -, -, hid, rfl⟩
  · exact h
  · have hold : ∀ {key' subscription}, session.subscriptions.lookup key' = some subscription →
        subscription.token ≠ new := by
      rintro key' subscription hget rfl
      have := h.issued hget
      omega
    refine ⟨fun {key' subscription} hget => ?_, fun {key₁ key₂ _ _} h₁ h₂ htok => ?_,
      fun {key' subscription} hget => ?_⟩
    · rw [lookup_insert_eq] at hget
      split at hget
      · cases hget
        exact le_of_eq hid
      · exact le_succ_of_le (h.issued hget)
    · rw [lookup_insert_eq] at h₁ h₂
      split at h₁ <;> split at h₂
      · next hk₁ hk₂ => exact hk₁.trans hk₂.symm
      · cases h₁
        exact absurd htok.symm (hold h₂)
      · cases h₂
        exact absurd htok (hold h₁)
      · exact h.unique h₁ h₂ htok
    · rw [lookup_insert_eq] at hget
      split at hget
      · cases hget
        exact ⟨hpos, le_rfl, fun _ => rfl⟩
      · exact h.pending hget

/-- A subscription that is removed leaves the others. -/
theorem Subscribed.erase (h : Subscribed session) (key : String) :
    Subscribed { session with subscriptions := session.subscriptions.erase key } := by
  have hold : ∀ {key' subscription}, (session.subscriptions.erase key).lookup key' =
      some subscription → session.subscriptions.lookup key' = some subscription := by
    intro key' subscription hget
    rw [lookup_erase_eq] at hget
    split at hget
    · cases hget
    · exact hget
  exact ⟨fun hget => h.issued (hold hget), fun h₁ h₂ => h.unique (hold h₁) (hold h₂),
    fun hget => h.pending (hold hget)⟩

/-- A detach changes nothing but one subscription, which goes. -/
theorem detachSession_spec {params : SessionDetachParams}
    (h : session.detachSession params = .ok session') :
    session' = session ∨
      ∃ key, session' = { session with subscriptions := session.subscriptions.erase key } := by
  unfold detachSession at h
  split at h
  · cases h
  · split at h
    · exact .inl (ok.inj h).symm
    · next key _ => exact .inr ⟨key, (ok.inj h).symm⟩

theorem resubscribed_erase (session : SessionRecord) (key : String) :
    Resubscribed session { session with subscriptions := session.subscriptions.erase key } := by
  refine ⟨rfl, rfl, le_rfl, fun {key' subscription} hget => .inl ?_⟩
  rw [lookup_erase_eq] at hget
  split at hget
  · cases hget
  · exact hget

theorem lookup_of_subscriptionOf {token : SubscriptionToken} {key : String}
    {subscription : TerminalSubscription}
    (h : session.subscriptionOf token = some ⟨key, subscription⟩) :
    session.subscriptions.lookup key = some subscription ∧ subscription.token = token := by
  have htok := find?_some h
  exact ⟨mem_entries_iff.1 (mem_of_find?_eq_some h), of_decide_eq_true htok⟩

/-- **What `ready` does.** It sends nothing and changes nothing, unless the
subscription was pending and all frames since its viewer attached make up
a page: these it sends, and the subscription is active. -/
theorem readySession_spec {params : SessionReadyParams} {answer : SessionReady}
    (h : session.readySession params = (answer, notifications, session')) :
    (notifications = [] ∧ session' = session ∧ (answer.isOk = true → ∃ key subscription,
        session.subscriptions.lookup key = some subscription ∧
          subscription.token = params.subscriptionToken ∧ subscription.active = true)) ∨
      ∃ key subscription page, session.subscriptions.lookup key = some subscription ∧
        subscription.token = params.subscriptionToken ∧ subscription.active = false ∧
        answer.isOk = true ∧ session.firstAvailableSeq ≤ subscription.nextSeq ∧
        session.collectReplayPage subscription.nextSeq session.nextSeq maxReadyCatchupBytes = page ∧
        page.complete = true ∧
        notifications = page.frames.map (fun frame => ⟨some subscription.origin, frame⟩) ∧
        session' = { session with
          subscriptions := session.subscriptions.insert key
            { subscription with nextSeq := session.nextSeq, active := true } } := by
  unfold readySession at h
  split at h
  · cases h
    exact .inl ⟨rfl, rfl, fun hok => Bool.noConfusion hok⟩
  · split at h
    · cases h
      exact .inl ⟨rfl, rfl, fun hok => Bool.noConfusion hok⟩
    · next key subscription hfnd =>
      obtain ⟨hget, htok⟩ := lookup_of_subscriptionOf hfnd
      split at h
      · next hact =>
        cases h
        exact .inl ⟨rfl, rfl, fun _ => ⟨key, subscription, hget, htok, hact⟩⟩
      · next hact =>
        dsimp only at h
        repeat' split at h
        iterate 4
          · cases h
            exact .inl ⟨rfl, rfl, fun hok => Bool.noConfusion hok⟩
        · next hfst hcomp =>
          cases h
          exact .inr ⟨key, subscription, _, hget, htok, Bool.eq_false_iff.2 hact, rfl,
            not_lt.1 hfst, rfl, (Bool.not_eq_false _).mp hcomp, rfl, rfl⟩

/-- **What the reader does under the lock**: the frame is appended, and is to
be sent to the origin of every active subscription. -/
theorem publishOutput_spec (h : Keeps session output d) {bytes : List UInt8} {frame : OutputFrame}
    (hpublish : session.publishOutput bytes = (frame, notifications, session')) :
    (∃ d', Keeps session' (output ++ [frame]) d') ∧ session'.subscriptions = session.subscriptions ∧
      session'.nextSubscriptionId = session.nextSubscriptionId ∧
      session'.nextSeq = session.nextSeq + 1 ∧ (∀ n ∈ notifications, n.frame = frame) ∧
      ∀ {key subscription}, session.subscriptions.lookup key = some subscription →
        subscription.active = true → ∃ n ∈ notifications, n.target = some subscription.origin := by
  have hfr : (session.appendOutput bytes).1 = frame := (Prod.mk.inj hpublish).1
  have hsess : (session.appendOutput bytes).2 = session' :=
    (Prod.mk.inj (Prod.mk.inj hpublish).2).2
  have hnotes : (if (session.appendOutput bytes).2.subscriptions.entries = [] then
      [⟨none, (session.appendOutput bytes).1⟩]
    else (session.appendOutput bytes).2.activeOrigins.map fun origin =>
      ⟨some origin, (session.appendOutput bytes).1⟩) = notifications :=
    (Prod.mk.inj (Prod.mk.inj hpublish).2).1
  rw [hfr, hsess] at hnotes
  have hsubscriptions : session'.subscriptions = session.subscriptions := hsess ▸ rfl
  refine ⟨?_, hsubscriptions, hsess ▸ rfl, hsess ▸ rfl, fun n hn => ?_, ?_⟩
  · rw [← hfr, ← hsess]
    exact h.appendOutput bytes
  · rw [← hnotes] at hn
    split at hn
    · rw [mem_singleton.1 hn]
    · obtain ⟨origin, -, rfl⟩ := mem_map.1 hn
      rfl
  · intro key subscription hget hact
    have hent : (⟨key, subscription⟩ : Σ _ : String, TerminalSubscription) ∈
        session'.subscriptions.entries := mem_entries_iff.2 (hsubscriptions ▸ hget)
    have hmem : subscription.origin ∈ session'.activeOrigins :=
      mem_dedup.2 (mem_map.2 ⟨_, mem_filter.2 ⟨hent, hact⟩, rfl⟩)
    rw [if_neg (ne_nil_of_mem hent)] at hnotes
    exact ⟨⟨some subscription.origin, frame⟩, hnotes ▸ mem_map_of_mem hmem, rfl⟩

end SessionRecord

/-! ## What a viewer is sent -/

variable {s t : TerminalState} {viewer : TerminalViewer} {unsent : List OutputNotification}

/-- The viewer's subscription is still one of the session's. -/
def Registered (session : SessionRecord) (viewer : TerminalViewer) : Prop :=
  ∃ key subscription, session.subscriptions.lookup key = some subscription ∧
    viewer.token = some subscription.token

/-- **The viewer was told the output up to `through`**: the tail goes on
where it attached, and of what it was sent live the frames that are new go
on from there. -/
def ToldThrough (output : List OutputFrame) (viewer : TerminalViewer) (through : ℕ) : Prop :=
  ∃ start, viewer.catchupEndSeq - 1 ≤ start ∧ start ≤ through ∧ through ≤ output.length ∧
    viewer.tail = segment output (viewer.catchupEndSeq - 1) start ∧
    fresh start viewer.live = segment output start through ∧ reach start viewer.live = through

/-- It was told everything, or the reader has still to send the last frame
to its origin. -/
def UpToDate (output : List OutputFrame) (unsent : List OutputNotification)
    (viewer : TerminalViewer) (through : ℕ) : Prop :=
  through = output.length ∨ through + 1 = output.length ∧ ∃ n ∈ unsent, n.target = viewer.origin

variable (h : ToldThrough output viewer through)
include h

/-- Output that goes on leaves what was told. -/
theorem ToldThrough.concat (frame : OutputFrame) :
    ToldThrough (output ++ [frame]) viewer through := by
  obtain ⟨start, hfrom, hto, hlen, htail, hnew, hreach⟩ := h
  refine ⟨start, hfrom, hto, ?_, ?_, ?_, hreach⟩
  · rw [length_append]
    omega
  · rw [htail, segment_append_right (by omega)]
  · rw [hnew, segment_append_right hlen]

/-- **A segment that starts where the viewer is, or before,** takes it to its
end. -/
theorem ToldThrough.receive (hnum : Numbered output) (ha : a ≤ through) (hb : b ≤ output.length) :
    ToldThrough output { viewer with live := viewer.live ++ segment output a b }
      (max through b) := by
  obtain ⟨start, hfrom, hto, hlen, htail, hfresh, hreach⟩ := h
  obtain ⟨hnew, hmax⟩ := fresh_segment hnum ha hb
  refine ⟨start, hfrom, by omega, by omega, htail, ?_, ?_⟩
  · rw [fresh_append, hfresh, hreach, hnew]
    rcases le_total through b with hle | hle
    · rw [segment_append_segment hto hle, max_eq_right hle]
    · have hnil : segment output through b = [] := by
        rw [← length_eq_zero_iff, length_segment hb]
        omega
      rw [hnil, append_nil, max_eq_left hle]
  · rw [reach_append, hreach, hmax]

/-- **The end of the output** leaves a viewer no further behind. -/
theorem ToldThrough.catchUp (hupTo : UpToDate output unsent viewer through) (hnum : Numbered output)
    (ha : a ≤ output.length) : ∃ through',
      ToldThrough output { viewer with live := viewer.live ++ segment output a output.length }
        through' ∧ UpToDate output unsent viewer through' := by
  rcases lt_or_ge through a with hbehind | hwithin
  -- only the last frame can be missing, so that nothing is sent
  · obtain rfl : a = output.length := by
      rcases hupTo with rfl | ⟨heq, -⟩ <;> omega
    rw [segment_self, append_nil]
    exact ⟨through, h, hupTo⟩
  · have hle : through ≤ output.length := by
      rcases hupTo with rfl | ⟨heq, -⟩ <;> omega
    exact ⟨max through output.length, h.receive hnum hwithin le_rfl, .inl (max_eq_right hle)⟩

omit h

namespace TerminalViewer

/-- Notifications to one target reach a viewer all or not at all. -/
theorem foldl_receive (viewer : TerminalViewer) {target : Option String}
    {notifications : List OutputNotification} (h : ∀ n ∈ notifications, n.target = target) :
    notifications.foldl receive viewer =
      if viewer.ready = true ∧ (target = none ∨ target = viewer.origin) then
        { viewer with live := viewer.live ++ notifications.map frame }
      else viewer := by
  induction notifications generalizing viewer with
  | nil =>
    rw [foldl_nil, map_nil, append_nil]
    split <;> rfl
  | cons n rest ih =>
    have hrest : ∀ m ∈ rest, m.target = target := fun m hm => h m (mem_cons_of_mem _ hm)
    have hrecv : viewer.receive n =
        if viewer.ready = true ∧ (target = none ∨ target = viewer.origin) then
          { viewer with live := viewer.live ++ [n.frame] }
        else viewer := by
      rw [receive, h n mem_cons_self]
    rw [foldl_cons, hrecv]
    by_cases hmeant : viewer.ready = true ∧ (target = none ∨ target = viewer.origin)
    · rw [if_pos hmeant, if_pos hmeant, ih _ hrest]
      rw [if_pos hmeant, append_assoc]
      rfl
    · rw [if_neg hmeant, if_neg hmeant, ih _ hrest, if_neg hmeant]

end TerminalViewer

/-- **What a viewer was sent**, at any time: the pages it read meet, its
subscription knows how far it has come, and once it is ready it is told
every frame. -/
structure Served (s : TerminalState) (viewer : TerminalViewer) : Prop where
  begun : viewer.throughSeq + 1 ≤ viewer.replayNextSeq ∧
    viewer.replayNextSeq ≤ s.output.length + 1
  attachedAt : 1 ≤ viewer.catchupEndSeq ∧ viewer.catchupEndSeq ≤ s.output.length + 1
  pages : viewer.truncated = false →
    viewer.replies = segment s.output viewer.throughSeq (viewer.replayNextSeq - 1) ∧
      viewer.replayNextSeq ≤ viewer.catchupEndSeq
  complete : viewer.truncated = false → viewer.replayComplete = true →
    viewer.replayNextSeq = viewer.catchupEndSeq
  issued : ∀ {token}, viewer.token = some token → token.id ≤ s.session.nextSubscriptionId
  matched : ∀ {key subscription}, s.session.subscriptions.lookup key = some subscription →
    viewer.token = some subscription.token →
      viewer.origin = some subscription.origin ∧
        subscription.catchupEndSeq = viewer.catchupEndSeq ∧ subscription.active = viewer.ready
  quiet : viewer.ready = false → viewer.live = []
  told : viewer.ready = true → Registered s.session viewer →
    ∃ through, ToldThrough s.output viewer through ∧ UpToDate s.output s.unsent viewer through

/-- **The invariant of a run.** -/
structure TerminalSound (s : TerminalState) : Prop where
  keeps : ∃ d, s.session.Keeps s.output d
  subscribed : s.session.Subscribed
  unsent : ∀ n ∈ s.unsent, 1 ≤ s.output.length ∧
    [n.frame] = segment s.output (s.output.length - 1) s.output.length
  viewers : ∀ viewer ∈ s.viewers, Served s viewer

/-- A viewer is left alone by what others do to the subscriptions. -/
theorem Served.resubscribed (h : Served s viewer)
    (hchg : s.session.Resubscribed t.session) (houtput : t.output = s.output)
    (hunsent : t.unsent = s.unsent) : Served t viewer := by
  have hold : ∀ {key subscription}, t.session.subscriptions.lookup key = some subscription →
      viewer.token = some subscription.token →
        s.session.subscriptions.lookup key = some subscription := by
    intro key subscription hget htok
    refine (hchg.lookup hget).resolve_right fun hnew => ?_
    have := h.issued htok
    omega
  refine ⟨houtput ▸ h.begun, houtput ▸ h.attachedAt, houtput ▸ h.pages, h.complete,
    fun htok => le_trans (h.issued htok) hchg.issued,
    fun hget htok => h.matched (hold hget htok) htok, h.quiet, ?_⟩
  rintro hready ⟨key, subscription, hget, htok⟩
  rw [houtput, hunsent]
  exact h.told hready ⟨key, subscription, hold hget htok, htok⟩

variable {session : SessionRecord}

theorem resubscribed_detachSession {session' : SessionRecord} {params : SessionDetachParams}
    (h : session.detachSession params = .ok session') : session.Resubscribed session' := by
  rcases detachSession_spec h with rfl | ⟨key, rfl⟩
  · exact .refl _
  · exact resubscribed_erase session key

/-- The step lemma for what changes the subscriptions only. -/
theorem TerminalSound.resubscribed (h : TerminalSound s)
    (hchg : s.session.Resubscribed t.session) (hsubs : t.session.Subscribed)
    (houtput : t.output = s.output) (hunsent : t.unsent = s.unsent)
    (hviewers : ∀ viewer ∈ t.viewers, viewer ∈ s.viewers ∨ Served t viewer) : TerminalSound t where
  keeps := by
    obtain ⟨d, hd⟩ := h.keeps
    exact ⟨d, houtput ▸ hd.of_eq hchg.nextSeq hchg.replay⟩
  subscribed := hsubs
  unsent := by
    rw [hunsent, houtput]
    exact h.unsent
  viewers viewer hview := (hviewers viewer hview).elim
    (fun hold => (h.viewers viewer hold).resubscribed hchg houtput hunsent) id

/-- **A frame comes**: every ready viewer that is still registered was told
the one before, and is owed this one. -/
theorem TerminalSound.publish (h : TerminalSound s) (hidle : s.unsent = []) {bytes : List UInt8}
    {frame : OutputFrame} {notifications : List OutputNotification}
    (hpublish : s.session.publishOutput bytes = (frame, notifications, session)) :
    TerminalSound { s with session, output := s.output ++ [frame], unsent := notifications } := by
  obtain ⟨d, hd⟩ := h.keeps
  obtain ⟨hkeeps, hsame, hiss, hnext, hfrs, hact⟩ := publishOutput_spec hd hpublish
  have hlast : segment (s.output ++ [frame]) s.output.length (s.output.length + 1) = [frame] := by
    rw [segment_succ le_rfl getElem?_concat_length, segment_self]
    rfl
  have hlen : (s.output ++ [frame]).length = s.output.length + 1 := length_append
  refine ⟨hkeeps, ⟨?_, ?_, ?_⟩, fun n hn => ?_, fun viewer hview => ?_⟩
  · rw [hsame, hiss]
    exact h.subscribed.issued
  · rw [hsame]
    exact h.subscribed.unique
  · rw [hsame, hnext]
    intro key subscription hget
    obtain ⟨hpos, hle, hpend⟩ := h.subscribed.pending hget
    exact ⟨hpos, Nat.le_succ_of_le hle, hpend⟩
  · rw [hfrs n hn]
    rw [hlen, Nat.add_sub_cancel, hlast]
    exact ⟨Nat.succ_pos _, rfl⟩
  · have hsrv := h.viewers viewer hview
    obtain ⟨hpos, hle⟩ := hsrv.attachedAt
    refine ⟨⟨hsrv.begun.1, ?_⟩, ⟨hpos, ?_⟩, fun hwh => ?_, hsrv.complete, ?_, ?_, hsrv.quiet, ?_⟩
    · rw [hlen]
      exact Nat.le_succ_of_le hsrv.begun.2
    · rw [hlen]
      exact Nat.le_succ_of_le hle
    · obtain ⟨hreplies, hwithin⟩ := hsrv.pages hwh
      exact ⟨hreplies.trans (segment_append_right (by omega)).symm, hwithin⟩
    · rw [hiss]
      exact hsrv.issued
    · rw [hsame]
      exact hsrv.matched
    · rintro hready ⟨key, subscription, hget, htok⟩
      rw [hsame] at hget
      obtain ⟨through, htold, hupTo⟩ := hsrv.told hready ⟨key, subscription, hget, htok⟩
      rw [hidle] at hupTo
      have hthru : through = s.output.length := by
        refine hupTo.resolve_right fun howed => ?_
        obtain ⟨-, n, hn, -⟩ := howed
        exact not_mem_nil hn
      -- its subscription is active, so that its origin is one of those the frame is sent to
      obtain ⟨horigin, -, hsubscription⟩ := hsrv.matched hget htok
      obtain ⟨n, hn, htgt⟩ := hact hget (hsubscription.trans hready)
      exact ⟨through, htold.concat frame, .inr ⟨by rw [hlen, hthru], n, hn,
        htgt.trans horigin.symm⟩⟩

/-- **A notification is sent**: it repeats a frame, or is the one that the
viewer is owed. -/
theorem TerminalSound.send (h : TerminalSound s) {n : OutputNotification} (hn : n ∈ s.unsent) :
    TerminalSound { s with
      unsent := s.unsent.erase n
      viewers := TerminalState.deliver [n] s.viewers } := by
  obtain ⟨d, hd⟩ := h.keeps
  obtain ⟨hsome, hlast⟩ := h.unsent n hn
  refine ⟨h.keeps, h.subscribed, fun m hm => h.unsent m (mem_of_mem_erase hm), ?_⟩
  intro viewer' hview'
  obtain ⟨viewer, hview, rfl⟩ := mem_map.1 hview'
  have hsrv := h.viewers viewer hview
  have htgt : ∀ m ∈ [n], m.target = n.target := fun m hm => by rw [mem_singleton.1 hm]
  have hrecv := foldl_receive viewer htgt
  rw [hrecv]
  by_cases hmeant : viewer.ready = true ∧ (n.target = none ∨ n.target = viewer.origin)
  · rw [if_pos hmeant]
    refine { hsrv with quiet := fun hpend => ?_, told := fun hready hreg => ?_ }
    · rw [hmeant.1] at hpend
      cases hpend
    · obtain ⟨through, htold, hupTo⟩ := hsrv.told hready hreg
      have hto : s.output.length - 1 ≤ through := by
        rcases hupTo with rfl | ⟨heq, -⟩ <;> omega
      have hle : through ≤ s.output.length := by
        rcases hupTo with rfl | ⟨heq, -⟩ <;> omega
      refine ⟨max through s.output.length, ?_, .inl (max_eq_right hle)⟩
      rw [map_singleton, hlast]
      exact htold.receive hd.numbered hto le_rfl
  · rw [if_neg hmeant]
    refine { hsrv with told := fun hready hreg => ?_ }
    obtain ⟨through, htold, hupTo⟩ := hsrv.told hready hreg
    refine ⟨through, htold, hupTo.imp id fun ⟨heq, m, hm, htgt⟩ => ⟨heq, m, ?_, htgt⟩⟩
    refine (mem_erase_of_ne fun hsame => ?_).2 hm
    exact hmeant ⟨hready, .inr (hsame ▸ htgt)⟩

/-- **A page that a viewer reads** goes on where the last one ended, or is
said to be truncated. -/
theorem Served.pageParams (h : Served s viewer) (hsnd : TerminalSound s) (maxBytes : Option ℕ) :
    ∃ page, s.session.readReplay (viewer.pageParams s.session.generation maxBytes) = .ok page ∧
      (page.complete = true ∨ viewer.replayNextSeq < page.nextSeq) ∧
      (viewer.replayNextSeq ≤ page.nextSeq ∧ page.nextSeq ≤ s.output.length + 1) ∧
      (viewer.truncated = false → page.truncated = false →
        page.frames = segment s.output (viewer.replayNextSeq - 1) (page.nextSeq - 1) ∧
          page.nextSeq ≤ viewer.catchupEndSeq ∧
          (page.complete = true → page.nextSeq = viewer.catchupEndSeq)) := by
  obtain ⟨d, hd⟩ := hsnd.keeps
  obtain ⟨hpos, hle⟩ := h.attachedAt
  obtain ⟨hbegun, hread⟩ := h.begun
  have hnext := hd.nextSeq
  have hfst := hd.firstAvailableSeq
  have htrimmed := hd.trimmed
  refine ⟨_, if_neg (not_not.2 rfl), ?_⟩
  dsimp only [TerminalViewer.pageParams, Option.getD_some]
  rw [hfst]
  have hcatchup : min viewer.catchupEndSeq s.session.nextSeq = viewer.catchupEndSeq :=
    min_eq_left (by omega)
  rw [hcatchup]
  generalize hfrom : max viewer.replayNextSeq (d + 1) = fromSeq
  generalize hto : max viewer.catchupEndSeq fromSeq = toSeqExclusive
  obtain ⟨hfrs, hge, hend, hcomp, hprog⟩ := hd.collectReplayPage
    (min (max (maxBytes.getD (256 * 1024)) 1) (256 * 1024))
    (by omega : d + 1 ≤ fromSeq) (by omega : fromSeq ≤ toSeqExclusive) (by omega) rfl
  refine ⟨?_, ⟨by omega, by omega⟩, fun hwh htruncated => ?_⟩
  · rcases lt_or_ge fromSeq toSeqExclusive with hlt | hdone
    · exact .inr (lt_of_le_of_lt (by omega) (hprog hlt))
    · exact .inl (hcomp.2 (by omega))
  · have hhad : d + 1 ≤ viewer.replayNextSeq := by
      have hgone := of_decide_eq_false htruncated
      omega
    obtain ⟨-, hwithin⟩ := h.pages hwh
    obtain rfl : viewer.replayNextSeq = fromSeq := by omega
    obtain rfl : viewer.catchupEndSeq = toSeqExclusive := by omega
    exact ⟨hfrs, hend, hcomp.1⟩

/-- A page of replay serves the viewer. -/
theorem Served.takePage (h : Served s viewer) (hsnd : TerminalSound s) {maxBytes : Option ℕ}
    {page : ReplayRead}
    (hread : s.session.readReplay (viewer.pageParams s.session.generation maxBytes) = .ok page) :
    Served s (viewer.takePage page) := by
  obtain ⟨found, hfnd, -, ⟨hfrom, hto⟩, hwh⟩ := h.pageParams hsnd maxBytes
  obtain rfl : found = page := ok.inj (hfnd.symm.trans hread)
  obtain ⟨hbegun, -⟩ := h.begun
  refine ⟨⟨le_trans hbegun hfrom, hto⟩, h.attachedAt, fun htruncated => ?_,
    fun htruncated hcomp => ?_, h.issued, h.matched, h.quiet, h.told⟩
  · obtain ⟨hold, hnew⟩ := Bool.or_eq_false_iff.1 htruncated
    obtain ⟨hreplies, -⟩ := h.pages hold
    obtain ⟨hfrs, hwithin, -⟩ := hwh hold hnew
    refine ⟨?_, hwithin⟩
    show viewer.replies ++ found.frames = segment s.output viewer.throughSeq (found.nextSeq - 1)
    rw [hreplies, hfrs, segment_append_segment (by omega) (by omega)]
  · obtain ⟨hold, hnew⟩ := Bool.or_eq_false_iff.1 htruncated
    obtain ⟨-, -, hend⟩ := hwh hold hnew
    exact hend hcomp

/-- **The restore point of an attach**: the replay starts right after it,
with frames that are still there. -/
theorem SessionRecord.Keeps.restorePoint {d : ℕ} (h : session.Keeps output d)
    (incremental : Option ℕ) (snapshot : Option HeadlessSnapshot) :
    (session.restorePoint incremental snapshot).2.1 =
        (session.restorePoint incremental snapshot).1.throughSeq + 1 ∧
      d + 1 ≤ (session.restorePoint incremental snapshot).2.1 ∧
      (session.restorePoint incremental snapshot).2.1 ≤ session.nextSeq := by
  have hfst := h.firstAvailableSeq
  have hnext := h.nextSeq
  have htrimmed := h.trimmed
  unfold SessionRecord.restorePoint
  dsimp only
  rw [hfst]
  split
  · next through hthru =>
    obtain ⟨hle, hlt⟩ := of_decide_eq_true (Option.filter_eq_some_iff.1 hthru).2
    exact ⟨rfl, hle, hlt⟩
  · split
    · next state hst =>
      obtain ⟨hlt, hle⟩ := of_decide_eq_true (Option.filter_eq_some_iff.1 hst).2
      exact ⟨rfl, hle, hlt⟩
    · split
      · next hreset =>
        refine ⟨rfl, hreset, ?_⟩
        show 1 ≤ session.nextSeq
        omega
      · refine ⟨rfl, le_rfl, ?_⟩
        show d + 1 ≤ session.nextSeq
        omega

/-- **A viewer attaches.** Its subscription is one of the session's, the
viewer is told where it stands, and the other viewers are left alone. -/
theorem TerminalSound.attachSession (h : TerminalSound s) {params : SessionAttachParams}
    {incremental : Option ℕ} {snapshot : Option HeadlessSnapshot} {millis : ℕ}
    {inputStream : Except String Unit} {answer : Except String SessionAttached}
    (hattach : s.session.attachSession params incremental snapshot millis inputStream =
      (answer, session)) :
    s.session.Resubscribed session ∧ session.Subscribed ∧
      ∀ attached, answer = .ok attached → ∀ attaching viewers,
        Served { s with session, attaching, viewers } (.ofAttached params attached) := by
  obtain ⟨d, hd⟩ := h.keeps
  have hnext := hd.nextSeq
  unfold SessionRecord.attachSession at hattach
  obtain ⟨hfrom, hfst, hlast⟩ :=
    hd.restorePoint incremental (if incremental = none then snapshot else none)
  generalize s.session.restorePoint incremental _ = found at hfrom hfst hlast hattach
  obtain ⟨restore, replayFrom, truncated⟩ := found
  dsimp only at hfrom hfst hlast hattach
  split at hattach
  · cases hattach
    exact ⟨.refl _, h.subscribed, fun attached hok => by cases hok⟩
  · next token subscribed hsubs =>
    have hchg := SessionRecord.resubscribed_subscribePending hsubs
    have hkept := h.subscribed.subscribePending (by omega) hsubs
    split at hattach
    · cases hattach
      exact ⟨hchg, hkept, fun attached hok => by cases hok⟩
    · cases hattach
      refine ⟨hchg, hkept, fun attached hok attaching viewers => ?_⟩
      cases hok
      obtain ⟨hfrs, hge, hend, hcomp, -⟩ := hd.collectReplayPage maxAttachReplayBytes
        hfst hlast le_rfl rfl
      refine ⟨⟨?_, ?_⟩, ⟨?_, ?_⟩, fun _ => ⟨?_, hend⟩, fun _ => hcomp.1, ?_, ?_, fun _ => rfl,
        fun hready => by cases hready⟩
      · exact hfrom ▸ hge
      · exact hnext ▸ hend
      · exact le_trans (by omega : 1 ≤ replayFrom) hlast
      · exact le_of_eq hnext
      · show _ = segment s.output restore.throughSeq _
        rw [show restore.throughSeq = replayFrom - 1 by omega]
        exact hfrs
      · intro new hnew
        rcases SessionRecord.subscribePending_spec hsubs with
          ⟨rfl, -⟩ | ⟨key, name, made, -, rfl, hid, rfl⟩
        · cases hnew
        · cases hnew
          exact le_of_eq hid
      · intro key subscription hget htok
        rcases SessionRecord.subscribePending_spec hsubs with
          ⟨rfl, -⟩ | ⟨own, name, made, horigin, rfl, hid, rfl⟩
        · cases htok
        · have hget' := lookup_insert_eq.symm.trans hget
          split at hget'
          · cases hget'
            exact ⟨horigin, rfl, rfl⟩
          -- another subscription is older than the token
          · cases htok
            have := h.subscribed.issued hget'
            omega

/-- **A viewer gets ready**: the frames since it attached are its tail, and
what other viewers of its origin get with them goes on from where they are. -/
theorem TerminalSound.ready (h : TerminalSound s) (params : SessionReadyParams) :
    TerminalSound (s.ready params) := by
  obtain ⟨d, hd⟩ := h.keeps
  have hnext := hd.nextSeq
  rcases hans : s.session.readySession params with ⟨answer, notifications, session⟩
  have hst : s.ready params = { s with
      session
      viewers := s.viewers.map fun viewer =>
        if viewer.token = some params.subscriptionToken ∧ viewer.ready = false ∧ answer.isOk then
          viewer.activate (notifications.map frame)
        else notifications.foldl receive viewer } := by
    rw [TerminalState.ready, hans]
  rw [hst]
  rcases readySession_spec hans with ⟨rfl, rfl, hact⟩ |
    ⟨key, subscription, page, hget, htok, hpend, hok, hfst, hpage, hcomp, rfl, rfl⟩
  -- nothing is sent, and no viewer gets ready
  · refine { h with viewers := fun viewer' hview' => ?_ }
    obtain ⟨viewer, hview, rfl⟩ := mem_map.1 hview'
    have hsrv := h.viewers viewer hview
    split
    · next hgets =>
      obtain ⟨key, subscription, hget, htok, hyet⟩ := hact hgets.2.2
      obtain ⟨-, -, hready⟩ := hsrv.matched hget (htok ▸ hgets.1)
      exact absurd (hready.symm.trans hyet) (by rw [hgets.2.1]; exact Bool.noConfusion)
    · exact { hsrv with }
  · obtain ⟨hpos, hle, hstands⟩ := h.subscribed.pending hget
    have hat := hstands hpend
    rw [hd.firstAvailableSeq] at hfst
    obtain ⟨hfrs, -, -, hend, -⟩ := hd.collectReplayPage maxReadyCatchupBytes hfst (hat ▸ hle)
      le_rfl hpage
    rw [hend.1 hcomp, hat, hnext, Nat.add_sub_cancel] at hfrs
    have hmap : (page.frames.map fun frame => (⟨some subscription.origin, frame⟩ :
        OutputNotification)).map frame = page.frames := by
      rw [map_map]
      exact map_id _
    have hins : ∀ {key' found}, (s.session.subscriptions.insert key
          { subscription with nextSeq := s.session.nextSeq, active := true }).lookup key' =
            some found →
          key' = key ∧ found = { subscription with nextSeq := s.session.nextSeq, active := true } ∨
            key' ≠ key ∧ s.session.subscriptions.lookup key' = some found := by
      intro key' found hfnd
      rw [lookup_insert_eq] at hfnd
      split at hfnd
      · next hkey => exact .inl ⟨hkey, (Option.some.inj hfnd).symm⟩
      · next hkey => exact .inr ⟨hkey, hfnd⟩
    -- every subscription has the token of one from before
    have hbef : ∀ {key' found}, (s.session.subscriptions.insert key
          { subscription with nextSeq := s.session.nextSeq, active := true }).lookup key' =
            some found →
          ∃ old, s.session.subscriptions.lookup key' = some old ∧ old.token = found.token := by
      intro key' found hfnd
      rcases hins hfnd with ⟨rfl, rfl⟩ | ⟨-, hold⟩
      · exact ⟨subscription, hget, rfl⟩
      · exact ⟨found, hold, rfl⟩
    refine ⟨⟨d, hd.of_eq rfl rfl⟩, ⟨fun hfnd => ?_, fun hfnd hfnd' hsame => ?_,
      fun hfnd => ?_⟩, h.unsent, fun viewer' hview' => ?_⟩
    · obtain ⟨old, hold, heq⟩ := hbef hfnd
      exact heq ▸ h.subscribed.issued hold
    · obtain ⟨old, hold, heq⟩ := hbef hfnd
      obtain ⟨old', hold', heq'⟩ := hbef hfnd'
      exact h.subscribed.unique hold hold' (heq.trans (hsame.trans heq'.symm))
    · rcases hins hfnd with ⟨rfl, rfl⟩ | ⟨-, hold⟩
      · exact ⟨hpos, hle, fun hno => Bool.noConfusion hno⟩
      · exact h.subscribed.pending hold
    · obtain ⟨viewer, hview, rfl⟩ := mem_map.1 hview'
      have hsrv := h.viewers viewer hview
      obtain ⟨hfrom, hto⟩ := hsrv.attachedAt
      rw [hmap]
      split
      · next hgets =>
        obtain ⟨horigin, hsame, -⟩ := hsrv.matched hget (htok ▸ hgets.1)
        have hqt := hsrv.quiet hgets.2.1
        refine ⟨hsrv.begun, hsrv.attachedAt, hsrv.pages, hsrv.complete, hsrv.issued,
          fun {key' found} hfnd hown => ?_, fun hno => Bool.noConfusion hno, fun _ _ => ?_⟩
        · have hkey : key' = key := by
            obtain ⟨old, hold, heq⟩ := hbef hfnd
            refine h.subscribed.unique hold hget ?_
            rw [heq, htok]
            exact Option.some.inj (hown.symm.trans hgets.1)
          rcases hins hfnd with ⟨-, rfl⟩ | ⟨hne, -⟩
          · exact ⟨horigin, hsame, rfl⟩
          · exact absurd hkey hne
        · refine ⟨s.output.length, ⟨s.output.length, ?_, le_rfl, le_rfl, hsame ▸ hfrs, ?_, ?_⟩,
            .inl rfl⟩
          · show viewer.catchupEndSeq - 1 ≤ s.output.length
            omega
          · show fresh s.output.length viewer.live = _
            rw [hqt, segment_self]
            rfl
          · show reach s.output.length viewer.live = _
            rw [hqt]
            rfl
      · next hothers =>
        -- its own subscription is another one, or was active before
        have hown : ∀ {key' found}, (s.session.subscriptions.insert key
              { subscription with nextSeq := s.session.nextSeq, active := true }).lookup key' =
                some found →
              viewer.token = some found.token →
                s.session.subscriptions.lookup key' = some found := by
          intro key' found hfnd hmine
          rcases hins hfnd with ⟨rfl, rfl⟩ | ⟨-, hold⟩
          · obtain ⟨-, -, hready⟩ := hsrv.matched hget hmine
            exact absurd ⟨htok ▸ hmine, hready.symm.trans hpend, hok⟩ hothers
          · exact hold
        have htargets : ∀ n ∈ page.frames.map fun frame => (⟨some subscription.origin, frame⟩ :
            OutputNotification), n.target = some subscription.origin := by
          intro n hn
          obtain ⟨frame, -, rfl⟩ := mem_map.1 hn
          rfl
        rw [foldl_receive viewer htargets, hmap]
        have htold : viewer.ready = true → Registered { s.session with
            subscriptions := s.session.subscriptions.insert key
              { subscription with nextSeq := s.session.nextSeq, active := true } } viewer →
            ∃ through, ToldThrough s.output viewer through ∧
              UpToDate s.output s.unsent viewer through := by
          rintro hready ⟨key', found, hfnd, hmine⟩
          exact hsrv.told hready ⟨key', found, hown hfnd hmine, hmine⟩
        split
        · refine ⟨hsrv.begun, hsrv.attachedAt, hsrv.pages, hsrv.complete, hsrv.issued,
            fun hfnd hmine => hsrv.matched (hown hfnd hmine) hmine, ?_,
            fun hready hreg => ?_⟩
          · next hmeant =>
            intro hno
            rw [hmeant.1] at hno
            cases hno
          · obtain ⟨through, hthru, hupTo⟩ := htold hready hreg
            rw [hfrs]
            exact hthru.catchUp hupTo hd.numbered (by omega)
        · exact ⟨hsrv.begun, hsrv.attachedAt, hsrv.pages, hsrv.complete, hsrv.issued,
            fun hfnd hmine => hsrv.matched (hown hfnd hmine) hmine, hsrv.quiet, htold⟩

/-! ## Every run -/

variable {generation : ℕ} {sessionId : String}

/-- There is no output at first. -/
theorem terminalSound_init : TerminalSound (terminalMachine generation sessionId).init where
  keeps := ⟨0, ⟨fun _ _ h => absurd h (by simp [terminalMachine]), rfl, le_rfl, rfl⟩⟩
  subscribed := by
    have hnil : ∀ key : String, (∅ : Assoc String TerminalSubscription).lookup key = none :=
      AList.lookup_empty
    refine ⟨fun {key _} h => ?_, fun {key _ _ _} h => ?_, fun {key _} h => ?_⟩ <;>
      exact absurd ((hnil key).symm.trans h) (by simp)
  unsent _ h := absurd h not_mem_nil
  viewers _ h := absurd h not_mem_nil

/-- Every step keeps the terminal sound. -/
theorem TerminalSound.step (h : TerminalSound s) {action : TerminalAction}
    (hstep : (terminalMachine generation sessionId).step s action = some t) : TerminalSound t := by
  obtain ⟨d, hd⟩ := h.keeps
  have hnext := hd.nextSeq
  cases action with
  | output bytes =>
    obtain ⟨hidle, ⟨⟩⟩ := Option.ite_none_right_eq_some.1 hstep
    exact h.publish hidle rfl
  | send note =>
    obtain ⟨hmem, ⟨⟩⟩ := Option.ite_none_right_eq_some.1 hstep
    exact h.send hmem
  | attach params =>
    dsimp only [terminalMachine] at hstep
    split at hstep
    · cases hstep
    · cases hstep
      exact h.resubscribed (.refl _) h.subscribed rfl rfl fun _ => .inl
  | attached call snapshot millis inputStream =>
    dsimp only [terminalMachine] at hstep
    split at hstep
    · cases hstep
    · split at hstep
      · next hattach =>
        cases hstep
        obtain ⟨hchg, hkept, -⟩ := h.attachSession hattach
        exact h.resubscribed hchg hkept rfl rfl fun _ => .inl
      · next hattach =>
        cases hstep
        obtain ⟨hchg, hkept, hnew⟩ := h.attachSession hattach
        refine h.resubscribed hchg hkept rfl rfl fun viewer hview => ?_
        refine (mem_append.1 hview).imp id fun hlast => ?_
        rw [mem_singleton.1 hlast]
        exact hnew _ rfl _ _
  | start viewerKey origin millis =>
    cases hstep
    unfold startRunning
    split
    · exact h.resubscribed (.refl _) h.subscribed rfl rfl fun _ => .inl
    · next hsubs =>
      exact h.resubscribed (resubscribed_subscribePending hsubs)
        (h.subscribed.subscribePending (by omega) hsubs) rfl rfl fun _ => .inl
  | readReplay i maxBytes =>
    dsimp only [terminalMachine] at hstep
    split at hstep
    · cases hstep
    · next viewer hview =>
      have hsrv := h.viewers viewer (mem_of_getElem? hview)
      split at hstep
      · cases hstep
      · split at hstep
        · cases hstep
        · next page hread =>
          cases hstep
          refine h.resubscribed (.refl _) h.subscribed rfl rfl fun found hfnd => ?_
          rcases mem_or_eq_of_mem_set hfnd with hold | rfl
          · exact .inl hold
          · exact .inr ((hsrv.takePage h hread).resubscribed (.refl _) rfl rfl)
  | ready params =>
    cases hstep
    exact h.ready params
  | detach params =>
    dsimp only [terminalMachine] at hstep
    split at hstep
    · cases hstep
    · next hdetach =>
      cases hstep
      have hchg := resubscribed_detachSession hdetach
      rcases detachSession_spec hdetach with rfl | ⟨key, rfl⟩
      · exact h.resubscribed hchg h.subscribed rfl rfl fun _ => .inl
      · exact h.resubscribed hchg (h.subscribed.erase key) rfl rfl fun _ => .inl

theorem terminalSound (h : (terminalMachine generation sessionId).Reachable s) : TerminalSound s :=
  h.rule terminalSound_init fun _ _ _ _ hsnd hstep => hsnd.step hstep

/-- **A viewer is told the output.** Reading pages makes progress. When it
has read them all and is ready, and no page was truncated, the frames of
the replies and the tail are the output after its restore point up to when
it got ready, each once; and while it keeps its subscription, the frames of
all it was sent that are new to it are the output after its restore point
up to the last frame, or up to the one before, while the reader has the
last one still to send to its origin. -/
theorem viewer_told_output (h : (terminalMachine generation sessionId).Reachable s)
    {viewer : TerminalViewer} (hviewer : viewer ∈ s.viewers) :
    (∀ i frame, s.output[i]? = some frame → frame.seq = i + 1) ∧
      (viewer.replayComplete = false → ∀ maxBytes, ∃ page,
        s.session.readReplay (viewer.pageParams s.session.generation maxBytes) = .ok page ∧
          (page.complete = true ∨ viewer.replayNextSeq < page.nextSeq)) ∧
      (viewer.truncated = false → viewer.replayComplete = true → viewer.ready = true →
        Registered s.session viewer → ∃ start through,
            viewer.replies ++ viewer.tail = segment s.output viewer.throughSeq start ∧
              viewer.throughSeq ≤ start ∧ start ≤ through ∧
              fresh viewer.throughSeq viewer.sent = segment s.output viewer.throughSeq through ∧
              (through = s.output.length ∨ through + 1 = s.output.length ∧
                ∃ n ∈ s.unsent, n.target = viewer.origin ∧ n.frame.seq = s.output.length)) := by
  have hsound := terminalSound h
  have hserved := hsound.viewers viewer hviewer
  obtain ⟨d, hd⟩ := hsound.keeps
  refine ⟨hd.numbered, fun _ maxBytes => ?_, fun hwhole hcomplete hready hregistered => ?_⟩
  · obtain ⟨page, hread, hprogress, -⟩ := hserved.pageParams hsound maxBytes
    exact ⟨page, hread, hprogress⟩
  · obtain ⟨hreplies, -⟩ := hserved.pages hwhole
    obtain ⟨hbegun, -⟩ := hserved.begun
    obtain ⟨through, ⟨start, hfrom, hto, hlen, htail, hfresh, hreach⟩, hupTo⟩ :=
      hserved.told hready hregistered
    rw [hserved.complete hwhole hcomplete] at hreplies hbegun
    have hstart : viewer.throughSeq ≤ start := by omega
    have honce : viewer.replies ++ viewer.tail = segment s.output viewer.throughSeq start := by
      rw [hreplies, htail, segment_append_segment (by omega) hfrom]
    refine ⟨start, through, honce, hstart, hto, ?_, hupTo.imp id ?_⟩
    · obtain ⟨hall, hend⟩ := fresh_segment hd.numbered (le_refl viewer.throughSeq)
        (le_trans hto hlen)
      rw [sent, fresh_append, honce, hall, hend, max_eq_right hstart, hfresh,
        segment_append_segment hstart hto]
    · rintro ⟨heq, n, hn, htarget⟩
      refine ⟨heq, n, hn, htarget, ?_⟩
      obtain ⟨hpos, hlast⟩ := hsound.unsent n hn
      have hget : s.output[s.output.length - 1]? = some n.frame := by
        rw [← add_zero (s.output.length - 1),
          ← getElem?_segment (b := s.output.length) (by omega), ← hlast]
        rfl
      rw [hd.numbered _ _ hget]
      omega

/-! ## A frame that is sent twice -/

/-- A viewer that attaches, with nothing of the output. -/
def reattachParams : SessionAttachParams := ⟨none, none, some "tab", some "viewer", none⟩

/-- A ready viewer attaches again while the reader holds the frame that was
meant for it before: it gets the frame with the reply, is ready, and gets
it once more. -/
def reattachRun : List TerminalAction :=
  [.attach reattachParams, .attached 0 none 0 (.ok ()), .ready ⟨some "tab", 1, ⟨1, 1, 0⟩, 0⟩,
    .output [104], .attach reattachParams, .attached 0 none 0 (.ok ()),
    .ready ⟨some "tab", 1, ⟨1, 2, 0⟩, 1⟩, .send ⟨some "tab", ⟨[104], 1, 1⟩⟩]

/-- Where it leads. -/
def reattached : TerminalState :=
  (terminalMachine 1 "terminal").run reattachRun (terminalMachine 1 "terminal").init

theorem reachable_reattached : (terminalMachine 1 "terminal").Reachable reattached :=
  ⟨reattachRun, Machine.exec_eq_run (by decide +kernel)⟩

/-- What is sent to a viewer that is ready need not be a part of the output:
here it gets the first frame twice. -/
theorem frame_sent_twice : ¬ ∀ (generation : ℕ) (sessionId : String) (s : TerminalState),
    (terminalMachine generation sessionId).Reachable s → ∀ viewer ∈ s.viewers,
      viewer.truncated = false → viewer.replayComplete = true → viewer.ready = true →
        Registered s.session viewer →
          ∃ through, viewer.sent = segment s.output viewer.throughSeq through := by
  intro h
  have hview : ∃ viewer ∈ reattached.viewers,
      viewer.truncated = false ∧ viewer.replayComplete = true ∧ viewer.ready = true ∧
        viewer.token = some ⟨1, 2, 0⟩ ∧ viewer.sent.length = 2 := by decide +kernel
  have hfound : (reattached.session.subscriptions.lookup "viewer").map
      TerminalSubscription.token = some ⟨1, 2, 0⟩ := by decide +kernel
  obtain ⟨viewer, hviewer, hwhole, hcomplete, hready, htoken, htwo⟩ := hview
  obtain ⟨subscription, hlookup, hsame⟩ := Option.map_eq_some_iff.1 hfound
  obtain ⟨through, hsent⟩ := h 1 "terminal" _ reachable_reattached viewer hviewer hwhole hcomplete
    hready ⟨"viewer", subscription, hlookup, htoken.trans (congrArg some hsame.symm)⟩
  have hshort : (segment reattached.output viewer.throughSeq through).length ≤ 1 := by
    rw [segment, List.length_drop, List.length_take]
    have : reattached.output.length = 1 := by decide +kernel
    omega
  rw [← hsent] at hshort
  omega

/-- **Of a viewer that attached again**, what was sent is told. -/
theorem reattached_told_output : ∃ viewer ∈ reattached.viewers,
    Registered reattached.session viewer ∧ ∃ start through,
      viewer.replies ++ viewer.tail = segment reattached.output viewer.throughSeq start ∧
        viewer.throughSeq ≤ start ∧ start ≤ through ∧
        fresh viewer.throughSeq viewer.sent = segment reattached.output viewer.throughSeq through ∧
        (through = reattached.output.length ∨ through + 1 = reattached.output.length ∧
          ∃ n ∈ reattached.unsent,
            n.target = viewer.origin ∧ n.frame.seq = reattached.output.length) := by
  have hview : ∃ viewer ∈ reattached.viewers,
      viewer.truncated = false ∧ viewer.replayComplete = true ∧ viewer.ready = true ∧
        viewer.token = some ⟨1, 2, 0⟩ := by decide +kernel
  have hfound : (reattached.session.subscriptions.lookup "viewer").map
      TerminalSubscription.token = some ⟨1, 2, 0⟩ := by decide +kernel
  obtain ⟨viewer, hviewer, hwhole, hcomplete, hready, htoken⟩ := hview
  obtain ⟨subscription, hlookup, hsame⟩ := Option.map_eq_some_iff.1 hfound
  have hregistered : Registered reattached.session viewer :=
    ⟨"viewer", subscription, hlookup, htoken.trans (congrArg some hsame.symm)⟩
  exact ⟨viewer, hviewer, hregistered,
    (viewer_told_output reachable_reattached hviewer).2.2 hwhole hcomplete hready hregistered⟩

end Remux
