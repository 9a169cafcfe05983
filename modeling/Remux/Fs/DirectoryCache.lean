import Remux.Common.Lists
import Remux.Fs.Model.DirectoryCache

/-!
# No stale listing after an announcement

An invalidation drops what is in the cache and cannot drop what a read
has still to insert, so a listing from before a change can come into the
cache after the change was announced (`stale_after_announcement`). Where
no read inserts a listing older than the last invalidation that followed
a change (`Orderly`), every listing in the cache is at least as new as
the directory was at its last invalidation (`CacheInv`), and a read that
is issued after an announcement returns nothing older than what was
announced.
-/

namespace Remux

open List hiding getElem?_eq_some_iff
open Option Function Machine

/-- The listing a read inserts next. -/
def ReadPhase.inserts : ReadPhase → Option ℕ
  | .inserting listing => some listing
  | _ => none

/-- The listing a read has. -/
def ReadPhase.listing : ReadPhase → Option ℕ
  | .annotating listing | .inserting listing | .returned listing => some listing
  | _ => none

namespace FsCore

variable {minIntervalMs : ℕ}

/-- **The condition on a step**: a read inserts no listing from before a
change that an invalidation has followed. -/
def Orderly (s : FsCore) : FsAction → Prop
  | .read r _ => ∀ read ∈ s.reads[r]?, ∀ listing ∈ read.phase.inserts, s.cleared read.path ≤ listing
  | _ => True

instance (s : FsCore) : (action : FsAction) → Decidable (s.Orderly action)
  | .read r _ =>
    inferInstanceAs (Decidable (∀ read ∈ s.reads[r]?, ∀ listing ∈ read.phase.inserts,
      s.cleared read.path ≤ listing))
  | .tick _ | .change _ | .readDirectory .. | .mutate .. | .mutation .. | .announcement _
  | .startRelay | .closeRelay | .registerRepoRoot _ | .markDirty .. | .debounce | .trailing
  | .flush => .isTrue trivial

/-- The machine of the orderly runs. -/
abbrev orderlyFs (minIntervalMs : ℕ) : Machine FsCore FsAction :=
  (fsMachine minIntervalMs).restrict fun s action => s.Orderly action

/-- **The invariant of the cache**: what is announced was invalidated,
and nothing older is cached or held by a read that was issued since. -/
structure CacheInv (s : FsCore) : Prop where
  disk : ∀ path, s.cleared path ≤ s.disk path
  announced : ∀ path, s.announced path ≤ s.cleared path
  broadcasting : ∀ {a : ℕ} {announcement : Announcement} {cleared : Directory → ℕ},
    s.announcements[a]? = some announcement → announcement.phase = .broadcasting cleared →
    ∀ path, cleared path ≤ s.cleared path
  cached : ∀ {path : Directory} {cached : CachedDirectory},
    s.directoryCache path = some cached → s.cleared path ≤ cached.result
  issued : ∀ {r : ℕ} {read : DirectoryRead}, s.reads[r]? = some read →
    read.announced ≤ s.announced read.path
  listing : ∀ {r : ℕ} {read : DirectoryRead} {listing : ℕ}, s.reads[r]? = some read →
    read.phase.listing = some listing → read.announced ≤ listing

variable {s s' t : FsCore} {r m a : ℕ} {read : DirectoryRead} {fails : Bool} {action : FsAction}

variable (h : s.CacheInv)
include h

/-- What was announced when a read was issued is at most what was
invalidated. -/
theorem CacheInv.issued_le_cleared (hread : s.reads[r]? = some read) :
    read.announced ≤ s.cleared read.path :=
  (h.issued hread).trans (h.announced _)

/-- An invalidation keeps the invariant. -/
theorem CacheInv.of_invalidate (paths underRoots : List Directory) :
    (s.invalidate paths underRoots).CacheInv := by
  have hgrows : ∀ path, s.cleared path ≤ (s.invalidate paths underRoots).cleared path := by
    intro path
    show _ ≤ if _ then _ else _
    split
    · exact h.disk path
    · exact le_rfl
  refine ⟨?_, fun path => (h.announced path).trans (hgrows path), ?_, ?_, h.issued, h.listing⟩
  · intro path
    show (if _ then _ else _) ≤ _
    split
    · exact le_rfl
    · exact h.disk path
  · exact fun ha hph path => (h.broadcasting ha hph path).trans (hgrows path)
  · intro path cached hcached
    simp only [invalidate] at hcached ⊢
    split at hcached
    · cases hcached
    · next hnot =>
      rw [if_neg hnot]
      exact h.cached hcached

/-- A read enters a phase whose listing, if it has one, is new enough. -/
theorem CacheInv.of_readEnters {phase : ReadPhase} (hread : s.reads[r]? = some read)
    (hlisting : ∀ listing, phase.listing = some listing → read.announced ≤ listing) :
    (s.readEnters r read phase).CacheInv := by
  refine { h with issued := ?_, listing := ?_ }
  · intro k new hk
    rw [readEnters, getElem?_set_of_eq_some hread] at hk
    split at hk
    · cases hk
      have hold := h.issued hread
      exact hold
    · exact h.issued hk
  · intro k new listing hk hph
    rw [readEnters, getElem?_set_of_eq_some hread] at hk
    split at hk
    · cases hk
      exact hlisting listing hph
    · exact h.listing hk hph

/-- The gates do not matter to it. -/
theorem CacheInv.of_gates (gates : Directory → Option ℕ) :
    ({ s with directoryGates := gates } : FsCore).CacheInv :=
  { h with }

/-- A step of a read keeps the invariant, -/
theorem CacheInv.of_read (hordl : s.Orderly (.read r fails))
    (hstep : s.stepRead r fails = some s') :
    s'.CacheInv := by
  rw [stepRead, bind_eq_some_iff] at hstep
  obtain ⟨read, hread, hstep⟩ := hstep
  have hiss := h.issued_le_cleared hread
  have hpln : ∀ {phase : ReadPhase}, phase.listing = none →
      (s.readEnters r read phase).CacheInv := by
    intro phase hnone
    refine h.of_readEnters hread fun listing hlisting => ?_
    rw [hnone] at hlisting
    cases hlisting
  -- what the cache has may be returned
  have hcached : ∀ {cached : CachedDirectory}, s.directoryCache read.path = some cached →
      (s.readEnters r read (.returned cached.result)).CacheInv := by
    intro cached hcached
    refine h.of_readEnters hread fun listing hlisting => ?_
    cases hlisting
    exact hiss.trans (h.cached hcached)
  split at hstep
  · -- checking
    split at hstep
    · next cached hget =>
      split at hget
      · cases hget
      · split at hstep <;> cases hstep
        · exact hcached hget
        · exact hpln rfl
    · cases hstep
      exact hpln rfl
  · -- requesting
    cases hstep
    exact hpln rfl
  · -- queued
    cases (ite_none_right_eq_some.1 hstep).2
    exact (hpln rfl).of_gates _
  · -- rechecking
    split at hstep
    · next cached hget =>
      dsimp only at hstep
      split at hstep <;> cases hstep
      · exact (hcached hget).of_gates _
      · exact hpln rfl
    · cases hstep
      exact hpln rfl
  · -- reading
    split at hstep <;> cases hstep
    · exact (hpln rfl).of_gates _
    · refine h.of_readEnters hread fun listing hlisting => ?_
      cases hlisting
      exact hiss.trans (h.disk _)
  · -- annotating
    next listing hph =>
    split at hstep <;> cases hstep
    · exact (hpln rfl).of_gates _
    · refine h.of_readEnters hread fun listing' hlisting => ?_
      exact h.listing hread (by rw [hph]; exact hlisting)
  · -- inserting
    next listing hph =>
    cases hstep
    have hnew : s.cleared read.path ≤ listing :=
      hordl read hread listing (by rw [hph]; rfl)
    have hends : (s.readEnds r read (.returned listing)).CacheInv :=
      (h.of_readEnters hread fun listing' hlisting => by
        cases hlisting
        exact hiss.trans hnew).of_gates _
    refine { hends with cached := ?_ }
    intro path cached hcached
    dsimp only at hcached
    by_cases hpath : path = read.path
    · subst hpath
      rw [update_self] at hcached
      cases hcached
      exact hnew
    · rw [update_of_ne hpath] at hcached
      exact hends.cached hcached
  all_goals cases hstep

/-- A state with the same cache, reads and announcements. -/
theorem CacheInv.of_eq (hdisk : ∀ path, s.disk path ≤ s'.disk path)
    (hcache : s'.directoryCache = s.directoryCache) (hreads : s'.reads = s.reads)
    (hclr : s'.cleared = s.cleared) (hann : s'.announced = s.announced)
    (hannouncements : ∀ (a : ℕ) (announcement : Announcement) (cleared : Directory → ℕ),
      s'.announcements[a]? = some announcement → announcement.phase = .broadcasting cleared →
      s.announcements[a]? = some announcement) : s'.CacheInv := by
  constructor
  · intro path
    rw [hclr]
    exact (h.disk path).trans (hdisk path)
  · rw [hclr, hann]
    exact h.announced
  · rw [hclr]
    exact fun ha hph => h.broadcasting (hannouncements _ _ _ ha hph) hph
  · rw [hclr, hcache]
    exact fun hcached => h.cached hcached
  · rw [hreads, hann]
    exact fun hread => h.issued hread
  · rw [hreads]
    exact fun hread hlisting => h.listing hread hlisting

/-- a step of a mutation keeps it, -/
theorem CacheInv.of_mutation (hstep : s.stepMutation m fails = some s') : s'.CacheInv := by
  rw [stepMutation, bind_eq_some_iff] at hstep
  obtain ⟨mutation, -, hstep⟩ := hstep
  have henters : ∀ {s₁ : FsCore} {phase : MutationPhase}, s₁.CacheInv →
      (s₁.mutationEnters m mutation phase).CacheInv := fun h₁ =>
    h₁.of_eq (fun _ => le_rfl) rfl rfl rfl rfl fun _ _ _ ha _ => ha
  split at hstep
  · -- writing
    split at hstep <;> cases hstep
    · exact henters h
    · exact h.of_eq (fun _ => Nat.le_add_right ..) rfl rfl rfl rfl fun _ _ _ ha _ => ha
  · -- clearing
    cases hstep
    exact henters (h.of_invalidate ..)
  · -- notifying
    dsimp only at hstep
    split at hstep
    · split at hstep <;> cases hstep
      · refine h.of_eq (fun _ => le_rfl) rfl rfl rfl rfl fun a announcement cleared ha hph => ?_
        obtain ha | ⟨-, rfl⟩ := getElem?_concat_eq_some.1 ha
        · exact ha
        · cases hph
      · exact henters h
    · cases hstep
      exact henters h
  · -- announcing
    split at hstep
    · cases hstep
      exact henters h
    · cases hstep
  · -- ending
    cases hstep
    exact henters (h.of_invalidate ..)
  · cases hstep

/-- **An announcement announces what it has invalidated.** -/
theorem CacheInv.of_announcement (hstep : s.stepAnnouncement a = some s') : s'.CacheInv := by
  rw [stepAnnouncement, bind_eq_some_iff] at hstep
  obtain ⟨announcement, ha, hstep⟩ := hstep
  split at hstep
  · -- the invalidation
    cases hstep
    have hclr :=
      h.of_invalidate announcement.change.changedPaths announcement.change.gitDirtyRoots
    refine { hclr with broadcasting := ?_ }
    intro k other cleared hk hph
    rw [getElem?_set_of_eq_some ha] at hk
    split at hk
    · cases hk
      obtain rfl := AnnouncementPhase.broadcasting.inj hph
      exact fun _ => le_rfl
    · exact hclr.broadcasting hk hph
  · -- the broadcast
    next cleared hph =>
    cases hstep
    have hgrows : ∀ path, s.announced path ≤
        if announcement.change.reaches path then max (s.announced path) (cleared path)
        else s.announced path := by
      intro path
      split
      · exact le_max_left ..
      · exact le_rfl
    refine ⟨h.disk, ?_, ?_, h.cached, ?_, h.listing⟩
    · intro path
      dsimp only
      split
      · exact max_le (h.announced path) (h.broadcasting ha hph path)
      · exact h.announced path
    · intro k other cleared' hk hne
      rw [getElem?_set_of_eq_some ha] at hk
      split at hk
      · cases hk
        cases hne
      · exact h.broadcasting hk hne
    · intro r read hread
      exact (h.issued hread).trans (hgrows _)
  · cases hstep

theorem CacheInv.of_relayEnters (result : RelayState × Bool) : (s.relayEnters result).CacheInv :=
  h.of_eq (fun _ => le_rfl) rfl rfl rfl rfl fun _ _ _ ha _ => ha

/-- A flush keeps the invariant. -/
theorem CacheInv.of_flush : (s.flush minIntervalMs).CacheInv := by
  unfold flush
  dsimp only
  split
  · exact h.of_eq (fun _ => le_rfl) rfl rfl rfl rfl fun _ _ _ ha _ => ha
  · exact h.of_eq (fun _ => le_rfl) rfl rfl rfl rfl fun _ _ _ ha _ => ha
  · refine h.of_eq (fun _ => le_rfl) rfl rfl rfl rfl fun a announcement cleared ha hph => ?_
    obtain ha | ⟨-, rfl⟩ := getElem?_concat_eq_some.1 ha
    · exact ha
    · cases hph

omit h

theorem cacheInv_init : (fsMachine minIntervalMs).init.CacheInv := by
  constructor <;> simp [fsMachine]

/-- and so does every orderly step. -/
theorem CacheInv.of_step (h : s.CacheInv) (hordl : s.Orderly action)
    (hstep : (fsMachine minIntervalMs).step s action = some s') :
    s'.CacheInv := by
  have hsame : ∀ {s₁ : FsCore}, (∀ path, s.disk path ≤ s₁.disk path) →
      s₁.directoryCache = s.directoryCache → s₁.reads = s.reads → s₁.cleared = s.cleared →
      s₁.announced = s.announced → s₁.announcements = s.announcements → s₁.CacheInv :=
    fun hdisk hcache hreads hclr hann hsame =>
      h.of_eq hdisk hcache hreads hclr hann fun _ _ _ ha _ => hsame ▸ ha
  cases action with
  | tick | mutate =>
    cases hstep
    exact hsame (fun _ => le_rfl) rfl rfl rfl rfl rfl
  | change path =>
    cases hstep
    refine hsame (fun other => ?_) rfl rfl rfl rfl rfl
    dsimp only
    by_cases hne : other = path
    · subst hne
      rw [update_self]
      exact Nat.le_succ _
    · rw [update_of_ne hne]
  | readDirectory path force =>
    cases hstep
    refine { h with issued := ?_, listing := ?_ }
    · intro r read hread
      obtain hread | ⟨-, rfl⟩ := getElem?_concat_eq_some.1 hread
      · exact h.issued hread
      · exact le_rfl
    · intro r read listing hread hlisting
      obtain hread | ⟨-, rfl⟩ := getElem?_concat_eq_some.1 hread
      · exact h.listing hread hlisting
      · cases hlisting
  | read r fails => exact h.of_read hordl hstep
  | mutation m fails => exact h.of_mutation hstep
  | announcement a => exact h.of_announcement hstep
  | startRelay | markDirty =>
    cases hstep
    exact h.of_relayEnters _
  | closeRelay | registerRepoRoot =>
    cases hstep
    exact hsame (fun _ => le_rfl) rfl rfl rfl rfl rfl
  | debounce | trailing =>
    cases (ite_none_right_eq_some.1 hstep).2
    exact hsame (fun _ => le_rfl) rfl rfl rfl rfl rfl
  | flush =>
    cases (ite_none_right_eq_some.1 hstep).2
    exact h.of_flush

theorem cacheInv_of_reachable (h : (orderlyFs minIntervalMs).Reachable s) : s.CacheInv := by
  refine h.rule (@cacheInv_init minIntervalMs) fun s _ _ _ hinv hstep => ?_
  obtain ⟨hordl, hstep⟩ := restrict_step_eq_some.1 hstep
  exact hinv.of_step hordl hstep

/-! ## Along a run -/

/-- What only grows: the changes on disk, what is announced, and the lists
of announcements and reads. -/
structure Grows (s s' : FsCore) : Prop where
  disk : ∀ path, s.disk path ≤ s'.disk path
  announced : ∀ path, s.announced path ≤ s'.announced path
  reads : ∀ {r : ℕ} {read : DirectoryRead}, s.reads[r]? = some read → ∃ read',
    s'.reads[r]? = some read' ∧ read'.path = read.path ∧ read'.announced = read.announced

theorem Grows.of_eq (hdisk : ∀ path, s.disk path ≤ s'.disk path)
    (hann : s'.announced = s.announced) (hreads : s'.reads = s.reads) : Grows s s' :=
  ⟨hdisk, fun _ => hann ▸ le_rfl, fun {_ read} hread => ⟨read, hreads ▸ hread, rfl, rfl⟩⟩

/-- A read announces nothing. -/
theorem grows_of_read (hstep : s.stepRead r fails = some s') :
    Grows s s' ∧ s'.announcements = s.announcements := by
  rw [stepRead, bind_eq_some_iff] at hstep
  obtain ⟨read, hread, hstep⟩ := hstep
  have henters : ∀ {s₁ : FsCore} {phase : ReadPhase},
      s₁.disk = s.disk → s₁.announced = s.announced →
      s₁.reads = s.reads.set r { read with phase } → Grows s s₁ := by
    intro s₁ phase hdisk hann hreads
    refine ⟨fun _ => hdisk ▸ le_rfl, fun _ => hann ▸ le_rfl, fun {k old} hk => ?_⟩
    rw [hreads, getElem?_set_of_eq_some hread]
    split
    · next heq =>
      rw [heq, hread, some.injEq] at hk
      exact ⟨_, rfl, hk ▸ rfl, hk ▸ rfl⟩
    · exact ⟨old, hk, rfl, rfl⟩
  split at hstep
  · split at hstep
    · split at hstep <;> obtain rfl := some.inj hstep <;> exact ⟨henters rfl rfl rfl, rfl⟩
    · cases hstep
      exact ⟨henters rfl rfl rfl, rfl⟩
  · cases hstep
    exact ⟨henters rfl rfl rfl, rfl⟩
  · cases (ite_none_right_eq_some.1 hstep).2
    exact ⟨henters rfl rfl rfl, rfl⟩
  · split at hstep
    · dsimp only at hstep
      split at hstep <;> obtain rfl := some.inj hstep <;> exact ⟨henters rfl rfl rfl, rfl⟩
    · cases hstep
      exact ⟨henters rfl rfl rfl, rfl⟩
  · split at hstep <;> obtain rfl := some.inj hstep <;> exact ⟨henters rfl rfl rfl, rfl⟩
  · split at hstep <;> obtain rfl := some.inj hstep <;> exact ⟨henters rfl rfl rfl, rfl⟩
  · cases hstep
    exact ⟨henters rfl rfl rfl, rfl⟩
  all_goals cases hstep

/-- A mutation adds to the announcements. -/
theorem grows_of_mutation (hstep : s.stepMutation m fails = some s') :
    Grows s s' ∧ ∃ more, s'.announcements = s.announcements ++ more := by
  rw [stepMutation, bind_eq_some_iff] at hstep
  obtain ⟨mutation, -, hstep⟩ := hstep
  have hsame : ∀ {s₁ : FsCore}, s₁.disk = s.disk → s₁.announced = s.announced →
      s₁.reads = s.reads → Grows s s₁ :=
    fun hdisk => Grows.of_eq fun _ => hdisk ▸ le_rfl
  split at hstep
  · split at hstep <;> cases hstep
    · exact ⟨hsame rfl rfl rfl, [], (append_nil _).symm⟩
    · exact ⟨Grows.of_eq (fun _ => Nat.le_add_right ..) rfl rfl, [], (append_nil _).symm⟩
  · cases hstep
    exact ⟨hsame rfl rfl rfl, [], (append_nil _).symm⟩
  · dsimp only at hstep
    split at hstep
    · split at hstep <;> cases hstep
      · exact ⟨hsame rfl rfl rfl, _, rfl⟩
      · exact ⟨hsame rfl rfl rfl, [], (append_nil _).symm⟩
    · cases hstep
      exact ⟨hsame rfl rfl rfl, [], (append_nil _).symm⟩
  · split at hstep
    · cases hstep
      exact ⟨hsame rfl rfl rfl, [], (append_nil _).symm⟩
    · cases hstep
  · cases hstep
    exact ⟨hsame rfl rfl rfl, [], (append_nil _).symm⟩
  · cases hstep

/-- An announcement moves nothing back. -/
theorem grows_of_announcement (hstep : s.stepAnnouncement a = some s') : Grows s s' := by
  rw [stepAnnouncement, bind_eq_some_iff] at hstep
  obtain ⟨announcement, -, hstep⟩ := hstep
  split at hstep
  · cases hstep
    exact Grows.of_eq (fun _ => le_rfl) rfl rfl
  · cases hstep
    refine ⟨fun _ => le_rfl, fun path => ?_, fun {_ read} hread => ⟨read, hread, rfl, rfl⟩⟩
    dsimp only
    split
    · exact le_max_left ..
    · exact le_rfl
  · cases hstep

/-- **Every step grows**, and no step but its own changes an
announcement. -/
theorem grows_of_step (hstep : (fsMachine minIntervalMs).step s action = some s') :
    Grows s s' ∧ ∀ {a : ℕ} {announcement : Announcement},
      s.announcements[a]? = some announcement → action ≠ .announcement a →
      s'.announcements[a]? = some announcement := by
  have hsame : ∀ {s₁ : FsCore}, (∀ path, s.disk path ≤ s₁.disk path) →
      s₁.announced = s.announced → s₁.reads = s.reads → s₁.announcements = s.announcements →
      Grows s s₁ ∧ ∀ {a : ℕ} {announcement : Announcement},
        s.announcements[a]? = some announcement → action ≠ .announcement a →
        s₁.announcements[a]? = some announcement :=
    fun hdisk hann hreads heq => ⟨.of_eq hdisk hann hreads, fun ha _ => heq ▸ ha⟩
  cases action with
  | tick | mutate | startRelay | closeRelay | registerRepoRoot | markDirty =>
    cases hstep
    exact hsame (fun _ => le_rfl) rfl rfl rfl
  | change path =>
    cases hstep
    refine hsame (fun other => ?_) rfl rfl rfl
    dsimp only
    by_cases hother : other = path
    · subst hother
      rw [update_self]
      exact Nat.le_succ _
    · rw [update_of_ne hother]
  | readDirectory path force =>
    cases hstep
    exact ⟨⟨fun _ => le_rfl, fun _ => le_rfl, fun {_ read} hread =>
      ⟨read, getElem?_concat_eq_some.2 (.inl hread), rfl, rfl⟩⟩, fun ha _ => ha⟩
  | read r fails =>
    obtain ⟨hgrows, heq⟩ := grows_of_read hstep
    exact ⟨hgrows, fun ha _ => heq ▸ ha⟩
  | mutation m fails =>
    obtain ⟨hgrows, more, heq⟩ := grows_of_mutation hstep
    refine ⟨hgrows, fun {a _} ha _ => ?_⟩
    rw [heq, getElem?_append_left (getElem?_eq_some_iff.1 ha).1, ha]
  | announcement b =>
    refine ⟨grows_of_announcement hstep, fun {a announcement} ha hne => ?_⟩
    simp only [fsMachine, stepAnnouncement, bind_eq_some_iff] at hstep
    obtain ⟨other, hb, hstep⟩ := hstep
    have hab : a ≠ b := fun heq => hne (by rw [heq])
    split at hstep
    · cases hstep
      rw [getElem?_set_of_eq_some hb, if_neg hab, ha]
    · cases hstep
      rw [getElem?_set_of_eq_some hb, if_neg hab, ha]
    · cases hstep
  | debounce | trailing =>
    cases (ite_none_right_eq_some.1 hstep).2
    exact hsame (fun _ => le_rfl) rfl rfl rfl
  | flush =>
    cases (ite_none_right_eq_some.1 hstep).2
    unfold flush
    dsimp only
    split
    · exact hsame (fun _ => le_rfl) rfl rfl rfl
    · exact hsame (fun _ => le_rfl) rfl rfl rfl
    · exact ⟨.of_eq (fun _ => le_rfl) rfl rfl, fun ha _ => getElem?_concat_eq_some.2 (.inl ha)⟩

/-- An announcement knows of at least `seen` changes of a directory. -/
def Knows (s : FsCore) (path : Directory) (seen : ℕ) : AnnouncementPhase → Prop
  | .invalidating => seen ≤ s.disk path
  | .broadcasting cleared => seen ≤ cleared path
  | .done => seen ≤ s.announced path

/-- **An announcement that is over has announced** whatever had changed
before its invalidation. -/
theorem announced_of_done (hleads : (orderlyFs minIntervalMs).Leads s t) {change : DidChange}
    {announcement : Announcement} {path : Directory}
    (ha : s.announcements[a]? = some ⟨change, .invalidating⟩) (hreaches : change.reaches path)
    (ha' : t.announcements[a]? = some announcement) (hdone : announcement.phase = .done) :
    s.disk path ≤ t.announced path := by
  suffices h : ∃ phase, t.announcements[a]? = some ⟨change, phase⟩ ∧
      t.Knows path (s.disk path) phase by
    obtain ⟨phase, hph, hknow⟩ := h
    cases ha'.symm.trans hph
    rw [show phase = .done from hdone] at hknow
    exact hknow
  refine Machine.Leads.rule (P := fun u : FsCore => ∃ phase,
    u.announcements[a]? = some ⟨change, phase⟩ ∧ u.Knows path (s.disk path) phase) hleads
    ⟨_, ha, le_rfl⟩ fun u action v _ ⟨phase, hu, hknow⟩ hstep => ?_
  have hfree := (restrict_step_eq_some.1 hstep).2
  obtain ⟨hgrows, hkept⟩ := grows_of_step hfree
  by_cases hown : action = .announcement a
  · subst hown
    simp only [fsMachine, stepAnnouncement, hu, bind_some] at hfree
    cases phase with
    | invalidating =>
      cases hfree
      refine ⟨_, by rw [getElem?_set_of_eq_some hu, if_pos rfl], ?_⟩
      show _ ≤ if change.reaches path then u.disk path else u.cleared path
      rw [if_pos hreaches]
      exact hknow
    | broadcasting cleared =>
      cases hfree
      refine ⟨_, by rw [getElem?_set_of_eq_some hu, if_pos rfl], ?_⟩
      show _ ≤ if change.reaches path then max (u.announced path) (cleared path) else _
      rw [if_pos hreaches]
      exact le_trans hknow (le_max_right ..)
    | done => cases hfree
  · refine ⟨phase, hkept hu hown, ?_⟩
    cases phase with
    | invalidating => exact le_trans hknow (hgrows.disk path)
    | broadcasting cleared => exact hknow
    | done => exact le_trans hknow (hgrows.announced path)

/-- A read remembers what was announced when it was issued. -/
theorem issued_kept (hleads : (orderlyFs minIntervalMs).Leads s t) {read' : DirectoryRead}
    (hread : s.reads[r]? = some read) (hread' : t.reads[r]? = some read') :
    read'.announced = read.announced := by
  suffices h : ∃ read', t.reads[r]? = some read' ∧ read'.announced = read.announced by
    obtain ⟨other, hne, hsame⟩ := h
    rw [hread', some.injEq] at hne
    rw [hne, hsame]
  refine Machine.Leads.rule (P := fun u : FsCore => ∃ read', u.reads[r]? = some read' ∧
    read'.announced = read.announced) hleads ⟨read, hread, rfl⟩
    fun u action v _ ⟨old, hold, hsame⟩ hstep => ?_
  obtain ⟨hgrows, -⟩ := grows_of_step (restrict_step_eq_some.1 hstep).2
  obtain ⟨new, hnew, -, hkept⟩ := hgrows.reads hold
  exact ⟨new, hnew, hkept.trans hsame⟩

/-- **No stale listing after an announcement.** In an orderly run, let an
announcement that reaches a directory have its invalidation still to
make, and let a read of the directory be issued once its broadcast is
out: the listing it returns is from a snapshot at which the directory had
changed at least as often as when the announcement was still to come. -/
theorem read_after_announcement {s₁ s₂ s₂' s₃ : FsCore} {a : ℕ} {change : DidChange}
    {announcement : Announcement} {path : Directory} {force : Bool} {read : DirectoryRead}
    {listing : ℕ} (hreach : (orderlyFs minIntervalMs).Reachable s₁)
    (ha₁ : s₁.announcements[a]? = some ⟨change, .invalidating⟩) (hreaches : change.reaches path)
    (h₁₂ : (orderlyFs minIntervalMs).Leads s₁ s₂)
    (ha₂ : s₂.announcements[a]? = some announcement) (hdone : announcement.phase = .done)
    (hissue : (orderlyFs minIntervalMs).step s₂ (.readDirectory path force) = some s₂')
    (h₂₃ : (orderlyFs minIntervalMs).Leads s₂' s₃)
    (hread : s₃.reads[s₂.reads.length]? = some read) (hlisting : read.phase = .returned listing) :
    s₁.disk path ≤ listing := by
  have hannounced := announced_of_done h₁₂ ha₁ hreaches ha₂ hdone
  have hissued : s₂'.reads[s₂.reads.length]? =
      some ⟨path, force, .checking, s₂.announced path⟩ := by
    obtain rfl := Option.some.inj (Machine.restrict_step_eq_some.1 hissue).2
    exact getElem?_concat_eq_some.2 (.inr ⟨rfl, rfl⟩)
  have hkept := issued_kept h₂₃ hissued hread
  have hreach₃ := ((hreach.leads h₁₂).step hissue).leads h₂₃
  calc s₁.disk path ≤ s₂.announced path := hannounced
    _ = read.announced := hkept.symm
    _ ≤ listing := (cacheInv_of_reachable hreach₃).listing hread (by rw [hlisting]; rfl)

/-! ## A read around an announcement -/

/-- The directory that is read. -/
def exampleDirectory : Directory := ["p"]

/-- Seven steps of a read, from its first look to its insertion. -/
def exampleRead (r : ℕ) : List FsAction :=
  .readDirectory exampleDirectory false :: replicate 7 (.read r false)

/-- A file of the directory is written, and the relay is about to
invalidate. -/
def exampleWritten : List FsAction :=
  [FsAction.startRelay, .mutate [exampleDirectory ++ ["f"]] false, .mutation 0 false,
    .mutation 0 false]

/-- The state in which the change is about to be announced, the one in
which it has been, and the one after the next read. -/
def exampleBefore : FsCore :=
  (orderlyFs 0).run (exampleRead 0 ++ exampleWritten) (orderlyFs 0).init

/-- The announcement is made. -/
def exampleAfter : FsCore := (orderlyFs 0).run [.announcement 0, .announcement 0] exampleBefore

/-- The next read is asked for. -/
def exampleIssued : FsCore :=
  (orderlyFs 0).run [.readDirectory exampleDirectory false] exampleAfter

/-- That read has returned. -/
def exampleEnd : FsCore := (orderlyFs 0).run (replicate 7 (.read 1 false)) exampleIssued

/-- The read returns what the announcement was of. -/
theorem read_after_announcement_example :
    exampleEnd.reads[1]?.map DirectoryRead.phase = some (.returned 1) ∧
      exampleBefore.disk exampleDirectory ≤ 1 := by
  have hbefore : (orderlyFs 0).Reachable exampleBefore :=
    ⟨_, Machine.exec_eq_run (by decide +kernel)⟩
  have hafter : (orderlyFs 0).Leads exampleBefore exampleAfter :=
    ⟨_, Machine.exec_eq_run (by decide +kernel)⟩
  have hend : (orderlyFs 0).Leads exampleIssued exampleEnd :=
    ⟨_, Machine.exec_eq_run (by decide +kernel)⟩
  have hissue : (orderlyFs 0).exec [.readDirectory exampleDirectory false] exampleAfter =
      some exampleIssued := Machine.exec_eq_run (by decide +kernel)
  obtain ⟨issued, hstep, hissued⟩ := Machine.exec_cons_eq_some.1 hissue
  cases hissued
  exact ⟨by decide +kernel,
    @read_after_announcement 0 exampleBefore exampleAfter exampleIssued exampleEnd 0
      ⟨[exampleDirectory], []⟩ ⟨⟨[exampleDirectory], []⟩, .done⟩ exampleDirectory false
      ⟨exampleDirectory, false, .returned 1, 1⟩ 1
      hbefore rfl rfl hafter rfl rfl hstep hend rfl rfl⟩

/-- A read has its snapshot when the directory changes, and has still to
insert it. -/
def exampleSlow : FsCore :=
  (fsMachine 0).run
    (.readDirectory exampleDirectory false :: replicate 5 (.read 0 false) ++ exampleWritten)
    (fsMachine 0).init

/-- The change is announced, and the read returns. -/
def exampleStale : FsCore :=
  (fsMachine 0).run [.announcement 0, .announcement 0, .read 0 false, .read 0 false] exampleSlow

/-- **A slow read brings an old listing back.** The change is made and
its broadcast is out; the read that was slow inserts the snapshot it took
before, and the next read finds it in the cache. -/
theorem stale_after_announcement : exampleSlow.disk exampleDirectory = 1 ∧
      exampleStale.broadcasts = [⟨[exampleDirectory], []⟩] ∧
      (((fsMachine 0).exec [.readDirectory exampleDirectory false, .read 1 false]
        exampleStale).bind (·.reads[1]?)).map DirectoryRead.phase = some (.returned 0) := by
  decide +kernel

end FsCore

end Remux
