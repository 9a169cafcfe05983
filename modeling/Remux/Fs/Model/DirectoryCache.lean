import Remux.Common.Machine
import Remux.Fs.Model.Relay

/-!
# The directory cache

`FsCore` of `fs/core.rs` as far as `read_directory_cached` and
`invalidate` go, the mutations and uploads that change directories, and
the relay that announces the changes. Every lock is a step of its own,
and so are the disk snapshot of a read and the write of a mutation.

A listing is named by how often its directory had changed when the
snapshot was taken. Three fields are there for the statements only:
`cleared`, how often a directory had changed when it was last
invalidated, `announced`, how often before the last invalidation that a
broadcast has followed, and what was `announced` when a read was issued.
-/

namespace Remux

/-- `DIRECTORY_CACHE_TTL_MS`. -/
def directoryCacheTtlMs : ℕ := 3000

/-- `CachedDirectory`. -/
structure CachedDirectory where
  loadedAt : ℕ
  result : ℕ
  deriving DecidableEq

/-- Where a call of `read_directory_cached` stands. -/
inductive ReadPhase where
  /-- The first look into the cache. -/
  | checking
  /-- `requested_at`, and the directory's gate. -/
  | requesting
  /-- `gate.lock()`. -/
  | queued (requestedAt : ℕ)
  /-- The look into the cache under the gate. -/
  | rechecking (requestedAt : ℕ)
  /-- `read_dir` and its entries: the disk snapshot. -/
  | reading
  /-- The git status, and then the insertion. -/
  | annotating (listing : ℕ)
  | inserting (listing : ℕ)
  | returned (listing : ℕ)
  | failed
  deriving DecidableEq

/-- A call of `read_directory_cached`. -/
structure DirectoryRead where
  path : Directory
  force : Bool
  phase : ReadPhase
  /-- What was announced of the directory when the call was made. -/
  announced : ℕ

/-- Where an announcement stands. -/
inductive AnnouncementPhase where
  | invalidating
  /-- The broadcast, and what had changed at the invalidation. -/
  | broadcasting (cleared : Directory → ℕ)
  | done

/-- An announcement: an invalidation, and then the broadcast. -/
structure Announcement where
  change : DidChange
  phase : AnnouncementPhase

/-- Where a mutation stands. -/
inductive MutationPhase where
  /-- The change on disk, under `mutation_lock`. -/
  | writing
  /-- The invalidation `FsCore::on_paths_mutated` makes before it calls
  the relay; an upload's only. -/
  | clearing
  /-- The relay's `on_paths_mutated`. -/
  | notifying
  /-- The announcement it makes. -/
  | announcing (announcement : ℕ)
  /-- The invalidation that ends `mutate`. -/
  | ending
  | done
  deriving DecidableEq

/-- A call of `mutate`, or the commit of an upload. -/
structure Mutation where
  paths : List Directory
  upload : Bool
  phase : MutationPhase

/-- The directories whose listing a mutation changes. -/
def Mutation.parents (mutation : Mutation) : List Directory :=
  mutation.paths.filterMap parentDirectory

/-- The fs core, its relay and the disk, with all that works on them. -/
structure FsCore where
  now : ℕ
  disk : Directory → ℕ
  directoryCache : Directory → Option CachedDirectory
  directoryGates : Directory → Option ℕ
  reads : List DirectoryRead
  relay : RelayState
  /-- The tasks of the relay that sleep before they flush. -/
  debounceTasks : ℕ
  trailingTasks : ℕ
  /-- The tasks that have cleared their flag and flush next. -/
  flushes : ℕ
  announcements : List Announcement
  mutations : List Mutation
  broadcasts : List DidChange
  cleared : Directory → ℕ
  announced : Directory → ℕ

/-- An invalidation of the paths and of all that is under the roots
reaches the directory. -/
def reached (paths underRoots : List Directory) (path : Directory) : Bool :=
  decide (path ∈ paths) || underRoots.any fun root => isPathWithin root path

/-- The announcement reaches the directory. -/
def DidChange.reaches (change : DidChange) (path : Directory) : Bool :=
  reached change.changedPaths change.gitDirtyRoots path

namespace FsCore

/-- `invalidate`. -/
def invalidate (s : FsCore) (paths underRoots : List Directory) : FsCore :=
  { s with
    directoryCache := fun path =>
      if reached paths underRoots path then none else s.directoryCache path
    cleared := fun path => if reached paths underRoots path then s.disk path else s.cleared path }

/-- A read goes on. -/
def readEnters (s : FsCore) (r : ℕ) (read : DirectoryRead) (phase : ReadPhase) : FsCore :=
  { s with reads := s.reads.set r { read with phase } }

/-- A read ends and gives the gate back. -/
def readEnds (s : FsCore) (r : ℕ) (read : DirectoryRead) (phase : ReadPhase) : FsCore :=
  { s.readEnters r read phase with
    directoryGates := Function.update s.directoryGates read.path none }

/-- The next step of `read_directory_cached`; the disk may fail it. -/
def stepRead (s : FsCore) (r : ℕ) (fails : Bool) : Option FsCore :=
  (s.reads[r]?).bind fun read =>
    match read.phase with
    | .checking =>
      match (if read.force then none else s.directoryCache read.path) with
      | some cached =>
        if s.now - cached.loadedAt < directoryCacheTtlMs then
          some (s.readEnters r read (.returned cached.result))
        else some (s.readEnters r read .requesting)
      | none => some (s.readEnters r read .requesting)
    | .requesting => some (s.readEnters r read (.queued s.now))
    | .queued requestedAt =>
      if s.directoryGates read.path = none then
        some { s.readEnters r read (.rechecking requestedAt) with
          directoryGates := Function.update s.directoryGates read.path (some r) }
      else none
    | .rechecking requestedAt =>
      match s.directoryCache read.path with
      | some cached =>
        let freshEnough := decide (s.now - cached.loadedAt < directoryCacheTtlMs)
        let loadedWhileWaiting := decide (cached.loadedAt ≥ requestedAt)
        if loadedWhileWaiting || (!read.force && freshEnough) then
          some (s.readEnds r read (.returned cached.result))
        else some (s.readEnters r read .reading)
      | none => some (s.readEnters r read .reading)
    | .reading =>
      if fails then some (s.readEnds r read .failed)
      else some (s.readEnters r read (.annotating (s.disk read.path)))
    | .annotating listing =>
      if fails then some (s.readEnds r read .failed)
      else some (s.readEnters r read (.inserting listing))
    | .inserting listing =>
      some { s.readEnds r read (.returned listing) with
        directoryCache :=
          Function.update s.directoryCache read.path (some ⟨s.now, listing⟩) }
    | .returned _ | .failed => none

/-- The next step of an announcement. -/
def stepAnnouncement (s : FsCore) (a : ℕ) : Option FsCore :=
  (s.announcements[a]?).bind fun announcement =>
    let change := announcement.change
    match announcement.phase with
    | .invalidating =>
      let s' := s.invalidate change.changedPaths change.gitDirtyRoots
      some { s' with
        announcements := s.announcements.set a
          { announcement with phase := .broadcasting s'.cleared } }
    | .broadcasting cleared =>
      some { s with
        announcements := s.announcements.set a { announcement with phase := .done }
        broadcasts := s.broadcasts ++ [change]
        announced := fun path =>
          if change.reaches path then max (s.announced path) (cleared path)
          else s.announced path }
    | .done => none

/-- A mutation goes on. -/
def mutationEnters (s : FsCore) (m : ℕ) (mutation : Mutation) (phase : MutationPhase) : FsCore :=
  { s with mutations := s.mutations.set m { mutation with phase } }

/-- The next step of a mutation; the disk may fail it. -/
def stepMutation (s : FsCore) (m : ℕ) (fails : Bool) : Option FsCore :=
  (s.mutations[m]?).bind fun mutation =>
    match mutation.phase with
    | .writing =>
      if fails then
        some (s.mutationEnters m mutation (if mutation.upload then .done else .ending))
      else
        some { s.mutationEnters m mutation (if mutation.upload then .clearing else .notifying) with
          disk := fun path => s.disk path + mutation.parents.count path }
    | .clearing => some ((s.invalidate mutation.parents []).mutationEnters m mutation .notifying)
    | .notifying =>
      let next := if mutation.upload then .done else .ending
      match s.relay.onPathsMutated mutation.paths with
      | some change =>
        if s.relay.wired then
          some { s.mutationEnters m mutation (.announcing s.announcements.length) with
            announcements := s.announcements ++ [⟨change, .invalidating⟩] }
        else some (s.mutationEnters m mutation next)
      | none => some (s.mutationEnters m mutation next)
    | .announcing a =>
      match (s.announcements[a]?).map Announcement.phase with
      | some .done =>
        some (s.mutationEnters m mutation (if mutation.upload then .done else .ending))
      | _ => none
    | .ending => some ((s.invalidate mutation.parents []).mutationEnters m mutation .done)
    | .done => none

/-- The relay after a call that may spawn the debounce task. -/
def relayEnters (s : FsCore) (result : RelayState × Bool) : FsCore :=
  { s with
    relay := result.1
    debounceTasks := s.debounceTasks + if result.2 then 1 else 0 }

/-- A task calls `flush_dirty`. -/
def flush (s : FsCore) (minIntervalMs : ℕ) : FsCore :=
  let (relay, flushed) := s.relay.flushDirty minIntervalMs s.now
  match flushed with
  | .nothing => { s with relay, flushes := s.flushes - 1 }
  | .trailing =>
    { s with relay, flushes := s.flushes - 1, trailingTasks := s.trailingTasks + 1 }
  | .announce change =>
    { s with
      relay
      flushes := s.flushes - 1
      announcements := s.announcements ++ [⟨change, .invalidating⟩] }

end FsCore

/-- A step of the fs core, of its relay, or of what is around them. -/
inductive FsAction where
  | tick (ms : ℕ)
  /-- Somebody else changes the directory. -/
  | change (path : Directory)
  | readDirectory (path : Directory) (force : Bool)
  | read (r : ℕ) (fails : Bool)
  | mutate (paths : List Directory) (upload : Bool)
  | mutation (m : ℕ) (fails : Bool)
  | announcement (a : ℕ)
  | startRelay
  | closeRelay
  | registerRepoRoot (root : Directory)
  /-- `mark_dirty`, from a watcher or a poll. -/
  | markDirty (changedPaths gitDirtyRoots : List Directory)
  /-- The debounce task wakes and clears its flag. -/
  | debounce
  /-- The trailing task wakes and clears its flag. -/
  | trailing
  | flush

/-- **The machine of the fs core.** -/
def fsMachine (minIntervalMs : ℕ) : Machine FsCore FsAction where
  init :=
    { now := 0
      disk := fun _ => 0
      directoryCache := fun _ => none
      directoryGates := fun _ => none
      reads := []
      relay := .new
      debounceTasks := 0
      trailingTasks := 0
      flushes := 0
      announcements := []
      mutations := []
      broadcasts := []
      cleared := fun _ => 0
      announced := fun _ => 0 }
  step s
    | .tick ms => some { s with now := s.now + ms }
    | .change path => some { s with disk := Function.update s.disk path (s.disk path + 1) }
    | .readDirectory path force =>
      some { s with reads := s.reads ++ [⟨path, force, .checking, s.announced path⟩] }
    | .read r fails => s.stepRead r fails
    | .mutate paths upload =>
      some { s with mutations := s.mutations ++ [⟨paths, upload, .writing⟩] }
    | .mutation m fails => s.stepMutation m fails
    | .announcement a => s.stepAnnouncement a
    | .startRelay => some (s.relayEnters s.relay.start)
    | .closeRelay => some { s with relay := s.relay.close }
    | .registerRepoRoot root =>
      some { s with relay.repoWatchers := s.relay.repoWatchers.insert root }
    | .markDirty changedPaths gitDirtyRoots =>
      some (s.relayEnters (s.relay.markDirty changedPaths gitDirtyRoots))
    | .debounce =>
      if s.debounceTasks > 0 then
        some { s with
          relay.debounceScheduled := false
          debounceTasks := s.debounceTasks - 1
          flushes := s.flushes + 1 }
      else none
    | .trailing =>
      if s.trailingTasks > 0 then
        some { s with
          relay.trailingScheduled := false
          trailingTasks := s.trailingTasks - 1
          flushes := s.flushes + 1 }
      else none
    | .flush => if s.flushes > 0 then some (s.flush minIntervalMs) else none

end Remux
