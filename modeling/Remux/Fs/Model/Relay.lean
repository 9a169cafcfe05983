import Mathlib.Data.String.Basic

/-!
# The fs relay

What `fs/relay.rs` knows of directories that changed and were not
announced yet, and the two ways an announcement is made of it:
`flush_dirty`, behind its debounce and its minimum interval, and
`on_paths_mutated`, at once. Each is the part under the relay's lock;
what follows, the invalidation and then the broadcast, is left to the
caller.

A directory is a resolved absolute path, given by its components.
-/

namespace Remux

/-- The components of a resolved absolute path. -/
abbrev Directory := List String

/-- `Path::parent`. -/
def parentDirectory (path : Directory) : Option Directory :=
  if path.isEmpty then none else some path.dropLast

/-- `is_path_within`. -/
def isPathWithin (root path : Directory) : Bool := root.isPrefixOf path

/-- The text of a path. -/
def pathText (path : Directory) : String :=
  if path.isEmpty then "/" else String.join (path.map ("/" ++ ·))

/-- `RelayState`, without its watchers of directories and its poller. A
`BTreeSet` is the list of its elements; `wired` says that `start` has set
the two functions of the wiring. -/
structure RelayState where
  repoWatchers : List Directory
  pendingChangedPaths : List Directory
  pendingGitDirtyRoots : List Directory
  wired : Bool
  closed : Bool
  started : Bool
  debounceScheduled : Bool
  trailingScheduled : Bool
  lastBroadcastAt : Option ℕ

/-- A relay that has seen no event. -/
def RelayState.new : RelayState := ⟨[], [], [], false, false, false, false, false, none⟩

/-- The directories and the repository roots an announcement names. -/
structure DidChange where
  changedPaths : List Directory
  gitDirtyRoots : List Directory
  deriving DecidableEq

namespace RelayState

/-- `repo_root_for_path`: the watched root with the longest text among
those the path is in. -/
def repoRootForPath (state : RelayState) (path : Directory) : Option Directory :=
  state.repoWatchers.foldl (fun best root =>
      if isPathWithin root path then
        match best with
        | some current =>
          if (pathText root).utf8ByteSize > (pathText current).utf8ByteSize then some root else best
        | none => some root
      else best)
    none

/-- `mark_dirty`, and whether it spawns the debounce task. -/
def markDirty (state : RelayState) (changedPaths gitDirtyRoots : List Directory) :
    RelayState × Bool :=
  if state.closed then (state, false)
  else
    let state := { state with
      pendingChangedPaths := changedPaths.foldr List.insert state.pendingChangedPaths
      pendingGitDirtyRoots := gitDirtyRoots.foldr List.insert state.pendingGitDirtyRoots }
    if state.pendingChangedPaths.isEmpty && state.pendingGitDirtyRoots.isEmpty then (state, false)
    else if state.debounceScheduled then (state, false)
    else ({ state with debounceScheduled := true }, true)

/-- What `flush_dirty` comes to: nothing, a trailing task that will try
again, or an announcement. -/
inductive Flush where
  | nothing
  | trailing
  | announce (change : DidChange)
  deriving DecidableEq

/-- `flush_dirty`, the part under its lock. -/
def flushDirty (minIntervalMs now : ℕ) (state : RelayState) : RelayState × Flush :=
  if state.closed || !state.wired then (state, .nothing)
  else if state.pendingChangedPaths.isEmpty && state.pendingGitDirtyRoots.isEmpty then
    (state, .nothing)
  else if state.lastBroadcastAt.any fun last => decide (now - last < minIntervalMs) then
    if state.trailingScheduled then (state, .nothing)
    else ({ state with trailingScheduled := true }, .trailing)
  else
    ({ state with
        pendingChangedPaths := []
        pendingGitDirtyRoots := []
        lastBroadcastAt := some now },
      .announce ⟨state.pendingChangedPaths, state.pendingGitDirtyRoots⟩)

/-- `on_paths_mutated`, the part under its lock. -/
def onPathsMutated (state : RelayState) (paths : List Directory) : Option DidChange :=
  let directories := (paths.filterMap parentDirectory).dedup
  if directories.isEmpty || state.closed then none
  else some ⟨directories, (directories.filterMap state.repoRootForPath).dedup⟩

/-- `start`: the wiring, and a `mark_dirty` of what is already pending. -/
def start (state : RelayState) : RelayState × Bool :=
  let state := { state with wired := true, started := true }
  if state.pendingChangedPaths.isEmpty && state.pendingGitDirtyRoots.isEmpty then (state, false)
  else state.markDirty [] []

/-- `close`. -/
def close (state : RelayState) : RelayState :=
  if state.closed then state
  else { state with
    closed := true, repoWatchers := [], pendingChangedPaths := [], pendingGitDirtyRoots := [] }

end RelayState

end Remux
