import Remux.Common.Assoc
import Remux.Common.Machine

/-!
# The run-state file

A worker keeps a record of the process groups its extensions have alive,
in memory and in a file that the next boot sweeps: a crash of the worker
leaves the file behind. The record has one slot for each role of an
extension. A supervisor and its build tasks record a group when they
spawn it and remove the role when its end is confirmed. A call changes
the map under its lock, and then, outside of it, writes the snapshot it
took to a temporary file and renames that over the record.

The JSON of the file and failures to write it are left out. When a
supervisor spawns and stops is left open; that it does one thing at a
time, and a manual build beside it, is not.
-/

namespace Remux

namespace Extensions

/-- `RunRole`. -/
inductive RunRole where
  | server
  | build
  | watch
  deriving DecidableEq

/-- `RunEntry`. -/
structure RunEntry where
  pid : UInt32
  pgid : UInt32
  startTicks : UInt64
  startedAtMs : ℤ
  deriving DecidableEq

/-- The slot of a role of an extension. -/
abbrev RunKey := String × RunRole

/-- The map of the record. The source nests the roles of an extension in
a map of its own, which it drops when it is empty. -/
abbrev RunEntries := Assoc RunKey RunEntry

/-- The thread a call runs on: the extension's supervisor, or the task of
its manual view build. -/
structure RunThread where
  extension : String
  manualBuild : Bool
  deriving DecidableEq

/-- What a group was spawned as. -/
inductive Owner where
  | server (extension : String)
  | build (thread : RunThread)
  | watch (extension view : String)
  deriving DecidableEq

namespace Owner

/-- The slot the group is recorded in. -/
def key : Owner → RunKey
  | server extension => (extension, .server)
  | build thread => (thread.extension, .build)
  | watch extension _ => (extension, .watch)

/-- The thread that spawns the group and reaps it. -/
def thread : Owner → RunThread
  | server extension => ⟨extension, false⟩
  | build thread => thread
  | watch extension _ => ⟨extension, false⟩

/-- A watch child of the extension. -/
def watches (extension : String) : Owner → Bool
  | watch extension' _ => extension' = extension
  | _ => false

/-- The groups whose role is removed only together with the last of
them. -/
def sharesSlot : Owner → Owner → Bool
  | watch extension _, other => other.watches extension
  | _, _ => false

end Owner

/-- A call of `record` or `remove` that has changed the map: the snapshot
it took, and whether it has written the temporary file. -/
structure PersistCall where
  thread : RunThread
  version : ℕ
  snapshot : RunEntries
  written : Bool

/-- The record, in memory and on disk, and the groups there are. -/
structure RunWorld where
  /-- `RunState::entries`. -/
  entries : RunEntries
  /-- How many calls have changed the map. -/
  version : ℕ
  /-- The calls in progress. -/
  calls : List PersistCall
  /-- The temporary file. -/
  temp : Option RunEntries
  /-- The file. -/
  file : Option RunEntries
  /-- The version of the snapshot that was last written. -/
  written : ℕ
  /-- The groups that were recorded and are not yet known to have ended. -/
  children : List (Owner × RunEntry)
  /-- The groups that were given up, not known to have ended. -/
  lingering : List (RunKey × RunEntry)

/-- One step of a thread. -/
inductive RunAction where
  /-- A group is spawned and `record` called for it. -/
  | spawned (owner : Owner) (entry : RunEntry)
  /-- A group's first process is reaped and `remove` called for its role,
  for a watch child with the last of them. The rest of the group may
  outlive the signals sent to it. -/
  | ended (owner : Owner) (lingers : Bool)
  /-- `stop_watchers`, up to its `remove`. The groups of some views may
  outlive the signals. -/
  | watchStopped (extension : String) (lingers : List String)
  /-- The write of a call, `std::fs::write` of the temporary file. -/
  | write (thread : RunThread)
  /-- The rename of a call, which fails where there is no temporary
  file. -/
  | rename (thread : RunThread)

namespace RunWorld

/-- A call in progress on the thread. -/
def callOf (w : RunWorld) (thread : RunThread) : Option PersistCall :=
  w.calls.find? fun call => call.thread = thread

/-- The map is changed, and the call's snapshot taken. -/
def update (w : RunWorld) (thread : RunThread) (entries : RunEntries) : RunWorld :=
  { w with
    entries
    version := w.version + 1
    calls := ⟨thread, w.version + 1, entries, false⟩ :: w.calls }

/-- `RunState::record`, up to its snapshot. -/
def record (w : RunWorld) (owner : Owner) (entry : RunEntry) : RunWorld :=
  w.update owner.thread (w.entries.insert owner.key entry)

/-- `RunState::remove`, up to its snapshot. -/
def remove (w : RunWorld) (thread : RunThread) (key : RunKey) : RunWorld :=
  w.update thread (w.entries.erase key)

/-- The groups of these children are gone, or given up. -/
def leave (w : RunWorld) (gone : Owner → Bool) (lingers : Owner → Bool) : RunWorld :=
  { w with
    children := w.children.filter fun child => !gone child.1
    lingering := ((w.children.filter fun child => gone child.1 && lingers child.1).map
      fun child => (child.1.key, child.2)) ++ w.lingering }

end RunWorld

/-- What a step does. A thread makes no step of its own while a call it
made is in progress. -/
def runStep (w : RunWorld) : RunAction → Option RunWorld
  | .spawned owner entry =>
    if (w.callOf owner.thread).isSome || w.children.any (·.1 = owner) then none
    else some ({ w with children := (owner, entry) :: w.children }.record owner entry)
  | .ended owner lingers =>
    if (w.callOf owner.thread).isSome || !w.children.any (·.1 = owner) then none
    else
      let left := w.leave (· = owner) fun _ => lingers
      if left.children.any fun child => owner.sharesSlot child.1 then some left
      else some (left.remove owner.thread owner.key)
  | .watchStopped extension lingers =>
    let thread : RunThread := ⟨extension, false⟩
    if (w.callOf thread).isSome || !w.children.any (·.1.watches extension) then none
    else
      let lingering : Owner → Bool
        | .watch _ view => lingers.contains view
        | _ => false
      some ((w.leave (·.watches extension) lingering).remove thread (extension, .watch))
  | .write thread =>
    match w.callOf thread with
    | some call =>
      if call.written then none
      else some { w with
        temp := some call.snapshot
        written := call.version
        calls := w.calls.map fun other =>
          if other.thread = thread then { other with written := true } else other }
    | none => none
  | .rename thread =>
    match w.callOf thread with
    | some call =>
      if call.written then some { w with
        file := w.temp.or w.file
        temp := none
        calls := w.calls.filter fun other => other.thread ≠ thread }
      else none
    | none => none

/-- The worker after its own sweep of the boot. -/
def RunWorld.init : RunWorld where
  entries := ∅
  version := 0
  calls := []
  temp := none
  file := none
  written := 0
  children := []
  lingering := []

/-- The runs of the record's callers. -/
def runMachine : Machine RunWorld RunAction where
  init := .init
  step := runStep

/-- `sweep_orphans`: the groups that are sent SIGKILL, given what
`/proc` tells of a process. -/
def sweepOrphans (readStartTicks : UInt32 → Option UInt64) (file : Option RunEntries) :
    List UInt32 :=
  (file.elim [] fun entries => entries.entries).filterMap fun entry =>
    if readStartTicks entry.2.pid = some entry.2.startTicks then some entry.2.pgid else none

namespace RunWorld

/-- A group of the role is recorded and not known to have ended. -/
def Holds (w : RunWorld) (key : RunKey) (entry : RunEntry) : Prop :=
  (∃ owner, owner.key = key ∧ (owner, entry) ∈ w.children) ∨ (key, entry) ∈ w.lingering

/-- The file has the entry. -/
def Lists (w : RunWorld) (key : RunKey) (entry : RunEntry) : Prop :=
  ∃ entries, w.file = some entries ∧ entries.lookup key = some entry

/-- **What the record is for**: a sweep of the file as it is signals
every group that is not known to have ended and is the process it was,
and no other. -/
def SweepsOrphans (w : RunWorld) : Prop :=
  ∀ readStartTicks, (∀ key entry, w.Holds key entry →
      readStartTicks entry.pid = some entry.startTicks →
      entry.pgid ∈ sweepOrphans readStartTicks w.file) ∧
    ∀ pgid ∈ sweepOrphans readStartTicks w.file, ∃ key entry, w.Holds key entry ∧
      entry.pgid = pgid ∧ readStartTicks entry.pid = some entry.startTicks

end RunWorld

/-- **The condition**: a group is spawned where its extension has no
other of its role, groups end with their signals, and the snapshots are
written in the order they were taken. -/
def InOrder (w : RunWorld) : RunAction → Prop
  | .spawned owner _ => ∀ child ∈ w.children, child.1.key ≠ owner.key
  | .ended _ lingers => lingers = false
  | .watchStopped _ lingers => lingers = []
  | .write thread => ∀ call ∈ w.calls, call.thread = thread → w.written ≤ call.version
  | .rename _ => True

instance (w : RunWorld) : (a : RunAction) → Decidable (InOrder w a)
  | .spawned owner _ => inferInstanceAs (Decidable (∀ child ∈ w.children, child.1.key ≠ owner.key))
  | .ended _ lingers => inferInstanceAs (Decidable (lingers = false))
  | .watchStopped _ lingers => inferInstanceAs (Decidable (lingers = []))
  | .write thread => inferInstanceAs
      (Decidable (∀ call ∈ w.calls, call.thread = thread → w.written ≤ call.version))
  | .rename _ => inferInstanceAs (Decidable True)

end Extensions

end Remux
