import Remux.Common.Machine
import Remux.Fs.Model.Relay

/-!
# The relay's tasks

`start`, `mark_dirty` and `flush_dirty` of `fs/relay.rs` with the tasks they
spawn. Every section under the relay's lock is a step, and so is what a call
does after it: `start` marks dirty once it has let the lock go, `mark_dirty`
spawns the debounce task, a task clears its flag and flushes in a step of its
own, and `flush_dirty` invalidates and then broadcasts what it has taken.
Watchers, confirms and the poller are whoever calls `mark_dirty`, with any
paths and roots; when a task wakes is left open, and so is the clock.

The record of a run is kept beside: what was inserted, with the number of the
announcements built before, and the calls of the wiring.
-/

namespace Remux

/-- What an announcement has still to do. -/
inductive DeliveryPhase where
  | invalidating
  | broadcasting
  | done
  deriving DecidableEq

/-- A call of one of the two functions of the wiring, with the number of the
announcement it is for. -/
inductive WiringCall where
  | invalidate (n : ℕ) (change : DidChange)
  | broadcast (n : ℕ) (change : DidChange)
  deriving DecidableEq

/-- **The relay with its tasks**: how many calls and tasks stand at each point,
the announcements built, and the record. -/
structure RelayTasks where
  relay : RelayState
  /-- calls of `start` that have found something pending and are to mark dirty -/
  starting : ℕ
  /-- calls of `mark_dirty` that have set the flag and are to spawn the task -/
  spawning : ℕ
  /-- debounce tasks with their flag set -/
  debouncing : ℕ
  /-- trailing tasks with their flag set -/
  trailing : ℕ
  /-- tasks of both kinds that have cleared their flag and are to flush -/
  flushing : ℕ
  /-- the announcements built from the pending sets, in order -/
  built : List (DidChange × DeliveryPhase)
  calls : List WiringCall
  insertedPaths : List (ℕ × Directory)
  insertedRoots : List (ℕ × Directory)

namespace RelayTasks

/-- The section of `start` under the lock, and whether it will mark dirty. -/
def wire (state : RelayState) : RelayState × Bool :=
  ({ state with wired := true, started := true },
    !(state.pendingChangedPaths.isEmpty && state.pendingGitDirtyRoots.isEmpty))

/-- `mark_dirty` up to the spawn, and what goes on record. -/
def markDirty (s : RelayTasks) (paths roots : List Directory) : RelayTasks :=
  let marked := s.relay.markDirty paths roots
  { s with
    relay := marked.1
    spawning := s.spawning + marked.2.toNat
    insertedPaths :=
      if s.relay.closed then s.insertedPaths
      else s.insertedPaths ++ paths.map fun path => (s.built.length, path)
    insertedRoots :=
      if s.relay.closed then s.insertedRoots
      else s.insertedRoots ++ roots.map fun root => (s.built.length, root) }

/-- `flush_dirty` up to the end of its section. -/
def flushDirty (minIntervalMs now : ℕ) (s : RelayTasks) : RelayTasks :=
  let flushed := s.relay.flushDirty minIntervalMs now
  match flushed.2 with
  | .nothing => { s with relay := flushed.1 }
  | .trailing => { s with relay := flushed.1, trailing := s.trailing + 1 }
  | .announce change =>
    { s with relay := flushed.1, built := s.built ++ [(change, .invalidating)] }

/-- The next call of an announcement's delivery. -/
def deliver (s : RelayTasks) (n : ℕ) : Option RelayTasks :=
  match s.built[n]? with
  | some (change, .invalidating) =>
    some { s with
      built := s.built.set n (change, .broadcasting)
      calls := s.calls ++ [.invalidate n change] }
  | some (change, .broadcasting) =>
    some { s with
      built := s.built.set n (change, .done)
      calls := s.calls ++ [.broadcast n change] }
  | _ => none

end RelayTasks

/-- The steps of the relay and its tasks. -/
inductive RelayAction where
  /-- `start` sets the wiring -/
  | start
  /-- `start` calls `mark_dirty` -/
  | startMarks
  | markDirty (paths roots : List Directory)
  | spawnDebounce
  /-- the debounce task clears its flag -/
  | debounceWakes
  /-- the trailing task clears its flag -/
  | trailingWakes
  /-- a task that has cleared its flag flushes -/
  | flush (now : ℕ)
  /-- the announcement with a number makes its next call -/
  | deliver (n : ℕ)
  | close

open RelayTasks in
/-- **The relay as a machine.** -/
def relayMachine (minIntervalMs : ℕ) : Machine RelayTasks RelayAction where
  init := ⟨.new, 0, 0, 0, 0, 0, [], [], [], []⟩
  step s
    | .start =>
      let wired := wire s.relay
      some { s with relay := wired.1, starting := s.starting + wired.2.toNat }
    | .startMarks =>
      if s.starting = 0 then none
      else some ({ s with starting := s.starting - 1 }.markDirty [] [])
    | .markDirty paths roots => some (s.markDirty paths roots)
    | .spawnDebounce =>
      if s.spawning = 0 then none
      else some { s with spawning := s.spawning - 1, debouncing := s.debouncing + 1 }
    | .debounceWakes =>
      if s.debouncing = 0 then none
      else
        some { s with
          relay := { s.relay with debounceScheduled := false }
          debouncing := s.debouncing - 1
          flushing := s.flushing + 1 }
    | .trailingWakes =>
      if s.trailing = 0 then none
      else
        some { s with
          relay := { s.relay with trailingScheduled := false }
          trailing := s.trailing - 1
          flushing := s.flushing + 1 }
    | .flush now =>
      if s.flushing = 0 then none
      else some ({ s with flushing := s.flushing - 1 }.flushDirty minIntervalMs now)
    | .deliver n => s.deliver n
    | .close => some { s with relay := s.relay.close }

end Remux
