import Remux.Extensions.Model.Supervisor

/-!
# The writers of a viewer bundle

A bundle is written by the builds of a start flow, by the gating builds
of `watch/start`, by a manual build of the views and by the watch child
of its view. The first two run inline in the actor, which takes up no
event before they are over; the manual build is a task of its own, and
every watch child has a monitor that reaps it. So the steps here are
smaller than a handler: an inline build begins and ends in two steps,
and what the other tasks do lies between them.

A start flow comes from `start`, from `restart` or from the backoff of
the server; a restart is always possible, so the lifecycle is left out.
A build stands for itself and for the publication of its bundle, and a
watch child for its group.
-/

namespace Remux

namespace Extensions

/-- A manifest as it is parsed: the views are the entries of an object,
so their ids differ. -/
structure ParsedManifest extends ExtensionManifest where
  distinct : (views.map (·.id)).Nodup

/-- What builds views inline. -/
inductive InlineBuilds where
  | startFlow
  | watchStart
  deriving DecidableEq

/-- What the actor is at: it waits for an event, or a handler of it waits
for the build of the server or of a view, goes on to the next of the
views left, spawns the watch children left, or waits for those it
stops. -/
inductive ActorTask where
  | idle
  | serverBuild
  | viewBuilds (kind : InlineBuilds) (left : List ViewSpec)
  | viewBuild (kind : InlineBuilds) (view : ViewSpec) (left : List ViewSpec)
  | spawningWatchers (left : List String)
  | stoppingWatchers
  deriving DecidableEq

/-- `WatchChild`, with its view. -/
structure WatchChild where
  viewId : String
  pid : ℕ
  deriving DecidableEq

/-- The monitor of a watch child: whether a stop has signalled the child,
and whether it has exited, so that the monitor reports it. -/
structure WatchMonitor where
  generation : ℕ
  viewId : String
  pid : ℕ
  stopping : Bool
  exited : Bool
  deriving DecidableEq

/-- `run_manual_views_build` under way, with its copy of
`watch_enabled`. -/
structure ManualViewsBuild where
  watchEnabled : Bool
  left : List ViewSpec
  building : Option ViewSpec
  successfulViewIds : List String

namespace ManualViewsBuild

variable (m : ManualViewsBuild)

/-- The watcher owns the bundle. -/
def skips (view : ViewSpec) : Bool := m.watchEnabled && view.watch

/-- The views it builds or has still to build. -/
def toBuild : List ViewSpec := m.building.toList ++ m.left.filter (!m.skips ·)

/-- What it ends with. -/
def outcome (failure : Option String) : ManualViewsBuildOutcome :=
  ⟨!m.successfulViewIds.isEmpty, failure, m.successfulViewIds⟩

end ManualViewsBuild

/-- The actor, its manual build and the monitors of its watch
children. -/
structure BundleActor where
  task : ActorTask
  viewsBuildInFlight : Bool
  failedViewBuilds : List String
  watchEnabled : Bool
  watchFailed : Bool
  watchChildren : List WatchChild
  watchGeneration : ℕ
  watchCrashTimes : List ℕ
  watchBackoffDeadline : Option ℕ
  manual : Option ManualViewsBuild
  /-- The end of a manual build, in the mailbox. -/
  finished : Option ManualViewsBuildOutcome
  monitors : List WatchMonitor
  /-- The watch children spawned so far; their pids differ. -/
  spawned : ℕ

/-- The state of the watch facet. -/
inductive WatchFacet where
  | failed
  | running
  | stopped
  deriving DecidableEq

namespace BundleActor

variable (extension : ExtensionManifest) (cfg : SupervisorConfig) (w : BundleActor)

/-- The watch facet of `current_status`. -/
def watchFacet : WatchFacet :=
  if w.watchFailed then .failed else if w.watchEnabled then .running else .stopped

/-! ## Inline builds -/

/-- Whether a view is passed over by `run_view_builds`, or by the gating
builds of `handle_watch_start`. -/
def skips (view : ViewSpec) (entryExists : Bool) : InlineBuilds → Bool
  | .startFlow => !view.build || w.watchEnabled && view.watch ||
      !(w.failedViewBuilds.contains view.id || !entryExists)
  | .watchStart => !view.build || entryExists && !w.failedViewBuilds.contains view.id

/-- `spawn_watch_children` before its loop: the watched views that have
no child. -/
def spawnWatchChildren : BundleActor :=
  if w.watchEnabled then
    { w with
      task := .spawningWatchers <| (extension.views.filter fun view =>
        view.watch && !w.watchChildren.any (·.viewId = view.id)).map (·.id) }
  else { w with task := .idle }

/-- No view is left to build. -/
def viewsBuilt : InlineBuilds → BundleActor
  | .startFlow => { w with task := .idle }
  | .watchStart =>
    { w with
      watchEnabled := true
      watchFailed := false
      watchCrashTimes := [] }.spawnWatchChildren extension

/-- An inline build of a view has ended. -/
def viewBuilt (kind : InlineBuilds) (view : ViewSpec) (left : List ViewSpec) (ok : Bool) :
    BundleActor :=
  if ok then
    { w with
      failedViewBuilds := w.failedViewBuilds.filter (· ≠ view.id)
      task := .viewBuilds kind left }
  else
    { w with
      failedViewBuilds := view.id :: w.failedViewBuilds
      watchFailed := w.watchFailed || kind = .watchStart
      task := .idle }

/-- `handle_watch_start` before its builds. -/
def handleWatchStart : BundleActor :=
  let watched := extension.views.filter (·.watch)
  if w.viewsBuildInFlight || watched.isEmpty || w.watchEnabled then w
  else { w with task := .viewBuilds .watchStart watched }

/-! ## Manual builds -/

/-- `start_views_build`. -/
def startViewsBuild : BundleActor :=
  let declared := extension.views.filter (·.build)
  if declared.isEmpty || w.viewsBuildInFlight then w
  else { w with
    viewsBuildInFlight := true
    manual := some ⟨w.watchEnabled, declared, none, []⟩ }

/-- The manual build has ended. -/
def endManual (m : ManualViewsBuild) (failure : Option String) : BundleActor :=
  { w with
    manual := none
    finished := some (m.outcome failure) }

/-- The manual build goes on to its next view. -/
def nextManual (m : ManualViewsBuild) : BundleActor :=
  match m.left with
  | [] => w.endManual m none
  | view :: left =>
    { w with manual := some { m with
      left
      building := if m.skips view then none else some view } }

/-- The manual build of a view has ended. -/
def manualBuilt (m : ManualViewsBuild) (view : ViewSpec) (ok : Bool) : BundleActor :=
  if ok then
    { w with manual := some { m with
      building := none
      successfulViewIds := m.successfulViewIds ++ [view.id] } }
  else w.endManual m (some view.id)

/-- `finish_views_build`. -/
def finishViewsBuild (outcome : ManualViewsBuildOutcome) : BundleActor :=
  { w with
    viewsBuildInFlight := false
    finished := none
    failedViewBuilds := outcome.failure.toList ++
      w.failedViewBuilds.filter fun id => !outcome.successfulViewIds.contains id }

/-! ## Watch children -/

/-- The crash times with one more. -/
def watchCrashes (now : ℕ) : List ℕ := recent cfg.crashWindowMs now (w.watchCrashTimes ++ [now])

/-- The crash budget is exhausted by one more crash. -/
def exhausts (now : ℕ) : Bool := cfg.crashBudget ≤ (w.watchCrashes cfg now).length

/-- `record_watch_crash`: the end of the facet leaves the children of
other views as they are. -/
def recordWatchCrash (now : ℕ) : BundleActor :=
  if w.exhausts cfg now then
    { w with
      watchBackoffDeadline := none
      watchCrashTimes := []
      watchEnabled := false
      watchFailed := true }
  else
    let crashes := (w.watchCrashes cfg now).length
    let exponent := min (crashes - 1) 10
    { w with
      watchCrashTimes := w.watchCrashes cfg now
      watchBackoffDeadline :=
        some (now + min cfg.backoffCapMs (cfg.backoffBaseMs * 2 ^ exponent)) }

/-- The loop of `spawn_watch_children` for one view: the child is
spawned, or it crashed. The loop goes on in either case. -/
def spawnWatchChild (viewId : String) (left : List String) (spawns : Bool) (now : ℕ) :
    BundleActor :=
  if spawns then
    { w with
      task := .spawningWatchers left
      watchChildren := w.watchChildren ++ [⟨viewId, w.spawned⟩]
      monitors := w.monitors ++ [⟨w.watchGeneration, viewId, w.spawned, false, false⟩]
      spawned := w.spawned + 1 }
  else { w.recordWatchCrash cfg now with task := .spawningWatchers left }

/-- The child that a report of an exit is about, where it is one of the
current session. -/
def reported (monitor : WatchMonitor) : Bool :=
  monitor.generation = w.watchGeneration && w.watchChildren.any (·.viewId = monitor.viewId)

/-- `handle_watch_child_exited`. -/
def handleWatchChildExited (monitor : WatchMonitor) (now : ℕ) : BundleActor :=
  if w.reported monitor then
    let removed := { w with
      watchChildren := w.watchChildren.eraseP (·.viewId = monitor.viewId) }
    if w.watchEnabled then removed.recordWatchCrash cfg now else removed
  else w

/-- `stop_watchers` until it waits: the groups of the children are
signalled. -/
def stopWatchers : BundleActor :=
  { w with
    watchBackoffDeadline := none
    watchEnabled := false
    watchFailed := false
    watchGeneration := w.watchGeneration + 1
    watchChildren := []
    monitors := w.monitors.map fun monitor => { monitor with
      stopping := monitor.stopping || w.watchChildren.any (·.pid = monitor.pid) }
    task := if w.watchChildren.isEmpty then .idle else .stoppingWatchers }

end BundleActor

/-- A step of the actor, of the manual build, of a watch child or of a
monitor. -/
inductive BundleAction where
  | startFlow
  | serverBuilt (ok : Bool)
  /-- The inline builds go on to the next view. -/
  | nextView (entryExists : Bool)
  | viewBuilt (ok : Bool)
  | viewsBuild
  | nextManual
  | manualBuilt (ok : Bool)
  | viewsBuildFinished
  | watchStart
  | watchStop
  /-- The stop has waited long enough. -/
  | watchStopped
  | watchBackoff (now : ℕ)
  /-- The loop that spawns the watch children goes on. -/
  | spawnNext (spawns : Bool) (now : ℕ)
  | watchDies (i : ℕ)
  | watchChildExited (i : ℕ) (now : ℕ)

section

variable (extension : ExtensionManifest) (cfg : SupervisorConfig)

/-- What a step does. An event is taken up by an idle actor only. -/
def bundleStep (w : BundleActor) : BundleAction → Option BundleActor
  | .startFlow => if w.task = .idle then some { w with task := .serverBuild } else none
  | .serverBuilt ok =>
    if w.task = .serverBuild then some
      { w with task := if ok then .viewBuilds .startFlow extension.views else .idle }
    else none
  | .nextView entryExists =>
    match w.task with
    | .viewBuilds kind [] => some (w.viewsBuilt extension kind)
    | .viewBuilds kind (view :: left) =>
      if w.skips view entryExists kind then some { w with task := .viewBuilds kind left }
      else some { w with task := .viewBuild kind view left }
    | _ => none
  | .viewBuilt ok =>
    match w.task with
    | .viewBuild kind view left => some (w.viewBuilt kind view left ok)
    | _ => none
  | .viewsBuild => if w.task = .idle then some (w.startViewsBuild extension) else none
  | .nextManual =>
    match w.manual with
    | some m => if m.building.isNone then some (w.nextManual m) else none
    | none => none
  | .manualBuilt ok =>
    match w.manual with
    | some m => m.building.map fun view => w.manualBuilt m view ok
    | none => none
  | .viewsBuildFinished => if w.task = .idle then w.finished.map w.finishViewsBuild else none
  | .watchStart => if w.task = .idle then some (w.handleWatchStart extension) else none
  | .watchStop => if w.task = .idle then some w.stopWatchers else none
  | .watchStopped => if w.task = .stoppingWatchers then some { w with task := .idle } else none
  | .watchBackoff now =>
    if w.task = .idle ∧ w.watchBackoffDeadline.any (· ≤ now) then some
      ({ w with watchBackoffDeadline := none }.spawnWatchChildren extension)
    else none
  | .spawnNext spawns now =>
    match w.task with
    | .spawningWatchers [] => some { w with task := .idle }
    | .spawningWatchers (viewId :: left) => some (w.spawnWatchChild cfg viewId left spawns now)
    | _ => none
  | .watchDies i =>
    match w.monitors[i]? with
    | some monitor =>
      if monitor.exited then none
      else some { w with monitors := w.monitors.set i { monitor with exited := true } }
    | none => none
  | .watchChildExited i now =>
    match w.monitors[i]? with
    | some monitor =>
      if w.task = .idle ∧ monitor.exited then some
        ({ w with monitors := w.monitors.eraseIdx i }.handleWatchChildExited cfg monitor now)
      else none
    | none => none

/-- A supervisor that has just been created. -/
def BundleActor.init : BundleActor where
  task := .idle
  viewsBuildInFlight := false
  failedViewBuilds := []
  watchEnabled := false
  watchFailed := false
  watchChildren := []
  watchGeneration := 0
  watchCrashTimes := []
  watchBackoffDeadline := none
  manual := none
  finished := none
  monitors := []
  spawned := 0

/-- The runs of a supervisor and what it has started. -/
def bundleMachine : Machine BundleActor BundleAction where
  init := .init
  step := bundleStep extension cfg

end

end Extensions

end Remux
