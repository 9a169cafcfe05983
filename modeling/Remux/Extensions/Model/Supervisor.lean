import Remux.Common.Machine
import Remux.Common.Recent

/-!
# The lifecycle of an extension server

A supervisor is an actor: it handles one event after another, a command
of its mailbox, the exit of its child, or a backoff timer, and it builds,
provisions and spawns inline. A handler is a function of the state and of
what it finds along the way (`StartEnv`, `ExitParts`); the clock says
when it is taken up and how long it took.

Left out are the watch children, of the watch facet only whether it is
enabled is kept, the calls to the child, the gateway's own state, and
what is logged and broadcast.
-/

namespace Remux

namespace Extensions

/-- A view of the manifest. -/
structure ViewSpec where
  id : String
  build : Bool
  watch : Bool
  immutable : Bool
  deriving DecidableEq

/-- The server of the manifest: whether it declares a build. -/
structure ServerSpec where
  build : Bool
  deriving DecidableEq

/-- `ExtensionManifest`. -/
structure ExtensionManifest where
  server : Option ServerSpec
  views : List ViewSpec

/-- `SupervisorConfig`. -/
structure SupervisorConfig where
  backoffBaseMs : ℕ
  backoffCapMs : ℕ
  crashBudget : ℕ
  crashWindowMs : ℕ

/-- `SupervisorConfig::default`. -/
def SupervisorConfig.default : SupervisorConfig := ⟨500, 10000, 5, 60000⟩

/-- `Lifecycle`. -/
inductive Lifecycle where
  | stopped
  | building
  | starting
  | running
  | stopping
  | backingOff
  | failed
  deriving DecidableEq

/-- How a process ended, by its exit code or by a signal; neither where
it is not known. -/
structure ExitParts where
  code : Option ℤ
  signal : Option String
  deriving DecidableEq

/-- `LastExit`. -/
structure LastExit where
  code : Option ℤ
  signal : Option String
  at_ : ℕ
  reason : Option String
  deriving DecidableEq

/-- `BUILD_FAILED_REASON`. -/
def buildFailedReason : String := "build-failed"

/-- How a build went; a failed one has the parts of its exit. -/
abbrev BuildResult := Except ExitParts Unit

/-- What a start finds: which files there are, how each build and each
publication goes, whether the gateway is provisioned and the pid that is
spawned. -/
structure StartEnv where
  artifactExists : Bool
  serverBuild : BuildResult
  entryExists : String → Bool
  viewBuild : String → BuildResult
  publish : String → Bool
  provision : Bool
  spawn : Option ℕ

/-- The outcome of a manual view build. -/
structure ManualViewsBuildOutcome where
  completed : Bool
  failure : Option String
  successfulViewIds : List String

/-- The actor of an extension. -/
structure Actor where
  state : Lifecycle
  /-- The child, by its pid. -/
  child : Option ℕ
  stdin : Bool
  pid : Option ℕ
  pgid : Option ℕ
  startedAtMs : Option ℕ
  restartCount : ℕ
  lastExit : Option LastExit
  lastBuildFailed : Bool
  failedViewBuilds : List String
  lastViewBuildAtMs : Option ℕ
  viewsBuildInFlight : Bool
  crashTimes : List ℕ
  backoffDeadline : Option ℕ
  watchEnabled : Bool
  /-- The time. -/
  clock : ℕ
  /-- The groups that were spawned and not yet sent SIGKILL. -/
  unkilled : List ℕ
  /-- A child was spawned over another, or over a group not killed. -/
  spawnedOver : Bool
  /-- The respawns since the last start or restart: when the child
  crashed, and when the next was to be spawned. -/
  respawns : List (ℕ × ℕ)
  /-- The last crash. -/
  lastCrash : ℕ

namespace Actor

/-- `signal_group` with SIGKILL. -/
def killGroup (w : Actor) (pgid : ℕ) : Actor := { w with unkilled := w.unkilled.filter (· ≠ pgid) }

/-- `record_crash`: within the budget a backoff, and else the end. -/
def recordCrash (cfg : SupervisorConfig) (w : Actor) : Actor :=
  let crashTimes := recent cfg.crashWindowMs w.clock (w.crashTimes ++ [w.clock])
  let crashes := crashTimes.length
  if cfg.crashBudget ≤ crashes then
    { w with backoffDeadline := none, crashTimes := [], lastCrash := w.clock, state := .failed }
  else
    let exponent := min (crashes - 1) 10
    let delay := min cfg.backoffCapMs (cfg.backoffBaseMs * 2 ^ exponent)
    { w with
      crashTimes
      lastCrash := w.clock
      backoffDeadline := some (w.clock + delay)
      state := .backingOff }

/-- `fail_build`. -/
def failBuild (w : Actor) (exit : ExitParts) : Actor :=
  { w with
    lastExit := some ⟨exit.code, exit.signal, w.clock, some buildFailedReason⟩
    state := .failed }

/-- `run_server_build`, and whether it succeeded. -/
def runServerBuild (w : Actor) (env : StartEnv) : Actor × Bool :=
  match env.serverBuild with
  | .ok () => ({ w with state := .building, lastBuildFailed := false }, true)
  | .error exit =>
    (({ w with state := .building, lastBuildFailed := true } : Actor).failBuild exit, false)

/-- A view's build as it is run inline, and whether it and the
publication of an immutable view succeeded; the parts of the exit are
those of the build. -/
def buildView (env : StartEnv) (view : ViewSpec) : BuildResult :=
  match env.viewBuild view.id with
  | .ok () => if view.immutable && !env.publish view.id then .error ⟨none, none⟩ else .ok ()
  | .error exit => .error exit

/-- A view was built. -/
def viewBuilt (w : Actor) (viewId : String) : Actor :=
  { w with
    failedViewBuilds := w.failedViewBuilds.filter (· ≠ viewId)
    lastViewBuildAtMs := some w.clock }

/-- A view's build failed. -/
def viewFailed (w : Actor) (viewId : String) : Actor :=
  { w with failedViewBuilds := viewId :: w.failedViewBuilds }

/-- `run_view_builds`, and whether all that were needed succeeded. -/
def runViewBuilds (env : StartEnv) : List ViewSpec → Actor → Actor × Bool
  | [], w => (w, true)
  | view :: views, w =>
    if !view.build || w.watchEnabled && view.watch ||
        !(w.failedViewBuilds.contains view.id || !env.entryExists view.id) then
      runViewBuilds env views w
    else
      let building := { w with state := .building }
      match buildView env view with
      | .ok () => runViewBuilds env views (building.viewBuilt view.id)
      | .error exit => ((building.viewFailed view.id).failBuild exit, false)

/-- `spawn_child`. -/
def spawnChild (cfg : SupervisorConfig) (w : Actor) (env : StartEnv) : Actor :=
  let starting := { w with state := .starting }
  match env.provision, env.spawn with
  | true, some pid =>
    { starting with
      child := some pid
      stdin := true
      pid := some pid
      pgid := some pid
      startedAtMs := some w.clock
      state := .running
      spawnedOver := w.spawnedOver || w.child.isSome || !w.unkilled.isEmpty
      unkilled := pid :: w.unkilled }
  | _, _ => starting.recordCrash cfg

section

variable (extension : ExtensionManifest) (cfg : SupervisorConfig)

/-- The builds of `start_flow`, and whether they let it go on. -/
def runBuilds (w : Actor) (rebuild : Bool) (env : StartEnv) : Actor × Bool :=
  let needed := rebuild || w.lastBuildFailed || !env.artifactExists
  let server := if extension.server.any (·.build) && needed then w.runServerBuild env else (w, true)
  if server.2 then runViewBuilds env extension.views server.1 else server

/-- `start_flow`. -/
def startFlow (w : Actor) (rebuild : Bool) (env : StartEnv) : Actor :=
  let built := w.runBuilds extension rebuild env
  if !built.2 then built.1
  else if extension.server.isSome then built.1.spawnChild cfg env
  else { built.1 with state := .stopped }

/-- `stop_child`. -/
def stopChild (w : Actor) (status : Option ExitParts) : Actor :=
  let closed := { w with backoffDeadline := none, stdin := false }
  match w.child with
  | none => { closed with pid := none, pgid := none, startedAtMs := none, state := .stopped }
  | some _ =>
    let killed := w.pgid.elim { closed with state := .stopping } fun pgid =>
      { closed with state := .stopping }.killGroup pgid
    { killed with
      child := none
      lastExit := some ⟨status.bind (·.code), status.bind (·.signal), w.clock, none⟩
      pid := none
      pgid := none
      startedAtMs := none
      state := .stopped }

/-- `handle_unprompted_exit`. -/
def handleUnpromptedExit (w : Actor) (status : Option ExitParts) : Actor :=
  let code := status.bind (·.code)
  let signal := status.bind (·.signal)
  let clean := signal.isNone && code.getD 0 = 0
  let killed := w.pgid.elim w w.killGroup
  let gone := { killed with
    child := none
    stdin := false
    pid := none
    pgid := none
    startedAtMs := none
    lastExit := some ⟨code, signal, w.clock, none⟩ }
  if clean then { gone with state := .stopped } else gone.recordCrash cfg

/-- `handle_server_build`. -/
def handleServerBuild (w : Actor) (result : BuildResult) : Actor :=
  if w.viewsBuildInFlight || !extension.server.any (·.build) then w
  else
    match result with
    | .ok () =>
      let built := { w with lastBuildFailed := false }
      if w.state = .failed then { built with state := .stopped } else built
    | .error _ => { w with lastBuildFailed := true }

/-- `finish_views_build`. -/
def finishViewsBuild (w : Actor) (outcome : ManualViewsBuildOutcome) : Actor :=
  let finished := { w with
    viewsBuildInFlight := false
    failedViewBuilds := w.failedViewBuilds.filter fun id => !outcome.successfulViewIds.contains id
    lastViewBuildAtMs := if outcome.completed then some w.clock else w.lastViewBuildAtMs }
  match outcome.failure with
  | some viewId => finished.viewFailed viewId
  | none =>
    if w.state = .failed && extension.server.isNone then { finished with state := .stopped }
    else finished

/-- The gating builds of `handle_watch_start`, and whether it goes on. -/
def runGatingBuilds (env : StartEnv) : List ViewSpec → Actor → Actor × Bool
  | [], w => (w, true)
  | view :: views, w =>
    if !view.watch || !view.build ||
        env.entryExists view.id && !w.failedViewBuilds.contains view.id then
      runGatingBuilds env views w
    else
      match buildView env view with
      | .ok () => runGatingBuilds env views (w.viewBuilt view.id)
      | .error _ => (w.viewFailed view.id, false)

/-- `handle_watch_start`. -/
def handleWatchStart (w : Actor) (env : StartEnv) : Actor :=
  if w.viewsBuildInFlight || !extension.views.any (·.watch) || w.watchEnabled then w
  else
    let gated := runGatingBuilds env extension.views w
    if gated.2 then { gated.1 with watchEnabled := true } else gated.1

end

end Actor

/-- What the actor waits for. -/
inductive SupervisorEvent where
  | start (rebuild : Bool) (env : StartEnv)
  | stop (status : Option ExitParts)
  | restart (rebuild : Bool) (status : Option ExitParts) (env : StartEnv)
  | serverBuild (result : BuildResult)
  | viewsBuild
  | viewsBuildFinished (outcome : ManualViewsBuildOutcome)
  | watchStart (env : StartEnv)
  | watchStop
  /-- The last watch child that its budget allows exits. -/
  | watchFailed
  | rpc
  | childExited (status : Option ExitParts)
  | backoffFired (env : StartEnv)

/-- An event, when the actor takes it up, and how long it works on it
before a child is spawned, or fails to be. -/
structure SupervisorAction where
  event : SupervisorEvent
  at_ : ℕ
  elapsed : ℕ

section

variable (extension : ExtensionManifest) (cfg : SupervisorConfig)

/-- The handler of an event, where the event can come. -/
def handleEvent (w : Actor) : SupervisorEvent → Option Actor
  | .start rebuild env => some <|
    let asked := { w with respawns := [] }
    if w.state = .running || w.state = .starting then asked
    else { asked with backoffDeadline := none }.startFlow extension cfg rebuild env
  | .stop status => some (w.stopChild status)
  | .restart rebuild status env => some
      (({ w with respawns := [] }.stopChild status).startFlow extension cfg rebuild env)
  | .serverBuild result => some (w.handleServerBuild extension result)
  | .viewsBuild => some
      (if extension.views.any (·.build) then { w with viewsBuildInFlight := true } else w)
  | .viewsBuildFinished outcome =>
    if w.viewsBuildInFlight then some (w.finishViewsBuild extension outcome) else none
  | .watchStart env => some (w.handleWatchStart extension env)
  | .watchStop | .watchFailed => some { w with watchEnabled := false }
  | .rpc => some w
  | .childExited status =>
    if w.child.isSome then some (w.handleUnpromptedExit cfg status) else none
  | .backoffFired env =>
    if w.backoffDeadline.isSome then some ({ w with
        backoffDeadline := none
        restartCount := w.restartCount + 1
        respawns := w.respawns ++ [(w.lastCrash, w.clock)] }.startFlow extension cfg false env)
    else none

/-- What a step does. The clock does not go back, a timer does not fire
early, and the work of a handler is done before its outcome. -/
def supervisorStep (w : Actor) (a : SupervisorAction) : Option Actor :=
  if a.at_ < w.clock then none
  else if (match a.event with
    | .backoffFired _ => w.backoffDeadline.any (a.at_ < ·)
    | _ => false) then none
  else handleEvent extension cfg { w with clock := a.at_ + a.elapsed } a.event

/-- A supervisor that has just been created. -/
def Actor.init : Actor where
  state := .stopped
  child := none
  stdin := false
  pid := none
  pgid := none
  startedAtMs := none
  restartCount := 0
  lastExit := none
  lastBuildFailed := false
  failedViewBuilds := []
  lastViewBuildAtMs := none
  viewsBuildInFlight := false
  crashTimes := []
  backoffDeadline := none
  watchEnabled := false
  clock := 0
  unkilled := []
  spawnedOver := false
  respawns := []
  lastCrash := 0

/-- The runs of a supervisor. -/
def supervisorMachine : Machine Actor SupervisorAction where
  init := .init
  step := supervisorStep extension cfg

end

end Extensions

end Remux
