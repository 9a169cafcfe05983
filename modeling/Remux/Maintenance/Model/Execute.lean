import Mathlib.Algebra.Group.Int.Defs
import Remux.Common.Script
import Remux.Maintenance.Model.State

/-!
# A maintenance run

`Maintenance::run` and `Maintenance::execute` of `maintenance.rs` as a
script on the seams that the source injects. The numbered stages of
`execute` are a definition each, the later ones first; the log is left
out. The waiting at the sixth stage has no bound in the source: here a
run that has waited `patience` times gives up without a result.
-/

namespace Remux

/-- What a run asks of the outside: a method of one of the seams. -/
inductive Effect where
  | command (program : String) (args : List String)
  | nowMs
  | localMinute
  | wait (seconds : ℕ)
  | quiescence
  | buildServer
  | restart
  | status
  | activateCodex
  | sdkVersions
  | save (state : MaintenanceState)
  | pin
  | previousCli
  | backupDist
  | restoreDist
  | restoreCli (previous : List String)
  deriving DecidableEq

/-- What the method answers; a path is the list of its components. -/
@[reducible]
def Effect.Answer : Effect → Type
  | command .. => Except String CommandOutput
  | nowMs => ℤ
  | localMinute => ℕ
  | wait _ => Unit
  | quiescence => Except String Quiescence
  | buildServer | restart | status | save _ | backupDist | restoreDist | restoreCli _ =>
    Except String Unit
  | activateCodex | pin => Except String String
  | sdkVersions => Except String (List String)
  | previousCli => Except String (List String)

/-- A script of a run. -/
abbrev MaintenanceScript := Script Effect.Answer MaintenanceState

/-! ## The seams -/

namespace Seam

open Script

/-- `CommandRunner::run`. -/
abbrev run (program : String) (args : List String) :
    MaintenanceScript (Except String CommandOutput) :=
  call (Effect.command program args)

/-- `Clock`. -/
abbrev nowMs : MaintenanceScript ℤ := call Effect.nowMs

/-- The minute of the local day. -/
abbrev localMinute : MaintenanceScript ℕ := call Effect.localMinute

/-- The pause between two reads. -/
abbrev wait (seconds : ℕ) : MaintenanceScript Unit := call (Effect.wait seconds)

/-- `QuiescenceReader::read`. -/
abbrev quiescence : MaintenanceScript (Except String Quiescence) := call Effect.quiescence

/-- `ExtensionControl`. -/
abbrev buildServer : MaintenanceScript (Except String Unit) := call Effect.buildServer

/-- `ExtensionControl::restart`. -/
abbrev restart : MaintenanceScript (Except String Unit) := call Effect.restart

/-- `ExtensionControl::status`. -/
abbrev status : MaintenanceScript (Except String Unit) := call Effect.status

/-- `ExtensionControl::activate_codex`. -/
abbrev activateCodex : MaintenanceScript (Except String String) := call Effect.activateCodex

/-- `RegistryClient::sdk_versions`. -/
abbrev sdkVersions : MaintenanceScript (Except String (List String)) := call Effect.sdkVersions

/-- `StateStore::save`. -/
abbrev save (state : MaintenanceState) : MaintenanceScript (Except String Unit) :=
  call (Effect.save state)

/-- `Workspace`. -/
abbrev pin : MaintenanceScript (Except String String) := call Effect.pin

/-- `Workspace::previous_cli`. -/
abbrev previousCli : MaintenanceScript (Except String (List String)) := call Effect.previousCli

/-- `Workspace::backup_dist`. -/
abbrev backupDist : MaintenanceScript (Except String Unit) := call Effect.backupDist

/-- `Workspace::restore_dist`. -/
abbrev restoreDist : MaintenanceScript (Except String Unit) := call Effect.restoreDist

/-- `Workspace::restore_cli`. -/
abbrev restoreCli (previous : List String) : MaintenanceScript (Except String Unit) :=
  call (Effect.restoreCli previous)

end Seam

namespace Maintenance

open Script

/-- `PACKAGE`, the manifest that pins the SDK. -/
def package : String := "extensions/agent/package.json"

/-- `LOCKFILE`. -/
def lockfile : String := "package-lock.json"

/-- `SDK`, the package that is updated. -/
def sdk : String := "@anthropic-ai/claude-agent-sdk"

/-- An outcome that leaves all as it is. -/
def skipped (stage reason : String) : RunOutcome := .skipped stage reason

/-- An outcome that is tried again later. -/
def deferred (stage reason : String) : RunOutcome := .deferred stage reason

/-- The value of a minute, an `i64` subtraction that saturates. -/
def saturatingSub (a b : ℤ) : ℤ := max (-(2 ^ 63)) (min (a - b) (2 ^ 63 - 1))

/-- `Path::file_name`. -/
def fileName (path : List String) : Option String :=
  match path.getLast? with
  | some ".." | none => none
  | some name => some name

/-- `checked`. -/
def command (program : String) (args : List String) : MaintenanceScript (Except String String) := do
  match ← Seam.run program args with
  | .error error => pure (.error error)
  | .ok output =>
    if output.code ≠ 0 then
      pure (.error (program ++ " " ++ " ".intercalate args ++ " failed (" ++
        toString output.code ++ "): " ++ trim output.stderr))
    else pure (.ok (trim output.stdout))

/-- `held`. -/
def held (hold : Hold) : RunOutcome := .held hold.target hold.attempts hold.reason

section

variable (config : AgentAutoupdateConfig)

/-- `in_window`. -/
def inWindow : MaintenanceScript Bool := do
  match parseWindow config.windowText with
  | none => pure false
  | some (start, stop) =>
    let minute ← Seam.localMinute
    pure (inWindowAt start stop minute)

/-- `!now && !self.in_window()`. -/
def outsideWindow (now : Bool) : MaintenanceScript Bool :=
  if now then pure false
  else do
    let inside ← inWindow config
    pure !inside

/-- `quiet`, with `quiet_since` before and after. -/
def quiet (quietSince : ℤ) : MaintenanceScript (Except String Unit × ℤ) := do
  match ← Seam.quiescence with
  | .error error =>
    let now ← Seam.nowMs
    pure (.error error, now)
  | .ok q =>
    if !q.isIdle then
      let now ← Seam.nowMs
      pure (.error ("agent is busy: " ++ ", ".intercalate q.blockers), now)
    else
      let now ← Seam.nowMs
      if q.observedAt > now ∨ saturatingSub now q.observedAt > 60000 then
        pure (.error "quiescence observation is stale", now)
      else
        let last := q.lastActivityAt.getD quietSince
        if last > now ∨ saturatingSub now last < config.quiet * 60000 then
          pure (.error "quiet period has not elapsed", quietSince)
        else pure (.ok (), quietSince)

end

/-! ## What takes an attempt back -/

/-- `git checkout` of the pin. -/
def checkoutPin : Effect := .command "git" ["checkout", "--", package, lockfile]

/-- `npm install` of what is pinned. -/
def reinstall : Effect := .command "npm" ["install", "--workspace", "@remux/agent"]

/-- `restore_pin`. -/
def restorePin : MaintenanceScript (Except String Unit) := do
  match ← command "git" ["checkout", "--", package, lockfile] with
  -- the `?` of the source: `npm install` is not reached
  | .error error => pure (.error error)
  | .ok _ =>
    match ← command "npm" ["install", "--workspace", "@remux/agent"] with
    | .error error => pure (.error error)
    | .ok _ =>
      match ← Seam.pin with
      | .error error => pure (.error error)
      | .ok pin =>
        modify fun s => { s with pinnedSdkVersion := some pin }
        pure (.ok ())

/-- An error of a part of the rollback, with the part's name. -/
def labelled {α : Type} (label : String) : Except String α → List String
  | .error error => [label ++ ": " ++ error]
  | .ok _ => []

/-- `rollback`, the part for `dist`. -/
def rollbackDist (dist : Bool) : MaintenanceScript (List String) :=
  if dist then do
    let result ← Seam.restoreDist
    pure (labelled "dist" result)
  else pure []

/-- `rollback`, the part for `activate`. -/
def rollbackActivation (activate : Bool) (previous : List String) :
    MaintenanceScript (List String) :=
  if activate then do
    match ← Seam.restoreCli previous with
    | .error error =>
      -- the agent is restarted even where its CLI could not be restored
      let restarted ← Seam.restart
      pure (("CLI: " ++ error) :: labelled "restart" restarted)
    | .ok () =>
      modify fun s => { s with installedCliVersion := fileName previous }
      let restarted ← Seam.restart
      pure (labelled "restart" restarted)
  else pure []

/-- `rollback`. -/
def rollback (dist activate : Bool) (previous : List String) :
    MaintenanceScript (Except String Unit) := do
  let distErrors ← rollbackDist dist
  let pin ← restorePin
  let activationErrors ← rollbackActivation activate previous
  let errors := distErrors ++ labelled "pin" pin ++ activationErrors
  if errors.isEmpty then pure (.ok ()) else pure (.error ("; ".intercalate errors))

/-- `failure`. -/
def failure (target stage error : String) (immediateHold : Bool) :
    MaintenanceScript RunOutcome := do
  let s ← get
  let earlier := if s.failureTarget ≠ some target then 0 else s.consecutiveFailures
  -- a `u32` of a release build
  let attempts := (earlier + 1) % 2 ^ 32
  modify fun s => { s with failureTarget := some target, consecutiveFailures := attempts }
  if immediateHold || attempts ≥ 3 then
    let timestamp ← Seam.nowMs
    let hold : Hold := ⟨target, attempts, stage ++ ": " ++ error, timestamp⟩
    modify fun s => { s with hold := some hold }
    pure (held hold)
  else pure (.rolledBack stage error)

/-- `fail`. -/
def fail (target stage error : String) (dist activate : Bool) (previous : List String) :
    MaintenanceScript RunOutcome := do
  match ← rollback dist activate previous with
  | .ok () => failure target stage error activate
  | .error restoreError =>
    failure target stage (error ++ "; restore failed: " ++ restoreError) true

/-- `defer_restore`. -/
def deferRestore (target reason : String) (dist : Bool) (previous : List String) :
    MaintenanceScript RunOutcome := do
  match ← rollback dist false previous with
  | .ok () => pure (deferred "quiescence" reason)
  | .error error => failure target "restore" error true

/-- `clear_failures`. -/
def clearFailures : MaintenanceScript Unit :=
  modify fun s => { s with failureTarget := none, consecutiveFailures := 0, hold := none }

/-- `activate_codex`. -/
def activateCodex : MaintenanceScript Unit := do
  match ← Seam.activateCodex with
  | .ok _ => pure ()
  | .error error =>
    modify fun s => { s with lastDeferReason := some ("Codex activation: " ++ error) }

section

variable (config : AgentAutoupdateConfig) (now : Bool)

/-! ## The stages -/

/-- The message of the commit, and what it commits. -/
def commitArgs (target : String) : List String :=
  ["commit", "--only", "-m", "chore(agent): bump claude-agent-sdk to " ++ target, "--", package,
    lockfile]

/-- The end of a run that upgraded. -/
def upgraded (cli target : String) : MaintenanceScript RunOutcome := do
  modify fun s => { s with pinnedSdkVersion := some target }
  clearFailures
  activateCodex
  pure (.upgraded cli target)

/-- Stage 9. -/
def commit (cli target : String) : MaintenanceScript RunOutcome :=
  if config.commits then do
    match ← command "git" (commitArgs target) with
    | .error error =>
      modify fun s => { s with pinnedSdkVersion := some target }
      failure target "commit" error true
    | .ok _ => upgraded cli target
  else upgraded cli target

/-- Stage 8, from the restart on. -/
def activate (cli target : String) (previous : List String) : MaintenanceScript RunOutcome := do
  match ← Seam.restart with
  | .error error => fail target "restart" error true true previous
  | .ok () =>
    match ← Seam.status with
    | .error error => fail target "probe" error true true previous
    | .ok () => commit config cli target

/-- Stage 8. -/
def checkAndActivate (cli target : String) (previous : List String) (quietSince : ℤ) :
    MaintenanceScript RunOutcome := do
  if ← outsideWindow config now then
    deferRestore target "window closed before activation" true previous
  else
    match ← quiet config quietSince with
    | (.error reason, _) => deferRestore target reason true previous
    | (.ok (), _) => activate config cli target previous

/-- Stage 7. -/
def backupAndBuild (cli target : String) (previous : List String) (quietSince : ℤ) :
    MaintenanceScript RunOutcome := do
  match ← Seam.backupDist with
  | .error error => fail target "backup" error false false previous
  | .ok () =>
    match ← Seam.buildServer with
    | .error error => fail target "build" error true false previous
    | .ok () => checkAndActivate config now cli target previous quietSince

/-- Stage 6, the loop. -/
def awaitQuiet (cli target : String) (previous : List String) : ℕ → ℤ → MaintenanceScript RunOutcome
  | 0, _ => giveUp
  | patience + 1, quietSince => do
    if ← outsideWindow config now then
      deferRestore target "window closed waiting for quiescence" false previous
    else
      match ← quiet config quietSince with
      | (.ok (), quietSince) => backupAndBuild config now cli target previous quietSince
      | (.error reason, quietSince) =>
        if now then deferRestore target reason false previous
        else
          Seam.wait 30
          awaitQuiet cli target previous patience quietSince

variable (patience : ℕ)

/-- Stage 6. -/
def quiescence (cli target : String) (previous : List String) : MaintenanceScript RunOutcome := do
  let quietSince ← Seam.nowMs
  awaitQuiet config now cli target previous patience quietSince

/-- Stage 5. -/
def verify (cli target : String) (previous : List String) : MaintenanceScript RunOutcome := do
  match ← command "npm" ["run", "typecheck"] with
  | .error error => fail target "typecheck" error false false previous
  | .ok _ =>
    match ← command "npm" ["run", "test:agent-server"] with
    | .error error => fail target "test:agent-server" error false false previous
    | .ok _ => quiescence config now patience cli target previous

/-- The arguments that install a version of the SDK. -/
def installArgs (target : String) : List String :=
  ["install", sdk ++ "@" ++ target, "--workspace", "@remux/agent"]

/-- `npm install` of a version of the SDK. -/
def installSdk (target : String) : Effect := .command "npm" (installArgs target)

/-- Stage 4. -/
def pinAndInstall (cli target : String) (previous : List String) :
    MaintenanceScript RunOutcome := do
  match ← command "npm" (installArgs target) with
  | .error error => fail target "install SDK" error false false previous
  | .ok _ =>
    match ← Seam.pin with
    | .error error => fail target "pin" error false false previous
    | .ok pin =>
      if pin = target then verify config now patience cli target previous
      else
        fail target "pin" ("expected exact SDK pin " ++ target ++ ", got " ++ pin) false false
          previous

/-- Stage 3, once the target is resolved. -/
def compareTarget (cli target : String) (previous : List String) :
    MaintenanceScript RunOutcome := do
  match (← get).hold.filter fun hold => hold.target == target with
  | some hold => pure (held hold)
  | none =>
    match ← Seam.pin with
    | .error error => pure (skipped "resolve" error)
    | .ok current =>
      modify fun s =>
        { s with
          pinnedSdkVersion := some current
          failureTarget := some target
          consecutiveFailures :=
            if s.failureTarget ≠ some target then 0 else s.consecutiveFailures
          hold := if s.failureTarget ≠ some target then none else s.hold }
      if current = target then
        activateCodex
        clearFailures
        pure .noOp
      else pinAndInstall config now patience cli target previous

/-- Stage 3. -/
def resolve (cli : String) (previous : List String) : MaintenanceScript RunOutcome := do
  match ← Seam.sdkVersions with
  | .error error => pure (skipped "resolve" error)
  | .ok versions =>
    modify fun s => { s with registryVersion := latestVersion versions }
    match resolveTarget versions cli with
    | .error error => pure (skipped "resolve" error)
    | .ok target => compareTarget config now patience cli target previous

/-- Stage 2: both installers run, and the first error is reported. -/
def installClis (previous : List String) : MaintenanceScript RunOutcome := do
  let claude ← command "claude" ["update"]
  let codex ← command "codex" ["update"]
  match ← command "claude" ["--version"] with
  | .error error => pure (skipped "install" error)
  | .ok cli =>
    modify fun s => { s with installedCliVersion := some cli, targetCliVersion := some cli }
    match claude, codex with
    | .error error, _ | .ok _, .error error => pure (skipped "install" error)
    | .ok _, .ok _ => resolve config now patience cli previous

/-- The end of stage 1: the state can be written, and the CLI that a
rollback goes back to is known. -/
def saveState : MaintenanceScript RunOutcome := do
  match ← Seam.save (← get) with
  | .error error => pure (skipped "state" error)
  | .ok () =>
    match ← Seam.previousCli with
    | .error error => pure (skipped "preconditions" error)
    | .ok previous => installClis config now patience previous

/-- Stage 1, the markers of a merge or a rebase. -/
def checkMarkers : List String → MaintenanceScript RunOutcome
  | [] => saveState config now patience
  | marker :: markers => do
    match ← command "git" ["rev-parse", "--git-path", marker] with
    | .error error => pure (skipped "preconditions" error)
    | .ok path =>
      match ← Seam.run "test" ["-e", path] with
      | .error error => pure (skipped "preconditions" error)
      | .ok output =>
        if output.code = 1 then checkMarkers markers
        else if output.code = 0 then
          pure (skipped "preconditions" "merge or rebase in progress")
        else pure (skipped "preconditions" output.stderr)

/-- Stage 1. -/
def preconditions : MaintenanceScript RunOutcome := do
  match ← command "git" ["status", "--porcelain", "--", package, lockfile] with
  | .error error => pure (skipped "preconditions" error)
  | .ok status =>
    if status ≠ "" then pure (skipped "preconditions" "watched package paths are dirty")
    else checkMarkers config now patience ["MERGE_HEAD", "rebase-merge", "rebase-apply"]

/-- The gate of the plan that tells of git. -/
def planGitGate : String :=
  "Git cleanliness and merge/rebase gates are checked on execution (dry run invokes no git)."

/-- The gate of the plan that tells of quiescence. -/
def planGate : Except String Unit → String
  | .ok () => "quiescence and quiet period pass"
  | .error reason => "activation blocked: " ++ reason

/-- The steps of the plan. -/
def planSteps (current target : String) : List String :=
  ["Update Claude, then Codex; re-resolve target from the resulting CLI version."] ++
  (if target = current then ["Current pin already matches; skip SDK build/restart/commit."]
  else
    ["Install " ++ sdk ++ "@" ++ target ++ " in workspace @remux/agent.",
      "Run typecheck and test:agent-server before touching dist.",
      "Wait for quiescence, copy dist to dist.prev, build server.",
      "Re-check quiescence, restart agent, probe provider and models.",
      if config.commits then
        "Commit only " ++ package ++ " and " ++ lockfile ++ " after passing probe; no push."
      else "Leave verified pin changes uncommitted (commit=false)."]) ++
  ["Ask the codex extension to activate if restartRequired; its idle gate decides."]

/-- `plan`. -/
def plan : MaintenanceScript RunOutcome := do
  match ← command "claude" ["--version"] with
  | .error error => pure (skipped "resolve" error)
  | .ok cli =>
    match (← Seam.sdkVersions).bind fun versions => resolveTarget versions cli with
    | .error error => pure (skipped "resolve" error)
    | .ok target =>
      match ← Seam.pin with
      | .error error => pure (skipped "resolve" error)
      | .ok current =>
        let quietSince ← Seam.nowMs
        let (gate, _) ← quiet config quietSince
        pure (.plan cli current target [planGitGate, planGate gate]
          (planSteps config current target))

/-- A release has changed since the hold. -/
def releaseChanged (s : MaintenanceState) (hold : Hold) (versions : List String) : Bool :=
  let cli := match s.targetCliVersion with
    | some cli => some cli
    | none => s.installedCliVersion
  let compatibleChanged := cli.any fun cli =>
    match resolveTarget versions cli with
    | .ok target => target != hold.target
    | .error _ => false
  let newRelease := s.registryVersion.any fun previous =>
    (latestVersion versions).any fun latest => latest != previous
  compatibleChanged || newRelease

/-- The rest of `execute`, once no hold stands in its way. -/
def executeFree (dryRun : Bool) : MaintenanceScript RunOutcome :=
  if dryRun then plan config else preconditions config now patience

/-- `execute`, from the check of the hold on. -/
def executeHold (dryRun : Bool) : MaintenanceScript RunOutcome := do
  let s ← get
  match s.hold with
  | none => executeFree config now patience dryRun
  | some hold =>
    match ← Seam.sdkVersions with
    | .error _ => pure (held hold)
    | .ok versions =>
      if releaseChanged s hold versions then executeFree config now patience dryRun
      else pure (held hold)

/-- `execute`. -/
def execute (dryRun : Bool) : MaintenanceScript RunOutcome :=
  if !config.isEnabled then pure (skipped "schedule" "agent_autoupdate is disabled")
  else do
    if ← outsideWindow config now then
      pure (skipped "schedule" "outside maintenance window")
    else
      match (← get).stateError with
      | some error => pure (skipped "state" error)
      | none => executeHold config now patience dryRun

/-- The end of `run`: the outcome is recorded and persisted. -/
def persist (outcome : RunOutcome) : MaintenanceScript RunOutcome := do
  let lastRun ← Seam.nowMs
  modify fun s =>
    { s with
      lastRun := some lastRun
      lastDeferReason := match outcome with
        | .deferred _ reason => some reason
        | _ => s.lastDeferReason
      lastResult := some outcome }
  match ← Seam.save (← get) with
  | .ok () => pure outcome
  | .error error =>
    modify fun s => { s with stateError := some error }
    pure (skipped "state" ("failed to persist result (" ++ outcome.text ++ "): " ++ error))

/-- **A maintenance run**, `run`; `running` says that another run holds
the lock. -/
def run (running dryRun : Bool) : MaintenanceScript RunOutcome :=
  if running then pure (deferred "preconditions" "maintenance already running")
  else if dryRun then execute config now patience true
  else do
    modify fun s => { s with lastDeferReason := none }
    let outcome ← execute config now patience false
    persist outcome

end

end Maintenance

end Remux
