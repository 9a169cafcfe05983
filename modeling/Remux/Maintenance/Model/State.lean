import Remux.Common.Text

/-!
# The state of the agent's maintenance

`MaintenanceState`, its configuration and its outcomes, of
`maintenance.rs` and `config.rs`, and the choice of the version that a run
aims at.
-/

namespace Remux

/-- `AgentAutoupdateConfig`, as far as a run reads it. -/
structure AgentAutoupdateConfig where
  enabled : Option Bool
  window : Option String
  quietMinutes : Option ℕ
  commit : Option Bool

namespace AgentAutoupdateConfig

/-- `enabled`, true by default. -/
def isEnabled (config : AgentAutoupdateConfig) : Bool := config.enabled.getD true

/-- `window`, or the default one. -/
def windowText (config : AgentAutoupdateConfig) : String := config.window.getD "03:30-06:00"

/-- `quiet_minutes`, or the default. -/
def quiet (config : AgentAutoupdateConfig) : ℕ := config.quietMinutes.getD 20

/-- `commit`, true by default. -/
def commits (config : AgentAutoupdateConfig) : Bool := config.commit.getD true

end AgentAutoupdateConfig

/-- The number of some decimal digits. -/
def decimal (digits : List Char) : ℕ :=
  digits.foldl (fun n digit => 10 * n + (digit.toNat - '0'.toNat)) 0

/-- `HH:MM`, as a minute of the day. -/
def parseMinute : List Char → Option ℕ
  | [a, b, colon, c, d] =>
    if colon = ':' ∧ [a, b, c, d].all Char.isDigit ∧ decimal [a, b] < 24 ∧ decimal [c, d] < 60 then
      some (decimal [a, b] * 60 + decimal [c, d])
    else none
  | _ => none

/-- `parse_window`, without its error. -/
def parseWindow (window : String) : Option (ℕ × ℕ) :=
  match window.toList.span (· != '-') with
  | (_, []) => none
  | (start, _ :: stop) =>
    (parseMinute start).bind fun start =>
      (parseMinute stop).bind fun stop =>
        if start = stop then none else some (start, stop)

/-- The minute of the day is inside the window. -/
def inWindowAt (start stop minute : ℕ) : Bool :=
  if minute ≥ 24 * 60 then false
  else if start < stop then minute ≥ start && minute < stop
  else minute ≥ start || minute < stop

/-- `RunOutcome`. -/
inductive RunOutcome where
  | skipped (stage reason : String)
  | deferred (stage reason : String)
  | upgraded (cli sdk : String)
  | rolledBack (stage error : String)
  | held (target : String) (attempts : ℕ) (reason : String)
  | noOp
  | plan (cli current target : String) (gates steps : List String)
  deriving DecidableEq

/-- `RunOutcome::fmt`. -/
def RunOutcome.text : RunOutcome → String
  | skipped stage reason => "Skipped at " ++ stage ++ ": " ++ reason
  | deferred stage reason => "Deferred at " ++ stage ++ ": " ++ reason
  | upgraded cli sdk => "Upgraded: Claude CLI " ++ cli ++ ", SDK " ++ sdk
  | rolledBack stage error => "Rolled back at " ++ stage ++ ": " ++ error
  | held target attempts reason =>
    "Holding SDK " ++ target ++ " after " ++ toString attempts ++ " failure(s): " ++ reason
  | noOp => "No SDK change needed."
  | plan cli current target gates steps =>
    "Dry run: Claude CLI " ++ cli ++ ", SDK " ++ current ++ " → " ++ target ++ "\n" ++
      String.join (gates.map fun gate => "  Gate: " ++ gate ++ "\n") ++
      String.join (steps.map fun step => "  " ++ step ++ "\n")

/-- `Hold`. -/
structure Hold where
  target : String
  attempts : ℕ
  reason : String
  timestamp : ℤ
  deriving DecidableEq

/-- `MaintenanceState`. -/
structure MaintenanceState where
  lastRun : Option ℤ
  lastResult : Option RunOutcome
  lastDeferReason : Option String
  installedCliVersion : Option String
  pinnedSdkVersion : Option String
  hold : Option Hold
  failureTarget : Option String
  consecutiveFailures : ℕ
  stateError : Option String
  targetCliVersion : Option String
  registryVersion : Option String
  deriving DecidableEq

/-- The state of a store that was never saved. -/
def MaintenanceState.default : MaintenanceState :=
  ⟨none, none, none, none, none, none, none, 0, none, none, none⟩

/-- `Quiescence`. -/
structure Quiescence where
  quiescent : Bool
  observedAt : ℤ
  activeTurns : ℕ
  queuedMessages : ℕ
  compacting : ℕ
  recovering : ℕ
  lastActivityAt : Option ℤ
  blockers : List String

/-- The agent has no work. -/
def Quiescence.isIdle (q : Quiescence) : Bool :=
  q.quiescent && q.activeTurns == 0 && q.queuedMessages == 0 && q.compacting == 0 &&
    q.recovering == 0 && q.blockers.isEmpty

/-- `CommandOutput`. -/
structure CommandOutput where
  stdout : String
  stderr : String
  code : ℤ

/-! ## Versions -/

/-- One part of a version: the number of some decimal digits, if it fits
a `u32`. -/
def versionPart (digits : List Char) : Option ℕ :=
  if digits.isEmpty || !digits.all Char.isDigit || 2 ^ 32 ≤ decimal digits then none
  else some (decimal digits)

/-- `version`. -/
def version (value : String) : Option (ℕ × ℕ × ℕ) :=
  match value.toList.splitOn '.' with
  | [major, minor, patch] => do
    let major ← versionPart major
    let minor ← versionPart minor
    let patch ← versionPart patch
    some (major, minor, patch)
  | _ => none

/-- The lexicographic order of two versions. -/
def versionLE (a b : ℕ × ℕ × ℕ) : Bool :=
  a.1 < b.1 || (a.1 == b.1 && (a.2.1 < b.2.1 || (a.2.1 == b.2.1 && a.2.2 ≤ b.2.2)))

/-- The last one of the greatest versions. -/
def greatestVersion (versions : List ((ℕ × ℕ × ℕ) × String)) : Option String :=
  (versions.foldl (fun best candidate =>
      match best with
      | none => some candidate
      | some current => if versionLE current.1 candidate.1 then some candidate else some current)
    none).map Prod.snd

/-- The versions among some texts. -/
def publishedVersions (versions : List String) : List ((ℕ × ℕ × ℕ) × String) :=
  versions.filterMap fun v => (version v).map fun n => (n, v)

/-- `latest_version`. -/
def latestVersion (versions : List String) : Option String :=
  greatestVersion (publishedVersions versions)

/-- `resolve_target`. -/
def resolveTarget (versions : List String) (cli : String) : Except String String :=
  match (splitWhitespace cli).findSome? version with
  | none => .error ("invalid Claude CLI version: " ++ cli)
  | some cliVersion =>
    match greatestVersion
      ((publishedVersions versions).filter fun v => v.1.2.2 ≤ cliVersion.2.2) with
    | none => .error "no SDK version compatible with installed Claude CLI"
    | some target => .ok target

end Remux
