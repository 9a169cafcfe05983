import Remux.Maintenance.Model.Execute

/-!
# The calls of a maintenance run

What the small scripts of a run call and what they come to: a command, a
look at the window, a reading of quiescence. Then, which effects a script
does not call at all.
-/

namespace Remux

open List

/-- **The effects that change nothing**: the clock, the readings and the
version that the CLI reports. -/
def Effect.readOnly : Effect → Bool
  | .command program args => program = "claude" && args = ["--version"]
  | .nowMs | .localMinute | .quiescence | .sdkVersions | .pin => true
  | .wait _ | .buildServer | .restart | .status | .activateCodex | .save _ | .previousCli
  | .backupDist | .restoreDist | .restoreCli _ => false

namespace Maintenance

open Script

/-- A call of a run. -/
abbrev MaintenanceCall := Call Effect.Answer

/-- The call did not do what it was for. -/
def failed : MaintenanceCall → Bool
  | ⟨.command .., .ok output⟩ => output.code != 0
  | ⟨.command .., .error _⟩ => true
  | ⟨.buildServer, answer⟩ | ⟨.restart, answer⟩ | ⟨.status, answer⟩ | ⟨.save _, answer⟩
  | ⟨.backupDist, answer⟩ | ⟨.restoreDist, answer⟩ | ⟨.restoreCli _, answer⟩ => !answer.isOk
  | ⟨.pin, answer⟩ | ⟨.activateCodex, answer⟩ => !answer.isOk
  | ⟨.quiescence, answer⟩ => !answer.isOk
  | ⟨.sdkVersions, answer⟩ | ⟨.previousCli, answer⟩ => !answer.isOk
  | ⟨.nowMs, _⟩ | ⟨.localMinute, _⟩ | ⟨.wait _, _⟩ => false

/-- The effect is among the calls. -/
def Called (e : Effect) (calls : List MaintenanceCall) : Prop := ∃ answer, ⟨e, answer⟩ ∈ calls

variable {config : AgentAutoupdateConfig} {now : Bool} {s : MaintenanceState}

/-! ## A command -/

variable {program : String} {args : List String} {a b c quietSince : ℤ}

/-- A command runs, and its result tells whether it failed. -/
theorem ensures_command
    {Q : Option (Except String String) → MaintenanceState → List MaintenanceCall → Prop}
    (h : ∀ answer result,
      (failed ⟨.command program args, answer⟩ = true ↔ ∃ error, result = .error error) →
      Q (some result) s [⟨.command program args, answer⟩]) :
    (command program args).Ensures s Q := by
  refine ensures_call_bind fun answer => ?_
  cases answer with
  | error error => exact ensures_pure (h _ _ ⟨fun _ => ⟨_, rfl⟩, fun _ => rfl⟩)
  | ok output =>
    dsimp only
    split
    · next hcode =>
      refine ensures_pure (h _ _ ⟨fun _ => ⟨_, rfl⟩, fun _ => ?_⟩)
      simpa [failed] using hcode
    · next hcode =>
      refine ensures_pure (h _ _ ⟨fun hfail => ?_, nofun⟩)
      exact absurd (by simpa [failed] using hfail) hcode

/-- A command, and what follows it. -/
theorem ensures_command_bind {β : Type} {f : Except String String → MaintenanceScript β}
    {R : Option β → MaintenanceState → List MaintenanceCall → Prop}
    (herror : ∀ answer error, failed ⟨.command program args, answer⟩ = true →
      (f (.error error)).Ensures s fun b s' further =>
        R b s' (⟨.command program args, answer⟩ :: further))
    (hok : ∀ answer output, failed ⟨.command program args, answer⟩ = false →
      (f (.ok output)).Ensures s fun b s' further =>
        R b s' (⟨.command program args, answer⟩ :: further)) :
    (command program args >>= f).Ensures s R := by
  refine ensures_bind (ensures_command fun answer result hres => ?_)
  cases result with
  | error error => exact herror answer error (hres.2 ⟨error, rfl⟩)
  | ok output =>
    refine hok answer output ?_
    rw [Bool.eq_false_iff]
    exact fun hfail => nomatch hres.1 hfail

/-! ## The window -/

/-- The calls are one look at the clock, and it shows a minute inside the
window. -/
def InWindow (config : AgentAutoupdateConfig) (calls : List MaintenanceCall) : Prop :=
  ∃ start stop minute, parseWindow config.windowText = some (start, stop) ∧
    calls = [⟨.localMinute, minute⟩] ∧ inWindowAt start stop minute = true

/-- **The window is open** to a run that is forced, and to one that looks. -/
def WindowOpen (config : AgentAutoupdateConfig) (now : Bool) (calls : List MaintenanceCall) :
    Prop :=
  (now = true ∧ calls = []) ∨ (now = false ∧ InWindow config calls)

/-- The window is looked at without a change. -/
theorem ensures_outsideWindow : (outsideWindow config now).Ensures s fun result s' made =>
      ∃ outside, result = some outside ∧ s' = s ∧ (∀ c ∈ made, c.1.readOnly = true) ∧
        (outside = false → WindowOpen config now made) := by
  unfold outsideWindow
  cases now with
  | true =>
    refine ensures_pure ⟨_, rfl, rfl, fun _ h => ?_, fun _ => .inl ⟨rfl, rfl⟩⟩
    exact absurd h not_mem_nil
  | false =>
    refine Ensures.bind_some (P := fun inside s' made => s' = s ∧
      (∀ c ∈ made, c.1.readOnly = true) ∧ (inside = true → InWindow config made)) ?_ ?_
    · unfold inWindow
      split
      · refine ensures_pure ⟨_, rfl, rfl, fun _ h => ?_, fun h => ?_⟩
        · exact absurd h not_mem_nil
        · exact absurd h Bool.false_ne_true
      · next start stop hwin =>
        refine ensures_call_bind fun minute => ensures_pure ⟨_, rfl, rfl, ?_, fun hinside => ?_⟩
        · intro c hc
          rw [mem_singleton.1 hc]
          rfl
        · exact ⟨start, stop, minute, hwin, rfl, hinside⟩
    · rintro inside s' made ⟨rfl, hmade, hinside⟩
      refine ensures_pure ⟨_, rfl, rfl, ?_, fun h => .inr ⟨rfl, ?_⟩⟩
      · rwa [append_nil]
      · rw [append_nil]
        exact hinside (by rwa [Bool.not_eq_false'] at h)

/-! ## A reading of quiescence -/

/-- **The agent is quiet**: idle when it was observed, which was at most a
minute ago, and idle for the quiet period. -/
structure IsQuiet (config : AgentAutoupdateConfig) (quietSince : ℤ) (q : Quiescence) (now : ℤ) :
    Prop where
  idle : q.isIdle = true
  observed : q.observedAt ≤ now
  fresh : now - q.observedAt ≤ 60000
  active : q.lastActivityAt.getD quietSince ≤ now
  period : config.quiet * 60000 ≤ now - q.lastActivityAt.getD quietSince

/-- The calls of `quiet`, what it comes to, and what becomes of
`quiet_since`. -/
inductive QuietCalls (config : AgentAutoupdateConfig) (quietSince : ℤ) :
    List MaintenanceCall → Except String Unit → ℤ → Prop
  /-- No reading, or a busy one, or a stale one: the period begins anew. -/
  | reset {answer : Except String Quiescence} {now : ℤ} {error : String} :
    QuietCalls config quietSince [⟨.quiescence, answer⟩, ⟨.nowMs, now⟩] (.error error) now
  | early {q : Quiescence} {now : ℤ} {error : String} : q.isIdle = true →
    QuietCalls config quietSince [⟨.quiescence, .ok q⟩, ⟨.nowMs, now⟩] (.error error) quietSince
  | quiet {q : Quiescence} {now : ℤ} : IsQuiet config quietSince q now →
    QuietCalls config quietSince [⟨.quiescence, .ok q⟩, ⟨.nowMs, now⟩] (.ok ()) quietSince

/-- The saturation does not matter to a comparison with a bound in range. -/
theorem saturatingSub_le (h : saturatingSub a b ≤ c) (hc : c < 2 ^ 63 - 1) : a - b ≤ c := by
  unfold saturatingSub at h
  omega

theorem le_saturatingSub (h : c ≤ saturatingSub a b) (hc : 0 ≤ c) : c ≤ a - b := by
  unfold saturatingSub at h
  omega

/-- The quiet gate reads, and waits. -/
theorem ensures_quiet : (quiet config quietSince).Ensures s fun result s' made =>
      ∃ r, result = some r ∧ s' = s ∧ QuietCalls config quietSince made r.1 r.2 := by
  refine ensures_call_bind fun answer => ?_
  rcases answer with error | q
  · exact ensures_call_bind fun now => ensures_pure ⟨_, rfl, rfl, .reset⟩
  dsimp only
  split
  · exact ensures_call_bind fun now => ensures_pure ⟨_, rfl, rfl, .reset⟩
  next hidle =>
  refine ensures_call_bind fun now => ?_
  split
  · exact ensures_pure ⟨_, rfl, rfl, .reset⟩
  next hnew =>
  have hidle : q.isIdle = true := by simpa using hidle
  split
  · exact ensures_pure ⟨_, rfl, rfl, .early hidle⟩
  next hperiod =>
  obtain ⟨hobserved, hnew⟩ := not_or.1 hnew
  obtain ⟨hact, hperiod⟩ := not_or.1 hperiod
  refine ensures_pure ⟨_, rfl, rfl, .quiet ⟨hidle, not_lt.1 hobserved, ?_, not_lt.1 hact, ?_⟩⟩
  · exact saturatingSub_le (not_lt.1 hnew) (by decide)
  · exact le_saturatingSub (not_lt.1 hperiod) (by omega)

theorem QuietCalls.readOnly {quietSince' : ℤ} {made : List MaintenanceCall}
    {result : Except String Unit} (h : QuietCalls config quietSince made result quietSince') :
    ∀ c ∈ made, c.1.readOnly = true := by
  cases h <;> simp [Effect.readOnly]

/-- Codex is asked to activate; that it does not is only recorded. -/
theorem ensures_activateCodex : activateCodex.Ensures s fun result s' made =>
      result = some () ∧ s'.hold = s.hold ∧ ∃ answer, made = [⟨.activateCodex, answer⟩] := by
  refine ensures_call_bind fun answer => ?_
  cases answer with
  | ok _ => exact ensures_pure ⟨rfl, rfl, _, rfl⟩
  | error _ => exact ensures_modify ⟨rfl, rfl, _, rfl⟩

/-! ## Scripts that only read -/

/-- The script has a result, changes no state, and calls nothing that
changes anything. -/
def Reads {α : Type} (m : MaintenanceScript α) : Prop :=
  ∀ s, m.Ensures s fun result s' made =>
    (∃ a, result = some a) ∧ s' = s ∧ ∀ c ∈ made, c.1.readOnly = true

section

variable {α β : Type} {m : MaintenanceScript α} {f : α → MaintenanceScript β}

theorem reads_pure (a : α) : Reads (pure a) :=
  fun _ => ensures_pure ⟨⟨a, rfl⟩, rfl, fun _ h => absurd h not_mem_nil⟩

theorem reads_get : Reads get :=
  fun _ _ _ => ⟨⟨_, rfl⟩, rfl, fun _ h => absurd h not_mem_nil⟩

theorem reads_call {e : Effect} (h : e.readOnly = true) : Reads (call e) := by
  refine fun s => ensures_call fun answer => ⟨⟨_, rfl⟩, rfl, fun c hc => ?_⟩
  rw [mem_singleton.1 hc]
  exact h

theorem Reads.bind (h : Reads m) (hf : ∀ a, Reads (f a)) : Reads (m >>= f) := by
  refine fun s => Ensures.bind (h s) (fun s' made hnone => ?_) fun a s' made hsome => ?_
  · obtain ⟨⟨a, ha⟩, -⟩ := hnone
    cases ha
  · obtain ⟨-, rfl, hmade⟩ := hsome
    refine (hf a s').mono fun b s'' further hfurther => ⟨hfurther.1, hfurther.2.1, fun c hc => ?_⟩
    rcases mem_append.1 hc with hc | hc
    · exact hmade c hc
    · exact hfurther.2.2 c hc

end

theorem reads_command (h : (Effect.command program args).readOnly = true) :
    Reads (command program args) := by
  refine fun s => ensures_command fun answer result _ => ⟨⟨_, rfl⟩, rfl, fun c hc => ?_⟩
  rw [mem_singleton.1 hc]
  exact h

theorem reads_outsideWindow : Reads (outsideWindow config now) := by
  refine fun s => ensures_outsideWindow.mono fun result s' made h => ?_
  obtain ⟨outside, rfl, rfl, hmade, -⟩ := h
  exact ⟨⟨_, rfl⟩, rfl, hmade⟩

theorem reads_quiet : Reads (quiet config quietSince) := by
  refine fun s => ensures_quiet.mono fun result s' made h => ?_
  obtain ⟨r, rfl, rfl, hqt⟩ := h
  exact ⟨⟨_, rfl⟩, rfl, hqt.readOnly⟩

/-- A dry run only reads. -/
theorem reads_plan : Reads (plan config) := by
  refine (reads_command (by decide)).bind fun result => ?_
  rcases result with _ | cli
  · exact reads_pure _
  refine (reads_call rfl).bind fun versions => ?_
  rcases Except.bind versions fun versions => resolveTarget versions cli with _ | target
  · exact reads_pure _
  refine (reads_call rfl).bind fun pin => ?_
  rcases pin with _ | current
  · exact reads_pure _
  exact (reads_call rfl).bind fun quietSince => reads_quiet.bind fun r => reads_pure _

variable {patience : ℕ}

/-- **A dry run only reads.** -/
theorem reads_execute : Reads (execute config now patience true) := by
  have hfree : Reads (executeFree config now patience true) := reads_plan
  unfold execute
  split
  · exact reads_pure _
  refine reads_outsideWindow.bind fun outside => ?_
  split
  · exact reads_pure _
  refine reads_get.bind fun s => ?_
  split
  · exact reads_pure _
  refine reads_get.bind fun s => ?_
  split
  · exact hfree
  refine (reads_call rfl).bind fun versions => ?_
  rcases versions with _ | versions
  · exact reads_pure _
  dsimp only
  split
  · exact hfree
  · exact reads_pure _

end Maintenance

end Remux
