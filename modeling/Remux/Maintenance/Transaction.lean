import Remux.Maintenance.Rollback

/-!
# The update as a transaction

`Settles` says of the rest of a run, after some calls, that it ends
upgraded, or held by the commit, or with everything taken back that was
attempted before. Each stage from the installation of the SDK on is shown
to settle, from the last to the first; what comes before the installation
attempts nothing.
-/

namespace Remux

namespace Maintenance

open Script List

/-- How often a run has waited for the agent to be quiet. -/
def waits (calls : List MaintenanceCall) : ℕ :=
  calls.countP fun c => c.1 = .wait 30

/-- **How the rest of a run settles** after the SDK was installed. One
without a result has waited as long as it may. -/
def Settles (patience : ℕ) (target : String) (previous : List String)
    (attempt : List MaintenanceCall) :
    Option RunOutcome → MaintenanceState → List MaintenanceCall → Prop
  | none, _, calls => patience ≤ waits calls
  | some outcome, s, calls => (∃ cli, outcome = .upgraded cli target) ∨
      (∃ attempts error, outcome = .held target attempts ("commit: " ++ error)) ∨
      TakenBack target previous attempt outcome s calls

/-- Neither `dist` nor the agent was touched by the calls. -/
def Untouched (calls : List MaintenanceCall) : Prop :=
  ¬ Called .buildServer calls ∧ ¬ Called .restart calls

variable {config : AgentAutoupdateConfig} {now : Bool} {patience : ℕ}
variable {target cli : String} {previous : List String} {s s' : MaintenanceState}
variable {attempt made further : List MaintenanceCall} {result : Option RunOutcome}

variable {e : Effect} {program stage error reason : String} {args : List String}
variable {f : Except String String → MaintenanceScript RunOutcome} {dist : Bool} {quietSince : ℤ}

theorem called_iff : Called e made ↔ e ∈ made.map Sigma.fst := by
  rw [mem_map]
  constructor
  · rintro ⟨answer, hmem⟩
    exact ⟨_, hmem, rfl⟩
  · rintro ⟨⟨e, answer⟩, hmem, rfl⟩
    exact ⟨answer, hmem⟩

theorem called_append : Called e (attempt ++ made) ↔ Called e attempt ∨ Called e made := by
  unfold Called
  simp only [mem_append, exists_or]

/-- A call of another effect does not call this one. -/
theorem not_called_singleton {e e' : Effect} {answer : e'.Answer} (h : e ≠ e') :
    ¬ Called e [⟨e', answer⟩] := by
  rintro ⟨answer', hmem⟩
  cases mem_singleton.1 hmem
  exact h rfl

theorem not_called_of_readOnly (h : ∀ c ∈ made, c.1.readOnly = true) (he : e.readOnly = false) :
    ¬ Called e made := by
  rintro ⟨answer, hmem⟩
  rw [h _ hmem] at he
  cases he

theorem Untouched.append (h : Untouched attempt) (h' : Untouched made) :
    Untouched (attempt ++ made) := by
  unfold Untouched
  rw [called_append, called_append]
  exact ⟨not_or.2 ⟨h.1, h'.1⟩, not_or.2 ⟨h.2, h'.2⟩⟩

theorem untouched_singleton {e : Effect} {answer : e.Answer} (h : .buildServer ≠ e)
    (h' : .restart ≠ e) : Untouched [⟨e, answer⟩] :=
  ⟨not_called_singleton h, not_called_singleton h'⟩

theorem untouched_of_readOnly (h : ∀ c ∈ made, c.1.readOnly = true) : Untouched made :=
  ⟨not_called_of_readOnly h rfl, not_called_of_readOnly h rfl⟩

/-! ## Going through a stage -/

/-- What settles after some calls settles from before them. -/
theorem Settles.append (h : Settles patience target previous (attempt ++ made) result s further) :
    Settles patience target previous attempt result s (made ++ further) := by
  rcases result with _ | outcome
  · show patience ≤ waits (made ++ further)
    unfold waits
    rw [countP_append]
    exact Nat.le_add_left_of_le h
  · rcases h with h | h | ⟨more, restore, rest, rfl, hrest, hended⟩
    · exact .inl h
    · exact .inr (.inl h)
    · refine .inr (.inr ⟨made ++ more, restore, rest, ?_, ?_, hended⟩)
      · rw [append_assoc, append_assoc, append_assoc]
      · rwa [← append_assoc]

theorem settles_bind {α : Type} {m : MaintenanceScript α} {f : α → MaintenanceScript RunOutcome}
    {P : α → MaintenanceState → List MaintenanceCall → Prop}
    (hm : m.Ensures s fun result s' made => ∃ a, result = some a ∧ P a s' made)
    (hf : ∀ a s' made, P a s' made →
      (f a).Ensures s' (Settles patience target previous (attempt ++ made))) :
    (m >>= f).Ensures s (Settles patience target previous attempt) :=
  hm.bind_some fun a s' made h => (hf a s' made h).mono fun _ _ _ => Settles.append

theorem settles_call_bind {f : e.Answer → MaintenanceScript RunOutcome}
    (h : ∀ answer, (f answer).Ensures s
      (Settles patience target previous (attempt ++ [⟨e, answer⟩]))) :
    (call e >>= f).Ensures s (Settles patience target previous attempt) :=
  ensures_call_bind fun answer => (h answer).mono fun _ _ _ => @Settles.append _ _ _ _ _ [_] _ _

theorem settles_command_bind (h : ∀ answer result, (f result).Ensures s
      (Settles patience target previous (attempt ++ [⟨.command program args, answer⟩]))) :
    (command program args >>= f).Ensures s (Settles patience target previous attempt) :=
  ensures_bind (ensures_command fun answer result _ =>
    (h answer result).mono fun _ _ _ => @Settles.append _ _ _ _ _ [_] _ _)

theorem settles_fail {activate : Bool} (hbuild : Called .buildServer attempt → dist = true)
    (hrestart : Called .restart attempt → activate = true) :
    (fail target stage error dist activate previous).Ensures s
      (Settles patience target previous attempt) := by
  refine (ensures_fail hbuild hrestart).mono fun result s' calls h => ?_
  obtain ⟨outcome, rfl, htaken⟩ := h
  exact .inr (.inr htaken)

/-- A failure before anything was touched. -/
theorem settles_fail_untouched (h : Untouched attempt) :
    (fail target stage error false false previous).Ensures s
      (Settles patience target previous attempt) :=
  settles_fail (fun hcall => absurd hcall h.1) fun hcall => absurd hcall h.2

theorem settles_deferRestore (hbuild : Called .buildServer attempt → dist = true)
    (hrestart : ¬ Called .restart attempt) :
    (deferRestore target reason dist previous).Ensures s
      (Settles patience target previous attempt) := by
  refine (ensures_deferRestore hbuild hrestart).mono fun result s' calls h => ?_
  obtain ⟨outcome, rfl, htaken⟩ := h
  exact .inr (.inr htaken)

/-! ## The stages, from the last to the first -/

/-- An upgrade settles the attempt. -/
theorem settles_upgraded :
    (upgraded cli target).Ensures s (Settles patience target previous attempt) := by
  refine ensures_modify_bind (ensures_modify_bind ?_)
  refine settles_bind (P := fun _ _ _ => True) ?_ fun _ _ _ _ => ensures_pure (.inl ⟨_, rfl⟩)
  refine ensures_call_bind fun answer => ?_
  cases answer with
  | ok _ => exact ensures_pure ⟨_, rfl, trivial⟩
  | error _ => exact ensures_modify ⟨_, rfl, trivial⟩

/-- A commit settles the attempt, -/
theorem settles_commit :
    (commit config cli target).Ensures s (Settles patience target previous attempt) := by
  unfold commit
  split
  · refine settles_command_bind fun answer result => ?_
    cases result with
    | ok _ => exact settles_upgraded
    | error error =>
      refine ensures_modify_bind (ensures_failure.mono fun result s' calls h => ?_)
      obtain ⟨-, outcome, rfl, ⟨hnot, -⟩ | ⟨⟨attempts, rfl⟩, -⟩⟩ := h
      · cases hnot
      · exact .inr (.inl ⟨attempts, error, rfl⟩)
  · exact settles_upgraded

/-- An activation settles the attempt. -/
theorem settles_activate : (activate config cli target previous).Ensures s
      (Settles patience target previous attempt) := by
  refine settles_call_bind fun answer => ?_
  cases answer with
  | error error => exact settles_fail (fun _ => rfl) fun _ => rfl
  | ok _ =>
    refine settles_call_bind fun answer => ?_
    cases answer with
    | error error => exact settles_fail (fun _ => rfl) fun _ => rfl
    | ok _ => exact settles_commit

/-- an activation does, -/
theorem settles_checkAndActivate (h : ¬ Called .restart attempt) :
    (checkAndActivate config now cli target previous quietSince).Ensures s
      (Settles patience target previous attempt) := by
  have happend : ∀ made : List MaintenanceCall, (∀ c ∈ made, c.1.readOnly = true) →
      ∀ attempt, ¬ Called .restart attempt → ¬ Called .restart (attempt ++ made) :=
    fun made hmade attempt h =>
      fun hcall => (called_append.1 hcall).elim h (not_called_of_readOnly hmade rfl)
  refine settles_bind ensures_outsideWindow fun outside s' made hwin => ?_
  obtain ⟨-, hmade, -⟩ := hwin
  split
  · exact settles_deferRestore (fun _ => rfl) (happend made hmade attempt h)
  · refine settles_bind ensures_quiet fun r s' made' hqt => ?_
    have hcalls := happend made' hqt.2.readOnly _ (happend made hmade attempt h)
    obtain ⟨_ | _, quietSince'⟩ := r
    · exact settles_deferRestore (fun _ => rfl) hcalls
    · exact settles_activate

/-- so does what begins with the backup, -/
theorem settles_backupAndBuild (h : Untouched attempt) :
    (backupAndBuild config now cli target previous quietSince).Ensures s
      (Settles patience target previous attempt) := by
  refine settles_call_bind fun answer => ?_
  have h := h.append (@untouched_singleton _ answer nofun nofun)
  cases answer with
  | error error => exact settles_fail_untouched h
  | ok _ =>
    refine settles_call_bind fun answer => ?_
    have hrestart : ¬ Called .restart _ := fun hcall =>
      (called_append.1 hcall).elim h.2 (@not_called_singleton _ .buildServer answer nofun)
    cases answer with
    | error error => exact settles_fail (fun _ => rfl) fun hcall => absurd hcall hrestart
    | ok _ => exact settles_checkAndActivate hrestart

/-- The loop of stage 6, by induction on the patience. -/
theorem settles_awaitQuiet (h : Untouched attempt) :
    (awaitQuiet config now cli target previous patience quietSince).Ensures s
      (Settles patience target previous attempt) := by
  induction patience generalizing quietSince attempt s with
  | zero => exact ensures_giveUp (Nat.zero_le _)
  | succ patience ih =>
    refine settles_bind ensures_outsideWindow fun outside s' made hwin => ?_
    have h := h.append (untouched_of_readOnly hwin.2.1)
    split
    · exact settles_deferRestore (fun hcall => absurd hcall h.1) h.2
    refine settles_bind ensures_quiet fun r s' made' hqt => ?_
    have h := h.append (untouched_of_readOnly hqt.2.readOnly)
    obtain ⟨_ | _, quietSince'⟩ := r
    · dsimp only
      split
      · exact settles_deferRestore (fun hcall => absurd hcall h.1) h.2
      · refine ensures_call_bind fun answer => ?_
        have h := h.append (@untouched_singleton (.wait 30) answer nofun nofun)
        refine (ih h).mono fun result s'' calls hsettles => ?_
        rcases result with _ | outcome
        · show patience + 1 ≤ waits (_ :: calls)
          have hle : patience ≤ waits calls := hsettles
          unfold waits at hle ⊢
          rw [countP_cons_of_pos (by simp)]
          omega
        · exact @Settles.append _ _ _ _ _ [_] _ _ hsettles
    · exact settles_backupAndBuild h

theorem settles_quiescence (h : Untouched attempt) :
    (quiescence config now patience cli target previous).Ensures s
      (Settles patience target previous attempt) :=
  settles_call_bind fun answer =>
    settles_awaitQuiet (h.append (@untouched_singleton _ answer nofun nofun))

/-- and what begins with the verification. -/
theorem settles_verify (h : Untouched attempt) :
    (verify config now patience cli target previous).Ensures s
      (Settles patience target previous attempt) := by
  refine settles_command_bind fun answer result => ?_
  have h := h.append (@untouched_singleton _ answer nofun nofun)
  cases result with
  | error error => exact settles_fail_untouched h
  | ok _ =>
    refine settles_command_bind fun answer result => ?_
    have h := h.append (@untouched_singleton _ answer nofun nofun)
    cases result with
    | error error => exact settles_fail_untouched h
    | ok _ => exact settles_quiescence h

/-! ## One installation a run -/

/-- The effect installs no version of the SDK. -/
def NoInstall (e : Effect) : Prop := ∀ target, e ≠ installSdk target

theorem noInstall_of_readOnly (h : e.readOnly = true) : NoInstall e := by
  rintro target rfl
  simp [installSdk, Effect.readOnly] at h

/-- What only records neither restarts nor installs. -/
theorem not_restart_of_records (h : records e = true) : e ≠ .restart ∧ NoInstall e := by
  refine ⟨?_, ?_⟩
  · rintro rfl
    cases h
  · rintro target rfl
    cases h

theorem noInstall_command (h : program ≠ "npm" ∨ args.length ≠ 4) :
    NoInstall (.command program args) := by
  intro target heq
  obtain ⟨rfl, rfl⟩ : program = "npm" ∧ args = installArgs target := by
    simpa [installSdk] using heq
  simp [installArgs] at h

variable {p : Effect → Prop}

theorem calls_command (h : p (.command program args)) : (command program args).Calls p := by
  refine fun s => ensures_command fun answer result _ c hc => ?_
  rw [mem_singleton.1 hc]
  exact h

/-- The restoration of the pin installs nothing. -/
theorem calls_restorePin : restorePin.Calls NoInstall := by
  refine (calls_command (noInstall_command (.inl (by decide)))).bind fun result => ?_
  rcases result with _ | _
  · exact calls_pure _
  refine (calls_command (noInstall_command (.inr (by decide)))).bind fun result => ?_
  rcases result with _ | _
  · exact calls_pure _
  refine (calls_call nofun).bind fun pin => ?_
  rcases pin with _ | _
  · exact calls_pure _
  · exact (calls_modify _).bind fun _ => calls_pure _

/-- A rollback installs nothing. -/
theorem calls_rollback {activate : Bool} : (rollback dist activate previous).Calls NoInstall := by
  refine Calls.bind ?_ fun _ => calls_restorePin.bind fun _ => Calls.bind ?_ fun _ => ?_
  · unfold rollbackDist
    split
    · exact (calls_call nofun).bind fun _ => calls_pure _
    · exact calls_pure _
  · unfold rollbackActivation
    split
    · refine (calls_call nofun).bind fun result => ?_
      rcases result with _ | _
      · exact (calls_call nofun).bind fun _ => calls_pure _
      · exact (calls_modify _).bind fun _ => (calls_call nofun).bind fun _ => calls_pure _
    · exact calls_pure _
  · dsimp only
    split <;> exact calls_pure _

theorem calls_failure {immediateHold : Bool} (h : p .nowMs) :
    (failure target stage error immediateHold).Calls p := by
  refine calls_get.bind fun s => (calls_modify _).bind fun _ => ?_
  generalize ((if s.failureTarget ≠ some target then 0 else s.consecutiveFailures) + 1) % 2 ^ 32 =
    attempts
  split
  · exact (calls_call h).bind fun _ => (calls_modify _).bind fun _ => calls_pure _
  · exact calls_pure _

theorem calls_fail {activate : Bool} :
    (fail target stage error dist activate previous).Calls NoInstall := by
  refine calls_rollback.bind fun result => ?_
  rcases result with _ | _ <;> exact calls_failure nofun

theorem calls_deferRestore : (deferRestore target reason dist previous).Calls NoInstall := by
  refine calls_rollback.bind fun result => ?_
  rcases result with _ | _
  · exact calls_failure nofun
  · exact calls_pure _

/-- The calls of a commit. -/
theorem calls_commit (hcom : p (.command "git" (commitArgs target))) (hnow : p .nowMs)
    (hcodex : p .activateCodex) : (commit config cli target).Calls p := by
  have hupgraded : (upgraded cli target).Calls p := by
    refine (calls_modify _).bind fun _ => (calls_modify _).bind fun _ => ?_
    refine Calls.bind ((calls_call hcodex).bind fun answer => ?_) fun _ => calls_pure _
    rcases answer with _ | _
    · exact calls_modify _
    · exact calls_pure _
  unfold commit
  split
  · refine (calls_command hcom).bind fun result => ?_
    rcases result with _ | _
    · exact (calls_modify _).bind fun _ => calls_failure hnow
    · exact hupgraded
  · exact hupgraded

theorem calls_outsideWindow : (outsideWindow config now).Calls NoInstall := by
  refine fun s => ensures_outsideWindow.mono fun result s' made h c hc => ?_
  obtain ⟨outside, -, -, hmade, -⟩ := h
  exact noInstall_of_readOnly (hmade c hc)

theorem calls_quiet : (quiet config quietSince).Calls NoInstall := by
  refine fun s => ensures_quiet.mono fun result s' made h c hc => ?_
  obtain ⟨r, -, -, hqt⟩ := h
  exact noInstall_of_readOnly (hqt.readOnly c hc)

/-- Backup and build install nothing. -/
theorem calls_backupAndBuild :
    (backupAndBuild config now cli target previous quietSince).Calls NoInstall := by
  refine (calls_call nofun).bind fun result => ?_
  rcases result with _ | _
  · exact calls_fail
  refine (calls_call nofun).bind fun result => ?_
  rcases result with _ | _
  · exact calls_fail
  refine calls_outsideWindow.bind fun outside => ?_
  split
  · exact calls_deferRestore
  refine calls_quiet.bind fun r => ?_
  rcases r with ⟨_ | _, quietSince'⟩
  · exact calls_deferRestore
  refine (calls_call nofun).bind fun result => ?_
  rcases result with _ | _
  · exact calls_fail
  refine (calls_call nofun).bind fun result => ?_
  rcases result with _ | _
  · exact calls_fail
  · exact calls_commit (noInstall_command (.inl (by decide))) nofun nofun

/-- The wait for quiet installs nothing. -/
theorem calls_awaitQuiet :
    (awaitQuiet config now cli target previous patience quietSince).Calls NoInstall := by
  induction patience generalizing quietSince with
  | zero => exact calls_giveUp
  | succ patience ih =>
    refine calls_outsideWindow.bind fun outside => ?_
    split
    · exact calls_deferRestore
    refine calls_quiet.bind fun r => ?_
    rcases r with ⟨_ | _, quietSince'⟩
    · dsimp only
      split
      · exact calls_deferRestore
      · exact (calls_call nofun).bind fun _ => ih
    · exact calls_backupAndBuild

/-- **After the installation no other follows.** -/
theorem calls_verify : (verify config now patience cli target previous).Calls NoInstall := by
  refine (calls_command (noInstall_command (.inr (by decide)))).bind fun result => ?_
  rcases result with _ | _
  · exact calls_fail
  refine (calls_command (noInstall_command (.inr (by decide)))).bind fun result => ?_
  rcases result with _ | _
  · exact calls_fail
  · exact (calls_call nofun).bind fun _ => calls_awaitQuiet

/-! ## The whole run -/

/-- **What a run settles**, after some calls: from an installation of the
SDK on, with the CLI that was there before it. -/
def Transaction (patience : ℕ) (before : List MaintenanceCall) (result : Option RunOutcome)
    (s : MaintenanceState) (calls : List MaintenanceCall) : Prop :=
  (result = none → patience ≤ waits calls) ∧
    ∀ target, Called (installSdk target) calls → ∃ more answer after previous,
      calls = more ++ ⟨installSdk target, answer⟩ :: after ∧
        ⟨.previousCli, .ok previous⟩ ∈ before ++ more ∧
        Settles patience target previous (before ++ more ++ [⟨installSdk target, answer⟩]) result s
          after

variable {before : List MaintenanceCall} {outcome : RunOutcome}

/-- A run that ends here installs nothing. -/
theorem transaction_nil : Transaction patience before (some outcome) s [] := by
  refine ⟨nofun, fun target hcall => ?_⟩
  obtain ⟨answer, hmem⟩ := hcall
  cases hmem

/-- Calls that install nothing may come before a transaction. -/
theorem Transaction.append (h : Transaction patience (before ++ made) result s further)
    (hmade : ∀ c ∈ made, NoInstall c.1) :
    Transaction patience before result s (made ++ further) := by
  refine ⟨fun hnone => ?_, fun target hcall => ?_⟩
  · have hle := h.1 hnone
    unfold waits at hle ⊢
    rw [countP_append]
    omega
  · obtain ⟨answer, hmem⟩ | hcall := called_append.1 hcall
    · exact absurd rfl (hmade _ hmem target)
    obtain ⟨more, answer, after, previous, rfl, hprev, hsettles⟩ := h.2 target hcall
    refine ⟨made ++ more, answer, after, previous, ?_, ?_, ?_⟩
    · rw [append_assoc]
    · rwa [← append_assoc]
    · rwa [← append_assoc before]

/-- A call before the installation. -/
theorem transaction_call_bind {f : e.Answer → MaintenanceScript RunOutcome} (h : Untouched before)
    (he : NoInstall e) (hbuild : .buildServer ≠ e) (hrestart : .restart ≠ e)
    (hf : ∀ answer, Untouched (before ++ [⟨e, answer⟩]) →
      (f answer).Ensures s (Transaction patience (before ++ [⟨e, answer⟩]))) :
    (call e >>= f).Ensures s (Transaction patience before) := by
  refine ensures_call_bind fun answer => ?_
  refine (hf answer (h.append (untouched_singleton hbuild hrestart))).mono fun _ _ _ htrans => ?_
  refine @Transaction.append _ _ [_] _ _ _ htrans fun c hc => ?_
  rw [mem_singleton.1 hc]
  exact he

/-- A command before the installation. -/
theorem transaction_command_bind (h : Untouched before) (he : NoInstall (.command program args))
    (hf : ∀ answer result, Untouched (before ++ [⟨.command program args, answer⟩]) →
      (f result).Ensures s (Transaction patience (before ++ [⟨.command program args, answer⟩]))) :
    (command program args >>= f).Ensures s (Transaction patience before) := by
  refine ensures_bind (ensures_command fun answer result _ => ?_)
  refine (hf answer result (h.append (untouched_singleton nofun nofun))).mono fun _ _ _ htrans => ?_
  refine @Transaction.append _ _ [_] _ _ _ htrans fun c hc => ?_
  rw [mem_singleton.1 hc]
  exact he

/-- A script that only reads, before the installation. -/
theorem transaction_reads_bind {α : Type} {m : MaintenanceScript α}
    {f : α → MaintenanceScript RunOutcome} (h : Untouched before) (hm : Reads m)
    (hf : ∀ a made, Untouched (before ++ made) →
      (f a).Ensures s (Transaction patience (before ++ made))) :
    (m >>= f).Ensures s (Transaction patience before) := by
  refine Ensures.bind (hm s) (fun s' made hnone => ?_) fun a s' made hsome => ?_
  · obtain ⟨⟨a, ha⟩, -⟩ := hnone
    cases ha
  · obtain ⟨-, rfl, hmade⟩ := hsome
    refine (hf a made (h.append (untouched_of_readOnly hmade))).mono fun _ _ _ htrans => ?_
    exact htrans.append fun c hc => noInstall_of_readOnly (hmade c hc)

theorem transaction_of_reads {m : MaintenanceScript RunOutcome} (h : Reads m) :
    m.Ensures s (Transaction patience before) := by
  refine (h s).mono fun result s' made hreads => ?_
  obtain ⟨⟨outcome, rfl⟩, -, hmade⟩ := hreads
  rw [← append_nil made]
  exact transaction_nil.append fun c hc => noInstall_of_readOnly (hmade c hc)

variable (h : Untouched before)
include h

/-- **The installation and the rest of the run.** -/
theorem transaction_pinAndInstall (hprev : ⟨.previousCli, .ok previous⟩ ∈ before) :
    (pinAndInstall config now patience cli target previous).Ensures s
      (Transaction patience before) := by
  let Rest (install : MaintenanceCall) (result : Option RunOutcome) (s : MaintenanceState)
      (after : List MaintenanceCall) : Prop :=
    (∀ c ∈ after, NoInstall c.1) ∧
      Settles patience target previous (before ++ [install]) result s after
  have hrest : ∀ answer result s' after, Rest ⟨installSdk target, answer⟩ result s' after →
      Transaction patience before result s' (⟨installSdk target, answer⟩ :: after) := by
    rintro answer result s' after ⟨haft, hsettles⟩
    refine ⟨?_, fun target' hcall => ?_⟩
    · rintro rfl
      exact Nat.le_trans hsettles (sublist_cons_self _ _).countP_le
    · obtain ⟨answer', hmem⟩ := hcall
      rcases mem_cons.1 hmem with heq | hmem
      · obtain rfl : target' = target := by
          simpa [installSdk, installArgs, sdk] using congrArg Sigma.fst heq
        exact ⟨[], answer, after, previous, rfl, by simpa using hprev, by simpa using hsettles⟩
      · exact absurd rfl (haft _ hmem target')
  have hbeg : ∀ answer, Untouched (before ++ [⟨installSdk target, answer⟩]) :=
    fun answer => h.append (untouched_singleton nofun nofun)
  refine ensures_bind (ensures_command fun answer result _ => ?_)
  refine Ensures.mono ?_ (hrest answer)
  cases result with
  | error error => exact (calls_fail s).and (settles_fail_untouched (hbeg answer))
  | ok _ =>
    refine Ensures.and (Calls.bind (calls_call nofun) (fun pin => ?_) s)
      (settles_call_bind fun pin => ?_)
    · rcases pin with _ | pin
      · exact calls_fail
      · dsimp only
        split
        · exact calls_verify
        · exact calls_fail
    · have hbeg := (hbeg answer).append (@untouched_singleton _ pin nofun nofun)
      rcases pin with _ | pin
      · exact settles_fail_untouched hbeg
      · dsimp only
        split
        · exact settles_verify hbeg
        · exact settles_fail_untouched hbeg

/-- The run is a transaction from the comparison on, -/
theorem transaction_compareTarget (hprev : ⟨.previousCli, .ok previous⟩ ∈ before) :
    (compareTarget config now patience cli target previous).Ensures s
      (Transaction patience before) := by
  refine ensures_get_bind ?_
  split
  · exact ensures_pure transaction_nil
  refine transaction_call_bind h nofun nofun nofun fun pin h => ?_
  rcases pin with _ | current
  · exact ensures_pure transaction_nil
  refine ensures_modify_bind ?_
  split
  · refine Ensures.bind_some (P := fun _ _ made => ∃ answer, made = [⟨.activateCodex, answer⟩])
      (ensures_activateCodex.mono fun _ _ _ h => ⟨_, h.1, h.2.2⟩) ?_
    rintro _ s' made ⟨answer, rfl⟩
    refine ensures_modify_bind (ensures_pure ?_)
    refine Transaction.append transaction_nil fun c hc => ?_
    rw [mem_singleton.1 hc]
    exact nofun
  · exact transaction_pinAndInstall h (mem_append_left _ hprev)

/-- The run is a transaction from the resolution on, -/
theorem transaction_resolve (hprev : ⟨.previousCli, .ok previous⟩ ∈ before) :
    (resolve config now patience cli previous).Ensures s (Transaction patience before) := by
  refine transaction_call_bind h nofun nofun nofun fun versions h => ?_
  rcases versions with _ | versions
  · exact ensures_pure transaction_nil
  refine ensures_modify_bind ?_
  rcases resolveTarget versions cli with _ | target
  · exact ensures_pure transaction_nil
  · exact transaction_compareTarget h (mem_append_left _ hprev)

/-- from the installation on, -/
theorem transaction_installClis (hprev : ⟨.previousCli, .ok previous⟩ ∈ before) :
    (installClis config now patience previous).Ensures s (Transaction patience before) := by
  refine transaction_command_bind h (noInstall_command (.inl (by decide))) fun _ claude h => ?_
  refine transaction_command_bind h (noInstall_command (.inl (by decide))) fun _ codex h => ?_
  refine transaction_command_bind h (noInstall_command (.inl (by decide))) fun _ result h => ?_
  rcases result with _ | cli
  · exact ensures_pure transaction_nil
  refine ensures_modify_bind ?_
  rcases claude with _ | _
  · exact ensures_pure transaction_nil
  rcases codex with _ | _
  · exact ensures_pure transaction_nil
  · refine transaction_resolve h ?_
    exact mem_append_left _ (mem_append_left _ (mem_append_left _ hprev))

/-- from the saved state on, -/
theorem transaction_saveState :
    (saveState config now patience).Ensures s (Transaction patience before) := by
  refine ensures_get_bind (transaction_call_bind h nofun nofun nofun fun saved h => ?_)
  rcases saved with _ | _
  · exact ensures_pure transaction_nil
  refine transaction_call_bind h nofun nofun nofun fun answer h => ?_
  rcases answer with _ | previous
  · exact ensures_pure transaction_nil
  · exact transaction_installClis h List.mem_concat_self

/-- from the markers on, -/
theorem transaction_checkMarkers {markers : List String} :
    (checkMarkers config now patience markers).Ensures s (Transaction patience before) := by
  induction markers generalizing before with
  | nil => exact transaction_saveState h
  | cons marker markers ih =>
    refine transaction_command_bind h (noInstall_command (.inl (by decide))) fun _ result h => ?_
    rcases result with _ | path
    · exact ensures_pure transaction_nil
    refine transaction_call_bind h (noInstall_command (.inl (by decide))) nofun nofun
      fun output h => ?_
    rcases output with _ | output
    · exact ensures_pure transaction_nil
    dsimp only
    split
    · exact ih h
    · split <;> exact ensures_pure transaction_nil

/-- and from its preconditions on. -/
theorem transaction_preconditions :
    (preconditions config now patience).Ensures s (Transaction patience before) := by
  refine transaction_command_bind h (noInstall_command (.inl (by decide))) fun _ result h => ?_
  rcases result with _ | status
  · exact ensures_pure transaction_nil
  dsimp only
  split
  · exact ensures_pure transaction_nil
  · exact transaction_checkMarkers h

omit h

/-- and from its start. -/
theorem transaction_execute {dryRun : Bool} :
    (execute config now patience dryRun).Ensures s (Transaction patience []) := by
  have huntouched : Untouched [] := untouched_of_readOnly fun _ h => absurd h not_mem_nil
  cases dryRun with
  | true => exact transaction_of_reads reads_execute
  | false =>
    unfold execute
    split
    · exact ensures_pure transaction_nil
    refine transaction_reads_bind huntouched reads_outsideWindow fun outside made h => ?_
    split
    · exact ensures_pure transaction_nil
    refine ensures_get_bind ?_
    split
    · exact ensures_pure transaction_nil
    refine ensures_get_bind ?_
    split
    · exact transaction_preconditions h
    refine transaction_call_bind h nofun nofun nofun fun versions h => ?_
    rcases versions with _ | versions
    · exact ensures_pure transaction_nil
    dsimp only
    split
    · exact transaction_preconditions h
    · exact ensures_pure transaction_nil

theorem noInstall_of_records (h : records e = true) : NoInstall e := by
  rintro target rfl
  cases h

/-- The outcome of a run, once it is recorded: a decision that cannot be
persisted is reported as skipped. -/
def Persisted (decision outcome : RunOutcome) : Prop :=
  outcome = decision ∨ ∃ error,
    outcome = .skipped "state" ("failed to persist result (" ++ decision.text ++ "): " ++ error)

/-- What is persisted is the decision, if it can be. -/
theorem ensures_persist {decision : RunOutcome} : (persist decision).Ensures s fun result s' made =>
      (∃ outcome, result = some outcome ∧ Persisted decision outcome) ∧ s'.hold = s.hold ∧
        ∀ c ∈ made, records c.1 = true := by
  refine ensures_call_bind fun lastRun => ensures_modify_bind (ensures_get_bind ?_)
  refine ensures_call_bind fun saved => ?_
  have hcalls : ∀ state, ∀ c ∈ [(⟨.nowMs, lastRun⟩ : MaintenanceCall), ⟨.save state, saved⟩],
      records c.1 = true := by
    intro state c hc
    rcases mem_cons.1 hc with rfl | hc
    · rfl
    · rw [mem_singleton.1 hc]
      rfl
  cases saved with
  | ok _ => exact ensures_pure ⟨⟨_, rfl, .inl rfl⟩, rfl, hcalls _⟩
  | error error =>
    exact ensures_modify_bind (ensures_pure ⟨⟨_, rfl, .inr ⟨error, rfl⟩⟩, rfl, hcalls _⟩)

/-- What is taken back stays so when more is called, with the hold as it
is. -/
theorem TakenBack.append (h : TakenBack target previous attempt outcome s made)
    (hhold : s'.hold = s.hold) (hfurther : ∀ c ∈ further, records c.1 = true) :
    TakenBack target previous attempt outcome s' (made ++ further) := by
  obtain ⟨more, restore, rest, rfl, hrest, hended, hrecords⟩ := h
  refine ⟨more, restore, rest ++ further, append_assoc _ _ _, hrest, ⟨hended.decision, ?_⟩,
    forall_mem_append.2 ⟨hrecords, hfurther⟩⟩
  rw [hhold]
  exact hended.held

/-- **The update is a transaction.** Whatever the outside answers, a run
that ends and installed the SDK has decided that it upgraded, or that the
commit held the target, or has taken back what it attempted: `git
checkout`, and `npm install` if that succeeded; `dist` if it was built;
the CLI and the agent if the agent was restarted. It then ends rolled
back, deferred or held, and held with the hold set if anything of that
failed; after that it only reads the clock and saves its state. -/
theorem update_is_transaction (config : AgentAutoupdateConfig) (now : Bool) (patience : ℕ)
    (running dryRun : Bool) (s : MaintenanceState) :
    (run config now patience running dryRun).Ensures s fun result s' calls =>
      (result = none → patience ≤ waits calls) ∧
      ∀ target outcome, result = some outcome → Called (installSdk target) calls →
        ∃ decision before answer after previous, Persisted decision outcome ∧
          calls = before ++ ⟨installSdk target, answer⟩ :: after ∧
          ⟨.previousCli, .ok previous⟩ ∈ before ∧
          ((∃ cli, decision = .upgraded cli target) ∨
            (∃ attempts error, decision = .held target attempts ("commit: " ++ error)) ∨
            TakenBack target previous (before ++ [⟨installSdk target, answer⟩]) decision s'
              after) := by
  have hnone : ∀ calls : List MaintenanceCall, (∀ c ∈ calls, NoInstall c.1) → ∀ target,
      ¬ Called (installSdk target) calls :=
    fun calls hcalls target ⟨_, hmem⟩ => hcalls _ hmem target rfl
  unfold run
  split
  · refine ensures_pure ⟨nofun, fun target outcome _ hcalled => absurd hcalled ?_⟩
    exact hnone [] (fun _ h => absurd h List.not_mem_nil) target
  split
  · refine (reads_execute s).mono fun result s' calls hreads => ?_
    obtain ⟨⟨outcome, rfl⟩, -, hcalls⟩ := hreads
    refine ⟨nofun, fun target _ _ hcalled => absurd hcalled ?_⟩
    exact hnone calls (fun c hc => noInstall_of_readOnly (hcalls c hc)) target
  refine ensures_modify_bind (ensures_bind (transaction_execute.mono ?_))
  rintro (_ | decision) s' made ⟨hwaits, hinstall⟩
  · exact ⟨fun _ => hwaits rfl, nofun⟩
  refine ensures_persist.mono fun result s'' further hpersist => ?_
  obtain ⟨⟨outcome, rfl, hpersisted⟩, hhold, hfurther⟩ := hpersist
  refine ⟨nofun, fun target outcome' heq hcalled => ?_⟩
  cases heq
  obtain ⟨before, answer, after, previous, rfl, hprevious, hsettles⟩ :=
    hinstall target ((called_append.1 hcalled).resolve_right
      (hnone further (fun c hc => noInstall_of_records (hfurther c hc)) target))
  refine ⟨decision, before, answer, after ++ further, previous, hpersisted, ?_, hprevious, ?_⟩
  · rw [List.append_assoc, List.cons_append]
  · rcases hsettles with h | h | h
    · exact .inl h
    · exact .inr (.inl h)
    · exact .inr (.inr (h.append hhold hfurther))

/-- An outside on which neither the SDK can be installed nor the pin
checked out. -/
def checkoutFails : Outside Effect.Answer := fun _ e =>
  match e with
  | .command program args =>
    if e = installSdk "0.2.1" ∨ e = checkoutPin then .ok ⟨"", "", 1⟩
    else if program = "claude" then .ok ⟨"2.0.1", "", 0⟩
    else if program = "test" ∧ args.length = 2 then .ok ⟨"", "", 1⟩
    else .ok ⟨"", "", 0⟩
  | .nowMs => 0
  | .localMinute => 0
  | .wait _ => ()
  | .quiescence => .error "unknown"
  | .buildServer | .restart | .status | .save _ | .backupDist | .restoreDist | .restoreCli _ =>
    .ok ()
  | .activateCodex => .ok ""
  | .pin => .ok "0.2.0"
  | .sdkVersions => .ok ["0.2.0", "0.2.1"]
  | .previousCli => .ok ["claude"]

/-- **A checkout that fails leaves the installation as it is.** The run
ends held, and has not installed what was pinned. -/
theorem reinstall_skipped :
    let r := run ⟨none, none, none, none⟩ true 0 false false checkoutFails .default []
    r.1 = some (.held "0.2.1" 1 ("install SDK: npm install @anthropic-ai/claude-agent-sdk@0.2.1 " ++
        "--workspace @remux/agent failed (1): ; restore failed: pin: git checkout -- " ++
        "extensions/agent/package.json package-lock.json failed (1): ")) ∧
      Called (installSdk "0.2.1") r.2.2 ∧ ¬ Called reinstall r.2.2 := by
  simp only [called_iff]
  decide +kernel

end Maintenance

end Remux
