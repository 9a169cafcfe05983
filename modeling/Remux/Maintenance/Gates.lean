import Remux.Maintenance.Transaction

/-!
# The gates of a restart

What has to come before the agent is restarted on a new SDK: the checks of
the sources, the backup and the build, and right before it a reading that
shows the agent quiet, inside the window. A restart that takes an attempt
back comes after the checkout of the pin, and passes no gate.

`Gated` goes along the calls of the rest of a run, up to such a checkout.
As in the transaction, the stages are gone through from the last to the
first. The carried `quiet_since` is a reading of the clock by the same
run, after which every reading of quiescence was idle.
-/

namespace Remux

namespace Maintenance

open Script Ensures List

/-- The effect was called, and did what it was for. -/
def Succeeded (e : Effect) (calls : List MaintenanceCall) : Prop :=
  ∃ answer, ⟨e, answer⟩ ∈ calls ∧ failed ⟨e, answer⟩ = false

/-- **The clock was read** to this value, and every reading of quiescence
since was idle. -/
def QuietSince (quietSince : ℤ) (calls : List MaintenanceCall) : Prop :=
  ∃ earlier later, calls = earlier ++ ⟨.nowMs, quietSince⟩ :: later ∧
    ∀ answer, ⟨.quiescence, answer⟩ ∈ later → ∃ q, answer = .ok q ∧ q.isIdle = true

/-- **The gates** that the calls before a restart have passed. -/
structure Gates (config : AgentAutoupdateConfig) (now : Bool) (before : List MaintenanceCall) :
    Prop where
  typecheck : Succeeded (.command "npm" ["run", "typecheck"]) before
  tests : Succeeded (.command "npm" ["run", "test:agent-server"]) before
  backup : Succeeded .backupDist before
  build : Succeeded .buildServer before
  quiet : ∃ earlier window q readAt quietSince,
    before = earlier ++ window ++ [⟨.quiescence, .ok q⟩, ⟨.nowMs, readAt⟩] ∧
      WindowOpen config now window ∧ IsQuiet config quietSince q readAt ∧
        QuietSince quietSince (earlier ++ window)

/-- After some calls, every restart up to a checkout of the pin has passed
the gates. -/
def Gated (config : AgentAutoupdateConfig) (now : Bool) :
    List MaintenanceCall → List MaintenanceCall → Prop
  | _, [] => True
  | before, c :: calls => c.1 = checkoutPin ∨
      (c.1 = .restart → Gates config now before) ∧ Gated config now (before ++ [c]) calls

variable {config : AgentAutoupdateConfig} {now : Bool} {patience : ℕ}
variable {target cli : String} {prev : List String} {s s' : MaintenanceState}
variable {before made further calls : List MaintenanceCall}

/-! ## Going along the calls -/

/-- What is gated, read at one of the restarts. -/
theorem Gated.gates {answer : Except String Unit}
    (h : Gated config now before (made ++ ⟨.restart, answer⟩ :: further))
    (hmade : ¬ Called checkoutPin made) : Gates config now (before ++ made) := by
  induction made generalizing before with
  | nil =>
    rw [append_nil]
    rcases h with h | ⟨h, -⟩
    · cases h
    · exact h rfl
  | cons c made ih =>
    have hne : c.1 ≠ checkoutPin := by
      intro heq
      exact hmade (called_iff.2 (mem_map.2 ⟨c, mem_cons_self, heq⟩))
    have hmade' : ¬ Called checkoutPin made :=
      fun ⟨answer, hmem⟩ => hmade ⟨answer, mem_cons_of_mem _ hmem⟩
    rw [append_cons]
    exact ih (h.resolve_left hne).2 hmade'

/-- Calls without a restart may come before. -/
theorem Gated.append (h : Gated config now (before ++ made) further)
    (hmade : ∀ c ∈ made, c.1 ≠ .restart) : Gated config now before (made ++ further) := by
  induction made generalizing before with
  | nil => rwa [append_nil] at h
  | cons c made ih =>
    rw [append_cons] at h
    refine .inr ⟨fun heq => absurd heq (hmade c mem_cons_self), ih h fun c' hc' => ?_⟩
    exact hmade c' (mem_cons_of_mem _ hc')

/-- Calls without a restart that follow are gated too. -/
theorem Gated.concat (h : Gated config now before made) (hfurther : ∀ c ∈ further, c.1 ≠ .restart) :
    Gated config now before (made ++ further) := by
  induction made generalizing before with
  | nil =>
    rw [nil_append, ← append_nil further]
    exact Gated.append trivial hfurther
  | cons c made ih =>
    rcases h with h | ⟨h, hgated⟩
    · exact .inl h
    · exact .inr ⟨h, ih hgated⟩

/-- Calls without a restart are gated. -/
theorem gated_of_ne_restart (h : ∀ c ∈ calls, c.1 ≠ .restart) : Gated config now before calls :=
  @Gated.concat _ _ _ [] _ trivial h

variable {e : Effect} {program : String} {args : List String} {dist : Bool}

theorem ne_restart_of_readOnly (h : e.readOnly = true) : e ≠ .restart := by
  rintro rfl
  cases h

/-- What is gated after its first part is gated. -/
theorem gated_bind {α β : Type} {m : MaintenanceScript α} {f : α → MaintenanceScript β}
    {P : α → MaintenanceState → List MaintenanceCall → Prop}
    (hm : m.Ensures s fun result s' made => ∃ a, result = some a ∧ P a s' made)
    (hcalls : ∀ a s' made, P a s' made → ∀ c ∈ made, c.1 ≠ .restart)
    (hf : ∀ a s' made, P a s' made →
      (f a).Ensures s' fun _ _ calls => Gated config now (before ++ made) calls) :
    (m >>= f).Ensures s fun _ _ calls => Gated config now before calls :=
  hm.bind_some fun a s' made h =>
    (hf a s' made h).mono fun _ _ _ hgated => hgated.append (hcalls a s' made h)

theorem gated_call_bind {β : Type} {f : e.Answer → MaintenanceScript β} (he : e ≠ .restart)
    (hf : ∀ answer, (f answer).Ensures s fun _ _ calls =>
      Gated config now (before ++ [⟨e, answer⟩]) calls) :
    (call e >>= f).Ensures s fun _ _ calls => Gated config now before calls :=
  ensures_call_bind fun answer => (hf answer).mono fun _ _ _ hgated =>
    .inr ⟨fun heq => absurd heq he, hgated⟩

theorem gated_command_bind {β : Type} {f : Except String String → MaintenanceScript β}
    (herror : ∀ answer error, (f (.error error)).Ensures s fun _ _ calls =>
      Gated config now (before ++ [⟨.command program args, answer⟩]) calls)
    (hok : ∀ answer output, failed ⟨.command program args, answer⟩ = false →
      (f (.ok output)).Ensures s fun _ _ calls =>
        Gated config now (before ++ [⟨.command program args, answer⟩]) calls) :
    (command program args >>= f).Ensures s fun _ _ calls => Gated config now before calls := by
  refine ensures_command_bind (fun answer error _ => ?_) fun answer output hans => ?_
  · exact (herror answer error).mono fun _ _ _ hgated => .inr ⟨nofun, hgated⟩
  · exact (hok answer output hans).mono fun _ _ _ hgated => .inr ⟨nofun, hgated⟩

/-! ## Taking back is not gated -/

/-- A rollback restarts nothing before it checks the pin out. -/
theorem RollbackCalls.gated {activate ok : Bool} (h : RollbackCalls dist activate prev made ok) :
    Gated config now before (made ++ further) := by
  obtain ⟨distCalls, pinCalls, activationCalls, _, _, _, rfl, hdist, hpin, -, -⟩ := h
  have hco : ∀ before more, Gated config now before (pinCalls ++ more) := by
    intro before more
    cases hpin <;> exact .inl rfl
  rw [append_assoc, append_assoc]
  cases hdist with
  | skip => exact hco before _
  | restore => exact .inr ⟨nofun, hco _ _⟩

theorem gated_fail {stage error : String} {activate : Bool} :
    (fail target stage error dist activate prev).Ensures s fun _ _ calls =>
      Gated config now before calls :=
  ensures_rollback.bind_some fun _ _ _ hroll _ _ => hroll.gated

theorem gated_deferRestore {reason : String} :
    (deferRestore target reason dist prev).Ensures s fun _ _ calls =>
      Gated config now before calls :=
  ensures_rollback.bind_some fun _ _ _ hroll _ _ => hroll.gated

/-! ## What is known on the way to the restart -/

theorem Succeeded.append {e : Effect} (h : Succeeded e before) : Succeeded e (before ++ made) := by
  obtain ⟨answer, hmem, hok⟩ := h
  exact ⟨answer, mem_append_left _ hmem, hok⟩

theorem succeeded_concat {e : Effect} {answer : e.Answer} (h : failed ⟨e, answer⟩ = false) :
    Succeeded e (before ++ [⟨e, answer⟩]) :=
  ⟨answer, List.mem_concat_self, h⟩

theorem quietSince_concat {quietSince : ℤ} :
    QuietSince quietSince (before ++ [⟨.nowMs, quietSince⟩]) :=
  ⟨before, [], rfl, fun _ h => absurd h not_mem_nil⟩

theorem QuietSince.append {quietSince : ℤ} (h : QuietSince quietSince before)
    (hmade : ∀ answer, ⟨.quiescence, answer⟩ ∈ made → ∃ q, answer = .ok q ∧ q.isIdle = true) :
    QuietSince quietSince (before ++ made) := by
  obtain ⟨earlier, later, rfl, hlat⟩ := h
  refine ⟨earlier, later ++ made, by rw [append_assoc, cons_append], fun answer hmem => ?_⟩
  exact (mem_append.1 hmem).elim (hlat answer) (hmade answer)

/-- A look at the window reads no quiescence. -/
theorem WindowOpen.quietSince {quietSince : ℤ} (h : QuietSince quietSince before)
    (hwin : WindowOpen config now made) : QuietSince quietSince (before ++ made) := by
  refine h.append fun answer hmem => ?_
  rcases hwin with ⟨-, rfl⟩ | ⟨-, start, stop, minute, -, rfl, -⟩
  · cases hmem
  · cases mem_singleton.1 hmem

/-- **The carried clock after a reading**: begun anew by this reading, or
kept by an idle one. -/
theorem QuietCalls.quietSince {quietSince quietSince' : ℤ} {result : Except String Unit}
    (h : QuietSince quietSince before)
    (hqt : QuietCalls config quietSince made result quietSince') :
    QuietSince quietSince' (before ++ made) := by
  have hidle : ∀ (q : Quiescence) (readAt : ℤ), q.isIdle = true → ∀ answer,
      (⟨.quiescence, answer⟩ : MaintenanceCall) ∈
        ([⟨.quiescence, .ok q⟩, ⟨.nowMs, readAt⟩] : List MaintenanceCall) →
      ∃ q, answer = .ok q ∧ q.isIdle = true := by
    intro q readAt hidle answer hmem
    rcases mem_cons.1 hmem with heq | hmem
    · cases heq
      exact ⟨q, rfl, hidle⟩
    · cases mem_singleton.1 hmem
  cases hqt with
  | reset =>
    rw [append_cons]
    exact quietSince_concat
  | early hearly => exact h.append (hidle _ _ hearly)
  | quiet hqt => exact h.append (hidle _ _ hqt.idle)

/-! ## The stages, from the last to the first -/

/-- An activation passes its gates, -/
theorem gated_activate (h : Gates config now before) :
    (activate config cli target prev).Ensures s fun _ _ calls =>
      Gated config now before calls := by
  refine ensures_call_bind fun answer => ?_
  refine mono (Q := fun _ _ calls =>
    Gated config now (before ++ [⟨.restart, answer⟩]) calls) ?_
    fun _ _ _ hgated => .inr ⟨fun _ => h, hgated⟩
  cases answer with
  | error _ => exact gated_fail
  | ok _ =>
    refine gated_call_bind nofun fun answer => ?_
    cases answer with
    | error _ => exact gated_fail
    | ok _ =>
      have hcalls : (commit config cli target).Calls (· ≠ .restart) :=
        calls_commit nofun nofun nofun
      exact (hcalls s).mono fun _ _ _ => gated_of_ne_restart

variable (htc : Succeeded (.command "npm" ["run", "typecheck"]) before)
include htc

variable (htests : Succeeded (.command "npm" ["run", "test:agent-server"]) before)
include htests

/-- after the last reading too, -/
theorem gated_checkAndActivate {quietSince : ℤ}
    (hbackup : Succeeded .backupDist before) (hbuild : Succeeded .buildServer before)
    (hquietSince : QuietSince quietSince before) :
    (checkAndActivate config now cli target prev quietSince).Ensures s fun _ _ calls =>
      Gated config now before calls := by
  refine gated_bind ensures_outsideWindow
    (fun _ _ _ h c hc => ne_restart_of_readOnly (h.2.1 c hc)) fun outside s' window hwin => ?_
  obtain ⟨-, -, hopen⟩ := hwin
  split
  · exact gated_deferRestore
  next houtside =>
  have hopen := hopen (Bool.eq_false_iff.2 houtside)
  refine gated_bind ensures_quiet
    (fun _ _ _ h c hc => ne_restart_of_readOnly (h.2.readOnly c hc)) fun r s'' made hqt => ?_
  obtain ⟨result, quietSince'⟩ := r
  obtain ⟨-, hcalls⟩ := hqt
  cases hcalls with
  | reset | early => exact gated_deferRestore
  | quiet hqt =>
    exact gated_activate ⟨htc.append.append, htests.append.append, hbackup.append.append,
      hbuild.append.append, before, window, _, _, _, rfl, hopen, hqt,
      hopen.quietSince hquietSince⟩

/-- with its backup and its build. -/
theorem gated_backupAndBuild {quietSince : ℤ} (hqt : QuietSince quietSince before) :
    (backupAndBuild config now cli target prev quietSince).Ensures s fun _ _ calls =>
      Gated config now before calls := by
  refine gated_call_bind nofun fun answer => ?_
  cases answer with
  | error _ => exact gated_fail
  | ok _ =>
    have hbackup := @succeeded_concat before .backupDist (.ok ()) rfl
    refine gated_call_bind nofun fun answer => ?_
    cases answer with
    | error _ => exact gated_fail
    | ok _ =>
      refine gated_checkAndActivate htc.append.append htests.append.append hbackup.append
        (succeeded_concat rfl) ?_
      refine (hqt.append fun answer hmem => ?_).append fun answer hmem => ?_
      all_goals cases mem_singleton.1 hmem

/-- The loop of stage 6, by induction on the patience; the carried clock is
the invariant. -/
theorem gated_awaitQuiet {quietSince : ℤ} (hquietSince : QuietSince quietSince before) :
    (awaitQuiet config now cli target prev patience quietSince).Ensures s fun _ _ calls =>
      Gated config now before calls := by
  induction patience generalizing quietSince before s with
  | zero => exact ensures_giveUp trivial
  | succ patience ih =>
    refine gated_bind ensures_outsideWindow
      (fun _ _ _ h c hc => ne_restart_of_readOnly (h.2.1 c hc)) fun outside s' window hwin => ?_
    obtain ⟨-, -, hopen⟩ := hwin
    split
    · exact gated_deferRestore
    next houtside =>
    have hquietSince := (hopen (Bool.eq_false_iff.2 houtside)).quietSince hquietSince
    refine gated_bind ensures_quiet
      (fun _ _ _ h c hc => ne_restart_of_readOnly (h.2.readOnly c hc)) fun r s'' made hqt => ?_
    have hquietSince := hqt.2.quietSince hquietSince
    obtain ⟨_ | _, quietSince'⟩ := r
    · dsimp only
      split
      · exact gated_deferRestore
      refine gated_call_bind nofun fun answer => ?_
      refine ih htc.append.append.append htests.append.append.append
        (hquietSince.append fun answer hmem => ?_)
      cases mem_singleton.1 hmem
    · exact gated_backupAndBuild htc.append.append htests.append.append hquietSince

omit htests htc

theorem gated_verify : (verify config now patience cli target prev).Ensures s fun _ _ calls =>
      Gated config now before calls := by
  refine gated_command_bind (fun _ _ => gated_fail) fun answer _ htc => ?_
  have htc := @succeeded_concat before _ _ htc
  refine gated_command_bind (fun _ _ => gated_fail) fun answer _ htests => ?_
  refine gated_call_bind nofun fun quietSince => ?_
  exact gated_awaitQuiet htc.append.append (succeeded_concat htests).append quietSince_concat

/-! ## The whole run -/

/-- **What guards a run**, after some calls: its restarts pass the gates,
and the target on hold is not installed. -/
structure Guarded (config : AgentAutoupdateConfig) (now : Bool) (hold : Option Hold)
    (before calls : List MaintenanceCall) : Prop where
  gated : Gated config now before calls
  hold : ∀ h, hold = some h → ¬ Called (installSdk h.target) calls

variable {hold : Option Hold}

theorem guarded_of_readOnly (h : ∀ c ∈ calls, c.1.readOnly = true) :
    Guarded config now hold before calls where
  gated := gated_of_ne_restart fun c hc => ne_restart_of_readOnly (h c hc)
  hold := fun _ _ ⟨_, hmem⟩ => noInstall_of_readOnly (h _ hmem) _ rfl

theorem guarded_nil : Guarded config now hold before [] :=
  guarded_of_readOnly fun _ h => absurd h not_mem_nil

theorem Guarded.append (h : Guarded config now hold (before ++ made) further)
    (hmade : ∀ c ∈ made, c.1 ≠ .restart ∧ NoInstall c.1) :
    Guarded config now hold before (made ++ further) where
  gated := h.gated.append fun c hc => (hmade c hc).1
  hold := fun held heq hcall =>
    (called_append.1 hcall).elim (fun ⟨_, hmem⟩ => (hmade _ hmem).2 _ rfl) (h.hold held heq)

theorem Guarded.concat (h : Guarded config now hold before made)
    (hfurther : ∀ c ∈ further, c.1 ≠ .restart ∧ NoInstall c.1) :
    Guarded config now hold before (made ++ further) where
  gated := h.gated.concat fun c hc => (hfurther c hc).1
  hold := fun held heq hcall =>
    (called_append.1 hcall).elim (h.hold held heq) fun ⟨_, hmem⟩ => (hfurther _ hmem).2 _ rfl

/-- What is guarded after one call is guarded. -/
theorem guarded_call_bind {f : e.Answer → MaintenanceScript RunOutcome} (he : e ≠ .restart)
    (hinstall : NoInstall e) (hf : ∀ answer before, (f answer).Ensures s fun _ _ calls =>
      Guarded config now hold before calls) :
    (call e >>= f).Ensures s fun _ _ calls => Guarded config now hold before calls := by
  refine ensures_call_bind fun answer => ?_
  refine (hf answer (before ++ [⟨e, answer⟩])).mono fun _ _ _ hguarded => ?_
  refine @Guarded.append _ _ _ [_] _ _ hguarded fun c hc => ?_
  rw [mem_singleton.1 hc]
  exact ⟨he, hinstall⟩

/-- What is guarded after a command is guarded. -/
theorem guarded_command_bind {f : Except String String → MaintenanceScript RunOutcome}
    (hinstall : NoInstall (.command program args))
    (hf : ∀ result before, (f result).Ensures s fun _ _ calls =>
      Guarded config now hold before calls) :
    (command program args >>= f).Ensures s fun _ _ calls =>
      Guarded config now hold before calls := by
  refine ensures_bind (ensures_command fun answer result _ => ?_)
  refine (hf result (before ++ [⟨_, answer⟩])).mono fun _ _ _ hguarded => ?_
  refine @Guarded.append _ _ _ [_] _ _ hguarded fun c hc => ?_
  rw [mem_singleton.1 hc]
  exact ⟨nofun, hinstall⟩

/-- The installation, of a target that is not on hold. -/
theorem guarded_pinAndInstall (h : ∀ held, hold = some held → held.target ≠ target) :
    (pinAndInstall config now patience cli target prev).Ensures s fun _ _ calls =>
      Guarded config now hold before calls := by
  have hgated : (pinAndInstall config now patience cli target prev).Ensures s fun _ _ calls =>
      Gated config now before calls := by
    refine gated_command_bind (fun _ _ => gated_fail) fun answer _ _ => ?_
    refine gated_call_bind (by rintro ⟨⟩) fun pin => ?_
    rcases pin with _ | pin
    · exact gated_fail
    · dsimp only
      split
      · exact gated_verify
      · exact gated_fail
  have hinstall : (pinAndInstall config now patience cli target prev).Calls
      fun e => ∀ held, hold = some held → e ≠ installSdk held.target := by
    have hlate : ∀ e, NoInstall e → ∀ held, hold = some held → e ≠ installSdk held.target :=
      fun e he held _ => he held.target
    refine (calls_command fun held heq hsame => h held heq ?_).bind fun result => ?_
    · exact (by simpa [installSdk, installArgs, sdk] using hsame : target = held.target).symm
    rcases result with _ | _
    · exact calls_fail.mono hlate
    refine (calls_call (by rintro _ _ ⟨⟩)).bind fun pin => ?_
    rcases pin with _ | pin
    · exact calls_fail.mono hlate
    · dsimp only
      split
      · exact calls_verify.mono hlate
      · exact calls_fail.mono hlate
  refine (hgated.and (hinstall s)).mono fun _ _ calls hboth => ⟨hboth.1, ?_⟩
  exact fun held heq hmem => hmem.elim fun _ hmem => hboth.2 _ hmem held heq rfl

/-- A run keeps to its gates and its hold from the comparison on, -/
theorem guarded_compareTarget :
    (compareTarget config now patience cli target prev).Ensures s fun _ _ calls =>
      Guarded config now s.hold before calls := by
  refine ensures_get_bind ?_
  split
  · exact ensures_pure guarded_nil
  next hfree =>
  have hne : ∀ held, s.hold = some held → held.target ≠ target := by
    intro held heq hsame
    rw [heq] at hfree
    simp [Option.filter, hsame] at hfree
  refine guarded_call_bind nofun nofun fun pin before => ?_
  rcases pin with _ | current
  · exact ensures_pure guarded_nil
  refine ensures_modify_bind ?_
  split
  · refine bind_some (P := fun _ _ made => ∃ answer, made = [⟨.activateCodex, answer⟩])
      (ensures_activateCodex.mono fun _ _ _ h => ⟨_, h.1, h.2.2⟩) ?_
    rintro _ s' made ⟨answer, rfl⟩
    refine ensures_modify_bind (ensures_pure (guarded_nil.append fun c hc => ?_))
    rw [mem_singleton.1 hc]
    exact ⟨nofun, nofun⟩
  · exact guarded_pinAndInstall hne

/-- from the saved state on, -/
theorem guarded_saveState : (saveState config now patience).Ensures s fun _ _ calls =>
      Guarded config now s.hold before calls := by
  refine ensures_get_bind (guarded_call_bind nofun nofun fun saved before => ?_)
  rcases saved with _ | _
  · exact ensures_pure guarded_nil
  refine guarded_call_bind nofun nofun fun answer before => ?_
  rcases answer with _ | prev
  · exact ensures_pure guarded_nil
  refine guarded_command_bind (noInstall_command (.inl (by decide))) fun claude before => ?_
  refine guarded_command_bind (noInstall_command (.inl (by decide))) fun codex before => ?_
  refine guarded_command_bind (noInstall_command (.inl (by decide))) fun result before => ?_
  rcases result with _ | cli
  · exact ensures_pure guarded_nil
  refine ensures_modify_bind ?_
  rcases claude with _ | _
  · exact ensures_pure guarded_nil
  rcases codex with _ | _
  · exact ensures_pure guarded_nil
  refine guarded_call_bind nofun nofun fun versions before => ?_
  rcases versions with _ | versions
  · exact ensures_pure guarded_nil
  refine ensures_modify_bind ?_
  rcases resolveTarget versions cli with _ | target
  · exact ensures_pure guarded_nil
  · exact guarded_compareTarget

/-- from its preconditions on, -/
theorem guarded_preconditions : (preconditions config now patience).Ensures s fun _ _ calls =>
      Guarded config now s.hold before calls := by
  have hmarkers : ∀ markers before, (checkMarkers config now patience markers).Ensures s
      fun _ _ calls => Guarded config now s.hold before calls := by
    intro markers
    induction markers with
    | nil => exact fun before => guarded_saveState
    | cons marker markers ih =>
      intro before
      refine guarded_command_bind (noInstall_command (.inl (by decide))) fun result before => ?_
      rcases result with _ | path
      · exact ensures_pure guarded_nil
      refine guarded_call_bind nofun (noInstall_command (.inl (by decide))) fun output before => ?_
      rcases output with _ | output
      · exact ensures_pure guarded_nil
      dsimp only
      split
      · exact ih before
      · split <;> exact ensures_pure guarded_nil
  refine guarded_command_bind (noInstall_command (.inl (by decide))) fun result before => ?_
  rcases result with _ | status
  · exact ensures_pure guarded_nil
  dsimp only
  split
  · exact ensures_pure guarded_nil
  · exact hmarkers _ before

/-- and from its start. -/
theorem guarded_execute {dryRun : Bool} :
    (execute config now patience dryRun).Ensures s fun _ _ calls =>
      Guarded config now s.hold [] calls := by
  cases dryRun with
  | true => exact (reads_execute s).mono fun _ _ _ h => guarded_of_readOnly h.2.2
  | false =>
    unfold execute
    split
    · exact ensures_pure guarded_nil
    refine bind_some ensures_outsideWindow fun outside s' made hwin => ?_
    obtain ⟨rfl, hmade, -⟩ := hwin
    have hmade : ∀ c ∈ made, c.1 ≠ .restart ∧ NoInstall c.1 := fun c hc =>
      ⟨ne_restart_of_readOnly (hmade c hc), noInstall_of_readOnly (hmade c hc)⟩
    refine mono (Q := fun _ _ calls => Guarded config now s'.hold ([] ++ made) calls) ?_
      fun _ _ _ h => h.append hmade
    split
    · exact ensures_pure guarded_nil
    refine ensures_get_bind ?_
    split
    · exact ensures_pure guarded_nil
    refine ensures_get_bind ?_
    split
    · exact guarded_preconditions
    refine guarded_call_bind nofun nofun fun versions before => ?_
    rcases versions with _ | versions
    · exact ensures_pure guarded_nil
    dsimp only
    split
    · exact guarded_preconditions
    · exact ensures_pure guarded_nil

/-- **No restart passes the gates by.** Whatever the outside answers, a
restart of a run that has not begun to take back comes after successful
checks, backup and build, right after a reading that shows the agent
quiet, and, if the run is not forced, inside the window. The target on
hold is not installed, and a dry run only reads and keeps the state. -/
theorem restart_is_gated (config : AgentAutoupdateConfig) (now : Bool) (patience : ℕ)
    (running dryRun : Bool) (s : MaintenanceState) :
    (run config now patience running dryRun).Ensures s fun _ s' calls =>
      (∀ before answer after, calls = before ++ ⟨.restart, answer⟩ :: after →
        ¬ Called checkoutPin before → Gates config now before) ∧
      (∀ hold, s.hold = some hold → ¬ Called (installSdk hold.target) calls) ∧
      (dryRun = true → s' = s ∧ ∀ c ∈ calls, c.1.readOnly = true) := by
  have hguarded : ∀ calls, Guarded config now s.hold [] calls →
      (∀ before answer after, calls = before ++ ⟨.restart, answer⟩ :: after →
        ¬ Called checkoutPin before → Gates config now before) ∧
      (∀ hold, s.hold = some hold → ¬ Called (installSdk hold.target) calls) := by
    refine fun calls h => ⟨fun before answer after heq hcheckout => ?_, h.hold⟩
    subst heq
    exact h.gated.gates hcheckout
  have hand : ∀ {p q r : Prop}, p ∧ q → r → p ∧ q ∧ r := fun h hr => ⟨h.1, h.2, hr⟩
  unfold run
  split
  · exact ensures_pure (hand (hguarded [] guarded_nil)
      fun _ => ⟨rfl, fun _ h => absurd h List.not_mem_nil⟩)
  split
  · exact (reads_execute s).mono fun _ _ calls h =>
      hand (hguarded calls (guarded_of_readOnly h.2.2)) fun _ => h.2
  next hdry =>
  refine Ensures.mono (Q := fun _ _ calls => Guarded config now s.hold [] calls) ?_
    fun _ _ calls h => hand (hguarded calls h) fun h => absurd h hdry
  refine ensures_modify_bind (Ensures.bind guarded_execute (fun _ _ h => h) ?_)
  refine fun outcome s' made h => ensures_persist.mono fun _ _ further hpersist => ?_
  exact h.concat fun c hc => not_restart_of_records (hpersist.2.2 c hc)

end Maintenance

end Remux
