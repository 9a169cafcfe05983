import Remux.Maintenance.Calls

/-!
# Taking an attempt back

Whatever fails after the SDK was installed, `fail` or `defer_restore`
takes the attempt back, with two flags that say how far it got: whether
`dist` may have been built over, and whether the new agent may have been
started.
-/

namespace Remux

namespace Maintenance

open Script List

/-- The clock, and the saving of the state. -/
def records : Effect → Bool
  | .nowMs | .save _ => true
  | _ => false

/-- **What takes an attempt back**: the pin always, `dist` if it may have
been built over, and the CLI and then the agent if the agent was restarted,
in the attempt or here. A checkout that fails leaves nothing to install. -/
structure Restoration (attempt : List MaintenanceCall) (previous : List String)
    (restore : List MaintenanceCall) : Prop where
  pin : ∃ before answer after, restore = before ++ ⟨checkoutPin, answer⟩ :: after ∧
    (failed ⟨checkoutPin, answer⟩ = false → Called reinstall after)
  dist : Called .buildServer attempt → Called .restoreDist restore
  unbuilt : ¬ Called .buildServer restore
  restart : Called .restart attempt ∨ Called .restart restore →
    ∃ before answer after, restore = before ++ ⟨.restoreCli previous, answer⟩ :: after ∧
      Called .restart after

/-- How a run ends that was taken back: held, with the hold set, if
anything failed on the way. -/
structure Ended (target : String) (outcome : RunOutcome) (s : MaintenanceState)
    (restore : List MaintenanceCall) : Prop where
  decision : (∃ stage error, outcome = .rolledBack stage error) ∨
    (∃ stage reason, outcome = .deferred stage reason) ∨
    ∃ attempts reason, outcome = .held target attempts reason
  held : (∃ c ∈ restore, failed c = true) →
    (∃ attempts reason, outcome = .held target attempts reason) ∧
      ∃ hold, s.hold = some hold ∧ hold.target = target

/-- The rest of a run, after some calls, takes back what was attempted
before and in it, and attempts nothing more. -/
def TakenBack (target : String) (previous : List String) (attempt : List MaintenanceCall)
    (outcome : RunOutcome) (s : MaintenanceState) (calls : List MaintenanceCall) : Prop :=
  ∃ more restore rest, calls = more ++ restore ++ rest ∧
    Restoration (attempt ++ more) previous restore ∧ Ended target outcome s restore ∧
      ∀ c ∈ rest, records c.1 = true

variable {target : String} {previous : List String} {s s' : MaintenanceState}
variable {attempt restore : List MaintenanceCall}

/-! ## Taking an attempt back -/

/-- The calls of `restore_pin`, and whether it succeeds. -/
inductive PinCalls : List MaintenanceCall → Bool → Prop
  | checkout {answer : Except String CommandOutput} :
      failed ⟨checkoutPin, answer⟩ = true → PinCalls [⟨checkoutPin, answer⟩] false
  | reinstall {answer answer' : Except String CommandOutput} :
      failed ⟨checkoutPin, answer⟩ = false → failed ⟨reinstall, answer'⟩ = true →
      PinCalls [⟨checkoutPin, answer⟩, ⟨reinstall, answer'⟩] false
  | pin {answer answer' : Except String CommandOutput} {pin : Except String String} :
      failed ⟨checkoutPin, answer⟩ = false → failed ⟨reinstall, answer'⟩ = false →
      PinCalls [⟨checkoutPin, answer⟩, ⟨reinstall, answer'⟩, ⟨.pin, pin⟩] pin.isOk

/-- What the restoration of the pin calls. -/
theorem ensures_restorePin : restorePin.Ensures s fun result _ calls =>
    ∃ outcome, result = some outcome ∧ PinCalls calls outcome.isOk := by
  refine ensures_command_bind (fun answer error hco => ?_) fun answer _ hco => ?_
  · exact ensures_pure ⟨_, rfl, .checkout hco⟩
  refine ensures_command_bind (fun answer' error hrein => ?_) fun answer' _ hrein => ?_
  · exact ensures_pure ⟨_, rfl, .reinstall hco hrein⟩
  refine ensures_call_bind fun pin => ?_
  cases pin with
  | error error => exact ensures_pure ⟨_, rfl, .pin hco hrein⟩
  | ok pin =>
    exact ensures_modify_bind (ensures_pure ⟨_, rfl, .pin hco hrein⟩)

/-- The calls of the rollback for `dist`. -/
inductive DistCalls : Bool → List MaintenanceCall → Bool → Prop
  | skip : DistCalls false [] true
  | restore {answer : Except String Unit} :
      DistCalls true [⟨.restoreDist, answer⟩] answer.isOk

/-- The calls of the rollback for `activate`. -/
inductive ActivationCalls (previous : List String) : Bool → List MaintenanceCall → Bool → Prop
  | skip : ActivationCalls previous false [] true
  | restore {cli restarted : Except String Unit} :
      ActivationCalls previous true [⟨.restoreCli previous, cli⟩, ⟨.restart, restarted⟩]
        (cli.isOk && restarted.isOk)

/-- The calls of `rollback`. -/
def RollbackCalls (dist activate : Bool) (previous : List String) (calls : List MaintenanceCall)
    (ok : Bool) : Prop :=
  ∃ distCalls pinCalls activationCalls distOk pinOk activationOk,
    calls = distCalls ++ pinCalls ++ activationCalls ∧ DistCalls dist distCalls distOk ∧
      PinCalls pinCalls pinOk ∧ ActivationCalls previous activate activationCalls activationOk ∧
      ok = (distOk && pinOk && activationOk)

theorem labelled_isEmpty {α : Type} {label : String} {result : Except String α} :
    (labelled label result).isEmpty = result.isOk := by
  cases result <;> rfl

variable {dist ok immediateHold : Bool} {calls : List MaintenanceCall} {stage error : String}

/-- What the rollback of the build calls. -/
theorem ensures_rollbackDist : (rollbackDist dist).Ensures s fun result _ calls =>
    ∃ errors, result = some errors ∧ DistCalls dist calls errors.isEmpty := by
  cases dist with
  | false => exact ensures_pure ⟨_, rfl, .skip⟩
  | true =>
    refine ensures_call_bind fun answer => ensures_pure ⟨_, rfl, ?_⟩
    rw [labelled_isEmpty]
    exact .restore

variable {activate : Bool}

/-- What the rollback of an activation calls. -/
theorem ensures_rollbackActivation :
    (rollbackActivation activate previous).Ensures s fun result _ calls =>
      ∃ errors, result = some errors ∧ ActivationCalls previous activate calls errors.isEmpty := by
  cases activate with
  | false => exact ensures_pure ⟨_, rfl, .skip⟩
  | true =>
    refine ensures_call_bind fun cli => ?_
    cases cli with
    | error error =>
      exact ensures_call_bind fun restarted => ensures_pure ⟨_, rfl, .restore⟩
    | ok _ =>
      refine ensures_modify_bind (ensures_call_bind fun restarted => ensures_pure ⟨_, rfl, ?_⟩)
      rw [labelled_isEmpty]
      exact .restore

/-- What a rollback calls. -/
theorem ensures_rollback : (rollback dist activate previous).Ensures s fun result _ calls =>
      ∃ outcome, result = some outcome ∧
        RollbackCalls dist activate previous calls outcome.isOk := by
  refine ensures_rollbackDist.bind_some fun distErrors _ distCalls hdist => ?_
  refine ensures_restorePin.bind_some fun pin _ pinCalls hpin => ?_
  refine ensures_rollbackActivation.bind_some fun activationErrors _ activationCalls hactv => ?_
  have hnil : (distErrors ++ labelled "pin" pin ++ activationErrors).isEmpty =
      (distErrors.isEmpty && pin.isOk && activationErrors.isEmpty) := by
    rw [← @labelled_isEmpty _ "pin" pin]
    cases distErrors <;> cases labelled "pin" pin <;> rfl
  dsimp only
  split
  · next h =>
    refine ensures_pure ⟨_, rfl, distCalls, pinCalls, activationCalls, _, _, _, ?_, hdist, hpin,
      hactv, ?_⟩
    · simp
    · rw [← hnil, h]
      rfl
  · next h =>
    refine ensures_pure ⟨_, rfl, distCalls, pinCalls, activationCalls, _, _, _, ?_, hdist, hpin,
      hactv, ?_⟩
    · simp
    · rw [← hnil, Bool.eq_false_iff.2 h]
      rfl

/-- A rollback in which something failed is not a success. -/
theorem RollbackCalls.eq_false (h : RollbackCalls dist activate previous calls ok)
    (hfail : ∃ c ∈ calls, failed c = true) :
    ok = false := by
  obtain ⟨distCalls, pinCalls, activationCalls, _, _, _, rfl, hdist, hpin, hactv, rfl⟩ := h
  obtain ⟨c, hc, hfail⟩ := hfail
  rw [mem_append, mem_append] at hc
  rcases hc with (hc | hc) | hc
  · cases hdist with
    | skip => cases hc
    | restore =>
      obtain rfl := mem_singleton.1 hc
      simp_all [failed]
  · cases hpin with
    | checkout | reinstall => rw [Bool.and_false, Bool.false_and]
    | pin hco hrein =>
      simp only [mem_cons, not_mem_nil, or_false] at hc
      rcases hc with rfl | rfl | rfl
      · rw [hco] at hfail
        cases hfail
      · rw [hrein] at hfail
        cases hfail
      · simp_all [failed]
  · cases hactv with
    | skip => cases hc
    | restore =>
      simp only [mem_cons, not_mem_nil, or_false] at hc
      rcases hc with rfl | rfl
      all_goals simp_all [failed]

/-- A rollback builds nothing. -/
theorem RollbackCalls.not_called_buildServer
    (h : RollbackCalls dist activate previous calls ok) : ¬ Called .buildServer calls := by
  obtain ⟨distCalls, pinCalls, activationCalls, _, _, _, rfl, hdist, hpin, hactv, -⟩ := h
  rintro ⟨answer, hmem⟩
  rw [mem_append, mem_append] at hmem
  rcases hmem with (hmem | hmem) | hmem
  · cases hdist <;> simp at hmem
  · cases hpin <;> simp [checkoutPin, Maintenance.reinstall] at hmem
  · cases hactv <;> simp at hmem

/-- Only the part for the activation restarts the agent. -/
theorem RollbackCalls.activate_of_restart
    (h : RollbackCalls dist activate previous calls ok) (hcall : Called .restart calls) :
    activate = true := by
  obtain ⟨distCalls, pinCalls, activationCalls, _, _, _, rfl, hdist, hpin, hactv, -⟩ := h
  obtain ⟨answer, hmem⟩ := hcall
  rw [mem_append, mem_append] at hmem
  rcases hmem with (hmem | hmem) | hmem
  · cases hdist <;> simp at hmem
  · cases hpin <;> simp [checkoutPin, Maintenance.reinstall] at hmem
  · cases hactv with
    | skip => cases hmem
    | restore => rfl

/-- **The rollback takes back what was attempted**, if its flags say so. -/
theorem RollbackCalls.restoration (h : RollbackCalls dist activate previous calls ok)
    (hbuild : Called .buildServer attempt → dist = true)
    (hrestart : Called .restart attempt → activate = true) :
    Restoration attempt previous calls := by
  have hunbuilt := h.not_called_buildServer
  have hactivate : Called .restart attempt ∨ Called .restart calls → activate = true :=
    fun hcall => hcall.elim hrestart h.activate_of_restart
  obtain ⟨distCalls, pinCalls, activationCalls, _, _, _, rfl, hdist, hpin, hactv, -⟩ := h
  refine ⟨?_, fun hcall => ?_, hunbuilt, fun hcall => ?_⟩
  · cases hpin with
    | @checkout answer hco =>
      refine ⟨distCalls, answer, activationCalls, by simp, fun hok => ?_⟩
      rw [hco] at hok
      cases hok
    | @reinstall answer answer' =>
      exact ⟨distCalls, answer, ⟨reinstall, answer'⟩ :: activationCalls, by simp,
        fun _ => ⟨answer', mem_cons_self⟩⟩
    | @pin answer answer' pin =>
      exact ⟨distCalls, answer, ⟨reinstall, answer'⟩ :: ⟨.pin, pin⟩ :: activationCalls, by simp,
        fun _ => ⟨answer', mem_cons_self⟩⟩
  · obtain rfl := hbuild hcall
    cases hdist with
    | restore => exact ⟨_, mem_append_left _ (mem_append_left _ (mem_singleton_self _))⟩
  · obtain rfl := hactivate hcall
    cases hactv with
    | restore => exact ⟨_, _, _, rfl, _, mem_singleton_self _⟩

/-- A failure counts, and an immediate one holds the target. -/
theorem ensures_failure : (failure target stage error immediateHold).Ensures s
    fun result s' calls =>
      (∀ c ∈ calls, records c.1 = true) ∧ ∃ outcome, result = some outcome ∧
        ((immediateHold = false ∧ outcome = .rolledBack stage error) ∨
          (∃ attempts, outcome = .held target attempts (stage ++ ": " ++ error)) ∧
            ∃ hold, s'.hold = some hold ∧ hold.target = target) := by
  refine ensures_get_bind (ensures_modify_bind ?_)
  generalize ((if s.failureTarget ≠ some target then 0 else s.consecutiveFailures) + 1) % 2 ^ 32 =
    attempts
  split
  · refine ensures_call_bind fun timestamp => ensures_modify_bind (ensures_pure ?_)
    refine ⟨fun c hc => ?_, _, rfl, .inr ⟨⟨_, rfl⟩, _, rfl, rfl⟩⟩
    rw [mem_singleton.1 hc]
    rfl
  · next h =>
    refine ensures_pure ⟨fun _ hc => absurd hc not_mem_nil, _, rfl, .inl ⟨?_, rfl⟩⟩
    rw [Bool.or_eq_true, not_or] at h
    exact Bool.eq_false_iff.2 h.1

/-- **The failure that follows a rollback**: the attempt is taken back,
and the target held if the rollback was not a success. -/
theorem ensures_failure_takenBack (hrest : Restoration attempt previous restore)
    (hok : (∃ c ∈ restore, failed c = true) → ok = false)
    (hhold : ok = false → immediateHold = true) :
    (failure target stage error immediateHold).Ensures s fun result s' rest =>
      ∃ outcome, result = some outcome ∧
        TakenBack target previous attempt outcome s' (restore ++ rest) := by
  refine ensures_failure.mono fun result s' rest hend => ?_
  obtain ⟨hrecords, outcome, rfl, hend⟩ := hend
  refine ⟨outcome, rfl, [], restore, rest, rfl, ?_, ⟨?_, fun hfail => ?_⟩, hrecords⟩
  · rwa [append_nil]
  · rcases hend with ⟨-, rfl⟩ | ⟨⟨attempts, rfl⟩, -⟩
    · exact .inl ⟨_, _, rfl⟩
    · exact .inr (.inr ⟨_, _, rfl⟩)
  · rcases hend with ⟨hnot, -⟩ | ⟨⟨attempts, rfl⟩, hold⟩
    · rw [hhold (hok hfail)] at hnot
      cases hnot
    · exact ⟨⟨_, _, rfl⟩, hold⟩

/-- **`fail` takes the attempt back**, if its flags say how far it got. -/
theorem ensures_fail (hbuild : Called .buildServer attempt → dist = true)
    (hrestart : Called .restart attempt → activate = true) :
    (fail target stage error dist activate previous).Ensures s fun result s' calls =>
      ∃ outcome, result = some outcome ∧ TakenBack target previous attempt outcome s' calls := by
  refine ensures_rollback.bind_some fun outcome s' restore hroll => ?_
  have hrest := hroll.restoration hbuild hrestart
  cases outcome with
  | ok _ =>
    refine ensures_failure_takenBack hrest hroll.eq_false fun hok => ?_
    cases hok
  | error _ => exact ensures_failure_takenBack hrest hroll.eq_false fun _ => rfl

/-- **`defer_restore` takes the attempt back** that has not restarted the
agent. -/
theorem ensures_deferRestore {reason : String} (hbuild : Called .buildServer attempt → dist = true)
    (hrestart : ¬ Called .restart attempt) :
    (deferRestore target reason dist previous).Ensures s fun result s' calls =>
      ∃ outcome, result = some outcome ∧ TakenBack target previous attempt outcome s' calls := by
  refine ensures_rollback.bind_some fun outcome s' restore hroll => ?_
  have hrest := hroll.restoration hbuild fun h => absurd h hrestart
  cases outcome with
  | ok _ =>
    refine ensures_pure ⟨_, rfl, [], restore, [], by simp, ?_, ⟨.inr (.inl ⟨_, _, rfl⟩), ?_⟩, ?_⟩
    · rwa [append_nil]
    · exact fun hfail => nomatch hroll.eq_false hfail
    · exact fun _ hc => absurd hc not_mem_nil
  | error _ => exact ensures_failure_takenBack hrest hroll.eq_false fun _ => rfl

end Maintenance

end Remux
