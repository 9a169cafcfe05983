import Remux.Delivery.Admission

/-!
# Staged observations

An observation that was reported as staged is in the stage until it is
handed on, once and in order, in every run in which a drain finds its rows
still at the head of the stage. Two drains that prepare the same rows hand
them on twice, and the second deletes what was staged since under the same
identity.
-/

namespace Remux

variable {orderly : Prop} {s : DeliveryState}

/-- The deliveries whose drains are orderly. -/
def orderlyMachine : Machine DeliveryState DeliveryAction :=
  deliveryMachine.restrict fun s a => s.isOrderly a = true

/-- Everything observed is kept. -/
theorem kept_of_reachable (h : orderlyMachine.Reachable s) :
    ∀ id r, s.attempts.lookup id = some r → Kept r := by
  refine h.rule (P := fun s => ∀ id r, s.attempts.lookup id = some r → Kept r)
    (fun _ _ hr => (nomatch hr)) fun u a v hu hkept hstep id r' hr' => ?_
  obtain ⟨hordl, hstep⟩ := Machine.restrict_step_eq_some.1 hstep
  have hinv := DeliveryInv.of_reachable hu.of_restrict
  have hspec := hinv.step hstep
  cases hr : u.attempts.lookup id with
  | none =>
    obtain ⟨input, -, rfl⟩ := hspec.follows.new id r' hr' hr
    exact ⟨rfl, fun _ hmem => absurd hmem List.not_mem_nil⟩
  | some r =>
    obtain ⟨r'', hr'', hnext⟩ := hspec.follows.old id r hr
    cases hr'.symm.trans hr''
    cases hnext with
    | refl => exact hkept id _ hr
    | single hchg => exact hchg.kept hordl (hinv.records id r hr).stage (hkept id r hr)

/-- **Staged observations are neither lost, duplicated nor reordered**, in
every run in which a drain finds what it prepared first in the stage. -/
theorem observations_kept (h : orderlyMachine.Reachable s) : ∀ id r, s.attempts.lookup id = some r →
      r.history.handed.map Handing.source ++ r.staging.map StagedRow.envelope = r.history.observed ∧
      (∀ handing ∈ r.history.handed, ∀ form ∈ handing.forms,
        form.eventId = handing.source.eventId) ∧
      r.staging.map StagedRow.ordinal = List.range r.staging.length ∧
      (r.history.refused ≠ [] → r.row.transcriptGap = true) := by
  intro id r hr
  have hinv := (DeliveryInv.of_reachable h.of_restrict).records id r hr
  have hkept := kept_of_reachable h id r hr
  exact ⟨hkept.order, hkept.forms, hinv.stage.ordinals, hinv.gap⟩

/-- Two events come in while the stage of an accepted turn is prepared. Two
drains take them; the first prepares one of them, an event of that identity
comes in again with other content, and the second drain prepares both. -/
def overlappingDrains : List DeliveryAction :=
  acceptedRun ++ [DeliveryAction.observe "attempt-1" 4 (turnEvent "event-1" "first"),
      .observe "attempt-1" 5 (turnEvent "event-2" "second"), .prepared 0 6 (.ok []) (.ok ()),
      .drain "attempt-1", .drain "attempt-1",
      .prepared 1 7 (.ok [some [turnEvent "event-1" "first"], none]) (.ok ()),
      .observe "attempt-1" 8 (turnEvent "event-1" "third"),
      .prepared 2 9
        (.ok [some [turnEvent "event-1" "first"], some [turnEvent "event-2" "second"]]) (.ok ())]

/-- **An observation is handed on twice, and one is lost.** -/
theorem observation_lost : ∃ run s r, deliveryMachine.exec run deliveryMachine.init = some s ∧
      s.attempts.lookup "attempt-1" = some r ∧
      (r.history.handed.map Handing.source).count (turnEvent "event-1" "first") = 2 ∧
      turnEvent "event-1" "third" ∈ r.history.observed ∧
      turnEvent "event-1" "third" ∉ r.history.handed.map Handing.source ∧
      turnEvent "event-1" "third" ∉ r.staging.map StagedRow.envelope := by
  have hrun := @Machine.exec_eq_run _ _ deliveryMachine deliveryMachine.init overlappingDrains
    (by decide +kernel)
  have hlost : ((deliveryMachine.run overlappingDrains deliveryMachine.init).attempts.lookup
      "attempt-1").any (fun r => decide
        ((r.history.handed.map Handing.source).count (turnEvent "event-1" "first") = 2 ∧
          turnEvent "event-1" "third" ∈ r.history.observed ∧
          turnEvent "event-1" "third" ∉ r.history.handed.map Handing.source ∧
          turnEvent "event-1" "third" ∉ r.staging.map StagedRow.envelope)) = true := by
    decide +kernel
  obtain ⟨r, hr, hfacts⟩ := (Option.any_eq_true _ _).1 hlost
  rw [decide_eq_true_eq] at hfacts
  exact ⟨overlappingDrains, _, r, hrun, hr, hfacts⟩

/-- Events observed after the acceptance. -/
theorem observations_kept_accepted :
    let s := orderlyMachine.run
      (acceptedRun ++ [.observe "attempt-1" 4 (turnEvent "event-1" "first"),
      .prepared 0 6 (.ok []) (.ok ())]) orderlyMachine.init
    ∃ r, s.attempts.lookup "attempt-1" = some r ∧ r.staging.length = 1 ∧
      r.history.handed.map Handing.source ++ r.staging.map StagedRow.envelope =
        r.history.observed := by
  have hrun := @Machine.exec_eq_run _ _ orderlyMachine orderlyMachine.init
    (acceptedRun ++ [.observe "attempt-1" 4 (turnEvent "event-1" "first"),
      .prepared 0 6 (.ok []) (.ok ())]) (by decide +kernel)
  have hlength : ((orderlyMachine.run
      (acceptedRun ++ [.observe "attempt-1" 4 (turnEvent "event-1" "first"),
        .prepared 0 6 (.ok []) (.ok ())]) orderlyMachine.init).attempts.lookup "attempt-1").map
      (fun r => r.staging.length) = some 1 := by
    decide +kernel
  obtain ⟨r, hr, hone⟩ := Option.map_eq_some_iff.1 hlength
  exact ⟨r, hr, hone, (observations_kept ⟨_, hrun⟩ "attempt-1" r hr).1⟩

end Remux
