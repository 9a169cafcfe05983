import Mathlib.Data.List.Induction

/-!
# Machines and their runs

A machine is an initial state and a partial step: an action either
leads to one next state or is not allowed. The nondeterminism of a
concurrent program sits in the choice of the actions, so that a run is a
list of them and can be computed.

Two rules carry every invariant: `Reachable.rule` goes along the runs
from the initial state, and `Leads.rule` along the runs from a given
one. `restrict` is the machine whose every step meets a condition on the
state before it; a statement about the runs that stay clear of a defect
is a statement about its reachable states.
-/

namespace Remux

open Option

/-- **A machine**: where its runs start, and what an action does. -/
structure Machine (σ α : Type*) where
  /-- The state a run starts in. -/
  init : σ
  /-- The state an action leads to, if the state allows the action. -/
  step : σ → α → Option σ

namespace Machine

variable {σ α : Type*} (M : Machine σ α)

/-- The state a list of actions leads to. -/
def exec : List α → σ → Option σ
  | [], s => some s
  | a :: as, s => (M.step s a).bind (exec as)

/-- The state a run leads to; where it started, if it is no run. -/
def run (as : List α) (s : σ) : σ := (M.exec as s).getD s

/-- Some run leads from `s` to `t`. -/
def Leads (s t : σ) : Prop := ∃ as, M.exec as s = some t

/-- Some run from the initial state ends in `s`. -/
def Reachable (s : σ) : Prop := M.Leads M.init s

variable {M} {s t u : σ} {a : α} {as bs : List α}

@[simp] theorem exec_nil : M.exec [] s = some s := rfl

theorem exec_cons : M.exec (a :: as) s = (M.step s a).bind (M.exec as) := rfl

theorem exec_cons_eq_some :
    M.exec (a :: as) s = some t ↔ ∃ u, M.step s a = some u ∧ M.exec as u = some t :=
  bind_eq_some_iff

theorem exec_eq_run (h : (M.exec as s).isSome) : M.exec as s = some (M.run as s) := by
  obtain ⟨t, ht⟩ := isSome_iff_exists.1 h
  rw [run, ht, getD_some]

/-- A run of a concatenation is a run of the first part and then one of
the second. -/
theorem exec_append : M.exec (as ++ bs) s = (M.exec as s).bind (M.exec bs) := by
  induction as generalizing s with
  | nil => rfl
  | cons a as ih =>
    rw [List.cons_append, exec_cons, exec_cons]
    cases M.step s a with
    | none => rfl
    | some u => exact ih

theorem Leads.refl : M.Leads s s := ⟨[], rfl⟩

theorem Leads.head (h : M.step s a = some u) (h' : M.Leads u t) : M.Leads s t := by
  obtain ⟨as, has⟩ := h'
  exact ⟨a :: as, exec_cons_eq_some.2 ⟨u, h, has⟩⟩

theorem Leads.trans (h : M.Leads s t) (h' : M.Leads t u) : M.Leads s u := by
  obtain ⟨as, has⟩ := h
  obtain ⟨bs, hbs⟩ := h'
  exact ⟨as ++ bs, by rw [exec_append, has]; exact hbs⟩

theorem Leads.tail (h : M.Leads s t) (h' : M.step t a = some u) : M.Leads s u :=
  h.trans (Leads.head h' Leads.refl)

variable {P : σ → Prop}

/-- **The rule for runs from a state.** What holds there and is kept by
every step of the runs from it holds wherever they lead. -/
theorem Leads.rule (h : M.Leads s t) (hs : P s)
    (hstep : ∀ u a v, M.Leads s u → P u → M.step u a = some v → P v) : P t := by
  obtain ⟨as, has⟩ := h
  suffices ∀ as u, M.Leads s u → P u → M.exec as u = some t → P t from
    this as s Leads.refl hs has
  intro as
  induction as with
  | nil =>
    intro u _ hu hrun
    exact some.inj hrun ▸ hu
  | cons a as ih =>
    intro u hsu hu hrun
    obtain ⟨v, hv, hrest⟩ := exec_cons_eq_some.1 hrun
    exact ih v (hsu.tail hv) (hstep u a v hsu hu hv) hrest

theorem Reachable.init : M.Reachable M.init := Leads.refl

theorem Reachable.step (h : M.Reachable s) (h' : M.step s a = some t) : M.Reachable t :=
  Leads.tail h h'

theorem Reachable.leads (h : M.Reachable s) (h' : M.Leads s t) : M.Reachable t :=
  Leads.trans h h'

/-- **The invariant rule.** What holds initially and is kept by every
step from a reachable state holds in every reachable state. -/
theorem Reachable.rule (h : M.Reachable s) (hinit : P M.init)
    (hstep : ∀ u a v, M.Reachable u → P u → M.step u a = some v → P v) : P s :=
  Leads.rule h hinit hstep

/-- **The rule for what was done.** What holds initially of no actions, and
is kept when a run goes on by one, holds of every run and its actions. -/
theorem exec_rule {P : List α → σ → Prop} (h : M.exec as M.init = some s) (hinit : P [] M.init)
    (hstep : ∀ as u a v, M.exec as M.init = some u → P as u → M.step u a = some v →
      P (as ++ [a]) v) : P as s := by
  induction as using List.reverseRecOn generalizing s with
  | nil => exact some.inj h ▸ hinit
  | append_singleton as a ih =>
    obtain ⟨u, hu, hlast⟩ := bind_eq_some_iff.1 (exec_append.symm.trans h)
    obtain ⟨v, hv, hnil⟩ := exec_cons_eq_some.1 hlast
    obtain rfl := some.inj hnil
    exact hstep as u a v hu (ih hu) hv

/-! ## Runs whose steps meet a condition -/

variable (C : σ → α → Prop) [∀ s a, Decidable (C s a)]

variable (M) in
/-- **The machine restricted to a condition** on the state before a step
and the action taken there. -/
def restrict : Machine σ α where
  init := M.init
  step s a := if C s a then M.step s a else none

variable {C}

@[simp] theorem restrict_init : (M.restrict C).init = M.init := rfl

theorem restrict_step_eq_some : (M.restrict C).step s a = some t ↔ C s a ∧ M.step s a = some t := by
  by_cases h : C s a <;> simp [restrict, h]

/-- A restricted run is a run. -/
theorem Leads.of_restrict (h : (M.restrict C).Leads s t) : M.Leads s t :=
  h.rule Leads.refl fun _ _ _ _ hu hv => hu.tail (restrict_step_eq_some.1 hv).2

theorem Reachable.of_restrict (h : (M.restrict C).Reachable s) : M.Reachable s :=
  Leads.of_restrict h

/-- A restricted run is a run, of the same actions. -/
theorem exec_of_restrict (h : (M.restrict C).exec as s = some t) : M.exec as s = some t := by
  induction as generalizing s with
  | nil => exact h
  | cons a as ih =>
    obtain ⟨u, hu, has⟩ := exec_cons_eq_some.1 h
    exact exec_cons_eq_some.2 ⟨u, (restrict_step_eq_some.1 hu).2, ih has⟩

/-- **An exact condition.** If a step of the restricted machine keeps `P`
just when it meets the condition, `P` holds all along a run just when every
step of the run meets it. By induction on the run, from its end. -/
theorem holds_along_iff (hinit : P M.init)
    (hstep : ∀ u a v, (M.restrict C).Reachable u → M.step u a = some v → (P v ↔ C u a))
    (h : M.exec as M.init = some s) :
    (∀ bs t, bs <+: as → M.exec bs M.init = some t → P t) ↔
      (M.restrict C).exec as M.init = some s := by
  induction as using List.reverseRecOn generalizing s with
  | nil =>
    refine ⟨fun _ => h, fun _ bs t hbs ht => ?_⟩
    obtain rfl := List.prefix_nil.1 hbs
    exact some.inj ht ▸ hinit
  | append_singleton as a ih =>
    rw [exec_append] at h ⊢
    obtain ⟨u, hu, hlast⟩ := bind_eq_some_iff.1 h
    obtain ⟨v, hv, hnil⟩ := exec_cons_eq_some.1 hlast
    obtain rfl := some.inj hnil
    constructor
    · intro hall
      have hrun := (ih hu).1 fun bs t hbs => hall bs t (hbs.trans (List.prefix_append _ _))
      have hP : P v := hall _ v List.prefix_rfl (by rw [exec_append, hu]; exact hlast)
      have hC := (hstep u a v ⟨as, hrun⟩ hv).1 hP
      rw [hrun]
      exact exec_cons_eq_some.2 ⟨v, restrict_step_eq_some.2 ⟨hC, hv⟩, rfl⟩
    · intro hrun bs t hbs ht
      obtain ⟨w, hw, hlast'⟩ := bind_eq_some_iff.1 hrun
      obtain rfl := some.inj ((exec_of_restrict hw).symm.trans hu)
      obtain ⟨x, hx, -⟩ := exec_cons_eq_some.1 hlast'
      rcases List.prefix_concat_iff.1 hbs with rfl | hbs
      · rw [exec_append, hu] at ht
        cases hlast.symm.trans ht
        exact (hstep w a v ⟨as, hw⟩ hv).2 (restrict_step_eq_some.1 hx).1
      · exact (ih hu).2 hw bs t hbs ht

end Machine

end Remux
