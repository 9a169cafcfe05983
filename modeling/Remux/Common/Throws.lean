import Mathlib.Logic.Basic

/-!
# Computations that may throw

A computation in `Except` is described by what holds of the value it
returns and of the error it throws. The rules go along its binds, so that
one walk over the code says all that it can do.
-/

namespace Remux

universe u v

variable {ε : Type u} {α β : Type v} {x : Except ε α} {Q Q' : α → Prop} {E E' : ε → Prop}

/-- **What a computation settles for**: `Q` holds of the value it returns,
and `E` of the error it throws. -/
def Settles (x : Except ε α) (Q : α → Prop) (E : ε → Prop) : Prop :=
  match x with
  | .ok a => Q a
  | .error e => E e

/-- Throw the error unless the condition holds. -/
def check (ok : Bool) (e : ε) : Except ε Unit := if ok then .ok () else .error e

variable {a : α} {e : ε} {f : α → Except ε β}

theorem Settles.ok (h : Settles x Q E) (hx : x = .ok a) : Q a := by
  rw [hx] at h
  exact h

theorem Settles.error (h : Settles x Q E) (hx : x = .error e) : E e := by
  rw [hx] at h
  exact h

theorem settles_pure (h : Q a) : Settles (pure a : Except ε α) Q E := h

theorem settles_throw (h : E e) : Settles (.error e : Except ε α) Q E := h

theorem Settles.mono (h : Settles x Q E) (hQ : ∀ a, Q a → Q' a) (hE : ∀ e, E e → E' e) :
    Settles x Q' E' := by
  cases x with
  | ok a => exact hQ a h
  | error e => exact hE e h

theorem Settles.and (h : Settles x Q E) (h' : Settles x Q' E) :
    Settles x (fun a => Q a ∧ Q' a) E := by
  cases x with
  | ok a => exact ⟨h, h'⟩
  | error e => exact h

/-- What a computation returns, it returns. -/
theorem settles_self : Settles x (fun a => x = .ok a) fun _ => True := by
  cases x with
  | ok a => rfl
  | error e => trivial

/-- **The rule for a bind.** -/
theorem settles_bind {R : β → Prop} (h : Settles x (fun a => Settles (f a) R E) E) :
    Settles (x >>= f) R E := by
  cases x with
  | ok | error => exact h

/-- **The rule for a check**: what comes after it may use the condition. -/
theorem settles_check {β : Type} {ok : Bool} {f : Unit → Except ε β} {R : β → Prop} (he : E e)
    (h : ok = true → Settles (f ()) R E) : Settles (check ok e >>= f) R E := by
  cases ok with
  | false => exact he
  | true => exact h rfl

/-- A branch of the code. -/
theorem settles_ite {c : Prop} [Decidable c] {y : Except ε α} (hx : c → Settles x Q E)
    (hy : ¬c → Settles y Q E) : Settles (if c then x else y) Q E := by
  split
  · next hc => exact hx hc
  · next hc => exact hy hc

/-! ## What a value that was returned says -/

theorem bind_eq_ok {b : β} : (x >>= f) = .ok b ↔ ∃ a, x = .ok a ∧ f a = .ok b := by
  cases x with
  | ok a => exact ⟨fun h => ⟨a, rfl, h⟩, fun ⟨_, ha, h⟩ => Except.ok.inj ha ▸ h⟩
  | error e => exact ⟨nofun, fun ⟨_, ha, _⟩ => (nomatch ha)⟩

theorem check_eq_ok {ok : Bool} {u : Unit} : check ok e = .ok u ↔ ok = true := by
  cases ok with
  | false => exact ⟨nofun, nofun⟩
  | true => exact ⟨fun _ => rfl, fun _ => rfl⟩

/-- A loop that returned has returned at every element. -/
theorem forM_eq_ok {γ : Type*} {f : γ → Except ε PUnit} {xs : List γ} {u : PUnit}
    (h : xs.forM f = .ok u) : ∀ c ∈ xs, ∃ v, f c = .ok v := by
  induction xs with
  | nil => exact fun c hc => absurd hc List.not_mem_nil
  | cons c xs ih =>
    obtain ⟨v, hc, hrest⟩ := bind_eq_ok.1 h
    intro c' hmem
    rcases List.mem_cons.1 hmem with rfl | hmem
    · exact ⟨v, hc⟩
    · exact ih hrest c' hmem

/-- A loop returns when it does at every element. -/
theorem forM_ok_of_forall {γ : Type*} {f : γ → Except ε PUnit} {xs : List γ}
    (h : ∀ c ∈ xs, ∃ v, f c = .ok v) : xs.forM f = .ok ⟨⟩ := by
  induction xs with
  | nil => rfl
  | cons c xs ih =>
    obtain ⟨v, hc⟩ := h c List.mem_cons_self
    change (f c >>= fun _ => xs.forM f) = .ok ⟨⟩
    rw [hc]
    exact ih fun c' hmem => h c' (List.mem_cons_of_mem _ hmem)

theorem toOption_eq_some : x.toOption = some a ↔ x = .ok a := by
  cases x with
  | ok b => exact ⟨fun h => congrArg _ (Option.some.inj h), fun h => congrArg _ (Except.ok.inj h)⟩
  | error e => exact ⟨nofun, nofun⟩

end Remux
