import Mathlib.Data.List.Basic

/-!
# Scripts and their calls

A script has a state of its own and calls on the outside, which may
answer each call as it likes, also with regard to all that was called
before. What a run of a script comes to is its result, the state it
leaves, and the calls it made; a script that has waited too long has no
result.

`Ensures` is the judgement: from a state, whatever the outside answers,
the run meets a postcondition on the three. The rules below go through a
script call by call.
-/

namespace Remux

/-- A call: the effect that was asked for, and the answer. -/
abbrev Call {E : Type} (Res : E → Type) := (e : E) × Res e

/-- The outside: an answer to each effect, after the calls made so far. -/
abbrev Outside {E : Type} (Res : E → Type) := List (Call Res) → (e : E) → Res e

/-- **A script**: under an outside, from a state and after some calls, it
has a result or none, a state, and the calls it made. -/
def Script {E : Type} (Res : E → Type) (σ α : Type) :=
  Outside Res → σ → List (Call Res) → Option α × σ × List (Call Res)

namespace Script

variable {E : Type} {Res : E → Type} {σ α β : Type}

/-- Nothing is called. -/
def ret (a : α) : Script Res σ α := fun _ s _ => (some a, s, [])

/-- One script and then another, on its result. -/
def andThen (m : Script Res σ α) (f : α → Script Res σ β) : Script Res σ β :=
  fun outside s calls =>
    match m outside s calls with
    | (some a, s', made) =>
      let (b, s'', further) := f a outside s' (calls ++ made)
      (b, s'', made ++ further)
    | (none, s', made) => (none, s', made)

instance : Monad (Script Res σ) where
  pure := ret
  bind := andThen

/-- Call on the outside. -/
def call (e : E) : Script Res σ (Res e) := fun outside s calls =>
  let answer := outside calls e
  (some answer, s, [⟨e, answer⟩])

/-- The state. -/
def get : Script Res σ σ := fun _ s _ => (some s, s, [])

/-- Change the state. -/
def modify (f : σ → σ) : Script Res σ Unit := fun _ s _ => (some (), f s, [])

/-- Wait no longer. -/
def giveUp : Script Res σ α := fun _ s _ => (none, s, [])

/-- **The judgement**: from the state, whatever the outside answers, the
run meets the postcondition on its result, its state and its calls. -/
def Ensures (m : Script Res σ α) (s : σ) (Q : Option α → σ → List (Call Res) → Prop) : Prop :=
  ∀ outside calls, Q (m outside s calls).1 (m outside s calls).2.1 (m outside s calls).2.2

variable {m : Script Res σ α} {f : α → Script Res σ β} {s : σ}
variable {Q Q' : Option α → σ → List (Call Res) → Prop}
variable {R : Option β → σ → List (Call Res) → Prop}

theorem Ensures.mono (h : m.Ensures s Q) (hQ : ∀ a s' made, Q a s' made → Q' a s' made) :
    m.Ensures s Q' :=
  fun outside calls => hQ _ _ _ (h outside calls)

theorem Ensures.and (h : m.Ensures s Q) (h' : m.Ensures s Q') :
    m.Ensures s fun a s' made => Q a s' made ∧ Q' a s' made :=
  fun outside calls => ⟨h outside calls, h' outside calls⟩

theorem ensures_pure {a : α} (h : Q (some a) s []) : (pure a : Script Res σ α).Ensures s Q :=
  fun _ _ => h

theorem ensures_giveUp (h : Q none s []) : (giveUp : Script Res σ α).Ensures s Q :=
  fun _ _ => h

/-- **The rule for one script after another**: the postcondition of the
whole is met by the calls of both. -/
theorem ensures_bind (h : m.Ensures s fun a s' made =>
      match a with
      | some a => (f a).Ensures s' fun b s'' further => R b s'' (made ++ further)
      | none => R none s' made) :
    (m >>= f).Ensures s R := by
  intro outside calls
  have hm := h outside calls
  show R (andThen m f outside s calls).1 (andThen m f outside s calls).2.1
    (andThen m f outside s calls).2.2
  unfold andThen
  rcases heq : m outside s calls with ⟨_ | a, s', made⟩
  · rw [heq] at hm
    exact hm
  · rw [heq] at hm
    exact hm outside (calls ++ made)

/-- The same, from what is known of the first script. -/
theorem Ensures.bind (h : m.Ensures s Q) (hnone : ∀ s' made, Q none s' made → R none s' made)
    (hsome : ∀ a s' made, Q (some a) s' made →
      (f a).Ensures s' fun b s'' further => R b s'' (made ++ further)) :
    (m >>= f).Ensures s R := by
  refine ensures_bind (h.mono fun a s' made hQ => ?_)
  rcases a with _ | a
  · exact hnone s' made hQ
  · exact hsome a s' made hQ

/-- The same, for a script that always has a result. -/
theorem Ensures.bind_some {P : α → σ → List (Call Res) → Prop}
    (h : m.Ensures s fun a s' made => ∃ a', a = some a' ∧ P a' s' made)
    (hf : ∀ a s' made, P a s' made →
      (f a).Ensures s' fun b s'' further => R b s'' (made ++ further)) :
    (m >>= f).Ensures s R := by
  refine ensures_bind (h.mono fun a s' made ha => ?_)
  obtain ⟨a, rfl, ha⟩ := ha
  exact hf a s' made ha

variable {e : E} {g : σ → σ}

/-- **The rule for a call**: the outside may give any answer. -/
theorem ensures_call {Q : Option (Res e) → σ → List (Call Res) → Prop}
    (h : ∀ answer, Q (some answer) s [⟨e, answer⟩]) : (call e : Script Res σ (Res e)).Ensures s Q :=
  fun outside calls => h (outside calls e)

/-- A call, and what follows it. -/
theorem ensures_call_bind {f : Res e → Script Res σ β}
    (h : ∀ answer, (f answer).Ensures s fun b s' further => R b s' (⟨e, answer⟩ :: further)) :
    (call e >>= f).Ensures s R :=
  ensures_bind (ensures_call h)

theorem ensures_get_bind {f : σ → Script Res σ β} (h : (f s).Ensures s R) :
    (get >>= f).Ensures s R :=
  ensures_bind fun _ _ => h

theorem ensures_modify_bind {f : Unit → Script Res σ β} (h : (f ()).Ensures (g s) R) :
    (modify g >>= f).Ensures s R :=
  ensures_bind fun _ _ => h

theorem ensures_modify {Q : Option Unit → σ → List (Call Res) → Prop} (h : Q (some ()) (g s) []) :
    (modify g : Script Res σ Unit).Ensures s Q :=
  fun _ _ => h

/-! ## What a script calls at most -/

/-- Every call of the script is of an effect of the kind. -/
def Calls (m : Script Res σ α) (p : E → Prop) : Prop :=
  ∀ s, m.Ensures s fun _ _ made => ∀ c ∈ made, p c.1

variable {p : E → Prop}

theorem calls_pure (a : α) : (pure a : Script Res σ α).Calls p :=
  fun _ => ensures_pure fun _ h => absurd h List.not_mem_nil

theorem calls_giveUp : (giveUp : Script Res σ α).Calls p :=
  fun _ => ensures_giveUp fun _ h => absurd h List.not_mem_nil

theorem calls_get : (get : Script Res σ σ).Calls p :=
  fun _ _ _ _ h => absurd h List.not_mem_nil

theorem calls_modify (g : σ → σ) : (modify g : Script Res σ Unit).Calls p :=
  fun _ => ensures_modify fun _ h => absurd h List.not_mem_nil

theorem calls_call (h : p e) : (call e : Script Res σ (Res e)).Calls p :=
  fun _ => ensures_call fun _ _ hc => List.mem_singleton.1 hc ▸ h

theorem Calls.bind (h : m.Calls p) (hf : ∀ a, (f a).Calls p) : (m >>= f).Calls p := by
  refine fun s => (h s).bind (fun _ _ hmade => hmade) fun a s' made hmade => ?_
  refine (hf a s').mono fun b s'' further hfurther c hc => ?_
  rcases List.mem_append.1 hc with hmem | hmem
  · exact hmade c hmem
  · exact hfurther c hmem

theorem Calls.mono {p' : E → Prop} (h : m.Calls p) (hp : ∀ e, p e → p' e) : m.Calls p' :=
  fun s => (h s).mono fun _ _ _ hmade c hc => hp c.1 (hmade c hc)

end Script

end Remux
