import Remux.Common.Lists
import Remux.Extensions.Model.Gateways

/-!
# The gateway follows the generation of the process

A generation is prepared before its child is spawned, made active from
there only, and retired when the child is gone, so that what is in the slot
is of the child, or about to be retired (`Slotted`). The readiness that is
stored comes after the activation, in a step of its own: a reader that
stands between the two while the actor clears the readiness stores it
again, for a generation that is no longer active. `Uncrossed` leaves that
out.
-/

namespace Remux

open List hiding getElem?_eq_some_iff

namespace Extensions

namespace ExtensionGateway

open Option

variable {s s' : ExtensionGateway}

/-- The actor clears the readiness while no reader stands between its
activation and its store. -/
def Uncrossed (s : ExtensionGateway) : GatewayAction → Prop
  | .actor _ => s.ops.head? = some .clearReady → ∀ reader ∈ s.readers, reader.phase ≠ .activated
  | _ => True

instance (s : ExtensionGateway) (action : GatewayAction) : Decidable (Uncrossed s action) := by
  unfold Uncrossed
  split <;> infer_instance

/-! ## The slot -/

/-- **What is in the slot**: a generation that was not retired, of the
child or of a procedure that is about to retire it or to spawn its
child. -/
structure Slotted (s : ExtensionGateway) : Prop where
  ops : s.ops <:+ spawnOps ∨ s.ops <:+ unspawnOps s.generation ∨
    s.ops <:+ exitOps s.generation ∨ s.ops <:+ stopOps s.generation
  child : ∀ {g}, s.child = some g →
    g = s.generation ∧ (s.ops = [] ∨ s.ops = exitOps s.generation)
  prepared : ∀ {g}, s.prepared = some g → g = s.generation ∧ g ∉ s.retired ∧ (s.child = some g ∨
    s.ops = (exitOps s.generation).tail ∨ s.ops = [.spawn] ∨ s.ops = unspawnOps s.generation)
  active : ∀ {g}, s.active = some g → g = s.generation ∧ g ∉ s.retired ∧
    (s.child = some g ∨ s.ops = (exitOps s.generation).tail)
  retired : ∀ g ∈ s.retired, g ≤ s.generation
  unused : s.ops = [.prepare, .spawn] → s.generation ∉ s.retired
  readers : ∀ reader ∈ s.readers, reader.generation ≤ s.generation
  unread : s.ops = [.prepare, .spawn] ∨ s.ops = [.spawn] ∨ s.ops = unspawnOps s.generation →
    ∀ reader ∈ s.readers, reader.generation < s.generation
  requests : ∀ request ∈ s.requests, request.retired = false ∧
    (s.active = some request.generation ∨ request.generation ∈ s.cancelled)

variable {op : GatewayOp} {r i : ℕ} {reader : StdoutReader} {isPrivate : Bool} {phase : ReaderPhase}
variable {f : GatewayRequest → RequestPhase} {action : GatewayAction}

variable (h : s.Slotted)
include h

variable {ops : List GatewayOp}

/-- What is left of the actor's procedure, by its next access. -/
theorem Slotted.ops_eq (hops : s.ops = op :: ops) : match op with
    | .clearReady => ops = spawnOps.tail ∨ ops = [.cleanup s.generation, .nextGeneration] ∨
        ops = [.cleanup s.generation]
    | .nextGeneration => ops = [.prepare, .spawn] ∨ ops = []
    | .prepare => ops = [.spawn]
    | .spawn => ops = []
    | .takeChild => ops = (exitOps s.generation).tail
    | .retire g => g = s.generation ∧ (ops = [.cleanup s.generation] ∨
        ops = [.clearReady, .cleanup s.generation, .nextGeneration] ∨
        ops = [.clearReady, .cleanup s.generation])
    | .cleanup _ => ops = [] ∨ ops = [.nextGeneration] := by
  have hform := h.ops
  rw [hops] at hform
  cases op <;> simp [spawnOps, unspawnOps, exitOps, stopOps, suffix_cons_iff] at hform ⊢ <;> grind

/-- Where neither the slot nor the child nor the procedure changes, it is
enough to look at the readers and the requests. -/
theorem Slotted.congr (hgen : s'.generation = s.generation)
    (hops : s'.ops = s.ops) (hch : s'.child = s.child) (hprep : s'.prepared = s.prepared)
    (hact : s'.active = s.active) (hretired : s'.retired = s.retired)
    (hreaders : ∀ reader ∈ s'.readers, ∃ old ∈ s.readers, reader.generation = old.generation)
    (hrequests : ∀ request ∈ s'.requests, request.retired = false ∧
      (s.active = some request.generation ∨ request.generation ∈ s'.cancelled)) : s'.Slotted where
  ops := by
    rw [hops, hgen]
    exact h.ops
  child := by
    rw [hops, hgen, hch]
    exact h.child
  prepared := by
    rw [hops, hgen, hch, hprep, hretired]
    exact h.prepared
  active := by
    rw [hops, hgen, hch, hact, hretired]
    exact h.active
  retired := by
    rw [hretired, hgen]
    exact h.retired
  unused := by
    rw [hops, hretired, hgen]
    exact h.unused
  readers := by
    rw [hgen]
    intro reader hrd
    obtain ⟨old, hold, heq⟩ := hreaders reader hrd
    exact heq ▸ h.readers old hold
  unread := by
    rw [hops, hgen]
    intro hstg reader hrd
    obtain ⟨old, hold, heq⟩ := hreaders reader hrd
    exact heq ▸ h.unread hstg old hold
  requests := by
    rw [hact]
    exact hrequests

/-- The readers' generations stay what they are. -/
theorem Slotted.setReader (hrd : reader ∈ s.readers) (phase : ReaderPhase) :
    (s.setReader r reader phase).Slotted := by
  refine h.congr rfl rfl rfl rfl rfl rfl (fun other hne => ?_) h.requests
  rcases mem_or_eq_of_mem_set hne with hold | rfl
  · exact ⟨other, hold, rfl⟩
  · exact ⟨reader, hrd, rfl⟩

/-- **An activation** moves what is prepared, and that is of the child: of
a child that is still to be spawned there is no reader. -/
theorem Slotted.activateGeneration (hrd : reader ∈ s.readers)
    (hactv : s.activateGeneration reader.generation isPrivate = some s') : s'.Slotted := by
  unfold ExtensionGateway.activateGeneration at hactv
  obtain ⟨hready, ⟨⟩⟩ := ite_none_right_eq_some.1 hactv
  obtain ⟨hcur, hnew, hstg⟩ := h.prepared hready.1
  have hown : s.child = some reader.generation ∨ s.ops = (exitOps s.generation).tail := by
    rcases hstg with hch | hexit | hspawn | hunspawn
    · exact .inl hch
    · exact .inr hexit
    · exact absurd hcur (Nat.ne_of_lt (h.unread (.inr (.inl hspawn)) reader hrd))
    · exact absurd hcur (Nat.ne_of_lt (h.unread (.inr (.inr hunspawn)) reader hrd))
  refine { h with prepared := nofun, active := fun hg => ?_, requests := fun request hreq => ?_ }
  · cases hg
    exact ⟨hcur, hnew, hown⟩
  · obtain ⟨hearly, hact | hcanc⟩ := h.requests request hreq
    · refine ⟨hearly, .inr ?_⟩
      rw [hact]
      exact mem_cons_self
    · exact ⟨hearly, .inr (mem_append_right _ hcanc)⟩

/-- Only a procedure that begins finds a child. -/
theorem Slotted.child_eq_none (hops : s.ops = op :: ops)
    (hop : op ≠ .takeChild) : s.child = none := by
  cases hch : s.child with
  | none => rfl
  | some g =>
    rcases (h.child hch).2 with hidle | hexit
    · rw [hops] at hidle
      cases hidle
    · rw [hops, exitOps, cons.injEq] at hexit
      exact absurd hexit.1 hop

/-- The slot is empty but before a retirement and before a spawn. -/
theorem Slotted.slot_eq_none (hops : s.ops = op :: ops)
    (hop : op ≠ .takeChild) (hretire : ∀ g, op ≠ .retire g) :
    s.active = none ∧ (op ≠ .spawn → s.prepared = none) := by
  have hch := h.child_eq_none hops hop
  have hexit : s.ops ≠ (exitOps s.generation).tail := by
    rw [hops]
    rintro ⟨⟩
    exact hretire _ rfl
  constructor
  · cases hact : s.active with
    | none => rfl
    | some g =>
      obtain ⟨-, -, hch' | hexit'⟩ := h.active hact
      · rw [hch] at hch'
        cases hch'
      · exact absurd hexit' hexit
  · intro hspawn
    cases hprep : s.prepared with
    | none => rfl
    | some g =>
      obtain ⟨-, -, hch' | hexit' | hstg | hunspawn⟩ := h.prepared hprep
      · rw [hch] at hch'
        cases hch'
      · exact absurd hexit' hexit
      · rw [hops, cons.injEq] at hstg
        exact absurd hstg.1 hspawn
      · rw [hops, unspawnOps, cons.injEq] at hunspawn
        exact absurd hunspawn.1 (hretire _)

omit h

/-- With an empty slot and no child, it is enough to look at the numbers,
the readers and the requests. -/
theorem Slotted.of_empty (hops : s'.ops <:+ spawnOps ∨ s'.ops <:+ unspawnOps s'.generation ∨
      s'.ops <:+ exitOps s'.generation ∨ s'.ops <:+ stopOps s'.generation)
    (hch : s'.child = none) (hprep : s'.prepared = none) (hact : s'.active = none)
    (hretired : ∀ g ∈ s'.retired, g ≤ s'.generation)
    (hunused : s'.ops = [.prepare, .spawn] → s'.generation ∉ s'.retired)
    (hreaders : ∀ reader ∈ s'.readers, reader.generation ≤ s'.generation)
    (hunread : s'.ops = [.prepare, .spawn] ∨ s'.ops = [.spawn] ∨
      s'.ops = unspawnOps s'.generation → ∀ reader ∈ s'.readers, reader.generation < s'.generation)
    (hrequests : ∀ request ∈ s'.requests, request.retired = false ∧
      (s'.active = some request.generation ∨ request.generation ∈ s'.cancelled)) : s'.Slotted where
  ops := hops
  child h := by
    rw [hch] at h
    cases h
  prepared h := by
    rw [hprep] at h
    cases h
  active h := by
    rw [hact] at h
    cases h
  retired := hretired
  unused := hunused
  readers := hreaders
  unread := hunread
  requests := hrequests

/-- The rest of a procedure is the rest of a procedure. -/
theorem Slotted.ops_tail (h : s.Slotted) (hops : s.ops = op :: ops) :
    ops <:+ spawnOps ∨ ops <:+ unspawnOps s.generation ∨
      ops <:+ exitOps s.generation ∨ ops <:+ stopOps s.generation := by
  have hform := h.ops
  rw [hops] at hform
  have htail := suffix_cons op ops
  exact hform.imp htail.trans (Or.imp htail.trans (Or.imp htail.trans htail.trans))

/-- **The actor's next access keeps the slot.** -/
theorem Slotted.actorStep (h : s.Slotted) {succeeds : Bool}
    (hstep : s.actorStep succeeds = some s') : s'.Slotted := by
  unfold ExtensionGateway.actorStep at hstep
  split at hstep
  · cases hstep
  · -- The readiness is cleared.
    next ops hops =>
    cases hstep
    obtain ⟨hact, hprep⟩ := h.slot_eq_none hops nofun nofun
    have hrest := h.ops_eq hops
    refine .of_empty (h.ops_tail hops) (h.child_eq_none hops nofun) (hprep nofun) hact
      h.retired ?_ h.readers ?_ h.requests
    · rcases hrest with rfl | rfl | rfl <;> nofun
    · rcases hrest with rfl | rfl | rfl <;> rintro (hstg | hstg | hstg) <;> cases hstg
  · -- The gen is the next.
    next ops hops =>
    cases hstep
    obtain ⟨hact, hprep⟩ := h.slot_eq_none hops nofun nofun
    have hretired : ∀ g ∈ s.retired, g < s.generation + 1 := fun g hg =>
      Nat.lt_succ_of_le (h.retired g hg)
    have hreaders : ∀ reader ∈ s.readers, reader.generation < s.generation + 1 :=
      fun reader hrd => Nat.lt_succ_of_le (h.readers reader hrd)
    refine .of_empty ?_ (h.child_eq_none hops nofun) (hprep nofun) hact
      (fun g hg => (hretired g hg).le) (fun _ hmem => Nat.lt_irrefl _ (hretired _ hmem))
      (fun reader hrd => (hreaders reader hrd).le) (fun _ => hreaders) h.requests
    rcases h.ops_eq hops with rfl | rfl
    · have hprepare : [GatewayOp.prepare, .spawn] <:+ spawnOps := by decide
      exact .inl hprepare
    · exact .inl nil_suffix
  · -- The gen is prepared.
    next ops hops =>
    obtain ⟨hact, hprep⟩ := h.slot_eq_none hops nofun nofun
    obtain rfl : ops = [.spawn] := h.ops_eq hops
    have hch := h.child_eq_none hops nofun
    have hunread := h.unread (.inl hops)
    split at hstep
    · next prepared hprepare =>
      cases hstep
      cases (ite_none_right_eq_some.1 hprepare).2
      have hspawn : [GatewayOp.spawn] <:+ spawnOps := by decide
      refine ⟨.inl hspawn, fun hg => ?_, fun hg => ?_, fun hg => ?_, h.retired, nofun,
        h.readers, fun _ => hunread, fun request hreq => ?_⟩
      · exact absurd (hch.symm.trans hg) nofun
      · cases hg
        exact ⟨rfl, h.unused hops, .inr (.inr (.inl rfl))⟩
      · exact absurd (hact.symm.trans hg) nofun
      · obtain ⟨hearly, hof⟩ := h.requests request hreq
        exact ⟨hearly, hof.imp_right (mem_append_right _)⟩
    · cases hstep
      exact .of_empty (.inl nil_suffix) hch (hprep nofun) hact h.retired nofun
        h.readers (fun _ => hunread) h.requests
  · -- The child is spawned.
    next ops hops =>
    obtain ⟨hact, -⟩ := h.slot_eq_none hops nofun nofun
    obtain rfl : ops = [] := h.ops_eq hops
    have hch := h.child_eq_none hops nofun
    have hunread := h.unread (.inr (.inl hops))
    split at hstep
    · cases hstep
      refine ⟨.inl nil_suffix, fun hg => ?_, fun hg => ?_, fun hg => ?_, h.retired, nofun,
        fun reader hrd => ?_, nofun, h.requests⟩
      · exact ⟨(some.inj hg).symm, .inl rfl⟩
      · obtain ⟨rfl, hfresh, -⟩ := h.prepared hg
        exact ⟨rfl, hfresh, .inl rfl⟩
      · exact absurd (hact.symm.trans hg) nofun
      · rcases mem_concat.1 hrd with hold | hnew
        · exact h.readers reader hold
        · rw [hnew]
    · cases hstep
      refine ⟨.inr (.inl suffix_rfl), fun hg => ?_, fun hg => ?_, fun hg => ?_, h.retired,
        nofun, h.readers, fun _ => hunread, h.requests⟩
      · exact absurd (hch.symm.trans hg) nofun
      · obtain ⟨rfl, hfresh, -⟩ := h.prepared hg
        exact ⟨rfl, hfresh, .inr (.inr (.inr rfl))⟩
      · exact absurd (hact.symm.trans hg) nofun
  · -- The child is taken.
    next ops hops =>
    cases hstep
    obtain rfl : ops = (exitOps s.generation).tail := h.ops_eq hops
    refine ⟨h.ops_tail hops, nofun, fun hg => ?_, fun hg => ?_, h.retired, nofun, h.readers,
      ?_, h.requests⟩
    · obtain ⟨rfl, hfresh, -⟩ := h.prepared hg
      exact ⟨rfl, hfresh, .inr (.inl rfl)⟩
    · obtain ⟨rfl, hfresh, -⟩ := h.active hg
      exact ⟨rfl, hfresh, .inr rfl⟩
    · rintro (hstg | hstg | hstg) <;> cases hstg
  · -- A gen is retired.
    next g ops hops =>
    cases hstep
    obtain ⟨rfl, hrest⟩ := h.ops_eq hops
    have hprep : s.prepared.filter (· ≠ s.generation) = none := by
      rw [filter_eq_none_iff]
      intro g hg
      rw [(h.prepared hg).1, decide_eq_true_iff, not_not]
    have hact : s.active.filter (· ≠ s.generation) = none := by
      rw [filter_eq_none_iff]
      intro g hg
      rw [(h.active hg).1, decide_eq_true_iff, not_not]
    refine .of_empty (h.ops_tail hops) (h.child_eq_none hops nofun) hprep hact
      (fun g hg => ?_) ?_ h.readers ?_ fun request hreq => ?_
    · rcases mem_cons.1 hg with rfl | hg
      · exact le_rfl
      · exact h.retired g hg
    · rcases hrest with rfl | rfl | rfl <;> nofun
    · rcases hrest with rfl | rfl | rfl <;> rintro (hstg | hstg | hstg) <;> cases hstg
    · obtain ⟨hearly, hof | hof⟩ := h.requests request hreq
      · refine ⟨hearly, .inr ?_⟩
        refine mem_append_left _ (mem_append_right _ ?_)
        rw [hof, filter_some, if_pos (decide_eq_true (h.active hof).1)]
        exact mem_cons_self
      · exact ⟨hearly, .inr (mem_append_right _ hof)⟩
  · -- A socket is removed.
    next g ops hops =>
    cases hstep
    obtain ⟨hact, hprep⟩ := h.slot_eq_none hops nofun nofun
    have hrest := h.ops_eq hops
    refine .of_empty (h.ops_tail hops) (h.child_eq_none hops nofun) (hprep nofun) hact
      h.retired ?_ h.readers ?_ h.requests
    · rcases hrest with rfl | rfl <;> nofun
    · rcases hrest with rfl | rfl <;> rintro (hstg | hstg | hstg) <;> cases hstg

/-- What a reader does, from the phase it is in. -/
theorem readerStep_eq_some {f : StdoutReader → ExtensionGateway} :
    s.readerStep r phase f = some s' ↔
      ∃ reader, s.readers[r]? = some reader ∧ reader.phase = phase ∧ f reader = s' := by
  unfold readerStep
  split
  · next reader hrd =>
    rw [hrd]
    constructor
    · intro h
      split at h
      · next hph => exact ⟨reader, rfl, hph, some.inj h⟩
      · cases h
    · rintro ⟨_, heq, hph, rfl⟩
      cases heq
      rw [if_pos hph]
  · next hnone =>
    rw [hnone]
    constructor <;> nofun

/-- A request that goes on keeps what it took. -/
theorem Slotted.requestStep (h : s.Slotted) {phase : RequestPhase}
    (hstep : s.requestStep i phase f = some s') :
    s'.Slotted := by
  unfold ExtensionGateway.requestStep at hstep
  split at hstep
  · next request hreq =>
    cases (ite_none_right_eq_some.1 hstep).2
    refine h.congr rfl rfl rfl rfl rfl rfl (fun reader hrd => ⟨reader, hrd, rfl⟩)
      fun other hne => ?_
    rcases mem_or_eq_of_mem_set hne with hold | rfl
    · exact h.requests other hold
    · exact h.requests request (mem_of_getElem? hreq)
  · cases hstep

/-- Where no child is and no procedure runs, nothing is in the slot. -/
theorem Slotted.slot_eq_none_of_idle (h : s.Slotted) (hidle : s.ops = [])
    (hch : s.child = none) : s.active = none ∧ s.prepared = none := by
  have hexit : s.ops ≠ (exitOps s.generation).tail := by
    rw [hidle]
    nofun
  constructor
  · cases hact : s.active with
    | none => rfl
    | some g =>
      obtain ⟨-, -, hof | hof⟩ := h.active hact
      · cases hch.symm.trans hof
      · exact absurd hof hexit
  · cases hprep : s.prepared with
    | none => rfl
    | some g =>
      obtain ⟨-, -, hof | hof | hof | hof⟩ := h.prepared hprep
      · cases hch.symm.trans hof
      · exact absurd hof hexit
      all_goals cases hidle.symm.trans hof

/-- An activation leaves the readers. -/
theorem readers_of_activateGeneration {g : ℕ} (h : s.activateGeneration g isPrivate = some s') :
    s'.readers = s.readers := by
  unfold activateGeneration at h
  cases (ite_none_right_eq_some.1 h).2
  rfl

/-- **Every step keeps the slot.** -/
theorem Slotted.gatewayStep (h : s.Slotted) (hstep : s.gatewayStep action = some s') :
    s'.Slotted := by
  cases action with
  | spawn =>
    obtain ⟨⟨hidle, hch⟩, hs'⟩ := ite_none_right_eq_some.1 hstep
    cases hs'
    obtain ⟨hact, hprep⟩ := h.slot_eq_none_of_idle hidle hch
    exact .of_empty (.inl suffix_rfl) hch hprep hact h.retired nofun h.readers
      (by rintro (hstg | hstg | hstg) <;> cases hstg) h.requests
  | exit =>
    obtain ⟨⟨hidle, hch⟩, hs'⟩ := ite_none_right_eq_some.1 hstep
    cases hs'
    refine ⟨.inr (.inr (.inl suffix_rfl)), fun hg => ⟨(h.child hg).1, .inr rfl⟩,
      fun hg => ?_, fun hg => ?_, h.retired, nofun, h.readers, ?_, h.requests⟩
    · obtain ⟨hcur, hfresh, hof⟩ := h.prepared hg
      rw [hidle] at hof
      exact ⟨hcur, hfresh, .inl (hof.resolve_right (by rintro (hof | hof | hof) <;> cases hof))⟩
    · obtain ⟨hcur, hfresh, hof⟩ := h.active hg
      rw [hidle] at hof
      exact ⟨hcur, hfresh, .inl (hof.resolve_right nofun)⟩
    · rintro (hstg | hstg | hstg) <;> cases hstg
  | stop =>
    obtain ⟨⟨hidle, hch⟩, hs'⟩ := ite_none_right_eq_some.1 hstep
    cases hs'
    obtain ⟨hact, hprep⟩ := h.slot_eq_none_of_idle hidle hch
    exact .of_empty (.inr (.inr (.inr suffix_rfl))) hch hprep hact h.retired nofun
      h.readers (by rintro (hstg | hstg | hstg) <;> cases hstg) h.requests
  | actor succeeds => exact h.actorStep hstep
  | listen r =>
    obtain ⟨reader, -, rfl⟩ := map_eq_some_iff.1 hstep
    exact h.congr rfl rfl rfl rfl rfl rfl (fun reader hrd => ⟨reader, hrd, rfl⟩) h.requests
  | line r =>
    obtain ⟨reader, hrd, -, rfl⟩ := readerStep_eq_some.1 hstep
    split
    · exact h
    · exact h.setReader (mem_of_getElem? hrd) .checked
  | activate r isPrivate =>
    obtain ⟨reader, hrd, -, hs'⟩ := readerStep_eq_some.1 hstep
    have hmem := mem_of_getElem? hrd
    split at hs' <;> subst hs'
    · next activated hactv =>
      refine (h.activateGeneration hmem hactv).setReader ?_ .activated
      rw [readers_of_activateGeneration hactv]
      exact hmem
    · exact h.setReader hmem .idle
  | storeReady r =>
    obtain ⟨reader, hrd, -, rfl⟩ := readerStep_eq_some.1 hstep
    have hset := h.setReader (r := r) (mem_of_getElem? hrd) .idle
    exact hset.congr rfl rfl rfl rfl rfl rfl (fun other hne => ⟨other, hne, rfl⟩) hset.requests
  | request =>
    unfold ExtensionGateway.gatewayStep at hstep
    dsimp only at hstep
    split at hstep
    · next g hact =>
      cases hstep
      refine h.congr rfl rfl rfl rfl rfl rfl (fun reader hrd => ⟨reader, hrd, rfl⟩)
        fun request hreq => ?_
      rcases mem_concat.1 hreq with hold | rfl
      · exact h.requests request hold
      · refine ⟨?_, .inl hact⟩
        rw [contains_eq_mem, decide_eq_false_iff_not]
        exact (h.active hact).2.1
    · cases hstep
      exact h
  | check | send => exact h.requestStep hstep

/-- Nothing is in the slot before the first child. -/
theorem Slotted.init : (init : ExtensionGateway).Slotted :=
  .of_empty (.inl nil_suffix) rfl rfl rfl nofun nofun nofun (fun _ => nofun) nofun

theorem slotted (h : gatewayMachine.Reachable s) : s.Slotted :=
  h.rule .init fun _ _ _ _ hslot hstep => hslot.gatewayStep hstep

/-! ## The readiness -/

/-- **What the readiness follows**: unless the actor is about to clear it,
a stored one is of the active generation, and so is a reader that is about
to store it; and an active generation was stored or is about to be. -/
structure Announced (s : ExtensionGateway) : Prop where
  positive : s.prepared ≠ none ∨ s.ops.head? = some .prepare → 0 < s.generation
  reader : ∀ reader ∈ s.readers, reader.phase = .activated →
    s.active = some reader.generation ∨ s.ops.head? = some .clearReady
  stored : s.gatewayReadyGeneration ≠ 0 →
    s.active = some s.gatewayReadyGeneration ∨ s.ops.head? = some .clearReady
  active : ∀ {g}, s.active = some g → 0 < g ∧ (s.gatewayReadyGeneration = g ∨
    ∃ reader ∈ s.readers, reader.generation = g ∧ reader.phase = .activated)

/-- Where the same readers stand between activation and store, and neither
the readiness nor what is active changes, only the rest of the procedure
matters. -/
theorem Announced.congr (h : s.Announced)
    (hpositive : s'.prepared ≠ none ∨ s'.ops.head? = some .prepare → 0 < s'.generation)
    (hops : s.ops.head? = some .clearReady → s'.ops.head? = some .clearReady)
    (hact : s'.active = s.active)
    (hready : s'.gatewayReadyGeneration = s.gatewayReadyGeneration)
    (hreaders : ∀ reader : StdoutReader, reader.phase = .activated →
      (reader ∈ s'.readers ↔ reader ∈ s.readers)) : s'.Announced where
  positive := hpositive
  reader reader hrd hph := by
    rw [hact]
    exact (h.reader reader ((hreaders reader hph).1 hrd) hph).imp_right hops
  stored := by
    rw [hready, hact]
    exact fun hstore => (h.stored hstore).imp_right hops
  active hg := by
    rw [hact] at hg
    rw [hready]
    obtain ⟨hpos, hof⟩ := h.active hg
    refine ⟨hpos, hof.imp_right ?_⟩
    rintro ⟨reader, hrd, hgen, hph⟩
    exact ⟨reader, (hreaders reader hph).2 hrd, hgen, hph⟩

/-- A reader that goes on to a phase leaves those in any other but the
one it was in. -/
theorem mem_setReader {other : StdoutReader} (hrd : s.readers[r]? = some reader)
    (hfrom : other.phase ≠ reader.phase) (hto : other.phase ≠ phase) :
    other ∈ (s.setReader r reader phase).readers ↔ other ∈ s.readers := by
  constructor
  · intro h
    rcases mem_or_eq_of_mem_set h with hold | rfl
    · exact hold
    · exact absurd rfl hto
  · intro h
    obtain ⟨j, hj⟩ := mem_iff_getElem?.1 h
    refine mem_iff_getElem?.2 ⟨j, ?_⟩
    show (s.readers.set r { reader with phase })[j]? = some other
    rw [getElem?_set_ne, hj]
    rintro rfl
    rw [hrd] at hj
    exact hfrom (congrArg StdoutReader.phase (some.inj hj).symm)

/-- A reader that is not between activation and store may come and go. -/
theorem Announced.setReader (h : s.Announced) (hrd : s.readers[r]? = some reader)
    (hfrom : reader.phase ≠ .activated) (hto : phase ≠ .activated) :
    (s.setReader r reader phase).Announced :=
  h.congr h.positive id rfl rfl fun _ hne =>
    mem_setReader hrd (fun heq => hfrom (heq ▸ hne)) fun heq => hto (heq ▸ hne)

/-- Where nothing is active and either the actor is about to clear the
readiness or there is none and no reader is about to store one, nothing is
left to say. -/
theorem Announced.of_inactive
    (hpos : s.prepared ≠ none ∨ s.ops.head? = some .prepare → 0 < s.generation)
    (hact : s.active = none)
    (hclr : s.ops.head? = some .clearReady ∨ s.gatewayReadyGeneration = 0 ∧
      ∀ reader ∈ s.readers, reader.phase ≠ .activated) : s.Announced where
  positive := hpos
  reader reader hrd hph :=
    .inr (hclr.resolve_right fun hnone => hnone.2 reader hrd hph)
  stored hstore := .inr (hclr.resolve_right fun hnone => hstore hnone.1)
  active hg := by
    rw [hact] at hg
    cases hg

/-- **The actor's next access keeps the readiness**, where it clears it
while no reader is about to store it. -/
theorem Announced.actorStep (h : s.Announced) (hslot : s.Slotted) {succeeds : Bool}
    (huncr : s.Uncrossed (.actor succeeds)) (hstep : s.actorStep succeeds = some s') :
    s'.Announced := by
  unfold ExtensionGateway.actorStep at hstep
  split at hstep
  · cases hstep
  · -- The readiness is cleared.
    next ops hops =>
    cases hstep
    obtain ⟨hact, hprep⟩ := hslot.slot_eq_none hops nofun nofun
    refine .of_inactive ?_ hact (.inr ⟨rfl, huncr (by rw [hops]; rfl)⟩)
    rintro (hsome | hhead)
    · exact absurd (hprep nofun) hsome
    · rcases hslot.ops_eq hops with rfl | rfl | rfl <;> cases hhead
  · -- The gen is the next.
    next ops hops =>
    cases hstep
    refine h.congr (fun _ => Nat.succ_pos _) (fun hhead => ?_) rfl rfl fun _ _ => Iff.rfl
    rw [hops] at hhead
    cases hhead
  · -- The gen is prepared.
    next ops hops =>
    have hpos := h.positive (.inr (by rw [hops]; rfl))
    have hclr : s.ops.head? ≠ some .clearReady := by
      rw [hops]
      nofun
    split at hstep
    · next prepared hprepare =>
      cases hstep
      cases (ite_none_right_eq_some.1 hprepare).2
      exact h.congr (fun _ => hpos) (fun hhead => absurd hhead hclr) rfl rfl fun _ _ => Iff.rfl
    · cases hstep
      exact h.congr (fun _ => hpos) (fun hhead => absurd hhead hclr) rfl rfl fun _ _ => Iff.rfl
  · -- The child is spawned, and its reader is idle.
    next ops hops =>
    have hclr : s.ops.head? ≠ some .clearReady := by
      rw [hops]
      nofun
    obtain rfl : ops = [] := hslot.ops_eq hops
    split at hstep
    · cases hstep
      refine h.congr (fun hof => h.positive (.inl (hof.resolve_right nofun)))
        (fun hhead => absurd hhead hclr) rfl rfl fun reader hph => ?_
      refine ⟨fun hmem => (mem_append.1 hmem).resolve_right fun hnew => ?_, mem_append_left _⟩
      rw [mem_singleton.1 hnew] at hph
      cases hph
    · cases hstep
      exact h.congr (fun hof => h.positive (.inl (hof.resolve_right nofun)))
        (fun hhead => absurd hhead hclr) rfl rfl fun _ _ => Iff.rfl
  · -- The child is taken.
    next ops hops =>
    cases hstep
    obtain rfl : ops = (exitOps s.generation).tail := hslot.ops_eq hops
    refine h.congr (fun hof => h.positive (.inl (hof.resolve_right nofun))) (fun hhead => ?_)
      rfl rfl fun _ _ => Iff.rfl
    rw [hops] at hhead
    cases hhead
  · -- A gen is retired: the readiness is cleared next, unless there is none.
    next g ops hops =>
    cases hstep
    obtain ⟨rfl, hrest⟩ := hslot.ops_eq hops
    have hact : s.active.filter (· ≠ s.generation) = none := by
      rw [filter_eq_none_iff]
      intro g hg
      rw [(hslot.active hg).1, decide_eq_true_iff, not_not]
    have hprep : s.prepared.filter (· ≠ s.generation) = none := by
      rw [filter_eq_none_iff]
      intro g hg
      rw [(hslot.prepared hg).1, decide_eq_true_iff, not_not]
    refine .of_inactive ?_ hact ?_
    · rintro (hsome | hhead)
      · exact absurd hprep hsome
      · rcases hrest with rfl | rfl | rfl <;> cases hhead
    · rcases hrest with rfl | rfl | rfl
      · right
        have hhead : s.ops.head? ≠ some .clearReady := by
          rw [hops]
          nofun
        have hnone : s.active = none := by
          cases hact' : s.active with
          | none => rfl
          | some g =>
            obtain ⟨-, -, hof | hof⟩ := hslot.active hact'
            · cases (hslot.child_eq_none hops nofun).symm.trans hof
            · rw [hops] at hof
              cases hof
        refine ⟨Decidable.not_not.1 fun hstore => ?_, fun reader hrd hph => ?_⟩
        · exact (h.stored hstore).elim (by rw [hnone]; nofun) hhead
        · exact (h.reader reader hrd hph).elim (by rw [hnone]; nofun) hhead
      all_goals exact .inl rfl
  · -- A socket is removed.
    next g ops hops =>
    cases hstep
    refine h.congr (fun hof => ?_) (fun hhead => ?_) rfl rfl fun _ _ => Iff.rfl
    · refine h.positive (.inl (hof.resolve_right ?_))
      rcases hslot.ops_eq hops with rfl | rfl <;> nofun
    · rw [hops] at hhead
      cases hhead

/-- **An activation is announced** by the reader that made it. -/
theorem Announced.activateGeneration (h : s.Announced) (hslot : s.Slotted)
    (hrd : s.readers[r]? = some reader)
    (hactv : s.activateGeneration reader.generation isPrivate = some s') :
    (s'.setReader r reader .activated).Announced := by
  unfold ExtensionGateway.activateGeneration at hactv
  obtain ⟨hready, ⟨⟩⟩ := ite_none_right_eq_some.1 hactv
  have hcur := (hslot.prepared hready.1).1
  have hpos := h.positive (.inl (by rw [hready.1]; nofun))
  -- What was active is of the same gen: the slot holds no other.
  have hsame : ∀ g, s.active = some g ∨ s.ops.head? = some .clearReady →
      g = reader.generation ∨ s.ops.head? = some .clearReady := fun g =>
    Or.imp_left fun hg => (hslot.active hg).1.trans hcur.symm
  refine ⟨fun hof => hpos, fun other hne hph => ?_, fun hstore => ?_, fun hg => ?_⟩
  · rcases mem_or_eq_of_mem_set hne with hold | rfl
    · refine (hsame _ (h.reader other hold hph)).imp_left fun heq => ?_
      exact congrArg some heq.symm
    · exact .inl rfl
  · exact (hsame _ (h.stored hstore)).imp_left fun heq => congrArg some heq.symm
  · cases hg
    refine ⟨hcur ▸ hpos, .inr ⟨{ reader with phase := .activated },
      mem_iff_getElem?.2 ⟨r, ?_⟩, rfl, rfl⟩⟩
    exact getElem?_set_self (getElem?_eq_some_iff.1 hrd).1

/-- **A stored readiness** is of the active generation, or about to be
cleared. -/
theorem Announced.storeReady (h : s.Announced) (hslot : s.Slotted)
    (hrd : s.readers[r]? = some reader) (hph : reader.phase = .activated) :
    ({ s.setReader r reader .idle with gatewayReadyGeneration := reader.generation } :
      ExtensionGateway).Announced := by
  have hof := h.reader reader (mem_of_getElem? hrd) hph
  refine ⟨h.positive, fun other hne hne' => ?_, fun _ => hof, fun {g} hg => ?_⟩
  · rcases mem_or_eq_of_mem_set hne with hold | rfl
    · exact h.reader other hold hne'
    · cases hne'
  · refine ⟨(h.active hg).1, .inl ?_⟩
    rcases hof with hact | hhead
    · exact some.inj (hact.symm.trans hg)
    · obtain ⟨op, hop⟩ := head?_eq_some_iff.1 hhead
      exact absurd ((hslot.slot_eq_none hop nofun nofun).1.symm.trans hg) nofun

/-- A request does not touch the readiness. -/
theorem Announced.requestStep (h : s.Announced) {phase : RequestPhase}
    (hstep : s.requestStep i phase f = some s') :
    s'.Announced := by
  unfold ExtensionGateway.requestStep at hstep
  split at hstep
  · cases (ite_none_right_eq_some.1 hstep).2
    exact h.congr h.positive id rfl rfl fun _ _ => Iff.rfl
  · cases hstep

/-- **Every uncrossed step keeps the readiness.** -/
theorem Announced.gatewayStep (h : s.Announced) (hslot : s.Slotted)
    (huncr : s.Uncrossed action) (hstep : s.gatewayStep action = some s') :
    s'.Announced := by
  cases action with
  | spawn =>
    obtain ⟨⟨hidle, hch⟩, hs'⟩ := ite_none_right_eq_some.1 hstep
    cases hs'
    refine h.congr (fun hof => h.positive (.inl (hof.resolve_right nofun))) (fun _ => rfl) rfl rfl
      fun _ _ => Iff.rfl
  | exit | stop =>
    obtain ⟨⟨hidle, hch⟩, hs'⟩ := ite_none_right_eq_some.1 hstep
    cases hs'
    refine h.congr (fun hof => h.positive (.inl (hof.resolve_right nofun))) ?_ rfl rfl
      fun _ _ => Iff.rfl
    rw [hidle]
    nofun
  | actor succeeds => exact h.actorStep hslot huncr hstep
  | listen r =>
    obtain ⟨reader, -, rfl⟩ := map_eq_some_iff.1 hstep
    exact h.congr h.positive id rfl rfl fun _ _ => Iff.rfl
  | line r =>
    obtain ⟨reader, hrd, hph, rfl⟩ := readerStep_eq_some.1 hstep
    split
    · exact h
    · exact h.setReader hrd (by rw [hph]; nofun) nofun
  | activate r isPrivate =>
    obtain ⟨reader, hrd, hph, hs'⟩ := readerStep_eq_some.1 hstep
    split at hs' <;> subst hs'
    · next activated hactv => exact h.activateGeneration hslot hrd hactv
    · exact h.setReader hrd (by rw [hph]; nofun) nofun
  | storeReady r =>
    obtain ⟨reader, hrd, hph, rfl⟩ := readerStep_eq_some.1 hstep
    exact h.storeReady hslot hrd hph
  | request =>
    unfold ExtensionGateway.gatewayStep at hstep
    dsimp only at hstep
    split at hstep <;> cases hstep
    · exact h.congr h.positive id rfl rfl fun _ _ => Iff.rfl
    · exact h
  | check | send => exact h.requestStep hstep

/-- No readiness is stored before the first child. -/
theorem Announced.init : (init : ExtensionGateway).Announced := by
  refine .of_inactive ?_ rfl (.inr ⟨rfl, nofun⟩)
  rintro (hsome | hhead)
  · exact absurd rfl hsome
  · cases hhead

theorem announced (h : (gatewayMachine.restrict Uncrossed).Reachable s) : s.Announced := by
  refine h.rule .init fun u action v hu hann hstep => ?_
  obtain ⟨huncr, hstep⟩ := Machine.restrict_step_eq_some.1 hstep
  exact hann.gatewayStep (slotted hu.of_restrict) huncr hstep

/-- **Where nobody is at work**, the facet tells what is active. -/
theorem Announced.facet_eq (h : s.Announced) (hidle : s.ops = [])
    (hreaders : ∀ reader ∈ s.readers, reader.phase = .idle) (g : ℕ) :
    s.facet = some g ↔ s.active = some g := by
  have hhead : s.ops.head? ≠ some .clearReady := by
    rw [hidle]
    nofun
  constructor
  · intro hfacet
    obtain ⟨hstore, hg⟩ := ite_none_right_eq_some.1 hfacet
    rw [← some.inj hg]
    exact (h.stored hstore).resolve_right hhead
  · intro hact
    obtain ⟨hpos, rfl | ⟨reader, hrd, -, hph⟩⟩ := h.active hact
    · exact if_pos (Nat.pos_iff_ne_zero.1 hpos)
    · rw [hreaders reader hrd] at hph
      cases hph

end ExtensionGateway

open ExtensionGateway

/-- **The gateway follows the generation of the process.** No retired
generation is active, and what is active is of the child, or of the one
that the actor has taken and is about to retire; a request took a
generation that was not retired, and finds it cancelled once it is. Where
the readiness is never cleared while a reader is about to store it, the
facet of a gateway where nobody is at work tells what is active. -/
theorem gateway_follows_generation {s : ExtensionGateway} (h : gatewayMachine.Reachable s) :
    (∀ g ∈ s.retired, s.active ≠ some g) ∧
    (∀ g, s.active = some g → s.child = some g ∨ s.ops = (exitOps g).tail) ∧
    (∀ request ∈ s.requests, request.retired = false ∧
      (request.generation ∈ s.retired → request.generation ∈ s.cancelled)) ∧
    ((gatewayMachine.restrict Uncrossed).Reachable s → s.ops = [] →
      (∀ reader ∈ s.readers, reader.phase = .idle) →
      ∀ g, s.facet = some g ↔ s.active = some g) := by
  have hslotted := slotted h
  refine ⟨fun g hg hactive => (hslotted.active hactive).2.1 hg, fun g hactive => ?_,
    fun request hrequest => ?_, fun huncrossed => (announced huncrossed).facet_eq⟩
  · obtain ⟨rfl, -, hof⟩ := hslotted.active hactive
    exact hof
  · obtain ⟨hearly, hof⟩ := hslotted.requests request hrequest
    refine ⟨hearly, fun hretired => hof.resolve_left fun hactive => ?_⟩
    exact (hslotted.active hactive).2.1 hretired

/-- A child is spawned, listens and is ready. -/
def readyRun : List GatewayAction :=
  [.spawn, .actor true, .actor true, .actor true, .actor true, .listen 0, .line 0,
    .activate 0 true, .storeReady 0]

/-- A child that is ready: its generation is active, and the facet says so. -/
theorem gateway_follows_generation_ready :
    ∃ s, (gatewayMachine.restrict Uncrossed).Reachable s ∧ s.active = some 1 ∧
      s.child = some 1 ∧ s.facet = some 1 := by
  have hrun : (gatewayMachine.restrict Uncrossed).exec readyRun gatewayMachine.init =
      some ((gatewayMachine.restrict Uncrossed).run readyRun gatewayMachine.init) :=
    Machine.exec_eq_run (by decide)
  have huncrossed : (gatewayMachine.restrict Uncrossed).Reachable _ := ⟨_, hrun⟩
  have hactive : ((gatewayMachine.restrict Uncrossed).run readyRun gatewayMachine.init).active =
      some 1 := by decide
  obtain ⟨-, hchild, -, hfacet⟩ := gateway_follows_generation huncrossed.of_restrict
  exact ⟨_, huncrossed, hactive, (hchild 1 hactive).resolve_right (by decide),
    (hfacet huncrossed (by decide) (by decide) 1).2 hactive⟩

/-- **A readiness that stays.** The child exits while its reader stands
between the activation and the store: the actor retires the generation and
clears the readiness, then the reader stores it. -/
theorem gateway_facet_stays :
    ∃ s, gatewayMachine.Reachable s ∧ s.ops = [] ∧ (∀ reader ∈ s.readers, reader.phase = .idle) ∧
      s.facet = some 1 ∧ s.active = none := by
  have hrun := @Machine.exec_eq_run _ _ gatewayMachine gatewayMachine.init
    (readyRun.dropLast ++ [GatewayAction.exit, .actor true, .actor true, .actor true,
      .storeReady 0, .actor true, .actor true]) (by decide)
  exact ⟨_, ⟨_, hrun⟩, by decide, by decide, by decide, by decide⟩

end Extensions

end Remux
