import Mathlib.Data.List.Nodup
import Remux.Common.Lists
import Remux.Fs.Model.RelayTasks

/-!
# No dirty path is stranded

Of a relay that is started and open and has something pending a task is
outstanding that will flush it, or the call of `start` that set it up is still
to mark dirty (`no_path_stranded`). That call lets the lock go before it does,
and in between, with paths pending from before, there is no task
(`start_window`).

What is pending goes out as one: a path is in the next announcement built
after it was inserted, and in no other unless it was inserted again
(`Carried`), and an announcement's own invalidation comes before its
broadcast (`Delivered`).
-/

namespace Remux

open RelayState
open List hiding getElem?_eq_some_iff isEmpty_iff
open DidChange

/-! ## The sections under the lock -/

namespace RelayState

variable {state : RelayState}

/-- Something is pending. -/
def Pending (state : RelayState) : Prop :=
  ¬ (state.pendingChangedPaths = [] ∧ state.pendingGitDirtyRoots = [])

instance : Decidable state.Pending := inferInstanceAs (Decidable (¬ _))

theorem pending_iff : state.Pending ↔
      (state.pendingChangedPaths.isEmpty && state.pendingGitDirtyRoots.isEmpty) = false := by
  rw [Pending, ← Bool.not_eq_true, Bool.and_eq_true, List.isEmpty_iff, List.isEmpty_iff]

theorem markDirty_of_closed (h : state.closed = true) (paths roots : List Directory) :
    state.markDirty paths roots = (state, false) := by
  rw [markDirty, if_pos h]

/-- **What marking dirty does** to an open relay: the paths and roots are
pending, and a task is due unless nothing is or one is scheduled. -/
theorem markDirty_of_open (h : state.closed = false) (paths roots : List Directory) :
    let marked := { state with
      pendingChangedPaths := paths.foldr List.insert state.pendingChangedPaths
      pendingGitDirtyRoots := roots.foldr List.insert state.pendingGitDirtyRoots }
    (state.markDirty paths roots = (marked, false) ∧
        (marked.Pending → state.debounceScheduled = true)) ∨
      state.markDirty paths roots = ({ marked with debounceScheduled := true }, true) := by
  intro marked
  rw [markDirty, if_neg (by simp [h])]
  by_cases hnil : (marked.pendingChangedPaths.isEmpty && marked.pendingGitDirtyRoots.isEmpty) = true
  · exact .inl ⟨if_pos hnil, fun hp => by rw [pending_iff, hnil] at hp; cases hp⟩
  · by_cases hflag : state.debounceScheduled = true
    · exact .inl ⟨(if_neg hnil).trans (if_pos hflag), fun _ => hflag⟩
    · exact .inr ((if_neg hnil).trans (if_neg hflag))

/-- **What a flush does**: nothing, where nothing is due or a trailing task is
scheduled; it schedules one; or it takes all that is pending. -/
theorem flushDirty_cases (state : RelayState) (minIntervalMs now : ℕ) :
    (state.flushDirty minIntervalMs now = (state, .nothing) ∧
        (state.wired = true → state.closed = false → state.Pending →
          state.trailingScheduled = true)) ∨
      state.flushDirty minIntervalMs now = ({ state with trailingScheduled := true }, .trailing) ∨
      (state.closed = false ∧ state.flushDirty minIntervalMs now = ({ state with
            pendingChangedPaths := []
            pendingGitDirtyRoots := []
            lastBroadcastAt := some now },
          .announce ⟨state.pendingChangedPaths, state.pendingGitDirtyRoots⟩)) := by
  unfold flushDirty
  split_ifs with hoff hnil hsoon htrail
  · refine .inl ⟨rfl, fun hwired hopen => ?_⟩
    simp [hwired, hopen] at hoff
  · exact .inl ⟨rfl, fun _ _ hp => by rw [pending_iff, hnil] at hp; cases hp⟩
  · exact .inl ⟨rfl, fun _ _ _ => htrail⟩
  · exact .inr (.inl rfl)
  · refine .inr (.inr ⟨?_, rfl⟩)
    rw [Bool.or_eq_true, not_or, Bool.not_eq_true] at hoff
    exact hoff.1

end RelayState

/-! ## What is pending goes out as one -/

/-- **What was inserted is carried**: of so many batches taken, that with the
number an item was inserted under has it; the batches and what is pending have
nothing else. -/
structure Carried (isOpen : Prop) (inserted : List (ℕ × Directory)) (pending : List Directory)
    (taken : List (List Directory)) : Prop where
  le : ∀ {n : ℕ} {item : Directory}, (n, item) ∈ inserted → n ≤ taken.length
  next : ∀ {n : ℕ} {item : Directory} {batch : List Directory}, (n, item) ∈ inserted →
    taken[n]? = some batch → item ∈ batch
  waiting : ∀ {item : Directory}, isOpen → (taken.length, item) ∈ inserted → item ∈ pending
  of_taken : ∀ {n : ℕ} {item : Directory} {batch : List Directory}, taken[n]? = some batch →
    item ∈ batch → (n, item) ∈ inserted
  of_pending : ∀ {item : Directory}, item ∈ pending → (taken.length, item) ∈ inserted

namespace Carried

variable {isOpen : Prop} {inserted : List (ℕ × Directory)} {pending items : List Directory}
variable {taken : List (List Directory)}

theorem nil : Carried isOpen [] [] [] := by
  constructor <;> simp

variable {item : Directory}

theorem mem_insert : item ∈ items.foldr List.insert pending ↔ item ∈ items ∨ item ∈ pending := by
  induction items with
  | nil => simp
  | cons first rest ih => rw [List.foldr_cons, List.mem_insert_iff, ih, List.mem_cons, or_assoc]

variable (h : Carried isOpen inserted pending taken)
include h

/-- What is in no batch yet is pending. -/
theorem mem_pending {n : ℕ} (hin : (n, item) ∈ inserted)
    (hn : taken.length ≤ n) (hopen : isOpen) : item ∈ pending := by
  obtain rfl : n = taken.length := le_antisymm (h.le hin) hn
  exact h.waiting hopen hin

/-- More is inserted. -/
theorem insert (items : List Directory) :
    Carried isOpen (inserted ++ items.map fun item => (taken.length, item))
      (items.foldr List.insert pending) taken := by
  have hmem : ∀ {n : ℕ} {item : Directory},
      (n, item) ∈ inserted ++ items.map (fun item => (taken.length, item)) ↔
        (n, item) ∈ inserted ∨ n = taken.length ∧ item ∈ items := by
    intro n item
    rw [List.mem_append, List.mem_map]
    constructor
    · rintro (hold | ⟨item', hitem, heq⟩)
      · exact .inl hold
      · cases heq
        exact .inr ⟨rfl, hitem⟩
    · rintro (hold | ⟨rfl, hitem⟩)
      · exact .inl hold
      · exact .inr ⟨item, hitem, rfl⟩
  constructor
  · intro n item hin
    obtain hold | ⟨rfl, -⟩ := hmem.1 hin
    · exact h.le hold
    · exact le_rfl
  · intro n item batch hin hbatch
    obtain hold | ⟨rfl, -⟩ := hmem.1 hin
    · exact h.next hold hbatch
    · rw [List.getElem?_eq_none le_rfl] at hbatch
      cases hbatch
  · intro item hopen hin
    obtain hold | ⟨-, hitem⟩ := hmem.1 hin
    · exact mem_insert.2 (.inr (h.waiting hopen hold))
    · exact mem_insert.2 (.inl hitem)
  · intro n item batch hbatch hitem
    exact hmem.2 (.inl (h.of_taken hbatch hitem))
  · intro item hitem
    obtain hnew | hold := mem_insert.1 hitem
    · exact hmem.2 (.inr ⟨rfl, hnew⟩)
    · exact hmem.2 (.inl (h.of_pending hold))

/-- All that is pending is taken. -/
theorem take (hopen : isOpen) : Carried isOpen inserted [] (taken ++ [pending]) := by
  have hat : ∀ {n : ℕ} {batch : List Directory}, (taken ++ [pending])[n]? = some batch →
      taken[n]? = some batch ∨ n = taken.length ∧ batch = pending := by
    intro n batch hbatch
    rw [getElem?_append] at hbatch
    split_ifs at hbatch with hlt
    · exact .inl hbatch
    · obtain ⟨hn, hbatch⟩ := getElem?_eq_some_iff.1 hbatch
      rw [length_singleton] at hn
      obtain rfl : n = taken.length := by omega
      refine .inr ⟨rfl, ?_⟩
      rw [← hbatch]
      simp
  constructor
  · intro n item hin
    rw [length_append]
    exact (h.le hin).trans (Nat.le_add_right _ _)
  · intro n item batch hin hbatch
    obtain hold | ⟨rfl, rfl⟩ := hat hbatch
    · exact h.next hin hold
    · exact h.waiting hopen hin
  · intro item _ hin
    have hle := h.le hin
    rw [length_append, length_singleton] at hle
    omega
  · intro n item batch hbatch hitem
    obtain hold | ⟨rfl, rfl⟩ := hat hbatch
    · exact h.of_taken hold hitem
    · exact h.of_pending hitem
  · intro item hitem
    cases hitem

/-- All that is pending is thrown away, and no more is taken. -/
theorem close {isOpen' : Prop} (hclosed : ¬ isOpen') : Carried isOpen' inserted [] taken where
  __ := h
  waiting hopen := absurd hopen hclosed
  of_pending hitem := by cases hitem

omit h

end Carried

/-! ## The tasks -/

namespace RelayTasks

variable {minIntervalMs now : ℕ} {s s' : RelayTasks} {a : RelayAction}
variable {paths roots : List Directory}

/-- A task that will flush is under way, or about to be spawned. -/
def Outstanding (s : RelayTasks) : Prop := 0 < s.spawning + s.debouncing + s.trailing + s.flushing

instance : Decidable s.Outstanding := inferInstanceAs (Decidable (0 < _))

/-- **The invariant of the schedule**: a flag stands for a task that has not
cleared it, and what is pending waits for a task. -/
structure Scheduled (s : RelayTasks) : Prop where
  debounce : s.relay.debounceScheduled = true → 0 < s.spawning + s.debouncing
  trailing : s.relay.trailingScheduled = true → 0 < s.trailing
  live : s.relay.wired = true → s.relay.closed = false → s.relay.Pending →
    s.Outstanding ∨ 0 < s.starting
  started : s.relay.started = s.relay.wired

/-- The paths and roots of a run, each carried by the announcements built. -/
structure CarriedBoth (s : RelayTasks) : Prop where
  paths : Carried (s.relay.closed = false) s.insertedPaths s.relay.pendingChangedPaths
    (s.built.map fun entry => entry.1.changedPaths)
  roots : Carried (s.relay.closed = false) s.insertedRoots s.relay.pendingGitDirtyRoots
    (s.built.map fun entry => entry.1.gitDirtyRoots)

variable (hdeb : s.relay.debounceScheduled = true → 0 < s.spawning + s.debouncing)
include hdeb

variable (htrail : s.relay.trailingScheduled = true → 0 < s.trailing)
include htrail

/-- **Marking dirty sets the schedule right**, whether something pending was
waited for before or not. -/
theorem scheduled_markDirty
    (hstarted : s.relay.started = s.relay.wired) : (s.markDirty paths roots).Scheduled := by
  unfold RelayTasks.markDirty
  cases hclosed : s.relay.closed with
  | true =>
    rw [markDirty_of_closed hclosed]
    refine ⟨hdeb, htrail, fun _ hopen => ?_, hstarted⟩
    rw [hclosed] at hopen
    cases hopen
  | false =>
    obtain ⟨hmark, hflag⟩ | hmark :=
      markDirty_of_open hclosed paths roots
    · rw [hmark]
      refine ⟨hdeb, htrail, fun _ _ hpend => .inl ?_, hstarted⟩
      have hwait := hdeb (hflag hpend)
      show 0 < s.spawning + 0 + s.debouncing + s.trailing + s.flushing
      omega
    · rw [hmark]
      refine ⟨fun _ => ?_, htrail, fun _ _ _ => .inl ?_, hstarted⟩
      · show 0 < s.spawning + 1 + s.debouncing
        omega
      · show 0 < s.spawning + 1 + s.debouncing + s.trailing + s.flushing
        omega

/-- **A flush** leaves nothing pending, or leaves it to a trailing task. -/
theorem scheduled_flush
    (hstarted : s.relay.started = s.relay.wired) : (s.flushDirty minIntervalMs now).Scheduled := by
  unfold RelayTasks.flushDirty
  obtain ⟨hflush, hlate⟩ | hflush | ⟨hopen, hflush⟩ :=
    s.relay.flushDirty_cases minIntervalMs now
  · rw [hflush]
    refine ⟨hdeb, htrail, fun hwired hopen hpend => .inl ?_, hstarted⟩
    have hwait := htrail (hlate hwired hopen hpend)
    show 0 < s.spawning + s.debouncing + s.trailing + s.flushing
    omega
  · rw [hflush]
    refine ⟨hdeb, fun _ => Nat.succ_pos _, fun _ _ _ => .inl ?_, hstarted⟩
    show 0 < s.spawning + s.debouncing + (s.trailing + 1) + s.flushing
    omega
  · rw [hflush]
    exact ⟨hdeb, htrail, fun _ _ hpend => absurd ⟨rfl, rfl⟩ hpend, hstarted⟩

omit htrail hdeb

/-- Every step keeps a broadcast scheduled for what is dirty. -/
theorem scheduled_of_step (h : s.Scheduled)
    (hstep : (relayMachine minIntervalMs).step s a = some s') : s'.Scheduled := by
  obtain ⟨hdeb, htrail, hlive, hstarted⟩ := h
  cases a with
  | start =>
    cases hstep
    refine ⟨hdeb, htrail, fun _ hopen hpend => .inr ?_, rfl⟩
    have hmarks : (wire s.relay).2 = true := by
      have hsome : (s.relay.pendingChangedPaths.isEmpty &&
          s.relay.pendingGitDirtyRoots.isEmpty) = false := pending_iff.1 hpend
      simp only [wire, hsome, Bool.not_false]
    rw [hmarks]
    exact Nat.succ_pos _
  | startMarks =>
    simp only [relayMachine] at hstep
    split_ifs at hstep
    cases hstep
    exact scheduled_markDirty hdeb htrail hstarted
  | markDirty paths roots =>
    cases hstep
    exact scheduled_markDirty hdeb htrail hstarted
  | spawnDebounce =>
    simp only [relayMachine] at hstep
    split_ifs at hstep with hnone
    cases hstep
    refine ⟨fun _ => ?_, htrail, fun hwired hopen hpend => .inl ?_, hstarted⟩
    · show 0 < s.spawning - 1 + (s.debouncing + 1)
      omega
    · show 0 < s.spawning - 1 + (s.debouncing + 1) + s.trailing + s.flushing
      omega
  | debounceWakes =>
    simp only [relayMachine] at hstep
    split_ifs at hstep with hnone
    cases hstep
    refine ⟨nofun, htrail, fun _ _ _ => .inl ?_, hstarted⟩
    show 0 < s.spawning + (s.debouncing - 1) + s.trailing + (s.flushing + 1)
    omega
  | trailingWakes =>
    simp only [relayMachine] at hstep
    split_ifs at hstep with hnone
    cases hstep
    refine ⟨hdeb, nofun, fun _ _ _ => .inl ?_, hstarted⟩
    show 0 < s.spawning + s.debouncing + (s.trailing - 1) + (s.flushing + 1)
    omega
  | flush now =>
    simp only [relayMachine] at hstep
    split_ifs at hstep
    cases hstep
    exact scheduled_flush hdeb htrail hstarted
  | deliver n =>
    simp only [relayMachine, deliver] at hstep
    split at hstep
    · exact Option.some.inj hstep ▸ ⟨hdeb, htrail, hlive, hstarted⟩
    · exact Option.some.inj hstep ▸ ⟨hdeb, htrail, hlive, hstarted⟩
    · cases hstep
  | close =>
    cases hstep
    unfold close
    split_ifs with hclosed
    · exact ⟨hdeb, htrail, hlive, hstarted⟩
    · exact ⟨hdeb, htrail, nofun, hstarted⟩

theorem scheduled_reachable (hs : (relayMachine minIntervalMs).Reachable s) : s.Scheduled :=
  hs.rule ⟨nofun, nofun, nofun, rfl⟩ fun _ _ _ _ h hstep => scheduled_of_step h hstep

/-! ## The announcements -/

/-- What is marked dirty is carried, -/
theorem carriedBoth_markDirty (h : s.CarriedBoth) : (s.markDirty paths roots).CarriedBoth := by
  unfold RelayTasks.markDirty
  cases hclosed : s.relay.closed with
  | true =>
    rw [markDirty_of_closed hclosed]
    exact h
  | false =>
    have hpaths := h.paths.insert paths
    have hroots := h.roots.insert roots
    rw [List.length_map] at hpaths hroots
    obtain ⟨hmark, -⟩ | hmark := markDirty_of_open hclosed paths roots <;>
      rw [hmark] <;> exact ⟨hpaths, hroots⟩

/-- what is flushed is carried on, -/
theorem carriedBoth_flush (h : s.CarriedBoth) : (s.flushDirty minIntervalMs now).CarriedBoth := by
  unfold RelayTasks.flushDirty
  obtain ⟨hflush, -⟩ | hflush | ⟨hopen, hflush⟩ := s.relay.flushDirty_cases minIntervalMs now
  · rw [hflush]
    exact h
  · rw [hflush]
    exact { h with }
  · rw [hflush]
    constructor
    · rw [map_append]
      exact h.paths.take hopen
    · rw [map_append]
      exact h.roots.take hopen

variable {n : ℕ}

/-- The announcements themselves do not change as they are delivered. -/
theorem map_set_phase {β : Type*} {built : List (DidChange × DeliveryPhase)} {change : DidChange}
    {phase phase' : DeliveryPhase} {f : DidChange → β} (h : built[n]? = some (change, phase)) :
    (built.set n (change, phase')).map (fun entry => f entry.1) =
      built.map fun entry => f entry.1 := by
  refine ext_getElem? fun m => ?_
  rw [getElem?_map, getElem?_map, getElem?_set]
  split_ifs with hm hlt
  · rw [← hm, h]
    rfl
  · exact absurd (getElem?_eq_some_iff.1 h).1 hlt
  · rfl

/-- and every step carries what there is. -/
theorem carriedBoth_of_step (h : s.CarriedBoth)
    (hstep : (relayMachine minIntervalMs).step s a = some s') : s'.CarriedBoth := by
  cases a with
  | start =>
    cases hstep
    exact { h with }
  | startMarks =>
    simp only [relayMachine] at hstep
    split_ifs at hstep
    cases hstep
    exact carriedBoth_markDirty { h with }
  | markDirty paths roots =>
    cases hstep
    exact carriedBoth_markDirty h
  | spawnDebounce | debounceWakes | trailingWakes =>
    simp only [relayMachine] at hstep
    split_ifs at hstep
    cases hstep
    exact { h with }
  | flush now =>
    simp only [relayMachine] at hstep
    split_ifs at hstep
    cases hstep
    exact carriedBoth_flush { h with }
  | deliver n =>
    simp only [relayMachine, deliver] at hstep
    split at hstep
    case h_3 => cases hstep
    all_goals
      cases hstep
      exact ⟨map_set_phase (f := changedPaths) ‹_› ▸ h.paths,
        map_set_phase (f := gitDirtyRoots) ‹_› ▸ h.roots⟩
  | close =>
    cases hstep
    unfold close
    split_ifs with hclosed
    · exact h
    · exact ⟨h.paths.close nofun, h.roots.close nofun⟩

/-- **The delivery of the announcements**: each is invalidated and then
broadcast, once. -/
structure Delivered (s : RelayTasks) : Prop where
  invalidated : ∀ {n : ℕ} {change : DidChange}, .invalidate n change ∈ s.calls ↔
    ∃ phase, s.built[n]? = some (change, phase) ∧ phase ≠ .invalidating
  broadcast : ∀ {n : ℕ} {change : DidChange}, .broadcast n change ∈ s.calls ↔
    s.built[n]? = some (change, .done)
  nodup : s.calls.Nodup
  ordered : ∀ {before after : List WiringCall} {n : ℕ} {change : DidChange},
    s.calls = before ++ .broadcast n change :: after → .invalidate n change ∈ before

/-- A flush broadcasts all it takes, -/
theorem delivered_flush (h : s.Delivered) : (s.flushDirty minIntervalMs now).Delivered := by
  unfold RelayTasks.flushDirty
  obtain ⟨hflush, -⟩ | hflush | ⟨-, hflush⟩ := s.relay.flushDirty_cases minIntervalMs now
  · rw [hflush]
    exact h
  · rw [hflush]
    exact { h with }
  · rw [hflush]
    -- the new announcement is not invalidated yet
    have hnew : ∀ {n : ℕ} {entry last : DidChange × DeliveryPhase},
        (s.built ++ [last])[n]? = some entry ↔
          s.built[n]? = some entry ∨ n = s.built.length ∧ entry = last := by
      intro n entry last
      rw [getElem?_append]
      split_ifs with hlt
      · exact (or_iff_left fun h => absurd h.1 hlt.ne).symm
      · rw [getElem?_singleton, getElem?_eq_none (not_lt.1 hlt)]
        split_ifs with hzero
        · simp [le_antisymm (Nat.sub_eq_zero_iff_le.1 hzero) (not_lt.1 hlt), eq_comm]
        · simp only [false_or, false_iff, not_and]
          omega
    refine ⟨fun {n change} => ?_, fun {n change} => ?_, h.nodup, h.ordered⟩
    · refine h.invalidated.trans (exists_congr fun phase => and_congr_left fun hph => ?_)
      refine (hnew.trans (or_iff_left ?_)).symm
      rintro ⟨-, heq⟩
      exact hph (Prod.mk.inj heq).2
    · refine h.broadcast.trans (hnew.trans (or_iff_left ?_)).symm
      rintro ⟨-, heq⟩
      cases (Prod.mk.inj heq).2

/-- A list that ends in another item splits before its end. -/
theorem split_before_last {α : Type*} {xs before after : List α} {x y : α}
    (h : xs ++ [y] = before ++ x :: after) :
    (after = [] ∧ x = y ∧ before = xs) ∨ ∃ rest, xs = before ++ x :: rest := by
  rcases eq_nil_or_concat after with rfl | ⟨rest, last, rfl⟩
  · obtain ⟨hxs, hy⟩ := append_inj' h rfl
    exact .inl ⟨rfl, (singleton_inj.1 hy).symm, hxs.symm⟩
  · rw [concat_eq_append, ← cons_append, ← append_assoc] at h
    exact .inr ⟨rest, (append_inj' h rfl).1⟩

/-- a delivery loses none, -/
theorem delivered_deliver (h : s.Delivered) (hstep : s.deliver n = some s') : s'.Delivered := by
  unfold deliver at hstep
  split at hstep
  · rename_i change hn
    cases hstep
    have hnew : .invalidate n change ∉ s.calls := fun hmem => by
      obtain ⟨phase, hph, hne⟩ := h.invalidated.1 hmem
      rw [hn, Option.some.injEq, Prod.mk.injEq] at hph
      exact hne hph.2.symm
    refine ⟨fun {m c} => ?_, fun {m c} => ?_, ?_, fun {before after m c} hcalls => ?_⟩
    · rw [mem_append, mem_singleton, h.invalidated]
      simp only [getElem?_set_of_eq_some hn]
      split_ifs with hm
      · subst hm
        simp [hn, eq_comm]
      · simp [hm]
    · rw [mem_append, mem_singleton, h.broadcast, getElem?_set_of_eq_some hn]
      split_ifs with hm
      · subst hm
        simp [hn]
      · simp
    · rw [← concat_eq_append]
      exact Nodup.concat hnew h.nodup
    · obtain ⟨-, hlast, -⟩ | ⟨rest, hrest⟩ := split_before_last hcalls
      · cases hlast
      · exact h.ordered hrest
  · rename_i change hn
    cases hstep
    have hnew : .broadcast n change ∉ s.calls := fun hmem => by
      have hdone := h.broadcast.1 hmem
      rw [hn, Option.some.injEq, Prod.mk.injEq] at hdone
      cases hdone.2
    refine ⟨fun {m c} => ?_, fun {m c} => ?_, ?_, fun {before after m c} hcalls => ?_⟩
    · rw [mem_append, mem_singleton, h.invalidated]
      simp only [getElem?_set_of_eq_some hn]
      split_ifs with hm
      · subst hm
        simp [hn]
      · simp
    · rw [mem_append, mem_singleton, h.broadcast, getElem?_set_of_eq_some hn]
      split_ifs with hm
      · subst hm
        simp [hn, eq_comm]
      · simp [hm]
    · rw [← concat_eq_append]
      exact Nodup.concat hnew h.nodup
    · obtain ⟨-, hlast, rfl⟩ | ⟨rest, hrest⟩ := split_before_last hcalls
      · cases hlast
        exact h.invalidated.2 ⟨_, hn, nofun⟩
      · exact h.ordered hrest
  · cases hstep

/-- and no step loses what was broadcast. -/
theorem delivered_of_step (h : s.Delivered)
    (hstep : (relayMachine minIntervalMs).step s a = some s') : s'.Delivered := by
  cases a with
  | start | markDirty | close =>
    cases hstep
    exact { h with }
  | startMarks | spawnDebounce | debounceWakes | trailingWakes =>
    simp only [relayMachine] at hstep
    split_ifs at hstep
    cases hstep
    exact { h with }
  | flush now =>
    simp only [relayMachine] at hstep
    split_ifs at hstep
    cases hstep
    exact delivered_flush { h with }
  | deliver n => exact delivered_deliver h hstep

theorem carriedBoth_reachable (hs : (relayMachine minIntervalMs).Reachable s) : s.CarriedBoth :=
  hs.rule ⟨Carried.nil, Carried.nil⟩ fun _ _ _ _ h hstep => carriedBoth_of_step h hstep

theorem delivered_reachable (hs : (relayMachine minIntervalMs).Reachable s) : s.Delivered := by
  refine hs.rule ?_ fun _ _ _ _ h hstep => delivered_of_step h hstep
  constructor <;> simp [relayMachine]

/-- **No dirty path is stranded.** In every reachable state something pending
in a started, open relay has a task to flush it, or a call of `start` that is
yet to mark dirty; a path inserted while the relay was open is pending until
the next announcement is built, and is in that one; an announcement has only
what was inserted since the one before; and each is invalidated before it is
broadcast, once. -/
theorem no_path_stranded (hs : (relayMachine minIntervalMs).Reachable s) :
    (s.relay.started = true → s.relay.closed = false → s.relay.Pending →
      s.Outstanding ∨ 0 < s.starting) ∧
    (∀ n path, (n, path) ∈ s.insertedPaths →
      (∀ change phase, s.built[n]? = some (change, phase) → path ∈ change.changedPaths) ∧
        (s.built[n]? = none → s.relay.closed = false → path ∈ s.relay.pendingChangedPaths)) ∧
    (∀ n root, (n, root) ∈ s.insertedRoots →
      (∀ change phase, s.built[n]? = some (change, phase) → root ∈ change.gitDirtyRoots) ∧
        (s.built[n]? = none → s.relay.closed = false → root ∈ s.relay.pendingGitDirtyRoots)) ∧
    (∀ n change phase, s.built[n]? = some (change, phase) →
      (∀ path ∈ change.changedPaths, (n, path) ∈ s.insertedPaths) ∧
        ∀ root ∈ change.gitDirtyRoots, (n, root) ∈ s.insertedRoots) ∧
    s.Delivered := by
  obtain ⟨-, -, hlive, hstarted⟩ := scheduled_reachable hs
  obtain ⟨hpaths, hroots⟩ := carriedBoth_reachable hs
  refine ⟨fun hs => hlive (hstarted ▸ hs), fun n path hin => ⟨fun change phase hn => ?_, ?_⟩,
    fun n root hin => ⟨fun change phase hn => ?_, ?_⟩, fun n change phase hn =>
    ⟨fun path hpath => ?_, fun root hroot => ?_⟩, delivered_reachable hs⟩
  · exact hpaths.next hin (by rw [getElem?_map, hn]; rfl)
  · exact fun hnone => hpaths.mem_pending hin
      (by rw [length_map]; exact getElem?_eq_none_iff.1 hnone)
  · exact hroots.next hin (by rw [getElem?_map, hn]; rfl)
  · exact fun hnone => hroots.mem_pending hin
      (by rw [length_map]; exact getElem?_eq_none_iff.1 hnone)
  · exact hpaths.of_taken (by rw [getElem?_map, hn]; rfl) hpath
  · exact hroots.of_taken (by rw [getElem?_map, hn]; rfl) hroot

/-- A path that is marked once the relay is started has its task. -/
theorem no_path_stranded_marked : let M := relayMachine 50
    let s := M.run [.start, .markDirty [["a"]] []] M.init
    s.Outstanding ∨ 0 < s.starting := by
  intro M s
  have hs : M.Reachable s := ⟨_, Machine.exec_eq_run (by decide +kernel)⟩
  exact (no_path_stranded hs).1 (by decide +kernel) (by decide +kernel) (by decide +kernel)

/-- The window of `start`: a path was marked before, its task has come and
gone, and the relay is started with nobody to flush but `start` itself. -/
theorem start_window : let M := relayMachine 50
    let s := M.run [.markDirty [["a"]] [], .spawnDebounce, .debounceWakes, .flush 0, .start] M.init
    M.Reachable s ∧ s.relay.started = true ∧ s.relay.closed = false ∧ s.relay.Pending ∧
      ¬ s.Outstanding := by
  refine ⟨⟨_, Machine.exec_eq_run (by decide +kernel)⟩, by decide +kernel, by decide +kernel,
    by decide +kernel, by decide +kernel⟩

end RelayTasks

end Remux
