import Remux.Common.Lists
import Remux.Extensions.Model.Supervisor

/-!
# Lifecycle coherence

Between events a supervisor is stopped, running, backing off or failed,
and its fields say the same (`Coherent`). Builds change the state and
their own records only (`BuildsOnly`), and a spawn or a crash settles the
state again. A child is spawned where none is held and every group that
was spawned before has been killed.

The crash window holds every crash a respawn was made for, as long as
another respawn may follow (`Budgeted`). So the crashes of one window
lead to fewer respawns than the budget, and of the respawns one more can
lie in a window than of their crashes.
-/

namespace Remux

open List Option

namespace Extensions

namespace Actor

variable {extension : ExtensionManifest} {cfg : SupervisorConfig} {w : Actor}

/-! ## Builds -/

/-- Builds leave all but the state and their own records alone. -/
def BuildsOnly (w w' : Actor) : Prop :=
  ∃ state lastExit lastBuildFailed failedViewBuilds lastViewBuildAtMs, w' = { w with
    state, lastExit, lastBuildFailed, failedViewBuilds, lastViewBuildAtMs }

theorem BuildsOnly.refl : w.BuildsOnly w := ⟨_, _, _, _, _, rfl⟩

variable {w' : Actor} {env : StartEnv} {rebuild : Bool} {status : Option ExitParts}
variable {event : SupervisorEvent}

theorem BuildsOnly.trans {w'' : Actor} (h : w.BuildsOnly w') (h' : w'.BuildsOnly w'') :
    w.BuildsOnly w'' := by
  obtain ⟨_, _, _, _, _, rfl⟩ := h
  obtain ⟨_, _, _, _, _, rfl⟩ := h'
  exact ⟨_, _, _, _, _, rfl⟩

/-- A failed build fails the lifecycle. -/
theorem runServerBuild_spec : w.BuildsOnly (w.runServerBuild env).1 ∧
      ((w.runServerBuild env).2 = false → (w.runServerBuild env).1.state = .failed) := by
  rw [runServerBuild]
  split
  · exact ⟨⟨_, _, _, _, _, rfl⟩, nofun⟩
  · exact ⟨⟨_, _, _, _, _, rfl⟩, fun _ => rfl⟩

/-- The builds of the views change nothing but what builds do. -/
theorem runViewBuilds_spec {env : StartEnv} : ∀ (views : List ViewSpec) (w : Actor),
    w.BuildsOnly (runViewBuilds env views w).1 ∧
      ((runViewBuilds env views w).2 = false → (runViewBuilds env views w).1.state = .failed)
  | [], w => ⟨.refl, nofun⟩
  | view :: views, w => by
    rw [runViewBuilds]
    split
    · exact runViewBuilds_spec views w
    · split
      · obtain ⟨honly, hfail⟩ := runViewBuilds_spec views
          (viewBuilt { w with state := .building } view.id)
        exact ⟨BuildsOnly.trans ⟨_, _, _, _, _, rfl⟩ honly, hfail⟩
      · exact ⟨⟨_, _, _, _, _, rfl⟩, fun _ => rfl⟩

/-- The builds change nothing but what builds do. -/
theorem runBuilds_spec {rebuild : Bool} {env : StartEnv} :
    w.BuildsOnly (w.runBuilds extension rebuild env).1 ∧
      ((w.runBuilds extension rebuild env).2 = false →
        (w.runBuilds extension rebuild env).1.state = .failed) := by
  rw [runBuilds]
  split
  · split
    · obtain ⟨honly, hfail⟩ := @runViewBuilds_spec env extension.views (w.runServerBuild env).1
      exact ⟨runServerBuild_spec.1.trans honly, hfail⟩
    · exact runServerBuild_spec
  · exact runViewBuilds_spec extension.views w

/-- The gating builds record their failures only. -/
theorem runGatingBuilds_spec {env : StartEnv} : ∀ (views : List ViewSpec) (w : Actor),
    ∃ failedViewBuilds lastViewBuildAtMs, (runGatingBuilds env views w).1 = { w with
      failedViewBuilds, lastViewBuildAtMs }
  | [], w => ⟨_, _, rfl⟩
  | view :: views, w => by
    rw [runGatingBuilds]
    split
    · exact runGatingBuilds_spec views w
    · split
      · obtain ⟨_, _, heq⟩ := runGatingBuilds_spec views (w.viewBuilt view.id)
        exact ⟨_, _, heq⟩
      · exact ⟨_, _, rfl⟩

/-! ## Coherence -/

/-- **The fields say what the state says.** -/
structure Coherent (w : Actor) : Prop where
  settled : w.state = .stopped ∨ w.state = .running ∨ w.state = .backingOff ∨ w.state = .failed
  running : w.state = .running ↔ w.child.isSome
  held : ∀ pid, w.child = some pid → w.pid = some pid ∧ w.pgid = some pid ∧ w.stdin = true
  free : w.child = none → w.pid = none ∧ w.pgid = none ∧ w.stdin = false
  backingOff : w.backoffDeadline.isSome ↔ w.state = .backingOff

/-- **No child is spawned over another**, nor over a group that was not
killed. -/
structure Apart (w : Actor) : Prop where
  killed : ∀ pgid ∈ w.unkilled, w.child = some pgid
  never : w.spawnedOver = false

/-- Nothing is held and nothing scheduled. -/
structure Free (w : Actor) : Prop where
  child : w.child = none
  pid : w.pid = none
  pgid : w.pgid = none
  stdin : w.stdin = false
  backoff : w.backoffDeadline = none
  killed : w.unkilled = []
  never : w.spawnedOver = false

theorem Free.buildsOnly (hw : w.Free) (h : w.BuildsOnly w') : w'.Free := by
  obtain ⟨_, _, _, _, _, rfl⟩ := h
  exact { hw with }

/-- An actor that holds nothing is coherent where it has stopped or
failed. -/
theorem Free.coherent (hw : w.Free) (h : w.state = .stopped ∨ w.state = .failed) :
    w.Coherent ∧ w.Apart := by
  refine ⟨⟨?_, ?_, fun pid hpid => ?_, fun _ => ⟨hw.pid, hw.pgid, hw.stdin⟩, ?_⟩,
    ⟨fun pgid hmem => ?_, hw.never⟩⟩
  · exact h.imp_right fun h => .inr (.inr h)
  · rw [hw.child]
    rcases h with h | h <;> simp [h]
  · rw [hw.child] at hpid
    cases hpid
  · rw [hw.backoff]
    rcases h with h | h <;> simp [h]
  · rw [hw.killed] at hmem
    cases hmem

/-- A crash is recorded while no child is there. -/
theorem Free.recordCrash (hw : w.Free) :
    (w.recordCrash cfg).Coherent ∧ (w.recordCrash cfg).Apart := by
  rw [Actor.recordCrash]
  split
  · exact Free.coherent { hw with backoff := rfl } (.inr rfl)
  · refine ⟨⟨.inr (.inr (.inl rfl)), ?_, fun pid hpid => ?_,
      fun _ => ⟨hw.pid, hw.pgid, hw.stdin⟩, ⟨fun _ => rfl, fun _ => rfl⟩⟩,
      ⟨fun pgid hmem => ?_, hw.never⟩⟩
    · rw [hw.child]
      simp
    · exact absurd (hw.child.symm.trans hpid) nofun
    · exact absurd (hw.killed ▸ hmem) not_mem_nil

/-- A child is spawned while no other is there. -/
theorem Free.spawnChild (hw : w.Free) :
    (w.spawnChild cfg env).Coherent ∧ (w.spawnChild cfg env).Apart := by
  rw [Actor.spawnChild]
  split
  · next pid _ _ =>
    refine ⟨⟨.inr (.inl rfl), ⟨fun _ => rfl, fun _ => rfl⟩, fun pid' hpid => ?_, nofun, ?_⟩,
      ⟨fun pgid hmem => ?_, ?_⟩⟩
    · exact ⟨hpid, hpid, rfl⟩
    · rw [hw.backoff]
      simp
    · rw [hw.killed] at hmem
      rw [mem_singleton.1 hmem]
    · rw [hw.never, hw.child, hw.killed]
      rfl
  · exact Free.recordCrash { hw with }

/-- **A start settles the state.** -/
theorem Free.startFlow (hw : w.Free) : (w.startFlow extension cfg rebuild env).Coherent ∧
      (w.startFlow extension cfg rebuild env).Apart := by
  obtain ⟨honly, hfail⟩ := @runBuilds_spec extension w rebuild env
  have hbuilt := hw.buildsOnly honly
  rw [Actor.startFlow]
  split
  · next hno => exact hbuilt.coherent (.inr (hfail (by simpa using hno)))
  split
  · exact hbuilt.spawnChild
  · exact Free.coherent { hbuilt with } (.inl rfl)

/-- The group of the child is all that is not killed. -/
theorem filter_unkilled {pgid : ℕ} (hw : w.Apart) (hch : w.child = some pgid) :
    (w.unkilled.filter fun other => other ≠ pgid) = [] := by
  refine filter_eq_nil_iff.2 fun other hne => ?_
  have heq := hw.killed other hne
  rw [hch] at heq
  simp [Option.some.inj heq]

/-- Where no child is held, every group is killed. -/
theorem unkilled_eq_nil (hw : w.Apart) (hch : w.child = none) : w.unkilled = [] := by
  refine eq_nil_iff_forall_not_mem.2 fun pgid hmem => ?_
  have hheld := hw.killed pgid hmem
  rw [hch] at hheld
  cases hheld

variable {status : Option ExitParts}

/-- **A stop leaves nothing.** -/
theorem stopChild_spec (hw : w.Coherent) (hapart : w.Apart) :
    (w.stopChild status).Free ∧ (w.stopChild status).state = .stopped := by
  rw [Actor.stopChild]
  cases hch : w.child with
  | none =>
    have hkilled : w.unkilled = [] := unkilled_eq_nil hapart hch
    exact ⟨⟨rfl, rfl, rfl, rfl, rfl, hkilled, hapart.never⟩, rfl⟩
  | some pid =>
    have hkilled := filter_unkilled hapart hch
    rw [(hw.held pid hch).2.1]
    exact ⟨⟨rfl, rfl, rfl, rfl, rfl, hkilled, hapart.never⟩, rfl⟩

/-- **An exit leaves nothing**, but for a backoff. -/
theorem handleUnpromptedExit_spec (hw : w.Coherent) (hapart : w.Apart) (hch : w.child.isSome) :
    (w.handleUnpromptedExit cfg status).Coherent ∧ (w.handleUnpromptedExit cfg status).Apart := by
  obtain ⟨pid, hpid⟩ := isSome_iff_exists.1 hch
  have hst := hw.running.2 hch
  have hbackoff : w.backoffDeadline = none := by
    refine not_isSome_iff_eq_none.1 fun h => ?_
    have hoff := hw.backingOff.1 h
    rw [hst] at hoff
    cases hoff
  have hkilled := filter_unkilled hapart hpid
  rw [Actor.handleUnpromptedExit]
  rw [(hw.held pid hpid).2.1, elim_some]
  split
  · exact Free.coherent ⟨rfl, rfl, rfl, rfl, hbackoff, hkilled, hapart.never⟩ (.inl rfl)
  · exact Free.recordCrash ⟨rfl, rfl, rfl, rfl, hbackoff, hkilled, hapart.never⟩

/-! ## The crash budget -/

/-- The crashes that respawns were made for. -/
def respawned (w : Actor) : List ℕ := w.respawns.map Prod.fst

/-- The crashes that a respawn was made for or is scheduled for. -/
def answered (w : Actor) : List ℕ :=
  if w.state = .backingOff then w.respawned ++ [w.lastCrash] else w.respawned

/-- **The crash window has the crashes of the respawns**, as long as
another may follow. -/
structure Budgeted (cfg : SupervisorConfig) (w : Actor) : Prop where
  sorted : w.crashTimes.Pairwise (· ≤ ·)
  past : ∀ time ∈ w.crashTimes, time ≤ w.lastCrash
  clock : w.lastCrash ≤ w.clock
  spawned : ∀ p ∈ w.respawns, p.1 ≤ p.2 ∧ p.2 ≤ w.clock
  chain : w.respawns.Pairwise fun p q => p.2 ≤ q.1
  latest : w.state = .backingOff → ∀ p ∈ w.respawns, p.2 ≤ w.lastCrash
  kept : w.state = .running ∨ w.state = .backingOff →
    (w.answered.filter fun time => w.lastCrash ≤ time + cfg.crashWindowMs).Sublist w.crashTimes
  budget : w.state = .backingOff → w.crashTimes.length ≤ cfg.crashBudget - 1
  count : ∀ start, countIn cfg.crashWindowMs start w.respawned ≤ cfg.crashBudget - 1

/-- What a crash finds: the crash window has the crashes of the respawns,
whatever the state. -/
structure Crashing (cfg : SupervisorConfig) (w : Actor) : Prop where
  sorted : w.crashTimes.Pairwise (· ≤ ·)
  past : ∀ time ∈ w.crashTimes, time ≤ w.lastCrash
  clock : w.lastCrash ≤ w.clock
  spawned : ∀ p ∈ w.respawns, p.1 ≤ p.2 ∧ p.2 ≤ w.clock
  chain : w.respawns.Pairwise fun p q => p.2 ≤ q.1
  kept : (w.respawned.filter fun time => w.lastCrash ≤ time + cfg.crashWindowMs).Sublist
    w.crashTimes
  count : ∀ start, countIn cfg.crashWindowMs start w.respawned ≤ cfg.crashBudget - 1

/-- In any state but a backoff it is what `Budgeted` says. -/
theorem Crashing.budgeted (hw : w.Crashing cfg) (hst : w.state ≠ .backingOff) : w.Budgeted cfg where
  __ := hw
  latest h := absurd h hst
  kept _ := by
    rw [answered, if_neg hst]
    exact hw.kept
  budget h := absurd h hst

theorem Budgeted.crashing (hw : w.Budgeted cfg) (hst : w.state = .running) : w.Crashing cfg where
  __ := hw
  kept := by
    have hkept := hw.kept (.inl hst)
    rwa [answered, if_neg (by rw [hst]; nofun)] at hkept

/-- **A crash is recorded.** -/
theorem Crashing.recordCrash (hw : w.Crashing cfg) : (w.recordCrash cfg).Budgeted cfg := by
  have hpast : ∀ time ∈ w.crashTimes, time ≤ w.clock := fun time h =>
    (hw.past time h).trans hw.clock
  rw [Actor.recordCrash]
  split
  · -- the budget is spent: no respawn follows
    refine ⟨Pairwise.nil, nofun, le_rfl, hw.spawned, hw.chain, nofun, fun h => ?_, nofun, hw.count⟩
    rcases h with h | h <;> cases h
  · next hbudget =>
    have hsub := sublist_recent_append hw.sorted hpast hw.clock hw.kept
    have hmem : ∀ time ∈ recent cfg.crashWindowMs w.clock (w.crashTimes ++ [w.clock]),
        time ∈ w.crashTimes ++ [w.clock] := fun time h => (dropWhile_sublist _).subset h
    refine ⟨(pairwise_append_now hw.sorted hpast).sublist (dropWhile_sublist _),
      fun time h => ?_, le_rfl, hw.spawned, hw.chain, fun _ p hp => (hw.spawned p hp).2,
      fun _ => hsub, fun _ => ?_, hw.count⟩
    · rcases mem_concat.1 (hmem time h) with h | h
      · exact hpast time h
      · exact h.le
    · dsimp only
      omega

theorem Crashing.buildsOnly (hw : w.Crashing cfg) (h : w.BuildsOnly w') : w'.Crashing cfg := by
  obtain ⟨_, _, _, _, _, rfl⟩ := h
  exact { hw with }

theorem Crashing.spawnChild (hw : w.Crashing cfg) : (w.spawnChild cfg env).Budgeted cfg := by
  rw [Actor.spawnChild]
  split
  · exact Crashing.budgeted { hw with } nofun
  · exact Crashing.recordCrash { hw with }

/-- A start after a crash keeps to the budget. -/
theorem Crashing.startFlow (hw : w.Crashing cfg) :
    (w.startFlow extension cfg rebuild env).Budgeted cfg := by
  obtain ⟨honly, hfail⟩ := @runBuilds_spec extension w rebuild env
  have hbuilt := hw.buildsOnly honly
  rw [Actor.startFlow]
  split
  · next hno =>
    refine hbuilt.budgeted ?_
    rw [hfail (by simpa using hno)]
    nofun
  split
  · exact hbuilt.spawnChild
  · exact Crashing.budgeted { hbuilt with } nofun

/-- Between events the clock may go on. -/
theorem Budgeted.setClock {clock : ℕ} (hw : w.Budgeted cfg) (h : w.clock ≤ clock) :
    Budgeted cfg { w with clock } :=
  { hw with clock := hw.clock.trans h, spawned := fun p hp => ⟨(hw.spawned p hp).1,
    (hw.spawned p hp).2.trans h⟩ }

/-- A start that is asked for counts the respawns anew. -/
theorem Budgeted.ask (hw : w.Budgeted cfg) : Crashing cfg { w with respawns := [] } :=
  ⟨hw.sorted, hw.past, hw.clock, nofun, .nil, nil_sublist _, fun _ => Nat.zero_le _⟩

/-- **A respawn** is made for the last crash. -/
theorem Budgeted.respawn {restartCount : ℕ} {backoffDeadline : Option ℕ} (hw : w.Budgeted cfg)
    (hst : w.state = .backingOff) :
    Crashing cfg { w with
      backoffDeadline
      restartCount
      respawns := w.respawns ++ [(w.lastCrash, w.clock)] } := by
  have hkept := hw.kept (.inr hst)
  have hansd : w.answered = (w.respawns ++ [(w.lastCrash, w.clock)]).map Prod.fst := by
    rw [answered, if_pos hst, map_append]
    rfl
  rw [hansd] at hkept
  refine ⟨hw.sorted, hw.past, hw.clock, fun p hp => ?_, ?_, hkept, fun start => ?_⟩
  · rcases mem_concat.1 hp with hp | rfl
    · exact hw.spawned p hp
    · exact ⟨hw.clock, le_rfl⟩
  · refine pairwise_append.2 ⟨hw.chain, pairwise_singleton _ _, fun p hp q hq => ?_⟩
    rw [mem_singleton.1 hq]
    exact hw.latest hst p hp
  · rw [map_append] at hkept
    change countIn _ _ ((w.respawns ++ [(w.lastCrash, w.clock)]).map Prod.fst) ≤ _
    rw [map_append]
    exact countIn_append_le hw.count (hw.budget hst) hkept start

/-- A crash finds the same where the same is on record. -/
theorem Crashing.congr (hw : w.Crashing cfg) (htimes : w'.crashTimes = w.crashTimes)
    (hlast : w'.lastCrash = w.lastCrash) (hclock : w'.clock = w.clock)
    (hrespawns : w'.respawns = w.respawns) : w'.Crashing cfg := by
  refine ⟨htimes ▸ hw.sorted, ?_, ?_, ?_, hrespawns ▸ hw.chain, ?_, ?_⟩
  · rw [htimes, hlast]
    exact hw.past
  · rw [hlast, hclock]
    exact hw.clock
  · rw [hrespawns, hclock]
    exact hw.spawned
  · rw [respawned, hrespawns, hlast, htimes]
    exact hw.kept
  · rw [respawned, hrespawns]
    exact hw.count

/-- An actor that comes to a stop expects nothing of its crash window. -/
theorem Budgeted.stopped (hw : w.Budgeted cfg) (hst : w'.state = .stopped)
    (htimes : w'.crashTimes = w.crashTimes) (hlast : w'.lastCrash = w.lastCrash)
    (hclock : w'.clock = w.clock) (hrespawns : w'.respawns = w.respawns) : w'.Budgeted cfg := by
  refine ⟨htimes ▸ hw.sorted, ?_, ?_, ?_, hrespawns ▸ hw.chain, ?_, ?_, ?_, ?_⟩
  · rw [htimes, hlast]
    exact hw.past
  · rw [hlast, hclock]
    exact hw.clock
  · rw [hrespawns, hclock]
    exact hw.spawned
  · rw [hst]
    nofun
  · rw [hst]
    exact fun h => by rcases h with h | h <;> cases h
  · rw [hst]
    nofun
  · rw [respawned, hrespawns]
    exact hw.count

/-- A stop leaves the crashes on record. -/
theorem stopChild_crashes : (w.stopChild status).crashTimes = w.crashTimes ∧
      (w.stopChild status).lastCrash = w.lastCrash ∧ (w.stopChild status).clock = w.clock ∧
      (w.stopChild status).respawns = w.respawns := by
  rw [Actor.stopChild]
  cases w.child with
  | none => exact ⟨rfl, rfl, rfl, rfl⟩
  | some pid => cases w.pgid <;> exact ⟨rfl, rfl, rfl, rfl⟩

/-- **An exit** that was not asked for is a crash, unless it is clean. -/
theorem Crashing.handleUnpromptedExit (hw : w.Crashing cfg) :
    (w.handleUnpromptedExit cfg status).Budgeted cfg := by
  have hkilled : (w.pgid.elim w w.killGroup).Crashing cfg := by
    cases w.pgid with
    | none => exact hw
    | some pgid => exact hw.congr rfl rfl rfl rfl
  rw [Actor.handleUnpromptedExit]
  split
  · exact Crashing.budgeted (hkilled.congr rfl rfl rfl rfl) nofun
  · exact Crashing.recordCrash (hkilled.congr rfl rfl rfl rfl)

/-! ## Beside the child -/

/-- What goes on beside the child: a failed lifecycle may be stopped, and
the records of the builds and the watch facet change. -/
def Beside (w w' : Actor) : Prop :=
  ∃ state lastBuildFailed failedViewBuilds lastViewBuildAtMs viewsBuildInFlight watchEnabled,
    w' = { w with
      state, lastBuildFailed, failedViewBuilds, lastViewBuildAtMs, viewsBuildInFlight
      watchEnabled } ∧
    (state = w.state ∨ w.state = .failed ∧ state = .stopped)

/-- With the state as it was. -/
theorem Beside.same {lastBuildFailed viewsBuildInFlight watchEnabled : Bool}
    {failedViewBuilds : List String} {lastViewBuildAtMs : Option ℕ} :
    w.Beside { w with
      lastBuildFailed, failedViewBuilds, lastViewBuildAtMs, viewsBuildInFlight, watchEnabled } :=
  ⟨_, _, _, _, _, _, rfl, .inl rfl⟩

variable (h : w.Beside w')
include h

/-- What goes on beside keeps the actor coherent. -/
theorem Beside.coherent (hw : w.Coherent) : w'.Coherent := by
  obtain ⟨state, _, _, _, _, _, rfl, rfl | ⟨hfail, rfl⟩⟩ := h
  · exact { hw with }
  · -- a lifecycle that failed holds no child and has no timer
    have hch := hw.running
    have hbackoff := hw.backingOff
    rw [hfail] at hch hbackoff
    refine ⟨.inl rfl, ?_, hw.held, hw.free, ?_⟩
    · exact ⟨nofun, fun hsome => absurd (hch.2 hsome) nofun⟩
    · exact ⟨fun hsome => absurd (hbackoff.1 hsome) nofun, nofun⟩

theorem Beside.apart (hw : w.Apart) : w'.Apart := by
  obtain ⟨_, _, _, _, _, _, rfl, -⟩ := h
  exact { hw with }

theorem Beside.budgeted (hw : w.Budgeted cfg) : w'.Budgeted cfg := by
  obtain ⟨state, _, _, _, _, _, rfl, rfl | ⟨-, rfl⟩⟩ := h
  · exact { hw with }
  · exact hw.stopped rfl rfl rfl rfl rfl

theorem Beside.crashTimes : w'.crashTimes = w.crashTimes := by
  obtain ⟨_, _, _, _, _, _, rfl, -⟩ := h
  rfl

omit h

/-- A build's result goes on beside the child. -/
theorem handleServerBuild_beside {result : BuildResult} :
    w.Beside (w.handleServerBuild extension result) := by
  unfold handleServerBuild
  split
  · exact .same
  split
  · split
    · next hfail => exact ⟨_, _, _, _, _, _, rfl, .inr ⟨hfail, rfl⟩⟩
    · exact .same
  · exact .same

/-- So does the end of a manual build, -/
theorem finishViewsBuild_beside {outcome : ManualViewsBuildOutcome} :
    w.Beside (w.finishViewsBuild extension outcome) := by
  rw [finishViewsBuild]
  split
  · exact .same
  split
  · next hfail =>
    rw [Bool.and_eq_true, decide_eq_true_iff] at hfail
    exact ⟨_, _, _, _, _, _, rfl, .inr ⟨hfail.1, rfl⟩⟩
  · exact .same

/-- and the start of a watch. -/
theorem handleWatchStart_beside : w.Beside (w.handleWatchStart extension env) := by
  rw [handleWatchStart]
  split
  · exact .same
  obtain ⟨failed, built, heq⟩ := @runGatingBuilds_spec env extension.views w
  dsimp only
  split
  all_goals
    rw [heq]
    exact .same

/-! ## Runs -/

/-- **Between two events**, an actor is coherent, its children were
spawned apart and its respawns are within their budget. -/
structure Sound (cfg : SupervisorConfig) (w : Actor) : Prop where
  coherent : w.Coherent
  apart : w.Apart
  budgeted : w.Budgeted cfg

variable (hw : w.Sound cfg)
include hw

theorem Sound.setClock {clock : ℕ} (h : w.clock ≤ clock) : Sound cfg { w with clock } :=
  have hco := hw.coherent
  ⟨{ hco with }, ⟨hw.apart.killed, hw.apart.never⟩, hw.budgeted.setClock h⟩

theorem Sound.beside (h : w.Beside w') : w'.Sound cfg :=
  ⟨h.coherent hw.coherent, h.apart hw.apart, h.budgeted hw.budgeted⟩

/-- Where no child is held, nothing is left once the timer is taken away. -/
theorem Sound.free {restartCount : ℕ} {respawns : List (ℕ × ℕ)} (hch : w.child = none) :
    Free { w with backoffDeadline := none, restartCount, respawns } := by
  obtain ⟨hpid, hpgid, hstdin⟩ := hw.coherent.free hch
  have hkilled := unkilled_eq_nil hw.apart hch
  exact ⟨hch, hpid, hpgid, hstdin, rfl, hkilled, hw.apart.never⟩

/-- **A start**: a child that runs is left to run. -/
theorem Sound.start
    (h : handleEvent extension cfg w (.start rebuild env) = some w') : w'.Sound cfg := by
  rw [← Option.some.inj h]
  have hco := hw.coherent
  split
  · next hrun =>
    have hrunning : w.state = .running := by
      rw [Bool.or_eq_true, decide_eq_true_iff, decide_eq_true_iff] at hrun
      refine hrun.resolve_right fun hstarting => ?_
      rcases hco.settled with h | h | h | h <;> · rw [hstarting] at h; cases h
    refine ⟨{ hco with }, ⟨hw.apart.killed, hw.apart.never⟩, hw.budgeted.ask.budgeted ?_⟩
    rw [hrunning]
    nofun
  · next hidle =>
    have hch : w.child = none := by
      refine not_isSome_iff_eq_none.1 fun h => hidle ?_
      rw [hco.running.2 h]
      rfl
    have hfree : Free { w with respawns := [], backoffDeadline := none } := hw.free hch
    have hcrashing : Crashing cfg { w with respawns := [], backoffDeadline := none } :=
      hw.budgeted.ask.congr rfl rfl rfl rfl
    exact ⟨hfree.startFlow.1, hfree.startFlow.2, hcrashing.startFlow⟩

theorem Sound.stop : (w.stopChild status).Sound cfg := by
  obtain ⟨hfree, hst⟩ := @stopChild_spec w status hw.coherent hw.apart
  obtain ⟨htimes, hlast, hclock, hrespawns⟩ := @stopChild_crashes w status
  obtain ⟨hco, hapart⟩ := hfree.coherent (.inl hst)
  exact ⟨hco, hapart, hw.budgeted.stopped hst htimes hlast hclock hrespawns⟩

/-- **A restart** is a stop and a start. -/
theorem Sound.restart :
    (({ w with respawns := [] } : Actor).stopChild status |>.startFlow extension cfg rebuild
      env).Sound cfg := by
  have hco := hw.coherent
  have hfree := (@stopChild_spec { w with respawns := [] } status { hco with }
    ⟨hw.apart.killed, hw.apart.never⟩).1
  obtain ⟨htimes, hlast, hclock, hrespawns⟩ := @stopChild_crashes { w with respawns := [] } status
  have hcrashing := hw.budgeted.ask.congr htimes hlast hclock hrespawns
  exact ⟨hfree.startFlow.1, hfree.startFlow.2, hcrashing.startFlow⟩

/-- **The backoff timer** respawns what crashed. -/
theorem Sound.backoffFired (h : w.backoffDeadline.isSome) : (Actor.startFlow extension cfg { w with
      backoffDeadline := none
      restartCount := w.restartCount + 1
      respawns := w.respawns ++ [(w.lastCrash, w.clock)] } false env).Sound cfg := by
  have hst := hw.coherent.backingOff.1 h
  have hch : w.child = none := by
    refine not_isSome_iff_eq_none.1 fun h => ?_
    have hrun := hw.coherent.running.2 h
    rw [hst] at hrun
    cases hrun
  have hfree : Free { w with
      backoffDeadline := none
      restartCount := w.restartCount + 1
      respawns := w.respawns ++ [(w.lastCrash, w.clock)] } := hw.free hch
  have hcrashing : Crashing cfg { w with
      backoffDeadline := none
      restartCount := w.restartCount + 1
      respawns := w.respawns ++ [(w.lastCrash, w.clock)] } := hw.budgeted.respawn hst
  exact ⟨hfree.startFlow.1, hfree.startFlow.2, hcrashing.startFlow⟩

omit hw

/-- The commands that leave the child alone. -/
theorem handleEvent_beside (h : handleEvent extension cfg w event = some w')
    (hev : (∃ result, event = .serverBuild result) ∨ event = .viewsBuild ∨
      (∃ outcome, event = .viewsBuildFinished outcome) ∨ (∃ env, event = .watchStart env) ∨
      event = .watchStop ∨ event = .watchFailed ∨ event = .rpc) : w.Beside w' := by
  rcases hev with ⟨result, rfl⟩ | rfl | ⟨outcome, rfl⟩ | ⟨env, rfl⟩ | rfl | rfl | rfl
  · exact Option.some.inj h ▸ handleServerBuild_beside
  · rw [← Option.some.inj h]
    split
    all_goals exact .same
  · dsimp only [handleEvent] at h
    split at h
    · exact Option.some.inj h ▸ finishViewsBuild_beside
    · cases h
  · exact Option.some.inj h ▸ handleWatchStart_beside
  all_goals exact Option.some.inj h ▸ .same

/-- **Every event is handled soundly.** -/
theorem Sound.handleEvent (hw : w.Sound cfg) (h : handleEvent extension cfg w event = some w') :
    w'.Sound cfg := by
  cases event with
  | start rebuild env => exact hw.start h
  | stop status => exact Option.some.inj h ▸ hw.stop
  | restart rebuild status env => exact Option.some.inj h ▸ hw.restart
  | childExited status =>
    dsimp only [Extensions.handleEvent] at h
    split at h
    · next hch =>
      rw [← Option.some.inj h]
      obtain ⟨hco, hapart⟩ := handleUnpromptedExit_spec hw.coherent hw.apart hch
      have hrun := hw.coherent.running.2 hch
      exact ⟨hco, hapart, (hw.budgeted.crashing hrun).handleUnpromptedExit⟩
    · cases h
  | backoffFired env =>
    dsimp only [Extensions.handleEvent] at h
    split at h
    · next hsome => exact Option.some.inj h ▸ hw.backoffFired hsome
    · cases h
  | serverBuild result => exact hw.beside (handleEvent_beside h (.inl ⟨result, rfl⟩))
  | viewsBuild => exact hw.beside (handleEvent_beside h (.inr (.inl rfl)))
  | viewsBuildFinished outcome =>
    exact hw.beside (handleEvent_beside h (.inr (.inr (.inl ⟨outcome, rfl⟩))))
  | watchStart env =>
    exact hw.beside (handleEvent_beside h (.inr (.inr (.inr (.inl ⟨env, rfl⟩)))))
  | watchStop | watchFailed | rpc => exact hw.beside (handleEvent_beside h (by simp))

end Actor

open Actor

variable {extension : ExtensionManifest} {cfg : SupervisorConfig} {w w' : Actor}

theorem supervisorStep_eq_some {a : SupervisorAction}
    (h : supervisorStep extension cfg w a = some w') : w.clock ≤ a.at_ ∧
      handleEvent extension cfg { w with clock := a.at_ + a.elapsed } a.event = some w' := by
  simp only [supervisorStep, ite_none_left_eq_some] at h
  exact ⟨Nat.not_lt.1 h.1, h.2.2⟩

theorem sound_init : Actor.init.Sound cfg where
  coherent := ⟨.inl rfl, ⟨nofun, nofun⟩, nofun, fun _ => ⟨rfl, rfl, rfl⟩, ⟨nofun, nofun⟩⟩
  apart := ⟨nofun, rfl⟩
  budgeted := ⟨.nil, nofun, le_rfl, nofun, .nil, nofun, fun _ => nil_sublist _, nofun,
    fun _ => Nat.zero_le _⟩

/-- **Between any two events** of a run the actor is sound. -/
theorem sound_of_reachable (hw : (supervisorMachine extension cfg).Reachable w) : w.Sound cfg := by
  refine hw.rule sound_init fun w a w' _ hw hstep => ?_
  obtain ⟨htime, hhandled⟩ := supervisorStep_eq_some hstep
  exact (hw.setClock (htime.trans (Nat.le_add_right _ _))).handleEvent hhandled

/-- Of the respawns since a start, as many lie in a window as crashes may,
and one more. -/
theorem Actor.Budgeted.count_respawns (hw : w.Budgeted cfg) (start : ℕ) :
    countIn cfg.crashWindowMs start (w.respawns.map Prod.snd) ≤ cfg.crashBudget := by
  have hforward : ∀ p ∈ w.respawns, p.1 ≤ p.2 := fun p hp => (hw.spawned p hp).1
  rcases Nat.eq_zero_or_pos cfg.crashBudget with hzero | hpos
  · -- a budget of nothing lets no respawn be made
    have hnone : w.respawns = [] := by
      refine eq_nil_iff_forall_not_mem.2 fun p hp => ?_
      have hcnt := hw.count p.1
      have hmem : 0 < countIn cfg.crashWindowMs p.1 w.respawned :=
        countP_pos_iff.2 ⟨p.1, mem_map_of_mem hp, by simp⟩
      omega
    rw [hnone]
    exact Nat.zero_le _
  · have hends := countIn_snd_le hw.chain hforward hw.count start
    omega

/-- A failed build ends a start with the crashes as they were. -/
theorem Actor.crashTimes_startFlow {rebuild : Bool} {env : StartEnv}
    (h : (w.runBuilds extension rebuild env).2 = false) :
    (w.startFlow extension cfg rebuild env).crashTimes = w.crashTimes := by
  obtain ⟨⟨_, _, _, _, _, heq⟩, -⟩ := @runBuilds_spec extension w rebuild env
  have htimes := congrArg Actor.crashTimes heq
  rw [startFlow]
  rw [h]
  exact htimes

/-- **Lifecycle coherence.** Whenever the actor waits for its next event,
it is stopped, running, backing off or failed, it holds a child with its
pid, group and stdin just when it runs, and a backoff is set just when it
backs off; no child was ever spawned over another, nor over a group not
killed; of the crashes within any window fewer than the budget were
followed by a respawn since the last start, so that no more respawns than
the budget lie in any window. A failed build is no crash. -/
theorem lifecycle_coherent (hw : (supervisorMachine extension cfg).Reachable w) :
    (w.state = .stopped ∨ w.state = .running ∨ w.state = .backingOff ∨ w.state = .failed) ∧
      (w.state = .running ↔ ∃ pid, w.child = some pid ∧ w.pid = some pid ∧ w.pgid = some pid ∧
        w.stdin = true) ∧
      (w.backoffDeadline.isSome ↔ w.state = .backingOff) ∧
      w.spawnedOver = false ∧
      (∀ start, countIn cfg.crashWindowMs start (w.respawns.map Prod.fst) ≤ cfg.crashBudget - 1) ∧
      (∀ start, countIn cfg.crashWindowMs start (w.respawns.map Prod.snd) ≤ cfg.crashBudget) ∧
      (∀ v rebuild env, (Actor.runBuilds extension v rebuild env).2 = false →
        (v.startFlow extension cfg rebuild env).crashTimes = v.crashTimes) ∧
      (∀ a w', supervisorStep extension cfg w a = some w' →
        (∃ result, a.event = .serverBuild result) ∨ a.event = .viewsBuild ∨
          (∃ outcome, a.event = .viewsBuildFinished outcome) ∨ (∃ env, a.event = .watchStart env) →
        w'.crashTimes = w.crashTimes) := by
  have hsound := sound_of_reachable hw
  have hco := hsound.coherent
  refine ⟨hco.settled, ⟨fun hrunning => ?_, fun ⟨pid, hchild, _⟩ => ?_⟩, hco.backingOff,
    hsound.apart.never, hsound.budgeted.count, hsound.budgeted.count_respawns,
    fun v rebuild env hfailed => crashTimes_startFlow hfailed, fun a w' hstep hevent => ?_⟩
  · obtain ⟨pid, hchild⟩ := isSome_iff_exists.1 (hco.running.1 hrunning)
    exact ⟨pid, hchild, hco.held pid hchild⟩
  · rw [hco.running, hchild]
    rfl
  · have hbeside := handleEvent_beside (supervisorStep_eq_some hstep).2 (by
      rcases hevent with h | h | h | h <;> simp [h])
    exact hbeside.crashTimes

/-- Everything goes well, and the child is the next pid. -/
def spawns (pid : ℕ) : StartEnv :=
  ⟨true, .ok (), fun _ => true, fun _ => .ok (), fun _ => true, true, some pid⟩

/-- An extension of a server with a build. -/
def lateExtension : ExtensionManifest := ⟨some ⟨true⟩, []⟩

/-- A crash, and the respawn on time. -/
def crashAndRespawn (crash respawn pid : ℕ) : List SupervisorAction :=
  [⟨.childExited (some ⟨some 1, none⟩), crash, 0⟩, ⟨.backoffFired (spawns pid), respawn, 0⟩]

/-- A server build of more than a minute keeps the timer of the first
crash waiting. -/
def lateRespawns : List SupervisorAction :=
  [⟨.start false (spawns 1), 0, 0⟩, ⟨.childExited (some ⟨some 1, none⟩), 0, 0⟩,
    ⟨.serverBuild (.ok ()), 100, 70000⟩, ⟨.backoffFired (spawns 2), 70100, 0⟩] ++
  crashAndRespawn 70100 70600 3 ++ crashAndRespawn 70600 71600 4 ++
  crashAndRespawn 71600 73600 5 ++ crashAndRespawn 73600 77600 6

/-- A respawn that comes late. -/
theorem lifecycle_coherent_late :
    let w := (supervisorMachine lateExtension .default).run lateRespawns .init
    w.state = .running ∧ w.backoffDeadline = none ∧ w.spawnedOver = false ∧
      ∀ start, countIn 60000 start (w.respawns.map Prod.snd) ≤ 5 := by
  have hw : (supervisorMachine lateExtension .default).Reachable
      ((supervisorMachine lateExtension .default).run lateRespawns .init) :=
    ⟨lateRespawns, Machine.exec_eq_run (by decide +kernel)⟩
  obtain ⟨-, -, hbackoff, hnever, -, hcount, -⟩ := lifecycle_coherent hw
  have hrunning : ((supervisorMachine lateExtension .default).run lateRespawns .init).state =
      .running := by decide +kernel
  refine ⟨hrunning, not_isSome_iff_eq_none.1 fun h => ?_, hnever, hcount⟩
  have hoff := hbackoff.1 h
  cases hoff

/-- **As many respawns as the budget**: the crash that a late respawn
answers has left the window when the others come. -/
theorem late_respawn_over_budget : ∃ w, (supervisorMachine lateExtension .default).Reachable w ∧
      ¬ countIn SupervisorConfig.default.crashWindowMs 70100 (w.respawns.map Prod.snd) ≤
        SupervisorConfig.default.crashBudget - 1 :=
  ⟨_, ⟨lateRespawns, Machine.exec_eq_run (by decide +kernel)⟩, by decide +kernel⟩

end Extensions

end Remux
