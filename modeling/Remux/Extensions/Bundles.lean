import Mathlib.Data.List.Nodup
import Mathlib.Data.List.Perm.Basic
import Remux.Common.Lists
import Remux.Extensions.Model.Bundles

/-!
# One writer for each viewer bundle

While the watch facet runs, the watch children own the bundles of their
views, and both kinds of builds pass those views over; while it does not,
no watch child is alive once a stop has ended. Three invariants say so:
what the monitors and the list of watch children have in common
(`Watched`), what a manual build has copied (`ManualSound`), and what the
inline task of the actor may rely on (`TaskSound`).

Four steps break them: a start flow that builds a view a manual build has
still to build, a crash that exhausts the watch budget while another
child is alive, a spawn that follows it in the same loop, and a stop that
ends before its groups do. They are what `clear` leaves out.
-/

namespace Remux

open Bool hiding not_or or_false
open List hiding filter_map getElem?_eq_some_iff map_map

namespace Extensions

open Option

/-- The ids of the watched views. -/
def ExtensionManifest.watchedIds (extension : ExtensionManifest) : List String :=
  (extension.views.filter (·.watch)).map (·.id)

namespace BundleActor

/-- The views that something is writing now: an inline build, the manual
build, and the watch children that are alive. -/
def writers (w : BundleActor) : List String :=
  (match w.task with
    | .viewBuild _ view _ => [view.id]
    | _ => []) ++
  ((w.manual.bind (·.building)).toList.map (·.id) ++ (w.monitors.filter (!·.exited)).map (·.viewId))

/-- No watch child is alive but those that are being stopped. -/
def unattended (w : BundleActor) : Bool := w.monitors.all fun m => m.exited || m.stopping

/-- **What keeps the writers apart.** A start flow builds no view that a
manual build builds or has still to build; the crash that exhausts the
watch budget finds no other child alive, and its loop spawns none after
it; a stop ends when its children have. -/
def clear (cfg : SupervisorConfig) (w : BundleActor) : BundleAction → Bool
  | .nextView entryExists =>
    match w.task with
    | .viewBuilds .startFlow (view :: _) =>
      w.skips view entryExists .startFlow || !w.manual.any (·.toBuild.contains view)
    | _ => true
  | .spawnNext spawns now =>
    match w.task with
    | .spawningWatchers (_ :: _) =>
      if spawns then w.watchEnabled else !w.exhausts cfg now || w.unattended
    | _ => true
  | .watchChildExited i now =>
    match w.monitors[i]? with
    | some monitor =>
      !(w.reported monitor && w.watchEnabled && w.exhausts cfg now) || w.unattended
    | none => true
  | .watchStopped => w.monitors.all (·.exited)
  | _ => true

/-! ## The watch children -/

/-- **The monitors and the list of watch children agree.** Of the current
session a view has one monitor at most, whose child is listed, and the
children of earlier sessions have been signalled. Without the facet none
is alive that is not being stopped, and unless a stop is under way none
of these. -/
structure Watched (extension : ExtensionManifest) (w : BundleActor) : Prop where
  nodup : ((w.monitors.filter fun m =>
    !m.exited || m.generation = w.watchGeneration).map (·.viewId)).Nodup
  tracked : ∀ m ∈ w.monitors, m.generation = w.watchGeneration →
    ⟨m.viewId, m.pid⟩ ∈ w.watchChildren
  older : ∀ m ∈ w.monitors, m.generation ≤ w.watchGeneration
  signalled : ∀ m ∈ w.monitors, m.generation ≠ w.watchGeneration →
    m.exited = true ∨ m.stopping = true
  declared : ∀ m ∈ w.monitors, m.viewId ∈ extension.watchedIds
  attended : w.watchEnabled = false → ∀ m ∈ w.monitors, m.exited = true ∨ m.stopping = true
  failed : w.watchFailed = true → w.watchEnabled = false
  reaped : w.task ≠ .stoppingWatchers → ∀ m ∈ w.monitors, m.stopping = true → m.exited = true

/-- **What a manual build may rely on.** It is alone while the flag is
set, and where it does not pass the watched views over, the facet does
not run and no watch child is alive. -/
structure ManualSound (extension : ExtensionManifest) (w : BundleActor) : Prop where
  alone : w.manual.isSome = true → w.viewsBuildInFlight = true ∧ w.finished = none
  pending : w.finished.isSome = true → w.viewsBuildInFlight = true
  copied : ∀ m, w.manual = some m → m.watchEnabled = false →
    w.watchEnabled = false ∧ ∀ x ∈ w.monitors, x.exited = true
  building : ∀ m, w.manual = some m → ∀ view, m.building = some view →
    m.skips view = false ∧ view ∈ extension.views
  declared : ∀ m, w.manual = some m → ∀ view ∈ m.left, view ∈ extension.views

/-- **What the inline task of the actor may rely on.** -/
def TaskSound (extension : ExtensionManifest) (w : BundleActor) : Prop :=
  match w.task with
  | .viewBuilds .startFlow left => left ⊆ extension.views
  | .viewBuild .startFlow view left => (view :: left) ⊆ extension.views ∧
      (w.watchEnabled && view.watch) = false ∧ ∀ m, w.manual = some m → view ∉ m.toBuild
  | .viewBuilds .watchStart left => left ⊆ extension.views ∧
      w.viewsBuildInFlight = false ∧ w.watchEnabled = false
  | .viewBuild .watchStart view left => (view :: left) ⊆ extension.views ∧
      w.viewsBuildInFlight = false ∧ w.watchEnabled = false
  | .spawningWatchers left => left.Nodup ∧ ∀ id ∈ left, id ∈ extension.watchedIds ∧
      id ∉ w.watchChildren.map (·.viewId)
  | _ => True

/-- The three invariants. -/
structure Guarded (extension : ExtensionManifest) (w : BundleActor) : Prop where
  watched : w.Watched extension
  manual : w.ManualSound extension
  task : w.TaskSound extension

variable {extension : ParsedManifest} {cfg : SupervisorConfig} {w : BundleActor}

/-- Without the facet, and outside a stop, no watch child is alive. -/
theorem Watched.all_exited (hw : w.Watched extension.toExtensionManifest)
    (henabled : w.watchEnabled = false) (htask : w.task ≠ .stoppingWatchers) :
    ∀ m ∈ w.monitors, m.exited = true := fun m hm =>
  (hw.attended henabled m hm).elim id (hw.reaped htask m hm)

variable {view view' : ViewSpec} {m : ManualViewsBuild} {x monitor : WatchMonitor}
variable {kind : InlineBuilds} {left : List ViewSpec} {now i : ℕ} {viewId : String} {ok : Bool}
variable {w' : BundleActor}

/-- Views of a manifest with the same id are the same. -/
theorem eq_of_id (h : view ∈ extension.views) (h' : view' ∈ extension.views)
    (hid : view.id = view'.id) : view = view' :=
  inj_on_of_nodup_map extension.distinct h h' hid

/-- A view whose id is that of a watched one is watched. -/
theorem watch_of_mem_watchedIds (h : view ∈ extension.views)
    (hid : view.id ∈ extension.watchedIds) :
    view.watch = true := by
  obtain ⟨other, hne, heq⟩ := mem_map.1 hid
  obtain ⟨hmem, hwatch⟩ := mem_filter.1 hne
  rwa [← eq_of_id hmem h heq]

/-! ## The writers -/

/-- The children that are alive have different views. -/
theorem Watched.nodup_alive (hw : w.Watched extension.toExtensionManifest) :
    ((w.monitors.filter (!·.exited)).map (·.viewId)).Nodup := by
  refine hw.nodup.sublist (Sublist.map _ (monotone_filter_right _ fun m hm => ?_))
  simp_all

variable (hw : w.Guarded extension.toExtensionManifest)
include hw

/-- The manual build writes no bundle of a watch child. -/
theorem Guarded.manual_apart
    (hman : w.manual = some m) (hbuild : m.building = some view) (hx : x ∈ w.monitors)
    (hlive : x.exited = false) : x.viewId ≠ view.id := by
  intro hid
  obtain ⟨hskips, hview⟩ := hw.manual.building m hman view hbuild
  have hwatch : view.watch = true :=
    watch_of_mem_watchedIds hview (hid ▸ hw.watched.declared x hx)
  have hcopy : m.watchEnabled = false := by simpa [ManualViewsBuild.skips, hwatch] using hskips
  have hgone := (hw.manual.copied m hman hcopy).2 x hx
  rw [hlive] at hgone
  cases hgone

/-- An inline build writes no bundle of a watch child. -/
theorem Guarded.inline_apart
    (htask : w.task = .viewBuild kind view left) (hx : x ∈ w.monitors) (hlive : x.exited = false) :
    x.viewId ≠ view.id := by
  intro hid
  have hsnd := hw.task
  have hoff : w.watchEnabled = false := by
    cases kind with
    | watchStart =>
      rw [TaskSound, htask] at hsnd
      exact hsnd.2.2
    | startFlow =>
      rw [TaskSound, htask] at hsnd
      have hwatch : view.watch = true :=
        watch_of_mem_watchedIds (hsnd.1 mem_cons_self) (hid ▸ hw.watched.declared x hx)
      simpa [hwatch] using hsnd.2.1
  have hgone := hw.watched.all_exited hoff (by rw [htask]; exact nofun) x hx
  rw [hlive] at hgone
  cases hgone

/-- An inline build and the manual build write different bundles. -/
theorem Guarded.builds_apart (htask : w.task = .viewBuild kind view left) (hman : w.manual = some m)
    (hbuild : m.building = some view') : view.id ≠ view'.id := by
  have hsnd := hw.task
  rw [TaskSound, htask] at hsnd
  cases kind with
  | watchStart =>
    -- The gating builds begin with the flag not set.
    have hflag := (hw.manual.alone (by rw [hman]; rfl)).1
    rw [hsnd.2.1] at hflag
    cases hflag
  | startFlow =>
    intro hid
    obtain ⟨-, hview'⟩ := hw.manual.building m hman view' hbuild
    obtain rfl := eq_of_id (hsnd.1 mem_cons_self) hview' hid
    refine hsnd.2.2 m hman (mem_append_left _ ?_)
    rw [hbuild]
    exact mem_singleton.2 rfl

/-- **No bundle has two writers.** -/
theorem Guarded.nodup_writers : w.writers.Nodup := by
  have halive : ∀ id ∈ (w.monitors.filter (!·.exited)).map (·.viewId),
      ∃ x ∈ w.monitors, x.exited = false ∧ x.viewId = id := by
    intro id hid
    obtain ⟨x, hx, heq⟩ := mem_map.1 hid
    obtain ⟨hmem, hlive⟩ := mem_filter.1 hx
    exact ⟨x, hmem, by simpa using hlive, heq⟩
  have hman : ∀ id ∈ (w.manual.bind (·.building)).toList.map (·.id),
      ∃ m view, w.manual = some m ∧ m.building = some view ∧ view.id = id := by
    intro id hid
    obtain ⟨view, hview, heq⟩ := mem_map.1 hid
    obtain ⟨m, hm, hbuild⟩ := bind_eq_some_iff.1 (mem_toList.1 hview)
    exact ⟨m, view, hm, hbuild, heq⟩
  refine nodup_append.2 ⟨?_, nodup_append.2 ⟨?_, hw.watched.nodup_alive, ?_⟩, ?_⟩
  · split
    · exact nodup_singleton _
    · exact nodup_nil
  · cases w.manual.bind (·.building) with
    | none => exact nodup_nil
    | some view => exact nodup_singleton _
  · intro id hid other hne heq
    obtain ⟨m, view, hm, hbuild, hview⟩ := hman id hid
    obtain ⟨x, hx, hlive, hviewId⟩ := halive other hne
    exact hw.manual_apart hm hbuild hx hlive (by rw [hviewId, hview, heq])
  · intro id hid other hne heq
    split at hid
    · next kind view left htask =>
      obtain rfl := mem_singleton.1 hid
      rcases mem_append.1 hne with hne | hne
      · obtain ⟨m, view', hm, hbuild, hview⟩ := hman other hne
        exact hw.builds_apart htask hm hbuild (by rw [hview, heq])
      · obtain ⟨x, hx, hlive, hviewId⟩ := halive other hne
        exact hw.inline_apart htask hx hlive (by rw [hviewId, heq])
    · cases hid

omit hw

/-- A facet that is not running has no child but those being stopped. -/
theorem Watched.facet (hw : w.Watched extension.toExtensionManifest)
    (hfacet : w.watchFacet ≠ .running) :
    ∀ m ∈ w.monitors, m.exited = false → m.stopping = true := by
  have hoff : w.watchEnabled = false := by
    rw [watchFacet] at hfacet
    split at hfacet
    · next hfail => exact hw.failed hfail
    · split at hfacet
      · exact absurd rfl hfacet
      · next hoff => exact not_eq_true _ ▸ hoff
  intro m hm hlive
  exact (hw.attended hoff m hm).elim (fun hgone => by rw [hlive] at hgone; exact nomatch hgone) id

/-! ## What the handlers keep -/

/-- Only the task changes, and no stop begins or ends. -/
theorem Watched.setTask (hw : w.Watched extension.toExtensionManifest)
    (htask : w.task ≠ .stoppingWatchers) (t : ActorTask) :
    ({ w with task := t } : BundleActor).Watched extension.toExtensionManifest :=
  { hw with reaped := fun _ => hw.reaped htask }

theorem ManualSound.setTask (hw : w.ManualSound extension.toExtensionManifest) (t : ActorTask) :
    ({ w with task := t } : BundleActor).ManualSound extension.toExtensionManifest :=
  { hw with }

/-- The loop that spawns begins with what it may rely on. -/
theorem Guarded.spawnWatchChildren (hwatched : w.Watched extension.toExtensionManifest)
    (hman : w.ManualSound extension.toExtensionManifest) (htask : w.task ≠ .stoppingWatchers) :
    (w.spawnWatchChildren extension.toExtensionManifest).Guarded extension.toExtensionManifest := by
  rw [BundleActor.spawnWatchChildren]
  split
  · refine ⟨hwatched.setTask htask _, hman.setTask _, ?_, fun id hid => ?_⟩
    · exact extension.distinct.sublist (Sublist.map _ filter_sublist)
    · obtain ⟨view, hview, rfl⟩ := mem_map.1 hid
      obtain ⟨hmem, hkeep⟩ := mem_filter.1 hview
      obtain ⟨hwatch, hnone⟩ := (and_eq_true _ _).mp hkeep
      refine ⟨mem_map.2 ⟨view, mem_filter.2 ⟨hmem, hwatch⟩, rfl⟩, fun hlist => ?_⟩
      obtain ⟨child, hch, hid⟩ := mem_map.1 hlist
      have hany : w.watchChildren.any (·.viewId = view.id) = true :=
        any_eq_true.2 ⟨child, hch, decide_eq_true hid⟩
      rw [hany] at hnone
      cases hnone
  · exact ⟨hwatched.setTask htask _, hman.setTask _, trivial⟩

/-- A crash ends the facet only when no other child is alive. -/
theorem Watched.recordWatchCrash (hw : w.Watched extension.toExtensionManifest)
    (hclr : w.exhausts cfg now = true → w.unattended = true) :
    (w.recordWatchCrash cfg now).Watched extension.toExtensionManifest := by
  rw [BundleActor.recordWatchCrash]
  split
  · next hexhausts =>
    refine { hw with attended := fun _ m hm => ?_, failed := fun _ => rfl }
    exact (or_eq_true _ _).mp (all_eq_true.1 (hclr hexhausts) m hm)
  · exact { hw with }

theorem ManualSound.recordWatchCrash (hw : w.ManualSound extension.toExtensionManifest) :
    (w.recordWatchCrash cfg now).ManualSound extension.toExtensionManifest := by
  rw [BundleActor.recordWatchCrash]
  split
  · exact { hw with copied := fun m hm hcopy => ⟨rfl, (hw.copied m hm hcopy).2⟩ }
  · exact { hw with }

theorem recordWatchCrash_task : (w.recordWatchCrash cfg now).task = w.task := by
  rw [recordWatchCrash]
  split <;> rfl

theorem recordWatchCrash_watchChildren {now : ℕ} :
    (w.recordWatchCrash cfg now).watchChildren = w.watchChildren := by
  rw [recordWatchCrash]
  split <;> rfl

/-- A child is spawned for a view that has none. -/
theorem Watched.spawn (hw : w.Watched extension.toExtensionManifest) {left : List String}
    (htask : w.task = .spawningWatchers (viewId :: left))
    (hsnd : w.TaskSound extension.toExtensionManifest) (hon : w.watchEnabled = true) :
    ({ w with
      task := .spawningWatchers left
      watchChildren := w.watchChildren ++ [⟨viewId, w.spawned⟩]
      monitors := w.monitors ++ [⟨w.watchGeneration, viewId, w.spawned, false, false⟩]
      spawned := w.spawned + 1 } : BundleActor).Watched extension.toExtensionManifest := by
  rw [TaskSound, htask] at hsnd
  obtain ⟨hid, hnone⟩ := hsnd.2 viewId mem_cons_self
  have hreaped := hw.reaped (by rw [htask]; exact nofun)
  refine ⟨?_, fun m hm hgen => ?_, fun m hm => ?_, fun m hm hgen => ?_, fun m hm => ?_,
    fun hoff => ?_, hw.failed, fun _ m hm hstop => ?_⟩
  · have hkeep : ∀ m ∈ w.monitors, (!m.exited || decide (m.generation = w.watchGeneration)) = true →
        m.viewId ≠ viewId := by
      intro m hm hkeep heq
      have hgen : m.generation = w.watchGeneration := by
        by_contra hgen
        rcases hw.signalled m hm hgen with hgone | hstop
        · simp [hgone, hgen] at hkeep
        · simp [hreaped m hm hstop, hgen] at hkeep
      exact hnone (mem_map.2 ⟨_, hw.tracked m hm hgen, heq⟩)
    rw [filter_append, map_append]
    refine nodup_append.2 ⟨hw.nodup, ?_, fun id hid id' hid' heq => ?_⟩
    · simp
    · obtain ⟨m, hm, rfl⟩ := mem_map.1 hid
      obtain ⟨hmem, hm⟩ := mem_filter.1 hm
      have hid' : id' = viewId := by simpa using hid'
      exact hkeep m hmem hm (heq.trans hid')
  · rcases mem_concat.1 hm with hm | rfl
    · exact mem_append_left _ (hw.tracked m hm hgen)
    · exact mem_concat_self
  · rcases mem_concat.1 hm with hm | rfl
    · exact hw.older m hm
    · exact le_rfl
  · rcases mem_concat.1 hm with hm | rfl
    · exact hw.signalled m hm hgen
    · exact absurd rfl hgen
  · rcases mem_concat.1 hm with hm | rfl
    · exact hw.declared m hm
    · exact hid
  · have hoff : w.watchEnabled = false := hoff
    rw [hon] at hoff
    cases hoff
  · rcases mem_concat.1 hm with hm | rfl
    · exact hreaped m hm hstop
    · cases hstop

/-- A watcher is spawned where it is guarded. -/
theorem Guarded.spawnWatchChild (hw : w.Guarded extension.toExtensionManifest) {left : List String}
    {spawns : Bool} (htask : w.task = .spawningWatchers (viewId :: left))
    (hclr : (if spawns then w.watchEnabled else !w.exhausts cfg now || w.unattended) = true) :
    (w.spawnWatchChild cfg viewId left spawns now).Guarded extension.toExtensionManifest := by
  have hsnd := hw.task
  rw [TaskSound, htask] at hsnd
  obtain ⟨hnd, hfree⟩ := hsnd
  obtain ⟨hnotMem, hnd⟩ := nodup_cons.1 hnd
  cases spawns with
  | true =>
    have hon : w.watchEnabled = true := hclr
    refine ⟨hw.watched.spawn htask hw.task hon, ?_, hnd, fun id hid => ?_⟩
    · refine ⟨hw.manual.alone, hw.manual.pending, fun m hm hcopy => ?_, hw.manual.building,
        hw.manual.declared⟩
      have hoff := (hw.manual.copied m hm hcopy).1
      rw [hon] at hoff
      cases hoff
    · obtain ⟨hwatch, hnone⟩ := hfree id (mem_cons_of_mem _ hid)
      refine ⟨hwatch, fun hlist => ?_⟩
      obtain ⟨child, hch, rfl⟩ := mem_map.1 hlist
      rcases mem_concat.1 hch with hch | rfl
      · exact hnone (mem_map_of_mem hch)
      · exact hnotMem hid
  | false =>
    have hclr : w.exhausts cfg now = true → w.unattended = true := fun h => by
      simpa [h] using hclr
    have htask' : (w.recordWatchCrash cfg now).task ≠ .stoppingWatchers := by
      rw [recordWatchCrash_task, htask]
      exact nofun
    refine ⟨(hw.watched.recordWatchCrash hclr).setTask htask' _,
      hw.manual.recordWatchCrash.setTask _, hnd, fun id hid => ?_⟩
    obtain ⟨hwatch, hnone⟩ := hfree id (mem_cons_of_mem _ hid)
    refine ⟨hwatch, ?_⟩
    rw [← @recordWatchCrash_watchChildren cfg w now] at hnone
    exact hnone

/-- A child exits, and its monitor is to report it. -/
theorem Watched.dies (hw : w.Watched extension.toExtensionManifest)
    (hi : w.monitors[i]? = some monitor) :
    ({ w with monitors := w.monitors.set i { monitor with exited := true } } :
      BundleActor).Watched extension.toExtensionManifest := by
  have hmem : monitor ∈ w.monitors := mem_of_getElem? hi
  have hold : ∀ m ∈ w.monitors.set i { monitor with exited := true },
      m ∈ w.monitors ∨ m = { monitor with exited := true } :=
    fun m hm => mem_or_eq_of_mem_set hm
  refine ⟨?_, fun m hm hgen => ?_, fun m hm => ?_, fun m hm hgen => ?_, fun m hm => ?_,
    fun hoff m hm => ?_, hw.failed, fun htask m hm hstop => ?_⟩
  · obtain ⟨hlt, hget⟩ := getElem?_eq_some_iff.1 hi
    -- The monitor is kept after the exit only where it was kept before.
    have hperm := ((getElem_cons_eraseIdx_perm hlt).filter fun m =>
      !m.exited || m.generation = w.watchGeneration).map (·.viewId)
    have hperm' := ((set_perm_cons_eraseIdx hlt { monitor with exited := true }).filter fun m =>
      !m.exited || m.generation = w.watchGeneration).map (·.viewId)
    refine hperm'.nodup_iff.2 ((hperm.nodup_iff.2 hw.nodup).sublist ?_)
    rw [hget, filter_cons, filter_cons]
    by_cases hgen : monitor.generation = w.watchGeneration
    · rw [if_pos (by simp [hgen]), if_pos (by simp [hgen])]
      exact Sublist.refl _
    · rw [if_neg (by simp [hgen])]
      split
      · exact sublist_cons_self _ _
      · exact Sublist.refl _
  · rcases hold m hm with hm | rfl
    · exact hw.tracked m hm hgen
    · exact hw.tracked monitor hmem hgen
  · rcases hold m hm with hm | rfl
    · exact hw.older m hm
    · exact hw.older monitor hmem
  · rcases hold m hm with hm | rfl
    · exact hw.signalled m hm hgen
    · exact .inl rfl
  · rcases hold m hm with hm | rfl
    · exact hw.declared m hm
    · exact hw.declared monitor hmem
  · rcases hold m hm with hm | rfl
    · exact hw.attended hoff m hm
    · exact .inl rfl
  · rcases hold m hm with hm | rfl
    · exact hw.reaped htask m hm hstop
    · rfl

/-- An exit that was reported leaves the list of monitors. -/
theorem Watched.erase (hw : w.Watched extension.toExtensionManifest) (i : ℕ) :
    ({ w with monitors := w.monitors.eraseIdx i } : BundleActor).Watched
      extension.toExtensionManifest :=
  ⟨hw.nodup.sublist (Sublist.map _ (Sublist.filter _ (eraseIdx_sublist _ _))),
    fun m hm => hw.tracked m (mem_of_mem_eraseIdx hm),
    fun m hm => hw.older m (mem_of_mem_eraseIdx hm),
    fun m hm => hw.signalled m (mem_of_mem_eraseIdx hm),
    fun m hm => hw.declared m (mem_of_mem_eraseIdx hm),
    fun hoff m hm => hw.attended hoff m (mem_of_mem_eraseIdx hm), hw.failed,
    fun htask m hm => hw.reaped htask m (mem_of_mem_eraseIdx hm)⟩

/-- The monitor that reports an exit was the only one of its session for
its view. -/
theorem Watched.erased_apart (hw : w.Watched extension.toExtensionManifest)
    (hi : w.monitors[i]? = some monitor) (hgen : monitor.generation = w.watchGeneration) :
    ∀ m ∈ w.monitors.eraseIdx i, m.generation = w.watchGeneration → m.viewId ≠ monitor.viewId := by
  obtain ⟨hlt, hget⟩ := getElem?_eq_some_iff.1 hi
  have hperm := ((getElem_cons_eraseIdx_perm hlt).filter fun m =>
    !m.exited || m.generation = w.watchGeneration).map (·.viewId)
  have hnd := hperm.nodup_iff.2 hw.nodup
  rw [hget, filter_cons, if_pos (by simp [hgen]), map_cons] at hnd
  intro m hm hgen' hid
  refine (nodup_cons.1 hnd).1 (mem_map.2 ⟨m, ?_, hid⟩)
  exact mem_filter.2 ⟨hm, by simp [hgen']⟩

/-- A report of the current session takes the child off the list, and the
other listed children stay. -/
theorem Watched.unlist (hw : w.Watched extension.toExtensionManifest)
    (hi : w.monitors[i]? = some monitor) (hgen : monitor.generation = w.watchGeneration) :
    ({ w with
      monitors := w.monitors.eraseIdx i
      watchChildren := w.watchChildren.eraseP (·.viewId = monitor.viewId) } :
      BundleActor).Watched extension.toExtensionManifest := by
  have hrest := hw.erase i
  refine { hrest with tracked := fun m hm hgen' => ?_ }
  have happart : m.viewId ≠ monitor.viewId := hw.erased_apart hi hgen m hm hgen'
  exact (mem_eraseP_of_neg (by simpa using happart)).2 (hrest.tracked m hm hgen')

theorem ManualSound.fewer (hw : w.ManualSound extension.toExtensionManifest)
    {monitors : List WatchMonitor}
    (hfewer : (∀ x ∈ w.monitors, x.exited = true) → ∀ x ∈ monitors, x.exited = true) :
    ({ w with monitors } : BundleActor).ManualSound extension.toExtensionManifest :=
  { hw with copied := fun m hm hcopy => ⟨(hw.copied m hm hcopy).1,
    hfewer (hw.copied m hm hcopy).2⟩ }

/-- The exit of a watcher keeps the bundles guarded. -/
theorem Guarded.handleWatchChildExited (hw : w.Guarded extension.toExtensionManifest)
    (hi : w.monitors[i]? = some monitor) (htask : w.task = .idle)
    (hclr : (!(w.reported monitor && w.watchEnabled && w.exhausts cfg now) ||
      w.unattended) = true) :
    ({ w with monitors := w.monitors.eraseIdx i }.handleWatchChildExited cfg monitor now).Guarded
      extension.toExtensionManifest := by
  have hman := hw.manual.fewer fun hgone x hx =>
    hgone x (mem_of_mem_eraseIdx (i := i) hx)
  have hrem : ({ w with
      monitors := w.monitors.eraseIdx i
      watchChildren := w.watchChildren.eraseP (·.viewId = monitor.viewId) } :
      BundleActor).ManualSound extension.toExtensionManifest :=
    { hman with }
  rw [BundleActor.handleWatchChildExited]
  split
  · next hrep =>
    have hgen : monitor.generation = w.watchGeneration :=
      of_decide_eq_true ((and_eq_true _ _).mp hrep).1
    have hunlist := hw.watched.unlist hi hgen
    split
    · next hon =>
      have hclr' : w.exhausts cfg now = true → w.unattended = true := by
        intro hexhausts
        have hrep : w.reported monitor = true := hrep
        have hon : w.watchEnabled = true := hon
        simpa [hrep, hon, hexhausts] using hclr
      refine ⟨hunlist.recordWatchCrash fun hexhausts => ?_, hrem.recordWatchCrash, ?_⟩
      · refine all_eq_true.2 fun m hm => ?_
        exact all_eq_true.1 (hclr' hexhausts) m (mem_of_mem_eraseIdx hm)
      · rw [TaskSound, recordWatchCrash_task]
        simp only [htask]
    · refine ⟨hunlist, hrem, ?_⟩
      simp only [TaskSound, htask]
  · refine ⟨hw.watched.erase i, hman, ?_⟩
    simp only [TaskSound, htask]

/-- A stop signals every child that is alive. -/
theorem Watched.stopWatchers (hw : w.Watched extension.toExtensionManifest)
    (htask : w.task = .idle) : w.stopWatchers.Watched extension.toExtensionManifest := by
  have hreaped := hw.reaped (by rw [htask]; exact nofun)
  have hsignalled : ∀ m ∈ w.stopWatchers.monitors, m.exited = true ∨ m.stopping = true := by
    intro m hm
    obtain ⟨old, hold, rfl⟩ := mem_map.1 hm
    by_cases hgen : old.generation = w.watchGeneration
    · refine .inr ((or_eq_true _ _).mpr (.inr ?_))
      exact any_eq_true.2 ⟨_, hw.tracked old hold hgen, decide_eq_true rfl⟩
    · refine (hw.signalled old hold hgen).imp id fun hstop => ?_
      exact (or_eq_true _ _).mpr (.inl hstop)
  have holder : ∀ m ∈ w.stopWatchers.monitors, m.generation ≤ w.watchGeneration := by
    intro m hm
    obtain ⟨old, hold, rfl⟩ := mem_map.1 hm
    exact hw.older old hold
  refine ⟨?_, fun m hm hgen => ?_, fun m hm => ?_, fun m hm _ => hsignalled m hm, fun m hm => ?_,
    fun _ => hsignalled, nofun, fun hdone m hm hstop => ?_⟩
  · have hlat : ∀ m ∈ w.monitors,
        (!m.exited || decide (m.generation = w.watchGeneration + 1)) = !m.exited := by
      intro m hm
      have := hw.older m hm
      rw [decide_eq_false (by omega), Bool.or_false]
    have halive : w.stopWatchers.monitors.filter
        (fun m => !m.exited || m.generation = w.watchGeneration + 1) =
        (w.monitors.filter (!·.exited)).map fun m => { m with
          stopping := m.stopping || w.watchChildren.any (·.pid = m.pid) } := by
      rw [BundleActor.stopWatchers, List.filter_map]
      exact congrArg _ (filter_congr hlat)
    have hids : (w.stopWatchers.monitors.filter
        (fun m => !m.exited || m.generation = w.watchGeneration + 1)).map (·.viewId) =
        (w.monitors.filter (!·.exited)).map (·.viewId) := by
      rw [halive, List.map_map]
      rfl
    exact hids ▸ hw.nodup_alive
  · have := holder m hm
    have hgen : m.generation = w.watchGeneration + 1 := hgen
    omega
  · exact Nat.le_succ_of_le (holder m hm)
  · obtain ⟨old, hold, rfl⟩ := mem_map.1 hm
    exact hw.declared old hold
  · obtain ⟨old, hold, rfl⟩ := mem_map.1 hm
    have hnil : w.watchChildren = [] := by
      by_contra hne
      refine hdone ?_
      rw [BundleActor.stopWatchers]
      simp [hne]
    rcases (or_eq_true _ _).mp hstop with hstop | hany
    · exact hreaped old hold hstop
    · rw [hnil] at hany
      cases hany

include hw

variable (hm : w.manual = some m)
include hm

/-- The manual build goes on, and builds no more than it had to. -/
theorem Guarded.setManual {m' : ManualViewsBuild} (hcopy : m'.watchEnabled = m.watchEnabled)
    (hbuild : ∀ view, m'.building = some view → m'.skips view = false ∧
      view ∈ extension.views) (hleft : m'.left ⊆ m.left) (htoBuild : m'.toBuild ⊆ m.toBuild) :
    ({ w with manual := some m' } : BundleActor).Guarded extension.toExtensionManifest := by
  have hwatch := hw.watched
  have hflag := hw.manual.alone (by rw [hm]; rfl)
  refine ⟨{ hwatch with }, ⟨fun _ => hflag, hw.manual.pending, ?_, ?_, ?_⟩, ?_⟩
  · rintro _ ⟨⟩ hoff
    exact hw.manual.copied m hm (hcopy ▸ hoff)
  · rintro _ ⟨⟩ view hview
    exact hbuild view hview
  · rintro _ ⟨⟩ view hview
    exact hw.manual.declared m hm view (hleft hview)
  · have hsnd := hw.task
    simp only [TaskSound] at hsnd ⊢
    split
    · next h => simpa only [h] using hsnd
    · next view left h =>
      simp only [h] at hsnd
      refine ⟨hsnd.1, hsnd.2.1, ?_⟩
      rintro _ ⟨⟩ hview
      exact hsnd.2.2 m hm (htoBuild hview)
    · next h => simpa only [h] using hsnd
    · next h => simpa only [h] using hsnd
    · next h => simpa only [h] using hsnd
    · trivial

/-- The manual build is over. -/
theorem Guarded.endManual {failure : Option String} :
    (w.endManual m failure).Guarded extension.toExtensionManifest := by
  have hwatch := hw.watched
  have hflag := (hw.manual.alone (by rw [hm]; rfl)).1
  refine ⟨{ hwatch with }, ⟨nofun, fun _ => hflag, nofun, nofun, nofun⟩, ?_⟩
  have hsnd := hw.task
  simp only [TaskSound, BundleActor.endManual] at hsnd ⊢
  split
  · next h => simpa only [h] using hsnd
  · next h =>
    simp only [h] at hsnd
    exact ⟨hsnd.1, hsnd.2.1, nofun⟩
  · next h => simpa only [h] using hsnd
  · next h => simpa only [h] using hsnd
  · next h => simpa only [h] using hsnd
  · trivial

/-- The next view of a manual build keeps the bundles guarded. -/
theorem Guarded.nextManual (hnone : m.building = none) :
    (w.nextManual m).Guarded extension.toExtensionManifest := by
  rw [BundleActor.nextManual]
  split
  · exact hw.endManual hm
  · next view left hleft =>
    have hsub : left ⊆ m.left := hleft ▸ subset_cons_self _ _
    refine hw.setManual hm rfl (fun view' hview' => ?_) hsub ?_
    · by_cases hskips : m.skips view = true
      · rw [if_pos hskips] at hview'
        cases hview'
      · rw [if_neg hskips] at hview'
        cases hview'
        exact ⟨not_eq_true _ ▸ hskips, hw.manual.declared m hm view (hleft ▸ mem_cons_self)⟩
    · rw [ManualViewsBuild.toBuild, ManualViewsBuild.toBuild, hnone, hleft, filter_cons]
      by_cases hskips : m.skips view = true
      · simp only [hskips, if_true]
        exact Subset.refl _
      · simp only [hskips]
        exact Subset.refl _

theorem Guarded.manualBuilt : (w.manualBuilt m view ok).Guarded extension.toExtensionManifest := by
  rw [BundleActor.manualBuilt]
  split
  · exact hw.setManual hm rfl nofun (Subset.refl _) (subset_append_right _ _)
  · exact hw.endManual hm

omit hm

/-- The inline builds are over; the gating ones enable the facet. -/
theorem Guarded.viewsBuilt (htask : w.task = .viewBuilds kind []) :
    (w.viewsBuilt extension.toExtensionManifest kind).Guarded extension.toExtensionManifest := by
  have hbusy : w.task ≠ .stoppingWatchers := by
    rw [htask]
    exact nofun
  cases kind with
  | startFlow => exact ⟨hw.watched.setTask hbusy _, hw.manual.setTask _, trivial⟩
  | watchStart =>
    have hsnd := hw.task
    rw [TaskSound, htask] at hsnd
    have hnone : w.manual = none := by
      cases hm : w.manual with
      | none => rfl
      | some m =>
        have hflag := (hw.manual.alone (by rw [hm]; rfl)).1
        rw [hsnd.2.1] at hflag
        cases hflag
    have hwatch := hw.watched
    refine Guarded.spawnWatchChildren { hwatch with attended := nofun, failed := nofun }
      ⟨hw.manual.alone, hw.manual.pending, fun m hm => ?_, hw.manual.building,
        hw.manual.declared⟩ hbusy
    have hm : w.manual = some m := hm
    rw [hnone] at hm
    cases hm

/-- A view is passed over, or it is built where no one else writes it. -/
theorem Guarded.nextView {entryExists : Bool} (htask : w.task = .viewBuilds kind (view :: left))
    (hclr : kind = .startFlow → (w.skips view entryExists .startFlow ||
      !w.manual.any (·.toBuild.contains view)) = true)
    (h : (if w.skips view entryExists kind then some { w with task := .viewBuilds kind left }
      else some { w with task := .viewBuild kind view left }) = some w') :
    w'.Guarded extension.toExtensionManifest := by
  have hbusy : w.task ≠ .stoppingWatchers := by
    rw [htask]
    exact nofun
  have hsnd := hw.task
  rw [TaskSound, htask] at hsnd
  split at h
  · cases h
    refine ⟨hw.watched.setTask hbusy _, hw.manual.setTask _, ?_⟩
    cases kind with
    | startFlow => exact Subset.trans (subset_cons_self _ _) hsnd
    | watchStart => exact ⟨Subset.trans (subset_cons_self _ _) hsnd.1, hsnd.2⟩
  · next hskips =>
    cases h
    refine ⟨hw.watched.setTask hbusy _, hw.manual.setTask _, ?_⟩
    cases kind with
    | startFlow =>
      have hskips : w.skips view entryExists .startFlow = false := not_eq_true _ ▸ hskips
      refine ⟨hsnd, ?_, fun m hm hmem => ?_⟩
      · rw [skips] at hskips
        simp only [or_eq_false_iff] at hskips
        exact hskips.1.2
      · have hapart := hclr rfl
        have hm : w.manual = some m := hm
        rw [hskips, hm] at hapart
        simp [hmem] at hapart
    | watchStart => exact hsnd

/-- An inline build has ended; a gating one may fail the facet, which was
not running. -/
theorem Guarded.viewBuilt (htask : w.task = .viewBuild kind view left) :
    (w.viewBuilt kind view left ok).Guarded extension.toExtensionManifest := by
  have hbusy : w.task ≠ .stoppingWatchers := by
    rw [htask]
    exact nofun
  have hsnd := hw.task
  rw [TaskSound, htask] at hsnd
  have hwatch := hw.watched
  have hman := hw.manual
  rw [BundleActor.viewBuilt]
  split
  · refine ⟨{ hwatch with reaped := fun _ => hwatch.reaped hbusy }, { hman with }, ?_⟩
    cases kind with
    | startFlow => exact Subset.trans (subset_cons_self _ _) hsnd.1
    | watchStart => exact ⟨Subset.trans (subset_cons_self _ _) hsnd.1, hsnd.2⟩
  · refine ⟨{ hwatch with failed := fun hfail => ?_, reaped := fun _ => hwatch.reaped hbusy },
      { hman with },
      trivial⟩
    cases kind with
    | startFlow => exact hwatch.failed (by simpa using hfail)
    | watchStart => exact hsnd.2.2

/-- A manual build begins; where its copy says that the facet does not
run, no watch child is alive. -/
theorem Guarded.startViewsBuild (htask : w.task = .idle) :
    (w.startViewsBuild extension.toExtensionManifest).Guarded extension.toExtensionManifest := by
  rw [BundleActor.startViewsBuild]
  split
  · exact hw
  · next hbeg =>
    have hwatch := hw.watched
    have hflag : w.viewsBuildInFlight = false := by
      simp only [or_eq_true, not_or, not_eq_true] at hbeg
      exact hbeg.2
    have hfin : w.finished = none := by
      cases hf : w.finished with
      | none => rfl
      | some outcome =>
        have := hw.manual.pending (by rw [hf]; rfl)
        rw [hflag] at this
        cases this
    refine ⟨{ hwatch with }, ⟨fun _ => ⟨rfl, hfin⟩, fun _ => rfl, ?_, ?_, ?_⟩, ?_⟩
    · rintro _ ⟨⟩ hoff
      exact ⟨hoff, hwatch.all_exited hoff (by rw [htask]; exact nofun)⟩
    · rintro _ ⟨⟩ view hview
      cases hview
    · rintro _ ⟨⟩ view hview
      exact (mem_filter.1 hview).1
    · simp only [TaskSound, htask]

/-- The end of a manual build keeps the bundles guarded. -/
theorem Guarded.finishViewsBuild
    {outcome : ManualViewsBuildOutcome} (hfin : w.finished = some outcome)
    (htask : w.task = .idle) :
    (w.finishViewsBuild outcome).Guarded extension.toExtensionManifest := by
  have hwatch := hw.watched
  have hnone : w.manual = none := by
    cases hm : w.manual with
    | none => rfl
    | some m =>
      have := (hw.manual.alone (by rw [hm]; rfl)).2
      rw [hfin] at this
      cases this
  refine ⟨{ hwatch with },
    ⟨fun hsome => ?_, nofun, hw.manual.copied, hw.manual.building, hw.manual.declared⟩, ?_⟩
  · have hsome : w.manual.isSome = true := hsome
    rw [hnone] at hsome
    cases hsome
  · simp only [TaskSound, BundleActor.finishViewsBuild, htask]

/-- A watch that starts keeps the bundles guarded. -/
theorem Guarded.handleWatchStart (htask : w.task = .idle) :
    (w.handleWatchStart extension.toExtensionManifest).Guarded extension.toExtensionManifest := by
  rw [BundleActor.handleWatchStart]
  split
  · exact hw
  · next hbeg =>
    simp only [or_eq_true, not_or, not_eq_true] at hbeg
    exact ⟨hw.watched.setTask (by rw [htask]; exact nofun) _, hw.manual.setTask _,
      fun view hview => (mem_filter.1 hview).1, hbeg.1.1, hbeg.2⟩

/-- Watchers that are stopped keep the bundles guarded. -/
theorem Guarded.stopWatchers
    (htask : w.task = .idle) : w.stopWatchers.Guarded extension.toExtensionManifest := by
  refine ⟨hw.watched.stopWatchers htask, ⟨hw.manual.alone, hw.manual.pending,
    fun m hm hoff => ⟨rfl, fun x hx => ?_⟩, hw.manual.building, hw.manual.declared⟩, ?_⟩
  · obtain ⟨old, hold, rfl⟩ := mem_map.1 hx
    exact (hw.manual.copied m hm hoff).2 old hold
  · rw [TaskSound, BundleActor.stopWatchers]
    cases w.watchChildren.isEmpty <;> trivial

/-- A child exits; the task of the actor goes on. -/
theorem Guarded.dies (hi : w.monitors[i]? = some monitor) :
    ({ w with monitors := w.monitors.set i { monitor with exited := true } } :
      BundleActor).Guarded extension.toExtensionManifest := by
  refine ⟨hw.watched.dies hi, hw.manual.fewer fun hgone x hx => ?_, hw.task⟩
  rcases mem_or_eq_of_mem_set hx with hx | rfl
  · exact hgone x hx
  · rfl

/-- **A step that is clear of the defects keeps the invariants.** -/
theorem Guarded.step {a : BundleAction} (hclr : w.clear cfg a = true)
    (h : bundleStep extension.toExtensionManifest cfg w a = some w') :

    w'.Guarded extension.toExtensionManifest := by
  cases a with
  | startFlow =>
    simp only [bundleStep, ite_none_right_eq_some, some.injEq] at h
    obtain ⟨htask, rfl⟩ := h
    exact ⟨hw.watched.setTask (by rw [htask]; exact nofun) _, hw.manual.setTask _, trivial⟩
  | serverBuilt ok =>
    simp only [bundleStep, ite_none_right_eq_some, some.injEq] at h
    obtain ⟨htask, rfl⟩ := h
    refine ⟨hw.watched.setTask (by rw [htask]; exact nofun) _, hw.manual.setTask _, ?_⟩
    cases ok with
    | true => exact Subset.refl _
    | false => trivial
  | nextView entryExists =>
    dsimp only [bundleStep] at h
    split at h
    · next htask =>
      cases h
      exact hw.viewsBuilt htask
    · next kind view left htask =>
      refine hw.nextView htask (fun hkind => ?_) h
      simpa only [clear, htask, hkind] using hclr
    · cases h
  | viewBuilt ok =>
    dsimp only [bundleStep] at h
    split at h
    · next htask =>
      cases h
      exact hw.viewBuilt htask
    · cases h
  | viewsBuild =>
    simp only [bundleStep, ite_none_right_eq_some, some.injEq] at h
    obtain ⟨htask, rfl⟩ := h
    exact hw.startViewsBuild htask
  | nextManual =>
    dsimp only [bundleStep] at h
    split at h
    · next m hm =>
      simp only [ite_none_right_eq_some, some.injEq] at h
      obtain ⟨hnone, rfl⟩ := h
      exact hw.nextManual hm (isNone_iff_eq_none.1 hnone)
    · cases h
  | manualBuilt ok =>
    dsimp only [bundleStep] at h
    split at h
    · next m hm =>
      obtain ⟨view, -, rfl⟩ := map_eq_some_iff.1 h
      exact hw.manualBuilt hm
    · cases h
  | viewsBuildFinished =>
    simp only [bundleStep, ite_none_right_eq_some] at h
    obtain ⟨htask, h⟩ := h
    obtain ⟨outcome, hfin, rfl⟩ := map_eq_some_iff.1 h
    exact hw.finishViewsBuild hfin htask
  | watchStart =>
    simp only [bundleStep, ite_none_right_eq_some, some.injEq] at h
    obtain ⟨htask, rfl⟩ := h
    exact hw.handleWatchStart htask
  | watchStop =>
    simp only [bundleStep, ite_none_right_eq_some, some.injEq] at h
    obtain ⟨htask, rfl⟩ := h
    exact hw.stopWatchers htask
  | watchStopped =>
    simp only [bundleStep, ite_none_right_eq_some, some.injEq] at h
    obtain ⟨htask, rfl⟩ := h
    have hwatch := hw.watched
    -- The stop has waited for its children.
    exact ⟨{ hwatch with reaped := fun _ m hm _ => all_eq_true.1 hclr m hm },
      hw.manual.setTask _, trivial⟩
  | watchBackoff now =>
    simp only [bundleStep, ite_none_right_eq_some, some.injEq] at h
    obtain ⟨⟨htask, -⟩, rfl⟩ := h
    have hwatch := hw.watched
    have hman := hw.manual
    exact Guarded.spawnWatchChildren { hwatch with } { hman with }
      (by simp only [htask]; exact nofun)
  | spawnNext spawns now =>
    dsimp only [bundleStep] at h
    split at h
    · next htask =>
      cases h
      exact ⟨hw.watched.setTask (by rw [htask]; exact nofun) _, hw.manual.setTask _, trivial⟩
    · next viewId left htask =>
      cases h
      refine hw.spawnWatchChild htask ?_
      simpa only [clear, htask] using hclr
    · cases h
  | watchDies i =>
    dsimp only [bundleStep] at h
    split at h
    · next monitor hi =>
      simp only [ite_none_left_eq_some, some.injEq] at h
      obtain ⟨-, rfl⟩ := h
      exact hw.dies hi
    · cases h
  | watchChildExited i now =>
    dsimp only [bundleStep] at h
    split at h
    · next monitor hi =>
      simp only [ite_none_right_eq_some, some.injEq] at h
      obtain ⟨⟨htask, -⟩, rfl⟩ := h
      refine hw.handleWatchChildExited hi htask ?_
      simpa only [clear, hi] using hclr
    · cases h

omit hw

theorem Guarded.init : BundleActor.init.Guarded extension.toExtensionManifest :=
  ⟨⟨nodup_nil, nofun, nofun, nofun, nofun, nofun, nofun, nofun⟩,
    ⟨nofun, nofun, nofun, nofun, nofun⟩, trivial⟩

end BundleActor

section

variable (extension : ParsedManifest) (cfg : SupervisorConfig)

/-- The runs whose every step is clear. -/
def clearBundleMachine (extension : ExtensionManifest) : Machine BundleActor BundleAction :=
  (bundleMachine extension cfg).restrict fun w a => w.clear cfg a = true

/-- **Where each step is clear, a bundle has one writer at most**, and a
facet that failed or stopped has no child alive but those being
stopped. -/
theorem one_writer_per_bundle {w : BundleActor}
    (h : (clearBundleMachine cfg extension.toExtensionManifest).Reachable w) :
    w.writers.Nodup ∧ (w.watchFacet ≠ .running →
      ∀ m ∈ w.monitors, m.exited = false → m.stopping = true) := by
  have hw : w.Guarded extension.toExtensionManifest :=
    h.rule BundleActor.Guarded.init fun _ _ _ _ hu hv =>
      hu.step (Machine.restrict_step_eq_some.1 hv).1 (Machine.restrict_step_eq_some.1 hv).2
  exact ⟨hw.nodup_writers, hw.watched.facet⟩

end

/-- An extension with two watched views. -/
def watchedPair : ParsedManifest where
  server := some ⟨true⟩
  views := [⟨"main", true, true, false⟩, ⟨"panel", true, true, true⟩]
  distinct := by decide

/-- The watch facet is enabled where both bundles exist. -/
def watchBoth : List BundleAction :=
  [.watchStart, .nextView true, .nextView true, .nextView true, .spawnNext true 0,
    .spawnNext true 0, .spawnNext false 0]

/-- A manual build and a restart while the views are watched, the end of
the facet, and then a manual build of the one view and a start that
builds the other. -/
def buildsApart : List BundleAction :=
  watchBoth ++
    [BundleAction.viewsBuild, .nextManual, .startFlow, .serverBuilt true, .nextView false,
    .nextManual, .nextView false, .nextView false, .nextManual, .viewsBuildFinished, .watchStop,
    .watchDies 0, .watchDies 1, .watchStopped, .viewsBuild, .nextManual, .manualBuilt true,
    .nextManual, .startFlow, .serverBuilt true, .nextView false]

/-- Two writers at once, of two bundles. -/
theorem one_writer_per_bundle_example :
    ∃ w : BundleActor, w.writers = ["main", "panel"] ∧ w.watchFacet = .stopped ∧ w.writers.Nodup :=
  ⟨(clearBundleMachine .default watchedPair.toExtensionManifest).run buildsApart .init,
    by decide +kernel, by decide +kernel, (one_writer_per_bundle watchedPair .default
      ⟨buildsApart, Machine.exec_eq_run (by decide +kernel)⟩).1⟩

/-- The runs of the extension with two watched views. -/
def watchedPairMachine : Machine BundleActor BundleAction :=
  bundleMachine watchedPair.toExtensionManifest .default

/-- A start flow while a manual build is in flight. -/
def crossedRestart : List BundleAction :=
  [.viewsBuild, .nextManual, .startFlow, .serverBuilt true, .nextView false]

/-- Five crashes of the one view, and a manual build of both. -/
def spentBudget : List BundleAction :=
  watchBoth ++
    [BundleAction.watchDies 0, .watchChildExited 0 100, .watchBackoff 600, .spawnNext true 600,
    .spawnNext false 600, .watchDies 1, .watchChildExited 1 700, .watchBackoff 1700,
    .spawnNext true 1700, .spawnNext false 1700, .watchDies 1, .watchChildExited 1 1800,
    .watchBackoff 3800, .spawnNext true 3800, .spawnNext false 3800, .watchDies 1,
    .watchChildExited 1 3900, .watchBackoff 7900, .spawnNext true 7900, .spawnNext false 7900,
    .watchDies 1, .watchChildExited 1 8000, .viewsBuild, .nextManual, .manualBuilt true,
    .nextManual]

/-- **The builds of a start and a manual build meet**: the start flow
does not ask whether a manual build is in flight. **And a facet that
failed leaves a child behind**: the crashes of one view exhaust the
budget, the child of the other lives on, and a manual build writes the
same bundle. -/
theorem two_writers_of_a_bundle :
    (∃ w, watchedPairMachine.Reachable w ∧ w.writers = ["main", "main"]) ∧
    ∃ w, watchedPairMachine.Reachable w ∧ w.writers = ["panel", "panel"] ∧
      w.watchFacet = .failed ∧ ∃ m ∈ w.monitors, m.exited = false ∧ m.stopping = false :=
  ⟨⟨watchedPairMachine.run crossedRestart .init, ⟨_, Machine.exec_eq_run (by decide +kernel)⟩,
    by decide +kernel⟩,
  ⟨watchedPairMachine.run spentBudget .init, ⟨_, Machine.exec_eq_run (by decide +kernel)⟩,
    by decide +kernel⟩⟩

end Extensions

end Remux
