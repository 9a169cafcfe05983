import Mathlib.Order.Basic
import Remux.Extensions.Model.RunState

/-!
# The orphan record

Two things make the file complete. The map has the live groups, each in
a slot of its own (`Slots`): this fails where two groups share a role,
the second taking the slot of the first and the end of either freeing
it. And the file has the map, but for calls in progress (`Persists`): the
call that changed the map last writes the snapshot last, and whichever
call renames the temporary file after that renames this snapshot. This
fails where an older snapshot is written after a newer one.
-/

namespace Remux

open List

namespace Extensions

namespace RunWorld

open Bool

variable {w : RunWorld} {thread : RunThread} {call : PersistCall}

/-- **The map has the live groups**, and no two of them in one slot. -/
structure Slots (w : RunWorld) : Prop where
  apart : (w.children.map fun child => child.1.key).Nodup
  lookup : ∀ key entry, w.entries.lookup key = some entry ↔
    ∃ owner, owner.key = key ∧ (owner, entry) ∈ w.children
  settled : w.lingering = []

/-- Where the newest snapshot is: its call has still to write it, or it
is the temporary file and a call has still to rename it, or it is the
file. -/
inductive Newest (w : RunWorld) : Prop
  | taken (call : PersistCall) (hmem : call ∈ w.calls) (hversion : call.version = w.version)
      (hunwritten : call.written = false) (hsnapshot : call.snapshot = w.entries)
      (hbehind : w.written < w.version)
  | written (hwritten : w.written = w.version) (htemp : w.temp = some w.entries)
      (hcalls : w.calls ≠ [])
      (holder : ∀ call ∈ w.calls, call.written = false → call.version < w.version)
  | published (hwritten : w.written = w.version)
      (hfile : w.file = some w.entries ∨ w.entries = ∅ ∧ w.file = none) (htemp : w.temp = none)
      (holder : ∀ call ∈ w.calls, call.written = false → call.version < w.version)

/-- **The file has the map**, or will have it when the calls are done. -/
structure Persists (w : RunWorld) : Prop where
  threads : (w.calls.map PersistCall.thread).Nodup
  versions : (w.calls.map PersistCall.version).Nodup
  bound : ∀ call ∈ w.calls, call.version ≤ w.version
  newest : w.Newest

/-! ## Calls -/

theorem mem_of_callOf (h : w.callOf thread = some call) : call ∈ w.calls ∧ call.thread = thread :=
  ⟨mem_of_find?_eq_some h, by simpa using find?_some h⟩

theorem ne_of_callOf_eq_none (h : (w.callOf thread).isSome = false) :
    ∀ call ∈ w.calls, call.thread ≠ thread := by
  intro call hmem heq
  have hnone := find?_eq_none.1 (Option.not_isSome_iff_eq_none.1 (not_eq_true _ ▸ h)) call
  exact hnone hmem (decide_eq_true heq)

variable {other : PersistCall} {owner : Owner} {entry : RunEntry} {key : RunKey}

theorem Persists.eq_of_thread (hw : w.Persists) (hcall : call ∈ w.calls) (hne : other ∈ w.calls)
    (h : call.thread = other.thread) : call = other :=
  inj_on_of_nodup_map hw.threads hcall hne h

theorem Persists.eq_of_version (hw : w.Persists) (hcall : call ∈ w.calls) (hne : other ∈ w.calls)
    (h : call.version = other.version) : call = other :=
  inj_on_of_nodup_map hw.versions hcall hne h

theorem Persists.init : init.Persists where
  threads := nodup_nil
  versions := nodup_nil
  bound := nofun
  newest := .published rfl (.inr ⟨rfl, rfl⟩) rfl nofun

/-- Only the calls, the files and the map count. -/
theorem Persists.congr {children : List (Owner × RunEntry)} {lingering : List (RunKey × RunEntry)}
    (hw : w.Persists) : Persists { w with children, lingering } := by
  obtain ⟨threads, versions, bound, newest⟩ := hw
  refine ⟨threads, versions, bound, ?_⟩
  cases newest with
  | taken call hmem hver hun hsnap hbehind =>
    exact .taken call hmem hver hun hsnap hbehind
  | written hwr htemp hcalls holder => exact .written hwr htemp hcalls holder
  | published hwr hfile htemp holder => exact .published hwr hfile htemp holder

theorem Newest.written_le (h : w.Newest) : w.written ≤ w.version := by
  cases h with
  | taken _ _ _ _ _ hbehind => exact hbehind.le
  | written hwr _ _ _ => exact hwr.le
  | published hwr _ _ _ => exact hwr.le

/-- A call's snapshot is the newest there is. -/
theorem Persists.update {entries : RunEntries} (hw : w.Persists)
    (hfree : ∀ call ∈ w.calls, call.thread ≠ thread) : (w.update thread entries).Persists where
  threads := by
    refine nodup_cons.2 ⟨fun hmem => ?_, hw.threads⟩
    obtain ⟨call, hcall, heq⟩ := mem_map.1 hmem
    exact hfree call hcall heq
  versions := by
    refine nodup_cons.2 ⟨fun hmem => ?_, hw.versions⟩
    obtain ⟨call, hcall, heq⟩ := mem_map.1 hmem
    have hle := hw.bound call hcall
    dsimp only at heq
    omega
  bound := by
    intro call hcall
    rcases mem_cons.1 hcall with rfl | hcall
    · exact le_rfl
    · exact (hw.bound call hcall).trans (Nat.le_succ _)
  newest := .taken _ mem_cons_self rfl rfl rfl (Nat.lt_succ_of_le hw.newest.written_le)

/-- Marking a call as written keeps its thread and its version. -/
theorem map_written {β : Type*} (f : PersistCall → β)
    (hf : ∀ call, f { call with written := true } = f call) (calls : List PersistCall) :
    (calls.map fun other =>
      if other.thread = thread then { other with written := true } else other).map f =
      calls.map f := by
  rw [map_map]
  refine map_congr_left fun other _ => ?_
  rw [Function.comp_apply]
  split
  · exact hf other
  · rfl

/-- A snapshot that is written is the newest that was. -/
theorem Persists.write (hw : w.Persists) (hcall : w.callOf thread = some call)
    (hunwritten : call.written = false) (hnewest : w.written ≤ call.version) :
    Persists { w with
      temp := some call.snapshot
      written := call.version
      calls := w.calls.map fun other =>
        if other.thread = thread then { other with written := true } else other } := by
  obtain ⟨hmem, hthr⟩ := mem_of_callOf hcall
  refine ⟨?_, ?_, ?_, ?_⟩
  · exact (map_written PersistCall.thread (fun _ => rfl) w.calls).symm ▸ hw.threads
  · exact (map_written PersistCall.version (fun _ => rfl) w.calls).symm ▸ hw.versions
  · intro other hother
    obtain ⟨before, hbef, rfl⟩ := mem_map.1 hother
    have hle := hw.bound before hbef
    split <;> exact hle
  · -- a call that is still unwritten is another one
    have hothers : ∀ other ∈ w.calls.map (fun other =>
        if other.thread = thread then { other with written := true } else other),
        other.written = false → other ∈ w.calls ∧ other ≠ call := by
      intro other hother hun
      obtain ⟨before, hbef, rfl⟩ := mem_map.1 hother
      split at hun
      · cases hun
      · next hne =>
        rw [if_neg hne]
        exact ⟨hbef, fun heq => hne (heq ▸ hthr)⟩
    cases hw.newest with
    | taken newest hnmem hver hun hsnap hbehind =>
      by_cases heq : call = newest
      · subst heq
        refine .written hver (congrArg some hsnap) ?_ fun other hother hun => ?_
        · simpa using ne_nil_of_mem hmem
        · obtain ⟨hother, hne⟩ := hothers other hother hun
          have hle := hw.bound other hother
          refine lt_of_le_of_ne hle fun heq => hne (hw.eq_of_version hother hmem ?_)
          exact heq.trans hver.symm
      · have hne : newest.thread ≠ thread := fun h =>
          heq (hw.eq_of_thread hmem hnmem (hthr.trans h.symm))
        refine .taken newest (mem_map.2 ⟨newest, hnmem, if_neg hne⟩) hver hun hsnap ?_
        refine lt_of_le_of_ne (hw.bound call hmem) fun h => ?_
        exact heq (hw.eq_of_version hmem hnmem (h.trans hver.symm))
    | written hwr _ _ holder =>
      have := holder call hmem hunwritten
      omega
    | published hwr _ _ holder =>
      have := holder call hmem hunwritten
      omega

/-- A rename puts the newest snapshot that was written in place. -/
theorem Persists.rename (hw : w.Persists) (hcall : w.callOf thread = some call)
    (hwr : call.written = true) :
    Persists { w with
      file := w.temp.or w.file
      temp := none
      calls := w.calls.filter fun other => other.thread ≠ thread } := by
  obtain ⟨hmem, hthr⟩ := mem_of_callOf hcall
  have hsub : (w.calls.filter fun other => other.thread ≠ thread).Sublist w.calls :=
    filter_sublist
  refine ⟨hw.threads.sublist (hsub.map _), hw.versions.sublist (hsub.map _),
    fun other hne => hw.bound other (hsub.subset hne), ?_⟩
  cases hw.newest with
  | taken newest hnmem hver hun hsnap hbehind =>
    refine .taken newest (mem_filter.2 ⟨hnmem, decide_eq_true fun h => ?_⟩) hver hun hsnap hbehind
    obtain rfl := hw.eq_of_thread hmem hnmem (hthr.trans h.symm)
    rw [hwr] at hun
    cases hun
  | written hlast htemp _ holder =>
    refine .published hlast (.inl ?_) rfl fun other hne => holder other (hsub.subset hne)
    rw [htemp, Option.some_or]
  | published hlast hfile htemp holder =>
    refine .published hlast ?_ rfl fun other hne => holder other (hsub.subset hne)
    rw [htemp, Option.none_or]
    exact hfile

/-! ## Slots -/

theorem Slots.init : init.Slots where
  apart := nodup_nil
  lookup key entry := by simp [RunWorld.init]
  settled := rfl

theorem Slots.eq_of_key {child other : Owner × RunEntry} (hw : w.Slots) (hch : child ∈ w.children)
    (hne : other ∈ w.children) (h : child.1.key = other.1.key) : child = other :=
  inj_on_of_nodup_map hw.apart hch hne h

/-- A group takes a free slot. -/
theorem Slots.record (hw : w.Slots) (hfree : ∀ child ∈ w.children, child.1.key ≠ owner.key) :
    Slots (({ w with children := (owner, entry) :: w.children } :
      RunWorld).record owner entry) where
  apart := by
    refine nodup_cons.2 ⟨fun hmem => ?_, hw.apart⟩
    obtain ⟨child, hch, heq⟩ := mem_map.1 hmem
    exact hfree child hch heq
  lookup key entry' := by
    change (w.entries.insert owner.key entry).lookup key = some entry' ↔ _
    rw [Assoc.lookup_insert_eq]
    constructor
    · intro h
      split at h
      · next hkey => exact ⟨owner, hkey.symm, by rw [Option.some.inj h]; exact mem_cons_self⟩
      · obtain ⟨other, hkey, hmem⟩ := (hw.lookup key entry').1 h
        exact ⟨other, hkey, mem_cons_of_mem _ hmem⟩
    · rintro ⟨other, rfl, hmem⟩
      rcases mem_cons.1 hmem with heq | hmem
      · cases heq
        exact if_pos rfl
      · rw [if_neg (hfree _ hmem)]
        exact (hw.lookup _ entry').2 ⟨other, rfl, hmem⟩
  settled := hw.settled

/-- The groups of a slot leave it. -/
theorem Slots.remove {gone lingers : Owner → Bool} (hw : w.Slots)
    (hgone : ∀ child ∈ w.children, gone child.1 = true ↔ child.1.key = key)
    (hlingers : ∀ owner, lingers owner = false) :
    Slots ((w.leave gone lingers).remove thread key) where
  apart := hw.apart.sublist (filter_sublist.map _)
  lookup key' entry := by
    change (w.entries.erase key).lookup key' = some entry ↔
      ∃ owner, owner.key = key' ∧ (owner, entry) ∈ w.children.filter fun child => !gone child.1
    rw [Assoc.lookup_erase_eq]
    constructor
    · intro h
      split at h
      · cases h
      · next hkey =>
        obtain ⟨owner, rfl, hmem⟩ := (hw.lookup key' entry).1 h
        refine ⟨owner, rfl, mem_filter.2 ⟨hmem, ?_⟩⟩
        simpa using mt (hgone _ hmem).1 hkey
    · rintro ⟨owner, rfl, hmem⟩
      obtain ⟨hmem, hstays⟩ := mem_filter.1 hmem
      have hkey : owner.key ≠ key := fun h => by simp [(hgone _ hmem).2 h] at hstays
      rw [if_neg hkey]
      exact (hw.lookup _ entry).2 ⟨owner, rfl, hmem⟩
  settled := by
    change (w.children.filter fun child => gone child.1 && lingers child.1).map _ ++
      w.lingering = []
    simp [hlingers, hw.settled]

/-- Owners that share a slot share its key. -/
theorem key_eq_of_sharesSlot {other : Owner} (h : owner.sharesSlot other = true) :
    other.key = owner.key := by
  cases owner with
  | watch extension view =>
    cases other with
    | watch extension' view' =>
      obtain rfl : extension' = extension := of_decide_eq_true h
      rfl
    | server | build => cases h
  | server | build => cases h

theorem watches_iff {extension : String} :
    owner.watches extension = true ↔ owner.key = (extension, .watch) := by
  cases owner <;> simp [Owner.watches, Owner.key]

/-! ## Runs -/

/-- The map and the file are in order. -/
structure Recorded (w : RunWorld) : Prop where
  slots : w.Slots
  persists : w.Persists

/-- **One step in order.** By cases on the action. -/
theorem Recorded.step {w' : RunWorld} {a : RunAction} (hw : w.Recorded) (ha : InOrder w a)
    (hstep : runStep w a = some w') : w'.Recorded := by
  cases a with
  | spawned owner entry =>
    dsimp only [runStep] at hstep
    obtain ⟨hguard, ⟨⟩⟩ := Option.ite_none_left_eq_some.1 hstep
    rw [not_eq_true, or_eq_false_iff] at hguard
    exact ⟨hw.slots.record ha, hw.persists.congr.update (ne_of_callOf_eq_none hguard.1)⟩
  | ended owner lingers =>
    obtain rfl : lingers = false := ha
    dsimp only [runStep] at hstep
    split at hstep
    · cases hstep
    next hguard =>
    rw [not_eq_true, or_eq_false_iff, not_eq_false', any_eq_true] at hguard
    obtain ⟨hidle, ⟨child, hch, hchildOwner⟩⟩ := hguard
    obtain rfl : child.1 = owner := of_decide_eq_true hchildOwner
    -- the slot has no other group, so the role is removed
    have hkey : ∀ other ∈ w.children, (other.1 = child.1 ↔ other.1.key = child.1.key) :=
      fun other hother => ⟨fun h => by rw [h], fun h => by rw [hw.slots.eq_of_key hother hch h]⟩
    have hshared : ((w.leave (· = child.1) fun _ => false).children.any
        fun other => child.1.sharesSlot other.1) = false := by
      rw [any_eq_false]
      intro other hother hshares
      obtain ⟨hother, hne⟩ := mem_filter.1 hother
      have hsame : other.1.key = child.1.key := key_eq_of_sharesSlot hshares
      simp [(hkey other hother).2 hsame] at hne
    rw [hshared] at hstep
    cases hstep
    refine ⟨hw.slots.remove (fun other hother => ?_) fun _ => rfl,
      hw.persists.congr.update (ne_of_callOf_eq_none hidle)⟩
    rw [decide_eq_true_iff]
    exact hkey other hother
  | watchStopped extension lingers =>
    obtain rfl : lingers = [] := ha
    dsimp only [runStep] at hstep
    split at hstep
    · cases hstep
    next hguard =>
    rw [not_eq_true, or_eq_false_iff] at hguard
    cases hstep
    refine ⟨hw.slots.remove (fun child _ => watches_iff) fun owner => ?_,
      hw.persists.congr.update (ne_of_callOf_eq_none hguard.1)⟩
    cases owner <;> rfl
  | write thread =>
    dsimp only [runStep] at hstep
    split at hstep
    · next call hcall =>
      obtain ⟨hunwritten, ⟨⟩⟩ := Option.ite_none_left_eq_some.1 hstep
      obtain ⟨hmem, hthr⟩ := mem_of_callOf hcall
      exact ⟨⟨hw.slots.apart, hw.slots.lookup, hw.slots.settled⟩,
        hw.persists.write hcall (not_eq_true _ ▸ hunwritten) (ha call hmem hthr)⟩
    · cases hstep
  | rename thread =>
    dsimp only [runStep] at hstep
    split at hstep
    · next call hcall =>
      obtain ⟨hwr, ⟨⟩⟩ := Option.ite_none_right_eq_some.1 hstep
      exact ⟨⟨hw.slots.apart, hw.slots.lookup, hw.slots.settled⟩, hw.persists.rename hcall hwr⟩
    · cases hstep

/-- Whatever has happened in order, the map and the file are in order. -/
theorem Recorded.of_reachable (h : (runMachine.restrict InOrder).Reachable w) : w.Recorded := by
  refine h.rule ⟨Slots.init, Persists.init⟩ fun u a v _ hu hv => ?_
  obtain ⟨ha, hstep⟩ := Machine.restrict_step_eq_some.1 hv
  exact hu.step ha hstep

/-- Between calls the file has the map. -/
theorem Persists.file_eq (hw : w.Persists) (hidle : w.calls = []) :
    w.file = some w.entries ∨ w.entries = ∅ ∧ w.file = none := by
  cases hw.newest with
  | taken call hmem _ _ _ _ => exact absurd hmem (hidle ▸ not_mem_nil)
  | written _ _ hcalls _ => exact absurd hidle hcalls
  | published _ hfile _ _ => exact hfile

/-- Between calls the file lists the live groups. -/
theorem Recorded.lists_iff (hw : w.Recorded) (hidle : w.calls = []) :
    w.Lists key entry ↔ w.Holds key entry := by
  have hlive : w.Holds key entry ↔ w.entries.lookup key = some entry := by
    rw [hw.slots.lookup, Holds, hw.slots.settled]
    simp
  rw [hlive]
  obtain hfile | ⟨hnil, hfile⟩ := hw.persists.file_eq hidle
  · exact ⟨fun ⟨entries, hents, h⟩ => by
      rw [hfile] at hents
      exact Option.some.inj hents ▸ h, fun h => ⟨_, hfile, h⟩⟩
  · rw [hnil]
    exact ⟨fun ⟨entries, hents, _⟩ => by simp [hfile] at hents, fun h => by simp at h⟩

end RunWorld

/-- A sweep signals the listed groups whose start ticks match. -/
theorem mem_sweepOrphans {w : RunWorld} {readStartTicks : UInt32 → Option UInt64} {pgid : UInt32} :
    pgid ∈ sweepOrphans readStartTicks w.file ↔ ∃ key entry, w.Lists key entry ∧
      entry.pgid = pgid ∧ readStartTicks entry.pid = some entry.startTicks := by
  unfold sweepOrphans RunWorld.Lists
  cases hfile : w.file with
  | none => simp
  | some entries =>
    simp only [Option.elim_some, mem_filterMap, Option.some.injEq, exists_eq_left']
    constructor
    · rintro ⟨⟨key, entry⟩, hmem, hif⟩
      split at hif
      · next hticks =>
        exact ⟨key, entry, Assoc.mem_entries_iff.1 hmem, Option.some.inj hif, hticks⟩
      · cases hif
    · rintro ⟨key, entry, hget, rfl, hticks⟩
      exact ⟨⟨key, entry⟩, Assoc.mem_entries_iff.2 hget, if_pos hticks⟩

/-- **The orphan record is complete**, where each role has one group at a
time and the snapshots are written in order: whenever no call is in
progress, the file lists exactly the groups that are not known to have
ended, and a sweep of it signals those that are still the processes they
were, and no others. -/
theorem orphan_record_complete {w : RunWorld}
    (hreach : (runMachine.restrict InOrder).Reachable w) (hidle : w.calls = []) :
    (∀ key entry, w.Lists key entry ↔ w.Holds key entry) ∧ w.SweepsOrphans := by
  have hw := RunWorld.Recorded.of_reachable hreach
  have hlists : ∀ key entry, w.Lists key entry ↔ w.Holds key entry :=
    fun key entry => hw.lists_iff hidle
  refine ⟨hlists, fun readStartTicks => ⟨fun key entry hholds hticks => ?_, fun pgid hmem => ?_⟩⟩
  · exact mem_sweepOrphans.2 ⟨key, entry, (hlists key entry).2 hholds, rfl, hticks⟩
  · obtain ⟨key, entry, hlisted, hpgid, hticks⟩ := mem_sweepOrphans.1 hmem
    exact ⟨key, entry, (hlists key entry).1 hlisted, hpgid, hticks⟩

section

/-- The entry of a process that leads its own group. -/
def groupEntry (pid : UInt32) (startTicks : UInt64) : RunEntry := ⟨pid, pid, startTicks, 0⟩

/-- A server, and a manual build and a watch child beside it, whose
records overlap; the build ends. -/
def buildBesideWatch : List RunAction :=
  [.spawned (.server "codex") (groupEntry 11 7), .write ⟨"codex", false⟩, .rename ⟨"codex", false⟩,
    .spawned (.build ⟨"codex", true⟩) (groupEntry 12 8),
    .spawned (.watch "codex" "chat") (groupEntry 13 9), .write ⟨"codex", true⟩,
    .write ⟨"codex", false⟩, .rename ⟨"codex", true⟩, .rename ⟨"codex", false⟩,
    .ended (.build ⟨"codex", true⟩) false, .write ⟨"codex", true⟩, .rename ⟨"codex", true⟩]

/-- The server and the watch child are signalled, and the build is not. -/
theorem orphan_record_complete_example : ∃ w, runMachine.exec buildBesideWatch .init = some w ∧
      w.Lists ("codex", .server) (groupEntry 11 7) ∧ w.Lists ("codex", .watch) (groupEntry 13 9) ∧
      ¬ w.Lists ("codex", .build) (groupEntry 12 8) ∧ w.SweepsOrphans := by
  have hrun : (runMachine.restrict InOrder).exec buildBesideWatch .init = some _ :=
    Machine.exec_eq_run (by decide +kernel)
  have hfile : ((runMachine.restrict InOrder).run buildBesideWatch .init).file.map
      (fun entries => (entries.lookup ("codex", .server), entries.lookup ("codex", .watch),
        entries.lookup ("codex", .build))) =
      some (some (groupEntry 11 7), some (groupEntry 13 9), none) := by decide +kernel
  obtain ⟨entries, hentries, hlookups⟩ := Option.map_eq_some_iff.1 hfile
  simp only [Prod.mk.injEq] at hlookups
  refine ⟨_, Machine.exec_of_restrict hrun, ⟨entries, hentries, hlookups.1⟩,
    ⟨entries, hentries, hlookups.2.1⟩, fun ⟨entries', hentries', hlookup⟩ => ?_,
    (orphan_record_complete ⟨_, hrun⟩ (by decide +kernel)).2⟩
  cases hentries.symm.trans hentries'
  rw [hlookups.2.2] at hlookup
  cases hlookup

/-- `watch/start` of an extension with two watched views: the second
group takes the slot of the first. -/
def twoWatchedViews : List RunAction :=
  [.spawned (.watch "codex" "chat") (groupEntry 11 7), .write ⟨"codex", false⟩,
    .rename ⟨"codex", false⟩, .spawned (.watch "codex" "files") (groupEntry 12 8),
    .write ⟨"codex", false⟩, .rename ⟨"codex", false⟩]

/-- The first group is alive, and no sweep signals it. -/
theorem second_watch_child_hides_first :
    ∃ w, runMachine.exec twoWatchedViews .init = some w ∧ w.calls.length = 0 ∧
      w.Holds ("codex", .watch) (groupEntry 11 7) ∧
      (∀ readStartTicks, (11 : UInt32) ∉ sweepOrphans readStartTicks w.file) ∧
      ¬ w.SweepsOrphans := by
  have hrun : runMachine.exec twoWatchedViews .init = some _ :=
    Machine.exec_eq_run (by decide +kernel)
  have hholds : (runMachine.run twoWatchedViews .init).Holds ("codex", .watch) (groupEntry 11 7) :=
    .inl ⟨.watch "codex" "chat", rfl, by decide +kernel⟩
  have hfile : (runMachine.run twoWatchedViews .init).file.map (fun entries => entries.entries) =
      some [⟨("codex", .watch), groupEntry 12 8⟩] := by decide +kernel
  have hmissed : ∀ readStartTicks,
      (11 : UInt32) ∉ sweepOrphans readStartTicks (runMachine.run twoWatchedViews .init).file := by
    intro readStartTicks
    obtain ⟨entries, hentries, hlist⟩ := Option.map_eq_some_iff.1 hfile
    rw [hentries, sweepOrphans, Option.elim_some, hlist]
    simp only [mem_filterMap, mem_singleton]
    rintro ⟨_, rfl, hif⟩
    split at hif
    · exact absurd (Option.some.inj hif) (by decide)
    · cases hif
  refine ⟨_, hrun, by decide +kernel, hholds, hmissed, fun hsweeps => ?_⟩
  exact hmissed (fun _ => some 7) ((hsweeps fun _ => some 7).1 _ _ hholds rfl)

end

end Extensions

end Remux
