import Remux.Common.Lists
import Remux.Viewer.Model.Resources

/-!
# What the reader of resources records

A reply that is applied comes in time if what it calls not modified is
still what is recorded, and if nothing newer of its generation was
recorded. The reader does not check this, and the three properties of it
hold just along the runs where every reply comes in time.
-/

namespace Remux

open List Option Function ResourceStatus

variable {Key Value : Type} [DecidableEq Key]
variable {reader : ResourceReader Key Value} {update : ReadUpdate Key Value}
variable {result : ReadResult Key Value} {status : Key → ResourceStatus Value}
variable {generation : String} {keys : List Key} {key : Key}

/-- The revision an entry has. -/
def ResourceStatus.revision : ResourceStatus Value → Option ℕ
  | ok revision _ | notModified revision => some revision
  | missing => none

/-- The value that is recorded for a key after its entry. -/
def ResourceStatus.value (status : ResourceStatus Value) (recorded : Option (ServedValue Value)) :
    Option (ServedValue Value) :=
  match status with
  | ok _ value => some value
  | notModified _ => recorded
  | missing => none

/-- What the entries of a reply record, in order. -/
def recordings (generation : String) (status : Key → ResourceStatus Value) (keys : List Key) :
    List (Recording Key) :=
  keys.filterMap fun key => (status key).revision.map fun revision => ⟨generation, key, revision⟩

omit [DecidableEq Key] in
/-- What is recorded of a reply. -/
theorem mem_recordings {recording : Recording Key} :
    recording ∈ recordings generation status keys ↔ recording.key ∈ keys ∧
      recording.serverGeneration = generation ∧
      (status recording.key).revision = some recording.revision := by
  unfold recordings
  rw [mem_filterMap]
  constructor
  · rintro ⟨key, hkey, h⟩
    obtain ⟨revision, hrevision, rfl⟩ := map_eq_some_iff.1 h
    exact ⟨hkey, rfl, hrevision⟩
  · rintro ⟨hkey, rfl, hrevision⟩
    exact ⟨_, hkey, map_eq_some_iff.2 ⟨_, hrevision, rfl⟩⟩

/-- An entry that is read twice records the same. -/
theorem ResourceStatus.value_value (entry : ResourceStatus Value)
    (recorded : Option (ServedValue Value)) :
    entry.value (entry.value recorded) = entry.value recorded := by
  cases entry <;> rfl

/-! ## The loop over the entries -/

namespace ResourceReader

/-- **What the loop comes to**, from a reader and an update. -/
structure Applies (generation : String) (status : Key → ResourceStatus Value) (keys : List Key)
    (reader : ResourceReader Key Value) (update : ReadUpdate Key Value)
    (after : ResourceReader Key Value × ReadUpdate Key Value) : Prop where
  revisions : ∀ key, after.1.revisions key =
    if key ∈ keys then (status key).revision else reader.revisions key
  values : ∀ key, after.1.values key =
    if key ∈ keys then (status key).value (reader.values key) else reader.values key
  recorded : after.1.recorded = (recordings generation status keys).reverse ++ reader.recorded
  given : ∀ key ∈ keys, ((status key).value (reader.values key)).isSome →
    (after.2.values key).isSome
  kept : ∀ key, (update.values key).isSome → (after.2.values key).isSome
  missing : ∀ key ∈ keys, status key = .missing → key ∈ after.2.missing
  still : ∀ key ∈ update.missing, key ∈ after.2.missing

/-- What an entry does. -/
theorem applyEntry_spec (reader : ResourceReader Key Value) (update : ReadUpdate Key Value)
    (key : Key) : Applies generation status [key] reader update
      (reader.applyEntry generation update key (status key)) := by
  unfold applyEntry
  cases hstatus : status key with
  | ok revision value =>
    constructor <;> simp +contextual [update_apply, recordings, ResourceStatus.revision,
      ResourceStatus.value, hstatus]
    intro k hk
    split
    · rfl
    · exact hk
  | missing =>
    constructor <;> simp +contextual [update_apply, recordings, ResourceStatus.revision,
      ResourceStatus.value, hstatus]
  | notModified revision =>
    cases hval : reader.values key with
    | none =>
      constructor <;> simp +contextual [update_apply, recordings,
        ResourceStatus.revision, ResourceStatus.value, hstatus, hval]
    | some value =>
      constructor <;> simp +contextual [update_apply, recordings,
        ResourceStatus.revision, ResourceStatus.value, hstatus, hval]
      intro k hk
      split
      · rfl
      · exact hk

/-- **What the loop does.** By induction on the keys: an entry that comes
again does the same again. -/
theorem applyEntries_spec (keys : List Key) (reader : ResourceReader Key Value)
    (update : ReadUpdate Key Value) : Applies generation status keys reader update
      (applyEntries generation status keys reader update) := by
  induction keys generalizing reader update with
  | nil =>
    exact ⟨fun _ => rfl, fun _ => rfl, rfl, fun _ h => absurd h not_mem_nil,
      fun _ h => h, fun _ h => absurd h not_mem_nil, fun _ h => h⟩
  | cons key keys ih =>
    have hfst : Applies generation status [key] reader update _ :=
      applyEntry_spec reader update key
    have hrest := ih (reader.applyEntry generation update key (status key)).1
      (reader.applyEntry generation update key (status key)).2
    have hvalues : ∀ k, (reader.applyEntry generation update key (status key)).1.values k =
        if k = key then (status k).value (reader.values k) else reader.values k := by
      intro k
      simp only [hfst.values, mem_singleton]
    have hsplit : recordings generation status (key :: keys) =
        recordings generation status [key] ++ recordings generation status keys :=
      filterMap_append (l := [key])
    constructor
    · intro k
      rw [applyEntries, hrest.revisions, hfst.revisions]
      by_cases hk : k = key <;> by_cases hmem : k ∈ keys <;> simp [hk, hmem]
    · intro k
      rw [applyEntries, hrest.values, hvalues]
      by_cases hk : k = key
      · subst hk
        rw [if_pos rfl, value_value, ite_self, if_pos mem_cons_self]
      · rw [if_neg hk]
        simp only [mem_cons, hk, false_or]
    · rw [applyEntries, hrest.recorded, hfst.recorded, ← append_assoc, ← reverse_append, hsplit]
    · intro k hk hsome
      rcases mem_cons.1 hk with rfl | hk
      · exact hrest.kept k (hfst.given k mem_cons_self hsome)
      · refine hrest.given k hk ?_
        rw [hvalues]
        split
        · rw [value_value]
          exact hsome
        · exact hsome
    · exact fun k hk => hrest.kept k (hfst.kept k hk)
    · intro k hk hmissing
      rcases mem_cons.1 hk with rfl | hk
      · exact hrest.still k (hfst.missing k mem_cons_self hmissing)
      · exact hrest.missing k hk hmissing
    · exact fun k hk => hrest.still k (hfst.still k hk)

/-! ## A reply is applied -/

/-- The values of a reply are of its generation and of their revisions. -/
def Served (result : ReadResult Key Value) : Prop :=
  ∀ key ∈ result.keys, ∀ revision value, result.status key = .ok revision value →
    value.serverGeneration = result.serverGeneration ∧ value.revision = revision

/-- There is no value without a revision. -/
def Covered (reader : ResourceReader Key Value) : Prop :=
  ∀ key, (reader.values key).isSome → (reader.revisions key).isSome

/-- What is last recorded for a key of a reply. -/
theorem lastRecorded_append {old : List (Recording Key)} :
    ((recordings generation status keys).reverse ++ old).find?
        (fun recording => decide (recording.key = key)) =
      if key ∈ keys then ((status key).revision.map fun revision => ⟨generation, key, revision⟩).or
        (old.find? fun recording => decide (recording.key = key))
      else old.find? fun recording => decide (recording.key = key) := by
  rw [find?_append]
  cases hfind : (recordings generation status keys).reverse.find?
      (fun recording => decide (recording.key = key)) with
  | some recording =>
    obtain rfl : recording.key = key := by simpa using find?_some hfind
    obtain ⟨hkey, rfl, hrevision⟩ :=
      mem_recordings.1 (mem_reverse.1 (mem_of_find?_eq_some hfind))
    rw [if_pos hkey, hrevision]
    rfl
  | none =>
    split
    · next hkey =>
      cases hrevision : (status key).revision with
      | none => rfl
      | some revision =>
        have hmem : (⟨generation, key, revision⟩ : Recording Key) ∈
            recordings generation status keys := mem_recordings.2 ⟨hkey, rfl, hrevision⟩
        exact absurd (decide_eq_true rfl) (find?_eq_none.1 hfind _ (mem_reverse.2 hmem))
    · rfl

/-- What was last recorded is the newest of its generation. -/
theorem Forward.le_last (h : reader.Forward) {last old : Recording Key}
    (hlast : reader.lastRecorded key = some last) (hold : old ∈ reader.recorded)
    (hgen : old.serverGeneration = last.serverGeneration) (hkey : old.key = key) :
    old.revision ≤ last.revision := by
  obtain ⟨hmatch, before, after, hsplit, hbef⟩ := find?_eq_some_iff_append.1 hlast
  unfold Forward at h
  rw [hsplit] at h hold
  rcases mem_append.1 hold with hmem | hmem
  · have hne := hbef old hmem
    simp only [hkey, decide_true, Bool.not_true, Bool.false_eq_true] at hne
  · rcases mem_cons.1 hmem with rfl | hmem
    · exact Nat.le_refl _
    · have hpair := (pairwise_cons.1 (pairwise_append.1 h).2.1).1 old hmem
      exact hpair hgen.symm ((of_decide_eq_true hmatch).trans hkey.symm)

section

variable {after : ResourceReader Key Value × ReadUpdate Key Value}
variable (hafter : Applies result.serverGeneration result.status result.keys reader update after)

include hafter

theorem Applies.lastRecorded (key : Key) : after.1.lastRecorded key =
    if key ∈ result.keys then ((result.status key).revision.map fun revision =>
      ⟨result.serverGeneration, key, revision⟩).or (reader.lastRecorded key)
    else reader.lastRecorded key := by
  rw [ResourceReader.lastRecorded, hafter.recorded, lastRecorded_append]
  rfl

/-- A reply that keeps the pairs and the order came in time. -/
theorem Applies.inTime (hpair : reader.Paired) (hcovered : reader.Covered)
    (hpair' : after.1.Paired) (hforward' : after.1.Forward) : reader.InTime result := by
  intro key hkey
  cases hstatus : result.status key with
  | ok revision value =>
    intro old hold hgen holdkey
    have hnew : (⟨result.serverGeneration, key, revision⟩ : Recording Key) ∈
        recordings result.serverGeneration result.status result.keys :=
      mem_recordings.2 ⟨hkey, rfl, by rw [hstatus]; rfl⟩
    unfold Forward at hforward'
    rw [hafter.recorded] at hforward'
    exact (pairwise_append.1 hforward').2.2 _ (mem_reverse.2 hnew) old hold hgen.symm holdkey.symm
  | notModified revision =>
    have hrevision := hafter.revisions key
    have hval := hafter.values key
    have hlast := hafter.lastRecorded key
    rw [if_pos hkey, hstatus] at hrevision hval hlast
    obtain ⟨value, hsome, hof, hlast'⟩ := hpair' key revision hrevision
    rw [hlast] at hlast'
    have hgen : result.serverGeneration = value.serverGeneration :=
      congrArg Recording.serverGeneration (some.inj hlast')
    -- the value is the one that was there, so its revision was recorded
    have hsome : reader.values key = some value := hval.symm.trans hsome
    obtain ⟨old, hold⟩ := isSome_iff_exists.1 (hcovered key (by rw [hsome]; rfl))
    obtain ⟨value', hsome', hof', hlast''⟩ := hpair key old hold
    obtain rfl := some.inj (hsome'.symm.trans hsome)
    obtain rfl : old = revision := hof'.symm.trans hof
    exact ⟨hold, hgen ▸ hlast''⟩
  | missing => trivial

/-- A reply in time keeps the pairs. -/
theorem Applies.paired (hsrv : Served result) (hpair : reader.Paired)
    (hintime : reader.InTime result) : after.1.Paired := by
  intro key revision hrevision
  rw [hafter.revisions] at hrevision
  rw [hafter.values, hafter.lastRecorded]
  split at hrevision
  · next hkey =>
    rw [if_pos hkey, if_pos hkey, hrevision]
    have hent := hintime key hkey
    cases hstatus : result.status key with
    | ok revision' value =>
      rw [hstatus] at hrevision
      obtain rfl := some.inj hrevision
      obtain ⟨hgen, hof⟩ := hsrv key hkey revision' value hstatus
      exact ⟨value, rfl, hof, by rw [hgen]; rfl⟩
    | notModified revision' =>
      rw [hstatus] at hrevision hent
      obtain rfl := some.inj hrevision
      obtain ⟨value, hsome, hof, hlast⟩ := hpair key revision' hent.1
      exact ⟨value, hsome, hof, hent.2.symm.trans hlast⟩
    | missing =>
      rw [hstatus] at hrevision
      cases hrevision
  · next hkey =>
    rw [if_neg hkey, if_neg hkey]
    exact hpair key revision hrevision

/-- A reply in time keeps the order. -/
theorem Applies.forward (hforward : reader.Forward) (hintime : reader.InTime result) :
    after.1.Forward := by
  unfold Forward
  rw [hafter.recorded, pairwise_append]
  refine ⟨pairwise_of_forall_mem_list ?_, hforward, ?_⟩
  · -- a key that comes twice has the same revision
    intro later hlat earlier hearlier _ hkey
    obtain ⟨-, -, hrevision⟩ := mem_recordings.1 (mem_reverse.1 hlat)
    obtain ⟨-, -, hrev'⟩ := mem_recordings.1 (mem_reverse.1 hearlier)
    rw [hkey, hrev'] at hrevision
    exact Nat.le_of_eq (some.inj hrevision)
  · intro later hlat earlier hearlier hgen hkey
    obtain ⟨hmem, hof, hrevision⟩ := mem_recordings.1 (mem_reverse.1 hlat)
    have hent := hintime later.key hmem
    cases hstatus : result.status later.key with
    | ok revision value =>
      rw [hstatus] at hrevision hent
      cases hrevision
      exact hent earlier hearlier (hgen.symm.trans hof) hkey.symm
    | notModified revision =>
      rw [hstatus] at hrevision hent
      cases hrevision
      have hle := hforward.le_last hent.2 hearlier (hgen.symm.trans hof) hkey.symm
      exact hle
    | missing =>
      rw [hstatus] at hrevision
      cases hrevision

/-- A reply in time gives its caller every key. -/
theorem Applies.delivers (hpair : reader.Paired) (hintime : reader.InTime result) :
    ∀ key ∈ result.keys, (after.2.values key).isSome ∨
      result.status key = .missing ∧ key ∈ after.2.missing := by
  intro key hkey
  have hgiven := hafter.given key hkey
  have hent := hintime key hkey
  cases hstatus : result.status key with
  | ok revision value =>
    rw [hstatus] at hgiven
    exact .inl (hgiven rfl)
  | notModified revision =>
    rw [hstatus] at hgiven hent
    obtain ⟨value, hsome, -⟩ := hpair key revision hent.1
    exact .inl (hgiven (by rw [hsome]; rfl))
  | missing => exact .inr ⟨rfl, hafter.missing key hkey hstatus⟩

/-- There is still no value without a revision. -/
theorem Applies.covered (hcovered : reader.Covered) : after.1.Covered := by
  intro key hsome
  rw [hafter.values] at hsome
  rw [hafter.revisions]
  split at hsome
  · next hkey =>
    rw [if_pos hkey]
    cases hstatus : result.status key with
    | missing =>
      rw [hstatus] at hsome
      cases hsome
    | _ => rfl
  · next hkey =>
    rw [if_neg hkey]
    exact hcovered key hsome

end

/-- What `apply` comes to. -/
theorem apply_spec (reader : ResourceReader Key Value) (result : ReadResult Key Value)
    (generationChanged : Bool) : Applies result.serverGeneration result.status result.keys reader
      ⟨result.capabilityRevision, generationChanged, [], result.serverGeneration, fun _ => none⟩
      (reader.apply result generationChanged) :=
  let ⟨h₁, h₂, h₃, h₄, h₅, h₆, h₇⟩ := applyEntries_spec result.keys _ _
  ⟨h₁, h₂, h₃, h₄, h₅, h₆, h₇⟩

end ResourceReader

/-! ## Runs -/

namespace ResourceReads

variable {s t : ResourceReads Key Value} {a : ReadAction Key Value}

/-- What else is kept: no value is without a revision, and what is on its
way was served. -/
structure Inv (s : ResourceReads Key Value) : Prop where
  covered : s.reader.Covered
  served : ∀ call ∈ s.reads, ∀ result, call.phase = .answered result →
    ResourceReader.Served result

omit [DecidableEq Key] in
/-- What the server answers is of its generation. -/
theorem served_read (server : ResourceServer Key Value) (request : ReadRequest Key) :
    ResourceReader.Served (server.read request) := by
  intro key _ revision value hstatus
  unfold ResourceServer.read at hstatus ⊢
  dsimp only at hstatus ⊢
  split at hstatus
  · cases hstatus
  · split at hstatus
    · cases hstatus
    · cases hstatus
      exact ⟨rfl, rfl⟩

variable {i : ℕ} {call : ResourceRead Key Value}

omit [DecidableEq Key] in
theorem Inv.set (h : s.Inv)
    (hcall : ∀ result, call.phase = .answered result → ResourceReader.Served result) :
    ∀ call' ∈ s.reads.set i call, ∀ result, call'.phase = .answered result →
      ResourceReader.Served result := by
  intro call' hmem
  rcases mem_or_eq_of_mem_set hmem with hmem | rfl
  · exact h.served call' hmem
  · exact hcall

/-- A reader that has forgotten its revisions with the values. -/
theorem Sound.forget (h : s.Sound) (reader : ResourceReader Key Value)
    (reads : List (ResourceRead Key Value)) (hrevisions : reader.revisions = fun _ => none)
    (hrec : reader.recorded = s.reader.recorded) :
    ({ s with reader, reads } : ResourceReads Key Value).Sound where
  paired key revision hkey := by
    rw [hrevisions] at hkey
    cases hkey
  forward := by
    have hforward := h.forward
    unfold ResourceReader.Forward at hforward ⊢
    rwa [hrec]
  delivered := h.delivered

theorem inTime_of_none (h : s.appliedResult a = none) : s.InTime a := fun result hres =>
  absurd (h.symm.trans hres) (some_ne_none result).symm

theorem inTime_iff_of_some (h : s.appliedResult a = some result) :
    s.InTime a ↔ s.reader.InTime result := by
  rw [InTime, h]
  exact ⟨fun hall => hall result rfl, fun hintime _ hmem => some.inj hmem ▸ hintime⟩

/-- **A reply is applied**, and keeps the state sound just when it comes in
time. -/
theorem applied_sound_iff (hsnd : s.Sound) (hinv : s.Inv) (hsrv : ResourceReader.Served result)
    (generationChanged : Bool) :
    (s.applied i call result generationChanged).Inv ∧
      ((s.applied i call result generationChanged).Sound ↔ s.reader.InTime result) := by
  have hspec := ResourceReader.apply_spec s.reader result generationChanged
  refine ⟨⟨hspec.covered hinv.covered, hinv.set nofun⟩, fun h => ?_, fun hintime => ?_⟩
  · exact hspec.inTime hsnd.paired hinv.covered h.paired h.forward
  · refine ⟨hspec.paired hsrv hsnd.paired hintime, hspec.forward hsnd.forward hintime, ?_⟩
    intro given hgiven
    rcases mem_cons.1 hgiven with rfl | hgiven
    · exact hspec.delivers hsnd.paired hintime
    · exact hsnd.delivered given hgiven

/-- **A step of a sound state keeps it sound just when its reply comes in
time.** -/
theorem sound_step_iff {server : ResourceServer Key Value} (hsnd : s.Sound) (hinv : s.Inv)
    (hstep : (readMachine server).step s a = some t) : t.Inv ∧ (t.Sound ↔ s.InTime a) := by
  cases a with
  | read keys =>
    cases hstep
    refine ⟨⟨hinv.covered, fun call hmem => ?_⟩, iff_of_true { hsnd with } (inTime_of_none rfl)⟩
    rcases mem_concat.1 hmem with hmem | rfl
    · exact hinv.served call hmem
    · exact nofun
  | answer i =>
    dsimp only [readMachine] at hstep
    split at hstep
    · cases hstep
      refine ⟨⟨hinv.covered, hinv.set fun result hres => ?_⟩, iff_of_true
        { hsnd with } (inTime_of_none rfl)⟩
      obtain rfl := ResourceReadPhase.answered.inj hres
      exact served_read _ _
    · cases hstep
  | arrive i =>
    dsimp only [readMachine] at hstep
    split at hstep
    · next keys again result hcall =>
      have hsrv := hinv.served _ (mem_of_getElem? hcall) result rfl
      cases again with
      | some generationChanged =>
        cases hstep
        have hres : s.appliedResult (.arrive i) = some result := by
          rw [appliedResult, hcall]
          rfl
        rw [inTime_iff_of_some hres]
        exact applied_sound_iff hsnd hinv hsrv generationChanged
      | none =>
        dsimp only at hstep
        split at hstep
        · next hchanged =>
          cases hstep
          have hres : s.appliedResult (.arrive i) = none := by
            rw [appliedResult, hcall]
            exact if_pos hchanged
          exact ⟨⟨fun _ hsome => (Bool.false_ne_true hsome).elim, hinv.set nofun⟩,
            iff_of_true (hsnd.forget _ _ rfl rfl) (inTime_of_none hres)⟩
        · next hchanged =>
          cases hstep
          have hres : s.appliedResult (.arrive i) = some result := by
            rw [appliedResult, hcall]
            exact if_neg hchanged
          rw [inTime_iff_of_some hres]
          exact applied_sound_iff hsnd hinv hsrv false
    · cases hstep
  | fail i =>
    obtain ⟨call, hcall, rfl⟩ := map_eq_some_iff.1 hstep
    exact ⟨⟨hinv.covered, hinv.set nofun⟩, iff_of_true { hsnd with } (inTime_of_none rfl)⟩
  | clear =>
    cases hstep
    exact ⟨⟨fun _ hsome => (Bool.false_ne_true hsome).elim, hinv.served⟩,
      iff_of_true (hsnd.forget _ _ rfl rfl) (inTime_of_none rfl)⟩
  | serve server =>
    cases hstep
    exact ⟨{ hinv with }, iff_of_true { hsnd with } (inTime_of_none rfl)⟩

theorem sound_init (server : ResourceServer Key Value) :
    (readMachine server).init.Sound ∧ (readMachine server).init.Inv :=
  ⟨⟨nofun, List.Pairwise.nil, fun _ h => absurd h not_mem_nil⟩,
    ⟨fun _ hsome => (Bool.false_ne_true hsome).elim, fun _ h => absurd h not_mem_nil⟩⟩

end ResourceReads

/-- **Recorded revisions have their values, do not go backwards, and no
caller misses a key, just when every reply comes in time.** -/
theorem reads_sound_iff {Key Value : Type} [DecidableEq Key] (server : ResourceServer Key Value)
    {actions : List (ReadAction Key Value)} {s : ResourceReads Key Value}
    (hrun : (readMachine server).exec actions (readMachine server).init = some s) :
    (∀ before t, before <+: actions →
        (readMachine server).exec before (readMachine server).init = some t → t.Sound) ↔
      ((readMachine server).restrict ResourceReads.InTime).exec actions
        (readMachine server).init = some s := by
  refine Machine.holds_along_iff (ResourceReads.sound_init server).1 (fun u a v hu hstep => ?_) hrun
  have hkept : u.Sound ∧ u.Inv := hu.rule (P := fun u => u.Sound ∧ u.Inv)
    (ResourceReads.sound_init server) fun w a v _ ⟨hsound, hinv⟩ hstep => by
      obtain ⟨hintime, hstep⟩ := Machine.restrict_step_eq_some.1 hstep
      obtain ⟨hinv', hiff⟩ := ResourceReads.sound_step_iff hsound hinv hstep
      exact ⟨hiff.2 hintime, hinv'⟩
  exact (ResourceReads.sound_step_iff hkept.1 hkept.2 hstep).2

/-- A server with one resource. -/
def oneResource (revision : ℕ) : ResourceServer String String where
  serverGeneration := "generation-1"
  capabilityRevision := "capabilities-1"
  resource key := if key = "queue" then some (revision, toString revision) else none

/-- Two reads find the first revision recorded. The first is told that it
is not modified, the second is given the next one and is faster. A third
read comes right, and a fourth is answered before the reader is cleared. -/
def lateReplies : List (ReadAction String String) :=
  [.read ["queue"], .answer 0, .arrive 0, .read ["queue"], .read ["queue"], .answer 1,
    .serve (oneResource 2), .answer 2, .arrive 2, .arrive 1, .read ["queue"], .answer 3, .arrive 3,
    .read ["queue"], .answer 4, .clear, .arrive 4]

/-- **A late reply parts a revision from its value and takes it back**, and
a caller is told nothing of a key. -/
theorem late_replies_unsound :
    ∃ s, (readMachine (oneResource 1)).exec lateReplies (readMachine (oneResource 1)).init =
      some s ∧ ¬s.reader.Paired ∧ ¬s.reader.Forward ∧ ¬s.Delivered := by
  have hrun := @Machine.exec_eq_run _ _ (readMachine (oneResource 1))
    (readMachine (oneResource 1)).init lateReplies (by decide +kernel)
  refine ⟨_, hrun, fun hpaired => ?_, ?_, fun hdelivered => ?_⟩
  · obtain ⟨value, hvalue, -⟩ := hpaired "queue" 2 (by decide +kernel)
    revert hvalue
    rw [show ((readMachine (oneResource 1)).run lateReplies
      (readMachine (oneResource 1)).init).reader.values "queue" = none by decide +kernel]
    exact nofun
  · unfold ResourceReader.Forward
    decide +kernel
  · have hall : ((readMachine (oneResource 1)).run lateReplies
        (readMachine (oneResource 1)).init).updates.all (fun given => given.1.keys.all fun key =>
          (given.2.values key).isSome || given.2.missing.contains key) = true := by
      rw [List.all_eq_true]
      intro given hgiven
      rw [List.all_eq_true]
      intro key hkey
      rcases hdelivered given hgiven key hkey with hsome | hmissing
      · rw [hsome, Bool.true_or]
      · rw [List.contains_iff_mem.2 hmissing.2, Bool.or_true]
    revert hall
    decide +kernel

/-- Two reads whose replies come in order. -/
theorem reads_sound_two : let run : List (ReadAction String String) :=
      [.read ["queue"], .answer 0, .arrive 0, .read ["queue", "history"], .answer 1, .arrive 1]
    ∃ s, (readMachine (oneResource 1)).exec run (readMachine (oneResource 1)).init = some s ∧
      s.Sound := by
  intro run
  have hrun := @Machine.exec_eq_run _ _ (readMachine (oneResource 1))
    (readMachine (oneResource 1)).init run (by decide +kernel)
  have hintime := @Machine.exec_eq_run _ _
    ((readMachine (oneResource 1)).restrict ResourceReads.InTime)
    (readMachine (oneResource 1)).init run (by decide +kernel)
  have hsame := Option.some.inj (hrun.symm.trans (Machine.exec_of_restrict hintime))
  exact ⟨_, hrun, (reads_sound_iff (oneResource 1) hrun).2 hintime run _ List.prefix_rfl hrun⟩

end Remux
