import Mathlib.Algebra.Order.BigOperators.Group.List
import Mathlib.Algebra.Order.Ring.Nat
import Remux.Common.Lists
import Remux.Extensions.Model.Snapshots

/-!
# Published snapshots are complete

A file that changes has metadata from then on that it never had, so one that
is found as it was found before was the same all the while: its length is
that of what was read of it. So a directory whose walk at the end is the
walk at the start holds files of the digest that it is named by. The rest is
that nothing takes such a directory apart: `Undisturbed` leaves out the
removals that fail or are cut short, after which a directory is there in
part, under its name, and the failures that leave a temporary directory.
-/

namespace Remux

open Assoc hiding size
open List hiding getElem?_eq_some_iff map_id' map_map mem_map

namespace Extensions

namespace Snapshots

open Publication Remux.Extensions.Snapshots.Tree Dir Option Function

/-! ## Walks -/

variable {tree : Tree} {path : Path} {pending pending' paths : List Path}
variable {found found' files : List SourceFile} {contents : List Content} {fails : Bool}
variable {total base : ℕ} {dir : Dir}

theorem Tree.stat_relative {file : SourceFile} (h : tree.stat path = some file) :
    file.relative = path := by
  obtain ⟨source, -, rfl⟩ := map_eq_some_iff.1 h
  rfl

/-- One entry of a walk: a file is found, or a directory is read. -/
theorem Tree.walk_eq_some (h : tree.walk path pending found = some (pending', found')) :
    (∃ file, tree.stat path = some file ∧ pending' = pending ∧ found' = found ++ [file]) ∨
      (pending' = tree.children path ++ pending ∧ found' = found) := by
  unfold walk at h
  split at h
  · rename_i file hfile
    split at h
    · cases h
    · cases some.inj h
      exact .inl ⟨file, hfile, rfl, rfl⟩
  · split at h
    · cases h
    · cases some.inj h
      exact .inr ⟨rfl, rfl⟩

/-- None of the paths lies in another. -/
def Apart (paths : List Path) : Prop := paths.Pairwise fun p q => ¬p <+: q ∧ ¬q <+: p

theorem Apart.nodup (h : Apart paths) : paths.Nodup :=
  h.imp fun hne => by
    rintro rfl
    exact hne.1 prefix_rfl

theorem Apart.perm {paths' : List Path} (h : Apart paths) (hperm : paths.Perm paths') :
    Apart paths' :=
  hperm.pairwise h fun hne => hne.symm

/-- A directory gives way to its entries. -/
theorem Apart.children (h : Apart (path :: paths)) : Apart (tree.children path ++ paths) := by
  obtain ⟨hhead, htail⟩ := pairwise_cons.1 h
  refine pairwise_append.2 ⟨?_, htail, fun p hp q hq => ?_⟩
  · refine pairwise_map.2 ?_
    have hnodup : ((tree.entries.filterMap fun file =>
        entryName path file.1).dedup.insertionSort (· ≤ ·)).Nodup :=
      (perm_insertionSort _ _).nodup_iff.2 (nodup_dedup _)
    refine hnodup.imp fun {name name'} hne => ⟨fun hle => hne ?_, fun hle => hne.symm ?_⟩
    all_goals simpa using (prefix_append_right_inj path).1 hle
  · obtain ⟨name, -, rfl⟩ := List.mem_map.1 hp
    obtain ⟨hpq, hqp⟩ := hhead q hq
    refine ⟨fun hle => hpq ((prefix_append path [name]).trans hle), fun hle => ?_⟩
    rcases prefix_concat_iff.1 hle with rfl | hle
    · exact hpq (prefix_append path [name])
    · exact hqp hle

/-! ## What is known of a source file -/

variable {K D : Type} {v : View D} {file : SourceFile} {content : Content}

/-- **The file has changed since it was found.** What was found of it is not
found of a file of the tree again. -/
def Stale (v : View D) (file : SourceFile) : Prop :=
  file ∈ v.seen ∧ v.source.stat file.relative ≠ some file

/-- What was read of a file has the length that was found of it, or the file
has changed. -/
def ReadOf (v : View D) (file : SourceFile) (content : Content) : Prop :=
  content.length = file.len ∨ Stale v file

/-- What the files of a tree are like has been seen. -/
def SourceSeen (v : View D) : Prop := ∀ path file, v.source.stat path = some file → file ∈ v.seen

/-- **What is read of a file that was found.** -/
theorem readOf_of_lookup {source : File} (hseen : file ∈ v.seen)
    (h : v.source.lookup file.relative = some source) : ReadOf v file source.content := by
  by_cases hsame : v.source.stat file.relative = some file
  · left
    rw [stat, h, map_some] at hsame
    rw [← some.inj hsame]
    rfl
  · exact .inr ⟨hseen, hsame⟩

/-- The files that a publication found: all were seen, and no two are at one
path. -/
structure Listed (seen files : List SourceFile) : Prop where
  seen : ∀ file ∈ files, file ∈ seen
  nodup : (files.map (·.relative)).Nodup

/-- A walk under way. -/
structure Walking (seen : List SourceFile) (pending : List Path) (found : List SourceFile) :
    Prop where
  seen : ∀ file ∈ found, file ∈ seen
  apart : Apart (pending ++ found.map (·.relative))

theorem walking_start : Walking v.seen [[]] [] :=
  ⟨by rintro file ⟨⟩, pairwise_singleton _ _⟩

/-- One path of a walk. -/
theorem Walking.walk (hsrc : SourceSeen v) (h : Walking v.seen (path :: pending) found)
    (hwalk : v.source.walk path pending found = some (pending', found')) :
    Walking v.seen pending' found' := by
  rcases walk_eq_some hwalk with ⟨file, hfile, rfl, rfl⟩ | ⟨rfl, rfl⟩
  · refine ⟨fun file' hmem => ?_, h.apart.perm ?_⟩
    · rcases mem_concat.1 hmem with hold | hnew
      · exact h.seen file' hold
      · rw [hnew]
        exact hsrc path file hfile
    · rw [map_append, map_singleton, stat_relative hfile, cons_append, ← append_assoc]
      exact (perm_append_singleton _ _).symm
  · refine ⟨h.seen, ?_⟩
    rw [append_assoc]
    exact Apart.children h.apart

/-- A walk that is over. -/
theorem Walking.listed (h : Walking v.seen [] found) : Listed v.seen (sorted found) := by
  have hperm : (sorted found).Perm found := perm_insertionSort _ _
  refine ⟨fun file hfile => h.seen file (hperm.subset hfile), ?_⟩
  exact (hperm.map _).nodup_iff.2 h.apart.nodup

/-! ## The files of a snapshot -/

/-- The files that are copied, with what was read of them. -/
def copied (files : List SourceFile) (contents : List Content) : Dir :=
  zipWith (fun file content => (file.relative, content)) files contents

/-- What was read of files, in order. -/
def ReadsOf (v : View D) (files : List SourceFile) (contents : List Content) : Prop :=
  ∀ (i : ℕ) (file : SourceFile) (content : Content), files[i]? = some file →
    contents[i]? = some content → ReadOf v file content

/-- The digest of a directory. -/
def Registry.digest (registry : Registry K D) (dir : Dir) : D :=
  registry.hash (dir.map fun file => (file.1, file.2.length, file.2))

/-- **A complete snapshot**: its files have the digest it is named by, and
its entry is there. -/
def Complete (registry : Registry K D) (k : K) (digest : D) (dir : Dir) : Prop :=
  registry.digest dir = digest ∧ (dir.read (registry.entry k)).isSome

/-- A zip, one element further. -/
theorem zipWith_concat {α β γ : Type} {f : α → β → γ} {xs : List α} {ys : List β} {x : α} {y : β}
    (h : xs[ys.length]? = some x) :
    zipWith f xs (ys ++ [y]) = zipWith f xs ys ++ [f x y] := by
  induction ys generalizing xs with
  | nil =>
    cases xs with
    | nil => cases h
    | cons x' xs =>
      cases h
      simp
  | cons y' ys ih =>
    cases xs with
    | nil => cases h
    | cons x' xs =>
      rw [length_cons, getElem?_cons_succ] at h
      rw [cons_append, zipWith_cons_cons, zipWith_cons_cons, ih h, cons_append]

/-- The next file is copied beside the others. -/
theorem copied_concat (hnodup : (files.map (·.relative)).Nodup)
    (h : files[contents.length]? = some file) :
    (copied files contents).write file.relative content = copied files (contents ++ [content]) := by
  have hother : ∀ entry ∈ copied files contents, entry.1 ≠ file.relative := by
    intro entry hent heq
    obtain ⟨i, hi⟩ := mem_iff_getElem?.1 hent
    obtain ⟨file', content', hfile', hcont', rfl⟩ := getElem?_zipWith_eq_some.1 hi
    have hlt : i < contents.length := (getElem?_eq_some_iff.1 hcont').1
    have hsame : (files.map (·.relative))[i]? = (files.map (·.relative))[contents.length]? := by
      rw [getElem?_map, getElem?_map, hfile', h]
      exact congrArg some heq
    have hbnd : i < (files.map (·.relative)).length := by
      rw [length_map]
      exact (getElem?_eq_some_iff.1 hfile').1
    exact hlt.ne ((getElem?_inj hbnd hnodup).1 hsame)
  rw [write, filter_eq_self.2 (by simpa using hother), copied, copied, zipWith_concat h]

/-- **Files whose lengths are those that were found have the digest that was
made as they were read.** -/
theorem digest_copied {registry : Registry K D}
    (h : ∀ (i : ℕ) (file : SourceFile) (content : Content),
      files[i]? = some file → contents[i]? = some content → content.length = file.len) :
    registry.digest (copied files contents) = registry.hash (hashed files contents) := by
  rw [Registry.digest, copied, map_zipWith, hashed]
  congr 1
  refine ext_getElem? fun i => ?_
  rw [getElem?_zipWith, getElem?_zipWith]
  cases hfile : files[i]? with
  | none => rfl
  | some file =>
    cases hcont : contents[i]? with
    | none => rfl
    | some content =>
      dsimp only
      rw [h i file content hfile hcont]

/-! ## What holds of a view -/

/-- The temporary directory that a publication has. -/
def Publication.temp : Publication D → Option (ℕ × ℕ)
  | .copying job _ | .verifying job _ _ _ | .placing job | .discarding job _ => some job.temp
  | _ => none

/-- **What holds of a publication**: what it has found and copied. At the end
of its last walk every file that was found again has the length that was
found before. -/
def Publishing (registry : Registry K D) (k : K) (v : View D) : Publication D → Prop
  | .collecting _ pending found => Walking v.seen pending found
  | .hashing _ before _ | .rechecking _ before _ _ _ | .naming _ before _ => Listed v.seen before
  | .adopting _ | .discarding _ _ => True
  | .clearing job => Listed v.seen job.before
  | .creating job => Listed v.seen job.before ∧ v.temps.lookup job.temp = none
  | .copying job contents => Listed v.seen job.before ∧ ReadsOf v job.before contents ∧
      v.temps.lookup job.temp = some (copied job.before contents)
  | .verifying job digest _ found => ∃ contents, ReadsOf v job.before contents ∧
      v.temps.lookup job.temp = some (copied job.before contents) ∧
      digest = registry.hash (hashed job.before contents) ∧
      ∀ (i : ℕ) (file : SourceFile) (content : Content), job.before[i]? = some file →
        contents[i]? = some content → file ∈ found → content.length = file.len
  | .placing job => ∃ dir, v.temps.lookup job.temp = some dir ∧ Complete registry k job.digest dir

variable [DecidableEq D] {registry : Registry K D} {k : K} {gone : Option D}

/-- **What holds of a view**, but for the snapshot that a cleanup takes apart:
the snapshots are complete, the registry points to one of them, and every
temporary directory is one that a kill left or the publication has. -/
structure Sound (registry : Registry K D) (k : K) (gone : Option D) (v : View D) : Prop where
  source : SourceSeen v
  complete : ∀ digest dir, v.snapshots.lookup digest = some dir → gone ≠ some digest →
    Complete registry k digest dir
  published : ∀ digest, v.published = some digest →
    (v.snapshots.lookup digest).isSome ∧ gone ≠ some digest
  publishing : ∀ publication ∈ v.publication, Publishing registry k v publication
  temps : ∀ name, (v.temps.lookup name).isSome →
    name ∈ v.left ∨ v.publication.bind Publication.temp = some name

namespace Sound

variable {publication : Publication D}

variable (h : Sound registry k gone v)
include h

theorem going (hp : Publishing registry k v publication)
    (htemp : ∀ name, v.publication.bind temp = some name →
      publication.temp = some name) : Sound registry k gone (v.going publication) where
  __ := h
  publishing := by
    rintro publication' ⟨⟩
    exact hp
  temps name hname := (h.temps name hname).imp_right (htemp name)

theorem failed (htemp : v.publication.bind temp = none) : Sound registry k gone v.failed where
  __ := h
  publishing := by rintro publication' ⟨⟩
  temps name hname := .inl ((h.temps name hname).resolve_right (by simp [htemp]))

theorem changed (htemp : v.publication.bind temp = none) (attempt : ℕ) :
    Sound registry k gone (v.changed attempt) := by
  unfold View.changed
  split
  · exact h.going walking_start (by simp [htemp])
  · exact h.failed htemp

/-- A temporary directory goes, and its publication is over. -/
theorem discarded {name : ℕ × ℕ} (hname : v.publication.bind temp = some name) :
    Sound registry k gone { v with temps := v.temps.erase name, publication := none } where
  __ := h
  publishing := by rintro publication' ⟨⟩
  temps name' hname' := by
    rw [lookup_erase_eq] at hname'
    split at hname'
    · cases hname'
    · rename_i hne
      refine .inl ((h.temps name' hname').resolve_right fun heq => hne ?_)
      rw [hname] at heq
      exact (some.inj heq).symm

omit h

end Sound

/-- The step of a publication leaves nothing behind: a removal does not fail,
nor does what follows once the files are copied. -/
def View.Undisturbed (v : View D) (fails : Bool) : Publication D → Prop
  | .clearing job => fails = false ∨ (v.temps.lookup job.temp).isNone
  | .verifying _ _ (path :: pending) found =>
    fails = false ∧ (v.source.walk path pending found).isSome
  | .placing job => fails = false ∧ (v.snapshots.lookup job.digest).isNone
  | .discarding _ _ => fails = false
  | _ => True

instance (v : View D) (fails : Bool) (publication : Publication D) :
    Decidable (v.Undisturbed fails publication) := by
  unfold View.Undisturbed
  split <;> infer_instance

/-! ## What a publication keeps -/

namespace Sound

variable {publication : Publication D} {fails : Bool} {job : Job D} {contents : List Content}
  {pending : List Path} {found before : List SourceFile} {digest : D} {attempt : ℕ}

variable (h : Sound registry k none v)
include h

/-- The walk of a publication that has no temporary directory yet. -/
theorem collecting (hp : v.publication = some (.collecting attempt pending found)) :
    Sound registry k none (v.advance registry k fails (.collecting attempt pending found)) := by
  have htemp : v.publication.bind temp = none := by rw [hp]; rfl
  have hwalking : Walking v.seen pending found := h.publishing _ hp
  cases pending with
  | nil =>
    simp only [View.advance]
    split
    · exact h.failed htemp
    · exact h.going hwalking.listed (by simp [htemp])
  | cons path pending =>
    simp only [View.advance]
    split
    · exact h.failed htemp
    · split
      · exact h.failed htemp
      · rename_i pending' found' hwalk
        exact h.going (hwalking.walk h.source hwalk) (by simp [htemp])

/-- The step that digests what was read. -/
theorem hashing (hp : v.publication = some (.hashing attempt before contents)) :
    Sound registry k none (v.advance registry k fails (.hashing attempt before contents)) := by
  have htemp : v.publication.bind temp = none := by rw [hp]; rfl
  have hlist : Listed v.seen before := h.publishing _ hp
  simp only [View.advance]
  split
  · split
    · exact h.failed htemp
    · split
      · exact h.failed htemp
      · exact h.going hlist (by simp [htemp])
  · exact h.going hlist (by simp [htemp])

/-- The step that compares a second walk with the first. -/
theorem rechecking (hp : v.publication = some (.rechecking attempt before digest pending found)) :
    Sound registry k none
      (v.advance registry k fails (.rechecking attempt before digest pending found)) := by
  have htemp : v.publication.bind temp = none := by rw [hp]; rfl
  have hlist : Listed v.seen before := h.publishing _ hp
  cases pending with
  | nil =>
    simp only [View.advance]
    split
    · exact h.changed htemp attempt
    · split
      · exact h.going trivial (by simp [htemp])
      · exact h.going hlist (by simp [htemp])
  | cons path pending =>
    simp only [View.advance]
    split
    · exact h.failed htemp
    · split
      · exact h.failed htemp
      · exact h.going hlist (by simp [htemp])

/-- **A snapshot that is adopted is there**, and so it is complete. -/
theorem adopting (hp : v.publication = some (.adopting digest)) :
    Sound registry k none (v.advance registry k fails (.adopting digest)) := by
  have htemp : v.publication.bind temp = none := by rw [hp]; rfl
  simp only [View.advance]
  split
  · exact h.failed htemp
  · rename_i entry hent
    split
    · exact h.failed htemp
    · obtain ⟨dir, hdir, -⟩ := bind_eq_some_iff.1 hent
      refine ⟨h.source, h.complete, ?_, by rintro publication ⟨⟩, fun name hname =>
        .inl ((h.temps name hname).resolve_right (by simp [htemp]))⟩
      rintro digest' ⟨⟩
      exact ⟨isSome_iff_exists.2 ⟨dir, hdir⟩, by simp⟩

/-- What an earlier process left under the name goes. -/
theorem clearing (hp : v.publication = some (.clearing job))
    (hkept : v.Undisturbed fails (.clearing job)) :
    Sound registry k none (v.advance registry k fails (.clearing job)) := by
  have htemp : v.publication.bind temp = none := by rw [hp]; rfl
  have hlist : Listed v.seen job.before := h.publishing _ hp
  have hleft : ∀ name, (v.temps.lookup name).isSome → name ∈ v.left := fun name hname =>
    (h.temps name hname).resolve_right (by simp [htemp])
  simp only [View.advance]
  split
  · rename_i hnone
    exact h.going ⟨hlist, hnone⟩ (by simp [htemp])
  · rename_i hnil
    obtain rfl : fails = false := hkept.resolve_right (by simp [hnil])
    simp only [Bool.false_eq_true, if_false]
    refine { h with publishing := ?_, temps := fun name hname => ?_ }
    · rintro publication ⟨⟩
      exact ⟨hlist, by simp only [lookup_erase_eq, if_true]⟩
    · simp only [lookup_erase_eq] at hname
      split at hname
      · cases hname
      · exact .inl (hleft name hname)
  · rename_i file dir hdir
    obtain rfl : fails = false := hkept.resolve_right (by simp [hdir])
    simp only [Bool.false_eq_true, if_false]
    refine { h with publishing := ?_, temps := fun name hname => ?_ }
    · rintro publication hpub
      rw [hp] at hpub
      cases hpub
      exact hlist
    · simp only [lookup_insert_eq] at hname
      split at hname
      · rename_i heq
        exact .inl (hleft name (by rw [heq, hdir]; rfl))
      · exact .inl (hleft name hname)

/-- The temporary directory is new, and empty. -/
theorem creating (hp : v.publication = some (.creating job)) :
    Sound registry k none (v.advance registry k fails (.creating job)) := by
  have htemp : v.publication.bind temp = none := by rw [hp]; rfl
  obtain ⟨hlist, hnone⟩ : Listed v.seen job.before ∧ v.temps.lookup job.temp = none :=
    h.publishing _ hp
  simp only [View.advance]
  split
  · exact h.failed htemp
  · refine { h with publishing := ?_, temps := fun name hname => ?_ }
    · rintro publication ⟨⟩
      refine ⟨hlist, by rintro i file content - ⟨⟩, ?_⟩
      simp only [lookup_insert_eq, if_true, hnone, getD_none]
      rw [copied, zipWith_nil_right]
    · simp only [lookup_insert_eq] at hname
      by_cases heq : name = job.temp
      · exact .inr (by rw [heq]; rfl)
      · rw [if_neg heq] at hname
        refine .inl (mem_filter.2 ⟨?_, by simpa using heq⟩)
        exact (h.temps name hname).resolve_right (by simp [htemp])

/-- **A file is copied**, as it is read. -/
theorem copying (hp : v.publication = some (.copying job contents)) :
    Sound registry k none (v.advance registry k fails (.copying job contents)) := by
  have htemp : v.publication.bind temp = some job.temp := by rw [hp]; rfl
  obtain ⟨hlist, hreads, hdir⟩ : Listed v.seen job.before ∧ ReadsOf v job.before contents ∧
    v.temps.lookup job.temp = some (copied job.before contents) := h.publishing _ hp
  have hdiscard : Sound registry k none (v.going (.discarding job false)) :=
    h.going trivial (by rw [htemp]; exact fun name hname => hname)
  simp only [View.advance]
  split
  · rename_i file hfile
    split
    · exact hdiscard
    · rename_i source hsrc
      split
      · exact hdiscard
      · have hseen : file ∈ v.seen := hlist.seen file (mem_of_getElem? hfile)
        refine { h with publishing := ?_, temps := fun name hname => ?_ }
        · rintro publication ⟨⟩
          refine ⟨hlist, fun i file' content hfile' hcont => ?_, ?_⟩
          · rcases Nat.lt_or_ge i contents.length with hlt | hge
            · rw [getElem?_append_left hlt] at hcont
              exact hreads i file' content hfile' hcont
            · rw [getElem?_append_right hge, getElem?_singleton] at hcont
              split at hcont
              · obtain rfl : i = contents.length := by omega
                cases hcont
                cases hfile.symm.trans hfile'
                exact readOf_of_lookup hseen hsrc
              · cases hcont
          · simp only [lookup_modify_eq, if_true, hdir, map_some]
            rw [copied_concat hlist.nodup hfile]
        · simp only [lookup_modify_eq] at hname
          by_cases heq : name = job.temp
          · exact .inr (by rw [heq]; rfl)
          · rw [if_neg heq] at hname
            refine .inl ((h.temps name hname).resolve_right fun hsome => heq ?_)
            rw [htemp] at hsome
            exact (some.inj hsome).symm
  · exact h.going ⟨contents, hreads, hdir, rfl, by rintro i file content - - ⟨⟩⟩
      (by rw [htemp]; exact fun name hname => hname)

/-- **The last walk.** A file that is found again was not changed since. -/
theorem verifying (hp : v.publication = some (.verifying job digest pending found))
    (hkept : v.Undisturbed fails (.verifying job digest pending found)) :
    Sound registry k none (v.advance registry k fails (.verifying job digest pending found)) := by
  have htemp : v.publication.bind temp = some job.temp := by rw [hp]; rfl
  obtain ⟨contents, hreads, hdir, hdigest, hfnd⟩ := h.publishing _ hp
  have hdiscard : ∀ changed, Sound registry k none (v.going (.discarding job changed)) :=
    fun changed => h.going trivial (by rw [htemp]; exact fun name hname => hname)
  cases pending with
  | nil =>
    simp only [View.advance]
    split
    · exact hdiscard true
    · rename_i hsame
      simp only [not_or, not_not] at hsame
      split
      · exact hdiscard false
      · rename_i entry hent
        split
        · exact hdiscard false
        · refine h.going ⟨_, hdir, ?_, ?_⟩ (by rw [htemp]; exact fun name hname => hname)
          · rw [digest_copied fun i file content hfile hcont =>
              hfnd i file content hfile hcont ?_, ← hdigest, hsame.2]
            have hmem : file ∈ sorted found := by
              rw [hsame.1]
              exact mem_of_getElem? hfile
            exact (perm_insertionSort _ _).subset hmem
          · rw [hdir, bind_some] at hent
            rw [hent]
            rfl
  | cons path pending =>
    obtain ⟨rfl, hwalk⟩ := hkept
    obtain ⟨⟨pending', found'⟩, hwalk⟩ := isSome_iff_exists.1 hwalk
    simp only [View.advance, Bool.false_eq_true, if_false, hwalk]
    refine h.going ⟨contents, hreads, hdir, hdigest, fun i file content hfile hcont hmem => ?_⟩
      (by rw [htemp]; exact fun name hname => hname)
    rcases walk_eq_some hwalk with ⟨file', hfile', -, rfl⟩ | ⟨-, rfl⟩
    · rcases mem_concat.1 hmem with hold | rfl
      · exact hfnd i file content hfile hcont hold
      · rcases hreads i file content hfile hcont with hlen | ⟨-, hstale⟩
        · exact hlen
        · rw [stat_relative hfile'] at hstale
          exact absurd hfile' hstale
    · exact hfnd i file content hfile hcont hmem

/-- **The directory is renamed**, and is the snapshot of its digest. -/
theorem placing (hp : v.publication = some (.placing job))
    (hkept : v.Undisturbed fails (.placing job)) :
    Sound registry k none (v.advance registry k fails (.placing job)) := by
  have htemp : v.publication.bind temp = some job.temp := by rw [hp]; rfl
  obtain ⟨dir, hdir, hcomp⟩ : ∃ dir, v.temps.lookup job.temp = some dir ∧
    Complete registry k job.digest dir := h.publishing _ hp
  obtain ⟨rfl, hnone⟩ := hkept
  rw [isNone_iff_eq_none] at hnone
  simp only [View.advance, hnone, getD_none, ne_eq, not_true_eq_false, or_false,
    Bool.false_eq_true, if_false, hdir]
  refine ⟨h.source, fun digest' dir' hdir' hgone => ?_, ?_, by rintro publication ⟨⟩,
    fun name hname => ?_⟩
  · rw [lookup_insert_eq] at hdir'
    split at hdir'
    · rename_i heq
      rw [← some.inj hdir', heq]
      exact hcomp
    · exact h.complete digest' dir' hdir' hgone
  · rintro digest' ⟨⟩
    exact ⟨by rw [lookup_insert_eq, if_pos rfl]; rfl, by simp⟩
  · rw [lookup_erase_eq] at hname
    split at hname
    · cases hname
    · rename_i hne
      refine .inl ((h.temps name hname).resolve_right fun heq => hne ?_)
      rw [htemp] at heq
      exact (some.inj heq).symm

/-- The temporary directory is removed. -/
theorem discarding {changed : Bool} (hp : v.publication = some (.discarding job changed))
    (hkept : v.Undisturbed fails (.discarding job changed)) :
    Sound registry k none (v.advance registry k fails (.discarding job changed)) := by
  have htemp : v.publication.bind temp = some job.temp := by rw [hp]; rfl
  obtain rfl : fails = false := hkept
  simp only [View.advance, Bool.false_eq_true, if_false]
  split
  · rename_i file dir hdir
    refine { h with publishing := fun publication hpub => ?_, temps := fun name hname => ?_ }
    · rw [hp] at hpub
      cases hpub
      trivial
    · simp only [lookup_insert_eq] at hname
      split at hname
      · rename_i heq
        exact .inr (by rw [heq]; exact htemp)
      · exact h.temps name hname
  · have hdiscarded := h.discarded htemp
    split
    · exact hdiscarded.changed rfl job.attempt
    · exact hdiscarded

/-- **A publication keeps what holds of its view**, with every call that
leaves nothing behind. -/
theorem advance (hp : v.publication = some publication) (hkept : v.Undisturbed fails publication) :
    Sound registry k none (v.advance registry k fails publication) := by
  cases publication with
  | collecting attempt pending found => exact h.collecting hp
  | hashing attempt before contents => exact h.hashing hp
  | rechecking attempt before digest pending found => exact h.rechecking hp
  | adopting digest => exact h.adopting hp
  | naming attempt before digest => exact h
  | clearing job => exact h.clearing hp hkept
  | creating job => exact h.creating hp
  | copying job contents => exact h.copying hp
  | verifying job digest pending found => exact h.verifying hp hkept
  | placing job => exact h.placing hp hkept
  | discarding job changed => exact h.discarding hp hkept

omit h

end Sound

/-! ## Changes of the source -/

omit [DecidableEq D] in
/-- A change takes a file to metadata that it never had, so that what has
changed stays so. -/
theorem Stale.change {path : Path} {source : Option File} {tree : Tree} {seen : List SourceFile}
    (h : Stale v file) (htree : ∀ path', tree.stat path' =
      if path' = path then source.map (·.stat path) else v.source.stat path')
    (hfresh : ∀ source' ∈ source, source'.stat path ∉ v.seen) (hseen : v.seen ⊆ seen) :
    Stale { v with source := tree, seen := seen } file := by
  refine ⟨hseen h.1, ?_⟩
  rw [htree]
  split
  · intro heq
    obtain ⟨source', hsource', rfl⟩ := map_eq_some_iff.1 heq
    exact hfresh source' hsource' h.1
  · exact h.2

/-- A change of a file of the sources keeps a view sound. -/
theorem Sound.change {path : Path} {source : Option File} {tree : Tree} {seen : List SourceFile}
    (h : Sound registry k gone v) (htree : ∀ path', tree.stat path' =
      if path' = path then source.map (·.stat path) else v.source.stat path')
    (hfresh : ∀ source' ∈ source, source'.stat path ∉ v.seen) (hseen : v.seen ⊆ seen)
    (hnew : ∀ source' ∈ source, source'.stat path ∈ seen) :
    Sound registry k gone { v with source := tree, seen := seen } where
  __ := h
  source path' file hfile := by
    rw [htree] at hfile
    split at hfile
    · obtain ⟨source', hsource', rfl⟩ := map_eq_some_iff.1 hfile
      exact hnew source' hsource'
    · exact hseen (h.source path' file hfile)
  publishing publication hp := by
    have hwalking : ∀ pending found, Walking v.seen pending found → Walking seen pending found :=
      fun pending found hw => ⟨fun file hfile => hseen (hw.seen file hfile), hw.apart⟩
    have hlist : ∀ files, Listed v.seen files → Listed seen files :=
      fun files hl => ⟨fun file hfile => hseen (hl.seen file hfile), hl.nodup⟩
    have hreads : ∀ files contents, ReadsOf v files contents →
        ReadsOf { v with source := tree, seen := seen } files contents :=
      fun files contents hr i file content hfile hcont =>
        (hr i file content hfile hcont).imp_right fun hstale =>
          hstale.change htree hfresh hseen
    have hbef := h.publishing publication hp
    cases publication with
    | collecting attempt pending found => exact hwalking pending found hbef
    | hashing attempt before contents => exact hlist before hbef
    | rechecking attempt before digest pending found => exact hlist before hbef
    | adopting | discarding => trivial
    | naming attempt before digest => exact hlist before hbef
    | clearing job => exact hlist job.before hbef
    | creating job => exact ⟨hlist job.before hbef.1, hbef.2⟩
    | copying job contents =>
      exact ⟨hlist job.before hbef.1, hreads job.before contents hbef.2.1, hbef.2.2⟩
    | verifying job digest pending found =>
      obtain ⟨contents, hr, hrest⟩ := hbef
      exact ⟨contents, hreads job.before contents hr, hrest⟩
    | placing job => exact hbef

/-! ## Cleanups -/

variable [DecidableEq K] {s t : State K D}

namespace State

/-- The snapshot that a cleanup takes apart. -/
def removes (s : State K D) : Option (K × D) :=
  match s.cleanup with
  | some (.removing k _ _ _ _ _ revision _) => some (k, revision)
  | _ => none

/-- The snapshot of a view that a cleanup takes apart. -/
def removedOf (s : State K D) (k : K) : Option D :=
  s.removes.bind fun removed => if removed.1 = k then some removed.2 else none

end State

/-- The candidates of a view are there, and their bytes are known. -/
def Candidates (s : State K D) (k : K) (candidates : List (D × ℕ)) : Prop :=
  (candidates.map (·.1)).Nodup ∧ ∀ candidate ∈ candidates, ∃ dir,
    (s.views k).snapshots.lookup candidate.1 = some dir ∧ dir.size ≤ candidate.2

/-- **What holds of a cleanup**: its total is within the bytes that there
are. -/
def Cleaning (registry : Registry K D) (s : State K D) : Cleanup K D → Prop
  | .scanning views total => ∃ done, Sublist (done ++ views) registry.keys ∧
      total ≤ (done.map s.viewBytes).sum
  | .between rest total => rest ⊆ registry.keys ∧ total ≤ s.bytes registry
  | .deleting k rest _ total _ candidates => k ∈ registry.keys ∧ rest ⊆ registry.keys ∧
      total ≤ s.bytes registry ∧ Candidates s k candidates
  | .removing k rest _ total _ candidates revision bytes => k ∈ registry.keys ∧
      rest ⊆ registry.keys ∧ Candidates s k candidates ∧
      revision ∉ candidates.map (fun candidate : D × ℕ => candidate.1) ∧
      ∃ dir, (s.views k).snapshots.lookup revision = some dir ∧
        total + dir.size ≤ s.bytes registry + bytes

omit [DecidableEq K] [DecidableEq D] in
theorem bytes_mono (h : ∀ k, s.viewBytes k ≤ t.viewBytes k) : s.bytes registry ≤ t.bytes registry :=
  sum_le_sum fun k _ => h k

omit [DecidableEq K] in
/-- A cleanup goes on where snapshots are added, but not to its view. -/
theorem Cleaning.mono {cleanup : Cleanup K D} (h : Cleaning registry s cleanup)
    (hle : ∀ k, s.viewBytes k ≤ t.viewBytes k)
    (hsame : ∀ k, s.cleanup = some cleanup → s.cleaning = some k →
      (t.views k).snapshots = (s.views k).snapshots) (hcleanup : s.cleanup = some cleanup) :
    Cleaning registry t cleanup := by
  have hbytes : s.bytes registry ≤ t.bytes registry := bytes_mono hle
  have hcandidates : ∀ k candidates, s.cleaning = some k → Candidates s k candidates →
      Candidates t k candidates := by
    intro k candidates hk hcand
    refine ⟨hcand.1, fun candidate hmem => ?_⟩
    rw [hsame k hcleanup hk]
    exact hcand.2 candidate hmem
  cases cleanup with
  | scanning views total =>
    obtain ⟨done, hdone, htotal⟩ := h
    exact ⟨done, hdone, htotal.trans (sum_le_sum fun k _ => hle k)⟩
  | between rest total => exact ⟨h.1, h.2.trans hbytes⟩
  | deleting k rest base total current candidates =>
    have hk : s.cleaning = some k := by rw [State.cleaning, hcleanup]
    exact ⟨h.1, h.2.1, h.2.2.1.trans hbytes, hcandidates k candidates hk h.2.2.2⟩
  | removing k rest base total current candidates revision bytes =>
    have hk : s.cleaning = some k := by rw [State.cleaning, hcleanup]
    obtain ⟨hkeys, hrest, hcand, hnot, dir, hdir, htotal⟩ := h
    refine ⟨hkeys, hrest, hcandidates k candidates hk hcand, hnot, dir, ?_, by omega⟩
    rw [hsame k hcleanup hk]
    exact hdir

/-! ## What every step keeps -/

/-- **The step leaves snapshots whole and nothing behind.** A file changes to
metadata that it never had; what a removal takes apart it takes apart to the
end, and what follows a copy does not fail. -/
def Undisturbed (s : State K D) : Action K D → Prop
  | .change k path file => ∀ source ∈ file, source.stat path ∉ (s.views k).seen
  | .advance k fails => ∀ publication ∈ (s.views k).publication,
    (s.views k).Undisturbed fails publication
  | .clean fails _ => s.removes.isSome → fails = false
  | .kill _ => s.removes = none
  | _ => True

instance (s : State K D) (action : Action K D) : Decidable (Undisturbed s action) := by
  unfold Undisturbed
  split <;> infer_instance

/-- **What holds of the runtime and its cache.** -/
structure Kept (registry : Registry K D) (s : State K D) : Prop where
  view : ∀ k, Sound registry k (s.removedOf k) (s.views k)
  keys : ∀ k, (s.views k).publication.isSome → k ∈ registry.keys
  locked : ∀ k, s.cleaning = some k → (s.views k).publication = none
  cleaning : ∀ cleanup ∈ s.cleanup, Cleaning registry s cleanup

omit [DecidableEq K] [DecidableEq D] in
/-- The view of a removal is locked. -/
theorem cleaning_of_removes {digest : D} (h : s.removes = some (k, digest)) :
    s.cleaning = some k := by
  unfold State.removes at h
  unfold State.cleaning
  split at h
  · rename_i hcleanup
    rw [hcleanup]
    exact congrArg some (Prod.mk.inj (some.inj h)).1
  · cases h

omit [DecidableEq D] in
theorem set_views (w : View D) (k' : K) : (s.set k w).views k' = if k' = k then w else s.views k' :=
  update_apply ..

variable (h : Kept registry s)
include h

/-- No snapshot of a view with a publication is being removed. -/
theorem Kept.removedOf_eq_none (hp : (s.views k).publication.isSome) : s.removedOf k = none := by
  unfold State.removedOf
  cases hremoves : s.removes with
  | none => rfl
  | some removed =>
    rw [bind_some, if_neg]
    rintro rfl
    rw [h.locked _ (cleaning_of_removes hremoves)] at hp
    cases hp

/-- One view changes, and its snapshots grow at most. -/
theorem Kept.set {w : View D} (hsnd : Sound registry k (s.removedOf k) w)
    (hkeys : w.publication.isSome → k ∈ registry.keys)
    (hlocked : s.cleaning = some k → w.publication = none ∧ w.snapshots = (s.views k).snapshots)
    (hle : Assoc.total size (s.views k).snapshots ≤ Assoc.total size w.snapshots) :
    Kept registry (s.set k w) := by
  have hview := set_views (s := s) (k := k) w
  have hbytes : ∀ k', s.viewBytes k' ≤ (s.set k w).viewBytes k' := by
    intro k'
    rw [State.viewBytes, State.viewBytes, hview]
    split
    · rename_i heq
      rw [heq]
      exact hle
    · exact le_rfl
  refine ⟨fun k' => ?_, fun k' => ?_, fun k' hk' => ?_, fun cleanup hcleanup => ?_⟩
  · rw [hview]
    split
    · rename_i heq
      rw [heq]
      exact hsnd
    · exact h.view k'
  · rw [hview]
    split
    · rename_i heq
      rw [heq]
      exact hkeys
    · exact h.keys k'
  · rw [hview]
    split
    · rename_i heq
      exact (hlocked (heq ▸ hk')).1
    · exact h.locked k' hk'
  · refine (h.cleaning cleanup hcleanup).mono hbytes (fun k' _ hk' => ?_) hcleanup
    rw [hview]
    split
    · rename_i heq
      rw [heq]
      exact (hlocked (heq ▸ hk')).2
    · rfl

/-- A change of the sources keeps the snapshots. -/
theorem Kept.change {path : Path} {file : Option File}
    (hfresh : Undisturbed s (.change k path file)) (hstep : s.change k path file = some t) :
    Kept registry t := by
  unfold State.change at hstep
  simp only at hstep
  obtain ⟨-, hstep⟩ := ite_none_left_eq_some.1 hstep
  split at hstep
  · rename_i source _
    cases hstep
    refine h.set ((h.view k).change (fun path' => ?_) hfresh (subset_cons_self _ _)
      fun source' hsource' => ?_) (h.keys k) (fun hk => ⟨h.locked k hk, rfl⟩) le_rfl
    · simp only [stat, Assoc.lookup_insert_eq]
      split
      · rename_i heq
        rw [heq]
      · rfl
    · cases hsource'
      exact mem_cons_self
  · cases hstep
    refine h.set ((h.view k).change (fun path' => ?_) hfresh (Subset.refl _)
      (by rintro source ⟨⟩)) (h.keys k) (fun hk => ⟨h.locked k hk, rfl⟩) le_rfl
    simp only [stat, Assoc.lookup_erase_eq]
    split <;> rfl

/-- A publication starts with the snapshots kept. -/
theorem Kept.publish (hstep : s.publish registry k = some t) : Kept registry t := by
  unfold State.publish at hstep
  simp only at hstep
  split at hstep
  · rename_i hfree
    obtain ⟨hkey, hnone, hclean, -⟩ := hfree
    cases hstep
    rw [isNone_iff_eq_none] at hnone
    exact h.set ((h.view k).going walking_start (by simp [hnone])) (fun _ => hkey)
      (fun hk => absurd hk hclean) le_rfl
  · cases hstep

omit h

omit [DecidableEq K] [DecidableEq D] in
theorem View.changed_snapshots {attempt : ℕ} : (v.changed attempt).snapshots = v.snapshots := by
  unfold View.changed
  split <;> rfl

omit [DecidableEq K] in
/-- **A publication leaves the snapshots as they are**, but for the one that it
adds. -/
theorem View.advance_snapshots (registry : Registry K D) (k : K) {publication : Publication D}
    (hkept : v.Undisturbed fails publication) :
    (v.advance registry k fails publication).snapshots = v.snapshots ∨
      ∃ digest dir, v.snapshots.lookup digest = none ∧
        (v.advance registry k fails publication).snapshots = v.snapshots.insert digest dir := by
  cases publication with
  | placing job =>
    obtain ⟨rfl, hnone⟩ := hkept
    rw [isNone_iff_eq_none] at hnone
    simp only [View.advance]
    split
    · exact .inl rfl
    · split
      · exact .inl rfl
      · exact .inr ⟨_, _, hnone, rfl⟩
  | collecting attempt pending found | rechecking attempt before digest pending found
  | verifying job digest pending found =>
    left
    cases pending <;> simp only [View.advance] <;> repeat' split
    all_goals first | rfl | exact changed_snapshots
  | discarding job changed =>
    left
    simp only [View.advance]
    repeat' split
    all_goals first | rfl | exact changed_snapshots
  | hashing _ _ _ | adopting _ | naming _ _ _ | clearing _ | creating _ | copying _ _ =>
    left
    simp only [View.advance]
    repeat' split
    all_goals rfl

/-- A step of a publication keeps the snapshots. -/
theorem Kept.advance {fails : Bool} (h : Kept registry s)
    (hkept : Undisturbed s (.advance k fails)) (hstep : s.advance registry k fails = some t) :
    Kept registry t := by
  unfold State.advance at hstep
  simp only at hstep
  split at hstep
  · cases hstep
  · rename_i attempt before digest hp
    cases hstep
    have hsome : (s.views k).publication.isSome := by rw [hp]; rfl
    have hunlocked : s.cleaning ≠ some k := by
      intro hk
      rw [h.locked k hk] at hsome
      cases hsome
    have hlist : Listed (s.views k).seen before := (h.view k).publishing _ hp
    have hgoing : Sound registry k (s.removedOf k)
        ((s.views k).going (.clearing ⟨attempt, before, digest, (s.pid, s.sequence)⟩)) :=
      (h.view k).going hlist (by simp [hp, temp])
    have hset := h.set hgoing (fun _ => h.keys k hsome) (fun hk => absurd hk hunlocked) le_rfl
    exact { hset with cleaning := fun cleanup hcleanup =>
      (hset.cleaning cleanup hcleanup).mono (fun _ => le_rfl) (fun _ _ _ => rfl) hcleanup }
  · rename_i publication hne hp
    cases hstep
    have hsome : (s.views k).publication.isSome := by rw [hp]; rfl
    have hunlocked : s.cleaning ≠ some k := by
      intro hk
      rw [h.locked k hk] at hsome
      cases hsome
    have hnone := h.removedOf_eq_none hsome
    have hsnd := h.view k
    rw [hnone] at hsnd
    refine h.set (hnone ▸ hsnd.advance hp (hkept publication hp)) (fun _ => h.keys k hsome)
      (fun hk => absurd hk hunlocked) ?_
    rcases View.advance_snapshots registry k (hkept publication hp) with
      heq | ⟨digest, dir, hnew, heq⟩
    · rw [heq]
    · rw [heq, Assoc.total_insert_of_lookup_eq_none hnew]
      exact Nat.le_add_right _ _

/-- A process that dies keeps the snapshots. -/
theorem Kept.kill {pid : ℕ} (h : Kept registry s) (hkept : Undisturbed s (.kill pid)) :
    Kept registry (s.kill pid) := by
  have hnone : ∀ k, s.removedOf k = none := by
    intro k
    rw [State.removedOf, show s.removes = none from hkept]
    rfl
  refine ⟨fun k => ?_, by rintro k ⟨⟩, by rintro k ⟨⟩, by rintro cleanup ⟨⟩⟩
  have hsnd := h.view k
  rw [hnone] at hsnd
  refine ⟨hsnd.source, hsnd.complete, by rintro digest ⟨⟩, by rintro publication ⟨⟩,
    fun name hname => .inl ?_⟩
  obtain ⟨dir, hdir⟩ := isSome_iff_exists.1 hname
  exact List.mem_map.2 ⟨⟨name, dir⟩, mem_entries_iff.2 hdir, rfl⟩

omit [DecidableEq K] [DecidableEq D] in
/-- What is chosen by value and place stands in the same order. -/
theorem sublist_map_filter_zipIdx (revisions : List D) (chosen : D × ℕ → Bool) :
    Sublist ((revisions.zipIdx.filter chosen).map (·.1)) revisions := by
  have hsub : Sublist ((revisions.zipIdx.filter chosen).map (·.1))
      (revisions.zipIdx.map (·.1)) := filter_sublist.map _
  rwa [zipIdx_map_fst] at hsub

/-- **The candidates of a view are snapshots of it**, with their bytes. -/
theorem candidates_candidates (times : D → ℕ) : Candidates s k (s.candidates registry k times) := by
  set revisions := (((s.views k).snapshots.entries.map (·.1)).insertionSort
    (fun left right => times left ≤ times right)).reverse with hrevisions
  have hperm : revisions.Perm ((s.views k).snapshots.entries.map (·.1)) :=
    (reverse_perm _).trans (perm_insertionSort _ _)
  have hnodup : revisions.Nodup := hperm.nodup_iff.2 (s.views k).snapshots.nodupKeys
  constructor
  · simp only [State.candidates, List.map_map, comp_def, List.map_id', ← hrevisions]
    exact (perm_insertionSort _ _).nodup_iff.2 (hnodup.sublist (sublist_map_filter_zipIdx _ _))
  · intro candidate hmem
    simp only [State.candidates, List.mem_map, ← hrevisions] at hmem
    obtain ⟨revision, hmem, rfl⟩ := hmem
    have hchosen := (perm_insertionSort _ _).subset hmem
    have hent := hperm.subset ((sublist_map_filter_zipIdx _ _).subset hchosen)
    obtain ⟨⟨revision', dir⟩, hmem', rfl⟩ := List.mem_map.1 hent
    have hget := mem_entries_iff.1 hmem'
    exact ⟨dir, hget, by simp [hget]⟩

include h

/-- A cleanup starts with the snapshots kept. -/
theorem Kept.startCleanup (hstep : s.startCleanup registry = some t) : Kept registry t := by
  unfold State.startCleanup at hstep
  split at hstep
  · cases hstep
  · rename_i hnone
    cases hstep
    have hrem : ∀ k, s.removedOf k = none := by
      intro k
      rw [State.removedOf, State.removes, hnone]
      rfl
    refine ⟨fun k => ?_, h.keys, by rintro k ⟨⟩, ?_⟩
    · have hsnd := h.view k
      rw [hrem] at hsnd
      exact hsnd
    · rintro cleanup ⟨⟩
      exact ⟨[], filter_sublist, Nat.zero_le _⟩

/-- One cleanup takes the place of another that removes nothing, of the same
view or of none. -/
theorem Kept.setCleanup {cleanup : Option (Cleanup K D)} (hnone : s.removes = none)
    (hview : ∀ k, ({ s with cleanup := cleanup } : State K D).cleaning = some k →
      (s.views k).publication = none)
    (hsnd : ∀ k digest, ({ s with cleanup := cleanup } : State K D).removes = some (k, digest) →
      (s.views k).published ≠ some digest)
    (hcleaning : ∀ c ∈ cleanup, Cleaning registry s c) :
    Kept registry { s with cleanup := cleanup } := by
  refine ⟨fun k => ?_, h.keys, hview, fun c hc => ?_⟩
  · have hbef := h.view k
    rw [State.removedOf, hnone] at hbef
    refine ⟨hbef.source, fun digest dir hdir _ => hbef.complete digest dir hdir (by simp),
      fun digest hdigest => ⟨(hbef.published digest hdigest).1, fun hgone => ?_⟩,
      hbef.publishing, hbef.temps⟩
    obtain ⟨⟨k', digest'⟩, hremoves, heq⟩ := bind_eq_some_iff.1 hgone
    obtain ⟨rfl, hdigest'⟩ := ite_none_right_eq_some.1 heq
    cases hdigest'
    exact hsnd k' digest' hremoves hdigest
  · have hmono := hcleaning c hc
    cases c <;> exact hmono

variable {times : D → ℕ} {rest : List K}

/-- **A cleanup comes to a view**, or goes on to the next. -/
theorem Kept.between (hcleanup : s.cleanup = some (.between rest total))
    (hstep : s.clean registry fails times = some t) : Kept registry t := by
  have hnone : s.removes = none := by rw [State.removes, hcleanup]
  obtain ⟨hrest, htotal⟩ : rest ⊆ registry.keys ∧ total ≤ s.bytes registry :=
    h.cleaning _ hcleanup
  simp only [State.clean, hcleanup] at hstep
  cases rest with
  | nil =>
    cases hstep
    exact h.setCleanup hnone (by rintro k ⟨⟩) (by rintro k digest ⟨⟩) (by rintro c ⟨⟩)
  | cons k rest =>
    obtain ⟨hk, hrest⟩ := cons_subset.1 hrest
    simp only at hstep
    split at hstep
    · cases hstep
    · rename_i hfree
      split at hstep
      · cases hstep
        refine h.setCleanup hnone (by rintro k ⟨⟩) (by rintro k digest ⟨⟩) ?_
        rintro c ⟨⟩
        exact ⟨hrest, htotal⟩
      · cases hstep
        refine h.setCleanup hnone ?_ (by rintro k digest ⟨⟩) ?_
        · rintro k' ⟨⟩
          simpa using hfree
        · rintro c ⟨⟩
          exact ⟨hk, hrest, htotal, candidates_candidates times⟩

variable {candidates : List (D × ℕ)} {current : List (K × D)}

/-- **The next candidate** stays, or is to be removed. -/
theorem Kept.deleting (hcleanup : s.cleanup = some (.deleting k rest base total current candidates))
    (hstep : s.clean registry fails times = some t) : Kept registry t := by
  have hnone : s.removes = none := by rw [State.removes, hcleanup]
  have hlocked : (s.views k).publication = none :=
    h.locked k (by rw [State.cleaning, hcleanup])
  obtain ⟨hk, hrest, htotal, hcandidates⟩ : k ∈ registry.keys ∧ rest ⊆ registry.keys ∧
    total ≤ s.bytes registry ∧ Candidates s k candidates := h.cleaning _ hcleanup
  simp only [State.clean, hcleanup] at hstep
  cases candidates with
  | nil =>
    cases hstep
    refine h.setCleanup hnone (by rintro k ⟨⟩) (by rintro k digest ⟨⟩) ?_
    rintro c ⟨⟩
    exact ⟨hrest, htotal⟩
  | cons candidate candidates =>
    obtain ⟨revision, bytes⟩ := candidate
    obtain ⟨hnodup, hdirs⟩ := hcandidates
    obtain ⟨hnot, hnodup⟩ := nodup_cons.1 hnodup
    obtain ⟨dir, hdir, hsize⟩ := hdirs _ mem_cons_self
    have hlat : Candidates s k candidates :=
      ⟨hnodup, fun candidate hmem => hdirs candidate (mem_cons_of_mem _ hmem)⟩
    simp only at hstep
    split at hstep
    · cases hstep
      refine h.setCleanup hnone ?_ (by rintro k digest ⟨⟩) ?_
      · rintro k' ⟨⟩
        exact hlocked
      · rintro c ⟨⟩
        exact ⟨hk, hrest, htotal, hlat⟩
    · rename_i hremove
      cases hstep
      refine h.setCleanup hnone ?_ ?_ ?_
      · rintro k' ⟨⟩
        exact hlocked
      · rintro k' digest ⟨⟩ hpublished
        exact hremove (.inr (.inr hpublished))
      · rintro c ⟨⟩
        exact ⟨hk, hrest, hlat, hnot, dir, hdir, by omega⟩

omit h

omit [DecidableEq D] in
/-- One of the numbers that are added up changes. -/
theorem sum_map_update {keys : List K} (hnodup : keys.Nodup) (hk : k ∈ keys) (f : K → ℕ) (n : ℕ) :
    (keys.map (update f k n)).sum + f k = (keys.map f).sum + n := by
  induction keys with
  | nil => cases hk
  | cons k' keys ih =>
    obtain ⟨hnot, hnodup⟩ := nodup_cons.1 hnodup
    rw [map_cons, sum_cons, map_cons, sum_cons]
    rcases mem_cons.1 hk with rfl | hk
    · have hrest : keys.map (update f k n) = keys.map f := by
        refine map_congr_left fun k' hk' => update_of_ne ?_ n f
        rintro rfl
        exact hnot hk'
      rw [update_self, hrest]
      omega
    · have hne : k' ≠ k := by
        rintro rfl
        exact hnot hk
      have := ih hnodup hk
      rw [update_of_ne hne]
      omega

omit [DecidableEq D] in
/-- The bytes that there are change with those of a view. -/
theorem bytes_set (hk : k ∈ registry.keys) (w : View D) :
    (s.set k w).bytes registry + Assoc.total size (s.views k).snapshots =
      s.bytes registry + Assoc.total size w.snapshots := by
  have hview : (s.set k w).viewBytes =
      update s.viewBytes k (Assoc.total size w.snapshots) := by
    funext k'
    rw [State.viewBytes, set_views, update_apply]
    split <;> rfl
  rw [State.bytes, hview]
  exact sum_map_update registry.nodup hk s.viewBytes _

omit [DecidableEq K] in
/-- The view of a removal changes, and nothing that is known of its other
snapshots. -/
theorem Sound.removing {digest : D} {snapshots : Assoc D Dir}
    (h : Sound registry k (some digest) v)
    (hother : ∀ digest', digest' ≠ digest → snapshots.lookup digest' = v.snapshots.lookup digest') :
    Sound registry k (some digest) { v with snapshots := snapshots } := by
  refine ⟨h.source, fun digest' dir hdir hgone => ?_, fun digest' hpublished => ?_, h.publishing,
    h.temps⟩
  · rw [hother digest' fun heq => hgone (by rw [heq])] at hdir
    exact h.complete digest' dir hdir hgone
  · obtain ⟨hthere, hgone⟩ := h.published digest' hpublished
    refine ⟨?_, hgone⟩
    rw [hother digest' fun heq => hgone (by rw [heq])]
    exact hthere

variable {digest : D}

theorem Candidates.set {snapshots : Assoc D Dir}
    (h : Candidates s k candidates) (hnot : digest ∉ candidates.map (·.1))
    (hother : ∀ digest', digest' ≠ digest →
      snapshots.lookup digest' = (s.views k).snapshots.lookup digest') :
    Candidates (s.set k { s.views k with snapshots := snapshots }) k candidates := by
  refine ⟨h.1, fun candidate hmem => ?_⟩
  obtain ⟨dir, hdir, hsize⟩ := h.2 candidate hmem
  refine ⟨dir, ?_, hsize⟩
  rw [set_views, if_pos rfl]
  rw [hother _ fun heq => hnot (heq ▸ mem_map_of_mem hmem)]
  exact hdir

/-- **A snapshot is taken apart to the end.** -/
theorem Kept.removing {bytes : ℕ} {revision : D} (h : Kept registry s)
    (hcleanup : s.cleanup = some (.removing k rest base total current candidates revision bytes))
    (hstep : s.clean registry false times = some t) : Kept registry t := by
  have hlocked : (s.views k).publication = none := h.locked k (by rw [State.cleaning, hcleanup])
  have hremoves : s.removes = some (k, revision) := by rw [State.removes, hcleanup]
  have hgone : s.removedOf k = some revision := by simp [State.removedOf, hremoves]
  obtain ⟨hk, hrest, hcandidates, hnot, dir, hdir, htotal⟩ : k ∈ registry.keys ∧
    rest ⊆ registry.keys ∧ Candidates s k candidates ∧
      revision ∉ candidates.map (fun candidate : D × ℕ => candidate.1) ∧
      ∃ dir, (s.views k).snapshots.lookup revision = some dir ∧
        total + dir.size ≤ s.bytes registry + bytes := h.cleaning _ hcleanup
  have hsnd := h.view k
  rw [hgone] at hsnd
  simp only [State.clean, hcleanup, Bool.false_eq_true, if_false] at hstep
  split at hstep
  · rename_i hnone
    rw [hdir] at hnone
    cases hnone
  · -- the directory is empty, and goes
    rename_i hnil
    cases hdir.symm.trans hnil
    cases hstep
    set snapshots := (s.views k).snapshots.erase revision with hsnaps
    have hother : ∀ digest', digest' ≠ revision →
        snapshots.lookup digest' = (s.views k).snapshots.lookup digest' := fun digest' hne => by
      rw [hsnaps, lookup_erase_eq, if_neg hne]
    have hbytes := bytes_set (s := s) hk { s.views k with snapshots := snapshots }
    have herase := total_erase (f := size) hdir
    have hview := set_views (s := s) (k := k) { s.views k with snapshots := snapshots }
    refine ⟨fun k' => ?_, fun k' => ?_, ?_, ?_⟩
    · show Sound registry k' none _
      rw [hview]
      split
      · rename_i heq
        subst heq
        have hrem := hsnd.removing hother
        refine ⟨hrem.source, fun digest' dir' hdir' _ => ?_, fun digest' hpublished =>
          ⟨(hrem.published digest' hpublished).1, by simp⟩, hrem.publishing,
          hrem.temps⟩
        refine hrem.complete digest' dir' hdir' fun heq => ?_
        cases heq
        rw [hsnaps, lookup_erase_eq, if_pos rfl] at hdir'
        cases hdir'
      · rename_i hne
        have hbef := h.view k'
        have hnone : s.removedOf k' = none := by
          simp [State.removedOf, hremoves, Ne.symm hne]
        rwa [hnone] at hbef
    · rw [hview]
      split
      · rename_i heq
        rw [heq]
        exact h.keys k
      · exact h.keys k'
    · rintro k' ⟨⟩
      rw [hview, if_pos rfl]
      exact hlocked
    · rintro c ⟨⟩
      refine ⟨hk, hrest, ?_, hcandidates.set hnot hother⟩
      change total - bytes ≤ (s.set k { s.views k with snapshots := snapshots }).bytes registry
      rw [← hsnaps] at herase
      dsimp only at hbytes ⊢
      omega
  · -- one file of it goes
    rename_i file later hmore
    cases hdir.symm.trans hmore
    cases hstep
    set snapshots := (s.views k).snapshots.insert revision later with hsnaps
    have hother : ∀ digest', digest' ≠ revision →
        snapshots.lookup digest' = (s.views k).snapshots.lookup digest' := fun digest' hne => by
      rw [hsnaps, lookup_insert_eq, if_neg hne]
    have hbytes := bytes_set (s := s) hk { s.views k with snapshots := snapshots }
    have hins := total_insert (f := size) (w := later) hdir
    have hview := set_views (s := s) (k := k) { s.views k with snapshots := snapshots }
    refine ⟨fun k' => ?_, fun k' => ?_, fun k' hk' => ?_, fun c hc => ?_⟩
    · show Sound registry k' (s.removedOf k') _
      rw [hview]
      split
      · rename_i heq
        subst heq
        rw [hgone]
        exact hsnd.removing hother
      · exact h.view k'
    · rw [hview]
      split
      · rename_i heq
        rw [heq]
        exact h.keys k
      · exact h.keys k'
    · rw [hview]
      split
      · exact hlocked
      · exact h.locked k' hk'
    · change c ∈ s.cleanup at hc
      rw [hcleanup] at hc
      cases hc
      refine ⟨hk, hrest, hcandidates.set hnot hother, hnot, later, ?_, ?_⟩
      · rw [hview, if_pos rfl]
        rw [hsnaps, lookup_insert_eq, if_pos rfl]
      · rw [← hsnaps] at hins
        dsimp only at hbytes ⊢
        omega

/-- **The views are added up**, one after another. -/
theorem Kept.scanning {views : List K} (h : Kept registry s)
    (hcleanup : s.cleanup = some (.scanning views total))
    (hstep : s.clean registry fails times = some t) : Kept registry t := by
  have hnone : s.removes = none := by rw [State.removes, hcleanup]
  obtain ⟨done, hdone, htotal⟩ : ∃ done : List K, Sublist (done ++ views) registry.keys ∧
    total ≤ (done.map s.viewBytes).sum := h.cleaning _ hcleanup
  cases views with
  | nil =>
    simp only [State.clean, hcleanup] at hstep
    cases hstep
    refine h.setCleanup hnone (by rintro k ⟨⟩) (by rintro k digest ⟨⟩) ?_
    rintro c ⟨⟩
    rw [append_nil] at hdone
    exact ⟨Subset.refl _, htotal.trans ((hdone.map s.viewBytes).sum_le_sum
      fun _ _ => Nat.zero_le _)⟩
  | cons k views =>
    simp only [State.clean, hcleanup] at hstep
    split at hstep
    · cases hstep
      exact h.setCleanup hnone (by rintro k ⟨⟩) (by rintro k digest ⟨⟩) (by rintro c ⟨⟩)
    · cases hstep
      refine h.setCleanup hnone (by rintro k ⟨⟩) (by rintro k digest ⟨⟩) ?_
      rintro c ⟨⟩
      refine ⟨done ++ [k], ?_, ?_⟩
      · rw [append_assoc]
        exact hdone
      · rw [map_append, sum_append, map_singleton, sum_singleton]
        omega

variable {action : Action K D}

/-- **Every step that leaves snapshots whole keeps what holds.** -/
theorem Kept.step (h : Kept registry s) (hkept : Undisturbed s action)
    (hstep : s.step registry action = some t) : Kept registry t := by
  cases action with
  | change k path file => exact h.change hkept hstep
  | publish k => exact h.publish hstep
  | advance k fails => exact h.advance hkept hstep
  | cleanup => exact h.startCleanup hstep
  | clean fails times =>
    cases hcleanup : s.cleanup with
    | none =>
      simp only [State.step, State.clean, hcleanup] at hstep
      cases hstep
    | some cleanup =>
      cases cleanup with
      | scanning views total => exact h.scanning hcleanup hstep
      | between rest total => exact h.between hcleanup hstep
      | deleting k rest base total current candidates => exact h.deleting hcleanup hstep
      | removing k rest base total current candidates revision bytes =>
        obtain rfl : fails = false := hkept (by rw [State.removes, hcleanup]; rfl)
        exact h.removing hcleanup hstep
  | kill pid =>
    cases hstep
    exact h.kill hkept

/-- The snapshots are kept in every reachable state. -/
theorem kept_of_reachable (h : ((machine registry).restrict Undisturbed).Reachable s) :
    Kept registry s := by
  refine h.rule (P := Kept registry) ⟨fun k => ?_, by rintro k ⟨⟩, by rintro k ⟨⟩,
    by rintro cleanup ⟨⟩⟩ fun u action v _ hu hv => ?_
  · refine ⟨by rintro path file ⟨⟩, by rintro digest dir ⟨⟩, by rintro digest ⟨⟩,
      by rintro publication ⟨⟩, by rintro name ⟨⟩⟩
  · obtain ⟨hkept, hstep⟩ := Machine.restrict_step_eq_some.1 hv
    exact hu.step hkept hstep

/-! ## What a step may take away -/

/-- A cleanup takes one snapshot apart at a time. -/
theorem lookup_clean (hstep : s.clean registry fails times = some t)
    (hdir : (s.views k).snapshots.lookup digest = some dir) :
    (t.views k).snapshots.lookup digest = some dir ∨ s.removes = some (k, digest) := by
  have hrem : ∀ {k' : K} {revision : D} {snapshots : Assoc D Dir}
      {cleanup : Option (Cleanup K D)}, s.removes = some (k', revision) →
      (∀ digest', digest' ≠ revision →
        snapshots.lookup digest' = (s.views k').snapshots.lookup digest') →
      (({ s.set k' { s.views k' with snapshots := snapshots } with cleanup := cleanup } :
        State K D).views k).snapshots.lookup digest = some dir ∨ s.removes = some (k, digest) := by
    intro k' revision snapshots cleanup hremoves hother
    by_cases hsubj : k = k' ∧ digest = revision
    · exact .inr (by rw [hremoves, hsubj.1, hsubj.2])
    · left
      change ((s.set k' { s.views k' with snapshots := snapshots }).views
        k).snapshots.lookup digest = some dir
      rw [set_views]
      split
      · rename_i heq
        rw [hother digest fun heq' => hsubj ⟨heq, heq'⟩, ← heq]
        exact hdir
      · exact hdir
  unfold State.clean at hstep
  split at hstep
  case h_8 k' rest base total current candidates revision bytes hcleanup =>
    -- only a removal changes a view
    have hremoves : s.removes = some (k', revision) := by rw [State.removes, hcleanup]
    simp only at hstep
    split at hstep
    · cases hstep
      exact .inl hdir
    · split at hstep <;> cases hstep
      · exact .inl hdir
      · exact hrem hremoves fun digest' hne => by rw [lookup_erase_eq, if_neg hne]
      · exact hrem hremoves fun digest' hne => by rw [lookup_insert_eq, if_neg hne]
  all_goals
    left
    try dsimp only at hstep
    repeat' split at hstep
    all_goals first
      | (obtain rfl := some.inj hstep; exact hdir)
      | cases hstep

/-- **Snapshots are immutable**: a step keeps each of them, but for the one
that a cleanup removes. -/
theorem lookup_step (hkept : Undisturbed s action) (hstep : s.step registry action = some t)
    (hdir : (s.views k).snapshots.lookup digest = some dir) :
    (t.views k).snapshots.lookup digest = some dir ∨ s.removes = some (k, digest) := by
  have hset : ∀ {k' : K} {w : View D} {cleanup : Option (Cleanup K D)} {sequence : ℕ},
      (k = k' → w.snapshots.lookup digest = some dir) →
      (({ s.set k' w with cleanup := cleanup, sequence := sequence } : State K D).views
        k).snapshots.lookup digest = some dir := by
    intro k' w cleanup sequence hw
    change ((s.set k' w).views k).snapshots.lookup digest = some dir
    rw [set_views]
    split
    · rename_i heq
      exact hw heq
    · exact hdir
  cases action with
  | change k' path file =>
    left
    simp only [State.step, State.change] at hstep
    split at hstep
    · cases hstep
    · split at hstep <;> obtain rfl := some.inj hstep <;>
        exact hset fun heq => by rw [← heq]; exact hdir
  | publish k' =>
    left
    cases (ite_none_right_eq_some.1 hstep).2
    exact hset fun heq => by rw [← heq]; exact hdir
  | advance k' fails =>
    left
    simp only [State.step, State.advance] at hstep
    split at hstep
    · cases hstep
    · cases hstep
      exact hset fun heq => by rw [← heq]; exact hdir
    · rename_i publication _ hp
      cases hstep
      refine hset fun heq => ?_
      rcases View.advance_snapshots registry k' (hkept publication hp) with
        hsame | ⟨digest', dir', hnew, hsame⟩
      · rw [hsame, ← heq, hdir]
      · rw [hsame, lookup_insert_eq, if_neg, ← heq, hdir]
        rintro rfl
        rw [← heq, hdir] at hnew
        cases hnew
  | cleanup =>
    left
    simp only [State.step, State.startCleanup] at hstep
    split at hstep
    · cases hstep
    · cases hstep
      exact hdir
  | clean fails times => exact lookup_clean hstep hdir
  | kill pid =>
    left
    cases hstep
    exact hdir

/-- **What a cleanup begins to remove** is not published, and there are too
many revisions of its view or too many bytes. -/
theorem removes_step (h : Kept registry s)
    (hstep : s.step registry action = some t) (hbef : s.removes = none)
    (haft : t.removes = some (k, digest)) : (s.views k).published ≠ some digest ∧
      (retainRevisionsPerView < (s.views k).snapshots.size ∨
        maxSnapshotBytes < s.bytes registry) := by
  have hsame : t.cleanup = s.cleanup → False := by
    intro heq
    rw [State.removes, heq] at haft
    rw [State.removes, haft] at hbef
    cases hbef
  cases action with
  | change k' path file =>
    refine (hsame ?_).elim
    simp only [State.step, State.change] at hstep
    repeat' split at hstep
    all_goals first
      | (obtain rfl := some.inj hstep; rfl)
      | cases hstep
  | publish k' =>
    refine (hsame ?_).elim
    cases (ite_none_right_eq_some.1 hstep).2
    rfl
  | advance k' fails =>
    refine (hsame ?_).elim
    simp only [State.step, State.advance] at hstep
    repeat' split at hstep
    all_goals first
      | (obtain rfl := some.inj hstep; rfl)
      | cases hstep
  | cleanup =>
    simp only [State.step, State.startCleanup] at hstep
    split at hstep
    · cases hstep
    · cases hstep
      cases haft
  | kill pid =>
    cases hstep
    cases haft
  | clean fails times =>
    simp only [State.step] at hstep
    unfold State.clean at hstep
    split at hstep
    case h_7 k' rest base total current revision bytes candidates hcleanup =>
      obtain ⟨-, -, htotal, -⟩ : k' ∈ registry.keys ∧ rest ⊆ registry.keys ∧
        total ≤ s.bytes registry ∧ Candidates s k' ((revision, bytes) :: candidates) :=
          h.cleaning _ hcleanup
      dsimp only at hstep
      split at hstep
      · cases hstep
        cases haft
      · rename_i hremove
        cases hstep
        cases some.inj haft
        refine ⟨fun hpublished => hremove (.inr (.inr hpublished)), ?_⟩
        rcases Nat.lt_or_ge maxSnapshotBytes total with hlarge | hsmall
        · exact .inr (hlarge.trans_le htotal)
        · left
          by_contra hfew
          exact hremove (.inl ⟨hsmall, fun hover => hfew hover.2⟩)
    case h_8 k' rest base total current candidates revision bytes hcleanup =>
      rw [State.removes, hcleanup] at hbef
      cases hbef
    all_goals
      try dsimp only at hstep
      repeat' split at hstep
      all_goals first
        | (obtain rfl := some.inj hstep; cases haft)
        | cases hstep

/-- **Published viewer snapshots are immutable and complete.** In every run
whose steps leave snapshots whole and nothing behind: what the registry
points to holds the files of its digest and no others, with its entry; where
no publication is under way every temporary directory is one that a kill
left; and a step changes no snapshot but one that a cleanup removes, which
begins only with one that is not published, where there are too many
revisions or bytes. -/
theorem viewer_snapshots_kept (hdigests : Function.Injective registry.digest)
    (h : ((machine registry).restrict Undisturbed).Reachable s) :
    (∀ k digest, (s.views k).published = some digest →
      ∃ dir, (s.views k).snapshots.lookup digest = some dir ∧
        (∀ files, registry.digest files = digest ↔ files = dir) ∧
        (dir.read (registry.entry k)).isSome) ∧
    (∀ k, (s.views k).publication = none → ∀ name, ((s.views k).temps.lookup name).isSome →
      name ∈ (s.views k).left) ∧
    ∀ action t, ((machine registry).restrict Undisturbed).step s action = some t →
      (∀ k digest dir, (s.views k).snapshots.lookup digest = some dir →
        (t.views k).snapshots.lookup digest = some dir ∨ s.removes = some (k, digest)) ∧
      ∀ k digest, s.removes = none → t.removes = some (k, digest) →
        (s.views k).published ≠ some digest ∧ (retainRevisionsPerView < (s.views k).snapshots.size ∨
            maxSnapshotBytes < s.bytes registry) := by
  have hkept := kept_of_reachable h
  refine ⟨fun k digest hpublished => ?_, fun k hnone name hname => ?_, fun action t hstep => ?_⟩
  · obtain ⟨hthere, hgone⟩ := (hkept.view k).published digest hpublished
    obtain ⟨dir, hdir⟩ := Option.isSome_iff_exists.1 hthere
    obtain ⟨hdigest, hentry⟩ := (hkept.view k).complete digest dir hdir hgone
    refine ⟨dir, hdir, fun files => ⟨fun hfiles => ?_, fun heq => heq ▸ hdigest⟩, hentry⟩
    exact hdigests (hfiles.trans hdigest.symm)
  · exact ((hkept.view k).temps name hname).resolve_right (by rw [hnone]; simp)
  · obtain ⟨hquiet, hstep⟩ := Machine.restrict_step_eq_some.1 hstep
    exact ⟨fun k digest dir hdir => lookup_step hquiet hstep hdir,
      fun k digest hbefore hafter => removes_step hkept hstep hbefore hafter⟩

omit [DecidableEq D] [DecidableEq K] in
/-- Where the hash is injective the digest is. -/
theorem digest_injective (hhash : Function.Injective registry.hash) :
    Function.Injective registry.digest := by
  intro files files' heq
  refine (map_injective_iff.2 fun file file' hfile => ?_) (hhash heq)
  simp only [Prod.mk.injEq] at hfile
  exact Prod.ext hfile.1 hfile.2.2

/-- One view whose entry is `index.html`, with what is hashed for its digest. -/
def plainRegistry : Registry Unit (List (Path × ℕ × Content)) where
  keys := [()]
  nodup := nodup_singleton ()
  entry _ := ["index.html"]
  validEntry _ _ := true
  hash files := files

/-- A view of two files is written and published, to the last of so many
calls. -/
def publishRun (calls : ℕ) : List (Action Unit (List (Path × ℕ × Content))) :=
  [.change () ["index.html"] (some ⟨[1, 2], 1⟩), .change () ["assets", "app.js"] (some ⟨[3], 2⟩),
    .publish ()] ++ replicate calls (.advance () false)

/-- A view that was published once. -/
theorem viewer_snapshots_kept_published : ∃ s,
    ((machine plainRegistry).restrict Undisturbed).Reachable s ∧
    ∃ digest, (s.views ()).published = some digest ∧
      ∃ dir, (s.views ()).snapshots.lookup digest = some dir ∧
        (∀ files, plainRegistry.digest files = digest ↔ files = dir) ∧
        (dir.read ["index.html"]).isSome := by
  have hrun : ((machine plainRegistry).restrict Undisturbed).exec (publishRun 25)
      (machine plainRegistry).init = some (((machine plainRegistry).restrict Undisturbed).run
        (publishRun 25) (machine plainRegistry).init) :=
    Machine.exec_eq_run (by decide +kernel)
  have hpublished : (((((machine plainRegistry).restrict Undisturbed).run (publishRun 25)
      (machine plainRegistry).init).views ()).published) =
        some [(["assets", "app.js"], 1, [3]), (["index.html"], 2, [1, 2])] := by
    decide +kernel
  exact ⟨_, ⟨_, hrun⟩, _, hpublished,
    (viewer_snapshots_kept (digest_injective fun _ _ heq => heq) ⟨_, hrun⟩).1 _ _ hpublished⟩

/-- **A publication that fails leaves its temporary directory**, if the source
cannot be walked again once the files are copied. Nothing was killed. -/
theorem viewer_snapshot_left : ∃ s, (machine plainRegistry).Reachable s ∧
    (s.views ()).publication.isNone ∧ (s.views ()).published = none ∧
    (s.views ()).left = [] ∧ ((s.views ()).temps.lookup (1, 1)).isSome := by
  have hrun : (machine plainRegistry).exec (publishRun 19 ++ [.advance () true])
      (machine plainRegistry).init = some ((machine plainRegistry).run
        (publishRun 19 ++ [.advance () true]) (machine plainRegistry).init) :=
    Machine.exec_eq_run (by decide +kernel)
  exact ⟨_, ⟨_, hrun⟩, by decide +kernel, by decide +kernel, by decide +kernel, by decide +kernel⟩

end Snapshots

end Extensions

end Remux
