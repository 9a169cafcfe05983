import Mathlib.Data.List.Sort
import Mathlib.Data.String.Basic
import Remux.Common.Machine
import Remux.Common.Totals

/-!
# Publishing and cleaning up viewer snapshots

A publication of a view walks its source tree, hashes the files, walks the
tree again, and either adopts the snapshot that has their digest or copies
the files to a temporary directory, hashes them anew, walks the tree once
more and renames the directory. A cleanup adds up the snapshots of the
published views and then goes through the views, one after another. Each step
here is one call of the filesystem, which may fail, and the runtime may be
killed between any two.

A file is read, and copied, at one moment. Symbolic links and empty
directories are left out, and a directory is known by the files in it. What
the entry refers to and the digest are parameters, and so are the times that
directories were modified at, which order a cleanup.
-/

namespace Remux

namespace Extensions

namespace Snapshots

/-- `MAX_SOURCE_BYTES`. -/
def maxSourceBytes : ℕ := 128 * 1024 * 1024

/-- `MAX_SOURCE_FILES`. -/
def maxSourceFiles : ℕ := 20000

/-- `MAX_SNAPSHOT_BYTES`. -/
def maxSnapshotBytes : ℕ := 256 * 1024 * 1024

/-- `RETAIN_REVISIONS_PER_VIEW`. -/
def retainRevisionsPerView : ℕ := 16

/-- How often a publication tries, while the source changes under it. -/
def publishAttempts : ℕ := 3

/-! ## Source trees -/

/-- The components of a path. -/
abbrev Path := List String

/-- The bytes of a file. -/
abbrev Content := List UInt8

/-- A file of a source tree. -/
structure File where
  content : Content
  modified : ℕ
  deriving DecidableEq

/-- `SourceFile`. -/
structure SourceFile where
  relative : Path
  len : ℕ
  modified : ℕ
  deriving DecidableEq

/-- What a walk reads of a file. -/
def File.stat (file : File) (relative : Path) : SourceFile :=
  ⟨relative, file.content.length, file.modified⟩

/-- A directory of sources. -/
abbrev Tree := Assoc Path File

namespace Tree

/-- The metadata of the file at a path. -/
def stat (tree : Tree) (path : Path) : Option SourceFile :=
  (tree.lookup path).map (·.stat path)

/-- The name of the entry of a directory that leads to a path. -/
def entryName (directory path : Path) : Option String :=
  if directory <+: path then (path.drop directory.length).head? else none

/-- The entries of a directory, sorted by name. -/
def children (tree : Tree) (directory : Path) : List Path :=
  ((tree.entries.filterMap fun file => entryName directory file.1).dedup.insertionSort
    (· ≤ ·)).map fun name => directory ++ [name]

/-- `collect_directory`, at one entry: a file is found, and a directory is
read. Neither is there any more, or there are too many files: no walk. -/
def walk (tree : Tree) (path : Path) (pending : List Path) (found : List SourceFile) :
    Option (List Path × List SourceFile) :=
  match tree.stat path with
  | some file =>
    if maxSourceFiles < found.length + 1 then none else some (pending, found ++ [file])
  | none =>
    if tree.children path = [] then none else some (tree.children path ++ pending, found)

end Tree

/-- `collect_source_files` returns the files by path. -/
def sorted (found : List SourceFile) : List SourceFile :=
  found.insertionSort fun left right => left.relative ≤ right.relative

/-- What is hashed: of every file its path, its length as it was found, and
what was read of it. -/
def hashed (files : List SourceFile) (contents : List Content) : List (Path × ℕ × Content) :=
  List.zipWith (fun file content => (file.relative, file.len, content)) files contents

/-! ## The cache -/

/-- The files of a directory of the cache. -/
abbrev Dir := List (Path × Content)

namespace Dir

/-- A file is written, over another of its path if there is one. -/
def write (dir : Dir) (path : Path) (content : Content) : Dir :=
  dir.filter (·.1 ≠ path) ++ [(path, content)]

/-- The content of a file of a directory. -/
def read (dir : Dir) (path : Path) : Option Content := (dir.find? (·.1 = path)).map (·.2)

/-- `directory_size`. -/
def size (dir : Dir) : ℕ := (dir.map (·.2.length)).sum

end Dir

/-- The views, their entries, what an entry is to refer to, and the digest. -/
structure Registry (K D : Type) where
  keys : List K
  nodup : keys.Nodup
  entry : K → Path
  validEntry : K → Content → Bool
  hash : List (Path × ℕ × Content) → D

/-- A publication that copies: the files it found and hashed, and the name of
its temporary directory, by process and sequence. -/
structure Job (D : Type) where
  attempt : ℕ
  before : List SourceFile
  digest : D
  temp : ℕ × ℕ

/-- Where `publish_snapshot` is. -/
inductive Publication (D : Type) where
  | collecting (attempt : ℕ) (pending : List Path) (found : List SourceFile)
  | hashing (attempt : ℕ) (before : List SourceFile) (contents : List Content)
  | rechecking (attempt : ℕ) (before : List SourceFile) (digest : D) (pending : List Path)
    (found : List SourceFile)
  | adopting (digest : D)
  | naming (attempt : ℕ) (before : List SourceFile) (digest : D)
  /-- What an earlier process left under the name goes. -/
  | clearing (job : Job D)
  | creating (job : Job D)
  | copying (job : Job D) (contents : List Content)
  | verifying (job : Job D) (copied : D) (pending : List Path) (found : List SourceFile)
  | placing (job : Job D)
  | discarding (job : Job D) (changed : Bool)

/-- A view: its source tree with the metadata that its files ever had, its
snapshots by digest, its temporary directories, the registry's entry, the
publication that holds its lock, and the temporary directories that a kill
left. -/
structure View (D : Type) where
  source : Tree
  seen : List SourceFile
  snapshots : Assoc D Dir
  temps : Assoc (ℕ × ℕ) Dir
  published : Option D
  publication : Option (Publication D)
  left : List (ℕ × ℕ)

namespace View

variable {K D : Type} [DecidableEq D] (registry : Registry K D) (k : K) (v : View D)

/-- A publication stands where this one does. -/
def going (publication : Publication D) : View D := { v with publication := some publication }

/-- The publication returns an error. -/
def failed : View D := { v with publication := none }

/-- The source changed during the publication, which is tried again. -/
def changed (attempt : ℕ) : View D :=
  if attempt < publishAttempts then v.going (.collecting (attempt + 1) [[]] []) else v.failed

/-- The publication returns a snapshot, and `publish_key` enters it. -/
def publish (digest : D) : View D := { v with published := some digest, publication := none }

/-- `publish_snapshot`, to its next call, which may fail. -/
def advance (fails : Bool) : Publication D → View D
  | .collecting attempt [] found =>
    if found = [] ∨ (v.source.lookup (registry.entry k)).isNone ∨
        maxSourceBytes < (found.map (·.len)).sum ∨ fails then v.failed
    else v.going (.hashing attempt (sorted found) [])
  | .collecting attempt (path :: pending) found =>
    if fails then v.failed
    else
      match v.source.walk path pending found with
      | none => v.failed
      | some (pending, found) => v.going (.collecting attempt pending found)
  | .hashing attempt before contents =>
    match before[contents.length]? with
    | some file =>
      match v.source.lookup file.relative with
      | none => v.failed
      | some source =>
        if fails then v.failed
        else v.going (.hashing attempt before (contents ++ [source.content]))
    | none => v.going (.rechecking attempt before (registry.hash (hashed before contents)) [[]] [])
  | .rechecking attempt before digest [] found =>
    if sorted found ≠ before then v.changed attempt
    -- a snapshot that cannot be asked for is taken for none
    else if (v.snapshots.lookup digest).isSome ∧ fails = false then v.going (.adopting digest)
    else v.going (.naming attempt before digest)
  | .rechecking attempt before digest (path :: pending) found =>
    if fails then v.failed
    else
      match v.source.walk path pending found with
      | none => v.failed
      | some (pending, found) => v.going (.rechecking attempt before digest pending found)
  | .adopting digest =>
    match (v.snapshots.lookup digest).bind (·.read (registry.entry k)) with
    | none => v.failed
    | some entry => if fails ∨ ¬registry.validEntry k entry then v.failed else v.publish digest
  | .naming _ _ _ => v
  | .clearing job =>
    match v.temps.lookup job.temp with
    | none => v.going (.creating job)
    | some [] =>
      if fails then v.going (.creating job)
      else { v with temps := v.temps.erase job.temp, publication := some (.creating job) }
    | some (_ :: dir) =>
      if fails then v.going (.creating job)
      else { v with temps := v.temps.insert job.temp dir }
  | .creating job =>
    if fails then v.failed
    else { v with
      temps := v.temps.insert job.temp ((v.temps.lookup job.temp).getD [])
      publication := some (.copying job [])
      left := v.left.filter (· ≠ job.temp) }
  | .copying job contents =>
    match job.before[contents.length]? with
    | some file =>
      match v.source.lookup file.relative with
      | none => v.going (.discarding job false)
      | some source =>
        if fails then v.going (.discarding job false)
        else { v with
          temps := v.temps.modify job.temp (·.write file.relative source.content)
          publication := some (.copying job (contents ++ [source.content])) }
    | none => v.going (.verifying job (registry.hash (hashed job.before contents)) [[]] [])
  -- the temporary directory stays, if the source cannot be walked again
  | .verifying job copied (path :: pending) found =>
    if fails then v.failed
    else
      match v.source.walk path pending found with
      | none => v.failed
      | some (pending, found) => v.going (.verifying job copied pending found)
  | .verifying job copied [] found =>
    if sorted found ≠ job.before ∨ copied ≠ job.digest then v.going (.discarding job true)
    else
      match (v.temps.lookup job.temp).bind (·.read (registry.entry k)) with
      | none => v.going (.discarding job false)
      | some entry =>
        if fails ∨ ¬registry.validEntry k entry then v.going (.discarding job false)
        else v.going (.placing job)
  -- and if it cannot be renamed
  | .placing job =>
    if fails ∨ (v.snapshots.lookup job.digest).getD [] ≠ [] then v.failed
    else
      match v.temps.lookup job.temp with
      | none => v.failed
      | some dir => { v with
        snapshots := v.snapshots.insert job.digest dir
        temps := v.temps.erase job.temp
        published := some job.digest
        publication := none }
  | .discarding job changed =>
    let ended (v : View D) := if changed then v.changed job.attempt else v.failed
    if fails then ended v
    else
      match v.temps.lookup job.temp with
      | some (_ :: dir) => { v with temps := v.temps.insert job.temp dir }
      | _ => ended { v with temps := v.temps.erase job.temp }

end View

/-- Where a cleanup is: adding up the views, between two of them, at the next
candidate of one, or removing a directory. While it is at a view it knows the
total from before, and the snapshots that were published when it came. -/
inductive Cleanup (K D : Type) where
  | scanning (views : List K) (total : ℕ)
  | between (rest : List K) (total : ℕ)
  | deleting (k : K) (rest : List K) (base total : ℕ) (current : List (K × D))
    (candidates : List (D × ℕ))
  | removing (k : K) (rest : List K) (base total : ℕ) (current : List (K × D))
    (candidates : List (D × ℕ)) (revision : D) (bytes : ℕ)

/-- The runtime and its cache. -/
structure State (K D : Type) where
  views : K → View D
  cleanup : Option (Cleanup K D)
  pid : ℕ
  sequence : ℕ

/-- What happens. A call may fail. -/
inductive Action (K D : Type) where
  /-- A file of a source tree is written or removed. -/
  | change (k : K) (path : Path) (file : Option File)
  | publish (k : K)
  | advance (k : K) (fails : Bool)
  | cleanup
  /-- The next call of the cleanup, with the times that the directories of
  the view were modified at. -/
  | clean (fails : Bool) (times : D → ℕ)
  | kill (pid : ℕ)

namespace State

variable {K D : Type} [DecidableEq K] [DecidableEq D] (registry : Registry K D) (s : State K D)

/-- One view is set, the others stay. -/
def set (k : K) (v : View D) : State K D := { s with views := Function.update s.views k v }

/-- The view that a cleanup holds the lock of. -/
def cleaning : Option K :=
  match s.cleanup with
  | some (.deleting k ..) | some (.removing k ..) => some k
  | _ => none

/-- What the registry points to. -/
def current : List (K × D) :=
  registry.keys.filterMap fun k => (s.views k).published.map fun digest => (k, digest)

/-- The bytes of the snapshots of a view. -/
def viewBytes (k : K) : ℕ := Assoc.total Dir.size (s.views k).snapshots

/-- The bytes of all snapshots. -/
def bytes : ℕ := (registry.keys.map s.viewBytes).sum

/-- The candidates of a view: those past the ones that are retained, and
those that are not published, the oldest first. -/
def candidates (k : K) (times : D → ℕ) : List (D × ℕ) :=
  let v := s.views k
  let revisions := ((v.snapshots.entries.map (·.1)).insertionSort
    (fun left right => times left ≤ times right)).reverse
  let chosen := revisions.zipIdx.filter fun revision =>
    (retainRevisionsPerView ≤ revision.2 ∧ v.published ≠ some revision.1) ∨
      (k, revision.1) ∉ s.current registry
  ((chosen.map (·.1)).insertionSort (fun left right => times left ≤ times right)).map
    fun revision => (revision, ((v.snapshots.lookup revision).getD []).size)

/-- A source file changes in its length, its time or its existence. -/
def change (k : K) (path : Path) (file : Option File) : Option (State K D) :=
  let v := s.views k
  if v.source.stat path = file.map (·.stat path) then none
  else
    match file with
    | some file => some (s.set k { v with
      source := v.source.insert path file
      seen := file.stat path :: v.seen })
    | none => some (s.set k { v with source := v.source.erase path })

/-- `publish_key` takes the lock of the view. -/
def publish (k : K) : Option (State K D) :=
  let v := s.views k
  if k ∈ registry.keys ∧ v.publication.isNone ∧ s.cleaning ≠ some k ∧
      (v.source.lookup (registry.entry k)).isSome then
    some (s.set k (v.going (.collecting 1 [[]] [])))
  else none

/-- A publication goes on. -/
def advance (k : K) (fails : Bool) : Option (State K D) :=
  let v := s.views k
  match v.publication with
  | none => none
  | some (.naming attempt before digest) =>
    some { s.set k (v.going (.clearing ⟨attempt, before, digest, (s.pid, s.sequence)⟩)) with
      sequence := s.sequence + 1 }
  | some publication => some (s.set k (v.advance registry k fails publication))

/-- `schedule_cleanup`. -/
def startCleanup : Option (State K D) :=
  match s.cleanup with
  | some _ => none
  | none => some { s with cleanup := some (.scanning
      (registry.keys.filter fun k => (s.views k).published.isSome) 0) }

/-- A cleanup goes on, to its next call. -/
def clean (fails : Bool) (times : D → ℕ) : Option (State K D) :=
  match s.cleanup with
  | none => none
  | some (.scanning [] total) => some { s with cleanup := some (.between registry.keys total) }
  | some (.scanning (k :: views) total) =>
    if fails then some { s with cleanup := none }
    else some { s with cleanup := some (.scanning views (total + s.viewBytes k)) }
  | some (.between [] _) => some { s with cleanup := none }
  | some (.between (k :: rest) total) =>
    if (s.views k).publication.isSome then none
    else if (s.views k).published.isNone ∨ fails then
      some { s with cleanup := some (.between rest total) }
    else some { s with cleanup := some (.deleting k rest total total (s.current registry)
      (s.candidates registry k times)) }
  | some (.deleting _ rest _ total _ []) => some { s with cleanup := some (.between rest total) }
  | some (.deleting k rest base total current ((revision, bytes) :: candidates)) =>
    let v := s.views k
    -- revisions that cannot be counted are taken for few
    let overCount := fails = false ∧ retainRevisionsPerView < v.snapshots.size
    if (total ≤ maxSnapshotBytes ∧ ¬overCount) ∨ (k, revision) ∈ current ∨
        v.published = some revision then
      some { s with cleanup := some (.deleting k rest base total current candidates) }
    else
      some { s with
        cleanup := some (.removing k rest base total current candidates revision bytes) }
  | some (.removing k rest base total current candidates revision bytes) =>
    let v := s.views k
    if fails then some { s with cleanup := some (.between rest base) }
    else
      match v.snapshots.lookup revision with
      | none => some { s with cleanup := some (.between rest base) }
      | some [] =>
        some { s.set k { v with snapshots := v.snapshots.erase revision } with
          cleanup := some (.deleting k rest base (total - bytes) current candidates) }
      | some (_ :: dir) =>
        some (s.set k { v with snapshots := v.snapshots.insert revision dir })

/-- The runtime is killed, and another is started on the cache. -/
def kill (pid : ℕ) : State K D where
  views k := { s.views k with
    published := none
    publication := none
    left := (s.views k).temps.entries.map (·.1) }
  cleanup := none
  pid := pid
  sequence := 1

/-- **The steps of the snapshots.** -/
def step : Action K D → Option (State K D)
  | .change k path file => s.change k path file
  | .publish k => s.publish registry k
  | .advance k fails => s.advance registry k fails
  | .cleanup => s.startCleanup registry
  | .clean fails times => s.clean registry fails times
  | .kill pid => some (s.kill pid)

end State

/-- The runs of a registry on a cache that is empty. -/
def machine {K D : Type} [DecidableEq K] [DecidableEq D] (registry : Registry K D) :
    Machine (State K D) (Action K D) where
  init := {
    views := fun _ => ⟨∅, [], ∅, ∅, none, none, []⟩
    cleanup := none
    pid := 1
    sequence := 1 }
  step s action := s.step registry action

end Snapshots

end Extensions

end Remux
