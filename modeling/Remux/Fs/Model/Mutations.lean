import Remux.Common.FileTree
import Remux.Common.Throws

/-!
# The mutations of the file service

`FsCore::mutate` of `fs/core.rs`, on a tree of directories and links. Every
call to the system has its place in the code (`FsCall`), and the environment
may let it fail there; a call that is let through does what the tree allows.
A mutation takes the mutation lock before its first call and has it still at
its last, and the announcement to the relay is a list of what was announced.

The new content is written to a temporary file that nobody knows the name of,
so that the tree learns of it when it is renamed onto its path.
-/

namespace Remux

/-- The calls to the system that a mutation or an upload makes, by where it
makes them. -/
inductive FsCall where
  /-- `existing_metadata` of `writeFile` itself -/
  | previous
  /-- `metadata` of an upload's directory -/
  | parentMetadata
  /-- the two calls of `current_version` -/
  | versionLink
  | versionTarget
  | tempfile
  | writeAll
  | setPermissions
  | syncAll
  | rename
  | createDir
  /-- `symlink_metadata` of `delete` -/
  | removedMetadata
  | remove
  /-- the five calls of `stat_path` -/
  | statLink
  | statTarget
  | statOpen
  | statFile
  | statRead
  deriving DecidableEq, Repr

/-- What the system adds to the tree: the calls it lets fail, the clock, and
whether permissions bind this process. -/
structure FsEnv where
  fails : FsCall → Option Errno
  now : ℕ
  superuser : Bool

/-- A call to the system. -/
def FsEnv.call {α : Type*} (env : FsEnv) (site : FsCall) (result : Except Errno α) :
    Except Errno α :=
  match env.fails site with
  | some e => .error e
  | none => result

/-- `MAX_BINARY_FILE_BYTES`. -/
def maxBinaryFileBytes : ℕ := 5 * 1024 * 1024

/-- `existing_metadata`. -/
def existingMetadata (env : FsEnv) (site : FsCall) (t : FileTree) (path : List String) :
    Except Errno (Option Metadata) :=
  match env.call site (t.symlinkMetadata path) with
  | .ok m => .ok (some m)
  | .error .notFound => .ok none
  | .error e => .error e

/-- What a symbolic link leads to, and nothing where it dangles: the match
that `current_version` and `stat_path` both make. -/
def linkTarget (env : FsEnv) (site : FsCall) (t : FileTree) (path : List String) :
    Except Errno (Option Metadata) :=
  match env.call site (t.metadata path) with
  | .ok m => .ok (some m)
  | .error .notFound => .ok none
  | .error e => .error e

/-- The entry kinds of `kind_from_file_type`. -/
def kindFromFileType : FileKind → String
  | .symlink _ _ => "symlink"
  | .directory => "directory"
  | .file _ => "file"
  | .special => "other"

/-- The `targetKind` of a symbolic link. -/
def targetKind : FileKind → Option String
  | .file _ => some "file"
  | .directory => some "directory"
  | _ => none

/-- The bytes `stat_path` reads of a file. -/
def sampleBytes : ℕ := 8192

section

variable {V : Type} (fileVersion : Metadata → V)

/-- `current_version`. -/
def currentVersion (env : FsEnv) (t : FileTree) (path : List String) : Except Errno (Option V) :=
  match existingMetadata env .versionLink t path with
  | .error e => .error e
  | .ok none => .ok none
  | .ok (some link) =>
    if link.node.kind.isSymlink then
      (linkTarget env .versionTarget t path).map fun target =>
        some (fileVersion (target.getD link))
    else .ok (some (fileVersion link))

/-- The answer to `stat`; size and time are those of `metadata`, type and
binariness are found in `sample`. -/
structure Descriptor (V : Type) where
  path : List String
  kind : String
  targetKind : Option String
  metadata : Metadata
  version : V
  sample : List UInt8
  deleted : Bool

/-- The first bytes of a file, through a descriptor opened for reading. -/
def readSample (env : FsEnv) (t : FileTree) (path : List String) :
    Except Errno (Metadata × List UInt8) :=
  (env.call .statOpen (t.openRead env.superuser path)).bind fun opened =>
    (env.call .statFile (.ok opened)).bind fun metadata =>
      match metadata.node.kind with
      | .file content => env.call .statRead (.ok (metadata, content.take sampleBytes))
      | _ => .ok (metadata, [])

/-- `stat_path`. -/
def statPath (env : FsEnv) (t : FileTree) (path : List String) : Except Errno (Descriptor V) :=
  (env.call .statLink (t.symlinkMetadata path)).bind fun link =>
    (if link.node.kind.isSymlink then linkTarget env .statTarget t path else .ok none).bind
      fun target =>
        (if (target.getD link).node.kind.isFile then readSample env t path
          else .ok (target.getD link, [])).map fun (metadata, sample) =>
          { path
            kind := kindFromFileType link.node.kind
            targetKind := target.bind fun m => targetKind m.node.kind
            metadata
            version := fileVersion metadata
            sample
            deleted := false }

/-! ## The requests -/

/-- The requests to `mutate`, their parameters decoded and their paths
resolved. -/
inductive MutationRequest (V : Type) where
  | writeFile (path : List String) (content : List UInt8) (expectedVersion : Option V)
      (create : Bool)
  | createDirectory (path : List String)
  | rename (source target : List String) (overwrite : Bool)
  | delete (path : List String)

/-- The error a mutation answers with: the service's own, or the system's. -/
inductive MutationError where
  | mutation (kind message : String)
  | system (e : Errno)
  deriving DecidableEq, Repr

/-- The `kind` in the data of an error, as `mutation_error` and `fs_error`
give it. -/
def MutationError.kind : MutationError → String
  | .mutation kind _ => kind
  | .system .notFound => "notFound"
  | .system .alreadyExists => "exists"
  | .system .directoryNotEmpty => "notEmpty"
  | .system .crossesDevices => "crossDevice"
  | .system _ => "io"

/-- An error of the system as the answer to a mutation. -/
def fsError {α : Type*} : Except Errno α → Except MutationError α := Except.mapError .system

namespace MutationRequest

/-- The paths a mutation announces. -/
def changed : MutationRequest V → List (List String)
  | .writeFile path .. => [path]
  | .createDirectory path => [path]
  | .rename source target _ => [source, target]
  | .delete path => [path]

/-- The path whose entry is described afterwards. -/
def affected : MutationRequest V → List String
  | .writeFile path .. => path
  | .createDirectory path => path
  | .rename _ target _ => target
  | .delete path => path

/-- Whether the request deletes. -/
def isDelete : MutationRequest V → Bool
  | .delete _ => true
  | _ => false

end MutationRequest

variable [DecidableEq V]

/-- `atomic_rename` of the temporary file onto its path. -/
def commitFile (env : FsEnv) (t : FileTree) (path : List String) (node : FileNode)
    (overwrite : Bool) : Except Errno FileTree :=
  env.call .rename (t.renameNew path node overwrite)

/-- The new file of a write, with the permissions of the one it replaces. -/
def newFile (env : FsEnv) (content : List UInt8) (previous : Option Metadata) : FileNode where
  kind := .file content
  mode := (previous.map fun m => m.node.mode).getD 0o600
  access := .owner
  modified := env.now

/-- The check of a write's `expectedVersion`. -/
def checkVersion (env : FsEnv) (t : FileTree) (path : List String) (expectedVersion : Option V) :
    Except MutationError Unit :=
  match expectedVersion with
  | none => .ok ()
  | some expected => do
    let current ← fsError (currentVersion fileVersion env t path)
    check (decide (current = some expected)) (.mutation "versionChanged" "File version changed")

/-- The permissions of the replaced file, given to the temporary one. -/
def restorePermissions (env : FsEnv) (previous : Option Metadata) : Except Errno Unit :=
  if previous.isSome then env.call .setPermissions (.ok ()) else .ok ()

/-- The arm of `writeFile`. -/
def writeFile (env : FsEnv) (t : FileTree) (path : List String) (content : List UInt8)
    (expectedVersion : Option V) (create : Bool) : Except MutationError FileTree := do
  let previous ← fsError (existingMetadata env .previous t path)
  check (!(create && previous.isSome)) (.mutation "exists" "Target exists")
  checkVersion fileVersion env t path expectedVersion
  fsError (env.call .tempfile (t.createIn path.dropLast))
  fsError (env.call .writeAll (.ok ()))
  fsError (restorePermissions env previous)
  fsError (env.call .syncAll (.ok ()))
  fsError (commitFile env t path (newFile env content previous) !create)

/-- The arm of `delete`. -/
def deletePath (env : FsEnv) (t : FileTree) (path : List String) :
    Except MutationError FileTree := do
  let metadata ← fsError (env.call .removedMetadata (t.symlinkMetadata path))
  fsError (env.call .remove
    (if metadata.node.kind.isDir then t.removeDir path else t.removeFile path))

/-- The tree a mutation makes, or why it makes none. -/
def changeTree (env : FsEnv) (t : FileTree) : MutationRequest V → Except MutationError FileTree
  | .writeFile path content expectedVersion create =>
    writeFile fileVersion env t path content expectedVersion create
  | .createDirectory path =>
    fsError (env.call .createDir (t.createDir path ⟨.directory, 0o777, .owner, env.now⟩))
  | .rename source target overwrite =>
    fsError (env.call .rename (t.rename source target overwrite))
  | .delete path => deletePath env t path

/-- The file system with what the relay was told of it. -/
structure FsWorld where
  tree : FileTree
  announced : List (List (List String))

/-- Texts over the limit are refused before anything else. -/
def MutationRequest.tooLarge : MutationRequest V → Bool
  | .writeFile _ content .. => maxBinaryFileBytes < content.length
  | _ => false

/-- What follows the lock: the description of what is to go, the change, the
announcement, and the description of what is there now. -/
def mutateLocked (env : FsEnv) (w : FsWorld) (request : MutationRequest V) :
    FsWorld × Except MutationError (Descriptor V) :=
  match if request.isDelete then
      (fsError (statPath fileVersion env w.tree request.affected)).map some
    else .ok none with
  | .error e => (w, .error e)
  | .ok beforeDelete =>
    match changeTree fileVersion env w.tree request with
    | .error e => (w, .error e)
    | .ok tree =>
      (⟨tree, w.announced ++ [request.changed]⟩, match beforeDelete with
        | some descriptor => .ok { descriptor with deleted := true }
        | none => fsError (statPath fileVersion env tree request.affected))

/-- `mutate`. -/
def mutate (env : FsEnv) (w : FsWorld) (request : MutationRequest V) :
    FsWorld × Except MutationError (Descriptor V) :=
  if request.tooLarge then (w, .error (.mutation "tooLarge" "Text exceeds 5 MiB"))
  else mutateLocked fileVersion env w request

end

end Remux
