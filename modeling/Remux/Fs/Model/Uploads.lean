import Remux.Common.Machine
import Remux.Fs.Model.Mutations

/-!
# Uploads beside mutations

`upload` of `http/raw_files.rs`, which writes a file as `writeFile` does, from
a body that comes in piece by piece. It checks its target before it reads the
body, without the mutation lock, and again with the lock when it commits. What
is done under the lock is one step here, a mutation as well as a commit; the
calls before the body are steps of their own.

Nobody but the service writes, so that a call finds nothing only where there
is nothing.
-/

namespace Remux

/-- A `PUT`: the path, the query, the two headers. -/
structure UploadRequest where
  path : List String
  overwrite : Bool
  ifMatch : Option String
  contentLength : Option ℕ
  deriving DecidableEq, Repr

/-- The refusal of an upload: the service's own, or an error of the system. -/
inductive UploadError where
  | refused (status : ℕ) (message : String)
  | io (e : Errno)
  deriving DecidableEq, Repr

/-- The status of an answer, by `error` and `io_error`. -/
def UploadError.status : UploadError → ℕ
  | .refused status _ => status
  | .io .notFound => 404
  | .io .alreadyExists => 409
  | .io .invalidInput => 400
  | .io .isADirectory => 400
  | .io .notADirectory => 400
  | .io _ => 500

/-- An error of the system as the answer to an upload. -/
def ioError {α : Type*} : Except Errno α → Except UploadError α := Except.mapError .io

/-- A version as the header `If-Match` has it. -/
def quoted (version : String) : String := "\"" ++ version ++ "\""

/-- How far an upload is: before the three calls that prepare it, or reading
its body. -/
inductive UploadPhase where
  | parent
  | target
  | tempfile
  | streaming (received : List UInt8)
  deriving DecidableEq, Repr

/-- An upload that has its permit, and the length it promised. -/
structure Upload where
  request : UploadRequest
  length : ℕ
  phase : UploadPhase
  deriving DecidableEq, Repr

/-- A system in which a call finds nothing only where there is nothing. -/
abbrev HonestEnv := { env : FsEnv // ∀ site, env.fails site ≠ some .notFound }

section

variable (fileVersion : Metadata → String)

/-- `check_upload_target`. -/
def checkUploadTarget (env : FsEnv) (t : FileTree) (path : List String) (overwrite : Bool)
    (expected : Option String) : Except UploadError Bool :=
  match currentVersion fileVersion env t path with
  | .error e => .error (.io e)
  | .ok current =>
    if overwrite then .ok current.isSome
    else
      match current, expected with
      | some current, some expected =>
        if expected = quoted current then .ok true
        else .error (.refused 409 "Target exists or version changed")
      | none, none => .ok false
      | _, _ => .error (.refused 409 "Target exists or version changed")

/-- The file of an upload. -/
def uploadedFile (env : FsEnv) (content : List UInt8) : FileNode where
  kind := .file content
  mode := 0o600
  access := .owner
  modified := env.now

/-- The tree a commit makes, with whether there was something at its path. -/
def commitTree (env : FsEnv) (t : FileTree) (request : UploadRequest) (content : List UInt8) :
    Except UploadError (Bool × FileTree) := do
  let existed ← checkUploadTarget fileVersion env t request.path request.overwrite request.ifMatch
  ioError (env.call .syncAll (.ok ()))
  let tree ← ioError (commitFile env t request.path (uploadedFile env content)
    (request.overwrite || request.ifMatch.isSome))
  return (existed, tree)

/-- What follows the lock in an upload: the status with the description. -/
def commitUpload (env : FsEnv) (w : FsWorld) (request : UploadRequest) (content : List UInt8) :
    FsWorld × Except UploadError (ℕ × Descriptor String) :=
  match commitTree fileVersion env w.tree request content with
  | .error e => (w, .error e)
  | .ok (existed, tree) =>
    (⟨tree, w.announced ++ [[request.path]]⟩,
      (ioError (statPath fileVersion env tree request.path)).map fun descriptor =>
        (if existed then 200 else 201, descriptor))

/-- The three calls before the body; the temporary file has no name that
anyone knows. -/
def prepareUpload (env : FsEnv) (t : FileTree) (upload : Upload) : Except UploadError Upload :=
  match upload.phase with
  | .parent => do
    let found ← ioError (env.call .parentMetadata (t.metadata upload.request.path.dropLast))
    check found.node.kind.isDir (.refused 400 "Parent is not a directory")
    return { upload with phase := .target }
  | .target => do
    let _ ← checkUploadTarget fileVersion env t upload.request.path upload.request.overwrite
      upload.request.ifMatch
    return { upload with phase := .tempfile }
  | .tempfile => do
    ioError (env.call .tempfile (t.createIn upload.request.path.dropLast))
    return { upload with phase := .streaming [] }
  | .streaming _ => .ok upload

end

/-- **The file service**: the tree with its announcements, and the uploads
under way. -/
structure FileService where
  world : FsWorld
  uploads : Assoc ℕ Upload

/-- The actions of the file service. -/
inductive FileAction where
  /-- a `PUT` comes in -/
  | request (id : ℕ) (request : UploadRequest)
  /-- an upload makes its next call before the body -/
  | prepare (id : ℕ) (env : HonestEnv)
  /-- a piece of the body is written to the temporary file -/
  | receive (id : ℕ) (bytes : List UInt8)
  /-- an upload ends by itself: the body fails, the client is gone -/
  | interrupt (id : ℕ)
  /-- the body has ended: the upload is committed -/
  | finish (id : ℕ) (env : HonestEnv)
  /-- a mutation, by an RPC -/
  | mutate (env : HonestEnv) (request : MutationRequest String)

namespace FileService

/-- The uploads that have a permit at a time. -/
def uploadPermits : ℕ := 4

/-- A `PUT` is taken on or refused. -/
def requested (maxUploadBytes : ℕ) (s : FileService) (id : ℕ) (request : UploadRequest) :
    FileService :=
  match request.contentLength with
  | none => s
  | some length =>
    if maxUploadBytes < length then s
    else if uploadPermits ≤ s.uploads.size then s
    else { s with uploads := s.uploads.insert id ⟨request, length, .parent⟩ }

/-- An upload is over. -/
def dropped (s : FileService) (id : ℕ) : FileService := { s with uploads := s.uploads.erase id }

end FileService

/-- **The file service as a machine**, from a tree on. -/
def fileMachine (fileVersion : Metadata → String) (maxUploadBytes : ℕ) (tree : FileTree) :
    Machine FileService FileAction where
  init := ⟨⟨tree, []⟩, ∅⟩
  step s
    | .request id request =>
      match s.uploads.lookup id with
      | some _ => none
      | none => some (s.requested maxUploadBytes id request)
    | .prepare id env =>
      match s.uploads.lookup id with
      | none => none
      | some upload =>
        match upload.phase with
        | .streaming _ => none
        | _ =>
          match prepareUpload fileVersion env s.world.tree upload with
          | .error _ => some (s.dropped id)
          | .ok upload => some { s with uploads := s.uploads.insert id upload }
    | .receive id bytes =>
      match s.uploads.lookup id with
      | none => none
      | some upload =>
        match upload.phase with
        | .streaming received =>
          if upload.length < (received ++ bytes).length then some (s.dropped id)
          else
            some { s with
              uploads := s.uploads.insert id
                { upload with phase := .streaming (received ++ bytes) } }
        | _ => none
    | .interrupt id =>
      match s.uploads.lookup id with
      | none => none
      | some _ => some (s.dropped id)
    | .finish id env =>
      match s.uploads.lookup id with
      | none => none
      | some upload =>
        match upload.phase with
        | .streaming received =>
          if received.length ≠ upload.length then some (s.dropped id)
          else
            some { s.dropped id with
              world := (commitUpload fileVersion env s.world upload.request received).1 }
        | _ => none
    | .mutate env request => some { s with world := (mutate fileVersion env s.world request).1 }

end Remux
