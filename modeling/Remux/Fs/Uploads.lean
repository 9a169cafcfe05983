import Remux.Fs.Model.Uploads
import Remux.Fs.Mutations

/-!
# Conditional writes

A write that names a version commits only where its path has that version, and
one that creates only where its path has nothing, whichever of the two ways it
comes by: the check and the rename are made under one lock. An upload with
`overwrite=1` names no version, even with an `If-Match`.

A version is one of a file, not of a path, and a write replaces what its path
names. So two writes may commit on one version, where the file has a second
name that a rename brings to the path in between. In a tree in which no file
has two names and no name is a symbolic link the version is gone with the
first write, and no later write commits on it (`conditional_writes`).
-/

namespace Remux

open Option FileTree

/-! ## How a tree is edited -/

namespace FileTree

variable {t t' : FileTree}

/-- One change of a tree, of those the operations make. -/
inductive Edit (t : FileTree) : FileTree → Prop
  | same : Edit t t
  | put (site : Place) (node : FileNode) (hnode : node.kind.isSymlink = false) :
    Edit t (t.put site node)
  | unlink (site : Place) : Edit t (t.unlink site)
  | relink (src dst : Place) (i : ℕ) (hi : t.links.lookup src = some i) :
    Edit t (t.relink src dst i (t.lt_next hi))

/-- **A plain tree**: no file has two names, and no name is a symbolic link. -/
structure Plain (t : FileTree) : Prop where
  one : ∀ {site site' : Place} {i : ℕ}, t.links.lookup site = some i →
    t.links.lookup site' = some i → site = site'
  real : ∀ {site : Place} {i : ℕ}, t.links.lookup site = some i →
    (t.nodes i).kind.isSymlink = false

/-- A file that has been there and has no name any more. -/
def Gone (t : FileTree) (i : ℕ) : Prop := i < t.next ∧ ∀ site, t.links.lookup site ≠ some i

/-- A plain tree is edited into a plain one. -/
theorem Plain.edit (h : t.Plain) (he : t.Edit t') : t'.Plain := by
  cases he with
  | same => exact h
  | put site node hnode =>
    constructor
    · intro a b i ha hb
      rw [lookup_put] at ha hb
      split_ifs at ha hb with hsite hsite' hsite'
      · rw [hsite, hsite']
      · cases ha
        exact absurd (t.lt_next hb) (lt_irrefl _)
      · cases hb
        exact absurd (t.lt_next ha) (lt_irrefl _)
      · exact h.one ha hb
    · intro a i ha
      rw [lookup_put] at ha
      split_ifs at ha
      · cases ha
        rw [nodes_put_next]
        exact hnode
      · rw [nodes_put_of_ne (Nat.ne_of_lt (t.lt_next ha))]
        exact h.real ha
  | unlink site =>
    constructor
    · intro a b i ha hb
      rw [lookup_unlink] at ha hb
      split_ifs at ha hb
      exact h.one ha hb
    · intro a i ha
      rw [lookup_unlink] at ha
      split_ifs at ha
      exact h.real ha
  | relink src dst i hi =>
    constructor
    · intro a b j ha hb
      rw [lookup_relink] at ha hb
      split_ifs at ha hb with hdst hdst' hsrc' hdst' hsrc
      · rw [hdst, hdst']
      · -- the moved file has no third name
        cases ha
        exact absurd (h.one hb hi) ‹_›
      · cases hb
        exact absurd (h.one ha hi) ‹_›
      · exact h.one ha hb
    · intro a j ha
      rw [lookup_relink] at ha
      split_ifs at ha
      · cases ha
        exact h.real hi
      · exact h.real ha

variable {i : ℕ} {site : Place}

/-- What is gone does not come back. -/
theorem Gone.edit (h : t.Gone i) (he : t.Edit t') : t'.Gone i := by
  obtain ⟨hlt, hno⟩ := h
  cases he with
  | same => exact ⟨hlt, hno⟩
  | put site node hnode =>
    refine ⟨Nat.lt_succ_of_lt hlt, fun a ha => ?_⟩
    rw [lookup_put] at ha
    split_ifs at ha
    · exact absurd (some.inj ha) (Nat.ne_of_gt hlt)
    · exact hno a ha
  | unlink site =>
    refine ⟨hlt, fun a ha => ?_⟩
    rw [lookup_unlink] at ha
    split_ifs at ha
    exact hno a ha
  | relink src dst j hj =>
    refine ⟨hlt, fun a ha => ?_⟩
    rw [lookup_relink] at ha
    split_ifs at ha
    · exact hno src (ha ▸ hj)
    · exact hno a ha

/-- A file with one name is gone once that name is another's. -/
theorem Plain.gone_put (h : t.Plain) {node : FileNode} (hi : t.links.lookup site = some i) :
    (t.put site node).Gone i := by
  refine ⟨Nat.lt_succ_of_lt (t.lt_next hi), fun a ha => ?_⟩
  rw [lookup_put] at ha
  split_ifs at ha with hsite
  · exact absurd (some.inj ha) (Nat.ne_of_gt (t.lt_next hi))
  · exact hsite (h.one ha hi)

/-- The entry at a path whose place is known. -/
theorem symlinkMetadata_of_place {path : List String} {trail : Trail}
    (h : t.place path = .ok (site, trail)) :
    t.symlinkMetadata path = match t.links.lookup site with
      | none => .error .notFound
      | some i => .ok (t.metadataOf i) := by
  cases path with
  | nil => cases h
  | cons name rest =>
    cases hget : t.links.lookup site <;> simp only [symlinkMetadata, h, hget]

end FileTree

/-! ## What a version says -/

section

variable {fileVersion : Metadata → String} {env : FsEnv} {t t' : FileTree}
variable {path : List String}

/-- The version of a path, as a system finds it that lets every call through. -/
def versionAt (fileVersion : Metadata → String) (t : FileTree) (path : List String) :
    Except Errno (Option String) :=
  currentVersion fileVersion ⟨fun _ => none, 0, false⟩ t path

variable {site : FsCall} {found : Option Metadata} {v : String} {request : UploadRequest}
variable {content : List UInt8} {existed : Bool}

/-- A look that succeeds would also succeed without failures. -/
theorem existingMetadata_ideal (hhonest : env.fails site ≠ some .notFound)
    (h : existingMetadata env site t path = .ok found) (fails : FsEnv)
    (hfails : fails.fails site = none) : existingMetadata fails site t path = .ok found := by
  unfold existingMetadata FsEnv.call at h ⊢
  rw [hfails]
  cases hcall : env.fails site with
  | none =>
    rw [hcall] at h
    exact h
  | some e =>
    rw [hcall] at h hhonest
    cases e <;> simp at h hhonest

/-- So would the reading of a link. -/
theorem linkTarget_ideal (hhonest : env.fails site ≠ some .notFound)
    (h : linkTarget env site t path = .ok found) (fails : FsEnv)
    (hfails : fails.fails site = none) :
    linkTarget fails site t path = .ok found := by
  unfold linkTarget FsEnv.call at h ⊢
  rw [hfails]
  cases hcall : env.fails site with
  | none =>
    rw [hcall] at h
    exact h
  | some e =>
    rw [hcall] at h hhonest
    cases e <;> simp at h hhonest

/-- A version that `current_version` finds is the version of the path. -/
theorem versionAt_of_currentVersion {current : Option String} (env : HonestEnv)
    (h : currentVersion fileVersion env t path = .ok current) :
    versionAt fileVersion t path = .ok current := by
  unfold versionAt currentVersion at *
  cases hlink : existingMetadata env .versionLink t path with
  | error e =>
    rw [hlink] at h
    cases h
  | ok found =>
    rw [existingMetadata_ideal (env.2 _) hlink _ rfl]
    rw [hlink] at h
    cases found with
    | none => exact h
    | some link =>
      by_cases hsymlink : link.node.kind.isSymlink
      · simp only [if_pos hsymlink] at h ⊢
        cases htgt : linkTarget env .versionTarget t path with
        | error e =>
          rw [htgt] at h
          cases h
        | ok target =>
          rw [linkTarget_ideal (env.2 _) htgt _ rfl]
          rw [htgt] at h
          exact h
      · simp only [if_neg hsymlink] at h ⊢
        exact h

/-- Where a path has no version it has no entry. -/
theorem symlinkMetadata_of_versionAt (h : versionAt fileVersion t path = .ok none) :
    t.symlinkMetadata path = .error .notFound := by
  unfold versionAt currentVersion existingMetadata FsEnv.call at h
  cases hlink : t.symlinkMetadata path with
  | ok link =>
    rw [hlink] at h
    by_cases hsymlink : link.node.kind.isSymlink
    · simp only [if_pos hsymlink] at h
      cases htgt : linkTarget ⟨fun _ => none, 0, false⟩ .versionTarget t path <;>
        rw [htgt] at h <;> cases h
    · simp only [if_neg hsymlink] at h
      cases h
  | error e =>
    rw [hlink] at h
    cases e <;> first | rfl | cases h

/-- In a plain tree the version of an entry is that of the file it names. -/
theorem FileTree.Plain.versionAt (hpln : t.Plain) {site : Place} {trail : Trail}
    (hplc : t.place path = .ok (site, trail)) (h : versionAt fileVersion t path = .ok (some v)) :
    ∃ i, t.links.lookup site = some i ∧ fileVersion (t.metadataOf i) = v := by
  unfold Remux.versionAt currentVersion existingMetadata FsEnv.call at h
  rw [symlinkMetadata_of_place hplc] at h
  cases hi : t.links.lookup site with
  | none =>
    rw [hi] at h
    cases h
  | some i =>
    rw [hi] at h
    have hreal : ¬ (t.metadataOf i).node.kind.isSymlink = true := by
      rw [metadataOf, hpln.real hi]
      nofun
    simp only [if_neg hreal] at h
    exact ⟨i, rfl, some.inj (Except.ok.inj h)⟩

theorem ioError_eq_ok {α : Type*} {result : Except Errno α} {a : α} :
    ioError result = .ok a ↔ result = .ok a := by
  cases result <;> simp [ioError, Except.mapError]

/-- The versions of an upload are quoted alike. -/
theorem quoted_inj {v' : String} (h : quoted v = quoted v') : v = v' := by
  have htext := congrArg String.toList h
  simp only [quoted, String.toList_append] at htext
  exact String.toList_injective (List.append_cancel_left (List.append_cancel_right htext))

/-- **What a commit has found at its path**: with `overwrite=1` whatever was
there, otherwise the version of its header, or nothing and no header. -/
theorem commitTree_eq_ok (h : commitTree fileVersion env t request content = .ok (existed, t')) :
    ∃ current, currentVersion fileVersion env t request.path = .ok current ∧
      (request.overwrite = false → request.ifMatch = current.map quoted) ∧
      t.renameNew request.path (uploadedFile env content)
        (request.overwrite || request.ifMatch.isSome) = .ok t' := by
  obtain ⟨found, hcheck, h⟩ := bind_eq_ok.1 h
  obtain ⟨_, -, h⟩ := bind_eq_ok.1 h
  obtain ⟨tree, hcom, h⟩ := bind_eq_ok.1 h
  cases Except.ok.inj h
  have hrename := (call_eq_ok.1 (ioError_eq_ok.1 hcom)).2
  unfold checkUploadTarget at hcheck
  cases hcur : currentVersion fileVersion env t request.path with
  | error e =>
    rw [hcur] at hcheck
    cases hcheck
  | ok current =>
    refine ⟨current, rfl, fun hno => ?_, hrename⟩
    rw [hcur] at hcheck
    simp only [hno] at hcheck
    cases current <;> cases hmatch : request.ifMatch <;> simp [hmatch] at hcheck ⊢
    split_ifs at hcheck with hsame
    exact hsame

/-! ## How the service edits its tree -/

/-- Every change of the tree is one of its edits. -/
theorem changeTree_edit {V : Type} [DecidableEq V] {fileVersion : Metadata → V}
    {request : MutationRequest V} (h : changeTree fileVersion env t request = .ok t') :
    t.Edit t' := by
  cases request with
  | writeFile path content expected create =>
    obtain ⟨prev, -, -, -, hrename⟩ := writeFile_eq_ok h
    obtain ⟨site, trail, -, rfl, -⟩ := renameNew_eq_ok hrename
    exact .put site _ rfl
  | createDirectory path =>
    obtain ⟨-, hcreate⟩ := call_eq_ok.1 (fsError_eq_ok.1 h)
    obtain ⟨site, trail, -, -, rfl⟩ := createDir_eq_ok hcreate
    exact .put site _ rfl
  | rename source target overwrite =>
    obtain ⟨-, hrename⟩ := call_eq_ok.1 (fsError_eq_ok.1 h)
    obtain ⟨src, above, dst, below, i, hi, -, -, ⟨rfl, -⟩ | ⟨rfl, -⟩⟩ :=
      rename_eq_ok hrename
    · exact .relink src dst i hi
    · exact .same
  | delete path =>
    obtain ⟨metadata, -, hremove⟩ := bind_eq_ok.1 h
    obtain ⟨-, hremove⟩ := call_eq_ok.1 (fsError_eq_ok.1 hremove)
    split_ifs at hremove
    · obtain ⟨site, trail, i, -, -, rfl⟩ := removeDir_eq_ok hremove
      exact .unlink site
    · obtain ⟨site, trail, i, -, -, rfl⟩ := removeFile_eq_ok hremove
      exact .unlink site

theorem commitTree_edit (h : commitTree fileVersion env t request content = .ok (existed, t')) :
    t.Edit t' := by
  obtain ⟨current, -, -, hrename⟩ := commitTree_eq_ok h
  obtain ⟨site, trail, -, rfl, -⟩ := renameNew_eq_ok hrename
  exact .put site _ rfl

/-- **What a mutation does to the world**: nothing, or its change, which it
announces. -/
theorem mutate_world {V : Type} [DecidableEq V] (fileVersion : Metadata → V) (env : FsEnv)
    (w : FsWorld) (request : MutationRequest V) :
    (mutate fileVersion env w request).1 = w ∨
      ∃ tree, changeTree fileVersion env w.tree request = .ok tree ∧
        (mutate fileVersion env w request).1 = ⟨tree, w.announced ++ [request.changed]⟩ := by
  unfold mutate mutateLocked
  split_ifs
  · exact .inl rfl
  all_goals
    split
    · exact .inl rfl
    · split
      · exact .inl rfl
      · exact .inr ⟨_, ‹_›, rfl⟩

/-- And the same of a commit. -/
theorem commitUpload_world (fileVersion : Metadata → String) (env : FsEnv) (w : FsWorld)
    (request : UploadRequest) (content : List UInt8) :
    (commitUpload fileVersion env w request content).1 = w ∨
      ∃ existed tree, commitTree fileVersion env w.tree request content = .ok (existed, tree) ∧
        (commitUpload fileVersion env w request content).1 =
          ⟨tree, w.announced ++ [[request.path]]⟩ := by
  unfold commitUpload
  split
  · exact .inl rfl
  · exact .inr ⟨_, _, ‹_›, rfl⟩

end

/-! ## The service -/

section

variable {fileVersion : Metadata → String} {maxUploadBytes : ℕ} {tree : FileTree}
variable {s s' : FileService} {a : FileAction}

variable (h : (fileMachine fileVersion maxUploadBytes tree).step s a = some s')
include h

/-- **What a step does to the world.** -/
theorem fileStep_world : s'.world = s.world ∨ (∃ env request tree', a = .mutate env request ∧
        changeTree fileVersion env s.world.tree request = .ok tree' ∧
        s'.world = ⟨tree', s.world.announced ++ [request.changed]⟩) ∨
      ∃ id env upload received existed tree', a = .finish id env ∧
        s.uploads.lookup id = some upload ∧
        commitTree fileVersion env s.world.tree upload.request received = .ok (existed, tree') ∧
        s'.world = ⟨tree', s.world.announced ++ [[upload.request.path]]⟩ := by
  cases a with
  | request id request =>
    simp only [fileMachine] at h
    split at h
    · cases h
    · cases h
      refine .inl ?_
      unfold FileService.requested
      split
      · rfl
      · split_ifs <;> rfl
  | prepare id env =>
    simp only [fileMachine] at h
    split at h
    · cases h
    · split at h
      · cases h
      · split at h <;> exact .inl (some.inj h ▸ rfl)
  | receive id bytes =>
    simp only [fileMachine] at h
    split at h
    · cases h
    · split at h
      · split_ifs at h <;> exact .inl (some.inj h ▸ rfl)
      · cases h
  | interrupt id =>
    simp only [fileMachine] at h
    split at h
    · cases h
    · exact .inl (some.inj h ▸ rfl)
  | finish id env =>
    simp only [fileMachine] at h
    split at h
    · cases h
    · rename_i upload hupload
      split at h
      · rename_i received hph
        split_ifs at h
        · exact .inl (some.inj h ▸ rfl)
        · cases h
          obtain hsame | ⟨existed, tree', hcom, hworld⟩ :=
            commitUpload_world fileVersion env s.world upload.request received
          · exact .inl hsame
          · exact .inr (.inr ⟨id, env, upload, received, existed, tree', rfl, hupload, hcom,
              hworld⟩)
      · cases h
  | mutate env request =>
    cases h
    obtain hsame | ⟨tree', hchg, hworld⟩ := mutate_world fileVersion env s.world request
    · exact .inl hsame
    · exact .inr (.inl ⟨env, request, tree', rfl, hchg, hworld⟩)

/-- A step of an upload edits the tree or leaves it. -/
theorem fileStep_edit : s.world.tree.Edit s'.world.tree := by
  obtain hsame | ⟨env, request, tree', -, hchg, hworld⟩ |
    ⟨id, env, upload, received, existed, tree', -, -, hcom, hworld⟩ := fileStep_world h
  · rw [hsame]
    exact .same
  · rw [hworld]
    exact changeTree_edit hchg
  · rw [hworld]
    exact commitTree_edit hcom

omit h

/-- **A commit**: a step that announces what it has written. -/
def CommitStep (fileVersion : Metadata → String) (maxUploadBytes : ℕ) (tree : FileTree)
    (s : FileService) (a : FileAction) (s' : FileService) : Prop :=
  (fileMachine fileVersion maxUploadBytes tree).step s a = some s' ∧
    s'.world.announced ≠ s.world.announced

namespace FileAction

/-- A write of a path that is conditioned on a version of it. -/
def ConditionedOn (s : FileService) (path : List String) (version : String) : FileAction → Prop
  | .finish id _ =>
    ∃ upload, s.uploads.lookup id = some upload ∧ upload.request.path = path ∧
      upload.request.overwrite = false ∧ upload.request.ifMatch = some (quoted version)
  | .mutate _ (.writeFile path' _ (some expected) _) => path' = path ∧ expected = version
  | _ => False

/-- A write of a path that only creates. -/
def CreateOnly (s : FileService) (path : List String) : FileAction → Prop
  | .finish id _ =>
    ∃ upload, s.uploads.lookup id = some upload ∧ upload.request.path = path ∧
      upload.request.overwrite = false ∧ upload.request.ifMatch = none
  | .mutate _ (.writeFile path' _ _ create) => path' = path ∧ create = true
  | _ => False

end FileAction

variable {path : List String}

/-- **What a conditioned write has found, and what it leaves**: the version,
at a place that now names a new file. -/
theorem conditionedOn_commits {v : String} (h : CommitStep fileVersion maxUploadBytes tree s a s')
    (ha : a.ConditionedOn s path v) :
    versionAt fileVersion s.world.tree path = .ok (some v) ∧
      ∃ site trail node, s.world.tree.place path = .ok (site, trail) ∧
        s'.world.tree = s.world.tree.put site node := by
  obtain ⟨hstep, hann⟩ := h
  obtain hsame | ⟨env, request, tree', rfl, hchg, hworld⟩ |
    ⟨id, env, upload, received, existed, tree', rfl, hupload, hcom, hworld⟩ :=
      fileStep_world hstep
  · exact absurd (by rw [hsame]) hann
  · cases request with
    | writeFile path' content expectedVersion create =>
      cases expectedVersion with
      | none => exact ha.elim
      | some expected =>
        obtain ⟨rfl, rfl⟩ := ha
        obtain ⟨prev, -, -, hver, hrename⟩ := writeFile_eq_ok hchg
        obtain ⟨site, trail, hplc, rfl, -⟩ := renameNew_eq_ok hrename
        exact ⟨versionAt_of_currentVersion env (hver _ rfl), site, trail, _, hplc, by rw [hworld]⟩
    | createDirectory | rename | delete => exact ha.elim
  · obtain ⟨upload', hupload', rfl, hno, hmatch⟩ := ha
    cases hupload.symm.trans hupload'
    obtain ⟨current, hcur, hheader, hrename⟩ := commitTree_eq_ok hcom
    obtain ⟨site, trail, hplc, rfl, -⟩ := renameNew_eq_ok hrename
    have hquoted := hheader hno
    rw [hmatch] at hquoted
    obtain ⟨found, rfl, hfnd⟩ := map_eq_some_iff.1 hquoted.symm
    obtain rfl := quoted_inj hfnd
    exact ⟨versionAt_of_currentVersion env hcur, site, trail, _, hplc, by rw [hworld]⟩

/-- **What a create-only write has found**: nothing. -/
theorem createOnly_commits (h : CommitStep fileVersion maxUploadBytes tree s a s')
    (ha : a.CreateOnly s path) :
    s.world.tree.symlinkMetadata path = .error .notFound := by
  obtain ⟨hstep, hann⟩ := h
  obtain hsame | ⟨env, request, tree', rfl, hchg, hworld⟩ |
    ⟨id, env, upload, received, existed, tree', rfl, hupload, hcom, hworld⟩ :=
      fileStep_world hstep
  · exact absurd (by rw [hsame]) hann
  · cases request with
    | writeFile path' content expected create =>
      obtain ⟨rfl, rfl⟩ := ha
      obtain ⟨prev, -, -, -, hrename⟩ := writeFile_eq_ok hchg
      -- the rename does not replace
      obtain ⟨site, trail, hplc, -, hfree⟩ := renameNew_eq_ok hrename
      rw [symlinkMetadata_of_place hplc]
      cases hi : s.world.tree.links.lookup site with
      | none => rfl
      | some i => exact absurd (hfree i hi).1 nofun
    | createDirectory | rename | delete => exact ha.elim
  · obtain ⟨upload', hupload', rfl, hno, hmatch⟩ := ha
    cases hupload.symm.trans hupload'
    obtain ⟨current, hcur, hheader, -⟩ := commitTree_eq_ok hcom
    have hnone := hheader hno
    rw [hmatch] at hnone
    obtain rfl := map_eq_none_iff.1 hnone.symm
    exact symlinkMetadata_of_versionAt (versionAt_of_currentVersion env hcur)

theorem reachable_plain (hs : (fileMachine fileVersion maxUploadBytes tree).Reachable s)
    (htree : tree.Plain) : s.world.tree.Plain :=
  hs.rule (P := fun s => s.world.tree.Plain) htree fun _ _ _ _ h hstep =>
    h.edit (fileStep_edit hstep)

theorem leads_gone {i : ℕ} (h : (fileMachine fileVersion maxUploadBytes tree).Leads s s')
    (hs : s.world.tree.Gone i) : s'.world.tree.Gone i :=
  h.rule (P := fun s => s.world.tree.Gone i) hs fun _ _ _ _ h hstep => h.edit (fileStep_edit hstep)

/-- **Conditional writes.** In every state that the service reaches, a write
conditioned on a version commits only where its path has that version, and one
that only creates only where its path has nothing. In a plain tree no write
commits on a version that another has committed on. -/
theorem conditional_writes (hversion : ∀ m m', fileVersion m = fileVersion m' → m.inode = m'.inode)
    (hs : (fileMachine fileVersion maxUploadBytes tree).Reachable s)
    (hcommit : CommitStep fileVersion maxUploadBytes tree s a s') :
    (∀ path v, a.ConditionedOn s path v → versionAt fileVersion s.world.tree path = .ok (some v)) ∧
    (∀ path, a.CreateOnly s path → s.world.tree.symlinkMetadata path = .error .notFound) ∧
    (tree.Plain → ∀ path v, a.ConditionedOn s path v →
      ∀ u b u' path', (fileMachine fileVersion maxUploadBytes tree).Leads s' u →
        CommitStep fileVersion maxUploadBytes tree u b u' → ¬ b.ConditionedOn u path' v) := by
  refine ⟨fun path v ha => (conditionedOn_commits hcommit ha).1,
    fun path ha => createOnly_commits hcommit ha, ?_⟩
  intro htree path v ha u b u' path' hleads hcommit' hb
  have hplain := reachable_plain hs htree
  obtain ⟨hv, site, trail, node, hplace, hput⟩ := conditionedOn_commits hcommit ha
  obtain ⟨i, hi, hiv⟩ := hplain.versionAt hplace hv
  -- the first write has taken the version's file its only name
  have hgone : u.world.tree.Gone i := leads_gone hleads (hput ▸ hplain.gone_put hi)
  obtain ⟨hv', site', trail', node', hplace', -⟩ := conditionedOn_commits hcommit' hb
  have hplain' : u.world.tree.Plain :=
    reachable_plain ((hs.step hcommit.1).leads hleads) htree
  obtain ⟨j, hj, hjv⟩ := hplain'.versionAt hplace' hv'
  obtain rfl : j = i := hversion _ _ (hjv.trans hiv.symm)
  exact hgone.2 _ hj

end

/-! ## Two trees -/

/-- A version that tells files apart, whatever else it leaves out. -/
def inodeVersion (m : Metadata) : String := String.ofList (List.replicate m.inode 'v')

theorem inodeVersion_inj {m m' : Metadata} (h : inodeVersion m = inodeVersion m') :
    m.inode = m'.inode := by
  have hlen := congrArg String.length h
  simpa [inodeVersion] using hlen

/-- The tree of the example has plain files only. -/
theorem writeOnlyTree_plain : writeOnlyTree.Plain := by
  have hone : ∀ {site : Place} {i : ℕ}, writeOnlyTree.links.lookup site = some i →
      site = ⟨0, "log"⟩ ∧ i = 1 := by
    intro site i h
    rw [writeOnlyTree, AList.lookup_to_alist] at h
    simpa using List.of_mem_dlookup h
  constructor
  · intro site site' i h h'
    rw [(hone h).1, (hone h').1]
  · intro site i h
    rw [(hone h).2]
    rfl

/-- A file with two names. -/
def linkedTree : FileTree where
  root := 0
  nodes i :=
    if i = 1 then ⟨.file [1], 0o644, .owner, 7⟩ else ⟨.directory, 0o755, .owner, 7⟩
  links := [⟨⟨0, "a"⟩, 1⟩, ⟨⟨0, "b"⟩, 1⟩].toAList
  next := 2
  linked_lt := by decide

/-- A system that lets every call through. -/
def idealEnv : HonestEnv := ⟨⟨fun _ => none, 9, false⟩, nofun⟩

/-- The write over the one name of a file commits, and no write commits on
that version again. -/
theorem conditional_writes_log : let M := fileMachine inodeVersion 100 writeOnlyTree
    let a : FileAction := .mutate idealEnv (.writeFile ["log"] [2, 3] (some "v") false)
    let s' := M.run [a] M.init
    versionAt inodeVersion writeOnlyTree ["log"] = .ok (some "v") ∧
      ∀ u b u', M.Leads s' u → CommitStep inodeVersion 100 writeOnlyTree u b u' →
        ¬ b.ConditionedOn u ["log"] "v" := by
  intro M a s'
  have hrun : M.step M.init a = some s' := rfl
  have hcommits : CommitStep inodeVersion 100 writeOnlyTree M.init a s' :=
    ⟨hrun, by decide +kernel⟩
  obtain ⟨hversion, -, hgone⟩ :=
    conditional_writes (fun _ _ => inodeVersion_inj) Machine.Reachable.init hcommits
  exact ⟨hversion ["log"] "v" ⟨rfl, rfl⟩, fun u b u' hleads hcommit =>
    hgone writeOnlyTree_plain ["log"] "v" ⟨rfl, rfl⟩ u b u' ["log"] hleads hcommit⟩

/-- An upload with `overwrite=1` commits whatever its `If-Match` says; and two
writes commit on one version, where its file has another name to come back by. -/
theorem version_comes_back : let M := fileMachine inodeVersion 100 linkedTree
    let upload : UploadRequest := ⟨["a"], true, some (quoted "other"), some 1⟩
    let streamed := M.run [.request 0 upload, .prepare 0 idealEnv, .prepare 0 idealEnv,
      .prepare 0 idealEnv, .receive 0 [5]] M.init
    let write : FileAction := .mutate idealEnv (.writeFile ["a"] [2, 3] (some "v") false)
    let back : FileAction := .mutate idealEnv (.rename ["b"] ["a"] true)
    let first := M.run [write] M.init
    let returned := M.run [back] first
    (∀ m m', inodeVersion m = inodeVersion m' → m.inode = m'.inode) ∧ (M.Reachable streamed ∧
        CommitStep inodeVersion 100 linkedTree streamed (.finish 0 idealEnv)
          (M.run [.finish 0 idealEnv] streamed) ∧
        versionAt inodeVersion streamed.world.tree ["a"] = .ok (some "v")) ∧
      CommitStep inodeVersion 100 linkedTree M.init write first ∧ M.Leads first returned ∧
      CommitStep inodeVersion 100 linkedTree returned write (M.run [write] returned) := by
  intro M upload streamed write back first returned
  have hstreamed : M.exec [.request 0 upload, .prepare 0 idealEnv, .prepare 0 idealEnv,
      .prepare 0 idealEnv, .receive 0 [5]] M.init = some streamed :=
    Machine.exec_eq_run (by decide +kernel)
  have hfinish : (M.step streamed (.finish 0 idealEnv)).isSome := by decide +kernel
  refine ⟨fun _ _ => inodeVersion_inj, ⟨⟨_, hstreamed⟩, ⟨?_, by decide +kernel⟩,
    by decide +kernel⟩, ⟨rfl, by decide +kernel⟩, ⟨[back], rfl⟩, ⟨rfl, by decide +kernel⟩⟩
  obtain ⟨last, hlast⟩ := Option.isSome_iff_exists.1 hfinish
  rfl

end Remux
