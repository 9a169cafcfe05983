import Remux.Fs.Model.Mutations

/-!
# A failed mutation leaves the tree as it was

A mutation that cannot make its change answers with an error, and both the
tree and the relay are as before. After the change it goes on, though: it
describes the entry it left, and the description may fail. Such a mutation
answers with an error too, with the change made and announced. Only a delete,
described before it is carried out, cannot end like that.

`Describable` says of a tree when the description of a path succeeds, so that
the mutations that keep to their answer are known exactly (`mutate_kept_iff`).
-/

namespace Remux

open FileTree Except

variable {V : Type} {fileVersion : Metadata → V} {env : FsEnv} {t t' : FileTree} {w : FsWorld}
variable {path : List String} {request : MutationRequest V}

/-! ## The calls -/

theorem call_eq_ok {α : Type*} {site : FsCall} {result : Except Errno α} {a : α} :
    env.call site result = .ok a ↔ env.fails site = none ∧ result = .ok a := by
  unfold FsEnv.call
  cases env.fails site <;> simp

theorem fsError_eq_ok {α : Type*} {result : Except Errno α} {a : α} :
    fsError result = .ok a ↔ result = .ok a := by
  cases result <;> simp [fsError, Except.mapError]

theorem exists_bind_eq_ok {ε α β : Type*} {x : Except ε α} {f : α → Except ε β} :
    (∃ b, x.bind f = .ok b) ↔ ∃ a, x = .ok a ∧ ∃ b, f a = .ok b := by
  cases x <;> simp [Except.bind]

/-! ## The description -/

/-- What a symbolic link shows: the file it leads to, or nothing. -/
def LinkShows (env : FsEnv) (t : FileTree) (path : List String) : Option Metadata → Prop
  | some m => env.fails .statTarget = none ∧ t.metadata path = .ok m
  | none =>
    env.fails .statTarget = some .notFound ∨
      env.fails .statTarget = none ∧ t.metadata path = .error .notFound

/-- A file that this process may read, and does. -/
def Sampled (env : FsEnv) (t : FileTree) (path : List String) : Prop :=
  ∃ m, t.metadata path = .ok m ∧ m.node.readable env.superuser ∧
    env.fails .statOpen = none ∧ env.fails .statFile = none ∧
    (m.node.kind.isFile → env.fails .statRead = none)

/-- **An entry that can be described**: the path leads to it, a symbolic link
there leads to a file or dangles, and what it shows may be read if it is a
regular file. -/
def Describable (env : FsEnv) (t : FileTree) (path : List String) : Prop :=
  env.fails .statLink = none ∧ ∃ link, t.symlinkMetadata path = .ok link ∧
    ∃ target, (if link.node.kind.isSymlink then LinkShows env t path target else target = none) ∧
      ((target.getD link).node.kind.isFile → Sampled env t path)

/-- What a link shows. -/
theorem linkTarget_eq_ok {target : Option Metadata} :
    linkTarget env .statTarget t path = .ok target ↔ LinkShows env t path target := by
  unfold linkTarget FsEnv.call LinkShows
  rcases hfails : env.fails .statTarget with _ | e
  · rcases hfnd : t.metadata path with e | m
    · cases e <;> cases target <;> simp
    · cases target <;> simp
  · cases e <;> cases target <;> simp

/-- A sample is read where a file can be opened. -/
theorem readSample_isOk :
    (∃ sampled, readSample env t path = .ok sampled) ↔ Sampled env t path := by
  unfold readSample FsEnv.call Sampled openRead
  rcases t.metadata path with _ | m <;> rcases env.fails .statOpen with _ | _ <;> simp [Except.bind]
  by_cases hread : m.node.readable env.superuser = true
  · rcases env.fails .statFile with _ | _ <;> rcases hkind : m.node.kind with _ | _ | _ | _ <;>
      rcases env.fails .statRead with _ | _ <;> simp [hread, hkind, FileKind.isFile]
  · simp [hread]

/-- **When a description succeeds.** -/
theorem statPath_isOk : (∃ descriptor, statPath fileVersion env t path = .ok descriptor) ↔
      Describable env t path := by
  constructor
  · rintro ⟨descriptor, h⟩
    obtain ⟨link, hlink, h⟩ := bind_eq_ok.1 h
    obtain ⟨target, htgt, h⟩ := bind_eq_ok.1 h
    obtain ⟨hfails, hlink⟩ := call_eq_ok.1 hlink
    refine ⟨hfails, link, hlink, target, ?_, fun hfile => ?_⟩
    · split_ifs at htgt ⊢
      · exact linkTarget_eq_ok.1 htgt
      · exact (ok.inj htgt).symm
    · rw [if_pos hfile] at h
      cases hsample : readSample env t path with
      | error e =>
        rw [hsample] at h
        cases h
      | ok sampled => exact readSample_isOk.1 ⟨sampled, hsample⟩
  · rintro ⟨hfails, link, hlink, target, htgt, hsampled⟩
    have hsh : (if link.node.kind.isSymlink then linkTarget env .statTarget t path
        else .ok none) = .ok target := by
      split_ifs at htgt ⊢
      · exact linkTarget_eq_ok.2 htgt
      · rw [htgt]
    have hread : ∃ sampled, (if (target.getD link).node.kind.isFile then readSample env t path
        else .ok (target.getD link, [])) = .ok sampled := by
      by_cases hfile : (target.getD link).node.kind.isFile
      · rw [if_pos hfile]
        exact readSample_isOk.2 (hsampled hfile)
      · exact ⟨_, if_neg hfile⟩
    obtain ⟨sampled, hread⟩ := hread
    refine exists_bind_eq_ok.2 ⟨link, call_eq_ok.2 ⟨hfails, hlink⟩, ?_⟩
    refine exists_bind_eq_ok.2 ⟨target, hsh, ?_⟩
    rw [hread]
    exact ⟨_, rfl⟩

/-! ## The change -/

/-- **The requested change**: what it leaves at the places its paths lead to,
and that nothing else has another name. -/
def MutationRequest.Done (t t' : FileTree) : MutationRequest V → Prop
  | .writeFile path content .. =>
    ∃ site trail i, t.place path = .ok (site, trail) ∧
      t'.links.lookup site = some i ∧ (t'.nodes i).kind = .file content ∧
      ∀ other, other ≠ site → t'.links.lookup other = t.links.lookup other
  | .createDirectory path =>
    ∃ site trail i, t.place path = .ok (site, trail) ∧ t.links.lookup site = none ∧
      t'.links.lookup site = some i ∧ (t'.nodes i).kind = .directory ∧
      ∀ other, other ≠ site → t'.links.lookup other = t.links.lookup other
  | .rename source target _ =>
    ∃ src above dst below i, t.place source = .ok (src, above) ∧ t.place target = .ok (dst, below) ∧
      t.links.lookup src = some i ∧ t'.links.lookup dst = some i ∧ t'.nodes = t.nodes ∧
      (t.links.lookup dst = some i ∨ t'.links.lookup src = none) ∧
      ∀ other, other ≠ src → other ≠ dst → t'.links.lookup other = t.links.lookup other
  | .delete path =>
    ∃ site trail i, t.place path = .ok (site, trail) ∧ t.links.lookup site = some i ∧
      t'.links.lookup site = none ∧
      ∀ other, other ≠ site → t'.links.lookup other = t.links.lookup other

section

variable [DecidableEq V]

/-- **What a write puts into the tree**: its file, by the rename that ends it. -/
theorem writeFile_eq_ok {content : List UInt8} {expected : Option V} {create : Bool}
    (h : writeFile fileVersion env t path content expected create = .ok t') :
    ∃ prev, existingMetadata env .previous t path = .ok prev ∧ (create → prev = none) ∧
      (∀ v, expected = some v → currentVersion fileVersion env t path = .ok (some v)) ∧
      t.renameNew path (newFile env content prev) (!create) = .ok t' := by
  obtain ⟨prev, hprev, h⟩ := bind_eq_ok.1 h
  obtain ⟨_, hcreate, h⟩ := bind_eq_ok.1 h
  obtain ⟨_, hver, h⟩ := bind_eq_ok.1 h
  obtain ⟨_, -, h⟩ := bind_eq_ok.1 h
  obtain ⟨_, -, h⟩ := bind_eq_ok.1 h
  obtain ⟨_, -, h⟩ := bind_eq_ok.1 h
  obtain ⟨_, -, hcom⟩ := bind_eq_ok.1 h
  refine ⟨prev, fsError_eq_ok.1 hprev, fun hc => ?_, fun v hv => ?_,
    (call_eq_ok.1 (fsError_eq_ok.1 hcom)).2⟩
  · have hnone := check_eq_ok.1 hcreate
    rw [hc] at hnone
    simpa using hnone
  · rw [hv] at hver
    obtain ⟨current, hcur, hsame⟩ := bind_eq_ok.1 hver
    rw [fsError_eq_ok.1 hcur, of_decide_eq_true (check_eq_ok.1 hsame)]

/-- **A change that is made is the requested one.** -/
theorem changeTree_done (h : changeTree fileVersion env t request = .ok t') :
    request.Done t t' := by
  cases request with
  | writeFile path content expected create =>
    obtain ⟨prev, -, -, -, hrename⟩ := writeFile_eq_ok h
    obtain ⟨site, trail, hplc, rfl, -⟩ := renameNew_eq_ok hrename
    refine ⟨site, trail, t.next, hplc, ?_, ?_, fun other hother => ?_⟩
    · rw [lookup_put, if_pos rfl]
    · rw [nodes_put_next]
      rfl
    · rw [lookup_put, if_neg hother]
  | createDirectory path =>
    obtain ⟨-, hcreate⟩ := call_eq_ok.1 (fsError_eq_ok.1 h)
    obtain ⟨site, trail, hplc, hnone, rfl⟩ := createDir_eq_ok hcreate
    refine ⟨site, trail, t.next, hplc, hnone, ?_, ?_, fun other hother => ?_⟩
    · rw [lookup_put, if_pos rfl]
    · rw [nodes_put_next]
    · rw [lookup_put, if_neg hother]
  | rename source target overwrite =>
    obtain ⟨-, hrename⟩ := call_eq_ok.1 (fsError_eq_ok.1 h)
    obtain ⟨src, above, dst, below, i, hi, hsource, htgt, hmov | hsame⟩ :=
      rename_eq_ok hrename
    · obtain ⟨rfl, hdst⟩ := hmov
      have hne : src ≠ dst := fun heq => hdst (heq ▸ hi)
      refine ⟨src, above, dst, below, i, hsource, htgt, hi, ?_, rfl, .inr ?_, ?_⟩
      · rw [lookup_relink, if_pos rfl]
      · rw [lookup_relink, if_neg hne, if_pos rfl]
      · intro other hsrc hother
        rw [lookup_relink, if_neg hother, if_neg hsrc]
    · obtain ⟨rfl, hdst⟩ := hsame
      exact ⟨src, above, dst, below, i, hsource, htgt, hi, hdst, rfl, .inl hdst, fun _ _ _ => rfl⟩
  | delete path =>
    obtain ⟨metadata, -, hremove⟩ := bind_eq_ok.1 h
    obtain ⟨-, hremove⟩ := call_eq_ok.1 (fsError_eq_ok.1 hremove)
    have hunlinked : ∃ site trail i, t.place path = .ok (site, trail) ∧
        t.links.lookup site = some i ∧ t' = t.unlink site := by
      split_ifs at hremove
      · exact removeDir_eq_ok hremove
      · exact removeFile_eq_ok hremove
    obtain ⟨site, trail, i, hplc, hi, rfl⟩ := hunlinked
    refine ⟨site, trail, i, hplc, hi, ?_, fun other hother => ?_⟩
    · rw [lookup_unlink, if_pos rfl]
    · rw [lookup_unlink, if_neg hother]

/-! ## The whole mutation -/

/-- **What an answer promises**: an error, that the entries at the paths of
the request are as before and nobody was told of a change; a success, that
the change was made. -/
def MutationRequest.Kept (request : MutationRequest V) (w w' : FsWorld) :
    Except MutationError (Descriptor V) → Prop
  | .error _ =>
    (∀ path ∈ request.changed, w'.tree.symlinkMetadata path = w.tree.symlinkMetadata path) ∧
      w'.announced = w.announced
  | .ok _ => request.Done w.tree w'.tree

/-- **A mutation keeps to its answer just when** it is refused before its
change, or is a delete, or leaves an entry at its affected path that can be
described. -/
theorem mutate_kept_iff :
    request.Kept w (mutate fileVersion env w request).1 (mutate fileVersion env w request).2 ↔
      (request.tooLarge = false → ∀ tree, changeTree fileVersion env w.tree request = .ok tree →
        request.isDelete ∨ Describable env tree request.affected) := by
  unfold mutate
  cases hlarge : request.tooLarge with
  | true =>
    exact iff_of_true ⟨fun _ _ => rfl, rfl⟩ nofun
  | false =>
    rw [if_neg nofun, mutateLocked]
    split
    · -- a delete of what cannot be described is refused
      rename_i e hbefore
      have hdelete : request.isDelete := by
        by_contra hno
        rw [if_neg hno] at hbefore
        cases hbefore
      exact iff_of_true ⟨fun _ _ => rfl, rfl⟩ fun _ _ _ => .inl hdelete
    · rename_i beforeDelete hbefore
      split
      · rename_i e hchange
        exact iff_of_true ⟨fun _ _ => rfl, rfl⟩ fun _ tree htree => by
          rw [hchange] at htree
          cases htree
      · rename_i tree hchange
        have hall : (∀ tree', changeTree fileVersion env w.tree request = .ok tree' →
            request.isDelete ∨ Describable env tree' request.affected) ↔
            request.isDelete ∨ Describable env tree request.affected :=
          ⟨fun hall => hall tree hchange, fun hone tree' htree' =>
            ok.inj (hchange.symm.trans htree') ▸ hone⟩
        rw [forall_prop_of_true rfl, hall]
        have hdone : request.Done w.tree tree := changeTree_done hchange
        cases hdelete : request.isDelete with
        | true =>
          rw [hdelete, if_pos rfl] at hbefore
          cases hstat : fsError (statPath fileVersion env w.tree request.affected) with
          | error e =>
            rw [hstat] at hbefore
            cases hbefore
          | ok descriptor =>
            rw [hstat] at hbefore
            obtain rfl := ok.inj hbefore
            exact iff_of_true hdone (.inl rfl)
        | false =>
          rw [hdelete, if_neg nofun] at hbefore
          obtain rfl := ok.inj hbefore
          rw [or_iff_right nofun, ← @statPath_isOk _ fileVersion]
          cases hstat : statPath fileVersion env tree request.affected with
          | error e =>
            -- the relay has been told of the change
            exact iff_of_false (fun h => by simpa using congrArg List.length h.2) nofun
          | ok descriptor => exact iff_of_true hdone ⟨descriptor, rfl⟩

/-- A file in the root that this process may write and not read. -/
def writeOnlyTree : FileTree where
  root := 0
  nodes i :=
    if i = 1 then ⟨.file [1], 0o200, .owner, 7⟩ else ⟨.directory, 0o755, .owner, 7⟩
  links := [⟨⟨0, "log"⟩, 1⟩].toAList
  next := 2
  linked_lt := by decide

/-- A write over it is answered with an error, after it has replaced the file
and told the relay so. -/
theorem write_only_file_replaced :
    let request : MutationRequest Metadata := .writeFile ["log"] [2, 3] none false
    let w := FsWorld.mk writeOnlyTree []
    let env := FsEnv.mk (fun _ => none) 9 false
    let answer := mutate id env w request
    ¬ request.Kept w answer.1 answer.2 ∧
      answer.2.toOption.isNone ∧ answer.1.announced = [[["log"]]] ∧
      answer.1.tree.symlinkMetadata ["log"] = .ok ⟨2, ⟨.file [2, 3], 0o200, .owner, 9⟩⟩ := by
  intro request w env answer
  have hsilent : answer.1.announced ≠ w.announced := by decide +kernel
  have hfails : answer.2.toOption.isNone := by decide +kernel
  refine ⟨fun hkept => ?_, hfails, by decide +kernel, by decide +kernel⟩
  cases hanswer : answer.2 with
  | ok descriptor =>
    rw [hanswer] at hfails
    cases hfails
  | error e =>
    rw [hanswer] at hkept
    exact hsilent hkept.2

end

end Remux
