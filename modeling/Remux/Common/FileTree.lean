import Remux.Common.Assoc

/-!
# A tree of directories and links

What the file operations of a Unix system do to the names of a tree. Names
are kept apart from the files they name: a *place* is a directory and a name
in it, a link gives the file at a place its number, and a file is kept under
its number, so that it may have several names. A path is looked up from the
root, through the symbolic links on its way.

Files are put into the tree whole, and under a number of their own; nothing
here writes into one that has a name. An operation that cannot be carried
out says why, and leaves the tree as it is.
-/

namespace Remux

open Except

/-- Why a file operation fails. -/
inductive Errno where
  | notFound
  | alreadyExists
  | isADirectory
  | notADirectory
  | directoryNotEmpty
  | crossesDevices
  | permissionDenied
  | filesystemLoop
  | invalidInput
  | resourceBusy
  | other
  deriving DecidableEq, Repr

/-- A file of each type, with what it holds. -/
inductive FileKind where
  | file (content : List UInt8)
  | directory
  | symlink (absolute : Bool) (target : List String)
  | special
  deriving DecidableEq, Repr

namespace FileKind

/-- `is_file`. -/
def isFile : FileKind → Bool
  | .file _ => true
  | _ => false

/-- `is_dir`. -/
def isDir : FileKind → Bool
  | .directory => true
  | _ => false

/-- `is_symlink`. -/
def isSymlink : FileKind → Bool
  | .symlink _ _ => true
  | _ => false

end FileKind

/-- The class of users whose permissions a process has on a file. -/
inductive FileAccess where
  | owner
  | group
  | others
  deriving DecidableEq, Repr

/-- The bit of a mode that lets a class read. -/
def FileAccess.readBit : FileAccess → ℕ
  | .owner => 8
  | .group => 5
  | .others => 2

/-- A file: what it holds, its mode and the time it was last written. -/
structure FileNode where
  kind : FileKind
  mode : ℕ
  access : FileAccess
  modified : ℕ
  deriving DecidableEq, Repr

/-- Whether a process may open a file for reading. -/
def FileNode.readable (superuser : Bool) (node : FileNode) : Bool :=
  superuser || node.mode.testBit node.access.readBit

/-- A name in a directory. -/
structure Place where
  dir : ℕ
  name : String
  deriving DecidableEq, Repr

/-- **The tree**: the files under their numbers and the links that name
them. Numbers are given out in order, so that a linked file has had its own. -/
structure FileTree where
  root : ℕ
  nodes : ℕ → FileNode
  links : Assoc Place ℕ
  next : ℕ
  linked_lt : ∀ link ∈ links.entries, link.2 < next

/-- The directories from one up to the root, as a path leads through them. -/
abbrev Trail := ℕ × List ℕ

/-- The directory above, and the root from the root. -/
def Trail.up : Trail → Trail
  | (_, dir :: above) => (dir, above)
  | (root, []) => (root, [])

/-- What is known of a file without opening it. -/
structure Metadata where
  inode : ℕ
  node : FileNode
  deriving DecidableEq, Repr

namespace FileTree

variable (t : FileTree)

/-- A file with a name has had its number. -/
theorem lt_next {site : Place} {i : ℕ} (h : t.links.lookup site = some i) : i < t.next :=
  t.linked_lt _ (Assoc.mem_entries_iff.2 h)

/-- The metadata of the file with a number. -/
def metadataOf (i : ℕ) : Metadata := ⟨i, t.nodes i⟩

/-- One pass over the names of a path; `follow` goes on at a symbolic link. -/
def walk (follow : Trail → List String → Except Errno Trail) :
    Trail → List String → Except Errno Trail
  | trail, [] => .ok trail
  | trail, name :: rest =>
    if (t.nodes trail.1).kind ≠ .directory then .error .notADirectory
    else if name = ".." then walk follow trail.up rest
    else
      match t.links.lookup ⟨trail.1, name⟩ with
      | none => .error .notFound
      | some i =>
        match (t.nodes i).kind with
        | .symlink absolute target =>
          follow (if absolute then (t.root, []) else trail) (target ++ rest)
        | _ => walk follow (i, trail.1 :: trail.2) rest

/-- The walk along a path that follows so many symbolic links. -/
def resolve : ℕ → Trail → List String → Except Errno Trail
  | 0 => t.walk fun _ _ => .error .filesystemLoop
  | links + 1 => t.walk (resolve links)

/-- The symbolic links the system follows on one path. -/
def maxSymlinks : ℕ := 40

/-- The place a path leads to: its directories are followed, its last name
is not. With it comes the trail of the directory. -/
def place (path : List String) : Except Errno (Place × Trail) :=
  match path.getLast? with
  | none => .error .resourceBusy
  | some name =>
    match t.resolve maxSymlinks (t.root, []) path.dropLast with
    | .error e => .error e
    | .ok trail =>
      if (t.nodes trail.1).kind = .directory then .ok (⟨trail.1, name⟩, trail)
      else .error .notADirectory

/-- `lstat`. -/
def symlinkMetadata (path : List String) : Except Errno Metadata :=
  match path with
  | [] => .ok (t.metadataOf t.root)
  | _ =>
    match t.place path with
    | .error e => .error e
    | .ok (site, _) =>
      match t.links.lookup site with
      | none => .error .notFound
      | some i => .ok (t.metadataOf i)

/-- `stat`. -/
def metadata (path : List String) : Except Errno Metadata :=
  (t.resolve maxSymlinks (t.root, []) path).map fun trail => t.metadataOf trail.1

/-- `open` for reading. -/
def openRead (superuser : Bool) (path : List String) : Except Errno Metadata :=
  match t.metadata path with
  | .error e => .error e
  | .ok found =>
    if found.node.readable superuser then .ok found else .error .permissionDenied

/-- What a file needs to be created in a directory, under whatever name. -/
def createIn (dir : List String) : Except Errno Unit :=
  match t.metadata dir with
  | .error e => .error e
  | .ok found => if found.node.kind = .directory then .ok () else .error .notADirectory

/-! ## The changes -/

/-- A new file at a place, instead of what it named. -/
def put (site : Place) (node : FileNode) : FileTree where
  root := t.root
  nodes := Function.update t.nodes t.next node
  links := t.links.insert site t.next
  next := t.next + 1
  linked_lt := by
    intro link hlink
    rw [AList.entries_insert, List.mem_cons] at hlink
    rcases hlink with rfl | hlink
    · exact Nat.lt_succ_self t.next
    · exact Nat.lt_succ_of_lt (t.linked_lt link ((List.kerase_sublist _ _).subset hlink))

/-- No name at a place any more. -/
def unlink (site : Place) : FileTree where
  root := t.root
  nodes := t.nodes
  links := t.links.erase site
  next := t.next
  linked_lt := fun link hlink => t.linked_lt link ((List.kerase_sublist _ _).subset hlink)

/-- The file at a place under another name, instead of what that named. -/
def relink (source target : Place) (i : ℕ) (hi : i < t.next) : FileTree where
  root := t.root
  nodes := t.nodes
  links := (t.links.erase source).insert target i
  next := t.next
  linked_lt := by
    intro link hlink
    rw [AList.entries_insert, List.mem_cons] at hlink
    rcases hlink with rfl | hlink
    · exact hi
    · exact t.linked_lt link <| (List.kerase_sublist _ _).subset
        ((List.kerase_sublist _ _).subset hlink)

/-- Whether a directory is without names. -/
def isEmpty (i : ℕ) : Bool := t.links.entries.all fun link => link.1.dir != i

/-- `rename` of a new file, that no other name leads to, onto a path. -/
def renameNew (path : List String) (node : FileNode) (overwrite : Bool) : Except Errno FileTree :=
  match t.place path with
  | .error e => .error e
  | .ok (site, _) =>
    match t.links.lookup site with
    | none => .ok (t.put site node)
    | some i =>
      if ¬ overwrite then .error .alreadyExists
      else if (t.nodes i).kind = .directory then .error .isADirectory
      else .ok (t.put site node)

/-- `mkdir`. -/
def createDir (path : List String) (node : FileNode) : Except Errno FileTree :=
  match t.place path with
  | .error e => .error e
  | .ok (site, _) =>
    match t.links.lookup site with
    | some _ => .error .alreadyExists
    | none => .ok (t.put site { node with kind := .directory })

/-- `rename`, and `renameat2` with `RENAME_NOREPLACE`. A name already given
to the same file stays beside the old one. -/
def rename (source target : List String) (overwrite : Bool) : Except Errno FileTree :=
  match t.place source, t.place target with
  | .error e, _ => .error e
  | _, .error e => .error e
  | .ok (src, above), .ok (dst, below) =>
    match h : t.links.lookup src with
    | none => .error .notFound
    | some i =>
      if i = below.1 ∨ i ∈ below.2 then .error .invalidInput
      else
        match t.links.lookup dst with
        | none => .ok (t.relink src dst i (t.lt_next h))
        | some j =>
          if ¬ overwrite then .error .alreadyExists
          else if j = above.1 ∨ j ∈ above.2 then .error .directoryNotEmpty
          else if i = j then .ok t
          else if (t.nodes i).kind = .directory then
            if (t.nodes j).kind ≠ .directory then .error .notADirectory
            else if ¬ t.isEmpty j then .error .directoryNotEmpty
            else .ok (t.relink src dst i (t.lt_next h))
          else if (t.nodes j).kind = .directory then .error .isADirectory
          else .ok (t.relink src dst i (t.lt_next h))

/-- `rmdir`. -/
def removeDir (path : List String) : Except Errno FileTree :=
  match t.place path with
  | .error e => .error e
  | .ok (site, _) =>
    match t.links.lookup site with
    | none => .error .notFound
    | some i =>
      if (t.nodes i).kind ≠ .directory then .error .notADirectory
      else if ¬ t.isEmpty i then .error .directoryNotEmpty
      else .ok (t.unlink site)

/-- `unlink`. -/
def removeFile (path : List String) : Except Errno FileTree :=
  match t.place path with
  | .error e => .error e
  | .ok (site, _) =>
    match t.links.lookup site with
    | none => .error .notFound
    | some i =>
      if (t.nodes i).kind = .directory then .error .isADirectory else .ok (t.unlink site)

/-! ## What each change does -/

section

variable {t} {t' : FileTree} {site site' : Place} {node : FileNode} {i : ℕ} {overwrite : Bool}
variable {path source target : List String}

theorem lookup_put : (t.put site node).links.lookup site' =
      if site' = site then some t.next else t.links.lookup site' :=
  Assoc.lookup_insert_eq

theorem lookup_unlink :
    (t.unlink site).links.lookup site' = if site' = site then none else t.links.lookup site' :=
  Assoc.lookup_erase_eq

theorem lookup_relink {hi : i < t.next} {src dst : Place} :
    (t.relink src dst i hi).links.lookup site' =
      if site' = dst then some i else if site' = src then none else t.links.lookup site' := by
  rw [relink, Assoc.lookup_insert_eq, Assoc.lookup_erase_eq]

theorem nodes_put_next : (t.put site node).nodes t.next = node := Function.update_self ..

theorem nodes_put_of_ne (h : i ≠ t.next) : (t.put site node).nodes i = t.nodes i :=
  Function.update_of_ne h ..

/-- **A new file gets in** at the place of its path, over nothing or over a
file that is no directory. -/
theorem renameNew_eq_ok (h : t.renameNew path node overwrite = .ok t') :
    ∃ site trail, t.place path = .ok (site, trail) ∧ t' = t.put site node ∧
      ∀ i, t.links.lookup site = some i → overwrite ∧ (t.nodes i).kind ≠ .directory := by
  unfold renameNew at h
  split at h
  · cases h
  · rename_i site trail hplc
    refine ⟨site, trail, hplc, ?_⟩
    split at h
    · rename_i hnone
      obtain rfl := ok.inj h
      refine ⟨rfl, fun i hi => ?_⟩
      rw [hnone] at hi
      cases hi
    · rename_i j hj
      split_ifs at h with how hdir
      obtain rfl := ok.inj h
      refine ⟨rfl, fun i hi => ?_⟩
      cases hj.symm.trans hi
      exact ⟨by simpa using how, hdir⟩

/-- **A new directory** gets in where there was nothing. -/
theorem createDir_eq_ok (h : t.createDir path node = .ok t') :
    ∃ site trail, t.place path = .ok (site, trail) ∧ t.links.lookup site = none ∧
      t' = t.put site { node with kind := .directory } := by
  unfold createDir at h
  split at h
  · cases h
  · rename_i site trail hplc
    split at h
    · cases h
    · rename_i hnone
      exact ⟨site, trail, hplc, hnone, (ok.inj h).symm⟩

/-- **A renamed file** stands at the other place and no longer at its own,
unless both named it. -/
theorem rename_eq_ok (h : t.rename source target overwrite = .ok t') :
    ∃ src above dst below i, ∃ hi : t.links.lookup src = some i,
      t.place source = .ok (src, above) ∧ t.place target = .ok (dst, below) ∧
      (t' = t.relink src dst i (t.lt_next hi) ∧ t.links.lookup dst ≠ some i ∨
        t' = t ∧ t.links.lookup dst = some i) := by
  unfold rename at h
  split at h
  · cases h
  · cases h
  · rename_i src above dst below hsrc htgt
    split at h
    · cases h
    · rename_i i hi
      refine ⟨src, above, dst, below, i, hi, hsrc, htgt, ?_⟩
      by_cases hbelow : i = below.1 ∨ i ∈ below.2
      · rw [if_pos hbelow] at h
        cases h
      rw [if_neg hbelow] at h
      split at h
      · rename_i hnone
        exact .inl ⟨(ok.inj h).symm, by rw [hnone]; nofun⟩
      · rename_i j hj
        by_cases hsame : i = j
        · split_ifs at h
          exact .inr ⟨(ok.inj h).symm, hj.trans (by rw [hsame])⟩
        · have hne : t.links.lookup dst ≠ some i := fun heq =>
            hsame (Option.some.inj (heq.symm.trans hj))
          split_ifs at h
          all_goals exact .inl ⟨(ok.inj h).symm, hne⟩

/-- **A removed name** was there and is not. -/
theorem removeDir_eq_ok (h : t.removeDir path = .ok t') :
    ∃ site trail i, t.place path = .ok (site, trail) ∧ t.links.lookup site = some i ∧
      t' = t.unlink site := by
  unfold removeDir at h
  split at h
  · cases h
  · rename_i site trail hplc
    split at h
    · cases h
    · rename_i i hi
      split_ifs at h
      exact ⟨site, trail, i, hplc, hi, (ok.inj h).symm⟩

/-- A file is removed where its path leads to a link. -/
theorem removeFile_eq_ok (h : t.removeFile path = .ok t') :
    ∃ site trail i, t.place path = .ok (site, trail) ∧ t.links.lookup site = some i ∧
      t' = t.unlink site := by
  unfold removeFile at h
  split at h
  · cases h
  · rename_i site trail hplc
    split at h
    · cases h
    · rename_i i hi
      split_ifs at h
      exact ⟨site, trail, i, hplc, hi, (ok.inj h).symm⟩

end

end FileTree

end Remux
