import Remux.Fs.Model.Porcelain

/-!
# The index of a git status

`index_git_status` of `fs/git.rs`: the statuses of the entries by their
paths, and by the directories above them. The loop over these goes up by
`posix_dirname`, which stays at the root of the file system, so that nothing
in the loop itself makes it end: it takes a bound of its rounds, and gives
nothing where they do not do.
-/

namespace Remux

/-- `rfind('/')`. -/
def rfindSlash (path : List Char) : Option ℕ :=
  (path.reverse.findIdx? (· == '/')).map fun i => path.length - 1 - i

/-- `posix_dirname`. -/
def posixDirname (path : List Char) : List Char :=
  match rfindSlash path with
  | some 0 => ['/']
  | some index => path.take index
  | none => ['.']

/-- `IndexedGitStatus`. -/
structure IndexedGitStatus where
  repoRoot : String
  entries : List StatusEntry
  exactByPath : Assoc (List Char) (List GitStatus)
  descendantByDirectoryPath : Assoc (List Char) (List GitStatus)

/-- The inner loop of `index_git_status`, from a parent on, in so many
rounds. -/
def pushAncestors (git : GitStatus) : ℕ → List Char → Assoc (List Char) (List GitStatus) →
    Option (Assoc (List Char) (List GitStatus))
  | 0, _, _ => none
  | rounds + 1, parent, directories =>
    if parent ≠ [] ∧ parent ≠ ['.'] then
      pushAncestors git rounds (posixDirname parent) (directories.push parent git)
    else some directories

/-- The body of its outer loop. -/
def indexEntry (rounds : ℕ)
    (indexed : Assoc (List Char) (List GitStatus) × Assoc (List Char) (List GitStatus))
    (entry : StatusEntry) :
    Option (Assoc (List Char) (List GitStatus) × Assoc (List Char) (List GitStatus)) :=
  (pushAncestors entry.git rounds (posixDirname entry.relativePath) indexed.2).map
    fun directories =>
    (indexed.1.push entry.relativePath entry.git, directories)

/-- `index_git_status`. -/
def indexGitStatus (rounds : ℕ) (entries : List StatusEntry) (repoRoot : String) :
    Option IndexedGitStatus :=
  (entries.foldlM (indexEntry rounds) (∅, ∅)).map fun (exactByPath, descendantByDirectoryPath) =>
    { repoRoot, entries, exactByPath, descendantByDirectoryPath }

end Remux
