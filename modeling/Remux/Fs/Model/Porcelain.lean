import Remux.Common.Assoc
import Mathlib.Data.List.DropRight

/-!
# The output of `git status`

The two parsers of what `git status --porcelain=v1 -z` prints:
`parse_git_porcelain` of `fs/git.rs`, which classifies the entries, and
`parse_porcelain_records` of `fs/relay.rs`, which the relay compares two
outputs by. A text is the list of its characters.

What git prints is here too: an entry is its two status letters, a space
and its path, and then the path it had before, if one of the letters says
that it was renamed or copied. Each path ends in a NUL.
-/

namespace Remux

/-- `GitStatus::status`. -/
inductive GitStatusKind where
  | conflicted
  | untracked
  | added
  | deleted
  | renamed
  | modified
  deriving DecidableEq

/-- `GitStatus`. -/
structure GitStatus where
  staged : Bool
  status : GitStatusKind
  deriving DecidableEq

/-- `StatusEntry`. -/
structure StatusEntry where
  git : GitStatus
  relativePath : List Char
  deriving DecidableEq

/-- `normalize_git_path`. -/
def normalizeGitPath (value : List Char) : List Char :=
  (value.dropWhile (· == '/')).rdropWhile (· == '/')

/-- `git_status_from_porcelain`. -/
def gitStatusFromPorcelain (indexStatus worktreeStatus : Char) : Option GitStatus :=
  if indexStatus = '!' ∧ worktreeStatus = '!' then none
  else
    let staged := decide (indexStatus ≠ ' ' ∧ indexStatus ≠ '?' ∧ indexStatus ≠ '!')
    if indexStatus = 'U' ∨ worktreeStatus = 'U' ∨ (indexStatus = 'A' ∧ worktreeStatus = 'A') ∨
        (indexStatus = 'D' ∧ worktreeStatus = 'D') then
      some ⟨staged, .conflicted⟩
    else if indexStatus = '?' ∧ worktreeStatus = '?' then some ⟨false, .untracked⟩
    else if indexStatus = 'A' ∨ worktreeStatus = 'A' then some ⟨staged, .added⟩
    else if indexStatus = 'D' ∨ worktreeStatus = 'D' then some ⟨staged, .deleted⟩
    else if indexStatus = 'R' ∨ worktreeStatus = 'R' then some ⟨staged, .renamed⟩
    else if indexStatus = 'M' ∨ worktreeStatus = 'M' ∨ indexStatus = 'T' ∨ worktreeStatus = 'T' then
      some ⟨staged, .modified⟩
    else none

/-- The character that ends a record. -/
def nul : Char := '\x00'

/-- The letter says that there is an original path. -/
def isRenameOrCopy (status : Char) : Bool := status == 'R' || status == 'C'

/-- The parts of an output between its NULs, without the empty ones. -/
def nulTokens (output : List Char) : List (List Char) :=
  (output.splitOn nul).filter fun token => !token.isEmpty

/-- What a record comes to: nothing, where its letters have no class or
where no path is left of it. -/
def statusEntry (indexStatus worktreeStatus : Char) (path : List Char) : Option StatusEntry :=
  (gitStatusFromPorcelain indexStatus worktreeStatus).bind fun git =>
    if (normalizeGitPath path).isEmpty then none else some ⟨git, normalizeGitPath path⟩

/-- The loop of `parse_git_porcelain`. -/
def parseGitRecords : List (List Char) → List StatusEntry
  | [] => []
  | record :: records =>
    match record with
    | indexStatus :: worktreeStatus :: _ :: c :: path =>
      (statusEntry indexStatus worktreeStatus (c :: path)).toList ++
        if isRenameOrCopy indexStatus then
          match records with
          | [] => []
          | _ :: records => parseGitRecords records
        else parseGitRecords records
    | _ => parseGitRecords records

/-- `parse_git_porcelain`. -/
def parseGitPorcelain (output : List Char) : List StatusEntry :=
  parseGitRecords (nulTokens output)

/-- `&text[n..]`, by bytes; it panics where `n` is inside a character or
beyond the end. -/
def sliceFrom : ℕ → List Char → Option (List Char)
  | 0, text => some text
  | _ + 1, [] => none
  | n + 1, c :: text =>
    if c.utf8Size ≤ n + 1 then sliceFrom (n + 1 - c.utf8Size) text else none

/-- The loop of `parse_porcelain_records`, which may panic. -/
def parsePorcelainTokens (records : Assoc (List Char) (List (List Char))) :
    List (List Char) → Option (Assoc (List Char) (List (List Char)))
  | [] => some records
  | token :: tokens =>
    if token.length < 4 ∨ token[2]? ≠ some ' ' then parsePorcelainTokens records tokens
    else
      (sliceFrom 3 token).bind fun path =>
        if token.head?.any isRenameOrCopy then
          match tokens with
          | [] => some (records.insert (token ++ [nul]) [path])
          | original :: tokens =>
            parsePorcelainTokens (records.insert (token ++ nul :: original) [path, original]) tokens
        else parsePorcelainTokens (records.insert (token ++ [nul]) [path]) tokens

/-- `parse_porcelain_records`. -/
def parsePorcelainRecords (output : List Char) : Option (Assoc (List Char) (List (List Char))) :=
  parsePorcelainTokens ∅ (nulTokens output)

/-! ## What git prints -/

/-- The status letters. -/
def statusLetters : List Char := [' ', 'M', 'T', 'A', 'D', 'R', 'C', 'U', '?', '!']

/-- A path that can stand between two NULs. -/
structure PorcelainPath where
  text : List Char
  ne_nil : text ≠ []
  nul_notMem : nul ∉ text
  deriving DecidableEq

/-- **An entry of the output**: it has an original path exactly if one of
its letters says so. -/
structure PorcelainEntry where
  indexStatus : Char
  worktreeStatus : Char
  path : PorcelainPath
  original : Option PorcelainPath
  indexStatus_mem : indexStatus ∈ statusLetters
  worktreeStatus_mem : worktreeStatus ∈ statusLetters
  original_isSome : original.isSome = (isRenameOrCopy indexStatus || isRenameOrCopy worktreeStatus)
  deriving DecidableEq

namespace PorcelainEntry

/-- The two letters, the space and the path. -/
def record (entry : PorcelainEntry) : List Char :=
  entry.indexStatus :: entry.worktreeStatus :: ' ' :: entry.path.text

/-- The texts git prints for an entry. -/
def tokens (entry : PorcelainEntry) : List (List Char) :=
  entry.record :: (entry.original.map PorcelainPath.text).toList

/-- The entry as git prints it. -/
def print (entry : PorcelainEntry) : List Char :=
  entry.tokens.flatMap fun token => token ++ [nul]

/-- The paths of an entry. -/
def paths (entry : PorcelainEntry) : List (List Char) :=
  entry.path.text :: (entry.original.map PorcelainPath.text).toList

/-- What tells two entries apart. -/
def key (entry : PorcelainEntry) : List Char :=
  entry.record ++ nul :: ((entry.original.map PorcelainPath.text).getD [])

end PorcelainEntry

/-- The output of `git status` for a list of entries. -/
def printPorcelain (entries : List PorcelainEntry) : List Char :=
  entries.flatMap PorcelainEntry.print

end Remux
