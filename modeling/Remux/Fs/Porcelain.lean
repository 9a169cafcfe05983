import Remux.Fs.Model.Porcelain

/-!
# Reading what `git status` prints

Both parsers go over the same texts, and each decides on the first letter
of a record whether the next text is the path the entry had before. So on
an output in which no entry is renamed or copied by its second letter
alone (`RenamedInIndex`), both read exactly the entries back
(`porcelain_parsers_decode`): the one their classes and their paths, and
the other one record for each distinct entry.

The paths of the first are without the slashes they begin and end with,
and an entry whose path has no other character is left out.
-/

namespace Remux

open PorcelainPath List

/-! ## The texts of an output -/

theorem PorcelainPath.ext_text {path path' : PorcelainPath} (h : path.text = path'.text) :
    path = path' := by
  cases path
  cases path'
  congr

namespace PorcelainEntry

variable {entry other : PorcelainEntry}

theorem ascii_of_mem_statusLetters {c : Char} (h : c ∈ statusLetters) :
    c ≠ nul ∧ c.utf8Size = 1 := by
  have hall : statusLetters.all (fun c => c ≠ nul ∧ c.utf8Size = 1) = true := by decide
  exact of_decide_eq_true (all_eq_true.1 hall c h)

theorem nul_notMem_record : nul ∉ entry.record := by
  have hindex := (ascii_of_mem_statusLetters entry.indexStatus_mem).1
  have hworktree := (ascii_of_mem_statusLetters entry.worktreeStatus_mem).1
  unfold record
  simp only [mem_cons, not_or]
  exact ⟨hindex.symm, hworktree.symm, by decide, entry.path.nul_notMem⟩

/-- No text of an entry is empty or has a NUL in it. -/
theorem tokens_ok : ∀ token ∈ entry.tokens, token ≠ [] ∧ nul ∉ token := by
  intro token htok
  rcases mem_cons.1 htok with rfl | horig
  · exact ⟨cons_ne_nil _ _, nul_notMem_record⟩
  · rw [Option.mem_toList, Option.map_eq_some_iff] at horig
    obtain ⟨path, -, rfl⟩ := horig
    exact ⟨path.ne_nil, path.nul_notMem⟩

end PorcelainEntry

variable {rest : List Char} {c : Char}

/-- A text that ends in a NUL is the first one. -/
theorem nulTokens_cons {token : List Char} (hne : token ≠ []) (hnul : nul ∉ token) :
    nulTokens (token ++ nul :: rest) = token :: nulTokens rest := by
  unfold nulTokens
  rw [splitOn_append_cons_self_of_not_mem hnul, filter_cons_of_pos]
  simpa using hne

/-- Tokens are read back up to the rest. -/
theorem nulTokens_flatMap : ∀ {tokens : List (List Char)},
    (∀ token ∈ tokens, token ≠ [] ∧ nul ∉ token) →
    nulTokens (tokens.flatMap (fun token => token ++ [nul]) ++ rest) = tokens ++ nulTokens rest
  | [], _ => rfl
  | token :: tokens, h => by
    obtain ⟨hne, hnul⟩ := h token mem_cons_self
    rw [flatMap_cons, append_assoc, append_assoc, singleton_append,
      nulTokens_cons hne hnul, nulTokens_flatMap fun t ht => h t (mem_cons_of_mem _ ht),
      cons_append]

/-- **The texts of an output** are those of its entries. -/
theorem nulTokens_printPorcelain (entries : List PorcelainEntry) :
    nulTokens (printPorcelain entries) = entries.flatMap PorcelainEntry.tokens := by
  induction entries with
  | nil => decide
  | cons entry entries ih =>
    show nulTokens (entry.print ++ printPorcelain entries) = _
    unfold PorcelainEntry.print
    rw [nulTokens_flatMap entry.tokens_ok, ih, flatMap_cons]

/-! ## The entries of the texts -/

namespace PorcelainEntry

variable {entry : PorcelainEntry}

/-- Where the second letter says renamed or copied, so does the first. -/
def RenamedInIndex (entry : PorcelainEntry) : Prop :=
  isRenameOrCopy entry.worktreeStatus → isRenameOrCopy entry.indexStatus

/-- What the first parser makes of an entry. -/
def status (entry : PorcelainEntry) : Option StatusEntry :=
  statusEntry entry.indexStatus entry.worktreeStatus entry.path.text

theorem original_isSome_of_renamedInIndex (h : entry.RenamedInIndex) :
    entry.original.isSome = isRenameOrCopy entry.indexStatus := by
  rw [entry.original_isSome]
  cases hindex : isRenameOrCopy entry.indexStatus with
  | true => rfl
  | false =>
    rw [Bool.false_or, Bool.eq_false_iff]
    exact fun hworktree => Bool.eq_false_iff.1 hindex (h hworktree)

end PorcelainEntry

open PorcelainEntry

variable {entry : PorcelainEntry} {entries : List PorcelainEntry}

/-- A record is read, with its source if it has one. -/
theorem parseGitRecords_cons {x y space : Char} {path : List Char} {recs : List (List Char)} :
    parseGitRecords ((x :: y :: space :: c :: path) :: recs) =
      (statusEntry x y (c :: path)).toList ++
        parseGitRecords (if isRenameOrCopy x then recs.tail else recs) := by
  rw [parseGitRecords.eq_def]
  cases hrename : isRenameOrCopy x with
  | true => cases recs <;> simp [parseGitRecords, hrename]
  | false => simp [hrename]

/-- The first parser takes the texts of an entry, and no more. -/
theorem parseGitRecords_tokens (h : entry.RenamedInIndex) (tokens : List (List Char)) :
    parseGitRecords (entry.tokens ++ tokens) = entry.status.toList ++ parseGitRecords tokens := by
  have horig := original_isSome_of_renamedInIndex h
  obtain ⟨c, path, hpath⟩ := exists_cons_of_ne_nil entry.path.ne_nil
  unfold PorcelainEntry.tokens PorcelainEntry.record PorcelainEntry.status
  rw [hpath, cons_append, parseGitRecords_cons, ← horig]
  cases entry.original with
  | none | some => rfl

theorem sliceFrom_cons {n : ℕ} {text : List Char} (h : c.utf8Size = 1) :
    sliceFrom (n + 1) (c :: text) = sliceFrom n text := by
  rw [sliceFrom, h, if_pos (by omega), Nat.add_sub_cancel]

theorem sliceFrom_record : sliceFrom 3 entry.record = some entry.path.text := by
  have hindex := (ascii_of_mem_statusLetters entry.indexStatus_mem).2
  have hworktree := (ascii_of_mem_statusLetters entry.worktreeStatus_mem).2
  unfold PorcelainEntry.record
  rw [sliceFrom_cons hindex, sliceFrom_cons hworktree, sliceFrom_cons (by rfl), sliceFrom]

/-- The second parser takes the texts of an entry too, and adds its
record. -/
theorem parsePorcelainTokens_tokens (h : entry.RenamedInIndex) (tokens : List (List Char))
    (recs : Assoc (List Char) (List (List Char))) :
    parsePorcelainTokens recs (entry.tokens ++ tokens) =
      parsePorcelainTokens (recs.insert entry.key entry.paths) tokens := by
  have horig := original_isSome_of_renamedInIndex h
  have hlen : ¬ (entry.record.length < 4 ∨ entry.record[2]? ≠ some ' ') := by
    have := length_pos_of_ne_nil entry.path.ne_nil
    unfold PorcelainEntry.record
    simp only [length_cons]
    rintro (hlt | hspace)
    · omega
    · exact hspace rfl
  have hhead : entry.record.head?.any isRenameOrCopy = isRenameOrCopy entry.indexStatus := rfl
  unfold PorcelainEntry.tokens PorcelainEntry.key PorcelainEntry.paths
  rw [cons_append, parsePorcelainTokens, if_neg hlen, sliceFrom_record, Option.bind_some,
    hhead, ← horig]
  cases hent : entry.original with
  | none | some => rfl

/-- The key of an entry determines it. -/
theorem key_injective : Function.Injective PorcelainEntry.key := by
  intro entry other heq
  have hnul : nul ∉ (entry.original.map text).getD [] := by
    cases entry.original with
    | none => exact not_mem_nil
    | some original => exact original.nul_notMem
  obtain ⟨hrec, -, horiginal⟩ :=
    (append_cons_inj_of_notMem nul_notMem_record hnul).1 heq
  cases entry with | mk x y path original _ _ _ =>
  cases other with | mk x' y' path' original' _ _ _ =>
  obtain ⟨hx, hrest⟩ := cons.inj hrec
  obtain ⟨hy, hrest⟩ := cons.inj hrest
  have hpath : path = path' := ext_text (cons.inj hrest).2
  have horig : original = original' := by
    cases original with
    | none =>
      cases original' with
      | none => rfl
      | some after => exact absurd horiginal.symm after.ne_nil
    | some before =>
      cases original' with
      | none => exact absurd horiginal before.ne_nil
      | some after => exact congrArg some (ext_text horiginal)
  simp only [PorcelainEntry.mk.injEq]
  exact ⟨hx, hy, hpath, horig⟩

/-! ## Both parsers on a whole output -/

variable (h : ∀ entry ∈ entries, entry.RenamedInIndex)
include h

/-- Printed entries are read back by the first parser, -/
theorem parseGitPorcelain_printPorcelain :
    parseGitPorcelain (printPorcelain entries) = entries.filterMap PorcelainEntry.status := by
  unfold parseGitPorcelain
  rw [nulTokens_printPorcelain]
  induction entries with
  | nil => rfl
  | cons entry entries ih =>
    rw [flatMap_cons, parseGitRecords_tokens (h entry mem_cons_self),
      ih fun e he => h e (mem_cons_of_mem _ he), filterMap_cons]
    cases entry.status with
    | none | some => rfl

/-- and by the second. -/
theorem parsePorcelainRecords_printPorcelain : parsePorcelainRecords (printPorcelain entries) =
      some (Assoc.insertAll PorcelainEntry.key PorcelainEntry.paths ∅ entries) := by
  unfold parsePorcelainRecords
  rw [nulTokens_printPorcelain]
  generalize (∅ : Assoc (List Char) (List (List Char))) = recs
  induction entries generalizing recs with
  | nil => rfl
  | cons entry entries ih =>
    rw [flatMap_cons, parsePorcelainTokens_tokens (h entry mem_cons_self)]
    exact ih (fun e he => h e (mem_cons_of_mem _ he)) _

omit h

/-- **What both parsers read is what git printed**, where every entry
that is renamed or copied is so by its first letter. The one reads the
status of each entry that has one, in order; the other does not panic
and has one record for each distinct entry, with its paths. -/
theorem porcelain_parsers_decode (h : ∀ entry ∈ entries, entry.RenamedInIndex) :
    parseGitPorcelain (printPorcelain entries) = entries.filterMap PorcelainEntry.status ∧
      ∃ records, parsePorcelainRecords (printPorcelain entries) = some records ∧
        Assoc.size records = entries.dedup.length ∧
        ∀ key paths, records.lookup key = some paths ↔
          ∃ entry ∈ entries, entry.key = key ∧ entry.paths = paths :=
  ⟨parseGitPorcelain_printPorcelain h, _, parsePorcelainRecords_printPorcelain h,
    Assoc.size_insertAll key_injective, fun _ _ => Assoc.lookup_insertAll_iff key_injective⟩

/-- A nested repository that is not tracked. -/
def exampleNested : PorcelainEntry :=
  { indexStatus := '?'
    worktreeStatus := '?'
    path := ⟨"nested/".toList, by decide, by decide⟩
    original := none
    indexStatus_mem := by decide
    worktreeStatus_mem := by decide
    original_isSome := rfl }

/-- A file that was renamed. -/
def exampleRenamed : PorcelainEntry :=
  { indexStatus := 'R'
    worktreeStatus := ' '
    path := ⟨"new".toList, by decide, by decide⟩
    original := some ⟨"old".toList, by decide, by decide⟩
    indexStatus_mem := by decide
    worktreeStatus_mem := by decide
    original_isSome := rfl }

/-- A renamed file and an untracked one. -/
theorem porcelain_parsers_decode_example :
    parseGitPorcelain (printPorcelain [exampleRenamed, exampleNested]) =
      [⟨⟨true, .renamed⟩, "new".toList⟩, ⟨⟨false, .untracked⟩, "nested".toList⟩] ∧
    ∃ records, parsePorcelainRecords (printPorcelain [exampleRenamed, exampleNested]) =
        some records ∧ Assoc.size records = 2 := by
  have horderly : ∀ entry ∈ [exampleRenamed, exampleNested], entry.RenamedInIndex := by
    unfold RenamedInIndex
    decide
  obtain ⟨hstatuses, records, hrecords, hsize, -⟩ := porcelain_parsers_decode horderly
  exact ⟨hstatuses.trans (by decide), records, hrecords, hsize.trans (by decide)⟩

/-- **The path of a status is not always that of its entry**: the slash
that git prints after a nested repository is taken away. -/
theorem nested_path_trimmed : parseGitPorcelain (printPorcelain [exampleNested]) =
      [⟨⟨false, .untracked⟩, "nested".toList⟩] ∧
    exampleNested.path.text = "nested/".toList :=
  ⟨by decide +kernel, rfl⟩

end Remux
