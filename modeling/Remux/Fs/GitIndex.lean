import Remux.Fs.Model.GitIndex
import Remux.Fs.Porcelain
import Mathlib.Algebra.Order.BigOperators.Group.List
import Mathlib.Algebra.Order.Group.Nat

/-!
# Indexing a git status

The path of an entry that `parse_git_porcelain` yields does not begin with a
slash, and then neither does the directory of it, nor the one above: each is
shorter, so the loop ends, and it meets every directory above the path once
(`prefix_posixDirname_iff`). `index_terminates` says what the index has in the end.
-/

namespace Remux

open List Option

variable {path d : List Char}

/-! ## The directory of a path -/

variable {pre post : List Char} {entry : StatusEntry}

/-- The last slash is where it says. -/
theorem rfindSlash_append (h : '/' ∉ post) : rfindSlash (pre ++ '/' :: post) = some pre.length := by
  have hfind : (pre ++ '/' :: post).reverse.findIdx? (· == '/') = some post.length := by
    rw [reverse_append, reverse_cons, append_assoc, findIdx?_append, findIdx?_eq_none_iff.2]
    · simp [findIdx?_cons]
    · intro c hc
      rw [beq_eq_false_iff_ne]
      rintro rfl
      exact h (mem_reverse.1 hc)
  rw [rfindSlash, hfind, map_some]
  simp only [length_append, length_cons, some.injEq]
  omega

theorem rfindSlash_of_notMem (h : '/' ∉ path) : rfindSlash path = none := by
  rw [rfindSlash, map_eq_none_iff, findIdx?_eq_none_iff]
  intro c hc
  rw [beq_eq_false_iff_ne]
  rintro rfl
  exact h (mem_reverse.1 hc)

/-- A path with a slash is split at the last one. -/
theorem exists_last_slash (h : '/' ∈ path) :
    ∃ pre post, path = pre ++ '/' :: post ∧ '/' ∉ post := by
  obtain ⟨post, pre, heq, hnot⟩ := eq_append_cons_of_mem (mem_reverse.2 h)
  refine ⟨pre.reverse, post.reverse, ?_, fun hmem => hnot (mem_reverse.1 hmem)⟩
  rw [← reverse_reverse path, heq]
  simp

/-- A directory is above a path: the path goes on after its slash. -/
def Below (path d : List Char) : Prop := d ++ ['/'] <+: path

instance (path d : List Char) : Decidable (Below path d) :=
  List.instDecidableIsPrefixOfDecidableEq (d ++ ['/']) path

theorem slash_mem_of_below (h : Below path d) : '/' ∈ path :=
  h.subset (mem_append_right d mem_cons_self)

/-- **The directories above a path** are its own one and those above it. -/
theorem below_append_iff (h : '/' ∉ post) :
    Below (pre ++ '/' :: post) d ↔ d = pre ∨ Below pre d := by
  constructor
  · intro hbelow
    rcases lt_trichotomy d.length pre.length with hlt | heq | hgt
    · right
      refine prefix_of_prefix_length_le hbelow (prefix_append pre _) ?_
      rw [length_append, length_singleton]
      omega
    · left
      obtain ⟨rest, hrest⟩ := hbelow
      rw [append_assoc] at hrest
      exact (append_inj hrest heq).1
    · -- the slash after the directory would be one of the last part
      exfalso
      obtain ⟨rest, hrest⟩ := hbelow
      obtain ⟨extra, rfl⟩ : ∃ extra, d = pre ++ '/' :: extra := by
        have hbeg : pre ++ ['/'] <+: d := by
          have hpre : pre ++ ['/'] <+: pre ++ '/' :: post := ⟨post, by simp⟩
          have hd : d <+: pre ++ '/' :: post := ⟨'/' :: rest, by simpa using hrest⟩
          refine prefix_of_prefix_length_le hpre hd ?_
          rw [length_append, length_singleton]
          omega
        obtain ⟨extra, hextra⟩ := hbeg
        exact ⟨extra, by simpa using hextra.symm⟩
      simp only [append_assoc, cons_append, append_cancel_left_eq, cons.injEq, true_and] at hrest
      exact h (hrest ▸ by simp)
  · rintro (rfl | hbelow)
    · exact ⟨post, by simp⟩
    · exact hbelow.trans (prefix_append pre _)

/-- The path has a character, and does not begin with a slash. -/
def Relative (path : List Char) : Prop := path ≠ [] ∧ path.head? ≠ some '/'

/-- **What `posix_dirname` makes of a relative path**: the current directory
if it has no slash, and otherwise a shorter relative path. -/
theorem posixDirname_cases (h : Relative path) : '/' ∉ path ∧ posixDirname path = ['.'] ∨
      Relative (posixDirname path) ∧ (posixDirname path).length < path.length ∧
        ∀ d, Below path d ↔ d = posixDirname path ∨ Below (posixDirname path) d := by
  by_cases hslash : '/' ∈ path
  · right
    obtain ⟨pre, post, rfl, hpost⟩ := exists_last_slash hslash
    obtain ⟨c, pre, rfl⟩ : ∃ c cs, pre = c :: cs := by
      refine exists_cons_of_ne_nil ?_
      rintro rfl
      exact h.2 rfl
    have hdirname : posixDirname (c :: pre ++ '/' :: post) = c :: pre := by
      unfold posixDirname
      rw [rfindSlash_append hpost, length_cons]
      show take ((c :: pre).length) _ = _
      rw [take_left]
    rw [hdirname]
    exact ⟨⟨cons_ne_nil _ _, h.2⟩, by simp, fun d => below_append_iff hpost⟩
  · left
    unfold posixDirname
    rw [rfindSlash_of_notMem hslash]
    exact ⟨hslash, rfl⟩

/-! ## The loop over the directories -/

variable {git : GitStatus} {rounds : ℕ}

/-- **The inner loop ends**, and has pushed a status once to every directory
from the given one up, but for the current directory. -/
theorem pushAncestors_eq_some {parent : List Char}
    {directories : Assoc (List Char) (List GitStatus)} (h : Relative parent)
    (hrounds : parent.length < rounds) :
    ∃ pushed, pushAncestors git rounds parent directories = some pushed ∧ ∀ d, pushed.lookup d =
        if d ≠ ['.'] ∧ (d = parent ∨ Below parent d) then
          some ((directories.lookup d).getD [] ++ [git])
        else directories.lookup d := by
  induction rounds generalizing parent directories with
  | zero => omega
  | succ rounds ih =>
    by_cases hdot : parent = ['.']
    · subst hdot
      refine ⟨directories, by simp [pushAncestors], fun d => ?_⟩
      rw [if_neg]
      rintro ⟨hne, heq | hbelow⟩
      · exact hne heq
      · have := slash_mem_of_below hbelow
        simp at this
    · have hloop : pushAncestors git (rounds + 1) parent directories =
          pushAncestors git rounds (posixDirname parent) (directories.push parent git) := by
        rw [pushAncestors, if_pos ⟨h.1, hdot⟩]
      rw [hloop]
      obtain ⟨hslash, hdirname⟩ | ⟨hrelative, hlt, hbelow⟩ := posixDirname_cases h
      · rw [hdirname]
        have hrounds' : ∃ n, rounds = n + 1 := by
          have := length_pos_of_ne_nil h.1
          exact ⟨rounds - 1, by omega⟩
        obtain ⟨n, rfl⟩ := hrounds'
        refine ⟨directories.push parent git, by simp [pushAncestors], fun d => ?_⟩
        rw [Assoc.lookup_push]
        have hnot : ¬ Below parent d := fun hbelow => hslash (slash_mem_of_below hbelow)
        by_cases heq : d = parent
        · rw [if_pos heq, if_pos ⟨heq ▸ hdot, .inl heq⟩]
        · rw [if_neg heq, if_neg fun hor => hor.2.elim heq hnot]
      · obtain ⟨pushed, hpushed, hget⟩ := @ih _ (directories.push parent git) hrelative (by omega)
        refine ⟨pushed, hpushed, fun d => ?_⟩
        rw [hget, Assoc.lookup_push]
        simp only [← hbelow]
        by_cases heq : d = parent
        · -- the directory itself is not above itself
          subst heq
          have hself : ¬ Below d d := fun hself => by
            have hle := hself.length_le
            rw [length_append, length_singleton] at hle
            omega
          simp [hself, hdot]
        · rw [if_neg heq]
          simp only [heq, false_or]

/-- The directories above a path take its status. -/
theorem pushAncestors_path {directories : Assoc (List Char) (List GitStatus)} (h : Relative path)
    (hrounds : path.length < rounds) :
    ∃ pushed, pushAncestors git rounds (posixDirname path) directories = some pushed ∧
      ∀ d, pushed.lookup d =
        if d ≠ ['.'] ∧ Below path d then some ((directories.lookup d).getD [] ++ [git])
        else directories.lookup d := by
  obtain ⟨hslash, hdirname⟩ | ⟨hrelative, hlt, hbelow⟩ := posixDirname_cases h
  · rw [hdirname]
    obtain ⟨n, rfl⟩ : ∃ n, rounds = n + 1 := ⟨rounds - 1, by omega⟩
    refine ⟨directories, by simp [pushAncestors], fun d => ?_⟩
    rw [if_neg fun hand => hslash (slash_mem_of_below hand.2)]
  · obtain ⟨pushed, hpushed, hget⟩ :=
      @pushAncestors_eq_some git rounds _ directories hrelative (hlt.trans hrounds)
    refine ⟨pushed, hpushed, fun d => ?_⟩
    rw [hget]
    simp only [← hbelow]

/-! ## The loop over the entries -/

/-- What is at a key after values were pushed there. -/
def gathered (before : Option (List GitStatus)) (values : List GitStatus) :
    Option (List GitStatus) :=
  if values = [] then before else some (before.getD [] ++ values)

theorem gathered_cons {before : Option (List GitStatus)} {values : List GitStatus} :
    gathered (some (before.getD [] ++ [git])) values = gathered before (git :: values) := by
  unfold gathered
  rw [if_neg (cons_ne_nil _ _)]
  split
  · next hnil => rw [hnil]
  · simp

/-- The statuses of the entries that are at a path, or otherwise meet a
condition. -/
def statusesWhere (p : List Char → Prop) [DecidablePred p] (entries : List StatusEntry) :
    List GitStatus :=
  (entries.filter fun entry => p entry.relativePath).map StatusEntry.git

/-- **The outer loop** pushes the status of every entry to its path and to the
directories above it, in the order of the entries. -/
theorem foldlM_indexEntry {entries : List StatusEntry}
    (h : ∀ entry ∈ entries, Relative entry.relativePath ∧ entry.relativePath.length < rounds)
    (exact directories : Assoc (List Char) (List GitStatus)) :
    ∃ exact' directories',
      entries.foldlM (indexEntry rounds) (exact, directories) = some (exact', directories') ∧
      (∀ path, exact'.lookup path =
        gathered (exact.lookup path) (statusesWhere (· = path) entries)) ∧
      ∀ d, directories'.lookup d = gathered (directories.lookup d)
        (statusesWhere (fun path => d ≠ ['.'] ∧ Below path d) entries) := by
  induction entries generalizing exact directories with
  | nil => exact ⟨exact, directories, rfl, fun _ => rfl, fun _ => rfl⟩
  | cons entry entries ih =>
    obtain ⟨hrelative, hrounds⟩ := h entry mem_cons_self
    obtain ⟨pushed, hpushed, hget⟩ :=
      @pushAncestors_path _ entry.git rounds directories hrelative hrounds
    obtain ⟨exact', directories', hrest, hexact, hdirectories⟩ :=
      ih (fun e he => h e (mem_cons_of_mem _ he)) (exact.push entry.relativePath entry.git) pushed
    refine ⟨exact', directories', ?_, fun path => ?_, fun d => ?_⟩
    · rw [foldlM_cons, indexEntry, hpushed]
      exact hrest
    · rw [hexact, Assoc.lookup_push, statusesWhere, statusesWhere, filter_cons]
      by_cases heq : path = entry.relativePath
      · rw [if_pos heq, if_pos (by simp [heq]), map_cons, gathered_cons]
      · rw [if_neg heq, if_neg (by simpa using Ne.symm heq)]
    · rw [hdirectories, hget, statusesWhere, statusesWhere, filter_cons]
      by_cases hbelow : d ≠ ['.'] ∧ Below entry.relativePath d
      · rw [if_pos hbelow, if_pos (by simpa using hbelow), map_cons, gathered_cons]
      · rw [if_neg hbelow, if_neg (by simpa using hbelow)]

/-! ## The entries of an output -/

/-- **The normalised path is relative**, if anything is left of it. -/
theorem relative_normalizeGitPath (h : normalizeGitPath path ≠ []) :
    Relative (normalizeGitPath path) := by
  refine ⟨h, fun hhead => ?_⟩
  unfold normalizeGitPath at h hhead
  set trimmed := path.dropWhile (· == '/') with htrimmed
  obtain ⟨rest, hrest⟩ := rdropWhile_prefix (· == '/') trimmed
  obtain ⟨c, cs, hcs⟩ := exists_cons_of_ne_nil h
  rw [hcs, head?_cons, some.injEq] at hhead
  have hne : trimmed ≠ [] := by
    rw [← hrest, hcs]
    exact cons_ne_nil _ _
  have hfst : ¬ (trimmed.head hne == '/') := by
    simpa [htrimmed] using head_dropWhile_not (· == '/') (htrimmed ▸ hne)
  apply hfst
  have : trimmed.head? = some '/' := by
    rw [← hrest, hcs, hhead]
    rfl
  rw [head?_eq_some_head hne, some.injEq] at this
  simp [this]

theorem relative_of_mem_statusEntry {x y : Char} (h : entry ∈ (statusEntry x y path).toList) :
    Relative entry.relativePath := by
  rw [mem_toList] at h
  obtain ⟨git, -, hgit⟩ := bind_eq_some_iff.1 h
  obtain ⟨hne, heq⟩ := ite_none_left_eq_some.1 hgit
  cases heq
  exact relative_normalizeGitPath (by simpa using hne)

/-- Every path of the records is relative. -/
theorem relative_of_mem_parseGitRecords {recs : List (List Char)}
    (h : entry ∈ parseGitRecords recs) : Relative entry.relativePath := by
  induction recs using parseGitRecords.induct with
  | case1 => simp [parseGitRecords] at h
  | case2 recs x y space c path ihskip ih =>
    rw [parseGitRecords_cons, mem_append] at h
    rcases h with hhere | hlat
    · exact relative_of_mem_statusEntry hhere
    · split at hlat
      · cases recs with
        | nil => cases hlat
        | cons skipped recs => exact ihskip hlat
      · exact ih hlat
  | case3 recs record hsho ih =>
    rw [parseGitRecords] at h
    · exact ih h
    · exact hsho

/-- **What the index of an output has.** For every output of `git status` the
loops end, in all rounds from a bound on, and the index has the entries, at
each path the statuses of the entries that have it, and at each directory but
the current one those of the entries below it, in their order. -/
theorem index_of_output (output : List Char) (repoRoot : String) :
    ∃ bound, ∀ rounds ≥ bound, ∃ index,
      indexGitStatus rounds (parseGitPorcelain output) repoRoot = some index ∧
      index.repoRoot = repoRoot ∧ index.entries = parseGitPorcelain output ∧
      (∀ path, index.exactByPath.lookup path =
        gathered none (statusesWhere (· = path) (parseGitPorcelain output))) ∧
      ∀ d, index.descendantByDirectoryPath.lookup d =
        gathered none (statusesWhere (fun path => d ≠ ['.'] ∧ Below path d)
          (parseGitPorcelain output)) := by
  refine ⟨((parseGitPorcelain output).map fun entry => entry.relativePath.length).sum + 1,
    fun rounds hrounds => ?_⟩
  have hentries : ∀ entry ∈ parseGitPorcelain output,
      Relative entry.relativePath ∧ entry.relativePath.length < rounds := by
    intro entry hentry
    have hle := List.le_sum_of_mem (List.mem_map_of_mem
      (f := fun entry : StatusEntry => entry.relativePath.length) hentry)
    exact ⟨relative_of_mem_parseGitRecords hentry, by omega⟩
  obtain ⟨exactByPath, directories, hfold, hexact, hdirectories⟩ :=
    foldlM_indexEntry hentries ∅ ∅
  refine ⟨⟨repoRoot, parseGitPorcelain output, exactByPath, directories⟩, ?_, rfl, rfl,
    fun path => ?_, fun d => ?_⟩
  · rw [indexGitStatus, hfold]
    rfl
  · rw [hexact, AList.lookup_empty]
  · rw [hdirectories, AList.lookup_empty]

/-- Slashes that are repeated make directories of their own. -/
example : (indexGitStatus 9 (parseGitPorcelain "?? a//b\x00".toList) "").map
    (fun index => index.descendantByDirectoryPath.keys) = some ["a".toList, "a/".toList] := by
  decide +kernel

end Remux
