import Remux.Fs.Model.FileLines

/-!
# Finding a line by reads

The bytes that were read are a text and, if a character is cut, its
beginning; the scan carries the latter, and of the former only its newlines
(`Scanned`). So it finds the newline where it is in the file, whatever the
reads were. They only decide how far beyond it the text is checked: to the
end of the read that has it (`find_line_offset_spec`). In a file that is valid they
decide nothing.
-/

namespace Remux

open LineScan hiding read
open List hiding getElem?_eq_some_iff
open Utf8 Except

variable {targetLine : ℕ} {bytes file : List UInt8} {chunks : List (List UInt8)} {scan : LineScan}

/-- The newline before the line is at a place. -/
def StartsLine (bytes : List UInt8) (targetLine p : ℕ) : Prop :=
  bytes[p]? = some 10 ∧ (bytes.take p).count 10 + 2 = targetLine

instance (bytes : List UInt8) (targetLine p : ℕ) : Decidable (StartsLine bytes targetLine p) :=
  inferInstanceAs (Decidable (_ ∧ _))

/-- The end of the chunk that has a place. -/
def chunkEnd : List (List UInt8) → ℕ → ℕ
  | [], _ => 0
  | chunk :: chunks, p =>
    if p < chunk.length then chunk.length else chunk.length + chunkEnd chunks (p - chunk.length)

/-! ## The newlines -/

variable {p q : ℕ} {more : List UInt8} {scan' : LineScan} {before : List (List UInt8)}

/-- A newline counts for what follows it. -/
theorem count_take_lt (hlt : p < q) (hp : bytes[p]? = some 10) :
    (bytes.take p).count 10 < (bytes.take q).count 10 := by
  have hsplit : bytes.take q = bytes.take p ++ (bytes.take q).drop p := by
    rw [drop_take, ← take_add, Nat.add_sub_cancel' hlt.le]
  have hmem : (10 : UInt8) ∈ (bytes.take q).drop p := by
    refine mem_of_getElem? (i := 0) ?_
    rw [getElem?_drop, Nat.add_zero, getElem?_take_of_lt hlt, hp]
  have hpos := count_pos_iff.2 hmem
  rw [hsplit, count_append]
  omega

/-- A line has one start. -/
theorem StartsLine.unique (hp : StartsLine bytes targetLine p)
    (hq : StartsLine bytes targetLine q) :
    p = q := by
  obtain ⟨hp, hcountp⟩ := hp
  obtain ⟨hq, hcountq⟩ := hq
  rcases lt_trichotomy p q with hlt | heq | hgt
  · have := count_take_lt hlt hp
    omega
  · exact heq
  · have := count_take_lt hgt hq
    omega

/-- **The newlines of some bytes more**, after those that were read. -/
theorem startsLine_append_iff : StartsLine (bytes ++ more) targetLine (bytes.length + p) ↔
      more[p]? = some 10 ∧ bytes.count 10 + (more.take p).count 10 + 2 = targetLine := by
  unfold StartsLine
  rw [getElem?_append_right (Nat.le_add_right _ _), Nat.add_sub_cancel_left, take_append,
    take_of_length_le (Nat.le_add_right _ _), Nat.add_sub_cancel_left, count_append]

theorem startsLine_append_of_lt (h : p < bytes.length) :
    StartsLine (bytes ++ more) targetLine p ↔ StartsLine bytes targetLine p := by
  unfold StartsLine
  rw [getElem?_append_left h, take_append_of_le_length h.le]

/-- **What the inner loop finds.** -/
theorem countLines_spec (chunk : List UInt8) (offset currentLine : ℕ) :
    (∃ p, chunk[p]? = some 10 ∧ currentLine + (chunk.take p).count 10 + 1 = targetLine ∧
      countLines targetLine chunk offset currentLine = .inl (offset + p + 1)) ∨
    (∀ p, chunk[p]? = some 10 → currentLine + (chunk.take p).count 10 + 1 ≠ targetLine) ∧
      countLines targetLine chunk offset currentLine = .inr (currentLine + chunk.count 10) := by
  induction chunk generalizing offset currentLine with
  | nil => exact .inr ⟨fun p hp => by simp at hp, rfl⟩
  | cons byte chunk ih =>
    unfold countLines
    by_cases hbyte : byte = 10
    · subst hbyte
      rw [if_pos rfl]
      by_cases htgt : currentLine + 1 = targetLine
      · rw [if_pos htgt]
        exact .inl ⟨0, rfl, by simpa using htgt, rfl⟩
      · rw [if_neg htgt]
        obtain ⟨p, hp, hcnt, heq⟩ | ⟨hnone, heq⟩ := ih (offset + 1) (currentLine + 1)
        · refine .inl ⟨p + 1, hp, ?_, ?_⟩
          · rw [take_succ_cons, count_cons_self]
            omega
          · rw [heq]
            congr 1
            omega
        · refine .inr ⟨fun p hp => ?_, ?_⟩
          · cases p with
            | zero => simpa using htgt
            | succ p =>
              have := hnone p hp
              rw [take_succ_cons, count_cons_self]
              omega
          · rw [heq, count_cons_self]
            congr 1
            omega
    · rw [if_neg hbyte]
      obtain ⟨p, hp, hcnt, heq⟩ | ⟨hnone, heq⟩ := ih (offset + 1) currentLine
      · refine .inl ⟨p + 1, hp, ?_, ?_⟩
        · rw [take_succ_cons, count_cons_of_ne (by simpa using hbyte)]
          exact hcnt
        · rw [heq]
          congr 1
          omega
      · refine .inr ⟨fun p hp => ?_, ?_⟩
        · cases p with
          | zero => simp [hbyte] at hp
          | succ p =>
            have := hnone p hp
            rwa [take_succ_cons, count_cons_of_ne (by simpa using hbyte)]
        · rw [heq, count_cons_of_ne (by simpa using hbyte)]

/-! ## A read -/

/-- **What a scan knows of the bytes that were read.** -/
structure Scanned (targetLine : ℕ) (bytes : List UInt8) (scan : LineScan) : Prop where
  text : ∃ text, bytes = Utf8.bytes text ++ scan.utf8Tail
  tail : scan.utf8Tail = [] ∨ StartsChar scan.utf8Tail
  offset : scan.byteOffset = bytes.length
  line : scan.currentLine = bytes.count 10 + 1
  before : ∀ p < bytes.length, ¬ StartsLine bytes targetLine p

theorem scanned_init : Scanned targetLine [] ⟨[], 0, 1⟩ :=
  ⟨⟨[], rfl⟩, .inl rfl, rfl, rfl, fun _ h => absurd h (Nat.not_lt_zero _)⟩

variable (h : Scanned targetLine bytes scan)
include h

/-- Whether the bytes begin a text with some more shows in what the scan
carries of them. -/
theorem Scanned.isUtf8Prefix_iff :
    IsUtf8Prefix (bytes ++ more) ↔ IsUtf8Prefix (scan.utf8Tail ++ more) := by
  obtain ⟨text, htext⟩ := h.text
  rw [htext, append_assoc, isUtf8Prefix_append_iff]

/-- The bytes are a text if nothing is carried. -/
theorem Scanned.isUtf8_iff : IsUtf8 bytes ↔ scan.utf8Tail = [] := by
  obtain ⟨text, htext⟩ := h.text
  rw [htext, isUtf8_append_iff]
  constructor
  · intro hutf8
    obtain hnil | hsts := h.tail
    · exact hnil
    · obtain ⟨c, byte, more, heq⟩ := exists_more_of_startsChar hsts
      exact absurd hutf8 (not_isUtf8_of_encode hsts.ne_nil (cons_ne_nil byte more) heq)
  · intro hnil
    rw [hnil]
    exact ⟨[], rfl⟩

variable {chunk : List UInt8}

/-- **What a read leads to**: an error, where the bytes with it begin no text;
the offset of the line, where it has the newline; or a scan that goes on. -/
theorem Scanned.read (hbinary : isLikelyBinary chunk = false) :
    (¬ IsUtf8Prefix (bytes ++ chunk) ∧ scan.read targetLine chunk =
      .error (.error ⟨.invalidUtf8, "The file is not valid UTF-8."⟩)) ∨
    IsUtf8Prefix (bytes ++ chunk) ∧
      ((∃ p < chunk.length, StartsLine (bytes ++ chunk) targetLine (bytes.length + p) ∧
        scan.read targetLine chunk = .error (.ok (bytes.length + p + 1))) ∨
      ∃ scan', scan.read targetLine chunk = .ok scan' ∧
        Scanned targetLine (bytes ++ chunk) scan') := by
  by_cases hbeg : IsUtf8Prefix (scan.utf8Tail ++ chunk)
  · right
    refine ⟨h.isUtf8Prefix_iff.2 hbeg, ?_⟩
    obtain ⟨text, part, heq, hpart⟩ := hbeg.split
    obtain ⟨before, hbef⟩ := h.text
    have hbytes : bytes ++ chunk = Utf8.bytes (before ++ text) ++ part := by
      rw [hbef, append_assoc, heq, bytes_append, append_assoc]
    have hread : scan.read targetLine chunk =
        (countLines targetLine chunk scan.byteOffset scan.currentLine).elim
          (fun offset => .error (.ok offset))
          fun currentLine => .ok ⟨part, scan.byteOffset + chunk.length, currentLine⟩ := by
      unfold LineScan.read
      rw [if_neg (by rw [hbinary]; simp)]
      dsimp only
      rw [heq, fromUtf8_append hpart]
      rcases countLines targetLine chunk scan.byteOffset scan.currentLine with offset | line <;>
        by_cases hnil : part = []
      · subst hnil
        rfl
      · simp only [if_neg hnil]
        rfl
      · subst hnil
        rfl
      · simp only [if_neg hnil, drop_left]
        rfl
    rw [hread, h.offset, h.line]
    obtain ⟨p, hp, hcnt, hfnd⟩ | ⟨hnone, hleft⟩ :=
      @countLines_spec targetLine chunk bytes.length (bytes.count 10 + 1)
    · refine .inl ⟨p, (getElem?_eq_some_iff.1 hp).1, ?_, by rw [hfnd]; rfl⟩
      exact startsLine_append_iff.2 ⟨hp, by omega⟩
    · refine .inr ⟨_, by rw [hleft]; rfl, ⟨_, hbytes⟩, hpart, by simp, ?_, fun p hp => ?_⟩
      · dsimp only
        rw [count_append]
        omega
      · rcases Nat.lt_or_ge p bytes.length with hlt | hge
        · rw [startsLine_append_of_lt hlt]
          exact h.before p hlt
        · obtain ⟨q, rfl⟩ := Nat.exists_eq_add_of_le hge
          rw [startsLine_append_iff]
          rintro ⟨hq, hcnt⟩
          exact hnone q hq (by omega)
  · left
    refine ⟨fun hbytes => hbeg (h.isUtf8Prefix_iff.1 hbytes), ?_⟩
    unfold LineScan.read
    rw [if_neg (by rw [hbinary]; simp)]
    dsimp only
    rw [fromUtf8_eq_invalid_iff.2 hbeg]

omit h

/-! ## The loop -/

/-- The end of a chunk is behind the first. -/
theorem le_chunkEnd (chunk : List UInt8) (p : ℕ) : chunk.length ≤ chunkEnd (chunk :: chunks) p := by
  unfold chunkEnd
  split <;> omega

theorem chunkEnd_add :
    chunkEnd (chunk :: chunks) (chunk.length + p) = chunk.length + chunkEnd chunks p := by
  rw [chunkEnd, if_neg (by omega), Nat.add_sub_cancel_left]

/-- The answer where the text is broken. -/
def invalidUtf8 : FileWindowError := ⟨.invalidUtf8, "The file is not valid UTF-8."⟩

/-- The answer where the line is not there. -/
def targetLineNotFound (targetLine : ℕ) : FileWindowError :=
  ⟨.targetLineNotFound, s!"Line {targetLine} is beyond the end of the file."⟩

/-- **What the loop ends with**, by induction on the chunks that are still to be
read. -/
theorem Scanned.loop (h : Scanned targetLine bytes scan)
    (hbinary : ∀ chunk ∈ chunks, isLikelyBinary chunk = false) (hne : ∀ chunk ∈ chunks, chunk ≠ [])
    (hfile : file = bytes ++ chunks.flatten) :
    (∀ p, StartsLine file targetLine (bytes.length + p) → loop targetLine file.length chunks scan =
        if IsUtf8Prefix (file.take (bytes.length + chunkEnd chunks p)) then
          .ok (bytes.length + p + 1)
        else .error invalidUtf8) ∧
    ((∀ p, ¬ StartsLine file targetLine p) → loop targetLine file.length chunks scan =
        .error (if IsUtf8 file then targetLineNotFound targetLine else invalidUtf8)) := by
  induction chunks generalizing bytes scan with
  | nil =>
    rw [flatten_nil, append_nil] at hfile
    subst hfile
    refine ⟨fun p hp => ?_, fun _ => ?_⟩
    · have hlt := (getElem?_eq_some_iff.1 hp.1).1
      omega
    · unfold loop finish
      by_cases hnil : scan.utf8Tail = []
      · rw [if_neg (not_not.2 hnil), if_pos (h.isUtf8_iff.2 hnil)]
        rfl
      · rw [if_pos hnil, if_neg (mt h.isUtf8_iff.1 hnil)]
        rfl
  | cons chunk chunks ih =>
    have hchk := hne chunk mem_cons_self
    have hpos := length_pos_of_ne_nil hchk
    rw [flatten_cons, ← append_assoc] at hfile
    have hlen : file.length = bytes.length + chunk.length + chunks.flatten.length := by
      rw [hfile, length_append, length_append]
    have htake : file.take (bytes.length + chunk.length) = bytes ++ chunk := by
      rw [hfile, ← length_append, take_left]
    have hgoes : scan.byteOffset < file.length ∧ chunk ≠ [] := ⟨by rw [h.offset]; omega, hchk⟩
    rw [loop, if_pos hgoes]
    obtain ⟨hbroken, hread⟩ | ⟨hbeg, ⟨q, hq, hsts, hread⟩ | ⟨scan', hread, hscanned⟩⟩ :=
      h.read (hbinary chunk mem_cons_self)
    · -- the text is broken in this chunk or before
      rw [hread]
      refine ⟨fun p _ => ?_, fun _ => ?_⟩
      · rw [if_neg]
        · rfl
        · intro hbegin
          refine hbroken (hbegin.of_prefix ?_)
          rw [← htake]
          exact (take_prefix_take_left (by have := @le_chunkEnd chunks chunk p; omega))
      · rw [if_neg]
        · rfl
        · intro hutf8
          exact hbroken (hutf8.isUtf8Prefix.of_prefix ⟨_, hfile.symm⟩)
    · -- the newline is in this chunk
      rw [hread]
      have hsts' : StartsLine file targetLine (bytes.length + q) := by
        rw [hfile]
        exact (startsLine_append_of_lt (by rw [length_append]; omega)).2 hsts
      refine ⟨fun p hp => ?_, fun hnone => absurd hsts' (hnone _)⟩
      obtain rfl : p = q := by have := hp.unique hsts'; omega
      rw [chunkEnd, if_pos hq, htake, if_pos hbeg]
    · -- the loop goes on
      rw [hread]
      obtain ⟨hfnd, hnone⟩ := ih hscanned (fun c hc => hbinary c (mem_cons_of_mem _ hc))
        (fun c hc => hne c (mem_cons_of_mem _ hc)) hfile
      refine ⟨fun p hp => ?_, hnone⟩
      have hge : chunk.length ≤ p := by
        by_contra hlt
        rw [hfile, startsLine_append_of_lt (by rw [length_append]; omega)] at hp
        exact hscanned.before _ (by rw [length_append]; omega) hp
      obtain ⟨q, rfl⟩ := Nat.exists_eq_add_of_le hge
      have hfnd' := hfnd q (by rwa [length_append, Nat.add_assoc])
      rw [length_append] at hfnd'
      rw [chunkEnd_add, ← Nat.add_assoc, ← Nat.add_assoc]
      exact hfnd'

/-- Bytes without control bytes but newlines are not taken for binary. -/
theorem isLikelyBinary_of_plain
    (h : ∀ byte ∈ bytes, byte ≠ 10 → 32 ≤ byte ∧ byte ≠ 127) : isLikelyBinary bytes = false := by
  have hsample : ∀ byte ∈ bytes.take 4096, byte ≠ 10 → 32 ≤ byte ∧ byte ≠ 127 :=
    fun byte hbyte => h byte (mem_of_mem_take hbyte)
  have hzero : (0 : UInt8) ∉ bytes.take 4096 := fun hmem => by
    have := (hsample 0 hmem (by decide)).1
    exact absurd this (by decide)
  have hnone : (bytes.take 4096).countP isSuspicious = 0 := by
    rw [countP_eq_zero]
    intro byte hbyte
    unfold isSuspicious
    by_cases hten : byte = 10
    · subst hten
      decide
    · obtain ⟨hge, hdel⟩ := hsample byte hbyte hten
      have hlt : ¬ byte < 32 := UInt8.not_lt.2 hge
      simp [hlt, hdel]
  unfold isLikelyBinary
  dsimp only
  rw [hnone]
  simp [hzero]

/-- What the scan carries is shorter than a character. -/
theorem length_utf8Tail_le (h : scan.read targetLine chunk = .ok scan') :
    scan'.utf8Tail.length ≤ 3 := by
  unfold LineScan.read at h
  split at h
  · cases h
  · dsimp only at h
    split at h
    · split at h
      · cases h
      · obtain rfl := ok.inj h
        exact Nat.zero_le _
    · next validUpTo hcheck =>
      split at h
      · cases h
      · obtain rfl := ok.inj h
        by_cases hbeg : IsUtf8Prefix (scan.utf8Tail ++ chunk)
        · obtain ⟨text, part, heq, hpart⟩ := hbeg.split
          rw [heq, fromUtf8_append hpart] at hcheck
          split at hcheck
          · cases hcheck
          · next hnil =>
            obtain rfl := Checked.incomplete.inj hcheck
            rw [heq]
            rw [drop_left]
            exact (hpart.resolve_left hnil).length_le
        · rw [fromUtf8_eq_invalid_iff.2 hbeg] at hcheck
          cases hcheck
    · cases h

/-- A chunk moves the offset by its length. -/
theorem byteOffset_of_read (h : scan.read targetLine chunk = .ok scan') :
    scan'.byteOffset = scan.byteOffset + chunk.length := by
  unfold LineScan.read at h
  split at h
  · cases h
  · dsimp only at h
    split at h
    · split at h
      · cases h
      · obtain rfl := ok.inj h
        rfl
    · split at h
      · cases h
      · obtain rfl := ok.inj h
        rfl
    · cases h

/-- The scan after some reads, if they do not end the call. -/
def LineScan.readAll (scan : LineScan) (targetLine : ℕ) (chunks : List (List UInt8)) :
    Except (Except FileWindowError ℕ) LineScan :=
  chunks.foldlM (fun scan chunk => scan.read targetLine chunk) scan

/-- Between two reads of the loop the scan is the one that the reads before
them have led to. -/
theorem loop_append {after : List (List UInt8)} {totalSize : ℕ} (hne : ∀ chunk ∈ before, chunk ≠ [])
    (htotal : scan.byteOffset + before.flatten.length ≤ totalSize)
    (h : scan.readAll targetLine before = .ok scan') :
    loop targetLine totalSize (before ++ after) scan = loop targetLine totalSize after scan' := by
  induction before generalizing scan with
  | nil =>
    obtain rfl := ok.inj h
    rfl
  | cons chunk before ih =>
    have hpos := length_pos_of_ne_nil (hne chunk mem_cons_self)
    rw [flatten_cons, length_append] at htotal
    rw [readAll, foldlM_cons] at h
    cases hread : scan.read targetLine chunk with
    | error result =>
      rw [hread] at h
      cases h
    | ok next =>
      rw [hread] at h
      have hoffset : next.byteOffset = scan.byteOffset + chunk.length := byteOffset_of_read hread
      rw [cons_append, loop, if_pos ⟨by omega, hne chunk mem_cons_self⟩, hread]
      exact ih (fun c hc => hne c (mem_cons_of_mem _ hc)) (by omega) h

/-- At most three bytes of a character are kept. -/
theorem length_utf8Tail_of_readAll (h : readAll ⟨[], 0, 1⟩ targetLine before = .ok scan) :
    scan.utf8Tail.length ≤ 3 := by
  obtain hnil | ⟨init, last, rfl⟩ := eq_nil_or_concat before
  · subst hnil
    obtain rfl := ok.inj h
    exact Nat.zero_le _
  · rw [readAll, concat_eq_append, foldlM_append] at h
    cases hinit : readAll ⟨[], 0, 1⟩ targetLine init with
    | error result =>
      rw [readAll] at hinit
      rw [hinit] at h
      cases h
    | ok middle =>
      rw [readAll] at hinit
      rw [hinit] at h
      have hlast : [last].foldlM (fun scan chunk => LineScan.read scan targetLine chunk) middle =
          ok scan := h
      rw [foldlM_cons] at hlast
      cases hread : middle.read targetLine last with
      | error result =>
        rw [hread] at hlast
        cases hlast
      | ok next =>
        rw [hread] at hlast
        obtain rfl := ok.inj hlast
        exact length_utf8Tail_le hread

/-- The loop over a whole file. -/
theorem findLineOffset_loop (hne : ∀ chunk ∈ chunks, chunk ≠ [])
    (hpln : ∀ byte ∈ chunks.flatten, byte ≠ 10 → 32 ≤ byte ∧ byte ≠ 127)
    (hfile : file = chunks.flatten) (hone : targetLine ≠ 1) :
    (∀ p, StartsLine file targetLine p → findLineOffset chunks targetLine file.length =
      if IsUtf8Prefix (file.take (chunkEnd chunks p)) then .ok (p + 1) else .error invalidUtf8) ∧
    ((∀ p, ¬ StartsLine file targetLine p) → findLineOffset chunks targetLine file.length =
      .error (if IsUtf8 file then targetLineNotFound targetLine else invalidUtf8)) := by
  have hbinary : ∀ chunk ∈ chunks, isLikelyBinary chunk = false := fun chunk hchk =>
    isLikelyBinary_of_plain fun byte hbyte => hpln byte (mem_flatten.2 ⟨chunk, hchk, hbyte⟩)
  have hfile' : file = [] ++ chunks.flatten := by rw [nil_append, hfile]
  have hloop := (@scanned_init targetLine).loop hbinary hne hfile'
  rw [findLineOffset, if_neg hone]
  simpa only [length_nil, Nat.zero_add] using hloop

/-- **The offset of a line in a file of plain text**, read in whatever chunks.
Where the newline before the line is there, it is the offset after it, if the
file begins a text up to the end of the chunk with the newline. Where it is
not, the line is not found if the file is a text. Otherwise the text is
broken. What the scan carries from one read to the next has at most three
bytes; and in a file that is a text the chunks make no difference. -/
theorem find_line_offset_spec (hne : ∀ chunk ∈ chunks, chunk ≠ [])
    (hplain : ∀ byte ∈ chunks.flatten, byte ≠ 10 → 32 ≤ byte ∧ byte ≠ 127)
    (hfile : file = chunks.flatten) :
    (targetLine = 1 → findLineOffset chunks targetLine file.length = .ok 0) ∧
    (∀ p, StartsLine file targetLine p → findLineOffset chunks targetLine file.length =
      if IsUtf8Prefix (file.take (chunkEnd chunks p)) then .ok (p + 1) else .error invalidUtf8) ∧
    (targetLine ≠ 1 → (∀ p, ¬ StartsLine file targetLine p) →
      findLineOffset chunks targetLine file.length =
        .error (if IsUtf8 file then targetLineNotFound targetLine else invalidUtf8)) ∧
    (∀ before after scan, targetLine ≠ 1 → chunks = before ++ after →
      readAll ⟨[], 0, 1⟩ targetLine before = .ok scan →
      findLineOffset chunks targetLine file.length =
        loop targetLine file.length after scan ∧ scan.utf8Tail.length ≤ 3) ∧
    (IsUtf8 file → ∀ chunks', (∀ chunk ∈ chunks', chunk ≠ []) → file = chunks'.flatten →
      findLineOffset chunks' targetLine file.length =
        findLineOffset chunks targetLine file.length) := by
  have hone : ∀ {p}, StartsLine file targetLine p → targetLine ≠ 1 := by
    rintro p ⟨-, hcount⟩
    omega
  refine ⟨fun h => if_pos h, fun p hp => ?_, fun h hnone => ?_, fun before after scan h hchunks
    hread => ⟨?_, length_utf8Tail_of_readAll hread⟩, fun hutf8 chunks' hne' hfile' => ?_⟩
  · exact (findLineOffset_loop hne hplain hfile (hone hp)).1 p hp
  · exact (findLineOffset_loop hne hplain hfile h).2 hnone
  · subst hchunks
    rw [findLineOffset, if_neg h]
    refine loop_append (fun chunk hmem => hne chunk (mem_append_left _ hmem)) ?_ hread
    rw [hfile, flatten_append, length_append]
    dsimp only
    omega
  · by_cases hone' : targetLine = 1
    · rw [findLineOffset, findLineOffset, if_pos hone', if_pos hone']
    have hloop := findLineOffset_loop hne hplain hfile hone'
    have hloop' := findLineOffset_loop hne' (hfile' ▸ hfile ▸ hplain) hfile' hone'
    by_cases hstarts : ∃ p, StartsLine file targetLine p
    · -- every beginning of a text begins one
      obtain ⟨p, hp⟩ := hstarts
      have hstart : ∀ n, IsUtf8Prefix (file.take n) := fun n =>
        hutf8.isUtf8Prefix.of_prefix <| take_prefix n file
      rw [hloop.1 p hp, hloop'.1 p hp, if_pos (hstart _), if_pos (hstart _)]
    · rw [hloop.2 (not_exists.1 hstarts), hloop'.2 (not_exists.1 hstarts)]

/-- An umlaut that two reads cut, and the second line. -/
theorem find_line_offset_cut : findLineOffset [[0xc3], [0xa4, 10], [97]] 2 4 = .ok 3 := by
  have hplain : [0xc3, 0xa4, 10, 97].all (fun byte : UInt8 =>
      byte ≠ 10 → 32 ≤ byte ∧ byte ≠ 127) = true := by decide
  have h := (@find_line_offset_spec 2 _ [[0xc3], [0xa4, 10], [97]] (by decide)
    (fun byte hbyte => of_decide_eq_true (all_eq_true.1 hplain byte hbyte)) rfl).2.1 2
    (by decide)
  exact h

end Remux
