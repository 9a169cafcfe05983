import Remux.Fs.Model.FileWindow

/-!
# Paging through a file

A window begins at the first boundary from the requested offset on and
ends at the last one within its limit, so with a limit of at least four
bytes, the longest a character can be, it holds a character
(`readWindowFrom_of_isUtf8`). Where the file is no text there may be no
boundary to end at; the window then holds more continuing bytes than any
character, and it is refused (`windowLength_spec`). Either way the next
window starts where this one ended, and forward paging skips nothing.
-/

namespace Remux

open Utf8 List Option Nat

variable {file : List UInt8} {limit start : ℕ}

/-! ## The loops -/

variable {k n requested : ℕ} {lead : UInt8} {error : FileWindowError}

/-- The search from behind finds the last. -/
theorem findBack_eq_some {p : ℕ → Bool} (hk : k < n) (hp : p k = true)
    (hno : ∀ j, k < j → j < n → p j = false) : findBack p n = some k := by
  induction n with
  | zero => omega
  | succ n ih =>
    unfold findBack
    rcases lt_or_eq_of_le (le_of_lt_succ hk) with hlt | rfl
    · rw [if_neg (by rw [hno n hlt (lt_succ_self n)]; decide)]
      exact ih hlt fun j hj hjn => hno j hj (by omega)
    · rw [if_pos hp]

/-- The end that the loop comes back to: it does not continue a
character, unless the loop ran out, and everything after it does. -/
theorem retreat_spec (buffer : List UInt8) (n : ℕ) :
    retreat buffer n ≤ n ∧ (0 < retreat buffer n → continuesAt buffer (retreat buffer n) = false) ∧
      ∀ j, retreat buffer n < j → j ≤ n → continuesAt buffer j = true := by
  induction n with
  | zero => exact ⟨le_rfl, fun h => absurd h (lt_irrefl 0), fun j hj hjn => by omega⟩
  | succ n ih =>
    unfold retreat
    split
    · next hcont =>
      obtain ⟨hle, hend, haft⟩ := ih
      refine ⟨by omega, hend, fun j hj hjn => ?_⟩
      rcases lt_or_eq_of_le hjn with hlt | rfl
      · exact haft j hj (by omega)
      · exact hcont
    · next hcont =>
      refine ⟨le_rfl, fun _ => by simpa using hcont, fun j hj hjn => by omega⟩

/-- The loop the other way goes over all that continues the first byte. -/
theorem le_length_takeWhile {bs : List UInt8} (h : ∀ j, j < k → continuesAt bs j = true) :
    k ≤ (bs.takeWhile isContinuation).length := by
  induction bs generalizing k with
  | nil =>
    by_contra hk
    have := h 0 (by omega)
    cases this
  | cons byte bs ih =>
    rcases k with _ | k
    · exact zero_le _
    · have hbyte : isContinuation byte = true := h 0 (succ_pos k)
      rw [takeWhile_cons_of_pos hbyte, length_cons]
      exact succ_le_succ (ih fun j hj => h (j + 1) (by omega))

theorem lt_advance {buffer : List UInt8} (h : ∀ j, 1 ≤ j → j ≤ k → continuesAt buffer j = true) :
    k < advance buffer := by
  have hle : k ≤ ((buffer.drop 1).takeWhile isContinuation).length :=
    le_length_takeWhile fun j hj => by
      rw [continuesAt_drop]
      exact h (1 + j) (by omega) (by omega)
  unfold advance
  omega

/-! ## Where a window ends -/

/-- What the buffer shows of the file. -/
theorem continuesAt_buffer {j : ℕ} (hj : j ≤ min limit (file.length - start)) :
    continuesAt ((file.drop start).take (min (file.length - start) (limit + 4))) j =
      continuesAt file (start + j) := by
  rw [← continuesAt_drop]
  unfold continuesAt
  rw [getElem?_take]
  split
  · rfl
  · rw [getElem?_eq_none (by rw [length_drop]; omega)]

/-- **Where a window ends**: at the last boundary within the limit. The
one exception is a window that no character fits into. -/
theorem windowLength_spec (hbeg : start < file.length) (hlim : 4 ≤ limit) :
    (0 < windowLength file limit start ∧
      windowLength file limit start ≤ min limit (file.length - start) ∧
      continuesAt file (start + windowLength file limit start) = false ∧
      ∀ j, windowLength file limit start < j → j ≤ min limit (file.length - start) →
        continuesAt file (start + j) = true) ∨
    (∀ j, 1 ≤ j → j ≤ 4 → continuesAt file (start + j) = true) ∧
      ¬ IsUtf8 ((file.drop start).take (windowLength file limit start)) := by
  obtain ⟨hle, hend, haft⟩ := retreat_spec
    ((file.drop start).take (min (file.length - start) (limit + 4)))
    (min limit (file.length - start))
  unfold windowLength
  by_cases hzero : retreat ((file.drop start).take (min (file.length - start) (limit + 4)))
      (min limit (file.length - start)) = 0
  · rw [if_pos ⟨hzero, hbeg⟩]
    rw [hzero] at haft
    -- The loop ran out, so it went over the end of the limit, and that is inside the file.
    have hlast := haft (min limit (file.length - start)) (by omega) le_rfl
    have hinside : limit < file.length - start := by
      by_contra hge
      rw [continuesAt_buffer le_rfl, show start + min limit (file.length - start) = file.length by
        omega, continuesAt_length] at hlast
      cases hlast
    have hlong := lt_advance fun j hj hle => haft j hj hle
    have hcontinues : ∀ j, 1 ≤ j → j ≤ 4 → continuesAt file (start + j) = true := by
      intro j hj hj4
      rw [← @continuesAt_buffer file limit start j (by omega)]
      exact haft j (by omega) (by omega)
    refine .inr ⟨hcontinues, not_isUtf8_of_continues ?_ fun j hj hj4 => ?_⟩
    · rw [← length_pos_iff, length_take, length_drop]
      omega
    · have hcont := hcontinues j hj hj4
      rw [← continuesAt_drop] at hcont
      unfold continuesAt at hcont ⊢
      rw [getElem?_take, if_pos (by omega)]
      exact hcont
  · rw [if_neg fun h => hzero h.1]
    refine .inl ⟨by omega, hle, ?_, fun j hj hjle => ?_⟩
    · rw [← continuesAt_buffer hle]
      exact hend (by omega)
    · rw [← continuesAt_buffer hjle]
      exact haft j hj hjle

/-! ## Where a window begins -/

/-- The width that a first byte announces is that of its character. -/
theorem utf8SequenceWidth_of_leadsWith (h : LeadsWith lead n) : utf8SequenceWidth lead = n + 1 := by
  unfold utf8SequenceWidth
  simp only [UInt8.le_iff_toNat_le]
  match n, h with
  | 0, h =>
    have hle : lead.toNat ≤ (0x7f : UInt8).toNat := h
    rw [if_pos hle]
  | 1, h =>
    obtain ⟨hge, hle⟩ := h
    rw [if_neg (by simp; omega), if_pos ⟨hge, hle⟩]
  | 2, h =>
    obtain ⟨hge, hle⟩ := h
    rw [if_neg (by simp; omega), if_neg (by simp; omega), if_pos ⟨hge, hle⟩]
  | 3, h =>
    obtain ⟨hge, hle⟩ := h
    rw [if_neg (by simp; omega), if_neg (by simp; omega), if_neg (by simp; omega),
      if_pos ⟨hge, hle⟩]

/-- Where the requested byte continues no character, the window begins
there. -/
theorem utf8AlignedStart_of_boundary (hlt : requested < file.length)
    (h : continuesAt file requested = false) : utf8AlignedStart file requested = .ok requested := by
  unfold utf8AlignedStart
  rw [if_neg (by omega), h]
  rfl

/-- Where it is inside a character, the window begins after that. -/
theorem utf8AlignedStart_of_charAt {i : ℕ} (hlt : requested < file.length)
    (hcont : continuesAt file requested = true) (hchar : CharAt file i n lead) (hi : i < requested)
    (hn : requested ≤ i + n) :
    utf8AlignedStart file requested = .ok (i + n + 1) := by
  have hn3 := hchar.leads.le_three
  have hstop := hchar.stop.1
  have hlook : ∀ j, requested - 3 + j < min file.length (requested + 4) →
      ((file.drop (requested - 3)).take (min file.length (requested + 4) - (requested - 3)))[j]? =
        file[requested - 3 + j]? := by
    intro j hj
    rw [getElem?_take, if_pos (by omega), getElem?_drop]
  have hback : findBack (fun index => !continuesAt
      ((file.drop (requested - 3)).take (min file.length (requested + 4) - (requested - 3))) index)
      (requested - (requested - 3)) = some (i - (requested - 3)) := by
    refine findBack_eq_some (by omega) ?_ fun j hj hjn => ?_
    · have hbeg := hchar.start.2
      unfold continuesAt at hbeg ⊢
      rw [hlook _ (by omega), show requested - 3 + (i - (requested - 3)) = i by omega, hbeg]
      rfl
    · have hcontinues := hchar.continues (requested - 3 + j) (by omega) (by omega)
      unfold continuesAt at hcontinues ⊢
      rw [hlook _ (by omega), hcontinues]
      rfl
  unfold utf8AlignedStart
  dsimp only
  rw [if_neg (by omega), hcont, if_neg (by decide), if_neg (by omega), hback]
  dsimp only
  rw [hlook _ (by omega), show requested - 3 + (i - (requested - 3)) = i by omega, hchar.lead_eq,
    map_some, getD_some, utf8SequenceWidth_of_leadsWith hchar.leads, if_neg]
  · congr 1
    omega
  · rw [drop_take, drop_drop, take_take, length_take, length_drop,
      show requested - 3 + (i - (requested - 3)) = i by omega]
    have hwidth : min (n + 1) (min file.length (requested + 4) - (requested - 3) -
        (i - (requested - 3))) = n + 1 := by
      omega
    rw [hwidth]
    rintro (h | h | h | h)
    · omega
    · omega
    · omega
    · exact h hchar.isUtf8

/-- At the end of the file there is a boundary, if there is one among the
last four bytes. -/
theorem utf8AlignedStart_length (hutf8 : IsUtf8 file) :
    utf8AlignedStart file file.length = .ok file.length := by
  unfold utf8AlignedStart
  rw [if_pos le_rfl]
  split
  · next hpos =>
    obtain ⟨i, n, lead, hi, hn, hchar⟩ := hutf8.exists_charAt (p := file.length - 1) (by omega)
    have hn3 := hchar.leads.le_three
    have hfst : ((file.drop (file.length - 4)).findIdx fun byte => !isContinuation byte) <
        (file.drop (file.length - 4)).length := by
      refine findIdx_lt_length_of_exists ⟨lead, ?_, ?_⟩
      · refine mem_of_getElem? (i := i - (file.length - 4)) ?_
        rw [getElem?_drop, show file.length - 4 + (i - (file.length - 4)) = i by omega,
          hchar.lead_eq]
      · rw [hchar.leads.isContinuation]
        rfl
    rw [if_neg]
    rintro (h | h)
    · omega
    · refine h ?_
      rw [drop_drop]
      refine hutf8.drop ⟨?_, ?_⟩
      · rw [length_drop] at hfst
        omega
      · rw [← continuesAt_drop]
        unfold continuesAt
        rw [getElem?_eq_getElem hfst]
        have hfnd := findIdx_getElem (w := hfst)
        simpa using hfnd
  · rfl

/-- **Where a window of a text begins**: at the first boundary from the
requested offset on. -/
theorem utf8AlignedStart_of_isUtf8 (hutf8 : IsUtf8 file) (hle : requested ≤ file.length) :
    ∃ start, utf8AlignedStart file requested = .ok start ∧ requested ≤ start ∧
      start ≤ requested + 3 ∧ IsBoundary file start := by
  have hzero : continuesAt file 0 = false := by
    obtain ⟨text, rfl⟩ := hutf8
    exact continuesAt_bytes_zero text
  rcases lt_or_eq_of_le hle with hlt | rfl
  · cases hcont : continuesAt file requested with
    | false =>
      exact ⟨requested, utf8AlignedStart_of_boundary hlt hcont, le_rfl, by omega, hle, hcont⟩
    | true =>
      obtain ⟨i, n, lead, hi, hn, hchar⟩ := hutf8.exists_charAt hlt
      have hne : i ≠ requested := by
        rintro rfl
        rw [hchar.start.2] at hcont
        cases hcont
      have hn3 := hchar.leads.le_three
      have hstop := hchar.stop.1
      refine ⟨i + n + 1, ?_, by omega, by omega, hchar.stop⟩
      exact utf8AlignedStart_of_charAt hlt hcont hchar (by omega) hn
  · exact ⟨file.length, utf8AlignedStart_length hutf8, le_rfl, by omega, le_rfl,
      continuesAt_length file⟩

/-! ## One window -/

/-- The bytes of a text. -/
def contentBytes (content : String) : List UInt8 := content.toByteArray.data.toList

theorem contentBytes_of_fromUTF8 {bytes : List UInt8} {content : String}
    (h : String.fromUTF8? bytes.toByteArray = some content) : contentBytes content = bytes := by
  unfold String.fromUTF8? at h
  split at h
  · cases h
    exact toList_data_toByteArray
  · cases h

theorem fromUTF8_isSome_iff {bytes : List UInt8} :
    (String.fromUTF8? bytes.toByteArray).isSome ↔ IsUtf8 bytes := by
  unfold String.fromUTF8?
  rw [isUtf8_iff]
  split
  all_goals next h => simp [h]

variable {source : WindowFile} {window : FileWindow}

/-- What a window that was read says of the file. -/
structure FileWindow.Reads (window : FileWindow) (source : WindowFile) (start : ℕ) (limit : ℕ) :
    Prop where
  startByte : window.startByte = start
  endByte : window.endByte = start + windowLength source.bytes limit start
  content : contentBytes window.content =
    (source.bytes.drop start).take (windowLength source.bytes limit start)
  nextOffset : window.nextOffset =
    if window.endByte ≥ source.bytes.length then none else some window.endByte
  previousOffset : window.previousOffset = if start > 0 then some (start - limit) else none

/-- A window that is read holds the bytes of its place. -/
theorem readWindowFrom_eq_ok (h : readWindowFrom source limit start = .ok window) :
    window.Reads source start limit ∧
      IsUtf8 ((source.bytes.drop start).take (windowLength source.bytes limit start)) := by
  unfold readWindowFrom at h
  dsimp only at h
  split at h
  · cases h
  · split at h
    · cases h
    · next content hcont =>
      obtain rfl := Except.ok.inj h
      refine ⟨⟨rfl, rfl, contentBytes_of_fromUTF8 hcont, ?_, rfl⟩, ?_⟩
      · simp only [decide_eq_true_eq]
      · exact fromUTF8_isSome_iff.1 (by rw [hcont]; rfl)

/-- A window fails for what the file holds. -/
theorem readWindowFrom_eq_error (h : readWindowFrom source limit start = .error error) :
    error.kind = .binary ∨ error.kind = .invalidUtf8 := by
  unfold readWindowFrom at h
  dsimp only at h
  split at h
  · obtain rfl := Except.error.inj h
    exact .inl rfl
  · split at h
    · obtain rfl := Except.error.inj h
      exact .inr rfl
    · cases h

/-- Bytes among which none is suspicious are not taken for binary. -/
theorem isLikelyBinary_eq_false {bytes : List UInt8}
    (h : ∀ byte ∈ bytes, isSuspicious byte = false) : isLikelyBinary bytes = false := by
  have hsample : ∀ byte ∈ bytes.take 4096, isSuspicious byte = false := fun byte hbyte =>
    h byte (mem_of_mem_take hbyte)
  unfold isLikelyBinary
  simp only [Bool.or_eq_false_iff, decide_eq_false_iff_not, not_lt]
  constructor
  · rw [← Bool.not_eq_true, contains_iff_mem]
    intro hzero
    have := hsample 0 hzero
    revert this
    decide
  · rw [countP_eq_zero.2 fun byte hbyte => by rw [hsample byte hbyte]; decide]
    omega

/-- **A window of a text** begins and ends at a boundary, and holds a
character. -/
theorem readWindowFrom_of_isUtf8 (hutf8 : IsUtf8 source.bytes)
    (hctl : ∀ byte ∈ source.bytes, isSuspicious byte = false)
    (hbeg : IsBoundary source.bytes start) (hlim : 4 ≤ limit) :
    ∃ window, readWindowFrom source limit start = .ok window ∧ window.Reads source start limit ∧
      (start < source.bytes.length → start < window.endByte) ∧
      IsBoundary source.bytes window.endByte ∧
      ∀ stop, IsBoundary source.bytes stop → start ≤ stop → stop ≤ start + limit →
        stop ≤ window.endByte := by
  have hreads : IsUtf8 ((source.bytes.drop start).take (windowLength source.bytes limit start)) →
      ∃ window, readWindowFrom source limit start = .ok window ∧
        window.Reads source start limit := by
    intro hslice
    have hbinary : isLikelyBinary
        ((source.bytes.drop start).take (windowLength source.bytes limit start)) = false :=
      isLikelyBinary_eq_false fun byte hbyte =>
        hctl byte (mem_of_mem_drop (mem_of_mem_take hbyte))
    obtain ⟨content, hcontent⟩ := isSome_iff_exists.1 (fromUTF8_isSome_iff.2 hslice)
    have hok : (readWindowFrom source limit start).isOk := by
      unfold readWindowFrom
      dsimp only
      rw [hbinary, hcontent]
      rfl
    cases hwin : readWindowFrom source limit start with
    | error error =>
      rw [hwin] at hok
      cases hok
    | ok window => exact ⟨window, rfl, (readWindowFrom_eq_ok hwin).1⟩
  rcases lt_or_eq_of_le hbeg.1 with hlt | heq
  · rcases windowLength_spec hlt hlim with ⟨hpos, hle, hend, haft⟩ | ⟨hcontinues, -⟩
    · have hbdry : IsBoundary source.bytes (start + windowLength source.bytes limit start) :=
        ⟨by omega, hend⟩
      have hslice : IsBoundary (source.bytes.drop start) (windowLength source.bytes limit start) :=
        ⟨by rw [length_drop]; omega, by rw [continuesAt_drop]; exact hend⟩
      obtain ⟨window, hok, hwin⟩ := hreads ((hutf8.drop hbeg).take hslice)
      refine ⟨window, hok, hwin, fun _ => ?_, ?_, fun stop hstop hge hle => ?_⟩
      · rw [hwin.endByte]
        omega
      · rw [hwin.endByte]
        exact hbdry
      · rw [hwin.endByte]
        by_contra hlt
        have hlen := hstop.1
        have hcont := haft (stop - start) (by omega) (by omega)
        rw [show start + (stop - start) = stop by omega, hstop.2] at hcont
        cases hcont
    · -- The character at the start ends within four bytes, at a boundary.
      obtain ⟨i, n, lead, hi, hn, hchar⟩ := hutf8.exists_charAt hlt
      obtain rfl := hchar.eq_of_isBoundary hbeg hi hn
      have hn3 := hchar.leads.le_three
      have hcont := hcontinues (n + 1) (by omega) (by omega)
      rw [← add_assoc, hchar.stop.2] at hcont
      cases hcont
  · have hzero : windowLength source.bytes limit start = 0 := by
      unfold windowLength
      rw [if_neg (by omega), show min limit (source.bytes.length - start) = 0 by omega]
      rfl
    obtain ⟨window, hok, hwin⟩ := hreads (by rw [hzero, take_zero]; exact ⟨[], rfl⟩)
    have hend : window.endByte = start := by rw [hwin.endByte, hzero, add_zero]
    refine ⟨window, hok, hwin, by omega, by rw [hend]; exact hbeg, fun stop hstop _ _ => ?_⟩
    have hlen := hstop.1
    omega

/-! ## Paging -/

/-- **Forward paging** from an offset: the windows that were read, each at
the offset the one before it named, up to the one that names none, or up
to an error. -/
inductive Paging (source : WindowFile) (expectedVersion : Option String) (limit : ℕ) :
    ℕ → List FileWindow → Option FileWindowErrorKind → Prop
  | ends {offset : ℕ} {window : FileWindow} :
      readFileWindow source ⟨expectedVersion, limit, offset⟩ = .ok window →
      window.nextOffset = none → Paging source expectedVersion limit offset [window] none
  | goes {offset next : ℕ} {window : FileWindow} {windows : List FileWindow}
      {error : Option FileWindowErrorKind} :
      readFileWindow source ⟨expectedVersion, limit, offset⟩ = .ok window →
      window.nextOffset = some next → Paging source expectedVersion limit next windows error →
      Paging source expectedVersion limit offset (window :: windows) error
  | stops {offset : ℕ} {error : FileWindowError} :
      readFileWindow source ⟨expectedVersion, limit, offset⟩ = .error error →
      Paging source expectedVersion limit offset [] (some error.kind)

/-- Each window starts where the one before it ended, and the first at
the offset. -/
def Contiguous : ℕ → List FileWindow → Prop
  | _, [] => True
  | offset, window :: windows => window.startByte = offset ∧ Contiguous window.endByte windows

/-- The bytes of the windows, one after another. -/
def pagedBytes (windows : List FileWindow) : List UInt8 :=
  windows.flatMap fun window => contentBytes window.content

variable {expectedVersion : Option String} {offset : ℕ}

/-- On a regular file of the expected version, the call is its two
parts. -/
theorem readFileWindow_eq (hfile : source.isFile = true)
    (hver : ∀ version ∈ expectedVersion, version = source.version) :
    readFileWindow source ⟨expectedVersion, limit, offset⟩ =
      (utf8AlignedStart source.bytes (min offset source.bytes.length)).bind
        (readWindowFrom source limit) := by
  have hexpected : expectedVersion.any (· != source.version) = false := by
    cases expectedVersion with
    | none => rfl
    | some version => simpa using hver version rfl
  unfold readFileWindow
  rw [hfile, hexpected]
  cases utf8AlignedStart source.bytes (min offset source.bytes.length) <;> rfl

theorem utf8AlignedStart_of_isBoundary (hutf8 : IsUtf8 file) (h : IsBoundary file offset) :
    utf8AlignedStart file offset = .ok offset := by
  rcases lt_or_eq_of_le h.1 with hlt | rfl
  · exact utf8AlignedStart_of_boundary hlt h.2
  · exact utf8AlignedStart_length hutf8

/-- Where forward paging may stand: at the start, or at a byte that
continues no character. -/
def PagesFrom (file : List UInt8) (offset : ℕ) : Prop :=
  offset = 0 ∨ offset < file.length ∧ continuesAt file offset = false

/-- A page starts where it was asked for. -/
theorem utf8AlignedStart_of_pagesFrom (h : PagesFrom file offset) :
    utf8AlignedStart file offset = .ok offset ∨
      ∃ error, utf8AlignedStart file offset = .error error ∧ error.kind = .invalidUtf8 := by
  rcases h with rfl | ⟨hlt, hcont⟩
  · unfold utf8AlignedStart
    by_cases hnil : file.length = 0
    · rw [hnil]
      exact .inl rfl
    · rw [if_neg (by omega)]
      cases continuesAt file 0 with
      | false => exact .inl rfl
      | true => exact .inr ⟨_, rfl, rfl⟩
  · exact .inl (utf8AlignedStart_of_boundary hlt hcont)

/-- A window that was read where forward paging may stand ends at the end
of the file, or further on where forward paging may stand again. -/
theorem pagesFrom_endByte (hlim : 4 ≤ limit) (hoffset : PagesFrom source.bytes offset)
    (h : readWindowFrom source limit offset = .ok window) :
    window.endByte ≤ source.bytes.length ∧ (window.endByte < source.bytes.length →
        offset < window.endByte ∧ PagesFrom source.bytes window.endByte) := by
  obtain ⟨hwin, hslice⟩ := readWindowFrom_eq_ok h
  rw [hwin.endByte]
  by_cases hlt : offset < source.bytes.length
  · rcases windowLength_spec hlt hlim with ⟨hpos, hle, hend, -⟩ | ⟨-, hnot⟩
    · exact ⟨by omega, fun hinside => ⟨by omega, .inr ⟨hinside, hend⟩⟩⟩
    · exact absurd hslice hnot
  · have hzero : offset = 0 := by
      rcases hoffset with hzero | ⟨hinside, -⟩
      · exact hzero
      · exact absurd hinside hlt
    have hlen : windowLength source.bytes limit offset = 0 := by
      unfold windowLength
      rw [if_neg (by omega), show min limit (source.bytes.length - offset) = 0 by omega]
      rfl
    omega

/-- What forward paging from an offset comes to. -/
structure PagedFrom (source : WindowFile) (expectedVersion : Option String) (limit offset : ℕ)
    (windows : List FileWindow) (error : Option FileWindowErrorKind) : Prop where
  paging : Paging source expectedVersion limit offset windows error
  contiguous : Contiguous offset windows
  isPrefix : pagedBytes windows <+: source.bytes.drop offset
  complete : error = none → pagedBytes windows = source.bytes.drop offset
  refused : ∀ kind, error = some kind → kind = .binary ∨ kind = .invalidUtf8

theorem PagedFrom.stops (h : readFileWindow source ⟨expectedVersion, limit, offset⟩ = .error error)
    (hkind : error.kind = .binary ∨ error.kind = .invalidUtf8) :
    PagedFrom source expectedVersion limit offset [] (some error.kind) :=
  ⟨.stops h, trivial, nil_prefix, nofun, fun _ heq => some.inj heq ▸ hkind⟩

variable (h : readFileWindow source ⟨expectedVersion, limit, offset⟩ = .ok window)
include h

/-- The last page. -/
theorem PagedFrom.ends
    (hwin : window.Reads source offset limit) (hend : window.endByte = source.bytes.length) :
    PagedFrom source expectedVersion limit offset [window] none := by
  have hnext : window.nextOffset = none := by
    rw [hwin.nextOffset, if_pos (by omega)]
  have hbytes : pagedBytes [window] = source.bytes.drop offset := by
    show contentBytes window.content ++ [] = _
    have := hwin.endByte
    rw [hwin.content, append_nil, take_of_length_le (by rw [length_drop]; omega)]
  exact ⟨.ends h hnext, ⟨hwin.startByte, trivial⟩, hbytes ▸ prefix_rfl, fun _ => hbytes, nofun⟩

variable {error : Option FileWindowErrorKind} {windows : List FileWindow}

/-- One page before the others. -/
theorem PagedFrom.goes
    (hwin : window.Reads source offset limit) (hend : window.endByte < source.bytes.length)
    (hrest : PagedFrom source expectedVersion limit window.endByte windows error) :
    PagedFrom source expectedVersion limit offset (window :: windows) error := by
  have hnext : window.nextOffset = some window.endByte := by
    rw [hwin.nextOffset, if_neg (by omega)]
  have hpaged : pagedBytes (window :: windows) =
      (source.bytes.drop offset).take (windowLength source.bytes limit offset) ++
        pagedBytes windows := by
    rw [← hwin.content]
    rfl
  have hfile : source.bytes.drop offset =
      (source.bytes.drop offset).take (windowLength source.bytes limit offset) ++
        source.bytes.drop window.endByte := by
    rw [hwin.endByte, ← drop_drop, take_append_drop]
  refine ⟨.goes h hnext hrest.paging, ⟨hwin.startByte, hrest.contiguous⟩, ?_, fun hnone => ?_,
    hrest.refused⟩
  · rw [hpaged]
    conv_rhs => rw [hfile]
    exact (prefix_append_right_inj _).2 hrest.isPrefix
  · rw [hpaged, hrest.complete hnone, ← hfile]

omit h

/-- **Forward paging** comes to an end, and what it reads is the file from
where it started on, up to where it was refused. -/
theorem exists_pagedFrom (hfile : source.isFile = true)
    (hver : ∀ version ∈ expectedVersion, version = source.version) (hlim : 4 ≤ limit)
    (hoffset : PagesFrom source.bytes offset) :
    ∃ windows error, PagedFrom source expectedVersion limit offset windows error := by
  -- By induction on what is left of the file.
  obtain ⟨left, hleft⟩ : ∃ left, left = source.bytes.length - offset := ⟨_, rfl⟩
  induction left using Nat.strong_induction_on generalizing offset with
  | _ left ih =>
    have hle : offset ≤ source.bytes.length := by
      rcases hoffset with rfl | ⟨hlt, -⟩ <;> omega
    have hread := @readFileWindow_eq limit source expectedVersion offset hfile hver
    rw [Nat.min_eq_left hle] at hread
    rcases utf8AlignedStart_of_pagesFrom hoffset with hbeg | ⟨error, hbeg, hkind⟩
    · rw [hbeg] at hread
      cases hwin : readWindowFrom source limit offset with
      | error error =>
        exact ⟨[], _, .stops (hread.trans hwin) (readWindowFrom_eq_error hwin)⟩
      | ok window =>
        obtain ⟨hend, hnext⟩ := pagesFrom_endByte hlim hoffset hwin
        have hreads := (readWindowFrom_eq_ok hwin).1
        rcases Nat.lt_or_eq_of_le hend with hlt | heq
        · obtain ⟨hgrows, hpages⟩ := hnext hlt
          obtain ⟨windows, error, hrest⟩ := ih _ (by omega) hpages rfl
          exact ⟨_, error, .goes (hread.trans hwin) hreads hlt hrest⟩
        · exact ⟨[window], none, .ends (hread.trans hwin) hreads heq⟩
    · rw [hbeg] at hread
      exact ⟨[], _, .stops hread (.inr hkind)⟩

theorem isBoundary_of_pagesFrom (hutf8 : IsUtf8 file) (h : PagesFrom file offset) :
    IsBoundary file offset := by
  rcases h with rfl | ⟨hlt, hcont⟩
  · obtain ⟨text, rfl⟩ := hutf8
    exact isBoundary_zero text
  · exact ⟨hlt.le, hcont⟩

/-- On a text without control bytes paging is not refused. -/
theorem Paging.eq_none
    (h : Paging source expectedVersion limit offset windows error) (hfile : source.isFile = true)
    (hver : ∀ version ∈ expectedVersion, version = source.version) (hlim : 4 ≤ limit)
    (hutf8 : IsUtf8 source.bytes) (hctl : ∀ byte ∈ source.bytes, isSuspicious byte = false)
    (hoffset : PagesFrom source.bytes offset) : error = none := by
  have hok : ∀ {offset}, PagesFrom source.bytes offset → ∃ window,
      readFileWindow source ⟨expectedVersion, limit, offset⟩ = .ok window ∧
        readWindowFrom source limit offset = .ok window := by
    intro offset hoffset
    have hbdry := isBoundary_of_pagesFrom hutf8 hoffset
    obtain ⟨window, hwin, -⟩ := readWindowFrom_of_isUtf8 hutf8 hctl hbdry hlim
    refine ⟨window, ?_, hwin⟩
    rw [readFileWindow_eq hfile hver, min_eq_left hbdry.1,
      utf8AlignedStart_of_isBoundary hutf8 hbdry]
    exact hwin
  induction h with
  | ends => rfl
  | @goes offset next window windows error hread hnext _ ih =>
    refine ih ?_
    obtain ⟨other, hne, hwin⟩ := hok hoffset
    obtain rfl := Except.ok.inj (hread.symm.trans hne)
    have hreads := (readWindowFrom_eq_ok hwin).1
    obtain ⟨hend, hpages⟩ := pagesFrom_endByte hlim hoffset hwin
    rw [hreads.nextOffset] at hnext
    split at hnext
    · cases hnext
    · cases hnext
      exact (hpages (by omega)).2
  | stops hread =>
    obtain ⟨window, hwin, -⟩ := hok hoffset
    rw [hread] at hwin
    cases hwin

/-- **Backward paging**: the window at the previous offset starts before
the window it was named by, and reaches up to it. -/
theorem previous_window (hfile : source.isFile = true)
    (hver : ∀ version ∈ expectedVersion, version = source.version) (hlim : 4 ≤ limit)
    (hutf8 : IsUtf8 source.bytes) (hctl : ∀ byte ∈ source.bytes, isSuspicious byte = false)
    (h : readFileWindow source ⟨expectedVersion, limit, offset⟩ = .ok window)
    (hpos : 0 < window.startByte) :
    ∃ prev before, window.previousOffset = some prev ∧
      readFileWindow source ⟨expectedVersion, limit, prev⟩ = .ok before ∧
      before.startByte < window.startByte ∧ window.startByte ≤ before.endByte := by
  obtain ⟨start, hbeg, -, -, hbdry⟩ :=
    utf8AlignedStart_of_isUtf8 hutf8 (min_le_right offset source.bytes.length)
  rw [readFileWindow_eq hfile hver, hbeg] at h
  have hwin := (readWindowFrom_eq_ok (show readWindowFrom source limit start = _ from h)).1
  rw [hwin.startByte] at hpos ⊢
  have hlen := hbdry.1
  have hprev : min (start - limit) source.bytes.length = start - limit := by omega
  have hle : start - limit ≤ source.bytes.length := by omega
  obtain ⟨before, hbef, hge, hlt, hbef'⟩ : ∃ before,
      utf8AlignedStart source.bytes (start - limit) = .ok before ∧ start - limit ≤ before ∧
        before < start ∧ IsBoundary source.bytes before := by
    by_cases hzero : start - limit = 0
    · have hboundary₀ : IsBoundary source.bytes 0 := isBoundary_of_pagesFrom hutf8 (.inl rfl)
      rw [hzero]
      exact ⟨0, utf8AlignedStart_of_isBoundary hutf8 hboundary₀, le_rfl, hpos, hboundary₀⟩
    · obtain ⟨before, hbef, hge, hle, hbef'⟩ :=
        utf8AlignedStart_of_isUtf8 hutf8 hle
      exact ⟨before, hbef, hge, by omega, hbef'⟩
  obtain ⟨earlier, hearlier, hreads, -, -, hreach⟩ :=
    readWindowFrom_of_isUtf8 hutf8 hctl hbef' hlim
  refine ⟨start - limit, earlier, ?_, ?_, ?_, hreach start hbdry hlt.le (by omega)⟩
  · rw [hwin.previousOffset, if_pos hpos]
  · rw [readFileWindow_eq hfile hver, hprev, hbef]
    exact hearlier
  · rw [hreads.startByte]
    exact hlt

/-- **Paging loses nothing.** Forward from the start, every window begins
where the one before it ended; what is read is the file, or its beginning
up to a window that is refused as binary or as no UTF-8. On a text without
suspicious control bytes nothing is refused, and backward from any window
that does not begin the file, the window before it reaches up to it. -/
theorem window_paging_lossless (source : WindowFile) (expectedVersion : Option String)
    (limit : ℕ) (hfile : source.isFile = true)
    (hversion : ∀ version ∈ expectedVersion, version = source.version)
    (hlimit : minWindowBytes ≤ limit) :
    (∃ windows error, Paging source expectedVersion limit 0 windows error ∧
      Contiguous 0 windows ∧ pagedBytes windows <+: source.bytes ∧
      (error = none → pagedBytes windows = source.bytes) ∧
      ∀ kind, error = some kind → kind = .binary ∨ kind = .invalidUtf8) ∧
    (IsUtf8 source.bytes → (∀ byte ∈ source.bytes, isSuspicious byte = false) →
      (∃ windows, Paging source expectedVersion limit 0 windows none ∧
        Contiguous 0 windows ∧ pagedBytes windows = source.bytes) ∧
      ∀ offset window, readFileWindow source ⟨expectedVersion, limit, offset⟩ = .ok window →
        0 < window.startByte →
        ∃ previous before, window.previousOffset = some previous ∧
          readFileWindow source ⟨expectedVersion, limit, previous⟩ = .ok before ∧
          before.startByte < window.startByte ∧ window.startByte ≤ before.endByte) := by
  obtain ⟨windows, error, hpaged⟩ := exists_pagedFrom hfile hversion hlimit (.inl rfl)
  refine ⟨⟨windows, error, hpaged.paging, hpaged.contiguous, hpaged.isPrefix, hpaged.complete,
    hpaged.refused⟩, fun hutf8 hcontrol => ⟨⟨windows, ?_⟩, fun offset window h hpos =>
      previous_window hfile hversion hlimit hutf8 hcontrol h hpos⟩⟩
  obtain rfl := hpaged.paging.eq_none hfile hversion hlimit hutf8 hcontrol (.inl rfl)
  exact ⟨hpaged.paging, hpaged.contiguous, hpaged.complete rfl⟩

/-- A file with an accent in it, read four bytes at a time. -/
theorem window_paging_lossless_example :
    ∃ windows, Paging ⟨true, bytes "caféé\n".toList, "v"⟩ (some "v") 4 0 windows none ∧
      pagedBytes windows = bytes "caféé\n".toList := by
  obtain ⟨-, htext⟩ := window_paging_lossless ⟨true, bytes "caféé\n".toList, "v"⟩ (some "v") 4 rfl
    (fun _ h => (Option.some.inj h).symm) (by decide)
  obtain ⟨⟨windows, hpaging, -, hbytes⟩, -⟩ := htext ⟨_, rfl⟩ (by decide +kernel)
  exact ⟨windows, hpaging, hbytes⟩

end Remux
