import Mathlib.Data.List.Basic
import Mathlib.Tactic.Linarith

/-!
# UTF-8 by its bytes

A text is encoded character by character, and a byte tells whether a
character starts at it or goes on. So the places between two characters
(`IsBoundary`) can be found from the bytes alone: a text can be cut at
any of them (`IsUtf8.take`, `IsUtf8.drop`), and each byte belongs to one
character, of at most four (`exists_char_at`).
-/

namespace Remux

open String (utf8EncodeChar)

namespace Utf8

open List UInt8

/-- The bytes of a text. -/
def bytes (text : List Char) : List UInt8 := text.flatMap utf8EncodeChar

/-- The bytes are those of a text. -/
def IsUtf8 (bs : List UInt8) : Prop := ∃ text, bytes text = bs

/-- A character goes on at the byte. -/
def isContinuation (byte : UInt8) : Bool := byte &&& 0xC0 == 0x80

/-- There is a byte at the place, and a character goes on at it. -/
def continuesAt (bs : List UInt8) (i : ℕ) : Bool := (bs[i]?).any isContinuation

/-- The place is between two characters. -/
def IsBoundary (bs : List UInt8) (i : ℕ) : Prop := i ≤ bs.length ∧ continuesAt bs i = false

theorem isContinuation_eq_decide (byte : UInt8) :
    isContinuation byte = decide (0x80 ≤ byte.toNat ∧ byte.toNat < 0xC0) := by
  have h : ∀ n < 256, isContinuation (ofNat n) =
      decide (0x80 ≤ (ofNat n).toNat ∧ (ofNat n).toNat < 0xC0) := by
    decide +kernel
  simpa using h byte.toNat byte.toNat_lt

variable {bs : List UInt8} {c : Char} {text : List Char} {lead : UInt8} {i p : ℕ}

theorem isUtf8_iff : IsUtf8 bs ↔ bs.toByteArray.IsValidUTF8 := by
  constructor
  · rintro ⟨text, rfl⟩
    exact ⟨text, rfl⟩
  · rintro ⟨text, htext⟩
    exact ⟨text, (toByteArray_inj.1 htext).symm⟩

instance (bs : List UInt8) : Decidable (IsUtf8 bs) := decidable_of_iff _ isUtf8_iff.symm

@[simp] theorem bytes_nil : bytes [] = [] := rfl

theorem bytes_cons : bytes (c :: text) = utf8EncodeChar c ++ bytes text := flatMap_cons

theorem bytes_append {text' : List Char} : bytes (text ++ text') = bytes text ++ bytes text' :=
  flatMap_append

/-! ## The bytes of one character -/

/-- The first byte of a character tells how many bytes follow it. -/
def LeadsWith (lead : UInt8) : ℕ → Prop
  | 0 => lead.toNat ≤ 0x7f
  | 1 => 0xc2 ≤ lead.toNat ∧ lead.toNat ≤ 0xdf
  | 2 => 0xe0 ≤ lead.toNat ∧ lead.toNat ≤ 0xef
  | 3 => 0xf0 ≤ lead.toNat ∧ lead.toNat ≤ 0xf4
  | _ + 4 => False

/-- A leading byte does not continue. -/
theorem LeadsWith.isContinuation : ∀ {n : ℕ}, LeadsWith lead n → isContinuation lead = false := by
  intro n h
  rw [isContinuation_eq_decide, decide_eq_false_iff_not]
  match n, h with
  | 0, h => have : lead.toNat ≤ 0x7f := h; omega
  | 1, h => have := h.1; omega
  | 2, h => have := h.1; omega
  | 3, h => have := h.1; omega

theorem isContinuation_ofNat (n : ℕ) : isContinuation (ofNat (n % 0x40 + 0x80)) = true := by
  rw [isContinuation_eq_decide, decide_eq_true_iff, toNat_ofNat']
  omega

/-- **The bytes of a character**: its first byte, and at most three that
continue it. -/
theorem utf8EncodeChar_eq (c : Char) : ∃ lead rest, utf8EncodeChar c = lead :: rest ∧
    LeadsWith lead rest.length ∧ ∀ byte ∈ rest, isContinuation byte = true := by
  have hvalid : c.val.toNat < 0x110000 := by
    have := c.valid
    omega
  unfold utf8EncodeChar
  dsimp only
  split
  · refine ⟨_, _, rfl, ?_, by simp⟩
    show (ofNat _).toNat ≤ _
    rw [toNat_ofNat']
    omega
  · split
    · refine ⟨_, _, rfl, ?_, forall_mem_singleton.2 (isContinuation_ofNat _)⟩
      show _ ≤ (ofNat _).toNat ∧ (ofNat _).toNat ≤ _
      rw [toNat_ofNat']
      omega
    · split
      · refine ⟨_, _, rfl, ?_, forall_mem_cons.2
        ⟨isContinuation_ofNat _, forall_mem_singleton.2 (isContinuation_ofNat _)⟩⟩
        show _ ≤ (ofNat _).toNat ∧ (ofNat _).toNat ≤ _
        rw [toNat_ofNat']
        omega
      · refine ⟨_, _, rfl, ?_, forall_mem_cons.2 ⟨isContinuation_ofNat _, forall_mem_cons.2
        ⟨isContinuation_ofNat _, forall_mem_singleton.2 (isContinuation_ofNat _)⟩⟩⟩
        show _ ≤ (ofNat _).toNat ∧ (ofNat _).toNat ≤ _
        rw [toNat_ofNat']
        omega

theorem LeadsWith.le_three : ∀ {n : ℕ}, LeadsWith lead n → n ≤ 3
  | 0, _ | 1, _ | 2, _ | 3, _ => by omega

/-! ## The boundaries of a text -/

theorem continuesAt_append_right {bs bs' : List UInt8} {i : ℕ} :
    continuesAt (bs ++ bs') (bs.length + i) = continuesAt bs' i := by
  unfold continuesAt
  rw [getElem?_append_right (Nat.le_add_right _ _), Nat.add_sub_cancel_left]

theorem continuesAt_append_left {bs' : List UInt8} (h : i < bs.length) :
    continuesAt (bs ++ bs') i = continuesAt bs i := by
  unfold continuesAt
  rw [getElem?_append_left h]

theorem continuesAt_length (bs : List UInt8) : continuesAt bs bs.length = false := by
  unfold continuesAt
  rw [getElem?_eq_none (le_refl _)]
  rfl

theorem continuesAt_drop {k : ℕ} : continuesAt (bs.drop k) i = continuesAt bs (k + i) := by
  unfold continuesAt
  rw [getElem?_drop]

/-- No text starts inside a character. -/
theorem continuesAt_bytes_zero (text : List Char) : continuesAt (bytes text) 0 = false := by
  cases text with
  | nil => rfl
  | cons c text =>
    obtain ⟨lead, rest, heq, hlead, -⟩ := utf8EncodeChar_eq c
    rw [bytes_cons, heq]
    exact hlead.isContinuation

theorem isBoundary_zero (text : List Char) : IsBoundary (bytes text) 0 :=
  ⟨Nat.zero_le _, continuesAt_bytes_zero text⟩

/-- The bytes of the characters before a place end at a boundary. -/
theorem isBoundary_bytes_append (before after : List Char) :
    IsBoundary (bytes before ++ bytes after) (bytes before).length := by
  refine ⟨by simp, ?_⟩
  have h := @continuesAt_append_right (bytes before) (bytes after) 0
  rw [Nat.add_zero] at h
  rw [h, continuesAt_bytes_zero]

/-- **Each byte belongs to a character**, and the text is what comes
before it, the character, and what comes after. -/
theorem exists_char_at (hp : p < (bytes text).length) :
    ∃ before c after, text = before ++ c :: after ∧ (bytes before).length ≤ p ∧
      p < (bytes before).length + (utf8EncodeChar c).length := by
  induction text generalizing p with
  | nil => exact absurd hp (Nat.not_lt_zero p)
  | cons c text ih =>
    rw [bytes_cons, length_append] at hp
    by_cases hc : p < (utf8EncodeChar c).length
    · exact ⟨[], c, text, rfl, Nat.zero_le _, by simpa using hc⟩
    · obtain ⟨before, d, after, rfl, hle, hlt⟩ :=
        ih (p := p - (utf8EncodeChar c).length) (by omega)
      refine ⟨c :: before, d, after, rfl, ?_, ?_⟩
      all_goals
        rw [bytes_cons, length_append]
        omega

/-- Inside a character, every byte but the first continues it. -/
theorem continuesAt_of_char {before after : List Char} (hlt : (bytes before).length < p)
    (hp : p < (bytes before).length + (utf8EncodeChar c).length) :
    continuesAt (bytes (before ++ c :: after)) p = true := by
  obtain ⟨lead, rest, heq, -, hrest⟩ := utf8EncodeChar_eq c
  obtain ⟨i, rfl⟩ : ∃ i, p = (bytes before).length + (i + 1) :=
    ⟨p - (bytes before).length - 1, by omega⟩
  rw [heq, length_cons] at hp
  rw [bytes_append, continuesAt_append_right, bytes_cons, heq,
    continuesAt_append_left (by rw [length_cons]; omega)]
  unfold continuesAt
  rw [getElem?_cons_succ, getElem?_eq_getElem (by omega)]
  exact hrest _ (getElem_mem _)

/-- **A text can be cut at a boundary.** -/
theorem exists_append_of_isBoundary (hi : IsBoundary (bytes text) i) :
    ∃ before after, text = before ++ after ∧ (bytes before).length = i := by
  obtain ⟨hle, hcont⟩ := hi
  rcases Nat.lt_or_ge i (bytes text).length with hlt | hge
  · obtain ⟨before, c, after, rfl, hle, hlt⟩ := exists_char_at hlt
    refine ⟨before, c :: after, rfl, ?_⟩
    by_contra hne
    rw [continuesAt_of_char (by omega) hlt] at hcont
    cases hcont
  · exact ⟨text, [], (append_nil text).symm, by omega⟩

theorem IsUtf8.take {bs : List UInt8} {i : ℕ} (h : IsUtf8 bs) (hi : IsBoundary bs i) :
    IsUtf8 (bs.take i) := by
  obtain ⟨text, rfl⟩ := h
  obtain ⟨before, after, rfl, rfl⟩ := exists_append_of_isBoundary hi
  exact ⟨before, by rw [bytes_append, take_left]⟩

theorem IsUtf8.drop (h : IsUtf8 bs) (hi : IsBoundary bs i) : IsUtf8 (bs.drop i) := by
  obtain ⟨text, rfl⟩ := h
  obtain ⟨before, after, rfl, rfl⟩ := exists_append_of_isBoundary hi
  exact ⟨after, by rw [bytes_append, drop_left]⟩

/-- A character stands at a place: its first byte announces how many
follow, and there is a boundary before it and one after it. -/
structure CharAt (bs : List UInt8) (i n : ℕ) (lead : UInt8) : Prop where
  lead_eq : bs[i]? = some lead
  leads : LeadsWith lead n
  start : IsBoundary bs i
  stop : IsBoundary bs (i + n + 1)
  continues : ∀ j, i < j → j ≤ i + n → continuesAt bs j = true
  isUtf8 : IsUtf8 ((bs.drop i).take (n + 1))

/-- **The character that a byte belongs to.** -/
theorem IsUtf8.exists_charAt (h : IsUtf8 bs) (hp : p < bs.length) :
    ∃ i n lead, i ≤ p ∧ p ≤ i + n ∧ CharAt bs i n lead := by
  obtain ⟨text, rfl⟩ := h
  obtain ⟨before, c, after, rfl, hle, hlt⟩ := exists_char_at hp
  obtain ⟨lead, rest, heq, hlead, -⟩ := utf8EncodeChar_eq c
  have hbytes : bytes (before ++ c :: after) = bytes before ++ (lead :: rest ++ bytes after) := by
    rw [bytes_append, bytes_cons, heq]
  have hcut : bytes (before ++ c :: after) = bytes (before ++ [c]) ++ bytes after := by
    rw [← bytes_append, append_assoc, singleton_append]
  have hlen : (bytes (before ++ [c])).length = (bytes before).length + rest.length + 1 := by
    rw [bytes_append, length_append, bytes_cons, heq, bytes_nil, append_nil,
      length_cons, Nat.add_assoc]
  rw [heq, length_cons] at hlt
  refine ⟨(bytes before).length, rest.length, lead, hle, by omega, ⟨?_, hlead, ?_, ?_, ?_, ?_⟩⟩
  · rw [hbytes, getElem?_append_right le_rfl, Nat.sub_self]
    rfl
  · rw [bytes_append]
    exact isBoundary_bytes_append before (c :: after)
  · rw [hcut, ← hlen]
    exact isBoundary_bytes_append (before ++ [c]) after
  · intro j hj hle
    exact continuesAt_of_char hj (by rw [heq, length_cons]; omega)
  · refine ⟨[c], ?_⟩
    rw [hbytes, drop_left, bytes_cons, heq, bytes_nil, append_nil, ← length_cons, take_left]

/-- A boundary is where a character starts, or the end. -/
theorem CharAt.eq_of_isBoundary {n : ℕ} (h : CharAt bs i n lead) (hp : IsBoundary bs p)
    (hle : i ≤ p) (hlast : p ≤ i + n) : i = p := by
  by_contra hne
  have hcont := h.continues p (by omega) hlast
  rw [hp.2] at hcont
  cases hcont

/-- More than three bytes that continue a character are in no text. -/
theorem not_isUtf8_of_continues (hne : bs ≠ []) (h : ∀ i, 1 ≤ i → i ≤ 4 → continuesAt bs i = true) :
    ¬ IsUtf8 bs := by
  intro hutf8
  have hzero : IsBoundary bs 0 := by
    obtain ⟨text, rfl⟩ := hutf8
    exact isBoundary_zero text
  obtain ⟨i, n, lead, hi, hn, hchar⟩ := hutf8.exists_charAt (length_pos_of_ne_nil hne)
  obtain rfl := hchar.eq_of_isBoundary hzero hi hn
  have hle := hchar.leads.le_three
  have hstop := hchar.stop.2
  rw [h _ (by omega) (by omega)] at hstop
  cases hstop

end Utf8

end Remux
