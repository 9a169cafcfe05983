import Remux.Common.Utf8

/-!
# UTF-8 that comes in parts

Bytes that begin a text may end inside a character (`IsUtf8Prefix`), and a
reader that gets a text in parts has to tell such an end from an error
(`fromUtf8`). What has been read up to the last whole character can be
forgotten (`isUtf8Prefix_append_iff`), and what is left of it is at most three bytes
long.
-/

namespace Remux

open UInt8 (ofNat toNat_ofNat')
open String hiding append_assoc length length_append length_singleton next

namespace Utf8

open List Nat

/-- The bytes begin a text. -/
def IsUtf8Prefix (bs : List UInt8) : Prop := ∃ rest, IsUtf8 (bs ++ rest)

/-- Which byte may follow the first one of a character. -/
def SecondByte (lead next : ℕ) : Prop :=
  0x80 ≤ next ∧ next ≤ 0xbf ∧ (lead = 0xe0 → 0xa0 ≤ next) ∧ (lead = 0xed → next ≤ 0x9f) ∧
    (lead = 0xf0 → 0x90 ≤ next) ∧ (lead = 0xf4 → next ≤ 0x8f)

instance (lead next : ℕ) : Decidable (SecondByte lead next) := by
  unfold SecondByte
  infer_instance

/-- The bytes begin a character, and more of it is to come. -/
def StartsChar : List UInt8 → Prop
  | [lead] => 0xc2 ≤ lead.toNat ∧ lead.toNat ≤ 0xf4
  | [lead, next] => 0xe0 ≤ lead.toNat ∧ lead.toNat ≤ 0xf4 ∧ SecondByte lead.toNat next.toNat
  | [lead, next, third] => 0xf0 ≤ lead.toNat ∧ lead.toNat ≤ 0xf4 ∧
      SecondByte lead.toNat next.toNat ∧ 0x80 ≤ third.toNat ∧ third.toNat ≤ 0xbf
  | _ => False

instance (bs : List UInt8) : Decidable (StartsChar bs) := by
  unfold StartsChar
  split <;> infer_instance

/-- What `std::str::from_utf8` says of bytes: its error has `valid_up_to`,
and no `error_len` where the bytes ended unexpectedly. -/
inductive Checked where
  | valid
  | incomplete (validUpTo : ℕ)
  | invalid
  deriving DecidableEq

/-- `std::str::from_utf8`. -/
def fromUtf8 (bs : List UInt8) : Checked :=
  let validUpTo := Nat.findGreatest (fun i => IsUtf8 (bs.take i)) bs.length
  if validUpTo = bs.length then .valid
  else if StartsChar (bs.drop validUpTo) then .incomplete validUpTo
  else .invalid

/-! ## The bytes of a character, by its number -/

/-- The bytes of a character, in each of the four ranges. -/
theorem utf8EncodeChar_cases (c : Char) :
    (c.val.toNat ≤ 0x7f ∧ utf8EncodeChar c = [ofNat c.val.toNat]) ∨
    (0x80 ≤ c.val.toNat ∧ c.val.toNat ≤ 0x7ff ∧ utf8EncodeChar c =
      [ofNat (c.val.toNat / 64 % 0x20 + 0xc0), ofNat (c.val.toNat % 0x40 + 0x80)]) ∨
    (0x800 ≤ c.val.toNat ∧ c.val.toNat ≤ 0xffff ∧ utf8EncodeChar c =
      [ofNat (c.val.toNat / 4096 % 0x10 + 0xe0),
        ofNat (c.val.toNat / 64 % 0x40 + 0x80), ofNat (c.val.toNat % 0x40 + 0x80)]) ∨
    (0x10000 ≤ c.val.toNat ∧ utf8EncodeChar c = [ofNat (c.val.toNat / 262144 % 0x08 + 0xf0),
        ofNat (c.val.toNat / 4096 % 0x40 + 0x80),
        ofNat (c.val.toNat / 64 % 0x40 + 0x80), ofNat (c.val.toNat % 0x40 + 0x80)]) := by
  unfold utf8EncodeChar
  dsimp only
  split
  · exact .inl ⟨by omega, rfl⟩
  · split
    · exact .inr (.inl ⟨by omega, by omega, rfl⟩)
    · split
      · exact .inr (.inr (.inl ⟨by omega, by omega, rfl⟩))
      · exact .inr (.inr (.inr ⟨by omega, rfl⟩))

theorem val_lt (c : Char) : c.val.toNat < 0xd800 ∨ 0xdfff < c.val.toNat ∧
    c.val.toNat < 0x110000 := by
  have := c.valid
  omega

variable {n : ℕ} {part xs ys bs : List UInt8} {c : Char} {text : List Char}

theorem exists_char (h : n < 0xd800 ∨ 0xdfff < n ∧ n < 0x110000) : ∃ c : Char, c.val.toNat = n := by
  have hn : (UInt32.ofNat n).toNat = n := by
    rw [UInt32.toNat_ofNat']
    omega
  refine ⟨⟨UInt32.ofNat n, ?_⟩, hn⟩
  show isValidChar (UInt32.ofNat n).toNat
  omega

/-- **The beginning of a character's bytes** is what the table says. -/
theorem startsChar_of_encode (hne : part ≠ []) (hbegin : part <+: utf8EncodeChar c)
    (hproper : part ≠ utf8EncodeChar c) :
    StartsChar part := by
  have hval := val_lt c
  have htake : part = (utf8EncodeChar c).take part.length :=
    (prefix_iff_eq_take.1 hbegin)
  have hlen : 0 < part.length := length_pos_of_ne_nil hne
  have hlt : part.length < (utf8EncodeChar c).length := by
    refine lt_of_le_of_ne hbegin.length_le fun heq => hproper ?_
    exact hbegin.eq_of_length heq
  obtain ⟨-, heq⟩ | ⟨hlow, hhigh, heq⟩ | ⟨hlow, hhigh, heq⟩ | ⟨hlow, heq⟩ :=
    utf8EncodeChar_cases c
  · rw [heq, length_singleton] at hlt
    omega
  · rw [heq] at htake hlt
    simp only [length_cons, length_nil] at hlt
    obtain hone : part.length = 1 := by omega
    rw [hone] at htake
    rw [htake]
    simp only [take_succ_cons, take_zero, StartsChar, toNat_ofNat']
    omega
  · rw [heq] at htake hlt
    simp only [length_cons, length_nil] at hlt
    obtain hone | htwo : part.length = 1 ∨ part.length = 2 := by omega
    · rw [hone] at htake
      rw [htake]
      simp only [take_succ_cons, take_zero, StartsChar, toNat_ofNat']
      omega
    · rw [htwo] at htake
      rw [htake]
      simp only [take_succ_cons, take_zero, StartsChar, SecondByte, toNat_ofNat']
      omega
  · rw [heq] at htake hlt
    simp only [length_cons, length_nil] at hlt
    obtain hone | htwo | hthree : part.length = 1 ∨ part.length = 2 ∨ part.length = 3 := by omega
    · rw [hone] at htake
      rw [htake]
      simp only [take_succ_cons, take_zero, StartsChar, toNat_ofNat']
      omega
    · rw [htwo] at htake
      rw [htake]
      simp only [take_succ_cons, take_zero, StartsChar, SecondByte, toNat_ofNat']
      omega
    · rw [hthree] at htake
      rw [htake]
      simp only [take_succ_cons, take_zero, StartsChar, SecondByte, toNat_ofNat']
      omega

theorem eq_ofNat (byte : UInt8) (h : byte.toNat = n) : byte = ofNat n :=
  UInt8.toNat_inj.1 (by rw [toNat_ofNat', ← h]; exact (mod_eq_of_lt byte.toNat_lt).symm)

/-- A number is that of a character of which the bytes are known. -/
theorem exists_encode {n : ℕ} (h : n < 0xd800 ∨ 0xdfff < n ∧ n < 0x110000) (hlow : 0x80 ≤ n) :
    ∃ c : Char, (n ≤ 0x7ff ∧ utf8EncodeChar c =
      [ofNat (n / 64 % 0x20 + 0xc0), ofNat (n % 0x40 + 0x80)]) ∨
    (0x800 ≤ n ∧ n ≤ 0xffff ∧ utf8EncodeChar c =
      [ofNat (n / 4096 % 0x10 + 0xe0), ofNat (n / 64 % 0x40 + 0x80), ofNat (n % 0x40 + 0x80)]) ∨
    (0x10000 ≤ n ∧ utf8EncodeChar c =
      [ofNat (n / 262144 % 0x08 + 0xf0), ofNat (n / 4096 % 0x40 + 0x80),
        ofNat (n / 64 % 0x40 + 0x80), ofNat (n % 0x40 + 0x80)]) := by
  obtain ⟨c, rfl⟩ := exists_char h
  obtain ⟨hle, -⟩ | ⟨-, hle, heq⟩ | ⟨hge, hle, heq⟩ | ⟨hge, heq⟩ := utf8EncodeChar_cases c
  · omega
  · exact ⟨c, .inl ⟨hle, heq⟩⟩
  · exact ⟨c, .inr (.inl ⟨hge, hle, heq⟩)⟩
  · exact ⟨c, .inr (.inr ⟨hge, heq⟩)⟩

/-- What the table says begins a character does. -/
theorem exists_more_of_startsChar (h : StartsChar part) :
    ∃ c byte more, utf8EncodeChar c = part ++ byte :: more := by
  unfold StartsChar at h
  split at h
  · next lead =>
    -- the smallest character that begins so
    rcases lt_or_ge lead.toNat 0xe0 with htwo | hmore
    · obtain ⟨c, ⟨-, heq⟩ | hne | hne⟩ :=
        @exists_encode ((lead.toNat - 0xc0) * 64) (by omega) (by omega)
      · refine ⟨c, ?_⟩
        rw [heq, ← eq_ofNat lead (by omega)]
        exact ⟨_, _, rfl⟩
      all_goals omega
    · rcases lt_or_ge lead.toNat 0xf0 with hthree | hfour
      · obtain ⟨c, hne | ⟨-, -, heq⟩ | hne⟩ :=
          @exists_encode (max 0x800 ((lead.toNat - 0xe0) * 4096)) (by omega) (by omega)
        · omega
        · refine ⟨c, ?_⟩
          rw [heq, ← eq_ofNat lead (by omega)]
          exact ⟨_, _, rfl⟩
        · omega
      · obtain ⟨c, hne | hne | ⟨-, heq⟩⟩ :=
          @exists_encode (max 0x10000 ((lead.toNat - 0xf0) * 262144)) (by omega) (by omega)
        · omega
        · omega
        · refine ⟨c, ?_⟩
          rw [heq, ← eq_ofNat lead (by omega)]
          exact ⟨_, _, rfl⟩
  · next lead next =>
    unfold SecondByte at h
    rcases lt_or_ge lead.toNat 0xf0 with hthree | hfour
    · obtain ⟨c, hne | ⟨-, -, heq⟩ | hne⟩ :=
        @exists_encode ((lead.toNat - 0xe0) * 4096 + (next.toNat - 0x80) * 64) (by omega) (by omega)
      · omega
      · refine ⟨c, ?_⟩
        rw [heq, ← eq_ofNat lead (by omega), ← eq_ofNat next (by omega)]
        exact ⟨_, _, rfl⟩
      · omega
    · obtain ⟨c, hne | hne | ⟨-, heq⟩⟩ :=
        @exists_encode ((lead.toNat - 0xf0) * 262144 + (next.toNat - 0x80) * 4096) (by omega)
          (by omega)
      · omega
      · omega
      · refine ⟨c, ?_⟩
        rw [heq, ← eq_ofNat lead (by omega), ← eq_ofNat next (by omega)]
        exact ⟨_, _, rfl⟩
  · next lead next third =>
    unfold SecondByte at h
    obtain ⟨c, hne | hne | ⟨-, heq⟩⟩ :=
      @exists_encode ((lead.toNat - 0xf0) * 262144 + (next.toNat - 0x80) * 4096 +
        (third.toNat - 0x80) * 64) (by omega) (by omega)
    · omega
    · omega
    · refine ⟨c, ?_⟩
      rw [heq, ← eq_ofNat lead (by omega), ← eq_ofNat next (by omega), ← eq_ofNat third (by omega)]
      exact ⟨_, _, rfl⟩
  · exact h.elim

/-! ## The text before -/

theorem leadsWith_unique {lead : UInt8} : ∀ {n m : ℕ}, LeadsWith lead n → LeadsWith lead m → n = m
  | 0, m, h, h' | 1, m, h, h' | 2, m, h, h' | 3, m, h, h' => by
    match m, h' with
    | 0, h' | 1, h' | 2, h' | 3, h' =>
      simp only [LeadsWith] at h h'
      omega

/-- **A character is where it begins**: no other has its bytes before others. -/
theorem encode_append_inj {c' : Char}
    (h : utf8EncodeChar c ++ xs = utf8EncodeChar c' ++ ys) : xs = ys := by
  obtain ⟨lead, rest, heq, hlead, -⟩ := utf8EncodeChar_eq c
  obtain ⟨lead', rest', heq', hlead', -⟩ := utf8EncodeChar_eq c'
  rw [heq, heq', cons_append, cons_append] at h
  obtain ⟨rfl, hrest⟩ := cons.inj h
  exact (append_inj hrest (leadsWith_unique hlead hlead')).2

/-- **A text before bytes can be forgotten.** -/
theorem isUtf8_append_iff : IsUtf8 (bytes text ++ xs) ↔ IsUtf8 xs := by
  constructor
  · rintro ⟨whole, hwh⟩
    induction text generalizing whole with
    | nil => exact ⟨whole, hwh⟩
    | cons c text ih =>
      rw [bytes_cons, append_assoc] at hwh
      cases whole with
      | nil =>
        have hlen := congrArg length hwh
        have := length_utf8EncodeChar c
        have hpos := c.utf8Size_pos
        simp only [bytes_nil, length_nil, length_append] at hlen
        omega
      | cons c' whole =>
        exact ih whole (encode_append_inj hwh)
  · rintro ⟨rest, rfl⟩
    exact ⟨text ++ rest, bytes_append⟩

theorem isUtf8Prefix_append_iff : IsUtf8Prefix (bytes text ++ xs) ↔ IsUtf8Prefix xs := by
  unfold IsUtf8Prefix
  simp only [append_assoc, isUtf8_append_iff]

theorem IsUtf8Prefix.of_prefix (h : IsUtf8Prefix ys) (hle : xs <+: ys) : IsUtf8Prefix xs := by
  obtain ⟨more, rfl⟩ := hle
  obtain ⟨rest, hrest⟩ := h
  exact ⟨more ++ rest, by rwa [← append_assoc]⟩

theorem IsUtf8.isUtf8Prefix (h : IsUtf8 xs) : IsUtf8Prefix xs :=
  ⟨[], by rwa [append_nil]⟩

theorem StartsChar.ne_nil (h : StartsChar part) : part ≠ [] := by
  rintro rfl
  exact h

theorem StartsChar.length_le (h : StartsChar part) : part.length ≤ 3 := by
  unfold StartsChar at h
  split at h
  · simp
  · simp
  · simp
  · exact h.elim

/-- Less than a character is no text. -/
theorem not_isUtf8_of_encode {more : List UInt8} (hne : part ≠ []) (hmore : more ≠ [])
    (h : utf8EncodeChar c = part ++ more) : ¬ IsUtf8 part := by
  rintro ⟨text, rfl⟩
  cases text with
  | nil => exact hne rfl
  | cons c' text =>
    rw [bytes_cons, append_assoc, ← append_nil (utf8EncodeChar c)] at h
    have hrest := encode_append_inj h
    exact hmore (append_eq_nil_iff.1 hrest.symm).2

/-- **Bytes that begin a text** are a text and, if more is to come, the
beginning of a character. -/
theorem IsUtf8Prefix.split (h : IsUtf8Prefix bs) :
    ∃ text part, bs = bytes text ++ part ∧ (part = [] ∨ StartsChar part) := by
  obtain ⟨rest, whole, hwh⟩ := h
  induction whole generalizing bs with
  | nil =>
    obtain ⟨rfl, -⟩ := append_eq_nil_iff.1 hwh.symm
    exact ⟨[], [], rfl, .inl rfl⟩
  | cons c whole ih =>
    obtain ⟨bs', rfl, hrest⟩ | ⟨more, heq, hmore⟩ := append_eq_append_iff.1 hwh
    · obtain ⟨text, part, rfl, hpart⟩ := ih hrest
      exact ⟨c :: text, part, by rw [bytes_cons, append_assoc], hpart⟩
    · by_cases hnil : bs = []
      · exact ⟨[], [], hnil, .inl rfl⟩
      · by_cases hwh : bs = utf8EncodeChar c
        · exact ⟨[c], [], by rw [hwh, bytes_cons]; simp, .inl rfl⟩
        · exact ⟨[], bs, rfl, .inr (startsChar_of_encode hnil ⟨more, heq.symm⟩ hwh)⟩

/-! ## The check -/

/-- **What the check says of the beginning of a text.** -/
theorem fromUtf8_append (h : part = [] ∨ StartsChar part) : fromUtf8 (bytes text ++ part) =
      if part = [] then .valid else .incomplete (bytes text).length := by
  have hgreatest : findGreatest (fun i => IsUtf8 ((bytes text ++ part).take i))
      (bytes text ++ part).length = (bytes text).length := by
    refine findGreatest_eq_iff.2 ⟨by simp, fun _ => ⟨text, by rw [take_left]⟩, ?_⟩
    intro k hlt hle hutf8
    rw [take_append, take_of_length_le (by omega), isUtf8_append_iff] at hutf8
    rw [length_append] at hle
    obtain rfl | hsts := h
    · simp at hle
      omega
    · obtain ⟨c, byte, more, heq⟩ := exists_more_of_startsChar hsts
      set j := k - (bytes text).length with hj
      have hne : part.take j ≠ [] := by
        intro hnil
        have := congrArg length hnil
        rw [length_take, length_nil] at this
        omega
      have hmore : part.drop j ++ byte :: more ≠ [] := by simp
      refine not_isUtf8_of_encode (c := c) hne hmore ?_ hutf8
      rw [heq, ← append_assoc, take_append_drop]
  unfold fromUtf8
  dsimp only
  rw [hgreatest, drop_left, length_append]
  obtain rfl | hsts := h
  · simp
  · have hpos := length_pos_of_ne_nil hsts.ne_nil
    rw [if_neg (by omega), if_pos hsts, if_neg hsts.ne_nil]

/-- **The check finds an error** just where the bytes begin no text. -/
theorem fromUtf8_eq_invalid_iff : fromUtf8 bs = .invalid ↔ ¬ IsUtf8Prefix bs := by
  constructor
  · intro hinvalid hbegin
    obtain ⟨text, part, rfl, hpart⟩ := hbegin.split
    rw [fromUtf8_append hpart] at hinvalid
    split at hinvalid <;> cases hinvalid
  · intro hnot
    set v := findGreatest (fun i => IsUtf8 (bs.take i)) bs.length with hv
    have hvalid : IsUtf8 (bs.take v) :=
      findGreatest_spec (P := fun i => IsUtf8 (bs.take i)) (zero_le _) ⟨[], by simp⟩
    have hlen : v ≠ bs.length := by
      intro heq
      rw [heq, take_length] at hvalid
      exact hnot hvalid.isUtf8Prefix
    have hsts : ¬ StartsChar (bs.drop v) := by
      intro hsts
      obtain ⟨c, byte, more, heq⟩ := exists_more_of_startsChar hsts
      obtain ⟨text, htext⟩ := hvalid
      apply hnot
      rw [← take_append_drop v bs, ← htext, isUtf8Prefix_append_iff]
      exact ⟨byte :: more, [c], by rw [bytes_cons, bytes_nil, append_nil, heq]⟩
    unfold fromUtf8
    rw [← hv, if_neg hlen, if_neg hsts]

instance (bs : List UInt8) : Decidable (IsUtf8Prefix bs) :=
  decidable_of_iff (fromUtf8 bs ≠ .invalid) (by rw [ne_eq, fromUtf8_eq_invalid_iff, not_not])

end Utf8

end Remux
