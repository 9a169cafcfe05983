import Remux.Json.Model.Text
import Std.Data.String.ToInt

/-!
# The text determines the value

Two values with one compact text are the same value. The text of a value
can be cancelled from the front of a longer one (`text_cancel`): its
first character tells its kind, a string ends at its quote, and a number
at the first character that is not part of one.

Of the printing of doubles three things are needed (`PrintsDoubles`).
-/

namespace Remux

open List Nat Number

/-- A character a number is written with. -/
def numeralChar (c : Char) : Bool :=
  c.isDigit || c = '-' || c = '+' || c = '.' || c = 'e'

/-- **What is relied on of the printing of doubles**: it uses the
characters of a number, among them a point or an exponent, and tells
doubles apart. -/
structure PrintsDoubles (floatText : Double → List Char) : Prop where
  numeral : ∀ double, ∀ c ∈ floatText double, numeralChar c
  fractional : ∀ double, ∃ c ∈ floatText double, c = '.' ∨ c = 'e'
  injective : Function.Injective floatText

/-! ## String literals -/

theorem digitChar_inj : ∀ m < 16, ∀ n < 16, digitChar m = digitChar n → m = n := by
  decide

theorem hexByte_inj {a b : UInt8} (h : hexByte a = hexByte b) : a = b := by
  simp only [hexByte, cons.injEq, and_true] at h
  have ha := a.toNat_lt
  have hb := b.toNat_lt
  have hhigh := digitChar_inj _ (by omega) _ (by omega) h.1
  have hlow := digitChar_inj _ (by omega) _ (by omega) h.2
  exact UInt8.toNat_inj.1 (by omega)

/-- The escape of a character: none, or a backslash with a letter or the
number of the character. -/
theorem escapeChar_cases (c : Char) : (escapeChar c = [c] ∧ c ≠ '"' ∧ c ≠ '\\') ∨
      (∃ d, escapeChar c = ['\\', d] ∧ d ≠ 'u' ∧
        (c, d) ∈ [('"', '"'), ('\\', '\\'), (Char.ofNat 8, 'b'), (Char.ofNat 9, 't'),
          (Char.ofNat 10, 'n'), (Char.ofNat 12, 'f'), (Char.ofNat 13, 'r')]) ∨
      (c.toNat < 32 ∧ escapeChar c = ['\\', 'u', '0', '0'] ++ hexByte c.toNat.toUInt8) := by
  have hof : ∀ n, c.toNat = n → c = Char.ofNat n := fun n h => by rw [← h, Char.ofNat_toNat]
  unfold escapeChar
  split
  · next h => exact .inr (.inl ⟨'"', rfl, by decide, by simp [h]⟩)
  split
  · next h => exact .inr (.inl ⟨'\\', rfl, by decide, by simp [h]⟩)
  split
  · next h => exact .inr (.inl ⟨'b', rfl, by decide, by simp [hof _ h]⟩)
  split
  · next h => exact .inr (.inl ⟨'t', rfl, by decide, by simp [hof _ h]⟩)
  split
  · next h => exact .inr (.inl ⟨'n', rfl, by decide, by simp [hof _ h]⟩)
  split
  · next h => exact .inr (.inl ⟨'f', rfl, by decide, by simp [hof _ h]⟩)
  split
  · next h => exact .inr (.inl ⟨'r', rfl, by decide, by simp [hof _ h]⟩)
  split
  · next h => exact .inr (.inr ⟨h, rfl⟩)
  · next hquote hslash _ _ _ _ _ _ => exact .inl ⟨rfl, hquote, hslash⟩

variable {c d : Char} {r s : List Char} {n m : Number}

/-- Escapes can be cancelled. -/
theorem escapeChar_cancel (h : escapeChar c ++ r = escapeChar d ++ s) : c = d ∧ r = s := by
  obtain ⟨hc, -, hc'⟩ | ⟨x, hc, hx, hc'⟩ | ⟨hc', hc⟩ := escapeChar_cases c <;>
  obtain ⟨hd, -, hd'⟩ | ⟨y, hd, hy, hd'⟩ | ⟨hd', hd⟩ := escapeChar_cases d <;>
  rw [hc, hd] at h <;> simp only [cons_append, nil_append, cons.injEq] at h
  · exact h
  · exact absurd h.1 hc'
  · exact absurd h.1 hc'
  · exact absurd h.1.symm hd'
  · obtain ⟨-, rfl, rfl⟩ := h
    refine ⟨?_, rfl⟩
    simp only [mem_cons, Prod.mk.injEq, not_mem_nil, or_false] at hc' hd'
    rcases hc' with h | h | h | h | h | h | h <;>
      rcases hd' with h' | h' | h' | h' | h' | h' | h' <;>
      first | exact h.1.trans h'.1.symm | exact absurd (h.2.symm.trans h'.2) (by decide)
  · exact absurd h.2.1 hx
  · exact absurd h.1.symm hd'
  · exact absurd h.2.1.symm hy
  · obtain ⟨hbyte, hrest⟩ := append_inj h.2.2.2.2 rfl
    have hbyte := congrArg UInt8.toNat (hexByte_inj hbyte)
    simp only [toUInt8_eq, UInt8.toNat_ofNat'] at hbyte
    exact ⟨Char.toNat_inj.1 (by omega), hrest⟩

theorem escapeChar_head (h : escapeChar c ++ r = d :: s) : d ≠ '"' := by
  rintro rfl
  obtain ⟨hc, hne, -⟩ | ⟨x, hc, -, -⟩ | ⟨-, hc⟩ := escapeChar_cases c <;> rw [hc] at h <;>
    simp only [cons_append, nil_append, cons.injEq] at h
  · exact hne h.1
  all_goals exact absurd h.1 (by decide)

/-- The text of a string ends where its quote is. -/
theorem flatMap_escapeChar_cancel : ∀ {cs ds : List Char} {r s : List Char},
    cs.flatMap escapeChar ++ '"' :: r = ds.flatMap escapeChar ++ '"' :: s → cs = ds ∧ r = s
  | [], [], r, s, h => ⟨rfl, (cons.inj h).2⟩
  | [], d :: ds, r, s, h => by
    rw [flatMap_cons, append_assoc] at h
    exact absurd rfl (escapeChar_head h.symm)
  | c :: cs, [], r, s, h => by
    rw [flatMap_cons, append_assoc] at h
    exact absurd rfl (escapeChar_head h)
  | c :: cs, d :: ds, r, s, h => by
    rw [flatMap_cons, flatMap_cons, append_assoc, append_assoc] at h
    obtain ⟨hcd, hrest⟩ := escapeChar_cancel h
    obtain ⟨hcs, hrs⟩ := flatMap_escapeChar_cancel hrest
    exact ⟨by rw [hcd, hcs], hrs⟩

/-- A string literal can be cancelled. -/
theorem quote_cancel {k l : String} (h : quote k ++ r = quote l ++ s) : k = l ∧ r = s := by
  simp only [quote, cons_append, append_assoc, nil_append, cons.injEq, true_and] at h
  obtain ⟨hkl, hrest⟩ := flatMap_escapeChar_cancel h
  exact ⟨String.toList_inj.1 hkl, hrest⟩

/-! ## Numbers -/

/-- What follows a number: nothing, or a character that is not part of
one. -/
def Delimited (r : List Char) : Prop := ∀ c ∈ r.head?, numeralChar c = false

/-- Words of numeral characters can be cancelled where they end. -/
theorem numeral_cancel : ∀ {xs ys r s : List Char}, (∀ c ∈ xs, numeralChar c) →
    (∀ c ∈ ys, numeralChar c) → Delimited r → Delimited s → xs ++ r = ys ++ s → xs = ys ∧ r = s
  | [], [], r, s, _, _, _, _, h => ⟨rfl, h⟩
  | [], y :: ys, r, s, _, hys, hr, _, h => by
    subst h
    exact absurd (hys y (by simp)) (by simp [hr y (by simp)])
  | x :: xs, [], r, s, hxs, _, _, hs, h => by
    subst h
    exact absurd (hxs x (by simp)) (by simp [hs x (by simp)])
  | x :: xs, y :: ys, r, s, hxs, hys, hr, hs, h => by
    rw [cons_append, cons_append, cons.injEq] at h
    obtain ⟨hxy, hrest⟩ := numeral_cancel (fun c hc => hxs c (mem_cons_of_mem _ hc))
      (fun c hc => hys c (mem_cons_of_mem _ hc)) hr hs h.2
    exact ⟨by rw [h.1, hxy], hrest⟩

theorem numeralChar_of_isDigit (h : c.isDigit = true) : numeralChar c := by
  simp [numeralChar, h]

theorem isDigit_of_mem_repr {n : ℕ} (h : c ∈ n.repr.toList) : c.isDigit = true := by
  rw [toList_repr] at h
  exact isDigit_of_mem_toDigits (by decide) (by decide) h

/-- A negative integer is a minus and the digits of its absolute value. -/
theorem toList_repr_neg {n : ℤ} (h : n < 0) : n.repr.toList = '-' :: n.natAbs.repr.toList := by
  cases n with
  | ofNat n => simp at h; omega
  | negSucc n => simp [Int.repr, Int.natAbs_negSucc]

variable {floatText : Double → List Char}

/-- The text of a number has numerals only. -/
theorem Number.numeral_text (hfl : PrintsDoubles floatText) (n : Number) :
    ∀ c ∈ n.text floatText, numeralChar c := by
  intro c hc
  cases n with
  | posInt n => exact numeralChar_of_isDigit (isDigit_of_mem_repr hc)
  | negInt n =>
    have hneg : n.val.toInt < 0 := Int64.lt_iff_toInt_lt.1 n.2
    rw [text, toList_repr_neg hneg] at hc
    obtain rfl | hc := mem_cons.1 hc
    · rfl
    · exact numeralChar_of_isDigit (isDigit_of_mem_repr hc)
  | float double => exact hfl.numeral double c hc

/-- An integer is written with digits and a sign. -/
theorem Number.integer_text (hint : ∀ double, n ≠ float double) :
    ∀ c ∈ n.text floatText, c ≠ '.' ∧ c ≠ 'e' := by
  have hdigit : ∀ c : Char, c.isDigit = true → c ≠ '.' ∧ c ≠ 'e' := by
    intro c hc
    constructor <;> rintro rfl <;> exact absurd hc (by decide)
  intro c hc
  cases n with
  | posInt n => exact hdigit c (isDigit_of_mem_repr hc)
  | negInt n =>
    have hneg : n.val.toInt < 0 := Int64.lt_iff_toInt_lt.1 n.2
    rw [text, toList_repr_neg hneg] at hc
    obtain rfl | hc := mem_cons.1 hc
    · decide
    · exact hdigit c (isDigit_of_mem_repr hc)
  | float double => exact absurd rfl (hint double)

/-- A number is told by its text. -/
theorem Number.text_inj (hfl : PrintsDoubles floatText) (h : m.text floatText = n.text floatText) :
    m = n := by
  have hmixed : ∀ (n : Number) (double : Double), (∀ double', n ≠ float double') →
      n.text floatText ≠ floatText double := by
    intro n double hint htext
    obtain ⟨c, hc, hpoint⟩ := hfl.fractional double
    rw [← htext] at hc
    obtain ⟨hne, hne'⟩ := n.integer_text hint c hc
    rcases hpoint with rfl | rfl
    · exact hne rfl
    · exact hne' rfl
  have hsign : ∀ (m : UInt64) (n : {n : Int64 // n < 0}),
      (posInt m).text floatText ≠ (negInt n).text floatText := by
    intro m n htext
    have hneg : n.val.toInt < 0 := Int64.lt_iff_toInt_lt.1 n.2
    rw [text, text, toList_repr_neg hneg] at htext
    have hminus : '-'.isDigit = true := isDigit_of_mem_repr (n := m.toNat) (by rw [htext]; simp)
    exact absurd hminus (by decide)
  cases m with
  | posInt m =>
    cases n with
    | posInt n =>
      rw [UInt64.toNat_inj.1 (repr_inj.1 (String.toList_inj.1 h))]
    | negInt n => exact absurd h (hsign m n)
    | float double => exact absurd h (hmixed _ double (by simp))
  | negInt m =>
    cases n with
    | posInt n => exact absurd h.symm (hsign n m)
    | negInt n =>
      rw [Subtype.ext (Int64.toInt_inj.1 (Int.repr_inj.1 (String.toList_inj.1 h)))]
    | float double => exact absurd h (hmixed _ double (by simp))
  | float double =>
    cases n with
    | posInt | negInt => exact absurd h.symm (hmixed _ double (by simp))
    | float double' => rw [hfl.injective h]

theorem Number.text_cancel (hfl : PrintsDoubles floatText) (hr : Delimited r) (hs : Delimited s)
    (h : m.text floatText ++ r = n.text floatText ++ s) : m = n ∧ r = s := by
  obtain ⟨htext, hrest⟩ :=
    numeral_cancel (m.numeral_text hfl) (n.numeral_text hfl) hr hs h
  exact ⟨text_inj hfl htext, hrest⟩

/-! ## Values -/

/-- The kind of a value that a first character announces; 7 is none. -/
def kindOf (c : Char) : ℕ :=
  if c = 'n' then 0 else if c = 't' then 1 else if c = 'f' then 2 else if c = '"' then 4
  else if c = '[' then 5 else if c = '\x7b' then 6 else if numeralChar c then 3 else 7

namespace Value

/-- The kind of a value; the two booleans are two kinds. -/
def kind : Value → ℕ
  | null => 0
  | bool b => if b then 1 else 2
  | number _ => 3
  | string _ => 4
  | array _ => 5
  | object _ => 6

/-- A text begins with a character of the value's kind. -/
theorem text_head (hfl : PrintsDoubles floatText) (v : Value) :
    ∃ c rest, v.text floatText = c :: rest ∧ kindOf c = v.kind := by
  cases v with
  | null | string | array | object => exact ⟨_, _, rfl, rfl⟩
  | bool b => cases b <;> exact ⟨_, _, rfl, rfl⟩
  | number n =>
    have hnumeral := n.numeral_text hfl
    cases htext : n.text floatText with
    | nil =>
      exfalso
      cases n with
      | posInt n =>
        rw [Number.text, toList_repr] at htext
        exact toDigits_ne_nil htext
      | negInt n =>
        rw [Number.text, toList_repr_neg (Int64.lt_iff_toInt_lt.1 n.2)] at htext
        cases htext
      | float double =>
        obtain ⟨c, hc, -⟩ := hfl.fractional double
        rw [Number.text] at htext
        rw [htext] at hc
        cases hc
    | cons c rest =>
      refine ⟨c, rest, htext, ?_⟩
      have hc : numeralChar c := hnumeral c (by rw [htext]; simp)
      have hne : ∀ d, numeralChar d = false → c ≠ d := by
        rintro d hd rfl
        rw [hd] at hc
        cases hc
      simp only [kindOf, kind, hc, if_true, if_neg (hne 'n' rfl), if_neg (hne 't' rfl),
        if_neg (hne 'f' rfl), if_neg (hne '"' rfl), if_neg (hne '[' rfl),
        if_neg (hne '\x7b' rfl)]

variable {v w : Value} {r s : List Char} {c : Char}

theorem kind_eq_of_text (hfl : PrintsDoubles floatText)
    (h : v.text floatText ++ r = w.text floatText ++ s) : v.kind = w.kind := by
  obtain ⟨c, vs, hv, hc⟩ := text_head hfl v
  obtain ⟨d, ws, hw, hd⟩ := text_head hfl w
  rw [hv, hw, cons_append, cons_append, cons.injEq] at h
  rw [← hc, ← hd, h.1]

theorem ne_text (hfl : PrintsDoubles floatText) (hc : kindOf c = 7) :
    c :: r ≠ v.text floatText ++ s := by
  intro h
  obtain ⟨d, rest, htext, hd⟩ := text_head hfl v
  rw [htext, cons_append, cons.injEq] at h
  rw [← h.1, hc] at hd
  cases v <;> simp only [kind] at hd <;> first | omega | (split at hd <;> omega)

theorem delimited_cons (h : numeralChar c = false) : Delimited (c :: r) := by
  intro d hd
  rw [head?_cons, Option.mem_some_iff] at hd
  rw [← hd, h]

theorem textValues_cons_cons (v w : Value) (ws : List Value) : textValues floatText (v :: w :: ws) =
      v.text floatText ++ ',' :: textValues floatText (w :: ws) := by
  rw [textValues]
  simp

mutual

/-- **The text of a value can be cancelled** where it is followed by no
character of a number. -/
theorem text_cancel (hfl : PrintsDoubles floatText) : ∀ {v w : Value} {r s : List Char},
    Delimited r → Delimited s → v.text floatText ++ r = w.text floatText ++ s → v = w ∧ r = s
  | null, w, r, s, _, _, h => by
    have hkind := kind_eq_of_text hfl h
    cases w <;> simp only [kind] at hkind <;> try omega
    · exact ⟨rfl, append_cancel_left h⟩
    · split at hkind <;> omega
  | bool b, w, r, s, _, _, h => by
    have hkind := kind_eq_of_text hfl h
    cases w <;> cases b <;> simp [kind] at hkind
    all_goals
      subst hkind
      exact ⟨rfl, append_cancel_left h⟩
  | number m, w, r, s, hr, hs, h => by
    have hkind := kind_eq_of_text hfl h
    cases w <;> simp only [kind] at hkind <;> try omega
    · split at hkind <;> omega
    · next n =>
      obtain ⟨rfl, hrest⟩ := Number.text_cancel hfl hr hs h
      exact ⟨rfl, hrest⟩
  | string k, w, r, s, _, _, h => by
    have hkind := kind_eq_of_text hfl h
    cases w <;> simp only [kind] at hkind <;> try omega
    · split at hkind <;> omega
    · next l =>
      obtain ⟨rfl, hrest⟩ := quote_cancel h
      exact ⟨rfl, hrest⟩
  | array vs, w, r, s, _, _, h => by
    have hkind := kind_eq_of_text hfl h
    cases w <;> simp only [kind] at hkind <;> try omega
    · split at hkind <;> omega
    · next ws =>
      simp only [text, cons_append, append_assoc, nil_append, cons.injEq, true_and] at h
      obtain ⟨rfl, hrest⟩ := textValues_cancel hfl h
      exact ⟨rfl, hrest⟩
  | object es, w, r, s, _, _, h => by
    have hkind := kind_eq_of_text hfl h
    cases w <;> simp only [kind] at hkind <;> try omega
    · split at hkind <;> omega
    · next fs =>
      simp only [text, cons_append, append_assoc, nil_append, cons.injEq, true_and] at h
      obtain ⟨rfl, hrest⟩ := textEntries_cancel hfl h
      exact ⟨rfl, hrest⟩

/-- The text of an array tells its values, -/
theorem textValues_cancel (hfl : PrintsDoubles floatText) :
    ∀ {vs ws : List Value} {r s : List Char},
    textValues floatText vs ++ ']' :: r = textValues floatText ws ++ ']' :: s → vs = ws ∧ r = s
  | [], [], r, s, h => ⟨rfl, (cons.inj h).2⟩
  | [], [w], r, s, h => absurd h (ne_text hfl rfl)
  | [], w :: w' :: ws, r, s, h => by
    rw [textValues_cons_cons, append_assoc] at h
    exact absurd h (ne_text hfl rfl)
  | [v], [], r, s, h => absurd h.symm (ne_text hfl rfl)
  | [v], [w], r, s, h => by
    obtain ⟨rfl, hrest⟩ := text_cancel hfl (delimited_cons rfl) (delimited_cons rfl) h
    exact ⟨rfl, (cons.inj hrest).2⟩
  | [v], w :: w' :: ws, r, s, h => by
    rw [textValues_cons_cons, append_assoc] at h
    obtain ⟨-, hrest⟩ := text_cancel hfl (delimited_cons rfl) (delimited_cons rfl) h
    exact absurd (cons.inj hrest).1 (by decide)
  | v :: v' :: vs, [], r, s, h => by
    rw [textValues_cons_cons, append_assoc] at h
    exact absurd h.symm (ne_text hfl rfl)
  | v :: v' :: vs, [w], r, s, h => by
    rw [textValues_cons_cons, append_assoc] at h
    obtain ⟨-, hrest⟩ := text_cancel hfl (delimited_cons rfl) (delimited_cons rfl) h
    exact absurd (cons.inj hrest).1 (by decide)
  | v :: v' :: vs, w :: w' :: ws, r, s, h => by
    rw [textValues_cons_cons, textValues_cons_cons, append_assoc, append_assoc] at h
    obtain ⟨hv, hrest⟩ := text_cancel hfl (delimited_cons rfl) (delimited_cons rfl) h
    obtain ⟨hvs, hrs⟩ := textValues_cancel hfl (cons.inj hrest).2
    exact ⟨by rw [hv, hvs], hrs⟩

/-- and that of an object its entries. -/
theorem textEntries_cancel (hfl : PrintsDoubles floatText) :
    ∀ {es fs : List (String × Value)} {r s : List Char},
    textEntries floatText es ++ '\x7d' :: r = textEntries floatText fs ++ '\x7d' :: s →
      es = fs ∧ r = s
  | [], [], r, s, h => ⟨rfl, (cons.inj h).2⟩
  | [], [(l, w)], r, s, h => absurd (cons.inj h).1 (by decide)
  | [], (l, w) :: f :: fs, r, s, h => absurd (cons.inj h).1 (by decide)
  | [(k, v)], [], r, s, h => absurd (cons.inj h).1 (by decide)
  | [(k, v)], [(l, w)], r, s, h => by
    rw [textEntries, textEntries, append_assoc, append_assoc] at h
    obtain ⟨hk, hrest⟩ := quote_cancel h
    obtain ⟨hv, hrest'⟩ := text_cancel hfl (delimited_cons rfl) (delimited_cons rfl)
      (cons.inj hrest).2
    exact ⟨by rw [hk, hv], (cons.inj hrest').2⟩
  | [(k, v)], (l, w) :: f :: fs, r, s, h => by
    simp only [textEntries, append_assoc, cons_append] at h
    obtain ⟨-, hrest⟩ := quote_cancel h
    obtain ⟨-, hrest'⟩ := text_cancel hfl (delimited_cons rfl) (delimited_cons rfl)
      (cons.inj hrest).2
    exact absurd (cons.inj hrest').1 (by decide)
  | (k, v) :: e :: es, [], r, s, h => absurd (cons.inj h).1 (by decide)
  | (k, v) :: e :: es, [(l, w)], r, s, h => by
    simp only [textEntries, append_assoc, cons_append] at h
    obtain ⟨-, hrest⟩ := quote_cancel h
    obtain ⟨-, hrest'⟩ := text_cancel hfl (delimited_cons rfl) (delimited_cons rfl)
      (cons.inj hrest).2
    exact absurd (cons.inj hrest').1 (by decide)
  | (k, v) :: e :: es, (l, w) :: f :: fs, r, s, h => by
    simp only [textEntries, append_assoc, cons_append] at h
    obtain ⟨hk, hrest⟩ := quote_cancel h
    obtain ⟨hv, hrest'⟩ := text_cancel hfl (delimited_cons rfl) (delimited_cons rfl)
      (cons.inj hrest).2
    obtain ⟨hes, hrs⟩ := textEntries_cancel hfl (cons.inj hrest').2
    exact ⟨by rw [hk, hv, hes], hrs⟩

end

/-- **The text determines the value.** -/
theorem text_inj (hfl : PrintsDoubles floatText) (h : v.text floatText = w.text floatText) :
    v = w :=
  (text_cancel (r := []) (s := []) hfl (by simp [Delimited]) (by simp [Delimited])
    (by rw [append_nil, append_nil, h])).1

end Value

theorem flatMap_utf8EncodeChar_inj {cs ds : List Char}
    (h : cs.flatMap String.utf8EncodeChar = ds.flatMap String.utf8EncodeChar) : cs = ds := by
  refine String.ofList_injective (String.toByteArray_inj.1 ?_)
  rw [String.toByteArray_ofList, String.toByteArray_ofList, utf8Encode, utf8Encode, h]

/-- So do the bytes of the text. -/
theorem toVec_inj (hfl : PrintsDoubles floatText) {v w : Value}
    (h : toVec floatText v = toVec floatText w) : v = w :=
  Value.text_inj hfl (flatMap_utf8EncodeChar_inj h)

/-- Printing the bits of a double as a whole number tells doubles apart,
as the printing of doubles does. -/
def bitsText (double : Double) : List Char := double.val.toNat.repr.toList ++ ['.', '0']

theorem printsDoubles_bitsText : PrintsDoubles bitsText where
  numeral double c hc := by
    obtain hc | hc := mem_append.1 hc
    · exact numeralChar_of_isDigit (isDigit_of_mem_repr hc)
    · simp only [mem_cons, not_mem_nil, or_false] at hc
      rcases hc with rfl | rfl <;> rfl
  fractional double := ⟨'.', by simp [bitsText], .inl rfl⟩
  injective double double' h :=
    Subtype.ext (UInt64.toNat_inj.1 (repr_inj.1 (String.toList_inj.1 (append_cancel_right h))))

end Remux
