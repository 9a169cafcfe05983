import Remux.Json.Text
import Remux.Common.Utf8

/-!
# The compact text is one line

The bytes `serde_json::to_vec` writes have no newline among them: inside
a string literal it is escaped, and nothing else writes one. So a reader
finds the end of a value that is followed by a newline without parsing
it.
-/

namespace Remux

open Value List

/-- The newline byte, `b'\n'`. -/
def newline : UInt8 := 10

variable {c : Char}

/-- A character that is not a newline has no newline among its bytes. -/
theorem newline_not_mem_utf8EncodeChar (h : c ≠ '\n') : newline ∉ String.utf8EncodeChar c := by
  intro hmem
  obtain ⟨lead, rest, heq, hlead, hrest⟩ := Utf8.utf8EncodeChar_eq c
  rw [heq, mem_cons] at hmem
  rcases hmem with rfl | hmem
  · -- only a character of one byte leads with so small a byte
    have hval : c.val.toNat = 10 := by
      match hn : rest.length, hlead with
      | 0, _ =>
        have hnil := length_eq_zero_iff.1 hn
        subst hnil
        unfold String.utf8EncodeChar at heq
        dsimp only at heq
        split at heq
        · next hle =>
          have hbyte := congrArg UInt8.toNat (cons.inj heq).1
          have hten : newline.toNat = 10 := rfl
          rw [UInt8.toNat_ofNat', hten] at hbyte
          omega
        · split at heq
          · exact absurd (congrArg length heq) (by simp)
          · split at heq <;> exact absurd (congrArg length heq) (by simp)
      | 1, h => exact absurd h.1 (by decide)
      | 2, h => exact absurd h.1 (by decide)
      | 3, h => exact absurd h.1 (by decide)
    exact h (Char.ext (UInt32.toNat_inj.1 hval))
  · exact absurd (hrest _ hmem) (by decide)

theorem digitChar_ne_newline : ∀ n < 16, Nat.digitChar n ≠ '\n' := by decide

theorem ne_newline_of_all {cs : List Char} (h : cs.all (· ≠ '\n') = true) : ∀ c ∈ cs, c ≠ '\n' :=
  fun c hc => of_decide_eq_true (all_eq_true.1 h c hc)

/-- No escape has a newline, -/
theorem escapeChar_ne_newline {d : Char} (hd : d ∈ escapeChar c) : d ≠ '\n' := by
  obtain ⟨hc, -, -⟩ | ⟨x, hc, -, hx⟩ | ⟨-, hc⟩ := escapeChar_cases c
  · rintro rfl
    rw [hc, mem_singleton] at hd
    subst hd
    exact absurd hc (by decide)
  · simp only [mem_cons, Prod.mk.injEq, not_mem_nil, or_false] at hx
    rw [hc] at hd
    rcases hx with h | h | h | h | h | h | h <;>
      (obtain ⟨-, rfl⟩ := h
       exact ne_newline_of_all (by decide) d hd)
  · have hlt := c.toNat.toUInt8.toNat_lt
    rw [hc] at hd
    simp only [hexByte, mem_append, mem_cons, not_mem_nil, or_false] at hd
    rcases hd with (rfl | rfl | rfl | rfl) | rfl | rfl
    · decide
    · decide
    · decide
    · decide
    all_goals exact digitChar_ne_newline _ (by omega)

theorem quote_ne_newline {s : String} (hc : c ∈ quote s) : c ≠ '\n' := by
  simp only [quote, mem_cons, mem_append, mem_flatMap, not_mem_nil, or_false, cons_append] at hc
  rcases hc with rfl | ⟨d, -, hc⟩ | rfl
  · decide
  · exact escapeChar_ne_newline hc
  · decide

variable {floatText : Double → List Char}

mutual

/-- The text of a value has no newline. -/
theorem text_ne_newline (hfl : PrintsDoubles floatText) :
    ∀ (v : Value), ∀ c ∈ v.text floatText, c ≠ '\n'
  | .null => by
    rw [text]
    exact ne_newline_of_all (by decide)
  | .bool b => by
    rw [text]
    cases b <;> exact ne_newline_of_all (by decide)
  | .number n => by
    rintro c hc rfl
    exact absurd (n.numeral_text hfl _ hc) (by decide)
  | .string s => fun c hc => quote_ne_newline hc
  | .array values => by
    intro c hc
    rw [text] at hc
    simp only [mem_cons, mem_append, not_mem_nil, or_false] at hc
    rcases hc with rfl | hc | rfl
    · decide
    · exact textValues_ne_newline hfl values c hc
    · decide
  | .object entries => by
    intro c hc
    rw [text] at hc
    simp only [mem_cons, mem_append, not_mem_nil, or_false] at hc
    rcases hc with rfl | hc | rfl
    · decide
    · exact textEntries_ne_newline hfl entries c hc
    · decide

/-- nor do the texts of the values of an array, -/
theorem textValues_ne_newline (hfl : PrintsDoubles floatText) :
    ∀ (vs : List Value), ∀ c ∈ textValues floatText vs, c ≠ '\n'
  | [] => by simp [textValues]
  | [v] => by
    exact text_ne_newline hfl v
  | v :: w :: vs => by
    intro c hc
    rw [textValues] at hc
    simp only [mem_cons, mem_append] at hc
    rcases hc with hc | rfl | hc
    · exact text_ne_newline hfl v c hc
    · decide
    · exact textValues_ne_newline hfl (w :: vs) c hc
    · simp

/-- or those of the entries of an object. -/
theorem textEntries_ne_newline (hfl : PrintsDoubles floatText) :
    ∀ (es : List (String × Value)), ∀ c ∈ textEntries floatText es, c ≠ '\n'
  | [] => by simp [textEntries]
  | [(key, v)] => by
    intro c hc
    rw [textEntries] at hc
    simp only [mem_cons, mem_append] at hc
    rcases hc with hc | rfl | hc
    · exact quote_ne_newline hc
    · decide
    · exact text_ne_newline hfl v c hc
  | (key, v) :: e :: es => by
    intro c hc
    rw [textEntries] at hc
    simp only [mem_cons, mem_append] at hc
    rcases hc with hc | rfl | hc | rfl | hc
    · exact quote_ne_newline hc
    · decide
    · exact text_ne_newline hfl v c hc
    · decide
    · exact textEntries_ne_newline hfl (e :: es) c hc
    · simp

end

/-- **The text of a value is one line.** -/
theorem newline_not_mem_toVec (hfl : PrintsDoubles floatText) (v : Value) :
    newline ∉ toVec floatText v := by
  intro hmem
  obtain ⟨c, hc, hmem⟩ := mem_flatMap.1 hmem
  exact newline_not_mem_utf8EncodeChar (text_ne_newline hfl v c hc) hmem

end Remux
