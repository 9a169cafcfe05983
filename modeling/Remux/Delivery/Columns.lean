import Remux.Delivery.Model.Row
import Mathlib.Algebra.Order.BigOperators.Group.List
import Mathlib.Data.Nat.Digits.Lemmas

/-!
# What fits in a column

A character takes at most six bytes in a JSON text for each of its UTF-16
units, so what is cut to so many units fits in a column. A bounded error
fits (`boundedDeliveryError_fits`), a detail of the recovery column fits
(`recoveryDetail_fits`), and the rejection of a response fits unless its
code is a long one (`refusal_fits`).
-/

namespace Remux

open Value List String Nat

variable {text text' : List Char} {c : Char} {n : ℕ} {es fs : Entries} {value : Value}

@[simp] theorem charBytes_nil : charBytes [] = 0 := rfl

@[simp] theorem charBytes_cons : charBytes (c :: text) = c.utf8Size + charBytes text := by
  rw [charBytes, map_cons, sum_cons, charBytes]

@[simp] theorem charBytes_append :
    charBytes (text ++ text') = charBytes text + charBytes text' := by
  rw [charBytes, map_append, sum_append_nat, charBytes, charBytes]

theorem one_le_utf16Units : 1 ≤ utf16Units c := by
  unfold utf16Units
  split <;> omega

theorem utf8Size_digitChar (h : n < 16) : (digitChar n).utf8Size = 1 := by
  have hall : ∀ n < 16, (digitChar n).utf8Size = 1 := by decide
  exact hall n h

theorem charBytes_hexByte (byte : UInt8) : charBytes (hexByte byte) = 2 := by
  have hlt := byte.toNat_lt
  rw [hexByte, charBytes_cons, charBytes_cons, charBytes_nil,
    utf8Size_digitChar (by omega), utf8Size_digitChar (by omega)]

/-- A character inside a string literal. -/
theorem charBytes_escapeChar : charBytes (escapeChar c) ≤ 6 := by
  unfold escapeChar
  split_ifs
  iterate 7 exact by decide
  · rw [charBytes_append, charBytes_hexByte]
    decide
  · have hsize := c.utf8Size_le_four
    rw [charBytes_cons, charBytes_nil]
    omega

/-- A string takes six bytes a unit at most. -/
theorem charBytes_flatMap_escapeChar :
    charBytes (text.flatMap escapeChar) ≤ 6 * (text.map utf16Units).sum := by
  induction text with
  | nil => exact le_rfl
  | cons c text ih =>
    have hc := @charBytes_escapeChar c
    have hunits := @one_le_utf16Units c
    rw [flatMap_cons, charBytes_append, map_cons, sum_cons]
    omega

variable (s : String)

/-- **A text in JSON**, by its UTF-16 units. -/
theorem charBytes_quote : charBytes (quote s) ≤ 6 * utf16Length s + 2 := by
  have hbody := @charBytes_flatMap_escapeChar s.toList
  have hquote : Char.utf8Size '"' = 1 := by decide
  rw [quote, charBytes_append, charBytes_cons, charBytes_cons, charBytes_nil, hquote, utf16Length]
  omega

theorem jsonBytes_string : jsonBytes (.string s) ≤ 6 * utf16Length s + 2 := by
  exact charBytes_quote s

theorem jsonBytes_bool (b : Bool) : jsonBytes (.bool b) ≤ 5 := by
  cases b <;> decide

/-- What is cut to `n` units has no more. -/
theorem takeUnits_sum_le : ((takeUnits n text).map utf16Units).sum ≤ n := by
  induction text generalizing n with
  | nil => exact zero_le n
  | cons c text ih =>
    unfold takeUnits
    split
    · next hle =>
      have hrest := @ih (n - utf16Units c)
      rw [map_cons, sum_cons]
      omega
    · exact zero_le n

/-- What a text is cut to. -/
theorem utf16Length_sliceText (n : ℕ) (s : String) : utf16Length (sliceText n s) ≤ n := by
  rw [utf16Length, sliceText, toList_ofList]
  exact takeUnits_sum_le

/-! ## Objects -/

/-- A bound on the bytes of the entries of an object. -/
def entriesBytes (es : Entries) : ℕ :=
  (es.map fun e => charBytes (quote e.1) + jsonBytes e.2 + 2).sum

theorem entriesBytes_append : entriesBytes (es ++ fs) = entriesBytes es + entriesBytes fs := by
  rw [entriesBytes, map_append, sum_append_nat, entriesBytes, entriesBytes]

variable {key : String} {detail : Entries} {error : ProviderDeliveryError}
variable {evidence : ProviderRejectionEvidence}

theorem entriesBytes_cons : entriesBytes ((key, value) :: es) =
      charBytes (quote key) + jsonBytes value + 2 + entriesBytes es := by
  rw [entriesBytes, map_cons, sum_cons, entriesBytes]

@[simp] theorem entriesBytes_nil : entriesBytes [] = 0 := rfl

/-- The text of an object is no longer than what is counted for it. -/
theorem charBytes_textEntries : charBytes (textEntries (fun _ => []) es) ≤ entriesBytes es := by
  have hcolon : Char.utf8Size ':' = 1 := by decide
  have hcomma : Char.utf8Size ',' = 1 := by decide
  induction es with
  | nil => exact le_rfl
  | cons e es ih =>
    obtain ⟨key, value⟩ := e
    cases es with
    | nil =>
      rw [textEntries, entriesBytes_cons, charBytes_append, charBytes_cons, hcolon]
      have hval : charBytes (value.text fun _ => []) = jsonBytes value := rfl
      omega
    | cons e es =>
      rw [textEntries, entriesBytes_cons, charBytes_append, charBytes_cons,
        charBytes_append, charBytes_cons, hcolon, hcomma]
      · have hval : charBytes (value.text fun _ => []) = jsonBytes value := rfl
        omega
      · rintro ⟨⟩

theorem jsonBytes_object : jsonBytes (.object es) ≤ entriesBytes es + 2 := by
  have hbody := @charBytes_textEntries es
  have hopen : Char.utf8Size '\x7b' = 1 := by decide
  have hclose : Char.utf8Size '\x7d' = 1 := by decide
  rw [jsonBytes, text, charBytes_cons, charBytes_append, charBytes_cons, charBytes_nil,
    hopen, hclose]
  omega

theorem entriesBytes_optionalEntry {value : Option Value} {m : ℕ}
    (h : ∀ v ∈ value, jsonBytes v ≤ m) :

    entriesBytes (optionalEntry key value) ≤ charBytes (quote key) + m + 2 := by
  cases value with
  | none => exact zero_le _
  | some v =>
    have hv := h v rfl
    rw [optionalEntry, Option.toList_some, map_singleton, entriesBytes_cons, entriesBytes_nil]
    omega

/-- A bounded error is short. -/
theorem boundedDeliveryError_bytes (record : Entries) :
    jsonBytes (.object (boundedDeliveryError record)) ≤ 60000 := by
  refine jsonBytes_object.trans ?_
  have hslice : ∀ n s, jsonBytes (.string (sliceText n s)) ≤ 6 * n + 2 := fun n s =>
    (jsonBytes_string _).trans (by have := utf16Length_sliceText n s; omega)
  have hcode : ∀ code : Option String, jsonBytes
      (.string ((code.map (sliceText 256)).getD "provider_delivery_failed")) ≤ 6 * 256 + 2
    | some code => hslice 256 code
    | none => by decide
  have htruncated : ∀ c : Prop, ∀ _ : Decidable c,
      entriesBytes (optionalEntry "truncated" (if c then some (.bool true) else none)) ≤ 18 :=
    fun c _ => (entriesBytes_optionalEntry (m := 5) fun v hv => by
      split at hv
      · cases hv
        exact jsonBytes_bool true
      · cases hv).trans (by decide)
  have hretryable : ∀ b : Option Bool,
      entriesBytes (optionalEntry "retryable" (b.map .bool)) ≤ 18 :=
    fun b => (entriesBytes_optionalEntry (m := 5) fun v hv => by
      obtain ⟨b, -, rfl⟩ := Option.map_eq_some_iff.1 hv
      exact jsonBytes_bool b).trans (by decide)
  have hviolation : ∀ s : Option String, entriesBytes (optionalEntry "boundaryViolation"
        (s.map fun text => .string (sliceText 256 text))) ≤ 1559 :=
    fun s => (entriesBytes_optionalEntry (m := 1538) fun v hv => by
      obtain ⟨s, -, rfl⟩ := Option.map_eq_some_iff.1 hv
      exact hslice 256 s).trans (by decide)
  have hkeys : charBytes (quote "code") + charBytes (quote "message") ≤ 15 := by decide
  have hmsg := hslice 8192 (((record.lookup "message").bind asStr).getD "[object Object]")
  have h₀ := hcode ((record.lookup "code").bind asStr)
  have h₁ := htruncated (utf16Length (sliceText 8192
      (((record.lookup "message").bind asStr).getD "[object Object]")) <
      utf16Length (((record.lookup "message").bind asStr).getD "[object Object]"))
    inferInstance
  have h₂ := hretryable ((record.lookup "retryable").bind asBool)
  have h₃ := hviolation (((record.lookup "boundaryViolation").bind asStr).filter (· ≠ ""))
  simp only [boundedDeliveryError, entriesBytes_append, entriesBytes_cons, entriesBytes_nil]
  omega

/-- **A bounded error fits in a column.** -/
theorem boundedDeliveryError_fits (record : Entries) :
    jsonBytes (.object (boundedDeliveryError record)) ≤ maxColumnBytes :=
  (boundedDeliveryError_bytes record).trans (by decide)

/-- **A detail of the recovery column fits**: it is checked, or it gives way
to a bounded error. -/
theorem recoveryDetail_fits (a : DeliveryAttempt) :
    jsonBytes (.object (a.recoveryDetail detail)) ≤ maxColumnBytes := by
  unfold DeliveryAttempt.recoveryDetail
  extract_lets encoded
  split
  · next hle => exact hle
  · refine jsonBytes_object.trans ?_
    have hkeys : charBytes (quote "truncated") + charBytes (quote "latest") ≤ 19 := by decide
    have hbool := jsonBytes_bool true
    have hlatest := boundedDeliveryError_bytes detail
    rw [entriesBytes_cons, entriesBytes_cons, entriesBytes_nil, maxColumnBytes]
    omega

/-! ## The rejection of a response -/

/-- A character has at least as many bytes as units. -/
theorem utf16Units_le_utf8Size : utf16Units c ≤ c.utf8Size := by
  unfold utf16Units
  split
  · exact c.utf8Size_pos
  · next hlt =>
    have hc : 65536 ≤ c.val.toNat := Nat.le_of_not_lt hlt
    simp only [Char.utf8Size, UInt32.le_iff_toNat_le]
    rw [if_neg, if_neg, if_neg]
    · omega
    all_goals
      simp only [UInt32.toNat_ofNatLT]
      omega

theorem utf8ByteSize_ofList (text : List Char) : (ofList text).utf8ByteSize = charBytes text := by
  induction text with
  | nil => rfl
  | cons c text ih =>
    rw [← singleton_append, ofList_append, utf8ByteSize_append, ih,
      charBytes_append, charBytes_cons, charBytes_nil, ← singleton_eq_ofList,
      utf8ByteSize_singleton, add_zero]

theorem utf16Length_le : utf16Length s ≤ s.utf8ByteSize := by
  rw [← ofList_toList (s := s), utf8ByteSize_ofList, utf16Length, toList_ofList, charBytes]
  exact sum_le_sum fun c _ => utf16Units_le_utf8Size

theorem charBytes_le_length : charBytes text ≤ 4 * text.length := by
  induction text with
  | nil => exact le_rfl
  | cons c text ih =>
    have hc := c.utf8Size_le_four
    rw [charBytes_cons, length_cons]
    omega

theorem charBytes_repr (h : n < 10 ^ 20) : charBytes n.repr.toList ≤ 80 := by
  have hlen : n.repr.toList.length ≤ 20 := repr_length n 20 (by decide) h
  have hbytes := @charBytes_le_length n.repr.toList
  omega

/-- A whole number of 64 bits. -/
theorem jsonBytes_jsonInteger (n : ℤ) : jsonBytes (jsonInteger n) ≤ 84 := by
  unfold jsonInteger
  split
  · have hle := (Int64.ofInt n).le_toInt
    have hlt := (Int64.ofInt n).toInt_lt
    rw [jsonBytes, text, Number.text]
    cases hi : (Int64.ofInt n).toInt with
    | ofNat m =>
      rw [hi, Int.ofNat_eq_natCast] at hlt
      exact (charBytes_repr (by omega)).trans (by decide)
    | negSucc m =>
      have hrepr := @charBytes_repr (m + 1) (by omega)
      have hminus : Char.utf8Size '-' = 1 := by decide
      rw [Int.repr, toList_append, charBytes_append]
      refine (Nat.add_le_add_left hrepr _).trans ?_
      decide
  · have hlt := (UInt64.ofNat n.toNat).toNat_lt
    exact (charBytes_repr (by omega)).trans (by decide)

/-- A spread of new keys appends them. -/
theorem spread_of_disjoint {prev : Entries}
    (h : ∀ entry ∈ prev, ∀ entry' ∈ detail, entry.1 ≠ entry'.1) :
    spread prev detail = prev ++ detail := by
  unfold spread
  congr 1
  · conv_rhs => rw [← map_id prev]
    refine map_congr_left fun entry hmem => ?_
    have hnone : detail.lookup entry.1 = none := by
      rw [lookup_eq_none_iff]
      intro entry' hmem'
      simpa using h entry hmem entry' hmem'
    rw [hnone, Option.getD_none]
    rfl
  · rw [filter_eq_self]
    intro entry' hmem'
    simp only [Bool.not_eq_true', any_eq_false, beq_iff_eq]
    exact fun entry hmem => h entry hmem entry' hmem'

/-- A refusal is its error, with the evidence after it. -/
theorem refusalEntries_eq : refusalEntries error evidence =
      error.toEntries ++ [("evidence", .object evidence.toEntries)] := by
  refine spread_of_disjoint fun entry hmem entry' hmem' => ?_
  rw [mem_singleton] at hmem'
  subst hmem'
  rcases mem_append.1 hmem with hmem | hmem
  · simp only [mem_cons, not_mem_nil, or_false] at hmem
    rcases hmem with rfl | rfl
    · exact fun h => absurd h (by decide : "code" ≠ "evidence")
    · exact fun h => absurd h (by decide : "message" ≠ "evidence")
  · obtain ⟨value, -, rfl⟩ := mem_map.1 hmem
    exact fun h => absurd h (by decide : "retryable" ≠ "evidence")

/-- The evidence of a rejection, by the thread it names. -/
theorem evidence_bytes (hthr : utf16Length evidence.threadId ≤ 512) :
    jsonBytes (.object evidence.toEntries) ≤ 4000 := by
  refine jsonBytes_object.trans ?_
  have hthreadBytes := jsonBytes_string evidence.threadId
  have hkind : jsonBytes (.string "codex-active-compact-rejection") ≤ 40 := by decide
  have hsrc : ∀ source : RejectionSource, jsonBytes (.string source.text) ≤ 40
    | .rpcResponse => by decide
    | .legacyRecordedResponse => by decide
  have hsourceBytes := hsrc evidence.source
  have hcode := jsonBytes_jsonInteger (-32603)
  have hreq : entriesBytes (optionalEntry "requestId" (evidence.requestId.map jsonInteger)) ≤ 100 :=
    (entriesBytes_optionalEntry (m := 84) fun v hv => by
      obtain ⟨n, -, rfl⟩ := Option.map_eq_some_iff.1 hv
      exact jsonBytes_jsonInteger n).trans (by decide)
  have hkeys : charBytes (quote "kind") + charBytes (quote "threadId") +
      charBytes (quote "nativeCode") + charBytes (quote "source") ≤ 50 := by decide
  rw [ProviderRejectionEvidence.toEntries]
  simp only [entriesBytes_append, entriesBytes_cons, entriesBytes_nil]
  omega

/-- **The rejection of a response fits**, unless its code is a long one. -/
theorem refusal_fits (hcode : utf16Length error.code ≤ 256)
    (hmsg : error.message = codexActiveCompactRejection)
    (hthr : utf16Length evidence.threadId ≤ 512) :
    jsonBytes (.object (refusalEntries error evidence)) ≤ maxColumnBytes := by
  refine jsonBytes_object.trans ?_
  have hcodeBytes := jsonBytes_string error.code
  have hmessageBytes : jsonBytes (.string error.message) ≤ 1000 := by
    rw [hmsg]
    decide +kernel
  have hretryable : entriesBytes (optionalEntry "retryable" (error.retryable.map .bool)) ≤ 18 :=
    (entriesBytes_optionalEntry (m := 5) fun v hv => by
      obtain ⟨b, -, rfl⟩ := Option.map_eq_some_iff.1 hv
      exact jsonBytes_bool b).trans (by decide)
  have hev := evidence_bytes hthr
  have hkeys : charBytes (quote "code") + charBytes (quote "message") +
      charBytes (quote "evidence") ≤ 30 := by decide
  rw [refusalEntries_eq, ProviderDeliveryError.toEntries]
  simp only [entriesBytes_append, entriesBytes_cons, entriesBytes_nil, maxColumnBytes]
  omega

end Remux
