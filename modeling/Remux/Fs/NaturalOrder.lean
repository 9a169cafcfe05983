import Mathlib.Algebra.Group.Nat.Defs

/-!
# The natural order of names

`natural_compare` scans two names at once: runs of digits by their numbers,
other characters by their lowercase. Where it answers is where the pieces of
the two names first differ (`naturalCompare_eq`), so the order is the
lexicographic one of the pieces, and that of the characters behind it.
-/

namespace Remux

open Char

/-- `char::to_lowercase`: some characters for each, the digits as they are. -/
structure Lowercase where
  toLowercase : Char → List Char
  digit : ∀ {c : Char}, c.isDigit → toLowercase c = [c]
  notDigit : ∀ {c : Char}, ¬c.isDigit → ∃ d ds, toLowercase c = d :: ds ∧ ¬d.isDigit

/-- The lowercase of the ASCII letters. -/
def Lowercase.ascii : Lowercase where
  toLowercase c := if 65 ≤ c.toNat ∧ c.toNat < 91 then [ofNat (c.toNat + 32)] else [c]
  digit h := if_neg fun hupper => by
    simp only [isDigit, UInt32.le_iff_toNat_le, Bool.and_eq_true, decide_eq_true_eq] at h
    exact absurd (Nat.le_trans hupper.1 h.2) (by decide)
  notDigit {c} h := by
    have hlower : ∀ n < 91, 65 ≤ n → ¬(ofNat (n + 32)).isDigit := by decide
    split
    · next hupper => exact ⟨_, _, rfl, hlower _ hupper.2 hupper.1⟩
    · exact ⟨_, _, rfl, h⟩

/-- `parse::<u128>` of a run of digits. -/
def parseU128 (digits : List Char) : Option ℕ :=
  let value := digits.foldl (fun value c => 10 * value + (c.toNat - '0'.toNat)) 0
  if value < 2 ^ 128 then some value else none

/-- The number that a run of digits is taken for. -/
def runValue (digits : List Char) : ℕ := (parseU128 digits).getD (2 ^ 128 - 1)

theorem length_dropWhile_cons_lt {c : Char} {cs : List Char} (h : c.isDigit) :
    ((c :: cs).dropWhile isDigit).length < (c :: cs).length := by
  rw [List.dropWhile_cons_of_pos h]
  exact Nat.lt_succ_of_le (List.dropWhile_sublist _).length_le

/-- The loop of `natural_compare`, from what is left of the two names. -/
def naturalScan (lower : Lowercase) (first second : List Char) : List Char → List Char → Ordering
  | [], [] => compare first second
  | [], _ :: _ => .lt
  | _ :: _, [] => .gt
  | a :: left, b :: right =>
    if _h : a.isDigit ∧ b.isDigit then
      match compare (runValue ((a :: left).takeWhile isDigit))
        (runValue ((b :: right).takeWhile isDigit)) with
      | .eq => naturalScan lower first second ((a :: left).dropWhile isDigit)
        ((b :: right).dropWhile isDigit)
      | other => other
    else
      match compare (lower.toLowercase a) (lower.toLowercase b) with
      | .eq => naturalScan lower first second left right
      | other => other
termination_by left => left.length
decreasing_by
  · exact length_dropWhile_cons_lt _h.1
  · exact Nat.lt_succ_self _

/-- A name is its characters. -/
def naturalCompare (lower : Lowercase) (first second : List Char) : Ordering :=
  naturalScan lower first second first second

/-! ## Pieces -/

/-- A run of digits, as the digit zero and its number, or a character. -/
structure NamePiece where
  key : List Char
  value : ℕ

instance : Ord NamePiece := ⟨compareLex (compareOn NamePiece.key) (compareOn NamePiece.value)⟩

instance : Std.TransOrd NamePiece :=
  inferInstanceAs (Std.TransCmp (compareLex (compareOn NamePiece.key) (compareOn NamePiece.value)))

/-- What a name is compared by. -/
def namePieces (lower : Lowercase) : List Char → List NamePiece
  | [] => []
  | a :: left =>
    if _h : a.isDigit then ⟨['0'], runValue ((a :: left).takeWhile isDigit)⟩ ::
      namePieces lower ((a :: left).dropWhile isDigit)
    else ⟨lower.toLowercase a, 0⟩ :: namePieces lower left
termination_by left => left.length
decreasing_by
  · exact length_dropWhile_cons_lt _h
  · exact Nat.lt_succ_self _

variable {lower : Lowercase} {a b c : Char} {left right first second : List Char}

theorem compare_namePiece (p q : NamePiece) :
    compare p q = (compare p.key q.key).then (compare p.value q.value) := rfl

theorem isDigit_iff : c.isDigit ↔ '0' ≤ c ∧ c ≤ '9' := by
  simp [isDigit, le_def]

/-- All digits are on the same side of what is no digit. -/
theorem compare_digit (ha : a.isDigit) (hb : b.isDigit) (hc : ¬c.isDigit) :
    compare a c = compare b c ∧ compare a c ≠ .eq := by
  have : a < c ∧ b < c ∨ c < a ∧ c < b := by
    rw [isDigit_iff] at ha hb hc
    simp only [Char.le_def, Char.lt_def, UInt32.le_iff_toNat_le, UInt32.lt_iff_toNat_lt] at *
    omega
  rcases this with ⟨hac, hbc⟩ | ⟨hca, hcb⟩
  · simp [compare, compareOfLessAndEq, hac, hbc]
  · simp [compare, compareOfLessAndEq, Char.lt_asymm hca, Char.lt_asymm hcb,
      (Char.ne_of_lt hca).symm, (Char.ne_of_lt hcb).symm]

theorem namePieces_digit (h : a.isDigit) : namePieces lower (a :: left) =
    ⟨['0'], runValue ((a :: left).takeWhile isDigit)⟩ ::
      namePieces lower ((a :: left).dropWhile isDigit) := by
  rw [namePieces, dif_pos h]

theorem namePieces_char (h : ¬a.isDigit) : namePieces lower (a :: left) =
    ⟨lower.toLowercase a, 0⟩ :: namePieces lower left := by
  rw [namePieces, dif_neg h]

theorem compare_cons {α : Type*} [Ord α] (x y : α) (xs ys : List α) :
    compare (x :: xs) (y :: ys) = (compare x y).then (compare xs ys) :=
  List.compareLex_cons_cons

variable (lower) in
/-- A digit and what is no digit are told apart, as their pieces are. -/
theorem compare_lowercase_digit (ha : a.isDigit) (hb : ¬b.isDigit) {value value' : ℕ} :
    compare (NamePiece.mk ['0'] value) ⟨lower.toLowercase b, value'⟩ =
        compare (lower.toLowercase a) (lower.toLowercase b) ∧
      compare (lower.toLowercase a) (lower.toLowercase b) ≠ .eq := by
  obtain ⟨d, ds, hd, hnot⟩ := lower.notDigit hb
  obtain ⟨hsame, hne⟩ := compare_digit ha (show '0'.isDigit by decide) hnot
  rw [compare_namePiece, lower.digit ha, hd, compare_cons, compare_cons, ← hsame]
  revert hne
  cases compare a d with
  | eq => exact fun hne => absurd rfl hne
  | lt | gt => exact fun _ => ⟨rfl, nofun⟩

/-- Unless both are digits, two characters are compared by their
lowercase. -/
theorem compare_namePieces (h : ¬(a.isDigit ∧ b.isDigit)) :
    compare (namePieces lower (a :: left)) (namePieces lower (b :: right)) =
      (compare (lower.toLowercase a) (lower.toLowercase b)).then
        (compare (namePieces lower left) (namePieces lower right)) := by
  by_cases ha : a.isDigit
  · have hb : ¬b.isDigit := fun hb => h ⟨ha, hb⟩
    rw [namePieces_digit ha, namePieces_char hb, compare_cons]
    obtain ⟨heq, hne⟩ := compare_lowercase_digit lower ha hb
    rw [heq]
    revert hne
    cases compare (lower.toLowercase a) (lower.toLowercase b) with
    | eq => exact fun hne => absurd rfl hne
    | lt | gt => exact fun _ => rfl
  · rw [namePieces_char ha]
    by_cases hb : b.isDigit
    · rw [namePieces_digit hb, compare_cons, @Std.OrientedCmp.eq_swap _ compare]
      obtain ⟨heq, hne⟩ := compare_lowercase_digit lower hb ha
      rw [heq, @Std.OrientedCmp.eq_swap _ compare _ (lower.toLowercase a)]
      revert hne
      cases compare (lower.toLowercase b) (lower.toLowercase a) with
      | eq => exact fun hne => absurd rfl hne
      | lt | gt => exact fun _ => rfl
    · rw [namePieces_char hb, compare_cons, compare_namePiece]
      simp

/-- **The scan compares the pieces**, and the names where these are the
same. -/
theorem naturalScan_eq : naturalScan lower first second left right =
    (compare (namePieces lower left) (namePieces lower right)).then (compare first second) := by
  have cons_pieces : ∀ a left, ∃ p ps, namePieces lower (a :: left) = p :: ps := fun a left => by
    rw [namePieces]
    split <;> exact ⟨_, _, rfl⟩
  fun_induction naturalScan lower first second left right with
  | case1 => rw [namePieces]; rfl
  | case2 b right =>
    obtain ⟨p, ps, heq⟩ := cons_pieces b right
    rw [namePieces, heq]
    rfl
  | case3 a left =>
    obtain ⟨p, ps, heq⟩ := cons_pieces a left
    rw [namePieces, heq]
    rfl
  | case4 a left b right h heq ih =>
    rw [namePieces_digit h.1, namePieces_digit h.2, compare_cons, compare_namePiece, heq, ih]
    rfl
  | case5 a left b right h hne =>
    rw [namePieces_digit h.1, namePieces_digit h.2, compare_cons, compare_namePiece]
    cases heq : compare (runValue _) (runValue _) with
    | eq => exact absurd heq hne
    | lt | gt => rfl
  | case6 a left b right h heq ih => rw [compare_namePieces h, heq, ih]; rfl
  | case7 a left b right h hne =>
    rw [compare_namePieces h]
    cases heq : compare (lower.toLowercase a) (lower.toLowercase b) with
    | eq => exact absurd heq hne
    | lt | gt => rfl

instance : Std.TransCmp (naturalCompare lower) := by
  have heq : naturalCompare lower = compareLex (compareOn (namePieces lower)) compare :=
    funext fun _ => funext fun _ => naturalScan_eq
  rw [heq]
  infer_instance

/-- **The natural order is a strict total order** of all names: it is
antisymmetric and transitive, and only one and the same name is equal. -/
theorem naturalCompare_total (lower : Lowercase) :
    (∀ a b, naturalCompare lower b a = (naturalCompare lower a b).swap) ∧
    (∀ a b c, naturalCompare lower a b = .lt → naturalCompare lower b c = .lt →
      naturalCompare lower a c = .lt) ∧
    ∀ a b, naturalCompare lower a b = .eq ↔ a = b := by
  refine ⟨fun _ _ => Std.OrientedCmp.eq_swap, fun _ _ _ => Std.TransCmp.lt_trans, fun a b => ?_⟩
  rw [naturalCompare, naturalScan_eq, Ordering.then_eq_eq]
  constructor
  · exact fun h => Std.LawfulEqCmp.eq_of_compare h.2
  · rintro rfl
    exact ⟨Std.ReflCmp.compare_self, Std.ReflCmp.compare_self⟩

example : naturalCompare .ascii "File2.txt".toList "file10.txt".toList = .lt := by decide +kernel

/-- `kind_rank`: directories come first, then files and links. -/
def kindRank (kind : String) : ℕ :=
  match kind with
  | "directory" => 0
  | "file" => 1
  | "symlink" => 2
  | _ => 3

/-- `DirectoryEntry`, with what is not compared as one. -/
structure DirectoryEntry (Rest : Type*) where
  kind : String
  name : List Char
  rest : Rest

/-- `compare_entries`: by kind, then by name. -/
def compareEntries {Rest : Type*} (lower : Lowercase) (first second : DirectoryEntry Rest) :
    Ordering :=
  (compare (kindRank first.kind) (kindRank second.kind)).then
    (naturalCompare lower first.name second.name)

/-- `sort_by`, of the entries read. -/
def sortedEntries {Rest : Type*} (lower : Lowercase) (entries : List (DirectoryEntry Rest)) :
    List (DirectoryEntry Rest) :=
  entries.mergeSort fun first second => (compareEntries lower first second).isLE

/-- **A listing does not depend on the order of `readdir`**: its entries are
those read, in the order of their kinds and names, and any other order of
them, their names being distinct, gives the same listing. -/
theorem sortedEntries_canonical {Rest : Type*} (lower : Lowercase)
    (entries : List (DirectoryEntry Rest)) :
    (sortedEntries lower entries).Perm entries ∧
    (sortedEntries lower entries).Pairwise (fun a b => (compareEntries lower a b).isLE) ∧
    ((∀ a ∈ entries, ∀ b ∈ entries, a.name = b.name → a = b) → ∀ entries', entries'.Perm entries →
      sortedEntries lower entries' = sortedEntries lower entries) := by
  have hcmp : compareEntries lower = compareLex (compareOn fun entry => kindRank entry.kind)
      (compareLex (compareOn fun entry : DirectoryEntry Rest => namePieces lower entry.name)
        (compareOn (·.name))) :=
    funext fun a => funext fun b => congrArg (Ordering.then _) naturalScan_eq
  have : Std.TransCmp (@compareEntries Rest lower) := hcmp ▸ inferInstance
  have hsorted : ∀ es, (sortedEntries lower es).Pairwise fun a b : DirectoryEntry Rest =>
      (compareEntries lower a b).isLE := by
    refine List.pairwise_mergeSort (fun _ _ _ => Std.TransCmp.isLE_trans) fun a b => ?_
    rw [@Std.OrientedCmp.eq_swap _ (compareEntries lower) _ b]
    cases compareEntries lower a b <;> rfl
  have hperm : ∀ es : List (DirectoryEntry Rest), (sortedEntries lower es).Perm es :=
    fun es => List.mergeSort_perm ..
  refine ⟨hperm entries, hsorted entries, fun hnames entries' hread => ?_⟩
  have hsame := (hperm entries').trans (hread.trans (hperm entries).symm)
  refine hsame.eq_of_pairwise (fun a b ha hb hab hba => ?_) (hsorted entries') (hsorted entries)
  have heq := Std.OrientedCmp.isLE_antisymm hab hba
  rw [hcmp] at heq
  refine hnames a ((hperm entries).subset (hsame.subset ha)) b ((hperm entries).subset hb) ?_
  exact Std.LawfulEqCmp.eq_of_compare (compareLex_eq_eq.1 (compareLex_eq_eq.1 heq).2).2

end Remux
