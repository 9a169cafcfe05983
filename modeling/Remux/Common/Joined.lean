import Mathlib.Data.List.Basic
import Mathlib.Data.List.Count

/-!
# Lists and texts that are joined

Parts that are joined by a separator can be told apart again if it is known
how often each of them has the separator in it: not at all, in the usual
case.
-/

namespace Remux

open List

section

variable {α : Type*} [DecidableEq α] {c : α} {xs ys a b : List α}

/-- Two lists are split the same way at an element, if as many of it come
before. -/
theorem append_cons_inj_of_count (hcnt : xs.count c = ys.count c)
    (h : xs ++ c :: a = ys ++ c :: b) : xs = ys ∧ a = b := by
  -- what the longer of the two has more of begins with the element
  have hnil : ∀ {xs ys d a b : List α}, ys = xs ++ d → xs.count c = ys.count c →
      c :: a = d ++ c :: b → d = [] := by
    intro xs ys d a b hys hcnt hd
    cases d with
    | nil => rfl
    | cons e d =>
      obtain ⟨rfl, -⟩ := cons.inj hd
      rw [hys, count_append, count_cons_self] at hcnt
      omega
  rcases append_eq_append_iff.1 h with ⟨d, hys, hd⟩ | ⟨d, hxs, hd⟩
  · obtain rfl := hnil hys hcnt hd
    rw [append_nil] at hys
    exact ⟨hys.symm, (cons.inj hd).2⟩
  · obtain rfl := hnil hxs hcnt.symm hd
    rw [append_nil] at hxs
    exact ⟨hxs, (cons.inj hd).2.symm⟩

/-- **Joined lists are the same parts**, if corresponding parts have as many
separators. -/
theorem intercalate_inj_of_count {l l' : List (List α)} (hcnt : l.map (count c) = l'.map (count c))
    (h : [c].intercalate l = [c].intercalate l') : l = l' := by
  induction l generalizing l' with
  | nil =>
    cases l' with
    | nil => rfl
    | cons x l' => cases hcnt
  | cons x l ih =>
    cases l' with
    | nil => cases hcnt
    | cons x' l' =>
      obtain ⟨hhead, htail⟩ := cons.inj hcnt
      cases l with
      | nil =>
        obtain rfl : l' = [] := by simpa using htail.symm
        rw [intercalate_singleton, intercalate_singleton] at h
        rw [h]
      | cons y l =>
        obtain ⟨y', l', rfl⟩ : ∃ y' l'', l' = y' :: l'' := by
          cases l' with
          | nil => cases htail
          | cons y' l' => exact ⟨y', l', rfl⟩
        obtain ⟨rfl, hrest⟩ := append_cons_inj_of_count hhead h
        rw [ih htail hrest]

end

/-- How often a character is in a text. -/
def countChar (c : Char) (text : String) : ℕ := text.toList.count c

/-- **Joined texts are the same parts**, if corresponding parts have as many
separators. -/
theorem intercalate_text_inj_of_count {c : Char} {l l' : List String}
    (hcnt : l.map (countChar c) = l'.map (countChar c))
    (h : (String.singleton c).intercalate l = (String.singleton c).intercalate l') : l = l' := by
  have htoList := congrArg String.toList h
  rw [String.toList_intercalate, String.toList_intercalate, String.toList_singleton] at htoList
  refine (map_injective_iff.2 fun _ _ heq => String.toList_injective heq)
    (intercalate_inj_of_count ?_ htoList)
  rw [map_map, map_map]
  exact hcnt

end Remux
