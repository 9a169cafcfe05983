import Mathlib.Algebra.GroupWithZero.Nat
import Mathlib.Data.List.Basic

/-!
# The window of a transcript

The turns that a transcript resource carries: a slice at the end or about an
anchor, from which turns are taken on one side or the other until its text
fits. Whatever is taken, the anchor and the newest turn stay.
-/

namespace Remux

open List

/-- A window, as its text asks for it. -/
inductive ParsedTranscriptWindow where
  | tail (count : ℕ)
  | around (turnId : String) (before after : ℕ)
  | range (startTurnId endTurnId : String)
  | other
  deriving DecidableEq

/-- `NATIVE_TRANSCRIPT_RESOURCE_BUDGET_BYTES`. -/
def resourceBudgetBytes : ℕ := 8 * 1024 * 1024 - 512 * 1024

/-- The last turns, when a window names none that are there. -/
def defaultRange (length : ℕ) : ℕ × ℕ := (length - min 40 (max 1 24), length)

/-- `transcriptRange`: the turns of a window, at most forty. -/
def transcriptRange (turnIds : List String) : ParsedTranscriptWindow → ℕ × ℕ
  | .tail count => (turnIds.length - min 40 (max 1 count), turnIds.length)
  | .around turnId before after =>
    match turnIds.findIdx? (· = turnId) with
    | some index =>
      let startIndex := index - min 39 before
      let endIndexExclusive := min turnIds.length (index + min 39 after + 1)
      (startIndex,
        if endIndexExclusive - startIndex > 40 then startIndex + 40 else endIndexExclusive)
    | none => defaultRange turnIds.length
  | .range startTurnId endTurnId =>
    match turnIds.findIdx? (· = startTurnId), turnIds.findIdx? (· = endTurnId) with
    | some first, some last =>
      if first ≤ last then (first, min (last + 1) (first + 40)) else defaultRange turnIds.length
    | _, _ => defaultRange turnIds.length
  | .other => defaultRange turnIds.length

/-- Whether the next turn is taken from the start. -/
def trimTranscriptStart (turnIds : List String) (window : ParsedTranscriptWindow)
    (startIndex endIndexExclusive : ℕ) : Bool :=
  match window with
  | .around turnId _ _ =>
    match turnIds.findIdx? (· = turnId) with
    | some anchor =>
      if startIndex ≤ anchor && anchor < endIndexExclusive then
        if startIndex = anchor then false
        else if endIndexExclusive - 1 = anchor then true
        else endIndexExclusive - 1 - anchor ≤ anchor - startIndex
      else true
    | none => true
  | _ => true

/-- A transcript: its turns, each with the bytes of its projection, and the
bytes of the resource before and after those of the turns. -/
structure Transcript (Turn : Type*) where
  turns : List Turn
  turnId : Turn → String
  json : Turn → List UInt8
  before : ℕ → ℕ → List UInt8
  after : ℕ → ℕ → List UInt8

/-- `createWindow`, of the turns projected. -/
structure NativeTranscriptWindow (Turn : Type*) where
  turns : List Turn
  startIndex : ℕ
  endIndexExclusive : ℕ
  hasEarlier : Bool
  hasLater : Bool

/-- The variables of the loop. -/
structure Trim (Turn : Type*) where
  startIndex : ℕ
  endIndexExclusive : ℕ
  projectedTurns : List Turn
  projectedTurnsByteLength : ℕ

namespace Transcript

variable {Turn : Type*} (T : Transcript Turn) (window : ParsedTranscriptWindow)

/-- The ids of the turns, in order. -/
def turnIds : List String := T.turns.map T.turnId

/-- `JSON.stringify`: the turns stand between brackets, with commas. -/
def stringify (startIndex endIndexExclusive : ℕ) (turns : List Turn) : List UInt8 :=
  T.before startIndex endIndexExclusive ++ [91] ++
    ((turns.map T.json).intersperse [44]).flatten ++ [93] ++ T.after startIndex endIndexExclusive

/-- The bytes of the resource, counted without writing the turns again. -/
def resourceByteLength (s : Trim Turn) : ℕ :=
  (T.stringify s.startIndex s.endIndexExclusive []).length + s.projectedTurnsByteLength +
    (s.projectedTurns.length - 1)

/-- The body of the `while`. -/
def trimStep (s : Trim Turn) : Trim Turn :=
  if trimTranscriptStart T.turnIds window s.startIndex s.endIndexExclusive then
    { startIndex := s.startIndex + 1, endIndexExclusive := s.endIndexExclusive
      projectedTurns := s.projectedTurns.tail
      projectedTurnsByteLength := s.projectedTurnsByteLength -
        (s.projectedTurns.head?.map fun t => (T.json t).length).getD 0 }
  else
    { startIndex := s.startIndex, endIndexExclusive := s.endIndexExclusive - 1
      projectedTurns := s.projectedTurns.dropLast
      projectedTurnsByteLength := s.projectedTurnsByteLength -
        (s.projectedTurns.getLast?.map fun t => (T.json t).length).getD 0 }

/-- The `while`, which removes a turn each time. -/
def trimLoop : ℕ → Trim Turn → Trim Turn
  | 0, s => s
  | fuel + 1, s =>
    if s.projectedTurns.length > 1 && T.resourceByteLength s > resourceBudgetBytes then
      trimLoop fuel (T.trimStep window s)
    else s

/-- The variables before the loop. -/
def projected : Trim Turn :=
  let (startIndex, endIndexExclusive) := transcriptRange T.turnIds window
  let projectedTurns := (T.turns.drop startIndex).take (endIndexExclusive - startIndex)
  ⟨startIndex, endIndexExclusive, projectedTurns,
    (projectedTurns.map fun t => (T.json t).length).sum⟩

/-- The window that is answered. -/
def transcriptWindow : NativeTranscriptWindow Turn :=
  let s := T.trimLoop window (T.projected window).projectedTurns.length (T.projected window)
  ⟨s.projectedTurns, s.startIndex, s.endIndexExclusive, s.startIndex > 0,
    s.endIndexExclusive < T.turns.length⟩

/-- **What the loop keeps**: a slice that is not empty, the bytes of its turns,
and the anchor or the newest turn in it. -/
structure Sliced (s : Trim Turn) : Prop where
  start : s.startIndex < s.endIndexExclusive
  stop : s.endIndexExclusive ≤ T.turns.length
  turns : s.projectedTurns =
    (T.turns.drop s.startIndex).take (s.endIndexExclusive - s.startIndex)
  bytes : s.projectedTurnsByteLength = (s.projectedTurns.map fun t => (T.json t).length).sum
  newest : ∀ count, window = .tail count → s.endIndexExclusive = T.turns.length
  anchor : ∀ turnId before after index, window = .around turnId before after →
    T.turnIds.findIdx? (· = turnId) = some index →
    s.startIndex ≤ index ∧ index < s.endIndexExclusive

variable {T window} {s : Trim Turn} {turns : List Turn}

/-- The bytes of a resource are those counted. -/
theorem length_stringify (startIndex endIndexExclusive : ℕ) :
    (T.stringify startIndex endIndexExclusive turns).length =
      (T.stringify startIndex endIndexExclusive []).length +
        (turns.map fun t => (T.json t).length).sum + (turns.length - 1) := by
  have hturns : ((turns.map T.json).intersperse [44]).flatten.length =
      (turns.map fun t => (T.json t).length).sum + (turns.length - 1) := by
    induction turns with
    | nil => rfl
    | cons t turns ih =>
      cases turns with
      | nil => simp
      | cons t' turns =>
        simp only [map_cons, intersperse_cons_cons, flatten_cons, length_append,
          sum_cons, length_cons] at ih ⊢
        simp only [length_nil]
        omega
  simp only [stringify, length_append, hturns]
  simp only [map_nil, intersperse_nil, flatten_nil, length_nil]
  omega

theorem Sliced.length (h : Sliced T window s) :
    s.projectedTurns.length = s.endIndexExclusive - s.startIndex := by
  have hbeg := h.start
  have hstop := h.stop
  rw [h.turns, length_take, length_drop]
  omega

/-- One turn less is still a slice. -/
theorem Sliced.step (h : Sliced T window s) (hmore : 1 < s.projectedTurns.length) :
    Sliced T window (T.trimStep window s) := by
  have hlen := h.length
  have hbeg := h.start
  have hstop := h.stop
  unfold trimStep
  split
  · next htrim =>
    refine ⟨by dsimp only; omega, hstop, ?_, ?_, h.newest,
      fun turnId before after index hw hi => ?_⟩
    · rw [h.turns, ← drop_one, drop_take, drop_drop, Nat.sub_sub]
    · rw [h.bytes]
      cases s.projectedTurns <;> simp
    · obtain ⟨hlow, hhigh⟩ := h.anchor turnId before after index hw hi
      subst hw
      simp only [trimTranscriptStart, hi, hlow, hhigh, decide_true, Bool.and_self, if_true] at htrim
      split at htrim
      · cases htrim
      · dsimp only
        omega
  · next htrim =>
    refine ⟨by dsimp only; omega, by dsimp only; omega, ?_, ?_, fun count hw => ?_,
      fun turnId before after index hw hi => ?_⟩
    · rw [dropLast_eq_take, hlen, h.turns, take_take]
      dsimp only
      exact congrArg (take · _) (by omega)
    · rw [h.bytes]
      rcases eq_nil_or_concat s.projectedTurns with hnil | ⟨rest, t, hcat⟩
      · simp [hnil]
      · simp [hcat]
    · subst hw
      exact absurd rfl htrim
    · obtain ⟨hlow, hhigh⟩ := h.anchor turnId before after index hw hi
      subst hw
      simp only [trimTranscriptStart, hi, hlow, hhigh, decide_true, Bool.and_self, if_true] at htrim
      split at htrim
      · dsimp only
        omega
      · split at htrim
        · exact absurd rfl htrim
        · dsimp only
          omega

/-- The loop ends with a slice of one turn, or one that fits. -/
theorem Sliced.loop (h : Sliced T window s) {fuel : ℕ} (hfuel : s.projectedTurns.length ≤ fuel) :
    Sliced T window (T.trimLoop window fuel s) ∧
      ((T.trimLoop window fuel s).projectedTurns.length = 1 ∨
        T.resourceByteLength (T.trimLoop window fuel s) ≤ resourceBudgetBytes) := by
  induction fuel generalizing s with
  | zero =>
    have hlen := h.length
    have hbeg := h.start
    omega
  | succ fuel ih =>
    unfold trimLoop
    split
    · next hmore =>
      rw [Bool.and_eq_true, decide_eq_true_eq] at hmore
      refine ih (h.step hmore.1) ?_
      have hlen := (h.step hmore.1).length
      have hold := h.length
      unfold trimStep at hlen ⊢
      split at hlen <;> rename_i htrim <;> simp only [htrim, if_true, if_false,
        Bool.false_eq_true] at hlen ⊢ <;> omega
    · next hdone =>
      refine ⟨h, ?_⟩
      have hlen := h.length
      have hbeg := h.start
      rw [Bool.and_eq_true, decide_eq_true_eq, decide_eq_true_eq, not_and_or] at hdone
      omega

/-- The range asked for is a slice of the turns. -/
theorem sliced_projected (hturns : T.turns ≠ []) : Sliced T window (T.projected window) := by
  have hpos := length_pos_iff.2 hturns
  have hlen : T.turnIds.length = T.turns.length := length_map ..
  have hdefault : (defaultRange T.turnIds.length).1 < (defaultRange T.turnIds.length).2 ∧
      (defaultRange T.turnIds.length).2 ≤ T.turns.length := by
    simp only [defaultRange]
    omega
  have hfnd : ∀ {turnId index}, T.turnIds.findIdx? (· = turnId) = some index →
      index < T.turnIds.length := fun hi => by
    exact (findIdx?_eq_some_iff_getElem.1 hi).1
  suffices hrange : (transcriptRange T.turnIds window).1 < (transcriptRange T.turnIds window).2 ∧
      (transcriptRange T.turnIds window).2 ≤ T.turns.length ∧
      (∀ count, window = .tail count → (transcriptRange T.turnIds window).2 = T.turns.length) ∧
      ∀ turnId before after index, window = .around turnId before after →
        T.turnIds.findIdx? (· = turnId) = some index →
        (transcriptRange T.turnIds window).1 ≤ index ∧
          index < (transcriptRange T.turnIds window).2 from
    ⟨hrange.1, hrange.2.1, rfl, rfl, hrange.2.2.1, hrange.2.2.2⟩
  cases window with
  | tail count =>
    refine ⟨?_, Nat.le_of_eq hlen, fun _ _ => hlen, by simp⟩
    simp only [transcriptRange]
    omega
  | around turnId before after =>
    simp only [transcriptRange]
    cases hi : T.turnIds.findIdx? (· = turnId) with
    | none =>
      refine ⟨hdefault.1, hdefault.2, by simp, fun _ _ _ _ hw hindex => ?_⟩
      cases hw
      cases hi.symm.trans hindex
    | some index =>
      have hlt := hfnd hi
      refine ⟨?_, ?_, by simp, fun _ _ _ index' hw hindex => ?_⟩
      · dsimp only
        split <;> omega
      · dsimp only
        split <;> omega
      · cases hw
        cases hi.symm.trans hindex
        dsimp only
        split <;> omega
  | range startTurnId endTurnId =>
    simp only [transcriptRange]
    split
    · next first last hfst hlast =>
      have hlt := hfnd hlast
      split
      · refine ⟨?_, ?_, by simp, by simp⟩ <;> dsimp only <;> omega
      · exact ⟨hdefault.1, hdefault.2, by simp, by simp⟩
    · exact ⟨hdefault.1, hdefault.2, by simp, by simp⟩
  | other => exact ⟨hdefault.1, hdefault.2, by simp, by simp⟩

/-- **The window of a transcript** is a slice of its turns with its true bounds,
which fits the budget or has one turn; that of a tail holds the newest turn,
and one around a turn holds it. The resource of no turns fits. -/
theorem transcript_window_fits {Turn : Type*} (T : Transcript Turn)
    (window : ParsedTranscriptWindow)
    (hnone : T.turns = [] → (T.stringify 0 0 []).length ≤ resourceBudgetBytes) :
    let w := T.transcriptWindow window
    w.startIndex ≤ w.endIndexExclusive ∧ w.endIndexExclusive ≤ T.turns.length ∧
      w.turns = (T.turns.drop w.startIndex).take (w.endIndexExclusive - w.startIndex) ∧
      (w.hasEarlier = true ↔ 0 < w.startIndex) ∧
      (w.hasLater = true ↔ w.endIndexExclusive < T.turns.length) ∧
      ((T.stringify w.startIndex w.endIndexExclusive w.turns).length ≤ resourceBudgetBytes ∨
        w.turns.length = 1) ∧
      (∀ count, window = .tail count → ∀ t, T.turns.getLast? = some t → t ∈ w.turns) ∧
      ∀ turnId before after, window = .around turnId before after → turnId ∈ T.turnIds →
        turnId ∈ w.turns.map T.turnId := by
  dsimp only
  rcases eq_or_ne T.turns [] with hnil | hturns
  · have hrange : transcriptRange T.turnIds window = (0, 0) := by
      cases window <;> simp [transcriptRange, turnIds, hnil, defaultRange]
    have hprojected : T.projected window = ⟨0, 0, [], 0⟩ := by simp [projected, hrange, hnil]
    rw [transcriptWindow, hprojected]
    dsimp only [trimLoop, List.length_nil]
    simp [hnil, turnIds, hnone hnil]
  · have hsliced : Sliced T window (T.projected window) := sliced_projected hturns
    obtain ⟨h, hfits⟩ := hsliced.loop (Nat.le_refl _)
    unfold transcriptWindow
    generalize T.trimLoop window (T.projected window).projectedTurns.length (T.projected window) = s
      at h hfits
    have hmem : ∀ {i t}, T.turns[i]? = some t → s.startIndex ≤ i → i < s.endIndexExclusive →
        t ∈ s.projectedTurns := by
      intro i t ht hlow hhigh
      refine List.mem_of_getElem? (i := i - s.startIndex) ?_
      rw [h.turns, List.getElem?_take_of_lt (by omega), List.getElem?_drop,
        Nat.add_sub_of_le hlow, ht]
    have hbeg := h.start
    refine ⟨by dsimp only; omega, h.stop, h.turns, decide_eq_true_iff,
      decide_eq_true_iff, ?_, ?_, ?_⟩
    · rw [length_stringify, ← h.bytes]
      exact hfits.symm
    · intro count hw t ht
      rw [List.getLast?_eq_getElem?, ← h.newest count hw] at ht
      exact hmem ht (by omega) (by omega)
    · intro turnId before after hw hid
      obtain ⟨index, hi⟩ : ∃ index, T.turnIds.findIdx? (· = turnId) = some index := by
        refine Option.isSome_iff_exists.1 (List.findIdx?_isSome.trans ?_)
        exact List.any_eq_true.2 ⟨turnId, hid, decide_eq_true rfl⟩
      obtain ⟨hlt, hfnd, -⟩ := List.findIdx?_eq_some_iff_getElem.1 hi
      obtain ⟨hlow, hhigh⟩ := h.anchor turnId before after index hw hi
      have hlt' : index < T.turns.length := by simpa [turnIds] using hlt
      have hget : T.turns[index]? = some T.turns[index] := List.getElem?_eq_getElem hlt'
      refine List.mem_map.2 ⟨_, hmem hget hlow hhigh, ?_⟩
      simpa [turnIds] using hfnd

theorem transcript_window_fits_tail : let T : Transcript String :=
      ⟨["turn-1", "turn-2"], id, fun t => t.toUTF8.toList, fun _ _ => [], fun _ _ => []⟩
    "turn-2" ∈ (T.transcriptWindow (.tail 1)).turns :=
  (transcript_window_fits _ (.tail 1) (by simp)).2.2.2.2.2.2.1 1 rfl "turn-2" rfl

end Transcript

end Remux
