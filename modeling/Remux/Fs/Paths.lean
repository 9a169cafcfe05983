import Remux.Common.Lists

/-!
# Lexical paths

`normalize` keeps a stack of the segments of a path. What it pushes a name
or a `..` onto is a stack that reads as itself (`Settled`), so its text is
read back as the same segments, and containment by a prefix of the text is
containment by a prefix of the segments (`isPathWithin_iff`).

A path is its characters.
-/

namespace Remux.Paths

open List

/-- The segment of a directory itself. -/
def dot : List Char := ['.']

/-- The segment of the directory above. -/
def dotDot : List Char := ['.', '.']

/-- One segment of the loop in `normalize`. -/
def pushSegment (absolute : Bool) (stack : List (List Char)) (segment : List Char) :
    List (List Char) :=
  if segment = [] ∨ segment = dot then stack
  else if segment = dotDot then
    if ∃ last ∈ stack.getLast?, last ≠ dotDot then stack.dropLast
    else if absolute then stack
    else stack ++ [dotDot]
  else stack ++ [segment]

/-- `path.starts_with('/')`. -/
def isAbsolute (path : List Char) : Bool := path.head? = some '/'

/-- `stack.join("/")`. -/
def joined (stack : List (List Char)) : List Char := ['/'].intercalate stack

/-- The stack after the loop. -/
def stackOf (path : List Char) : List (List Char) :=
  (path.splitOn '/').foldl (pushSegment (isAbsolute path)) []

/-- `normalize`: the text of the stack. -/
def normalize (path : List Char) : List Char :=
  if isAbsolute path then '/' :: joined (stackOf path)
  else if joined (stackOf path) = [] then dot
  else joined (stackOf path)

/-- `join`, of two parts; an empty one does not count. -/
def join (left right : List Char) : List Char :=
  if right = [] then normalize left
  else if left = [] then normalize right
  else normalize (left ++ '/' :: right)

/-- `resolve`, in a process that works at `cwd`. -/
def resolve (cwd value : List Char) : List Char :=
  if isAbsolute value then normalize value else join cwd value

/-- What paths are compared by: empty segments and, but for the first, those
of a directory itself do not count. -/
def components (path : List Char) : List (List Char) :=
  match path.splitOn '/' with
  | [[]] => []
  | [] => []
  | first :: rest => first :: rest.filter fun segment => segment ≠ [] ∧ segment ≠ dot

/-- The text that a path under the root begins with. -/
def rootText (root : List Char) : List Char :=
  if root.getLast? = some '/' then root else root ++ ['/']

/-- `isPathWithin`, of paths taken from a working directory. -/
def isPathWithin (cwd root target : List Char) : Bool :=
  components (resolve cwd target) = components (resolve cwd root) ||
    (rootText (resolve cwd root)).isPrefixOf (resolve cwd target)

/-- The segments of an absolute path, none for the root. -/
def segments (path : List Char) : List (List Char) :=
  if path.tail = [] then [] else path.tail.splitOn '/'

/-! ## Stacks -/

/-- What the loop has on its stack: names, and in a relative path the
directories above that it begins with. -/
inductive Settled (absolute : Bool) : List (List Char) → Prop
  | nil : Settled absolute []
  | name {stack : List (List Char)} {segment : List Char} : Settled absolute stack →
      segment ≠ [] → segment ≠ dot → segment ≠ dotDot → '/' ∉ segment →
      Settled absolute (stack ++ [segment])
  | above {stack : List (List Char)} : Settled absolute stack → absolute = false →
      (¬∃ last ∈ stack.getLast?, last ≠ dotDot) → Settled absolute (stack ++ [dotDot])

variable {absolute : Bool} {stack rest : List (List Char)} {path : List Char}

namespace Settled

/-- A segment pushed onto a settled stack leaves it settled. -/
theorem push (h : Settled absolute stack) {segment : List Char} (hslash : '/' ∉ segment) :
    Settled absolute (pushSegment absolute stack segment) := by
  unfold pushSegment
  split
  · exact h
  · next hname =>
    obtain ⟨hne, hdot⟩ := not_or.1 hname
    split
    · split
      · next hlast =>
        obtain ⟨last, hmem, hlast⟩ := hlast
        cases h with
        | nil => cases hmem
        | name h => rwa [dropLast_concat]
        | above h =>
          rw [getLast?_concat] at hmem
          exact absurd (Option.some.inj hmem).symm hlast
      · next hlast =>
        cases absolute with
        | true => exact h
        | false => exact h.above rfl hlast
    · next hup => exact h.name hne hdot hup hslash

theorem foldl {segments : List (List Char)} (hslash : ∀ segment ∈ segments, '/' ∉ segment)
    (h : Settled absolute stack) :
    Settled absolute (segments.foldl (pushSegment absolute) stack) := by
  induction segments generalizing stack with
  | nil => exact h
  | cons segment segments ih =>
    exact ih (fun s hs => hslash s (mem_cons_of_mem _ hs)) (h.push (hslash _ mem_cons_self))

/-- **A settled stack reads as itself.** -/
theorem read (h : Settled absolute stack) : stack.foldl (pushSegment absolute) [] = stack := by
  induction h with
  | nil => rfl
  | name h hne hdot hup hslash ih =>
    rw [foldl_append, ih, foldl_cons, foldl_nil, pushSegment, if_neg (not_or.2 ⟨hne, hdot⟩),
      if_neg hup]
  | above h habs hlast ih =>
    rw [foldl_append, ih, foldl_cons, foldl_nil, pushSegment, if_neg (by decide), if_pos rfl,
      if_neg hlast, habs]
    rfl

/-- The segments of a settled stack are names, or `..` of a relative one. -/
theorem segment (h : Settled absolute stack) :
    ∀ s ∈ stack, s ≠ [] ∧ s ≠ dot ∧ '/' ∉ s ∧ (absolute = true → s ≠ dotDot) := by
  induction h with
  | nil => exact fun s hs => nomatch hs
  | name h hne hdot hup hslash ih =>
    intro s hs
    rcases mem_concat.1 hs with hs | rfl
    · exact ih s hs
    · exact ⟨hne, hdot, hslash, fun _ => hup⟩
  | above h habs hlast ih =>
    intro s hs
    rcases mem_concat.1 hs with hs | rfl
    · exact ih s hs
    · exact ⟨by decide, by decide, by decide, fun habs' => nomatch habs ▸ habs'⟩

/-- The text of a stack is split where it was joined. -/
theorem split (h : Settled absolute stack) (hne : stack ≠ []) :
    (joined stack).splitOn '/' = stack :=
  splitOn_intercalate _ (fun s hs => (h.segment s hs).2.2.1) hne

theorem joined_eq_nil (h : Settled absolute stack) : joined stack = [] ↔ stack = [] := by
  refine ⟨fun hnil => ?_, fun hnil => by rw [hnil]; rfl⟩
  by_contra hne
  have hsplit := h.split hne
  rw [hnil] at hsplit
  exact (h.segment [] (hsplit ▸ mem_cons_self)).1 rfl

end Settled

/-- No segment has a slash. -/
theorem slash_notMem_splitOn : ∀ {path : List Char}, ∀ s ∈ path.splitOn '/', '/' ∉ s
  | [] => fun s hs => by
    rw [splitOn_nil, mem_singleton] at hs
    exact hs ▸ not_mem_nil
  | c :: path => by
    have ih : ∀ s ∈ path.splitOn '/', '/' ∉ s := slash_notMem_splitOn
    rw [splitOn_cons_eq_if_modifyHead]
    split
    · exact forall_mem_cons.2 ⟨not_mem_nil, ih⟩
    · next hc =>
      cases hsplit : path.splitOn '/' with
      | nil => exact fun s hs => nomatch hs
      | cons first later =>
        rw [hsplit, forall_mem_cons] at ih
        refine forall_mem_cons.2 ⟨fun hmem => ?_, ih.2⟩
        rcases mem_cons.1 hmem with rfl | hmem
        · exact hc (beq_self_eq_true _)
        · exact ih.1 hmem

theorem settled_stackOf : Settled (isAbsolute path) (stackOf path) :=
  Settled.nil.foldl slash_notMem_splitOn

/-! ## Normal paths -/

theorem splitOn_slash_cons : ('/' :: path).splitOn '/' = [] :: path.splitOn '/' :=
  splitOn_append_cons_self_of_not_mem not_mem_nil path

theorem isAbsolute_slash_cons : isAbsolute ('/' :: path) = true := decide_eq_true rfl

namespace Settled

theorem stackOf_joined (h : Settled absolute stack) (habs : isAbsolute (joined stack) = absolute) :
    stackOf (joined stack) = stack := by
  rw [stackOf, habs]
  by_cases hne : stack = []
  · subst hne
    rfl
  · rw [h.split hne, h.read]

theorem stackOf_slash_joined (h : Settled true stack) : stackOf ('/' :: joined stack) = stack := by
  rw [stackOf, isAbsolute_slash_cons, splitOn_slash_cons, foldl_cons, pushSegment,
    if_pos (Or.inl rfl)]
  by_cases hne : stack = []
  · subst hne
    rfl
  · rw [h.split hne, h.read]

/-- A relative text has no slash in front. -/
theorem isAbsolute_joined (h : Settled absolute stack) : isAbsolute (joined stack) = false := by
  rw [isAbsolute, decide_eq_false_iff_not]
  intro hhead
  cases hstack : stack with
  | nil => exact nomatch hstack ▸ hhead
  | cons first later =>
    obtain ⟨hne, -, hslash, -⟩ := h.segment first (hstack ▸ mem_cons_self)
    obtain ⟨c, cs, rfl⟩ := exists_cons_of_ne_nil hne
    have hc : c = '/' := by
      rw [hstack, joined] at hhead
      cases later with
      | nil => exact Option.some.inj hhead
      | cons second later =>
        rw [intercalate_cons_cons] at hhead
        exact Option.some.inj hhead
    exact hslash (hc ▸ mem_cons_self)

theorem segments_slash_joined (h : Settled absolute stack) :
    segments ('/' :: joined stack) = stack := by
  rw [segments, tail_cons, if_congr h.joined_eq_nil rfl rfl]
  split
  · next hnil => exact hnil.symm
  · next hne => exact h.split hne

/-- The components of a text are those of its stack. -/
theorem components_slash_joined (h : Settled absolute stack) :
    components ('/' :: joined stack) = [] :: stack := by
  rw [components, splitOn_slash_cons]
  by_cases hne : stack = []
  · subst hne
    rfl
  · rw [h.split hne]
    obtain ⟨first, later, rfl⟩ := exists_cons_of_ne_nil hne
    exact congrArg (cons []) (filter_eq_self.2 fun s hs =>
      decide_eq_true ⟨(h.segment s hs).1, (h.segment s hs).2.1⟩)

end Settled

theorem normalize_absolute (h : isAbsolute path) : normalize path = '/' :: joined (stackOf path) :=
  if_pos h

/-- **Normalizing twice is normalizing once.** -/
theorem normalize_normalize : normalize (normalize path) = normalize path := by
  have hstack : Settled (isAbsolute path) (stackOf path) := settled_stackOf
  cases habs : isAbsolute path with
  | true =>
    rw [habs] at hstack
    rw [normalize_absolute habs, normalize_absolute isAbsolute_slash_cons,
      hstack.stackOf_slash_joined]
  | false =>
    rw [habs] at hstack
    rw [normalize.eq_def path, habs, if_neg (by decide)]
    split
    · rfl
    · next hne =>
      rw [normalize, hstack.isAbsolute_joined, if_neg (by decide),
        hstack.stackOf_joined hstack.isAbsolute_joined, if_neg hne]

/-! ## Containment -/

theorem joined_cons_cons {first second : List Char} :
    joined (first :: second :: rest) = first ++ '/' :: joined (second :: rest) := by
  rw [joined, intercalate_cons_cons, append_assoc]
  rfl

theorem joined_append (hrest : rest ≠ []) : ∀ {stack : List (List Char)}, stack ≠ [] →
      joined (stack ++ rest) = joined stack ++ '/' :: joined rest
  | [], hne => absurd rfl hne
  | [first], _ => by
    obtain ⟨second, rest, rfl⟩ := exists_cons_of_ne_nil hrest
    exact joined_cons_cons.trans (congrArg (· ++ _) intercalate_singleton.symm)
  | first :: next :: stack, _ => by
    rw [cons_append, cons_append, joined_cons_cons, ← cons_append,
      joined_append hrest (cons_ne_nil _ _), joined_cons_cons, append_assoc, cons_append]

/-- No settled text ends in a slash, but that of the root. -/
theorem Settled.rootText_slash_joined (h : Settled absolute stack) (hne : stack ≠ []) :
    rootText ('/' :: joined stack) = '/' :: joined stack ++ ['/'] := by
  refine if_neg fun hlast => ?_
  obtain ⟨text, htext⟩ := getLast?_eq_some_iff.1 hlast
  cases text with
  | nil => exact hne (h.joined_eq_nil.1 (cons.inj htext).2)
  | cons c text =>
    have hsplit := h.split hne
    rw [show joined stack = text ++ ['/'] from (cons.inj htext).2, splitOn_append_cons_self,
      splitOn_nil] at hsplit
    exact (h.segment [] (hsplit ▸ mem_append_right _ mem_cons_self)).1 rfl

/-- A path under a root has a text under that of the root. -/
theorem prefix_iff_text {other : List (List Char)} (hroot : Settled true stack)
    (htarget : Settled true other) :
    other = stack ∨ rootText ('/' :: joined stack) <+: '/' :: joined other ↔ stack <+: other := by
  by_cases hne : stack = []
  · subst hne
    exact iff_of_true (Or.inr ⟨joined other, rfl⟩) nil_prefix
  · rw [hroot.rootText_slash_joined hne]
    constructor
    · rintro (rfl | ⟨text, htext⟩)
      · exact prefix_rfl
      · -- what is split after the slash comes after the segments of the root
        rw [cons_append, cons_append, append_assoc, cons.injEq] at htext
        have hother : other ≠ [] := fun hnil => by
          rw [hnil] at htext
          exact absurd htext.2 (append_ne_nil_of_right_ne_nil _ (cons_ne_nil _ _))
        have hsplit := htarget.split hother
        rw [← htext.2, singleton_append, splitOn_append_cons_self, hroot.split hne] at hsplit
        exact ⟨_, hsplit⟩
    · rintro ⟨later, rfl⟩
      by_cases hlater : later = []
      · exact Or.inl (by rw [hlater, append_nil])
      · refine Or.inr ⟨joined later, ?_⟩
        rw [joined_append hlater hne, cons_append, cons_append, append_assoc]
        rfl

theorem resolve_absolute {cwd : List Char} (h : isAbsolute path) :
    resolve cwd path = normalize path :=
  if_pos h

theorem settled_of_absolute (h : isAbsolute path) : Settled true (stackOf path) :=
  h ▸ settled_stackOf

/-- **Containment of paths is that of their segments**: of the absolute
paths, those are within a root whose segments begin with its own. Normal
paths stay as they are, and no segment of an absolute one leads nowhere or
above. -/
theorem isPathWithin_iff_segments : (∀ cwd root target, isAbsolute root → isAbsolute target →
      (isPathWithin cwd root target ↔ segments (normalize root) <+: segments (normalize target))) ∧
    (∀ path, normalize (normalize path) = normalize path) ∧
    ∀ path, isAbsolute path → ∀ s ∈ segments (normalize path), s ≠ [] ∧ s ≠ dot ∧ s ≠ dotDot := by
  refine ⟨fun cwd root target hroot htarget => ?_, fun path => normalize_normalize,
    fun path habs s hs => ?_⟩
  · have hr := settled_of_absolute hroot
    have ht := settled_of_absolute htarget
    rw [isPathWithin, resolve_absolute hroot, resolve_absolute htarget, normalize_absolute hroot,
      normalize_absolute htarget, hr.segments_slash_joined, ht.segments_slash_joined,
      hr.components_slash_joined, ht.components_slash_joined, Bool.or_eq_true,
      decide_eq_true_eq, isPrefixOf_iff_prefix, ← prefix_iff_text hr ht, cons.injEq,
      and_iff_right rfl]
  · have h := settled_of_absolute habs
    rw [normalize_absolute habs, h.segments_slash_joined] at hs
    obtain ⟨hne, hdot, -, hup⟩ := h.segment s hs
    exact ⟨hne, hdot, hup rfl⟩

/-- A path that leads out of the root is not within it. -/
theorem isPathWithin_iff_segments_out : ¬isPathWithin [] "/repo".toList "/repo/../repo2".toList :=
  fun h => absurd ((isPathWithin_iff_segments.1 [] _ _ (by decide) (by decide)).1 h) (by decide)

end Remux.Paths
