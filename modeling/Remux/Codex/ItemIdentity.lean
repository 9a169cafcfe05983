import Remux.Codex.Model.ItemIdentity

/-!
# Item identity coarsens

The redirects of a turn stay flat, so that following them is one step and
no cycle can come up, and every call makes the turn `Coarser`: what an
alias or an id stands for may be joined with something else, and nothing
comes apart. The three aliases that the app server's id of an item is
looked up by come together (`IdentityInv.linked`), so the first of them
decides.
-/

namespace Remux

open String hiding append_assoc isPrefixOf
open Option (getD_some map_eq_some_iff map_some)
open TurnIdentityState AList Assoc List

variable {turn turn' turn'' : TurnIdentityState} {source target key key' itemId value : String}
variable {rekeys : List ItemRekey} {keys : List String} {s s' : ItemIdentityState}

/-! ## Aliases -/

theorem callAlias_injective (h : callAlias itemId = callAlias value) : itemId = value := by
  simpa [callAlias, ← toList_inj] using h

theorem durableAlias_injective (h : durableAlias itemId = durableAlias value) : itemId = value := by
  simpa [durableAlias, ← toList_inj] using h

theorem appAlias_ne_callAlias : appAlias itemId ≠ callAlias value := by
  simp [appAlias, callAlias, ← toList_inj]

theorem appAlias_ne_durableAlias : appAlias itemId ≠ durableAlias value := by
  simp [appAlias, durableAlias, ← toList_inj]

theorem callAlias_ne_durableAlias : callAlias itemId ≠ durableAlias value := by
  simp [callAlias, durableAlias, ← toList_inj]

theorem splitOnce_callAlias : splitOnce (callAlias value) = some ("call", value) := by
  simp [splitOnce, callAlias]

theorem splitOnce_durableAlias : splitOnce (durableAlias value) = some ("id", value) := by
  simp [splitOnce, durableAlias]

/-- A text is what stands before the colon, the colon, and the rest. -/
theorem splitOnce_eq_some {before after : String} (h : splitOnce key = some (before, after)) :
    key = before ++ ":" ++ after := by
  unfold splitOnce at h
  cases hdrop : key.toList.dropWhile (· ≠ ':') with
  | nil =>
    rw [hdrop] at h
    cases h
  | cons c rest =>
    rw [hdrop] at h
    cases h
    have hc : c = ':' := by
      have hhead := head?_dropWhile_not (· ≠ ':') key.toList
      rw [hdrop] at hhead
      simpa using hhead
    have hsplit := takeWhile_append_dropWhile (p := fun c : Char => decide (c ≠ ':'))
      (l := key.toList)
    rw [hdrop, hc] at hsplit
    rw [← toList_inj, toList_append, toList_append, toList_ofList,
      toList_ofList, append_assoc, toList_ofList]
    exact hsplit.symm

/-- An alias that is a call's or a durable id brings the app server's with
it. -/
theorem appAlias_mem_expandAlias (h : callAlias itemId ∈ expandAlias key ∨
    durableAlias itemId ∈ expandAlias key) : appAlias itemId ∈ expandAlias key := by
  -- `value` is what the alias is about, if it brings others with it
  have hval : ∀ value, callAlias itemId ∈ [appAlias value, durableAlias value, callAlias value] ∨
      durableAlias itemId ∈ [appAlias value, durableAlias value, callAlias value] →
      itemId = value := by
    intro value hin
    simp only [mem_cons, not_mem_nil, or_false, appAlias_ne_callAlias.symm,
      appAlias_ne_durableAlias.symm, callAlias_ne_durableAlias, callAlias_ne_durableAlias.symm,
      false_or] at hin
    exact hin.elim callAlias_injective durableAlias_injective
  have hself : callAlias itemId = key ∨ durableAlias itemId = key →
      appAlias itemId ∈ expandAlias key := by
    rintro (rfl | rfl)
    · rw [expandAlias, splitOnce_callAlias]
      exact mem_cons_of_mem _ mem_cons_self
    · rw [expandAlias, splitOnce_durableAlias]
      exact mem_cons_of_mem _ mem_cons_self
  unfold expandAlias at h hself ⊢
  rw [mem_cons, mem_cons] at h
  by_cases hkey : callAlias itemId = key ∨ durableAlias itemId = key
  · exact hself hkey
  · have hrest := h.imp (Or.resolve_left · fun heq => hkey (.inl heq))
      (Or.resolve_left · fun heq => hkey (.inr heq))
    split at hrest
    · exact hval _ hrest ▸ mem_cons_of_mem _ mem_cons_self
    · exact hval _ hrest ▸ mem_cons_of_mem _ mem_cons_self
    · next value hsplit =>
      have hsplit := splitOnce_eq_some hsplit
      have heq := hval value (hrest.imp (mem_cons_of_mem _) (mem_cons_of_mem _))
      rw [heq]
      exact mem_cons.2 (.inl hsplit.symm)
    · rcases hrest with hrest | hrest <;> cases hrest

/-- The aliases expanded are those that one of them expands to. -/
theorem mem_expandedSourceAliases {aliases : List String} :
    key ∈ expandedSourceAliases aliases ↔ ∃ key' ∈ aliases, key ∈ expandAlias key' := by
  have hpush : ∀ (keys expanded : List String),
      key ∈ keys.foldl pushAlias expanded ↔ key ∈ expanded ∨ key ∈ keys := by
    intro keys
    induction keys with
    | nil => simp
    | cons first keys ih =>
      intro expanded
      rw [foldl_cons, ih, pushAlias, mem_cons]
      split
      · next hin =>
        have : key = first → key ∈ expanded := fun heq => heq ▸ hin
        tauto
      · rw [mem_append, mem_singleton, or_assoc]
  rw [expandedSourceAliases, hpush, mem_flatMap]
  simp

theorem mem_expandedSourceAliases_self {aliases : List String} (h : key ∈ aliases) :
    key ∈ expandedSourceAliases aliases :=
  mem_expandedSourceAliases.2 ⟨key, h, mem_cons_self⟩

/-! ## Coarser turns -/

/-- **What an id or an alias stood for, it stands for still**, up to what
that has been joined with. -/
structure Coarser (turn turn' : TurnIdentityState) : Prop where
  ids : ∀ itemId, turn'.followRedirects (turn.followRedirects itemId) = turn'.followRedirects itemId
  aliases : ∀ key value, turn.aliases.lookup key = some value → ∃ value',
    turn'.aliases.lookup key = some value' ∧
      turn'.followRedirects value' = turn'.followRedirects value

/-- **The invariant of a turn.** -/
structure IdentityInv (turn : TurnIdentityState) : Prop where
  flat : turn.canonicalRedirects.Flat
  /-- An alias that names a canonical id stands for what that id does. -/
  canonical : ∀ key canonical value, canonicalAlias key = some canonical →
    turn.aliases.lookup key = some value →
    turn.followRedirects value = turn.followRedirects canonical
  /-- The app server's alias comes first. -/
  linked : ∀ itemId, (turn.aliases.lookup (callAlias itemId)).isSome ∨
    (turn.aliases.lookup (durableAlias itemId)).isSome →
    (turn.aliases.lookup (appAlias itemId)).isSome

theorem Coarser.refl (h : turn.canonicalRedirects.Flat) : Coarser turn turn :=
  ⟨fun _ => h.follow_follow, fun _ value hkey => ⟨value, hkey, rfl⟩⟩

/-- Coarser than coarser is coarser. -/
theorem Coarser.trans (h : Coarser turn turn') (h' : Coarser turn' turn'') :
    Coarser turn turn'' where
  ids itemId := by rw [← h'.ids (turn.followRedirects itemId), h.ids, h'.ids]
  aliases key value hkey := by
    obtain ⟨value', hkey', heq⟩ := h.aliases key value hkey
    obtain ⟨value'', hkey'', heq'⟩ := h'.aliases key value' hkey'
    refine ⟨value'', hkey'', heq'.trans ?_⟩
    rw [← h'.ids value', heq, h'.ids]

/-! ## One redirect -/

section

variable (h : turn.canonicalRedirects.Flat)

include h

theorem followRedirects_idem :
    turn.followRedirects (turn.followRedirects itemId) = turn.followRedirects itemId :=
  h.follow_follow

/-- **A redirect joins two ids**: both lead to where the target led. -/
theorem followRedirects_redirectCanonical :
    (turn.redirectCanonical source target rekeys).1.followRedirects itemId =
      if turn.followRedirects itemId = turn.followRedirects source
      then turn.followRedirects target else turn.followRedirects itemId := by
  unfold redirectCanonical
  by_cases heq : turn.followRedirects source = turn.followRedirects target
  · rw [if_pos heq]
    by_cases hitem : turn.followRedirects itemId = turn.followRedirects source
    · rw [if_pos hitem, hitem, heq]
    · rw [if_neg hitem]
  · rw [if_neg heq]
    exact h.follow_redirect h.lookup_follow h.lookup_follow heq

theorem flat_redirectCanonical :
    (turn.redirectCanonical source target rekeys).1.canonicalRedirects.Flat := by
  unfold redirectCanonical
  dsimp only
  split
  · exact h
  · next heq => exact h.redirect h.lookup_follow heq

omit h in
/-- A redirect moves the aliases of its source, and no others. -/
theorem aliases_redirectCanonical :
    (turn.redirectCanonical source target rekeys).1.aliases.lookup key =
      (turn.aliases.lookup key).map fun value =>
        if value = turn.followRedirects source then turn.followRedirects target else value := by
  unfold redirectCanonical
  dsimp only
  split
  · next heq =>
    have hid : (fun value => if value = turn.followRedirects source
        then turn.followRedirects target else value) = id := by
      funext value
      rw [← heq]
      exact ite_eq_right_iff.2 Eq.symm
    rw [hid, Option.map_id_fun, id]
  · exact lookup_mapValues

/-- **A redirect makes the turn coarser.** -/
theorem coarser_redirectCanonical :
    Coarser turn (turn.redirectCanonical source target rekeys).1 where
  ids itemId := by
    rw [followRedirects_redirectCanonical h, followRedirects_redirectCanonical h,
      followRedirects_idem h]
  aliases key value hkey := by
    refine ⟨_, by rw [aliases_redirectCanonical, hkey, map_some], ?_⟩
    rw [followRedirects_redirectCanonical h, followRedirects_redirectCanonical h]
    by_cases hval : value = turn.followRedirects source
    · rw [if_pos hval, hval, followRedirects_idem h, followRedirects_idem h, if_pos rfl, ite_id]
    · rw [if_neg hval]

omit h in
/-- The end of another id stays an end. -/
theorem lookup_redirectCanonical (hitem : turn.canonicalRedirects.lookup itemId = none)
    (hne : itemId ≠ turn.followRedirects source) :
    (turn.redirectCanonical source target rekeys).1.canonicalRedirects.lookup itemId = none := by
  unfold redirectCanonical
  dsimp only
  split
  · exact hitem
  · next heq =>
    rw [Redirects.lookup_redirect heq, if_neg hne, hitem]
    rfl

end

/-! ## One alias -/

/-- What holds while aliases are registered for the target. -/
structure Registering (target : String) (turn : TurnIdentityState) : Prop where
  flat : turn.canonicalRedirects.Flat
  canonical : ∀ key canonical value, canonicalAlias key = some canonical →
    turn.aliases.lookup key = some value →
    turn.followRedirects value = turn.followRedirects canonical
  target : turn.canonicalRedirects.lookup target = none

theorem Registering.follow (h : Registering target turn) : turn.followRedirects target = target :=
  h.flat.follow_of_lookup h.target

/-- A coarser turn keeps what the canonical aliases stand for. -/
theorem Coarser.canonical (h : Coarser turn turn')
    (hkeys : ∀ key, (turn'.aliases.lookup key).isSome → (turn.aliases.lookup key).isSome)
    (hcanon : ∀ key canonical value, canonicalAlias key = some canonical →
      turn.aliases.lookup key = some value →
      turn.followRedirects value = turn.followRedirects canonical) :
    ∀ key canonical value, canonicalAlias key = some canonical →
      turn'.aliases.lookup key = some value →
      turn'.followRedirects value = turn'.followRedirects canonical := by
  intro key canonical value' hkey hval'
  obtain ⟨value, hval⟩ := Option.isSome_iff_exists.1 (hkeys key (by rw [hval']; rfl))
  obtain ⟨value'', hvalue'', heq⟩ := h.aliases key value hval
  cases hval'.symm.trans hvalue''
  rw [heq, ← h.ids value, hcanon key canonical value hkey hval, h.ids]

variable (h : Registering target turn)
include h

/-- **What an alias stands for is joined with the target**, before the alias
is inserted. -/
theorem Registering.join : ∃ turn', Registering target turn' ∧ Coarser turn turn' ∧
      (∀ key', (turn'.aliases.lookup key').isSome = (turn.aliases.lookup key').isSome) ∧
      (∀ key', turn.aliases.lookup key' = some target → turn'.aliases.lookup key' = some target) ∧
      (∀ existing, (canonicalAlias key <|> turn.aliases.lookup key) = some existing →
        turn'.followRedirects existing = target) ∧
      (registerAlias target (turn, rekeys) key).1 =
        { turn' with aliases := turn'.aliases.insert key target } := by
  unfold registerAlias
  dsimp only
  cases hexist : (canonicalAlias key <|> turn.aliases.lookup key) with
  | none => exact ⟨turn, h, .refl h.flat, fun _ => rfl, fun _ h' => h', nofun, rfl⟩
  | some existing =>
    dsimp only
    by_cases heq : turn.followRedirects existing = target
    · rw [if_neg (not_not_intro heq)]
      refine ⟨turn, h, .refl h.flat, fun _ => rfl, fun _ h' => h', ?_, rfl⟩
      rintro _ ⟨⟩
      exact heq
    · rw [if_pos heq]
      have hidem := @followRedirects_idem turn existing h.flat
      have hcoarse : Coarser turn
          (turn.redirectCanonical (turn.followRedirects existing) target rekeys).1 :=
        coarser_redirectCanonical h.flat
      have hkeys : ∀ key', ((turn.redirectCanonical (turn.followRedirects existing) target
          rekeys).1.aliases.lookup key').isSome = (turn.aliases.lookup key').isSome := by
        intro key'
        rw [aliases_redirectCanonical, Option.isSome_map]
      refine ⟨_, ⟨flat_redirectCanonical h.flat, ?_, ?_⟩, hcoarse, hkeys, ?_, ?_, rfl⟩
      · exact hcoarse.canonical (fun key' => (hkeys key').le) h.canonical
      · exact lookup_redirectCanonical h.target fun htgt => heq (by rw [htgt, hidem])
      · intro key' hkey'
        rw [aliases_redirectCanonical, hkey', map_some, hidem, if_neg (Ne.symm heq)]
      · rintro _ ⟨⟩
        rw [followRedirects_redirectCanonical h.flat, hidem, if_pos rfl, h.follow]

variable (rekeys : List ItemRekey)

/-- **An alias is registered.** -/
theorem Registering.alias (key : String) : let turn' := (registerAlias target (turn, rekeys) key).1
    Registering target turn' ∧ Coarser turn turn' ∧ turn'.aliases.lookup key = some target ∧
      (∀ key', turn.aliases.lookup key' = some target → turn'.aliases.lookup key' = some target) ∧
      ∀ key', (turn'.aliases.lookup key').isSome = true ↔
        key' = key ∨ (turn.aliases.lookup key').isSome = true := by
  obtain ⟨turn₁, h₁, hcoarse, hkeys, htgt, hexist, heq⟩ := @Registering.join _ _ key rekeys h
  rw [heq]
  have hget : ∀ key', (turn₁.aliases.insert key target).lookup key' =
      if key' = key then some target else turn₁.aliases.lookup key' :=
    fun key' => lookup_insert_eq
  refine ⟨⟨h₁.flat, ?_, h₁.target⟩, ⟨hcoarse.ids, ?_⟩, ?_, ?_, ?_⟩
  · intro key' canonical value hkey' hval
    rw [hget] at hval
    split at hval
    · next hsame =>
      -- the alias names a canonical id, which is joined with the target
      subst hsame
      cases hval
      have hjoin := hexist canonical (by rw [hkey']; rfl)
      exact h₁.follow.trans hjoin.symm
    · exact h₁.canonical key' canonical value hkey' hval
  · intro key' value hval
    by_cases hsame : key' = key
    · subst hsame
      refine ⟨target, by rw [hget, if_pos rfl], ?_⟩
      show turn₁.followRedirects target = turn₁.followRedirects value
      rw [h₁.follow]
      cases hcanon : canonicalAlias key' with
      | none => exact (hexist value (by rw [hcanon, hval]; rfl)).symm
      | some canonical =>
        have hjoin := hexist canonical (by rw [hcanon]; rfl)
        rw [← hcoarse.ids value, h.canonical key' canonical value hcanon hval, hcoarse.ids, hjoin]
    · obtain ⟨value', hval', hsame'⟩ := hcoarse.aliases key' value hval
      exact ⟨value', by rw [hget, if_neg hsame, hval'], hsame'⟩
  · rw [hget, if_pos rfl]
  · intro key' hkey'
    rw [hget]
    split
    · rfl
    · exact htgt key' hkey'
  · intro key'
    rw [hget]
    by_cases hsame : key' = key
    · simp [hsame]
    · rw [if_neg hsame, hkeys]
      simp [hsame]

/-- **One alias after another is registered.** -/
theorem Registering.aliases (keys : List String) :
    let turn' := (keys.foldl (registerAlias target) (turn, rekeys)).1
    Registering target turn' ∧ Coarser turn turn' ∧
      (∀ key ∈ keys, turn'.aliases.lookup key = some target) ∧
      (∀ key', turn.aliases.lookup key' = some target → turn'.aliases.lookup key' = some target) ∧
      ∀ key', (turn'.aliases.lookup key').isSome = true ↔
        key' ∈ keys ∨ (turn.aliases.lookup key').isSome = true := by
  induction keys generalizing turn rekeys with
  | nil => exact ⟨h, .refl h.flat, nofun, fun _ h' => h', by simp⟩
  | cons key keys ih =>
    obtain ⟨h₁, hcoarse, hkey, htgt, hkeys⟩ := h.alias rekeys key
    obtain ⟨h₂, hcoarse', hkey', htgt', hkeys'⟩ :=
      ih h₁ (registerAlias target (turn, rekeys) key).2
    refine ⟨h₂, hcoarse.trans hcoarse', ?_, fun key' h' => htgt' key' (htgt key' h'), ?_⟩
    · rintro key' (_ | ⟨_, hmem⟩)
      · exact htgt' key hkey
      · exact hkey' key' hmem
    · intro key'
      rw [foldl_cons, hkeys' key', hkeys key', mem_cons]
      tauto

omit h

/-- **`register_disk_item_aliases`**: the turn gets coarser, and all the
aliases stand for one id. -/
theorem IdentityInv.registerDiskItemAliases (h : IdentityInv turn) (canonicalItemId : String)
    (aliases : List String) :
    let turn' := (turn.registerDiskItemAliases canonicalItemId aliases).1
    IdentityInv turn' ∧ Coarser turn turn' ∧
      ∀ key ∈ aliases, turn'.aliases.lookup key = some (turn'.followRedirects canonicalItemId) := by
  have hbeg : Registering (turn.followRedirects canonicalItemId) turn :=
    ⟨h.flat, h.canonical, h.flat.lookup_follow⟩
  obtain ⟨hend, hcoarse, hkey, -, hkeys⟩ := hbeg.aliases [] (expandedSourceAliases aliases)
  refine ⟨{ hend with linked := fun itemId hitem => ?_ }, hcoarse, fun key hmem => ?_⟩
  · have hitem' := hitem.imp (hkeys _).1 (hkeys _).1
    refine (hkeys _).2 ?_
    by_cases hnew : callAlias itemId ∈ expandedSourceAliases aliases ∨
        durableAlias itemId ∈ expandedSourceAliases aliases
    · left
      rcases hnew with hnew | hnew
      · obtain ⟨key, hkey, hin⟩ := mem_expandedSourceAliases.1 hnew
        exact mem_expandedSourceAliases.2 ⟨key, hkey, appAlias_mem_expandAlias (.inl hin)⟩
      · obtain ⟨key, hkey, hin⟩ := mem_expandedSourceAliases.1 hnew
        exact mem_expandedSourceAliases.2 ⟨key, hkey, appAlias_mem_expandAlias (.inr hin)⟩
    · right
      refine h.linked itemId (hitem'.imp (Or.resolve_left · ?_) (Or.resolve_left · ?_))
      · exact fun h' => hnew (.inl h')
      · exact fun h' => hnew (.inr h')
  · have hfollow := hcoarse.ids canonicalItemId
    have htgt := hend.follow
    exact (hkey key (mem_expandedSourceAliases_self hmem)).trans
      (congrArg some (htgt.symm.trans hfollow))

/-! ## A live item -/

theorem aliasOf_eq_none (h : turn.aliasOf itemId = none) :
    turn.aliases.lookup (appAlias itemId) = none ∧ turn.aliases.lookup (callAlias itemId) = none ∧
      turn.aliases.lookup (durableAlias itemId) = none := by
  unfold aliasOf at h
  simpa [Option.or_eq_none_iff] using h

/-- The app server's alias decides. -/
theorem IdentityInv.aliasOf_eq (h : IdentityInv turn) :
    turn.aliasOf itemId = turn.aliases.lookup (appAlias itemId) := by
  unfold aliasOf
  cases happ : turn.aliases.lookup (appAlias itemId) with
  | some value => rfl
  | none =>
    have hnone : ∀ {o : Option String}, (o.isSome → False) → o = none := by
      intro o ho
      cases o with
      | none => rfl
      | some value => exact absurd rfl ho
    have hlinked : ¬ (turn.aliases.lookup (appAlias itemId)).isSome := by rw [happ]; nofun
    rw [hnone fun hcall => hlinked (h.linked itemId (.inl hcall)),
      hnone fun hdurable => hlinked (h.linked itemId (.inr hdurable))]
    rfl

theorem newLiveId_fields {turnId kind : String} :
    (turn.newLiveId turnId kind itemId).2.aliases = turn.aliases ∧
      (turn.newLiveId turnId kind itemId).2.canonicalRedirects = turn.canonicalRedirects := by
  unfold newLiveId
  split
  · exact ⟨rfl, rfl⟩
  · split <;> exact ⟨rfl, rfl⟩

variable {kind : String}

/-- The aliases of a new item are the app server's and perhaps one of the
others. -/
theorem lookup_insertLiveAliases {canonical : String} :
    (turn.insertLiveAliases kind itemId canonical).aliases.lookup key =
      if key = appAlias itemId ∨ key = callAlias itemId ∧ isCallLikeKind kind = true ∨
        key = durableAlias itemId ∧ isCallLikeKind kind = false ∧
          isAppServerSyntheticId itemId = false
      then some canonical else turn.aliases.lookup key := by
  unfold insertLiveAliases
  by_cases happ : key = appAlias itemId
  · subst happ
    refine Eq.trans ?_ (if_pos (.inl rfl)).symm
    split
    · rw [lookup_insert_eq, if_neg appAlias_ne_callAlias, lookup_insert]
    · split
      · rw [lookup_insert_eq, if_neg appAlias_ne_durableAlias, lookup_insert]
      · rw [lookup_insert]
  · cases isCallLikeKind kind <;> cases isAppServerSyntheticId itemId <;>
      simp [lookup_insert_eq, happ]

/-- No alias of these forms names a canonical id. -/
theorem canonicalAlias_eq_none :
    canonicalAlias (appAlias value) = none ∧ canonicalAlias (callAlias value) = none ∧
      canonicalAlias (durableAlias value) = none := by
  refine ⟨?_, ?_, ?_⟩ <;>
    simp [canonicalAlias, stripPrefix, appAlias, callAlias, durableAlias, isPrefixOf]

/-- **`resolve_live_id`**: the turn gets coarser, and what it returns is
where the id leads. -/
theorem IdentityInv.resolveLiveId (h : IdentityInv turn) (turnId kind rawItemId : String) :
    let result := turn.resolveLiveId turnId kind rawItemId
    IdentityInv result.2 ∧ Coarser turn result.2 := by
  have hsame : IdentityInv turn ∧ Coarser turn turn := ⟨h, .refl h.flat⟩
  unfold TurnIdentityState.resolveLiveId
  split
  · exact hsame
  · split
    · exact hsame
    · next hnone =>
      obtain ⟨happ, hcall, hdurable⟩ := aliasOf_eq_none hnone
      obtain ⟨haliases, hredirects⟩ := @newLiveId_fields turn rawItemId turnId kind
      generalize hnew : turn.newLiveId turnId kind rawItemId = new at haliases hredirects ⊢
      dsimp only
      generalize new.2.followRedirects new.1 = canonical
      have hget : ∀ key, (new.2.insertLiveAliases kind rawItemId canonical).aliases.lookup key =
          _ := fun key => lookup_insertLiveAliases
      rw [haliases] at hget
      have hfollow : (new.2.insertLiveAliases kind rawItemId canonical).canonicalRedirects =
          turn.canonicalRedirects := hredirects
      have hids : ∀ itemId, (new.2.insertLiveAliases kind rawItemId canonical).followRedirects
          itemId = turn.followRedirects itemId := fun itemId => by
        rw [followRedirects, hfollow, followRedirects]
      refine ⟨⟨hfollow ▸ h.flat, ?_, ?_⟩, fun itemId => ?_, ?_⟩
      · intro key canonical' value hkey hval
        rw [hget] at hval
        split at hval
        · next hown =>
          obtain ⟨hnoApp, hnoCall, hnoDurable⟩ := @canonicalAlias_eq_none rawItemId
          rcases hown with rfl | ⟨rfl, -⟩ | ⟨rfl, -⟩
          · rw [hnoApp] at hkey
            cases hkey
          · rw [hnoCall] at hkey
            cases hkey
          · rw [hnoDurable] at hkey
            cases hkey
        · rw [hids, hids]
          exact h.canonical key canonical' value hkey hval
      · intro itemId hitem
        rw [hget, hget] at hitem
        rw [hget]
        split
        · rfl
        · next hother =>
          -- the aliases of another item are as before
          have hne : itemId ≠ rawItemId := fun heq => hother (.inl (heq ▸ rfl))
          refine h.linked itemId (hitem.imp (fun hsome => ?_) fun hsome => ?_)
          · rwa [if_neg ?_] at hsome
            rintro (heq | ⟨heq, -⟩ | ⟨heq, -⟩)
            · exact appAlias_ne_callAlias heq.symm
            · exact hne (callAlias_injective heq)
            · exact callAlias_ne_durableAlias heq
          · rwa [if_neg ?_] at hsome
            rintro (heq | ⟨heq, -⟩ | ⟨heq, -⟩)
            · exact appAlias_ne_durableAlias heq.symm
            · exact callAlias_ne_durableAlias heq.symm
            · exact hne (durableAlias_injective heq)
      · rw [hids, hids, followRedirects_idem h.flat]
      · intro key value hval
        refine ⟨value, ?_, rfl⟩
        rw [hget, if_neg ?_]
        · exact hval
        · rintro (rfl | ⟨rfl, -⟩ | ⟨rfl, -⟩)
          · rw [happ] at hval
            cases hval
          · rw [hcall] at hval
            cases hval
          · rw [hdurable] at hval
            cases hval

/-! ## What ids and aliases resolve to -/

/-- What an item of the turn can be called by: an id, or an alias. -/
inductive ItemName where
  | id (itemId : String)
  | key (key : String)

/-- **What a name resolves to**, if the turn knows it: every canonical id is
known, and every id with an alias. -/
def TurnIdentityState.resolve (turn : TurnIdentityState) : ItemName → Option String
  | .id itemId =>
    if isCanonicalItemId itemId then some (turn.followRedirects itemId)
    else (turn.aliasOf itemId).map turn.followRedirects
  | .key key => (turn.aliases.lookup key).map turn.followRedirects

variable {name name' : ItemName} {canonical : String}

/-- A name resolves to an id that is not redirected. -/
theorem IdentityInv.lookup_resolve (h : IdentityInv turn)
    (hname : turn.resolve name = some canonical) :
    turn.canonicalRedirects.lookup canonical = none := by
  have hmap : ∀ {o : Option String}, o.map turn.followRedirects = some canonical →
      turn.canonicalRedirects.lookup canonical = none := by
    intro o ho
    obtain ⟨value, -, rfl⟩ := map_eq_some_iff.1 ho
    exact h.flat.lookup_follow
  cases name with
  | id itemId =>
    unfold resolve at hname
    dsimp only at hname
    split at hname
    · exact hmap (o := some itemId) hname
    · exact hmap hname
  | key key => exact hmap hname

/-- **In a coarser turn a name resolves to what its canonical id has been
joined with.** -/
theorem Coarser.resolve (h : Coarser turn turn') (hinv : IdentityInv turn)
    (hinv' : IdentityInv turn') (hname : turn.resolve name = some canonical) :
    turn'.resolve name = some (turn'.followRedirects canonical) := by
  have hkey : ∀ key, (turn.aliases.lookup key).map turn.followRedirects = some canonical →
      (turn'.aliases.lookup key).map turn'.followRedirects =
        some (turn'.followRedirects canonical) := by
    intro key hkey
    obtain ⟨value, hval, rfl⟩ := map_eq_some_iff.1 hkey
    obtain ⟨value', hval', heq⟩ := h.aliases key value hval
    rw [hval', map_some, heq, h.ids]
  cases name with
  | id itemId =>
    unfold TurnIdentityState.resolve at hname ⊢
    dsimp only at hname ⊢
    split at hname
    · next hcanon =>
      cases hname
      rw [if_pos hcanon, h.ids]
    · next hcanon =>
      rw [if_neg hcanon, hinv'.aliasOf_eq]
      rw [hinv.aliasOf_eq] at hname
      exact hkey _ hname
  | key key => exact hkey key hname

/-- `resolve_existing_item_id` resolves what the turn knows. -/
theorem resolveExistingItemId_eq :
    turn.resolveExistingItemId itemId = (turn.resolve (.id itemId)).getD itemId := by
  unfold resolveExistingItemId TurnIdentityState.resolve
  dsimp only
  split
  · rfl
  · cases turn.aliasOf itemId <;> rfl

/-- And so does `resolve_live_id`. -/
theorem resolveLiveId_fst {turnId : String} (h : turn.resolve (.id itemId) = some canonical) :
    (turn.resolveLiveId turnId kind itemId).1 = canonical := by
  unfold TurnIdentityState.resolve at h
  unfold TurnIdentityState.resolveLiveId
  dsimp only at h ⊢
  split at h
  · next hcanon =>
    rw [if_pos hcanon]
    exact Option.some.inj h
  · next hcanon =>
    obtain ⟨value, hval, rfl⟩ := map_eq_some_iff.1 h
    rw [if_neg hcanon, hval]

/-! ## All the turns -/

variable {threadId turnId : String} {call : IdentityCall}

namespace ItemIdentityState

variable {threadId' turnId' : String}

/-- One turn is set, the others stay. -/
theorem turn_setTurn : (s.setTurn threadId turnId turn).turn threadId' turnId' =
      if threadId' = threadId ∧ turnId' = turnId then turn else s.turn threadId' turnId' := by
  unfold ItemIdentityState.turn turns setTurn
  rw [lookup_insert_eq]
  by_cases hthr : threadId' = threadId
  · subst hthr
    rw [if_pos rfl, getD_some, lookup_insert_eq]
    by_cases hturn : turnId' = turnId
    · rw [if_pos hturn, if_pos ⟨rfl, hturn⟩, getD_some]
    · rw [if_neg hturn, if_neg fun h => hturn h.2]
      rfl
  · rw [if_neg hthr, if_neg fun h => hthr h.1]

/-- A turn removed is as a new one, the others stay. -/
theorem turn_removeTurn : (s.removeTurn threadId turnId).turn threadId' turnId' =
      if threadId' = threadId ∧ turnId' = turnId then .new else s.turn threadId' turnId' := by
  unfold ItemIdentityState.turn turns removeTurn
  cases hturns : s.threads.lookup threadId with
  | none =>
    dsimp only
    split
    · next heq =>
      rw [heq.1, hturns]
      rfl
    · rfl
  | some turns =>
    rw [lookup_insert_eq]
    by_cases hthr : threadId' = threadId
    · subst hthr
      rw [if_pos rfl, getD_some, lookup_erase_eq, hturns]
      by_cases hturn : turnId' = turnId
      · rw [if_pos hturn, if_pos ⟨rfl, hturn⟩]
        rfl
      · rw [if_neg hturn, if_neg fun h => hturn h.2]
        rfl
    · rw [if_neg hthr, if_neg fun h => hthr h.1]

end ItemIdentityState

theorem IdentityInv.new : IdentityInv .new where
  flat := Redirects.flat_empty
  canonical key canonical value _ hval := by
    cases hval
  linked itemId hitem := by
    rcases hitem with hitem | hitem <;> cases hitem

/-- An absent turn resolves ids as the default one does. -/
theorem ItemIdentityState.resolveExistingItemId_eq :
    s.resolveExistingItemId threadId turnId itemId =
      (s.turn threadId turnId).resolveExistingItemId itemId := by
  have hnew : TurnIdentityState.new.resolveExistingItemId itemId = itemId := by
    have hfollow : TurnIdentityState.new.followRedirects itemId = itemId :=
      Redirects.flat_empty.follow_of_lookup (lookup_empty _)
    have halias : TurnIdentityState.new.aliasOf itemId = none := by
      unfold aliasOf TurnIdentityState.new
      rfl
    unfold TurnIdentityState.resolveExistingItemId
    rw [hfollow, halias, ite_id]
  unfold ItemIdentityState.resolveExistingItemId ItemIdentityState.turn turns
  cases s.threads.lookup threadId with
  | none =>
    exact hnew.symm
  | some turns =>
    dsimp only
    rw [getD_some]
    cases turns.lookup turnId with
    | none => exact hnew.symm
    | some turn => rfl

/-- **A call keeps the invariant of every turn**, and makes it coarser if it
does not remove it. -/
theorem identity_step (h : ∀ threadId turnId, IdentityInv (s.turn threadId turnId))
    (hstep : identityMachine.step s call = some s') :
    IdentityInv (s'.turn threadId turnId) ∧ (call ≠ .removeTurn threadId turnId →
        Coarser (s.turn threadId turnId) (s'.turn threadId turnId)) := by
  -- a call changes one turn
  have hset : ∀ threadId' turnId' turn', IdentityInv turn' →
      Coarser (s.turn threadId' turnId') turn' → s' = s.setTurn threadId' turnId' turn' →
      IdentityInv (s'.turn threadId turnId) ∧
        Coarser (s.turn threadId turnId) (s'.turn threadId turnId) := by
    rintro threadId' turnId' turn' hinv hcoarse rfl
    rw [ItemIdentityState.turn_setTurn]
    split
    · next heq =>
      obtain ⟨rfl, rfl⟩ := heq
      exact ⟨hinv, hcoarse⟩
    · exact ⟨h threadId turnId, .refl (h threadId turnId).flat⟩
  cases call with
  | resolveLiveId threadId' turnId' kind rawItemId =>
    obtain ⟨hinv, hcoarse⟩ := (h threadId' turnId').resolveLiveId turnId' kind rawItemId
    obtain ⟨hinv', hcoarse'⟩ := hset threadId' turnId' _ hinv hcoarse (Option.some.inj hstep).symm
    exact ⟨hinv', fun _ => hcoarse'⟩
  | registerDiskItemAliases threadId' turnId' canonicalItemId aliases =>
    obtain ⟨hinv, hcoarse, -⟩ :=
      (h threadId' turnId').registerDiskItemAliases canonicalItemId aliases
    obtain ⟨hinv', hcoarse'⟩ := hset threadId' turnId' _ hinv hcoarse (Option.some.inj hstep).symm
    exact ⟨hinv', fun _ => hcoarse'⟩
  | resolveExistingItemId threadId' turnId' itemId =>
    cases hstep
    exact ⟨h threadId turnId, fun _ => .refl (h threadId turnId).flat⟩
  | removeTurn threadId' turnId' =>
    cases hstep
    rw [ItemIdentityState.turn_removeTurn]
    split
    · next heq => exact ⟨.new, fun hne => absurd (by rw [heq.1, heq.2]) hne⟩
    · exact ⟨h threadId turnId, fun _ => .refl (h threadId turnId).flat⟩

theorem IdentityInv.of_reachable (h : identityMachine.Reachable s) :
    ∀ threadId turnId, IdentityInv (s.turn threadId turnId) := by
  refine h.rule (P := fun s => ∀ threadId turnId, IdentityInv (s.turn threadId turnId)) ?_ ?_
  · intro threadId turnId
    exact .new
  · intro u call v _ hu hstep threadId turnId
    exact (identity_step hu hstep).1

/-- The machine whose calls leave a turn in place. -/
def keepingTurn (threadId turnId : String) : Machine ItemIdentityState IdentityCall :=
  identityMachine.restrict fun _ call => call ≠ .removeTurn threadId turnId

/-- **A turn only gets coarser**, until it is removed. -/
theorem coarser_of_leads (h : identityMachine.Reachable s)
    (hleads : (keepingTurn threadId turnId).Leads s s') :
    Coarser (s.turn threadId turnId) (s'.turn threadId turnId) := by
  refine hleads.rule (P := fun u => Coarser (s.turn threadId turnId) (u.turn threadId turnId)) ?_ ?_
  · exact .refl (IdentityInv.of_reachable h threadId turnId).flat
  · intro u call v hsu hu hstep
    obtain ⟨hkeep, hstep⟩ := Machine.restrict_step_eq_some.1 hstep
    have hinv := IdentityInv.of_reachable (h.leads hsu.of_restrict)
    exact hu.trans ((identity_step hinv hstep).2 hkeep)

/-- **Item identity is a well-formed union that only coarsens.** After every
sequence of calls, in every turn: the redirects have no cycle; what a name
resolves to is not redirected; following them takes two rounds at most and
is idempotent; names that resolve to one id do so until the turn is
removed; the aliases of one registration resolve to one id; and what the
turn knows, both lookups resolve alike, while `resolve_existing_item_id`
returns other ids as they are. -/
theorem identity_coarsens (h : identityMachine.Reachable s) (threadId turnId : String) :
    (∀ itemId, ¬ Relation.TransGen
      (fun x y => (s.turn threadId turnId).canonicalRedirects.lookup x = some y) itemId itemId) ∧
    (∀ name canonical, (s.turn threadId turnId).resolve name = some canonical →
      (s.turn threadId turnId).canonicalRedirects.lookup canonical = none) ∧
    (∀ itemId fuel, (s.turn threadId turnId).canonicalRedirects.followLoop (fuel + 2) itemId [] =
      some ((s.turn threadId turnId).followRedirects itemId)) ∧
    (∀ itemId, (s.turn threadId turnId).followRedirects
      ((s.turn threadId turnId).followRedirects itemId) =
        (s.turn threadId turnId).followRedirects itemId) ∧
    (∀ s', (keepingTurn threadId turnId).Leads s s' → ∀ name name' canonical,
      (s.turn threadId turnId).resolve name = some canonical →
      (s.turn threadId turnId).resolve name' = some canonical →
      ∃ canonical', (s'.turn threadId turnId).resolve name = some canonical' ∧
        (s'.turn threadId turnId).resolve name' = some canonical') ∧
    (∀ canonicalItemId aliases,
      let turn' := (s.registerDiskItemAliases threadId turnId canonicalItemId aliases).2.turn
        threadId turnId
      ∀ key ∈ aliases, turn'.resolve (.key key) = some (turn'.followRedirects canonicalItemId)) ∧
    ∀ itemId kind, (∀ canonical, (s.turn threadId turnId).resolve (.id itemId) = some canonical →
        s.resolveExistingItemId threadId turnId itemId = canonical ∧
          (s.resolveLiveId threadId turnId kind itemId).1 = canonical) ∧
      ((s.turn threadId turnId).resolve (.id itemId) = none →
        s.resolveExistingItemId threadId turnId itemId = itemId) := by
  have hinv := IdentityInv.of_reachable h threadId turnId
  refine ⟨fun itemId => hinv.flat.not_cycle, fun name canonical => hinv.lookup_resolve,
    fun itemId fuel => ?_, fun itemId => followRedirects_idem hinv.flat, ?_, ?_, ?_⟩
  · rw [hinv.flat.followLoop_eq, followRedirects, hinv.flat.follow_eq]
  · intro s' hleads name name' canonical hname hname'
    have hinv' := IdentityInv.of_reachable (h.leads hleads.of_restrict) threadId turnId
    have hcoarser := coarser_of_leads h hleads
    exact ⟨_, hcoarser.resolve hinv hinv' hname, hcoarser.resolve hinv hinv' hname'⟩
  · intro canonicalItemId aliases
    obtain ⟨hinv', -, hkeys⟩ := hinv.registerDiskItemAliases canonicalItemId aliases
    have hturn : (s.registerDiskItemAliases threadId turnId canonicalItemId aliases).2.turn
        threadId turnId =
          ((s.turn threadId turnId).registerDiskItemAliases canonicalItemId aliases).1 :=
      ItemIdentityState.turn_setTurn.trans (if_pos ⟨rfl, rfl⟩)
    rw [hturn]
    intro turn' key hkey
    show Option.map _ _ = _
    rw [hkeys key hkey, map_some, followRedirects_idem hinv'.flat]
  · intro itemId kind
    rw [ItemIdentityState.resolveExistingItemId_eq, resolveExistingItemId_eq]
    refine ⟨fun canonical hname => ?_, fun hname => ?_⟩
    · exact ⟨by rw [hname, getD_some], resolveLiveId_fst hname⟩
    · rw [hname, Option.getD_none]

/-- A live item, another one, and the file that tells that they are one. -/
def joinCalls : List IdentityCall :=
  [.resolveLiveId "thread" "turn" "commandExecution" "fc-1",
    .resolveLiveId "thread" "turn" "commandExecution" "cmd-1",
    .registerDiskItemAliases "thread" "turn" "cxitem:v1:turn:call:cmd-1" ["id:fc-1"]]

/-- Two calls that are joined. -/
theorem identity_coarsens_joined : let s := identityMachine.run joinCalls identityMachine.init
    (s.turn "thread" "turn").resolve (.id "fc-1") = some "cxitem:v1:turn:call:cmd-1" ∧
      s.resolveExistingItemId "thread" "turn" "fc-1" = "cxitem:v1:turn:call:cmd-1" := by
  have hrun := @Machine.exec_eq_run _ _ identityMachine identityMachine.init joinCalls
    (by decide +kernel)
  have hname : ((identityMachine.run joinCalls identityMachine.init).turn "thread" "turn").resolve
      (.id "fc-1") = some "cxitem:v1:turn:call:cmd-1" := by decide +kernel
  obtain ⟨-, -, -, -, -, -, hresolve⟩ := identity_coarsens ⟨joinCalls, hrun⟩ "thread" "turn"
  exact ⟨hname, ((hresolve "fc-1" "commandExecution").1 _ hname).1⟩

/-- **The lookups differ** on an id the turn does not know. -/
theorem lookups_differ : ∃ calls s, identityMachine.exec calls identityMachine.init = some s ∧
      ∃ threadId turnId kind itemId, s.resolveExistingItemId threadId turnId itemId ≠
        (s.resolveLiveId threadId turnId kind itemId).1 :=
  ⟨[], _, rfl, "thread", "turn", "agentMessage", "msg-1", by decide +kernel⟩

end Remux
