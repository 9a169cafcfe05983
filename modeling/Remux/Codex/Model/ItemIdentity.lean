import Remux.Common.Machine
import Remux.Common.Redirects
import Remux.Common.Text

/-!
# The identity of the items of a Codex turn

`ItemIdentityState` of `item_identity.rs`. An item is known by the app
server's id, by a durable id or by a call's id, each an alias of the
canonical id that both the live events and the history on disk use. When
two canonical ids turn out to be of one item, one redirects to the other.
-/

namespace Remux

/-- `CANONICAL_PREFIX`. -/
def canonicalPrefix : String := "cxitem:v1:"

/-- `is_canonical_item_id`. -/
def isCanonicalItemId (itemId : String) : Bool := (stripPrefix canonicalPrefix itemId).isSome

/-- `canonical_durable_item_id`. -/
def canonicalDurableItemId (turnId itemId : String) : String :=
  canonicalPrefix ++ turnId ++ ":id:" ++ itemId

/-- `canonical_call_id`. -/
def canonicalCallId (turnId callId : String) : String :=
  canonicalPrefix ++ turnId ++ ":call:" ++ callId

/-- `canonical_legacy_id`. -/
def canonicalLegacyId (turnId kind : String) (ordinal : ℕ) : String :=
  canonicalPrefix ++ turnId ++ ":legacy:" ++ kind ++ ":" ++ toString ordinal

/-- `is_call_like_kind`. -/
def isCallLikeKind (kind : String) : Bool :=
  ["commandExecution", "dynamicToolCall", "fileChange", "mcpToolCall", "webSearch",
    "imageGeneration", "collabAgentToolCall", "subAgentActivity"].contains kind

/-- `is_app_server_synthetic_id`. -/
def isAppServerSyntheticId (itemId : String) : Bool :=
  (stripPrefix "item-" itemId).any fun suffix =>
    !suffix.isEmpty && suffix.toList.all Char.isDigit

/-- The alias of an id that the app server gave. -/
def appAlias (itemId : String) : String := "app:" ++ itemId

/-- The alias of an id that outlives a restart. -/
def durableAlias (itemId : String) : String := "id:" ++ itemId

/-- The alias of a call. -/
def callAlias (callId : String) : String := "call:" ++ callId

/-- `ItemRekey`. -/
structure ItemRekey where
  source : String
  target : String
  deriving DecidableEq

/-- `TurnIdentityState`. -/
structure TurnIdentityState where
  aliases : Assoc String String
  canonicalRedirects : Redirects String
  liveLegacyOrdinals : Assoc String ℕ

namespace TurnIdentityState

/-- The default state. -/
def new : TurnIdentityState := ⟨∅, ∅, ∅⟩

variable (turn : TurnIdentityState)

/-- `follow_redirects`. -/
def followRedirects (itemId : String) : String := turn.canonicalRedirects.follow itemId

/-- `next_live_legacy_ordinal`. -/
def nextLiveLegacyOrdinal (kind : String) : ℕ × TurnIdentityState :=
  let ordinal := (turn.liveLegacyOrdinals.lookup kind).getD 0
  (ordinal, { turn with liveLegacyOrdinals := turn.liveLegacyOrdinals.insert kind (ordinal + 1) })

/-- `redirect_canonical`. -/
def redirectCanonical (source target : String) (rekeys : List ItemRekey) :
    TurnIdentityState × List ItemRekey :=
  let source := turn.followRedirects source
  let target := turn.followRedirects target
  if source = target then (turn, rekeys)
  else
    ({ turn with
        aliases := turn.aliases.mapValues fun canonical =>
          if canonical = source then target else canonical
        canonicalRedirects := turn.canonicalRedirects.redirect source target },
      rekeys ++ [⟨source, target⟩])

/-- The canonical id of an alias that the item goes by in this turn; the
order is that of the source. -/
def aliasOf (itemId : String) : Option String :=
  turn.aliases.lookup (appAlias itemId) <|>
    (turn.aliases.lookup (callAlias itemId) <|> turn.aliases.lookup (durableAlias itemId))

/-- The canonical id of an item seen for the first time. -/
def newLiveId (turnId kind rawItemId : String) : String × TurnIdentityState :=
  if isAppServerSyntheticId rawItemId then
    let (ordinal, turn) := turn.nextLiveLegacyOrdinal kind
    (canonicalLegacyId turnId kind ordinal, turn)
  else if isCallLikeKind kind then (canonicalCallId turnId rawItemId, turn)
  else (canonicalDurableItemId turnId rawItemId, turn)

/-- The aliases of an item seen for the first time. -/
def insertLiveAliases (kind rawItemId canonical : String) : TurnIdentityState :=
  let aliases := turn.aliases.insert (appAlias rawItemId) canonical
  { turn with
    aliases :=
      if isCallLikeKind kind then aliases.insert (callAlias rawItemId) canonical
      else if !isAppServerSyntheticId rawItemId then
        aliases.insert (durableAlias rawItemId) canonical
      else aliases }

/-- `resolve_live_id`, in its turn. -/
def resolveLiveId (turnId kind rawItemId : String) : String × TurnIdentityState :=
  if isCanonicalItemId rawItemId then (turn.followRedirects rawItemId, turn)
  else
    match turn.aliasOf rawItemId with
    | some canonical => (turn.followRedirects canonical, turn)
    | none =>
      let (canonical, turn) := turn.newLiveId turnId kind rawItemId
      let canonical := turn.followRedirects canonical
      (canonical, turn.insertLiveAliases kind rawItemId canonical)

/-- `resolve_existing_item_id`, in its turn. -/
def resolveExistingItemId (itemId : String) : String :=
  if isCanonicalItemId itemId then turn.followRedirects itemId
  else
    match turn.aliasOf itemId with
    | some canonical => turn.followRedirects canonical
    | none => itemId

end TurnIdentityState

/-- An alias of the form `canonical:` and a canonical id. -/
def canonicalAlias (key : String) : Option String :=
  (stripPrefix "canonical:" key).filter isCanonicalItemId

/-- An alias, and what it brings with it. -/
def expandAlias (key : String) : List String :=
  key ::
    match splitOnce key with
    | some ("id", value) | some ("call", value) =>
      [appAlias value, durableAlias value, callAlias value]
    | some ("app", value) => [durableAlias value, callAlias value]
    | _ => []

/-- `push_alias`. -/
def pushAlias (expanded : List String) (key : String) : List String :=
  if key ∈ expanded then expanded else expanded ++ [key]

/-- `expanded_source_aliases`. -/
def expandedSourceAliases (aliases : List String) : List String :=
  (aliases.flatMap expandAlias).foldl pushAlias []

/-- `dedupe_rekeys`. -/
def dedupeRekeys (rekeys : List ItemRekey) : List ItemRekey :=
  (rekeys.filter fun rekey => rekey.source ≠ rekey.target).foldl
    (fun deduped rekey => if rekey ∈ deduped then deduped else deduped ++ [rekey]) []

namespace TurnIdentityState

/-- One alias is registered: what it stands for now redirects to the
target. -/
def registerAlias (target : String) (state : TurnIdentityState × List ItemRekey) (key : String) :
    TurnIdentityState × List ItemRekey :=
  let (turn, rekeys) := state
  let (turn, rekeys) :=
    match canonicalAlias key <|> turn.aliases.lookup key with
    | some existing =>
      let existing := turn.followRedirects existing
      if existing ≠ target then turn.redirectCanonical existing target rekeys else (turn, rekeys)
    | none => (turn, rekeys)
  ({ turn with aliases := turn.aliases.insert key target }, rekeys)

/-- `register_disk_item_aliases`, in its turn. -/
def registerDiskItemAliases (turn : TurnIdentityState) (canonicalItemId : String)
    (aliases : List String) : TurnIdentityState × List ItemRekey :=
  let target := turn.followRedirects canonicalItemId
  let (turn, rekeys) :=
    (expandedSourceAliases aliases).foldl (registerAlias target) (turn, [])
  (turn, dedupeRekeys rekeys)

end TurnIdentityState

/-- `ItemIdentityState`: by thread, and then by turn. -/
structure ItemIdentityState where
  threads : Assoc String (Assoc String TurnIdentityState)

namespace ItemIdentityState

variable (s : ItemIdentityState) (threadId turnId : String)

/-- The turns of a thread; none, if it is not there. -/
def turns : Assoc String TurnIdentityState := (s.threads.lookup threadId).getD ∅

/-- The state of a turn; the default one, if it is not there. -/
def turn : TurnIdentityState := ((s.turns threadId).lookup turnId).getD .new

/-- The state of a turn changes; the turn is there from now on. -/
def setTurn (turn : TurnIdentityState) : ItemIdentityState :=
  ⟨s.threads.insert threadId ((s.turns threadId).insert turnId turn)⟩

/-- `resolve_live_id`. -/
def resolveLiveId (kind rawItemId : String) : String × ItemIdentityState :=
  let (canonical, turn) := (s.turn threadId turnId).resolveLiveId turnId kind rawItemId
  (canonical, s.setTurn threadId turnId turn)

/-- `register_disk_item_aliases`. -/
def registerDiskItemAliases (canonicalItemId : String) (aliases : List String) :
    List ItemRekey × ItemIdentityState :=
  let (turn, rekeys) := (s.turn threadId turnId).registerDiskItemAliases canonicalItemId aliases
  (rekeys, s.setTurn threadId turnId turn)

/-- `resolve_existing_item_id`. -/
def resolveExistingItemId (itemId : String) : String :=
  match s.threads.lookup threadId with
  | none => itemId
  | some turns =>
    match turns.lookup turnId with
    | none => itemId
    | some turn => turn.resolveExistingItemId itemId

/-- `remove_turn`. -/
def removeTurn : ItemIdentityState :=
  match s.threads.lookup threadId with
  | none => s
  | some turns => ⟨s.threads.insert threadId (turns.erase turnId)⟩

end ItemIdentityState

/-- A call. -/
inductive IdentityCall where
  | resolveLiveId (threadId turnId kind rawItemId : String)
  | registerDiskItemAliases (threadId turnId canonicalItemId : String) (aliases : List String)
  | resolveExistingItemId (threadId turnId itemId : String)
  | removeTurn (threadId turnId : String)
  deriving DecidableEq

/-- **The machine of the item identities**: one call after another. -/
def identityMachine : Machine ItemIdentityState IdentityCall where
  init := ⟨∅⟩
  step s
    | .resolveLiveId threadId turnId kind rawItemId =>
      some (s.resolveLiveId threadId turnId kind rawItemId).2
    | .registerDiskItemAliases threadId turnId canonicalItemId aliases =>
      some (s.registerDiskItemAliases threadId turnId canonicalItemId aliases).2
    | .resolveExistingItemId _ _ _ => some s
    | .removeTurn threadId turnId => some (s.removeTurn threadId turnId)

end Remux
