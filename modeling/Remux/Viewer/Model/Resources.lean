import Remux.Common.Machine

/-!
# The reader of resources

`AgentResourceReader` of the viewer. A call of `read` sends a request, and
when its reply finds another generation or other capabilities it clears
what is recorded and sends a second one. Between a request, its answer by
the server and the arrival of the reply anything else may happen.

The server holds a revision and a value for each key it has, in a
generation of its own, and answers that a resource is not modified exactly
when the request names its revision.
-/

namespace Remux

/-- A value as it is served: with the generation and the revision it is
the value of. -/
structure ServedValue (Value : Type) where
  serverGeneration : String
  revision : ℕ
  value : Value
  deriving DecidableEq

/-- The entry of a key in a `NativeAgentResourceReadResult`. -/
inductive ResourceStatus (Value : Type) where
  | ok (revision : ℕ) (value : ServedValue Value)
  | notModified (revision : ℕ)
  | missing
  deriving DecidableEq

/-- The parameters of a read, but for what is focused. -/
structure ReadRequest (Key : Type) where
  knownServerGeneration : Option String
  capabilityRevision : Option String
  keys : List Key
  ifNoneMatch : Key → Option ℕ

/-- `NativeAgentResourceReadResult`: one entry for each key, in order. -/
structure ReadResult (Key Value : Type) where
  serverGeneration : String
  capabilityRevision : String
  keys : List Key
  status : Key → ResourceStatus Value

/-- What the server holds. -/
structure ResourceServer (Key Value : Type) where
  serverGeneration : String
  capabilityRevision : String
  resource : Key → Option (ℕ × Value)

/-- `NativeAgentResourceReadUpdate`. -/
structure ReadUpdate (Key Value : Type) where
  capabilityRevision : String
  generationChanged : Bool
  missing : List Key
  serverGeneration : String
  values : Key → Option (ServedValue Value)

/-- A `revisions.set`. -/
structure Recording (Key : Type) where
  serverGeneration : String
  key : Key
  revision : ℕ
  deriving DecidableEq

/-- `AgentResourceReader`, with the revisions it has ever recorded, the
last one first. -/
structure ResourceReader (Key Value : Type) where
  revisions : Key → Option ℕ
  values : Key → Option (ServedValue Value)
  generation : Option String
  capabilityRevision : Option String
  recorded : List (Recording Key)

variable {Key Value : Type} [DecidableEq Key]

/-- The answer of the server. -/
def ResourceServer.read (server : ResourceServer Key Value) (request : ReadRequest Key) :
    ReadResult Key Value where
  serverGeneration := server.serverGeneration
  capabilityRevision := server.capabilityRevision
  keys := request.keys
  status key :=
    match server.resource key with
    | none => .missing
    | some (revision, value) =>
      if request.ifNoneMatch key = some revision then .notModified revision
      else .ok revision ⟨server.serverGeneration, revision, value⟩

namespace ResourceReader

variable (reader : ResourceReader Key Value)

/-- `clear`. -/
def clear : ResourceReader Key Value :=
  { reader with
    revisions := fun _ => none
    values := fun _ => none
    generation := none
    capabilityRevision := none }

/-- `request`. -/
def request (keys : List Key) (conditional : Bool) : ReadRequest Key where
  knownServerGeneration := if conditional then reader.generation.filter (· ≠ "") else none
  capabilityRevision := if conditional then reader.capabilityRevision.filter (· ≠ "") else none
  keys
  ifNoneMatch key := if conditional then reader.revisions key else none

/-- The reply is of another generation of the server than the last. -/
def generationChanged (result : ReadResult Key Value) : Bool :=
  reader.generation.any (· ≠ result.serverGeneration)

/-- The reply is of other capabilities than the last. -/
def capabilitiesChanged (result : ReadResult Key Value) : Bool :=
  reader.capabilityRevision.any (· ≠ result.capabilityRevision)

/-- The two maps are cleared for a second request. -/
def reset : ResourceReader Key Value :=
  { reader with revisions := fun _ => none, values := fun _ => none }

/-- The loop of `apply`, for the entry of a key. -/
def applyEntry (serverGeneration : String) (update : ReadUpdate Key Value) (key : Key)
    (status : ResourceStatus Value) : ResourceReader Key Value × ReadUpdate Key Value :=
  match status with
  | .missing =>
    ({ reader with
        revisions := Function.update reader.revisions key none
        values := Function.update reader.values key none },
      { update with missing := update.missing ++ [key] })
  | .ok revision value =>
    ({ reader with
        revisions := Function.update reader.revisions key (some revision)
        values := Function.update reader.values key (some value)
        recorded := ⟨serverGeneration, key, revision⟩ :: reader.recorded },
      { update with values := Function.update update.values key (some value) })
  | .notModified revision =>
    ({ reader with
        revisions := Function.update reader.revisions key (some revision)
        recorded := ⟨serverGeneration, key, revision⟩ :: reader.recorded },
      match reader.values key with
      | some value => { update with values := Function.update update.values key (some value) }
      | none => update)

/-- The loop of `apply`. -/
def applyEntries (serverGeneration : String) (status : Key → ResourceStatus Value) :
    List Key → ResourceReader Key Value → ReadUpdate Key Value →
      ResourceReader Key Value × ReadUpdate Key Value
  | [], reader, update => (reader, update)
  | key :: keys, reader, update =>
    let (reader, update) := reader.applyEntry serverGeneration update key (status key)
    applyEntries serverGeneration status keys reader update

/-- `apply`. -/
def apply (result : ReadResult Key Value) (generationChanged : Bool) :
    ResourceReader Key Value × ReadUpdate Key Value :=
  applyEntries result.serverGeneration result.status result.keys { reader with
      generation := some result.serverGeneration
      capabilityRevision := some result.capabilityRevision }
    ⟨result.capabilityRevision, generationChanged, [], result.serverGeneration, fun _ => none⟩

end ResourceReader

/-- What a call of `read` waits for. -/
inductive ResourceReadPhase (Key Value : Type) where
  | sent (request : ReadRequest Key)
  /-- The reply is on its way. -/
  | answered (result : ReadResult Key Value)
  | done

/-- A call of `read`. -/
structure ResourceRead (Key Value : Type) where
  keys : List Key
  /-- `generationChanged` of a second request. -/
  again : Option Bool
  phase : ResourceReadPhase Key Value

/-- The reader, the server and the calls, with the updates that callers
were given. -/
structure ResourceReads (Key Value : Type) where
  reader : ResourceReader Key Value
  server : ResourceServer Key Value
  reads : List (ResourceRead Key Value)
  updates : List (ReadResult Key Value × ReadUpdate Key Value)

/-- The steps of the reads, of the network and of the server. -/
inductive ReadAction (Key Value : Type) where
  | read (keys : List Key)
  /-- The server comes to a request. -/
  | answer (i : ℕ)
  /-- A reply arrives. -/
  | arrive (i : ℕ)
  /-- A request is aborted or fails. -/
  | fail (i : ℕ)
  | clear
  /-- The server publishes, forgets or starts anew. -/
  | serve (server : ResourceServer Key Value)

namespace ResourceReads

variable (s : ResourceReads Key Value)

/-- A call goes on. -/
def setPhase (i : ℕ) (call : ResourceRead Key Value) (phase : ResourceReadPhase Key Value) :
    ResourceReads Key Value :=
  { s with reads := s.reads.set i { call with phase } }

/-- The reply of a call is applied. -/
def applied (i : ℕ) (call : ResourceRead Key Value) (result : ReadResult Key Value)
    (generationChanged : Bool) : ResourceReads Key Value :=
  let (reader, update) := s.reader.apply result generationChanged
  { s.setPhase i call .done with reader, updates := (result, update) :: s.updates }

/-- A second request is sent. -/
def askAgain (i : ℕ) (call : ResourceRead Key Value) (generationChanged : Bool) :
    ResourceReads Key Value :=
  let reader := s.reader.reset
  { s with
    reader
    reads := s.reads.set i
      ⟨call.keys, some generationChanged, .sent (reader.request call.keys false)⟩ }

/-- The reply that an action applies. -/
def appliedResult : ReadAction Key Value → Option (ReadResult Key Value)
  | .arrive i =>
    match s.reads[i]? with
    | some ⟨_, again, .answered result⟩ =>
      if again.isNone && (s.reader.generationChanged result || s.reader.capabilitiesChanged result)
      then none else some result
    | _ => none
  | _ => none

end ResourceReads

/-- **The machine of the reads.** -/
def readMachine (server : ResourceServer Key Value) :
    Machine (ResourceReads Key Value) (ReadAction Key Value) where
  init := ⟨⟨fun _ => none, fun _ => none, none, none, []⟩, server, [], []⟩
  step s
    | .read keys =>
      some { s with
        reads := s.reads ++ [⟨keys, none, .sent (s.reader.request keys true)⟩] }
    | .answer i =>
      match s.reads[i]? with
      | some ⟨keys, again, .sent request⟩ =>
        some (s.setPhase i ⟨keys, again, .sent request⟩ (.answered (s.server.read request)))
      | _ => none
    | .arrive i =>
      match s.reads[i]? with
      | some ⟨keys, again, .answered result⟩ =>
        let call := ⟨keys, again, .answered result⟩
        match again with
        | some generationChanged => some (s.applied i call result generationChanged)
        | none =>
          if s.reader.generationChanged result || s.reader.capabilitiesChanged result then
            some (s.askAgain i call (s.reader.generationChanged result))
          else some (s.applied i call result false)
      | _ => none
    | .fail i => (s.reads[i]?).map fun call => s.setPhase i call .done
    | .clear => some { s with reader := s.reader.clear }
    | .serve server => some { s with server }

/-! ## What is said of the reads -/

namespace ResourceReader

variable (reader : ResourceReader Key Value)

/-- What was last recorded for a key. -/
def lastRecorded (key : Key) : Option (Recording Key) :=
  reader.recorded.find? fun recording => recording.key = key

/-- **A recorded revision has its value.** -/
def Paired : Prop :=
  ∀ key revision, reader.revisions key = some revision →
    ∃ value, reader.values key = some value ∧ value.revision = revision ∧
      reader.lastRecorded key = some ⟨value.serverGeneration, key, revision⟩

/-- **Recorded revisions do not go backwards** within a generation. -/
def Forward : Prop :=
  reader.recorded.Pairwise fun later earlier =>
    later.serverGeneration = earlier.serverGeneration → later.key = earlier.key →
      earlier.revision ≤ later.revision

end ResourceReader

/-- **A caller is given every key** that is on the server, or is told that
it is missing. -/
def ResourceReads.Delivered (s : ResourceReads Key Value) : Prop :=
  ∀ given ∈ s.updates, ∀ key ∈ given.1.keys,
    (given.2.values key).isSome ∨ given.1.status key = .missing ∧ key ∈ given.2.missing

/-- The three together. -/
structure ResourceReads.Sound (s : ResourceReads Key Value) : Prop where
  paired : s.reader.Paired
  forward : s.reader.Forward
  delivered : s.Delivered

/-- An entry comes in time: what it calls not modified is what is recorded,
and nothing newer of its generation was recorded. -/
def ResourceReader.EntryInTime (reader : ResourceReader Key Value) (serverGeneration : String)
    (key : Key) : ResourceStatus Value → Prop
  | .ok revision _ =>
    ∀ old ∈ reader.recorded, old.serverGeneration = serverGeneration → old.key = key →
      old.revision ≤ revision
  | .notModified revision =>
    reader.revisions key = some revision ∧
      reader.lastRecorded key = some ⟨serverGeneration, key, revision⟩
  | .missing => True

instance (reader : ResourceReader Key Value) (serverGeneration : String) (key : Key) :
    ∀ status, Decidable (reader.EntryInTime serverGeneration key status)
  | .ok _ _ => inferInstanceAs (Decidable (∀ old ∈ reader.recorded, _))
  | .notModified _ => inferInstanceAs (Decidable (_ ∧ _))
  | .missing => inferInstanceAs (Decidable True)

/-- A reply comes in time, if each of its entries does. -/
def ResourceReader.InTime (reader : ResourceReader Key Value) (result : ReadResult Key Value) :
    Prop :=
  ∀ key ∈ result.keys, reader.EntryInTime result.serverGeneration key (result.status key)

instance (reader : ResourceReader Key Value) (result : ReadResult Key Value) :
    Decidable (reader.InTime result) :=
  inferInstanceAs (Decidable (∀ key ∈ result.keys, _))

/-- Every reply that is applied comes in time. -/
def ResourceReads.InTime (s : ResourceReads Key Value) (a : ReadAction Key Value) : Prop :=
  ∀ result ∈ s.appliedResult a, s.reader.InTime result

instance (s : ResourceReads Key Value) (a : ReadAction Key Value) : Decidable (s.InTime a) :=
  inferInstanceAs (Decidable (∀ result ∈ s.appliedResult a, _))

end Remux
