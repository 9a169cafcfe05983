import Mathlib.Data.List.Infix
import Remux.Common.Machine

/-!
# The gateway of an extension and the generations of its process

The supervisor of an extension, the readers of its children's output and
the requests to its gateway run on different threads. What they share is
the slot of the registry, under a lock, and two atomic numbers: the
generation of the process, and the generation whose readiness was stored
(`gateway_ready_generation`), which the status reports. So the steps here
are the accesses to these, and everything else may lie between them.

A procedure of the actor is the list of the accesses left to it. It spawns
a child only where it has none. A reader goes on to the next line when it
is done with one; of the lines only those are kept that report readiness.
Whether a prepared path is taken and whether a listener is private is what
the steps are told.
-/

namespace Remux

namespace Extensions

/-- An access of the actor to what it shares. -/
inductive GatewayOp where
  /-- `gateway_ready_generation.store(0)`. -/
  | clearReady
  /-- `generation.fetch_add(1)`. -/
  | nextGeneration
  /-- `prepare_extension_gateway` of the generation. -/
  | prepare
  /-- `spawn_extension`, and the reader of its output. -/
  | spawn
  | takeChild
  | retire (generation : ℕ)
  | cleanup (generation : ℕ)
  deriving DecidableEq

/-- The accesses of `spawn_child`. -/
def spawnOps : List GatewayOp := [.clearReady, .nextGeneration, .prepare, .spawn]

/-- What `spawn_child` does where there is no child to spawn. -/
def unspawnOps (generation : ℕ) : List GatewayOp := [.retire generation, .cleanup generation]

/-- The accesses of `handle_unprompted_exit`, and of `stop_child` where
there is a child. -/
def exitOps (generation : ℕ) : List GatewayOp :=
  [.takeChild, .retire generation, .clearReady, .cleanup generation, .nextGeneration]

/-- The accesses of `stop_child` where there is no child. -/
def stopOps (generation : ℕ) : List GatewayOp :=
  [.retire generation, .clearReady, .cleanup generation]

/-- How far a reader is with a line that reports readiness: it has found
its generation current, or it has activated it. -/
inductive ReaderPhase where
  | idle
  | checked
  | activated
  deriving DecidableEq

/-- The reader of a child's output. -/
structure StdoutReader where
  generation : ℕ
  phase : ReaderPhase
  deriving DecidableEq

/-- How far a request is: it has taken the active generation, found it not
cancelled, been refused, or been sent to its socket. -/
inductive RequestPhase where
  | taken
  | checked
  | refused
  | sent
  deriving DecidableEq

/-- A request to the gateway, with the generation it took; `retired` tells
whether that generation was retired when it did. -/
structure GatewayRequest where
  generation : ℕ
  retired : Bool
  phase : RequestPhase
  deriving DecidableEq

/-- An extension that declares a gateway. -/
structure ExtensionGateway where
  generation : ℕ
  gatewayReadyGeneration : ℕ
  /-- The slot of the registry. -/
  prepared : Option ℕ
  active : Option ℕ
  /-- The generations whose token is cancelled. -/
  cancelled : List ℕ
  /-- The sockets that are there, by their generation. -/
  sockets : List ℕ
  /-- The child, by the generation it was spawned with. -/
  child : Option ℕ
  /-- What is left of the actor's procedure. -/
  ops : List GatewayOp
  readers : List StdoutReader
  requests : List GatewayRequest
  /-- The generations that `retire_generation` has returned for. -/
  retired : List ℕ

namespace ExtensionGateway

variable (s : ExtensionGateway)

/-- `retire_slot_generation`, by what it cancels. -/
def cancel (slot : Option ℕ) : ExtensionGateway :=
  { s with cancelled := slot.toList ++ s.cancelled }

/-- `prepare_generation`; `free` says that the path is short enough and
not taken. -/
def prepareGeneration (generation : ℕ) (free : Bool) : Option ExtensionGateway :=
  if free && !s.sockets.contains generation then
    some { s.cancel s.prepared with
      prepared := some generation
      sockets := s.sockets.filter fun socket => some socket ≠ s.prepared }
  else none

/-- `activate_generation`; `isPrivate` says that the listener is the
runtime user's alone. -/
def activateGeneration (generation : ℕ) (isPrivate : Bool) : Option ExtensionGateway :=
  if s.prepared = some generation ∧ generation ∈ s.sockets ∧ isPrivate then
    some { s.cancel s.active with prepared := none, active := some generation }
  else none

/-- `retire_generation`. -/
def retireGeneration (generation : ℕ) : ExtensionGateway :=
  { s with
    prepared := s.prepared.filter (· ≠ generation)
    active := s.active.filter (· ≠ generation)
    cancelled := (s.prepared.filter (· = generation)).toList ++
      (s.active.filter (· = generation)).toList ++ s.cancelled
    retired := generation :: s.retired }

/-- `cleanup_generation`. -/
def cleanupGeneration (generation : ℕ) : ExtensionGateway :=
  { s with sockets := s.sockets.filter (· ≠ generation) }

/-- The next access of the actor; `succeeds` is how `prepare_generation`
and the spawn go. -/
def actorStep (succeeds : Bool) : Option ExtensionGateway :=
  match s.ops with
  | [] => none
  | .clearReady :: ops => some { s with gatewayReadyGeneration := 0, ops }
  | .nextGeneration :: ops => some { s with generation := s.generation + 1, ops }
  | .prepare :: ops =>
    match s.prepareGeneration s.generation succeeds with
    | some prepared => some { prepared with ops }
    | none => some { s with ops := [] }
  | .spawn :: ops =>
    if succeeds then
      some { s with
        child := some s.generation
        readers := s.readers ++ [⟨s.generation, .idle⟩]
        ops }
    else some { s with ops := unspawnOps s.generation }
  | .takeChild :: ops => some { s with child := none, ops }
  | .retire generation :: ops => some { s.retireGeneration generation with ops }
  | .cleanup generation :: ops => some { s.cleanupGeneration generation with ops }

/-- What a reader does, where it has come so far. -/
def readerStep (r : ℕ) (phase : ReaderPhase) (f : StdoutReader → ExtensionGateway) :
    Option ExtensionGateway :=
  match s.readers[r]? with
  | some reader => if reader.phase = phase then some (f reader) else none
  | none => none

/-- A reader goes on to a phase. -/
def setReader (r : ℕ) (reader : StdoutReader) (phase : ReaderPhase) : ExtensionGateway :=
  { s with readers := s.readers.set r { reader with phase } }

/-- A request goes on from a phase. -/
def requestStep (i : ℕ) (phase : RequestPhase) (f : GatewayRequest → RequestPhase) :
    Option ExtensionGateway :=
  match s.requests[i]? with
  | some request =>
    if request.phase = phase then
      some { s with requests := s.requests.set i { request with phase := f request } }
    else none
  | none => none

/-- The gateway facet of `ExtensionSupervisor::snapshot`, by its
generation where it is ready. -/
def facet : Option ℕ :=
  if s.gatewayReadyGeneration ≠ 0 then some s.gatewayReadyGeneration else none

end ExtensionGateway

/-- What the actor, a child, a reader or a request does. -/
inductive GatewayAction where
  | spawn
  /-- The child exits, or is stopped. -/
  | exit
  | stop
  | actor (succeeds : Bool)
  /-- A child listens on its socket. -/
  | listen (r : ℕ)
  | line (r : ℕ)
  | activate (r : ℕ) (isPrivate : Bool)
  | storeReady (r : ℕ)
  | request
  | check (i : ℕ)
  | send (i : ℕ)

namespace ExtensionGateway

/-- What an action does. -/
def gatewayStep (s : ExtensionGateway) : GatewayAction → Option ExtensionGateway
  | .spawn => if s.ops = [] ∧ s.child = none then some { s with ops := spawnOps } else none
  | .exit =>
    if s.ops = [] ∧ s.child.isSome then some { s with ops := exitOps s.generation } else none
  | .stop =>
    if s.ops = [] ∧ s.child = none then some { s with ops := stopOps s.generation } else none
  | .actor succeeds => s.actorStep succeeds
  | .listen r =>
    s.readers[r]?.map fun reader => { s with sockets := reader.generation :: s.sockets }
  | .line r =>
    s.readerStep r .idle fun reader =>
      if s.generation ≠ reader.generation then s else s.setReader r reader .checked
  | .activate r isPrivate =>
    s.readerStep r .checked fun reader =>
      match s.activateGeneration reader.generation isPrivate with
      | some activated => activated.setReader r reader .activated
      | none => s.setReader r reader .idle
  | .storeReady r =>
    s.readerStep r .activated fun reader =>
      { s.setReader r reader .idle with gatewayReadyGeneration := reader.generation }
  | .request =>
    match s.active with
    | some generation => some { s with
        requests := s.requests ++ [⟨generation, s.retired.contains generation, .taken⟩] }
    | none => some s
  | .check i =>
    s.requestStep i .taken fun request =>
      if s.cancelled.contains request.generation then .refused else .checked
  | .send i => s.requestStep i .checked fun _ => .sent

/-- No child was spawned yet. -/
def init : ExtensionGateway where
  generation := 0
  gatewayReadyGeneration := 0
  prepared := none
  active := none
  cancelled := []
  sockets := []
  child := none
  ops := []
  readers := []
  requests := []
  retired := []

end ExtensionGateway

/-- The runs of an extension and its gateway. -/
def gatewayMachine : Machine ExtensionGateway GatewayAction where
  init := .init
  step := ExtensionGateway.gatewayStep

end Extensions

end Remux
