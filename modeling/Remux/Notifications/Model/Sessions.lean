import Remux.Common.Assoc
import Remux.Common.Machine
import Mathlib.Data.Prod.Lex

/-!
# Push sessions

`NotificationManager` of `notifications.rs` as far as its `clients` go:
`register_client_session` and `on_client_disconnected`, and the identity
that each connection remembers of its last registration.

A registration holds the lock of `clients` throughout, but the identity
is behind two locks of its own, one for each half, and a disconnection
reads both before it takes the lock. So a registration is two steps, the
first up to the client half of `set_identity`, and a disconnection is
three.
-/

namespace Remux

/-- `SessionState`; its `client` is the connection with the key. -/
structure SessionState where
  connectionKey : ℕ
  connectionGeneration : ℕ
  registrationRevision : ℕ
  deriving DecidableEq

/-- `ClientState`. -/
structure ClientState where
  expoPushToken : Option String
  sessions : Assoc String SessionState

/-- `Registration`. -/
structure Registration where
  clientId : String
  sessionId : String
  connectionGeneration : ℕ
  registrationRevision : ℕ
  expoPushToken : Option String
  tokenProvided : Bool
  deriving DecidableEq

/-- The pair that decides between two registrations, in lexicographic
order. -/
def SessionState.revision (session : SessionState) : ℕ ×ₗ ℕ :=
  toLex (session.connectionGeneration, session.registrationRevision)

@[inherit_doc SessionState.revision]
def Registration.revision (registration : Registration) : ℕ ×ₗ ℕ :=
  toLex (registration.connectionGeneration, registration.registrationRevision)

/-- Where a call of `on_client_disconnected` stands. -/
inductive DisconnectPhase where
  | readingClient
  | readingSession (clientId : Option String)
  | releasing (clientId sessionId : String)
  | done
  deriving DecidableEq

/-- A call of `on_client_disconnected`. -/
structure Disconnect where
  connectionKey : ℕ
  phase : DisconnectPhase
  deriving DecidableEq

/-- The entry of a session among the clients. -/
def findSession (clients : Assoc String ClientState) (clientId sessionId : String) :
    Option SessionState :=
  (clients.lookup clientId).bind fun state => state.sessions.lookup sessionId

/-- The clients, what each connection remembers, and the calls at work. -/
structure NotificationManager where
  clients : Assoc String ClientState
  /-- The two halves of a connection's `identity`. -/
  clientId : ℕ → Option String
  sessionId : ℕ → Option String
  /-- The registration that holds the lock of `clients`. -/
  registering : Option (ℕ × Registration)
  disconnects : List Disconnect

namespace NotificationManager

/-- The entry of a session. -/
def session (s : NotificationManager) (clientId sessionId : String) : Option SessionState :=
  findSession s.clients clientId sessionId

/-- The registration is older than the entry it would replace. -/
def isStale (s : NotificationManager) (registration : Registration) : Bool :=
  (s.session registration.clientId registration.sessionId).any
    fun current => decide (current.revision > registration.revision)

/-- The identity that a registration releases: the one its connection
remembers, if it is another. -/
def previousIdentity (s : NotificationManager) (connectionKey : ℕ) (registration : Registration) :
    Option (String × String) :=
  match s.clientId connectionKey, s.sessionId connectionKey with
  | some previousClientId, some previousSessionId =>
    if previousClientId ≠ registration.clientId ∨ previousSessionId ≠ registration.sessionId then
      some (previousClientId, previousSessionId)
    else none
  | _, _ => none

/-- The clients with the client of a registration among them, and with
the token that it provides. -/
def withToken (clients : Assoc String ClientState) (registration : Registration) :
    Assoc String ClientState :=
  let state := (clients.lookup registration.clientId).getD ⟨none, ∅⟩
  clients.insert registration.clientId
    (if registration.tokenProvided then { state with expoPushToken := registration.expoPushToken }
    else state)

/-- The clients without the entry of a session. -/
def withoutSession (clients : Assoc String ClientState) (identity : String × String) :
    Assoc String ClientState :=
  clients.modify identity.1 fun previous =>
    { previous with sessions := previous.sessions.erase identity.2 }

/-- `register_client_session`, up to the client half of `set_identity`. -/
def register (s : NotificationManager) (connectionKey : ℕ) (registration : Registration) :
    NotificationManager :=
  if s.isStale registration then s
  else
    let clients := withToken s.clients registration
    { s with
      clients :=
        match s.previousIdentity connectionKey registration with
        | some previous => withoutSession clients previous
        | none => clients
      clientId := Function.update s.clientId connectionKey (some registration.clientId)
      registering := some (connectionKey, registration) }

/-- The rest of `register_client_session`: the session half, and the
entry. -/
def registered (s : NotificationManager) (connectionKey : ℕ) (registration : Registration) :
    NotificationManager :=
  { s with
    clients := s.clients.modify registration.clientId fun state =>
      { state with
        sessions := state.sessions.insert registration.sessionId
          ⟨connectionKey, registration.connectionGeneration, registration.registrationRevision⟩ }
    sessionId := Function.update s.sessionId connectionKey (some registration.sessionId)
    registering := none }

/-- The last step of `on_client_disconnected`: the entry goes if it is
the connection's. -/
def release (s : NotificationManager) (connectionKey : ℕ) (clientId sessionId : String) :
    NotificationManager :=
  if (s.session clientId sessionId).any fun session => session.connectionKey == connectionKey then
    { s with clients := withoutSession s.clients (clientId, sessionId) }
  else s

/-- A disconnection goes on. -/
def disconnectEnters (s : NotificationManager) (d : ℕ) (disconnect : Disconnect)
    (phase : DisconnectPhase) : NotificationManager :=
  { s with disconnects := s.disconnects.set d { disconnect with phase } }

/-- The next step of `on_client_disconnected`. -/
def stepDisconnect (s : NotificationManager) (d : ℕ) : Option NotificationManager :=
  (s.disconnects[d]?).bind fun disconnect =>
    match disconnect.phase with
    | .readingClient =>
      some (s.disconnectEnters d disconnect (.readingSession (s.clientId disconnect.connectionKey)))
    | .readingSession clientId =>
      match clientId, s.sessionId disconnect.connectionKey with
      | some clientId, some sessionId =>
        some (s.disconnectEnters d disconnect (.releasing clientId sessionId))
      | _, _ => some (s.disconnectEnters d disconnect .done)
    | .releasing clientId sessionId =>
      if s.registering.isNone then
        some ((s.release disconnect.connectionKey clientId sessionId).disconnectEnters d
          disconnect .done)
      else none
    | .done => none

end NotificationManager

/-- A step of a registration or of a disconnection. -/
inductive SessionAction where
  | register (connectionKey : ℕ) (registration : Registration)
  | registered
  | disconnect (connectionKey : ℕ)
  | disconnecting (d : ℕ)

/-- `load_persisted_clients`, of the tokens in the file. -/
def loadPersistedClients (tokens : List (String × Option String)) : Assoc String ClientState :=
  tokens.foldl (fun clients entry => clients.insert entry.1 ⟨entry.2, ∅⟩) ∅

/-- **The machine of the push sessions**, from the tokens that were
persisted. -/
def sessionMachine (tokens : List (String × Option String)) :
    Machine NotificationManager SessionAction where
  init :=
    { clients := loadPersistedClients tokens
      clientId := fun _ => none
      sessionId := fun _ => none
      registering := none
      disconnects := [] }
  step s
    | .register connectionKey registration =>
      if s.registering.isNone then some (s.register connectionKey registration) else none
    | .registered =>
      s.registering.map fun (connectionKey, registration) => s.registered connectionKey registration
    | .disconnect connectionKey =>
      some { s with disconnects := s.disconnects ++ [⟨connectionKey, .readingClient⟩] }
    | .disconnecting d => s.stepDisconnect d

end Remux
