import Remux.Notifications.Model.Sessions

/-!
# Push tokens

`NotificationManager` of `notifications.rs` as far as the tokens of its
clients go: `dispatch_expo_push`, which reads a token, sends under it and
handles the ticket, and `persist_clients`, which takes a snapshot under the
lock of `clients` and writes it to the file after that. Registrations are
those of the push sessions.

What a push is about and how it is answered, but for the ticket, are left
out, and so are the failures of the file. Beside what the source keeps stand
the last token that was stored for the client of a push since its own was
read, and all snapshots, the first of them what was loaded.
-/

namespace Remux

/-- The tokens of the clients, as they are persisted. -/
abbrev ClientTokens := List (String × Option String)

/-- A snapshot of the clients. -/
def clientTokens (clients : Assoc String ClientState) : ClientTokens :=
  clients.entries.map fun entry => (entry.1, entry.2.expoPushToken)

/-- A push in flight: what it was sent under, and the last that was stored for
its client since, if anything was. -/
structure ExpoPush where
  clientId : String
  token : String
  since : Option (Option String)
  deriving DecidableEq

/-- A call of `persist_clients`: it has to take its snapshot, or to write the
one that it took. -/
inductive PersistCall where
  | due
  | writing (snapshot : ℕ)
  | done
  deriving DecidableEq

/-- The clients, the pushes in flight, the calls that persist, and the file. -/
structure TokenStore where
  manager : NotificationManager
  pushes : List ExpoPush
  persists : List PersistCall
  snapshots : List ClientTokens
  file : ClientTokens

/-- The answer to a push. -/
inductive Ticket where
  | accepted
  | deviceNotRegistered
  deriving DecidableEq

/-- The token that is stored for a client. -/
def storedToken (clients : Assoc String ClientState) (clientId : String) : Option String :=
  (clients.lookup clientId).bind ClientState.expoPushToken

namespace TokenStore

/-- The token that is stored for a client. -/
def token (s : TokenStore) (clientId : String) : Option String :=
  storedToken s.manager.clients clientId

/-- A token is stored for a client while pushes to it are in flight. -/
def stored (pushes : List ExpoPush) (clientId : String) (token : Option String) : List ExpoPush :=
  pushes.map fun push =>
    if push.clientId = clientId then { push with since := some token } else push

/-- `register_client_session`, up to the client half of `set_identity`. -/
def register (s : TokenStore) (connectionKey : ℕ) (registration : Registration) : TokenStore :=
  { s with
    manager := s.manager.register connectionKey registration
    pushes :=
      if s.manager.isStale registration ∨ registration.tokenProvided = false then s.pushes
      else stored s.pushes registration.clientId registration.expoPushToken }

/-- Its end; a token that was provided is to be persisted. -/
def registered (s : TokenStore) (connectionKey : ℕ) (registration : Registration) : TokenStore :=
  { s with
    manager := s.manager.registered connectionKey registration
    persists := if registration.tokenProvided then s.persists ++ [.due] else s.persists }

/-- `deliver_notification` reads the token of a client. -/
def readToken (s : TokenStore) (clientId : String) : Option TokenStore :=
  if s.manager.registering.isSome then none
  else (s.token clientId).map fun token =>
    { s with pushes := s.pushes ++ [⟨clientId, token, none⟩] }

/-- `dispatch_expo_push` handles the ticket: if the device is not registered,
the client's token is cleared, and persisted. -/
def ticket (s : TokenStore) (i : ℕ) (ticket : Ticket) : Option TokenStore :=
  (s.pushes[i]?).bind fun push =>
    match ticket with
    | .accepted => some { s with pushes := s.pushes.eraseIdx i }
    | .deviceNotRegistered =>
      if s.manager.registering.isSome then none
      else
        some { s with
          manager := { s.manager with
            clients := s.manager.clients.modify push.clientId fun state =>
              { state with expoPushToken := none } }
          pushes := stored (s.pushes.eraseIdx i) push.clientId none
          persists := s.persists ++ [.due] }

/-- `persist_clients` takes a snapshot. -/
def snapshot (s : TokenStore) (c : ℕ) : Option TokenStore :=
  if s.manager.registering.isSome then none
  else
    match s.persists[c]? with
    | some .due => some { s with
        snapshots := s.snapshots ++ [clientTokens s.manager.clients]
        persists := s.persists.set c (.writing s.snapshots.length) }
    | _ => none

/-- `persist_clients` writes the snapshot that it took. -/
def write (s : TokenStore) (c : ℕ) : Option TokenStore :=
  match s.persists[c]? with
  | some (.writing n) => (s.snapshots[n]?).map fun tokens => { s with
      file := tokens
      persists := s.persists.set c .done }
  | _ => none

end TokenStore

/-- A step of a registration, a disconnection, a push or a call that
persists. -/
inductive TokenAction where
  | register (connectionKey : ℕ) (registration : Registration)
  | registered
  | disconnect (connectionKey : ℕ)
  | disconnecting (d : ℕ)
  | readToken (clientId : String)
  | ticket (i : ℕ) (ticket : Ticket)
  | snapshot (c : ℕ)
  | write (c : ℕ)

/-- **The machine of the push tokens**, from the tokens that were persisted. -/
def tokenMachine (tokens : List (String × Option String)) : Machine TokenStore TokenAction where
  init :=
    { manager := (sessionMachine tokens).init
      pushes := []
      persists := []
      snapshots := [clientTokens (loadPersistedClients tokens)]
      file := clientTokens (loadPersistedClients tokens) }
  step s
    | .register connectionKey registration =>
      if s.manager.registering.isNone then some (s.register connectionKey registration) else none
    | .registered =>
      s.manager.registering.map fun (connectionKey, registration) =>
        s.registered connectionKey registration
    | .disconnect connectionKey =>
      ((sessionMachine tokens).step s.manager (.disconnect connectionKey)).map fun manager =>
        { s with manager }
    | .disconnecting d =>
      ((sessionMachine tokens).step s.manager (.disconnecting d)).map fun manager =>
        { s with manager }
    | .readToken clientId => s.readToken clientId
    | .ticket i ticket => s.ticket i ticket
    | .snapshot c => s.snapshot c
    | .write c => s.write c

end Remux
