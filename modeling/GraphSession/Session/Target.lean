import GraphSession.Query.Overrides
import GraphSession.Session.Causality

/-!
  Where the work of a session goes, and the connection that takes it there.

  The target database is configured, found by asking a routing pool for the user's home database,
  or taken from a response of the server; once known it stays.  One run may name another database,
  which the session does not remember, or another user, whose home database it does not remember
  either.
-/

namespace GraphSession

variable {ω : Type}

/-- Takes the database that the server named, unless the target is known. -/
def pinDatabase (peer : Peer ω) (named : Option String) : Act ω Unit := do
  match named with
  | none => pure ()
  | some database =>
    if (← theSession).target = .unresolved then
      note peer (.databasePinned database)
      changeSession ({ · with target := .resolved (some database) })

/-- Asks the pool for the home database: the name it announces last. -/
def findHome (peer : Peer ω) (o : Overrides) : Op ω (Option String) := do
  let s ← theSession
  let request : RoutingRequest :=
    { impersonatedUser := s.actingUser o.impersonatedUser
      bookmarks := ← bookmarksForWork peer
      auth := s.config.auth
      timeout := s.config.acquisitionTimeout }
  let names ← askHomes peer request
  return names.getLast?

/-- The database that work goes to: that of the run, the target if it is known, the home database
    if the pool can find one, or the server's default. -/
def resolveDatabase (peer : Peer ω) (o : Overrides) : Op ω (Option String) := do
  match o.database, (← theSession).target.database? with
  | some database, _ => return some database
  | none, some known => return known
  | none, none =>
    if !peer.routing then return none
    let home ← findHome peer o
    -- the home of a user named for one run is not the session's
    if o.impersonatedUser.isNone && (← theSession).target = .unresolved then
      changeSession ({ · with target := .resolved home })
    note peer (.homeResolved home)
    return home

/-- Borrows a connection and tells the server what kind of call it is for, if any and if that is
    wanted.  A connection that fails at this goes back at once. -/
def acquire (peer : Peer ω) (mode : AccessMode) (database user : Option String)
    (api : Option ApiKind) : Op ω Connection := do
  let s ← theSession
  let request : AcquireRequest :=
    { mode, database
      bookmarks := ← bookmarksForWork peer
      impersonatedUser := user
      auth := s.config.auth
      timeout := s.config.acquisitionTimeout }
  let connection ← borrow peer request
  if let some kind := api then
    if !s.config.telemetryDisabled then
      if let .error fault ← attempt (send peer connection .session (.telemetry kind)) then
        giveBack peer connection
        throw fault
  note peer (.connectionAcquired mode api)
  return connection

/-- Makes sure that the session holds a connection, and gives the database that the work names in
    its request.  A connection that is there is used again. -/
def connect (peer : Peer ω) (mode : AccessMode) (api : ApiKind) (o : Overrides) :
    Op ω (Option String) := do
  let s ← theSession
  if s.hasConnection then
    return match o.database with
      | some database => some database
      | none => s.target.database?.join
  else
    let database ← resolveDatabase peer o
    let connection ← acquire peer mode database (s.actingUser o.impersonatedUser) (some api)
    changeSession ({ · with connection := some connection })
    return database

end GraphSession
