import GraphSession.Session.Transaction

/-!
  Beginning work: auto-commit queries and explicit transactions.

  Before anything else a session looks at its explicit transaction.  One that is over is forgotten;
  one that its caller dropped is rolled back; one that its caller still holds stands in the way.
-/

namespace GraphSession

variable {ω : Type}

/-- Fails on a closed session. -/
def checkOpen {m : Type → Type} [Monad m] [MonadState (State ω) m] [MonadExcept Fault m] :
    m Unit := do
  if (← theSession).closed then throw .sessionClosed

/-- Settles what became of the session's explicit transaction. -/
def reapTransaction (peer : Peer ω) : Op ω Unit := do
  let s ← theSession
  match s.current with
  | none => pure ()
  | some id =>
    let t := s.transaction id
    if !t.state.isTerminated && t.holder = .caller then throw .transactionStillOpen
    changeSession ({ · with current := none })
    if !t.state.isTerminated then
      note peer .orphanRolledBack
      closeQuietly peer id

/-- Fetches the latest auto-commit result to the end; the session then forgets it. -/
def bufferAutoResult (peer : Peer ω) : Op ω Unit := do
  match (← theSession).autoResult with
  | none => pure ()
  | some id =>
    changeSession ({ · with autoResult := none })
    bufferAll peer id

/-- The settings of a request of this session, but for database and bookmarks. -/
def Session.workRequest (s : Session) (mode : AccessMode) (user : Option String)
    (metadata : Option Metadata) (timeout : Option Duration) : WorkRequest :=
  { mode
    impersonatedUser := s.actingUser user
    filter := s.config.filter
    metadata
    timeout }

/-- Runs a query as a unit of its own.  The result before it is fetched to the end first, and the
    connection is used again. -/
def run (peer : Peer ω) (source : QuerySource) (params : Option Params) : Op ω ResultId := do
  let query ← settleOn (Query.ofSource source)
  checkOpen
  reapTransaction peer
  let (extracted, parameters) := Overrides.extract (mergeParameters params query.parameters)
  let o ← settleOn extracted
  let s ← theSession
  let mode := s.config.defaultMode
  beginUnit
  let prepared ← attempt do
    bufferAutoResult peer
    let database ← connect peer mode .autoCommit o
    let bookmarks ← bookmarksForWork peer
    return (database, bookmarks)
  match prepared with
  | .error fault =>
    endUnit peer
    throw fault
  | .ok (database, bookmarks) =>
    let work :=
      s.workRequest mode o.impersonatedUser query.metadata (o.timeout.or query.timeout)
    let request : RunRequest :=
      { query := query.text, parameters, work := { work with database, bookmarks } }
    let id ← startResult peer request (.autoCommit bookmarks o.database.isNone)
    changeSession ({ · with autoResult := some id })
    return id

/-- Opens a transaction on the server. -/
def openTransaction (peer : Peer ω) (mode : AccessMode) (api : ApiKind)
    (config : TransactionConfig) (holder : Holder) : Op ω TransactionId := do
  beginUnit
  let prepared ← attempt do
    let database ← connect peer mode api {}
    let bookmarks ← bookmarksForWork peer
    return (database, bookmarks)
  match prepared with
  | .error fault =>
    endUnit peer
    throw fault
  | .ok (database, bookmarks) =>
    let s ← theSession
    let work := s.workRequest mode none config.metadataForRequest config.timeout
    match ← attempt (beginHeld peer s.nextTransaction { work with database, bookmarks }) with
    | .error fault =>
      abortUnit peer
      throw fault
    | .ok named =>
      pinDatabase peer named
      addTransaction { sent := bookmarks, holder }

/-- Begins an explicit transaction, which its caller ends. -/
def beginTransaction (peer : Peer ω) (config : TransactionConfig) : Op ω TransactionId := do
  checkOpen
  reapTransaction peer
  let s ← theSession
  if 0 < s.units then throw .resultsPending
  let id ← openTransaction peer s.config.defaultMode .explicitTransaction config .caller
  changeSession ({ · with current := some id })
  return id

end GraphSession
