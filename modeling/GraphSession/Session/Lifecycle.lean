import GraphSession.Session.Begin

/-!
  The end of a session, and questions about it.

  Closing a session ends whatever is open, gives the connection back and lets nothing fail: faults
  on the way are only noted.  A caller may also just let go of a session.  Then its transaction is
  rolled back and the connection goes back, without a word in the journal; where nobody is left to
  do even that, the journal is told.
-/

namespace GraphSession

variable {ω : Type}

/-- The session's own bookmarks, after its latest auto-commit result has been fetched to the end.
    A closed session still has them. -/
def lastBookmarks (peer : Peer ω) : Op ω Bookmarks := do
  if let some id := (← theSession).autoResult then bufferAll peer id
  return (← theSession).bookmarks

/-- The latest of the session's bookmarks, under the name of an older interface. -/
def lastBookmark (peer : Peer ω) : Op ω (Option String) := do
  note peer .lastBookmarkDeprecated
  return (← lastBookmarks peer).latest

/-- The server that the session talks to.  Without a connection of its own the session borrows one
    for reading, just to look at it. -/
def serverInfo (peer : Peer ω) : Op ω ServerInfo := do
  checkOpen
  let s ← theSession
  match s.connection with
  | some connection => return connection.server
  | none =>
    let database ← resolveDatabase peer {}
    let connection ← acquire peer .read database (s.actingUser none) none
    giveBack peer connection
    return connection.server

/-- Rolls back the session's explicit transaction, which the session forgets. -/
def endCurrent (peer : Peer ω) : Act ω Unit := do
  match (← theSession).current with
  | none => pure ()
  | some id =>
    changeSession ({ · with current := none })
    closeQuietly peer id

/-- Consumes the latest auto-commit result, which the session forgets. -/
def consumeAutoResult (peer : Peer ω) : Act ω Unit := do
  match (← theSession).autoResult with
  | none => pure ()
  | some id =>
    changeSession ({ · with autoResult := none })
    match ← (consume peer id).run with
    | .ok _ => pure ()
    | .error fault => note peer (.consumeFailed fault)

/-- Closes the session.  Closing it again does nothing. -/
def close (peer : Peer ω) : Act ω Unit := do
  if !(← theSession).closed then
    endCurrent peer
    consumeAutoResult peer
    endAllUnits peer
    changeSession ({ · with closed := true })
    note peer .sessionClosed

/-- The caller lets go of the session. -/
def abandon (peer : Peer ω) : Act ω Unit := do
  if !(← theSession).closed then
    endCurrent peer
    endAllUnits peer
    changeSession ({ · with closed := true })

/-- The caller lets go of the session where nothing can be sent any more. -/
def abandonUnattended (peer : Peer ω) : Act ω Unit := do
  if !(← theSession).closed then note peer .sessionAbandoned

end GraphSession
