import GraphSession.Session.Work

/-!
  Sessions, transactions and results in diagnostic output.
-/

namespace GraphSession

/-- A truth value in diagnostic output. -/
def debugBool (b : Bool) : String := if b then "true" else "false"

def Target.debug : Target → String
  | unresolved => "Unresolved"
  | resolved database => "Resolved(" ++ Text.debugOption (database.map Text.debug) ++ ")"

def TransactionState.name : TransactionState → String
  | active => "Active"
  | failed => "Failed"
  | committed => "Committed"
  | rolledBack => "RolledBack"
  | closed => "Closed"

/-- A session.  A transaction counts as open until the session has seen that it is over. -/
def Session.debug (s : Session) : String :=
  Text.debugRecord "Session"
    [("core", Text.debugRecord "SessionCore"
      [("database", s.target.debug),
       ("bookmarks", s.bookmarks.debug),
       ("units", toString s.units),
       ("closed", debugBool s.closed)]),
     ("transaction_open", debugBool s.current.isSome)]

/-- A transaction: one that its caller ends, or one that a transaction function works in. -/
def TransactionView.debug (t : TransactionView) : String :=
  Text.debugRecord (if t.managed then "ManagedTransaction" else "Transaction")
    [("state", t.state.name)]

def ResultView.debug (r : ResultView) : String :=
  Text.debugRecord "QueryResult"
    [("query", Text.debug r.query),
     ("keys", Text.debugList (r.keys.map Text.debug)),
     ("open", debugBool r.isOpen)]

end GraphSession
