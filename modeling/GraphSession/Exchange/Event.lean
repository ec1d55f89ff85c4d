import GraphSession.Exchange.Terms
import GraphSession.Fault.Basic
import GraphSession.Duration
import GraphSession.Text.Quoted

/-!
  What the journal is told.

  An event is something worth a line in a log: what happened, with the particulars.  Level, source,
  wording and fields of the line are a function of the event.
-/

namespace GraphSession

/-- How much a line of the journal matters. -/
inductive Level
  | debug
  | info
  | warn
  deriving DecidableEq, Repr

/-- The name of a level in the journal. -/
def Level.name : Level → String
  | debug => "DEBUG"
  | info => "INFO"
  | warn => "WARN"

/-- Something that the journal is told. -/
inductive Event
  | connectionAcquired (mode : AccessMode) (api : Option ApiKind)
  | connectionReleased
  | resetFailed (fault : Fault)
  | databasePinned (database : String)
  | homeResolved (database : Option String)
  | orphanRolledBack
  | consumeFailed (fault : Fault)
  | sessionClosed
  | sessionAbandoned
  | rollbackFailed (fault : Fault)
  | transactionDropped
  | retryScheduled (attempt : UInt32) (delay : Duration)
  | poolLent (mode : AccessMode) (database : Option String)
  | poolTookBack (idle : Nat)
  | poolRefusedForeign
  | poolClosed (drained : Nat)
  | bookmarksUpdated (before after : Nat)
  | executeRenamed (mode : AccessMode)
  | lastBookmarkDeprecated

namespace Event

def level : Event → Level
  | resetFailed _ | consumeFailed _ | rollbackFailed _ => .info
  | orphanRolledBack | sessionAbandoned | transactionDropped | retryScheduled .. => .warn
  | poolRefusedForeign | executeRenamed _ | lastBookmarkDeprecated => .warn
  | _ => .debug

/-- The part of the library that speaks. -/
def target : Event → String
  | rollbackFailed _ | transactionDropped => "bolt_session::driver::transaction"
  | retryScheduled .. => "bolt_session::driver::retry"
  | poolLent .. | poolTookBack _ | poolRefusedForeign | poolClosed _ => "bolt_session::driver::pool"
  | bookmarksUpdated .. => "bolt_session::driver::bookmarks"
  | executeRenamed _ | lastBookmarkDeprecated => "bolt_session::deprecation"
  | _ => "bolt_session::driver::session"

/-- The word that the names of transaction-function calls end in. -/
private def verb : AccessMode → String
  | .read => "read"
  | .write => "write"

def message : Event → String
  | connectionAcquired .. => "Session acquired connection"
  | connectionReleased => "Session released connection"
  | resetFailed _ => "Ignoring failure to reset connection"
  | databasePinned _ => "Pinned session database from server response"
  | homeResolved _ => "Resolved home database"
  | orphanRolledBack => "Rolling back a transaction that was dropped while still open"
  | consumeFailed _ => "Ignoring failure to consume pending result on close"
  | sessionClosed => "Session closed"
  | sessionAbandoned => "Session dropped outside a runtime without being closed"
  | rollbackFailed _ => "Ignoring failure to roll back transaction"
  | transactionDropped =>
    "Transaction dropped without commit or rollback; the session will roll it back"
  | retryScheduled _ delay => "Transaction failed and will be retried in " ++ delay.text
  | poolLent .. => "Connection acquired"
  | poolTookBack _ => "Connection released"
  | poolRefusedForeign => "Ignoring release of a connection not handed out by this pool"
  | poolClosed _ => "Connection pool closed"
  | bookmarksUpdated .. => "Bookmark manager updated"
  | executeRenamed mode =>
    verb mode ++ "_transaction has been renamed to execute_" ++ verb mode
  | lastBookmarkDeprecated => "last_bookmark has been deprecated in favor of last_bookmarks"

/-- The particulars, by name. -/
def fields : Event → List (String × String)
  | connectionAcquired mode api =>
    [("mode", mode.text), ("api", Text.debugOption (api.map ApiKind.debug))]
  | resetFailed fault | consumeFailed fault | rollbackFailed fault => [("error", fault.text)]
  | databasePinned database => [("database", database)]
  | homeResolved database => [("database", Text.debugOption (database.map Text.debug))]
  | retryScheduled attempt _ => [("attempt", toString attempt)]
  | poolLent mode database =>
    [("mode", mode.text), ("database", Text.debugOption (database.map Text.debug))]
  | poolTookBack idle => [("idle", toString idle)]
  | poolClosed drained => [("drained", toString drained)]
  | bookmarksUpdated before after => [("before", toString before), ("after", toString after)]
  | _ => []

end Event

end GraphSession
