import GraphSession.Address
import GraphSession.Authentication
import GraphSession.Bookmarks.Basic
import GraphSession.Exchange.Event
import GraphSession.Exchange.Terms
import GraphSession.Retry.Backoff
import GraphSession.Value.Basic

/-!
  Everything a session asks of its surroundings, and what it is answered.

  The surroundings are a pool that lends connections, the connections themselves, a bookmark
  manager, a clock, a source of random samples and a journal.  `Request.Answer` gives each request
  the type of its answer; whatever may fail is answered by an `Except Fault`.
-/

namespace GraphSession

/-- The number of a result within its session. -/
abbrev ResultId := Nat

/-- The number of a transaction within its session. -/
abbrev TransactionId := Nat

/-- On whose behalf a session sends a message.  A query is sent by the result it starts, a begin by
    the transaction it starts; what serves the connection as such is sent by the session. -/
inductive Sender
  | session
  | result (id : ResultId)
  | transaction (id : TransactionId)
  deriving DecidableEq, Repr

/-- A connection on loan from the pool. -/
structure Connection where
  id : Nat
  server : ServerInfo
  deriving DecidableEq, Repr, Inhabited

/-- How many records one pull asks for: all, or a positive number. -/
inductive FetchSize
  | all
  | upTo (n : { n : Nat // 0 < n })
  deriving DecidableEq

namespace FetchSize

/-- A configured number of records; what is not positive means all. -/
def ofInt (i : Int) : FetchSize :=
  if h : 0 < i then .upTo ⟨i.toNat, by omega⟩ else .all

/-- The number on the wire. -/
def toInt : FetchSize → Int
  | all => -1
  | upTo n => n.val

/-- The records that one pull takes from those that are left. -/
def take {α : Type} : FetchSize → List α → List α
  | all, l => l
  | upTo n, l => l.take n.val

/-- The records that one pull leaves. -/
def drop {α : Type} : FetchSize → List α → List α
  | all, _ => []
  | upTo n, l => l.drop n.val

end FetchSize

/-- What a connection is wanted for. -/
structure AcquireRequest where
  mode : AccessMode := .write
  database : Option String := none
  bookmarks : Bookmarks := .empty
  impersonatedUser : Option String := none
  auth : Option AuthToken := none
  timeout : Option Duration := none
  deriving Inhabited

/-- Whose home database is wanted. -/
structure RoutingRequest where
  database : Option String := none
  impersonatedUser : Option String := none
  bookmarks : Bookmarks := .empty
  auth : Option AuthToken := none
  timeout : Option Duration := none
  deriving Inhabited

/-- The settings that a query of its own and the begin of a transaction share. -/
structure WorkRequest where
  bookmarks : Bookmarks := .empty
  mode : AccessMode := .write
  database : Option String := none
  impersonatedUser : Option String := none
  filter : NotificationFilter := {}
  metadata : Option Metadata := none
  timeout : Option Duration := none
  deriving Inhabited

/-- A query to run.  Inside a transaction the settings stay at their defaults. -/
structure RunRequest where
  query : String
  parameters : Params := .empty
  work : WorkRequest := {}
  deriving Inhabited

/-- The answer to a query: the keys of its records and what the server tells ahead of them. -/
structure RunReply where
  keys : List String
  database : Option String
  metadata : Metadata
  deriving Inhabited

/-- Some records of a result; the metadata counts when there are no more. -/
structure Batch where
  records : List (List Value)
  more : Bool
  metadata : Metadata
  deriving Inhabited

/-- A message on a connection. -/
inductive Message
  | telemetry (api : ApiKind)
  | run (request : RunRequest)
  | pull (size : FetchSize)
  | discard
  | begin (request : WorkRequest)
  | commit
  | rollback
  | reset

/-- What a message is answered when it succeeds.  A begin may name the database, a commit the
    bookmark of the transaction. -/
@[reducible] def Message.Reply : Message → Type
  | .run _ => RunReply
  | .pull _ => Batch
  | .discard => Metadata
  | .begin _ => Option String
  | .commit => Option String
  | .telemetry _ | .rollback | .reset => Unit

/-- A request of a session to its surroundings. -/
inductive Request
  | acquire (request : AcquireRequest)
  | release (connection : Connection)
  | findHome (request : RoutingRequest)
  | getBookmarks
  | updateBookmarks (previous new : Bookmarks)
  /-- The sender is there for the record; the server is not told. -/
  | send (connection : Connection) (sender : Sender) (message : Message)
  | sleep (time : Duration)
  | readClock
  | drawSample
  | note (event : Event)

/-- What a request is answered.  A search for the home database is answered by the names that were
    announced, in order. -/
@[reducible] def Request.Answer : Request → Type
  | .acquire _ => Except Fault Connection
  | .findHome _ => Except Fault (List String)
  | .getBookmarks => Except Fault Bookmarks
  | .updateBookmarks .. => Except Fault Unit
  | .send _ _ message => Except Fault message.Reply
  | .readClock => Instant
  | .drawSample => Float
  | .release _ | .sleep _ | .note _ => Unit

end GraphSession
