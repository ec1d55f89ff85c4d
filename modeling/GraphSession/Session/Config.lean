import GraphSession.Authentication
import GraphSession.Bookmarks.Basic
import GraphSession.Exchange.Terms
import GraphSession.Retry.Config
import GraphSession.Value.Basic

/-!
  The settings of a session and of a transaction.
-/

namespace GraphSession

/-- The settings of a session. -/
structure SessionConfig where
  /-- The target database; `none` leaves it to the server. -/
  database : Option String := none
  /-- What the first unit of work waits for. -/
  bookmarks : Bookmarks := .empty
  defaultMode : AccessMode := .write
  /-- How many records one request fetches; all of them when the number is not positive. -/
  fetchSize : Int := 1000
  /-- Whether the session shares its bookmarks through a bookmark manager. -/
  hasManager : Bool := false
  impersonatedUser : Option String := none
  auth : Option AuthToken := none
  /-- How long to wait for a connection; `none` leaves it to the pool. -/
  acquisitionTimeout : Option Duration := none
  filter : NotificationFilter := {}
  retry : RetryConfig := {}
  telemetryDisabled : Bool := false
  deriving Inhabited

namespace SessionConfig

/-- Adds one bookmark to wait for. -/
def addBookmark (c : SessionConfig) (value : String) : SessionConfig :=
  { c with bookmarks := c.bookmarks.union (.singleton value) }

/-- Sets the time allowed for a series of attempts. -/
def withMaxRetryTime (c : SessionConfig) (time : Duration) : SessionConfig :=
  { c with retry := { c.retry with maxRetryTime := time } }

end SessionConfig

/-- The settings of a transaction. -/
structure TransactionConfig where
  timeout : Option Duration := none
  metadata : Metadata := .empty
  deriving Inhabited

namespace TransactionConfig

/-- Adds an entry of metadata. -/
def withMetadata (c : TransactionConfig) (name : String) (value : Value) : TransactionConfig :=
  { c with metadata := Fields.insert name value c.metadata }

/-- The metadata as a request carries it: empty metadata is left out. -/
def metadataForRequest (c : TransactionConfig) : Option Metadata :=
  if c.metadata.isEmpty then none else some c.metadata

/-- Whether nothing was set. -/
def isDefault (c : TransactionConfig) : Bool := c.timeout.isNone && c.metadata.isEmpty

end TransactionConfig

end GraphSession
