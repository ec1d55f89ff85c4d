import GraphSession.Fault.Basic

/-!
  The faults the library raises itself, each named for its cause and worded in one place.
-/

namespace GraphSession.Fault

-- Sessions

def sessionClosed : Fault := .plain .session "Session closed"

def noConnection : Fault := .plain .session "The session holds no connection"

/-- A caller still holds an explicit transaction that has not ended. -/
def transactionStillOpen : Fault :=
  .plain .session "An explicit transaction is open; commit, roll back or close it first"

/-- A transaction cannot begin while the connection belongs to a result. -/
def resultsPending : Fault :=
  .plain .session
    "Cannot begin a transaction while auto-commit results are pending; consume them first"

-- Transactions

def transactionClosed : Fault := .plain .transaction "Transaction closed"

/-- Nothing but a rollback is left for a transaction in which a query failed. -/
def transactionFailed (action : String) : Fault :=
  .plain .transaction <| "Cannot " ++ action ++ " in this transaction, because it has been " ++
    "rolled back either because of an error or explicit termination"

/-- Metadata and timeout of a query have no place inside a transaction. -/
def queryOptionsInTransaction : Fault :=
  .plain .invalidArgument <| "Query metadata and timeout only apply to auto-commit queries; " ++
    "use TransactionConfig for transactions"

-- Results

def resultConsumed : Fault :=
  .plain .resultConsumed
    "The result has been consumed. Fetch all needed records before calling consume()"

/-- The result failed before; `reason` is the text of what it failed with. -/
def resultFailed (reason : String) : Fault :=
  .plain .resultConsumed ("The result failed earlier: " ++ reason)

/-- The transaction of the result has ended: by a commit, or in any other way. -/
def resultOutOfScope (committed : Bool) : Fault :=
  .plain .resultConsumed <|
    "The result is out of scope. The associated transaction has been " ++
      (if committed then "committed" else "closed")

def noSummary : Fault := .plain .resultConsumed "The result has no summary"

def noRecord : Fault :=
  .plain .resultNotSingle "No records found. Make sure your query returns exactly one record"

def manyRecords : Fault :=
  .plain .resultNotSingle "Expected a result with a single record, but found multiple"

-- Queries and parameters

def emptyQuery : Fault := .plain .invalidArgument "Cannot run an empty query"

def nullQuery : Fault := .plain .invalidArgument "Cannot run a null query"

def queryNotText (typeName : String) : Fault :=
  .plain .invalidType ("Query must be a string, got " ++ typeName)

def timeoutNotNumber (typeName : String) : Fault :=
  .plain .invalidType ("timeout must be a number, got " ++ typeName)

def timeoutNegative (seconds : String) : Fault :=
  .plain .invalidArgument ("timeout must be a non-negative number of seconds, got " ++ seconds)

def timeoutOutOfRange (seconds : String) : Fault :=
  .plain .invalidArgument ("timeout is out of range, got " ++ seconds)

def reservedNotText (key typeName : String) : Fault :=
  .plain .invalidType (key ++ " must be a string, got " ++ typeName)

-- Values and records

def cannotConvert (typeName target : String) : Fault :=
  .plain .typeConversion ("Cannot convert " ++ typeName ++ " to " ++ target)

def keyNotFound (key : String) : Fault :=
  .plain .typeConversion ("Key '" ++ key ++ "' not found")

-- Addresses, connections and pools

def invalidPort (port : String) : Fault := .plain .configuration ("Invalid port: " ++ port)

def invalidAddress (address : String) : Fault :=
  .plain .configuration ("Invalid server address: '" ++ address ++ "'")

/-- The connection cannot change who it is authenticated as. -/
def authenticationNotSupported : Fault :=
  .plain .configuration "Session level authentication is not supported by this connection"

def routingNotSupported : Fault :=
  .plain .configuration "Routing table updates require a routing pool"

def poolClosed : Fault := .plain .pool "Pool is closed"

/-- No connection became free in time. -/
def poolExhausted (timeout : String) : Fault :=
  .plain .timeout ("Failed to obtain a connection from the pool within " ++ timeout)

end GraphSession.Fault
